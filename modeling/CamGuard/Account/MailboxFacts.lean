/-
What the log of a run says about the mailbox (`Kept`), and that every operation
of the mailbox keeps it so with the event that is logged for it.

Most operations only stop, claim or expire slots (`Quiet`); `submit`, `bind`,
`finish` and `take` are the ones that give a slot something new.
-/
import CamGuard.Account.Dispatcher
import CamGuard.Lib.Trace

namespace CamGuard.Account

/-! ## The log -/

/-- An outcome of the ticket has been taken. -/
def Yielded (log : List DispatchEvent) (ticket : MailboxTicket) : Prop :=
  ∃ now outcome, DispatchEvent.taken ticket now (some outcome) ∈ log

/-- What is right after what came before. -/
def DispatchEvent.Right (before : List DispatchEvent) : DispatchEvent → Prop
  | .accepted ticket _ => ∀ deadline, DispatchEvent.accepted ticket deadline ∉ before
  | .taken ticket now outcome =>
    (outcome.isSome → ¬ Yielded before ticket) ∧
    (∀ deadline, DispatchEvent.accepted ticket deadline ∈ before → deadline ≤ now → outcome.isSome ∨ Yielded before ticket) ∧
    ∀ o, outcome = some o → o.status = .response → ∃ c, o.completion = some c ∧ c.status = .response ∧
      DispatchEvent.bound ticket c.request ∈ before ∧ DispatchEvent.completed c ∈ before
  | .bound ticket request =>
    (∀ request', DispatchEvent.bound ticket request' ∉ before) ∧
      ∀ ticket' request', DispatchEvent.bound ticket' request' ∈ before → request'.ticket ≠ request.ticket
  | .completed _ => True
  | .closed => True

theorem accepted_unique {log : List DispatchEvent} (h : Justified DispatchEvent.Right log) {ticket : MailboxTicket}
    {deadline deadline' : ℚ} (ha : .accepted ticket deadline ∈ log) (hb : .accepted ticket deadline' ∈ log) :
    deadline = deadline' := by
  rcases h.ordered ha hb with heq | ⟨before, hmem, hright⟩ | ⟨before, hmem, hright⟩
  · cases heq
    rfl
  · exact absurd hmem (hright deadline)
  · exact absurd hmem (hright deadline')

/-- A ticket is bound to one request, and a request to one ticket. -/
theorem bound_unique {log : List DispatchEvent} (h : Justified DispatchEvent.Right log) {a b : MailboxTicket}
    {r r' : ReadRequest} (ha : .bound a r ∈ log) (hb : .bound b r' ∈ log) (hsame : a = b ∨ r.ticket = r'.ticket) :
    a = b ∧ r = r' := by
  rcases h.ordered ha hb with heq | ⟨before, hmem, hticket, hrequest⟩ | ⟨before, hmem, hticket, hrequest⟩
  · cases heq
    exact ⟨rfl, rfl⟩
  · rcases hsame with rfl | hsame
    · exact absurd hmem (hticket r)
    · exact absurd hsame (hrequest a r hmem)
  · rcases hsame with rfl | hsame
    · exact absurd hmem (hticket r')
    · exact absurd hsame.symm (hrequest b r' hmem)

/-- A slot is as the log says. -/
structure SlotKept (log : List DispatchEvent) (ticket : MailboxTicket) (slot : MailSlot) : Prop where
  accepted : DispatchEvent.accepted ticket slot.submission.deadline ∈ log
  waiting : slot.consumed = false → ¬ Yielded log ticket
  consumed : slot.consumed → slot.outcome = none ∧ Yielded log ticket
  request : ∀ r, slot.request = some r ↔ DispatchEvent.bound ticket r ∈ log
  response : ∀ o, slot.outcome = some o → o.status = .response → ∃ c, o.completion = some c ∧ c.status = .response ∧
    slot.request = some c.request ∧ DispatchEvent.completed c ∈ log

/-- The mailbox is as the log says, and the log is right. -/
structure BrokerMailbox.Kept (log : List DispatchEvent) (m : BrokerMailbox) : Prop where
  right : Justified DispatchEvent.Right log
  size : m.slots.size ≤ MAX_PENDING
  fresh : ∀ ticket deadline, DispatchEvent.accepted ticket deadline ∈ log → ticket.sequence < m.next
  slots : ∀ ticket slot, m.slots.get? ticket = some slot → SlotKept log ticket slot
  gone : ∀ ticket deadline, DispatchEvent.accepted ticket deadline ∈ log → m.slots.get? ticket = none → Yielded log ticket
  bound : ∀ ticket request, DispatchEvent.bound ticket request ∈ log → ∃ deadline, DispatchEvent.accepted ticket deadline ∈ log
  yielded : ∀ ticket, Yielded log ticket → ∃ deadline, DispatchEvent.accepted ticket deadline ∈ log
  ended : DispatchEvent.closed ∈ log → m.closed ∧
    ∀ ticket slot, m.slots.get? ticket = some slot → slot.outcome.isSome ∨ slot.consumed

/-! ## Slots that are stopped, claimed or expired -/

namespace MailSlot

/-- A slot that gets nothing new but an ending. -/
structure Evolves (s s' : MailSlot) : Prop where
  submission : s'.submission = s.submission
  consumed : s'.consumed = s.consumed
  request : s'.request = s.request
  outcome : s'.outcome = s.outcome ∨
    (s.outcome = none ∧ s.consumed = false ∧ ∃ o, s'.outcome = some o ∧ o.status ≠ .response)

variable {s s' s'' : MailSlot}

theorem Evolves.refl (s : MailSlot) : Evolves s s := ⟨rfl, rfl, rfl, .inl rfl⟩

theorem Evolves.trans (h : Evolves s s') (h' : Evolves s' s'') : Evolves s s'' where
  submission := h'.submission.trans h.submission
  consumed := h'.consumed.trans h.consumed
  request := h'.request.trans h.request
  outcome := by
    rcases h'.outcome with hsame | ⟨hnone, hopen, hending⟩
    · rw [hsame]
      exact h.outcome
    · rcases h.outcome with hsame | ⟨hnone', -, o, ho, -⟩
      · exact .inr ⟨hsame ▸ hnone, h.consumed ▸ hopen, hending⟩
      · rw [hnone] at ho
        cases ho

/-- An outcome that is there stays. -/
theorem Evolves.stays (h : Evolves s s') {o : ReadOutcome} (ho : s.outcome = some o) : s'.outcome = some o := by
  rcases h.outcome with hsame | ⟨hnone, -⟩
  · rw [hsame, ho]
  · rw [ho] at hnone
    cases hnone

theorem evolves_stop (s : MailSlot) {status : ReadStatus} (h : status ≠ .response) : Evolves s (s.stop status) := by
  unfold stop
  by_cases hopen : s.outcome.isNone ∧ s.consumed = false
  · rw [if_pos hopen]
    exact ⟨rfl, rfl, rfl, .inr ⟨by simpa using hopen.1, hopen.2, _, rfl, h⟩⟩
  · rw [if_neg hopen]
    exact .refl s

theorem evolves_expire (s : MailSlot) (now : ℚ) : Evolves s (s.expire now) := by
  unfold expire
  split
  · exact evolves_stop s (by decide)
  · exact .refl s

theorem evolves_claim (s : MailSlot) (closed : Bool) : Evolves s (s.claim closed) := by
  unfold claim
  split
  · exact ⟨rfl, rfl, rfl, .inl rfl⟩
  · exact .refl s

/-- What is stopped has an outcome, unless it was taken. -/
theorem stop_ended (s : MailSlot) (status : ReadStatus) : (s.stop status).outcome.isSome ∨ (s.stop status).consumed := by
  unfold stop
  by_cases hopen : s.outcome.isNone ∧ s.consumed = false
  · rw [if_pos hopen]
    exact .inl rfl
  · rw [if_neg hopen]
    by_cases hnone : s.outcome.isNone
    · exact .inr (by simpa [hnone] using hopen)
    · exact .inl (Option.isSome_iff_ne_none.mpr (by simpa using hnone))

end MailSlot

open MailSlot (Evolves)

/-- What a slot is kept to does not depend on its endings, or on what is logged
about other things. -/
theorem SlotKept.evolves {log : List DispatchEvent} {ticket : MailboxTicket} {s s' : MailSlot} (h : SlotKept log ticket s)
    (he : Evolves s s') : SlotKept log ticket s' where
  accepted := by rw [he.submission]; exact h.accepted
  waiting := by rw [he.consumed]; exact h.waiting
  consumed := by
    intro hconsumed
    rw [he.consumed] at hconsumed
    obtain ⟨hnone, hyielded⟩ := h.consumed hconsumed
    rcases he.outcome with hsame | ⟨-, hopen, -⟩
    · exact ⟨hsame.trans hnone, hyielded⟩
    · rw [hconsumed] at hopen
      cases hopen
  request := by rw [he.request]; exact h.request
  response := by
    intro o ho hresponse
    rcases he.outcome with hsame | ⟨-, -, o', ho', hother⟩
    · rw [he.request]
      exact h.response o (hsame ▸ ho) hresponse
    · rw [ho] at ho'
      cases ho'
      exact absurd hresponse hother

/-- An event that is not about the ticket's acceptance, binding or yield. -/
def DispatchEvent.Aside (ticket : MailboxTicket) : DispatchEvent → Prop
  | .accepted other _ => other ≠ ticket
  | .taken other _ outcome => outcome.isSome → other ≠ ticket
  | .bound other _ => other ≠ ticket
  | .completed _ => True
  | .closed => True

theorem yielded_append {log : List DispatchEvent} {e : DispatchEvent} {ticket : MailboxTicket} :
    Yielded (log ++ [e]) ticket ↔ Yielded log ticket ∨ ∃ now outcome, e = .taken ticket now (some outcome) := by
  constructor
  · rintro ⟨now, outcome, hmem⟩
    rcases List.mem_append.mp hmem with hmem | hmem
    · exact .inl ⟨now, outcome, hmem⟩
    · exact .inr ⟨now, outcome, (List.mem_singleton.mp hmem).symm⟩
  · rintro (⟨now, outcome, hmem⟩ | ⟨now, outcome, rfl⟩)
    · exact ⟨now, outcome, List.mem_append_left _ hmem⟩
    · exact ⟨now, outcome, List.mem_append_right _ (List.mem_singleton_self _)⟩

theorem yielded_aside {log : List DispatchEvent} {e : DispatchEvent} {ticket : MailboxTicket} (h : e.Aside ticket) :
    Yielded (log ++ [e]) ticket ↔ Yielded log ticket := by
  rw [yielded_append, or_iff_left]
  rintro ⟨now, outcome, rfl⟩
  exact h rfl rfl

theorem bound_aside {log : List DispatchEvent} {e : DispatchEvent} {ticket : MailboxTicket} (h : e.Aside ticket)
    (request : ReadRequest) :
    DispatchEvent.bound ticket request ∈ log ++ [e] ↔ DispatchEvent.bound ticket request ∈ log := by
  rw [List.mem_append, or_iff_left]
  intro hmem
  rw [List.mem_singleton] at hmem
  rw [← hmem] at h
  exact h rfl

theorem accepted_aside {log : List DispatchEvent} {e : DispatchEvent} {ticket : MailboxTicket} (h : e.Aside ticket)
    (deadline : ℚ) :
    DispatchEvent.accepted ticket deadline ∈ log ++ [e] ↔ DispatchEvent.accepted ticket deadline ∈ log := by
  rw [List.mem_append, or_iff_left]
  intro hmem
  rw [List.mem_singleton] at hmem
  rw [← hmem] at h
  exact h rfl

theorem SlotKept.aside {log : List DispatchEvent} {e : DispatchEvent} {ticket : MailboxTicket} {s : MailSlot}
    (h : SlotKept log ticket s) (he : e.Aside ticket) : SlotKept (log ++ [e]) ticket s where
  accepted := List.mem_append_left _ h.accepted
  waiting := by rw [yielded_aside he]; exact h.waiting
  consumed := by rw [yielded_aside he]; exact h.consumed
  request := fun r => by rw [bound_aside he]; exact h.request r
  response := fun o ho hresponse => by
    obtain ⟨c, hcompletion, hstatus, hrequest, hcompleted⟩ := h.response o ho hresponse
    exact ⟨c, hcompletion, hstatus, hrequest, List.mem_append_left _ hcompleted⟩

namespace BrokerMailbox

/-- The mailbox after an operation that gives no slot anything new. -/
structure Quiet (m m' : BrokerMailbox) : Prop where
  slot : ∀ ticket, (m.slots.get? ticket = none ∧ m'.slots.get? ticket = none) ∨
    ∃ s s', m.slots.get? ticket = some s ∧ m'.slots.get? ticket = some s' ∧ Evolves s s'
  size : m'.slots.size = m.slots.size
  next : m'.next = m.next
  closed : m.closed → m'.closed

variable {m m' : BrokerMailbox}

theorem Quiet.refl (m : BrokerMailbox) : Quiet m m where
  slot := fun ticket => by
    cases hslot : m.slots.get? ticket with
    | none => exact .inl ⟨rfl, rfl⟩
    | some s => exact .inr ⟨s, s, rfl, rfl, .refl s⟩
  size := rfl
  next := rfl
  closed := id

theorem quiet_mapValues (m : BrokerMailbox) {f : MailSlot → MailSlot} (hf : ∀ s, Evolves s (f s)) {closed : Bool}
    (hclosed : m.closed → closed) : Quiet m { m with slots := m.slots.mapValues f, closed := closed } where
  slot := fun ticket => by
    simp only [Dict.get?_mapValues]
    cases hslot : m.slots.get? ticket with
    | none => exact .inl ⟨rfl, rfl⟩
    | some s => exact .inr ⟨s, f s, rfl, rfl, hf s⟩
  size := Dict.size_mapValues ..
  next := rfl
  closed := hclosed

theorem quiet_set {ticket : MailboxTicket} {s s' : MailSlot} (hslot : m.slots.get? ticket = some s) (hs : Evolves s s') :
    Quiet m { m with slots := m.slots.set ticket s' } where
  slot := fun other => by
    simp only [Dict.get?_set]
    by_cases hother : other = ticket
    · rw [hother, if_pos rfl, hslot]
      exact .inr ⟨s, s', rfl, rfl, hs⟩
    · rw [if_neg hother]
      exact (Quiet.refl m).slot other
  size := Dict.size_set_of_some hslot s'
  next := rfl
  closed := id

theorem quiet_poll (m : BrokerMailbox) (now : ℚ) : Quiet m (m.poll now).2 := by
  have hmap : Quiet m { m with
      slots := m.slots.mapValues fun s => (s.expire now).claim m.closed
      closed := m.closed } :=
    m.quiet_mapValues (fun s => (s.evolves_expire now).trans ((s.expire now).evolves_claim m.closed)) id
  have hcompose : (m.slots.mapValues fun s => s.expire now).mapValues (MailSlot.claim m.closed) =
      m.slots.mapValues fun s => (s.expire now).claim m.closed := by
    apply Dict.ext
    simp [Dict.mapValues]
  unfold poll
  simp only [hcompose]
  exact hmap

theorem quiet_cancel (m : BrokerMailbox) (ticket : MailboxTicket) : Quiet m (m.cancel ticket) := by
  unfold cancel
  split
  · exact .refl m
  · next slot hslot => exact quiet_set hslot (slot.evolves_stop (by decide))

theorem quiet_ready (m : BrokerMailbox) (ticket : MailboxTicket) (now : ℚ) : Quiet m (m.ready ticket now).2 := by
  unfold ready
  split
  · exact .refl m
  · next slot hslot => exact quiet_set hslot (slot.evolves_expire now)

theorem quiet_drain (m : BrokerMailbox) : Quiet m m.drain := by
  refine m.quiet_mapValues (fun s => ?_) fun _ => rfl
  by_cases hclaimed : s.claimed
  · rw [if_pos hclaimed]
    exact .refl s
  · rw [if_neg hclaimed]
    exact s.evolves_stop (by decide)

theorem quiet_close (m : BrokerMailbox) : Quiet m m.close :=
  m.quiet_mapValues (fun s => s.evolves_stop (by decide)) fun _ => rfl

end BrokerMailbox

/-! ## Operations -/

section

open BrokerMailbox (Kept Quiet)

variable {log : List DispatchEvent} {m m' : BrokerMailbox}

/-- A quiet operation, with an event that is about no ticket. -/
theorem BrokerMailbox.Kept.quiet (h : Kept log m) (hq : Quiet m m') : Kept log m' where
  right := h.right
  size := by rw [hq.size]; exact h.size
  fresh := by rw [hq.next]; exact h.fresh
  slots := by
    intro ticket slot hslot
    rcases hq.slot ticket with ⟨-, hnone⟩ | ⟨s, s', hs, hs', he⟩
    · rw [hslot] at hnone
      cases hnone
    · rw [hslot] at hs'
      cases hs'
      exact (h.slots ticket s hs).evolves he
  gone := by
    intro ticket deadline haccepted hgone
    rcases hq.slot ticket with ⟨hnone, -⟩ | ⟨s, s', -, hs', -⟩
    · exact h.gone ticket deadline haccepted hnone
    · rw [hgone] at hs'
      cases hs'
  bound := h.bound
  yielded := h.yielded
  ended := by
    intro hclosed
    obtain ⟨hm, hslots⟩ := h.ended hclosed
    refine ⟨hq.closed hm, fun ticket slot hslot => ?_⟩
    rcases hq.slot ticket with ⟨-, hnone⟩ | ⟨s, s', hs, hs', he⟩
    · rw [hslot] at hnone
      cases hnone
    · rw [hslot] at hs'
      cases hs'
      rcases hslots ticket s hs with hsome | hconsumed
      · obtain ⟨o, ho⟩ := Option.isSome_iff_exists.mp hsome
        rw [he.stays ho]
        exact .inl rfl
      · exact .inr (he.consumed.trans hconsumed)

/-- An event that is about no ticket. -/
theorem BrokerMailbox.Kept.aside (h : Kept log m) {e : DispatchEvent} (he : ∀ ticket, e.Aside ticket) (hright : e.Right log)
    (hended : e = .closed → m.closed ∧ ∀ ticket slot, m.slots.get? ticket = some slot → slot.outcome.isSome ∨ slot.consumed) :
    Kept (log ++ [e]) m where
  right := h.right.snoc hright
  size := h.size
  fresh := fun ticket deadline haccepted => h.fresh ticket deadline ((accepted_aside (he ticket) deadline).mp haccepted)
  slots := fun ticket slot hslot => (h.slots ticket slot hslot).aside (he ticket)
  gone := fun ticket deadline haccepted hnone => by
    rw [yielded_aside (he ticket)]
    exact h.gone ticket deadline ((accepted_aside (he ticket) deadline).mp haccepted) hnone
  bound := fun ticket request hbound => by
    obtain ⟨deadline, haccepted⟩ := h.bound ticket request ((bound_aside (he ticket) request).mp hbound)
    exact ⟨deadline, List.mem_append_left _ haccepted⟩
  yielded := fun ticket hyielded => by
    obtain ⟨deadline, haccepted⟩ := h.yielded ticket ((yielded_aside (he ticket)).mp hyielded)
    exact ⟨deadline, List.mem_append_left _ haccepted⟩
  ended := fun hclosed => by
    rcases List.mem_append.mp hclosed with hclosed | hclosed
    · exact h.ended hclosed
    · exact hended (List.mem_singleton.mp hclosed).symm

/-- Completions of the account. -/
theorem BrokerMailbox.Kept.completions (h : Kept log m) (cs : List ReadCompletion) : Kept (log ++ cs.map .completed) m := by
  induction cs using List.reverseRecOn with
  | nil => simpa using h
  | append_singleton cs c ih =>
    rw [List.map_append, ← List.append_assoc]
    exact ih.aside (fun _ => trivial) trivial fun hclosed => by cases hclosed

theorem BrokerMailbox.Kept.closed (h : Kept log m) : Kept (log ++ [.closed]) m.close := by
  refine (h.quiet m.quiet_close).aside (fun _ => trivial) trivial fun _ => ⟨rfl, fun ticket slot hslot => ?_⟩
  simp only [BrokerMailbox.close, Dict.get?_mapValues, Option.map_eq_some_iff] at hslot
  obtain ⟨s, -, rfl⟩ := hslot
  exact s.stop_ended .cancelled

/-- A cancellation that the owner has acknowledged. -/
theorem BrokerMailbox.Kept.acknowledged (h : Kept log m) (ticket : MailboxTicket) : Kept log (m.acknowledgeCancel ticket) := by
  unfold BrokerMailbox.acknowledgeCancel
  split
  · exact h
  next slot hslot =>
  split
  · exact h
  split
  · next hconsumed =>
    -- Only a slot whose outcome was taken goes.
    have hyielded := ((h.slots ticket slot hslot).consumed hconsumed).2
    have hkept : ∀ other s, (m.slots.erase ticket).get? other = some s → m.slots.get? other = some s := by
      intro other s hs
      rw [Dict.get?_erase] at hs
      split at hs
      · cases hs
      · exact hs
    exact { h with
      size := le_trans (Dict.size_erase_le ..) h.size
      slots := fun other s hs => h.slots other s (hkept other s hs)
      gone := fun other deadline haccepted hnone => by
        simp only [Dict.get?_erase] at hnone
        by_cases hother : other = ticket
        · rw [hother]
          exact hyielded
        · rw [if_neg hother] at hnone
          exact h.gone other deadline haccepted hnone
      ended := fun hclosed => ⟨(h.ended hclosed).1, fun other s hs => (h.ended hclosed).2 other s (hkept other s hs)⟩ }
  · exact h.quiet (BrokerMailbox.quiet_set hslot ⟨rfl, rfl, rfl, .inl rfl⟩)

theorem BrokerMailbox.Kept.submitted [Rounding] (h : Kept log m) {device : Nat} {path : String} {timeout now : ℚ} {submission : ReadSubmission}
    (hsubmit : m.submit device path timeout now = (.ok submission, m')) :
    Kept (log ++ [.accepted submission.ticket submission.deadline]) m' := by
  unfold BrokerMailbox.submit at hsubmit
  split at hsubmit
  · cases hsubmit
  split at hsubmit
  · cases hsubmit
  next hopen =>
  split at hsubmit
  · cases hsubmit
  next hcapacity =>
  cases hsubmit
  rw [not_or] at hopen
  have hnew : ∀ deadline, DispatchEvent.accepted ⟨m.generation, m.next⟩ deadline ∉ log := fun deadline hmem =>
    absurd (h.fresh _ _ hmem) (lt_irrefl _)
  have hnone : m.slots.get? ⟨m.generation, m.next⟩ = none := by
    cases hslot : m.slots.get? ⟨m.generation, m.next⟩ with
    | none => rfl
    | some slot => exact absurd (h.slots _ slot hslot).accepted (hnew _)
  have hunyielded : ¬ Yielded log ⟨m.generation, m.next⟩ := fun hyielded =>
    (h.yielded _ hyielded).elim fun deadline hmem => hnew deadline hmem
  have hyielded : ∀ ticket, Yielded (log ++ [.accepted ⟨m.generation, m.next⟩ (Rounding.round (now + timeout))]) ticket ↔
      Yielded log ticket := by
    intro ticket
    rw [yielded_append, or_iff_left]
    rintro ⟨_, _, hevent⟩
    cases hevent
  exact {
    right := h.right.snoc hnew
    size := by
      simp only
      rw [Dict.size_set_of_none hnone]
      exact not_le.mp hcapacity
    fresh := fun ticket deadline hmem => by
      rcases List.mem_append.mp hmem with hmem | hmem
      · exact Nat.lt_succ_of_lt (h.fresh ticket deadline hmem)
      · cases List.mem_singleton.mp hmem
        exact Nat.lt_succ_self _
    slots := fun ticket slot hslot => by
      simp only [Dict.get?_set] at hslot
      by_cases hticket : ticket = ⟨m.generation, m.next⟩
      · rw [if_pos hticket] at hslot
        cases hslot
        subst hticket
        exact {
          accepted := List.mem_append_right _ (List.mem_singleton_self _)
          waiting := fun _ hy => hunyielded ((hyielded _).mp hy)
          consumed := fun hc => by cases hc
          request := fun r => by
            refine ⟨fun hr => (by cases hr), fun hbound => ?_⟩
            have hbound : DispatchEvent.bound ⟨m.generation, m.next⟩ r ∈ log := by simpa using hbound
            obtain ⟨deadline, hmem⟩ := h.bound _ r hbound
            exact absurd hmem (hnew deadline)
          response := fun o ho => by cases ho }
      · rw [if_neg hticket] at hslot
        exact (h.slots ticket slot hslot).aside fun heq => hticket heq.symm
    gone := fun ticket deadline hmem hgone => by
      simp only [Dict.get?_set] at hgone
      by_cases hticket : ticket = ⟨m.generation, m.next⟩
      · rw [if_pos hticket] at hgone
        cases hgone
      · rw [if_neg hticket] at hgone
        have haside : (DispatchEvent.accepted ⟨m.generation, m.next⟩ (Rounding.round (now + timeout))).Aside ticket :=
          fun heq => hticket heq.symm
        rw [hyielded]
        exact h.gone ticket deadline ((accepted_aside haside deadline).mp hmem) hgone
    bound := fun ticket request hbound => by
      obtain ⟨deadline, hmem⟩ := h.bound ticket request (by simpa using hbound)
      exact ⟨deadline, List.mem_append_left _ hmem⟩
    yielded := fun ticket hy => by
      obtain ⟨deadline, hmem⟩ := h.yielded ticket ((hyielded ticket).mp hy)
      exact ⟨deadline, List.mem_append_left _ hmem⟩
    ended := fun hclosed => absurd (h.ended (by simpa using hclosed)).1 hopen.1 }

theorem submit_refused [Rounding] {device : Nat} {path : String} {timeout now : ℚ} {fault : MailboxFault}
    (hsubmit : m.submit device path timeout now = (.error fault, m')) : m' = m := by
  unfold BrokerMailbox.submit at hsubmit
  split at hsubmit
  · cases hsubmit
    rfl
  split at hsubmit
  · cases hsubmit
    rfl
  split at hsubmit
  · cases hsubmit
    rfl
  · cases hsubmit

/-- A read is bound to a request that no other read was bound to. -/
theorem BrokerMailbox.Kept.binding (h : Kept log m) {ticket : MailboxTicket} {request : ReadRequest} {now : ℚ}
    (hbind : m.bind ticket request now = (true, m'))
    (hfresh : ∀ ticket' request', DispatchEvent.bound ticket' request' ∈ log → request'.ticket ≠ request.ticket) :
    Kept (log ++ [.bound ticket request]) m' := by
  unfold BrokerMailbox.bind at hbind
  split at hbind
  · cases hbind
  next slot hslot =>
  split at hbind
  · next hbinds =>
    cases hbind
    simp only [BrokerMailbox.binds, Bool.and_eq_true, Option.isNone_iff_eq_none, Bool.not_eq_true', decide_eq_true_eq] at hbinds
    obtain ⟨⟨⟨⟨⟨⟨⟨⟨⟨-, hunbound⟩, hnone⟩, hopen⟩, -⟩, -⟩, -⟩, -⟩, -⟩, -⟩ := hbinds
    have hkept := h.slots ticket slot hslot
    have hyielded : ∀ other, Yielded (log ++ [.bound ticket request]) other ↔ Yielded log other := by
      intro other
      rw [yielded_append, or_iff_left]
      rintro ⟨_, _, hevent⟩
      cases hevent
    have hunlogged : ∀ r, DispatchEvent.bound ticket r ∉ log := fun r hmem => by
      rw [← hkept.request, hunbound] at hmem
      cases hmem
    exact {
      right := h.right.snoc ⟨hunlogged, hfresh⟩
      size := by
        simp only
        rw [Dict.size_set_of_some hslot]
        exact h.size
      fresh := fun other deadline hmem => h.fresh other deadline (by simpa using hmem)
      slots := fun other s hs => by
        simp only [Dict.get?_set] at hs
        by_cases hother : other = ticket
        · rw [if_pos hother] at hs
          cases hs
          subst hother
          exact {
            accepted := List.mem_append_left _ hkept.accepted
            waiting := by rw [hyielded]; exact hkept.waiting
            consumed := by rw [hyielded]; exact hkept.consumed
            request := fun r => by
              simp only [Option.some.injEq, List.mem_append, List.mem_singleton, DispatchEvent.bound.injEq, true_and]
              exact ⟨fun heq => .inr heq.symm, fun hor => hor.elim (fun hmem => absurd hmem (hunlogged r)) Eq.symm⟩
            response := fun o ho => by
              rw [hnone] at ho
              cases ho }
        · rw [if_neg hother] at hs
          exact (h.slots other s hs).aside fun heq => hother heq.symm
      gone := fun other deadline hmem hgone => by
        simp only [Dict.get?_set] at hgone
        split at hgone
        · cases hgone
        · rw [hyielded]
          exact h.gone other deadline (by simpa using hmem) hgone
      bound := fun other r hmem => by
        rcases List.mem_append.mp hmem with hmem | hmem
        · obtain ⟨deadline, haccepted⟩ := h.bound other r hmem
          exact ⟨deadline, List.mem_append_left _ haccepted⟩
        · cases List.mem_singleton.mp hmem
          exact ⟨_, List.mem_append_left _ hkept.accepted⟩
      yielded := fun other hy => by
        obtain ⟨deadline, hmem⟩ := h.yielded other ((hyielded other).mp hy)
        exact ⟨deadline, List.mem_append_left _ hmem⟩
      ended := fun hclosed => by
        obtain ⟨-, hslots⟩ := h.ended (by simpa using hclosed)
        rcases hslots ticket slot hslot with hsome | hconsumed
        · rw [hnone] at hsome
          cases hsome
        · rw [hopen] at hconsumed
          cases hconsumed }
  · cases hbind

theorem bind_refused {ticket : MailboxTicket} {request : ReadRequest} {now : ℚ}
    (hbind : m.bind ticket request now = (false, m')) : m' = m := by
  unfold BrokerMailbox.bind at hbind
  split at hbind
  · cases hbind
    rfl
  split at hbind
  · cases hbind
  · cases hbind
    rfl

/-- A completion reaches its slot. -/
theorem BrokerMailbox.Kept.finished (h : Kept log m) {completion : ReadCompletion} (hcompleted : .completed completion ∈ log)
    (ticket : MailboxTicket) (now : ℚ) : Kept log (m.finish ticket completion now) := by
  unfold BrokerMailbox.finish
  split
  · exact h
  next slot hslot =>
  split
  · exact h
  next hgo =>
  simp only [not_or, Bool.not_eq_false, Bool.not_eq_true, Option.isSome_eq_false_iff, Option.isNone_iff_eq_none, ne_eq,
    Decidable.not_not] at hgo
  obtain ⟨-, hnone, hopen, hrequest⟩ := hgo
  by_cases hlate : slot.submission.deadline ≤ now
  · simp only [if_pos hlate]
    exact h.quiet (BrokerMailbox.quiet_set hslot ⟨rfl, rfl, rfl, .inr ⟨hnone, hopen, _, rfl, by decide⟩⟩)
  · simp only [if_neg hlate]
    have hkept := h.slots ticket slot hslot
    exact { h with
      size := by
        simp only
        rw [Dict.size_set_of_some hslot]
        exact h.size
      slots := fun other s hs => by
        simp only [Dict.get?_set] at hs
        by_cases hother : other = ticket
        · rw [if_pos hother] at hs
          cases hs
          subst hother
          exact { hkept with
            consumed := fun hc => by
              simp only [hopen] at hc
              cases hc
            response := fun o ho hresponse => by
              cases ho
              exact ⟨completion, rfl, hresponse, hrequest, hcompleted⟩ }
        · rw [if_neg hother] at hs
          exact h.slots other s hs
      gone := fun other deadline hmem hgone => by
        simp only [Dict.get?_set] at hgone
        split at hgone
        · cases hgone
        · exact h.gone other deadline hmem hgone
      ended := fun hclosed => by
        obtain ⟨-, hslots⟩ := h.ended hclosed
        rcases hslots ticket slot hslot with hsome | hconsumed
        · rw [hnone] at hsome
          cases hsome
        · rw [hopen] at hconsumed
          cases hconsumed }

/-- What a take can do: give nothing, from a slot that has nothing yet, or give
a slot's outcome. -/
theorem take_cases (m : BrokerMailbox) (ticket : MailboxTicket) (now : ℚ) :
    (m.slots.get? ticket = none ∧ m.take ticket now = (none, m)) ∨
    ∃ slot, m.slots.get? ticket = some slot ∧
      ((slot.consumed ∧ m.take ticket now = (none, m)) ∨
      (slot.consumed = false ∧ now < slot.submission.deadline ∧ slot.outcome = none ∧
        m.take ticket now = (none, { m with slots := m.slots.set ticket slot })) ∨
      ∃ o slots, slot.consumed = false ∧ (slot.expire now).outcome = some o ∧
        m.take ticket now = (some o, { m with slots := slots }) ∧
        (slots = m.slots.set ticket { slot.expire now with outcome := none, consumed := true } ∨
          slots = m.slots.erase ticket)) := by
  unfold BrokerMailbox.take BrokerMailbox.takeBound
  cases hslot : m.slots.get? ticket with
  | none => exact .inl ⟨rfl, rfl⟩
  | some slot =>
    refine .inr ⟨slot, rfl, ?_⟩
    by_cases hconsumed : slot.consumed
    · simp only [if_pos hconsumed]
      exact .inl ⟨hconsumed, rfl⟩
    · simp only [if_neg hconsumed]
      have hopen : slot.consumed = false := by simpa using hconsumed
      cases houtcome : (slot.expire now).outcome with
      | none =>
        -- At its deadline a slot is stopped, and has an outcome.
        have hearly : now < slot.submission.deadline := by
          by_contra hlate
          rw [MailSlot.expire, if_pos (not_lt.mp hlate)] at houtcome
          rcases slot.stop_ended .timeout with hsome | hsome
          · rw [houtcome] at hsome
            cases hsome
          · rw [(slot.evolves_stop (by decide)).consumed, hopen] at hsome
            cases hsome
        have hsame : slot.expire now = slot := if_neg (not_le.mpr hearly)
        rw [hsame] at houtcome ⊢
        exact .inr (.inl ⟨hopen, hearly, houtcome, rfl⟩)
      | some o =>
        refine .inr (.inr ⟨o, _, hopen, rfl, rfl, ?_⟩)
        by_cases hpending : (slot.expire now).cancelPending
        · exact .inl (if_pos hpending)
        · exact .inr (if_neg hpending)

theorem BrokerMailbox.Kept.taken (h : Kept log m) (ticket : MailboxTicket) (now : ℚ) :
    Kept (log ++ [.taken ticket now (m.take ticket now).1]) (m.take ticket now).2 := by
  have hnothing : (∀ deadline, DispatchEvent.accepted ticket deadline ∈ log → deadline ≤ now → Yielded log ticket) →
      Kept (log ++ [.taken ticket now none]) m := by
    intro hlate
    refine h.aside (fun _ hsome => by cases hsome) ⟨fun hsome => (by cases hsome), fun deadline hmem hdeadline => ?_, ?_⟩
      fun hclosed => by cases hclosed
    · exact .inr (hlate deadline hmem hdeadline)
    · intro o ho
      cases ho
  rcases take_cases m ticket now with ⟨hnone, heq⟩ | ⟨slot, hslot, hcases⟩
  · rw [heq]
    exact hnothing fun deadline hmem _ => h.gone ticket deadline hmem hnone
  have hkept := h.slots ticket slot hslot
  rcases hcases with ⟨hconsumed, heq⟩ | ⟨hopen, hearly, -, heq⟩ | ⟨o, slots, hopen, ho, heq, hslots⟩
  · rw [heq]
    exact hnothing fun deadline hmem _ => (hkept.consumed hconsumed).2
  · rw [heq]
    refine Kept.quiet (hnothing fun deadline hmem hlate => ?_) (BrokerMailbox.quiet_set hslot (.refl slot))
    obtain rfl := accepted_unique h.right hmem hkept.accepted
    exact absurd hlate (not_le.mpr hearly)
  rw [heq]
  have hexpired := hkept.evolves (slot.evolves_expire now)
  have hyielded : Yielded (log ++ [.taken ticket now (some o)]) ticket := yielded_append.mpr (.inr ⟨now, o, rfl⟩)
  have haside : ∀ other, other ≠ ticket → (DispatchEvent.taken ticket now (some o)).Aside other :=
    fun other hother _ heq => hother heq.symm
  have hother : ∀ other, other ≠ ticket → slots.get? other = m.slots.get? other := by
    intro other hother
    rcases hslots with rfl | rfl
    · rw [Dict.get?_set, if_neg hother]
    · rw [Dict.get?_erase, if_neg hother]
  have hown : ∀ s, slots.get? ticket = some s → s = { slot.expire now with outcome := none, consumed := true } := by
    intro s hs
    rcases hslots with rfl | rfl
    · rw [Dict.get?_set, if_pos rfl] at hs
      cases hs
      rfl
    · rw [Dict.get?_erase, if_pos rfl] at hs
      cases hs
  exact {
    right := by
      refine h.right.snoc ⟨fun _ => hkept.waiting hopen, fun _ _ _ => .inl rfl, ?_⟩
      intro o' ho' hresponse
      cases ho'
      obtain ⟨c, hcompletion, hstatus, hrequest, hcompleted⟩ := hexpired.response o ho hresponse
      exact ⟨c, hcompletion, hstatus, (hexpired.request _).mp hrequest, hcompleted⟩
    size := by
      rcases hslots with rfl | rfl
      · simp only
        rw [Dict.size_set_of_some hslot]
        exact h.size
      · exact le_trans (Dict.size_erase_le ..) h.size
    fresh := fun other deadline hmem => h.fresh other deadline (by simpa using hmem)
    slots := fun other s hs => by
      by_cases hticket : other = ticket
      · subst hticket
        rw [hown s hs]
        exact {
          accepted := List.mem_append_left _ hexpired.accepted
          waiting := fun hc => by cases hc
          consumed := fun _ => ⟨rfl, hyielded⟩
          request := fun r => by simpa using hexpired.request r
          response := fun o' ho' => by cases ho' }
      · simp only [hother other hticket] at hs
        exact (h.slots other s hs).aside (haside other hticket)
    gone := fun other deadline hmem hgone => by
      by_cases hticket : other = ticket
      · rw [hticket]
        exact hyielded
      · simp only [hother other hticket] at hgone
        rw [yielded_aside (haside other hticket)]
        exact h.gone other deadline (by simpa using hmem) hgone
    bound := fun other r hmem => by
      obtain ⟨deadline, haccepted⟩ := h.bound other r (by simpa using hmem)
      exact ⟨deadline, List.mem_append_left _ haccepted⟩
    yielded := fun other hy => by
      by_cases hticket : other = ticket
      · rw [hticket]
        exact ⟨_, List.mem_append_left _ hkept.accepted⟩
      · rw [yielded_aside (haside other hticket)] at hy
        obtain ⟨deadline, haccepted⟩ := h.yielded other hy
        exact ⟨deadline, List.mem_append_left _ haccepted⟩
    ended := fun hclosed => by
      obtain ⟨hm, hall⟩ := h.ended (by simpa using hclosed)
      refine ⟨hm, fun other s hs => ?_⟩
      by_cases hticket : other = ticket
      · subst hticket
        rw [hown s hs]
        exact .inr rfl
      · simp only [hother other hticket] at hs
        exact hall other s hs }

end

end CamGuard.Account
