/-
Every read that is pending in the account belongs to one claimed slot of the
mailbox that the owner has not released (`Owning`), so that a submission always
finds room.

A slot is the owner's (`MailSlot.Held`) from the poll that hands it out until
its completion is published or its cancellation is acknowledged; what callers do
in between leaves it there.
-/
import CamGuard.Account.BrokerAccountFacts
import CamGuard.Account.DispatcherFacts

namespace CamGuard.Account

/-! ## Slots -/

namespace MailSlot

/-- The read was handed out, and the owner has not released it. -/
def Held (s : MailSlot) : Prop :=
  s.claimed = true ∧ ((s.outcome = none ∧ s.consumed = false) ∨ s.cancelPending = true)

/-- What a slot keeps to. -/
structure Sound (s : MailSlot) : Prop where
  unclaimed : s.claimed = false → s.request = none ∧ s.consumed = false ∧ s.cancelPending = false
  ended : s.cancelPending = true → s.outcome ≠ none ∨ s.consumed = true

/-- What may happen to a slot without the owner. -/
structure Keeps (s s' : MailSlot) : Prop where
  submission : s'.submission = s.submission
  request : s'.request = s.request
  held : s.Held → s'.Held
  sound : s.Sound → s'.Sound

variable {s s' s'' : MailSlot}

theorem Keeps.refl (s : MailSlot) : Keeps s s := ⟨rfl, rfl, id, id⟩

theorem Keeps.trans (h : Keeps s s') (h' : Keeps s' s'') : Keeps s s'' :=
  ⟨h'.submission.trans h.submission, h'.request.trans h.request, h'.held ∘ h.held, h'.sound ∘ h.sound⟩

theorem keeps_stop (s : MailSlot) (status : ReadStatus) : Keeps s (s.stop status) := by
  unfold stop
  by_cases hopen : s.outcome.isNone ∧ s.consumed = false
  · rw [if_pos hopen]
    refine ⟨rfl, rfl, fun h => ⟨h.1, .inr h.1⟩, fun h => ⟨fun hclaimed => ?_, fun _ => .inl (by simp)⟩⟩
    exact ⟨(h.unclaimed hclaimed).1, hopen.2, hclaimed⟩
  · rw [if_neg hopen]
    exact .refl s

theorem keeps_expire (s : MailSlot) (now : ℚ) : Keeps s (s.expire now) := by
  unfold expire
  split
  · exact s.keeps_stop .timeout
  · exact .refl s

theorem keeps_claim (s : MailSlot) (closed : Bool) : Keeps s (s.claim closed) := by
  unfold claim
  split
  · exact ⟨rfl, rfl, fun h => ⟨rfl, h.2⟩, fun h => ⟨fun hclaimed => (by cases hclaimed), h.ended⟩⟩
  · exact .refl s

/-- A slot that a poll hands out is the owner's, without a request. -/
theorem held_claim {closed : Bool} (h : s.Sound) (hclaimable : s.claimable closed = true) :
    (s.claim closed).Held ∧ (s.claim closed).request = none := by
  have hparts := hclaimable
  simp only [claimable, Bool.and_eq_true, Bool.not_eq_true', Option.isNone_iff_eq_none] at hparts
  obtain ⟨hrequest, hconsumed, -⟩ := h.unclaimed hparts.1.1
  rw [claim, if_pos hclaimable]
  exact ⟨⟨rfl, .inl ⟨hparts.1.2, hconsumed⟩⟩, hrequest⟩

end MailSlot

namespace BrokerMailbox

/-- What happens to a mailbox: the owner's slots stay its own, apart from some,
and the slots are those that were there. -/
structure Keeps (aside : MailboxTicket → Prop) (m m' : BrokerMailbox) : Prop where
  held : ∀ ticket s, m.slots.get? ticket = some s → ¬ aside ticket → s.Held →
    ∃ s', m'.slots.get? ticket = some s' ∧ s'.Held ∧ s'.request = s.request
  slot : ∀ ticket s', m'.slots.get? ticket = some s' →
    ∃ s, m.slots.get? ticket = some s ∧ s'.submission = s.submission ∧ (s.Sound → s'.Sound)
  closed : m.closed = true → m'.closed = true
  paths : m'.readPaths = m.readPaths

variable {m m' : BrokerMailbox} {aside : MailboxTicket → Prop}

theorem Keeps.refl (m : BrokerMailbox) : Keeps aside m m :=
  ⟨fun _ s hs _ h => ⟨s, hs, h, rfl⟩, fun _ s hs => ⟨s, hs, rfl, id⟩, id, rfl⟩

theorem keeps_mapValues (m : BrokerMailbox) {f : MailSlot → MailSlot} (hf : ∀ s : MailSlot, s.Keeps (f s)) {closed : Bool}
    (hclosed : m.closed = true → closed = true) :
    Keeps aside m { m with slots := m.slots.mapValues f, closed := closed } where
  held := fun ticket s hs _ h => by
    refine ⟨f s, ?_, (hf s).held h, (hf s).request⟩
    simp only [Dict.get?_mapValues, hs, Option.map_some]
  slot := fun ticket s' hs' => by
    simp only [Dict.get?_mapValues, Option.map_eq_some_iff] at hs'
    obtain ⟨s, hs, rfl⟩ := hs'
    exact ⟨s, hs, (hf s).submission, (hf s).sound⟩
  closed := hclosed
  paths := rfl

theorem keeps_set {ticket : MailboxTicket} {s s' : MailSlot} (hs : m.slots.get? ticket = some s)
    (hheld : ¬ aside ticket → s.Held → s'.Held ∧ s'.request = s.request) (hsubmission : s'.submission = s.submission)
    (hsound : s.Sound → s'.Sound) : Keeps aside m { m with slots := m.slots.set ticket s' } where
  held := fun other q hq haside h => by
    simp only [Dict.get?_set]
    by_cases hother : other = ticket
    · rw [if_pos hother]
      rw [hother, hs] at hq
      cases hq
      rw [hother] at haside
      exact ⟨s', rfl, hheld haside h⟩
    · rw [if_neg hother]
      exact ⟨q, hq, h, rfl⟩
  slot := fun other q hq => by
    simp only [Dict.get?_set] at hq
    split at hq
    · next hother =>
      cases hq
      exact ⟨s, by rw [hother]; exact hs, hsubmission, hsound⟩
    · exact ⟨q, hq, rfl, id⟩
  closed := id
  paths := rfl

theorem keeps_erase {ticket : MailboxTicket} (h : ∀ s, m.slots.get? ticket = some s → aside ticket ∨ ¬ s.Held) :
    Keeps aside m { m with slots := m.slots.erase ticket } where
  held := fun other s hs haside hheld => by
    have hother : other ≠ ticket := by
      rintro rfl
      exact (h s hs).elim haside fun hnot => hnot hheld
    exact ⟨s, by simp only [Dict.get?_erase, if_neg hother]; exact hs, hheld, rfl⟩
  slot := fun other s hs => by
    simp only [Dict.get?_erase] at hs
    split at hs
    · cases hs
    · exact ⟨s, hs, rfl, id⟩
  closed := id
  paths := rfl

theorem keeps_slot {ticket : MailboxTicket} {s s' : MailSlot} (hs : m.slots.get? ticket = some s) (h : s.Keeps s') :
    Keeps aside m { m with slots := m.slots.set ticket s' } :=
  keeps_set hs (fun _ hheld => ⟨h.held hheld, h.request⟩) h.submission h.sound

theorem keeps_cancel (m : BrokerMailbox) (ticket : MailboxTicket) : Keeps aside m (m.cancel ticket) := by
  unfold cancel
  split
  · exact .refl m
  · next s hs => exact keeps_slot hs (s.keeps_stop .cancelled)

theorem keeps_ready (m : BrokerMailbox) (ticket : MailboxTicket) (now : ℚ) : Keeps aside m (m.ready ticket now).2 := by
  unfold ready
  split
  · exact .refl m
  · next s hs => exact keeps_slot hs (s.keeps_expire now)

theorem keeps_close (m : BrokerMailbox) : Keeps aside m m.close :=
  m.keeps_mapValues (fun s => s.keeps_stop .cancelled) fun _ => rfl

theorem keeps_drain (m : BrokerMailbox) : Keeps aside m m.drain := by
  refine m.keeps_mapValues (fun s => ?_) fun _ => rfl
  by_cases hclaimed : s.claimed
  · rw [if_pos hclaimed]
    exact .refl s
  · rw [if_neg hclaimed]
    exact s.keeps_stop .cancelled

theorem mapValues_twice (m : BrokerMailbox) (f g : MailSlot → MailSlot) (ticket : MailboxTicket) :
    ((m.slots.mapValues f).mapValues g).get? ticket = (m.slots.mapValues fun s => g (f s)).get? ticket := by
  simp only [Dict.get?_mapValues, Option.map_map]
  rfl

theorem keeps_poll (m : BrokerMailbox) (now : ℚ) : Keeps aside m (m.poll now).2 := by
  have hmap : Keeps aside m { m with
      slots := m.slots.mapValues fun s => (s.expire now).claim m.closed
      closed := m.closed } :=
    m.keeps_mapValues (fun s => (s.keeps_expire now).trans ((s.expire now).keeps_claim m.closed)) id
  constructor
  · intro ticket s hs haside hheld
    obtain ⟨s', hs', h⟩ := hmap.held ticket s hs haside hheld
    exact ⟨s', (mapValues_twice m ..).trans hs', h⟩
  · intro ticket s' hs'
    exact hmap.slot ticket s' ((mapValues_twice m ..).symm.trans hs')
  · exact id
  · rfl

/-- What is taken was not the owner's, or is kept for it. -/
theorem keeps_take (m : BrokerMailbox) (ticket : MailboxTicket) (now : ℚ) : Keeps aside m (m.take ticket now).2 := by
  unfold take takeBound
  cases hs : m.slots.get? ticket with
  | none => exact .refl m
  | some s =>
    simp only
    by_cases hconsumed : s.consumed
    · rw [if_pos hconsumed]
      exact .refl m
    rw [if_neg hconsumed]
    have hexpire := s.keeps_expire now
    have hopen : (s.expire now).consumed = false := by
      have hsame := (s.evolves_expire now).consumed
      rw [hsame]
      simpa using hconsumed
    cases houtcome : (s.expire now).outcome with
    | none => exact keeps_slot hs hexpire
    | some outcome =>
      simp only
      by_cases hpending : (s.expire now).cancelPending
      · rw [if_pos hpending]
        refine keeps_set hs (fun _ hheld => ⟨⟨(hexpire.held hheld).1, .inr hpending⟩, hexpire.request⟩)
          hexpire.submission fun hsound => ?_
        have hsound := hexpire.sound hsound
        refine ⟨fun hclaimed => ?_, fun _ => .inr rfl⟩
        have hnot := (hsound.unclaimed hclaimed).2.2
        rw [hpending] at hnot
        cases hnot
      · rw [if_neg hpending]
        refine keeps_erase fun q hq => .inr fun hheld => ?_
        rw [hs] at hq
        cases hq
        rcases (hexpire.held hheld).2 with ⟨hnone, -⟩ | hcancel
        · rw [houtcome] at hnone
          cases hnone
        · exact hpending hcancel

theorem keeps_acknowledge (m : BrokerMailbox) (ticket : MailboxTicket) :
    Keeps (· = ticket) m (m.acknowledgeCancel ticket) := by
  unfold acknowledgeCancel
  split
  · exact .refl m
  next s hs =>
  split
  · exact .refl m
  split
  · exact keeps_erase fun _ _ => .inl rfl
  · refine keeps_set hs (fun haside => absurd rfl haside) rfl fun hsound => ?_
    exact ⟨fun hclaimed => ⟨(hsound.unclaimed hclaimed).1, (hsound.unclaimed hclaimed).2.1, rfl⟩, fun hcancel => by cases hcancel⟩

theorem keeps_finish (m : BrokerMailbox) (ticket : MailboxTicket) (completion : ReadCompletion) (now : ℚ) :
    Keeps (· = ticket) m (m.finish ticket completion now) := by
  unfold finish
  split
  · exact .refl m
  next s hs =>
  split
  · exact .refl m
  · refine keeps_set hs (fun haside => absurd rfl haside) rfl fun hsound => ?_
    exact ⟨hsound.unclaimed, fun _ => .inl (by simp)⟩

theorem keeps_bind (m : BrokerMailbox) (ticket : MailboxTicket) (request : ReadRequest) (now : ℚ) :
    Keeps (· = ticket) m (m.bind ticket request now).2 ∧
      ((m.bind ticket request now).1 = true →
        (∀ s, m.slots.get? ticket = some s → s.request = none) ∧
        ∃ s', (m.bind ticket request now).2.slots.get? ticket = some s' ∧ s'.Held ∧ s'.request = some request) := by
  unfold bind
  split
  · exact ⟨.refl m, fun h => by cases h⟩
  next s hs =>
  split
  · next hbinds =>
    simp only [binds, Bool.and_eq_true, Option.isNone_iff_eq_none, Bool.not_eq_true'] at hbinds
    have hparts := hbinds.1.1.1.1.1.1
    refine ⟨keeps_set hs (fun haside => absurd rfl haside) rfl fun hsound => ?_, fun _ => ⟨?_, ?_⟩⟩
    · refine ⟨fun hclaimed => ?_, hsound.ended⟩
      rw [show s.claimed = false from hclaimed] at hparts
      cases hparts.1.1.1
    · intro q hq
      rw [hs] at hq
      cases hq
      exact hparts.1.1.2
    · exact ⟨{ s with request := some request }, by simp [Dict.get?_set],
        ⟨hparts.1.1.1, .inl ⟨hparts.1.2, hparts.2⟩⟩, rfl⟩
  · exact ⟨.refl m, fun h => by cases h⟩

/-- What a poll hands out are slots of the owner without a request; what it
gives to release are others. -/
theorem poll_work (m : BrokerMailbox) (now : ℚ)
    (hslots : ∀ ticket s, m.slots.get? ticket = some s → s.Sound ∧ s.submission.ticket = ticket) :
    ((m.poll now).1.submissions.map ReadSubmission.ticket).Nodup ∧
    (∀ submission ∈ (m.poll now).1.submissions, now < submission.deadline ∧ m.closed = false ∧
      (∃ s, m.slots.get? submission.ticket = some s ∧ s.submission = submission) ∧
      ∃ s', (m.poll now).2.slots.get? submission.ticket = some s' ∧ s'.Held ∧ s'.request = none) ∧
    ∀ ticket ∈ (m.poll now).1.cancellations, ticket ∉ (m.poll now).1.submissions.map ReadSubmission.ticket := by
  have hentry : ∀ e ∈ (m.slots.mapValues fun s => s.expire now).entries, ∃ s, m.slots.get? e.1 = some s ∧
      e.2 = s.expire now := by
    intro e he
    have hget := Dict.get?_eq_some.mpr he
    simp only [Dict.get?_mapValues, Option.map_eq_some_iff] at hget
    obtain ⟨s, hs, hexpire⟩ := hget
    exact ⟨s, hs, hexpire.symm⟩
  have hkey : ∀ e ∈ (m.slots.mapValues fun s => s.expire now).entries, e.2.submission.ticket = e.1 := by
    intro e he
    obtain ⟨s, hs, hexpire⟩ := hentry e he
    rw [hexpire, (s.keeps_expire now).submission]
    exact (hslots _ s hs).2
  have hmem : ∀ submission ∈ (m.poll now).1.submissions, ∃ e ∈ (m.slots.mapValues fun s => s.expire now).entries,
      e.2.claimable m.closed = true ∧ e.2.submission = submission := by
    intro submission hsubmission
    obtain ⟨slot, hslot, rfl⟩ := List.mem_map.mp hsubmission
    obtain ⟨hvalue, hclaimable⟩ := List.mem_filter.mp hslot
    obtain ⟨e, he, rfl⟩ := List.mem_map.mp hvalue
    exact ⟨e, he, hclaimable, rfl⟩
  refine ⟨?_, ?_, ?_⟩
  · have hsub : ((m.poll now).1.submissions.map ReadSubmission.ticket).Sublist
        ((m.slots.mapValues fun s => s.expire now).values.map fun s => s.submission.ticket) := by
      simp only [poll, List.map_map]
      exact List.filter_sublist.map _
    refine hsub.nodup ?_
    have hkeys : (m.slots.mapValues fun s => s.expire now).values.map (fun s => s.submission.ticket) =
        (m.slots.mapValues fun s => s.expire now).keys := by
      rw [Dict.values, Dict.keys, List.map_map]
      exact List.map_congr_left hkey
    rw [hkeys]
    exact Dict.nodup _
  · intro submission hsubmission
    obtain ⟨e, he, hclaimable, rfl⟩ := hmem submission hsubmission
    obtain ⟨s, hs, hexpire⟩ := hentry e he
    have hticket := hkey e he
    have hsound : (s.expire now).Sound := (s.keeps_expire now).sound (hslots _ s hs).1
    rw [hexpire] at hclaimable hticket ⊢
    obtain ⟨hheld, hrequest⟩ := MailSlot.held_claim hsound hclaimable
    have hparts := hclaimable
    simp only [MailSlot.claimable, Bool.and_eq_true, Bool.not_eq_true', Option.isNone_iff_eq_none] at hparts
    refine ⟨?_, hparts.2, ⟨s, ?_, ?_⟩, (s.expire now).claim m.closed, ?_, hheld, hrequest⟩
    · -- A slot whose time is up was stopped.
      by_contra hlate
      rw [(s.keeps_expire now).submission] at hlate
      have hnone := hparts.1.2
      rw [MailSlot.expire, if_pos (not_lt.mp hlate)] at hnone
      have hclaimed : (s.stop .timeout).claimed = false := by
        have hclaimed := hparts.1.1
        rwa [MailSlot.expire, if_pos (not_lt.mp hlate)] at hclaimed
      have hconsumed := ((s.keeps_stop .timeout).sound (hslots _ s hs).1).unclaimed hclaimed
      rcases s.stop_ended .timeout with hsome | hended
      · rw [hnone] at hsome
        cases hsome
      · rw [hconsumed.2.1] at hended
        cases hended
    · rw [hticket]
      exact hs
    · exact (s.keeps_expire now).submission.symm
    · rw [hticket]
      refine (mapValues_twice m ..).trans ?_
      simp only [Dict.get?_mapValues, hs, Option.map_some]
  · intro ticket hcancel hsubmission
    obtain ⟨c, hc, rfl⟩ := List.mem_map.mp hcancel
    obtain ⟨hc, hpending⟩ := List.mem_filter.mp hc
    obtain ⟨submission, hsubmission, hsame⟩ := List.mem_map.mp hsubmission
    obtain ⟨e, he, hclaimable, rfl⟩ := hmem submission hsubmission
    have hget := Dict.get?_eq_some.mpr he
    have hget' := Dict.get?_eq_some.mpr hc
    rw [← hkey e he, hsame, hget'] at hget
    obtain ⟨s, hs, hexpire⟩ := hentry e he
    have hsound : e.2.Sound := hexpire ▸ (s.keeps_expire now).sound (hslots _ s hs).1
    simp only [MailSlot.claimable, Bool.and_eq_true, Bool.not_eq_true'] at hclaimable
    have hnot := (hsound.unclaimed hclaimable.1.1).2.2
    rw [← Option.some.inj hget] at hnot
    simp only [hnot] at hpending
    cases hpending

/-- A submission that is taken gets a new slot, which nobody has. -/
theorem keeps_submit [Rounding] (m : BrokerMailbox) (device : Nat) (path : String) (timeout now : ℚ)
    (hfresh : ∀ ticket s, m.slots.get? ticket = some s → ticket.sequence < m.next) :
    (∀ ticket s, m.slots.get? ticket = some s → (m.submit device path timeout now).2.slots.get? ticket = some s) ∧
    (∀ ticket s, (m.submit device path timeout now).2.slots.get? ticket = some s → m.slots.get? ticket = some s ∨
      (s.Sound ∧ s.submission.ticket = ticket ∧ 0 < s.submission.device ∧ s.submission.device < 2 ^ 64 ∧
        s.submission.path ∈ m.readPaths)) ∧
    (m.submit device path timeout now).2.closed = m.closed ∧
    (m.submit device path timeout now).2.readPaths = m.readPaths := by
  unfold submit
  split
  · exact ⟨fun _ _ => id, fun _ _ => .inl, rfl, rfl⟩
  next hvalid =>
  split
  · exact ⟨fun _ _ => id, fun _ _ => .inl, rfl, rfl⟩
  split
  · exact ⟨fun _ _ => id, fun _ _ => .inl, rfl, rfl⟩
  refine ⟨fun ticket s hs => ?_, fun ticket s hs => ?_, rfl, rfl⟩
  · have hother : ticket ≠ ⟨m.generation, m.next⟩ := by
      rintro rfl
      exact absurd (hfresh _ s hs) (lt_irrefl _)
    simp only [Dict.get?_set, if_neg hother]
    exact hs
  · simp only [Dict.get?_set] at hs
    split at hs
    · next hticket =>
      cases hs
      simp only [not_or, not_not, not_le, not_lt] at hvalid
      refine .inr ⟨⟨fun _ => ⟨rfl, rfl, rfl⟩, fun hcancel => by cases hcancel⟩, hticket.symm,
        Nat.pos_of_ne_zero hvalid.1, hvalid.2.1, hvalid.2.2.1⟩
    · exact .inl hs

end BrokerMailbox

/-! ## Tasks -/

namespace DispatchTask

/-- The slot that a task prepares a read for. -/
def prepares : DispatchTask → Option MailboxTicket
  | .prepare submission => some submission.ticket
  | .bind ticket _ => some ticket
  | _ => none

/-- What is left of a call after its poll. -/
def Work : DispatchTask → Prop
  | .release _ | .prepare _ | .bind _ _ => True
  | _ => False

/-- What comes before a poll. -/
def Plain : DispatchTask → Prop
  | .prepare _ | .bind _ _ | .pollWork => False
  | _ => True

end DispatchTask

/-- The slots that reads are being prepared for. -/
def prepared (todo : List DispatchTask) : List MailboxTicket := todo.filterMap DispatchTask.prepares

/-- Tasks before a poll, and the poll if there is one. -/
def Waiting (todo : List DispatchTask) : Prop :=
  ∃ front, (∀ task ∈ front, task.Plain) ∧ (todo = front ∨ todo = front ++ [.pollWork])

/-- The tasks of a call, after its poll or before it. -/
def Shaped (todo : List DispatchTask) : Prop := (∀ task ∈ todo, task.Work) ∨ Waiting todo

theorem mem_prepared {todo : List DispatchTask} {ticket : MailboxTicket} {read : BrokerAccount.SubmittedRead}
    (h : .bind ticket read ∈ todo) : ticket ∈ prepared todo :=
  List.mem_filterMap.mpr ⟨_, h, rfl⟩

theorem Waiting.prepared {todo : List DispatchTask} (h : Waiting todo) : prepared todo = [] := by
  obtain ⟨front, hfront, htodo⟩ := h
  have hplain : CamGuard.Account.prepared front = [] := by
    refine List.filterMap_eq_nil_iff.mpr fun task hmem => ?_
    have hplain := hfront task hmem
    cases task with
    | prepare submission => exact hplain.elim
    | bind ticket read => exact hplain.elim
    | _ => rfl
  rcases htodo with rfl | rfl
  · exact hplain
  · rw [CamGuard.Account.prepared, List.filterMap_append, ← CamGuard.Account.prepared, hplain]
    rfl

theorem Waiting.append {new todo : List DispatchTask} (h : Waiting todo) (hnew : ∀ task ∈ new, task.Plain) :
    Waiting (new ++ todo) := by
  obtain ⟨front, hfront, htodo⟩ := h
  have hboth : ∀ task ∈ new ++ front, task.Plain := by
    intro task hmem
    rcases List.mem_append.mp hmem with hmem | hmem
    · exact hnew task hmem
    · exact hfront task hmem
  rcases htodo with rfl | rfl
  · exact ⟨_, hboth, .inl rfl⟩
  · exact ⟨_, hboth, .inr (by rw [List.append_assoc])⟩

theorem Shaped.cases {task : DispatchTask} {rest : List DispatchTask} (h : Shaped (task :: rest)) :
    (task.Work ∧ ∀ other ∈ rest, other.Work) ∨ (task = .pollWork ∧ rest = []) ∨ (task.Plain ∧ Waiting rest) := by
  rcases h with hwork | ⟨front, hfront, htodo⟩
  · exact .inl ⟨hwork task List.mem_cons_self, fun other hmem => hwork other (List.mem_cons_of_mem _ hmem)⟩
  · cases front with
    | nil =>
      rcases htodo with htodo | htodo
      · cases htodo
      · cases htodo
        exact .inr (.inl ⟨rfl, rfl⟩)
    | cons first front =>
      have hrest : Waiting front := ⟨front, fun other hmem => hfront other (List.mem_cons_of_mem _ hmem), .inl rfl⟩
      rcases htodo with htodo | htodo
      · cases htodo
        exact .inr (.inr ⟨hfront _ List.mem_cons_self, hrest⟩)
      · cases htodo
        refine .inr (.inr ⟨hfront _ List.mem_cons_self, front, fun other hmem => ?_, .inr rfl⟩)
        exact hfront other (List.mem_cons_of_mem _ hmem)

theorem Shaped.tail {task : DispatchTask} {rest : List DispatchTask} (h : Shaped (task :: rest)) : Shaped rest := by
  rcases h.cases with ⟨-, hwork⟩ | ⟨-, rfl⟩ | ⟨-, hwaiting⟩
  · exact .inl hwork
  · exact .inl (by simp)
  · exact .inr hwaiting

theorem Shaped.waiting {task : DispatchTask} {rest : List DispatchTask} (h : Shaped (task :: rest)) (hwork : ¬ task.Work)
    (hpoll : task ≠ .pollWork) : Waiting rest := by
  rcases h.cases with ⟨hthis, -⟩ | ⟨hthis, -⟩ | ⟨-, hwaiting⟩
  · exact absurd hthis hwork
  · exact absurd hthis hpoll
  · exact hwaiting

/-- A task that cannot stand before the poll stands after it. -/
theorem Shaped.work {task : DispatchTask} {rest : List DispatchTask} (h : Shaped (task :: rest)) (hplain : ¬ task.Plain)
    (hpoll : task ≠ .pollWork) : ∀ other ∈ rest, other.Work := by
  rcases h.cases with ⟨-, hwork⟩ | ⟨hthis, -⟩ | ⟨hthis, -⟩
  · exact hwork
  · exact absurd hthis hpoll
  · exact absurd hthis hplain

/-! ## Owners -/

namespace Dispatcher

/-- The tables agree: a read that is pending in the account belongs to a slot of
the mailbox that is the owner's, through the two maps of the dispatcher or
through the binding that is due. -/
structure Owning (d : Dispatcher) : Prop where
  slots : ∀ ticket s, d.mailbox.slots.get? ticket = some s → s.Sound ∧ s.submission.ticket = ticket
  reads : d.account.reads.Tabled
  shaped : Shaped d.todo
  routes : ∀ ticket request, d.requests.get? ticket = some request → d.routes.get? request.ticket = some ticket
  requests : ∀ key ticket, d.routes.get? key = some ticket →
    ∃ request, d.requests.get? ticket = some request ∧ request.ticket = key
  held : ∀ ticket request, d.requests.get? ticket = some request →
    ∃ s, d.mailbox.slots.get? ticket = some s ∧ s.Held ∧ s.request = some request
  pending : ∀ request, d.account.reads.Holds request → (∃ ticket, d.requests.get? ticket = some request) ∨
    ∃ ticket read, .bind ticket read ∈ d.todo ∧ read.request = request
  preparing : ∀ ticket ∈ prepared d.todo, ∃ s, d.mailbox.slots.get? ticket = some s ∧ s.Held ∧ s.request = none
  nodup : (prepared d.todo).Nodup
  aside : ∀ ticket, .release ticket ∈ d.todo → ticket ∉ prepared d.todo
  published : ∀ c, .publish c ∈ d.todo → d.account.reads.pending.get? c.request.ticket.sequence = none

variable {d : Dispatcher}

/-- The slots of some tickets change, and none of them is in use. -/
theorem Owning.mailbox (h : d.Owning) {m : BrokerMailbox} {aside : MailboxTicket → Prop}
    (hkeeps : BrokerMailbox.Keeps aside d.mailbox m) (hrequests : ∀ ticket, aside ticket → d.requests.get? ticket = none)
    (hprepared : ∀ ticket, aside ticket → ticket ∉ prepared d.todo) : Owning { d with mailbox := m } :=
  { h with
    slots := fun ticket s hs => by
      obtain ⟨old, hold, hsubmission, hsound⟩ := hkeeps.slot ticket s hs
      obtain ⟨hold_sound, hticket⟩ := h.slots ticket old hold
      exact ⟨hsound hold_sound, by rw [hsubmission]; exact hticket⟩
    held := fun ticket request hrequest => by
      obtain ⟨s, hs, hheld, hsome⟩ := h.held ticket request hrequest
      have haside : ¬ aside ticket := fun haside => by
        rw [hrequests ticket haside] at hrequest
        cases hrequest
      obtain ⟨s', hs', hheld', hsame⟩ := hkeeps.held ticket s hs haside hheld
      exact ⟨s', hs', hheld', hsame.trans hsome⟩
    preparing := fun ticket hmem => by
      obtain ⟨s, hs, hheld, hnone⟩ := h.preparing ticket hmem
      obtain ⟨s', hs', hheld', hsame⟩ := hkeeps.held ticket s hs (fun haside => hprepared ticket haside hmem) hheld
      exact ⟨s', hs', hheld', hsame.trans hnone⟩ }

theorem Owning.caller (h : d.Owning) {m : BrokerMailbox} (hkeeps : BrokerMailbox.Keeps (fun _ => False) d.mailbox m) :
    Owning { d with mailbox := m } :=
  h.mailbox hkeeps (fun _ haside => haside.elim) fun _ haside => haside.elim

theorem Owning.fewer (h : d.Owning) {task : DispatchTask} {rest : List DispatchTask} (htodo : d.todo = task :: rest)
    (hbind : ∀ ticket read, task ≠ .bind ticket read) : Owning { d with todo := rest } := by
  have hmem : ∀ other ∈ rest, other ∈ d.todo := fun other hmem => htodo ▸ List.mem_cons_of_mem _ hmem
  have hsub : (prepared rest).Sublist (prepared d.todo) := by
    rw [htodo]
    exact (List.sublist_cons_self task rest).filterMap _
  exact { h with
    shaped := (htodo ▸ h.shaped).tail
    pending := fun request hold => by
      rcases h.pending request hold with howner | ⟨ticket, read, hbound, hrequest⟩
      · exact .inl howner
      · rw [htodo] at hbound
        rcases List.mem_cons.mp hbound with heq | hbound
        · exact absurd heq.symm (hbind ticket read)
        · exact .inr ⟨ticket, read, hbound, hrequest⟩
    preparing := fun ticket hprepared => h.preparing ticket (hsub.subset hprepared)
    nodup := h.nodup.sublist hsub
    aside := fun ticket hrelease hprepared => h.aside ticket (hmem _ hrelease) (hsub.subset hprepared)
    published := fun c hc => h.published c (hmem _ hc) }

/-- Reads have ended that are to be published first. -/
theorem Owning.announced (h : d.Owning) (hwaiting : Waiting d.todo) {events : AccountEvents} {account : BrokerAccount}
    (htabled : account.reads.Tabled)
    (hfewer : ∀ s p', account.reads.pending.get? s = some p' →
      ∃ p, d.account.reads.pending.get? s = some p ∧ p'.request = p.request)
    (hgone : ∀ c ∈ events.reads, account.reads.pending.get? c.request.ticket.sequence = none) :
    (d.publishing events account d.todo).2.Owning := by
  have hnew : ∀ task ∈ publishTasks events, task.Plain := by
    intro task hmem
    rcases List.mem_append.mp hmem with hmem | hmem
    · obtain ⟨c, -, rfl⟩ := List.mem_map.mp hmem
      trivial
    · split at hmem
      · rcases List.mem_cons.mp hmem with rfl | hmem
        · trivial
        · rw [List.mem_singleton.mp hmem]
          trivial
      · cases hmem
  have hall := hwaiting.append hnew
  have hnone : prepared (publishTasks events ++ d.todo) = [] := hall.prepared
  exact { h with
    reads := htabled
    shaped := .inr hall
    pending := fun request hold => by
      obtain ⟨p', hp', hrequest⟩ := hold
      obtain ⟨p, hp, hsame⟩ := hfewer _ p' hp'
      rcases h.pending request ⟨p, hp, hsame.symm.trans hrequest⟩ with howner | ⟨ticket, read, hbound, -⟩
      · exact .inl howner
      · have hmem := mem_prepared hbound
        rw [hwaiting.prepared] at hmem
        cases hmem
    preparing := fun ticket hmem => by
      simp only [Dispatcher.publishing, hnone] at hmem
      cases hmem
    nodup := by
      simp only [Dispatcher.publishing, hnone]
      exact .nil
    aside := fun ticket _ hmem => by
      simp only [Dispatcher.publishing, hnone] at hmem
      cases hmem
    published := fun c hc => by
      rcases List.mem_append.mp hc with hc | hc
      · rcases List.mem_append.mp hc with hc | hc
        · obtain ⟨c', hc', heq⟩ := List.mem_map.mp hc
          cases heq
          exact hgone c hc'
        · split at hc <;> simp at hc
      · have hnone := h.published c hc
        cases hsome : account.reads.pending.get? c.request.ticket.sequence with
        | none => exact hsome
        | some p' =>
          obtain ⟨p, hp, -⟩ := hfewer _ p' hsome
          rw [hnone] at hp
          cases hp }

theorem Owning.publishing (h : d.Owning) (hwaiting : Waiting d.todo) {events : AccountEvents} {account : BrokerAccount}
    (hends : BrokerReads.Ends d.account.reads account.reads events.reads) :
    (d.publishing events account d.todo).2.Owning := by
  refine h.announced hwaiting hends.tabled (fun s p' hp' => ?_) fun c hc => (hends.held c hc).2
  obtain ⟨p, hp, hrequest, -⟩ := hends.kept s p' hp'
  exact ⟨p, hp, hrequest⟩

/-- A frame has failed: the call is over, and reads may be gone. -/
theorem Owning.failed (h : d.Owning) (hwaiting : Waiting d.todo) {account : BrokerAccount} {cs : List ReadCompletion}
    (hends : BrokerReads.Ends d.account.reads account.reads cs) : Owning { d with account := account, todo := [] } :=
  { h with
    reads := hends.tabled
    shaped := .inl (by simp)
    pending := fun request hold => by
      rcases h.pending request (hends.holds hold) with howner | ⟨ticket, read, hbound, -⟩
      · exact .inl howner
      · have hmem := mem_prepared hbound
        rw [hwaiting.prepared] at hmem
        cases hmem
    preparing := fun ticket hmem => by cases hmem
    nodup := .nil
    aside := fun ticket hmem => by cases hmem
    published := fun c hc => by cases hc }

/-- The two maps lose a slot and its request together. -/
theorem Owning.unmapped (h : d.Owning) {ticket : MailboxTicket} {request : ReadRequest}
    (hrequest : d.requests.get? ticket = some request) (account : BrokerAccount) {cs : List ReadCompletion}
    (hends : BrokerReads.Ends d.account.reads account.reads cs) (hgone : ¬ account.reads.Holds request) :
    Owning { d with
      requests := d.requests.erase ticket
      routes := d.routes.erase request.ticket
      account := account } := by
  have hroute := h.routes ticket request hrequest
  exact { h with
    reads := hends.tabled
    routes := fun other request' hother => by
      simp only [Dict.get?_erase] at hother ⊢
      split at hother
      · cases hother
      · next hne =>
        rw [if_neg ?_]
        · exact h.routes other request' hother
        · intro heq
          have hroute' := h.routes other request' hother
          rw [heq, hroute] at hroute'
          exact hne (Option.some.inj hroute').symm
    requests := fun key other hother => by
      simp only [Dict.get?_erase] at hother
      split at hother
      · cases hother
      · next hne =>
        obtain ⟨request', hrequest', hkey⟩ := h.requests key other hother
        refine ⟨request', ?_, hkey⟩
        simp only [Dict.get?_erase]
        rw [if_neg ?_]
        · exact hrequest'
        · rintro rfl
          rw [hrequest] at hrequest'
          cases hrequest'
          exact hne hkey.symm
    held := fun other request' hother => by
      simp only [Dict.get?_erase] at hother
      split at hother
      · cases hother
      · exact h.held other request' hother
    pending := fun request' hold => by
      rcases h.pending request' (hends.holds hold) with ⟨other, hother⟩ | hbound
      · refine .inl ⟨other, ?_⟩
        simp only [Dict.get?_erase]
        rw [if_neg ?_]
        · exact hother
        · rintro rfl
          rw [hrequest] at hother
          cases hother
          exact hgone hold
      · exact .inr hbound
    published := fun c hc => by
      cases hsome : account.reads.pending.get? c.request.ticket.sequence with
      | none => rfl
      | some p' =>
        obtain ⟨p, hp, -⟩ := hends.kept _ p' hsome
        rw [h.published c hc] at hp
        cases hp }

/-- **A release gives back the read, then the slot.** -/
theorem Owning.release (h : d.Owning) {ticket : MailboxTicket} (haside : ticket ∉ prepared d.todo) :
    (d.release ticket).Owning := by
  unfold Dispatcher.release
  cases hrequest : d.requests.get? ticket with
  | none =>
    refine h.mailbox (d.mailbox.keeps_acknowledge ticket) ?_ ?_
    · rintro _ rfl
      exact hrequest
    · rintro _ rfl
      exact haside
  | some request =>
    have hunmapped := h.unmapped hrequest (d.account.cancelRead request.ticket)
      (BrokerReads.cancel_ends h.reads request.ticket).1 (BrokerReads.cancel_gone h.reads request)
    refine hunmapped.mailbox (d.mailbox.keeps_acknowledge ticket) ?_ ?_
    · rintro _ rfl
      simp only [Dict.get?_erase, if_pos]
    · rintro _ rfl
      exact haside

/-- **A completion gives back its slot.** -/
theorem Owning.publish (h : d.Owning) (hwaiting : Waiting d.todo) {c : ReadCompletion}
    (hgone : d.account.reads.pending.get? c.request.ticket.sequence = none) (now : ℚ) : (d.publish c now).Owning := by
  unfold Dispatcher.publish
  cases hroute : d.routes.get? c.request.ticket with
  | none => exact h
  | some ticket =>
    obtain ⟨request, hrequest, hkey⟩ := h.requests _ ticket hroute
    have hnot : ¬ d.account.reads.Holds request := by
      rintro ⟨p, hp, -⟩
      rw [hkey, hgone] at hp
      cases hp
    have hunmapped := h.unmapped hrequest d.account (.refl h.reads) hnot
    rw [hkey] at hunmapped
    refine hunmapped.mailbox (d.mailbox.keeps_finish ticket c now) ?_ ?_
    · rintro _ rfl
      simp only [Dict.get?_erase, if_pos]
    · intro _ _
      simp [hwaiting.prepared]

theorem publish_todo (d : Dispatcher) (c : ReadCompletion) (now : ℚ) (rest : List DispatchTask) :
    Dispatcher.publish { d with todo := rest } c now = { d.publish c now with todo := rest } := by
  unfold Dispatcher.publish
  simp only
  split <;> rfl

theorem release_todo (d : Dispatcher) (ticket : MailboxTicket) (rest : List DispatchTask) :
    Dispatcher.release { d with todo := rest } ticket = { d.release ticket with todo := rest } := by
  unfold Dispatcher.release
  simp only
  split <;> rfl

/-- **A poll hands out slots that nothing is bound to.** -/
theorem Owning.pollWork (h : d.Owning) (htodo : d.todo = []) (now : ℚ) :
    Owning { d with
      mailbox := (d.mailbox.poll now).2
      todo := (d.mailbox.poll now).1.cancellations.map .release ++ (d.mailbox.poll now).1.submissions.map .prepare } := by
  obtain ⟨hnodup, hwork, hother⟩ := d.mailbox.poll_work now h.slots
  have hpolled := h.caller (d.mailbox.keeps_poll now)
  have hprepared : prepared ((d.mailbox.poll now).1.cancellations.map .release ++
      (d.mailbox.poll now).1.submissions.map .prepare) = (d.mailbox.poll now).1.submissions.map ReadSubmission.ticket := by
    have hreleases : (d.mailbox.poll now).1.cancellations.filterMap (DispatchTask.prepares ∘ DispatchTask.release) = [] :=
      List.filterMap_eq_nil_iff.mpr fun _ _ => rfl
    simp only [prepared, List.filterMap_append, List.filterMap_map]
    rw [hreleases, List.nil_append, ← List.filterMap_eq_map]
    rfl
  exact { hpolled with
    shaped := .inl fun task hmem => by
      rcases List.mem_append.mp hmem with hmem | hmem
      · obtain ⟨_, -, rfl⟩ := List.mem_map.mp hmem
        trivial
      · obtain ⟨_, -, rfl⟩ := List.mem_map.mp hmem
        trivial
    pending := fun request hold => by
      rcases h.pending request hold with howner | ⟨ticket, read, hbound, -⟩
      · exact .inl howner
      · rw [htodo] at hbound
        cases hbound
    preparing := fun ticket hmem => by
      simp only [hprepared] at hmem
      obtain ⟨submission, hsubmission, rfl⟩ := List.mem_map.mp hmem
      exact (hwork submission hsubmission).2.2.2
    nodup := by
      simp only [hprepared]
      exact hnodup
    aside := fun ticket hrelease => by
      simp only [hprepared]
      rcases List.mem_append.mp hrelease with hrelease | hrelease
      · obtain ⟨_, hcancel, heq⟩ := List.mem_map.mp hrelease
        cases heq
        exact hother ticket hcancel
      · obtain ⟨_, -, heq⟩ := List.mem_map.mp hrelease
        cases heq
    published := fun c hc => by simp at hc }

theorem Owning.pollClosed (h : d.Owning) (hwaiting : Waiting d.todo) (now : ℚ) :
    Owning { d with
      mailbox := (d.mailbox.poll now).2
      todo := (d.mailbox.poll now).1.cancellations.map .release ++ d.todo } := by
  have hpolled := h.caller (d.mailbox.keeps_poll now)
  have hall : Waiting ((d.mailbox.poll now).1.cancellations.map .release ++ d.todo) := by
    refine hwaiting.append fun task hmem => ?_
    obtain ⟨_, -, rfl⟩ := List.mem_map.mp hmem
    trivial
  exact { hpolled with
    shaped := .inr hall
    pending := fun request hold => by
      rcases h.pending request hold with howner | ⟨ticket, read, hbound, hrequest⟩
      · exact .inl howner
      · exact .inr ⟨ticket, read, List.mem_append_right _ hbound, hrequest⟩
    preparing := fun ticket hmem => by
      simp only [hall.prepared] at hmem
      cases hmem
    nodup := by
      simp only [hall.prepared]
      exact .nil
    aside := fun ticket _ => by simp [hall.prepared]
    published := fun c hc => h.published c ((List.mem_append.mp hc).resolve_left (by simp)) }

/-- A read is registered for a submission; its binding is due. -/
theorem Owning.registered (h : d.Owning) {submission : ReadSubmission} {rest : List DispatchTask}
    (htodo : d.todo = .prepare submission :: rest) (hnone : ∀ ticket read, .bind ticket read ∉ d.todo)
    {read : BrokerAccount.SubmittedRead} {deadline : ℚ} {reads : BrokerReads} {source : BrokerSequences}
    (hregistered : BrokerReads.Registered d.account.reads d.account.source read.request deadline reads source) :
    Owning { d with
      account := { d.account with reads := reads, source := source }
      todo := .bind submission.ticket read :: rest } := by
  have hwork := (htodo ▸ h.shaped).work id (by simp)
  have hprepared : prepared (.bind submission.ticket read :: rest) = prepared d.todo := by
    rw [htodo]
    rfl
  exact { h with
    reads := hregistered.tabled
    shaped := .inl fun task hmem => by
      rcases List.mem_cons.mp hmem with rfl | hmem
      · trivial
      · exact hwork task hmem
    pending := fun request hold => by
      obtain ⟨p, hp, hrequest⟩ := hold
      rw [show ({ d.account with reads := reads, source := source } : BrokerAccount).reads = reads from rfl,
        hregistered.pending] at hp
      split at hp
      · cases hp
        exact .inr ⟨submission.ticket, read, List.mem_cons_self, hrequest⟩
      · rcases h.pending request ⟨p, hp, hrequest⟩ with howner | ⟨ticket, read', hbound, -⟩
        · exact .inl howner
        · exact absurd hbound (hnone ticket read')
    preparing := fun ticket hmem => h.preparing ticket (hprepared ▸ hmem)
    nodup := hprepared ▸ h.nodup
    aside := fun ticket hrelease => by
      simp only [hprepared]
      refine h.aside ticket ?_
      rw [htodo]
      exact List.mem_cons_of_mem _ ((List.mem_cons.mp hrelease).resolve_left (by simp))
    published := fun c hc => by
      rcases List.mem_cons.mp hc with heq | hc
      · cases heq
      · exact (hwork _ hc).elim }

/-- A submission has failed, and the account with it. -/
theorem Owning.retired (h : d.Owning) (hnone : ∀ ticket read, .bind ticket read ∉ d.todo) {reads : BrokerReads}
    {source : BrokerSequences} (htabled : reads.Tabled) (hreads : reads = d.account.reads ∨ d.account.reason = none)
    (reason : Retirement) :
    (d.publishing (({ d.account with reads := reads, source := source } : BrokerAccount).retire reason).1
      (({ d.account with reads := reads, source := source } : BrokerAccount).retire reason).2 []).2.Owning := by
  generalize haccount : ({ d.account with reads := reads, source := source } : BrokerAccount) = account
  have haccount_reads : account.reads = reads := by rw [← haccount]
  have hends : BrokerReads.Ends account.reads (account.retire reason).2.reads (account.retire reason).1.reads :=
    BrokerAccount.retire_ends (haccount_reads ▸ htabled) reason
  -- What is still pending was pending before the submission.
  have hholds : ∀ request, (account.retire reason).2.reads.Holds request → d.account.reads.Holds request := by
    intro request hold
    rcases hreads with hsame | hreason
    · rw [← hsame, ← haccount_reads]
      exact hends.holds hold
    · obtain ⟨p, hp, -⟩ := hold
      have hopen : account.reason = none := by rw [← haccount]; exact hreason
      rw [BrokerAccount.retire_empty (haccount_reads ▸ htabled) hopen reason] at hp
      cases hp
  have hidle : Owning { d with account := (account.retire reason).2, todo := [] } :=
    { h with
      reads := hends.tabled
      shaped := .inl (by simp)
      pending := fun request hold => by
        rcases h.pending request (hholds request hold) with howner | ⟨ticket, read, hbound, -⟩
        · exact .inl howner
        · exact absurd hbound (hnone ticket read)
      preparing := fun ticket hmem => by cases hmem
      nodup := .nil
      aside := fun ticket hmem => by cases hmem
      published := fun c hc => by cases hc }
  exact hidle.announced ⟨[], by simp, .inl rfl⟩ hends.tabled (fun s p' hp' => ⟨p', hp', rfl⟩)
    fun c hc => (hends.held c hc).2

theorem Owning.unbound (h : d.Owning) {ticket : MailboxTicket} {read : BrokerAccount.SubmittedRead}
    {rest : List DispatchTask} (htodo : d.todo = .bind ticket read :: rest)
    (hnone : ∀ ticket read, .bind ticket read ∉ rest) :
    Owning { d with account := d.account.cancelRead read.request.ticket, todo := rest } := by
  have hends := (BrokerReads.cancel_ends h.reads read.request.ticket).1
  have hsub : (prepared rest).Sublist (prepared d.todo) := by
    rw [htodo]
    exact (List.sublist_cons_self _ rest).filterMap _
  have hmem : ∀ other ∈ rest, other ∈ d.todo := fun other hmem => htodo ▸ List.mem_cons_of_mem _ hmem
  have hwork := (htodo ▸ h.shaped).work id (by simp)
  exact { h with
    reads := hends.tabled
    shaped := .inl hwork
    pending := fun request hold => by
      rcases h.pending request (hends.holds hold) with howner | ⟨other, read', hbound, hrequest⟩
      · exact .inl howner
      · rw [htodo] at hbound
        rcases List.mem_cons.mp hbound with heq | hbound
        · cases heq
          rw [← hrequest] at hold
          exact absurd hold (BrokerReads.cancel_gone h.reads read.request)
        · exact absurd hbound (hnone other read')
    preparing := fun other hprepared => h.preparing other (hsub.subset hprepared)
    nodup := h.nodup.sublist hsub
    aside := fun other hrelease hprepared => h.aside other (hmem _ hrelease) (hsub.subset hprepared)
    published := fun c hc => (hwork _ hc).elim }

/-- **A binding enters the two maps**, which have neither the slot nor the
request. -/
theorem Owning.bound (h : d.Owning) {ticket : MailboxTicket} {read : BrokerAccount.SubmittedRead}
    {rest : List DispatchTask} (htodo : d.todo = .bind ticket read :: rest)
    (hnone : ∀ ticket read, .bind ticket read ∉ rest) {m : BrokerMailbox} {now : ℚ}
    (hbind : d.mailbox.bind ticket read.request now = (true, m))
    (hfresh : ∀ other request, d.requests.get? other = some request → request.ticket ≠ read.request.ticket) :
    Owning { d with
      mailbox := m
      requests := d.requests.set ticket read.request
      routes := d.routes.set read.request.ticket ticket
      todo := rest } := by
  obtain ⟨hkeeps, hbinds⟩ := d.mailbox.keeps_bind ticket read.request now
  rw [hbind] at hkeeps hbinds
  obtain ⟨hempty, s', hs', hheld', hrequest'⟩ := hbinds rfl
  have hunmapped : d.requests.get? ticket = none := by
    cases hsome : d.requests.get? ticket with
    | none => rfl
    | some request =>
      obtain ⟨s, hs, -, hrequest⟩ := h.held ticket request hsome
      rw [hempty s hs] at hrequest
      cases hrequest
  have hunrouted : d.routes.get? read.request.ticket = none := by
    cases hsome : d.routes.get? read.request.ticket with
    | none => rfl
    | some other =>
      obtain ⟨request, hrequest, hkey⟩ := h.requests _ other hsome
      exact absurd hkey (hfresh other request hrequest)
  have hprepared : prepared d.todo = ticket :: prepared rest := by
    rw [htodo]
    rfl
  have hnodup := h.nodup
  rw [hprepared, List.nodup_cons] at hnodup
  have hwork := (htodo ▸ h.shaped).work id (by simp)
  exact {
    slots := fun other s hs => by
      obtain ⟨old, hold, hsubmission, hsound⟩ := hkeeps.slot other s hs
      obtain ⟨hold_sound, hticket⟩ := h.slots other old hold
      exact ⟨hsound hold_sound, by rw [hsubmission]; exact hticket⟩
    reads := h.reads
    shaped := .inl hwork
    routes := fun other request hother => by
      simp only [Dict.get?_set] at hother ⊢
      split at hother
      · next heq =>
        cases hother
        rw [if_pos rfl, heq]
      · rw [if_neg (hfresh other request hother)]
        exact h.routes other request hother
    requests := fun key other hother => by
      simp only [Dict.get?_set] at hother ⊢
      split at hother
      · next heq =>
        cases hother
        exact ⟨read.request, by rw [if_pos rfl], heq.symm⟩
      · obtain ⟨request, hrequest, hkey⟩ := h.requests key other hother
        refine ⟨request, ?_, hkey⟩
        rw [if_neg ?_]
        · exact hrequest
        · rintro rfl
          rw [hunmapped] at hrequest
          cases hrequest
    held := fun other request hother => by
      simp only [Dict.get?_set] at hother
      split at hother
      · next heq =>
        cases hother
        rw [heq]
        exact ⟨s', hs', hheld', hrequest'⟩
      · next hne =>
        obtain ⟨s, hs, hheld, hrequest⟩ := h.held other request hother
        obtain ⟨q, hq, hheld'', hsame⟩ := hkeeps.held other s hs hne hheld
        exact ⟨q, hq, hheld'', hsame.trans hrequest⟩
    pending := fun request hold => by
      simp only [Dict.get?_set]
      rcases h.pending request hold with ⟨other, hother⟩ | ⟨other, read', hbound, hrequest⟩
      · refine .inl ⟨other, ?_⟩
        rw [if_neg ?_]
        · exact hother
        · rintro rfl
          rw [hunmapped] at hother
          cases hother
      · rw [htodo] at hbound
        rcases List.mem_cons.mp hbound with heq | hbound
        · cases heq
          exact .inl ⟨ticket, by rw [if_pos rfl, hrequest]⟩
        · exact absurd hbound (hnone other read')
    preparing := fun other hmem => by
      obtain ⟨s, hs, hheld, hempty⟩ := h.preparing other (hprepared ▸ List.mem_cons_of_mem _ hmem)
      have hne : other ≠ ticket := by
        rintro rfl
        exact hnodup.1 hmem
      obtain ⟨q, hq, hheld'', hsame⟩ := hkeeps.held other s hs hne hheld
      exact ⟨q, hq, hheld'', hsame.trans hempty⟩
    nodup := hnodup.2
    aside := fun other hrelease hmem =>
      h.aside other (htodo ▸ List.mem_cons_of_mem _ hrelease) (hprepared ▸ List.mem_cons_of_mem _ hmem)
    published := fun c hc => (hwork _ hc).elim }

end Dispatcher

namespace DispatchRun

variable {r : DispatchRun} {loads : Loads} {now : ℚ}

open Dispatcher

/-- **Every task of the owner keeps the tables in agreement.** -/
theorem Dispatched.perform_owning [Rounding] (h : r.Dispatched) (howning : r.dispatcher.Owning) {task : DispatchTask}
    {rest : List DispatchTask} (htodo : r.dispatcher.todo = task :: rest) (input : TaskInput) :
    (r.dispatcher.perform loads now input task rest).2.Owning := by
  have hsingle : ∀ ticket read, .bind ticket read ∉ rest := by
    intro ticket read hmem
    refine h.single ticket read ?_
    rw [htodo]
    exact hmem
  have hshaped : Shaped (task :: rest) := htodo ▸ howning.shaped
  unfold Dispatcher.perform
  cases task with
  | tick =>
    have hidle := howning.fewer htodo (by simp)
    exact hidle.publishing (hshaped.waiting id (by simp)) (BrokerAccount.tick_ends howning.reads ..)
  | retire reason =>
    have hidle := howning.fewer htodo (by simp)
    exact hidle.publishing (hshaped.waiting id (by simp)) (BrokerAccount.retire_ends howning.reads ..)
  | drainAccount =>
    have hidle := howning.fewer htodo (by simp)
    exact hidle.publishing (hshaped.waiting id (by simp)) (BrokerAccount.drain_ends howning.reads ..)
  | receive plain peer generation =>
    have hidle := howning.fewer htodo (by simp)
    have hwaiting := hshaped.waiting id (by simp)
    simp only
    rcases BrokerAccount.receive_ends loads howning.reads input.jobs plain peer generation now with
      ⟨events, account, heq, hends⟩ | ⟨e, account, cs, heq, hends⟩
    · rw [heq]
      exact hidle.publishing hwaiting hends
    · rw [heq]
      exact hidle.failed hwaiting hends
  | drainMailbox => exact (howning.fewer htodo (by simp)).caller (BrokerMailbox.keeps_drain _)
  | publish completion =>
    have hgone := howning.published completion (by rw [htodo]; exact List.mem_cons_self)
    have hpublish := (howning.fewer htodo (by simp)).publish (hshaped.waiting id (by simp)) hgone now
    rw [Dispatcher.publish_todo] at hpublish
    exact hpublish
  | closeMailbox => exact (howning.fewer htodo (by simp)).caller (BrokerMailbox.keeps_close _)
  | pollClosed => exact (howning.fewer htodo (by simp)).pollClosed (hshaped.waiting id (by simp)) now
  | pollWork =>
    have hrest : rest = [] := by
      rcases hshaped.cases with ⟨hwork, -⟩ | ⟨-, hrest⟩ | ⟨hplain, -⟩
      · exact hwork.elim
      · exact hrest
      · exact hplain.elim
    subst hrest
    have hpolled := (howning.fewer htodo (by simp)).pollWork rfl now
    simp only [List.append_nil]
    exact hpolled
  | release ticket =>
    have haside : ticket ∉ prepared rest := by
      have haside := howning.aside ticket (by rw [htodo]; exact List.mem_cons_self)
      rw [htodo] at haside
      exact haside
    have hrelease := (howning.fewer htodo (by simp)).release haside
    rw [Dispatcher.release_todo] at hrelease
    exact hrelease
  | prepare submission =>
    have hnone : ∀ ticket read, .bind ticket read ∉ r.dispatcher.todo := by
      intro ticket read hmem
      rw [htodo] at hmem
      exact hsingle ticket read ((List.mem_cons.mp hmem).resolve_left (by simp))
    simp only
    split
    · exact howning.fewer htodo (by simp)
    rcases BrokerAccount.submitRead_cases howning.reads input.jobs input.draws submission.device submission.path
        (Rounding.round (submission.deadline - now)) now with
      ⟨read, reads, source, heq, hregistered⟩ | ⟨e, reads, source, heq, htabled, hreads, -⟩
    · rw [heq]
      exact howning.registered htodo hnone hregistered
    · rw [heq]
      exact howning.retired hnone htabled hreads .prepare
  | bind ticket read =>
    obtain ⟨-, hnewer⟩ := h.binding ticket read (by rw [htodo]; exact List.mem_cons_self)
    simp only
    split
    · next mailbox heq =>
      rw [bind_refused heq]
      exact howning.unbound htodo hsingle
    · next mailbox heq =>
      refine howning.bound htodo hsingle heq fun other request hrequest hsame => ?_
      -- What is in the maps was bound, with an older sequence.
      obtain ⟨s, hs, -, hsome⟩ := howning.held other request hrequest
      have hbound := ((h.kept.slots other s hs).request request).mp hsome
      have holder := hnewer other request hbound
      rw [hsame] at holder
      exact absurd holder (lt_irrefl _)

theorem begin_owning (h : r.dispatcher.Owning) {tasks : List DispatchTask} (hwaiting : Waiting tasks)
    (hpublish : ∀ c, .publish c ∉ tasks) : (r.dispatcher.begin tasks).2.Owning := by
  have hprepared := hwaiting.prepared
  unfold Dispatcher.begin
  simp only
  split
  · next hempty =>
    have hempty : r.dispatcher.todo = [] := by simpa using hempty
    exact { h with
      shaped := .inr hwaiting
      pending := fun request hold => by
        rcases h.pending request hold with howner | ⟨ticket, read, hbound, -⟩
        · exact .inl howner
        · rw [hempty] at hbound
          cases hbound
      preparing := fun ticket hmem => by
        simp only [hprepared] at hmem
        cases hmem
      nodup := by
        simp only [hprepared]
        exact .nil
      aside := fun ticket _ => by simp [hprepared]
      published := fun c hc => absurd hc (hpublish c) }
  · exact h

theorem submit_owning [Rounding] (h : r.Dispatched) (howning : r.dispatcher.Owning) (device : Nat) (path : String) (timeout now : ℚ) :
    Owning { r.dispatcher with mailbox := (r.dispatcher.mailbox.submit device path timeout now).2 } := by
  obtain ⟨hstay, hslots, -⟩ := r.dispatcher.mailbox.keeps_submit device path timeout now fun ticket s hs =>
    h.kept.fresh _ _ (h.kept.slots ticket s hs).accepted
  exact { howning with
    slots := fun ticket s hs => by
      rcases hslots ticket s hs with hold | ⟨hsound, hticket, -⟩
      · exact howning.slots ticket s hold
      · exact ⟨hsound, hticket⟩
    held := fun ticket request hrequest => by
      obtain ⟨s, hs, hheld⟩ := howning.held ticket request hrequest
      exact ⟨s, hstay ticket s hs, hheld⟩
    preparing := fun ticket hmem => by
      obtain ⟨s, hs, hheld⟩ := howning.preparing ticket hmem
      exact ⟨s, hstay ticket s hs, hheld⟩ }

theorem Dispatched.step_owning [Rounding] (h : r.Dispatched) (howning : r.dispatcher.Owning) (loads : Loads) (now : ℚ)
    (call : DispatchCall) : (r.step loads now call).dispatcher.Owning := by
  unfold DispatchRun.step Dispatcher.step
  cases call with
  | submit device path timeout =>
    have hsubmit := submit_owning h howning device path timeout now
    simp only
    split
    · next heq =>
      rw [heq] at hsubmit
      exact hsubmit
    · next heq =>
      rw [heq] at hsubmit
      exact hsubmit
  | cancel ticket => exact howning.caller (BrokerMailbox.keeps_cancel ..)
  | take ticket => exact howning.caller (BrokerMailbox.keeps_take ..)
  | closeMailbox => exact howning.caller (BrokerMailbox.keeps_close _)
  | drainMailbox => exact howning.caller (BrokerMailbox.keeps_drain _)
  | step => exact begin_owning howning ⟨[.tick], by simp [DispatchTask.Plain], .inr rfl⟩ (by simp)
  | receive plain peer generation =>
    exact begin_owning howning ⟨_, by simp [DispatchTask.Plain], .inl rfl⟩ (by simp)
  | close reason => exact begin_owning howning ⟨_, by simp [DispatchTask.Plain], .inl rfl⟩ (by simp)
  | drain => exact begin_owning howning ⟨_, by simp [DispatchTask.Plain], .inl rfl⟩ (by simp)
  | proceed input =>
    simp only
    split
    · exact howning
    · next task rest htodo => exact h.perform_owning howning htodo input
  | ready ticket => exact howning.caller (BrokerMailbox.keeps_ready ..)
  | reserve count => exact { howning with }

theorem owning_new {node : CertifiedNode} {nextSequence generation : Nat} {address : LocalAddress} {policy : AccountPolicy}
    {stateReads : Bool} {t : ℚ} {d : Dispatcher}
    (h : Dispatcher.new node nextSequence generation address policy stateReads t = some d) : d.Owning := by
  unfold Dispatcher.new at h
  split at h
  · next mailbox account hmailbox haccount =>
    cases h
    unfold BrokerMailbox.new at hmailbox
    split at hmailbox
    · cases hmailbox
    cases hmailbox
    unfold BrokerAccount.new at haccount
    split at haccount
    · next input source _ _ =>
      split at haccount
      · cases haccount
      · next reads hreads =>
        cases haccount
        have htabled := (ReadsRun.Counted.new hreads).tabled
        have hempty : ∀ s, reads.pending.get? s = none := by
          intro s
          unfold BrokerReads.new at hreads
          split at hreads
          · cases hreads
          · cases hreads
            rfl
        exact {
          slots := fun ticket s hs => by cases hs
          reads := htabled
          shaped := .inl (by simp)
          routes := fun ticket request hrequest => by cases hrequest
          requests := fun key ticket hroute => by cases hroute
          held := fun ticket request hrequest => by cases hrequest
          pending := fun request hold => by
            obtain ⟨p, hp, -⟩ := hold
            rw [hempty] at hp
            cases hp
          preparing := fun ticket hmem => by cases hmem
          nodup := .nil
          aside := fun ticket hmem => by cases hmem
          published := fun c hc => by cases hc }
    · cases haccount
  · cases h

theorem Dispatched.run_owning [Rounding] (h : r.Dispatched) (howning : r.dispatcher.Owning) (loads : Loads)
    (calls : List (ℚ × DispatchCall)) : (Machine.run (DispatchRun.step loads) r calls).dispatcher.Owning := by
  induction calls generalizing r with
  | nil => exact howning
  | cons call calls ih => exact ih (h.step loads call.1 call.2) (h.step_owning howning loads call.1 call.2)

/-- **A submission that is about to be made finds room.** -/
theorem Dispatched.room (h : r.Dispatched) (howning : r.dispatcher.Owning) {submission : ReadSubmission}
    {rest : List DispatchTask} (htodo : r.dispatcher.todo = .prepare submission :: rest) :
    r.dispatcher.account.reads.pending.size < MAX_PENDING := by
  have hnone : ∀ ticket read, .bind ticket read ∉ r.dispatcher.todo := by
    intro ticket read hmem
    have hsingle := h.single ticket read
    rw [htodo] at hmem hsingle
    exact hsingle ((List.mem_cons.mp hmem).resolve_left (by simp))
  -- The pending reads are in the map, and the slots of the map are not this one.
  have hreads : ∀ s ∈ r.dispatcher.account.reads.pending.keys,
      s ∈ r.dispatcher.requests.values.map fun request => request.ticket.sequence := by
    intro s hs
    obtain ⟨p, hp⟩ := Dict.mem_keys.mp hs
    have hsequence := howning.reads.sequence s p hp
    rcases howning.pending p.request ⟨p, by rw [hsequence]; exact hp, rfl⟩ with ⟨ticket, hticket⟩ | ⟨ticket, read, hbound, -⟩
    · refine List.mem_map.mpr ⟨p.request, ?_, hsequence⟩
      exact List.mem_map.mpr ⟨(ticket, p.request), Dict.get?_eq_some.mp hticket, rfl⟩
    · exact absurd hbound (hnone ticket read)
  obtain ⟨slot, hslot, -, hempty⟩ := howning.preparing submission.ticket (by
    rw [htodo]
    exact List.mem_cons_self)
  have hkeys : ∀ ticket ∈ r.dispatcher.requests.keys, ticket ∈ (r.dispatcher.mailbox.slots.erase submission.ticket).keys := by
    intro ticket hticket
    obtain ⟨request, hrequest⟩ := Dict.mem_keys.mp hticket
    obtain ⟨s, hs, -, hsome⟩ := howning.held ticket request hrequest
    refine Dict.mem_keys.mpr ⟨s, ?_⟩
    rw [Dict.get?_erase, if_neg ?_]
    · exact hs
    · rintro rfl
      rw [hslot] at hs
      cases hs
      rw [hempty] at hsome
      cases hsome
  have hreads_size := Dict.size_le_of_keys hreads
  have hkeys_size := Dict.size_le_of_keys hkeys
  have hslots := Dict.size_erase hslot
  have hsize := h.kept.size
  simp only [List.length_map, Dict.values, Dict.keys] at hreads_size hkeys_size
  simp only [Dict.size] at hslots hsize hreads_size hkeys_size ⊢
  omega

end DispatchRun

end CamGuard.Account
