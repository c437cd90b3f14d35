/-
Exactly one ending for every read: what the mailbox is kept to (`Kept`) holds in
every run of callers and owner, whatever falls between two tasks of the owner.

The owner adds what a binding needs: a request is bound when no other one with
its sequence has been, because the account takes a new sequence for each
(`Dispatched`).
-/
import CamGuard.Account.MailboxFacts
import CamGuard.Account.ReadsFacts

namespace CamGuard.Account

/-! ## Sequences -/

namespace BrokerAccount

variable {a : BrokerAccount} {jobs : AccountJobs} {now : ℚ}

theorem retire_next (a : BrokerAccount) (reason : Retirement) : (a.retire reason).2.source.next = a.source.next := by
  unfold retire
  split <;> rfl

theorem retireWith_next (a : BrokerAccount) (reads : List ReadCompletion) (reason : Retirement) :
    (a.retireWith reads reason).2.source.next = a.source.next := a.retire_next reason

theorem expire_next (a : BrokerAccount) (jobs : AccountJobs) (now : ℚ) :
    (a.expire jobs now).2.source.next = a.source.next := by
  unfold expire
  split
  · rfl
  split
  · exact a.retire_next _
  split
  · exact a.retire_next _
  simp only
  split
  · exact retireWith_next _ (a.reads.poll fun _ => now).1 _
  split
  · rfl
  split
  · exact retireWith_next _ (a.reads.poll fun _ => now).1 _
  · rfl

theorem prepare_next (b : BrokerHeartbeat) (source : BrokerSequences) (node : CertifiedNode) (address : LocalAddress)
    (noise : Nat) (now : ℚ) : source.next ≤ (b.prepare source node address noise now).2.2.next := by
  unfold BrokerHeartbeat.prepare
  split
  · exact le_refl _
  split
  · exact le_refl _
  split
  · exact le_refl _
  rcases allocate_cases source with ⟨e, heq⟩ | ⟨source', heq, hnext⟩
  · rw [heq]
  · rw [heq]
    simp only
    split <;> exact hnext ▸ Nat.le_succ _

theorem tick_next (a : BrokerAccount) (jobs : AccountJobs) (noise : Nat) (now : ℚ) :
    a.source.next ≤ (a.tick jobs noise now).2.source.next := by
  have hexpire := a.expire_next jobs now
  unfold tick
  simp only
  split
  · next node _ _ =>
    split
    · exact hexpire.ge
    · have hprepare := prepare_next (a.expire jobs now).2.heartbeat (a.expire jobs now).2.source node
        (a.expire jobs now).2.address noise now
      rw [hexpire] at hprepare
      split
      · next heq =>
        rw [heq] at hprepare
        rw [retireWith_next]
        exact hprepare
      · next heq =>
        rw [heq] at hprepare
        exact hprepare
  · exact hexpire.ge

theorem receive_next (loads : Loads) (a : BrokerAccount) (jobs : AccountJobs) (plain : Bytes) (peer : String × Nat)
    (generation : Nat) (now : ℚ) : (a.receive loads jobs plain peer generation now).2.source.next = a.source.next := by
  have hexpire := a.expire_next jobs now
  unfold receive
  simp only
  split
  · exact hexpire
  split
  · exact (retireWith_next _ (a.expire jobs now).1.reads _).trans hexpire
  split
  · exact (retireWith_next _ (a.expire jobs now).1.reads _).trans hexpire
  split
  · exact hexpire
  split
  · exact hexpire
  split <;> exact hexpire

theorem drain_next (a : BrokerAccount) (jobs : AccountJobs) (now : ℚ) :
    (a.drain jobs now).2.source.next = a.source.next := by
  unfold drain
  rw [expire_next]
  split <;> rfl

theorem register_next [Rounding] (b : BrokerReads) (source : BrokerSequences) (device : Nat) (path : String) (timeout : ℚ)
    (clock : Nat → ℚ) : source.next ≤ (b.register source device path timeout clock).2.2.next ∧
      ∀ request, (b.register source device path timeout clock).1 = .ok request →
        request.ticket.sequence = source.next ∧
        (b.register source device path timeout clock).2.2.next = source.next + 1 := by
  have hrefused : ∀ {e : ReadFault} {request : ReadRequest} {P : Prop}, Except.error e = .ok request → P :=
    fun heq => by cases heq
  unfold BrokerReads.register BrokerTransactions.register
  split
  · exact ⟨le_refl _, fun _ => hrefused⟩
  split
  · exact ⟨le_refl _, fun _ => hrefused⟩
  split
  · exact ⟨le_refl _, fun _ => hrefused⟩
  by_cases hactive : b.receipts.active source = false
  · rw [if_pos hactive]
    exact ⟨le_refl _, fun _ => hrefused⟩
  rw [if_neg hactive]
  by_cases hbounds : 255 < 0xB7 ∨ timeout ≤ 0 ∨ MAX_TIMEOUT < timeout
  · rw [if_pos hbounds]
    exact ⟨le_refl _, fun _ => hrefused⟩
  rw [if_neg hbounds]
  by_cases hfull : MAX_PENDING ≤ b.receipts.pending.size
  · rw [if_pos hfull]
    exact ⟨le_refl _, fun _ => hrefused⟩
  rw [if_neg hfull]
  rcases allocate_cases source with ⟨e, heq⟩ | ⟨source', heq, hnext⟩
  · rw [heq]
    exact ⟨le_refl _, fun _ => hrefused⟩
  · rw [heq]
    refine ⟨hnext ▸ Nat.le_succ _, fun request hrequest => ?_⟩
    cases hrequest
    exact ⟨rfl, hnext⟩

/-- A read takes the next sequence, if it takes one. -/
theorem submitRead_next [Rounding] (a : BrokerAccount) (jobs : AccountJobs) (draws : SubmitDraws) (device : Nat) (path : String)
    (timeout now : ℚ) :
    a.source.next ≤ (a.submitRead jobs draws device path timeout now).2.source.next ∧
      ∀ read, (a.submitRead jobs draws device path timeout now).1 = .ok read →
        read.request.ticket.sequence = a.source.next ∧
        (a.submitRead jobs draws device path timeout now).2.source.next = a.source.next + 1 := by
  have hregister := register_next a.reads a.source device path timeout fun _ => now
  unfold submitRead
  split
  · exact ⟨le_refl _, fun read hread => by cases hread⟩
  split
  · exact ⟨le_refl _, fun read hread => by cases hread⟩
  split
  · next heq =>
    rw [heq] at hregister
    exact ⟨hregister.1, fun read hread => by cases hread⟩
  · next request reads source heq =>
    rw [heq] at hregister
    obtain ⟨hle, hok⟩ := hregister
    obtain ⟨hsequence, hnext⟩ := hok request rfl
    simp only
    split
    · exact ⟨hle, fun read hread => by cases hread⟩
    split
    · exact ⟨hle, fun read hread => by cases hread⟩
    · refine ⟨hle, fun read hread => ?_⟩
      cases hread
      exact ⟨hsequence, hnext⟩

end BrokerAccount

/-! ## The owner -/

namespace DispatchRun

open BrokerMailbox (Kept)

/-- What holds in a run: the mailbox is as the log says, what is to be
published was completed, and a request that waits for its binding is newer than
those that are bound. -/
structure Dispatched (r : DispatchRun) : Prop where
  kept : Kept r.log r.dispatcher.mailbox
  published : ∀ c, .publish c ∈ r.dispatcher.todo → .completed c ∈ r.log
  bound : ∀ ticket request, .bound ticket request ∈ r.log →
    request.ticket.sequence < r.dispatcher.account.source.next
  binding : ∀ ticket read, .bind ticket read ∈ r.dispatcher.todo →
    read.request.ticket.sequence < r.dispatcher.account.source.next ∧
      ∀ ticket' request, .bound ticket' request ∈ r.log → request.ticket.sequence < read.request.ticket.sequence
  single : ∀ ticket read, .bind ticket read ∉ r.dispatcher.todo.tail

variable {r : DispatchRun} {loads : Loads} {now : ℚ}

/-- An operation of the mailbox; the owner has the tasks it had. -/
theorem Dispatched.mailbox (h : r.Dispatched) {m : BrokerMailbox} {e : List DispatchEvent} (hm : Kept (r.log ++ e) m)
    (he : ∀ ticket request, DispatchEvent.bound ticket request ∉ e) :
    Dispatched ⟨{ r.dispatcher with mailbox := m }, r.log ++ e⟩ where
  kept := hm
  published := fun c hc => List.mem_append_left _ (h.published c hc)
  bound := fun ticket request hmem =>
    h.bound ticket request ((List.mem_append.mp hmem).resolve_right (he ticket request))
  binding := fun ticket read hmem => by
    obtain ⟨hnext, hall⟩ := h.binding ticket read hmem
    refine ⟨hnext, fun ticket' request hbound => ?_⟩
    exact hall ticket' request ((List.mem_append.mp hbound).resolve_right (he ticket' request))
  single := h.single

theorem Dispatched.fewer (h : r.Dispatched) {todo : List DispatchTask}
    (hsub : ∀ task ∈ todo, task ∈ r.dispatcher.todo) (hbind : ∀ ticket read, .bind ticket read ∉ todo) :
    Dispatched ⟨{ r.dispatcher with todo := todo }, r.log⟩ where
  kept := h.kept
  published := fun c hc => h.published c (hsub _ hc)
  bound := h.bound
  binding := fun ticket read hmem => absurd hmem (hbind ticket read)
  single := fun ticket read hmem => hbind ticket read (List.mem_of_mem_tail hmem)

/-- The account goes on, and the tasks with it; what is new among them are
publications, polls and releases. -/
theorem Dispatched.tasks (h : r.Dispatched) {d : Dispatcher} {cs : List ReadCompletion}
    (hkept : Kept (r.log ++ cs.map .completed) d.mailbox)
    (hnext : r.dispatcher.account.source.next ≤ d.account.source.next)
    (hpublish : ∀ c, .publish c ∈ d.todo → c ∈ cs ∨ .publish c ∈ r.dispatcher.todo)
    (hbind : ∀ ticket read, .bind ticket read ∉ d.todo) : Dispatched ⟨d, r.log ++ cs.map .completed⟩ where
  kept := hkept
  published := fun c hc => by
    rcases hpublish c hc with hnew | hold
    · exact List.mem_append_right _ (List.mem_map_of_mem hnew)
    · exact List.mem_append_left _ (h.published c hold)
  bound := fun ticket request hmem => by
    have hmem : .bound ticket request ∈ r.log := by simpa using hmem
    exact lt_of_lt_of_le (h.bound ticket request hmem) hnext
  binding := fun ticket read hmem => absurd hmem (hbind ticket read)
  single := fun ticket read hmem => hbind ticket read (List.mem_of_mem_tail hmem)

/-- The account's events are to be published. -/
theorem Dispatched.publishing (h : r.Dispatched) (events : AccountEvents) {account : BrokerAccount}
    (hnext : r.dispatcher.account.source.next ≤ account.source.next) {rest : List DispatchTask}
    (hrest : ∀ task ∈ rest, task ∈ r.dispatcher.todo) (hbind : ∀ ticket read, .bind ticket read ∉ rest) :
    Dispatched ⟨(r.dispatcher.publishing events account rest).2,
      r.log ++ (r.dispatcher.publishing events account rest).1⟩ := by
  refine h.tasks (h.kept.completions events.reads) hnext (fun c hc => ?_) fun ticket read hmem => ?_
  · rcases List.mem_append.mp hc with hc | hc
    · rcases List.mem_append.mp hc with hc | hc
      · obtain ⟨c', hc', heq⟩ := List.mem_map.mp hc
        cases heq
        exact .inl hc'
      · split at hc <;> simp at hc
    · exact .inr (hrest _ hc)
  · rcases List.mem_append.mp hmem with hmem | hmem
    · rcases List.mem_append.mp hmem with hmem | hmem
      · obtain ⟨_, -, heq⟩ := List.mem_map.mp hmem
        cases heq
      · split at hmem <;> simp at hmem
    · exact hbind ticket read hmem

/-- **Every task of the owner keeps the mailbox and the log in agreement.** -/
theorem Dispatched.perform [Rounding] (h : r.Dispatched) {task : DispatchTask} {rest : List DispatchTask}
    (htodo : r.dispatcher.todo = task :: rest) (input : TaskInput) :
    Dispatched ⟨(r.dispatcher.perform loads now input task rest).2,
      r.log ++ (r.dispatcher.perform loads now input task rest).1⟩ := by
  have hbind : ∀ ticket read, .bind ticket read ∉ rest := by
    intro ticket read hmem
    refine h.single ticket read ?_
    rw [htodo]
    exact hmem
  have hrest : ∀ task ∈ rest, task ∈ r.dispatcher.todo := by
    intro task hmem
    rw [htodo]
    exact List.mem_cons_of_mem _ hmem
  -- A task that logs nothing and leaves the rest.
  have hquiet : ∀ (d : Dispatcher), Kept r.log d.mailbox →
      r.dispatcher.account.source.next ≤ d.account.source.next → (∀ c, .publish c ∈ d.todo → .publish c ∈ rest) →
      (∀ ticket read, .bind ticket read ∉ d.todo) → Dispatched ⟨d, r.log ++ []⟩ := by
    intro d hkept hnext hpublish hnone
    refine h.tasks (show Kept (r.log ++ ([] : List ReadCompletion).map .completed) d.mailbox by simpa using hkept) hnext
      (fun c hc => .inr (hrest _ (hpublish c hc))) hnone
  unfold Dispatcher.perform
  cases task with
  | tick => exact h.publishing _ (BrokerAccount.tick_next ..) hrest hbind
  | retire reason => exact h.publishing _ (BrokerAccount.retire_next ..).ge hrest hbind
  | drainAccount => exact h.publishing _ (BrokerAccount.drain_next ..).ge hrest hbind
  | receive plain peer generation =>
    have hnext := BrokerAccount.receive_next loads r.dispatcher.account input.jobs plain peer generation now
    simp only
    split
    · next events account heq =>
      rw [heq] at hnext
      exact h.publishing events hnext.ge hrest hbind
    · next e account heq =>
      rw [heq] at hnext
      exact hquiet _ h.kept hnext.ge (fun c hc => by cases hc) fun ticket read hmem => by cases hmem
  | drainMailbox => exact hquiet _ (h.kept.quiet (BrokerMailbox.quiet_drain _)) (le_refl _) (fun _ => id) hbind
  | publish completion =>
    have hcompleted : .completed completion ∈ r.log := h.published completion (by rw [htodo]; exact List.mem_cons_self)
    simp only [Dispatcher.publish]
    split
    · exact hquiet _ h.kept (le_refl _) (fun _ => id) hbind
    · exact hquiet _ (h.kept.finished hcompleted ..) (le_refl _) (fun _ => id) hbind
  | closeMailbox =>
    have hclosed := h.mailbox h.kept.closed (by simp)
    exact hclosed.fewer hrest hbind
  | pollClosed =>
    refine hquiet _ (h.kept.quiet (BrokerMailbox.quiet_poll ..)) (le_refl _) (fun c hc => ?_) fun ticket read hmem => ?_
    · exact (List.mem_append.mp hc).resolve_left (by simp)
    · exact hbind ticket read ((List.mem_append.mp hmem).resolve_left (by simp))
  | pollWork =>
    refine hquiet _ (h.kept.quiet (BrokerMailbox.quiet_poll ..)) (le_refl _) (fun c hc => ?_) fun ticket read hmem => ?_
    · have hc := (List.mem_append.mp hc).resolve_left (by simp)
      exact (List.mem_append.mp hc).resolve_left (by simp)
    · have hmem := (List.mem_append.mp hmem).resolve_left (by simp)
      exact hbind ticket read ((List.mem_append.mp hmem).resolve_left (by simp))
  | release ticket =>
    simp only [Dispatcher.release]
    split
    · exact hquiet _ (h.kept.acknowledged ticket) (le_refl _) (fun _ => id) hbind
    · exact hquiet _ (h.kept.acknowledged ticket) (le_refl _) (fun _ => id) hbind
  | prepare submission =>
    simp only
    split
    · exact hquiet _ h.kept (le_refl _) (fun _ => id) hbind
    have hsubmit := r.dispatcher.account.submitRead_next input.jobs input.draws submission.device submission.path
      (Rounding.round (submission.deadline - now)) now
    split
    · next read account heq =>
      rw [heq] at hsubmit
      obtain ⟨hsequence, hnext⟩ := hsubmit.2 read rfl
      exact {
        kept := by rw [List.append_nil]; exact h.kept
        published := fun c hc => by
          rw [List.append_nil]
          exact h.published c (hrest _ ((List.mem_cons.mp hc).resolve_left (by simp)))
        bound := fun ticket request hmem => by
          rw [List.append_nil] at hmem
          exact lt_of_lt_of_le (h.bound ticket request hmem) hsubmit.1
        binding := fun ticket read' hmem => by
          rcases List.mem_cons.mp hmem with heq | hmem
          · cases heq
            rw [List.append_nil, hsequence]
            exact ⟨by rw [hnext]; exact Nat.lt_succ_self _, h.bound⟩
          · exact absurd hmem (hbind ticket read')
        single := hbind }
    · next e account heq =>
      rw [heq] at hsubmit
      exact h.publishing _ (le_trans hsubmit.1 (BrokerAccount.retire_next ..).ge) (fun task hmem => by cases hmem)
        fun ticket read hmem => by cases hmem
  | bind ticket read =>
    obtain ⟨hnext, hnewer⟩ := h.binding ticket read (by rw [htodo]; exact List.mem_cons_self)
    simp only
    split
    · next mailbox heq =>
      rw [bind_refused heq]
      exact hquiet _ h.kept (le_refl _) (fun _ => id) hbind
    · next mailbox heq =>
      have hkept := h.kept.binding heq fun ticket' request hmem heq => by
        have := hnewer ticket' request hmem
        rw [heq] at this
        exact lt_irrefl _ this
      exact {
        kept := hkept
        published := fun c hc => List.mem_append_left _ (h.published c (hrest _ hc))
        bound := fun ticket' request hmem => by
          rcases List.mem_append.mp hmem with hmem | hmem
          · exact h.bound ticket' request hmem
          · cases List.mem_singleton.mp hmem
            exact hnext
        binding := fun ticket' read' hmem => absurd hmem (hbind ticket' read')
        single := fun ticket' read' hmem => hbind ticket' read' (List.mem_of_mem_tail hmem) }

/-- **Every step keeps the mailbox and the log in agreement.** -/
theorem Dispatched.step [Rounding] (h : r.Dispatched) (loads : Loads) (now : ℚ) (call : Dispatcher.DispatchCall) :
    (r.step loads now call).Dispatched := by
  have hquiet : ∀ m, Kept r.log m → Dispatched ⟨{ r.dispatcher with mailbox := m }, r.log ++ []⟩ := fun m hm =>
    h.mailbox (by rw [List.append_nil]; exact hm) (by simp)
  have hbegin : ∀ tasks, (∀ c, .publish c ∉ tasks) → (∀ ticket read, .bind ticket read ∉ tasks) →
      Dispatched ⟨(r.dispatcher.begin tasks).2, r.log ++ (r.dispatcher.begin tasks).1⟩ := by
    intro tasks hpublish hbind
    unfold Dispatcher.begin
    rw [List.append_nil]
    by_cases hidle : r.dispatcher.todo.isEmpty
    · rw [if_pos hidle]
      exact {
        kept := h.kept
        published := fun c hc => absurd hc (hpublish c)
        bound := h.bound
        binding := fun ticket read hmem => absurd hmem (hbind ticket read)
        single := fun ticket read hmem => hbind ticket read (List.mem_of_mem_tail hmem) }
    · rw [if_neg hidle]
      exact h
  unfold DispatchRun.step Dispatcher.step
  cases call with
  | submit device path timeout =>
    simp only
    split
    · next e mailbox heq =>
      rw [submit_refused heq]
      exact hquiet _ h.kept
    · next submission mailbox heq => exact h.mailbox (h.kept.submitted heq) (by simp)
  | cancel ticket => exact hquiet _ (h.kept.quiet (BrokerMailbox.quiet_cancel ..))
  | take ticket => exact h.mailbox (h.kept.taken ticket now) (by simp)
  | closeMailbox => exact h.mailbox h.kept.closed (by simp)
  | drainMailbox => exact hquiet _ (h.kept.quiet (BrokerMailbox.quiet_drain _))
  | step => exact hbegin _ (by simp) (by simp)
  | receive plain peer generation => exact hbegin _ (by simp) (by simp)
  | close reason => exact hbegin _ (by simp) (by simp)
  | drain => exact hbegin _ (by simp) (by simp)
  | proceed input =>
    simp only
    split
    · rw [List.append_nil]
      exact h
    · next task rest htodo => exact h.perform htodo input
  | ready ticket => exact hquiet _ (h.kept.quiet (BrokerMailbox.quiet_ready ..))
  | reserve count =>
    have hnext := reserve_next r.dispatcher.account.source count
    simp only [List.append_nil]
    exact {
      kept := h.kept
      published := h.published
      bound := fun ticket request hmem => lt_of_lt_of_le (h.bound ticket request hmem) hnext
      binding := fun ticket read hmem => by
        obtain ⟨hold, hall⟩ := h.binding ticket read hmem
        exact ⟨lt_of_lt_of_le hold hnext, hall⟩
      single := h.single }

/-! ## Outcomes stay -/

/-- The outcomes of `m` are there in `m'`. -/
def Stay (m m' : BrokerMailbox) : Prop :=
  ∀ ticket slot o, m.slots.get? ticket = some slot → slot.outcome = some o →
    ∃ slot', m'.slots.get? ticket = some slot' ∧ slot'.outcome = some o

theorem Stay.refl (m : BrokerMailbox) : Stay m m := fun _ slot _ hslot ho => ⟨slot, hslot, ho⟩

theorem stay_of_quiet {m m' : BrokerMailbox} (h : m.Quiet m') : Stay m m' := by
  intro ticket slot o hslot ho
  rcases h.slot ticket with ⟨hnone, -⟩ | ⟨s, s', hs, hs', he⟩
  · rw [hslot] at hnone
    cases hnone
  · rw [hslot] at hs
    cases hs
    exact ⟨s', hs', he.stays ho⟩

theorem stay_of_set {m : BrokerMailbox} {ticket : MailboxTicket} {slot' : MailSlot}
    (hopen : ∀ slot, m.slots.get? ticket = some slot → slot.outcome = none) {closed : Bool} {next : Nat} :
    Stay m { m with slots := m.slots.set ticket slot', closed := closed, next := next } := by
  intro other slot o hslot ho
  by_cases hother : other = ticket
  · rw [hother] at hslot
    rw [hopen slot hslot] at ho
    cases ho
  · refine ⟨slot, ?_, ho⟩
    simp only [Dict.get?_set, if_neg hother]
    exact hslot

theorem stay_acknowledged {log : List DispatchEvent} {m : BrokerMailbox} (h : Kept log m) (ticket : MailboxTicket) :
    Stay m (m.acknowledgeCancel ticket) := by
  unfold BrokerMailbox.acknowledgeCancel
  split
  · exact .refl m
  next slot hslot =>
  split
  · exact .refl m
  split
  · next hconsumed =>
    intro other s o hs ho
    by_cases hother : other = ticket
    · rw [hother, hslot] at hs
      cases hs
      rw [((h.slots ticket slot hslot).consumed hconsumed).1] at ho
      cases ho
    · refine ⟨s, ?_, ho⟩
      simp only [Dict.get?_erase, if_neg hother]
      exact hs
  · exact stay_of_quiet (BrokerMailbox.quiet_set hslot ⟨rfl, rfl, rfl, .inl rfl⟩)

theorem stay_submit [Rounding] {log : List DispatchEvent} {m : BrokerMailbox} (h : Kept log m) (device : Nat) (path : String)
    (timeout now : ℚ) : Stay m (m.submit device path timeout now).2 := by
  unfold BrokerMailbox.submit
  split
  · exact .refl m
  split
  · exact .refl m
  split
  · exact .refl m
  · refine stay_of_set fun slot hslot => ?_
    exact absurd (h.fresh _ _ (h.slots _ slot hslot).accepted) (lt_irrefl _)

theorem stay_bind (m : BrokerMailbox) (ticket : MailboxTicket) (request : ReadRequest) (now : ℚ) :
    Stay m (m.bind ticket request now).2 := by
  unfold BrokerMailbox.bind
  split
  · exact .refl m
  next slot hslot =>
  split
  · next hbinds =>
    refine stay_of_set fun s hs => ?_
    rw [hslot] at hs
    cases hs
    simp only [BrokerMailbox.binds, Bool.and_eq_true, Option.isNone_iff_eq_none] at hbinds
    exact hbinds.1.1.1.1.1.1.1.2
  · exact .refl m

theorem stay_finish (m : BrokerMailbox) (ticket : MailboxTicket) (completion : ReadCompletion) (now : ℚ) :
    Stay m (m.finish ticket completion now) := by
  unfold BrokerMailbox.finish
  split
  · exact .refl m
  next slot hslot =>
  split
  · exact .refl m
  · next hgo =>
    refine stay_of_set fun s hs => ?_
    rw [hslot] at hs
    cases hs
    by_contra hsome
    exact hgo (.inr (.inl (Option.isSome_iff_ne_none.mpr hsome)))

theorem Dispatched.perform_stay [Rounding] (h : r.Dispatched) (task : DispatchTask) (rest : List DispatchTask) (input : TaskInput) :
    Stay r.dispatcher.mailbox (r.dispatcher.perform loads now input task rest).2.mailbox := by
  unfold Dispatcher.perform
  cases task with
  | tick => exact .refl _
  | retire reason => exact .refl _
  | drainAccount => exact .refl _
  | receive plain peer generation =>
    simp only
    split <;> exact .refl _
  | drainMailbox => exact stay_of_quiet (BrokerMailbox.quiet_drain _)
  | publish completion =>
    simp only [Dispatcher.publish]
    split
    · exact .refl _
    · exact stay_finish r.dispatcher.mailbox _ completion now
  | closeMailbox => exact stay_of_quiet (BrokerMailbox.quiet_close _)
  | pollClosed => exact stay_of_quiet (BrokerMailbox.quiet_poll ..)
  | pollWork => exact stay_of_quiet (BrokerMailbox.quiet_poll ..)
  | release ticket =>
    simp only [Dispatcher.release]
    split
    · exact stay_acknowledged h.kept ticket
    · exact stay_acknowledged h.kept ticket
  | prepare submission =>
    simp only
    split
    · exact .refl _
    split <;> exact .refl _
  | bind ticket read =>
    have hstay := stay_bind r.dispatcher.mailbox ticket read.request now
    simp only
    split
    · next heq =>
      rw [heq] at hstay
      exact hstay
    · next heq =>
      rw [heq] at hstay
      exact hstay

theorem take_other (m : BrokerMailbox) {other ticket : MailboxTicket} (now : ℚ) (h : other ≠ ticket) :
    (m.take other now).2.slots.get? ticket = m.slots.get? ticket := by
  rcases take_cases m other now with ⟨-, heq⟩ | ⟨slot, -, ⟨-, heq⟩ | ⟨-, -, -, heq⟩ | ⟨o, slots, -, -, heq, hslots⟩⟩
  · rw [heq]
  · rw [heq]
  · rw [heq, Dict.get?_set, if_neg h.symm]
  · rw [heq]
    rcases hslots with rfl | rfl
    · rw [Dict.get?_set, if_neg h.symm]
    · rw [Dict.get?_erase, if_neg h.symm]

theorem Dispatched.take_outcome (h : r.Dispatched) (now : ℚ) {ticket : MailboxTicket} {slot : MailSlot} {o : ReadOutcome}
    (hslot : r.dispatcher.mailbox.slots.get? ticket = some slot) (ho : slot.outcome = some o) :
    (r.dispatcher.mailbox.take ticket now).1 = some o := by
  rcases take_cases r.dispatcher.mailbox ticket now with ⟨hnone, -⟩ | ⟨slot', hslot', hcases⟩
  · rw [hslot] at hnone
    cases hnone
  rw [hslot] at hslot'
  cases hslot'
  rcases hcases with ⟨hconsumed, -⟩ | ⟨-, -, hnone, -⟩ | ⟨o', slots, -, ho', heq, -⟩
  · rw [((h.kept.slots ticket slot hslot).consumed hconsumed).1] at ho
    cases ho
  · rw [ho] at hnone
    cases hnone
  · rw [(slot.evolves_expire now).stays ho] at ho'
    rw [heq, ← ho']

/-- **An outcome stays until it is taken.** -/
theorem Dispatched.outcome [Rounding] (h : r.Dispatched) (loads : Loads) (now : ℚ) (call : Dispatcher.DispatchCall)
    {ticket : MailboxTicket} {slot : MailSlot} {o : ReadOutcome} (hslot : r.dispatcher.mailbox.slots.get? ticket = some slot)
    (ho : slot.outcome = some o) :
    (∃ slot', (r.step loads now call).dispatcher.mailbox.slots.get? ticket = some slot' ∧ slot'.outcome = some o) ∨
      (call = .take ticket ∧ (r.step loads now call).log = r.log ++ [.taken ticket now (some o)]) := by
  have hsame : ∀ m, Stay r.dispatcher.mailbox m → ∃ slot', m.slots.get? ticket = some slot' ∧ slot'.outcome = some o :=
    fun m hm => hm ticket slot o hslot ho
  have hbegin : ∀ tasks, Stay r.dispatcher.mailbox (r.dispatcher.begin tasks).2.mailbox := by
    intro tasks
    unfold Dispatcher.begin
    simp only
    split <;> exact .refl _
  unfold DispatchRun.step Dispatcher.step
  cases call with
  | submit device path timeout =>
    have hstay := stay_submit h.kept device path timeout now
    refine .inl (hsame _ ?_)
    simp only
    split
    · next heq =>
      rw [heq] at hstay
      exact hstay
    · next heq =>
      rw [heq] at hstay
      exact hstay
  | cancel other => exact .inl (hsame _ (stay_of_quiet (BrokerMailbox.quiet_cancel ..)))
  | take other =>
    by_cases hother : other = ticket
    · subst hother
      refine .inr ⟨rfl, ?_⟩
      simp only [h.take_outcome now hslot ho]
    · exact .inl ⟨slot, (take_other r.dispatcher.mailbox now hother).trans hslot, ho⟩
  | closeMailbox => exact .inl (hsame _ (stay_of_quiet (BrokerMailbox.quiet_close _)))
  | drainMailbox => exact .inl (hsame _ (stay_of_quiet (BrokerMailbox.quiet_drain _)))
  | step => exact .inl (hsame _ (hbegin _))
  | receive plain peer generation => exact .inl (hsame _ (hbegin _))
  | close reason => exact .inl (hsame _ (hbegin _))
  | drain => exact .inl (hsame _ (hbegin _))
  | proceed input =>
    refine .inl (hsame _ ?_)
    simp only
    split
    · exact .refl _
    · next task rest _ => exact h.perform_stay task rest input
  | ready other => exact .inl (hsame _ (stay_of_quiet (BrokerMailbox.quiet_ready ..)))
  | reserve count => exact .inl (hsame _ (.refl _))

/-! ## Runs -/

theorem Dispatched.run [Rounding] (h : r.Dispatched) (loads : Loads) (calls : List (ℚ × Dispatcher.DispatchCall)) :
    (Machine.run (DispatchRun.step loads) r calls).Dispatched := by
  induction calls generalizing r with
  | nil => exact h
  | cons call calls ih => exact ih (h.step loads call.1 call.2)

theorem dispatched_new {node : CertifiedNode} {nextSequence generation : Nat} {address : LocalAddress}
    {policy : AccountPolicy} {stateReads : Bool} {t : ℚ} {d : Dispatcher}
    (h : Dispatcher.new node nextSequence generation address policy stateReads t = some d) : Dispatched ⟨d, []⟩ := by
  unfold Dispatcher.new at h
  split at h
  · next mailbox account hmailbox haccount =>
    cases h
    unfold BrokerMailbox.new at hmailbox
    split at hmailbox
    · cases hmailbox
    · cases hmailbox
      exact {
        kept := {
          right := justified_nil _
          size := Nat.zero_le _
          fresh := fun _ _ hmem => by cases hmem
          slots := fun ticket slot hslot => by
            rw [Dict.get?_empty] at hslot
            cases hslot
          gone := fun _ _ hmem => by cases hmem
          bound := fun _ _ hmem => by cases hmem
          yielded := fun ticket hyielded => by
            obtain ⟨_, _, hmem⟩ := hyielded
            cases hmem
          ended := fun hmem => by cases hmem }
        published := fun _ hmem => by cases hmem
        bound := fun _ _ hmem => by cases hmem
        binding := fun _ _ hmem => by cases hmem
        single := fun _ _ hmem => by cases hmem }
  · cases h

/-- The takes of a ticket that gave an outcome. -/
def yields (ticket : MailboxTicket) (log : List DispatchEvent) : List DispatchEvent :=
  log.filter fun e => match e with
    | .taken other _ (some _) => decide (other = ticket)
    | _ => false

theorem yields_le_one {log : List DispatchEvent} (h : Justified DispatchEvent.Right log) (ticket : MailboxTicket) :
    (yields ticket log).length ≤ 1 := by
  induction log using List.reverseRecOn with
  | nil => exact Nat.zero_le _
  | append_singleton log e ih =>
    have hbefore : Justified DispatchEvent.Right log := fun before e' after hsplit =>
      h before e' (after ++ [e]) (by rw [hsplit, List.append_assoc, List.cons_append])
    have hlast := h log e [] rfl
    rw [yields, List.filter_append, List.length_append]
    by_cases hyields : ∃ now o, e = .taken ticket now (some o)
    · obtain ⟨now, o, rfl⟩ := hyields
      have hnone : yields ticket log = [] := by
        refine List.filter_eq_nil_iff.mpr fun e he => ?_
        cases e with
        | taken other now' outcome =>
          cases outcome with
          | none => simp
          | some o' =>
            simp only [decide_eq_true_eq]
            rintro rfl
            exact hlast.1 rfl ⟨now', o', he⟩
        | _ => simp
      rw [← yields, hnone]
      simp
    · have hnot : (List.filter (fun e => match e with
          | DispatchEvent.taken other _ (some _) => decide (other = ticket)
          | _ => false) [e]).length = 0 := by
        rw [List.length_eq_zero_iff, List.filter_eq_nil_iff]
        intro e' he'
        rw [List.mem_singleton.mp he']
        cases e with
        | taken other now' outcome =>
          cases outcome with
          | none => simp
          | some o' =>
            simp only [decide_eq_true_eq]
            rintro rfl
            exact hyields ⟨now', o', rfl⟩
        | _ => simp
      rw [hnot]
      exact ih hbefore

/-- **Every read has one ending.** In every run of callers and owner on a
dispatcher, whatever falls between two tasks of the owner: at most eight slots
are held; a ticket gives at most one outcome, and an outcome stays as it is until
a take gives it; a response that is taken is the completion of the one request
that was bound to the ticket, which is bound to no other; a take at or after the
deadline gives an outcome, unless one was taken before; and once the mailbox has
been closed, every ticket that was not taken has an outcome. -/
theorem reads_delivered_once [Rounding] (loads : Loads) {node : CertifiedNode} {nextSequence generation : Nat}
    {address : LocalAddress} {policy : AccountPolicy} {stateReads : Bool} {t : ℚ} {d : Dispatcher}
    (hnew : Dispatcher.new node nextSequence generation address policy stateReads t = some d)
    (calls : List (ℚ × Dispatcher.DispatchCall)) :
    let r := DispatchRun.run loads d calls
    r.dispatcher.mailbox.slots.size ≤ MAX_PENDING ∧
    (∀ ticket, (yields ticket r.log).length ≤ 1) ∧
    (∀ ticket slot o, r.dispatcher.mailbox.slots.get? ticket = some slot → slot.outcome = some o → ∀ now call,
      (∃ slot', (r.step loads now call).dispatcher.mailbox.slots.get? ticket = some slot' ∧ slot'.outcome = some o) ∨
        (call = .take ticket ∧ (r.step loads now call).log = r.log ++ [.taken ticket now (some o)])) ∧
    (∀ (before : List DispatchEvent) ticket now o (after : List DispatchEvent),
      r.log = before ++ .taken ticket now (some o) :: after → o.status = .response →
      ∃ c, o.completion = some c ∧ c.status = .response ∧ .bound ticket c.request ∈ before ∧ .completed c ∈ before ∧
        ∀ ticket' request, .bound ticket' request ∈ r.log → (ticket' = ticket ↔ request = c.request)) ∧
    (∀ (before : List DispatchEvent) ticket now outcome (after : List DispatchEvent) deadline,
      r.log = before ++ .taken ticket now outcome :: after →
      .accepted ticket deadline ∈ before → deadline ≤ now → outcome.isSome ∨ Yielded before ticket) ∧
    (.closed ∈ r.log → ∀ ticket deadline, .accepted ticket deadline ∈ r.log → Yielded r.log ticket ∨
      ∃ slot, r.dispatcher.mailbox.slots.get? ticket = some slot ∧ slot.outcome.isSome) := by
  have h := (dispatched_new hnew).run loads calls
  refine ⟨h.kept.size, yields_le_one h.kept.right, ?_, ?_, ?_, ?_⟩
  · intro ticket slot o hslot ho now call
    exact h.outcome loads now call hslot ho
  · intro before ticket now o after hlog hresponse
    obtain ⟨c, hcompletion, hstatus, hbound, hcompleted⟩ := (h.kept.right before _ after hlog).2.2 o rfl hresponse
    refine ⟨c, hcompletion, hstatus, hbound, hcompleted, fun ticket' request hmem => ?_⟩
    have hbound' : .bound ticket c.request ∈ (DispatchRun.run loads d calls).log := by
      rw [hlog]
      exact List.mem_append_left _ hbound
    constructor
    · intro heq
      exact (bound_unique h.kept.right hmem hbound' (.inl heq)).2
    · intro heq
      exact (bound_unique h.kept.right hmem hbound' (.inr (by rw [heq]))).1
  · intro before ticket now outcome after deadline hlog haccepted hlate
    exact (h.kept.right before _ after hlog).2.1 deadline haccepted hlate
  · intro hclosed ticket deadline haccepted
    obtain ⟨-, hended⟩ := h.kept.ended hclosed
    cases hslot : (DispatchRun.run loads d calls).dispatcher.mailbox.slots.get? ticket with
    | none => exact .inl (h.kept.gone ticket deadline haccepted hslot)
    | some slot =>
      rcases hended ticket slot hslot with hsome | hconsumed
      · exact .inr ⟨slot, rfl, hsome⟩
      · exact .inl ((h.kept.slots ticket slot hslot).consumed hconsumed).2

/-- A read is submitted, bound, answered and taken. -/
def answeredCalls : List (ℚ × Dispatcher.DispatchCall) :=
  [(0, .submit 9 "ProReadonly.devInfo" 2), (0, .step), (0, .proceed {}), (0, .proceed {}), (0, .proceed {}), (0, .proceed {}),
    (1, .receive deviceAnswer ("203.0.113.7", 19000) 1), (1, .proceed {}), (1, .proceed {}), (1, .take ⟨1, 0⟩), (3, .take ⟨1, 0⟩)]

/-- The theorem applies to this run, in which the response is taken once. -/
theorem reads_delivered_once_answered : ∃ d,
    Dispatcher.new ⟨("203.0.113.7", 19000), 7, List.replicate 32 0x11⟩ 5 1 ⟨none, 0⟩ .finite false 0 = some d ∧
    ((DispatchRun.run (fun _ => none) d answeredCalls).log.filterMap fun e => match e with
      | .taken _ _ outcome => outcome.map ReadOutcome.status
      | _ => none) = [.response] ∧
    (yields ⟨1, 0⟩ (DispatchRun.run (fun _ => none) d answeredCalls).log).length ≤ 1 := by
  have h : (match Dispatcher.new ⟨("203.0.113.7", 19000), 7, List.replicate 32 0x11⟩ 5 1 ⟨none, 0⟩ .finite false 0 with
    | some d => decide (((DispatchRun.run (fun _ => none) d answeredCalls).log.filterMap fun e => match e with
        | .taken _ _ outcome => outcome.map ReadOutcome.status
        | _ => none) = [.response])
    | none => false) = true := by decide +kernel
  split at h
  · next d hnew =>
    have hsafe := reads_delivered_once (fun _ => none) hnew answeredCalls
    exact ⟨d, hnew, of_decide_eq_true h, hsafe.2.1 ⟨1, 0⟩⟩
  · cases h

end DispatchRun

end CamGuard.Account
