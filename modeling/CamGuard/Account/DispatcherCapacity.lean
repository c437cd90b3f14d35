/-
The mailbox, the dispatcher and the account agree on capacity: from `Owning`,
that a submission is never refused for want of a slot, and that an account which
nobody else ends is not ended by one (`Going`), as long as the time that is left of
a submission is not more than a read may have (`InTime`).

It can be more: the deadline of a submission and what is left of it are rounded, so
that the ten seconds of a read that is prepared at once may come back longer.
-/
import CamGuard.Account.DispatcherOwning

namespace CamGuard.Account

namespace DispatchRun

open Dispatcher

/-! ## Fair runs -/

/-- What the owner and the callers do on an active account: the owner neither
closes nor drains it, and no release is uncertain. -/
def Ordinary : DispatchCall → Prop
  | .close _ | .drain => False
  | .proceed input => input.jobs.mediaUncertain = false ∧ input.jobs.motionUnconfirmed = false
  | _ => True

/-- A run whose clock does not go back, and stands still during a call of the
owner, with sequences left. -/
def Fair [Rounding] (loads : Loads) : DispatchRun → ℚ → List (ℚ × DispatchCall) → Prop
  | _, _, [] => True
  | r, since, (now, call) :: rest =>
    since ≤ now ∧ (r.dispatcher.todo ≠ [] → now = since) ∧ r.dispatcher.account.source.next < 2 ^ 32 ∧ Ordinary call ∧
      Fair loads (r.step loads now call) now rest

instance : DecidablePred Ordinary
  | .close _ | .drain => inferInstanceAs (Decidable False)
  | .proceed input =>
    inferInstanceAs (Decidable (input.jobs.mediaUncertain = false ∧ input.jobs.motionUnconfirmed = false))
  | .submit .. | .cancel _ | .take _ | .closeMailbox | .drainMailbox | .step | .receive .. | .ready _ | .reserve _ =>
    inferInstanceAs (Decidable True)

instance decidableFair [Rounding] (loads : Loads) :
    (r : DispatchRun) → (since : ℚ) → (calls : List (ℚ × DispatchCall)) → Decidable (Fair loads r since calls)
  | _, _, [] => .isTrue trivial
  | r, since, (now, call) :: rest =>
    have := decidableFair loads (r.step loads now call) now rest
    inferInstanceAs (Decidable (since ≤ now ∧ (r.dispatcher.todo ≠ [] → now = since) ∧
      r.dispatcher.account.source.next < 2 ^ 32 ∧ Ordinary call ∧ Fair loads (r.step loads now call) now rest))

/-- What `step` computes of the time that is left, if a submission is next. -/
def remaining? [Rounding] (d : Dispatcher) (now : ℚ) : Option ℚ :=
  match d.todo with
  | .prepare submission :: _ => some (Rounding.round (submission.deadline - now))
  | _ => none

/-- A submission that is prepared has no more time left than a read may have. -/
def InTime [Rounding] (now : ℚ) (d : Dispatcher) : DispatchCall → Prop
  | .proceed _ => ∀ remaining ∈ remaining? d now, remaining ≤ MAX_TIMEOUT
  | _ => True

/-- So it is in the whole run. -/
def Timely [Rounding] (loads : Loads) : DispatchRun → List (ℚ × DispatchCall) → Prop
  | _, [] => True
  | r, (now, call) :: rest => InTime now r.dispatcher call ∧ Timely loads (r.step loads now call) rest

instance decidableInTime [Rounding] (now : ℚ) (d : Dispatcher) : DecidablePred (InTime now d)
  | .proceed _ => inferInstanceAs (Decidable (∀ remaining ∈ remaining? d now, remaining ≤ MAX_TIMEOUT))
  | .submit .. | .cancel _ | .take _ | .closeMailbox | .drainMailbox | .step | .receive .. | .close _ | .drain | .ready _
  | .reserve _ => inferInstanceAs (Decidable True)

instance decidableTimely [Rounding] (loads : Loads) :
    (r : DispatchRun) → (calls : List (ℚ × DispatchCall)) → Decidable (Timely loads r calls)
  | _, [] => .isTrue trivial
  | r, (now, call) :: rest =>
    have := decidableTimely loads (r.step loads now call) rest
    inferInstanceAs (Decidable (InTime now r.dispatcher call ∧ Timely loads (r.step loads now call) rest))

/-- What the mailbox has checked of a submission. -/
structure Allowed (submission : ReadSubmission) : Prop where
  device : 0 < submission.device ∧ submission.device < 2 ^ 64
  path : submission.path ∈ MODEL_READ_PATHS

/-- What holds in a fair run. -/
structure Going (node : CertifiedNode) (address : LocalAddress) (d : Dispatcher) : Prop where
  standing : d.account.Standing node address
  prepare : d.account.reason ≠ some .prepare
  ended : d.account.reason ≠ none → d.mailbox.closed = true ∨ .closeMailbox ∈ d.todo
  preparing : ∀ submission, .prepare submission ∈ d.todo →
    d.account.reason = none ∧ Allowed submission
  slots : ∀ ticket s, d.mailbox.slots.get? ticket = some s → Allowed s.submission
  paths : ∀ path ∈ d.mailbox.readPaths, path ∈ MODEL_READ_PATHS
  calls : ∀ task ∈ d.todo, (∀ reason, task ≠ .retire reason) ∧ task ≠ .drainAccount

variable {node : CertifiedNode} {address : LocalAddress} {now : ℚ} {d : Dispatcher}

theorem Going.mailbox (h : Going node address d) {m : BrokerMailbox} {aside : MailboxTicket → Prop}
    (hkeeps : BrokerMailbox.Keeps aside d.mailbox m) : Going node address { d with mailbox := m } :=
  { h with
    ended := fun hsome => (h.ended hsome).imp_left hkeeps.closed
    slots := fun ticket s' hs' => by
      obtain ⟨s, hs, hsubmission, -⟩ := hkeeps.slot ticket s' hs'
      rw [hsubmission]
      exact h.slots ticket s hs
    paths := by
      simp only [hkeeps.paths]
      exact h.paths }

theorem Going.caller (h : Going node address d) {m : BrokerMailbox}
    (hkeeps : BrokerMailbox.Keeps (fun _ => False) d.mailbox m) : Going node address { d with mailbox := m } :=
  h.mailbox hkeeps

theorem Going.fewer (h : Going node address d) {task : DispatchTask} {rest : List DispatchTask}
    (htodo : d.todo = task :: rest) (hclosed : task = .closeMailbox → d.mailbox.closed = true) :
    Going node address { d with todo := rest } := by
  have hmem : ∀ other ∈ rest, other ∈ d.todo := fun other hmem => htodo ▸ List.mem_cons_of_mem _ hmem
  exact { h with
    ended := fun hsome => by
      rcases h.ended hsome with hwas | hclose
      · exact .inl hwas
      · rw [htodo] at hclose
        rcases List.mem_cons.mp hclose with heq | hclose
        · exact .inl (hclosed heq.symm)
        · exact .inr hclose
    preparing := fun submission hprepare => h.preparing submission (hmem _ hprepare)
    calls := fun other hother => h.calls other (hmem _ hother) }

/-- The account has done something; the mailbox is closed if that has ended it. -/
theorem Going.passes (h : Going node address d) (hwaiting : Waiting d.todo) {events : AccountEvents}
    {account : BrokerAccount} (hpasses : BrokerAccount.Passes node address d.account events account) :
    Going node address (d.publishing events account d.todo).2 where
  standing := hpasses.standing
  prepare := by
    cases hpasses with
    | on hnone => simp [Dispatcher.publishing, hnone]
    | ended _ _ _ hprepare => exact fun heq => h.prepare (hprepare heq)
  ended := fun hsome => by
    cases hpasses with
    | on hnone => exact absurd hnone hsome
    | ended _ _ hretired _ =>
      refine .inr (List.mem_append_left _ (List.mem_append_right _ ?_))
      rw [if_pos hretired]
      exact List.mem_cons_self
  preparing := fun submission hprepare => by
    rcases List.mem_append.mp hprepare with hprepare | hprepare
    · rcases List.mem_append.mp hprepare with hprepare | hprepare
      · obtain ⟨_, -, heq⟩ := List.mem_map.mp hprepare
        cases heq
      · split at hprepare <;> simp at hprepare
    · have hmem : submission.ticket ∈ prepared d.todo := List.mem_filterMap.mpr ⟨_, hprepare, rfl⟩
      rw [hwaiting.prepared] at hmem
      cases hmem
  slots := h.slots
  paths := h.paths
  calls := fun task hmem => by
    rcases List.mem_append.mp hmem with hmem | hmem
    · rcases List.mem_append.mp hmem with hmem | hmem
      · obtain ⟨_, -, rfl⟩ := List.mem_map.mp hmem
        simp
      · split at hmem
        · rcases List.mem_cons.mp hmem with rfl | hmem
          · simp
          · rw [List.mem_singleton.mp hmem]
            simp
        · cases hmem
    · exact h.calls task hmem

theorem Going.account (h : Going node address d) (account : BrokerAccount) (hreason : account.reason = d.account.reason)
    (hstanding : account.Standing node address) : Going node address { d with account := account } :=
  { h with
    standing := hstanding
    prepare := by
      simp only [hreason]
      exact h.prepare
    ended := by
      simp only [hreason]
      exact h.ended
    preparing := by
      simp only [hreason]
      exact h.preparing }

theorem cancelRead_standing {a : BrokerAccount} (h : a.Standing node address) (ticket : ReceiptTicket) :
    (a.cancelRead ticket).Standing node address := by
  rcases h with ⟨hreason, hlive⟩ | hover
  · exact .inl ⟨hreason, { hlive with reads := (a.reads.cancel_identity ticket).trans hlive.reads }⟩
  · exact .inr hover

/-- **A poll hands out what the account can take.** -/
theorem Going.pollWork (h : Going node address d) (howning : d.Owning) (htodo : d.todo = []) (now : ℚ) :
    Going node address { d with
      mailbox := (d.mailbox.poll now).2
      todo := (d.mailbox.poll now).1.cancellations.map .release ++ (d.mailbox.poll now).1.submissions.map .prepare } := by
  obtain ⟨-, hwork, -⟩ := d.mailbox.poll_work now howning.slots
  have hpolled := h.caller (d.mailbox.keeps_poll now)
  exact { hpolled with
    ended := fun hsome => by
      rcases h.ended hsome with hclosed | hclose
      · exact .inl hclosed
      · rw [htodo] at hclose
        cases hclose
    preparing := fun submission hprepare => by
      rcases List.mem_append.mp hprepare with hprepare | hprepare
      · obtain ⟨_, -, heq⟩ := List.mem_map.mp hprepare
        cases heq
      · obtain ⟨_, hsubmission, heq⟩ := List.mem_map.mp hprepare
        cases heq
        obtain ⟨-, hopen, ⟨s, hs, hsame⟩, -⟩ := hwork submission hsubmission
        refine ⟨?_, hsame ▸ h.slots _ s hs⟩
        -- The mailbox of an account that is over is closed, and hands out nothing.
        by_contra hsome
        rcases h.ended hsome with hclosed | hclose
        · rw [hopen] at hclosed
          cases hclosed
        · rw [htodo] at hclose
          cases hclose
    calls := fun task hmem => by
      rcases List.mem_append.mp hmem with hmem | hmem
      · obtain ⟨_, -, rfl⟩ := List.mem_map.mp hmem
        simp
      · obtain ⟨_, -, rfl⟩ := List.mem_map.mp hmem
        simp }

variable {r : DispatchRun} {loads : Loads}

theorem Going.begin (h : Going node address r.dispatcher) {tasks : List DispatchTask}
    (hprepare : ∀ submission, .prepare submission ∉ tasks)
    (hcalls : ∀ task ∈ tasks, (∀ reason, task ≠ .retire reason) ∧ task ≠ .drainAccount) :
    Going node address (r.dispatcher.begin tasks).2 := by
  unfold Dispatcher.begin
  simp only
  split
  · next hempty =>
    have hempty : r.dispatcher.todo = [] := by simpa using hempty
    exact { h with
      ended := fun hsome => by
        rcases h.ended hsome with hclosed | hclose
        · exact .inl hclosed
        · rw [hempty] at hclose
          cases hclose
      preparing := fun submission hmem => absurd hmem (hprepare submission)
      calls := hcalls }
  · exact h

theorem reserve_identity (source : BrokerSequences) (count session generation : Nat) :
    (source.reserve count).2.matchesIdentity session generation = source.matchesIdentity session generation := by
  unfold BrokerSequences.reserve
  split
  · rfl
  split
  · rfl
  split <;> rfl

section

variable [Rounding]

theorem mem_remaining {submission : ReadSubmission} {rest : List DispatchTask} (htodo : d.todo = .prepare submission :: rest) :
    Rounding.round (submission.deadline - now) ∈ remaining? d now := by
  rw [remaining?, htodo]
  exact rfl

/-- **No task of a fair call ends the account for a preparation.** -/
theorem Going.perform (h : Going node address r.dispatcher) (hdispatched : r.Dispatched)
    (howning : r.dispatcher.Owning) (hkey : node.sessionKey.length = 32) (haddress : BrokerAccount.ValidAddress address)
    (hnext : r.dispatcher.account.source.next < 2 ^ 32) {task : DispatchTask} {rest : List DispatchTask}
    (htodo : r.dispatcher.todo = task :: rest) {input : TaskInput} (hordinary : Ordinary (.proceed input))
    (hintime : InTime now r.dispatcher (.proceed input)) :
    Going node address (r.dispatcher.perform loads now input task rest).2 := by
  have hshaped : Shaped (task :: rest) := htodo ▸ howning.shaped
  unfold Dispatcher.perform
  cases task with
  | tick =>
    have hidle := h.fewer htodo (by simp)
    have hexpired : (r.dispatcher.account.expire input.jobs now).2.source.next < 2 ^ 32 := by
      rw [BrokerAccount.expire_next]
      exact hnext
    exact hidle.passes (hshaped.waiting id (by simp)) (BrokerAccount.tick_passes h.standing hkey haddress hexpired _)
  | retire reason => exact absurd rfl ((h.calls (.retire reason) (by rw [htodo]; exact List.mem_cons_self)).1 reason)
  | drainAccount => exact absurd rfl (h.calls .drainAccount (by rw [htodo]; exact List.mem_cons_self)).2
  | receive plain peer generation =>
    have hidle := h.fewer htodo (by simp)
    have hwaiting := hshaped.waiting id (by simp)
    simp only
    rcases BrokerAccount.receive_passes loads h.standing input.jobs plain peer generation now with
      ⟨events, account, heq, hpasses⟩ | ⟨e, account, heq, hreason, hlive⟩
    · rw [heq]
      exact hidle.passes hwaiting hpasses
    · rw [heq]
      exact {
        standing := .inl ⟨hreason, hlive⟩
        prepare := by simp [hreason]
        ended := fun hsome => absurd hreason hsome
        preparing := fun _ hmem => by cases hmem
        slots := h.slots
        paths := h.paths
        calls := fun _ hmem => by cases hmem }
  | drainMailbox => exact (h.fewer htodo (by simp)).caller (BrokerMailbox.keeps_drain r.dispatcher.mailbox)
  | publish completion =>
    have hidle := h.fewer htodo (by simp)
    simp only [Dispatcher.publish]
    split
    · exact hidle
    · exact { hidle.mailbox (BrokerMailbox.keeps_finish ..) with }
  | closeMailbox =>
    have hclosed := h.caller (BrokerMailbox.keeps_close r.dispatcher.mailbox)
    exact hclosed.fewer htodo fun _ => rfl
  | pollClosed =>
    have hidle := h.fewer htodo (by simp)
    have hpolled := hidle.caller (BrokerMailbox.keeps_poll r.dispatcher.mailbox now)
    exact { hpolled with
      ended := fun hsome => (hpolled.ended hsome).imp_right (List.mem_append_right _)
      preparing := fun submission hmem => hpolled.preparing submission ((List.mem_append.mp hmem).resolve_left (by simp))
      calls := fun task hmem => by
        rcases List.mem_append.mp hmem with hmem | hmem
        · obtain ⟨_, -, rfl⟩ := List.mem_map.mp hmem
          simp
        · exact hpolled.calls task hmem }
  | pollWork =>
    have hrest : rest = [] := by
      rcases hshaped.cases with ⟨hwork, -⟩ | ⟨-, hrest⟩ | ⟨hplain, -⟩
      · exact hwork.elim
      · exact hrest
      · exact hplain.elim
    subst hrest
    have hpolled := (h.fewer htodo (by simp)).pollWork (howning.fewer htodo (by simp)) rfl now
    simp only [List.append_nil]
    exact hpolled
  | release ticket =>
    have hidle := h.fewer htodo (by simp)
    simp only [Dispatcher.release]
    split
    · exact hidle.mailbox (BrokerMailbox.keeps_acknowledge _ ticket)
    · next request _ =>
      have hcancelled := hidle.account (r.dispatcher.account.cancelRead request.ticket) rfl
        (cancelRead_standing h.standing _)
      exact { hcancelled.mailbox (BrokerMailbox.keeps_acknowledge _ ticket) with }
  | prepare submission =>
    have hidle := h.fewer htodo (by simp)
    obtain ⟨hreason, hallowed⟩ := h.preparing submission (by rw [htodo]; exact List.mem_cons_self)
    have hlive : BrokerAccount.Live node address r.dispatcher.account := by
      rcases h.standing with ⟨-, hlive⟩ | ⟨hsome, -⟩
      · exact hlive
      · exact absurd hreason hsome
    simp only
    split
    · exact hidle
    next hleft =>
    have htime := And.intro (not_le.mp hleft) (hintime _ (mem_remaining htodo))
    obtain ⟨read, account, heq, hreason', hlive'⟩ := BrokerAccount.submitRead_ok hreason hlive howning.reads
      (hdispatched.room howning htodo) hkey hnext hordinary hallowed.device hallowed.path htime input.draws now
    rw [heq]
    have hused := hidle.account account (hreason'.trans hreason.symm) (.inl ⟨hreason', hlive'⟩)
    exact { hused with
      ended := fun hsome => absurd hreason' hsome
      preparing := fun other hmem => hused.preparing other ((List.mem_cons.mp hmem).resolve_left (by simp))
      calls := fun task hmem => by
        rcases List.mem_cons.mp hmem with rfl | hmem
        · simp
        · exact hused.calls task hmem }
  | bind ticket read =>
    have hidle := h.fewer htodo (by simp)
    have hkeeps := (r.dispatcher.mailbox.keeps_bind ticket read.request now).1
    simp only
    split
    · next mailbox heq =>
      rw [heq] at hkeeps
      have hcancelled := hidle.account (r.dispatcher.account.cancelRead read.request.ticket) rfl
        (cancelRead_standing h.standing _)
      exact { hcancelled.mailbox hkeeps with }
    · next mailbox heq =>
      rw [heq] at hkeeps
      exact { hidle.mailbox hkeeps with }

/-- A submission with more time left than a read may have ends the account. -/
theorem Going.perform_late (h : Going node address r.dispatcher) {submission : ReadSubmission} {rest : List DispatchTask}
    (htodo : r.dispatcher.todo = .prepare submission :: rest)
    (hlate : MAX_TIMEOUT < Rounding.round (submission.deadline - now)) (input : TaskInput) :
    (r.dispatcher.perform loads now input (.prepare submission) rest).2.account.reason = some .prepare := by
  have hreason := (h.preparing submission (by rw [htodo]; exact List.mem_cons_self)).1
  have hpos : ¬ Rounding.round (submission.deadline - now) ≤ 0 :=
    not_le.mpr (lt_trans (by norm_num [MAX_TIMEOUT]) hlate)
  obtain ⟨e, account, heq, hsame⟩ := r.dispatcher.account.submitRead_late input.jobs input.draws submission.device
    submission.path now hlate
  unfold Dispatcher.perform
  simp only
  rw [if_neg hpos, heq]
  simp only [Dispatcher.publishing, BrokerAccount.retire, hsame, hreason]

theorem Going.submitted (h : Going node address r.dispatcher) (hdispatched : r.Dispatched) (device : Nat)
    (path : String) (timeout now : ℚ) : Going node address { r.dispatcher with
      mailbox := (r.dispatcher.mailbox.submit device path timeout now).2 } := by
  obtain ⟨-, hslots, hclosed, hpaths⟩ := r.dispatcher.mailbox.keeps_submit device path timeout now fun ticket s hs =>
    hdispatched.kept.fresh _ _ (hdispatched.kept.slots ticket s hs).accepted
  exact { h with
    ended := by
      simp only [hclosed]
      exact h.ended
    slots := fun ticket s hs => by
      rcases hslots ticket s hs with hold | ⟨-, -, hpositive, hdevice, hpath⟩
      · exact h.slots ticket s hold
      · exact ⟨⟨hpositive, hdevice⟩, h.paths _ hpath⟩
    paths := by
      simp only [hpaths]
      exact h.paths }

theorem Going.step (h : Going node address r.dispatcher) (hdispatched : r.Dispatched) (howning : r.dispatcher.Owning)
    (hkey : node.sessionKey.length = 32) (haddress : BrokerAccount.ValidAddress address)
    (hnext : r.dispatcher.account.source.next < 2 ^ 32) {call : DispatchCall} (hordinary : Ordinary call)
    (hintime : InTime now r.dispatcher call) : Going node address (r.step loads now call).dispatcher := by
  unfold DispatchRun.step Dispatcher.step
  cases call with
  | submit device path timeout =>
    have hsubmit := h.submitted hdispatched device path timeout now
    simp only
    split
    · next heq =>
      rw [heq] at hsubmit
      exact hsubmit
    · next heq =>
      rw [heq] at hsubmit
      exact hsubmit
  | cancel ticket => exact h.caller (BrokerMailbox.keeps_cancel ..)
  | take ticket => exact h.caller (BrokerMailbox.keeps_take ..)
  | closeMailbox => exact h.caller (BrokerMailbox.keeps_close _)
  | drainMailbox => exact h.caller (BrokerMailbox.keeps_drain _)
  | step => exact h.begin (by simp) (by simp)
  | receive plain peer generation => exact h.begin (by simp) (by simp)
  | close reason => exact hordinary.elim
  | drain => exact hordinary.elim
  | proceed input =>
    simp only
    split
    · exact h
    · next task rest htodo => exact h.perform hdispatched howning hkey haddress hnext htodo hordinary hintime
  | ready ticket => exact h.caller (BrokerMailbox.keeps_ready ..)
  | reserve count =>
    refine h.account { r.dispatcher.account with source := (r.dispatcher.account.source.reserve count).2 } rfl ?_
    rcases h.standing with ⟨hreason, hlive⟩ | hover
    · exact .inl ⟨hreason, { hlive with source := (reserve_identity ..).trans hlive.source }⟩
    · exact .inr hover

theorem Going.run (h : Going node address r.dispatcher) (hdispatched : r.Dispatched) (howning : r.dispatcher.Owning)
    (hkey : node.sessionKey.length = 32) (haddress : BrokerAccount.ValidAddress address) {since : ℚ}
    {calls : List (ℚ × DispatchCall)} (hfair : Fair loads r since calls) (htimely : Timely loads r calls) :
    Going node address (Machine.run (DispatchRun.step loads) r calls).dispatcher := by
  induction calls generalizing r since with
  | nil => exact h
  | cons call calls ih =>
    obtain ⟨-, -, hnext, hordinary, hrest⟩ := hfair
    exact ih (h.step hdispatched howning hkey haddress hnext hordinary htimely.1) (hdispatched.step loads call.1 call.2)
      (hdispatched.step_owning howning loads call.1 call.2) hrest htimely.2

/-- **Whether a task ends the account for a preparation** is whether its submission
has more time left than a read may have. -/
theorem Going.retires_iff (h : Going node address r.dispatcher) (hdispatched : r.Dispatched)
    (howning : r.dispatcher.Owning) (hkey : node.sessionKey.length = 32) (haddress : BrokerAccount.ValidAddress address)
    (hnext : r.dispatcher.account.source.next < 2 ^ 32) {call : DispatchCall} (hordinary : Ordinary call) :
    (r.step loads now call).dispatcher.account.reason = some .prepare ↔ ¬ InTime now r.dispatcher call := by
  constructor
  · intro hretired hintime
    exact (h.step hdispatched howning hkey haddress hnext hordinary hintime).prepare hretired
  · intro hlate
    cases call with
    | proceed input =>
      simp only [InTime, remaining?] at hlate
      split at hlate
      · next submission rest htodo =>
        have hlate : MAX_TIMEOUT < Rounding.round (submission.deadline - now) := by simpa using hlate
        simp only [DispatchRun.step, Dispatcher.step, htodo]
        exact h.perform_late htodo hlate input
      · simp at hlate
    | submit | cancel | take | closeMailbox | drainMailbox | step | receive | close | drain | ready | reserve =>
      exact absurd trivial hlate

end

theorem identityPaths_allowed : ∀ path ∈ ACCOUNT_IDENTITY_READ_PATHS, path ∈ MODEL_READ_PATHS := by
  unfold ACCOUNT_IDENTITY_READ_PATHS MODEL_READ_PATHS
  simp only [List.forall_mem_cons]
  and_intros
  all_goals first
    | exact fun _ h => absurd h List.not_mem_nil
    | repeat (first | exact List.Mem.head _ | apply List.Mem.tail)

theorem statePaths_allowed : ∀ path ∈ ACCOUNT_STATE_READ_PATHS, path ∈ MODEL_READ_PATHS := by
  unfold ACCOUNT_STATE_READ_PATHS MODEL_READ_PATHS
  simp only [List.forall_mem_cons]
  and_intros
  all_goals first
    | exact fun _ h => absurd h List.not_mem_nil
    | repeat (first | exact List.Mem.head _ | apply List.Mem.tail)

theorem readPaths_allowed (stateReads : Bool) :
    ∀ path ∈ ACCOUNT_IDENTITY_READ_PATHS ++ (if stateReads then ACCOUNT_STATE_READ_PATHS else []), path ∈ MODEL_READ_PATHS := by
  intro path hpath
  rcases List.mem_append.mp hpath with h | h
  · exact identityPaths_allowed path h
  · split at h
    · exact statePaths_allowed path h
    · cases h

theorem going_new {nextSequence generation : Nat} {stateReads : Bool}
    (h : Dispatcher.new node nextSequence generation address .continuous stateReads now = some d) :
    Going node address d := by
  unfold Dispatcher.new at h
  split at h
  · next mailbox account hmailbox haccount =>
    cases h
    unfold BrokerMailbox.new at hmailbox
    split at hmailbox
    · cases hmailbox
    cases hmailbox
    unfold BrokerAccount.new at haccount
    split at haccount
    · next input source _ hsource =>
      split at haccount
      · cases haccount
      · next reads hreads =>
        cases haccount
        unfold BrokerReads.new at hreads
        split at hreads
        · cases hreads
        · next hmatches =>
          cases hreads
          exact {
            standing := .inl ⟨rfl, {
              holder := rfl
              local_ := rfl
              deadline := rfl
              drain := rfl
              source := by simpa using hmatches
              reads := rfl
              heartbeat := ⟨rfl, rfl, rfl⟩ }⟩
            prepare := by simp
            ended := fun hsome => absurd rfl hsome
            preparing := fun _ hmem => by cases hmem
            slots := fun ticket s hs => by cases hs
            paths := readPaths_allowed stateReads
            calls := fun _ hmem => by cases hmem }
    · cases haccount
  · cases h

/-! ## Capacities -/

/-- The read belongs to the slot of the ticket: the dispatcher has it for the
slot, or is about to bind it. -/
def Belongs (d : Dispatcher) (request : ReadRequest) (ticket : MailboxTicket) : Prop :=
  d.requests.get? ticket = some request ∨ ∃ read, .bind ticket read ∈ d.todo ∧ read.request = request

theorem Dispatched.due (h : r.Dispatched) {ticket ticket' : MailboxTicket} {read read' : BrokerAccount.SubmittedRead}
    (hbind : .bind ticket read ∈ r.dispatcher.todo) (hbind' : .bind ticket' read' ∈ r.dispatcher.todo) :
    ticket = ticket' ∧ read = read' := by
  cases htodo : r.dispatcher.todo with
  | nil =>
    rw [htodo] at hbind
    cases hbind
  | cons task rest =>
    have hsingle := h.single
    rw [htodo] at hbind hbind' hsingle
    have hfirst := (List.mem_cons.mp hbind).resolve_right (hsingle ticket read)
    have hsecond := (List.mem_cons.mp hbind').resolve_right (hsingle ticket' read')
    rw [← hfirst] at hsecond
    cases hsecond
    exact ⟨rfl, rfl⟩

theorem Dispatched.belongs_slot (h : r.Dispatched) (howning : r.dispatcher.Owning) {request : ReadRequest}
    {ticket ticket' : MailboxTicket} (hbelongs : Belongs r.dispatcher request ticket)
    (hbelongs' : Belongs r.dispatcher request ticket') : ticket = ticket' := by
  -- What the dispatcher has for a slot was bound before what it is about to bind.
  have holder : ∀ {a b : MailboxTicket} {read : BrokerAccount.SubmittedRead},
      r.dispatcher.requests.get? a = some read.request → .bind b read ∉ r.dispatcher.todo := by
    intro a b read hrequest hbind
    obtain ⟨s, hs, -, hsome⟩ := howning.held a read.request hrequest
    have hbound := ((h.kept.slots a s hs).request read.request).mp hsome
    exact absurd ((h.binding b read hbind).2 a read.request hbound) (lt_irrefl _)
  rcases hbelongs with hrequest | ⟨read, hbind, rfl⟩
  · rcases hbelongs' with hrequest' | ⟨read', hbind', rfl⟩
    · have hroute := howning.routes ticket request hrequest
      rw [howning.routes ticket' request hrequest'] at hroute
      exact (Option.some.inj hroute).symm
    · exact absurd hbind' (holder hrequest)
  · rcases hbelongs' with hrequest' | ⟨read', hbind', -⟩
    · exact absurd hbind (holder hrequest')
    · exact (h.due hbind hbind').1

theorem Dispatched.belongs_read (h : r.Dispatched) (howning : r.dispatcher.Owning) {request request' : ReadRequest}
    {ticket : MailboxTicket} (hbelongs : Belongs r.dispatcher request ticket)
    (hbelongs' : Belongs r.dispatcher request' ticket) : request = request' := by
  -- A slot that something is about to be bound to has no request.
  have hempty : ∀ {q : ReadRequest} {read : BrokerAccount.SubmittedRead}, r.dispatcher.requests.get? ticket = some q →
      .bind ticket read ∉ r.dispatcher.todo := by
    intro q read hrequest hbind
    obtain ⟨s, hs, -, hsome⟩ := howning.held ticket q hrequest
    obtain ⟨s', hs', -, hnone⟩ := howning.preparing ticket (mem_prepared hbind)
    rw [hs] at hs'
    cases hs'
    rw [hsome] at hnone
    cases hnone
  rcases hbelongs with hrequest | ⟨read, hbind, rfl⟩
  · rcases hbelongs' with hrequest' | ⟨read', hbind', -⟩
    · exact Option.some.inj (hrequest.symm.trans hrequest')
    · exact absurd hbind' (hempty hrequest)
  · rcases hbelongs' with hrequest' | ⟨read', hbind', rfl⟩
    · exact absurd hbind (hempty hrequest')
    · rw [(h.due hbind hbind').2]

/-- **Mailbox and account agree on capacity.** In every run of callers and owner
on a dispatcher, whatever falls between two tasks of the owner: a read that is
pending in the account belongs to one slot of the mailbox, which is claimed and
has not acknowledged its cancellation, and no two belong to the same; a
submission that is about to be made is not refused for want of capacity; and the
two maps of the dispatcher are inverse to each other. A fair run on a continuous
account, with a session key and a local address, in which no submission is prepared
with more time left than a read may have, does not retire the account for a
preparation, and the next call does if and only if it prepares such a submission. -/
theorem capacities_agree [Rounding] (loads : Loads) {node : CertifiedNode} {nextSequence generation : Nat}
    {address : LocalAddress} {policy : AccountPolicy} {stateReads : Bool} {t : ℚ} {d : Dispatcher}
    (hnew : Dispatcher.new node nextSequence generation address policy stateReads t = some d)
    (calls : List (ℚ × DispatchCall)) :
    let r := DispatchRun.run loads d calls
    (∀ request, r.dispatcher.account.reads.Holds request → ∃ ticket slot, Belongs r.dispatcher request ticket ∧
      r.dispatcher.mailbox.slots.get? ticket = some slot ∧ slot.claimed = true ∧
      ((slot.outcome = none ∧ slot.consumed = false) ∨ slot.cancelPending = true) ∧
      ∀ other, Belongs r.dispatcher request other → other = ticket) ∧
    (∀ request request' ticket, Belongs r.dispatcher request ticket → Belongs r.dispatcher request' ticket →
      request = request') ∧
    (∀ submission rest jobs draws now, r.dispatcher.todo = .prepare submission :: rest → ∀ e,
      (r.dispatcher.account.submitRead jobs draws submission.device submission.path
        (Rounding.round (submission.deadline - now)) now).1 = .error e → e ≠ .read .capacity ∧ e ≠ .read (.transaction .capacity)) ∧
    (∀ key ticket, r.dispatcher.routes.get? key = some ticket ↔
      ∃ request, r.dispatcher.requests.get? ticket = some request ∧ request.ticket = key) ∧
    (policy = .continuous → node.sessionKey.length = 32 → BrokerAccount.ValidAddress address →
      Fair loads ⟨d, []⟩ t calls → Timely loads ⟨d, []⟩ calls → r.dispatcher.account.reason ≠ some .prepare ∧
        ∀ now call, r.dispatcher.account.source.next < 2 ^ 32 → Ordinary call →
          ((r.step loads now call).dispatcher.account.reason = some .prepare ↔ ¬ InTime now r.dispatcher call)) := by
  have hdispatched := (dispatched_new hnew).run loads calls
  have howning := (dispatched_new hnew).run_owning (owning_new hnew) loads calls
  refine ⟨fun request hold => ?_, fun request request' ticket => hdispatched.belongs_read howning, ?_,
    fun key ticket => ⟨howning.requests key ticket, ?_⟩, ?_⟩
  · have howner : ∃ ticket slot, Belongs (DispatchRun.run loads d calls).dispatcher request ticket ∧
        (DispatchRun.run loads d calls).dispatcher.mailbox.slots.get? ticket = some slot ∧ slot.Held := by
      rcases howning.pending request hold with ⟨ticket, hrequest⟩ | ⟨ticket, read, hbind, hsame⟩
      · obtain ⟨slot, hslot, hheld, -⟩ := howning.held ticket request hrequest
        exact ⟨ticket, slot, .inl hrequest, hslot, hheld⟩
      · obtain ⟨slot, hslot, hheld, -⟩ := howning.preparing ticket (mem_prepared hbind)
        exact ⟨ticket, slot, .inr ⟨read, hbind, hsame⟩, hslot, hheld⟩
    obtain ⟨ticket, slot, hbelongs, hslot, hheld⟩ := howner
    exact ⟨ticket, slot, hbelongs, hslot, hheld.1, hheld.2, fun other hother =>
      hdispatched.belongs_slot howning hother hbelongs⟩
  · intro submission rest jobs draws now htodo e he
    have hroom := hdispatched.room howning htodo
    rcases BrokerAccount.submitRead_cases howning.reads jobs draws submission.device submission.path
        (Rounding.round (submission.deadline - now)) now with
      ⟨read, reads, source, heq, -⟩ | ⟨e', reads, source, heq, -, -, hreceipts, hreads⟩
    · rw [show (DispatchRun.run loads d calls).dispatcher = (Machine.run (DispatchRun.step loads) ⟨d, []⟩ calls).dispatcher
        from rfl, heq] at he
      cases he
    · rw [show (DispatchRun.run loads d calls).dispatcher = (Machine.run (DispatchRun.step loads) ⟨d, []⟩ calls).dispatcher
        from rfl, heq] at he
      cases he
      exact ⟨fun hfull => absurd (hreads hfull) (not_le.mpr hroom), hreceipts⟩
  · rintro ⟨request, hrequest, rfl⟩
    exact howning.routes ticket request hrequest
  · rintro rfl hkey haddress hfair htimely
    have hgoing : Going node address (⟨d, []⟩ : DispatchRun).dispatcher := going_new hnew
    have hend := hgoing.run (dispatched_new hnew) (owning_new hnew) hkey haddress hfair htimely
    exact ⟨hend.prepare, fun now call hnext hordinary =>
      hend.retires_iff hdispatched howning hkey haddress hnext hordinary⟩

/-- Two reads are submitted, and one is cancelled between its poll and its
preparation. -/
def cancelledCalls : List (ℚ × DispatchCall) :=
  [(0, .submit 9 "ProReadonly.devInfo" 2), (1, .submit 9 "ProConst._versionInfo" 10), (1, .step), (1, .proceed {}),
    (1, .proceed {}), (1, .cancel ⟨1, 0⟩), (1, .proceed {}), (1, .proceed {}), (1, .proceed {}), (1, .proceed {})]

/-- The theorem applies to this run, in which the other read is pending. -/
theorem capacities_agree_cancelled : ∃ d,
    Dispatcher.new ⟨("203.0.113.7", 19000), 7, List.replicate 32 0x11⟩ 5 1 ⟨some [192, 168, 1, 2], 40000⟩ .continuous false
      0 = some d ∧
    Fair (fun _ => none) ⟨d, []⟩ 0 cancelledCalls ∧ Timely (fun _ => none) ⟨d, []⟩ cancelledCalls ∧
    ((DispatchRun.run (fun _ => none) d cancelledCalls).dispatcher.requests.keys = [⟨1, 1⟩] ∧
      (DispatchRun.run (fun _ => none) d cancelledCalls).dispatcher.account.reads.pending.size = 1) ∧
    (DispatchRun.run (fun _ => none) d cancelledCalls).dispatcher.account.reason ≠ some .prepare := by
  have h : (match Dispatcher.new ⟨("203.0.113.7", 19000), 7, List.replicate 32 0x11⟩ 5 1 ⟨some [192, 168, 1, 2], 40000⟩
      .continuous false 0 with
    | some d => decide (Fair (fun _ => none) ⟨d, []⟩ 0 cancelledCalls ∧ Timely (fun _ => none) ⟨d, []⟩ cancelledCalls ∧
        (DispatchRun.run (fun _ => none) d cancelledCalls).dispatcher.requests.keys = [⟨1, 1⟩] ∧
        (DispatchRun.run (fun _ => none) d cancelledCalls).dispatcher.account.reads.pending.size = 1)
    | none => false) = true := by decide +kernel
  split at h
  · next d hnew =>
    obtain ⟨hfair, htimely, hstate⟩ := of_decide_eq_true h
    have hagree := capacities_agree (fun _ => none) hnew cancelledCalls
    exact ⟨d, hnew, hfair, htimely, hstate,
      (hagree.2.2.2.2 rfl rfl ⟨[192, 168, 1, 2], rfl, rfl, by decide⟩ hfair htimely).1⟩
  · cases h

/-- The double `6.1`. -/
def sixPointOne : ℚ := 3433994715870003 / 562949953421312

/-- A read of ten seconds is submitted and prepared at the same time. -/
def promptCalls : List (ℚ × DispatchCall) :=
  [(sixPointOne, .submit 9 "ProReadonly.devInfo" 10), (sixPointOne, .step), (sixPointOne, .proceed {}),
    (sixPointOne, .proceed {}), (sixPointOne, .proceed {})]

/-- In doubles `(6.1 + 10.0) - 6.1` is more than ten: the account is retired. -/
theorem prompt_read_retires :
    letI : Rounding := .double
    Rounding.round (61 / 10) = sixPointOne ∧ ∃ d,
      Dispatcher.new ⟨("203.0.113.7", 19000), 7, List.replicate 32 0x11⟩ 5 1 ⟨some [192, 168, 1, 2], 40000⟩ .continuous
        false 0 = some d ∧
      Fair (fun _ => none) ⟨d, []⟩ 0 promptCalls ∧
      (DispatchRun.run (fun _ => none) d promptCalls).dispatcher.account.reason = some .prepare := by
  refine ⟨by decide +kernel, ?_⟩
  have h : (match Dispatcher.new ⟨("203.0.113.7", 19000), 7, List.replicate 32 0x11⟩ 5 1 ⟨some [192, 168, 1, 2], 40000⟩
      .continuous false 0 with
    | some d => decide (@Fair .double (fun _ => none) ⟨d, []⟩ 0 promptCalls ∧
        (@DispatchRun.run .double (fun _ => none) d promptCalls).dispatcher.account.reason = some .prepare)
    | none => false) = true := by decide +kernel
  split at h
  · next d hnew => exact ⟨d, hnew, of_decide_eq_true h⟩
  · cases h

end DispatchRun

end CamGuard.Account
