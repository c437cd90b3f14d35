/-
Receipts are used once, and a failure after the policy was changed is final. `Inv` is
kept by every event, whatever happens outside between two actions of a call.

What a claim saw is another matter: each of its checks is true when it is made, and
stays true unless an event of its own kind undoes it (`Undoes`): only `resume` opens
the gate of viewers, only the ingress gate's `resume` lets a child start, and only a
write changes the row. `Checked` is what follows while none of them happens.
-/
import CamGuard.Lib.Trace
import CamGuard.Recording.IngressFacts
import CamGuard.Source.OwnedRetirement
import CamGuard.Source.ViewerGateFacts

namespace CamGuard.Source

open CamGuard.Recording (Recorder)

/-- The receipts that were claimed. -/
def claimed (log : List Outcome) : List RetiredIngress :=
  log.filterMap fun
    | .claimed receipt => some receipt
    | _ => none

/-- A call that gave what it was made for. -/
def Outcome.success : Outcome → Bool
  | .issued _ | .claimed _ => true
  | .refused _ | .broken _ => false

/-- A failure after `begin_change` is in the log. -/
def Broken (log : List Outcome) : Prop := ∃ request, .broken request ∈ log

namespace Handoff

variable {s s' : Handoff} {call call' : Call}

/-! ## What an action does -/

/-- What an action writes down. -/
inductive Writes (s : Handoff) (call : Call) (action : Action) (s' : Handoff) : Prop where
  | nothing (hreceipts : s'.receipts = s.receipts) (hissued : s'.issued = s.issued) (hlog : s'.log = s.log)
  | issued (haction : action = .confirm ∨ action = .consume) (selection : Selection)
      (hreceipts : s'.receipts = s.receipts.set call.request.cameraId ⟨s.issued, call.request.cameraId, selection⟩)
      (hissued : s'.issued = s.issued + 1) (hlog : s'.log = s.log ++ [.issued ⟨s.issued, call.request.cameraId, selection⟩])
  | claimed (haction : action = .take) (receipt : RetiredIngress) (hrequest : call.request = .claim receipt)
      (hreceipts : s'.receipts = s.receipts.erase receipt.cameraId) (hissued : s'.issued = s.issued)
      (hlog : s'.log = s.log ++ [.claimed receipt])
  | broken (haction : action = .block) (hreceipts : s'.receipts = s.receipts) (hissued : s'.issued = s.issued)
      (hlog : s'.log = s.log ++ [.broken call.request])

/-- The effect of an action on everything else. -/
structure Effect (env : Inner) (s : Handoff) (call : Call) (action : Action) (s' : Handoff) (call' : Call) : Prop where
  writes : Writes s call action s'
  viewers : ViewerGate.Section (fun _ => False) s.viewers s'.viewers
  recorder : s'.recorder = s.recorder ∨ s'.recorder = (s.recorder.suspend env.recorder call.request.cameraId).2
  db : s'.db = s.db ∨ action = .beginChange ∨ action = .consume ∨ action = .block
  failed : s'.failed = s.failed
  request : call'.request = call.request
  rest : call'.rest = call.rest

theorem Effect.looks (env : Inner) (s : Handoff) (call : Call) (action : Action) {call' : Call}
    (hrequest : call'.request = call.request) (hrest : call'.rest = call.rest) : Effect env s call action s call' :=
  ⟨.nothing rfl rfl rfl, .refl _ s.viewers, .inl rfl, .inl rfl, rfl, hrequest, hrest⟩

theorem refuse_effect (env : Inner) (s : Handoff) (call : Call) (action : Action) (refused : Bool) :
    Effect env s call action (refuse refused s call).2.1 (refuse refused s call).2.2 := .looks env s call action rfl rfl

/-- **What one action does**, whichever it is. -/
theorem act_effect (env : Inner) (s : Handoff) (call : Call) (action : Action) :
    Effect env s call action (act env s call action).2.1 (act env s call action).2.2 := by
  have hlooks : Effect env s call action s call := .looks env s call action rfl rfl
  cases action with
  | admission => exact refuse_effect ..
  | readPolicy =>
    simp only [act]
    split
    · exact hlooks
    · exact .looks env s call _ rfl rfl
  | bound =>
    simp only [act]
    split
    · exact refuse_effect ..
    · exact hlooks
  | legacy => exact refuse_effect ..
  | viewersFree => exact refuse_effect ..
  | recordingsFree => exact refuse_effect ..
  | beginChange =>
    simp only [act]
    split
    · exact hlooks
    · exact ⟨.nothing rfl rfl rfl, .refl _ s.viewers, .inl rfl, .inr (.inl rfl), rfl, rfl, rfl⟩
  | suspendViewers =>
    have hturn : ViewerGate.Section (fun _ => False) s.viewers
        (if call.waiting then s.viewers.drainTurn call.request.cameraId env.expired
          else s.viewers.suspend call.request.cameraId call.request.drainTimeout env.expired).2 := by
      split
      · exact ViewerGate.drainTurn_section ..
      · exact ViewerGate.suspend_section ..
    simp only [act]
    split
    · exact ⟨.nothing rfl rfl rfl, hturn, .inl rfl, .inl rfl, rfl, rfl, rfl⟩
    · exact ⟨.nothing rfl rfl rfl, hturn, .inl rfl, .inl rfl, rfl, rfl, rfl⟩
    · exact ⟨.nothing rfl rfl rfl, hturn, .inl rfl, .inl rfl, rfl, rfl, rfl⟩
  | suspendRecordings => exact ⟨.nothing rfl rfl rfl, .refl _ s.viewers, .inr rfl, .inl rfl, rfl, rfl, rfl⟩
  | retireIngress => exact refuse_effect ..
  | withdraw =>
    simp only [act]
    split
    · exact hlooks
    · exact ⟨.nothing rfl rfl rfl, .refl _ s.viewers, .inl rfl, .inl rfl, rfl, rfl, rfl⟩
  | stopWorker => exact hlooks
  | awaitCompletion => exact refuse_effect ..
  | reaped =>
    simp only [act]
    split
    · exact refuse_effect ..
    · exact hlooks
  | discard =>
    simp only [act]
    split
    · exact hlooks
    split
    · exact hlooks
    · exact ⟨.nothing rfl rfl rfl, .refl _ s.viewers, .inl rfl, .inl rfl, rfl, rfl, rfl⟩
  | confirm =>
    simp only [act]
    split
    · exact hlooks
    split
    · exact hlooks
    next pending _ _ => exact ⟨.issued (.inl rfl) pending rfl rfl rfl, .refl _ s.viewers, .inl rfl, .inl rfl, rfl, rfl, rfl⟩
  | consume =>
    simp only [act]
    split
    next checkpoint _ =>
      split
      · exact hlooks
      next selection db _ => exact ⟨.issued (.inr rfl) selection rfl rfl rfl, .refl _ s.viewers, .inl rfl, .inr (.inr (.inl rfl)), rfl, rfl, rfl⟩
    · exact hlooks
  | receiptHeld =>
    simp only [act]
    split
    · exact refuse_effect ..
    · exact hlooks
  | drained => exact refuse_effect ..
  | retired => exact refuse_effect ..
  | selected =>
    simp only [act]
    split
    · exact refuse_effect ..
    · exact hlooks
  | take =>
    simp only [act]
    split
    next receipt hrequest => exact ⟨.claimed rfl receipt hrequest rfl rfl rfl, .refl _ s.viewers, .inl rfl, .inl rfl, rfl, rfl, rfl⟩
    · exact hlooks
  | block => exact ⟨.broken rfl rfl rfl rfl, .refl _ s.viewers, .inl rfl, .inr (.inr (.inr rfl)), rfl, rfl, rfl⟩

theorem perform_effect (env : Inner) (s : Handoff) (call : Call) (action : Action) :
    Effect env s call action (perform env s call action).2.1 (perform env s call action).2.2 := by
  unfold perform
  split
  · split
    · exact ⟨.broken rfl rfl rfl rfl, .refl _ s.viewers, .inl rfl, .inl rfl, rfl, rfl, rfl⟩
    · exact act_effect env s call .take
    · exact .looks env s call action rfl rfl
  · exact act_effect env s call action

/-- **What `advance` does**: nothing, or the next action of the call and what follows
from how it ends. -/
theorem advance_cases (env : Inner) (s : Handoff) : s.advance env = s ∨
    ∃ call action rest s₁ call₁, s.call = some call ∧ call.rest = action :: rest ∧ Effect env s call action s₁ call₁ ∧
      ((perform env s call action = (.done, s₁, call₁) ∧ s.advance env = s₁.settle call₁ rest) ∨
        (perform env s call action = (.waiting, s₁, call₁) ∧ s.advance env = { s₁ with call := some call₁ }) ∨
        (perform env s call action = (.raised, s₁, call₁) ∧ s.advance env = s₁.raise call₁)) := by
  rw [advance]
  split
  · exact .inl rfl
  next call hcall =>
    split
    · exact .inl rfl
    next action rest hrest =>
      right
      have heffect := perform_effect env s call action
      split
      next s₁ call₁ h =>
        rw [h] at heffect
        exact ⟨call, action, rest, s₁, call₁, hcall, hrest, heffect, .inl ⟨h, rfl⟩⟩
      next s₁ call₁ h =>
        rw [h] at heffect
        exact ⟨call, action, rest, s₁, call₁, hcall, hrest, heffect, .inr (.inl ⟨h, rfl⟩)⟩
      next s₁ call₁ h =>
        rw [h] at heffect
        exact ⟨call, action, rest, s₁, call₁, hcall, hrest, heffect, .inr (.inr ⟨h, rfl⟩)⟩

/-! ## The latch -/

/-- What a call that began under the latch has before it: nothing that could give
anything, or the check of the latch first. -/
def Unable : List Action → Bool
  | [] | [.block] => true
  | .admission :: _ | .receiptHeld :: _ | .readPolicy :: .admission :: _ => true
  | _ => false

theorem unable_program (request : Request) : Unable request.program = true := by cases request <;> rfl

theorem block_notMem_program (request : Request) : .block ∉ request.program := by
  cases request <;> simp [Request.program]

theorem claim_rest {rest : List Action} {receipt : RetiredIngress} (h : rest <:+ (Request.claim receipt).program) :
    rest = [.receiptHeld, .drained, .retired, .selected, .take] ∨ rest = [.drained, .retired, .selected, .take] ∨
      rest = [.retired, .selected, .take] ∨ rest = [.selected, .take] ∨ rest = [.take] ∨ rest = [] := by
  simpa [Request.program, List.suffix_cons_iff] using h

/-! ## The invariant -/

/-- The tables and the log. -/
structure Core (s : Handoff) : Prop where
  gate : s.viewers.Inv
  recorder : s.recorder.Inv
  kept : ∀ cameraId receipt, s.receipts.get? cameraId = some receipt →
    receipt.cameraId = cameraId ∧ receipt.id < s.issued ∧ receipt ∉ claimed s.log
  known : ∀ receipt ∈ claimed s.log, receipt.id < s.issued
  once : (claimed s.log).Nodup
  latched : Broken s.log → s.failed = true
  quiet : Justified (fun before e => Broken before → e.success = false) s.log

/-- The call under way. -/
structure Calls (s : Handoff) : Prop where
  shape : ∀ call, s.call = some call → call.rest <:+ call.request.program ∨ call.rest = [.block]
  handler : ∀ call, s.call = some call → .block ∈ call.rest → s.failed = true
  latch : s.failed = true → ∀ call, s.call = some call → Unable call.rest = true
  held : ∀ call receipt, s.call = some call → call.request = .claim receipt → .receiptHeld ∉ call.rest → .take ∈ call.rest →
    s.receipts.get? receipt.cameraId = some receipt

structure Inv (s : Handoff) : Prop where
  core : Core s
  calls : Calls s

theorem claimed_append (log : List Outcome) (e : Outcome) : claimed (log ++ [e]) = claimed log ++ claimed [e] :=
  List.filterMap_append ..

theorem broken_append {log : List Outcome} {e : Outcome} : Broken (log ++ [e]) ↔ Broken log ∨ ∃ request, e = .broken request := by
  simp only [Broken, List.mem_append, List.mem_singleton, exists_or, eq_comm]

theorem Core.logged (h : Core s) {e : Outcome} (hclaimed : claimed [e] = []) (hbroken : (∃ request, e = .broken request) → s.failed = true)
    (hquiet : s.failed = true → e.success = false) (hgate : s'.viewers.Inv) (hrecorder : s'.recorder.Inv)
    (hreceipts : s'.receipts = s.receipts) (hissued : s'.issued = s.issued) (hlog : s'.log = s.log ++ [e])
    (hfailed : s.failed = true → s'.failed = true) : Core s' := by
  have hsame : claimed s'.log = claimed s.log := by
    rw [hlog, claimed_append, hclaimed, List.append_nil]
  refine ⟨hgate, hrecorder, ?_, ?_, by rw [hsame]; exact h.once, ?_, ?_⟩
  · rw [hreceipts, hissued, hsame]
    exact h.kept
  · rw [hissued, hsame]
    exact h.known
  · rw [hlog, broken_append]
    rintro (hbefore | hnow)
    · exact hfailed (h.latched hbefore)
    · exact hfailed (hbroken hnow)
  · rw [hlog]
    exact h.quiet.snoc fun hbefore => hquiet (h.latched hbefore)

/-- **An action keeps the tables and the log in order.** -/
theorem Core.effect (h : Inv s) {env : Inner} {action : Action} {rest : List Action} (hcall : s.call = some call)
    (hrest : call.rest = action :: rest) (heffect : Effect env s call action s' call') : Core s' := by
  have hgate : s'.viewers.Inv := heffect.viewers.inv h.core.gate
  have hrecorder : s'.recorder.Inv := by
    rcases heffect.recorder with heq | heq
    · rw [heq]
      exact h.core.recorder
    · rw [heq]
      exact (Recorder.suspend_steps env.recorder h.core.recorder call.request.cameraId).1.inv
  -- under the latch nothing is given any more
  have hgives (hgives : action = .confirm ∨ action = .consume ∨ action = .take) : ¬ s.failed = true := by
    intro hfailed
    have hunable := h.calls.latch hfailed call hcall
    rw [hrest] at hunable
    rcases hgives with rfl | rfl | rfl <;> cases hunable
  cases heffect.writes with
  | nothing hreceipts hissued hlog =>
    refine ⟨hgate, hrecorder, ?_, ?_, ?_, ?_, ?_⟩
    · rw [hreceipts, hissued, hlog]
      exact h.core.kept
    · rw [hissued, hlog]
      exact h.core.known
    · rw [hlog]
      exact h.core.once
    · rw [hlog, heffect.failed]
      exact h.core.latched
    · rw [hlog]
      exact h.core.quiet
  | issued haction selection hreceipts hissued hlog =>
    have hopen := hgives (by tauto)
    have hsame : claimed s'.log = claimed s.log := by
      rw [hlog, claimed_append]
      exact List.append_nil _
    refine ⟨hgate, hrecorder, fun cameraId receipt hget => ?_, fun receipt hmem => ?_, by rw [hsame]; exact h.core.once, ?_, ?_⟩
    · rw [hreceipts, Dict.get?_set] at hget
      rw [hissued, hsame]
      split at hget
      next heq =>
        cases hget
        exact ⟨heq.symm, Nat.lt_succ_self _, fun hmem => absurd (h.core.known _ hmem) (Nat.lt_irrefl _)⟩
      · obtain ⟨hcamera, hid, hmem⟩ := h.core.kept cameraId receipt hget
        exact ⟨hcamera, Nat.lt_succ_of_lt hid, hmem⟩
    · rw [hsame] at hmem
      rw [hissued]
      exact Nat.lt_succ_of_lt (h.core.known receipt hmem)
    · rw [hlog, broken_append, heffect.failed]
      rintro (hbefore | ⟨request, hnow⟩)
      · exact h.core.latched hbefore
      · cases hnow
    · rw [hlog]
      exact h.core.quiet.snoc fun hbefore => absurd (h.core.latched hbefore) hopen
  | claimed haction receipt hrequest hreceipts hissued hlog =>
    have hopen := hgives (.inr (.inr haction))
    have hshape := (h.calls.shape call hcall).resolve_right (by rw [hrest, haction]; exact nofun)
    rw [hrequest] at hshape
    have htake : call.rest = [.take] := by
      rw [haction] at hrest
      rcases claim_rest hshape with heq | heq | heq | heq | heq | heq
      all_goals first | exact heq | (rw [hrest] at heq; cases heq)
    have hheld := h.calls.held call receipt hcall hrequest (by rw [htake]; decide) (by rw [htake]; decide)
    obtain ⟨-, hid, hfresh⟩ := h.core.kept receipt.cameraId receipt hheld
    have hclaimed : claimed s'.log = claimed s.log ++ [receipt] := by
      rw [hlog, claimed_append]
      rfl
    refine ⟨hgate, hrecorder, fun cameraId other hget => ?_, fun other hmem => ?_, ?_, ?_, ?_⟩
    · rw [hreceipts, Dict.get?_erase] at hget
      split at hget
      · cases hget
      next hne =>
        obtain ⟨hcamera, hid', hmem⟩ := h.core.kept cameraId other hget
        refine ⟨hcamera, by rw [hissued]; exact hid', ?_⟩
        rw [hclaimed, List.mem_append, List.mem_singleton]
        rintro (hbefore | rfl)
        · exact hmem hbefore
        · exact hne hcamera.symm
    · rw [hclaimed, List.mem_append, List.mem_singleton] at hmem
      rw [hissued]
      rcases hmem with hmem | rfl
      · exact h.core.known other hmem
      · exact hid
    · rw [hclaimed]
      exact List.nodup_append.mpr ⟨h.core.once, List.nodup_singleton _, fun a ha b hb heq => by
        rw [List.mem_singleton.mp hb] at heq
        exact hfresh (heq ▸ ha)⟩
    · rw [hlog, broken_append, heffect.failed]
      rintro (hbefore | ⟨request, hnow⟩)
      · exact h.core.latched hbefore
      · cases hnow
    · rw [hlog]
      exact h.core.quiet.snoc fun hbefore => absurd (h.core.latched hbefore) hopen
  | broken haction hreceipts hissued hlog =>
    have hfailed : s.failed = true := h.calls.handler call hcall (by rw [hrest, haction]; exact List.mem_cons_self)
    exact h.core.logged rfl (fun _ => hfailed) (fun _ => rfl) hgate hrecorder hreceipts hissued hlog fun hfailed => by
      rw [heffect.failed]
      exact hfailed

/-! ## Steps -/

/-- The call after an action: what it was, with its receipt still in the table if it is
a claim that has not taken it. -/
theorem held_effect (h : Inv s) {env : Inner} {action : Action} {rest : List Action} (hcall : s.call = some call)
    (hrest : call.rest = action :: rest) (heffect : Effect env s call action s' call') {receipt : RetiredIngress}
    (hrequest : call.request = .claim receipt) (hshape : call.rest <:+ call.request.program) (hne : action ≠ .take)
    (hheld : .receiptHeld ∉ call.rest ∨ s.receipts.get? receipt.cameraId = some receipt) (htake : .take ∈ call.rest) :
    s'.receipts.get? receipt.cameraId = some receipt := by
  have hbefore : s.receipts.get? receipt.cameraId = some receipt := by
    rcases hheld with hheld | hheld
    · exact h.calls.held call receipt hcall hrequest hheld htake
    · exact hheld
  cases heffect.writes with
  | nothing hreceipts => rw [hreceipts]; exact hbefore
  | issued haction =>
    rw [hrequest] at hshape
    rcases claim_rest hshape with heq | heq | heq | heq | heq | heq
    all_goals
      rw [hrest] at heq
      rcases haction with rfl | rfl <;> cases heq
  | claimed haction => exact absurd haction hne
  | broken _ hreceipts => rw [hreceipts]; exact hbefore

theorem Core.withCall (h : Core s) (call : Option Call) : Core { s with call := call } :=
  ⟨h.gate, h.recorder, h.kept, h.known, h.once, h.latched, h.quiet⟩

theorem Core.fail (h : Core s) (call : Option Call) : Core { s with failed := true, call := call } :=
  ⟨h.gate, h.recorder, h.kept, h.known, h.once, fun _ => rfl, h.quiet⟩

theorem settle_eq (s : Handoff) (call : Call) (rest : List Action) :
    ∃ next, s.settle call rest = { s with call := next } ∧ (next = none ∨ next = some { call with rest := rest }) := by
  unfold settle
  split
  · exact ⟨_, rfl, .inr rfl⟩
  · exact ⟨_, rfl, .inl rfl⟩
  · exact ⟨_, rfl, .inr rfl⟩

/-- The check of the latch ends well only without a failure. -/
theorem admission_done {env : Inner} (h : perform env s call .admission = (.done, s', call')) : s.failed = false := by
  unfold perform at h
  split at h
  · cases h
  · cases hfailed : s.failed with
    | false => rfl
    | true =>
      rw [act, refuse, hfailed] at h
      cases h

/-- And that of the receipt only with the receipt in the table. -/
theorem receiptHeld_done {env : Inner} (h : perform env s call .receiptHeld = (.done, s', call')) :
    s.failed = false ∧ ∀ receipt, call.request = .claim receipt → s.receipts.get? receipt.cameraId = some receipt := by
  unfold perform at h
  split at h
  · cases h
  · rw [act] at h
    split at h
    next receipt hrequest =>
      have hok : (s.failed || decide (s.receipts.get? receipt.cameraId ≠ some receipt)) = false := by
        cases hcheck : s.failed || decide (s.receipts.get? receipt.cameraId ≠ some receipt) with
        | false => rfl
        | true =>
          rw [hcheck] at h
          cases h
      rw [Bool.or_eq_false_iff, decide_eq_false_iff_not, not_not] at hok
      refine ⟨hok.1, fun other hother => ?_⟩
      rw [hrequest] at hother
      cases hother
      exact hok.2
    · cases h

theorem take_not_waiting {env : Inner} (h : perform env s call .take = (.waiting, s', call')) : False := by
  unfold perform at h
  simp only [act] at h
  split at h <;> split at h <;> cases h

theorem unable_rest {env : Inner} {action : Action} {rest : List Action} (hunable : Unable (action :: rest) = true)
    (hfailed : s.failed = true) (h : perform env s call action = (.done, s', call')) : Unable rest = true := by
  cases action with
  | block =>
    cases rest with
    | nil => rfl
    | cons next rest => cases hunable
  | admission =>
    rw [admission_done h] at hfailed
    cases hfailed
  | receiptHeld =>
    rw [(receiptHeld_done h).1] at hfailed
    cases hfailed
  | readPolicy =>
    cases rest with
    | nil => cases hunable
    | cons next rest =>
      cases next with
      | admission => rfl
      | _ => cases hunable
  | _ => cases hunable

theorem Calls.idle (hnone : s.call = none) : Calls s := by
  have hno {call : Call} (hcall : s.call = some call) : False := by
    rw [hnone] at hcall
    cases hcall
  exact ⟨fun _ hcall => (hno hcall).elim, fun _ hcall => (hno hcall).elim, fun _ _ hcall => (hno hcall).elim,
    fun _ _ hcall => (hno hcall).elim⟩

/-- An action that was not the handler's is of the program. -/
theorem Calls.suffix (h : Calls s) (hcall : s.call = some call) (htake : .take ∈ call.rest) :
    call.rest <:+ call.request.program := by
  rcases h.shape call hcall with hshape | hblock
  · exact hshape
  · rw [hblock] at htake
    cases List.mem_singleton.mp htake

section

variable {env : Inner} {action : Action} {rest : List Action} {s₁ : Handoff} {call₁ : Call}

theorem Calls.done (h : Inv s) (hcall : s.call = some call) (hrest : call.rest = action :: rest)
    (heffect : Effect env s call action s₁ call₁) (hperform : perform env s call action = (.done, s₁, call₁)) :
    Calls { s₁ with call := some { call₁ with rest := rest } } := by
  have hshape : rest <:+ call.request.program := by
    rcases h.calls.shape call hcall with hshape | hshape
    · rw [hrest] at hshape
      exact (List.suffix_cons action rest).trans hshape
    · rw [hrest] at hshape
      obtain ⟨-, rfl⟩ := List.cons.inj hshape
      exact List.nil_suffix
  refine ⟨fun c hc => ?_, fun c hc hblock => ?_, fun hfailed c hc => ?_, fun c receipt hc hrequest hheld htake => ?_⟩
  · cases hc
    rw [heffect.request]
    exact .inl hshape
  · cases hc
    rw [show Call.rest _ = rest from rfl] at hblock
    exact absurd (hshape.subset hblock) (block_notMem_program _)
  · cases hc
    have hbefore : s.failed = true := heffect.failed.symm.trans hfailed
    have hunable := h.calls.latch hbefore call hcall
    rw [hrest] at hunable
    exact unable_rest hunable hbefore hperform
  · cases hc
    have hclaim : call.request = .claim receipt := heffect.request.symm.trans hrequest
    have hmem : .take ∈ call.rest := by
      rw [hrest]
      exact List.mem_cons_of_mem _ htake
    have hsuffix := h.calls.suffix hcall hmem
    have hne : action ≠ .take := by
      rintro rfl
      rw [hclaim, hrest] at hsuffix
      rcases claim_rest hsuffix with heq | heq | heq | heq | heq | heq
      all_goals first | cases heq; done | (obtain ⟨-, rfl⟩ := List.cons.inj heq; cases htake)
    refine held_effect h hcall hrest heffect hclaim hsuffix hne ?_ hmem
    by_cases haction : action = .receiptHeld
    · subst haction
      exact .inr ((receiptHeld_done hperform).2 receipt hclaim)
    · rw [hrest, List.mem_cons, not_or]
      exact .inl ⟨Ne.symm haction, hheld⟩

theorem Calls.waits (h : Inv s) (hcall : s.call = some call) (hrest : call.rest = action :: rest)
    (heffect : Effect env s call action s₁ call₁) (hperform : perform env s call action = (.waiting, s₁, call₁)) :
    Calls { s₁ with call := some call₁ } := by
  refine ⟨fun c hc => ?_, fun c hc hblock => ?_, fun hfailed c hc => ?_, fun c receipt hc hrequest hheld htake => ?_⟩
  · cases hc
    rw [heffect.rest, heffect.request]
    exact h.calls.shape call hcall
  · cases hc
    rw [heffect.rest] at hblock
    exact heffect.failed.trans (h.calls.handler call hcall hblock)
  · cases hc
    rw [heffect.rest]
    exact h.calls.latch (heffect.failed.symm.trans hfailed) call hcall
  · cases hc
    rw [heffect.rest] at hheld htake
    rw [heffect.request] at hrequest
    refine held_effect h hcall hrest heffect hrequest (h.calls.suffix hcall htake) ?_ (.inl hheld) htake
    rintro rfl
    exact take_not_waiting hperform

theorem Calls.handling (s : Handoff) (call : Call) :
    Calls { s with failed := true, call := some { call with waiting := false, rest := [.block] } } := by
  refine ⟨fun c hc => ?_, fun _ _ _ => rfl, fun _ c hc => ?_, fun c receipt hc _ _ htake => ?_⟩
  · cases hc
    exact .inr rfl
  · cases hc
    rfl
  · cases hc
    cases List.mem_singleton.mp htake

end

/-- **The call under way, after its next action.** -/
theorem Inv.advance (h : Inv s) (env : Inner) : Inv (s.advance env) := by
  rcases advance_cases env s with heq | ⟨call, action, rest, s₁, call₁, hcall, hrest, heffect, hends⟩
  · rw [heq]
    exact h
  have hcore : Core s₁ := Core.effect h hcall hrest heffect
  rcases hends with ⟨hperform, hnext⟩ | ⟨hperform, hnext⟩ | ⟨hperform, hnext⟩
  · obtain ⟨next, hsettle, hcases⟩ := settle_eq s₁ call₁ rest
    rw [hnext, hsettle]
    rcases hcases with rfl | rfl
    · exact ⟨hcore.withCall none, .idle rfl⟩
    · exact ⟨hcore.withCall _, .done h hcall hrest heffect hperform⟩
  · rw [hnext]
    exact ⟨hcore.withCall _, .waits h hcall hrest heffect hperform⟩
  · rw [hnext, raise]
    split
    · have hrefused : Core { s₁ with call := none, log := s₁.log ++ [.refused call₁.request] } :=
        hcore.logged rfl (fun ⟨_, hnot⟩ => nomatch hnot) (fun _ => rfl) hcore.gate hcore.recorder rfl rfl rfl id
      exact ⟨hrefused, .idle rfl⟩
    · exact ⟨hcore.fail _, .handling s₁ call₁⟩

theorem Inv.begin (h : Inv s) (request : Request) : Inv (s.begin request) := by
  rw [Handoff.begin]
  split
  · exact h
  next hfree =>
    refine ⟨h.core.withCall _, fun c hc => ?_, fun c hc hblock => ?_, fun _ c hc => ?_, fun c receipt hc hrequest hheld _ => ?_⟩
    · cases hc
      exact .inl (List.suffix_refl _)
    · cases hc
      exact absurd hblock (block_notMem_program request)
    · cases hc
      exact unable_program request
    · cases hc
      cases hrequest
      exact absurd List.mem_cons_self hheld

theorem Inv.leave (h : Inv s) : Inv s.leave := by
  rw [Handoff.leave]
  split
  · split
    · exact ⟨h.core.withCall none, .idle rfl⟩
    · exact h
  · exact h

/-! ## What happens outside -/

/-- The events that undo what a claim of this camera has checked. -/
def HandoffEvent.Undoes : HandoffEvent → String → Prop
  | .resume other, cameraId | .recorder _ (.resumeIngress other), cameraId | .policyRow other _, cameraId => cameraId = other
  | _, _ => False

/-- An event outside: the coordinator is as it was, and nothing is undone but what the
event is there to undo. -/
structure Outside (e : HandoffEvent) (s s' : Handoff) : Prop where
  viewers : ViewerGate.Section e.Undoes s.viewers s'.viewers
  recorder : s.recorder.Inv → s'.recorder.Inv
  retired : ∀ cameraId, ¬ e.Undoes cameraId → s.recorder.Retired cameraId → s'.recorder.Retired cameraId
  policy : ∀ cameraId, ¬ e.Undoes cameraId → s'.db.policy cameraId = s.db.policy cameraId
  failed : s'.failed = s.failed
  receipts : s'.receipts = s.receipts
  issued : s'.issued = s.issued
  call : s'.call = s.call
  log : s'.log = s.log

theorem Outside.gate {e : HandoffEvent} {viewers : ViewerGate} (hviewers : ViewerGate.Section e.Undoes s.viewers viewers)
    (drains : List String) : Outside e s { s with viewers := viewers, drains := drains } :=
  ⟨hviewers, id, fun _ _ => id, fun _ _ => rfl, rfl, rfl, rfl, rfl, rfl⟩

theorem Outside.tables {e : HandoffEvent} {db : PolicyDb}
    (hpolicy : ∀ cameraId, ¬ e.Undoes cameraId → db.policy cameraId = s.db.policy cameraId) : Outside e s { s with db := db } :=
  ⟨.refl _ s.viewers, id, fun _ _ => id, hpolicy, rfl, rfl, rfl, rfl, rfl⟩

theorem Outside.refl (e : HandoffEvent) (s : Handoff) : Outside e s s := .gate (.refl _ s.viewers) s.drains

/-- Whether the coordinator is what moves. -/
def HandoffEvent.own : HandoffEvent → Bool
  | .begin _ | .advance _ | .leave => true
  | _ => false

/-- **What any other event does.** -/
theorem step_outside (s : Handoff) {e : HandoffEvent} (hown : e.own = false) : Outside e s (s.step e) := by
  cases e with
  | begin request => cases hown
  | advance env => cases hown
  | leave => cases hown
  | admitViewer cameraId =>
    rw [step]
    split
    · exact .refl _ s
    next lease viewers h => exact .gate (ViewerGate.admit_section h) s.drains
  | release id => exact .gate (ViewerGate.release_section id) s.drains
  | hold cameraId =>
    rw [step]
    split
    · exact .refl _ s
    next viewers h => exact .gate (ViewerGate.hold_section h) s.drains
  | suspend cameraId timeout expired => exact .gate (ViewerGate.suspend_section ..) _
  | wake cameraId expired =>
    rw [step]
    split
    · exact .gate (ViewerGate.drainTurn_section ..) _
    · exact .refl _ s
  | resume cameraId =>
    rw [step]
    split
    · exact .refl _ s
    next viewers h =>
      have hopens : ViewerGate.Section (HandoffEvent.Undoes (.resume cameraId)) s.viewers viewers := ViewerGate.resume_section h
      exact .gate hopens s.drains
  | recorder env op =>
    refine ⟨.refl _ s.viewers, fun h => (Recorder.step_steps env h op).inv, fun cameraId hundoes h => ?_, fun _ _ => rfl, rfl, rfl,
      rfl, rfl, rfl⟩
    refine h.step env ?_
    rintro rfl
    exact hundoes rfl
  | policyRow cameraId row => exact .tables fun other hundoes => Function.update_of_ne hundoes ..
  | checkpointRow cameraId row => exact .tables fun _ _ => rfl
  | camera cameraId configured => exact .tables fun _ _ => rfl
  | bindings bindings => exact ⟨.refl _ s.viewers, id, fun _ _ => id, fun _ _ => rfl, rfl, rfl, rfl, rfl, rfl⟩

theorem Inv.outside (h : Inv s) {e : HandoffEvent} (he : Outside e s s') : Inv s' := by
  refine ⟨⟨he.viewers.inv h.core.gate, he.recorder h.core.recorder, ?_, ?_, ?_, ?_, ?_⟩, ?_, ?_, ?_, ?_⟩
  · rw [he.receipts, he.issued, he.log]
    exact h.core.kept
  · rw [he.issued, he.log]
    exact h.core.known
  · rw [he.log]
    exact h.core.once
  · rw [he.log, he.failed]
    exact h.core.latched
  · rw [he.log]
    exact h.core.quiet
  · rw [he.call]
    exact h.calls.shape
  · rw [he.call, he.failed]
    exact h.calls.handler
  · rw [he.call, he.failed]
    exact h.calls.latch
  · rw [he.call, he.receipts]
    exact h.calls.held

/-- **Every event keeps the invariant.** -/
theorem Inv.step (h : Inv s) (e : HandoffEvent) : Inv (s.step e) := by
  cases e with
  | begin request => exact h.begin request
  | advance env => exact h.advance env
  | leave => exact h.leave
  | _ => exact h.outside (step_outside s rfl)

theorem run_snoc (capacity : Nat) (db : PolicyDb) (events : List HandoffEvent) (e : HandoffEvent) :
    run capacity db (events ++ [e]) = (run capacity db events).step e := by
  rw [run, List.foldl_append]
  rfl

theorem inv_run (capacity : Nat) (db : PolicyDb) (events : List HandoffEvent) : Inv (run capacity db events) := by
  induction events using List.reverseRecOn with
  | nil =>
    exact ⟨⟨nofun, Recorder.inv_start, nofun, nofun, List.nodup_nil, nofun, justified_nil _⟩, .idle rfl⟩
  | append_singleton events e ih =>
    rw [run_snoc]
    exact ih.step e

/-! ## What a claim has checked -/

/-- The checks that a claim of this camera has behind it are still true. -/
def Checked (cameraId : String) (s : Handoff) : Prop :=
  ∀ call receipt, s.call = some call → call.request = .claim receipt → receipt.cameraId = cameraId → .take ∈ call.rest →
    (.drained ∉ call.rest → s.viewers.Shut cameraId) ∧ (.retired ∉ call.rest → s.recorder.Retired cameraId) ∧
      (.selected ∉ call.rest → s.db.readFor cameraId = receipt.selection)

variable {cameraId : String}

theorem Checked.idle (hnone : s.call = none) : Checked cameraId s := by
  intro call receipt hcall
  rw [hnone] at hcall
  cases hcall

theorem Checked.outside (h : Checked cameraId s) {e : HandoffEvent} (he : Outside e s s') (hundoes : ¬ e.Undoes cameraId) :
    Checked cameraId s' := by
  intro call receipt hcall hrequest hcamera htake
  rw [he.call] at hcall
  obtain ⟨hdrained, hretired, hselected⟩ := h call receipt hcall hrequest hcamera htake
  refine ⟨fun hmem => he.viewers.shut_after (hdrained hmem) hundoes, fun hmem => he.retired cameraId hundoes (hretired hmem),
    fun hmem => ?_⟩
  rw [← hselected hmem, PolicyDb.readFor, PolicyDb.readFor, he.policy cameraId hundoes]

theorem Checked.begin (h : Checked cameraId s) (request : Request) : Checked cameraId (s.begin request) := by
  rw [Handoff.begin]
  split
  · exact h
  · intro call receipt hcall hrequest _ _
    cases hcall
    cases hrequest
    refine ⟨fun hnot => absurd ?_ hnot, fun hnot => absurd ?_ hnot, fun hnot => absurd ?_ hnot⟩
    all_goals simp [Request.program]

theorem Checked.leave (h : Checked cameraId s) : Checked cameraId s.leave := by
  rw [Handoff.leave]
  split
  · split
    · exact .idle rfl
    · exact h
  · exact h

theorem refuse_done {refused : Bool} (h : refuse refused s call = (.done, s', call')) : refused = false := by
  cases refused with
  | false => rfl
  | true => cases h

section

variable {env : Inner} {receipt : RetiredIngress}

theorem perform_eq_act {action : Action} (hne : action ≠ .block) (h : perform env s call action = (.done, s', call')) :
    act env s call action = (.done, s', call') := by
  unfold perform at h
  split at h
  · split at h
    · exact absurd rfl hne
    · exact h
    · cases h
  · exact h

theorem drained_done (h : perform env s call .drained = (.done, s', call')) : s.viewers.Shut call.request.cameraId := by
  have hok := refuse_done (perform_eq_act (nofun : Action.drained ≠ .block) h)
  rw [decide_eq_false_iff_not, not_not] at hok
  exact (ViewerGate.isDrained_iff.mp hok).2

theorem retired_done (h : perform env s call .retired = (.done, s', call')) : s.recorder.Retired call.request.cameraId := by
  have hok := refuse_done (perform_eq_act (nofun : Action.retired ≠ .block) h)
  rw [Bool.not_eq_false'] at hok
  exact (Recorder.isRetired_iff.mp hok).2

theorem selected_done (h : perform env s call .selected = (.done, s', call')) (hrequest : call.request = .claim receipt) :
    s.db.readFor receipt.cameraId = receipt.selection := by
  have hact := perform_eq_act (nofun : Action.selected ≠ .block) h
  simp only [act, hrequest] at hact
  have hok := refuse_done hact
  rwa [decide_eq_false_iff_not, not_not] at hok

theorem Effect.keeps {action : Action} (h : Effect env s call action s' call')
    (haction : action ≠ .beginChange ∧ action ≠ .consume ∧ action ≠ .block) :
    (s.viewers.Shut cameraId → s'.viewers.Shut cameraId) ∧ (s.recorder.Retired cameraId → s'.recorder.Retired cameraId) ∧
      s'.db = s.db := by
  refine ⟨fun hshut => h.viewers.shut_after hshut id, fun hretired => ?_, h.db.resolve_right (by tauto)⟩
  rcases h.recorder with heq | heq
  · rwa [heq]
  · rw [heq]
    exact hretired.suspend env.recorder _

end

/-- **A claim's checks stay true while it goes on.** -/
theorem Checked.advance (h : Inv s) (hchecked : Checked cameraId s) (env : Inner) : Checked cameraId (s.advance env) := by
  rcases advance_cases env s with heq | ⟨call, action, rest, s₁, call₁, hcall, hrest, heffect, hends⟩
  · rw [heq]
    exact hchecked
  -- a claim that has not taken its receipt
  have hclaim {receipt : RetiredIngress} (hrequest : call.request = .claim receipt) (htake : .take ∈ call.rest) :
      action = .receiptHeld ∨ action = .drained ∨ action = .retired ∨ action = .selected ∨ action = .take := by
    have hsuffix := h.calls.suffix hcall htake
    rw [hrequest, hrest] at hsuffix
    rcases claim_rest hsuffix with heq | heq | heq | heq | heq | heq
    all_goals simp_all
  have hkeeps {receipt : RetiredIngress} (hrequest : call.request = .claim receipt) (htake : .take ∈ call.rest) :=
    (heffect.keeps (by rcases hclaim hrequest htake with rfl | rfl | rfl | rfl | rfl <;> decide) :
      (s.viewers.Shut cameraId → s₁.viewers.Shut cameraId) ∧ _)
  rcases hends with ⟨hperform, hnext⟩ | ⟨hperform, hnext⟩ | ⟨hperform, hnext⟩
  · obtain ⟨next, hsettle, hcases⟩ := settle_eq s₁ call₁ rest
    rw [hnext, hsettle]
    rcases hcases with rfl | rfl
    · exact .idle rfl
    intro c receipt hc hrequest hcamera htake
    cases hc
    have hrequest₀ : call.request = .claim receipt := heffect.request.symm.trans hrequest
    have htake₀ : .take ∈ call.rest := by
      rw [hrest]
      exact List.mem_cons_of_mem _ htake
    have hid : call.request.cameraId = cameraId := by rw [hrequest₀]; exact hcamera
    obtain ⟨hdrained, hretired, hselected⟩ := hchecked call receipt hcall hrequest₀ hcamera htake₀
    obtain ⟨hshut, hgone, hdb⟩ := hkeeps hrequest₀ htake₀
    refine ⟨fun hmem => hshut ?_, fun hmem => hgone ?_, fun hmem => ?_⟩
    · by_cases haction : action = .drained
      · subst haction
        rw [← hid]
        exact drained_done hperform
      · exact hdrained (by rw [hrest, List.mem_cons, not_or]; exact ⟨Ne.symm haction, hmem⟩)
    · by_cases haction : action = .retired
      · subst haction
        rw [← hid]
        exact retired_done hperform
      · exact hretired (by rw [hrest, List.mem_cons, not_or]; exact ⟨Ne.symm haction, hmem⟩)
    · show s₁.db.readFor cameraId = receipt.selection
      rw [hdb]
      by_cases haction : action = .selected
      · subst haction
        rw [← hcamera]
        exact selected_done hperform hrequest₀
      · exact hselected (by rw [hrest, List.mem_cons, not_or]; exact ⟨Ne.symm haction, hmem⟩)
  · rw [hnext]
    intro c receipt hc hrequest hcamera htake
    cases hc
    rw [heffect.request] at hrequest
    rw [heffect.rest] at htake ⊢
    obtain ⟨hdrained, hretired, hselected⟩ := hchecked call receipt hcall hrequest hcamera htake
    obtain ⟨hshut, hgone, hdb⟩ := hkeeps hrequest htake
    exact ⟨fun hmem => hshut (hdrained hmem), fun hmem => hgone (hretired hmem), fun hmem => by
      show s₁.db.readFor cameraId = receipt.selection
      rw [hdb]
      exact hselected hmem⟩
  · rw [hnext, raise]
    split
    · exact .idle rfl
    · intro c receipt hc _ _ htake
      cases hc
      cases List.mem_singleton.mp htake

theorem Checked.step (h : Inv s) (hchecked : Checked cameraId s) {e : HandoffEvent} (hundoes : ¬ e.Undoes cameraId) :
    Checked cameraId (s.step e) := by
  cases e with
  | begin request => exact hchecked.begin request
  | advance env => exact hchecked.advance h env
  | leave => exact hchecked.leave
  | _ => exact hchecked.outside (step_outside s rfl) hundoes

/-- From where no call is under way, while nothing is undone. -/
theorem checked_run (capacity : Nat) (db : PolicyDb) (before window : List HandoffEvent)
    (hidle : (run capacity db before).call = none) (hwindow : ∀ e ∈ window, ¬ e.Undoes cameraId) :
    Checked cameraId (run capacity db (before ++ window)) := by
  induction window using List.reverseRecOn with
  | nil =>
    rw [List.append_nil]
    exact .idle hidle
  | append_singleton window e ih =>
    rw [← List.append_assoc, run_snoc]
    exact (ih fun e he => hwindow e (List.mem_append_left _ he)).step (inv_run ..) (hwindow e (by simp))

/-- What takes a receipt is the last action of its claim. -/
theorem advance_claimed {env : Inner} {receipt : RetiredIngress} (h : (s.advance env).log = s.log ++ [.claimed receipt]) :
    ∃ call rest s₁ call₁, s.call = some call ∧ call.request = .claim receipt ∧ call.rest = .take :: rest ∧
      Effect env s call .take s₁ call₁ ∧ (s.advance env).viewers = s₁.viewers ∧ (s.advance env).recorder = s₁.recorder ∧
      (s.advance env).db = s₁.db := by
  rcases advance_cases env s with heq | ⟨call, action, rest, s₁, call₁, hcall, hrest, heffect, hends⟩
  · rw [heq] at h
    simp at h
  have hlog : ∃ more, (s.advance env).log = s₁.log ++ more ∧ (more = [] ∨ ∃ request, more = [.refused request]) := by
    rcases hends with ⟨-, hnext⟩ | ⟨-, hnext⟩ | ⟨-, hnext⟩
    · obtain ⟨next, hsettle, -⟩ := settle_eq s₁ call₁ rest
      rw [hnext, hsettle]
      exact ⟨[], (List.append_nil _).symm, .inl rfl⟩
    · rw [hnext]
      exact ⟨[], (List.append_nil _).symm, .inl rfl⟩
    · rw [hnext, raise]
      split
      · exact ⟨_, rfl, .inr ⟨_, rfl⟩⟩
      · exact ⟨[], (List.append_nil _).symm, .inl rfl⟩
  have hrest' : (s.advance env).viewers = s₁.viewers ∧ (s.advance env).recorder = s₁.recorder ∧ (s.advance env).db = s₁.db := by
    rcases hends with ⟨-, hnext⟩ | ⟨-, hnext⟩ | ⟨-, hnext⟩
    · obtain ⟨next, hsettle, -⟩ := settle_eq s₁ call₁ rest
      rw [hnext, hsettle]
      exact ⟨rfl, rfl, rfl⟩
    · rw [hnext]
      exact ⟨rfl, rfl, rfl⟩
    · rw [hnext, raise]
      split <;> exact ⟨rfl, rfl, rfl⟩
  obtain ⟨more, hmore, hkind⟩ := hlog
  rw [hmore] at h
  cases heffect.writes with
  | nothing _ _ hlog =>
    rw [hlog, List.append_cancel_left_eq] at h
    rcases hkind with rfl | ⟨request, rfl⟩ <;> cases h
  | issued _ selection _ _ hlog =>
    rw [hlog, List.append_assoc, List.append_cancel_left_eq] at h
    cases h
  | claimed haction other hrequest _ _ hlog =>
    rw [hlog, List.append_assoc, List.append_cancel_left_eq] at h
    obtain ⟨rfl, -⟩ : other = receipt ∧ more = [] := by
      rw [List.singleton_append, List.cons.injEq, Outcome.claimed.injEq] at h
      exact h
    subst haction
    exact ⟨call, rest, s₁, call₁, hcall, hrequest, hrest, heffect, hrest'⟩
  | broken _ _ _ hlog =>
    rw [hlog, List.append_assoc, List.append_cancel_left_eq] at h
    cases h

/-- **Receipts are used once.** In every run, whatever fails and whatever other threads
do between two actions of a call: no receipt is claimed twice; after a retirement that
failed once it had changed the policy, nothing succeeds; a drained camera has no lease;
and a claim that succeeds, with nothing that it had checked undone meanwhile, finds no
viewer and no way for one to come in, no recording child, and its own selection. -/
theorem receipts_used_once (capacity : Nat) (db : PolicyDb) (events : List HandoffEvent) :
    let s := run capacity db events
    (claimed s.log).Nodup ∧
    (∀ (before : List Outcome) e (after : List Outcome), s.log = before ++ e :: after → Broken before → e.success = false) ∧
    (∀ cameraId, s.viewers.holds.get? cameraId = some .drained → ∀ lease ∈ s.viewers.leases, lease.cameraId ≠ cameraId) ∧
    ∀ (before window : List HandoffEvent) env receipt, events = before ++ window → (run capacity db before).call = none →
      (∀ e ∈ window, ¬ e.Undoes receipt.cameraId) → (s.step (.advance env)).log = s.log ++ [.claimed receipt] →
      let s' := s.step (.advance env)
      (∀ lease ∈ s'.viewers.leases, lease.cameraId ≠ receipt.cameraId) ∧
      (∃ fault, s'.viewers.admitViewer receipt.cameraId = .error fault) ∧
      s'.recorder.Retired receipt.cameraId ∧
      (∀ pid < s'.recorder.born, (s'.recorder.child pid).camera = receipt.cameraId → (s'.recorder.child pid).alive = false) ∧
      s'.db.readFor receipt.cameraId = receipt.selection := by
  intro s
  have hinv : Inv s := inv_run capacity db events
  have hleases {g : ViewerGate} {cameraId : String} (h : g.hasLease cameraId = false) :
      ∀ lease ∈ g.leases, lease.cameraId ≠ cameraId := by
    simpa [ViewerGate.hasLease] using h
  refine ⟨hinv.core.once, hinv.core.quiet, fun cameraId h => hleases (hinv.core.gate cameraId h),
    fun before window env receipt hevents hidle hwindow hlog => ?_⟩
  have hchecked : Checked receipt.cameraId s := by
    have hrun := checked_run capacity db before window hidle hwindow
    rwa [← hevents] at hrun
  obtain ⟨call, rest, s₁, call₁, hcall, hrequest, hrest, heffect, hviewers, hrecorder, hdb⟩ := advance_claimed hlog
  have htake : call.rest = [.take] := by
    have hsuffix := hinv.calls.suffix hcall (by rw [hrest]; exact List.mem_cons_self)
    rw [hrequest] at hsuffix
    rcases claim_rest hsuffix with heq | heq | heq | heq | heq | heq
    all_goals first | exact heq | (rw [hrest] at heq; cases heq)
  obtain ⟨hdrained, hretired, hselected⟩ := hchecked call receipt hcall hrequest rfl (by rw [htake]; exact List.mem_cons_self)
  obtain ⟨hshut, hgone, hsame⟩ := heffect.keeps (by decide)
  have hshut' := hshut (hdrained (by rw [htake]; decide))
  have hretired' := hgone (hretired (by rw [htake]; decide))
  have hinv' : Recorder.Inv s₁.recorder := (Core.effect hinv hcall hrest heffect).recorder
  have hviewers' : (s.step (.advance env)).viewers = s₁.viewers := hviewers
  have hrecorder' : (s.step (.advance env)).recorder = s₁.recorder := hrecorder
  have hdb' : (s.step (.advance env)).db = s.db := hdb.trans hsame
  simp only [hviewers', hrecorder', hdb']
  exact ⟨hleases hshut'.2, ViewerGate.admit_held hshut'.1, hretired', fun pid hpid hcamera => hinv'.no_live hretired'.2 hpid hcamera,
    hselected (by rw [htake]; decide)⟩

/-- What an undisturbed step of a call finds. -/
def calm : Inner where
  raises := false
  expired := false
  recorder :=
    { confirms := fun _ => true, policy := fun _ => none, ownedIngress := none, starts := fun _ => true, rss := fun _ => none,
      now := fun _ => 0, later := fun _ => 0, prepared := true }
  pid := fun _ => false
  url := fun _ => false
  completes := true
  certifies := true

/-- Without anybody in between, a legacy camera is retired and its receipt claimed. -/
theorem receipt_claimed_calm :
    let camera := "cam_000000000000000000000000"
    let receipt : RetiredIngress := ⟨0, camera, ⟨.native, .transition, 1⟩⟩
    let events := ([.begin (.retireLegacy camera "native" 0)] : List HandoffEvent) ++ List.replicate 10 (.advance calm) ++
      ([.begin (.claim receipt), .advance calm, .advance calm, .advance calm, .advance calm] : List HandoffEvent)
    let s' := (run 64 { cameras := fun _ => true } events).step (.advance calm)
    s'.recorder.Retired camera ∧ s'.db.readFor camera = receipt.selection := by
  intro camera receipt events s'
  have hwindow : ∀ e ∈ events, ¬ e.Undoes receipt.cameraId := by
    intro e he
    simp only [events, List.mem_append, List.mem_cons, List.mem_replicate, List.not_mem_nil, or_false] at he
    rcases he with (rfl | ⟨-, rfl⟩) | rfl | rfl | rfl | rfl | rfl <;> exact id
  obtain ⟨-, -, hretired, -, hselection⟩ := (receipts_used_once 64 { cameras := fun _ => true } events).2.2.2 [] events calm receipt
    rfl rfl hwindow (by decide +kernel)
  exact ⟨hretired, hselection⟩

/-- A legacy camera is retired, and its receipt claimed; but after the claim has found
the gate drained, another thread resumes it, and a viewer comes in. -/
theorem resumed_under_claim :
    let camera := "cam_000000000000000000000000"
    let receipt : RetiredIngress := ⟨0, camera, ⟨.native, .transition, 1⟩⟩
    let events := ([.begin (.retireLegacy camera "native" 0)] : List HandoffEvent) ++ List.replicate 10 (.advance calm) ++
      ([.begin (.claim receipt), .advance calm, .advance calm, .resume camera, .admitViewer camera, .advance calm,
        .advance calm] : List HandoffEvent)
    let s := run 64 { cameras := fun _ => true } events
    let s' := s.step (.advance calm)
    s.log = [.issued receipt] ∧ s'.log = [.issued receipt, .claimed receipt] ∧ s'.viewers.hasLease camera = true := by
  decide +kernel

end Handoff

end CamGuard.Source
