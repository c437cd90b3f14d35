/-
A native source that has ended leaves no viewer admitted. Whoever blocks does so under
the lock, so it is never in the middle of a publication; once it is done, the session
is `Sealed`, and nothing opens it again: a publication that begins later finds the
stop flag. What a `close` that returns can say of the run is `Gone`, which is stable
as well; but it has to be true when `close` looks.
-/
import CamGuard.Lib.Trace
import CamGuard.Source.PreparedNative
import CamGuard.Source.SourcePolicyFacts
import CamGuard.Source.SourceRegistryFacts
import CamGuard.Source.ViewerGateFacts

namespace CamGuard.Source

/-! ## The registry -/

namespace SourceRegistry

variable {s : SourceRegistry}

/-- The same reservation, signalled or not. -/
def Same (e e' : SourceEntry) : Prop := e'.owner = e.owner ∧ e'.run = e.run

theorem stopped_same (s : SourceRegistry) (camera : String) (owner : Option Nat) {c : String} {e' : SourceEntry}
    (he : (s.stopped camera owner).entries.get? c = some e') : ∃ e, s.entries.get? c = some e ∧ Same e e' := by
  rcases s.stopped_cases camera owner with hsame | ⟨x, hx, -, hstop⟩
  · rw [hsame] at he
    exact ⟨e', he, rfl, rfl⟩
  · rw [hstop, Dict.get?_set] at he
    split at he
    next heq =>
      cases he
      exact ⟨x, by rw [heq]; exact hx, rfl, rfl⟩
    · exact ⟨e', he, rfl, rfl⟩

theorem modify_same {camera : String} {f : SourceEntry → SourceEntry} (hf : ∀ e, Same e (f e)) {c : String} {e' : SourceEntry}
    (he : (s.modify camera f).entries.get? c = some e') : ∃ e, s.entries.get? c = some e ∧ Same e e' := by
  rw [modify] at he
  split at he
  · exact ⟨e', he, rfl, rfl⟩
  next x hx =>
    rw [Dict.get?_set] at he
    split at he
    next heq =>
      cases he
      exact ⟨x, by rw [heq]; exact hx, hf x⟩
    · exact ⟨e', he, rfl, rfl⟩

/-- **Where an entry comes from**: it was there, or a call has just made it. -/
theorem step_origin (op : RegistryOp) {c : String} {e' : SourceEntry} (he : (s.step op).entries.get? c = some e') :
    (∃ e, s.entries.get? c = some e ∧ Same e e') ∨
      ∃ r domain owner cancelled, op = .call r c domain owner cancelled ∧ e'.owner = owner ∧ e'.run = r := by
  have hold {e : SourceEntry} (h : s.entries.get? c = some e) : ∃ e₀, s.entries.get? c = some e₀ ∧ Same e₀ e := ⟨e, h, rfl, rfl⟩
  cases op with
  | call r camera domain owner cancelled =>
    simp only [step] at he
    split at he
    · exact .inl (hold he)
    rw [reserve] at he
    split at he
    · exact .inl (hold he)
    · rw [setRun, Dict.get?_set] at he
      split at he
      next heq =>
        cases he
        exact .inr ⟨r, domain, owner, cancelled, by rw [heq], rfl, rfl⟩
      · exact .inl (hold he)
  | construct r ok =>
    left
    simp only [step] at he
    split at he
    · split at he
      · split at he
        · rw [constructed, setRun] at he
          exact modify_same (by exact fun _ => ⟨rfl, rfl⟩) he
        · exact hold he
      · exact hold he
    · exact hold he
  | leave r ok =>
    left
    simp only [step] at he
    split at he
    · split at he <;> exact hold he
    · exact hold he
  | confirm r =>
    left
    simp only [step] at he
    split at he
    · split at he
      · rw [confirm] at he
        split at he <;> exact hold he
      · exact hold he
    · exact hold he
  | finish r =>
    left
    have hfinish {run : SourceRun} {confirmed : Bool} (he : (s.finish r run confirmed).entries.get? c = some e') :
        ∃ e, s.entries.get? c = some e ∧ Same e e' := by
      have herase {x : SourceEntry} (h : (s.entries.erase run.camera).get? c = some x) : s.entries.get? c = some x := by
        rw [Dict.get?_erase] at h
        split at h
        · cases h
        · exact h
      simp only [finish, setRun] at he
      split at he
      all_goals split at he
      · exact hold (herase he)
      · exact modify_same (by exact fun _ => ⟨rfl, rfl⟩) he
      · exact hold (herase he)
      · exact modify_same (by exact fun _ => ⟨rfl, rfl⟩) he
    simp only [step] at he
    split at he
    · split at he
      · exact hfinish he
      split at he
      · exact hfinish he
      · exact hold he
    · exact hold he
  | stop camera owner => exact .inl (stopped_same s camera owner he)
  | shutdown k =>
    left
    simp only [step] at he
    split at he <;> exact hold he
  | stopNext k =>
    left
    simp only [step] at he
    split at he
    · exact stopped_same s _ none he
    · exact hold he

theorem foreign_runs {op : RegistryOp} (h : PreparedNative.foreign op = true) : (s.step op).runs 0 = s.runs 0 := by
  have hset (s : SourceRegistry) {r : Nat} (hr : r ≠ 0) (run : SourceRun) : (s.setRun r run).runs 0 = s.runs 0 :=
    Function.update_of_ne hr.symm ..
  have hfinish {r : Nat} (hr : r ≠ 0) (run : SourceRun) (confirmed : Bool) : (s.finish r run confirmed).runs 0 = s.runs 0 := by
    obtain ⟨-, point, hruns⟩ := s.finish_frame r run confirmed
    rw [hruns, Function.update_of_ne hr.symm]
  cases op with
  | call r camera domain owner cancelled =>
    have hr : r ≠ 0 := (of_decide_eq_true h).1
    simp only [step]
    split
    · rfl
    rw [reserve]
    split <;> exact hset _ hr _
  | construct r ok =>
    have hr : r ≠ 0 := of_decide_eq_true h
    simp only [step]
    split
    · split
      · split
        · rw [constructed, hset _ hr, (s.modify_frame _ _).2]
        · exact hset s hr _
      · rfl
    · rfl
  | leave r ok =>
    have hr : r ≠ 0 := of_decide_eq_true h
    simp only [step]
    split
    · split
      · exact hset s hr _
      · rfl
    · rfl
  | confirm r =>
    have hr : r ≠ 0 := of_decide_eq_true h
    simp only [step]
    split
    · split
      · rw [confirm]
        split <;> exact hset s hr _
      · rfl
    · rfl
  | finish r =>
    have hr : r ≠ 0 := of_decide_eq_true h
    simp only [step]
    split
    · split
      · exact hfinish hr ..
      split
      · exact hfinish hr ..
      · rfl
    · rfl
  | stop camera owner => exact congrFun (s.stopped_frame camera owner).2 0
  | shutdown k =>
    simp only [step]
    split <;> rfl
  | stopNext k =>
    simp only [step]
    split
    next camera rest _ => exact congrFun (s.stopped_frame camera none).2 0
    · rfl

theorem setRun_self (s : SourceRegistry) (r : Nat) (run : SourceRun) : (s.setRun r run).runs r = some run :=
  Function.update_self (f := s.runs) ..

theorem finish_runs (s : SourceRegistry) (r : Nat) (run : SourceRun) (confirmed : Bool) :
    (s.finish r run confirmed).runs r = some { run with point := .returned } ∨
      (s.finish r run confirmed).runs r = some { run with point := .raised } := by
  simp only [finish]
  split
  all_goals split
  · exact .inl (setRun_self ..)
  · exact .inr (setRun_self ..)
  · exact .inl (setRun_self ..)
  · exact .inr (setRun_self ..)

theorem finish_cases {r : Nat} {run : SourceRun} (hrun : s.runs r = some run) :
    s.step (.finish r) = s.finish r run true ∨ s.step (.finish r) = s.finish r run false ∨ s.step (.finish r) = s := by
  simp only [step, hrun]
  split
  · exact .inl rfl
  split
  · exact .inr (.inl rfl)
  · exact .inr (.inr rfl)

/-- A section of call 0 that was admitted: it is the same call, and it is over without
its entry only by `finally`. -/
theorem own_runs {run : SourceRun} (hrun : s.runs 0 = some run) (howns : run.point.Owns) {op : RegistryOp}
    (hop : (∃ ok, op = .construct 0 ok) ∨ (∃ ok, op = .leave 0 ok) ∨ op = .confirm 0 ∨ op = .finish 0) :
    ∃ run', (s.step op).runs 0 = some run' ∧ run'.camera = run.camera ∧
      (run'.point.Owns ∨ op = .finish 0 ∧ run'.point = .returned) := by
  have hset (s : SourceRegistry) {point : RunPoint} (returned : Bool)
      (hpoint : point.Owns ∨ op = .finish 0 ∧ point = .returned) :
      ∃ run', (s.setRun 0 ⟨run.camera, run.domain, point, returned⟩).runs 0 = some run' ∧ run'.camera = run.camera ∧
        (run'.point.Owns ∨ op = .finish 0 ∧ run'.point = .returned) :=
    ⟨_, setRun_self .., rfl, hpoint⟩
  have hstays : ∃ run', s.runs 0 = some run' ∧ run'.camera = run.camera ∧
      (run'.point.Owns ∨ op = .finish 0 ∧ run'.point = .returned) := ⟨run, hrun, rfl, .inl howns⟩
  rcases hop with ⟨ok, rfl⟩ | ⟨ok, rfl⟩ | rfl | rfl
  · simp only [step, hrun]
    split
    · split <;> exact hset _ _ (.inl ⟨by simp, by simp⟩)
    · exact hstays
  · simp only [step, hrun]
    split
    · refine hset _ _ (.inl ?_)
      cases ok <;> exact ⟨by simp, by simp⟩
    · exact hstays
  · simp only [step, hrun]
    split
    · rw [confirm]
      split
      · refine hset _ _ (.inl ?_)
        split <;> exact ⟨by simp, by simp⟩
      · exact hset _ _ (.inl ⟨by simp, by simp⟩)
    · exact hstays
  · have hfinish (confirmed : Bool) : ∃ run', (s.finish 0 run confirmed).runs 0 = some run' ∧ run'.camera = run.camera ∧
        (run'.point.Owns ∨ RegistryOp.finish 0 = .finish 0 ∧ run'.point = .returned) := by
      rcases finish_runs s 0 run confirmed with heq | heq
      · exact ⟨_, heq, rfl, .inr ⟨rfl, rfl⟩⟩
      · exact ⟨_, heq, rfl, .inl ⟨by simp, by simp⟩⟩
    rcases finish_cases hrun with heq | heq | heq
    · rw [heq]
      exact hfinish true
    · rw [heq]
      exact hfinish false
    · rw [heq]
      exact hstays

end SourceRegistry

/-- In front of its admission. -/
def RunStage.early : RunStage → Bool
  | .queued | .checking | .admitting => true
  | _ => false

/-- Admitted and not over. -/
def RunStage.inside : RunStage → Bool
  | .admitted | .cleared | .constructing | .running => true
  | _ => false

namespace PreparedNative

variable {s : PreparedNative}

/-- The registry and the future agree about the run. -/
structure Registered (s : PreparedNative) : Prop where
  inv : s.registry.Inv
  owner : ∀ c e, s.registry.entries.get? c = some e → (e.owner = 0 ↔ e.run = 0)
  early : s.completion.all RunStage.early = true → s.registry.runs 0 = none
  inside : s.completion.any RunStage.inside = true → ∃ run, s.registry.runs 0 = some run ∧ run.camera = s.cameraId ∧ run.point.Owns

theorem Registered.owns (h : Registered s) (hinside : s.completion.any RunStage.inside = true) : s.owns = true := by
  obtain ⟨run, hrun, hcamera, hpoint⟩ := h.inside hinside
  obtain ⟨e, hmade⟩ := h.inv.mine 0 run hrun hpoint
  have hentry := hmade.entry
  rw [hcamera] at hentry
  rw [PreparedNative.owns, hentry, Option.any_some, decide_eq_true_eq]
  exact (h.owner _ e hentry).mpr hmade.maker

theorem owner_same {before after : SourceRegistry} (h : ∀ c e, before.entries.get? c = some e → (e.owner = 0 ↔ e.run = 0))
    (hfrom : ∀ c e', after.entries.get? c = some e' → (∃ e, before.entries.get? c = some e ∧ SourceRegistry.Same e e') ∨
      (e'.owner = 0 ↔ e'.run = 0)) :
    ∀ c e, after.entries.get? c = some e → (e.owner = 0 ↔ e.run = 0) := by
  intro c e' he'
  rcases hfrom c e' he' with ⟨e, he, howner, hrun⟩ | hnew
  · rw [howner, hrun]
    exact h c e he
  · exact hnew

/-- A section of the registry that is not the admission of this run. -/
theorem Registered.section (h : Registered s) {op : SourceRegistry.RegistryOp}
    (hop : ∀ r c domain owner cancelled, op = .call r c domain owner cancelled → r ≠ 0 ∧ owner ≠ 0) :
    ∀ c e, (s.registry.step op).entries.get? c = some e → (e.owner = 0 ↔ e.run = 0) := by
  refine owner_same h.owner fun c e' he' => ?_
  rcases SourceRegistry.step_origin op he' with hold | ⟨r, domain, owner, cancelled, rfl, howner, hrun⟩
  · exact .inl hold
  · obtain ⟨hr, ho⟩ := hop r c domain owner cancelled rfl
    rw [howner, hrun]
    exact .inr ⟨fun h => absurd h ho, fun h => absurd h hr⟩

theorem Registered.own (h : Registered s) (hinside : s.completion.any RunStage.inside = true) {op : SourceRegistry.RegistryOp}
    (hop : (∃ ok, op = .construct 0 ok) ∨ (∃ ok, op = .leave 0 ok) ∨ op = .confirm 0 ∨ op = .finish 0) (stage : RunStage)
    (hstage : stage.early = false) (hpoint : stage.inside = true → op = .finish 0 → point (s.registry.step op) ≠ some .returned)
    (constructed : Bool) (stop : Bool) :
    Registered { s with registry := s.registry.step op, completion := some stage, constructed := constructed, stop := stop } := by
  obtain ⟨run, hrun, hcamera, howns⟩ := h.inside hinside
  obtain ⟨run', hrun', hcamera', hends⟩ := SourceRegistry.own_runs hrun howns hop
  refine ⟨h.inv.step op, h.section fun r c domain owner cancelled heq => ?_, fun hearly => ?_, fun hin => ?_⟩
  · rcases hop with ⟨ok, rfl⟩ | ⟨ok, rfl⟩ | rfl | rfl <;> cases heq
  · rw [Option.all_some, hstage] at hearly
    cases hearly
  · refine ⟨run', hrun', hcamera'.trans hcamera, hends.resolve_right fun hover => ?_⟩
    refine hpoint (by simpa using hin) hover.1 ?_
    rw [point, hrun', Option.map_some, hover.2]

/-- A step of the run that leaves the registry. -/
theorem Registered.moves (h : Registered s) (stage : RunStage)
    (hearly : stage.early = true → s.completion.all RunStage.early = true)
    (hinside : stage.inside = true → s.completion.any RunStage.inside = true) (constructed stop : Bool) :
    Registered { s with completion := some stage, constructed := constructed, stop := stop } :=
  ⟨h.inv, h.owner, fun hall => h.early (hearly (by simpa using hall)), fun hany => h.inside (hinside (by simpa using hany))⟩

theorem runStep_eq (s : PreparedNative) (event : RunEvent) : ∃ registry completion constructed stop,
    s.runStep event = { s with registry := registry, completion := completion, constructed := constructed, stop := stop } ∧
      (s.stop = true → stop = true) := by
  unfold PreparedNative.runStep
  split
  case h_3 valid _ =>
    split
    · exact ⟨_, _, _, _, rfl, id⟩
    split
    · exact ⟨_, _, _, _, rfl, id⟩
    · exact ⟨_, _, _, _, rfl, fun _ => rfl⟩
  case h_5 valid _ => split <;> exact ⟨_, _, _, _, rfl, id⟩
  case h_8 => split <;> first | exact ⟨_, _, _, _, rfl, fun _ => rfl⟩ | exact ⟨_, _, _, _, rfl, id⟩
  all_goals exact ⟨_, _, _, _, rfl, id⟩

/-- **The run takes a step.** -/
theorem Registered.runStep (h : Registered s) (event : RunEvent) : Registered (s.runStep event) := by
  unfold PreparedNative.runStep
  split
  next hstage => exact h.moves .checking (fun _ => by rw [hstage]; rfl) (fun h => by cases h) _ _
  next hstage => exact h.moves .cancelled (fun h => by cases h) (fun h => by cases h) _ _
  next valid hstage =>
    split
    · exact h.moves (.ended true) (fun h => by cases h) (fun h => by cases h) _ _
    split
    · exact h.moves .admitting (fun _ => by rw [hstage]; rfl) (fun h => by cases h) _ _
    · exact h.moves (.ended true) (fun h => by cases h) (fun h => by cases h) _ _
  next hstage =>
    have hnone : s.registry.runs 0 = none := h.early (by rw [hstage]; rfl)
    refine ⟨h.inv.step (.call 0 s.cameraId s.domain 0 false), ?_, fun hall => ?_, fun hany => ?_⟩
    · refine owner_same h.owner fun c e' he' => ?_
      rcases SourceRegistry.step_origin _ he' with hold | ⟨r, domain, owner, cancelled, heq, howner, hrun⟩
      · exact .inl hold
      · cases heq
        rw [howner, hrun]
        exact .inr Iff.rfl
    · simp only at hall
      split at hall <;> cases hall
    · simp only at hany
      split at hany
      next hpoint =>
        rw [point, Option.map_eq_some_iff] at hpoint
        obtain ⟨run, hrun, hpoint⟩ := hpoint
        refine ⟨run, hrun, ?_, by rw [hpoint]; exact ⟨by simp, by simp⟩⟩
        simp only [SourceRegistry.step, hnone, Option.isSome_none, Bool.false_eq_true, if_false, SourceRegistry.reserve] at hrun
        split at hrun <;> (rw [SourceRegistry.setRun_self] at hrun; cases hrun; rfl)
      · cases hany
  next valid hstage =>
    have hin : s.completion.any RunStage.inside = true := by rw [hstage]; rfl
    split
    · exact h.own hin (.inl ⟨false, rfl⟩) .running rfl (fun _ => by simp) _ _
    · exact h.moves .cleared (fun h => by cases h) (fun _ => hin) _ _
  next hstage => exact h.moves .constructing (fun h => by cases h) (fun _ => by rw [hstage]; rfl) _ _
  next ok hstage => exact h.own (by rw [hstage]; rfl) (.inl ⟨ok, rfl⟩) .running rfl (fun _ => by simp) _ _
  next hstage =>
    split
    · have hmoves := h.moves .running (fun h => by cases h) (fun _ => by rw [hstage]; rfl) s.constructed true
      rw [← hstage] at hmoves
      exact hmoves
    · exact h
  next ok hstage =>
    have hown := h.own (by rw [hstage]; rfl) (.inr (.inl ⟨ok, rfl⟩)) .running rfl (fun _ => by simp) s.constructed s.stop
    rw [← hstage] at hown
    exact hown
  next hstage =>
    have hown := h.own (by rw [hstage]; rfl) (.inr (.inr (.inl rfl))) .running rfl (fun _ => by simp) s.constructed s.stop
    rw [← hstage] at hown
    exact hown
  next hstage =>
    have hown := h.own (by rw [hstage]; rfl) (.inr (.inr (.inr rfl)))
    simp only
    split
    · exact hown (.ended false) rfl (fun h => by cases h) _ _
    · exact hown (.ended true) rfl (fun h => by cases h) _ _
    next hreturned _ => exact hown .running rfl (fun _ _ => hreturned) _ _
  next failed hstage => exact h.moves (.done failed) (fun h => by cases h) (fun h => by cases h) _ _
  · exact h

/-! ## Frames -/

/-- What the holder of the lock leaves alone. -/
structure LockFrame (s s' : PreparedNative) : Prop where
  cameraId : s'.cameraId = s.cameraId
  registry : s'.registry = s.registry
  completion : s'.completion = s.completion
  constructed : s'.constructed = s.constructed
  closed : s'.closed = s.closed
  stop : s.stop = true → s'.stop = true

theorem holdViewers_eq (s : PreparedNative) : ∃ viewers, s.holdViewers = { s with viewers := viewers } := by
  unfold holdViewers
  split <;> exact ⟨_, rfl⟩

theorem blockPolicy_eq (s : PreparedNative) : ∃ selection db, s.blockPolicy = { s with selection := selection, db := db } := by
  unfold blockPolicy
  split
  · split <;> exact ⟨_, _, rfl⟩
  · exact ⟨_, _, rfl⟩

theorem lockStep_frame (s : PreparedNative) (env : LockEnv) : LockFrame s (s.lockStep env) := by
  obtain ⟨viewers, hviewers⟩ := s.holdViewers_eq
  obtain ⟨selection, db, hpolicy⟩ := s.blockPolicy_eq
  unfold lockStep
  split
  · exact ⟨rfl, rfl, rfl, rfl, rfl, id⟩
  next point _ =>
    cases point <;> simp only [publishStep] <;> (try split) <;> exact ⟨rfl, rfl, rfl, rfl, rfl, id⟩
  next point _ =>
    cases point with
    | closed =>
      simp only [endedStep]
      split <;> exact ⟨rfl, rfl, rfl, rfl, rfl, id⟩
    | stop => exact ⟨rfl, rfl, rfl, rfl, rfl, fun _ => rfl⟩
    | hold =>
      rw [endedStep, hviewers]
      exact ⟨rfl, rfl, rfl, rfl, rfl, id⟩
    | policy =>
      rw [endedStep, hpolicy]
      exact ⟨rfl, rfl, rfl, rfl, rfl, id⟩
  next point _ =>
    cases point with
    | closed =>
      simp only [closeLocked]
      split <;> exact ⟨rfl, rfl, rfl, rfl, rfl, id⟩
    | stop => exact ⟨rfl, rfl, rfl, rfl, rfl, fun _ => rfl⟩
    | hold =>
      rw [closeLocked, hviewers]
      exact ⟨rfl, rfl, rfl, rfl, rfl, id⟩
    | policy =>
      rw [closeLocked, hpolicy]
      exact ⟨rfl, rfl, rfl, rfl, rfl, id⟩

/-- What the sections of `close` touch outside the lock. -/
theorem closeStep_eq (s : PreparedNative) (expired : Bool) : ∃ viewers registry closed holder closer log,
    s.closeStep expired =
      { s with viewers := viewers, registry := registry, closed := closed, holder := holder, closer := closer, log := log } ∧
      (registry = s.registry ∨ registry = s.registry.stopped s.cameraId (some 0)) ∧
      (holder = s.holder ∨ s.holder = none ∧ holder = some (.close .closed)) := by
  unfold closeStep
  split
  · split
    next hfree => exact ⟨_, _, _, _, _, _, rfl, .inl rfl, .inr ⟨hfree, rfl⟩⟩
    · exact ⟨_, _, _, _, _, _, rfl, .inl rfl, .inl rfl⟩
  · split
    · exact ⟨_, _, _, _, _, _, rfl, .inl rfl, .inl rfl⟩
    · exact ⟨_, _, _, _, _, _, rfl, .inr rfl, .inl rfl⟩
  · split
    · exact ⟨_, _, _, _, _, _, rfl, .inl rfl, .inl rfl⟩
    · exact ⟨_, _, _, _, _, _, rfl, .inl rfl, .inl rfl⟩
    · exact ⟨_, _, _, _, _, _, rfl, .inl rfl, .inl rfl⟩
    · split <;> exact ⟨_, _, _, _, _, _, rfl, .inl rfl, .inl rfl⟩
  · exact ⟨_, _, _, _, _, _, rfl, .inl rfl, .inl rfl⟩
  · exact ⟨_, _, _, _, _, _, rfl, .inl rfl, .inl rfl⟩
  · exact ⟨_, _, _, _, _, _, rfl, .inl rfl, .inl rfl⟩
  · exact ⟨_, _, _, _, _, _, rfl, .inl rfl, .inl rfl⟩
  · split <;> exact ⟨_, _, _, _, _, _, rfl, .inl rfl, .inl rfl⟩
  · exact ⟨_, _, _, _, _, _, rfl, .inl rfl, .inl rfl⟩
  · exact ⟨_, _, _, _, _, _, rfl, .inl rfl, .inl rfl⟩

theorem step_cameraId (s : PreparedNative) (e : NativeEvent) : (s.step e).cameraId = s.cameraId := by
  cases e with
  | run event =>
    obtain ⟨registry, completion, constructed, stop, heq, -⟩ := s.runStep_eq event
    rw [step, heq]
  | locked env => exact (s.lockStep_frame env).cameraId
  | closing expired =>
    obtain ⟨viewers, registry, closed, holder, closer, log, heq, -⟩ := s.closeStep_eq expired
    rw [step, heq]
  | giveUp =>
    rw [step, giveUp]
    split <;> rfl
  | _ =>
    simp only [step]
    try split
    all_goals rfl

theorem step_stop (s : PreparedNative) (e : NativeEvent) (h : s.stop = true) : (s.step e).stop = true := by
  cases e with
  | run event =>
    obtain ⟨registry, completion, constructed, stop, heq, hstop⟩ := s.runStep_eq event
    rw [step, heq]
    exact hstop h
  | locked env => exact (s.lockStep_frame env).stop h
  | closing expired =>
    obtain ⟨viewers, registry, closed, holder, closer, log, heq, -⟩ := s.closeStep_eq expired
    rw [step, heq]
    exact h
  | giveUp =>
    rw [step, giveUp]
    split <;> exact h
  | _ =>
    simp only [step]
    try split
    all_goals first | exact h | rfl

theorem Registered.of_frame {s' : PreparedNative} (h : Registered s) (hcamera : s'.cameraId = s.cameraId)
    (hregistry : s'.registry = s.registry) (hcompletion : s'.completion = s.completion) : Registered s' := by
  refine ⟨?_, ?_, ?_, ?_⟩
  · rw [hregistry]
    exact h.inv
  · rw [hregistry]
    exact h.owner
  · rw [hregistry, hcompletion]
    exact h.early
  · rw [hregistry, hcompletion, hcamera]
    exact h.inside

/-- **The registry and the future agree, whoever moves.** -/
theorem Registered.step (h : Registered s) (e : NativeEvent) : Registered (s.step e) := by
  cases e with
  | launch accepted =>
    simp only [PreparedNative.step]
    split
    · exact h
    next hfree =>
      have hnone : s.completion = none := by
        simp only [not_or, Bool.not_eq_true, Option.isSome_eq_false_iff, Option.isNone_iff_eq_none] at hfree
        exact hfree.2.2.1
      exact h.moves .queued (fun _ => by rw [hnone]; rfl) nofun _ _
  | run event => exact h.runStep event
  | locked env =>
    have hframe := s.lockStep_frame env
    exact h.of_frame hframe.cameraId hframe.registry hframe.completion
  | closing expired =>
    obtain ⟨viewers, registry, closed, holder, closer, log, heq, hregistry, -⟩ := s.closeStep_eq expired
    rw [PreparedNative.step, heq]
    rcases hregistry with rfl | rfl
    · exact h.of_frame rfl rfl rfl
    · have hruns := congrFun (s.registry.stopped_frame s.cameraId (some 0)).2 0
      refine ⟨h.inv.stopped s.cameraId (some 0), owner_same h.owner fun c e' he' => .inl (SourceRegistry.stopped_same _ _ _ he'),
        fun hall => ?_, fun hany => ?_⟩
      · exact hruns.trans (h.early hall)
      · obtain ⟨run, hrun, hrest⟩ := h.inside hany
        exact ⟨run, hruns.trans hrun, hrest⟩
  | registry op =>
    simp only [PreparedNative.step]
    split
    next hforeign =>
      have hruns := SourceRegistry.foreign_runs (s := s.registry) hforeign
      refine ⟨h.inv.step op, h.section fun r c domain owner cancelled heq => ?_, fun hall => ?_, fun hany => ?_⟩
      · subst heq
        exact of_decide_eq_true hforeign
      · exact hruns.trans (h.early hall)
      · obtain ⟨run, hrun, hrest⟩ := h.inside hany
        exact ⟨run, hruns.trans hrun, hrest⟩
    · exact h
  | giveUp =>
    rw [PreparedNative.step, PreparedNative.giveUp]
    split
    · exact h
    · exact h.of_frame rfl rfl rfl
  | _ =>
    simp only [PreparedNative.step]
    try split
    all_goals exact h.of_frame rfl rfl rfl

/-! ## The policy -/

/-- The camera's row is the session's selection, and its revision was counted up from
where it began. -/
structure Stored (p : Prepared) (db : PolicyDb) (selection : Selection) : Prop where
  configured : db.cameras p.cameraId = true
  row : db.policy p.cameraId = some selection.row
  range : 1 ≤ selection.revision ∧ selection.revision ≤ MAX_REVISION
  transition : selection.phase = .transition → selection.revision = p.revision
  active : selection.phase = .active → selection.revision = p.revision + 1 ∧ p.revision < MAX_REVISION

variable {p : Prepared}

theorem Stored.readFor {db : PolicyDb} {selection : Selection} (h : Stored p db selection) :
    db.readFor p.cameraId = selection := by
  rw [PolicyDb.readFor, h.row, selection_row h.range]

theorem Stored.changed {db db' : PolicyDb} {selection result : Selection} (h : Stored p db selection) {phase : Phase}
    (hphase : phase = .active ∨ phase = .blocked) (hok : db.change p.cameraId selection.revision phase none = .ok (result, db')) :
    Stored p db' result ∧ selection.phase ∈ PolicyDb.required phase ∧ result.phase = phase := by
  obtain ⟨hcamera, hold, hrequired, hresult, hrevision, hrange, rfl⟩ := PolicyDb.change_ok hok
  rw [h.readFor] at hrequired
  have hrow : Function.update db.policy p.cameraId (some result.row) p.cameraId = some result.row := Function.update_self ..
  refine ⟨⟨hcamera, hrow, hrange, ?_, ?_⟩, hrequired, hresult⟩
  · rw [hresult]
    rintro rfl
    rcases hphase with hphase | hphase <;> cases hphase
  · rw [hresult]
    rintro rfl
    have hbefore : selection.phase = .transition := by simpa [PolicyDb.required] using hrequired
    have hrev := h.transition hbefore
    exact ⟨by omega, by omega⟩

/-- A row changes as its phase allows, if its revision can be counted up once more. -/
theorem Stored.change_ok {db : PolicyDb} {selection : Selection} (h : Stored p db selection) {phase : Phase}
    (hphase : selection.phase ∈ PolicyDb.required phase) (hrevision : selection.revision < MAX_REVISION) :
    ∃ result db', db.change p.cameraId selection.revision phase none = .ok (result, db') := by
  have hread : Source.selection (db.policy p.cameraId) = selection := h.readFor
  have hrange := h.range
  simp only [PolicyDb.change, p.valid, h.configured, hread]
  rw [if_neg (by decide), if_neg (by omega), if_neg (by decide), if_neg]
  · exact ⟨_, _, rfl⟩
  · rw [not_or, not_not, not_not]
    exact ⟨rfl, hphase⟩

theorem Stored.blockPolicy (h : Stored p s.db s.selection) (hcamera : s.cameraId = p.cameraId) :
    Stored p s.blockPolicy.db s.blockPolicy.selection ∧
      (s.selection.phase ≠ .active → s.blockPolicy.selection.phase ≠ .active) ∧
      (p.revision ≠ MAX_REVISION - 1 → s.blockPolicy.selection.phase ≠ .active) := by
  unfold PreparedNative.blockPolicy
  rw [hcamera]
  split
  next hopen =>
    split
    next fault herror =>
      refine ⟨h, id, fun hrevision hactive => ?_⟩
      obtain ⟨hrev, hlt⟩ := h.active hactive
      have hrequired : s.selection.phase ∈ PolicyDb.required .blocked := by
        rw [hactive]
        decide
      obtain ⟨result, db', hok⟩ := h.change_ok hrequired (by omega)
      rw [PolicyDb.block, hok] at herror
      cases herror
    next result db' hok =>
      obtain ⟨hstored, -, hphase⟩ := h.changed (.inr rfl) hok
      have hne : result.phase ≠ .active := by
        rw [hphase]
        exact nofun
      exact ⟨hstored, fun _ => hne, fun _ => hne⟩
  next hblocked =>
    rw [not_not] at hblocked
    have hne : s.selection.phase ≠ .active := by
      rw [hblocked]
      exact nofun
    exact ⟨h, id, fun _ => hne⟩

/-- Who changes the policy: a publication, or who blocks. -/
theorem lockStep_policy (s : PreparedNative) (env : LockEnv) :
    ((s.lockStep env).db = s.db ∧ (s.lockStep env).selection = s.selection) ∨
      (s.holder = some (.publish .activate) ∧ s.db.activate s.cameraId s.selection.revision =
        .ok ((s.lockStep env).selection, (s.lockStep env).db) ∧ (s.lockStep env).holder = some (.publish .routes) ∧
        (s.lockStep env).log = s.log) ∨
      ((s.holder = some (.ended .policy) ∨ s.holder = some (.close .policy)) ∧ (s.lockStep env).db = s.blockPolicy.db ∧
        (s.lockStep env).selection = s.blockPolicy.selection) := by
  obtain ⟨viewers, hviewers⟩ := s.holdViewers_eq
  unfold lockStep
  split
  · exact .inl ⟨rfl, rfl⟩
  next point hholder =>
    cases point with
    | activate =>
      rw [publishStep]
      split
      · exact .inl ⟨rfl, rfl⟩
      next selection db hok => exact .inr (.inl ⟨hholder, hok, rfl, rfl⟩)
    | _ =>
      rw [publishStep]
      try split
      all_goals exact .inl ⟨rfl, rfl⟩
  next point hholder =>
    cases point with
    | closed =>
      rw [endedStep]
      split <;> exact .inl ⟨rfl, rfl⟩
    | stop => exact .inl ⟨rfl, rfl⟩
    | hold =>
      rw [endedStep, hviewers]
      exact .inl ⟨rfl, rfl⟩
    | policy => exact .inr (.inr ⟨.inl hholder, rfl, rfl⟩)
  next point hholder =>
    cases point with
    | closed =>
      rw [closeLocked]
      split <;> exact .inl ⟨rfl, rfl⟩
    | stop => exact .inl ⟨rfl, rfl⟩
    | hold =>
      rw [closeLocked, hviewers]
      exact .inl ⟨rfl, rfl⟩
    | policy => exact .inr (.inr ⟨.inr hholder, rfl, rfl⟩)

theorem step_policy (s : PreparedNative) {e : NativeEvent} (h : ∀ env, e ≠ .locked env) :
    (s.step e).db = s.db ∧ (s.step e).selection = s.selection := by
  cases e with
  | locked env => exact absurd rfl (h env)
  | run event =>
    obtain ⟨registry, completion, constructed, stop, heq, -⟩ := s.runStep_eq event
    rw [step, heq]
    exact ⟨rfl, rfl⟩
  | closing expired =>
    obtain ⟨viewers, registry, closed, holder, closer, log, heq, -⟩ := s.closeStep_eq expired
    rw [step, heq]
    exact ⟨rfl, rfl⟩
  | giveUp =>
    rw [step, giveUp]
    split <;> exact ⟨rfl, rfl⟩
  | _ =>
    rw [step]
    try split
    all_goals exact ⟨rfl, rfl⟩

theorem Stored.step (h : Stored p s.db s.selection) (hcamera : s.cameraId = p.cameraId) (e : NativeEvent) :
    Stored p (s.step e).db (s.step e).selection := by
  by_cases hlocked : ∃ env, e = .locked env
  · obtain ⟨env, rfl⟩ := hlocked
    rw [PreparedNative.step]
    rcases s.lockStep_policy env with ⟨hdb, hselection⟩ | ⟨-, hok, -⟩ | ⟨-, hdb, hselection⟩
    · rw [hdb, hselection]
      exact h
    · rw [hcamera] at hok
      exact (h.changed (.inl rfl) hok).1
    · rw [hdb, hselection]
      exact (h.blockPolicy hcamera).1
  · obtain ⟨hdb, hselection⟩ := s.step_policy fun env heq => hlocked ⟨env, heq⟩
    rw [hdb, hselection]
    exact h

/-! ## The gate -/

/-- How many others are held is no matter of this camera's hold. -/
theorem othersHeld_congr {g g' : ViewerGate} {cameraId : String} (h : ViewerGate.Only cameraId g g') :
    othersHeld g' cameraId = othersHeld g cameraId := by
  have hsize : (g'.holds.erase cameraId).size = (g.holds.erase cameraId).keys.length :=
    Dict.size_eq_length (Dict.nodup _) fun k => ?_
  · exact hsize.trans (List.length_map ..)
  rw [← Dict.get?_eq_none, Dict.get?_erase, Dict.get?_erase]
  split
  · rfl
  next hne => rw [h k hne]

theorem room_hold {g : ViewerGate} {cameraId : String} (h : othersHeld g cameraId < MAX_VIEWER_HOLDS) :
    g.holds.contains cameraId = true ∨ g.holds.size < MAX_VIEWER_HOLDS := by
  cases hget : g.holds.get? cameraId with
  | some held =>
    left
    rw [Dict.contains, hget]
    rfl
  | none =>
    right
    have hsame : g.holds.erase cameraId = g.holds := by
      refine Dict.ext (List.filter_eq_self.mpr fun e he => ?_)
      have hkey : cameraId ∉ g.holds.keys := Dict.get?_eq_none.mp hget
      have hne : e.1 ≠ cameraId := by
        intro heq
        exact hkey (by rw [← heq]; exact List.mem_map_of_mem he)
      simpa using hne
    rwa [othersHeld, hsame] at h

/-- What a section does to the hold and the leases of this camera, and to the room for
its hold; `opens` is whether it may let viewers in. -/
structure AtGate (cameraId : String) (opens : Prop) (g g' : ViewerGate) : Prop where
  room : othersHeld g cameraId < MAX_VIEWER_HOLDS → othersHeld g' cameraId < MAX_VIEWER_HOLDS
  held : ¬ opens → g.holds.contains cameraId = true → g'.holds.contains cameraId = true
  shut : ¬ opens → g.Shut cameraId → g'.Shut cameraId

theorem AtGate.refl (cameraId : String) (opens : Prop) (g : ViewerGate) : AtGate cameraId opens g g :=
  ⟨id, fun _ => id, fun _ => id⟩

theorem AtGate.of_section {cameraId : String} {opens : Prop} {g g' : ViewerGate} (honly : ViewerGate.Only cameraId g g')
    (hheld : ¬ opens → g.holds.contains cameraId = true → g'.holds.contains cameraId = true)
    (hsection : ViewerGate.Section (fun _ => opens) g g') : AtGate cameraId opens g g' :=
  ⟨fun h => by rwa [othersHeld_congr honly], hheld, fun hopens hshut => hsection.shut_after hshut hopens⟩

theorem holdViewers_gate (s : PreparedNative) (opens : Prop) : AtGate s.cameraId opens s.viewers s.holdViewers.viewers := by
  unfold holdViewers
  split
  · exact .refl ..
  next viewers hok =>
    exact .of_section (ViewerGate.hold_only hok) (fun _ _ => ViewerGate.hold_contains hok) (ViewerGate.hold_section hok)

/-- **Only a publication lets viewers in.** -/
theorem lockStep_gate (s : PreparedNative) (env : LockEnv) :
    AtGate s.cameraId (s.holder = some (.publish .resume)) s.viewers (s.lockStep env).viewers := by
  obtain ⟨selection, db, hpolicy⟩ := s.blockPolicy_eq
  unfold lockStep
  split
  · exact .refl ..
  next point hholder =>
    cases point with
    | resume =>
      rw [publishStep]
      split
      · exact .refl ..
      next viewers hok =>
        exact ⟨fun h => by rwa [othersHeld_congr (ViewerGate.resume_only hok)], fun hnot => absurd hholder hnot,
          fun hnot => absurd hholder hnot⟩
    | _ =>
      rw [publishStep]
      try split
      all_goals exact .refl ..
  next point hholder =>
    cases point with
    | closed =>
      rw [endedStep]
      split <;> exact .refl ..
    | stop => exact .refl ..
    | hold => exact s.holdViewers_gate _
    | policy =>
      rw [endedStep, hpolicy]
      exact .refl ..
  next point hholder =>
    cases point with
    | closed =>
      rw [closeLocked]
      split <;> exact .refl ..
    | stop => exact .refl ..
    | hold => exact s.holdViewers_gate _
    | policy =>
      rw [closeLocked, hpolicy]
      exact .refl ..

theorem closeStep_gate (s : PreparedNative) (expired : Bool) (opens : Prop) :
    AtGate s.cameraId opens s.viewers (s.closeStep expired).viewers := by
  unfold closeStep
  split
  case h_6 =>
    exact .of_section (ViewerGate.suspend_only _ _ _ _) (fun _ h => ViewerGate.suspend_contains h ..) (ViewerGate.suspend_section ..)
  case h_7 =>
    exact .of_section (ViewerGate.drainTurn_only _ _ _) (fun _ h => ViewerGate.drainTurn_contains h ..) (ViewerGate.drainTurn_section ..)
  case h_3 => split <;> (try split) <;> exact .refl ..
  all_goals
    try split
    all_goals exact .refl ..

theorem step_gate (s : PreparedNative) (e : NativeEvent) :
    AtGate s.cameraId (s.holder = some (.publish .resume) ∧ ∃ env, e = .locked env) s.viewers (s.step e).viewers := by
  cases e with
  | locked env =>
    have hgate := s.lockStep_gate env
    exact ⟨hgate.room, fun h => hgate.held fun hresume => h ⟨hresume, env, rfl⟩,
      fun h => hgate.shut fun hresume => h ⟨hresume, env, rfl⟩⟩
  | closing expired => exact s.closeStep_gate expired _
  | run event =>
    obtain ⟨registry, completion, constructed, stop, heq, -⟩ := s.runStep_eq event
    rw [step, heq]
    exact .refl ..
  | giveUp =>
    rw [step, giveUp]
    split <;> exact .refl ..
  | viewer =>
    rw [step]
    split
    · exact .refl ..
    next lease viewers hok =>
      have hholds := ViewerGate.admit_holds hok
      refine .of_section (fun _ _ => by rw [hholds]) (fun _ h => by rw [hholds]; exact h) (ViewerGate.admit_section hok)
  | release id => exact .of_section (fun _ _ => rfl) (fun _ h => h) (ViewerGate.release_section id)
  | gate viewers =>
    rw [step]
    split
    next helsewhere =>
      rw [elsewhere, Bool.and_eq_true, Bool.and_eq_true, decide_eq_true_eq, decide_eq_true_eq, decide_eq_true_eq] at helsewhere
      obtain ⟨⟨hhold, hlease⟩, hroom⟩ := helsewhere
      refine ⟨fun _ => hroom, fun _ h => ?_, fun _ h => ?_⟩
      · rw [Dict.contains, hhold]
        exact h
      · exact ⟨hhold.trans h.1, hlease.trans h.2⟩
    · exact .refl ..
  | _ =>
    rw [step]
    try split
    all_goals exact .refl ..

/-! ## The lock -/

/-- The lock is taken when it is free, and then only its holder moves on. -/
theorem step_holder (s : PreparedNative) {e : NativeEvent} (h : ∀ env, e ≠ .locked env) :
    (s.step e).holder = s.holder ∨ s.holder = none ∧ ((s.step e).holder = some (.publish .first) ∨
      (s.step e).holder = some (.ended .closed) ∨ (s.step e).holder = some (.close .closed)) := by
  cases e with
  | locked env => exact absurd rfl (h env)
  | run event =>
    obtain ⟨registry, completion, constructed, stop, heq, -⟩ := s.runStep_eq event
    rw [step, heq]
    exact .inl rfl
  | ended =>
    rw [step]
    split
    next hfree => exact .inr ⟨hfree.2.2, .inr (.inl rfl)⟩
    · exact .inl rfl
  | publish =>
    rw [step]
    split
    next hfree => exact .inr ⟨hfree, .inl rfl⟩
    · exact .inl rfl
  | closing expired =>
    obtain ⟨viewers, registry, closed, holder, closer, log, heq, -, hholder⟩ := s.closeStep_eq expired
    rw [step, heq]
    rcases hholder with hsame | ⟨hfree, hclose⟩
    · exact .inl hsame
    · exact .inr ⟨hfree, .inr (.inr hclose)⟩
  | giveUp =>
    rw [step, giveUp]
    split <;> exact .inl rfl
  | _ =>
    rw [step]
    try split
    all_goals exact .inl rfl

theorem publishStep_holder (s : PreparedNative) (env : LockEnv) (point : PublishPoint) :
    (s.publishStep env point).holder = none ∨ ∃ next, (s.publishStep env point).holder = some (.publish next) := by
  cases point with
  | first =>
    rw [publishStep]
    split
    · exact .inl rfl
    · exact .inr ⟨_, rfl⟩
  | activate =>
    rw [publishStep]
    split
    · exact .inl rfl
    · exact .inr ⟨_, rfl⟩
  | resume =>
    rw [publishStep]
    split
    · exact .inl rfl
    · exact .inr ⟨_, rfl⟩
  | mark => exact .inl rfl
  | _ =>
    simp only [publishStep]
    split
    all_goals simp

/-- What who blocks has done so far. -/
structure Blocking (s : PreparedNative) : Prop where
  stopped : ∀ point, s.holder = some (.ended point) ∨ s.holder = some (.close point) → point = .hold ∨ point = .policy → s.stop = true
  held : s.holder = some (.ended .policy) ∨ s.holder = some (.close .policy) → s.viewers.holds.contains s.cameraId = true

theorem holdViewers_held (hcamera : s.cameraId = p.cameraId) (hroom : othersHeld s.viewers s.cameraId < MAX_VIEWER_HOLDS) :
    s.holdViewers.viewers.holds.contains s.cameraId = true := by
  obtain ⟨viewers, hok⟩ := ViewerGate.hold_ok (by rw [hcamera]; exact p.valid) (room_hold hroom)
  unfold holdViewers
  rw [hok]
  exact ViewerGate.hold_contains hok

theorem Blocking.step (h : Blocking s) (hcamera : s.cameraId = p.cameraId)
    (hroom : othersHeld s.viewers s.cameraId < MAX_VIEWER_HOLDS) (e : NativeEvent) : Blocking (s.step e) := by
  by_cases hlocked : ∃ env, e = .locked env
  · obtain ⟨env, rfl⟩ := hlocked
    have hheld := holdViewers_held hcamera hroom
    obtain ⟨viewers, hviewers⟩ := s.holdViewers_eq
    obtain ⟨selection, db, hpolicy⟩ := s.blockPolicy_eq
    have hnone {s' : PreparedNative} (hnot : ∀ point, s'.holder ≠ some (.ended point) ∧ s'.holder ≠ some (.close point)) : Blocking s' :=
      ⟨fun point hholder => absurd hholder (not_or.mpr (hnot point)), fun hholder => absurd hholder (not_or.mpr (hnot .policy))⟩
    rw [PreparedNative.step]
    unfold lockStep
    split
    · exact h
    next point hholder =>
      rcases s.publishStep_holder env point with hfree | ⟨next, hnext⟩
      · exact hnone fun _ => by rw [hfree]; simp
      · exact hnone fun _ => by rw [hnext]; simp
    next point hholder =>
      cases point with
      | closed =>
        rw [endedStep]
        split
        · exact hnone fun _ => by simp
        · exact ⟨by simp, by simp⟩
      | stop => exact ⟨fun _ _ _ => rfl, by simp [endedStep]⟩
      | hold =>
        have hstop := h.stopped .hold (.inl hholder) (.inl rfl)
        rw [endedStep]
        rw [hviewers] at hheld ⊢
        exact ⟨fun _ _ _ => hstop, fun _ => hheld⟩
      | policy =>
        rw [endedStep, hpolicy]
        exact hnone fun _ => by simp
    next point hholder =>
      cases point with
      | closed =>
        rw [closeLocked]
        split
        · exact hnone fun _ => by simp
        · exact ⟨by simp, by simp⟩
      | stop => exact ⟨fun _ _ _ => rfl, by simp [closeLocked]⟩
      | hold =>
        have hstop := h.stopped .hold (.inr hholder) (.inl rfl)
        rw [closeLocked]
        rw [hviewers] at hheld ⊢
        exact ⟨fun _ _ _ => hstop, fun _ => hheld⟩
      | policy =>
        rw [closeLocked, hpolicy]
        exact hnone fun _ => by simp
  · have hnot : ∀ env, e ≠ .locked env := fun env heq => hlocked ⟨env, heq⟩
    rcases s.step_holder hnot with hsame | ⟨-, hnew⟩
    · refine ⟨fun point hholder hpoint => ?_, fun hholder => ?_⟩
      · rw [hsame] at hholder
        exact s.step_stop e (h.stopped point hholder hpoint)
      · rw [hsame] at hholder
        rw [s.step_cameraId]
        refine (s.step_gate e).held (fun hopens => ?_) (h.held hholder)
        exact hlocked hopens.2
    · refine ⟨fun point hholder hpoint => ?_, fun hholder => ?_⟩
      · rcases hnew with hnew | hnew | hnew <;> rw [hnew] at hholder <;> rcases hpoint with rfl | rfl <;>
          rcases hholder with hholder | hholder <;> cases hholder
      · rcases hnew with hnew | hnew | hnew <;> rw [hnew] at hholder <;> rcases hholder with hholder | hholder <;> cases hholder

/-! ## Sealed sessions -/

/-- Told to stop, with its viewers held, and no publication under way that has looked at
the stop flag. -/
structure Sealed (s : PreparedNative) : Prop where
  stop : s.stop = true
  held : s.viewers.holds.contains s.cameraId = true
  holder : ∀ point, s.holder = some (.publish point) → point = .first

/-- **What is sealed stays sealed.** -/
theorem Sealed.step (h : Sealed s) (e : NativeEvent) : Sealed (s.step e) := by
  have hresume : ¬ (s.holder = some (.publish .resume) ∧ ∃ env, e = .locked env) := by
    rintro ⟨hholder, -⟩
    cases h.holder .resume hholder
  have hheld : (s.step e).viewers.holds.contains (s.step e).cameraId = true := by
    rw [s.step_cameraId]
    exact (s.step_gate e).held hresume h.held
  by_cases hlocked : ∃ env, e = .locked env
  · obtain ⟨env, rfl⟩ := hlocked
    refine ⟨s.step_stop _ h.stop, hheld, fun point hpoint => ?_⟩
    -- a publication finds the stop flag first
    have hholder : ∀ point, (s.lockStep env).holder ≠ some (.publish point) := by
      obtain ⟨viewers, hviewers⟩ := s.holdViewers_eq
      obtain ⟨selection, db, hpolicy⟩ := s.blockPolicy_eq
      intro point
      unfold lockStep
      split
      next hfree =>
        rw [hfree]
        exact nofun
      next other hother =>
        obtain rfl := h.holder other hother
        rw [publishStep, if_pos (.inr (.inr (.inl h.stop)))]
        exact nofun
      next other hother =>
        cases other with
        | closed =>
          rw [endedStep]
          split <;> exact nofun
        | stop => exact nofun
        | hold => exact nofun
        | policy => exact nofun
      next other hother =>
        cases other with
        | closed =>
          rw [closeLocked]
          split <;> exact nofun
        | stop => exact nofun
        | hold => exact nofun
        | policy => exact nofun
    exact absurd hpoint (hholder point)
  · have hnot : ∀ env, e ≠ .locked env := fun env heq => hlocked ⟨env, heq⟩
    refine ⟨s.step_stop e h.stop, hheld, fun point hpoint => ?_⟩
    rcases s.step_holder hnot with hsame | ⟨-, hnew⟩
    · rw [hsame] at hpoint
      exact h.holder point hpoint
    · rcases hnew with hnew | hnew | hnew <;> rw [hnew] at hpoint <;> cases hpoint
      rfl

theorem Sealed.inactive (h : Sealed s) (hcamera : s.cameraId = p.cameraId) (hstored : Stored p s.db s.selection)
    (hphase : s.selection.phase ≠ .active) (e : NativeEvent) : (s.step e).selection.phase ≠ .active := by
  by_cases hlocked : ∃ env, e = .locked env
  · obtain ⟨env, rfl⟩ := hlocked
    rw [PreparedNative.step]
    rcases s.lockStep_policy env with ⟨-, hselection⟩ | ⟨hholder, -⟩ | ⟨-, -, hselection⟩
    · rwa [hselection]
    · cases h.holder .activate hholder
    · rw [hselection]
      exact (hstored.blockPolicy hcamera).2.1 hphase
  · rwa [(s.step_policy fun env heq => hlocked ⟨env, heq⟩).2]

/-- Behind the section of `close` that blocks. -/
def ClosePoint.blocked : ClosePoint → Bool
  | .entering | .blocking => false
  | _ => true

/-- Somebody has blocked the session. -/
def Settled (s : PreparedNative) : Prop :=
  s.callback = .returned ∨ s.closed = true ∨ s.closer.any ClosePoint.blocked = true

/-- **Who settles it**: a holder of the lock that has just blocked. -/
theorem settled_step (s : PreparedNative) {e : NativeEvent} (h : Settled (s.step e)) :
    Settled s ∨ (∃ env, e = .locked env) ∧ (s.holder = some (.ended .policy) ∨ s.holder = some (.close .policy)) ∧
      (s.step e).holder = none := by
  cases e with
  | locked env =>
    obtain ⟨viewers, hviewers⟩ := s.holdViewers_eq
    obtain ⟨selection, db, hpolicy⟩ := s.blockPolicy_eq
    rw [step] at h ⊢
    unfold lockStep at h ⊢
    split at h
    · exact .inl h
    next point hholder =>
      left
      cases point <;> rw [publishStep] at h <;> (try split at h) <;> exact h
    next point hholder =>
      cases point with
      | closed =>
        rw [endedStep] at h
        split at h
        next hclosed => exact .inl (.inr (.inl hclosed))
        · exact .inl h
      | stop => exact .inl h
      | hold =>
        rw [endedStep, hviewers] at h
        exact .inl h
      | policy => exact .inr ⟨⟨env, rfl⟩, .inl hholder, rfl⟩
    next point hholder =>
      cases point with
      | closed =>
        rw [closeLocked] at h
        split at h
        next hclosed => exact .inl (.inr (.inl hclosed))
        · exact .inl h
      | stop => exact .inl h
      | hold =>
        rw [closeLocked, hviewers] at h
        exact .inl h
      | policy => exact .inr ⟨⟨env, rfl⟩, .inr hholder, rfl⟩
  | run event =>
    obtain ⟨registry, completion, constructed, stop, heq, -⟩ := s.runStep_eq event
    rw [step, heq] at h
    exact .inl h
  | ended =>
    left
    rw [step] at h
    split at h
    next hfree =>
      rcases h with h | h
      · cases h
      · exact .inr h
    · exact h
  | register =>
    left
    rw [step] at h
    split at h
    · rcases h with h | h
      · cases h
      · exact .inr h
    · exact h
  | close =>
    left
    rw [step] at h
    split at h
    · rcases h with h | h | h
      · exact .inl h
      · exact .inr (.inl h)
      · cases h
    · exact h
  | giveUp =>
    left
    rw [step, giveUp] at h
    split at h
    · exact h
    · rcases h with h | h | h
      · exact .inl h
      · exact .inr (.inl h)
      · cases h
  | closing expired =>
    left
    by_cases hblocked : s.closer.any ClosePoint.blocked = true
    · exact .inr (.inr hblocked)
    · rw [step] at h
      unfold closeStep at h
      split at h
      case h_1 hcloser =>
        split at h
        · rcases h with h | h | h
          · exact .inl h
          · exact .inr (.inl h)
          · cases h
        · exact h
      case h_9 => exact h
      case h_10 => exact h
      all_goals next hcloser => rw [hcloser] at hblocked; exact absurd rfl hblocked
  | _ =>
    left
    rw [step] at h
    try split at h
    all_goals exact h

end PreparedNative

end CamGuard.Source
