/-
A camera that the ingress gate retired stays without a child, whatever the recorder
does, until the gate lets it go.
-/
import CamGuard.Recording.RecorderFacts

namespace CamGuard.Recording.Recorder

variable {r : Recorder} {camera : String}

/-- Held with its child gone. -/
def Retired (r : Recorder) (camera : String) : Prop := r.held.get? camera = some true ∧ r.procs.get? camera = none

theorem isRetired_iff : r.isRetired camera = true ↔ validCameraId camera = true ∧ r.Retired camera := by
  rw [isRetired, Bool.and_eq_true, Bool.and_eq_true, decide_eq_true_eq, Bool.not_eq_true', Dict.contains, Retired,
    Option.isSome_eq_false_iff, Option.isNone_iff_eq_none, and_assoc]

namespace Retired

theorem of_eq (h : r.Retired camera) {r' : Recorder} (hheld : r'.held = r.held)
    (hprocs : r'.procs.get? camera = r.procs.get? camera) : r'.Retired camera := by
  rw [Retired, hheld, hprocs]
  exact h

theorem contains (h : r.Retired camera) : r.held.contains camera = true := by
  rw [Dict.contains, h.1]
  rfl

theorem poll (h : r.Retired camera) (pid : Nat) : (r.poll pid).2.Retired camera := by
  rw [Recorder.poll]
  split
  · exact h
  · exact h.of_eq rfl rfl

theorem retireProcess (h : r.Retired camera) (confirms : Bool) (pid : Nat) : (r.retireProcess confirms pid).2.Retired camera := by
  simp only [Recorder.retireProcess]
  split
  · exact h.poll pid
  split
  · exact (h.poll pid).of_eq rfl rfl
  · exact h.poll pid

theorem erased (h : r.Retired camera) {r' : Recorder} {other : String} (hheld : r'.held = r.held)
    (hprocs : r'.procs = r.procs.erase other) : r'.Retired camera := by
  refine ⟨by rw [hheld]; exact h.1, ?_⟩
  rw [hprocs, Dict.get?_erase, h.2, ite_self]

theorem forget (h : r.Retired camera) (other : String) : (r.forget other).Retired camera := h.erased rfl rfl

theorem book (h : r.Retired camera) (other : String) (pid : Nat) (healthy : Bool) (now : ℚ) :
    (r.book other pid healthy now).2.Retired camera := h.erased rfl rfl

theorem spawnHubLocked (h : r.Retired camera) (env : Env) {other : String} (hne : camera ≠ other) :
    (r.spawnHubLocked env other).2.Retired camera := by
  simp only [Recorder.spawnHubLocked]
  split
  next pid _ =>
    split
    · exact h.poll pid
    · exact (h.poll pid).book ..
  · split
    · exact h
    split
    · exact h
    · exact h.of_eq rfl (by rw [birth, Dict.get?_set, if_neg hne])

/-- What is held has no child started for it. -/
theorem spawnLocked (h : r.Retired camera) (env : Env) (other : String) : (r.spawnLocked env other).2.Retired camera := by
  by_cases hne : camera = other
  · subst hne
    rw [Recorder.spawnLocked, if_pos (.inr h.contains)]
    exact h
  simp only [Recorder.spawnLocked]
  split
  · exact h
  split
  · exact h
  split
  · exact h.spawnHubLocked env hne
  split
  · exact h
  split
  · exact h
  split
  · exact h.spawnHubLocked env hne
  · exact h

theorem retireLocked (h : r.Retired camera) (env : Env) (other : String) : (r.retireLocked env other).2.Retired camera := by
  simp only [Recorder.retireLocked]
  split
  · exact h.forget other
  split
  · exact (h.retireProcess ..).forget other
  · exact h.retireProcess ..

theorem forEach {α : Type} {body : Recorder → α → Bool × Recorder}
    (hbody : ∀ r : Recorder, r.Retired camera → ∀ other, (body r other).2.Retired camera) (others : List α)
    (h : r.Retired camera) : (Recorder.forEach body others r).2.Retired camera := by
  induction others generalizing r with
  | nil => exact h
  | cons other others ih =>
    simp only [Recorder.forEach]
    split
    · exact ih (hbody r h other)
    · exact hbody r h other

theorem watchdogOne (h : r.Retired camera) (env : Env) (entry : String × Nat) : (watchdogOne env r entry).2.Retired camera := by
  simp only [Recorder.watchdogOne]
  have hpoll := h.poll entry.2
  split
  · exact hpoll
  split
  · exact hpoll
  split
  · exact hpoll
  split
  · exact hpoll
  · exact hpoll.erased rfl rfl

theorem watchdogLocked (h : r.Retired camera) (env : Env) : (r.watchdogLocked env).2.Retired camera :=
  forEach (fun _ h entry => h.watchdogOne env entry) _ h

theorem terminateEach (env : Env) (entries : List (String × Nat)) (h : r.Retired camera) :
    (Recorder.terminateEach env entries r).2.Retired camera := by
  induction entries generalizing r with
  | nil => exact h
  | cons entry entries ih =>
    obtain ⟨other, pid⟩ := entry
    simp only [Recorder.terminateEach]
    have hretired := h.retireProcess (env.confirms other) pid
    split
    · exact ih (hretired.forget other)
    · exact ih hretired

theorem forgetAll (others : List String) (h : r.Retired camera) : (others.foldl Recorder.forget r).Retired camera := by
  induction others generalizing r with
  | nil => exact h
  | cons other others ih => exact ih (h.forget other)

theorem terminateAllLocked (h : r.Retired camera) (env : Env) : (r.terminateAllLocked env).2.Retired camera :=
  forgetAll _ (terminateEach env _ h)

/-- A suspension that finds no child cannot fail. -/
theorem suspend (h : r.Retired camera) (env : Env) (other : String) : (r.suspend env other).2.Retired camera := by
  simp only [Recorder.suspend]
  split
  · exact h
  split
  · exact h
  by_cases heq : camera = other
  · subst heq
    have hretire : ({ r with held := r.held.set camera false } : Recorder).retireLocked env camera =
        (true, ({ r with held := r.held.set camera false } : Recorder).forget camera) := by
      simp only [Recorder.retireLocked, h.2]
    rw [hretire]
    refine ⟨?_, ?_⟩
    · show Dict.get? (Dict.set _ camera true) camera = some true
      rw [Dict.get?_set, if_pos rfl]
    · show Dict.get? (Dict.erase _ camera) camera = none
      rw [Dict.get?_erase, if_pos rfl]
  · have hset {r' : Recorder} (h' : r'.Retired camera) (held : Bool) :
        ({ r' with held := r'.held.set other held } : Recorder).Retired camera :=
      ⟨by show Dict.get? (Dict.set _ other held) camera = _; rw [Dict.get?_set, if_neg heq]; exact h'.1, h'.2⟩
    have hretired := (hset h false).retireLocked env other
    split
    · exact hset hretired true
    · exact hretired

theorem resumeIngress (h : r.Retired camera) {other : String} (hne : camera ≠ other) :
    (r.resumeIngress other).2.Retired camera := by
  simp only [Recorder.resumeIngress]
  split
  · exact h
  split
  · exact h
  split
  · exact h
  · exact ⟨by show Dict.get? (Dict.erase _ other) camera = _; rw [Dict.get?_erase, if_neg hne]; exact h.1, h.2⟩

theorem supervise (h : r.Retired camera) (env : Env) : (r.supervise env).Retired camera := by
  simp only [Recorder.supervise]
  split
  · exact forEach (fun r h => h.spawnLocked env) _ (h.watchdogLocked env)
  · exact h.watchdogLocked env

/-- **A retired camera stays retired** until the gate resumes it. -/
theorem step (h : r.Retired camera) (env : Env) {op : RecorderOp} (hop : op ≠ .resumeIngress camera) :
    (r.step env op).2.Retired camera := by
  cases op with
  | start cameras =>
    simp only [Recorder.step, Recorder.start]
    split
    · exact h
    have hretired (others : List String) :
        (Recorder.forEach (Recorder.retireLocked env) others { r with cameras := usable cameras }).2.Retired camera :=
      forEach (fun r h => h.retireLocked env) others (h.of_eq rfl rfl)
    split
    · exact hretired _
    · exact forEach (fun r h => h.spawnLocked env) _ (hretired _)
  | pause =>
    simp only [Recorder.step, Recorder.pause]
    split
    · exact h
    · have hpaused : ({ r with paused := true } : Recorder).Retired camera := h.of_eq rfl rfl
      exact hpaused.terminateAllLocked env
  | resume =>
    simp only [Recorder.step, Recorder.resume]
    split
    · split
      · exact (h.terminateAllLocked env).of_eq rfl rfl
      · exact h.terminateAllLocked env
    · exact h.of_eq rfl rfl
  | stop => exact h.terminateAllLocked env
  | supervise => exact h.supervise env
  | maintain =>
    simp only [Recorder.step, Recorder.maintain]
    split
    · exact h
    · exact h.supervise env
  | suspend other => exact h.suspend env other
  | resumeIngress other => exact h.resumeIngress fun heq => hop (by rw [heq])
  | isRecording other =>
    simp only [Recorder.step, Recorder.isRecording]
    split
    · exact h
    · exact h.poll _
  | exit pid =>
    simp only [Recorder.step, Recorder.exit]
    split
    · exact h.of_eq rfl rfl
    · exact h

end Retired

end CamGuard.Recording.Recorder
