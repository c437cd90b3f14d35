/-
Who owns the recording children, with the maintenance thread and `stop` as they are.

Every move is at most one section under the lock, so the recorder is one that sections
alone reach (`reached`), and what they keep holds of it. What they do not keep is that
nothing is born behind a `stop`: a pass that has outlived the wait, or a `start`, may come
between the section of `stop` and its end. Where what comes there finds nothing to start
(`Undisturbed`), the table stays empty (`Idle`).
-/
import CamGuard.Recording.BackoffFacts
import CamGuard.Recording.RecorderThread

namespace CamGuard.Recording

namespace Recorder

variable {r : Recorder} {camera : String}

/-! ## Births -/

/-- The supervision of this camera gives birth to a child. -/
structure Due (env : Env) (r : Recorder) (camera : String) : Prop where
  gate : Open env r camera
  free : r.procs.get? camera = none
  waited : (r.retryAt.get? camera).getD 0 ≤ env.now camera
  starts : env.starts camera = true

/-- The supervision of these cameras does: it gets to one that is due. -/
def Spawns (env : Env) (r : Recorder) (cameras : List String) : Prop :=
  ∃ before camera after, cameras = before ++ camera :: after ∧ (∀ other ∈ before, ¬ Raises env r other) ∧ Due env r camera

theorem spawnHub_births (env : Env) (r : Recorder) (camera : String) : r.born < (r.spawnHubLocked env camera).2.born ↔
    r.procs.get? camera = none ∧ (r.retryAt.get? camera).getD 0 ≤ env.now camera ∧ env.starts camera = true := by
  have hpoll (pid : Nat) : (r.poll pid).2.born = r.born := by
    unfold poll
    split <;> rfl
  simp only [spawnHubLocked]
  split
  next pid hpid =>
    refine iff_of_false ?_ fun h => ?_
    · split
      · rw [hpoll]
        exact lt_irrefl _
      · show ¬ r.born < (r.poll pid).2.born
        rw [hpoll]
        exact lt_irrefl _
    · rw [hpid] at h
      cases h.1
  next hnone =>
    split
    next hearly => exact iff_of_false (lt_irrefl _) fun h => absurd h.2.1 (not_le.mpr hearly)
    next hlate =>
    split
    next hfails =>
      refine iff_of_false (lt_irrefl _) fun h => ?_
      rw [hfails] at h
      cases h.2.2
    next hstarts => exact iff_of_true (Nat.lt_succ_self _) ⟨hnone, not_lt.mp hlate, by simpa using hstarts⟩

/-- **When the supervision of a camera gives birth to a child.** -/
theorem spawnLocked_births (env : Env) (r : Recorder) (camera : String) :
    r.born < (r.spawnLocked env camera).2.born ↔ Due env r camera := by
  have hopen (hgate : Open env r camera) : r.born < (r.spawnHubLocked env camera).2.born ↔ Due env r camera := by
    rw [spawnHub_births]
    exact ⟨fun h => ⟨hgate, h.1, h.2.1, h.2.2⟩, fun h => ⟨h.free, h.waited, h.starts⟩⟩
  have hclosed (hgate : ¬ Open env r camera) : r.born < r.born ↔ Due env r camera :=
    iff_of_false (lt_irrefl _) fun h => hgate h.gate
  rw [spawnLocked]
  split
  next hheld =>
    refine hclosed fun h => ?_
    rcases hheld with hpaused | hheld
    · cases hpaused.symm.trans h.1
    · cases hheld.symm.trans h.2.1
  next hfree =>
  rw [not_or, Bool.not_eq_true, Bool.not_eq_true] at hfree
  split
  next hpolicy =>
    refine hclosed fun h => ?_
    obtain ⟨-, -, selection, hselection, -⟩ := h
    cases hpolicy.symm.trans hselection
  next selection hpolicy =>
  split
  next hlegacy => exact hopen ⟨hfree.1, hfree.2, selection, hpolicy, .inl hlegacy⟩
  next hlegacy =>
  -- without a legacy permit only a binding admits the camera
  have hbound (h : Open env r camera) : ∃ bindings binding, env.ownedIngress = some bindings ∧
      bindings camera = some binding ∧ binding.matches camera selection = true := by
    obtain ⟨-, -, other, hother, hadmits⟩ := h
    cases hpolicy.symm.trans hother
    exact hadmits.resolve_left hlegacy
  split
  next hnone =>
    refine hclosed fun h => ?_
    obtain ⟨bindings, -, hbindings, -⟩ := hbound h
    cases hnone.symm.trans hbindings
  next bindings hbindings =>
  split
  next hnone =>
    refine hclosed fun h => ?_
    obtain ⟨bindings', binding, hbindings', hbinding, -⟩ := hbound h
    cases hbindings.symm.trans hbindings'
    cases hnone.symm.trans hbinding
  next binding hbinding =>
  split
  next hmatches => exact hopen ⟨hfree.1, hfree.2, selection, hpolicy, .inr ⟨bindings, binding, hbindings, hbinding, hmatches⟩⟩
  next hmatches =>
    refine hclosed fun h => ?_
    obtain ⟨bindings', binding', hbindings', hbinding', hmatches'⟩ := hbound h
    cases hbindings.symm.trans hbindings'
    cases hbinding.symm.trans hbinding'
    exact hmatches hmatches'

theorem Due.not_raises {env : Env} (h : Due env r camera) : ¬ Raises env r camera := by
  rintro ⟨-, -, hpolicy | ⟨-, ⟨pid, hshort, -⟩ | ⟨-, -, hstarts⟩⟩⟩
  · obtain ⟨-, -, selection, hselection, -⟩ := h.gate
    cases hpolicy.symm.trans hselection
  · cases h.free.symm.trans hshort.proc
  · cases h.starts.symm.trans hstarts

/-- What is done for other cameras does not matter. -/
theorem Aside.due {r' : Recorder} (h : Aside camera r r') (env : Env) : Due env r' camera ↔ Due env r camera := by
  have hiff : ∀ {r r' : Recorder}, r'.paused = r.paused → r'.held = r.held → r'.procs.get? camera = r.procs.get? camera →
      r'.retryAt.get? camera = r.retryAt.get? camera → Due env r camera → Due env r' camera := by
    intro r r' hpaused hheld hprocs hretry hdue
    refine ⟨?_, hprocs.trans hdue.free, ?_, hdue.starts⟩
    · rw [Open, hpaused, hheld]
      exact hdue.gate
    · rw [hretry]
      exact hdue.waited
  exact ⟨hiff h.paused.symm h.held.symm h.procs.symm h.retryAt.symm, hiff h.paused h.held h.procs h.retryAt⟩

theorem spawns_cons {env : Env} {cameras : List String} : Spawns env r (camera :: cameras) ↔
    Due env r camera ∨ ¬ Raises env r camera ∧ Spawns env r cameras := by
  constructor
  · rintro ⟨before, other, after, hsplit, hbefore, hdue⟩
    cases before with
    | nil =>
      cases hsplit
      exact .inl hdue
    | cons first before =>
      cases hsplit
      exact .inr ⟨hbefore _ List.mem_cons_self, before, other, after, rfl,
        fun c hc => hbefore c (List.mem_cons_of_mem _ hc), hdue⟩
  · rintro (hdue | ⟨hpasses, before, other, after, rfl, hbefore, hdue⟩)
    · exact ⟨[], camera, cameras, rfl, fun _ h => absurd h List.not_mem_nil, hdue⟩
    · exact ⟨camera :: before, other, after, rfl, List.forall_mem_cons.mpr ⟨hpasses, hbefore⟩, hdue⟩

/-- **When the supervision of cameras gives birth to a child.** -/
theorem spawnEach_births (env : Env) {cameras : List String} (hnodup : cameras.Nodup) (h : Inv r) :
    r.born < (forEach (spawnLocked env) cameras r).2.born ↔ Spawns env r cameras := by
  induction cameras generalizing r with
  | nil =>
    refine iff_of_false (lt_irrefl _) ?_
    rintro ⟨before, camera, after, hsplit, -⟩
    simp at hsplit
  | cons first cameras ih =>
    rw [List.nodup_cons] at hnodup
    have hinv := spawnLocked_inv env h first
    have hborn := spawnLocked_births env r first
    have hreturns := spawnLocked_returns env r first
    have hfirst : Evolves (fun _ => True) (fun _ => True) r (r.spawnLocked env first).2 :=
      spawnLocked_evolves env h fun _ _ _ => trivial
    have hrest : Evolves (fun _ => True) (fun _ => True) (r.spawnLocked env first).2
        (forEach (spawnLocked env) cameras (r.spawnLocked env first).2).2 :=
      spawnEach_evolves env cameras hinv fun _ _ _ _ => trivial
    have haside : ∀ camera ∈ cameras, Aside camera r (r.spawnLocked env first).2 :=
      fun camera hmem => .spawnLocked env (fun heq => hnodup.1 (heq ▸ hmem)) h
    have hthere : Spawns env (r.spawnLocked env first).2 cameras ↔ Spawns env r cameras := by
      refine exists_congr fun before => exists_congr fun camera => exists_congr fun after => and_congr_right fun hsplit => ?_
      subst hsplit
      refine and_congr (forall₂_congr fun other hother => ?_) ((haside camera (by simp)).due env)
      exact not_congr ((haside other (by simp [hother])).raises env)
    rw [spawns_cons, forEach]
    dsimp only
    by_cases hdue : Due env r first
    · refine iff_of_true ?_ (.inl hdue)
      rw [hreturns.mpr hdue.not_raises, if_pos rfl]
      exact lt_of_lt_of_le (hborn.mpr hdue) hrest.born
    have hsame : (r.spawnLocked env first).2.born = r.born :=
      le_antisymm (not_lt.mp fun hlt => hdue (hborn.mp hlt)) hfirst.born
    split
    next hok =>
      rw [or_iff_right hdue, and_iff_right (hreturns.mp hok), ← hthere, ← ih hnodup.2 hinv, hsame]
    next hraises =>
      refine iff_of_false (by rw [hsame]; exact lt_irrefl _) ?_
      rintro (h | ⟨hpasses, -⟩)
      · exact hdue h
      · exact hraises (hreturns.mpr hpasses)

/-! ## An empty table -/

/-- The recorder has no children, dead or alive. -/
def Idle (r : Recorder) : Prop := ∀ camera, r.procs.get? camera = none

theorem Idle.entries (h : Idle r) : r.procs.entries = [] := by
  refine List.eq_nil_iff_forall_not_mem.mpr fun e he => ?_
  have hsome := Dict.get?_eq_some.mpr he
  rw [h] at hsome
  cases hsome

theorem Idle.forget (h : Idle r) (camera : String) : Idle (r.forget camera) := by
  intro other
  rw [Recorder.forget, Dict.get?_erase]
  split
  · rfl
  · exact h other

theorem Idle.settles (h : Idle r) (env : Env) : Settles env r := fun camera pid hpid => by rw [h] at hpid; cases hpid

/-- Moves that give birth to nobody. -/
theorem Evolves.born_eq {clears : String → Prop} {r' : Recorder} (h : Evolves (fun _ => False) clears r r') : r'.born = r.born :=
  le_antisymm (not_lt.mp fun hlt => h.births r.born le_rfl hlt) h.born

/-- It stays empty under the sections that start nothing. -/
theorem Idle.step (h : Idle r) (hinv : Inv r) (env : Env) {op : RecorderOp}
    (hop : ∀ cameras, op ≠ .start cameras) (hsupervise : op ≠ .supervise) (hmaintain : op ≠ .maintain) :
    Idle (r.step env op).2 ∧ (r.step env op).2.born = r.born := by
  have hterminated {r : Recorder} (h : Idle r) (hinv : Inv r) :
      Idle (r.terminateAllLocked env).2 ∧ (r.terminateAllLocked env).2.born = r.born := by
    have hall : Evolves (fun _ => False) (fun _ => True) r (r.terminateAllLocked env).2 ∧ _ :=
      terminateAll_evolves env (fun _ => trivial) hinv
    exact ⟨hall.2 ((terminateAll_ok env hinv).mpr (h.settles env)), hall.1.born_eq⟩
  cases op with
  | start cameras => exact absurd rfl (hop cameras)
  | supervise => exact absurd rfl hsupervise
  | maintain => exact absurd rfl hmaintain
  | pause =>
    simp only [Recorder.step, pause]
    split
    · exact ⟨h, rfl⟩
    · exact hterminated (r := { r with paused := true }) h (hinv.flags rfl rfl rfl rfl rfl)
  | resume =>
    simp only [Recorder.step, resume]
    split
    · split
      · exact hterminated h hinv
      · exact hterminated h hinv
    · exact ⟨h, rfl⟩
  | stop => exact hterminated h hinv
  | suspend camera =>
    simp only [Recorder.step, suspend, retireLocked, h camera]
    split
    · exact ⟨h, rfl⟩
    split
    · exact ⟨h, rfl⟩
    · exact ⟨Idle.forget (r := { r with held := r.held.set camera false }) h camera, rfl⟩
  | resumeIngress camera =>
    simp only [Recorder.step, resumeIngress]
    split
    · exact ⟨h, rfl⟩
    split
    · exact ⟨h, rfl⟩
    split
    · exact ⟨h, rfl⟩
    · exact ⟨h, rfl⟩
  | isRecording camera =>
    simp only [Recorder.step, isRecording, h camera]
    exact ⟨h, trivial⟩
  | exit pid =>
    simp only [Recorder.step, exit]
    split
    · exact ⟨h, rfl⟩
    · exact ⟨h, rfl⟩

theorem spawnLocked_idle {env : Env} (hnone : r.procs.get? camera = none) (hdue : ¬ Due env r camera) :
    (r.spawnLocked env camera).2 = r := by
  have hborn := mt (spawnLocked_births env r camera).mp hdue
  have hhub : (r.spawnHubLocked env camera).2 = r ∨ (r.spawnHubLocked env camera).2 = r.birth camera (env.later camera) := by
    simp only [spawnHubLocked, hnone]
    split
    · exact .inl rfl
    split
    · exact .inl rfl
    · exact .inr rfl
  have hsame (h : ¬ r.born < (r.spawnHubLocked env camera).2.born) : (r.spawnHubLocked env camera).2 = r := by
    rcases hhub with hhub | hhub
    · exact hhub
    · rw [hhub] at h
      exact absurd (Nat.lt_succ_self _) h
  rw [spawnLocked] at hborn ⊢
  split
  · rfl
  next hfree =>
  rw [if_neg hfree] at hborn
  split
  · rfl
  next hpolicy =>
  simp only [hpolicy] at hborn
  split
  next hlegacy =>
    rw [if_pos hlegacy] at hborn
    exact hsame hborn
  next hlegacy =>
  rw [if_neg hlegacy] at hborn
  split
  · rfl
  next hbindings =>
  simp only [hbindings] at hborn
  split
  · rfl
  next hbinding =>
  simp only [hbinding] at hborn
  split
  next hmatches =>
    rw [if_pos hmatches] at hborn
    exact hsame hborn
  next => rfl

theorem Idle.spawnEach (h : Idle r) {env : Env} {cameras : List String} (hspawns : ¬ Spawns env r cameras) :
    (forEach (spawnLocked env) cameras r).2 = r := by
  induction cameras with
  | nil => rfl
  | cons first cameras ih =>
    rw [spawns_cons, not_or] at hspawns
    have hsame := spawnLocked_idle (h first) hspawns.1
    rw [forEach]
    dsimp only
    split
    next hok =>
      rw [hsame]
      exact ih fun hrest => hspawns.2 ⟨(spawnLocked_returns env r first).mp hok, hrest⟩
    next => exact hsame

theorem Idle.supervise (h : Idle r) (env : Env) : r.supervise env = (forEach (spawnLocked env) r.cameras r).2 := by
  rw [Recorder.supervise, watchdogLocked, h.entries]
  rfl

theorem Idle.start (h : Idle r) (env : Env) (cameras : List Camera) : (r.start env cameras).2 =
    if env.prepared then (forEach (spawnLocked env) (usable cameras) { r with cameras := usable cameras }).2 else r := by
  have hnobody : r.procs.keys.filter (fun camera => camera ∉ usable cameras) = [] := by
    rw [Dict.keys, h.entries]
    rfl
  cases hprepared : env.prepared with
  | false =>
    simp only [Recorder.start, hprepared, if_true]
    rfl
  | true =>
    simp only [Recorder.start, hprepared, hnobody, Bool.true_eq_false, if_false, if_true]
    rfl

end Recorder

namespace RecorderSystem

open Recorder

variable {s : RecorderSystem} {env : Env} {move : RecorderMove}

/-! ## Moves -/

theorem passOn_recorder (s : RecorderSystem) (ok : Bool) (move : RecorderMove) : (s.passOn ok move).recorder = s.recorder := by
  cases move with
  | start _ | pause | resume | suspend _ | resumeIngress _ | isRecording _ | exit _ | stop => rfl
  | engage _ | prepare | look | supervise | rest | quit | terminate _ | conclude _ _ =>
    simp only [passOn]
    split <;> rfl

theorem step_none (h : s.sectionOf move = none) : s.step env move = (true, s.passOn true move) := by rw [step, h]

theorem step_some {op : RecorderOp} (h : s.sectionOf move = some op) : s.step env move = ((s.recorder.step env op).1,
    { s.passOn (s.recorder.step env op).1 move with recorder := (s.recorder.step env op).2 }) := by rw [step, h]

theorem sectionOf_maintain : s.sectionOf move ≠ some .maintain := by
  cases move with
  | supervise | terminate _ =>
    simp only [sectionOf]
    split <;> exact nofun
  | start _ | engage _ | pause | resume | suspend _ | resumeIngress _ | isRecording _ | exit _ | prepare | look | rest | quit | stop
  | conclude _ _ => exact nofun

theorem run_snoc (moves : List (Env × RecorderMove)) (move : Env × RecorderMove) :
    run (moves ++ [move]) = ((run moves).step move.1 move.2).2 := by
  rw [run, run, List.foldl_append]
  rfl

/-- **The recorder is one that sections alone reach.** -/
theorem reached (moves : List (Env × RecorderMove)) : ∃ calls, (run moves).recorder = Recorder.run calls := by
  induction moves using List.reverseRecOn with
  | nil => exact ⟨[], rfl⟩
  | append_singleton moves move ih =>
    obtain ⟨calls, hcalls⟩ := ih
    rw [run_snoc]
    cases hsection : (run moves).sectionOf move.2 with
    | none =>
      rw [step_none hsection, passOn_recorder]
      exact ⟨calls, hcalls⟩
    | some op =>
      refine ⟨calls ++ [(move.1, op)], ?_⟩
      rw [step_some hsection, Recorder.run_snoc, ← hcalls]

/-! ## Behind the section of a `stop` -/

/-- A call of `stop` has terminated the children, and has not ended. -/
def Behind (s : RecorderSystem) : Prop := .indexing ∈ s.stops

instance (s : RecorderSystem) : Decidable s.Behind := inferInstanceAs (Decidable (.indexing ∈ s.stops))

/-- A move that does not start a child, if there are none. -/
def Harmless (env : Env) (s : RecorderSystem) : RecorderMove → Prop
  | .start cameras => env.prepared = true → ¬ Spawns env s.recorder (usable cameras)
  | .supervise => s.thread = .entering → ¬ Spawns env s.recorder s.recorder.cameras
  | _ => True

/-- A run in which only such moves come between the section of a `stop` and its end. -/
def Undisturbed : RecorderSystem → List (Env × RecorderMove) → Prop
  | _, [] => True
  | s, (env, move) :: rest => (s.Behind → Harmless env s move) ∧ Undisturbed (s.step env move).2 rest

theorem spawns_cameras {r : Recorder} {cameras cameras' : List String} :
    Spawns env { r with cameras := cameras' } cameras ↔ Spawns env r cameras := by
  have haside (camera : String) : Aside camera r { r with cameras := cameras' } := ⟨rfl, rfl, rfl, rfl, rfl, rfl, fun _ _ => rfl⟩
  refine exists_congr fun before => exists_congr fun camera => exists_congr fun after => and_congr_right fun _ => ?_
  exact and_congr (forall₂_congr fun other _ => not_congr ((haside other).raises env)) ((haside camera).due env)

/-- What a move does to a recorder without children. -/
theorem idle_step (h : Idle s.recorder) (hinv : Inv s.recorder) (hcameras : s.recorder.cameras.Nodup) :
    (s.recorder.born < (s.step env move).2.recorder.born ↔ ¬ Harmless env s move) ∧
      (Harmless env s move → Idle (s.step env move).2.recorder) := by
  have hquiet {op : RecorderOp} (hsection : s.sectionOf move = some op) (hharmless : Harmless env s move)
      (hop : ∀ cameras, op ≠ .start cameras) (hsupervise : op ≠ .supervise) :
      (s.recorder.born < (s.step env move).2.recorder.born ↔ ¬ Harmless env s move) ∧
        (Harmless env s move → Idle (s.step env move).2.recorder) := by
    obtain ⟨hidle, hborn⟩ := h.step hinv env hop hsupervise fun heq => sectionOf_maintain (heq ▸ hsection)
    rw [step_some hsection]
    refine ⟨iff_of_false ?_ (not_not_intro hharmless), fun _ => hidle⟩
    rw [hborn]
    exact lt_irrefl _
  have hnothing (hsection : s.sectionOf move = none) (hharmless : Harmless env s move) :
      (s.recorder.born < (s.step env move).2.recorder.born ↔ ¬ Harmless env s move) ∧
        (Harmless env s move → Idle (s.step env move).2.recorder) := by
    rw [step_none hsection, passOn_recorder]
    exact ⟨iff_of_false (lt_irrefl _) (not_not_intro hharmless), fun _ => h⟩
  cases move with
  | start cameras =>
    have hstep : (s.step env (.start cameras)).2.recorder = (s.recorder.start env cameras).2 := rfl
    rw [hstep, h.start env cameras, Harmless]
    cases env.prepared with
    | false => exact ⟨iff_of_false (lt_irrefl _) fun hnot => hnot nofun, fun _ => h⟩
    | true =>
      have hinv' : Inv { s.recorder with cameras := usable cameras } := hinv.flags rfl rfl rfl rfl rfl
      have hbirths := spawnEach_births env (nodup_eraseDups (((cameras.filter fun c => c.rtspUrl ≠ "" ∧ c.cameraId ≠ "").map
        Camera.cameraId))) hinv'
      rw [if_pos rfl]
      refine ⟨?_, fun hharmless => ?_⟩
      · rw [forall_prop_of_true rfl, not_not]
        exact hbirths.trans spawns_cameras
      · have hidle : Idle { s.recorder with cameras := usable cameras } := h
        rw [hidle.spawnEach (mt spawns_cameras.mp (hharmless rfl))]
        exact hidle
  | supervise =>
    by_cases hentering : s.thread = .entering
    swap
    · exact hnothing (if_neg hentering) fun hthread => absurd hthread hentering
    have hsection : s.sectionOf .supervise = some .supervise := if_pos hentering
    have hbirths := spawnEach_births env hcameras hinv
    rw [step_some hsection, Harmless]
    simp only [hentering, forall_const, not_not]
    show (s.recorder.born < (s.recorder.supervise env).born ↔ _) ∧ (_ → Idle (s.recorder.supervise env))
    rw [h.supervise env]
    refine ⟨hbirths, fun hspawns => ?_⟩
    rw [h.spawnEach hspawns]
    exact h
  | pause | resume | suspend _ | resumeIngress _ | isRecording _ | exit _ => exact hquiet rfl trivial nofun nofun
  | terminate call =>
    by_cases hjoining : s.stops[call]? = some .joining
    · exact hquiet (if_pos hjoining) trivial nofun nofun
    · exact hnothing (if_neg hjoining) trivial
  | engage _ | prepare | look | rest | quit | stop | conclude _ _ => exact hnothing rfl trivial

/-- What an undisturbed run keeps. -/
structure Kept (s : RecorderSystem) : Prop where
  reached : ∃ calls, s.recorder = Recorder.run calls
  idle : s.Behind → Idle s.recorder

theorem Kept.inv (h : Kept s) : Inv s.recorder := by
  obtain ⟨calls, hcalls⟩ := h.reached
  rw [hcalls]
  exact inv_run calls

theorem Kept.cameras (h : Kept s) : s.recorder.cameras.Nodup := by
  obtain ⟨calls, hcalls⟩ := h.reached
  rw [hcalls]
  exact run_cameras calls

/-- A call of `stop` gets behind its section by that section. -/
theorem behind_step (h : (s.step env move).2.Behind) :
    s.Behind ∨ ∃ call, move = .terminate call ∧ s.sectionOf move = some .stop ∧ (s.step env move).1 = true := by
  have hset {call : Nat} {next : Stopping} (hnext : next ≠ .indexing) (hmem : .indexing ∈ s.stops.set call next) : s.Behind :=
    (List.mem_or_eq_of_mem_set hmem).resolve_right (Ne.symm hnext)
  cases move with
  | start _ | pause | resume | suspend _ | resumeIngress _ | isRecording _ | exit _ => exact .inl h
  | supervise =>
    left
    simp only [step, sectionOf, passOn] at h
    by_cases hentering : s.thread = .entering
    · rwa [if_pos hentering, if_pos hentering] at h
    · rwa [if_neg hentering, if_neg hentering] at h
  | engage _ | prepare | look | rest | quit =>
    left
    rw [step_none rfl] at h
    simp only [passOn] at h
    split at h
    · exact h
    · exact h
  | stop =>
    rw [step_none rfl] at h
    exact .inl ((List.mem_append.mp h).resolve_right (by decide))
  | conclude call indexed =>
    left
    rw [step_none rfl] at h
    simp only [passOn] at h
    split at h
    · refine hset ?_ h
      split <;> decide
    · exact h
  | terminate call =>
    by_cases hjoining : s.stops[call]? = some .joining
    · have hsection : s.sectionOf (.terminate call) = some .stop := if_pos hjoining
      rw [step_some hsection] at h ⊢
      simp only [passOn, if_pos hjoining] at h
      cases hok : (s.recorder.step env .stop).1 with
      | true => exact .inr ⟨call, rfl, hsection, rfl⟩
      | false =>
        rw [hok] at h
        exact .inl (hset (by decide) h)
    · have hsection : s.sectionOf (.terminate call) = none := if_neg hjoining
      rw [step_none hsection] at h
      simp only [passOn, if_neg hjoining] at h
      exact .inl h

theorem Kept.step (h : Kept s) (hharmless : s.Behind → Harmless env s move) : Kept (s.step env move).2 := by
  have hreached : ∃ calls, (s.step env move).2.recorder = Recorder.run calls := by
    obtain ⟨calls, hcalls⟩ := h.reached
    cases hsection : s.sectionOf move with
    | none =>
      rw [step_none hsection, passOn_recorder]
      exact ⟨calls, hcalls⟩
    | some op =>
      refine ⟨calls ++ [(env, op)], ?_⟩
      rw [step_some hsection, Recorder.run_snoc, ← hcalls]
  refine ⟨hreached, fun hbehind => ?_⟩
  rcases behind_step hbehind with hbefore | ⟨call, -, hsection, hok⟩
  · exact (idle_step (h.idle hbefore) h.inv h.cameras).2 (hharmless hbefore)
  · rw [step_some hsection] at hok ⊢
    exact fun camera => covers_none env h.inv hok (trivial : Covers .stop camera)

theorem Kept.run (h : Kept s) {moves : List (Env × RecorderMove)} (hundisturbed : Undisturbed s moves) :
    Kept (moves.foldl (fun s move => (s.step move.1 move.2).2) s) := by
  induction moves generalizing s with
  | nil => exact h
  | cons move moves ih => exact ih (h.step hundisturbed.1) hundisturbed.2

/-- The cameras that a call leaves without a live child when it returns. -/
def LeavesNone : RecorderMove → String → Prop
  | .pause, _ => True
  | .suspend suspended, camera => camera = suspended
  | _, _ => False

/-- **Who owns the recording children.** After any moves, with any exit left
unconfirmed: every child whose exit was not confirmed is the one in the table of
its camera, and there is one; what the next move gives birth to is born with the recorder not
paused, its camera not held and its source admitted; a `pause` or `suspend` that returns
leaves no live child behind; the failure counters are what the log says, every death is
counted once before the next birth unless its camera was forgotten, and only removal,
suspension, pausing and stopping forget a camera. In an undisturbed run a `stop` that
returns leaves no live child behind, and of the moves that can come before its end those
that are not harmless, and no others, would give birth to one. -/
theorem children_owned (moves : List (Env × RecorderMove)) :
    let s := run moves
    let r := s.recorder
    (∀ pid < r.born, (r.child pid).confirmed = false → r.procs.get? (r.child pid).camera = some pid ∧
      ∀ other < r.born, (r.child other).confirmed = false → (r.child other).camera = (r.child pid).camera → other = pid) ∧
    (∀ pid < r.born, (r.child pid).alive = true → (r.child pid).confirmed = false) ∧
    (∀ env move pid, r.born ≤ pid → pid < (s.step env move).2.recorder.born →
      Open env r ((s.step env move).2.recorder.child pid).camera) ∧
    (∀ env move camera, (s.step env move).1 = true → LeavesNone move camera → ∀ pid < (s.step env move).2.recorder.born,
      ((s.step env move).2.recorder.child pid).camera = camera → ((s.step env move).2.recorder.child pid).alive = false) ∧
    (∀ camera, (r.fails.get? camera).getD 0 = counter camera r.log ∧ CountedOnce camera r.log) ∧
    (∀ env move, ∃ events, (s.step env move).2.recorder.log = r.log ++ events ∧
      ∀ camera, .cleared camera ∈ events → ∃ op, s.sectionOf move = some op ∧ Clears r op camera) ∧
    (Undisturbed {} moves →
      (∀ env call indexed, s.stops[call]? = some .indexing →
        (s.step env (.conclude call indexed)).2.stops[call]? = some .returned → ∀ pid < r.born, (r.child pid).alive = false) ∧
      (s.Behind → ∀ env move, r.born < (s.step env move).2.recorder.born ↔ ¬ Harmless env s move)) := by
  intro s r
  have h : Inv r := by
    obtain ⟨calls, hcalls⟩ := reached moves
    show Inv (run moves).recorder
    rw [hcalls]
    exact inv_run calls
  refine ⟨fun pid hpid hopen => ⟨h.owned pid hpid hopen, fun other hother hopen' hcamera => ?_⟩, h.alive,
    fun env move => ?_, fun env move camera hok hleaves pid hpid hcamera => ?_, fun camera => ⟨h.counter camera, h.countedOnce camera⟩,
    fun env move => ?_, fun hundisturbed => ?_⟩
  · have howned := h.owned other hother hopen'
    rw [hcamera, h.owned pid hpid hopen] at howned
    exact (Option.some.inj howned).symm
  · cases hsection : s.sectionOf move with
    | none =>
      rw [step_none hsection, passOn_recorder]
      exact fun pid hle hlt => absurd hlt (not_lt.mpr hle)
    | some op =>
      rw [step_some hsection]
      exact (step_steps env h op).births
  · obtain ⟨op, hsection, hcovers⟩ : ∃ op, s.sectionOf move = some op ∧ Covers op camera := by
      cases move with
      | pause => exact ⟨.pause, rfl, trivial⟩
      | suspend suspended => exact ⟨.suspend suspended, rfl, hleaves⟩
      | start _ | engage _ | resume | resumeIngress _ | isRecording _ | exit _ | prepare | look | supervise | rest | quit | stop
      | terminate _ | conclude _ _ => exact hleaves.elim
    rw [step_some hsection] at hok hpid hcamera ⊢
    exact (step_steps env h op).inv.no_live (covers_none env h hok hcovers) hpid hcamera
  · cases hsection : s.sectionOf move with
    | none =>
      rw [step_none hsection, passOn_recorder]
      exact ⟨[], (List.append_nil _).symm, fun _ hmem => absurd hmem List.not_mem_nil⟩
    | some op =>
      rw [step_some hsection]
      obtain ⟨events, hlog, hclears⟩ := (step_steps env h op).log
      exact ⟨events, hlog, fun camera hmem => ⟨op, rfl, hclears camera hmem⟩⟩
  · have hkept : Kept s := Kept.run ⟨⟨[], rfl⟩, fun hbehind => absurd hbehind List.not_mem_nil⟩ hundisturbed
    refine ⟨fun env call indexed hindexing _ pid hpid => ?_, fun hbehind env move =>
      (idle_step (hkept.idle hbehind) h hkept.cameras).1⟩
    exact h.no_live (hkept.idle (List.mem_of_getElem? hindexing) _) hpid rfl

/-! ## A pass that outlives the wait -/

def archivedCamera : Camera := ⟨"cam_0123456789abcdef01234567", "rtsp://camera"⟩

/-- A pass, and a `stop` behind it. -/
def stoppedMoves : List (Env × RecorderMove) :=
  [.start [archivedCamera], .engage true, .prepare, .look, .supervise, .rest, .stop, .quit, .terminate 0].map (calmEnv, ·)

theorem children_owned_stopped :
    Undisturbed {} stoppedMoves ∧ (run stoppedMoves).recorder.born = 1 ∧
      ((run stoppedMoves).step calmEnv (.conclude 0 true)).2.stops[0]? = some .returned ∧
      ∀ pid < (run stoppedMoves).recorder.born, ((run stoppedMoves).recorder.child pid).alive = false := by
  have hundisturbed : Undisturbed {} stoppedMoves := by
    exact ⟨fun h => absurd h (by decide), fun _ => trivial, fun _ => trivial, fun _ => trivial, fun h => absurd h (by decide +kernel),
      fun _ => trivial, fun _ => trivial, fun _ => trivial, fun _ => trivial, trivial⟩
  have hreturned : ((run stoppedMoves).step calmEnv (.conclude 0 true)).2.stops[0]? = some .returned := by decide +kernel
  exact ⟨hundisturbed, by decide +kernel, hreturned,
    ((children_owned stoppedMoves).2.2.2.2.2.2 hundisturbed).1 calmEnv 0 true (by decide +kernel) hreturned⟩

/-- A pass that is at its directories for as long as `stop` waits: behind the section of
`stop` it gives birth to a child, ends, and `stop` returns. -/
def outlivedMoves : List (Env × RecorderMove) :=
  [.start [archivedCamera], .engage true, .prepare, .stop, .terminate 0, .look, .supervise, .rest, .quit, .conclude 0 true].map
    (calmEnv, ·)

theorem stop_leaves_child :
    (run outlivedMoves).stops = [.returned] ∧ (run outlivedMoves).recorder.born = 2 ∧
      ((run outlivedMoves).recorder.child 1).alive = true := by
  refine ⟨?_, ?_, ?_⟩
  · decide +kernel
  · decide +kernel
  · decide +kernel

end RecorderSystem

end CamGuard.Recording
