/-
The backoff of the recorder (`backoff_below_overflow`): a death that is booked
sets a retry time within bounds, nothing is started before it, and a pass goes
over every camera, exactly as long as the float of the power exists.

That nothing is started is a statement about any operations between the death and
the retry time; `Calm` is what each function keeps of it.
-/
import CamGuard.Recording.RecorderFacts
import Mathlib.Tactic.NormNum

namespace CamGuard.Recording.Recorder

variable {r r' : Recorder} {camera : String}

/-! ## The delay -/

/-- The failures in a row. -/
def count (r : Recorder) (camera : String) : Nat := (r.fails.get? camera).getD 0

/-- The delay after so many failures in a row, where there is one. -/
theorem retryDelay_some {fails : Dict String Nat} (hpos : 1 ≤ (fails.get? camera).getD 0)
    (hfloat : (fails.get? camera).getD 0 ≤ 1024) :
    retryDelay fails camera = some (min (BACKOFF_BASE * 2 ^ ((fails.get? camera).getD 0 - 1)) BACKOFF_MAX) := by
  rw [retryDelay, if_neg (by omega), if_neg (by omega)]

theorem retryDelay_none {fails : Dict String Nat} (h : 1024 < (fails.get? camera).getD 0) :
    retryDelay fails camera = none := by
  rw [retryDelay, if_neg (by omega), if_pos (by omega)]

theorem base_le_delay (n : Nat) : BACKOFF_BASE ≤ min (BACKOFF_BASE * 2 ^ n) BACKOFF_MAX := by
  have hpow : (1 : ℚ) ≤ 2 ^ n := one_le_pow₀ (by norm_num)
  refine le_min ?_ (by norm_num [BACKOFF_BASE, BACKOFF_MAX])
  calc BACKOFF_BASE = BACKOFF_BASE * 1 := (mul_one _).symm
    _ ≤ BACKOFF_BASE * 2 ^ n := mul_le_mul_of_nonneg_left hpow (by norm_num [BACKOFF_BASE])

/-- More failures, no shorter delay. -/
theorem delay_mono {m n : Nat} (h : m ≤ n) :
    min (BACKOFF_BASE * 2 ^ m) BACKOFF_MAX ≤ min (BACKOFF_BASE * 2 ^ n) BACKOFF_MAX := by
  have hpow : (2 : ℚ) ^ m ≤ 2 ^ n := pow_le_pow_right₀ (by norm_num) h
  exact min_le_min_right _ (mul_le_mul_of_nonneg_left hpow (by norm_num [BACKOFF_BASE]))

/-- **Delays grow with the failures**, whatever cameras they are of. -/
theorem retryDelay_mono {fails fails' : Dict String Nat} {camera' : String} {delay delay' : ℚ}
    (hdelay : retryDelay fails camera = some delay) (hdelay' : retryDelay fails' camera' = some delay')
    (hpos : 1 ≤ (fails.get? camera).getD 0) (hle : (fails.get? camera).getD 0 ≤ (fails'.get? camera').getD 0) :
    delay ≤ delay' := by
  have hfloat : (fails'.get? camera').getD 0 ≤ 1024 := by
    by_contra hlarge
    rw [retryDelay_none (by omega)] at hdelay'
    cases hdelay'
  rw [retryDelay_some hpos (by omega)] at hdelay
  rw [retryDelay_some (by omega) hfloat] at hdelay'
  cases hdelay
  cases hdelay'
  exact delay_mono (by omega)

/-! ## A booked death -/

/-- A call returned, and after so many failures the camera waits for the delay of them,
which is within bounds. -/
def Booked (camera : String) (failures : Nat) (now : ℚ) (out : Bool × Recorder) : Prop :=
  out.1 = true ∧ out.2.count camera = failures ∧ ∃ delay, retryDelay out.2.fails camera = some delay ∧
    out.2.retryAt.get? camera = some (now + delay) ∧ BACKOFF_BASE ≤ delay ∧ delay ≤ BACKOFF_MAX

/-- One more failure, and whether its power has a float. -/
theorem book_iff (r : Recorder) (camera : String) (pid : Nat) (now : ℚ) :
    Booked camera (r.count camera + 1) now (r.book camera pid false now) ↔ r.count camera < 1024 := by
  have hcount : ((r.fails.set camera (r.count camera + 1)).get? camera).getD 0 = r.count camera + 1 := by
    rw [Dict.get?_set, if_pos rfl, Option.getD_some]
  have hfails : (if false = true then 0 else (r.fails.get? camera).getD 0 + 1) = r.count camera + 1 := rfl
  simp only [Booked, book, hfails]
  by_cases hfloat : r.count camera < 1024
  · have hsome := retryDelay_some (by omega : 1 ≤ ((r.fails.set camera (r.count camera + 1)).get? camera).getD 0) (by omega)
    rw [hcount] at hsome
    rw [hsome]
    refine iff_of_true ⟨rfl, hcount, _, rfl, ?_, base_le_delay (r.count camera + 1 - 1), min_le_right _ _⟩ hfloat
    rw [Option.elim_some, Dict.get?_set, if_pos rfl]
  · have hnone := retryDelay_none (by omega : 1024 < ((r.fails.set camera (r.count camera + 1)).get? camera).getD 0)
    rw [hnone]
    exact iff_of_false (fun h => Bool.noConfusion h.1) hfloat

/-- A process of the camera has ended by itself, soon. -/
structure ShortRun (env : Env) (r : Recorder) (camera : String) (pid : Nat) : Prop where
  proc : r.procs.get? camera = some pid
  dead : (r.child pid).alive = false
  short : env.now camera - (r.spawnedAt.get? camera).getD 0 < HEALTHY_AFTER

theorem spawnHub_short {env : Env} {pid : Nat} (h : ShortRun env r camera pid) :
    r.spawnHubLocked env camera = (r.poll pid).2.book camera pid false (env.later camera) := by
  have hpoll : (r.poll pid).1 = true := by simp [poll, h.dead]
  have hspawned : (r.poll pid).2.spawnedAt = r.spawnedAt := by simp [poll, h.dead]
  have hshort := not_le.mpr h.short
  simp only [spawnHubLocked, h.proc, hpoll, Bool.true_eq_false, if_false, hspawned, decide_eq_false hshort]

/-- A process of the camera has ended by itself, after it ran for long. -/
structure LongRun (env : Env) (r : Recorder) (camera : String) (pid : Nat) : Prop where
  proc : r.procs.get? camera = some pid
  dead : (r.child pid).alive = false
  long : HEALTHY_AFTER ≤ env.now camera - (r.spawnedAt.get? camera).getD 0

theorem spawnHub_long {env : Env} {pid : Nat} (h : LongRun env r camera pid) :
    r.spawnHubLocked env camera = (r.poll pid).2.book camera pid true (env.later camera) := by
  have hpoll : (r.poll pid).1 = true := by simp [poll, h.dead]
  have hspawned : (r.poll pid).2.spawnedAt = r.spawnedAt := by simp [poll, h.dead]
  simp only [spawnHubLocked, h.proc, hpoll, Bool.true_eq_false, if_false, hspawned, decide_eq_true h.long]

/-- The failures begin anew, and the camera need not wait. -/
theorem book_healthy (r : Recorder) (camera : String) (pid : Nat) (now : ℚ) :
    (r.book camera pid true now).2.count camera = 0 ∧
      (r.book camera pid true now).2.retryAt.get? camera = some (now + 0) := by
  have hzero : ((r.fails.set camera 0).get? camera).getD 0 = 0 := by rw [Dict.get?_set, if_pos rfl, Option.getD_some]
  have hdelay : retryDelay (r.fails.set camera 0) camera = some 0 := by
    rw [retryDelay, hzero]
    rfl
  refine ⟨hzero, ?_⟩
  simp only [book, if_true, hdelay, Option.elim_some]
  rw [Dict.get?_set, if_pos rfl]

/-- A process of the camera has grown too large, and its end is confirmed. -/
structure Balloons (env : Env) (r : Recorder) (camera : String) (pid : Nat) : Prop where
  alive : (r.child pid).alive = true
  large : ∃ rss, env.rss camera = some rss ∧ RSS_LIMIT_BYTES < rss
  confirms : env.confirms camera = true

theorem watchdogOne_balloon {env : Env} {pid : Nat} (h : Balloons env r camera pid) :
    r.watchdogOne env (camera, pid) = (r.reap pid).book camera pid false (env.later camera) := by
  obtain ⟨rss, hrss, hlarge⟩ := h.large
  simp [watchdogOne, poll, h.alive, hrss, not_le.mpr hlarge, h.confirms]

/-! ## Until the retry time -/

/-- The camera has no process, and is not to have one before a time. -/
def Waits (camera : String) (due : ℚ) (r : Recorder) : Prop :=
  r.procs.get? camera = none ∧ r.retryAt.get? camera = some due

/-- A camera that waits goes on waiting, and nothing is started for it, unless its
state is dropped. -/
def Calm (camera : String) (due : ℚ) (r r' : Recorder) : Prop :=
  ∃ es, r'.log = r.log ++ es ∧
    (r.Waits camera due → .cleared camera ∈ es ∨ (r'.Waits camera due ∧ ∀ pid, .born camera pid ∉ es))

variable {due : ℚ}

namespace Calm

theorem refl (r : Recorder) : Calm camera due r r :=
  ⟨[], (List.append_nil _).symm, fun h => .inr ⟨h, fun _ hmem => by cases hmem⟩⟩

theorem trans {r'' : Recorder} (h : Calm camera due r r') (h' : Calm camera due r' r'') : Calm camera due r r'' := by
  obtain ⟨es, hes, hwaits⟩ := h
  obtain ⟨es', hes', hwaits'⟩ := h'
  refine ⟨es ++ es', by rw [hes', hes, List.append_assoc], fun hstart => ?_⟩
  rcases hwaits hstart with hcleared | ⟨hmid, hnone⟩
  · exact .inl (List.mem_append_left _ hcleared)
  rcases hwaits' hmid with hcleared | ⟨hend, hnone'⟩
  · exact .inl (List.mem_append_right _ hcleared)
  · refine .inr ⟨hend, fun pid hmem => ?_⟩
    rcases List.mem_append.mp hmem with hmem | hmem
    · exact hnone pid hmem
    · exact hnone' pid hmem

/-- The tables are as they were. -/
theorem same (hprocs : r'.procs = r.procs) (hretry : r'.retryAt = r.retryAt) (hlog : r'.log = r.log) :
    Calm camera due r r' := by
  refine ⟨[], by rw [hlog, List.append_nil], fun h => .inr ⟨?_, fun _ hmem => by cases hmem⟩⟩
  rw [Waits, hprocs, hretry]
  exact h

theorem poll (r : Recorder) (pid : Nat) : Calm camera due r (r.poll pid).2 := by
  unfold Recorder.poll
  split
  · exact refl r
  · exact same rfl rfl rfl

theorem retireProcess (r : Recorder) (confirms : Bool) (pid : Nat) :
    Calm camera due r (r.retireProcess confirms pid).2 := by
  simp only [Recorder.retireProcess]
  split
  · exact poll r pid
  split
  · exact (poll r pid).trans (same rfl rfl rfl)
  · exact poll r pid

theorem forget (r : Recorder) (other : String) : Calm camera due r (r.forget other) := by
  refine ⟨[.cleared other], rfl, fun h => ?_⟩
  by_cases heq : camera = other
  · exact .inl (by rw [heq]; exact List.mem_singleton_self _)
  · refine .inr ⟨⟨?_, ?_⟩, fun pid hmem => by cases List.mem_singleton.mp hmem⟩
    · rw [Recorder.forget, Dict.get?_erase, if_neg heq]
      exact h.1
    · rw [Recorder.forget, Dict.get?_erase, if_neg heq]
      exact h.2

/-- A death of another camera. -/
theorem book {other : String} (hne : camera ≠ other) (r : Recorder) (pid : Nat) (healthy : Bool) (now : ℚ) :
    Calm camera due r (r.book other pid healthy now).2 := by
  refine ⟨[.booked other pid healthy], rfl, fun h => .inr ⟨⟨?_, ?_⟩, fun pid hmem => by cases List.mem_singleton.mp hmem⟩⟩
  · rw [Recorder.book, Dict.get?_erase, if_neg hne]
    exact h.1
  · simp only [Recorder.book]
    generalize retryDelay _ other = delay
    cases delay with
    | none => exact h.2
    | some delay =>
      rw [Option.elim_some, Dict.get?_set, if_neg hne]
      exact h.2

theorem birth {other : String} (hne : camera ≠ other) (r : Recorder) (now : ℚ) :
    Calm camera due r (r.birth other now) := by
  refine ⟨[.born other r.born], rfl, fun h => .inr ⟨⟨?_, h.2⟩, fun pid hmem => ?_⟩⟩
  · rw [Recorder.birth, Dict.get?_set, if_neg hne]
    exact h.1
  · cases List.mem_singleton.mp hmem
    exact hne rfl

/-- What is about a camera that does not wait. -/
theorem of_not (hwaits : ¬ r.Waits camera due) (hlog : ∃ es, r'.log = r.log ++ es) : Calm camera due r r' := by
  obtain ⟨es, hes⟩ := hlog
  exact ⟨es, hes, fun h => absurd h hwaits⟩

theorem spawnHubLocked (env : Env) (hclock : env.now camera < due) (r : Recorder) (other : String) :
    Calm camera due r (r.spawnHubLocked env other).2 := by
  rw [Recorder.spawnHubLocked]
  split
  · rename_i pid hpid
    dsimp only
    split
    · exact poll r pid
    · refine (poll r pid).trans ?_
      by_cases hne : camera = other
      · subst hne
        refine of_not (fun hwaits => ?_) ⟨_, rfl⟩
        have hprocs : (r.poll pid).2.procs = r.procs := by
          unfold Recorder.poll
          split
          · rfl
          · rfl
        rw [Waits, hprocs, hpid] at hwaits
        cases hwaits.1
      · exact book hne _ _ _ _
  · split
    · exact refl r
    rename_i hdue
    split
    · exact refl r
    by_cases hne : camera = other
    · subst hne
      refine of_not (fun hwaits => hdue ?_) ⟨_, rfl⟩
      rw [hwaits.2, Option.getD_some]
      exact hclock
    · exact birth hne _ _

theorem spawnLocked (env : Env) (hclock : env.now camera < due) (r : Recorder) (other : String) :
    Calm camera due r (r.spawnLocked env other).2 := by
  rw [Recorder.spawnLocked]
  split
  · exact refl r
  split
  · exact refl r
  split
  · exact spawnHubLocked env hclock r other
  split
  · exact refl r
  split
  · exact refl r
  split
  · exact spawnHubLocked env hclock r other
  · exact refl r

theorem retireLocked (env : Env) (r : Recorder) (other : String) : Calm camera due r (r.retireLocked env other).2 := by
  rw [Recorder.retireLocked]
  split
  · exact forget r other
  dsimp only
  split
  · exact (retireProcess r _ _).trans (forget _ other)
  · exact retireProcess r _ _

theorem forEach {α : Type} {body : Recorder → α → Bool × Recorder} (items : List α)
    (hbody : ∀ r, ∀ item ∈ items, Calm camera due r (body r item).2) (r : Recorder) :
    Calm camera due r (Recorder.forEach body items r).2 := by
  induction items generalizing r with
  | nil => exact refl r
  | cons item items ih =>
    have hfirst := hbody r item List.mem_cons_self
    rw [Recorder.forEach]
    dsimp only
    split
    · exact hfirst.trans (ih (fun r other hmem => hbody r other (List.mem_cons_of_mem _ hmem)) _)
    · exact hfirst

theorem watchdogOne (env : Env) {entry : String × Nat} (hne : camera ≠ entry.1) (r : Recorder) :
    Calm camera due r (r.watchdogOne env entry).2 := by
  rw [Recorder.watchdogOne]
  dsimp only
  split
  · exact poll r _
  split
  · exact poll r _
  split
  · exact poll r _
  split
  · exact poll r _
  · exact ((poll r _).trans (same rfl rfl rfl)).trans (book hne _ _ _ _)

theorem poll_log (r : Recorder) (pid : Nat) : (r.poll pid).2.log = r.log := by
  unfold Recorder.poll
  split
  · rfl
  · rfl

theorem watchdog_log (env : Env) (entries : List (String × Nat)) (r : Recorder) :
    ∃ es, (Recorder.forEach (Recorder.watchdogOne env) entries r).2.log = r.log ++ es := by
  induction entries generalizing r with
  | nil => exact ⟨[], (List.append_nil _).symm⟩
  | cons entry entries ih =>
    have hone : ∃ es, (r.watchdogOne env entry).2.log = r.log ++ es := by
      rw [Recorder.watchdogOne]
      dsimp only
      split
      · exact ⟨[], by rw [poll_log, List.append_nil]⟩
      split
      · exact ⟨[], by rw [poll_log, List.append_nil]⟩
      split
      · exact ⟨[], by rw [poll_log, List.append_nil]⟩
      split
      · exact ⟨[], by rw [poll_log, List.append_nil]⟩
      · exact ⟨_, congrArg (· ++ [_]) (poll_log r entry.2)⟩
    obtain ⟨es, hes⟩ := hone
    rw [Recorder.forEach]
    dsimp only
    split
    · obtain ⟨es', hes'⟩ := ih (r.watchdogOne env entry).2
      exact ⟨es ++ es', by rw [hes', hes, List.append_assoc]⟩
    · exact ⟨es, hes⟩

theorem watchdogLocked (env : Env) (r : Recorder) : Calm camera due r (r.watchdogLocked env).2 := by
  by_cases hwaits : r.Waits camera due
  · refine forEach _ (fun r' entry hmem => watchdogOne env (fun heq => ?_) r') r
    have hproc := Dict.get?_eq_some.mpr hmem
    rw [← heq, hwaits.1] at hproc
    cases hproc
  · exact of_not hwaits (watchdog_log env _ r)

theorem terminateEach (env : Env) (entries : List (String × Nat)) (r : Recorder) :
    Calm camera due r (Recorder.terminateEach env entries r).2 := by
  induction entries generalizing r with
  | nil => exact refl r
  | cons entry entries ih =>
    simp only [Recorder.terminateEach]
    split
    · exact ((retireProcess r _ _).trans (forget _ _)).trans (ih _)
    · exact (retireProcess r _ _).trans (ih _)

theorem forgetAll (cameras : List String) (r : Recorder) : Calm camera due r (cameras.foldl Recorder.forget r) := by
  induction cameras generalizing r with
  | nil => exact refl r
  | cons other cameras ih => exact (forget r other).trans (ih _)

theorem terminateAllLocked (env : Env) (r : Recorder) : Calm camera due r (r.terminateAllLocked env).2 :=
  (terminateEach env _ r).trans (forgetAll _ _)

theorem spawnEach (env : Env) (hclock : env.now camera < due) (cameras : List String) (r : Recorder) :
    Calm camera due r (Recorder.forEach (Recorder.spawnLocked env) cameras r).2 :=
  forEach _ (fun r other _ => spawnLocked env hclock r other) r

theorem retireEach (env : Env) (cameras : List String) (r : Recorder) :
    Calm camera due r (Recorder.forEach (Recorder.retireLocked env) cameras r).2 :=
  forEach _ (fun r other _ => retireLocked env r other) r

theorem supervise (env : Env) (hclock : env.now camera < due) (r : Recorder) : Calm camera due r (r.supervise env) := by
  simp only [Recorder.supervise]
  split
  · exact (watchdogLocked env r).trans (spawnEach env hclock _ _)
  · exact watchdogLocked env r

theorem step (env : Env) (hclock : env.now camera < due) (r : Recorder) (op : RecorderOp) :
    Calm camera due r (r.step env op).2 := by
  cases op with
  | start cameras =>
    simp only [Recorder.step, start]
    split
    · exact refl r
    have hcameras : Calm camera due r { r with cameras := usable cameras } := same rfl rfl rfl
    split
    · exact hcameras.trans (retireEach env _ _)
    · exact (hcameras.trans (retireEach env _ _)).trans (spawnEach env hclock _ _)
  | pause =>
    simp only [Recorder.step, pause]
    split
    · exact refl r
    · exact (same rfl rfl rfl).trans (terminateAllLocked env _)
  | resume =>
    simp only [Recorder.step, resume]
    split
    · split
      · exact (terminateAllLocked env r).trans (same rfl rfl rfl)
      · exact terminateAllLocked env r
    · exact same rfl rfl rfl
  | stop => exact terminateAllLocked env r
  | supervise => exact supervise env hclock r
  | maintain =>
    simp only [Recorder.step, maintain]
    split
    · exact refl r
    · exact supervise env hclock r
  | suspend other =>
    simp only [Recorder.step, suspend]
    split
    · exact refl r
    split
    · exact refl r
    have hheld : Calm camera due r { r with held := r.held.set other false } := same rfl rfl rfl
    split
    · exact (hheld.trans (retireLocked env _ other)).trans (same rfl rfl rfl)
    · exact hheld.trans (retireLocked env _ other)
  | resumeIngress other =>
    simp only [Recorder.step, resumeIngress]
    split
    · exact refl r
    split
    · exact refl r
    split
    · exact refl r
    · exact same rfl rfl rfl
  | isRecording other =>
    simp only [Recorder.step, isRecording]
    split
    · exact refl r
    · exact poll r _
  | exit pid =>
    simp only [Recorder.step, exit]
    split
    · refine ⟨[.died (r.child pid).camera pid], rfl, fun h => .inr ⟨h, fun p hmem => ?_⟩⟩
      cases List.mem_singleton.mp hmem
    · exact refl r

end Calm

/-- **Nothing is started before the retry time**: whatever is asked of the recorder
until then, unless the camera's state is dropped. -/
theorem waits_run (calls : List (Env × RecorderOp)) (hclock : ∀ call ∈ calls, call.1.now camera < due) (r : Recorder) :
    Calm camera due r (calls.foldl (fun r call => (r.step call.1 call.2).2) r) := by
  induction calls generalizing r with
  | nil => exact .refl r
  | cons call calls ih =>
    have hfirst : Calm camera due r (r.step call.1 call.2).2 :=
      Calm.step call.1 (hclock call List.mem_cons_self) r call.2
    exact hfirst.trans (ih (fun other hmem => hclock other (List.mem_cons_of_mem _ hmem)) _)

/-! ## A pass -/

/-- A death of a camera that would be its 1025th failure in a row, or a later one. -/
def Overflows (env : Env) (r : Recorder) (camera : String) : Prop :=
  ∃ pid, ShortRun env r camera pid ∧ 1024 ≤ r.count camera

/-- A camera for which the supervision raises: for its policy, for its process, or
for its failures. -/
def Raises (env : Env) (r : Recorder) (camera : String) : Prop :=
  r.paused = false ∧ r.held.contains camera = false ∧
    (env.policy camera = none ∨ (Admitted env camera ∧
      (Overflows env r camera ∨
        (r.procs.get? camera = none ∧ (r.retryAt.get? camera).getD 0 ≤ env.now camera ∧ env.starts camera = false))))

theorem poll_tables (r : Recorder) (pid : Nat) : (r.poll pid).2.procs = r.procs ∧ (r.poll pid).2.retryAt = r.retryAt ∧
    (r.poll pid).2.fails = r.fails ∧ (r.poll pid).2.spawnedAt = r.spawnedAt ∧ (r.poll pid).2.paused = r.paused ∧
    (r.poll pid).2.held = r.held ∧ (r.poll pid).2.born = r.born ∧
    ∀ p, ((r.poll pid).2.child p).alive = (r.child p).alive := by
  unfold poll
  split
  · exact ⟨rfl, rfl, rfl, rfl, rfl, rfl, rfl, fun _ => rfl⟩
  · refine ⟨rfl, rfl, rfl, rfl, rfl, rfl, rfl, fun p => ?_⟩
    simp only [Function.update_apply]
    split
    · next heq => rw [heq]
    · rfl

theorem book_returns (r : Recorder) (camera : String) (pid : Nat) (healthy : Bool) (now : ℚ) :
    (r.book camera pid healthy now).1 = true ↔ healthy = true ∨ r.count camera < 1024 := by
  simp only [book]
  cases healthy with
  | true =>
    have hzero : ((r.fails.set camera 0).get? camera).getD 0 = 0 := by rw [Dict.get?_set, if_pos rfl, Option.getD_some]
    simp [retryDelay, hzero]
  | false =>
    have hcount : ((r.fails.set camera (r.count camera + 1)).get? camera).getD 0 = r.count camera + 1 := by
      rw [Dict.get?_set, if_pos rfl, Option.getD_some]
    by_cases hfloat : r.count camera < 1024
    · have hsome := retryDelay_some (by omega : 1 ≤ ((r.fails.set camera (r.count camera + 1)).get? camera).getD 0) (by omega)
      exact iff_of_true (congrArg Option.isSome hsome) (.inr hfloat)
    · have hnone := retryDelay_none (by omega : 1024 < ((r.fails.set camera (r.count camera + 1)).get? camera).getD 0)
      refine iff_of_false (fun hsome => ?_) (fun h => h.elim Bool.noConfusion hfloat)
      cases (congrArg Option.isSome hnone).symm.trans hsome

theorem spawnHub_returns (env : Env) (r : Recorder) (camera : String) : (r.spawnHubLocked env camera).1 = true ↔
    ¬ (Overflows env r camera ∨
      (r.procs.get? camera = none ∧ (r.retryAt.get? camera).getD 0 ≤ env.now camera ∧ env.starts camera = false)) := by
  unfold Overflows
  cases hproc : r.procs.get? camera with
  | some pid =>
    obtain ⟨-, -, hfails, hspawned, -, -, -, -⟩ := poll_tables r pid
    have hcount : (r.poll pid).2.count camera = r.count camera := by rw [count, hfails, count]
    have hleft : (r.spawnHubLocked env camera).1 = true ↔ (r.child pid).alive = true ∨
        HEALTHY_AFTER ≤ env.now camera - (r.spawnedAt.get? camera).getD 0 ∨ r.count camera < 1024 := by
      simp only [spawnHubLocked, hproc]
      cases halive : (r.child pid).alive with
      | true => simp [poll, halive]
      | false =>
        have hpoll : (r.poll pid).1 = true := by simp [poll, halive]
        simp only [hpoll, Bool.true_eq_false, if_false, book_returns, hcount, hspawned, decide_eq_true_eq]
        exact (or_iff_right Bool.false_ne_true).symm
    rw [hleft]
    constructor
    · rintro hreturns (⟨p, hshort, hlarge⟩ | ⟨hnone, -⟩)
      · have hpid := hproc.symm.trans hshort.proc
        cases hpid
        rcases hreturns with halive | hhealthy | hfloat
        · cases halive.symm.trans hshort.dead
        · exact absurd hshort.short (not_lt.mpr hhealthy)
        · omega
      · cases hnone
    · intro hno
      by_contra hall
      rw [not_or, not_or] at hall
      obtain ⟨hdead, hshort, hlarge⟩ := hall
      exact hno (.inl ⟨pid, ⟨hproc, by simpa using hdead, not_le.mp hshort⟩, by omega⟩)
  | none =>
    simp only [spawnHubLocked, hproc]
    constructor
    · rintro hreturns (⟨p, hshort, -⟩ | ⟨-, hdue, hstarts⟩)
      · cases hproc.symm.trans hshort.proc
      · rw [if_neg (not_lt.mpr hdue), if_pos hstarts] at hreturns
        cases hreturns
    · intro hno
      split
      · rfl
      rename_i hdue
      split
      · rename_i hstarts
        exact absurd (.inr ⟨trivial, not_lt.mp hdue, hstarts⟩) hno
      · rfl

/-- **When the supervision of a camera raises.** -/
theorem spawnLocked_returns (env : Env) (r : Recorder) (camera : String) :
    (r.spawnLocked env camera).1 = true ↔ ¬ Raises env r camera := by
  unfold Raises
  rw [spawnLocked]
  split
  · rename_i hgate
    refine iff_of_true rfl fun h => ?_
    rcases hgate with hpaused | hheld
    · cases hpaused.symm.trans h.1
    · cases hheld.symm.trans h.2.1
  rename_i hgate
  rw [not_or, Bool.not_eq_true, Bool.not_eq_true] at hgate
  split
  · rename_i hpolicy
    exact iff_of_false Bool.noConfusion fun h => h ⟨hgate.1, hgate.2, .inl hpolicy⟩
  rename_i selection hpolicy
  have hnot : Admitted env camera → ((r.spawnHubLocked env camera).1 = true ↔ ¬ Raises env r camera) := by
    intro hadmitted
    rw [spawnHub_returns]
    refine not_congr ⟨fun h => ⟨hgate.1, hgate.2, .inr ⟨hadmitted, h⟩⟩, fun h => ?_⟩
    rcases h.2.2 with hnone | ⟨-, hraises⟩
    · cases hpolicy.symm.trans hnone
    · exact hraises
  have hother : (¬ Admitted env camera) → ¬ Raises env r camera := by
    rintro hno ⟨-, -, hnone | ⟨hadmitted, -⟩⟩
    · cases hpolicy.symm.trans hnone
    · exact hno hadmitted
  split
  · rename_i hlegacy
    exact hnot ⟨selection, hpolicy, .inl hlegacy⟩
  rename_i hlegacy
  -- Without a legacy permit only a binding of the camera admits it.
  have hadmitted : Admitted env camera → ∃ bindings binding, env.ownedIngress = some bindings ∧
      bindings camera = some binding ∧ binding.matches camera selection = true := by
    rintro ⟨selection', hpolicy', hpermits | hbound⟩
    · cases hpolicy.symm.trans hpolicy'
      exact absurd hpermits hlegacy
    · cases hpolicy.symm.trans hpolicy'
      exact hbound
  split
  · rename_i hnone
    refine iff_of_true rfl (hother fun h => ?_)
    obtain ⟨bindings, -, hsome, -⟩ := hadmitted h
    cases hnone.symm.trans hsome
  rename_i bindings hbindings
  split
  · rename_i hnone
    refine iff_of_true rfl (hother fun h => ?_)
    obtain ⟨bindings', binding, hsome, hbinding, -⟩ := hadmitted h
    cases hbindings.symm.trans hsome
    cases hnone.symm.trans hbinding
  rename_i binding hbinding
  split
  · rename_i hmatches
    exact hnot ⟨selection, hpolicy, .inr ⟨bindings, binding, hbindings, hbinding, hmatches⟩⟩
  · rename_i hmatches
    refine iff_of_true rfl (hother fun h => ?_)
    obtain ⟨bindings', binding', hsome, hbinding', hm⟩ := hadmitted h
    cases hbindings.symm.trans hsome
    cases hbinding.symm.trans hbinding'
    exact hmatches hm

/-- What is read of a camera is as it was. -/
structure Aside (camera : String) (r r' : Recorder) : Prop where
  paused : r'.paused = r.paused
  held : r'.held = r.held
  procs : r'.procs.get? camera = r.procs.get? camera
  retryAt : r'.retryAt.get? camera = r.retryAt.get? camera
  fails : r'.fails.get? camera = r.fails.get? camera
  spawnedAt : r'.spawnedAt.get? camera = r.spawnedAt.get? camera
  child : ∀ pid, r.procs.get? camera = some pid → (r'.child pid).alive = (r.child pid).alive

namespace Aside

theorem refl (r : Recorder) : Aside camera r r := ⟨rfl, rfl, rfl, rfl, rfl, rfl, fun _ _ => rfl⟩

theorem trans {r'' : Recorder} (h : Aside camera r r') (h' : Aside camera r' r'') : Aside camera r r'' :=
  ⟨h'.paused.trans h.paused, h'.held.trans h.held, h'.procs.trans h.procs, h'.retryAt.trans h.retryAt,
    h'.fails.trans h.fails, h'.spawnedAt.trans h.spawnedAt,
    fun pid hpid => (h'.child pid (h.procs.trans hpid)).trans (h.child pid hpid)⟩

theorem poll (r : Recorder) (pid : Nat) : Aside camera r (r.poll pid).2 := by
  obtain ⟨hprocs, hretry, hfails, hspawned, hpaused, hheld, -, halive⟩ := poll_tables r pid
  exact ⟨hpaused, hheld, by rw [hprocs], by rw [hretry], by rw [hfails], by rw [hspawned], fun p _ => halive p⟩

theorem book {other : String} (hne : camera ≠ other) (r : Recorder) (pid : Nat) (healthy : Bool) (now : ℚ) :
    Aside camera r (r.book other pid healthy now).2 := by
  refine ⟨rfl, rfl, ?_, ?_, ?_, ?_, fun _ _ => rfl⟩
  · rw [Recorder.book, Dict.get?_erase, if_neg hne]
  · simp only [Recorder.book]
    generalize retryDelay _ other = delay
    cases delay with
    | none => rfl
    | some delay => rw [Option.elim_some, Dict.get?_set, if_neg hne]
  · rw [Recorder.book, Dict.get?_set, if_neg hne]
  · rw [Recorder.book, Dict.get?_erase, if_neg hne]

theorem birth {other : String} (hne : camera ≠ other) (h : Inv r) (now : ℚ) : Aside camera r (r.birth other now) := by
  refine ⟨rfl, rfl, ?_, rfl, rfl, ?_, fun pid hpid => ?_⟩
  · rw [Recorder.birth, Dict.get?_set, if_neg hne]
  · rw [Recorder.birth, Dict.get?_set, if_neg hne]
  · rw [birth_other (h.table camera pid hpid).1]

theorem spawnHubLocked (env : Env) {other : String} (hne : camera ≠ other) (h : Inv r) :
    Aside camera r (r.spawnHubLocked env other).2 := by
  rw [Recorder.spawnHubLocked]
  split
  · dsimp only
    split
    · exact poll r _
    · exact (poll r _).trans (book hne _ _ _ _)
  · split
    · exact refl r
    split
    · exact refl r
    · exact birth hne h _

theorem spawnLocked (env : Env) {other : String} (hne : camera ≠ other) (h : Inv r) :
    Aside camera r (r.spawnLocked env other).2 := by
  rw [Recorder.spawnLocked]
  split
  · exact refl r
  split
  · exact refl r
  split
  · exact spawnHubLocked env hne h
  split
  · exact refl r
  split
  · exact refl r
  split
  · exact spawnHubLocked env hne h
  · exact refl r

/-- Whether a camera raises is its own affair. -/
theorem raises (h : Aside camera r r') (env : Env) : Raises env r' camera ↔ Raises env r camera := by
  have hcount : r'.count camera = r.count camera := by rw [count, h.fails, count]
  have hshort : ∀ pid, ShortRun env r' camera pid ↔ ShortRun env r camera pid := by
    intro pid
    constructor
    · rintro ⟨hproc, hdead, htime⟩
      rw [h.procs] at hproc
      rw [h.spawnedAt] at htime
      exact ⟨hproc, (h.child pid hproc).symm.trans hdead, htime⟩
    · rintro ⟨hproc, hdead, htime⟩
      exact ⟨h.procs.trans hproc, (h.child pid hproc).trans hdead, by rw [h.spawnedAt]; exact htime⟩
  have hoverflows : Overflows env r' camera ↔ Overflows env r camera := by
    simp only [Overflows, hshort, hcount]
  rw [Raises, Raises, h.paused, h.held, hoverflows, h.procs, h.retryAt]

end Aside

theorem spawnLocked_inv (env : Env) (h : Inv r) (other : String) : Inv (r.spawnLocked env other).2 := by
  have hevolves : Evolves (fun _ => True) (fun _ => True) r (r.spawnLocked env other).2 :=
    spawnLocked_evolves env h fun _ _ _ => trivial
  exact hevolves.inv

/-- **A loop goes over every camera** exactly if the supervision of none of them
raises. -/
theorem spawnEach_returns (env : Env) {cameras : List String} (hnodup : cameras.Nodup) (h : Inv r) :
    (forEach (spawnLocked env) cameras r).1 = true ↔ ∀ camera ∈ cameras, ¬ Raises env r camera := by
  induction cameras generalizing r with
  | nil => simp [forEach]
  | cons first cameras ih =>
    rw [List.nodup_cons] at hnodup
    have hfirst := spawnLocked_returns env r first
    have hrest := ih hnodup.2 (spawnLocked_inv env h first)
    have haside : ∀ camera ∈ cameras, Aside camera r (r.spawnLocked env first).2 :=
      fun camera hmem => .spawnLocked env (fun heq => hnodup.1 (heq ▸ hmem)) h
    rw [forEach, List.forall_mem_cons]
    dsimp only
    split
    · rename_i hok
      rw [hrest, and_iff_right (hfirst.mp hok)]
      exact forall₂_congr fun camera hmem => not_congr ((haside camera hmem).raises env)
    · rename_i hok
      exact iff_of_false Bool.noConfusion fun hall => hok (hfirst.mpr hall.1)

theorem Aside.reap (h : Inv r) {other : String} (hne : camera ≠ other) {pid : Nat} (hpid : r.procs.get? other = some pid) :
    Aside camera r (r.reap pid) := by
  refine ⟨rfl, rfl, rfl, rfl, rfl, rfl, fun p hp => ?_⟩
  have hdistinct : p ≠ pid := by
    rintro rfl
    exact hne ((h.table camera p hp).2.symm.trans (h.table other p hpid).2)
  rw [reap_other hdistinct]

theorem Aside.watchdogOne (env : Env) (h : Inv r) {other : String} (hne : camera ≠ other) {pid : Nat}
    (hpid : r.procs.get? other = some pid) : Aside camera r (r.watchdogOne env (other, pid)).2 := by
  rw [Recorder.watchdogOne]
  cases halive : (r.child pid).alive with
  | false =>
    simp only [poll_dead halive, if_true]
    exact .reap h hne hpid
  | true =>
    simp only [poll_alive halive, Bool.false_eq_true, if_false]
    split
    · exact .refl r
    split
    · exact .refl r
    split
    · exact .refl r
    · exact (Aside.reap h hne hpid).trans (.book hne _ _ _ _)

theorem watchdogOne_returns (env : Env) (r : Recorder) (camera : String) (pid : Nat) :
    (r.watchdogOne env (camera, pid)).1 = true ↔ ¬ (Balloons env r camera pid ∧ 1024 ≤ r.count camera) := by
  by_cases hballoons : Balloons env r camera pid
  · rw [watchdogOne_balloon hballoons, book_returns, and_iff_right hballoons]
    have hcount : (r.reap pid).count camera = r.count camera := rfl
    rw [hcount]
    exact ⟨fun h => by have := h.resolve_left Bool.false_ne_true; omega, fun h => .inr (by omega)⟩
  · refine iff_of_true ?_ fun h => hballoons h.1
    rw [watchdogOne]
    cases halive : (r.child pid).alive with
    | false =>
      simp only [poll_dead halive, if_true]
    | true =>
      simp only [poll_alive halive, Bool.false_eq_true, if_false]
      split
      · rfl
      rename_i rss hrss
      split
      · rfl
      rename_i hlarge
      split
      · rfl
      rename_i hconfirms
      exact absurd ⟨halive, ⟨rss, hrss, not_le.mp hlarge⟩, by simpa using hconfirms⟩ hballoons

theorem Aside.balloons (h : Aside camera r r') (env : Env) {pid : Nat} (hpid : r.procs.get? camera = some pid) :
    Balloons env r' camera pid ↔ Balloons env r camera pid := by
  have hchild := h.child pid hpid
  exact ⟨fun hb => ⟨hchild.symm.trans hb.alive, hb.large, hb.confirms⟩, fun hb => ⟨hchild.trans hb.alive, hb.large, hb.confirms⟩⟩

/-- **The watchdog goes over every process** exactly if none that it kills is one
failure too many. -/
theorem watchdog_returns (env : Env) (entries : List (String × Nat)) (h : Inv r)
    (hentries : ∀ e ∈ entries, r.procs.get? e.1 = some e.2) (hnodup : (entries.map Prod.fst).Nodup) :
    (forEach (watchdogOne env) entries r).1 = true ↔
      ∀ e ∈ entries, ¬ (Balloons env r e.1 e.2 ∧ 1024 ≤ r.count e.1) := by
  induction entries generalizing r with
  | nil => simp [forEach]
  | cons entry entries ih =>
    obtain ⟨first, pid⟩ := entry
    rw [List.map_cons, List.nodup_cons] at hnodup
    have hpid : r.procs.get? first = some pid := hentries (first, pid) List.mem_cons_self
    have hfirst := watchdogOne_returns env r first pid
    have hevolves : Evolves (fun _ => True) (fun _ => True) r (r.watchdogOne env (first, pid)).2 :=
      (watchdogOne_evolves env h hpid).1
    have haside : ∀ e ∈ entries, Aside e.1 r (r.watchdogOne env (first, pid)).2 := fun e hmem =>
      .watchdogOne env h (fun heq => hnodup.1 (List.mem_map.mpr ⟨e, hmem, heq⟩)) hpid
    have hrest := ih hevolves.inv
      (fun e hmem => (haside e hmem).procs.trans (hentries e (List.mem_cons_of_mem _ hmem))) hnodup.2
    rw [forEach, List.forall_mem_cons]
    dsimp only
    split
    · rename_i hok
      rw [hrest, and_iff_right (hfirst.mp hok)]
      refine forall₂_congr fun e hmem => not_congr (and_congr ?_ ?_)
      · exact (haside e hmem).balloons env (hentries e (List.mem_cons_of_mem _ hmem))
      · rw [count, count, (haside e hmem).fails]
    · rename_i hok
      exact iff_of_false Bool.noConfusion fun hall => hok (hfirst.mpr hall.1)

/-- What a pass owes to a camera. -/
structure Served (env : Env) (camera : String) (r r' : Recorder) : Prop where
  booked : ∀ pid, ShortRun env r camera pid → Booked camera (r.count camera + 1) (env.later camera) (true, r')
  forgiven : ∀ pid, LongRun env r camera pid → r'.count camera = 0 ∧
    r'.retryAt.get? camera = some (env.later camera + 0)
  respawned : r.procs.get? camera = none → (r.retryAt.get? camera).getD 0 ≤ env.now camera →
    ∃ pid, r'.procs.get? camera = some pid

/-- With the gate open, a camera that does not raise is served. -/
theorem spawnLocked_serves (env : Env) (hpaused : r.paused = false) (hheld : r.held.contains camera = false)
    (hadmitted : Admitted env camera) (hreturns : ¬ Raises env r camera) :
    Served env camera r (r.spawnLocked env camera).2 := by
  have hhub : r.spawnLocked env camera = r.spawnHubLocked env camera := by
    obtain ⟨selection, hpolicy, hpermits⟩ := hadmitted
    rw [spawnLocked, if_neg (by simp [hpaused, hheld]), hpolicy]
    dsimp only
    split
    · rfl
    rename_i hlegacy
    obtain ⟨bindings, binding, hbindings, hbinding, hmatches⟩ := hpermits.resolve_left hlegacy
    simp only [hbindings, hbinding, hmatches, if_true]
  rw [hhub]
  have hno : ∀ reason, (reason → Overflows env r camera ∨ (r.procs.get? camera = none ∧
      (r.retryAt.get? camera).getD 0 ≤ env.now camera ∧ env.starts camera = false)) → ¬ reason :=
    fun reason himplies hreason => hreturns ⟨hpaused, hheld, .inr ⟨hadmitted, himplies hreason⟩⟩
  constructor
  · intro pid hshort
    have hfloat : r.count camera < 1024 := by
      by_contra hlarge
      exact hno True (fun _ => .inl ⟨pid, hshort, by omega⟩) trivial
    have hcount : (r.poll pid).2.count camera = r.count camera := by
      rw [count, (poll_tables r pid).2.2.1, count]
    have hbooked := (book_iff (r.poll pid).2 camera pid (env.later camera)).mpr (hcount.trans_lt hfloat)
    rw [hcount] at hbooked
    rw [spawnHub_short hshort]
    exact ⟨rfl, hbooked.2⟩
  · intro pid hlong
    rw [spawnHub_long hlong]
    exact book_healthy _ camera pid _
  · intro hnone hdue
    have hstarts : env.starts camera = true := by
      by_contra hfails
      exact hno True (fun _ => .inr ⟨hnone, hdue, by simpa using hfails⟩) trivial
    rw [spawnHubLocked, hnone]
    simp only [not_lt.mpr hdue, if_false, hstarts, Bool.true_eq_false]
    exact ⟨r.born, by rw [birth, Dict.get?_set, if_pos rfl]⟩

theorem Aside.served {r₀ r₁ : Recorder} {env : Env} (hbefore : Aside camera r₀ r) (hafter : Aside camera r₁ r')
    (h : Served env camera r r₁) : Served env camera r₀ r' := by
  have hcount : r.count camera = r₀.count camera := by rw [count, hbefore.fails, count]
  have hcount' : r'.count camera = r₁.count camera := by rw [count, hafter.fails, count]
  constructor
  · intro pid hshort
    obtain ⟨-, hfailures, delay, hdelay, hretry, hbounds⟩ := h.booked pid ⟨hbefore.procs.trans hshort.proc,
      (hbefore.child pid hshort.proc).trans hshort.dead, by rw [hbefore.spawnedAt]; exact hshort.short⟩
    refine ⟨rfl, hcount'.trans (hfailures.trans (congrArg (· + 1) hcount)), delay, ?_, hafter.retryAt.trans hretry, hbounds⟩
    rw [retryDelay, hafter.fails]
    exact hdelay
  · intro pid hlong
    obtain ⟨hzero, hretry⟩ := h.forgiven pid ⟨hbefore.procs.trans hlong.proc,
      (hbefore.child pid hlong.proc).trans hlong.dead, by rw [hbefore.spawnedAt]; exact hlong.long⟩
    exact ⟨hcount'.trans hzero, hafter.retryAt.trans hretry⟩
  · intro hnone hdue
    obtain ⟨pid, hpid⟩ := h.respawned (hbefore.procs.trans hnone) (by rw [hbefore.retryAt]; exact hdue)
    exact ⟨pid, hafter.procs.trans hpid⟩

theorem spawnEach_aside (env : Env) {cameras : List String} (hmem : camera ∉ cameras) (h : Inv r) :
    Aside camera r (forEach (spawnLocked env) cameras r).2 := by
  induction cameras generalizing r with
  | nil => exact .refl r
  | cons first cameras ih =>
    rw [List.mem_cons, not_or] at hmem
    have hfirst : Aside camera r (r.spawnLocked env first).2 := .spawnLocked env hmem.1 h
    rw [forEach]
    dsimp only
    split
    · exact hfirst.trans (ih hmem.2 (spawnLocked_inv env h first))
    · exact hfirst

theorem spawnEach_serves (env : Env) {cameras : List String} (hnodup : cameras.Nodup) (h : Inv r)
    (hok : (forEach (spawnLocked env) cameras r).1 = true) {camera : String} (hmem : camera ∈ cameras)
    (hpaused : r.paused = false) (hheld : r.held.contains camera = false) (hadmitted : Admitted env camera) :
    Served env camera r (forEach (spawnLocked env) cameras r).2 := by
  have hreturns := (spawnEach_returns env hnodup h).mp hok
  induction cameras generalizing r with
  | nil => cases hmem
  | cons first cameras ih =>
    rw [List.nodup_cons] at hnodup
    have hfirst := (spawnLocked_returns env r first).mpr (hreturns first List.mem_cons_self)
    have hinv := spawnLocked_inv env h first
    rw [forEach] at hok ⊢
    dsimp only at hok ⊢
    rw [if_pos hfirst] at hok ⊢
    rcases List.mem_cons.mp hmem with rfl | hrest
    · have hserved := spawnLocked_serves env hpaused hheld hadmitted (hreturns camera List.mem_cons_self)
      exact (Aside.refl r).served (spawnEach_aside env hnodup.1 hinv) hserved
    · have haside : Aside camera r (r.spawnLocked env first).2 :=
        .spawnLocked env (fun heq => hnodup.1 (heq ▸ hrest)) h
      refine haside.served (.refl _) (ih hnodup.2 hinv hok hrest (haside.paused.trans hpaused) ?_ ?_)
      · rw [haside.held]
        exact hheld
      · exact (spawnEach_returns env hnodup.2 hinv).mp hok

/-! ## The cameras of a recorder -/

theorem nodup_eraseDups (cameras : List String) : cameras.eraseDups.Nodup := by
  induction hlength : cameras.length using Nat.strong_induction_on generalizing cameras with
  | _ n ih =>
    cases cameras with
    | nil => simp
    | cons first cameras =>
      have hshorter : (cameras.filter fun other => !other == first).length < n := by
        rw [← hlength, List.length_cons]
        exact Nat.lt_succ_of_le (List.length_filter_le ..)
      rw [List.eraseDups_cons, List.nodup_cons]
      exact ⟨fun hmem => by simpa using List.mem_eraseDups.mp hmem, ih _ hshorter _ rfl⟩

/-- Only `start` changes the cameras. -/
theorem step_cameras (env : Env) (h : Inv r) (op : RecorderOp) :
    (r.step env op).2.cameras = r.cameras ∨ ∃ cameras, (r.step env op).2.cameras = usable cameras := by
  have hterminates : ∀ r : Recorder, Inv r → (r.terminateAllLocked env).2.cameras = r.cameras := by
    intro r h
    have hevolves : Evolves (fun _ => True) (fun _ => True) r (r.terminateAllLocked env).2 :=
      (terminateAll_evolves env (fun _ => trivial) h).1
    exact hevolves.cameras
  have hspawns : ∀ (r : Recorder) (cameras : List String), Inv r →
      (forEach (spawnLocked env) cameras r).2.cameras = r.cameras := by
    intro r cameras h
    have hevolves : Evolves (fun _ => True) (fun _ => True) r (forEach (spawnLocked env) cameras r).2 :=
      spawnEach_evolves env cameras h fun _ _ _ _ => trivial
    exact hevolves.cameras
  cases op with
  | start cameras =>
    simp only [step, start]
    split
    · exact .inl rfl
    have h₁ : Inv { r with cameras := usable cameras } := h.flags rfl rfl rfl rfl rfl
    have hretired : Evolves (fun _ => True) (fun _ => True) { r with cameras := usable cameras }
        (forEach (retireLocked env) (r.procs.keys.filter fun camera => camera ∉ usable cameras)
          { r with cameras := usable cameras }).2 :=
      forEach_evolves _ h₁ fun camera _ r' h' => (retireLocked_evolves env h'.inv trivial).1
    split
    · exact .inr ⟨cameras, hretired.cameras⟩
    · exact .inr ⟨cameras, (hspawns _ _ hretired.inv).trans hretired.cameras⟩
  | pause =>
    simp only [step, pause]
    split
    · exact .inl rfl
    · exact .inl (hterminates _ (h.flags rfl rfl rfl rfl rfl))
  | resume =>
    simp only [step, resume]
    split
    · split
      · exact .inl (hterminates r h)
      · exact .inl (hterminates r h)
    · exact .inl rfl
  | stop => exact .inl (hterminates r h)
  | supervise =>
    have hevolves : Evolves (Open env r) (fun _ => True) r (r.supervise env) := supervise_evolves env h
    exact .inl hevolves.cameras
  | maintain =>
    simp only [step, maintain]
    split
    · exact .inl rfl
    have hevolves : Evolves (Open env r) (fun _ => True) r (r.supervise env) := supervise_evolves env h
    exact .inl hevolves.cameras
  | suspend camera =>
    simp only [step, suspend]
    split
    · exact .inl rfl
    split
    · exact .inl rfl
    have h₁ : Inv { r with held := r.held.set camera false } := h.flags rfl rfl rfl rfl rfl
    have hretires : Evolves (fun _ => True) (fun _ => True) { r with held := r.held.set camera false }
        (retireLocked env { r with held := r.held.set camera false } camera).2 :=
      (retireLocked_evolves env h₁ trivial).1
    split
    · exact .inl hretires.cameras
    · exact .inl hretires.cameras
  | resumeIngress camera =>
    simp only [step, resumeIngress]
    split
    · exact .inl rfl
    split
    · exact .inl rfl
    split
    · exact .inl rfl
    · exact .inl rfl
  | isRecording camera =>
    simp only [step, isRecording]
    split
    · exact .inl rfl
    · refine .inl ?_
      unfold poll
      split
      · rfl
      · rfl
  | exit pid =>
    simp only [step, exit]
    split
    · exact .inl rfl
    · exact .inl rfl

theorem run_cameras (calls : List (Env × RecorderOp)) : (run calls).cameras.Nodup := by
  induction calls using List.reverseRecOn with
  | nil => exact List.nodup_nil
  | append_singleton calls call ih =>
    rw [run_snoc]
    rcases step_cameras call.1 (inv_run calls) call.2 with hsame | ⟨cameras, husable⟩
    · rw [hsame]
      exact ih
    · rw [husable]
      exact nodup_eraseDups _

/-- **The backoff of a camera** is right up to its 1024th failure in a row, and only
so far: from the next one on, to book the failure raises, and the pass ends there. -/
theorem backoff_below_overflow (env : Env) :
    (∀ (r : Recorder) (camera : String) (pid : Nat), ShortRun env r camera pid →
      (Booked camera (r.count camera + 1) (env.later camera) (r.spawnHubLocked env camera) ↔ r.count camera + 1 ≤ 1024)) ∧
    (∀ (r : Recorder) (camera : String) (pid : Nat), Balloons env r camera pid →
      (Booked camera (r.count camera + 1) (env.later camera) (r.watchdogOne env (camera, pid)) ↔
        r.count camera + 1 ≤ 1024)) ∧
    (∀ (fails fails' : Dict String Nat) (camera camera' : String) (delay delay' : ℚ),
      retryDelay fails camera = some delay → retryDelay fails' camera' = some delay' →
      1 ≤ (fails.get? camera).getD 0 → (fails.get? camera).getD 0 ≤ (fails'.get? camera').getD 0 → delay ≤ delay') ∧
    (∀ (camera : String) (due : ℚ) (calls : List (Env × RecorderOp)) (r : Recorder),
      (∀ call ∈ calls, call.1.now camera < due) →
      Calm camera due r (calls.foldl (fun r call => (r.step call.1 call.2).2) r)) ∧
    (∀ calls : List (Env × RecorderOp),
      let r := run calls
      let s := (r.watchdogLocked env).2
      let t := (forEach (spawnLocked env) s.cameras s).2
      ((r.watchdogLocked env).1 = true ↔
        ∀ e ∈ r.procs.entries, Balloons env r e.1 e.2 → r.count e.1 + 1 ≤ 1024) ∧
      ((forEach (spawnLocked env) s.cameras s).1 = true ↔ ∀ camera ∈ s.cameras, ¬ Raises env s camera) ∧
      ((forEach (spawnLocked env) s.cameras s).1 = true → ∀ camera ∈ s.cameras, s.paused = false →
        s.held.contains camera = false → Admitted env camera → Served env camera s t)) := by
  refine ⟨fun r camera pid hshort => ?_, fun r camera pid hballoons => ?_,
    fun fails fails' camera camera' delay delay' hdelay hdelay' hpos hle => retryDelay_mono hdelay hdelay' hpos hle,
    fun camera due calls r hclock => waits_run calls hclock r, fun calls => ?_⟩
  · have hcount : (r.poll pid).2.count camera = r.count camera := by
      rw [count, (poll_tables r pid).2.2.1, count]
    have hiff := book_iff (r.poll pid).2 camera pid (env.later camera)
    rw [hcount] at hiff
    rw [spawnHub_short hshort, hiff]
    exact Nat.lt_iff_add_one_le
  · have hcount : (r.reap pid).count camera = r.count camera := rfl
    have hiff := book_iff (r.reap pid) camera pid (env.later camera)
    rw [hcount] at hiff
    rw [watchdogOne_balloon hballoons, hiff]
    exact Nat.lt_iff_add_one_le
  · have h := inv_run calls
    have hdogs : Evolves (fun _ => True) (fun _ => True) (run calls) ((run calls).watchdogLocked env).2 :=
      watchdog_evolves env _ h (fun e he => Dict.get?_eq_some.mpr he) (run calls).procs.nodup
    have hnodup : ((run calls).watchdogLocked env).2.cameras.Nodup := by
      rw [hdogs.cameras]
      exact run_cameras calls
    refine ⟨?_, spawnEach_returns env hnodup hdogs.inv, fun hok camera hmem hpaused hheld hadmitted =>
      spawnEach_serves env hnodup hdogs.inv hok hmem hpaused hheld hadmitted⟩
    have hreturns := watchdog_returns env (run calls).procs.entries h (fun e he => Dict.get?_eq_some.mpr he)
      (run calls).procs.nodup
    refine hreturns.trans (forall₂_congr fun e _ => ?_)
    rw [not_and, not_le, Nat.lt_iff_add_one_le]

/-! ## One failure too many -/

/-- A camera that has failed 1024 times in a row, before another one. -/
def offline : Recorder :=
  { born := 2
    procs := (Dict.empty.set "a" 0).set "b" 1
    fails := Dict.empty.set "a" 1024
    cameras := ["a", "b"] }

/-- Everything is permitted, and nothing else fails. -/
def calmEnv : Env :=
  { confirms := fun _ => true
    policy := fun _ => some { revision := 0, mode := .legacyRtsp, phase := .active }
    ownedIngress := none
    starts := fun _ => true
    rss := fun _ => none
    now := fun _ => 0
    later := fun _ => 0
    prepared := true }

/-- To book the next failure raises: the camera has no retry time, and the death of
the other one is not booked. -/
theorem offline_stops_pass :
    (offline.spawnHubLocked calmEnv "a").1 = false ∧
      (offline.maintain calmEnv).fails.get? "a" = some 1025 ∧ (offline.maintain calmEnv).retryAt.get? "a" = none ∧
      (offline.child 1).alive = false ∧ (offline.maintain calmEnv).procs.get? "b" = some 1 ∧
      (offline.maintain calmEnv).retryAt.get? "b" = none := by
  refine ⟨?_, ?_, ?_, rfl, ?_, ?_⟩
  · decide +kernel
  · decide +kernel
  · decide +kernel
  · decide +kernel
  · decide +kernel

end CamGuard.Recording.Recorder
