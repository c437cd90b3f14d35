/-
When the disk-full guard keeps working. As long as every child that a check has to
terminate is confirmed in time, the loop goes on, the monitor's flag is the
hysteresis of the readings, and the recorder is let go at the resume mark only. A
check that meets an unconfirmed exit raises `RecorderCleanupUnconfirmed`, which the
loop does not catch: that is the end of the thread, and of the guard.
-/
import CamGuard.Lib.Trace
import CamGuard.Recording.RecorderFacts
import CamGuard.Recording.Storage

namespace CamGuard.Recording

/-- Paused from a reading at the full mark to the next one at the resume mark. -/
def hysteresis (fullPercent resumePercent : Int) (readings : List ℚ) : Bool :=
  readings.foldl (fun paused pct =>
    if paused = false ∧ (fullPercent : ℚ) ≤ pct then true
    else if paused ∧ pct ≤ (resumePercent : ℚ) then false
    else paused) false

/-- The readings that checks have had. -/
def readings (beats : List Beat) : List ℚ := beats.filterMap Beat.reading

/-! ## One check -/

namespace StorageMonitor

/-- Every child that the check would terminate is confirmed in time. -/
def Settles (m : StorageMonitor) (tick : Tick) : Prop :=
  ∀ usage r, tick.reading = some usage → m.recorder = some r →
    m.due usage.pct = some .pause ∨ (m.due usage.pct = some .resume ∧ r.paused = true) → r.Settles tick.env

variable {m : StorageMonitor}

theorem state_fault (m : StorageMonitor) (reading : Option DiskUsage) : m.state reading ≠ .error .cleanup := by
  cases reading with
  | none => exact nofun
  | some usage => exact nofun

/-- A recorder that can be reached, if there is one. -/
def Sound (m : StorageMonitor) : Prop := ∀ r, m.recorder = some r → r.Inv

/-- What a check leaves behind, if it does not meet an unconfirmed exit. -/
theorem check_settled (hsound : m.Sound) (tick : Tick) (h : m.Settles tick) (hpending : m.pausePending = false) :
    (m.check tick.env tick.reading tick.again).1 ≠ .error .cleanup ∧
      (m.check tick.env tick.reading tick.again).2.pausePending = false ∧
      (m.check tick.env tick.reading tick.again).2.pausedByFull =
        match tick.reading with
        | none => m.pausedByFull
        | some usage =>
          if m.pausedByFull = false ∧ (m.fullPercent : ℚ) ≤ usage.pct then true
          else if m.pausedByFull ∧ usage.pct ≤ (m.resumePercent : ℚ) then false
          else m.pausedByFull := by
  cases hreading : tick.reading with
  | none => exact ⟨nofun, hpending, rfl⟩
  | some usage =>
    have hdue : m.due usage.pct = if m.pausedByFull = false ∧ (m.fullPercent : ℚ) ≤ usage.pct then some .pause
        else if m.pausedByFull ∧ usage.pct ≤ (m.resumePercent : ℚ) then some .resume else none := by
      simp [due, hpending]
    simp only [check]
    by_cases hfull : m.pausedByFull = false ∧ (m.fullPercent : ℚ) ≤ usage.pct
    · have hpause : m.due usage.pct = some .pause := by rw [hdue, if_pos hfull]
      have hok : ({ m with pausedByFull := true, pausePending := true }.ask (Recorder.pause tick.env)).1 = true := by
        simp only [ask]
        cases hr : m.recorder with
        | none => rfl
        | some r => exact (Recorder.pause_ok tick.env (hsound r hr)).mpr (h usage r hreading hr (.inl hpause))
      simp only [hpause, hok, Bool.true_eq_false, if_false, if_pos hfull]
      refine ⟨state_fault _ _, trivial, ?_⟩
      simp only [ask]
      cases m.recorder <;> rfl
    · by_cases hlow : m.pausedByFull ∧ usage.pct ≤ (m.resumePercent : ℚ)
      · have hresume : m.due usage.pct = some .resume := by rw [hdue, if_neg hfull, if_pos hlow]
        have hok : (m.ask (Recorder.resume tick.env)).1 = true := by
          simp only [ask]
          cases hr : m.recorder with
          | none => rfl
          | some r =>
            refine (Recorder.resume_ok tick.env (hsound r hr)).mpr fun hpaused => ?_
            exact h usage r hreading hr (.inr ⟨hresume, hpaused⟩)
        simp only [hresume, hok, Bool.true_eq_false, if_false, if_neg hfull, if_pos hlow]
        refine ⟨state_fault _ _, ?_, trivial⟩
        simp only [ask]
        cases m.recorder <;> exact hpending
      · have hnone : m.due usage.pct = none := by rw [hdue, if_neg hfull, if_neg hlow]
        simp only [hnone, if_neg hfull, if_neg hlow]
        exact ⟨state_fault _ _, hpending, trivial⟩

/-- **A check that meets an unconfirmed exit raises.** -/
theorem check_unsettled (hsound : m.Sound) (tick : Tick) (h : ¬ m.Settles tick) :
    (m.check tick.env tick.reading tick.again).1 = .error .cleanup := by
  simp only [Settles, not_forall] at h
  obtain ⟨usage, r, hreading, hr, hdue, hopen⟩ := h
  simp only [check, hreading]
  rcases hdue with hpause | ⟨hresume, hpaused⟩
  · have hraises : ({ m with pausedByFull := true, pausePending := true }.ask (Recorder.pause tick.env)).1 = false := by
      simp only [ask, hr]
      exact Bool.eq_false_iff.mpr fun hok => hopen ((Recorder.pause_ok tick.env (hsound r hr)).mp hok)
    simp only [hpause, hraises, if_true]
  · have hraises : (m.ask (Recorder.resume tick.env)).1 = false := by
      simp only [ask, hr]
      exact Bool.eq_false_iff.mpr fun hok => hopen ((Recorder.resume_ok tick.env (hsound r hr)).mp hok hpaused)
    simp only [hresume, hraises, if_true]

theorem check_keeps (hsound : m.Sound) (env : Env) (reading again : Option DiskUsage) :
    (m.check env reading again).2.Sound ∧ (m.check env reading again).2.fullPercent = m.fullPercent ∧
      (m.check env reading again).2.resumePercent = m.resumePercent := by
  have hask : ∀ m' : StorageMonitor, m'.recorder = m.recorder → ∀ call : Recorder → Bool × Recorder,
      (∀ r, r.Inv → (call r).2.Inv) → (m'.ask call).2.Sound ∧ (m'.ask call).2.fullPercent = m'.fullPercent ∧
        (m'.ask call).2.resumePercent = m'.resumePercent := by
    intro m' hm call hcall
    simp only [ask]
    cases hr : m'.recorder with
    | none => exact ⟨fun r h => (by rw [hr] at h; cases h), rfl, rfl⟩
    | some r =>
      refine ⟨fun r' h => ?_, rfl, rfl⟩
      cases h
      exact hcall r (hsound r (by rw [← hm, hr]))
  have hpause := hask { m with pausedByFull := true, pausePending := true } rfl (Recorder.pause env)
    fun r h => (Recorder.pause_steps env h).1.inv
  have hresume := hask m rfl (Recorder.resume env) fun r h => (Recorder.resume_steps env h).inv
  cases reading with
  | none => exact ⟨hsound, rfl, rfl⟩
  | some usage =>
    simp only [check]
    split
    · split
      · exact hpause
      · exact hpause
    · split
      · exact hresume
      · exact hresume
    · exact ⟨hsound, rfl, rfl⟩

end StorageMonitor

/-! ## The loop -/

namespace StorageLoop

/-- Every iteration meets the condition in the state it starts from. -/
def Settled : StorageLoop → List Tick → Prop
  | _, [] => True
  | l, tick :: ticks => (l.goOn tick.others).monitor.Settles tick ∧ Settled (l.iterate tick) ticks

/-- **What the guard promises**, over the checks of a run. -/
structure Works (l : StorageLoop) (ticks : List Tick) : Prop where
  /-- Whatever came before, the next iteration is there to check. -/
  checks : ∀ before after : List Tick, ticks = before ++ after → (l.run before).alive = true ∧
    (l.run before).beats.length = l.beats.length + before.length
  /-- The recorder is let go at a reading at the resume mark only. -/
  guarded : ∀ b ∈ (l.run ticks).beats, b.request = some .resume →
    ∃ pct, b.reading = some pct ∧ pct ≤ (l.monitor.resumePercent : ℚ)
  /-- A pause that raised is tried again at the next check. -/
  pauses : ∀ (before : List Beat) (b next : Beat) (after : List Beat), (l.run ticks).beats = before ++ b :: next :: after → b.request = some .pause →
    b.fault = some .cleanup → next.reading ≠ none → next.request = some .pause
  /-- A resume that raised leaves the monitor paused, and is tried again at the next
  reading at the resume mark. -/
  resumes : ∀ (before : List Beat) (b : Beat) (between : List Beat) (next : Beat) (after : List Beat) pct,
    (l.run ticks).beats = before ++ b :: (between ++ next :: after) →
    b.request = some .resume → b.fault = some .cleanup →
    (∀ x ∈ between, ∀ p ∈ x.reading, (l.monitor.resumePercent : ℚ) < p) → next.reading = some pct →
    pct ≤ (l.monitor.resumePercent : ℚ) → b.flag = true ∧ next.request = some .resume
  /-- After a check that returned, the flag is the hysteresis of the readings. -/
  flag : ∀ (before : List Beat) (b : Beat) (after : List Beat), (l.run ticks).beats = before ++ b :: after → b.fault = none →
    b.flag = hysteresis l.monitor.fullPercent l.monitor.resumePercent (readings (before ++ [b]))

/-- The loop after checks that met no unconfirmed exit. -/
structure Good (fullPercent resumePercent : Int) (l : StorageLoop) : Prop where
  sound : l.monitor.Sound
  alive : l.alive = true
  pending : l.monitor.pausePending = false
  marks : l.monitor.fullPercent = fullPercent ∧ l.monitor.resumePercent = resumePercent
  flag : l.monitor.pausedByFull = hysteresis fullPercent resumePercent (readings l.beats)
  beats : Justified (fun before b => b.fault ≠ some .cleanup ∧
    (b.request = some .resume → ∃ pct, b.reading = some pct ∧ pct ≤ (resumePercent : ℚ)) ∧
    b.flag = hysteresis fullPercent resumePercent (readings (before ++ [b]))) l.beats

variable {l : StorageLoop} {fullPercent resumePercent : Int}

theorem goOn_sound (h : l.monitor.Sound) (others : List (Env × Recorder.RecorderOp)) : (l.goOn others).monitor.Sound := by
  intro r hr
  obtain ⟨r₀, hr₀, rfl⟩ := Option.map_eq_some_iff.mp hr
  have hinv := h r₀ hr₀
  clear hr hr₀
  induction others generalizing r₀ with
  | nil => exact hinv
  | cons call others ih => exact ih _ (Recorder.step_steps call.1 hinv call.2).inv

theorem iterate_alive (halive : l.alive = true) (tick : Tick) :
    (l.iterate tick).monitor = ((l.goOn tick.others).monitor.check tick.env tick.reading tick.again).2 ∧
      ((l.iterate tick).alive = true ↔
        ((l.goOn tick.others).monitor.check tick.env tick.reading tick.again).1 ≠ .error .cleanup) := by
  have hgo : (l.goOn tick.others).alive = true := halive
  simp only [iterate, hgo, Bool.true_eq_false, if_false]
  refine ⟨trivial, ?_⟩
  cases ((l.goOn tick.others).monitor.check tick.env tick.reading tick.again).1 with
  | ok state => simp
  | error fault => cases fault <;> simp

theorem iterate_dead (hdead : l.alive = false) (tick : Tick) : (l.iterate tick).alive = false := by
  have hgo : (l.goOn tick.others).alive = false := hdead
  simp only [iterate, hgo, if_true]

theorem run_dead (hdead : l.alive = false) (ticks : List Tick) : (l.run ticks).alive = false := by
  induction ticks generalizing l with
  | nil => exact hdead
  | cons tick ticks ih => exact ih (iterate_dead hdead tick)

theorem hysteresis_snoc (readings : List ℚ) (pct : ℚ) :
    hysteresis fullPercent resumePercent (readings ++ [pct]) =
      let paused := hysteresis fullPercent resumePercent readings
      if paused = false ∧ (fullPercent : ℚ) ≤ pct then true
      else if paused ∧ pct ≤ (resumePercent : ℚ) then false
      else paused := by
  rw [hysteresis, List.foldl_append]
  rfl

theorem Good.iterate (h : Good fullPercent resumePercent l) (tick : Tick)
    (hsettles : (l.goOn tick.others).monitor.Settles tick) : Good fullPercent resumePercent (l.iterate tick) := by
  have hsound := goOn_sound h.sound tick.others
  have hpending : (l.goOn tick.others).monitor.pausePending = false := h.pending
  obtain ⟨hfault, hpending', hflag⟩ := StorageMonitor.check_settled hsound tick hsettles hpending
  obtain ⟨hsound', hfull, hresume⟩ := StorageMonitor.check_keeps hsound tick.env tick.reading tick.again
  obtain ⟨hmonitor, halive⟩ := iterate_alive h.alive tick
  have hgo : (l.goOn tick.others).alive = true := h.alive
  have hbeats : ∃ b, (l.iterate tick).beats = l.beats ++ [b] ∧ b.reading = tick.reading.map DiskUsage.pct ∧
      b.request = (tick.reading.bind fun usage => (l.goOn tick.others).monitor.due usage.pct) ∧ b.fault ≠ some .cleanup ∧
      b.flag = (l.iterate tick).monitor.pausedByFull := by
    simp only [StorageLoop.iterate, hgo, Bool.true_eq_false, if_false]
    refine ⟨_, rfl, rfl, rfl, ?_, rfl⟩
    cases hout : ((l.goOn tick.others).monitor.check tick.env tick.reading tick.again).1 with
    | ok state => simp
    | error fault =>
      rw [hout] at hfault
      simpa using hfault
  obtain ⟨b, hb, hreading, hrequest, hbfault, hbflag⟩ := hbeats
  have hnext : (l.iterate tick).monitor.pausedByFull =
      hysteresis fullPercent resumePercent (readings (l.beats ++ [b])) := by
    have hwas : (l.goOn tick.others).monitor.pausedByFull = hysteresis fullPercent resumePercent (readings l.beats) := h.flag
    have hmarks : (l.goOn tick.others).monitor.fullPercent = fullPercent ∧
        (l.goOn tick.others).monitor.resumePercent = resumePercent := h.marks
    rw [hmonitor, hflag, readings, List.filterMap_append]
    cases hr : tick.reading with
    | none =>
      rw [hr] at hreading
      simp only [List.filterMap_cons, hreading, Option.map_none, List.filterMap_nil, List.append_nil]
      exact hwas
    | some usage =>
      rw [hr] at hreading
      simp only [List.filterMap_cons, hreading, Option.map_some, List.filterMap_nil]
      rw [hysteresis_snoc, hwas, hmarks.1, hmarks.2]
      rfl
  refine ⟨by rw [hmonitor]; exact hsound', halive.mpr hfault, by rw [hmonitor]; exact hpending', ?_, by rw [hb]; exact hnext, ?_⟩
  · rw [hmonitor, hfull, hresume]
    exact h.marks
  · rw [hb]
    refine h.beats.snoc ⟨hbfault, fun hask => ?_, by rw [hbflag]; exact hnext⟩
    rw [hrequest] at hask
    obtain ⟨usage, hr, hdue⟩ := Option.bind_eq_some_iff.mp hask
    refine ⟨usage.pct, by rw [hreading, hr]; rfl, ?_⟩
    simp only [StorageMonitor.due] at hdue
    split at hdue
    · cases hdue
    split at hdue
    next hlow =>
      rw [← h.marks.2]
      exact hlow.2
    next => cases hdue

theorem Good.run (h : Good fullPercent resumePercent l) (ticks : List Tick) (hsettled : Settled l ticks) :
    Good fullPercent resumePercent (l.run ticks) ∧ (l.run ticks).beats.length = l.beats.length + ticks.length := by
  induction ticks generalizing l with
  | nil => exact ⟨h, rfl⟩
  | cons tick ticks ih =>
    obtain ⟨hgood, hlength⟩ := ih (h.iterate tick hsettled.1) hsettled.2
    refine ⟨hgood, hlength.trans ?_⟩
    have hgo : (l.goOn tick.others).alive = true := h.alive
    have hone : (l.iterate tick).beats.length = l.beats.length + 1 := by
      simp only [StorageLoop.iterate, hgo, Bool.true_eq_false, if_false, List.length_append]
      rfl
    rw [hone, List.length_cons]
    omega

theorem Settled.front {ticks more : List Tick} (h : Settled l (ticks ++ more)) : Settled l ticks := by
  induction ticks generalizing l with
  | nil => trivial
  | cons tick ticks ih => exact ⟨h.1, ih h.2⟩

/-- A loop that is still there after its iterations met no unconfirmed exit. -/
theorem settled_of_alive (hsound : l.monitor.Sound) (halive : l.alive = true) (ticks : List Tick)
    (hend : (l.run ticks).alive = true) : Settled l ticks := by
  induction ticks generalizing l with
  | nil => trivial
  | cons tick ticks ih =>
    obtain ⟨hmonitor, hiff⟩ := iterate_alive halive tick
    have hnext : (l.iterate tick).alive = true := by
      cases hone : (l.iterate tick).alive with
      | true => rfl
      | false =>
        have hdead := run_dead hone ticks
        rw [show (l.iterate tick).run ticks = l.run (tick :: ticks) from rfl, hend] at hdead
        cases hdead
    have hgo := goOn_sound hsound tick.others
    refine ⟨?_, ih ?_ hnext hend⟩
    · by_contra hopen
      exact hiff.mp hnext (StorageMonitor.check_unsettled hgo tick hopen)
    · rw [hmonitor]
      exact (StorageMonitor.check_keeps hgo tick.env tick.reading tick.again).1

theorem Good.works (h : Good fullPercent resumePercent l) (ticks : List Tick)
    (hsettled : Settled l ticks) : Works l ticks := by
  obtain ⟨hgood, -⟩ := h.run ticks hsettled
  obtain ⟨hfull, hresume⟩ := h.marks
  refine ⟨fun before after hsplit => ?_, fun b hb hrequest => ?_, fun before b next after hsplit _ hfault => ?_,
    fun before b between next after pct hsplit _ hfault => ?_, fun before b after hsplit _ => ?_⟩
  · rw [hsplit] at hsettled
    obtain ⟨hbefore, hlength⟩ := h.run before hsettled.front
    exact ⟨hbefore.alive, hlength⟩
  · obtain ⟨before, after, hsplit⟩ := List.append_of_mem hb
    rw [hresume]
    exact (hgood.beats before b after hsplit).2.1 hrequest
  · exact absurd hfault (hgood.beats before b (next :: after) hsplit).1
  · exact absurd hfault (hgood.beats before b (between ++ next :: after) hsplit).1
  · rw [hfull, hresume]
    exact (hgood.beats before b after hsplit).2.2

theorem good_opening (calls : Option (List (Env × Recorder.RecorderOp))) (alertPercent fullPercent resumePercent : Int) :
    Good fullPercent resumePercent (opening (calls.map Recorder.run) alertPercent fullPercent resumePercent) := by
  refine ⟨fun r hr => ?_, rfl, rfl, ⟨rfl, rfl⟩, rfl, justified_nil _⟩
  obtain ⟨calls, -, rfl⟩ := Option.map_eq_some_iff.mp hr
  exact Recorder.inv_run calls

/-- **The disk-full guard works exactly as long as no check meets an unconfirmed
exit**, whatever the readings, the marks and the recorder's own operations. -/
theorem works_iff_settled (calls : Option (List (Env × Recorder.RecorderOp)))
    (alertPercent fullPercent resumePercent : Int) (ticks : List Tick) :
    let l := opening (calls.map Recorder.run) alertPercent fullPercent resumePercent
    Works l ticks ↔ Settled l ticks := by
  intro l
  have hgood := good_opening calls alertPercent fullPercent resumePercent
  constructor
  · intro hworks
    exact settled_of_alive hgood.sound hgood.alive ticks (hworks.checks ticks [] (List.append_nil _).symm).1
  · exact hgood.works ticks

/-- A camera that records, an exit that is not confirmed and a full disk: the first
check ends the thread, and the second iteration checks nothing. -/
theorem unconfirmed_exit_ends_guard :
    let env : Env := ⟨fun _ => false, fun _ => some {}, none, fun _ => true, fun _ => none, fun _ => 0, fun _ => 0, true⟩
    let camera : Camera := ⟨"cam_0123456789abcdef01234567", "rtsp://camera"⟩
    let full : Option DiskUsage := some ⟨100, 99, 1, 99⟩
    let l := opening (some (Recorder.run [(env, .start [camera])])) 80 98 95
    let ticks : List Tick := [⟨[], env, full, full⟩, ⟨[], env, full, full⟩]
    ¬ Works l ticks ∧ (l.run ticks).alive = false ∧ (l.run ticks).beats = [⟨some 99, some .pause, some .cleanup, true⟩] := by
  intro env camera full l ticks
  have hrun : (l.run ticks).alive = false ∧ (l.run ticks).beats = [⟨some 99, some .pause, some .cleanup, true⟩] := by
    decide +kernel
  refine ⟨fun hworks => ?_, hrun⟩
  have halive := (hworks.checks ticks [] (List.append_nil _).symm).1
  rw [hrun.1] at halive
  cases halive

end StorageLoop

end CamGuard.Recording
