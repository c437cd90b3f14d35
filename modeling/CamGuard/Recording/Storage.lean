/-
The disk-usage guard (`storage.py`): a background loop that reads the usage of the
recordings volume, pauses the recorder at the full mark and lets it go on at the
resume mark.

A reading is what `_used_percent` returned, with the percentage as the floating
point number it is, or nothing where it raised `OSError`. Between two checks the
rest of the program goes on with the recorder (`others`). `Loop.alive` is the
monitor's thread; `beats` is what each check did, and no branch reads it.

Left out: the time stamp and the rounding of a `StorageState`, and the thread's
start and join.
-/
import CamGuard.Recording.Recorder

namespace CamGuard.Recording

/-- A reading of the recordings' disk. -/
structure DiskUsage where
  total : Nat
  used : Nat
  free : Nat
  pct : ℚ
  deriving DecidableEq, Repr

/-- The status a check reports. -/
inductive StorageStatus where
  | ok
  | alert
  | full
  deriving DecidableEq, Repr

/-- `StorageState`. -/
structure StorageState where
  usage : DiskUsage
  status : StorageStatus
  savingPaused : Bool
  deriving DecidableEq, Repr

/-- What a check asks of the recorder. -/
inductive Request where
  | pause
  | resume
  deriving DecidableEq, Repr

/-- How a check raises: `OSError`, or the recorder's `RecorderCleanupUnconfirmed`. -/
inductive CheckFault where
  | os
  | cleanup
  deriving DecidableEq, Repr

/-- `StorageMonitor`. -/
structure StorageMonitor where
  recorder : Option Recorder
  alertPercent : Int
  fullPercent : Int
  resumePercent : Int
  pausedByFull : Bool := false
  pausePending : Bool := false

namespace StorageMonitor

def state (m : StorageMonitor) (reading : Option DiskUsage) : Except CheckFault StorageState :=
  match reading with
  | none => .error .os
  | some usage =>
    let status :=
      if (m.fullPercent : ℚ) ≤ usage.pct ∨ m.pausedByFull then .full
      else if (m.alertPercent : ℚ) ≤ usage.pct then .alert
      else .ok
    let paused :=
      match m.recorder with
      | some r => r.paused
      | none => m.pausedByFull
    .ok ⟨usage, status, paused⟩

/-- The two branches of `check`. -/
def due (m : StorageMonitor) (pct : ℚ) : Option Request :=
  if m.pausePending ∨ (m.pausedByFull = false ∧ (m.fullPercent : ℚ) ≤ pct) then some .pause
  else if m.pausedByFull ∧ pct ≤ (m.resumePercent : ℚ) then some .resume
  else none

/-- A call of the recorder, where there is one; false where it raises. -/
def ask (m : StorageMonitor) (call : Recorder → Bool × Recorder) : Bool × StorageMonitor :=
  match m.recorder with
  | none => (true, m)
  | some r => ((call r).1, { m with recorder := some (call r).2 })

/-- `check`; `again` is the reading that `state` makes at its end. -/
def check (env : Env) (m : StorageMonitor) (reading again : Option DiskUsage) :
    Except CheckFault StorageState × StorageMonitor :=
  match reading with
  | none => (.error .os, m)
  | some usage =>
    match m.due usage.pct with
    | some .pause =>
      let m := { m with pausedByFull := true, pausePending := true }
      let (ok, m) := m.ask (Recorder.pause env)
      if ok = false then (.error .cleanup, m)
      else
        let m := { m with pausePending := false }
        (m.state again, m)
    | some .resume =>
      let (ok, m) := m.ask (Recorder.resume env)
      if ok = false then (.error .cleanup, m)
      else
        let m := { m with pausedByFull := false }
        (m.state again, m)
    | none => (m.state again, m)

end StorageMonitor

/-- What the outside does around one iteration. -/
structure Tick where
  others : List (Env × Recorder.RecorderOp)
  env : Env
  reading : Option DiskUsage
  again : Option DiskUsage

/-- What one check did. -/
structure Beat where
  reading : Option ℚ
  request : Option Request
  fault : Option CheckFault
  flag : Bool
  deriving DecidableEq, Repr

/-- The monitor's thread and what it has called back. -/
structure StorageLoop where
  monitor : StorageMonitor
  alive : Bool := true
  beats : List Beat := []

namespace StorageLoop

/-- The rest of the program goes on with the recorder. -/
def goOn (l : StorageLoop) (others : List (Env × Recorder.RecorderOp)) : StorageLoop :=
  { l with monitor := { l.monitor with
      recorder := l.monitor.recorder.map fun r => others.foldl (fun r call => (r.step call.1 call.2).2) r } }

/-- One iteration of `_loop`, before `stop`: an `OSError` is passed over, anything
else ends the thread. -/
def iterate (l : StorageLoop) (tick : Tick) : StorageLoop :=
  let l := l.goOn tick.others
  if l.alive = false then l
  else
    let (outcome, monitor) := l.monitor.check tick.env tick.reading tick.again
    let fault :=
      match outcome with
      | .ok _ => none
      | .error fault => some fault
    { monitor := monitor
      alive := decide (fault ≠ some .cleanup)
      beats := l.beats ++ [{
        reading := tick.reading.map DiskUsage.pct
        request := tick.reading.bind fun usage => l.monitor.due usage.pct
        fault := fault
        flag := monitor.pausedByFull }] }

def run (l : StorageLoop) (ticks : List Tick) : StorageLoop := ticks.foldl iterate l

end StorageLoop

/-- The monitor as `start` finds it. -/
def opening (recorder : Option Recorder) (alertPercent fullPercent resumePercent : Int) : StorageLoop :=
  { monitor := { recorder, alertPercent, fullPercent, resumePercent } }

end CamGuard.Recording
