/-
The recorder and its children (`recorder.py`, `ingress_gate.py`,
`process_lifecycle.py`): one ffmpeg for each camera, supervised through four
tables under one lock, which the ingress gate shares. Each operation below is one
section under that lock, so it is one step; what `start` and `stop` do behind or before
it is in `RecorderThread.lean`, with the maintenance thread.

A `Popen` is the number of the child it started. `child` is what the system knows
of each one: whether it still runs, and whether its exit was confirmed to the
recorder (`poll` or `wait` gave a return code). What the outside decides during a
step (whether a terminated child is confirmed in time, what the policy says, what
the clock shows) is the step's `Env`. `log` is what happened to the children; no
branch reads it.

Left out: the files and the index, and ffmpeg's command line. A maintenance pass may
come at any time.
-/
import CamGuard.CameraIdentity
import CamGuard.Lib.Dict
import CamGuard.Source.SourcePolicy
import Mathlib.Algebra.Order.Field.Rat

namespace CamGuard.Recording

open CamGuard.Source (Selection)

def RSS_LIMIT_BYTES : Nat := 256 * 1024 * 1024
def BACKOFF_BASE : ℚ := 5
def BACKOFF_MAX : ℚ := 120
def HEALTHY_AFTER : ℚ := 60
def MAX_HOLDS : Nat := 32

structure Child where
  camera : String
  alive : Bool
  confirmed : Bool
  deriving DecidableEq, Repr

/-- What happens to children. -/
inductive RecorderEvent where
  | born (camera : String) (pid : Nat)
  /-- An exit that the recorder did not wait for. -/
  | died (camera : String) (pid : Nat)
  /-- The death of a child is counted. -/
  | booked (camera : String) (pid : Nat) (healthy : Bool)
  /-- `_forget`. -/
  | cleared (camera : String)
  deriving DecidableEq, Repr

def RecorderEvent.camera : RecorderEvent → String
  | .born camera _ | .died camera _ | .booked camera _ _ | .cleared camera => camera

/-- A binding of `owned_bindings.py`; `url` is absent once it was withdrawn or its
worker is gone. -/
structure BoundIngress where
  cameraId : String
  revision : Int
  url : Option String
  deriving DecidableEq, Repr

def BoundIngress.matches (b : BoundIngress) (cameraId : String) (selection : Selection) : Bool :=
  b.cameraId = cameraId ∧ b.revision = selection.revision ∧ selection.mode = .ownedRtsp ∧ selection.phase = .active ∧
    b.url.isSome

/-- What the outside decides during one step, camera by camera. -/
structure Env where
  /-- The exit of a child that is terminated or killed is confirmed. -/
  confirms : String → Bool
  /-- The source policy; nothing where reading it raises. -/
  policy : String → Option Selection
  /-- The owned ingress, if the recorder has one. -/
  ownedIngress : Option (String → Option BoundIngress)
  /-- `_spawn` does not raise. -/
  starts : String → Bool
  /-- `_rss_bytes`. -/
  rss : String → Option Nat
  /-- Two readings of the clock. -/
  now : String → ℚ
  later : String → ℚ
  /-- What is done before the lock does not raise. -/
  prepared : Bool

structure Camera where
  cameraId : String
  rtspUrl : String
  deriving DecidableEq, Repr

structure Recorder where
  child : Nat → Child := fun _ => ⟨"", false, true⟩
  born : Nat := 0
  procs : Dict String Nat := ∅
  spawnedAt : Dict String ℚ := ∅
  fails : Dict String Nat := ∅
  retryAt : Dict String ℚ := ∅
  cameras : List String := []
  paused : Bool := false
  held : Dict String Bool := ∅
  log : List RecorderEvent := []

namespace Recorder

/-! ## Children -/

/-- `poll`: whether there is a return code. -/
def poll (r : Recorder) (pid : Nat) : Bool × Recorder :=
  if (r.child pid).alive then (false, r)
  else (true, { r with child := Function.update r.child pid { r.child pid with confirmed := true } })

/-- A child that ended, and whose return code the recorder has. -/
def reap (r : Recorder) (pid : Nat) : Recorder :=
  { r with child := Function.update r.child pid { r.child pid with alive := false, confirmed := true } }

/-- `retire_process`; false where it raises, and the child is left as it was. -/
def retireProcess (r : Recorder) (confirms : Bool) (pid : Nat) : Bool × Recorder :=
  let (exited, r) := r.poll pid
  if exited then (true, r)
  else if confirms then (true, r.reap pid)
  else (false, r)

/-! ## Supervision -/

/-- `_retry_delay`; nothing where it raises `OverflowError`, as there is no float
of the power. -/
def retryDelay (fails : Dict String Nat) (cameraId : String) : Option ℚ :=
  let count := (fails.get? cameraId).getD 0
  if count ≤ 0 then some 0
  else if 1024 ≤ count - 1 then none
  else some (min (BACKOFF_BASE * 2 ^ (count - 1)) BACKOFF_MAX)

/-- `_forget`. -/
def forget (r : Recorder) (cameraId : String) : Recorder :=
  { r with
    procs := r.procs.erase cameraId
    spawnedAt := r.spawnedAt.erase cameraId
    fails := r.fails.erase cameraId
    retryAt := r.retryAt.erase cameraId
    log := r.log ++ [.cleared cameraId] }

/-- A death is counted: the child leaves the table, and its camera backs off. False
where it raises, which is after the child has left. -/
def book (r : Recorder) (cameraId : String) (pid : Nat) (healthy : Bool) (now : ℚ) : Bool × Recorder :=
  let fails := r.fails.set cameraId (if healthy then 0 else (r.fails.get? cameraId).getD 0 + 1)
  let delay := retryDelay fails cameraId
  (delay.isSome, { r with
    procs := r.procs.erase cameraId
    spawnedAt := r.spawnedAt.erase cameraId
    fails := fails
    retryAt := delay.elim r.retryAt fun delay => r.retryAt.set cameraId (now + delay)
    log := r.log ++ [.booked cameraId pid healthy] })

/-- A new child in the table. -/
def birth (r : Recorder) (cameraId : String) (now : ℚ) : Recorder :=
  { r with
    child := Function.update r.child r.born ⟨cameraId, true, false⟩
    born := r.born + 1
    procs := r.procs.set cameraId r.born
    spawnedAt := r.spawnedAt.set cameraId now
    log := r.log ++ [.born cameraId r.born] }

/-- `_spawn_hub_locked`; false where it raises. -/
def spawnHubLocked (env : Env) (r : Recorder) (cameraId : String) : Bool × Recorder :=
  match r.procs.get? cameraId with
  | some pid =>
    let (exited, r) := r.poll pid
    if exited = false then (true, r)
    else
      let ran := env.now cameraId - (r.spawnedAt.get? cameraId).getD 0
      r.book cameraId pid (decide (HEALTHY_AFTER ≤ ran)) (env.later cameraId)
  | none =>
    if env.now cameraId < (r.retryAt.get? cameraId).getD 0 then (true, r)
    else if env.starts cameraId = false then (false, r)
    else (true, r.birth cameraId (env.later cameraId))

/-- `_spawn_locked`. -/
def spawnLocked (env : Env) (r : Recorder) (cameraId : String) : Bool × Recorder :=
  if r.paused ∨ r.held.contains cameraId then (true, r)
  else
    match env.policy cameraId with
    | none => (false, r)
    | some selection =>
      if selection.permitsLegacyRtsp then r.spawnHubLocked env cameraId
      else
        match env.ownedIngress with
        | none => (true, r)
        | some bindings =>
          match bindings cameraId with
          | none => (true, r)
          | some binding => if binding.matches cameraId selection then r.spawnHubLocked env cameraId else (true, r)

/-- A loop that ends at the first turn that raises. -/
def forEach {α : Type} (body : Recorder → α → Bool × Recorder) : List α → Recorder → Bool × Recorder
  | [], r => (true, r)
  | item :: rest, r =>
    let (ok, r) := body r item
    if ok then forEach body rest r else (false, r)

/-- `_retire_locked`. -/
def retireLocked (env : Env) (r : Recorder) (cameraId : String) : Bool × Recorder :=
  match r.procs.get? cameraId with
  | none => (true, r.forget cameraId)
  | some pid =>
    let (ok, r) := r.retireProcess (env.confirms cameraId) pid
    if ok then (true, r.forget cameraId) else (false, r)

/-- One turn of `_watchdog_locked`. -/
def watchdogOne (env : Env) (r : Recorder) (entry : String × Nat) : Bool × Recorder :=
  let (exited, r) := r.poll entry.2
  if exited then (true, r)
  else
    match env.rss entry.1 with
    | none => (true, r)
    | some rss =>
      if rss ≤ RSS_LIMIT_BYTES then (true, r)
      else if env.confirms entry.1 = false then (true, r)
      else (r.reap entry.2).book entry.1 entry.2 false (env.later entry.1)

/-- `_watchdog_locked`; false where it raises. -/
def watchdogLocked (env : Env) (r : Recorder) : Bool × Recorder := forEach (watchdogOne env) r.procs.entries r

/-- The first loop of `_terminate_all_locked`; false where a child stays. -/
def terminateEach (env : Env) : List (String × Nat) → Recorder → Bool × Recorder
  | [], r => (true, r)
  | (cameraId, pid) :: rest, r =>
    let (ok, r) := r.retireProcess (env.confirms cameraId) pid
    let (others, r) := terminateEach env rest (if ok then r.forget cameraId else r)
    (ok && others, r)

/-- `_terminate_all_locked`; false where it raises `RecorderCleanupUnconfirmed`. -/
def terminateAllLocked (env : Env) (r : Recorder) : Bool × Recorder :=
  let (ok, r) := terminateEach env r.procs.entries r
  let pending := (r.fails.keys ++ r.retryAt.keys ++ r.spawnedAt.keys).filter fun cameraId => !r.procs.contains cameraId
  (ok, pending.foldl forget r)

/-! ## Operations

Each gives whether it returned, and the recorder after it. -/

/-- The cameras with a usable stream, as keys. -/
def usable (cameras : List Camera) : List String :=
  ((cameras.filter fun c => c.rtspUrl ≠ "" ∧ c.cameraId ≠ "").map Camera.cameraId).eraseDups

/-- `start`, without the thread. -/
def start (env : Env) (r : Recorder) (cameras : List Camera) : Bool × Recorder :=
  let cameraIds := usable cameras
  if env.prepared = false then (false, r)
  else
    let r := { r with cameras := cameraIds }
    let (ok, r) := forEach (retireLocked env) (r.procs.keys.filter fun cameraId => cameraId ∉ cameraIds) r
    if ok = false then (false, r) else forEach (spawnLocked env) cameraIds r

def pause (env : Env) (r : Recorder) : Bool × Recorder :=
  if r.paused ∧ r.procs.size = 0 then (true, r)
  else { r with paused := true }.terminateAllLocked env

def resume (env : Env) (r : Recorder) : Bool × Recorder :=
  if r.paused ∧ r.procs.size ≠ 0 then
    let (ok, r) := r.terminateAllLocked env
    if ok then (true, { r with paused := false }) else (false, r)
  else (true, { r with paused := false })

/-- What `stop` does under the lock. -/
def stop (env : Env) (r : Recorder) : Bool × Recorder := r.terminateAllLocked env

/-- The section of a pass of `_maintain`, which survives whatever raises. -/
def supervise (env : Env) (r : Recorder) : Recorder :=
  let (ok, r) := r.watchdogLocked env
  if ok then (forEach (spawnLocked env) r.cameras r).2 else r

/-- A pass that is not interrupted: it looks at `_paused` before it takes the lock. -/
def maintain (env : Env) (r : Recorder) : Recorder := if r.paused then r else r.supervise env

/-- `RecordingIngressGate.suspend`. -/
def suspend (env : Env) (r : Recorder) (cameraId : String) : Bool × Recorder :=
  if validCameraId cameraId = false then (false, r)
  else if r.held.contains cameraId = false ∧ MAX_HOLDS ≤ r.held.size then (false, r)
  else
    let r := { r with held := r.held.set cameraId false }
    let (ok, r) := r.retireLocked env cameraId
    if ok then (true, { r with held := r.held.set cameraId true }) else (false, r)

/-- `RecordingIngressGate.resume`. -/
def resumeIngress (r : Recorder) (cameraId : String) : Bool × Recorder :=
  if validCameraId cameraId = false then (false, r)
  else
    match r.held.get? cameraId with
    | none => (true, r)
    | some retired =>
      if retired = false ∨ r.procs.contains cameraId then (false, r)
      else (true, { r with held := r.held.erase cameraId })

/-- `RecordingIngressGate.is_retired`; false also where it raises. -/
def isRetired (r : Recorder) (cameraId : String) : Bool :=
  validCameraId cameraId && decide (r.held.get? cameraId = some true) && !r.procs.contains cameraId

/-- `is_recording`. -/
def isRecording (r : Recorder) (cameraId : String) : Bool × Recorder :=
  match r.procs.get? cameraId with
  | none => (false, r)
  | some pid =>
    let (exited, r) := r.poll pid
    (!exited, r)

/-- A child ends on its own. -/
def exit (r : Recorder) (pid : Nat) : Recorder :=
  if pid < r.born ∧ (r.child pid).alive then
    { r with
      child := Function.update r.child pid { r.child pid with alive := false }
      log := r.log ++ [.died (r.child pid).camera pid] }
  else r

/-! ## Runs -/

inductive RecorderOp where
  | start (cameras : List Camera)
  | pause
  | resume
  | stop
  | supervise
  | maintain
  | suspend (camera : String)
  | resumeIngress (camera : String)
  | isRecording (camera : String)
  | exit (pid : Nat)

/-- Whether the operation returned, and the recorder after it. -/
def step (env : Env) (r : Recorder) : RecorderOp → Bool × Recorder
  | .start cameras => r.start env cameras
  | .pause => r.pause env
  | .resume => r.resume env
  | .stop => r.stop env
  | .supervise => (true, r.supervise env)
  | .maintain => (true, r.maintain env)
  | .suspend camera => r.suspend env camera
  | .resumeIngress camera => r.resumeIngress camera
  | .isRecording camera => (true, (r.isRecording camera).2)
  | .exit pid => (true, r.exit pid)

def run (calls : List (Env × RecorderOp)) : Recorder := calls.foldl (fun r call => (r.step call.1 call.2).2) {}

end Recorder

end CamGuard.Recording
