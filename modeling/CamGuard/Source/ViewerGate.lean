/-
The gate of viewers (`viewer_gate.py`): leases of the viewers that were admitted, and
holds on cameras that are to have none. Each operation is one section under the
gate's lock, but for `suspend`, whose wait gives the lock back: it is its first
section, and then one `drainTurn` for each time it wakes.

An operation that raises before it changed anything gives its fault alone.
-/
import CamGuard.CameraIdentity
import CamGuard.Lib.Dict
import Mathlib.Algebra.Order.Field.Rat

namespace CamGuard.Source

/-- A lease is the object that `admit` made, which its number stands for. -/
structure ViewerLease where
  id : Nat
  cameraId : String
  cancelled : Bool := false
  deriving DecidableEq, Repr

/-- What keeps a camera's viewers out. -/
inductive Hold where
  | blocked
  | draining
  | drained
  deriving DecidableEq, Repr

/-- The errors of the gate. -/
inductive GateFault where
  | identity
  | timeout
  | admission
  | capacity
  | draining
  | drain
  | suspension
  deriving DecidableEq, Repr

def GateFault.reason : GateFault → String
  | .identity => "public camera ID required"
  | .timeout => "bounded viewer drain timeout required"
  | .admission => "viewer admission unavailable"
  | .capacity => "viewer suspension capacity reached"
  | .draining => "viewer drain already in progress"
  | .drain => "viewer drain unconfirmed"
  | .suspension => "viewer suspension unconfirmed"

/-- How many cameras can be held. -/
def MAX_VIEWER_HOLDS : Nat := 32

/-- The gate, its leases and its holds. -/
structure ViewerGate where
  capacity : Nat := 64
  leases : List ViewerLease := []
  holds : Dict String Hold := ∅
  /-- How many leases were made. -/
  issued : Nat := 0

/-- How a turn of `suspend` ends. -/
inductive Drain where
  | done
  | waiting
  | raised (fault : GateFault)
  deriving DecidableEq, Repr

namespace ViewerGate

def hasLease (g : ViewerGate) (cameraId : String) : Bool := g.leases.any fun lease => lease.cameraId = cameraId

/-- Tell the viewers of a camera to go. -/
def cancel (g : ViewerGate) (cameraId : String) : ViewerGate :=
  { g with leases := g.leases.map fun lease =>
      if lease.cameraId = cameraId then { lease with cancelled := true } else lease }

def set (g : ViewerGate) (cameraId : String) (hold : Hold) : ViewerGate := { g with holds := g.holds.set cameraId hold }

/-- `admit`. -/
def admitViewer (g : ViewerGate) (cameraId : String) : Except GateFault (ViewerLease × ViewerGate) :=
  if validCameraId cameraId = false then .error .identity
  else if g.holds.contains cameraId ∨ g.capacity ≤ g.leases.length then .error .admission
  else
    let lease : ViewerLease := { id := g.issued, cameraId }
    .ok (lease, { g with leases := g.leases ++ [lease], issued := g.issued + 1 })

def release (g : ViewerGate) (id : Nat) : ViewerGate :=
  { g with leases := g.leases.filter fun lease => lease.id ≠ id }

def isSuspended (g : ViewerGate) (cameraId : String) : Except GateFault Bool :=
  if validCameraId cameraId = false then .error .identity else .ok (g.holds.contains cameraId)

def isDrained (g : ViewerGate) (cameraId : String) : Except GateFault Bool :=
  if validCameraId cameraId = false then .error .identity
  else .ok (decide (g.holds.get? cameraId = some .drained) && !g.hasLease cameraId)

def hold (g : ViewerGate) (cameraId : String) : Except GateFault ViewerGate :=
  if validCameraId cameraId = false then .error .identity
  else if g.holds.contains cameraId then .ok (g.cancel cameraId)
  else if MAX_VIEWER_HOLDS ≤ g.holds.size then .error .capacity
  else .ok ((g.set cameraId .blocked).cancel cameraId)

/-- The loop of `suspend`, up to its next wait; `expired` is whether the deadline has
passed. -/
def drainTurn (g : ViewerGate) (cameraId : String) (expired : Bool) : Drain × ViewerGate :=
  if g.hasLease cameraId then
    if expired then (.raised .drain, g.set cameraId .blocked) else (.waiting, g)
  else (.done, g.set cameraId .drained)

def suspend (g : ViewerGate) (cameraId : String) (timeout : ℚ) (expired : Bool) : Drain × ViewerGate :=
  if validCameraId cameraId = false then (.raised .identity, g)
  else if ¬ (0 < timeout ∧ timeout ≤ 30) then (.raised .timeout, g)
  else if g.holds.get? cameraId = some .draining then (.raised .draining, g)
  else if g.holds.contains cameraId = false ∧ MAX_VIEWER_HOLDS ≤ g.holds.size then (.raised .capacity, g)
  else ((g.set cameraId .draining).cancel cameraId).drainTurn cameraId expired

def resume (g : ViewerGate) (cameraId : String) : Except GateFault ViewerGate :=
  if validCameraId cameraId = false then .error .identity
  else
    match g.holds.get? cameraId with
    | none => .ok g
    | some held =>
      if held ≠ .drained ∨ g.hasLease cameraId then .error .suspension
      else .ok { g with holds := g.holds.erase cameraId }

end ViewerGate

end CamGuard.Source
