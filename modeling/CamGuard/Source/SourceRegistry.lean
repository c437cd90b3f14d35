/-
Admission of native sources (`source_registry.py`): at most one for each camera and
for each resource domain of a driver. `run` is a thread's call that admits itself,
constructs its source, runs it and takes its entry away; what it does under the
registry's lock, and what a factory or a source may do in between, are the steps
below. `stop` is one section under the lock; `begin_shutdown` is one that closes the
registry and then one `stop` for each camera it found.

A call of `run` is its number, and so is a call of `begin_shutdown`; an owner is the
identity of an object. `returned` records that the source's own `run` returned; no
branch reads it. Left out: the source object, which only readers look at.
-/
import CamGuard.CameraIdentity
import CamGuard.Lib.Dict
import Mathlib.Logic.Function.Basic

namespace CamGuard.Source

inductive EntryPhase where
  | starting
  | running
  | stopping
  | blocked
  deriving DecidableEq, Repr

/-- `_Entry`, and the call of `run` that made it. -/
structure SourceEntry where
  domain : String
  owner : Nat
  stop : Bool := false
  phase : EntryPhase := .starting
  run : Nat
  deriving DecidableEq, Repr

/-- Where a call of `run` is. -/
inductive RunPoint where
  /-- Its factory is at work. -/
  | factory
  /-- Its source is at work. -/
  | source
  /-- The source returned. -/
  | result
  /-- `confirmed` is set. -/
  | confirmed
  /-- An exception is on its way to `finally`. -/
  | raising
  | returned
  | raised
  | refused
  deriving DecidableEq, Repr

structure SourceRun where
  camera : String
  domain : String
  point : RunPoint
  returned : Bool := false
  deriving DecidableEq, Repr

structure SourceRegistry where
  capacity : Option Nat
  entries : Dict String SourceEntry := ∅
  closed : Bool := false
  runs : Nat → Option SourceRun := fun _ => none
  /-- The cameras that a call of `begin_shutdown` has still to stop. -/
  shutdowns : Nat → Option (List String) := fun _ => none

/-- The check of `run` on its domain. -/
def validDomain (domain : String) : Bool :=
  decide (1 ≤ domain.toList.length ∧ domain.toList.length ≤ 128) &&
    domain.toList.all fun c => decide (33 ≤ c.toNat ∧ c.toNat ≤ 126)

namespace SourceRegistry

def setRun (s : SourceRegistry) (r : Nat) (run : SourceRun) : SourceRegistry :=
  { s with runs := Function.update s.runs r (some run) }

/-- The admission of `run`. -/
def full (s : SourceRegistry) (camera domain : String) : Bool :=
  s.entries.contains camera || s.capacity.any (fun capacity => decide (capacity ≤ s.entries.size)) ||
    s.entries.values.any fun entry => entry.domain = domain

/-- `run`, up to its factory. -/
def reserve (s : SourceRegistry) (r : Nat) (camera domain : String) (owner : Nat) (cancelled : Bool) : SourceRegistry :=
  if validCameraId camera = false ∨ validDomain domain = false ∨ cancelled ∨ s.closed ∨ s.full camera domain then
    s.setRun r ⟨camera, domain, .refused, false⟩
  else
    { s with entries := s.entries.set camera ⟨domain, owner, false, .starting, r⟩ }.setRun r ⟨camera, domain, .factory, false⟩

/-- The entry of a camera, changed in its place. -/
def modify (s : SourceRegistry) (camera : String) (f : SourceEntry → SourceEntry) : SourceRegistry :=
  match s.entries.get? camera with
  | none => s
  | some entry => { s with entries := s.entries.set camera (f entry) }

/-- The factory returned. -/
def constructed (s : SourceRegistry) (r : Nat) (run : SourceRun) : SourceRegistry :=
  (s.modify run.camera fun entry => { entry with phase := if entry.stop then .stopping else .running }).setRun r
    { run with point := .source }

/-- The section that sets `confirmed`. -/
def confirm (s : SourceRegistry) (r : Nat) (run : SourceRun) : SourceRegistry :=
  match s.entries.get? run.camera with
  | some entry => s.setRun r { run with point := if entry.phase = .blocked then .raising else .confirmed }
  | none => s.setRun r { run with point := .confirmed }

/-- `finally`. -/
def finish (s : SourceRegistry) (r : Nat) (run : SourceRun) (confirmed : Bool) : SourceRegistry :=
  let blocked := match s.entries.get? run.camera with
    | some entry => decide (entry.phase = .blocked)
    | none => false
  if confirmed && !blocked then
    { s with entries := s.entries.erase run.camera }.setRun r { run with point := .returned }
  else
    (s.modify run.camera fun entry => { entry with phase := .blocked }).setRun r { run with point := .raised }

/-- `stop`; nothing where it raises. -/
def stop (s : SourceRegistry) (camera : String) (owner : Option Nat) : Option (Bool × SourceRegistry) :=
  match s.entries.get? camera with
  | none => some (false, s)
  | some entry =>
    if owner.any fun owner => entry.owner ≠ owner then some (false, s)
    else if entry.phase = .blocked then none
    else some (true, { s with entries := s.entries.set camera { entry with stop := true, phase := .stopping } })

/-- What `stop` leaves. -/
def stopped (s : SourceRegistry) (camera : String) (owner : Option Nat) : SourceRegistry :=
  match s.stop camera owner with
  | none => s
  | some (_, s) => s

inductive RegistryOp where
  /-- A thread calls `run`. -/
  | call (r : Nat) (camera domain : String) (owner : Nat) (cancelled : Bool)
  /-- A factory returns, or raises. -/
  | construct (r : Nat) (ok : Bool)
  /-- A source's `run` returns, or raises. -/
  | leave (r : Nat) (ok : Bool)
  | confirm (r : Nat)
  | finish (r : Nat)
  | stop (camera : String) (owner : Option Nat)
  /-- `begin_shutdown` closes the registry. -/
  | shutdown (k : Nat)
  /-- `begin_shutdown` stops its next camera. -/
  | stopNext (k : Nat)
  deriving DecidableEq

/-- One step; a step that is not the thread's next one does nothing. -/
def step (s : SourceRegistry) : RegistryOp → SourceRegistry
  | .call r camera domain owner cancelled =>
    if (s.runs r).isSome then s else s.reserve r camera domain owner cancelled
  | .construct r ok =>
    match s.runs r with
    | some run =>
      if run.point = .factory then if ok then s.constructed r run else s.setRun r { run with point := .raising } else s
    | none => s
  | .leave r ok =>
    match s.runs r with
    | some run =>
      if run.point = .source then
        s.setRun r { run with point := if ok then .result else .raising, returned := ok }
      else s
    | none => s
  | .confirm r =>
    match s.runs r with
    | some run => if run.point = .result then s.confirm r run else s
    | none => s
  | .finish r =>
    match s.runs r with
    | some run =>
      if run.point = .confirmed then s.finish r run true
      else if run.point = .raising then s.finish r run false
      else s
    | none => s
  | .stop camera owner => s.stopped camera owner
  | .shutdown k =>
    if (s.shutdowns k).isSome then s
    else { s with closed := true, shutdowns := Function.update s.shutdowns k (some s.entries.keys) }
  | .stopNext k =>
    match s.shutdowns k with
    | some (camera :: rest) => { s.stopped camera none with shutdowns := Function.update s.shutdowns k (some rest) }
    | _ => s

def exec (s : SourceRegistry) (ops : List RegistryOp) : SourceRegistry := ops.foldl step s

end SourceRegistry

end CamGuard.Source
