/-
A prepared native source (`prepared_native.py`): one run of it in the registry, its
publication, and its cleanup. Four parties meet over one lock: the thread of the
source's run, with the callback of its future; whoever publishes; whoever closes; and
whoever asks it to stop. A step below is one access to something they share: a flag,
a section under the lock of the gate of viewers or of the registry, or a transaction.

The run is call 0 of the registry, under owner 0; the other calls are anyone's. The
rows of other cameras are left out. What the callback reports on the way to
`_block_locked` is left out too; it raises nothing.
-/
import CamGuard.Source.SourcePolicy
import CamGuard.Source.SourceRegistry
import CamGuard.Source.ViewerGate

namespace CamGuard.Source

/-- Where the future is, and the call that it stands for. -/
inductive RunStage where
  | queued
  /-- In `cancelled()`, before the admission. -/
  | checking
  /-- In front of the admission section. -/
  | admitting
  /-- Admitted; in front of the check of `construct`. -/
  | admitted
  /-- Behind that check, and in front of the flag. -/
  | cleared
  /-- `_constructed` is set, and the factory is at work. -/
  | constructing
  /-- Behind `construct`; the registry's call says where. -/
  | running
  /-- The call is over, and the future is not told yet. -/
  | ended (failed : Bool)
  | done (failed : Bool)
  | cancelled
  deriving DecidableEq, Repr

/-- `Future.done`. -/
def RunStage.isDone : RunStage → Bool
  | .done _ | .cancelled => true
  | _ => false

inductive Callback where
  | absent
  | registered
  | entered
  | returned
  deriving DecidableEq, Repr

/-- The next access of `publish`. -/
inductive PublishPoint where
  | first
  | activate
  | routes
  | stop
  | done
  | valid
  | resume
  | mark
  deriving DecidableEq, Repr

/-- The next access of a section that blocks. -/
inductive BlockPoint where
  | closed
  | stop
  | hold
  | policy
  deriving DecidableEq, Repr

/-- Who holds the lock: `publish`, the callback, or `close`. -/
inductive LockHolder where
  | publish (point : PublishPoint)
  | ended (point : BlockPoint)
  | close (point : BlockPoint)
  deriving DecidableEq, Repr

/-- Where `close` is, between its sections. -/
inductive ClosePoint where
  | entering
  | blocking
  | stopping
  | awaiting
  | constructed
  | owns
  | suspending
  | draining
  | marking
  deriving DecidableEq, Repr

inductive NativeEntry where
  /-- `publish` looked at the future, and then at the offer, for the last time. -/
  | sawDone (done : Bool)
  | sawOffer (valid : Bool)
  | published
  /-- `close` returned. -/
  | closed
  deriving DecidableEq, Repr

structure PreparedNative where
  cameraId : String
  domain : String
  viewers : ViewerGate
  db : PolicyDb
  registry : SourceRegistry
  selection : Selection
  stop : Bool := false
  closed : Bool := false
  constructed : Bool := false
  published : Bool := false
  completion : Option RunStage := none
  callback : Callback := .absent
  holder : Option LockHolder := none
  closer : Option ClosePoint := none
  log : List NativeEntry := []

namespace PreparedNative

/-- `completion is not None and completion.done()`. -/
def isDone (s : PreparedNative) : Bool := s.completion.any RunStage.isDone

/-- `SourceRegistry.owns`, of this owner. -/
def owns (s : PreparedNative) : Bool := (s.registry.entries.get? s.cameraId).any fun e => e.owner = 0

/-! ## The run -/

inductive RunEvent where
  | start
  /-- The executor cancels what it has not started. -/
  | cancel
  | check (valid : Bool)
  | admission
  | construct (valid : Bool)
  | flag
  | made (ok : Bool)
  /-- `cancelled()` finds the offer invalid while the source is at work. -/
  | invalid
  | leave (ok : Bool)
  | confirm
  | finish
  | resolve
  deriving DecidableEq, Repr

/-- Where call 0 of a registry is. -/
def point (registry : SourceRegistry) : Option RunPoint := (registry.runs 0).map SourceRun.point

def runStep (s : PreparedNative) (event : RunEvent) : PreparedNative :=
  match s.completion, event with
  | some .queued, .start => { s with completion := some .checking }
  | some .queued, .cancel => { s with completion := some .cancelled }
  | some .checking, .check valid =>
    if s.stop then { s with completion := some (.ended true) }
    else if valid then { s with completion := some .admitting }
    else { s with stop := true, completion := some (.ended true) }
  | some .admitting, .admission =>
    let registry := s.registry.step (.call 0 s.cameraId s.domain 0 false)
    { s with
      registry := registry
      completion := some (if point registry = some .factory then .admitted else .ended true) }
  | some .admitted, .construct valid =>
    if s.stop ∨ valid = false then { s with registry := s.registry.step (.construct 0 false), completion := some .running }
    else { s with completion := some .cleared }
  | some .cleared, .flag => { s with constructed := true, completion := some .constructing }
  | some .constructing, .made ok => { s with registry := s.registry.step (.construct 0 ok), completion := some .running }
  | some .running, .invalid => if point s.registry = some .source then { s with stop := true } else s
  | some .running, .leave ok => { s with registry := s.registry.step (.leave 0 ok) }
  | some .running, .confirm => { s with registry := s.registry.step (.confirm 0) }
  | some .running, .finish =>
    let registry := s.registry.step (.finish 0)
    { s with
      registry := registry
      completion :=
        match point registry with
        | some .returned => some (.ended false)
        | some .raised => some (.ended true)
        | _ => some .running }
  | some (.ended failed), .resolve => { s with completion := some (.done failed) }
  | _, _ => s

/-! ## Under the lock -/

/-- What the outside decides for the holder of the lock. -/
structure LockEnv where
  /-- `offer.valid() is True`. -/
  valid : Bool
  /-- `apply_routes` returns. -/
  routes : Bool
  deriving DecidableEq, Repr

/-- `publish`, which raises when it leaves early. -/
def publishStep (s : PreparedNative) (env : LockEnv) : PublishPoint → PreparedNative
  | .first =>
    if s.completion = none ∨ s.isDone ∨ s.stop ∨ env.valid = false then { s with holder := none }
    else { s with holder := some (.publish .activate) }
  | .activate =>
    match s.db.activate s.cameraId s.selection.revision with
    | .error _ => { s with holder := none }
    | .ok (selection, db) => { s with selection := selection, db := db, holder := some (.publish .routes) }
  | .routes => { s with holder := if env.routes then some (.publish .stop) else none }
  | .stop => { s with holder := if s.stop then none else some (.publish .done) }
  | .done =>
    { s with
      holder := if s.isDone then none else some (.publish .valid)
      log := s.log ++ [.sawDone s.isDone] }
  | .valid =>
    { s with
      holder := if env.valid then some (.publish .resume) else none
      log := s.log ++ [.sawOffer env.valid] }
  | .resume =>
    match s.viewers.resume s.cameraId with
    | .error _ => { s with holder := none }
    | .ok viewers => { s with viewers := viewers, holder := some (.publish .mark) }
  | .mark => { s with published := true, holder := none, log := s.log ++ [.published] }

/-- `_block_locked`, up to its last access. -/
def holdViewers (s : PreparedNative) : PreparedNative :=
  match s.viewers.hold s.cameraId with
  | .error _ => s
  | .ok viewers => { s with viewers := viewers }

/-- The last access of `_block_locked`. -/
def blockPolicy (s : PreparedNative) : PreparedNative :=
  if s.selection.phase ≠ .blocked then
    match s.db.block s.cameraId s.selection.revision with
    | .error _ => s
    | .ok (selection, db) => { s with selection := selection, db := db }
  else s

/-- `_ended`. -/
def endedStep (s : PreparedNative) : BlockPoint → PreparedNative
  | .closed =>
    if s.closed then { s with holder := none, callback := .returned } else { s with holder := some (.ended .stop) }
  | .stop => { s with stop := true, holder := some (.ended .hold) }
  | .hold => { s.holdViewers with holder := some (.ended .policy) }
  | .policy => { s.blockPolicy with holder := none, callback := .returned }

/-- The first section of `_close`. -/
def closeLocked (s : PreparedNative) : BlockPoint → PreparedNative
  | .closed =>
    if s.closed then { s with holder := none, closer := none, log := s.log ++ [.closed] }
    else { s with holder := some (.close .stop) }
  | .stop => { s with stop := true, holder := some (.close .hold) }
  | .hold => { s.holdViewers with holder := some (.close .policy) }
  | .policy => { s.blockPolicy with holder := none, closer := some .stopping }

def lockStep (s : PreparedNative) (env : LockEnv) : PreparedNative :=
  match s.holder with
  | none => s
  | some (.publish point) => s.publishStep env point
  | some (.ended point) => s.endedStep point
  | some (.close point) => s.closeLocked point

/-! ## The other sections of `close` -/

/-- After a turn of `suspend`. -/
def drainedTo (s : PreparedNative) (turn : Drain × ViewerGate) : PreparedNative :=
  { s with
    viewers := turn.2
    closer :=
      match turn.1 with
      | .done => some .marking
      | .waiting => some .draining
      | .raised _ => none }

/-- The next section of `close`, which raises when it leaves early; `expired` is
whether the time of what it waits for has run out. -/
def closeStep (s : PreparedNative) (expired : Bool) : PreparedNative :=
  match s.closer with
  | some .entering =>
    if s.holder = none then { s with holder := some (.close .closed), closer := some .blocking } else s
  | some .stopping =>
    if s.completion = none then { s with closer := some .suspending }
    else { s with registry := s.registry.stopped s.cameraId (some 0), closer := some .awaiting }
  | some .awaiting =>
    match s.completion with
    | some .cancelled | some (.done false) => { s with closer := some .suspending }
    | some (.done true) => { s with closer := some .constructed }
    | _ => if expired then { s with closer := some .constructed } else s
  | some .constructed => { s with closer := if s.constructed then none else some .owns }
  | some .owns => { s with closer := if s.owns then none else some .suspending }
  | some .suspending => s.drainedTo (s.viewers.suspend s.cameraId 8 expired)
  | some .draining => s.drainedTo (s.viewers.drainTurn s.cameraId expired)
  | some .marking =>
    if s.holder = none then { s with closed := true, closer := none, log := s.log ++ [.closed] } else s
  | some .blocking | none => s

/-- `close` gives up, between two sections, when its time has run out. -/
def giveUp (s : PreparedNative) : PreparedNative :=
  if s.closer = some .blocking ∨ s.closer = some .draining then s else { s with closer := none }

/-! ## Runs -/

/-- The other cameras that are held. -/
def othersHeld (g : ViewerGate) (cameraId : String) : Nat := (g.holds.erase cameraId).size

/-- What another thread may make of the gate: nothing of this camera changes, and fewer
than 32 others are held. -/
def elsewhere (cameraId : String) (g g' : ViewerGate) : Bool :=
  decide (g'.holds.get? cameraId = g.holds.get? cameraId) && decide (g'.hasLease cameraId = g.hasLease cameraId) &&
    decide (othersHeld g' cameraId < MAX_VIEWER_HOLDS)

/-- The registry's operations of other calls, of other owners, and of its shutdown. -/
def foreign : SourceRegistry.RegistryOp → Bool
  | .call r _ _ owner _ => decide (r ≠ 0 ∧ owner ≠ 0)
  | .construct r _ | .leave r _ | .confirm r | .finish r => decide (r ≠ 0)
  | .stop _ owner => decide (owner ≠ some 0)
  | .shutdown _ | .stopNext _ => true

inductive NativeEvent where
  | launch (accepted : Bool)
  /-- `add_done_callback`. -/
  | register
  | run (event : RunEvent)
  /-- The callback begins. -/
  | ended
  | publish
  /-- The holder of the lock goes on. -/
  | locked (env : LockEnv)
  | requestStop
  | close
  | closing (expired : Bool)
  | giveUp
  /-- A viewer of this camera. -/
  | viewer
  | release (id : Nat)
  | gate (viewers : ViewerGate)
  | registry (op : SourceRegistry.RegistryOp)

/-- One step; a step that nobody can take next does nothing. -/
def step (s : PreparedNative) : NativeEvent → PreparedNative
  | .launch accepted =>
    if s.holder.isSome ∨ s.stop ∨ s.completion.isSome ∨ accepted = false then s else { s with completion := some .queued }
  | .register => if s.completion.isSome ∧ s.callback = .absent then { s with callback := .registered } else s
  | .run event => s.runStep event
  | .ended =>
    if s.callback = .registered ∧ s.isDone ∧ s.holder = none then { s with callback := .entered, holder := some (.ended .closed) }
    else s
  | .publish => if s.holder = none then { s with holder := some (.publish .first) } else s
  | .locked env => s.lockStep env
  | .requestStop => { s with stop := true }
  | .close => if s.closer = none then { s with stop := true, closer := some .entering } else { s with stop := true }
  | .closing expired => s.closeStep expired
  | .giveUp => s.giveUp
  | .viewer =>
    match s.viewers.admitViewer s.cameraId with
    | .error _ => s
    | .ok (_, viewers) => { s with viewers := viewers }
  | .release id => { s with viewers := s.viewers.release id }
  | .gate viewers => if elsewhere s.cameraId s.viewers viewers then { s with viewers := viewers } else s
  | .registry op => if foreign op then { s with registry := s.registry.step op } else s

/-- A claimed receipt: the camera's row is the selection, in transition. -/
structure Prepared where
  cameraId : String
  valid : validCameraId cameraId = true
  domain : String
  revision : Int
  revision_pos : 1 ≤ revision
  revision_le : revision ≤ MAX_REVISION
  viewers : ViewerGate
  room : othersHeld viewers cameraId < MAX_VIEWER_HOLDS
  capacity : Option Nat

def Prepared.selection (p : Prepared) : Selection := ⟨.native, .transition, p.revision⟩

/-- The session as it is constructed. -/
def new (p : Prepared) : PreparedNative where
  cameraId := p.cameraId
  domain := p.domain
  viewers := p.viewers
  db := { cameras := fun cameraId => cameraId = p.cameraId
          policy := fun cameraId => if cameraId = p.cameraId then some p.selection.row else none }
  registry := { capacity := p.capacity }
  selection := p.selection

def run (p : Prepared) (events : List NativeEvent) : PreparedNative := events.foldl step (new p)

end PreparedNative

end CamGuard.Source
