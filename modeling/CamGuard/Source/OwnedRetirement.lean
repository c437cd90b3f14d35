/-
The retirement coordinator (`owned_retirement.py`) with what it retires: the gate of
viewers, the recorder behind its ingress gate, the source policy, and the bindings of
owned workers (`owned_bindings.py`). All of these have locks of their own, and other
threads use them while a call of the coordinator is under way.

A call is a program of actions, and an action is one section under one of those
locks; between two actions anything may happen outside. `_operation` admits one call
at a time, so a call that would be a second one is refused and is no event here; so
is one that does not get the reconciliation guard. A claim that succeeded holds
`_operation` to the end of its body.
-/
import CamGuard.Recording.Recorder
import CamGuard.Source.ViewerGate

namespace CamGuard.Source

open CamGuard.Recording (Recorder)

/-- A receipt is the object that a retirement made, which its number stands for. -/
structure RetiredIngress where
  id : Nat
  cameraId : String
  selection : Selection
  deriving DecidableEq, Repr

/-- A binding; its worker is an object, which a number stands for. -/
structure OwnedBinding where
  cameraId : String
  revision : Int
  worker : Nat
  withdrawn : Bool := false
  deriving DecidableEq, Repr

/-- What the outside decides during one action. -/
structure Inner where
  /-- The action raises, for a reason of its own. -/
  raises : Bool
  /-- The deadline of the drain has passed. -/
  expired : Bool
  recorder : Recording.Env
  /-- A worker has a child. -/
  pid : Nat → Bool
  /-- A worker has its restream URL. -/
  url : Nat → Bool
  /-- `completion.result` returns. -/
  completes : Bool
  /-- `retire_ingress` returns `None`. -/
  certifies : Bool

/-- The inner steps of the four calls. -/
inductive Action where
  | admission
  | readPolicy
  | bound
  | legacy
  | viewersFree
  | recordingsFree
  | beginChange
  | suspendViewers
  | suspendRecordings
  | retireIngress
  | withdraw
  | stopWorker
  | awaitCompletion
  | reaped
  | discard
  | confirm
  | consume
  | receiptHeld
  | drained
  | retired
  | selected
  | take
  /-- The handler of a failure after `begin_change`. -/
  | block
  deriving DecidableEq, Repr

/-- A call of the coordinator. -/
inductive Request where
  | retire (cameraId : String) (worker : Nat) (targetMode : String) (expectedRevision : Int) (drainTimeout : ℚ)
  | retireLegacy (cameraId targetMode : String) (expectedRevision : Int)
  | resumeNative (checkpoint : CleanRestart)
  | claim (receipt : RetiredIngress)
  deriving DecidableEq

namespace Request

def cameraId : Request → String
  | .retire cameraId .. | .retireLegacy cameraId .. => cameraId
  | .resumeNative checkpoint => checkpoint.cameraId
  | .claim receipt => receipt.cameraId

def targetMode : Request → String
  | .retire _ _ targetMode .. | .retireLegacy _ targetMode _ => targetMode
  | _ => ""

def expectedRevision : Request → Int
  | .retire _ _ _ expectedRevision _ | .retireLegacy _ _ expectedRevision => expectedRevision
  | _ => 0

/-- The timeout of `suspend`, which has a default. -/
def drainTimeout : Request → ℚ
  | .retire _ _ _ _ drainTimeout => drainTimeout
  | _ => 8

/-- What raises `ValueError` before `_operation` is asked for. -/
def valid : Request → Bool
  | .retire _ _ targetMode _ drainTimeout =>
    decide (targetMode = "native" ∨ targetMode = "owned_rtsp") && decide (0 < drainTimeout ∧ drainTimeout ≤ 30)
  | .retireLegacy _ targetMode _ => decide (targetMode = "native" ∨ targetMode = "owned_rtsp")
  | _ => true

def program : Request → List Action
  | .retire .. => [.admission, .readPolicy, .bound, .viewersFree, .recordingsFree, .beginChange, .suspendViewers,
      .suspendRecordings, .withdraw, .stopWorker, .awaitCompletion, .reaped, .discard, .confirm]
  | .retireLegacy .. => [.readPolicy, .admission, .legacy, .viewersFree, .recordingsFree, .beginChange, .suspendViewers,
      .suspendRecordings, .retireIngress, .confirm]
  | .resumeNative .. => [.admission, .viewersFree, .recordingsFree, .suspendViewers, .suspendRecordings, .consume]
  | .claim .. => [.receiptHeld, .drained, .retired, .selected, .take]

end Request

/-- A call under way. -/
structure Call where
  request : Request
  previous : Selection := {}
  /-- What `begin_change` gave. -/
  pending : Option Selection := none
  /-- Inside the wait of `suspend`. -/
  waiting : Bool := false
  rest : List Action
  deriving DecidableEq

/-- How calls end. -/
inductive Outcome where
  /-- A retirement, or the resumption of one, gave its receipt. -/
  | issued (receipt : RetiredIngress)
  | claimed (receipt : RetiredIngress)
  /-- It raised, and had not changed the policy. -/
  | refused (request : Request)
  /-- It raised after `begin_change`. -/
  | broken (request : Request)
  deriving DecidableEq

structure Handoff where
  viewers : ViewerGate := {}
  /-- The cameras that another thread waits for inside `suspend`. -/
  drains : List String := []
  recorder : Recorder := {}
  db : PolicyDb := {}
  bindings : Dict String OwnedBinding := ∅
  failed : Bool := false
  receipts : Dict String RetiredIngress := ∅
  issued : Nat := 0
  call : Option Call := none
  log : List Outcome := []

/-- How an action ends. -/
inductive Ending where
  | done
  | waiting
  | raised
  deriving DecidableEq, Repr

namespace Handoff

/-- `BoundIngress.matches`. -/
def matching (env : Inner) (b : OwnedBinding) (cameraId : String) (selection : Selection) : Bool :=
  b.cameraId = cameraId ∧ b.revision = selection.revision ∧ selection.mode = .ownedRtsp ∧ selection.phase = .active ∧
    b.withdrawn = false ∧ env.pid b.worker ∧ env.url b.worker

/-- A new receipt in the table. -/
def issue (s : Handoff) (cameraId : String) (selection : Selection) : Handoff :=
  let receipt : RetiredIngress := ⟨s.issued, cameraId, selection⟩
  { s with
    receipts := s.receipts.set cameraId receipt
    issued := s.issued + 1
    log := s.log ++ [.issued receipt] }

/-- `if condition: raise`. -/
def refuse (refused : Bool) (s : Handoff) (call : Call) : Ending × Handoff × Call :=
  (if refused then .raised else .done, s, call)

/-- The section of an action that does not raise for reasons of its own. -/
def act (env : Inner) (s : Handoff) (call : Call) : Action → Ending × Handoff × Call
  | .admission => refuse s.failed s call
  | .readPolicy =>
    if validCameraId call.request.cameraId = false then (.raised, s, call)
    else (.done, s, { call with previous := s.db.readFor call.request.cameraId })
  | .bound =>
    match call.request, s.bindings.get? call.request.cameraId with
    | .retire _ worker .., some binding =>
      refuse (!matching env binding call.request.cameraId call.previous || decide (binding.worker ≠ worker)) s call
    | _, _ => (.raised, s, call)
  | .legacy =>
    refuse (!call.previous.permitsLegacyRtsp || decide (call.previous.revision ≠ call.request.expectedRevision)) s call
  | .viewersFree => refuse (decide (s.viewers.isSuspended call.request.cameraId ≠ .ok false)) s call
  | .recordingsFree =>
    refuse (!validCameraId call.request.cameraId || s.recorder.held.contains call.request.cameraId) s call
  | .beginChange =>
    match s.db.beginChange call.request.cameraId call.request.targetMode call.request.expectedRevision with
    | .error _ => (.raised, s, call)
    | .ok (pending, db) => (.done, { s with db := db }, { call with pending := some pending })
  | .suspendViewers =>
    let (turn, viewers) :=
      if call.waiting then s.viewers.drainTurn call.request.cameraId env.expired
      else s.viewers.suspend call.request.cameraId call.request.drainTimeout env.expired
    let s := { s with viewers := viewers }
    match turn with
    | .done => (.done, s, { call with waiting := false })
    | .waiting => (.waiting, s, { call with waiting := true })
    | .raised _ => (.raised, s, { call with waiting := false })
  | .suspendRecordings =>
    let (ok, recorder) := s.recorder.suspend env.recorder call.request.cameraId
    refuse (!ok) { s with recorder := recorder } call
  | .retireIngress => refuse (!env.certifies) s call
  | .withdraw =>
    match s.bindings.get? call.request.cameraId with
    | none => (.done, s, call)
    | some binding =>
      (.done, { s with bindings := s.bindings.set call.request.cameraId { binding with withdrawn := true } }, call)
  | .stopWorker => (.done, s, call)
  | .awaitCompletion => refuse (!env.completes) s call
  | .reaped =>
    match call.request with
    | .retire _ worker .. => refuse (env.pid worker) s call
    | _ => (.done, s, call)
  | .discard =>
    match s.bindings.get? call.request.cameraId with
    | none => (.done, s, call)
    | some binding =>
      if env.pid binding.worker then (.raised, s, call)
      else (.done, { s with bindings := s.bindings.erase call.request.cameraId }, call)
  | .confirm =>
    match call.pending with
    | none => (.raised, s, call)
    | some pending =>
      if s.db.readFor call.request.cameraId ≠ pending then (.raised, s, call)
      else (.done, s.issue call.request.cameraId pending, call)
  | .consume =>
    match call.request with
    | .resumeNative checkpoint =>
      match s.db.consume checkpoint with
      | .error _ => (.raised, s, call)
      | .ok (selection, db) => (.done, { s with db := db }.issue call.request.cameraId selection, call)
    | _ => (.raised, s, call)
  | .receiptHeld =>
    match call.request with
    | .claim receipt => refuse (s.failed || decide (s.receipts.get? receipt.cameraId ≠ some receipt)) s call
    | _ => (.raised, s, call)
  | .drained => refuse (decide (s.viewers.isDrained call.request.cameraId ≠ .ok true)) s call
  | .retired => refuse (!s.recorder.isRetired call.request.cameraId) s call
  | .selected =>
    match call.request with
    | .claim receipt => refuse (decide (s.db.readFor receipt.cameraId ≠ receipt.selection)) s call
    | _ => (.raised, s, call)
  | .take =>
    match call.request with
    | .claim receipt =>
      (.done, { s with receipts := s.receipts.erase receipt.cameraId, log := s.log ++ [.claimed receipt] }, call)
    | _ => (.raised, s, call)
  | .block =>
    let db :=
      match call.pending with
      | none => s.db
      | some pending =>
        match s.db.block call.request.cameraId pending.revision with
        | .error _ => s.db
        | .ok (_, db) => db
    (.done, { s with db := db, log := s.log ++ [.broken call.request] }, call)

/-- One action: what raises for a reason of its own changes nothing, and of the handler
it is swallowed; the deletion of a claimed receipt has nothing that could raise. -/
def perform (env : Inner) (s : Handoff) (call : Call) (action : Action) : Ending × Handoff × Call :=
  if env.raises then
    match action with
    | .block => (.done, { s with log := s.log ++ [.broken call.request] }, call)
    | .take => act env s call action
    | _ => (.raised, s, call)
  else act env s call action

/-- A call raised: after `begin_change` the failure is latched and the handler runs. -/
def raise (s : Handoff) (call : Call) : Handoff :=
  match call.pending with
  | none => { s with call := none, log := s.log ++ [.refused call.request] }
  | some _ => { s with failed := true, call := some { call with waiting := false, rest := [.block] } }

/-- A call with nothing left ends, refuse it is a claim, which has its body before it. -/
def settle (s : Handoff) (call : Call) (rest : List Action) : Handoff :=
  match rest, call.request with
  | [], .claim _ => { s with call := some { call with rest := [] } }
  | [], _ => { s with call := none }
  | rest, _ => { s with call := some { call with rest := rest } }

/-- The call under way takes its next action. -/
def advance (env : Inner) (s : Handoff) : Handoff :=
  match s.call with
  | none => s
  | some call =>
    match call.rest with
    | [] => s
    | action :: rest =>
      match perform env s call action with
      | (.done, s, call) => s.settle call rest
      | (.waiting, s, call) => { s with call := some call }
      | (.raised, s, call) => s.raise call

def begin (s : Handoff) (request : Request) : Handoff :=
  if s.call.isSome ∨ request.valid = false then s else { s with call := some { request, rest := request.program } }

/-- The body of a claim ends. -/
def leave (s : Handoff) : Handoff :=
  match s.call with
  | some call => if call.rest = [] then { s with call := none } else s
  | none => s

/-! ## Runs -/

inductive HandoffEvent where
  | begin (request : Request)
  | advance (env : Inner)
  | leave
  | admitViewer (cameraId : String)
  | release (id : Nat)
  | hold (cameraId : String)
  | suspend (cameraId : String) (timeout : ℚ) (expired : Bool)
  | wake (cameraId : String) (expired : Bool)
  | resume (cameraId : String)
  /-- Any operation of the recorder or of its ingress gate. -/
  | recorder (env : Recording.Env) (op : Recorder.RecorderOp)
  /-- Any change of one row of a table, by anyone. -/
  | policyRow (cameraId : String) (row : Option PolicyRow)
  | checkpointRow (cameraId : String) (row : Option CheckpointRow)
  | camera (cameraId : String) (configured : Bool)
  | bindings (bindings : Dict String OwnedBinding)

def step (s : Handoff) : HandoffEvent → Handoff
  | .begin request => s.begin request
  | .advance env => s.advance env
  | .leave => s.leave
  | .admitViewer cameraId =>
    match s.viewers.admitViewer cameraId with
    | .error _ => s
    | .ok (_, viewers) => { s with viewers := viewers }
  | .release id => { s with viewers := s.viewers.release id }
  | .hold cameraId =>
    match s.viewers.hold cameraId with
    | .error _ => s
    | .ok viewers => { s with viewers := viewers }
  | .suspend cameraId timeout expired =>
    let (turn, viewers) := s.viewers.suspend cameraId timeout expired
    { s with
      viewers := viewers
      drains := if turn = .waiting then cameraId :: s.drains else s.drains }
  | .wake cameraId expired =>
    if cameraId ∈ s.drains then
      let (turn, viewers) := s.viewers.drainTurn cameraId expired
      { s with
        viewers := viewers
        drains := if turn = .waiting then s.drains else s.drains.erase cameraId }
    else s
  | .resume cameraId =>
    match s.viewers.resume cameraId with
    | .error _ => s
    | .ok viewers => { s with viewers := viewers }
  | .recorder env op => { s with recorder := (s.recorder.step env op).2 }
  | .policyRow cameraId row => { s with db := { s.db with policy := Function.update s.db.policy cameraId row } }
  | .checkpointRow cameraId row => { s with db := { s.db with restart := Function.update s.db.restart cameraId row } }
  | .camera cameraId configured => { s with db := { s.db with cameras := Function.update s.db.cameras cameraId configured } }
  | .bindings bindings => { s with bindings := bindings }

/-- A coordinator over new gates of this capacity and a database that may hold anything. -/
def run (capacity : Nat) (db : PolicyDb) (events : List HandoffEvent) : Handoff :=
  events.foldl step { viewers := { capacity }, db }

end Handoff

end CamGuard.Source
