/-
One PTZ gesture (`ptz_scheduler.py`), with its reserved commands
(`ptz_command_reservation.py`) and the tracking of its RELEASE
(`ptz_release_delivery.py`).

A job is driven by its owner: it is polled for packets, fed with decrypted
frames, cancelled or told of a failed send. It shares the account's output
budget and sequence namespace with everybody else, so a run (`PtzWorld`) also
has steps of others on both. One call reads one time. What the job computes with
times is rounded; the refills of the output are exact.
-/
import CamGuard.Account.PtzProtocol
import CamGuard.Lib.Clocked
import CamGuard.Lib.Rounding
import CamGuard.Lib.Trace

namespace CamGuard.Account

variable [Rounding]

/-! ## The reserved commands -/

structure ReleaseCorrelation where
  sequence : Nat
  message : Nat
  request : Nat
  deriving DecidableEq, Repr

structure ReservedPtzCommands where
  releaseCorrelation : ReleaseCorrelation
  receiptSequence : Nat
  session : Nat
  generation : Nat
  start : Bytes
  release : Bytes
  started : Bool := false
  cancelled : Bool := false
  releaseAttempts : Nat := 0
  deriving DecidableEq, Repr

namespace ReservedPtzCommands

def cancelStart (c : ReservedPtzCommands) : ReservedPtzCommands := { c with cancelled := true }

def takeStart (c : ReservedPtzCommands) (source : BrokerSequences) : Except PtzFault Bytes × ReservedPtzCommands :=
  if c.started ∨ c.cancelled ∨ source.matchesIdentity c.session c.generation = false then (.error .startUnavailable, c)
  else (.ok c.start, { c with started := true })

def takeRelease (c : ReservedPtzCommands) : Except PtzFault Bytes × ReservedPtzCommands :=
  if c.started = false ∨ 3 ≤ c.releaseAttempts then (.error .releaseUnavailable, c)
  else (.ok c.release, { c with releaseAttempts := c.releaseAttempts + 1 })

end ReservedPtzCommands

/-- What `secrets` gives while the commands are reserved. -/
structure PtzDraws where
  releaseMessage : Fin (2 ^ 31)
  releaseRequest : Fin (2 ^ 32)
  startMessage : Fin (2 ^ 31)
  startRequest : Fin (2 ^ 32)
  startNoise : Nat
  releaseNoise : Nat

/-- A gesture as its caller asks for it. -/
structure PtzSpec where
  access : Nat
  device : Nat
  direction : Direction
  reviewedDirections : List Direction
  duration : ℚ
  deriving DecidableEq

/-- `reserve_ptz_commands`. -/
def reservePtzCommands (node : CertifiedNode) (source : BrokerSequences) (generation : Nat) (spec : PtzSpec)
    (draws : PtzDraws) : Except PtzFault ReservedPtzCommands × BrokerSequences :=
  if source.matchesIdentity node.sessionId generation = false ∨ spec.access < 1 ∨ 2 ^ 64 ≤ spec.access ∨
      spec.device < 1 ∨ 2 ^ 64 ≤ spec.device ∨ spec.direction ∉ spec.reviewedDirections then
    (.error .reservation, source)
  else
    match source.reserve 3 with
    | (.error e, source) => (.error (.sequences e), source)
    | (.ok ids, source) =>
      match ids with
      | [startSequence, releaseSequence, receiptSequence] =>
        match buildPtzRequest node spec.access spec.device spec.direction true startSequence draws.startMessage
            draws.startRequest draws.startNoise with
        | .error e => (.error (.gute e), source)
        | .ok startWire =>
          match buildPtzRequest node spec.access spec.device spec.direction false releaseSequence
              draws.releaseMessage draws.releaseRequest draws.releaseNoise with
          | .error e => (.error (.gute e), source)
          | .ok releaseWire =>
            (.ok {
              releaseCorrelation := ⟨releaseSequence, draws.releaseMessage, draws.releaseRequest⟩
              receiptSequence := receiptSequence
              session := node.sessionId
              generation := generation
              start := startWire
              release := releaseWire }, source)
      -- `reserve(3)` unpacks into three identifiers.
      | _ => (.error .reservation, source)

/-! ## The tracking of a RELEASE -/

structure ReleaseDelivery where
  node : CertifiedNode
  generation : Nat
  access : Nat
  device : Nat
  correlation : ReleaseCorrelation
  deadline : ℚ
  frames : Nat := 0
  transport : Bool := false
  peer : Bool := false
  application : Bool := false
  error : Bool := false
  deriving DecidableEq

namespace ReleaseDelivery

/-- `ReleaseDelivery(…)`. -/
def new (node : CertifiedNode) (generation access device : Nat) (correlation : ReleaseCorrelation) (deadline now : ℚ) :
    Except PtzFault ReleaseDelivery :=
  if generation < 1 ∨ access < 1 ∨ 2 ^ 64 ≤ access ∨ device < 1 ∨ 2 ^ 64 ≤ device ∨ 2 ^ 32 ≤ correlation.sequence ∨
      2 ^ 31 ≤ correlation.message ∨ 2 ^ 32 ≤ correlation.request ∨ Rounding.round (deadline - now) ≤ 0 ∨
      2 < Rounding.round (deadline - now) then
    .error .lifetime
  else .ok {
    node := node
    generation := generation
    access := access
    device := device
    correlation := correlation
    deadline := deadline }

def confirmed (d : ReleaseDelivery) : Bool := !d.error && (d.application || (d.transport && d.peer))

/-- `observe`. -/
def observe (loads : Loads) (d : ReleaseDelivery) (plain : Bytes) (peer : String × Nat) (generation : Nat) (now : ℚ) :
    Option PtzReply × ReleaseDelivery :=
  if d.deadline ≤ now then (none, d)
  else if 64 ≤ d.frames then (none, { d with error := true })
  else
    let d := { d with frames := d.frames + 1 }
    if peer ≠ d.node.address ∨ generation ≠ d.generation then (none, d)
    else
      match parsePtzReply loads plain d.node d.access d.device d.correlation.sequence d.correlation.message
          d.correlation.request with
      | none => (none, d)
      | some reply =>
        let d := { d with
          transport := d.transport || reply.transportReceipt
          peer := d.peer || reply.peerReceipt }
        match reply.errorCode with
        | none => (some reply, d)
        | some err =>
          (some reply, { d with
            application := d.application || decide (err = 0)
            error := d.error || decide (err ≠ 0) })

end ReleaseDelivery

/-! ## The scheduler -/

abbrev PtzPacket := Packet PtzKind

structure ScheduledPtzResult where
  reason : String
  startAttempted : Bool
  releaseAttempts : Nat
  releaseDeliveryConfirmed : Bool
  sendFailed : Bool
  deriving DecidableEq, Repr

structure PtzScheduler where
  node : CertifiedNode
  generation : Nat
  access : Nat
  device : Nat
  duration : ℚ
  /-- The output reserve. -/
  token : Nat
  commands : ReservedPtzCommands
  cancelled : Bool := false
  admitUntil : ℚ
  moveUntil : ℚ := 0
  releaseUntil : ℚ := 0
  retryAt : ℚ := 0
  settleUntil : Option ℚ := none
  started : Bool := false
  failed : Bool := false
  receiptPrepared : Bool := false
  releases : Nat := 0
  delivery : Option ReleaseDelivery := none
  result : Option ScheduledPtzResult := none

/-- A job among the account's shared objects. -/
structure PtzWorld where
  output : AccountOutputBudget
  source : BrokerSequences
  job : PtzScheduler

/-- `PtzScheduler(…)`: the reserve first, then the commands; a failure gives
the reserve back. -/
def PtzScheduler.new (node : CertifiedNode) (source : BrokerSequences) (output : AccountOutputBudget)
    (generation : Nat) (spec : PtzSpec) (draws : PtzDraws) (now : ℚ) :
    Except PtzFault PtzScheduler × AccountOutputBudget × BrokerSequences :=
  if spec.duration < Rounding.round (1 / 10) ∨ 1 / 2 < spec.duration then (.error .duration, output, source)
  else
    match output.reservePtz now with
    | (.error e, output) => (.error (.output e), output, source)
    | (.ok token, output) =>
      match reservePtzCommands node source generation spec draws with
      | (.error e, source) => (.error e, output.closePtz token, source)
      | (.ok commands, source) =>
        (.ok {
          node := node
          generation := generation
          access := spec.access
          device := spec.device
          duration := spec.duration
          token := token
          commands := commands
          admitUntil := Rounding.round (now + 1) }, output, source)

namespace PtzScheduler

def cancel (j : PtzScheduler) : PtzScheduler := { j with cancelled := true }

/-- `send_failed`. -/
def sendFailed (j : PtzScheduler) : PtzScheduler := { j with failed := true, cancelled := true }

end PtzScheduler

namespace PtzWorld

/-- `_finish`. -/
def finish (w : PtzWorld) (reason : String) (confirmed : Bool := false) : PtzWorld :=
  { w with
    output := if confirmed ∨ w.job.started = false then w.output.closePtz w.job.token else w.output
    job := { w.job with result := some {
      reason := reason
      startAttempted := w.job.started
      releaseAttempts := w.job.releases
      releaseDeliveryConfirmed := confirmed
      sendFailed := w.job.failed } } }

/-- `self._reserve.charge`. -/
def charge (w : PtzWorld) (now : ℚ) (kind : PtzKind) (size : Nat) : Except PtzFault Unit × PtzWorld :=
  match w.output.chargePtz now w.job.token kind size with
  | (.error e, output) => (.error (.output e), { w with output := output })
  | (.ok (), output) => (.ok (), { w with output := output })

/-- `next_packet` before START. -/
def nextStart (w : PtzWorld) (now : ℚ) : Except PtzFault (List PtzPacket) × PtzWorld :=
  if w.job.cancelled ∨ w.job.admitUntil ≤ now then
    let w := { w with job := { w.job with commands := w.job.commands.cancelStart } }
    (.ok [], w.finish "cancelled")
  else
    match w.job.commands.takeStart w.source with
    | (.error _, commands) => (.ok [], finish { w with job := { w.job with commands := commands } } "retired")
    | (.ok wire, commands) =>
      match charge { w with job := { w.job with commands := commands } } now .start wire.length with
      | (.error e, w) => (.error e, w)
      | (.ok (), w) =>
        (.ok [⟨.start, wire⟩], { w with job := { w.job with started := true, moveUntil := Rounding.round (now + w.job.duration) } })

/-- `next_packet` while a RELEASE is tracked. -/
def nextRelease (w : PtzWorld) (now : ℚ) (delivery : ReleaseDelivery) : Except PtzFault (List PtzPacket) × PtzWorld :=
  if delivery.confirmed ∧ w.job.settleUntil.any (fun settle => decide (settle ≤ now)) then
    (.ok [], w.finish "released" true)
  else if w.job.releaseUntil ≤ now then (.ok [], w.finish "release_unconfirmed")
  else if delivery.confirmed ∨ 3 ≤ w.job.releases ∨ now < w.job.retryAt then (.ok [], w)
  else
    match w.job.commands.takeRelease with
    | (.error e, commands) => (.error e, { w with job := { w.job with commands := commands } })
    | (.ok wire, commands) =>
      match charge { w with job := { w.job with commands := commands } } now .release wire.length with
      | (.error e, w) => (.error e, w)
      | (.ok (), w) =>
        (.ok [⟨.release, wire⟩],
          { w with job := { w.job with releases := w.job.releases + 1, retryAt := Rounding.round (now + 1 / 2) } })

/-- `next_packet`: at most one packet. -/
def nextPacket (w : PtzWorld) (now : ℚ) : Except PtzFault (List PtzPacket) × PtzWorld :=
  if w.job.result.isSome then (.ok [], w)
  else if w.job.started = false then w.nextStart now
  else
    match w.job.delivery with
    | some delivery => w.nextRelease now delivery
    | none =>
      if w.job.cancelled = false ∧ now < w.job.moveUntil then (.ok [], w)
      else
        let w := { w with job := { w.job with releaseUntil := Rounding.round (now + 2) } }
        match ReleaseDelivery.new w.job.node w.job.generation w.job.access w.job.device
            w.job.commands.releaseCorrelation w.job.releaseUntil now with
        | .error e => (.error e, w)
        | .ok delivery => nextRelease { w with job := { w.job with delivery := some delivery } } now delivery

/-- The receipts of an application reply: the transport acknowledgement if it
asks for one, and the message receipt, each charged as it is prepared. -/
def sendReceipts (w : PtzWorld) (now : ℚ) (wires : List Bytes) : Except PtzFault (List PtzPacket) × PtzWorld :=
  match wires with
  | [] => (.ok [], w)
  | wire :: wires =>
    match w.charge now .receipt wire.length with
    | (.error e, w) => (.error e, w)
    | (.ok (), w) =>
      match w.sendReceipts now wires with
      | (.error e, w) => (.error e, w)
      | (.ok packets, w) => (.ok (⟨.receipt, wire⟩ :: packets), w)

/-- The wires of the receipts. -/
def receiptWires (node : CertifiedNode) (receiptSequence : Nat) (plain : Bytes) (noise : Nat) :
    Except PtzFault (List Bytes) :=
  let acks :=
    if (plain.field 4 20 >>> 18) &&& 3 ≠ 0 then
      ((buildMode2ResponseAck node plain).mapError .gute).map fun wire => [wire]
    else .ok []
  match acks with
  | .error e => .error e
  | .ok acks =>
    match buildPtzReceipt plain node receiptSequence noise with
    | .error e => .error e
    | .ok receipt => .ok (acks ++ [receipt])

/-- `observe`; `noise` is the randomness of the receipt. -/
def observe (loads : Loads) (w : PtzWorld) (plain : Bytes) (peer : String × Nat) (generation noise : Nat) (now : ℚ) :
    Except PtzFault (List PtzPacket) × PtzWorld :=
  match w.job.delivery with
  | none => (.ok [], w)
  | some delivery =>
    if w.job.result.isSome ∨ w.job.releases = 0 then (.ok [], w)
    else
      match delivery.observe loads plain peer generation now with
      | (response, delivery) =>
        let settle :=
          if delivery.confirmed then some (w.job.settleUntil.getD (Rounding.round (now + Rounding.round (1 / 50)))) else none
        let w := { w with job := { w.job with delivery := some delivery, settleUntil := settle } }
        if (response.bind PtzReply.errorCode).isNone ∨ w.job.receiptPrepared then (.ok [], w)
        else
          let w := { w with job := { w.job with receiptPrepared := true } }
          match receiptWires w.job.node w.job.commands.receiptSequence plain noise with
          | .error e => (.error e, w)
          | .ok wires => w.sendReceipts now wires

end PtzWorld

/-! ## Runs -/

/-- What can happen to a job and to the objects it shares. -/
inductive PtzCall where
  | nextPacket
  | observe (plain : Bytes) (peer : String × Nat) (generation noise : Nat)
  | cancel
  | sendFailed
  /-- Somebody else's use of the output; the job's reserve is its own. -/
  | output (op : OutputOp)
  /-- Somebody else's use of the namespace. -/
  | reserve (count : Nat)
  | retire
  deriving DecidableEq

abbrev PtzEvent := Event PtzCall PtzFault PtzKind

namespace PtzWorld

/-- A call, with what it returns. -/
def step (loads : Loads) (now : ℚ) (call : PtzCall) (w : PtzWorld) : Except PtzFault (List PtzPacket) × PtzWorld :=
  match call with
  | .nextPacket => w.nextPacket now
  | .observe plain peer generation noise => w.observe loads plain peer generation noise now
  | .cancel => (.ok [], { w with job := w.job.cancel })
  | .sendFailed => (.ok [], { w with job := w.job.sendFailed })
  | .output op => if op.on w.job.token then (.ok [], w) else (.ok [], { w with output := op.run now w.output })
  | .reserve count => (.ok [], { w with source := (w.source.reserve count).2 })
  | .retire => (.ok [], { w with source := w.source.close })

end PtzWorld

/-- A run: the world and everything that has happened. -/
structure PtzRun where
  world : PtzWorld
  trace : List PtzEvent := []

namespace PtzRun

def step (loads : Loads) (now : ℚ) (call : PtzCall) (r : PtzRun) : PtzRun :=
  match r.world.step loads now call with
  | (out, world) => ⟨world, r.trace ++ [⟨now, call, out⟩]⟩

def run (loads : Loads) (w : PtzWorld) (calls : List (ℚ × PtzCall)) : PtzRun :=
  Machine.run (step loads) ⟨w, []⟩ calls

end PtzRun

/-! ## What a trace shows -/

namespace PtzTrace

open Trace

def cancelled (trace : List PtzEvent) : Bool :=
  trace.any fun e => e.call = .cancel ∨ e.call = .sendFailed

/-- The movement is over: START is `duration` ago, or was cancelled. -/
def Due (duration : ℚ) (trace : List PtzEvent) (now : ℚ) : Prop :=
  ∃ start, firstTime .start trace = some start ∧ (Rounding.round (start + duration) ≤ now ∨ cancelled trace)

/-- Two seconds from `now` are a lifetime that the tracking of a RELEASE takes. -/
def InWindow (now : ℚ) : Prop :=
  0 < Rounding.round (Rounding.round (now + 2) - now) ∧ Rounding.round (Rounding.round (now + 2) - now) ≤ 2

/-- A poll at `now` is the first one at which the movement is over and a RELEASE can
be tracked. -/
def FirstDue (duration : ℚ) (trace : List PtzEvent) (now : ℚ) : Prop :=
  Due duration trace now ∧ InWindow now ∧
    ∀ before e after, trace = before ++ e :: after → e.call = .nextPacket → ¬ (Due duration before e.now ∧ InWindow e.now)

/-- What a call has given: packets, or, of a poll at which the movement is over and a
RELEASE cannot be tracked, the fault of the tracking. -/
def Clean (duration : ℚ) (before : List PtzEvent) (e : PtzEvent) : Prop :=
  (∃ packets, e.out = .ok packets) ∨
    (e.out = .error .lifetime ∧ e.call = .nextPacket ∧ Due duration before e.now ∧ ¬ InWindow e.now)

/-- A frame from the pinned peer and generation, observed after the first
RELEASE and before its two seconds were over. -/
def Considered (node : CertifiedNode) (generation : Nat) (trace : List PtzEvent) (plain : Bytes) : Prop :=
  ∃ before e after release noise, trace = before ++ e :: after ∧ firstTime .release before = some release ∧
    e.now < Rounding.round (release + 2) ∧ e.call = .observe plain node.address generation noise

end PtzTrace

/-- A gesture that is not over, or that was started and is not known to have
stopped. -/
def PtzScheduler.Unsettled (j : PtzScheduler) : Prop :=
  ∀ r, j.result = some r → r.startAttempted ∧ r.releaseDeliveryConfirmed = false

end CamGuard.Account
