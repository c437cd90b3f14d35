/-
One siren pulse (`siren_pulse_job.py`) with its OFF probe
(`siren_off_probe.py`), the action codec (`siren.py`) and the reading of a state
(`siren_evidence.py`).

The job sends ON once, OFF at most twice, and after an acknowledged OFF reads
the state back up to three times. Everything it sends is charged on a reserve
taken before ON. As with PTZ, a run has the steps of everybody else who uses the
account's output and sequences; times are exact, and one call reads one time.
-/
import CamGuard.Account.ModelProtocol
import CamGuard.Lib.Clocked
import CamGuard.Lib.Trace

namespace CamGuard.Account

open CamGuard.Crypto

/-! ## Codec -/

def SIREN_READ_PATH : String := "Action.expelCtrl"

def SIREN_ACTION_PATH : String := "Action.expelCtrl.stVal"

/-- The plain frame of `build_siren_action`. -/
def sirenActionFrame (node : CertifiedNode) (access device : Nat) (enabled : Bool) (sequence message noise : Nat) :
    Bytes :=
  let encodedPath := Bytes.ascii SIREN_ACTION_PATH
  let encodedJson := Bytes.ascii (if enabled then "2" else "1")
  let length := 0x2A + 8 + encodedPath.length + 1 + encodedJson.length + 1
  let frame := newHeader 0xAC length node.sessionId sequence (randomizedFlags noise 2 3)
  let frame := frame.put 0 [0x7E]
  let frame := frame.put 0x18 (Bytes.ofNat 8 access ++ Bytes.ofNat 4 (message &&& 0x7FFFFFFF) ++ Bytes.ofNat 2 1 ++
    [3, UInt8.ofNat encodedPath.length] ++ Bytes.ofNat 2 encodedJson.length ++ Bytes.ofNat 8 device ++ encodedPath)
  frame.put (0x2A + 8 + encodedPath.length + 1) encodedJson

/-- `build_siren_action`. -/
def buildSirenAction (node : CertifiedNode) (access device : Nat) (enabled : Bool) (sequence message noise : Nat) :
    Except GuteFault Bytes :=
  finishMode2 (sirenActionFrame node access device enabled sequence message noise) node.sessionKey

/-- `parse_siren_action_response`. -/
def parseSirenActionResponse (frame : Bytes) (message : Nat) : Option Nat :=
  if frame.length < 0x36 ∨ frame.at_ 1 ≠ 0xAD then none
  else if frame.field 4 0x30 ≠ message then none
  else some (frame.field 2 0x34)

/-- `siren_state`. -/
def sirenState (value : Json) : Option Int :=
  match value.getInt? "t", value.getInt? "stVal" with
  | some timestamp, some state =>
    if 0 < timestamp ∧ timestamp ≤ 0x7FFFFFFF ∧ (state = 1 ∨ state = 2) then some state else none
  | _, _ => none

/-! ## The OFF probe -/

structure SirenOffProbe where
  tickets : List ReceiptTicket
  wires : List Bytes
  index : Nat := 0
  nextAt : ℚ := 0
  state : Option Int := none
  invalid : Bool := false
  deriving DecidableEq

/-- What `secrets` gives for one state read. -/
structure ReadDraws where
  message : Fin (2 ^ 31)
  noise : Nat

namespace SirenOffProbe

/-- The requests of the probe. -/
def buildWires (node : CertifiedNode) (device : Nat) : List Nat → List ReadDraws → Except ModelFault (List Bytes)
  | sequence :: sequences, draw :: draws =>
    match buildModelRead node device SIREN_READ_PATH sequence draw.message draw.noise with
    | .error e => .error e
    | .ok wire =>
      match buildWires node device sequences draws with
      | .error e => .error e
      | .ok wires => .ok (wire :: wires)
  | _, _ => .ok []

/-- `SirenOffProbe(…)` on three reserved sequences. -/
def new (node : CertifiedNode) (device generation : Nat) (sequences : List Nat) (draws : List ReadDraws) :
    Except ModelFault SirenOffProbe :=
  match buildWires node device sequences draws with
  | .error e => .error e
  | .ok wires => .ok { tickets := sequences.map fun sequence => ⟨generation, sequence, 0xB7⟩, wires := wires }

/-- `next_packet`. -/
def nextPacket (p : SirenOffProbe) (now : ℚ) : Option Bytes × SirenOffProbe :=
  if p.state = some 1 ∨ p.invalid ∨ 3 ≤ p.index ∨ now < p.nextAt then (none, p)
  else (some (p.wires.getD p.index []), { p with index := p.index + 1, nextAt := now + 2 / 5 })

/-- What a reply reads; `none` if it is invalid. -/
def reading (reply : Nat × Json) : Option Int := if reply.1 = 0 then sirenState reply.2 else none

/-- The reply to the last request, if the frame is one. -/
def replyTo (loads : Loads) (p : SirenOffProbe) (node : CertifiedNode) (device : Nat) (plain : Bytes) (generation : Nat) :
    Option (Nat × Json) :=
  if p.index = 0 then none
  else (p.tickets[p.index - 1]?).bind fun ticket => matchModelReply loads plain ticket generation node.sessionId device

/-- `observe`: whether the frame was a reply, and the probe after it. -/
def observe (loads : Loads) (p : SirenOffProbe) (node : CertifiedNode) (device : Nat) (plain : Bytes) (generation : Nat) :
    Bool × SirenOffProbe :=
  match p.replyTo loads node device plain generation with
  | none => (false, p)
  | some reply =>
    match reading reply with
    | none => (true, { p with invalid := true })
    | some state => (true, if p.invalid then p else { p with state := some state })

end SirenOffProbe

/-! ## The job -/

structure SirenPulseSpec where
  access : Nat
  device : Nat
  seconds : Nat
  access_bounds : 0 < access ∧ access < 2 ^ 64
  device_bounds : 0 < device ∧ device < 2 ^ 64
  seconds_bounds : seconds = 2 ∨ seconds = 5 ∨ seconds = 10

abbrev SirenPacket := Packet SirenKind

structure SirenPulseResult where
  status : String
  startAttempted : Bool
  offAttempts : Nat
  offConfirmed : Bool
  onError : Option Nat
  offError : Option Nat
  transportAcknowledged : Bool
  sendFailed : Bool
  deriving DecidableEq, Repr

inductive SirenFault where
  | account
  | output (e : OutputFault)
  | sequences (e : SequenceFault)
  | model (e : ModelFault)
  | gute (e : GuteFault)
  deriving DecidableEq, Repr

def SirenFault.reason : SirenFault → String
  | .account => "exact native siren account required"
  | .output e => e.reason
  | .sequences e => e.reason
  | .model e => e.reason
  | .gute e => e.reason

structure SirenPulseJob where
  node : CertifiedNode
  generation : Nat
  device : Nat
  seconds : Nat
  /-- The output reserve. -/
  token : Nat
  onSeq : Nat
  offSeq : Nat
  onId : Nat
  offId : Nat
  on : Bytes
  off : Bytes
  probe : SirenOffProbe
  admitUntil : ℚ
  holdUntil : ℚ := 0
  onUntil : ℚ := 0
  offUntil : ℚ := 0
  retryAt : ℚ := 0
  started : Bool := false
  failed : Bool := false
  onAck : Bool := false
  offAck : Bool := false
  onError : Option Nat := none
  offError : Option Nat := none
  offs : Nat := 0
  receipts : Nat := 0
  cancelled : Bool := false
  result : Option SirenPulseResult := none

/-- What `secrets` gives while a job is built. -/
structure SirenDraws where
  onId : Fin (2 ^ 31)
  onNoise : Nat
  offNoise : Nat
  reads : Fin 3 → ReadDraws

namespace SirenPulseJob

/-- The commands of a job, on five reserved sequences. -/
def build (node : CertifiedNode) (generation : Nat) (spec : SirenPulseSpec) (draws : SirenDraws) (token : Nat)
    (admission : ℚ) (ids : List Nat) : Except SirenFault SirenPulseJob :=
  match ids with
  | onSeq :: offSeq :: readSequences =>
    match SirenOffProbe.new node spec.device generation readSequences [draws.reads 0, draws.reads 1, draws.reads 2] with
    | .error e => .error (.model e)
    | .ok probe =>
      let offId := (draws.onId : Nat) ^^^ 1
      match buildSirenAction node spec.access spec.device true onSeq draws.onId draws.onNoise with
      | .error e => .error (.gute e)
      | .ok on =>
        match buildSirenAction node spec.access spec.device false offSeq offId draws.offNoise with
        | .error e => .error (.gute e)
        | .ok off => .ok {
          node := node
          generation := generation
          device := spec.device
          seconds := spec.seconds
          token := token
          onSeq := onSeq
          offSeq := offSeq
          onId := draws.onId
          offId := offId
          on := on
          off := off
          probe := probe
          admitUntil := admission }
  -- `reserve(5)` unpacks into five identifiers.
  | _ => .error .account

/-- `SirenPulseJob(…)`: the reserve first, then the commands; a failure gives
the reserve back. -/
def new (node : CertifiedNode) (source : BrokerSequences) (output : AccountOutputBudget) (spec : SirenPulseSpec)
    (generation : Nat) (draws : SirenDraws) (admitUntil : Option ℚ) (now : ℚ) :
    Except SirenFault SirenPulseJob × AccountOutputBudget × BrokerSequences :=
  let admission := admitUntil.getD (now + 1)
  if source.matchesIdentity node.sessionId generation = false ∨ admission - now ≤ 0 ∨ 1 < admission - now then
    (.error .account, output, source)
  else
    match output.reserveSiren now with
    | (.error e, output) => (.error (.output e), output, source)
    | (.ok token, output) =>
      match source.reserve 5 with
      | (.error e, source) => (.error (.sequences e), output.closeSiren token, source)
      | (.ok ids, source) =>
        match build node generation spec draws token admission ids with
        | .error e => (.error e, output.closeSiren token, source)
        | .ok job => (.ok job, output, source)

def cancel (j : SirenPulseJob) : SirenPulseJob := { j with cancelled := true }

/-- `send_failed`. -/
def sendFailed (j : SirenPulseJob) : SirenPulseJob := { j with failed := true, cancelled := true }

/-- The pulse is over: cancelled, refused, held long enough, or ON unanswered. -/
def stop (j : SirenPulseJob) (now : ℚ) : Bool :=
  j.cancelled || j.onError.any (fun code => decide (code ≠ 0)) || decide (j.holdUntil ≤ now) ||
    (j.onError.isNone && decide (j.onUntil ≤ now))

end SirenPulseJob

/-- A job among the account's shared objects. -/
structure SirenWorld where
  output : AccountOutputBudget
  source : BrokerSequences
  job : SirenPulseJob

namespace SirenWorld

/-- `_finish`. -/
def finish (w : SirenWorld) (status : String) (confirmed : Bool := false) : SirenWorld :=
  { w with
    output := if w.job.started = false ∨ confirmed then w.output.closeSiren w.job.token else w.output
    job := { w.job with
      result := some {
        status := status
        startAttempted := w.job.started
        offAttempts := w.job.offs
        offConfirmed := confirmed
        onError := w.job.onError
        offError := w.job.offError
        transportAcknowledged := w.job.onAck && w.job.offAck
        sendFailed := w.job.failed }
      on := []
      off := [] } }

/-- `self._reserve.charge`, then the packet. -/
def send (w : SirenWorld) (now : ℚ) (kind : SirenKind) (wire : Bytes) (next : SirenPulseJob) :
    Except SirenFault (List SirenPacket) × SirenWorld :=
  match w.output.chargeSiren now w.job.token kind wire.length with
  | (.error e, output) => (.error (.output e), { w with output := output })
  | (.ok (), output) => (.ok [⟨kind, wire⟩], { w with output := output, job := next })

/-- An OFF attempt. -/
def sendOff (w : SirenWorld) (now : ℚ) : Except SirenFault (List SirenPacket) × SirenWorld :=
  w.send now .off w.job.off { w.job with offs := w.job.offs + 1, retryAt := now + 1 / 2 }

/-- The end of `next_packet`: OFF attempts until OFF is acknowledged, then the
state reads, with one more OFF if the state is still ON. -/
def nextOff (w : SirenWorld) (now : ℚ) : Except SirenFault (List SirenPacket) × SirenWorld :=
  if w.job.offError = some 0 then
    if w.job.probe.state = some 2 ∧ w.job.offs < 2 ∧ w.job.retryAt ≤ now then w.sendOff now
    else
      match w.job.probe.nextPacket now with
      | (none, probe) => (.ok [], { w with job := { w.job with probe := probe } })
      | (some wire, probe) =>
        let w := { w with job := { w.job with probe := probe } }
        w.send now .read wire w.job
  else if w.job.offs < 2 ∧ w.job.retryAt ≤ now then w.sendOff now
  else (.ok [], w)

/-- `next_packet`: at most one packet. -/
def nextPacket (w : SirenWorld) (now : ℚ) : Except SirenFault (List SirenPacket) × SirenWorld :=
  if w.job.result.isSome then (.ok [], w)
  else if w.job.started = false then
    if w.job.cancelled ∨ w.job.admitUntil ≤ now ∨
        w.source.matchesIdentity w.job.node.sessionId w.job.generation = false then (.ok [], w.finish "cancelled")
    else
      w.send now .on w.job.on { w.job with
        started := true
        holdUntil := now + w.job.seconds
        onUntil := now + 3 / 2 }
  else if w.job.offs = 0 then
    if w.job.stop now = false then (.ok [], w)
    else nextOff { w with job := { w.job with offUntil := now + 2 } } now
  else if w.job.offError.any (fun code => decide (code ≠ 0)) ∨ w.job.probe.invalid ∨ w.job.probe.state = some 1 then
    let confirmed := decide (w.job.offError = some 0) && decide (w.job.probe.state = some 1) && !w.job.probe.invalid
    let status :=
      if confirmed ∧ w.job.onError = some 0 ∧ w.job.cancelled = false then "completed"
      else if confirmed then "cancelled"
      else "off_rejected"
    (.ok [], w.finish status confirmed)
  else if w.job.offUntil ≤ now then (.ok [], w.finish "off_unconfirmed")
  else w.nextOff now

/-- `_receipt`. -/
def receipt (w : SirenWorld) (now : ℚ) (plain : Bytes) : Except SirenFault (List SirenPacket) × SirenWorld :=
  if (plain.field 4 20 >>> 18) &&& 3 ≠ 0 ∧ w.job.receipts < 6 then
    match buildMode2ResponseAck w.job.node plain with
    | .error e => (.error (.gute e), w)
    | .ok reply => w.send now .receipt reply { w.job with receipts := w.job.receipts + 1 }
  else (.ok [], w)

/-- The frames `observe` looks at, apart from peer and generation. -/
def wellFramed (node : CertifiedNode) (plain : Bytes) : Bool :=
  decide (24 ≤ plain.length) && decide (plain.length ≤ 4096) &&
    (decide (plain.at_ 0 = 0x7E) || decide (plain.at_ 0 = 0x7F)) && decide (plain.field 2 2 = plain.length) &&
    decide (plain.field 8 4 = node.sessionId) && decide ((plain.field 4 20 >>> 16) &&& 3 = 2)

/-- The transport acknowledgements of ON and OFF. -/
def acknowledged (j : SirenPulseJob) (sequence : Nat) (accepted : Bool) : SirenPulseJob :=
  if sequence = j.onSeq ∧ j.offs = 0 then
    { j with onAck := j.onAck || accepted, cancelled := j.cancelled || !accepted }
  else if sequence = j.offSeq ∧ j.offs ≠ 0 then { j with offAck := j.offAck || accepted }
  else j

/-- The application's answer to the action that is out. -/
def answered (j : SirenPulseJob) (code : Nat) : SirenPulseJob :=
  if j.offs ≠ 0 then
    if j.offError = none ∨ j.offError = some 0 then { j with offError := some code } else j
  else if j.onError = none ∨ j.onError = some 0 then { j with onError := some code }
  else j

/-- The end of `observe`: the acknowledgements and answers of the actions. -/
def observeAction (w : SirenWorld) (plain : Bytes) (now : ℚ) : Except SirenFault (List SirenPacket) × SirenWorld :=
  let flags := plain.field 4 20
  if flags.testBit 20 then
    if plain.length ≠ 32 ∨ plain.at_ 1 ≠ 0xAC ∨ flags.testBit 21 then (.ok [], w)
    else
      match guteMode1XorChecksum plain with
      | .error e => (.error (.gute e), w)
      | .ok checksum =>
        if plain.field 4 16 ≠ checksum then (.ok [], w)
        else (.ok [], { w with job := acknowledged w.job (plain.field 4 12) (decide (plain.field 2 26 = 0)) })
  else
    let message := if w.job.offs ≠ 0 then w.job.offId else w.job.onId
    match parseSirenActionResponse plain message with
    | none => (.ok [], w)
    | some code => receipt { w with job := answered w.job code } now plain

/-- `observe`. -/
def observe (loads : Loads) (w : SirenWorld) (plain : Bytes) (peer : String × Nat) (generation : Nat) (now : ℚ) :
    Except SirenFault (List SirenPacket) × SirenWorld :=
  if w.job.result.isSome ∨ w.job.started = false ∨ peer ≠ w.job.node.address ∨ generation ≠ w.job.generation ∨
      wellFramed w.job.node plain = false then (.ok [], w)
  else if w.job.offs ≠ 0 ∧ w.job.offUntil ≤ now then (.ok [], w)
  else if w.job.offs = 0 ∧ w.job.onUntil ≤ now then (.ok [], w)
  else if w.job.offs ≠ 0 ∧ w.job.offError = some 0 then
    match w.job.probe.observe loads w.job.node w.job.device plain generation with
    | (true, probe) => receipt { w with job := { w.job with probe := probe } } now plain
    | (false, probe) => observeAction { w with job := { w.job with probe := probe } } plain now
  else w.observeAction plain now

end SirenWorld

/-! ## Runs -/

/-- What can happen to a job and to the objects it shares. -/
inductive SirenCall where
  | nextPacket
  | observe (plain : Bytes) (peer : String × Nat) (generation : Nat)
  | cancel
  | sendFailed
  /-- Somebody else's use of the output; the job's reserve is its own. -/
  | output (op : OutputOp)
  /-- Somebody else's use of the namespace. -/
  | reserve (count : Nat)
  | retire
  deriving DecidableEq

abbrev SirenEvent := Event SirenCall SirenFault SirenKind

namespace SirenWorld

/-- A call, with what it returns. -/
def step (loads : Loads) (now : ℚ) (call : SirenCall) (w : SirenWorld) :
    Except SirenFault (List SirenPacket) × SirenWorld :=
  match call with
  | .nextPacket => w.nextPacket now
  | .observe plain peer generation => w.observe loads plain peer generation now
  | .cancel => (.ok [], { w with job := w.job.cancel })
  | .sendFailed => (.ok [], { w with job := w.job.sendFailed })
  | .output op => if op.on w.job.token then (.ok [], w) else (.ok [], { w with output := op.run now w.output })
  | .reserve count => (.ok [], { w with source := (w.source.reserve count).2 })
  | .retire => (.ok [], { w with source := w.source.close })

end SirenWorld

/-- A run: the world and everything that has happened. -/
structure SirenRun where
  world : SirenWorld
  trace : List SirenEvent := []

namespace SirenRun

def step (loads : Loads) (now : ℚ) (call : SirenCall) (r : SirenRun) : SirenRun :=
  match r.world.step loads now call with
  | (out, world) => ⟨world, r.trace ++ [⟨now, call, out⟩]⟩

def run (loads : Loads) (w : SirenWorld) (calls : List (ℚ × SirenCall)) : SirenRun :=
  Machine.run (step loads) ⟨w, []⟩ calls

end SirenRun

/-! ## What a trace shows -/

/-- What is fixed when a job is built, as far as its OFF is concerned. -/
structure SirenIdentity where
  node : CertifiedNode
  generation : Nat
  device : Nat
  offId : Nat
  tickets : List ReceiptTicket

def SirenPulseJob.identity (j : SirenPulseJob) : SirenIdentity where
  node := j.node
  generation := j.generation
  device := j.device
  offId := j.offId
  tickets := j.probe.tickets

namespace SirenTrace

open Trace

def cancelled (trace : List SirenEvent) : Bool :=
  trace.any fun e => e.call = .cancel ∨ e.call = .sendFailed

/-- A frame of the session that was observed within two seconds of the first
OFF. -/
def seen (i : SirenIdentity) (before : List SirenEvent) (e : SirenEvent) : Option Bytes :=
  match e.call with
  | .observe plain peer generation =>
    if peer = i.node.address ∧ generation = i.generation ∧ SirenWorld.wellFramed i.node plain ∧
        (firstTime .off before).any (fun off => decide (e.now < off + 2)) then some plain
    else none
  | _ => none

/-- The code of an acknowledgement of OFF. -/
def ackAt (i : SirenIdentity) (before : List SirenEvent) (e : SirenEvent) : Option Nat :=
  (seen i before e).bind fun plain =>
    if (plain.field 4 20).testBit 20 then none else parseSirenActionResponse plain i.offId

/-- The codes with which OFF was acknowledged. -/
def offAcks (i : SirenIdentity) (trace : List SirenEvent) : List Nat := history (ackAt i) trace

/-- OFF was acknowledged, and never with an error. -/
def OffAcknowledged (i : SirenIdentity) (trace : List SirenEvent) : Prop :=
  offAcks i trace ≠ [] ∧ ∀ code ∈ offAcks i trace, code = 0

instance (i : SirenIdentity) (trace : List SirenEvent) : Decidable (OffAcknowledged i trace) :=
  inferInstanceAs (Decidable (_ ∧ _))

/-- The reply to the last state read, once OFF was acknowledged. -/
def replyAt (loads : Loads) (i : SirenIdentity) (before : List SirenEvent) (e : SirenEvent) : Option (Nat × Json) :=
  (seen i before e).bind fun plain =>
    let reads := (ofKind .read (packets before)).length
    if OffAcknowledged i before ∧ reads ≠ 0 then
      (i.tickets[reads - 1]?).bind fun ticket =>
        matchModelReply loads plain ticket i.generation i.node.sessionId i.device
    else none

/-- The replies to the state reads. -/
def probeReplies (loads : Loads) (i : SirenIdentity) (trace : List SirenEvent) : List (Nat × Json) :=
  history (replyAt loads i) trace

/-- The last state read back was OFF, and no reply was invalid. -/
def OffRead (loads : Loads) (i : SirenIdentity) (trace : List SirenEvent) : Prop :=
  (∃ reply, (probeReplies loads i trace).getLast? = some reply ∧ SirenOffProbe.reading reply = some 1) ∧
    ∀ reply ∈ probeReplies loads i trace, SirenOffProbe.reading reply ≠ none

end SirenTrace

/-- A pulse that is not over, or that was started and is not confirmed off. -/
def SirenPulseJob.Unsettled (j : SirenPulseJob) : Prop :=
  ∀ r, j.result = some r → r.startAttempted ∧ r.offConfirmed = false

end CamGuard.Account
