/-
One-shot exchanges on an account's owner: a lamp read or write
(`lamp_exchange_job.py`), a typed control write (`model_control_job.py`) and a
catalogue read (`catalog_read_job.py`).

The three keep one discipline, which is written here once (`Exchange`): a
request that is given out once, a receipt for it, a deadline, and one ending.
They differ in what they ask for and in which frame answers them
(`ExchangeKind`). The sequences are the account's and are passed in. A call takes
the readings of the clock that it makes, in order; a receipt is registered and
tried at readings of its own, so that its time may end at another one than its
job's. At the end stands an account with any number of such jobs.
-/
import CamGuard.Account.ControlWrite
import CamGuard.Account.ModelWrites
import CamGuard.Account.Reads
import CamGuard.Account.WhiteLight
import CamGuard.Lib.Clocked

namespace CamGuard.Account

open CamGuard.Crypto

/-! ## Exchanges -/

/-- The `status` of a result. -/
inductive ExchangeStatus where
  | response
  | rejected
  | invalidResponse
  | transportRejected
  | timeout
  | cancelled
  deriving DecidableEq, Repr

/-- How the source writes it. -/
def ExchangeStatus.text : ExchangeStatus → String
  | .response => "response"
  | .rejected => "rejected"
  | .invalidResponse => "invalid_response"
  | .transportRejected => "transport_rejected"
  | .timeout => "timeout"
  | .cancelled => "cancelled"

/-- The `ValueError`s of a job's making, and what a frame's checksum or text can raise. -/
inductive ExchangeFault where
  | lampBounds
  | controlBounds
  | catalogBounds
  | transaction (e : TransactionFault)
  | sequences (e : SequenceFault)
  | gute (e : GuteFault)
  | whiteLight (e : WhiteLightFault)
  | loads (e : LoadsFault)
  deriving DecidableEq, Repr

/-- The text of a fault, but for what `json.loads` says. -/
def ExchangeFault.reason : ExchangeFault → Option String
  | .lampBounds => some "bounded typed lamp exchange required"
  | .controlBounds => some "bounded typed control write required"
  | .catalogBounds => some "bounded typed catalogue read required"
  | .transaction e => some e.reason
  | .sequences e => some e.reason
  | .gute e => some e.reason
  | .whiteLight e => some e.reason
  | .loads _ => none

/-- What an answer says, and the packets that acknowledge it. -/
structure ExchangeAnswer (A : Type) where
  status : ExchangeStatus
  value : Option A := none
  packets : List Bytes := []

/-- What exchanges differ in. An answer is matched with the request's sequence
and with what the job keeps of it (`K`). -/
structure ExchangeKind (K A : Type) where
  /-- The family of the request. -/
  family : Nat
  /-- What is asked of a frame before it is tried as a receipt. -/
  looksAt : CertifiedNode → Bytes → Bool
  answered : CertifiedNode → Nat → K → Nat → Bytes → Except ExchangeFault (Option (ExchangeAnswer A))

/-- `result`, with what an answer says as its value. -/
structure ExchangeResult (A : Type) where
  status : ExchangeStatus
  value : Option A
  transportAcknowledged : Bool
  sent : Bool

/-- A job: what it keeps of its request, and what has come of it. -/
structure Exchange (K A : Type) where
  receipts : BrokerTransactions
  sequence : Nat
  key : K
  wire : Bytes
  node : Option CertifiedNode
  generation : Nat
  deadline : ℚ
  sent : Bool := false
  ack : Bool := false
  result : Option (ExchangeResult A) := none

namespace Exchange

variable {K A : Type}

/-- The receipts of a new job, on the account's sequences, with the ticket of
its request. The clock is read for the check, for the time that the receipt gets
and as it gets it. -/
def register [Rounding] (family : Nat) (bounds : ExchangeFault) (node : CertifiedNode) (source : BrokerSequences)
    (generation : Nat) (deadline : ℚ) (clock : Nat → ℚ) :
    Except ExchangeFault (BrokerTransactions × ReceiptTicket) × BrokerSequences :=
  if Rounding.round (deadline - clock 0) ≤ 0 ∨ 2 < Rounding.round (deadline - clock 0) then (.error bounds, source)
  else if source.matchesIdentity node.sessionId generation = false then (.error (.transaction .identity), source)
  else
    match BrokerTransactions.register { session := node.sessionId, generation := generation } source family
      (Rounding.round (deadline - clock 1)) (clock 2) with
    | (.error e, _, source) => (.error (.transaction e), source)
    | (.ok ticket, receipts, source) => (.ok (receipts, ticket), source)

/-- `_finish`. -/
def finish (status : ExchangeStatus) (value : Option A) (job : Exchange K A) : Exchange K A :=
  { job with
    result := some ⟨status, value, job.ack, job.sent⟩
    receipts := job.receipts.close
    node := none
    wire := [] }

/-- `cancel`. -/
def cancel (job : Exchange K A) : Exchange K A :=
  if job.result.isNone then job.finish .cancelled none else job

/-- `next_packet`. -/
def nextPacket (source : BrokerSequences) (now : ℚ) (job : Exchange K A) : Option Bytes × Exchange K A :=
  if job.result.isSome then (none, job)
  else if job.receipts.active source = false then (none, job.cancel)
  else if job.deadline ≤ now then (none, job.finish .timeout none)
  else if job.sent then (none, job)
  else (some job.wire, { job with sent := true })

/-- `observe`; where it raises, the job stays as it is. -/
def observe (kind : ExchangeKind K A) (source : BrokerSequences) (plain : Bytes) (peer : String × Nat)
    (generation noise : Nat) (clock : Nat → ℚ) (job : Exchange K A) : Except ExchangeFault (List Bytes) × Exchange K A :=
  match job.node with
  | none => (.ok [], job)
  | some node =>
    if job.sent = false ∨ generation ≠ job.generation ∨ peer ≠ node.address ∨ job.deadline ≤ clock 0 ∨
        job.receipts.active source = false ∨ kind.looksAt node plain = false then (.ok [], job)
    else
      match job.receipts.accept source plain generation (clock 1) with
      | (.error e, receipts) => (.error (.gute e), { job with receipts := receipts })
      | (.ok (some receipt), receipts) =>
        let job := { job with receipts := receipts, ack := receipt.accepted }
        (.ok [], if receipt.accepted then job else job.finish .transportRejected none)
      | (.ok none, receipts) =>
        let job := { job with receipts := receipts }
        match kind.answered node job.sequence job.key noise plain with
        | .error e => (.error e, job)
        | .ok none => (.ok [], job)
        | .ok (some answer) => (.ok answer.packets, job.finish answer.status answer.value)

end Exchange

/-! ## Lamp -/

/-- What a lamp's job keeps: what it asks for, and the sequence of the receipt it
sends for the answer. -/
structure LampKey where
  spec : LampSpec
  receiptSequence : Nat

/-- What a lamp's answer says. -/
structure LampAnswer where
  enabled : Option Bool := none
  errorCode : Option Int := none

/-- `LampReadResult`. -/
structure LampReadResult where
  status : ExchangeStatus
  enabled : Option Bool
  transportAcknowledged : Bool
  errorCode : Option Int
  sent : Bool

/-- `LampExchangeJob`. -/
abbrev LampExchangeJob := Exchange LampKey LampAnswer

namespace LampExchangeJob

/-- What the text of a response says. -/
def evaluate (spec : LampSpec) (value : Json) : ExchangeAnswer LampAnswer :=
  if spec.isWrite then
    match value.getInt? "err" with
    | none => { status := .invalidResponse }
    | some error =>
      if error < -0x80000000 ∨ 0x80000000 ≤ error then { status := .invalidResponse }
      else {
        status := if error = 0 then .response else .rejected
        value := some { errorCode := some error } }
  else
    match extractWhiteLightState value with
    | none => { status := .invalidResponse }
    | some enabled => {
      status := .response
      value := some { enabled := some enabled } }

/-- The packets that acknowledge a response. -/
def acknowledge (node : CertifiedNode) (receiptSequence noise : Nat) (plain : Bytes) : Except ExchangeFault (List Bytes) :=
  let acks := if (plain.field 4 20 >>> 18) &&& 3 = 0 then .ok [] else (buildMode2ResponseAck node plain).map fun ack => [ack]
  match acks with
  | .error e => .error (.gute e)
  | .ok acks =>
    match buildWhiteLightReceipt node plain receiptSequence noise with
    | .error e => .error (.whiteLight e)
    | .ok receipt => .ok (acks ++ [receipt])

/-- The rest of `observe`, for a frame that is no receipt. -/
def answered (loads : TryLoads) (node : CertifiedNode) (sequence : Nat) (key : LampKey) (noise : Nat) (plain : Bytes) :
    Except ExchangeFault (Option (ExchangeAnswer LampAnswer)) :=
  if plain.length < 60 ∨ 4096 < plain.length then .ok none
  else
    let flags := plain.field 4 20
    if plain.field 8 4 ≠ node.sessionId ∨ (flags >>> 16) &&& 3 ≠ 2 ∨ flags.testBit 20 ∨
        plain.field 8 28 ≠ key.spec.accessId ∨ plain.field 8 36 ≠ key.spec.deviceId then .ok none
    else
      match parseWhiteLightResponse loads plain (if key.spec.isWrite then 11 else 12) with
      | .error .depth => .ok none
      | .error e => .error (.loads e)
      | .ok none => .ok none
      | .ok (some (request, value)) =>
        if request ≠ sequence then .ok none
        else
          match acknowledge node key.receiptSequence noise plain with
          | .error e => .error e
          | .ok packets => .ok (some { evaluate key.spec value with packets := packets })

/-- A lamp's kind of exchange. -/
def kind (loads : TryLoads) : ExchangeKind LampKey LampAnswer where
  family := 0xB9
  looksAt := fun _ _ => true
  answered := answered loads

/-- `LampExchangeJob(…)`; `message` and `noise` are what `secrets` gives. -/
def new [Rounding] (node : CertifiedNode) (source : BrokerSequences) (spec : LampSpec) (generation : Nat) (deadline : ℚ)
    (message noise : Nat) (clock : Nat → ℚ) : Except ExchangeFault LampExchangeJob × BrokerSequences :=
  if validTarget spec.accessId spec.deviceId = false then (.error .lampBounds, source)
  else
    -- one reading is both the check's and the timeout's
    match Exchange.register 0xB9 .lampBounds node source generation deadline (fun i => clock (i - 1)) with
    | (.error e, source) => (.error e, source)
    | (.ok (receipts, ticket), source) =>
      match source.allocate with
      | (.error e, source) => (.error (.sequences e), source)
      | (.ok receiptSequence, source) =>
        match buildWhiteLightRequest node spec.accessId spec.deviceId spec.enabled ticket.sequence message ticket.sequence
          noise with
        | .error e => (.error (.gute e), source)
        | .ok wire => (.ok {
            receipts := receipts
            sequence := ticket.sequence
            key := ⟨spec, receiptSequence⟩
            wire := wire
            node := some node
            generation := generation
            deadline := deadline }, source)

/-- `result`. -/
def readResult (job : LampExchangeJob) : Option LampReadResult :=
  job.result.map fun r => {
    status := r.status
    enabled := r.value.bind LampAnswer.enabled
    transportAcknowledged := r.transportAcknowledged
    errorCode := r.value.bind LampAnswer.errorCode
    sent := job.key.spec.isWrite && r.sent }

end LampExchangeJob

/-! ## Control writes -/

/-- What a control write keeps: its message's identifier. -/
structure ControlKey where
  messageId : Nat

/-- `ControlWriteJob`. -/
abbrev ControlWriteJob := Exchange ControlKey Nat

namespace ControlWriteJob

/-- The rest of `observe`, for a frame that is no receipt. -/
def answered (node : CertifiedNode) (_sequence : Nat) (key : ControlKey) (_noise : Nat) (plain : Bytes) :
    Except ExchangeFault (Option (ExchangeAnswer Nat)) :=
  if plain.length < 54 ∨ 4096 < plain.length then .ok none
  else
    let flags := plain.field 4 20
    if plain.field 8 4 ≠ node.sessionId ∨ (flags >>> 16) &&& 3 ≠ 2 ∨ flags.testBit 20 then .ok none
    else
      match parseModelWriteResponse plain key.messageId with
      | none => .ok none
      | some code => .ok (some { status := .response, value := some code })

/-- A control write's kind of exchange. -/
def kind : ExchangeKind ControlKey Nat where
  family := 0xD2
  looksAt := fun _ _ => true
  answered := answered

/-- `ControlWriteJob(…)`. -/
def new [Rounding] (node : CertifiedNode) (source : BrokerSequences) (spec : ControlWriteSpec) (generation : Nat)
    (deadline : ℚ) (message noise : Nat) (clock : Nat → ℚ) : Except ExchangeFault ControlWriteJob × BrokerSequences :=
  match Exchange.register 0xD2 .controlBounds node source generation deadline clock with
  | (.error e, source) => (.error e, source)
  | (.ok (receipts, ticket), source) =>
    match buildControlWrite node spec ticket.sequence (message % 2 ^ 31) noise with
    | .error e => (.error (.gute e), source)
    | .ok wire => (.ok {
        receipts := receipts
        sequence := ticket.sequence
        key := ⟨message % 2 ^ 31⟩
        wire := wire
        node := some node
        generation := generation
        deadline := deadline }, source)

/-- `result`. -/
def writeResult (job : ControlWriteJob) : Option ControlWriteResult :=
  job.result.map fun r => ⟨r.status.text, r.value, r.transportAcknowledged⟩

end ControlWriteJob

/-! ## Catalogue reads -/

/-- `CatalogReadSpec`, with the check of its `__post_init__`. -/
structure CatalogReadSpec where
  accessId : Nat
  system : Bool
  access_pos : 0 < accessId
  access_lt : accessId < 2 ^ 64

/-- What a catalogue read keeps: which catalogue it asks for. -/
structure CatalogKey where
  system : Bool

/-- `CatalogReadResult`. -/
structure CatalogReadResult where
  status : ExchangeStatus
  catalog : Option AlarmVoiceCatalog
  transportAcknowledged : Bool

/-- `CatalogReadJob`. -/
abbrev CatalogReadJob := Exchange CatalogKey AlarmVoiceCatalog

namespace CatalogReadJob

/-- What is asked of a frame before it is tried as a receipt. -/
def looksAt (node : CertifiedNode) (plain : Bytes) : Bool :=
  decide (24 ≤ plain.length ∧ plain.length ≤ 65535 ∧ plain.field 8 4 = node.sessionId ∧
    (plain.field 4 20 >>> 16) &&& 3 = 2)

/-- Whether it is the whole of the catalogue that was asked for. -/
def complete (system : Bool) (catalog : AlarmVoiceCatalog) : Bool :=
  decide (catalog.code = 0 ∧ catalog.reportedTotal = catalog.resources.length) &&
    catalog.resources.all fun resource => resource.system == system

/-- The catalogue in an expanded response; a `RecursionError` is not caught. -/
def evaluate (loads : TryLoads) (system : Bool) (expanded : Bytes) :
    Except ExchangeFault (ExchangeAnswer AlarmVoiceCatalog) :=
  match parseAlarmVoiceCatalogResponse expanded with
  | none => .ok { status := .invalidResponse }
  | some (_, status, payload) =>
    if status ≠ 0 then .ok { status := .invalidResponse }
    else
      match decodeAlarmVoiceCatalog loads payload with
      | .error .depth => .error (.loads .depth)
      | .error _ => .ok { status := .invalidResponse }
      | .ok none => .ok { status := .invalidResponse }
      | .ok (some catalog) =>
        if complete system catalog then .ok { status := .response, value := some catalog }
        else .ok { status := .invalidResponse }

/-- The rest of `observe`, for a frame that is no receipt. -/
def answered (loads : TryLoads) (_node : CertifiedNode) (sequence : Nat) (key : CatalogKey) (_noise : Nat) (plain : Bytes) :
    Except ExchangeFault (Option (ExchangeAnswer AlarmVoiceCatalog)) :=
  if (plain.field 4 20).testBit 20 ∨ plain.at_ 1 ≠ 0xC1 ∨ plain.field 4 16 ≠ sequence then .ok none
  else
    match expandCompressedFrame plain with
    | none => .ok (some { status := .invalidResponse })
    | some none => .ok (some { status := .invalidResponse })
    | some (some expanded) => (evaluate loads key.system expanded).map some

/-- A catalogue read's kind of exchange. -/
def kind (loads : TryLoads) : ExchangeKind CatalogKey AlarmVoiceCatalog where
  family := 0xC0
  looksAt := looksAt
  answered := answered loads

/-- `CatalogReadJob(…)`. -/
def new [Rounding] (node : CertifiedNode) (source : BrokerSequences) (spec : CatalogReadSpec) (generation : Nat)
    (deadline : ℚ) (noise : Nat) (clock : Nat → ℚ) : Except ExchangeFault CatalogReadJob × BrokerSequences :=
  match Exchange.register 0xC0 .catalogBounds node source generation deadline clock with
  | (.error e, source) => (.error e, source)
  | (.ok (receipts, ticket), source) =>
    match buildAlarmVoiceCatalogRequest node spec.system spec.accessId ticket.sequence noise with
    | .error e => (.error (.gute e), source)
    | .ok wire => (.ok {
        receipts := receipts
        sequence := ticket.sequence
        key := ⟨spec.system⟩
        wire := wire
        node := some node
        generation := generation
        deadline := deadline }, source)

/-- `result`. -/
def readResult (job : CatalogReadJob) : Option CatalogReadResult :=
  job.result.map fun r => ⟨r.status, r.value, r.transportAcknowledged⟩

end CatalogReadJob

/-! ## An account's jobs -/

/-- A job of one of the three kinds. -/
inductive OneShot where
  | lamp (job : LampExchangeJob)
  | control (job : ControlWriteJob)
  | catalog (job : CatalogReadJob)

/-- What it is to ask for. -/
inductive OneShotRequest where
  | lamp (spec : LampSpec)
  | control (spec : ControlWriteSpec)
  | catalog (spec : CatalogReadSpec)

/-- What a job is prepared with. -/
structure OneShotOpening where
  node : CertifiedNode
  generation : Nat
  deadline : ℚ
  request : OneShotRequest

/-- When the receipt of its request expires, with the readings it is prepared at:
the time that was left then counts from the reading of the registration. -/
def OneShotOpening.expires [Rounding] (opening : OneShotOpening) (clock : Nat → ℚ) : ℚ :=
  match opening.request with
  | .lamp _ => Rounding.round (clock 1 + Rounding.round (opening.deadline - clock 0))
  | .control _ => Rounding.round (clock 2 + Rounding.round (opening.deadline - clock 1))
  | .catalog _ => Rounding.round (clock 2 + Rounding.round (opening.deadline - clock 1))

/-- The result of one of the three kinds. -/
inductive OneShotResult where
  | lamp (result : LampReadResult)
  | control (result : ControlWriteResult)
  | catalog (result : CatalogReadResult)

namespace OneShotResult

/-- `status`. -/
def status : OneShotResult → String
  | .lamp r => r.status.text
  | .control r => r.status
  | .catalog r => r.status.text

/-- `transport_acknowledged`. -/
def transportAcknowledged : OneShotResult → Bool
  | .lamp r => r.transportAcknowledged
  | .control r => r.transportAcknowledged
  | .catalog r => r.transportAcknowledged

end OneShotResult

namespace OneShot

/-- The job of an opening; `message` and `noise` are what `secrets` gives. -/
def prepare [Rounding] (opening : OneShotOpening) (message noise : Nat) (source : BrokerSequences) (clock : Nat → ℚ) :
    Except ExchangeFault OneShot × BrokerSequences :=
  match opening.request with
  | .lamp spec =>
    match LampExchangeJob.new opening.node source spec opening.generation opening.deadline message noise clock with
    | (.error e, source) => (.error e, source)
    | (.ok job, source) => (.ok (.lamp job), source)
  | .control spec =>
    match ControlWriteJob.new opening.node source spec opening.generation opening.deadline message noise clock with
    | (.error e, source) => (.error e, source)
    | (.ok job, source) => (.ok (.control job), source)
  | .catalog spec =>
    match CatalogReadJob.new opening.node source spec opening.generation opening.deadline noise clock with
    | (.error e, source) => (.error e, source)
    | (.ok job, source) => (.ok (.catalog job), source)

/-- Its result. -/
def result : OneShot → Option OneShotResult
  | .lamp job => job.readResult.map .lamp
  | .control job => job.writeResult.map .control
  | .catalog job => job.readResult.map .catalog

/-- The sequences a job has of the account's. -/
def sequences : OneShot → List Nat
  | .lamp job => [job.sequence, job.key.receiptSequence]
  | .control job => [job.sequence]
  | .catalog job => [job.sequence]

/-- The sequence of its request. -/
def sequence : OneShot → Nat
  | .lamp job => job.sequence
  | .control job => job.sequence
  | .catalog job => job.sequence

/-- `cancel` of the job. -/
def cancel : OneShot → OneShot
  | .lamp job => .lamp job.cancel
  | .control job => .control job.cancel
  | .catalog job => .catalog job.cancel

/-- `next_packet` of the job. -/
def nextPacket (source : BrokerSequences) (now : ℚ) : OneShot → Option Bytes × OneShot
  | .lamp job => (job.nextPacket source now).map id .lamp
  | .control job => (job.nextPacket source now).map id .control
  | .catalog job => (job.nextPacket source now).map id .catalog

/-- `observe` of the job. -/
def observe (loads : TryLoads) (source : BrokerSequences) (plain : Bytes) (peer : String × Nat) (generation noise : Nat)
    (clock : Nat → ℚ) : OneShot → Except ExchangeFault (List Bytes) × OneShot
  | .lamp job => (job.observe (LampExchangeJob.kind loads) source plain peer generation noise clock).map id .lamp
  | .control job => (job.observe ControlWriteJob.kind source plain peer generation noise clock).map id .control
  | .catalog job => (job.observe (CatalogReadJob.kind loads) source plain peer generation noise clock).map id .catalog

end OneShot

/-- A call on an account's jobs. -/
inductive OneShotCall where
  | prepare (opening : OneShotOpening) (message noise : Nat)
  | nextPacket (job : Nat)
  | observe (job : Nat) (plain : Bytes) (peer : String × Nat) (generation noise : Nat)
  | cancel (job : Nat)
  /-- Somebody else's sequences. -/
  | reserve (count : Nat)
  /-- The account ends. -/
  | retire

/-- A call with its readings of the clock, the packets it gave and the sequences it
gave to somebody else. -/
structure OneShotEvent where
  clock : Nat → ℚ
  call : OneShotCall
  packets : List Bytes := []
  reserved : List Nat := []

/-- A job, with what it was prepared with and at. -/
structure HeldOneShot where
  opening : OneShotOpening
  clock : Nat → ℚ
  job : OneShot

/-- When the receipt of its request expires. -/
def HeldOneShot.expires [Rounding] (held : HeldOneShot) : ℚ := held.opening.expires held.clock

/-- An account with its jobs; a job is known by its place. -/
structure OneShotRun where
  source : BrokerSequences
  jobs : List HeldOneShot := []
  log : List OneShotEvent := []

namespace OneShotRun

/-- A job has changed. -/
def setJob (r : OneShotRun) (j : Nat) (job : OneShot) : OneShotRun :=
  { r with jobs := r.jobs.modify j fun held => { held with job := job } }

/-- A call is logged. -/
def note (e : OneShotEvent) (r : OneShotRun) : OneShotRun := { r with log := r.log ++ [e] }

/-- One call, at its readings of the clock. -/
def step [Rounding] (loads : TryLoads) (clock : Nat → ℚ) (call : OneShotCall) (r : OneShotRun) : OneShotRun :=
  match call with
  | .prepare opening message noise =>
    match OneShot.prepare opening message noise r.source clock with
    | (.error _, source) => note { clock := clock, call := call } { r with source := source }
    | (.ok job, source) =>
      note { clock := clock, call := call } { r with source := source, jobs := r.jobs ++ [⟨opening, clock, job⟩] }
  | .nextPacket j =>
    match r.jobs[j]? with
    | none => note { clock := clock, call := call } r
    | some held =>
      match held.job.nextPacket r.source (clock 0) with
      | (packet, job) => note { clock := clock, call := call, packets := packet.toList } (r.setJob j job)
  | .observe j plain peer generation noise =>
    match r.jobs[j]? with
    | none => note { clock := clock, call := call } r
    | some held =>
      match held.job.observe loads r.source plain peer generation noise clock with
      | (.error _, job) => note { clock := clock, call := call } (r.setJob j job)
      | (.ok packets, job) => note { clock := clock, call := call, packets := packets } (r.setJob j job)
  | .cancel j =>
    match r.jobs[j]? with
    | none => note { clock := clock, call := call } r
    | some held => note { clock := clock, call := call } (r.setJob j held.job.cancel)
  | .reserve count =>
    match r.source.reserve count with
    | (.error _, source) => note { clock := clock, call := call } { r with source := source }
    | (.ok ids, source) => note { clock := clock, call := call, reserved := ids } { r with source := source }
  | .retire => note { clock := clock, call := call } { r with source := r.source.close }

/-- The calls, on an account without jobs. -/
def run [Rounding] (loads : TryLoads) (source : BrokerSequences) (calls : List ((Nat → ℚ) × OneShotCall)) :
    OneShotRun :=
  Machine.run (step loads) ⟨source, [], []⟩ calls

end OneShotRun

end CamGuard.Account
