/-
The receiving side of an AV session: the life of one inbound conversation
(`receive_lifecycle.py`), the queue of what comes before ACCEPT (`av_pending.py`)
and the receiver of a session over one conversation or a pair (`av_receive.py`).

Every reading of the clock is an argument of its own; nothing is assumed about
them. A session fails with one text whatever went wrong; what did is kept beside
it (`AvFault`).
-/
import CamGuard.Media.MediaReceive
import CamGuard.Media.StreamProtocol

namespace CamGuard.Media

open CamGuard.Crypto

/-- The two policies of a session: bounded in all, or as long as there is progress. -/
inductive MediaPolicy where
  | finite
  | continuous
  deriving DecidableEq, Repr

/-! ## Faults -/

/-- Every way a call of a session raises. -/
inductive AvFault where
  | media (e : MediaFault)
  | lifetime
  | initialization
  | progress
  | activated
  | pendingDeadline
  | pendingBudget
  | control
  | envelope
  | preAccept
  | startFirst
  | acceptance
  | tlv (e : TlvFault)
  | parser (e : V1Fault)
  | encodingChanged
  | beforeEncoding
  deriving DecidableEq, Repr

/-- Their texts. -/
def AvFault.reason : AvFault → String
  | .media e => e.reason
  | .lifetime => "receive lifetime exceeded"
  | .initialization => "receive initialization deadline exceeded"
  | .progress => "receive progress deadline exceeded"
  | .activated => "receive lifecycle already activated"
  | .pendingDeadline => "AV cross-channel acceptance deadline exceeded"
  | .pendingBudget => "AV cross-channel receive budget exceeded"
  | .control => "unexpected AV control"
  | .envelope => "invalid AV envelope"
  | .preAccept => "unexpected pre-accept AV message"
  | .startFirst => "START before correlated ACCEPT"
  | .acceptance => "media without correlated acceptance"
  | .tlv e => e.reason
  | .parser e => e.reason
  | .encodingChanged => "AV encoding changed"
  | .beforeEncoding => "AV record before encoding header"

/-- What the caller of `receive` sees of any of them. -/
def AvFault.sessionReason (_ : AvFault) : String := "AV receive session failed"

/-- What was received is wrong, as opposed to late, too much or not for this
conversation. -/
def AvFault.OfContent : AvFault → Bool
  | .control | .envelope | .preAccept | .startFirst | .acceptance | .tlv _ | .parser _ | .encodingChanged
  | .beforeEncoding => true
  | _ => false

/-! ## One conversation -/

/-- `phase`. -/
inductive ReceivePhase where
  | initializing
  | active
  | closed
  deriving DecidableEq, Repr

/-- The clock as `poll` reads it. -/
structure PollClock where
  expire : ℚ
  now : ℚ
  deriving DecidableEq

/-- The clock as `receive` reads it. -/
structure LifecycleClock where
  poll : PollClock
  media : ℚ
  segments : Nat → KcpClock
  progress : ℚ

/-- `ReceiveLifecycle`: a media receiver with its deadlines. -/
structure ReceiveLifecycle where
  policy : MediaPolicy
  started : ℚ
  progress : ℚ
  initializationTimeout : ℚ := 5
  idleTimeout : ℚ := 5
  lifetime : ℚ := 30
  media : MediaReceiver
  phase : ReceivePhase := .initializing

namespace ReceiveLifecycle

/-- `close`. -/
def close (l : ReceiveLifecycle) : ReceiveLifecycle :=
  { l with
    media := { l.media with receiver := l.media.receiver.close }
    phase := .closed }

/-- `poll`. -/
def poll (l : ReceiveLifecycle) (clock : PollClock) : Except AvFault Unit × ReceiveLifecycle :=
  match l.media.receiver.expire clock.expire with
  | .error (e, k) => (.error (.media (.kcp e)), { l with media := { l.media with receiver := k } }.close)
  | .ok () =>
    if l.policy = .finite ∧ l.lifetime ≤ clock.now - l.started then (.error .lifetime, l.close)
    else if l.phase = .initializing then
      if l.initializationTimeout ≤ clock.now - l.started then (.error .initialization, l.close) else (.ok (), l)
    else if l.idleTimeout ≤ clock.now - l.progress then (.error .progress, l.close)
    else (.ok (), l)

/-- `activate`. -/
def activate (l : ReceiveLifecycle) (clock : PollClock) : Except AvFault Unit × ReceiveLifecycle :=
  match l.poll clock with
  | (.error e, l) => (.error e, l)
  | (.ok (), l) =>
    if l.phase ≠ .initializing then (.error .activated, l.close) else (.ok (), { l with phase := .active })

/-- `receive`. -/
def receive (l : ReceiveLifecycle) (clock : LifecycleClock) (wire : Bytes) (peer : Peer) :
    Except AvFault MediaReceiveBatch × ReceiveLifecycle :=
  match l.poll clock.poll with
  | (.error e, l) => (.error e, l)
  | (.ok (), l) =>
    match l.media.receive clock.media clock.segments wire peer with
    | (.error e, media) => (.error (.media e), { l with media := media }.close)
    | (.ok batch, media) =>
      (.ok batch, { l with
        media := media
        progress := if batch.messages = [] then l.progress else clock.progress })

end ReceiveLifecycle

/-! ## Before ACCEPT -/

def MAX_PENDING_BYTES : Nat := 256 * 1024
def MAX_PENDING_MESSAGES : Nat := 128
def PENDING_SECONDS : ℚ := 1

/-- `PendingAv`: the messages that wait while ACCEPT is awaited. -/
structure PendingAv where
  since : Option ℚ := none
  messages : List Bytes := []
  bufferedBytes : Nat := 0
  deriving DecidableEq

namespace PendingAv

/-- `clear`. -/
def clear (_ : PendingAv) : PendingAv := {}

/-- `poll`. -/
def poll (p : PendingAv) (now : ℚ) : Except AvFault Unit × PendingAv :=
  if p.since.any fun since => decide (PENDING_SECONDS ≤ now - since) then (.error .pendingDeadline, p.clear)
  else (.ok (), p)

/-- `now` and `start` are the clock in `poll` and for a queue that begins. -/
def append (p : PendingAv) (now start : ℚ) (message : Bytes) : Except AvFault Unit × PendingAv :=
  match p.poll now with
  | (.error e, p) => (.error e, p)
  | (.ok (), p) =>
    if MAX_PENDING_MESSAGES ≤ p.messages.length ∨ MAX_PENDING_BYTES < p.bufferedBytes + message.length then
      (.error .pendingBudget, p.clear)
    else (.ok (), {
      since := some (p.since.getD start)
      messages := p.messages ++ [message]
      bufferedBytes := p.bufferedBytes + message.length })

/-- `take`. -/
def take (p : PendingAv) (now : ℚ) : Except AvFault (List Bytes) × PendingAv :=
  match p.poll now with
  | (.error e, p) => (.error e, p)
  | (.ok (), p) => (.ok p.messages, p.clear)

end PendingAv

/-! ## A session -/

/-- `AvReceiveBatch`. -/
structure AvReceiveBatch where
  acknowledgements : List Bytes := []
  records : List V1Record := []
  unhandledCommands : Nat := 0
  deriving DecidableEq, Repr

/-- `AvReceiver`: the two conversations of a session and the stream behind them. -/
structure AvReceiver where
  control : Option MediaReceiver
  callId : Nat
  cookie : Bytes
  transport : ReceiveLifecycle
  parser : V1Receiver := {}
  pending : PendingAv := {}
  accepted : Bool := false
  started : Bool := false
  encoding : Option V1EncodingHeader := none

/-- Why `AvReceiver` refuses its arguments. -/
inductive AvConfigFault where
  | call
  | cookie
  | conversations
  | conversation
  deriving DecidableEq, Repr

/-- Their texts. -/
def AvConfigFault.reason : AvConfigFault → String
  | .call => "invalid AV call identifier"
  | .cookie => "invalid AV cookie"
  | .conversations => "invalid paired AV conversations"
  | .conversation => "invalid KCP conversation/initial sequence"

/-- The clock as the handling of a message reads it. -/
structure MessageClock where
  pending : ℚ
  start : ℚ
  activate : Nat → PollClock

/-- The clock as `poll` of a session reads it. -/
structure AvPollClock where
  transport : PollClock
  pending : ℚ
  control : ℚ

/-- A datagram and the clock as `receive` reads it. -/
structure AvCall where
  wire : Bytes
  peer : Peer
  poll : AvPollClock
  control : ℚ
  controlSegments : Nat → KcpClock
  transport : LifecycleClock
  take : ℚ
  queued : Nat → MessageClock
  messages : Nat → MessageClock

namespace AvReceiver

/-- `AvReceiver(…)`; `now` is the clock for the lifecycle. -/
def new (peer : Peer) (conv callId : Nat) (cookie : Bytes) (controlConv : Option Nat) (policy : MediaPolicy) (now : ℚ) :
    Except AvConfigFault AvReceiver :=
  if 0xFFFFFFFF < callId then .error .call
  else if cookie.length ≠ 8 then .error .cookie
  else if controlConv.any fun control =>
      decide (conv = 0 ∨ 0xFFFFFF < conv ∨ control ≠ conv ||| 0x80000000) then .error .conversations
  else if hconv : conv ≤ KCP_MASK then
    let config : KcpConfig :=
      match policy with
      | .finite => .ofConv conv hconv
      | .continuous => { KcpConfig.ofConv conv hconv with
          timeout := 5
          timeout_range := by norm_num }
    let transport : ReceiveLifecycle := {
      policy := policy
      started := now
      progress := now
      media := ⟨peer, KcpReceiver.new config⟩ }
    match controlConv with
    | none => .ok {
        control := none
        callId := callId
        cookie := cookie
        transport := transport }
    | some control =>
      if hcontrol : control ≤ KCP_MASK then .ok {
        control := some ⟨peer, KcpReceiver.new (.ofConv control hcontrol)⟩
        callId := callId
        cookie := cookie
        transport := transport }
      else .error .conversation
  else .error .conversation

/-- `close`. -/
def close (a : AvReceiver) : AvReceiver where
  control := a.control.map fun m => { m with receiver := m.receiver.close }
  callId := 0
  cookie := []
  transport := a.transport.close
  parser := a.parser.close
  pending := a.pending.clear
  accepted := false
  started := false
  encoding := none

/-- `buffered_bytes`. -/
def bufferedBytes (a : AvReceiver) : Int :=
  a.transport.media.receiver.bufferedBytes + a.parser.buffer.length +
    (a.control.map fun m => m.receiver.bufferedBytes).getD 0 + a.pending.bufferedBytes

/-- `poll`. -/
def poll (a : AvReceiver) (clock : AvPollClock) : Except AvFault Unit × AvReceiver :=
  match a.transport.poll clock.transport with
  | (.error e, transport) => (.error e, { a with transport := transport }.close)
  | (.ok (), transport) =>
    let a := { a with transport := transport }
    match a.pending.poll clock.pending with
    | (.error e, pending) => (.error e, { a with pending := pending }.close)
    | (.ok (), pending) =>
      let a := { a with pending := pending }
      match a.control with
      | none => (.ok (), a)
      | some m =>
        match m.receiver.expire clock.control with
        | .error (e, k) => (.error (.media (.kcp e)), { a with control := some { m with receiver := k } }.close)
        | .ok () => (.ok (), a)

/-- `_check_control`. -/
def checkControl (callId : Nat) (message : Bytes) (action : Nat) : Bool :=
  decide (message.length = 76 ∧ message.slice 0 4 = [0x03, 0x00, 0x4c, 0x00] ∧ message.field 4 4 = callId ∧
    message.field 4 8 = action)

/-- The loop of `_message` over what the parser returned: the encoding is
remembered and activates the conversation; `i` counts the records. -/
def noteRecords (clock : Nat → PollClock) : Nat → List V1Record → AvReceiver → Except AvFault Unit × AvReceiver
  | _, [], a => (.ok (), a)
  | i, record :: records, a =>
    match record.encoding with
    | some encoding =>
      if a.encoding.any fun known => decide (known ≠ encoding) then (.error .encodingChanged, a)
      else
        let a := { a with encoding := some encoding }
        if a.transport.phase = .initializing then
          match a.transport.activate (clock i) with
          | (.error e, transport) => (.error e, { a with transport := transport })
          | (.ok (), transport) => noteRecords clock (i + 1) records { a with transport := transport }
        else noteRecords clock (i + 1) records a
    | none => if a.encoding.isNone then (.error .beforeEncoding, a) else noteRecords clock (i + 1) records a

/-- `_message`. -/
def message (a : AvReceiver) (clock : MessageClock) (m : Bytes) : Except AvFault (List V1Record) × AvReceiver :=
  if m.length < 4 ∨ m.field 2 2 ≠ m.length then (.error .envelope, a)
  else if a.control.isSome ∧ a.accepted = false then
    if (a.pending.bufferedBytes = 0 ∨ m.at_ 0 = 3) ∧ checkControl a.callId m 6 = false then (.error .control, a)
    else if ¬ (a.pending.bufferedBytes = 0 ∨ m.at_ 0 = 3) ∧ (m.at_ 0 ≠ 4 ∨ (m.at_ 1 ≠ 1 ∧ m.at_ 1 ≠ 2)) then
      (.error .preAccept, a)
    else
      match a.pending.append clock.pending clock.start m with
      | (.error e, pending) => (.error e, { a with pending := pending })
      | (.ok (), pending) => (.ok [], { a with pending := pending })
  else if m.at_ 0 = 3 then
    if checkControl a.callId m (if a.control.isNone then 2 else 6) = false then (.error .control, a)
    else if a.control.isNone then (.ok [], { a with accepted := true, started := true })
    else if a.accepted = false then (.error .startFirst, a)
    else (.ok [], { a with started := true })
  else if m.at_ 0 ≠ 4 ∨ (m.at_ 1 ≠ 1 ∧ m.at_ 1 ≠ 2) ∨ a.accepted = false ∨ a.started = false then
    (.error .acceptance, a)
  else
    match decryptMediaTlv m a.cookie with
    | .error e => (.error (.tlv e), a)
    | .ok payload =>
      match a.parser.feed payload with
      | (.error e, parser) => (.error (.parser e), { a with parser := parser })
      | (.ok records, parser) =>
        match noteRecords clock.activate 0 records { a with parser := parser } with
        | (.error e, a) => (.error e, a)
        | (.ok (), a) => (.ok records, a)

/-- A loop of `receive` over messages of the base conversation. -/
def messages : AvReceiver → List (MessageClock × Bytes) → Except AvFault (List V1Record) × AvReceiver
  | a, [] => (.ok [], a)
  | a, (clock, m) :: rest =>
    match a.message clock m with
    | (.error e, a) => (.error e, a)
    | (.ok records, a) =>
      match messages a rest with
      | (.error e, a) => (.error e, a)
      | (.ok more, a) => (.ok (records ++ more), a)

/-- A command of the control conversation: counted, not interpreted. -/
def isCommand (m : Bytes) : Bool :=
  decide (4 ≤ m.length ∧ m.at_ 0 = 2 ∧ (m.at_ 1 = 1 ∨ m.at_ 1 = 2) ∧ m.field 2 2 = m.length)

/-- The loop of `receive` over messages of the control conversation. -/
def controls : AvReceiver → List Bytes → Except AvFault Nat × AvReceiver
  | a, [] => (.ok 0, a)
  | a, m :: rest =>
    if a.accepted && isCommand m then
      match controls a rest with
      | (.error e, a) => (.error e, a)
      | (.ok unhandled, a) => (.ok (unhandled + 1), a)
    else if checkControl a.callId m 2 = false then (.error .control, a)
    else controls { a with accepted := true } rest

/-- The part of `receive` for the control conversation. -/
def receiveControl (a : AvReceiver) (c : AvCall) : Except AvFault (List Bytes × Nat) × AvReceiver :=
  match a.control with
  | none => (.ok ([], 0), a)
  | some m =>
    match m.receive c.control c.controlSegments c.wire c.peer with
    | (.error e, m) => (.error (.media e), { a with control := some m })
    | (.ok batch, m) =>
      match controls { a with control := some m } batch.messages with
      | (.error e, a) => (.error e, a)
      | (.ok unhandled, a) => (.ok (batch.acknowledgements, unhandled), a)

/-- The messages that waited for ACCEPT. -/
def receivePending (a : AvReceiver) (c : AvCall) : Except AvFault (List V1Record) × AvReceiver :=
  if a.accepted then
    match a.pending.take c.take with
    | (.error e, pending) => (.error e, { a with pending := pending })
    | (.ok queued, pending) =>
      messages { a with pending := pending } (queued.mapIdx fun i m => (c.queued i, m))
  else (.ok [], a)

/-- The body of `receive`. -/
def handle (a : AvReceiver) (c : AvCall) : Except AvFault AvReceiveBatch × AvReceiver :=
  match a.poll c.poll with
  | (.error e, a) => (.error e, a)
  | (.ok (), a) =>
    match a.receiveControl c with
    | (.error e, a) => (.error e, a)
    | (.ok (acknowledgements, unhandled), a) =>
      match a.transport.receive c.transport c.wire c.peer with
      | (.error e, transport) => (.error e, { a with transport := transport })
      | (.ok batch, transport) =>
        match { a with transport := transport }.receivePending c with
        | (.error e, a) => (.error e, a)
        | (.ok queued, a) =>
          match a.messages (batch.messages.mapIdx fun i m => (c.messages i, m)) with
          | (.error e, a) => (.error e, a)
          | (.ok records, a) =>
            (.ok ⟨acknowledgements ++ batch.acknowledgements, queued ++ records, unhandled⟩, a)

/-- `receive`: whatever raises closes the session. -/
def receive (a : AvReceiver) (c : AvCall) : Except AvFault AvReceiveBatch × AvReceiver :=
  match a.handle c with
  | (.error e, a) => (.error e, a.close)
  | (.ok batch, a) => (.ok batch, a)

end AvReceiver

end CamGuard.Media
