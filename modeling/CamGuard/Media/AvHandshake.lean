/-
The handshake of an AV session (`av_handshake.py`): the senders of INIT, START and
CLOSE and the paired receiver, in one owner. It is driven by calls only; a run of it
writes down what was sent, what was received, and how calls ended.
-/
import CamGuard.Media.AvControlSend
import CamGuard.Media.AvReceiveFacts

namespace CamGuard.Media

/-- How a call of the handshake fails. -/
inductive HandshakeFault where
  | closed
  | readiness
  /-- `begin_finish` before the negotiation is complete. -/
  | refused
  | sender (e : SenderFault)
  | poll (e : AvFault)
  | receive (e : AvFault)
  deriving DecidableEq, Repr

/-- The text of the error; the receiver's are those of its session. -/
def HandshakeFault.reason : HandshakeFault → String
  | .closed => "AV handshake is closed"
  | .readiness => "AV handshake readiness deadline exceeded"
  | .refused => "AV CLOSE requires completed negotiation"
  | .sender e => e.reason
  | .poll e => e.reason
  | .receive e => e.sessionReason

/-- A `ReceiveError`, as opposed to arguments that a sender refuses. -/
def HandshakeFault.isReceiveError : HandshakeFault → Bool
  | .sender (.config _) => false
  | _ => true

/-- Why `AvHandshake` refuses its arguments. -/
inductive HandshakeConfigFault where
  | control (e : ControlConfigFault)
  | receiver (e : AvConfigFault)
  deriving DecidableEq, Repr

/-! ## INIT -/

/-- INIT is sent by a reliable sender, or as requests that are repeated. -/
inductive InitSender where
  | once (r : ReliableAvControl)
  | repeated (q : AvInitRequests)

/-- The clock as the calls on either read it. -/
structure InitClock where
  poll : Nat → ℚ
  due : RequestsClock
  ack : AckClock

namespace InitSender

/-- Whether `_init` is an `AvInitRequests`. -/
def isRepeated : InitSender → Bool
  | .once _ => false
  | .repeated _ => true

/-- `acknowledged` of either. -/
def acknowledged : InitSender → Bool
  | .once r => r.acknowledged
  | .repeated q => q.acknowledged

/-- `attempts` of either. -/
def attempts : InitSender → Nat
  | .once r => r.attempts
  | .repeated q => q.attempts

/-- `close` of either. -/
def close : InitSender → InitSender
  | .once r => .once r.close
  | .repeated q => .repeated q.close

/-- `poll` of either. -/
def poll (clock : Nat → ℚ) : InitSender → Except SenderFault Unit × InitSender
  | .once r =>
    match r.poll (clock 0) with
    | (result, r) => (result, .once r)
  | .repeated q =>
    match q.poll clock with
    | (result, q) => (result, .repeated q)

/-- `due` of either. -/
def due (clock : RequestsClock) : InitSender → Except SenderFault (Option Sent) × InitSender
  | .once r =>
    match r.due clock.first with
    | (result, r) => (result, .once r)
  | .repeated q =>
    match q.due clock with
    | (result, q) => (result, .repeated q)

/-- `receive_ack` of either. -/
def receiveAck (clock : AckClock) (wire : Bytes) (peer : Peer) : InitSender → Except SenderFault Bool × InitSender
  | .once r =>
    match r.receiveAck (clock.poll 0) wire peer with
    | (result, r) => (result, .once r)
  | .repeated q =>
    match q.receiveAck clock wire peer with
    | (result, q) => (result, .repeated q)

/-- `stop_repeating`, of the requests that are repeated. -/
def stopRepeating : InitSender → InitSender
  | .once r => .once r
  | .repeated q => .repeated q.stopRepeating

end InitSender

/-! ## The handshake -/

/-- The clock as `poll` reads it. -/
structure HandshakePoll where
  ready : ℚ
  init : Nat → ℚ
  start : ℚ
  finish : ℚ
  receiver : AvPollClock

/-- The clock as `due` reads it. -/
structure HandshakeDue where
  poll : HandshakePoll
  finish : DueClock
  init : RequestsClock
  created : ℚ
  start : DueClock

/-- A datagram and the clock as `receive` reads it. -/
structure HandshakeReceive where
  poll : HandshakePoll
  init : AckClock
  start : ℚ
  finish : ℚ
  call : AvCall

/-- `AvHandshake`: START and CLOSE have a sender once it is made. -/
structure AvHandshake where
  created : ℚ
  peer : Peer
  linkId : Nat
  callId : Nat
  init : InitSender
  receiver : AvReceiver
  start : Option ReliableAvControl := none
  finish : Option ReliableAvControl := none
  closed : Bool := false

/-- The arguments of `AvHandshake`, with the clock as it reads it. -/
structure HandshakeConfig where
  peer : Peer
  linkId : Nat
  callId : Nat
  cookie : Bytes
  userData : Option Bytes
  repeatInit : Bool
  policy : MediaPolicy
  created : ℚ
  init : ℚ
  receiver : ℚ

namespace AvHandshake

/-- The sender of INIT that a new handshake has. -/
def newInit (c : HandshakeConfig) : Except ControlConfigFault InitSender :=
  if c.repeatInit then .ok (.repeated { peer := c.peer, link := c.linkId, call := c.callId, data := c.userData, next := c.init })
  else
    match ReliableAvControl.new c.peer c.linkId c.callId .init 0 c.userData false c.init with
    | .error e => .error e
    | .ok r => .ok (.once r)

/-- `AvHandshake(…)`. -/
def new (c : HandshakeConfig) : Except HandshakeConfigFault AvHandshake :=
  match newInit c with
  | .error e => .error (.control e)
  | .ok init =>
    match AvReceiver.new c.peer c.linkId c.callId c.cookie (some (c.linkId ||| 0x80000000)) c.policy c.receiver with
    | .error e => .error (.receiver e)
    | .ok receiver => .ok {
        created := c.created
        peer := c.peer
        linkId := c.linkId
        callId := c.callId
        init := init
        receiver := receiver }

/-- `ready`: both sides have accepted, INIT and START are acknowledged, and no CLOSE is begun. -/
def ready (h : AvHandshake) : Bool :=
  !h.closed && h.finish.isNone && h.init.acknowledged && h.receiver.accepted && h.receiver.started &&
    h.start.any ReliableAvControl.acknowledged && decide (h.receiver.transport.phase = .active)

/-- `close`: the three senders and the receiver end with it. -/
def close (h : AvHandshake) : AvHandshake :=
  { h with
    closed := true
    init := h.init.close
    start := h.start.map ReliableAvControl.close
    finish := h.finish.map ReliableAvControl.close
    receiver := h.receiver.close
    callId := 0 }

/-- A sender that may not be there yet. -/
def pollSender (now : ℚ) : Option ReliableAvControl → Except SenderFault Unit × Option ReliableAvControl
  | none => (.ok (), none)
  | some r =>
    match r.poll now with
    | (result, r) => (result, some r)

/-- An acknowledgement for a sender that may not be there yet. -/
def ackSender (now : ℚ) (wire : Bytes) (peer : Peer) : Option ReliableAvControl → Except SenderFault Bool × Option ReliableAvControl
  | none => (.ok false, none)
  | some r =>
    match r.receiveAck now wire peer with
    | (result, r) => (result, some r)

/-- `poll`: the deadline of the negotiation, then the senders and the receiver in turn; what
fails closes the handshake. -/
def poll (h : AvHandshake) (clock : HandshakePoll) : Except HandshakeFault Unit × AvHandshake :=
  if h.closed then (.error .closed, h.close)
  else if h.finish.isNone ∧ h.ready = false ∧ 5 ≤ clock.ready - h.created then (.error .readiness, h.close)
  else
    match h.init.poll clock.init with
    | (.error e, init) => (.error (.sender e), { h with init := init }.close)
    | (.ok (), init) =>
      let h := { h with init := init }
      match pollSender clock.start h.start with
      | (.error e, start) => (.error (.sender e), { h with start := start }.close)
      | (.ok (), start) =>
        let h := { h with start := start }
        match pollSender clock.finish h.finish with
        | (.error e, finish) => (.error (.sender e), { h with finish := finish }.close)
        | (.ok (), finish) =>
          let h := { h with finish := finish }
          match h.receiver.poll clock.receiver with
          | (.error e, receiver) => (.error (.poll e), { h with receiver := receiver }.close)
          | (.ok (), receiver) => (.ok (), { h with receiver := receiver })

/-- What `due` and `receive` do with a fault of a sender: a `ReceiveError` closes. -/
def senderFault (h : AvHandshake) (e : SenderFault) : HandshakeFault × AvHandshake :=
  (.sender e, if (HandshakeFault.sender e).isReceiveError then h.close else h)

/-- The part of `due` for START, which makes its sender first. -/
def dueStart (h : AvHandshake) (clock : HandshakeDue) : Except HandshakeFault (Option Sent) × AvHandshake :=
  let sender : Except ControlConfigFault ReliableAvControl :=
    match h.start with
    | some r => .ok r
    | none => ReliableAvControl.new h.peer h.linkId h.callId .start 0 none false clock.created
  match sender with
  | .error e =>
    let (fault, h) := h.senderFault (.config e)
    (.error fault, h)
  | .ok r =>
    match r.due clock.start with
    | (.error e, r) =>
      let (fault, h) := { h with start := some r }.senderFault e
      (.error fault, h)
    | (.ok sent, r) => (.ok sent, { h with start := some r })

/-- `due`: the one packet that is to be sent next, if any. -/
def due (h : AvHandshake) (clock : HandshakeDue) : Except HandshakeFault (Option Sent) × AvHandshake :=
  match h.poll clock.poll with
  | (.error e, h) => (.error e, h)
  | (.ok (), h) =>
    match h.finish with
    | some r =>
      match r.due clock.finish with
      | (.error e, r) =>
        let (fault, h) := { h with finish := some r }.senderFault e
        (.error fault, h)
      | (.ok sent, r) => (.ok sent, { h with finish := some r })
    | none =>
      if h.init.acknowledged = false ∨ (h.init.isRepeated ∧ h.receiver.accepted = false) then
        match h.init.due clock.init with
        | (.error e, init) =>
          let (fault, h) := { h with init := init }.senderFault e
          (.error fault, h)
        | (.ok sent, init) => (.ok sent, { h with init := init })
      else if h.receiver.accepted ∧ (h.receiver.started ∨ h.init.isRepeated) then h.dueStart clock
      else (.ok none, h)

/-- The part of `receive` behind its first check. -/
def handle (h : AvHandshake) (c : HandshakeReceive) : Except HandshakeFault AvReceiveBatch × AvHandshake :=
  match h.init.receiveAck c.init c.call.wire c.call.peer with
  | (.error e, init) => (.error (.sender e), { h with init := init }.close)
  | (.ok _, init) =>
    let h := { h with init := init }
    match ackSender c.start c.call.wire c.call.peer h.start with
    | (.error e, start) => (.error (.sender e), { h with start := start }.close)
    | (.ok _, start) =>
      let h := { h with start := start }
      match ackSender c.finish c.call.wire c.call.peer h.finish with
      | (.error e, finish) => (.error (.sender e), { h with finish := finish }.close)
      | (.ok _, finish) =>
        let h := { h with finish := finish }
        match h.receiver.receive c.call with
        | (.error e, receiver) => (.error (.receive e), { h with receiver := receiver }.close)
        | (.ok batch, receiver) =>
          let h := { h with receiver := receiver }
          (.ok batch, if h.receiver.accepted then { h with init := h.init.stopRepeating } else h)

/-- `receive`: nothing is taken in before the first INIT is sent. -/
def receive (h : AvHandshake) (c : HandshakeReceive) : Except HandshakeFault AvReceiveBatch × AvHandshake :=
  match h.poll c.poll with
  | (.error e, h) => (.error e, h)
  | (.ok (), h) => if h.init.attempts = 0 then (.ok {}, h) else h.handle c

/-- `begin_finish`; `created` is the clock for the sender of CLOSE. -/
def beginFinish (h : AvHandshake) (clock : HandshakePoll) (created : ℚ) : Except HandshakeFault Unit × AvHandshake :=
  match h.poll clock with
  | (.error e, h) => (.error e, h)
  | (.ok (), h) =>
    if h.finish.isSome then (.ok (), h)
    else if h.ready = false then (.error .refused, h)
    else
      match ReliableAvControl.new h.peer h.linkId h.callId .close 1 none false created with
      | .error e => (.error (.sender (.config e)), h)
      | .ok r => (.ok (), { h with finish := some r })

end AvHandshake

/-! ## Runs -/

/-- A call with what it reads of the clock. -/
inductive HandshakeCall where
  | due (clock : HandshakeDue)
  | receive (c : HandshakeReceive)
  | poll (clock : HandshakePoll)
  | beginFinish (clock : HandshakePoll) (created : ℚ)
  | close

/-- What a call did that can be seen from outside. -/
inductive HandshakeEntry where
  | sent (sent : Sent)
  /-- A datagram that got to the senders and the receiver, and the messages that the two
  conversations had in it. -/
  | received (wire : Bytes) (peer : Peer) (controls base : List Bytes)
  /-- `begin_finish` returned; `ready` is the property before the call. -/
  | finishing (ready : Bool)
  | raised (fault : HandshakeFault)
  | closed

/-- A handshake and what its calls did. -/
structure HandshakeRun where
  handshake : AvHandshake
  log : List HandshakeEntry := []

namespace HandshakeRun

/-- One call. -/
def step (s : HandshakeRun) : HandshakeCall → HandshakeRun
  | .due clock =>
    match s.handshake.due clock with
    | (.error e, h) => ⟨h, s.log ++ [.raised e]⟩
    | (.ok none, h) => ⟨h, s.log⟩
    | (.ok (some sent), h) => ⟨h, s.log ++ [.sent sent]⟩
  | .receive c =>
    match s.handshake.receive c with
    | (.error e, h) => ⟨h, s.log ++ [.raised e]⟩
    | (.ok _, h) =>
      if s.handshake.init.attempts = 0 then ⟨h, s.log⟩
      else
        let (controls, base) := s.handshake.receiver.delivered c.call
        ⟨h, s.log ++ [.received c.call.wire c.call.peer controls base]⟩
  | .poll clock =>
    match s.handshake.poll clock with
    | (.error e, h) => ⟨h, s.log ++ [.raised e]⟩
    | (.ok (), h) => ⟨h, s.log⟩
  | .beginFinish clock created =>
    match s.handshake.beginFinish clock created with
    | (.error e, h) => ⟨h, s.log ++ [.raised e]⟩
    | (.ok (), h) => ⟨h, s.log ++ [.finishing s.handshake.ready]⟩
  | .close => ⟨s.handshake.close, s.log ++ [.closed]⟩

/-- The calls, in order. -/
def run (h : AvHandshake) (calls : List HandshakeCall) : HandshakeRun := calls.foldl step { handshake := h }

end HandshakeRun

end CamGuard.Media
