/-
The senders of an AV handshake: one INIT, START or CLOSE with its retransmissions
(`av_control_send.py`), and the INIT requests that are repeated under new sequences
until ACCEPT (`av_init_requests.py`).

Every reading of the clock is an argument of its own; nothing is assumed about them.
What `due` returns has the reading beside it that it was sent at.
-/
import CamGuard.Account.RouteProtocol
import CamGuard.Media.MediaReceive

namespace CamGuard.Media

/-- The control messages. -/
inductive AvAction where
  | init
  | start
  | close
  deriving DecidableEq, Repr

/-- Their codes. -/
def AvAction.code : AvAction → Nat
  | .init => 1
  | .start => 6
  | .close => 7

/-- Why a sender refuses its arguments. -/
inductive ControlConfigFault where
  | link
  | call
  | sequence
  | metadata
  | userData
  | frame (e : KcpBuildFault)
  deriving DecidableEq, Repr

/-- Their texts. -/
def ControlConfigFault.reason : ControlConfigFault → String
  | .link => "invalid AV link"
  | .call => "invalid AV call"
  | .sequence => "invalid AV control sequence"
  | .metadata => "AV startup metadata is only valid for INIT"
  | .userData => "AV INIT request user data must be exactly 32 bytes"
  | .frame e => e.reason

/-- Every way a call of a sender raises. -/
inductive SenderFault where
  | closed
  | deadline
  | requestsClosed
  /-- Not a `ReceiveError`. -/
  | config (e : ControlConfigFault)
  deriving DecidableEq, Repr

/-- Their texts. -/
def SenderFault.reason : SenderFault → String
  | .closed => "AV control sender is closed"
  | .deadline => "AV control receipt deadline exceeded"
  | .requestsClosed => "AV INIT requests are closed"
  | .config e => e.reason

/-- `build_av_control`. -/
def buildAvControl (callId action : Nat) : Bytes :=
  let body := (Bytes.zeros 76).put 0 [3, 0, 0x4C, 0]
  let body := body.put 4 (Bytes.ofNat 4 callId)
  let body := body.put 8 (Bytes.ofNat 4 action)
  body.put 64 (Bytes.ofNat 4 9)

/-- `build_av_init`, for a live connection. -/
def buildAvInit (callId : Nat) : Option Bytes → Except ControlConfigFault Bytes
  | none => .ok (Account.buildAvInit callId)
  | some userData =>
    if userData.length ≠ 32 then .error .userData
    else
      let body := (Bytes.zeros 76).put 0 [3, 2, 0x4C, 0]
      let body := body.put 4 (Bytes.ofNat 4 callId)
      let body := body.put 8 (Bytes.ofNat 4 1)
      let body := body.put 16 (Bytes.ofNat 4 1)
      let body := body.put 20 (Bytes.ofNat 4 1)
      let body := body.put 24 userData
      .ok (body.put 64 (Bytes.ofNat 4 9))

/-! ## One request -/

/-- A transmission, and the clock as `due` read it. -/
structure Sent where
  wire : Bytes
  now : ℚ
  deriving DecidableEq

/-- The clock as `due` reads it. -/
structure DueClock where
  poll : ℚ
  now : ℚ
  deriving DecidableEq

/-- `ReliableAvControl`: one message, sent until it is acknowledged. -/
structure ReliableAvControl where
  peer : Peer
  conv : Nat
  sequence : Nat
  created : ℚ
  timestamp : Nat
  wire : Bytes
  lastSent : Option ℚ := none
  attempts : Nat := 0
  acknowledged : Bool := false
  closed : Bool := false
  deriving DecidableEq

namespace ReliableAvControl

/-- `int(created * 1000) & 0xFFFFFFFF`. -/
def timestampOf (created : ℚ) : Nat := ((created * 1000).num.tdiv (created * 1000).den % 2 ^ 32).toNat

/-- The sequences a request can have. -/
def sequenceFits (action : AvAction) (sequence : Nat) (sdkInitRepeat : Bool) : Bool :=
  decide (sequence = if action = .close then 1 else 0) || (decide (action = .init ∧ sequence < 25) && sdkInitRepeat)

/-- The body of the message. -/
def body (action : AvAction) (callId : Nat) (userData : Option Bytes) : Except ControlConfigFault Bytes :=
  if action = .init then buildAvInit callId userData else .ok (buildAvControl callId action.code)

/-- `ReliableAvControl(…)`; `now` is the clock. -/
def new (peer : Peer) (linkId callId : Nat) (action : AvAction) (sequence : Nat) (userData : Option Bytes)
    (sdkInitRepeat : Bool) (now : ℚ) : Except ControlConfigFault ReliableAvControl :=
  if linkId = 0 ∨ 0xFFFFFF < linkId then .error .link
  else if 0xFFFFFFFF < callId then .error .call
  else if sequenceFits action sequence sdkInitRepeat = false then .error .sequence
  else if userData.isSome ∧ action ≠ .init then .error .metadata
  else
    let conv := if action = .init then linkId ||| 0x80000000 else linkId
    match body action callId userData with
    | .error e => .error e
    | .ok body =>
      match buildKcpPush conv sequence body (timestampOf now) 0 DEFAULT_RECEIVE_SEGMENTS with
      | .error e => .error (.frame e)
      | .ok wire => .ok {
          peer := peer
          conv := conv
          sequence := sequence
          created := now
          timestamp := timestampOf now
          wire := wire }

/-- `close`. -/
def close (r : ReliableAvControl) : ReliableAvControl := { r with wire := [], closed := true }

/-- `poll`: two seconds without an acknowledgement end it. -/
def poll (r : ReliableAvControl) (now : ℚ) : Except SenderFault Unit × ReliableAvControl :=
  if r.closed then (.error .closed, r)
  else if r.acknowledged = false ∧ 2 ≤ now - r.created then (.error .deadline, r.close)
  else (.ok (), r)

/-- `due`: four attempts, spaced. -/
def due (r : ReliableAvControl) (clock : DueClock) : Except SenderFault (Option Sent) × ReliableAvControl :=
  match r.poll clock.poll with
  | (.error e, r) => (.error e, r)
  | (.ok (), r) =>
    if r.acknowledged ∨ 4 ≤ r.attempts then (.ok none, r)
    else if r.lastSent.any fun last => decide (clock.now - last < 1 / 4) then (.ok none, r)
    else (.ok (some ⟨r.wire, clock.now⟩), { r with lastSent := some clock.now, attempts := r.attempts + 1 })

/-- A segment that acknowledges the request. -/
def acknowledges (r : ReliableAvControl) (segment : KcpSegment) : Bool :=
  decide (segment.command = KCP_ACK ∧ segment.conv = r.conv ∧ segment.sequence = r.sequence ∧
    segment.timestamp = r.timestamp ∧ segment.fragment = 0 ∧ segment.body = [])

/-- `receive_ack`. -/
def receiveAck (r : ReliableAvControl) (now : ℚ) (wire : Bytes) (peer : Peer) :
    Except SenderFault Bool × ReliableAvControl :=
  match r.poll now with
  | (.error e, r) => (.error e, r)
  | (.ok (), r) =>
    if r.acknowledged ∨ r.attempts = 0 ∨ peer ≠ r.peer ∨ MTP_MAX_FRAME_SIZE < wire.length then (.ok false, r)
    else
      match parseKcpSegments wire with
      | .error _ => (.ok false, r)
      | .ok segments =>
        if segments.any r.acknowledges then (.ok true, { r with acknowledged := true, wire := [] }) else (.ok false, r)

end ReliableAvControl

/-! ## Repeated requests -/

/-- The clock as `due` of the requests reads it: for each request there is, and then
for a new one. -/
structure RequestsClock where
  poll : Nat → ℚ
  due : Nat → DueClock
  now : ℚ
  created : ℚ
  first : DueClock

/-- The clock as `receive_ack` of the requests reads it. -/
structure AckClock where
  poll : Nat → ℚ
  requests : Nat → ℚ

/-- `AvInitRequests`: INIT as a new request each time, until one is acknowledged. -/
structure AvInitRequests where
  peer : Peer
  link : Nat
  call : Nat
  data : Option Bytes
  requests : List ReliableAvControl := []
  next : ℚ
  count : Nat := 0
  stopped : Bool := false
  attempts : Nat := 0
  acknowledged : Bool := false
  closed : Bool := false
  deriving DecidableEq

namespace AvInitRequests

/-- `_clear`. -/
def clear (q : AvInitRequests) : AvInitRequests := { q with requests := [] }

/-- `close`. -/
def close (q : AvInitRequests) : AvInitRequests := { q with closed := true, data := none }.clear

/-- `stop_repeating`. -/
def stopRepeating (q : AvInitRequests) : AvInitRequests :=
  if q.acknowledged then { q with stopped := true }.clear else { q with stopped := true }

/-- The loop of `poll`. -/
def pollAll : List ReliableAvControl → (Nat → ℚ) → Except SenderFault Unit × List ReliableAvControl
  | [], _ => (.ok (), [])
  | r :: rest, clock =>
    match r.poll (clock 0) with
    | (.error e, r) => (.error e, r :: rest)
    | (.ok (), r) =>
      match pollAll rest fun i => clock (i + 1) with
      | (result, rest) => (result, r :: rest)

/-- `poll`. -/
def poll (q : AvInitRequests) (clock : Nat → ℚ) : Except SenderFault Unit × AvInitRequests :=
  if q.closed then (.error .requestsClosed, q)
  else
    match pollAll q.requests clock with
    | (result, requests) => (result, { q with requests := requests })

/-- The loop of `due`: the first request that has something to send. -/
def dueFirst : List ReliableAvControl → (Nat → DueClock) → Except SenderFault (Option Sent) × List ReliableAvControl
  | [], _ => (.ok none, [])
  | r :: rest, clock =>
    match r.due (clock 0) with
    | (.error e, r) => (.error e, r :: rest)
    | (.ok (some sent), r) => (.ok (some sent), r :: rest)
    | (.ok none, r) =>
      match dueFirst rest fun i => clock (i + 1) with
      | (result, rest) => (result, r :: rest)

/-- How long after one request the next one is made. -/
def interval : Nat → ℚ
  | 0 => 5 / 100
  | 1 => 7 / 100
  | 2 => 1 / 10
  | _ => 35 / 100

/-- The end of `due`: a new request, and its first transmission. -/
def request (q : AvInitRequests) (clock : RequestsClock) : Except SenderFault (Option Sent) × AvInitRequests :=
  if q.stopped ∨ 25 ≤ q.count ∨ clock.now < q.next then (.ok none, q)
  else
    match ReliableAvControl.new q.peer q.link q.call .init q.count q.data true clock.created with
    | .error e => (.error (.config e), q)
    | .ok r =>
      match r.due clock.first with
      | (result, r) => (result, { q with
          requests := q.requests ++ [r]
          next := clock.now + interval q.count
          count := q.count + 1
          attempts := q.attempts + 1 })

/-- `due`. -/
def due (q : AvInitRequests) (clock : RequestsClock) : Except SenderFault (Option Sent) × AvInitRequests :=
  match q.poll clock.poll with
  | (.error e, q) => (.error e, q)
  | (.ok (), q) =>
    match dueFirst q.requests clock.due with
    | (.error e, requests) => (.error e, { q with requests := requests })
    | (.ok (some sent), requests) => (.ok (some sent), { q with requests := requests, attempts := q.attempts + 1 })
    | (.ok none, requests) => { q with requests := requests }.request clock

/-- The loop of `receive_ack`. -/
def ackAll : List ReliableAvControl → (Nat → ℚ) → Bytes → Peer → Except SenderFault Bool × List ReliableAvControl
  | [], _, _, _ => (.ok false, [])
  | r :: rest, clock, wire, peer =>
    match r.receiveAck (clock 0) wire peer with
    | (.error e, r) => (.error e, r :: rest)
    | (.ok received, r) =>
      match ackAll rest (fun i => clock (i + 1)) wire peer with
      | (.error e, rest) => (.error e, r :: rest)
      | (.ok more, rest) => (.ok (received || more), r :: rest)

/-- `receive_ack`. -/
def receiveAck (q : AvInitRequests) (clock : AckClock) (wire : Bytes) (peer : Peer) :
    Except SenderFault Bool × AvInitRequests :=
  match q.poll clock.poll with
  | (.error e, q) => (.error e, q)
  | (.ok (), q) =>
    match ackAll q.requests clock.requests wire peer with
    | (.error e, requests) => (.error e, { q with requests := requests })
    | (.ok received, requests) =>
      let q := { q with requests := requests, acknowledged := q.acknowledged || received }
      (.ok received, if q.acknowledged ∧ q.stopped then q.clear else q)

end AvInitRequests

end CamGuard.Media
