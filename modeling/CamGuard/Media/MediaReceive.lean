/-
The adapter between the socket and the KCP receiver (`media_receive.py`): one
pinned peer, the segments of a frame in order, an ACK for every segment the
receiver acknowledges and a window report for every probe.
-/
import CamGuard.Media.KcpReceive

namespace CamGuard.Media

structure MediaReceiveBatch where
  acknowledgements : List Bytes := []
  messages : List Bytes := []
  deriving DecidableEq, Repr

/-- What a call can raise: a failure of the receiver, or of the builder of an
answer. -/
inductive MediaFault where
  | kcp (e : KcpFault)
  | build (e : KcpBuildFault)
  deriving DecidableEq, Repr

def MediaFault.reason : MediaFault → String
  | .kcp e => e.reason
  | .build e => e.reason

/-- A UDP address. -/
abbrev Peer := String × Nat

structure MediaReceiver where
  peer : Peer
  receiver : KcpReceiver

/-- A peer that last saw window zero asks for the window again. -/
def KcpSegment.isProbe (segment : KcpSegment) (conv : Nat) : Bool :=
  segment.conv = conv ∧ segment.command = KCP_WASK ∧ segment.fragment = 0 ∧ segment.body = []

/-- One turn of the loop over the segments of a frame. -/
def receiveOne (k : KcpReceiver) (clock : KcpClock) (segment : KcpSegment) :
    Except MediaFault MediaReceiveBatch × KcpReceiver :=
  if segment.isProbe k.config.conv then
    match buildWindowReport segment.conv k.nextSequence k.availableWindow with
    | .error e => (.error (.build e), k)
    | .ok report => (.ok { acknowledgements := [report] }, k)
  else
    match k.receive clock segment with
    | (.error e, k) => (.error (.kcp e), k)
    | (.ok result, k) =>
      if result.acknowledge then
        match buildKcpAck segment.conv segment.sequence segment.timestamp result.unacknowledged k.availableWindow with
        | .error e => (.error (.build e), k)
        | .ok ack => (.ok { acknowledgements := [ack], messages := result.messages }, k)
      else (.ok { messages := result.messages }, k)

/-- The loop. A failure drops what the turns before it had collected. -/
def receiveSegments : KcpReceiver → List (KcpClock × KcpSegment) →
    Except MediaFault MediaReceiveBatch × KcpReceiver
  | k, [] => (.ok {}, k)
  | k, (clock, segment) :: rest =>
    match receiveOne k clock segment with
    | (.error e, k) => (.error e, k)
    | (.ok batch, k) =>
      match receiveSegments k rest with
      | (.error e, k) => (.error e, k)
      | (.ok more, k) =>
        (.ok { acknowledgements := batch.acknowledgements ++ more.acknowledgements
               messages := batch.messages ++ more.messages }, k)

/-- `MediaReceiver.receive`. `now` is the clock at the first check, `clocks`
the clock of each call on a segment. -/
def MediaReceiver.receive (m : MediaReceiver) (now : ℚ) (clocks : Nat → KcpClock) (wire : Bytes) (peer : Peer) :
    Except MediaFault MediaReceiveBatch × MediaReceiver :=
  match m.receiver.expire now with
  | .error (e, k) => (.error (.kcp e), { m with receiver := k })
  | .ok () =>
    if peer ≠ m.peer ∨ MTP_MAX_FRAME_SIZE < wire.length then (.ok {}, m)
    else
      match parseKcpSegments wire with
      | .error _ => (.ok {}, m)
      | .ok segments =>
        let r := receiveSegments m.receiver (segments.mapIdx fun j segment => (clocks j, segment))
        (r.1, { m with receiver := r.2 })

end CamGuard.Media
