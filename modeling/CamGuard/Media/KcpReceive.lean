/-
Receive-only KCP message assembly, as `kcp_receive.py` does it: a reorder
buffer keyed by sequence number, the message being assembled, a byte counter,
and the loop that moves segments from the one to the other.

The clock is read at fixed places of a call and the readings are its
arguments (`KcpClock`); nothing is assumed about them. The two readings behind
the log line of a repaired assembly change nothing and are left out.
-/
import CamGuard.Lib.Dict
import CamGuard.Lib.Serial
import CamGuard.Media.Kcp
import Mathlib.Algebra.Order.Ring.Rat
import Mathlib.Tactic.NormNum

namespace CamGuard.Media

def KCP_MASK : Nat := 0xFFFFFFFF
def DEFAULT_RECEIVE_SEGMENTS : Nat := 128
/-- The largest body one MTP frame can hold. -/
def KCP_MAX_BODY : Nat := MTP_MAX_FRAME_SIZE - MTP_PREFIX_SIZE - KCP_HEADER_SIZE

/-- The arguments `KcpReceiver` admits; each field of the constructor's check
is a field here. -/
structure KcpConfig where
  conv : Nat
  initialSequence : Nat := 0
  maxSegments : Nat := DEFAULT_RECEIVE_SEGMENTS
  maxBytes : Nat := 256 * 1024
  timeout : ℚ := 2
  conv_le : conv ≤ KCP_MASK
  initial_le : initialSequence ≤ KCP_MASK := by decide
  segments_range : 1 ≤ maxSegments ∧ maxSegments ≤ 128 := by decide
  bytes_range : 1 ≤ maxBytes ∧ maxBytes ≤ 1024 * 1024 := by decide
  timeout_range : 1 / 10 ≤ timeout ∧ timeout ≤ 10 := by norm_num

/-- A conversation, and the defaults. -/
def KcpConfig.ofConv (conv : Nat) (conv_le : conv ≤ KCP_MASK) : KcpConfig where
  conv := conv
  conv_le := conv_le

structure ReceiveResult where
  acknowledge : Bool
  unacknowledged : Nat
  messages : List Bytes := []
  deriving DecidableEq, Repr

/-- Every way a call raises. -/
inductive KcpFault where
  | closed
  | expired (facts : List (String × Int))
  | segment
  | conflict
  | budget
  | chain
  deriving DecidableEq, Repr

def KcpFault.reason : KcpFault → String
  | .closed => "KCP receiver is closed"
  | .expired _ => "KCP assembly deadline exceeded"
  | .segment => "invalid KCP receive segment"
  | .conflict => "conflicting KCP duplicate"
  | .budget => "KCP receive budget exceeded"
  | .chain => "invalid KCP fragment chain"

/-- The clock as one call of `receive` reads it: for `expire`, to start the
age of an assembly, and to start it anew after a message. -/
structure KcpClock where
  expire : ℚ
  start : ℚ
  restart : ℚ
  deriving DecidableEq

structure KcpReceiver where
  config : KcpConfig
  nextSequence : Nat
  pending : Dict Nat KcpSegment := ∅
  parts : List Bytes := []
  remaining : Option Nat := none
  bufferedBytes : Int := 0
  since : Option ℚ := none
  windowRejected : Nat := 0
  firstRejected : Option Nat := none
  lastRejected : Nat := 0
  closed : Bool := false

namespace KcpReceiver

/-- `KcpReceiver(…)`. -/
def new (config : KcpConfig) : KcpReceiver := { config := config, nextSequence := config.initialSequence }

def close (k : KcpReceiver) : KcpReceiver :=
  { k with closed := true, pending := ∅, parts := [], remaining := none, bufferedBytes := 0, since := none }

def availableWindow (k : KcpReceiver) : Int :=
  if k.closed then 0 else k.config.maxSegments - k.pending.size - k.parts.length

/-- `_reject_future`. -/
def rejectFuture (k : KcpReceiver) (sequence : Nat) : ReceiveResult × KcpReceiver :=
  ({ acknowledge := false, unacknowledged := k.nextSequence },
    { k with
      windowRejected := min KCP_MASK (k.windowRejected + 1)
      firstRejected := some (k.firstRejected.getD sequence)
      lastRejected := sequence })

/-- The counters a timeout reports. -/
def facts (k : KcpReceiver) : List (String × Int) :=
  [("kcp_next_sequence", k.nextSequence),
    ("kcp_pending", k.pending.size),
    ("kcp_parts", k.parts.length),
    ("kcp_gap", ((k.pending.keys.map fun seq => Serial.distance seq k.nextSequence).min?.getD 0 : Nat)),
    ("kcp_remaining", ((k.remaining.map (· + 1)).getD 0 : Nat)),
    ("kcp_bytes", k.bufferedBytes),
    ("kcp_window_rejected", k.windowRejected),
    ("kcp_first_rejected", (k.firstRejected.getD 0 : Nat)),
    ("kcp_last_rejected", k.lastRejected)]

/-- The age of the assembly in progress has reached the limit. -/
def Expired (k : KcpReceiver) (now : ℚ) : Prop := ∃ since ∈ k.since, k.config.timeout ≤ now - since

instance (k : KcpReceiver) (now : ℚ) : Decidable (k.Expired now) :=
  inferInstanceAs (Decidable (∃ since ∈ k.since, k.config.timeout ≤ now - since))

/-- `expire`: the failure and the receiver it leaves, or nothing. -/
def expire (k : KcpReceiver) (now : ℚ) : Except (KcpFault × KcpReceiver) Unit :=
  if k.closed then .error (.closed, k)
  else if k.Expired now then .error (.expired k.facts, k.close)
  else .ok ()

/-- The `while` loop of `receive`. A turn removes a pending segment, so their
number bounds the turns. -/
def drain : Nat → KcpReceiver → Except KcpFault (List Bytes) × KcpReceiver
  | 0, k => (.ok [], k)
  | fuel + 1, k =>
    match k.pending.get? k.nextSequence with
    | none => (.ok [], k)
    | some current =>
      let k := { k with pending := k.pending.erase k.nextSequence }
      if k.remaining.isSome ∧ k.remaining ≠ some current.fragment then (.error .chain, k.close)
      else
        let k := { k with
          parts := k.parts ++ [current.body]
          remaining := some (current.fragment - 1)
          nextSequence := (k.nextSequence + 1) % 2 ^ 32 }
        if current.fragment = 0 then
          let message := k.parts.flatten
          let r := drain fuel { k with
            bufferedBytes := k.bufferedBytes - message.length
            parts := []
            remaining := none }
          (r.1.map (message :: ·), r.2)
        else drain fuel k

/-- What is left to do once a segment is kept: the loop, and the age of what
is still being assembled. -/
def assemble (k : KcpReceiver) (clock : KcpClock) : Except KcpFault ReceiveResult × KcpReceiver :=
  match k.drain k.pending.size with
  | (.error e, k) => (.error e, k)
  | (.ok messages, k) =>
    let since :=
      if k.pending.size = 0 ∧ k.parts = [] then none
      else if messages ≠ [] then some clock.restart
      else k.since
    (.ok { acknowledge := true, unacknowledged := k.nextSequence, messages := messages },
      { k with since := since })

/-- `receive`, after `expire`. The tests of the source for the type and the
sign of a field are the types of this model. -/
def accept (k : KcpReceiver) (clock : KcpClock) (segment : KcpSegment) :
    Except KcpFault ReceiveResult × KcpReceiver :=
  if segment.conv ≠ k.config.conv ∨ segment.command ≠ KCP_PUSH then
    (.ok { acknowledge := false, unacknowledged := k.nextSequence }, k)
  else if KCP_MASK < segment.sequence ∨ k.config.maxSegments ≤ segment.fragment ∨
      KCP_MAX_BODY < segment.body.length then (.error .segment, k.close)
  else
    let distance := Serial.distance segment.sequence k.nextSequence
    if 0x80000000 ≤ distance then
      (.ok { acknowledge := true, unacknowledged := k.nextSequence }, k)
    else if k.config.maxSegments ≤ distance then
      let r := k.rejectFuture segment.sequence
      (.ok r.1, r.2)
    else
      match k.pending.get? segment.sequence with
      | some previous =>
        if previous.body ≠ segment.body ∨ previous.fragment ≠ segment.fragment then (.error .conflict, k.close)
        else (.ok { acknowledge := true, unacknowledged := k.nextSequence }, k)
      | none =>
        if distance ≠ 0 ∧ k.config.maxSegments ≤ k.pending.size + k.parts.length + 1 then
          let r := k.rejectFuture segment.sequence
          (.ok r.1, r.2)
        else if k.config.maxSegments ≤ k.pending.size + k.parts.length ∨
            k.config.maxBytes < k.bufferedBytes + segment.body.length then (.error .budget, k.close)
        else
          assemble { k with
            since := some (k.since.getD clock.start)
            pending := k.pending.set segment.sequence segment
            bufferedBytes := k.bufferedBytes + segment.body.length } clock

/-- `receive`. -/
def receive (k : KcpReceiver) (clock : KcpClock) (segment : KcpSegment) :
    Except KcpFault ReceiveResult × KcpReceiver :=
  match k.expire clock.expire with
  | .error (e, k) => (.error e, k)
  | .ok () => k.accept clock segment

end KcpReceiver

end CamGuard.Media
