/-
The receiver together with a peer that keeps to the credit it was given.

The peer sends a fragment of its stream once some ACK or window report the
receiver has emitted allows it, `una + window` being past its position. What
is sent may arrive in any order, coalesced into frames with window probes,
more than once, or never; an answer may reach the peer late or never, so the
peer may go by any of them.
-/
import CamGuard.Media.KcpReceiveFacts
import CamGuard.Media.MediaReceive

namespace CamGuard.Media

/-- A segment on its way: a fragment of the stream, or a window probe. -/
inductive CreditItem where
  | push (position window timestamp unacknowledged : Nat)
  | probe (window timestamp sequence unacknowledged : Nat)

def CreditItem.segment (cfg : KcpConfig) (stream : KcpStream cfg.maxSegments) : CreditItem → KcpSegment
  | .push position window timestamp una =>
    let fragment := stream.fragments.getD position (0, [])
    { conv := cfg.conv
      command := KCP_PUSH
      fragment := fragment.1
      window := window
      timestamp := timestamp
      sequence := cfg.number position
      unacknowledged := una
      body := fragment.2 }
  | .probe window timestamp sequence una =>
    { conv := cfg.conv
      command := KCP_WASK
      fragment := 0
      window := window
      timestamp := timestamp
      sequence := sequence
      unacknowledged := una
      body := [] }

def CreditItem.positions : CreditItem → List Nat
  | .push position _ _ _ => [position]
  | .probe .. => []

/-- The last position up to `n` that has the number `una`. -/
def KcpConfig.position (cfg : KcpConfig) (n una : Nat) : Nat := n - Serial.distance (cfg.number n) una

/-- The position an answer allows the peer to send up to, `n` being consumed
when it was emitted. -/
def grantOf (cfg : KcpConfig) (n : Nat) (frame : Bytes) : Option Nat :=
  match parseKcpSegments frame with
  | .ok [g] => some (cfg.position n g.unacknowledged + g.window)
  | _ => none

/-- The two ends and what is on the wire between them. -/
structure CreditNet where
  media : MediaReceiver
  /-- The positions the peer has sent. -/
  sent : List Nat := []
  /-- The positions that have reached the receiver. -/
  arrived : List Nat := []
  /-- Every `una + window` the receiver has emitted, and the initial one. -/
  grants : List Nat

namespace CreditNet

def new (peer : Peer) (cfg : KcpConfig) : CreditNet where
  media := { peer := peer, receiver := .new cfg }
  grants := [128]

/-- The segments of the stream that have arrived without a gap. -/
def consumed (s : CreditNet) : Nat := Serial.contiguous s.arrived

/-- One segment reaches the receiver. -/
def take (cfg : KcpConfig) (stream : KcpStream cfg.maxSegments) (s : CreditNet)
    (item : KcpClock × CreditItem) : CreditNet :=
  match receiveOne s.media.receiver item.1 (item.2.segment cfg stream) with
  | (.error _, k) => { s with media := { s.media with receiver := k } }
  | (.ok batch, k) =>
    let arrived := item.2.positions ++ s.arrived
    { s with
      media := { s.media with receiver := k }
      arrived := arrived
      grants := batch.acknowledgements.filterMap (grantOf cfg (Serial.contiguous arrived)) ++ s.grants }

def takeAll (cfg : KcpConfig) (stream : KcpStream cfg.maxSegments) (s : CreditNet)
    (items : List (KcpClock × CreditItem)) : CreditNet := items.foldl (take cfg stream) s

/-- A fragment that arrives has been sent, and is recent enough in the sense
of `recent consumed position`. -/
def Allows (recent : Nat → Nat → Prop) (s : CreditNet) : CreditItem → Prop
  | .push position _ _ _ => position ∈ s.sent ∧ recent s.consumed position
  | .probe .. => True

def AllowsAll (cfg : KcpConfig) (stream : KcpStream cfg.maxSegments) (recent : Nat → Nat → Prop) :
    CreditNet → List (KcpClock × CreditItem) → Prop
  | _, [] => True
  | s, item :: items => s.Allows recent item.2 ∧ AllowsAll cfg stream recent (s.take cfg stream item) items

/-- A frame from the peer, on its way. -/
structure Frame (cfg : KcpConfig) (stream : KcpStream cfg.maxSegments) where
  now : ℚ
  clocks : Nat → KcpClock
  wire : Bytes
  items : List CreditItem
  parses : parseKcpSegments wire = .ok (items.map (CreditItem.segment cfg stream))

namespace Frame

variable {cfg : KcpConfig} {stream : KcpStream cfg.maxSegments}

def timed (f : Frame cfg stream) : List (KcpClock × CreditItem) := f.items.mapIdx fun j item => (f.clocks j, item)

/-- The call the frame leads to. -/
def call (f : Frame cfg stream) (s : CreditNet) : Except MediaFault MediaReceiveBatch × MediaReceiver :=
  s.media.receive f.now f.clocks f.wire s.media.peer

/-- What the frame may be: fragments that are allowed, and no assembly too
old. -/
def Admitted (recent : Nat → Nat → Prop) (f : Frame cfg stream) (s : CreditNet) : Prop :=
  AllowsAll cfg stream recent s f.timed ∧ ∀ facts, (f.call s).1 ≠ .error (.kcp (.expired facts))

end Frame

/-- Every order of sends and deliveries. -/
inductive Reachable (cfg : KcpConfig) (stream : KcpStream cfg.maxSegments) (peer : Peer)
    (recent : Nat → Nat → Prop) : CreditNet → Prop where
  | new : Reachable cfg stream peer recent (new peer cfg)
  | send {s : CreditNet} {i : Nat} (h : Reachable cfg stream peer recent s) (hi : i < stream.fragments.length)
      (hg : ∃ g ∈ s.grants, i < g) : Reachable cfg stream peer recent { s with sent := i :: s.sent }
  | deliver {s : CreditNet} {f : Frame cfg stream} (h : Reachable cfg stream peer recent s)
      (hf : f.Admitted recent s) :
      Reachable cfg stream peer recent { s.takeAll cfg stream f.timed with media := (f.call s).2 }

end CreditNet

/-- The frame that answers an item: an ACK of its segment, or a report. -/
def Answers (cfg : KcpConfig) (item : CreditItem) (frame : Bytes) : Prop :=
  ∃ g, parseKcpSegments frame = .ok [g] ∧ g.conv = cfg.conv ∧
    match item with
    | .push position _ timestamp _ =>
      g.command = KCP_ACK ∧ g.sequence = cfg.number position ∧ g.timestamp = timestamp % 2 ^ 32
    | .probe .. => g.command = KCP_WINS

end CamGuard.Media
