/-
The two senders of talk audio (`audio_sender.py`, `modern_audio_sender.py`): one
frame per packet for the legacy session, bursts of four for the modern one.

A frame is accepted when it is counted as requested; the log says so. The pauses
between the frames leave no other trace than the readings of the clock.
-/
import CamGuard.Talk.TalkSocket

namespace CamGuard.Talk

open CamGuard.Media

def AMR_MODE_7_TOC : Nat := 0x3C
def AMR_MODE_7_FRAME_BYTES : Nat := 32
def FRAME_INTERVAL_SECONDS : ℚ := 20 / 1000
def MAX_AUDIO_FRAMES : Nat := 500
def MAX_TRANSPORT_SLACK_SECONDS : ℚ := 2
def NATIVE_BATCH_THRESHOLD_US : Nat := 64000
def AMR_FRAME_DURATION_US : Nat := 20000

/-- `AudioSendResult`. -/
structure AudioSendResult where
  requestedFrames : Nat
  sentFrames : Nat
  acknowledgedFrames : Nat
  nextSequence : Nat
  aborted : Bool
  deriving DecidableEq, Repr

def AudioSendResult.completed (r : AudioSendResult) : Bool :=
  decide (0 < r.requestedFrames ∧ r.sentFrames = r.requestedFrames ∧ r.acknowledgedFrames = r.requestedFrames) &&
    !r.aborted

/-- `validate_amr_audio_frame` lets it through. -/
def AmrFrame (frame : Bytes) : Prop := frame.length = AMR_MODE_7_FRAME_BYTES ∧ frame.at_ 0 = AMR_MODE_7_TOC

instance (frame : Bytes) : Decidable (AmrFrame frame) := inferInstanceAs (Decidable (_ ∧ _))

/-- What both senders keep. -/
structure AudioSender where
  peer : Peer
  conv : Nat
  cookie : Bytes
  sequence : Nat
  boundedTimeout : ℚ
  maxFrames : Int
  sessionDeadline : ℚ
  lastSendAt : Option ℚ := none
  requestedFrames : Nat := 0
  sentFrames : Nat := 0
  acknowledgedFrames : Nat := 0
  aborted : Bool := false
  closed : Bool := false

namespace AudioSender

variable (env : TalkEnv)

/-- `__init__` of either, with its text. -/
def new (reason : String) (peer : Peer) (conv : Nat) (cookie : Bytes) (sequence : Nat) (timeout : ℚ) (maxFrames : Int)
    (t : TalkSocket) : Except TalkFault AudioSender × TalkSocket :=
  if ¬(1 ≤ maxFrames ∧ maxFrames ≤ MAX_AUDIO_FRAMES) then (.error (.value reason), t)
  else
    let (now, t) := t.monotonic env
    (.ok {
      peer := peer
      conv := conv
      cookie := cookie
      sequence := sequence
      boundedTimeout := max (1 / 10) (min timeout 2)
      maxFrames := maxFrames
      sessionDeadline := now + maxFrames * FRAME_INTERVAL_SECONDS + MAX_TRANSPORT_SLACK_SECONDS }, t)

def result (s : AudioSender) (expectedFrames : Option Nat := none) : AudioSendResult :=
  ⟨expectedFrames.getD s.requestedFrames, s.sentFrames, s.acknowledgedFrames, s.sequence, s.aborted⟩

/-- The refusals that both make, with the texts of each. -/
inductive Admission where
  | refused (e : TalkFault)
  | late
  | admitted
  deriving DecidableEq

/-- The checks at the head of `send`. -/
def vet (name : String) (frame : Bytes) (t : TalkSocket) (s : AudioSender) : Admission × TalkSocket :=
  if s.closed then (.refused (.runtime (name ++ " talk sender is closed")), t)
  else if s.aborted then (.refused (.runtime (name ++ " talk sender has aborted")), t)
  else if s.maxFrames ≤ s.requestedFrames then
    (.refused (.value (name ++ " talk audio exceeds the configured safety bound")), t)
  else if ¬AmrFrame frame then (.refused (.value "talk audio requires a complete AMR-NB mode-7 frame"), t)
  else
    let (now, t) := t.monotonic env
    (if s.sessionDeadline ≤ now then .late else .admitted, t)

/-- The pause before a frame: it reads the clock if there was one before. -/
def pace (t : TalkSocket) (s : AudioSender) : TalkSocket :=
  if s.lastSendAt.isSome then (t.monotonic env).2 else t

/-- The frame is counted, at the time it is. -/
def accept (frame : Bytes) (t : TalkSocket) (s : AudioSender) : TalkSocket × AudioSender :=
  let (now, t) := (s.pace env t).monotonic env
  (t.note (.accepted frame), { s with requestedFrames := s.requestedFrames + 1, lastSendAt := some now })

/-- A packet of frames for the camera: built, sent up to three times, and counted. -/
def sendPacket (frames : List Bytes) (timestamp : Nat) (t : TalkSocket) (s : AudioSender) :
    Except TalkFault Bool × TalkSocket × AudioSender :=
  match buildV1AudioPacket frames timestamp with
  | .error e => (.error (.packet e), t, s)
  | .ok packet =>
    match encryptMediaTlv packet s.cookie with
    | .error e => (.error (.tlv e), t, s)
    | .ok media =>
      match t.buildPush env s.conv s.sequence media with
      | (.error e, t) => (.error e, t, s)
      | (.ok packet, t) =>
        match t.sendUntil env s.peer s.boundedTimeout s.sessionDeadline packet 3 with
        | (.error e, t) => (.error e, t, s)
        | (.ok acknowledged, t) =>
          let s := { s with sentFrames := s.sentFrames + frames.length, sequence := s.sequence + 1 }
          if acknowledged = false then (.ok false, t, { s with aborted := true })
          else (.ok true, t, { s with acknowledgedFrames := s.acknowledgedFrames + frames.length })

end AudioSender

/-! ## The legacy sender -/

/-- `LegacyAudioSender`. -/
abbrev LegacyAudioSender := AudioSender

namespace LegacyAudioSender

variable (env : TalkEnv)

def new (peer : Peer) (conv : Nat) (cookie : Bytes) (sequence : Nat) (timeout : ℚ) (maxFrames : Int) (t : TalkSocket) :
    Except TalkFault LegacyAudioSender × TalkSocket :=
  AudioSender.new env "legacy talk frame bound must be between one and 500" peer conv cookie sequence timeout maxFrames t

def send (frame : Bytes) (t : TalkSocket) (s : LegacyAudioSender) :
    Except TalkFault Bool × TalkSocket × LegacyAudioSender :=
  match AudioSender.vet env "legacy" frame t s with
  | (.refused e, t) => (.error e, t, s)
  | (.late, t) => (.ok false, t, { s with aborted := true })
  | (.admitted, t) =>
    let timestamp := s.requestedFrames * 20
    let (t, s) := AudioSender.accept env frame t s
    AudioSender.sendPacket env [frame] timestamp t s

def close (s : LegacyAudioSender) : AudioSendResult × LegacyAudioSender := (s.result, { s with closed := true })

end LegacyAudioSender

/-! ## The modern sender -/

/-- `ModernAudioSender`: the burst that is collected, and what it says to the camera
as the time of its first frame. -/
structure ModernAudioSender extends AudioSender where
  pending : List Bytes := []
  pendingTimestampUs : Option Nat := none

namespace ModernAudioSender

variable (env : TalkEnv)

def new (peer : Peer) (conv : Nat) (cookie : Bytes) (sequence : Nat) (timeout : ℚ) (maxFrames : Int) (t : TalkSocket) :
    Except TalkFault ModernAudioSender × TalkSocket :=
  match AudioSender.new env "modern talk frame bound must be between one and 500" peer conv cookie sequence timeout
    maxFrames t with
  | (.error e, t) => (.error e, t)
  | (.ok s, t) => (.ok { s with }, t)

/-- `_flush`. -/
def flush (t : TalkSocket) (s : ModernAudioSender) : Except TalkFault Bool × TalkSocket × ModernAudioSender :=
  if s.pending = [] then (.ok true, t, s)
  else
    match s.pendingTimestampUs with
    | none => (.error .assertion, t, s)
    | some timestamp =>
      let (answer, t, sender) := s.toAudioSender.sendPacket env s.pending timestamp t
      (answer, t, { sender with pending := [], pendingTimestampUs := none })

/-- The frame joins the burst; the first one dates it. -/
def collect (frame : Bytes) (t : TalkSocket) (s : ModernAudioSender) : TalkSocket × ModernAudioSender :=
  let (t, sender) := s.toAudioSender.accept env frame t
  if s.pending = [] then
    let (timestamp, t) := t.stampUs env
    (t, { sender with pending := [frame], pendingTimestampUs := some timestamp })
  else (t, { sender with pending := s.pending ++ [frame], pendingTimestampUs := s.pendingTimestampUs })

def send (frame : Bytes) (t : TalkSocket) (s : ModernAudioSender) :
    Except TalkFault Bool × TalkSocket × ModernAudioSender :=
  match s.toAudioSender.vet env "modern" frame t with
  | (.refused e, t) => (.error e, t, s)
  | (.late, t) => (.ok false, t, { s with aborted := true })
  | (.admitted, t) =>
    let (t, s) := s.collect env frame t
    if s.pending.length * AMR_FRAME_DURATION_US < NATIVE_BATCH_THRESHOLD_US then (.ok true, t, s)
    else s.flush env t

def close (t : TalkSocket) (s : ModernAudioSender) :
    Except TalkFault AudioSendResult × TalkSocket × ModernAudioSender :=
  if s.closed = false ∧ s.aborted = false then
    match s.flush env t with
    | (.error e, t, s) => (.error e, t, s)
    | (.ok _, t, s) => (.ok s.result, t, { s with closed := true })
  else (.ok s.result, t, { s with closed := true })

end ModernAudioSender

end CamGuard.Talk
