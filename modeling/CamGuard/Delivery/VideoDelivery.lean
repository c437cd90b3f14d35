/-
The handoff of native video to one polling consumer (`video_delivery.py`): a
bounded queue behind the HEVC gate. What does not fit, or does not follow, empties
the queue and closes the gate until the next configured IDR. Every method runs
under one lock, so a call is one step.
-/
import CamGuard.Delivery.Hevc
import CamGuard.Media.V1

namespace CamGuard.Delivery

open CamGuard.Media (V1EncodingHeader V1Record)

def VIDEO_MAX_BYTES : Nat := 2 * 1024 * 1024
def MAX_FRAMES : Nat := 64

/-- `VideoFrame`. -/
structure VideoFrame where
  payload : Bytes
  timestamp : Nat
  width : Nat
  height : Nat
  epoch : Nat
  restartDecoder : Bool
  encoding : V1EncodingHeader
  deriving DecidableEq, Repr

/-- `VideoDelivery`: a bounded queue of frames behind the recovery gate. -/
structure VideoDelivery where
  frames : List VideoFrame := []
  bytes : Int := 0
  dimensions : Option (Nat × Nat) := none
  encoding : Option V1EncodingHeader := none
  gate : HevcRecovery := {}
  closed : Bool := false
  deriving DecidableEq, Repr

namespace VideoDelivery

/-- `_reset`. -/
def reset (v : VideoDelivery) : VideoDelivery :=
  { v with frames := [], bytes := 0, gate := v.gate.discontinuity }

/-- The part of `consume` for an encoding header; nothing where the header ends
the call. -/
def noteEncoding (v : VideoDelivery) (header : V1EncodingHeader) : VideoDelivery × Bool :=
  if header.videoCodec ≠ 5 ∨ ¬ (0 < header.videoWidth ∧ header.videoWidth ≤ 1920) ∨
      ¬ (0 < header.videoHeight ∧ header.videoHeight ≤ 1080) then
    ({ v.reset with dimensions := none, encoding := none }, false)
  else
    let dimensions := (header.videoWidth, header.videoHeight)
    let v := if some dimensions ≠ v.dimensions then v.reset else v
    ({ v with dimensions := some dimensions, encoding := some header }, true)

/-- The part of `consume` for a picture. -/
def queue (sha256 : Bytes → Bytes) (v : VideoDelivery) (video : Bytes) (timestamp : Nat) (dimensions : Nat × Nat)
    (encoding : V1EncodingHeader) : VideoDelivery :=
  if VIDEO_MAX_BYTES < video.length then v.reset
  else
    let v := if MAX_FRAMES ≤ v.frames.length ∨ (VIDEO_MAX_BYTES : Int) < v.bytes + video.length then v.reset else v
    let (decision, gate) := v.gate.inspect sha256 video timestamp
    let v := { v with gate := gate }
    if decision.emit = false then v.reset
    else
      let v := if decision.restartDecoder then { v with frames := [], bytes := 0 } else v
      { v with
        frames := v.frames ++ [⟨video, timestamp, dimensions.1, dimensions.2, decision.epoch, decision.restartDecoder,
          encoding⟩]
        bytes := v.bytes + video.length }

/-- `consume`. -/
def consume (sha256 : Bytes → Bytes) (v : VideoDelivery) (record : V1Record) : VideoDelivery :=
  if v.closed then v
  else
    let (v, goOn) :=
      match record.encoding with
      | none => (v, true)
      | some header => v.noteEncoding header
    if goOn = false ∨ record.video = [] then v
    else
      match v.dimensions, v.encoding with
      | some dimensions, some encoding => v.queue sha256 record.video record.videoTimestamp dimensions encoding
      | _, _ => v

/-- `take`. -/
def take (v : VideoDelivery) : Option VideoFrame × VideoDelivery :=
  match v.frames with
  | [] => (none, v)
  | frame :: frames => (some frame, { v with frames := frames, bytes := v.bytes - frame.payload.length })

/-- `resynchronize`. -/
def resynchronize (v : VideoDelivery) : VideoDelivery := v.reset

/-- `close`. -/
def close (v : VideoDelivery) : VideoDelivery :=
  { v.reset with closed := true, dimensions := none, encoding := none }

end VideoDelivery

end CamGuard.Delivery
