/-
StreamPipe V1 records: the receiver (`v1_receive.py`) and the builders and
header codec it shares with the talk path (`stream_protocol.py`).

A record is a 28-byte header. A marker `0x01xx` makes it an encoding header,
complete in itself; markers 0 and 8 make it an audio/video record whose
header is followed by a table of audio sizes, the audio frames and the video
payload.
-/
import CamGuard.Lib.Bytes
import CamGuard.Lib.Framing

namespace CamGuard.Media

def V1_MAGIC : Bytes := [0xff, 0xff, 0xff, 0x88]
@[simp] theorem length_V1_MAGIC : V1_MAGIC.length = 4 := by simp [V1_MAGIC]

def MAX_RECORD : Nat := 1024 * 1024
def MAX_CHUNK : Nat := 65535
def MAX_AUDIO_FRAMES : Nat := 256

/-- `V1EncodingHeader`. -/
structure V1EncodingHeader where
  marker : Nat
  audioCodec : Nat
  audioCodecOption : Nat
  audioChannels : Nat
  audioBitWidth : Nat
  audioSampleRate : Nat
  audioFrameSize : Nat
  videoCodec : Nat
  videoFrameRate : Nat
  videoWidth : Nat
  videoHeight : Nat
  deriving DecidableEq, Repr

/-- `V1Record`. -/
structure V1Record where
  encoding : Option V1EncodingHeader := none
  audio : List Bytes := []
  video : Bytes := []
  audioTimestamp : Nat := 0
  videoTimestamp : Nat := 0
  deriving DecidableEq, Repr

/-- `unpack_v1_encoding_header`; each refusal is a `ValueError`. -/
def unpackV1EncodingHeader (frame : Bytes) : Except String V1EncodingHeader :=
  let marker := frame.field 2 4
  if frame.length ≠ 28 ∨ frame.slice 0 4 ≠ V1_MAGIC then .error "not a complete v1 encoding header"
  else if marker >>> 8 ≠ 1 ∨ frame.slice 6 2 ≠ [0, 0] then .error "invalid v1 encoding-header marker"
  else if frame.at_ 10 ≠ 0 ∧ frame.at_ 10 ≠ 1 then .error "invalid v1 audio channel encoding"
  else .ok {
    marker := marker
    audioCodec := frame.at_ 8
    audioCodecOption := frame.at_ 9
    audioChannels := frame.at_ 10 + 1
    audioBitWidth := (frame.at_ 11 + 1) * 8
    audioSampleRate := frame.field 4 12
    audioFrameSize := frame.field 2 16
    videoCodec := frame.at_ 18
    videoFrameRate := frame.at_ 19
    videoWidth := frame.field 4 20
    videoHeight := frame.field 4 24 }

/-- Why `build_v1_audio_packet` refuses. -/
inductive AudioPacketFault where
  | none_
  | count
  | frame
  deriving DecidableEq, Repr

def AudioPacketFault.reason : AudioPacketFault → String
  | .none_ => "at least one audio frame is required"
  | .count => "too many audio frames"
  | .frame => "audio frames must contain 1..65535 bytes"

/-- `struct.pack_into("<H", …, len(frame))` for each frame in turn. -/
def audioTable (frames : List Bytes) : Bytes := (frames.map fun frame => Bytes.ofNat 2 frame.length).flatten

/-- `build_v1_audio_packet`. The two Python masks reduce any integer, so the
marker and the timestamp are integers. -/
def buildV1AudioPacket (frames : List Bytes) (timestamp : Int) (recordMarker : Int := 0) :
    Except AudioPacketFault Bytes :=
  if frames = [] then .error .none_
  else if 0xFFFF < frames.length then .error .count
  else if frames.any (fun frame => frame = [] ∨ 0xFFFF < frame.length) then .error .frame
  else .ok (V1_MAGIC ++ Bytes.ofNat 2 (recordMarker % 2 ^ 16).toNat ++ Bytes.ofNat 2 frames.length ++
    Bytes.zeros 12 ++ Bytes.ofNat 8 (timestamp % 2 ^ 64).toNat ++ audioTable frames ++ frames.flatten)

/-! ## The receiver -/

/-- The errors of the V1 stream. -/
inductive V1Fault where
  | closed
  | budget
  | boundary
  | encodingHeader
  | recordType
  | recordSize
  | frameSize
  deriving DecidableEq, Repr

def V1Fault.reason : V1Fault → String
  | .closed => "V1 receiver is closed"
  | .budget => "V1 input budget exceeded"
  | .boundary => "V1 record boundary mismatch"
  | .encodingHeader => "invalid V1 encoding header"
  | .recordType => "unsupported V1 record type or audio count"
  | .recordSize => "V1 record size exceeds budget"
  | .frameSize => "invalid V1 audio frame size"

/-- What the 28 header bytes say: a failure, a whole encoding record, or the
numbers of an audio/video record. -/
inductive V1Head where
  | bad (e : V1Fault)
  | encoding (header : V1EncodingHeader)
  | av (count videoSize videoTimestamp audioTimestamp : Nat)

/-- The part of the loop that reads the header alone. -/
def readV1Head (header : Bytes) : V1Head :=
  if header.slice 0 4 ≠ V1_MAGIC then .bad .boundary
  else
    let marker := header.field 2 4
    let count := header.field 2 6
    if marker >>> 8 = 1 then
      match unpackV1EncodingHeader header with
      | .ok encoding => .encoding encoding
      | .error _ => .bad .encodingHeader
    else if (marker ≠ 0 ∧ marker ≠ 8) ∨ MAX_AUDIO_FRAMES < count then .bad .recordType
    else
      let videoSize := header.field 4 8
      if MAX_RECORD < 28 + count * 2 + videoSize then .bad .recordSize
      else .av count videoSize (header.field 8 12) (header.field 8 20)

/-- The little-endian 16-bit sizes in the table. -/
def audioSizes : Nat → Bytes → List Nat
  | 0, _ => []
  | count + 1, table => table.field 2 0 :: audioSizes count (table.drop 2)

/-- The frames of the given sizes, from the front of `b`. -/
def takeFrames : List Nat → Bytes → List Bytes
  | [], _ => []
  | size :: sizes, b => b.take size :: takeFrames sizes (b.drop size)

/-- One turn of the loop of `feed`, on the bytes from `cursor` on. -/
def v1View (unread : Bytes) : Framing.Verdict V1Record V1Fault :=
  if unread.length < 28 then .wait
  else
    match readV1Head (unread.take 28) with
    | .bad e => .bad e
    | .encoding header => .record { encoding := some header } 28
    | .av count videoSize videoTimestamp audioTimestamp =>
      let descriptors := 28 + count * 2
      if unread.length < descriptors then .wait
      else
        let sizes := audioSizes count (unread.slice 28 (count * 2))
        if 0 ∈ sizes then .bad .frameSize
        else
          let total := descriptors + sizes.sum + videoSize
          if MAX_RECORD < total then .bad .recordSize
          else if unread.length < total then .wait
          else
            let body : Bytes := unread.slice descriptors (sizes.sum + videoSize)
            .record {
              audio := takeFrames sizes body
              video := body.drop sizes.sum
              audioTimestamp := audioTimestamp
              videoTimestamp := videoTimestamp } total

theorem readV1Head_av {header : Bytes} {count videoSize vts ats : Nat}
    (h : readV1Head header = .av count videoSize vts ats) : 28 + count * 2 + videoSize ≤ MAX_RECORD := by
  simp only [readV1Head] at h
  split at h
  · cases h
  split at h
  · split at h <;> cases h
  split at h
  · cases h
  split at h
  · cases h
  · cases h; omega

theorem v1View_size {unread : Bytes} {r : V1Record} {n : Nat} (h : v1View unread = .record r n) :
    28 ≤ n ∧ n ≤ unread.length ∧ n ≤ MAX_RECORD := by
  simp only [v1View] at h
  split at h
  · cases h
  split at h
  · cases h
  · cases h
    exact ⟨Nat.le_refl _, by omega, by decide⟩
  split at h
  · cases h
  split at h
  · cases h
  split at h
  · cases h
  split at h
  · cases h
  · cases h
    omega

/-- A stream the loop waits on is shorter than one record. -/
theorem v1View_wait {unread : Bytes} (h : v1View unread = .wait) : unread.length < MAX_RECORD := by
  simp only [v1View] at h
  split at h
  · simp only [MAX_RECORD]; omega
  split at h
  · cases h
  · cases h
  rename_i hhead
  have := readV1Head_av hhead
  split at h
  · omega
  split at h
  · cases h
  split at h
  · cases h
  split at h
  · omega
  · cases h

theorem v1View_stable {b : Bytes} (c : Bytes) (h : v1View b ≠ .wait) : v1View (b ++ c) = v1View b := by
  simp only [v1View] at h ⊢
  split at h
  · exact absurd rfl h
  rename_i h28
  have h28c : ¬ (b ++ c).length < 28 := by simp only [List.length_append]; omega
  rw [if_neg h28, if_neg h28c, List.take_append_of_le_length (by omega)]
  split at h
  · rfl
  · rfl
  rename_i count videoSize vts ats hhead
  split at h
  · exact absurd rfl h
  rename_i hdesc
  have hdescc : ¬ (b ++ c).length < 28 + count * 2 := by simp only [List.length_append]; omega
  rw [if_neg hdesc, if_neg hdescc, Bytes.slice_append_left (show 28 + count * 2 ≤ b.length by omega)]
  split
  · rfl
  rename_i hzero
  rw [if_neg hzero] at h
  split
  · rfl
  rename_i hmax
  rw [if_neg hmax] at h
  split at h
  · exact absurd rfl h
  rename_i htotal
  have htotalc : ¬ (b ++ c).length <
      28 + count * 2 + (audioSizes count (b.slice 28 (count * 2))).sum + videoSize := by
    simp only [List.length_append]; omega
  rw [if_neg htotal, if_neg htotalc, Bytes.slice_append_left (by omega)]

/-- A record is decided as soon as its own bytes are there. -/
theorem v1View_settled {b c : Bytes} {r : V1Record} {n : Nat} (h : v1View (b ++ c) = .record r n)
    (hn : n ≤ b.length) : v1View b ≠ .wait := by
  have hlo := (v1View_size h).1
  simp only [v1View] at h ⊢
  have h28c : ¬ (b ++ c).length < 28 := by simp only [List.length_append]; omega
  rw [if_neg h28c, List.take_append_of_le_length (by omega)] at h
  rw [if_neg (show ¬ b.length < 28 by omega)]
  split at h
  · simp
  · simp
  rename_i count videoSize vts ats hhead
  split at h
  · cases h
  split at h
  · cases h
  split at h
  · cases h
  split at h
  · cases h
  rename_i hdesc hzero hmax htotal
  simp only [Framing.Verdict.record.injEq] at h
  obtain ⟨-, hsize⟩ := h
  have hd : 28 + count * 2 ≤ b.length := by omega
  rw [Bytes.slice_append_left hd] at hzero hmax hsize
  rw [if_neg (show ¬ b.length < 28 + count * 2 by omega), if_neg hzero, if_neg hmax, if_neg (by omega)]
  simp

/-- The rule the receiver cuts records by. -/
def v1Rule : Framing.Rule UInt8 V1Record V1Fault where
  view := v1View
  view_nil := rfl
  size_pos h := by have := v1View_size h; omega
  size_le h := (v1View_size h).2.1
  stable := v1View_stable
  local_ {b r n} h := by
    have hsplit : b.take n ++ b.drop n = b := List.take_append_drop n b
    have hset : v1View (b.take n) ≠ .wait :=
      v1View_settled (c := b.drop n) (by rw [hsplit]; exact h) (by simp [(v1View_size h).2.1])
    rw [← v1View_stable (b.drop n) hset, hsplit, h]

/-- `V1Receiver`. -/
structure V1Receiver where
  buffer : Bytes := []
  closed : Bool := false
  deriving DecidableEq, Repr

namespace V1Receiver

def close (_ : V1Receiver) : V1Receiver := { buffer := [], closed := true }

/-- `feed`: the `while` loop is a scan by `v1Rule`, and a failure drops what
this feed had cut. -/
def feed (v : V1Receiver) (payload : Bytes) : Except V1Fault (List V1Record) × V1Receiver :=
  if v.closed then (.error .closed, v)
  else if MAX_CHUNK < payload.length ∨ MAX_RECORD + MAX_CHUNK < v.buffer.length + payload.length then
    (.error .budget, v.close)
  else
    match v1Rule.scan (v.buffer ++ payload) with
    | (records, .ok rest) => (.ok records, { v with buffer := rest })
    | (_, .error e) => (.error e, v.close)

/-- The outcomes of feeding chunks in order, and the receiver after them. -/
def run : V1Receiver → List Bytes → List (Except V1Fault (List V1Record)) × V1Receiver
  | v, [] => ([], v)
  | v, c :: cs =>
    let r := v.feed c
    let t := run r.2 cs
    (r.1 :: t.1, t.2)

end V1Receiver

/-- The records a sequence of feeds returned. -/
def returned (outcomes : List (Except V1Fault (List V1Record))) : List V1Record :=
  (outcomes.map fun o => o.toOption.getD []).flatten

/-- Some feed of the sequence failed. -/
def failed (outcomes : List (Except V1Fault (List V1Record))) : Bool :=
  outcomes.any fun o => o.toOption.isNone

@[simp] theorem returned_cons_ok (records : List V1Record) (os : List (Except V1Fault (List V1Record))) :
    returned (.ok records :: os) = records ++ returned os := rfl

@[simp] theorem returned_cons_error (e : V1Fault) (os : List (Except V1Fault (List V1Record))) :
    returned (.error e :: os) = returned os := rfl

@[simp] theorem failed_cons_ok (records : List V1Record) (os : List (Except V1Fault (List V1Record))) :
    failed (.ok records :: os) = failed os := by simp [failed, Except.toOption]

@[simp] theorem failed_cons_error (e : V1Fault) (os : List (Except V1Fault (List V1Record))) :
    failed (.error e :: os) = true := by simp [failed, Except.toOption]

end CamGuard.Media
