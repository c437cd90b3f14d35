/-
The V1 stream does not depend on how it is cut into chunks.

`V1Item` is a record on the wire, encoding header or audio/video, and
`V1Item.bytes` its layout, written here once for both the camera's headers and
the packets `buildV1AudioPacket` makes. `V1Item.encodes` is the one fact about
the layout: the receiver's rule reads an item's bytes back as its record.
Everything else is `Framing`.

A feed that meets a malformed record answers the failure alone: the records it
had already cut in the same chunk are dropped with it (`run_fail_at`).
So on a malformed stream the splits agree on the failure, and on the records
up to the chunk that fails, but not on the records inside that chunk.
-/
import CamGuard.Media.V1

namespace CamGuard.Media

open Framing

/-- A record on the wire. -/
inductive V1Item where
  | header (h : V1EncodingHeader)
  | av (marker : Nat) (audio : List Bytes) (video : Bytes) (audioTimestamp videoTimestamp : Nat)
  deriving DecidableEq, Repr

namespace V1Item

/-- The record the receiver should return for an item. -/
def record : V1Item → V1Record
  | .header h => { encoding := some h }
  | .av _ audio video ats vts =>
    { audio := audio, video := video, audioTimestamp := ats, videoTimestamp := vts }

/-- The 28 bytes every record begins with. -/
def head : V1Item → Bytes
  | .header h =>
    V1_MAGIC ++ Bytes.ofNat 2 h.marker ++ Bytes.zeros 2 ++ Bytes.ofNat 1 h.audioCodec ++
      Bytes.ofNat 1 h.audioCodecOption ++ Bytes.ofNat 1 (h.audioChannels - 1) ++
      Bytes.ofNat 1 (h.audioBitWidth / 8 - 1) ++ Bytes.ofNat 4 h.audioSampleRate ++
      Bytes.ofNat 2 h.audioFrameSize ++ Bytes.ofNat 1 h.videoCodec ++ Bytes.ofNat 1 h.videoFrameRate ++
      Bytes.ofNat 4 h.videoWidth ++ Bytes.ofNat 4 h.videoHeight
  | .av marker audio video ats vts =>
    V1_MAGIC ++ Bytes.ofNat 2 marker ++ Bytes.ofNat 2 audio.length ++ Bytes.ofNat 4 video.length ++
      Bytes.ofNat 8 vts ++ Bytes.ofNat 8 ats

/-- The bytes after the header. -/
def tail : V1Item → Bytes
  | .header _ => []
  | .av _ audio video _ _ => audioTable audio ++ (audio.flatten ++ video)

def bytes (item : V1Item) : Bytes := item.head ++ item.tail

/-- The values the layout can carry and the receiver admits. -/
def Valid : V1Item → Prop
  | .header h =>
    h.marker >>> 8 = 1 ∧ h.audioCodec < 256 ∧ h.audioCodecOption < 256 ∧
      (h.audioChannels = 1 ∨ h.audioChannels = 2) ∧
      (8 ∣ h.audioBitWidth ∧ 8 ≤ h.audioBitWidth ∧ h.audioBitWidth ≤ 2048) ∧
      h.audioSampleRate < 2 ^ 32 ∧ h.audioFrameSize < 2 ^ 16 ∧ h.videoCodec < 256 ∧ h.videoFrameRate < 256 ∧
      h.videoWidth < 2 ^ 32 ∧ h.videoHeight < 2 ^ 32
  | .av marker audio video ats vts =>
    (marker = 0 ∨ marker = 8) ∧ audio.length ≤ MAX_AUDIO_FRAMES ∧
      (∀ frame ∈ audio, frame ≠ [] ∧ frame.length ≤ 0xFFFF) ∧
      28 + audio.length * 2 + audio.flatten.length + video.length ≤ MAX_RECORD ∧
      ats < 2 ^ 64 ∧ vts < 2 ^ 64

/-! ## The layout reads back -/

@[simp] theorem length_head (item : V1Item) : item.head.length = 28 := by
  cases item <;> simp [head]

theorem magic_head (item : V1Item) : item.head.slice 0 4 = V1_MAGIC := by
  cases item <;> simp (disch := simp) only [head, Bytes.slice_append_left] <;> decide

theorem fields_header (h : V1EncodingHeader) :
    (V1Item.header h).head.field 2 4 = h.marker % 256 ^ 2 ∧ (V1Item.header h).head.slice 6 2 = [0, 0] ∧
      (V1Item.header h).head.field 1 8 = h.audioCodec % 256 ^ 1 ∧
      (V1Item.header h).head.field 1 9 = h.audioCodecOption % 256 ^ 1 ∧
      (V1Item.header h).head.field 1 10 = (h.audioChannels - 1) % 256 ^ 1 ∧
      (V1Item.header h).head.field 1 11 = (h.audioBitWidth / 8 - 1) % 256 ^ 1 ∧
      (V1Item.header h).head.field 4 12 = h.audioSampleRate % 256 ^ 4 ∧
      (V1Item.header h).head.field 2 16 = h.audioFrameSize % 256 ^ 2 ∧
      (V1Item.header h).head.field 1 18 = h.videoCodec % 256 ^ 1 ∧
      (V1Item.header h).head.field 1 19 = h.videoFrameRate % 256 ^ 1 ∧
      (V1Item.header h).head.field 4 20 = h.videoWidth % 256 ^ 4 ∧
      (V1Item.header h).head.field 4 24 = h.videoHeight % 256 ^ 4 := by
  refine ⟨?_, ?_, ?_, ?_, ?_, ?_, ?_, ?_, ?_, ?_, ?_, ?_⟩
  case refine_2 =>
    simp (disch := simp) only [head, Bytes.slice_append_left, Bytes.slice_append_right]
    simp [Bytes.slice, Bytes.zeros]
  all_goals
    simp (disch := simp) only [head, Bytes.field_append_left, Bytes.field_append_right]
    simp

theorem unpack_head {h : V1EncodingHeader} (hv : (V1Item.header h).Valid) :
    unpackV1EncodingHeader (V1Item.header h).head = .ok h := by
  obtain ⟨hmark, hcodec, hopt, hchan, ⟨hdvd, hlo, hhi⟩, hrate, hsize, hvc, hfps, hw, hh⟩ := hv
  obtain ⟨f4, f6, f8, f9, f10, f11, f12, f16, f18, f19, f20, f24⟩ := fields_header h
  have hmarklt : h.marker < 256 ^ 2 := by rw [Nat.shiftRight_eq_div_pow] at hmark; omega
  rw [Nat.mod_eq_of_lt hmarklt] at f4
  rw [Nat.mod_eq_of_lt (by omega)] at f8 f9 f10 f11 f12 f16 f18 f19 f20 f24
  have hch : h.audioChannels - 1 + 1 = h.audioChannels := by omega
  have hbw : (h.audioBitWidth / 8 - 1 + 1) * 8 = h.audioBitWidth := by omega
  simp only [unpackV1EncodingHeader, length_head, magic_head, Bytes.at_eq_field, f4, f6, f8, f9, f10, f11,
    f12, f16, f18, f19, f20, f24, hmark, hch, hbw, ne_eq, not_true, or_self, if_false]
  rw [if_neg (by omega)]

theorem readV1Head_header {h : V1EncodingHeader} (hv : (V1Item.header h).Valid) :
    readV1Head (V1Item.header h).head = .encoding h := by
  have f4 := (fields_header h).1
  have hmark := hv.1
  have hmarklt : h.marker < 256 ^ 2 := by rw [Nat.shiftRight_eq_div_pow] at hmark; omega
  rw [Nat.mod_eq_of_lt hmarklt] at f4
  simp only [readV1Head, magic_head, f4, hmark, unpack_head hv, ne_eq, not_true, if_false, if_true]

theorem readV1Head_av_head {marker : Nat} {audio : List Bytes} {video : Bytes} {ats vts : Nat}
    (hv : (V1Item.av marker audio video ats vts).Valid) :
    readV1Head (V1Item.av marker audio video ats vts).head = .av audio.length video.length vts ats := by
  obtain ⟨hmark, hcount, -, hsize, hats, hvts⟩ := hv
  simp only [MAX_AUDIO_FRAMES, MAX_RECORD] at hcount hsize
  have f4 : (V1Item.av marker audio video ats vts).head.field 2 4 = marker % 256 ^ 2 := by
    simp (disch := simp) only [head, Bytes.field_append_left, Bytes.field_append_right]; simp
  have f6 : (V1Item.av marker audio video ats vts).head.field 2 6 = audio.length % 256 ^ 2 := by
    simp (disch := simp) only [head, Bytes.field_append_left, Bytes.field_append_right]; simp
  have f8 : (V1Item.av marker audio video ats vts).head.field 4 8 = video.length % 256 ^ 4 := by
    simp (disch := simp) only [head, Bytes.field_append_left, Bytes.field_append_right]; simp
  have f12 : (V1Item.av marker audio video ats vts).head.field 8 12 = vts % 256 ^ 8 := by
    simp (disch := simp) only [head, Bytes.field_append_left, Bytes.field_append_right]; simp
  have f20 : (V1Item.av marker audio video ats vts).head.field 8 20 = ats % 256 ^ 8 := by
    simp (disch := simp) only [head, Bytes.field_append_right]; simp
  rw [Nat.mod_eq_of_lt (by omega)] at f4 f6 f8 f12 f20
  have hnot : ¬ marker >>> 8 = 1 := by rcases hmark with rfl | rfl <;> decide
  simp only [readV1Head, magic_head, f4, f6, f8, f12, f20, hnot, ne_eq, not_true, if_false, MAX_AUDIO_FRAMES,
    MAX_RECORD]
  rw [if_neg (by omega), if_neg (by omega)]

@[simp] theorem length_audioTable (frames : List Bytes) : (audioTable frames).length = frames.length * 2 := by
  induction frames with
  | nil => rfl
  | cons frame frames ih =>
    simp only [audioTable, List.map_cons, List.flatten_cons, List.length_append, Bytes.length_ofNat,
      List.length_cons] at ih ⊢
    omega

theorem audioSizes_audioTable {frames : List Bytes} (h : ∀ frame ∈ frames, frame.length ≤ 0xFFFF) :
    audioSizes frames.length (audioTable frames) = frames.map List.length := by
  induction frames with
  | nil => rfl
  | cons frame frames ih =>
    have hlt : frame.length % 256 ^ 2 = frame.length := by
      have := h frame (by simp)
      exact Nat.mod_eq_of_lt (by omega)
    have hdrop : (Bytes.ofNat 2 frame.length ++ audioTable frames).drop 2 = audioTable frames :=
      List.drop_left' (by simp)
    have htable : audioTable (frame :: frames) = Bytes.ofNat 2 frame.length ++ audioTable frames := rfl
    rw [htable, List.length_cons, audioSizes, Bytes.field_ofNat, hlt, hdrop,
      ih fun f hf => h f (by simp [hf]), List.map_cons]

theorem takeFrames_flatten (frames : List Bytes) (rest : Bytes) :
    takeFrames (frames.map List.length) (frames.flatten ++ rest) = frames := by
  induction frames with
  | nil => rfl
  | cons frame frames ih =>
    rw [List.map_cons, List.flatten_cons, List.append_assoc, takeFrames, List.take_left' rfl,
      List.drop_left' rfl, ih]

/-- **An item's bytes are read back as its record.** -/
theorem encodes {item : V1Item} (hv : item.Valid) : v1Rule.Encodes item.record item.bytes := by
  have h28 : ¬ item.bytes.length < 28 := by simp [bytes]
  have hhead : item.bytes.take 28 = item.head := List.take_left' (by simp)
  change v1View item.bytes = _
  cases item with
  | header h =>
    rw [v1View, if_neg h28, hhead, readV1Head_header hv]
    simp [record, bytes, tail]
  | av marker audio video ats vts =>
    have hframes := hv.2.2.1
    have hsum : (audio.map List.length).sum = audio.flatten.length := by simp [List.length_flatten]
    have hlen : (V1Item.av marker audio video ats vts).bytes.length =
        28 + audio.length * 2 + audio.flatten.length + video.length := by
      simp only [bytes, tail, List.length_append, length_head, length_audioTable]; omega
    have htable : (V1Item.av marker audio video ats vts).bytes.slice 28 (audio.length * 2) = audioTable audio := by
      rw [bytes, Bytes.slice_append_right (by simp), tail, Bytes.slice_append_left (by simp)]
      simpa using Bytes.slice_zero_length (audioTable audio)
    have hbody : (V1Item.av marker audio video ats vts).bytes.slice (28 + audio.length * 2)
        (audio.flatten.length + video.length) = audio.flatten ++ video := by
      rw [bytes, Bytes.slice_append_right (by simp), tail, Bytes.slice_append_right (by simp)]
      simpa using Bytes.slice_zero_length (audio.flatten ++ video)
    have hzero : 0 ∉ audio.map List.length := by
      simp only [List.mem_map, List.length_eq_zero_iff, not_exists, not_and]
      exact fun frame hf => (hframes frame hf).1
    rw [v1View, if_neg h28, hhead, readV1Head_av_head hv]
    simp only [htable, audioSizes_audioTable fun f hf => (hframes f hf).2, hsum, hbody, hlen,
      takeFrames_flatten, List.drop_left]
    rw [if_neg (by omega), if_neg hzero, if_neg (by have := hv.2.2.2.1; omega), if_neg (by omega)]
    rfl

end V1Item

/-! ## Whole streams -/

namespace V1Receiver

theorem feed_eq {v : V1Receiver} {payload : Bytes} (hopen : v.closed = false)
    (hbuf : v.buffer.length < MAX_RECORD) (hsize : payload.length ≤ MAX_CHUNK) :
    v.feed payload =
      match v1Rule.scan (v.buffer ++ payload) with
      | (records, .ok rest) => (.ok records, { buffer := rest })
      | (_, .error e) => (.error e, v.close) := by
  have hfit : ¬ (MAX_CHUNK < payload.length ∨ MAX_RECORD + MAX_CHUNK < v.buffer.length + payload.length) := by
    omega
  unfold feed
  cases v1Rule.scan (v.buffer ++ payload) with
  | mk records answer =>
    cases answer with
    | ok rest => simp only [hopen, Bool.false_eq_true, if_false, if_neg hfit]
    | error e => simp only [hopen, Bool.false_eq_true, if_false, if_neg hfit]

theorem run_closed {v : V1Receiver} (h : v.closed = true) (chunks : List Bytes) :
    returned (v.run chunks).1 = [] ∧ (v.run chunks).2 = v := by
  induction chunks with
  | nil => exact ⟨rfl, rfl⟩
  | cons c cs ih =>
    have hfeed : v.feed c = (.error .closed, v) := by rw [feed, h, if_pos rfl]
    simpa [run, hfeed] using ih

theorem run_eq_feedAll {chunks : List Bytes} : ∀ {v : V1Receiver}, v.closed = false → v1View v.buffer = .wait →
    (∀ c ∈ chunks, c.length ≤ MAX_CHUNK) →
    returned (v.run chunks).1 = (v1Rule.feedAll v.buffer chunks).1 ∧
      match (v1Rule.feedAll v.buffer chunks).2 with
      | .ok rest => failed (v.run chunks).1 = false ∧ (v.run chunks).2 = { buffer := rest }
      | .error _ => failed (v.run chunks).1 = true := by
  induction chunks with
  | nil =>
    intro v hopen _ _
    obtain ⟨buffer, closed⟩ := v
    obtain rfl : closed = false := hopen
    exact ⟨rfl, rfl, rfl⟩
  | cons c cs ih =>
    intro v hopen hwait hsize
    have hfeed := feed_eq hopen (v1View_wait hwait) (hsize c (by simp))
    cases hc : (v1Rule.scan (v.buffer ++ c)).2 with
    | error e =>
      have hpair : v1Rule.scan (v.buffer ++ c) = ((v1Rule.scan (v.buffer ++ c)).1, .error e) := Prod.ext rfl hc
      rw [hpair] at hfeed
      rw [v1Rule.feedAll_cons_error hc]
      have hrest := (run_closed (v := v.close) rfl cs).1
      rw [run, hfeed]
      exact ⟨by simpa using hrest, by simp⟩
    | ok rest =>
      have hpair : v1Rule.scan (v.buffer ++ c) = ((v1Rule.scan (v.buffer ++ c)).1, .ok rest) := Prod.ext rfl hc
      rw [hpair] at hfeed
      rw [v1Rule.feedAll_cons_ok hc]
      obtain ⟨hret, hend⟩ := ih (v := { buffer := rest }) rfl (v1Rule.view_rest hc)
        fun c' hc' => hsize c' (by simp [hc'])
      rw [run, hfeed]
      exact ⟨by simpa using hret, by simpa using hend⟩

theorem run_buffer (chunks : List Bytes) : ∀ {v : V1Receiver}, v1View v.buffer = .wait →
    v1View (v.run chunks).2.buffer = .wait := by
  induction chunks with
  | nil => exact id
  | cons c cs ih =>
    intro v hwait
    refine ih (v := (v.feed c).2) ?_
    simp only [feed]
    split
    · exact hwait
    split
    · rfl
    cases hc : (v1Rule.scan (v.buffer ++ c)).2 with
    | error e =>
      have hpair : v1Rule.scan (v.buffer ++ c) = ((v1Rule.scan (v.buffer ++ c)).1, .error e) := Prod.ext rfl hc
      rw [hpair]
      rfl
    | ok rest =>
      have hpair : v1Rule.scan (v.buffer ++ c) = ((v1Rule.scan (v.buffer ++ c)).1, .ok rest) := Prod.ext rfl hc
      rw [hpair]
      exact v1Rule.view_rest hc

theorem run_items (items : List V1Item) {chunks : List Bytes} (hv : ∀ item ∈ items, item.Valid)
    (hcat : chunks.flatten = (items.map V1Item.bytes).flatten) (hsize : ∀ c ∈ chunks, c.length ≤ MAX_CHUNK) :
    failed (run {} chunks).1 = false ∧ returned (run {} chunks).1 = items.map V1Item.record ∧
      (run {} chunks).2.buffer = [] := by
  have henc : List.Forall₂ v1Rule.Encodes (items.map V1Item.record) (items.map V1Item.bytes) := by
    rw [List.forall₂_map_left_iff, List.forall₂_map_right_iff]
    exact List.forall₂_same.mpr fun item hi => V1Item.encodes (hv item hi)
  have hscan := Rule.scan_flatten henc []
  rw [Rule.scan_wait v1Rule.view_nil] at hscan
  simp only [List.append_nil] at hscan
  have hok : (v1Rule.scan ([] ++ chunks.flatten)).2 = .ok [] := by simp [hcat, hscan]
  have hfeed := v1Rule.feedAll_of_scan_ok v1Rule.view_nil hok
  obtain ⟨hret, hend⟩ := run_eq_feedAll (v := {}) rfl v1Rule.view_nil hsize
  rw [hfeed] at hret hend
  simp only [List.nil_append, hcat, hscan] at hret hend
  exact ⟨hend.1, hret, by rw [hend.2]⟩

theorem run_append (v : V1Receiver) (pre post : List Bytes) :
    v.run (pre ++ post) = ((v.run pre).1 ++ ((v.run pre).2.run post).1, ((v.run pre).2.run post).2) := by
  induction pre generalizing v with
  | nil => rfl
  | cons c cs ih => simp only [List.cons_append, run, ih]

theorem closed_of_feed_error {v : V1Receiver} {c : Bytes} {e : V1Fault} (h : (v.feed c).1 = .error e) :
    (v.feed c).2.closed = true := by
  unfold feed at h ⊢
  by_cases hclosed : v.closed
  · rw [if_pos hclosed]
    exact hclosed
  rw [if_neg hclosed] at h ⊢
  split at h
  · next hbudget =>
    rw [if_pos hbudget]
    rfl
  · next hbudget =>
    rw [if_neg hbudget]
    rcases hs : v1Rule.scan (v.buffer ++ c) with ⟨records, e' | rest⟩
    · rfl
    · rw [hs] at h
      cases h

/-- One byte to a chunk. -/
def bytewise (stream : Bytes) : List Bytes := stream.map fun x => [x]

theorem flatten_bytewise (stream : Bytes) : (bytewise stream).flatten = stream := by
  induction stream with
  | nil => rfl
  | cons x stream ih =>
    rw [bytewise, List.map_cons, List.flatten_cons]
    exact congrArg (x :: ·) ih

theorem bytewise_size (stream : Bytes) : ∀ c ∈ bytewise stream, c.length ≤ MAX_CHUNK := by
  intro c hc
  obtain ⟨x, -, rfl⟩ := List.mem_map.mp hc
  simp [MAX_CHUNK]

/-- Fed byte by byte, the receiver returns everything in front of the failure. -/
theorem run_bytewise (stream : Bytes) :
    returned (run {} (bytewise stream)).1 = (v1Rule.scan stream).1 ∧
      match (v1Rule.scan stream).2 with
      | .ok rest => failed (run {} (bytewise stream)).1 = false ∧
          (run {} (bytewise stream)).2 = { buffer := rest }
      | .error _ => failed (run {} (bytewise stream)).1 = true := by
  have h := run_eq_feedAll (v := {}) rfl v1Rule.view_nil (bytewise_size stream)
  have hscan : v1Rule.feedAll [] (bytewise stream) = v1Rule.scan stream := by
    simpa [bytewise] using v1Rule.feedAll_singletons v1Rule.view_nil stream
  rwa [hscan] at h

/-- Any split fails if the byte-wise one does, and returns a part of the
byte-wise records; all of them when nothing fails. -/
theorem run_split {chunks : List Bytes} (hsize : ∀ c ∈ chunks, c.length ≤ MAX_CHUNK) :
    failed (run {} chunks).1 = failed (run {} (bytewise chunks.flatten)).1 ∧
      returned (run {} chunks).1 <+: returned (run {} (bytewise chunks.flatten)).1 ∧
      (failed (run {} chunks).1 = false →
        returned (run {} chunks).1 = returned (run {} (bytewise chunks.flatten)).1 ∧
          (run {} chunks).2 = (run {} (bytewise chunks.flatten)).2) := by
  obtain ⟨hret, hend⟩ := run_eq_feedAll (v := {}) rfl v1Rule.view_nil hsize
  obtain ⟨hretb, hendb⟩ := run_bytewise chunks.flatten
  cases hs : (v1Rule.scan chunks.flatten).2 with
  | ok rest =>
    have hall : v1Rule.feedAll [] chunks = v1Rule.scan ([] ++ chunks.flatten) :=
      v1Rule.feedAll_of_scan_ok v1Rule.view_nil hs
    rw [hall, List.nil_append] at hret hend
    rw [hs] at hend hendb
    rw [hend.1, hendb.1, hret, hretb, hend.2, hendb.2]
    exact ⟨rfl, List.prefix_refl _, fun _ => ⟨rfl, rfl⟩⟩
  | error e =>
    obtain ⟨herr, hpre⟩ : (v1Rule.feedAll [] chunks).2 = .error e ∧
        (v1Rule.feedAll [] chunks).1 <+: (v1Rule.scan ([] ++ chunks.flatten)).1 :=
      v1Rule.feedAll_of_scan_error v1Rule.view_nil hs
    rw [hs] at hendb
    rw [herr] at hend
    rw [hend, hendb, hret, hretb]
    exact ⟨rfl, hpre, fun h => absurd h (by decide)⟩

/-- What a failing split returns: the records complete before the chunk that
fails, and nothing of that chunk. -/
theorem run_fail_at {pre post : List Bytes} {c : Bytes} (hsize : ∀ c' ∈ pre, c'.length ≤ MAX_CHUNK)
    (hpre : failed (run {} pre).1 = false) (hc : failed (run {} (pre ++ [c])).1 = true) :
    returned (run {} (pre ++ c :: post)).1 = returned (run {} (bytewise pre.flatten)).1 := by
  have hfeed : ∃ e, ((run {} pre).2.feed c).1 = .error e := by
    rw [run_append] at hc
    simp only [run, failed, List.any_append, List.any_cons, List.any_nil, Bool.or_false] at hc hpre
    rw [hpre, Bool.false_or] at hc
    cases ho : ((run {} pre).2.feed c).1 with
    | error e => exact ⟨e, rfl⟩
    | ok records => rw [ho] at hc; simp [Except.toOption] at hc
  obtain ⟨e, he⟩ := hfeed
  have hrest := (run_closed (closed_of_feed_error he) post).1
  rw [← ((run_split hsize).2.2 hpre).1, run_append, run, he]
  simp only [returned, List.map_append, List.map_cons, List.flatten_append, List.flatten_cons] at hrest ⊢
  rw [hrest]
  simp [Except.toOption]

end V1Receiver

/-! ## The talk path's packets -/

/-- A built packet is the item with those frames, no video, and the timestamp
modulo `2^64`. -/
theorem buildV1AudioPacket_eq {frames : List Bytes} {timestamp marker : Int} {packet : Bytes}
    (h : buildV1AudioPacket frames timestamp marker = .ok packet) (hmark : marker = 0 ∨ marker = 8)
    (hcount : frames.length ≤ MAX_AUDIO_FRAMES) (hsize : packet.length ≤ MAX_RECORD) :
    packet = (V1Item.av marker.toNat frames [] (timestamp % 2 ^ 64).toNat 0).bytes ∧
      (V1Item.av marker.toNat frames [] (timestamp % 2 ^ 64).toNat 0).Valid := by
  unfold buildV1AudioPacket at h
  split at h
  · cases h
  split at h
  · cases h
  split at h
  · cases h
  rename_i hne hmany hframes
  have hlow : (marker % 2 ^ 16).toNat = marker.toNat := by rcases hmark with rfl | rfl <;> decide
  have hpad : Bytes.zeros 12 = Bytes.ofNat 4 0 ++ Bytes.ofNat 8 0 := by decide
  have hbytes : packet = (V1Item.av marker.toNat frames [] (timestamp % 2 ^ 64).toNat 0).bytes := by
    rw [Except.ok.injEq] at h
    rw [← h, hlow, hpad]
    simp only [V1Item.bytes, V1Item.head, V1Item.tail, List.append_assoc, List.append_nil, List.length_nil]
  refine ⟨hbytes, ?_, hcount, ?_, ?_, ?_, by decide⟩
  · rcases hmark with rfl | rfl
    · exact .inl rfl
    · exact .inr rfl
  · intro frame hframe
    simp only [List.any_eq_true, not_exists, not_and] at hframes
    have := hframes frame hframe
    simp only [decide_eq_true_eq, not_or] at this
    exact ⟨this.1, by omega⟩
  · rw [hbytes] at hsize
    simp only [V1Item.bytes, V1Item.tail, List.length_append, V1Item.length_head, V1Item.length_audioTable,
      List.append_nil] at hsize
    simp only [List.length_nil]
    omega
  · omega

/-! ## The V1 stream -/

/-- **The V1 stream and its chunks.** A serialised list of records is returned
whole and leaves no byte, for every split. On any stream at all, every split
fails exactly when the byte-wise one does; splits that do not fail return the
same records and keep the same bytes, and one that fails returns the records
complete before its failing chunk, which is a part of the byte-wise records.
The accumulated-input guard never fires, and an audio packet comes back as the
one record it was built from. -/
theorem v1_stream_chunks :
    (∀ (items : List V1Item) (chunks : List Bytes), (∀ item ∈ items, item.Valid) →
      chunks.flatten = (items.map V1Item.bytes).flatten → (∀ c ∈ chunks, c.length ≤ MAX_CHUNK) →
      failed (V1Receiver.run {} chunks).1 = false ∧
        returned (V1Receiver.run {} chunks).1 = items.map V1Item.record ∧
        (V1Receiver.run {} chunks).2.buffer = []) ∧
    (∀ chunks : List Bytes, (∀ c ∈ chunks, c.length ≤ MAX_CHUNK) →
      let reference := V1Receiver.run {} (V1Receiver.bytewise chunks.flatten)
      (V1Receiver.bytewise chunks.flatten).flatten = chunks.flatten ∧
        failed (V1Receiver.run {} chunks).1 = failed reference.1 ∧
        returned (V1Receiver.run {} chunks).1 <+: returned reference.1 ∧
        (failed (V1Receiver.run {} chunks).1 = false →
          returned (V1Receiver.run {} chunks).1 = returned reference.1 ∧
            (V1Receiver.run {} chunks).2 = reference.2)) ∧
    (∀ (pre : List Bytes) (c : Bytes) (post : List Bytes), (∀ c' ∈ pre, c'.length ≤ MAX_CHUNK) →
      failed (V1Receiver.run {} pre).1 = false → failed (V1Receiver.run {} (pre ++ [c])).1 = true →
      returned (V1Receiver.run {} (pre ++ c :: post)).1 =
        returned (V1Receiver.run {} (V1Receiver.bytewise pre.flatten)).1) ∧
    (∀ (chunks : List Bytes) (payload : Bytes), payload.length ≤ MAX_CHUNK →
      (V1Receiver.run {} chunks).2.buffer.length + payload.length ≤ MAX_RECORD + MAX_CHUNK) ∧
    (∀ (frames : List Bytes) (timestamp marker : Int) (packet : Bytes) (chunks : List Bytes),
      buildV1AudioPacket frames timestamp marker = .ok packet → frames.length ≤ MAX_AUDIO_FRAMES →
      marker = 0 ∨ marker = 8 → packet.length ≤ MAX_RECORD → chunks.flatten = packet →
      (∀ c ∈ chunks, c.length ≤ MAX_CHUNK) →
      failed (V1Receiver.run {} chunks).1 = false ∧
        returned (V1Receiver.run {} chunks).1 =
          [{ audio := frames, audioTimestamp := (timestamp % 2 ^ 64).toNat }] ∧
        (V1Receiver.run {} chunks).2.buffer = []) := by
  refine ⟨?_, ?_, ?_, ?_, ?_⟩
  · intro items chunks hv hcat hsize
    exact V1Receiver.run_items items hv hcat hsize
  · intro chunks hsize
    exact ⟨V1Receiver.flatten_bytewise _, V1Receiver.run_split hsize⟩
  · intro pre c post hsize hpre hc
    exact V1Receiver.run_fail_at hsize hpre hc
  · intro chunks payload hsize
    have hwait := V1Receiver.run_buffer chunks (v := {}) v1Rule.view_nil
    have := v1View_wait hwait
    omega
  · intro frames timestamp marker packet chunks hbuild hcount hmark hlen hcat hsize
    obtain ⟨hbytes, hv⟩ := buildV1AudioPacket_eq hbuild hmark hcount hlen
    exact V1Receiver.run_items [.av marker.toNat frames [] (timestamp % 2 ^ 64).toNat 0]
      (by simpa using hv) (by simp [hcat, hbytes]) hsize

/-- An encoding header and 28 bytes that are no record. -/
def brokenStream : Bytes := [0xff, 0xff, 0xff, 0x88, 0, 1] ++ Bytes.zeros 22 ++ Bytes.zeros 28

/-- The same broken stream, cut after the header and not cut at all: both fail,
but the first returns the header and the second nothing. -/
theorem v1_stream_broken_cut :
    [brokenStream.take 28, brokenStream.drop 28].flatten = [brokenStream].flatten ∧
      (∀ c ∈ [brokenStream.take 28, brokenStream.drop 28, brokenStream], c.length ≤ MAX_CHUNK) ∧
      failed (V1Receiver.run {} [brokenStream.take 28, brokenStream.drop 28]).1 = true ∧
      failed (V1Receiver.run {} [brokenStream]).1 = true ∧
      returned (V1Receiver.run {} [brokenStream.take 28, brokenStream.drop 28]).1 ≠
        returned (V1Receiver.run {} [brokenStream]).1 := by
  decide

/-- One frame of two bytes at a negative timestamp, its packet cut in the
middle of the size table. -/
theorem v1_stream_chunks_audio :
    returned (V1Receiver.run {} [
      [0xff, 0xff, 0xff, 0x88, 8, 0, 1, 0] ++ Bytes.zeros 12 ++ List.replicate 8 0xff ++ [2],
      [0, 7, 9]]).1 = [{ audio := [[7, 9]], audioTimestamp := 2 ^ 64 - 1 }] :=
  (v1_stream_chunks.2.2.2.2 [[7, 9]] (-1) 8
    ([0xff, 0xff, 0xff, 0x88, 8, 0, 1, 0] ++ Bytes.zeros 12 ++ List.replicate 8 0xff ++ [2, 0, 7, 9]) _
    (by decide) (by decide) (by decide) (by decide) (by decide) (by decide)).2.1

end CamGuard.Media
