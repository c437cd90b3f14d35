/-
A message that is split into frames is put together again, whatever the order and the
repetitions in which its frames arrive (`feed_message`), and an encrypted payload is
decrypted, its clear end included (`decrypt_encrypt`).

An assembler is known by what it keeps of the message at hand: the chunks of the indices
seen so far (`Holding`).
-/
import CamGuard.Ble.BleCodec

namespace CamGuard.Ble

/-! ## The payload -/

/-- On whole blocks, decryption inverts encryption, which keeps the length. -/
def AesCbc.Inverts (aes : AesCbc) : Prop :=
  ∀ key iv data : Bytes, (key.length = 16 ∨ key.length = 24 ∨ key.length = 32) → iv.length = 16 →
    16 ∣ data.length →
    (aes.encrypt key iv data).length = data.length ∧ aes.decrypt key iv (aes.encrypt key iv data) = data

theorem tanKey_length {tanKeyHex : String} {key : Bytes} (h : tanKey tanKeyHex = .ok key) :
    key.length = 16 ∨ key.length = 24 ∨ key.length = 32 := by
  unfold tanKey at h
  split at h
  · cases h
  · split at h
    · rename_i hlength
      cases h
      exact hlength
    · cases h

theorem decrypt_encrypt {aes : AesCbc} (haes : aes.Inverts) {tanKeyHex : String} {key : Bytes}
    (hkey : tanKey tanKeyHex = .ok key) (data : Bytes) :
    ∃ wire, encryptBlePayload aes data tanKeyHex = .ok wire ∧ wire.length = data.length ∧
      decryptBlePayload aes wire tanKeyHex = .ok data := by
  unfold encryptBlePayload decryptBlePayload
  rw [hkey]
  dsimp only
  by_cases hzero : data.length / 16 * 16 = 0
  · rw [if_pos hzero]
    exact ⟨data, rfl, rfl, if_pos hzero⟩
  rw [if_neg hzero]
  have htake : (data.take (data.length / 16 * 16)).length = data.length / 16 * 16 := by
    rw [List.length_take]
    omega
  have hblocks : 16 ∣ (data.take (data.length / 16 * 16)).length := by
    rw [htake]
    exact Nat.dvd_mul_left 16 _
  obtain ⟨hlength, hinverse⟩ := haes key VENDOR_AES_IV _ (tanKey_length hkey) rfl hblocks
  rw [htake] at hlength
  refine ⟨_, rfl, ?_, ?_⟩
  · rw [List.length_append, hlength, List.length_drop]
    omega
  · have hwire : (aes.encrypt key VENDOR_AES_IV (data.take (data.length / 16 * 16)) ++
        data.drop (data.length / 16 * 16)).length = data.length := by
      rw [List.length_append, hlength, List.length_drop]
      omega
    rw [hwire, if_neg hzero, List.take_left' hlength, List.drop_left' hlength, hinverse, List.take_append_drop]

/-! ## One frame -/

/-- What `fragment_ble_message` is asked for, within its bounds. -/
structure BleSplit where
  command : Nat
  data : Bytes
  encrypted : Bool
  messageId : Nat
  mtu : Nat
  version : Nat
  command_lt : command < 256
  messageId_pos : 0 < messageId
  messageId_lt : messageId < 16
  version_lt : version < 8
  mtu_ge : 5 ≤ mtu
  mtu_le : mtu ≤ 256
  fits : frameCount data.length (mtu - 4) ≤ 15

namespace BleSplit

variable (m : BleSplit)

/-- The bytes of the message that a frame carries. -/
def capacity : Nat := m.mtu - 4

/-- How many frames it takes. -/
def count : Nat := frameCount m.data.length m.capacity

/-- What a frame carries of it. -/
def chunk (index : Nat) : Bytes := m.data.slice (index * m.capacity) m.capacity

/-- A frame of the message. -/
def frame (index : Nat) : Bytes :=
  bleFrame (controlByte m.version m.encrypted m.messageId) m.command m.count index (m.chunk index)

/-- Its frames, in order. -/
def frames : List Bytes := (List.range m.count).map m.frame

/-- What an assembler knows it by. -/
def key : BleKey := ⟨m.version, m.encrypted, m.messageId, m.command, m.count⟩

/-- What an assembler is to make of it. -/
def message : BleMessage := ⟨m.version, m.encrypted, m.messageId, m.command, m.data⟩

variable {m}

theorem capacity_pos : 0 < m.capacity := Nat.sub_pos_of_lt m.mtu_ge

theorem capacity_le : m.capacity ≤ 252 := Nat.sub_le_sub_right m.mtu_le 4

theorem count_pos : 0 < m.count := Nat.lt_of_lt_of_le Nat.one_pos (Nat.le_max_left _ _)

theorem count_le : m.count ≤ 15 := m.fits

/-- The frames hold all the data. -/
theorem length_le : m.data.length ≤ m.count * m.capacity := by
  have hpos := m.capacity_pos
  have hdiv : (m.data.length + m.capacity - 1) / m.capacity ≤ m.count := Nat.le_max_right _ _
  have hlt := Nat.lt_mul_div_succ (m.data.length + m.capacity - 1) hpos
  have hmul := Nat.mul_le_mul_right m.capacity hdiv
  rw [Nat.mul_add, Nat.mul_one, Nat.mul_comm] at hlt
  omega

theorem chunk_length (index : Nat) : (m.chunk index).length ≤ m.capacity := List.length_take_le _ _

/-- Every frame fits the MTU. -/
theorem frame_length (index : Nat) : (m.frame index).length ≤ m.mtu := by
  have hchunk := m.chunk_length index
  have hmtu := m.mtu_ge
  have hcapacity : m.capacity = m.mtu - 4 := rfl
  simp only [frame, bleFrame, List.length_append, List.length_cons, List.length_nil]
  omega

theorem control_fields : ∀ version < 8, ∀ encrypted : Bool, ∀ messageId < 16,
    controlByte version encrypted messageId < 256 ∧ controlByte version encrypted messageId &&& 0x0F = messageId ∧
      (controlByte version encrypted messageId >>> 5) &&& 0x07 = version ∧
      decide (controlByte version encrypted messageId &&& 0x10 ≠ 0) = encrypted := by
  decide +kernel

theorem sequence_fields : ∀ count < 16, ∀ index < 16,
    (count <<< 4) ||| index < 256 ∧ ((count <<< 4) ||| index) >>> 4 = count ∧ ((count <<< 4) ||| index) &&& 0x0F = index := by
  decide +kernel

theorem toNat_ofNat {n : Nat} (h : n < 256) : (UInt8.ofNat n).toNat = n := by
  rw [UInt8.toNat_ofNat']
  exact Nat.mod_eq_of_lt h

theorem parse_frame {index : Nat} (h : index < m.count) :
    parseBleFrame (m.frame index) =
      .ok ⟨m.version, m.encrypted, m.messageId, m.command, m.count, index, m.chunk index⟩ := by
  obtain ⟨hcontrol, hid, hversion, hencrypted⟩ :=
    control_fields m.version m.version_lt m.encrypted m.messageId m.messageId_lt
  have hcount := m.count_le
  obtain ⟨hsequence, htotal, hindex⟩ := sequence_fields m.count (by omega) index (by omega)
  have hchunk : (m.chunk index).length < 256 := by
    have hle := m.chunk_length index
    have hcapacity := m.capacity_le
    omega
  have hat0 : (m.frame index).at_ 0 = controlByte m.version m.encrypted m.messageId := toNat_ofNat hcontrol
  have hat1 : (m.frame index).at_ 1 = m.command := toNat_ofNat m.command_lt
  have hat2 : (m.frame index).at_ 2 = (m.count <<< 4) ||| index := toNat_ofNat hsequence
  have hat3 : (m.frame index).at_ 3 = (m.chunk index).length := toNat_ofNat hchunk
  have hlength : (m.frame index).length = 4 + (m.chunk index).length := by
    simp only [frame, bleFrame, List.length_append, List.length_cons, List.length_nil]
  have hdata : (m.frame index).drop 4 = m.chunk index := rfl
  have hreserved := m.messageId_pos
  have hpos := m.count_pos
  unfold parseBleFrame
  dsimp only
  rw [hat0, hat1, hat2, hat3, hid, htotal, hindex, hdata, hversion, hencrypted, if_neg (by omega), if_neg (by omega),
    if_neg (by omega), if_neg (by omega), if_neg (by omega)]

/-! ## All of them -/

/-- The chunks are the data. -/
theorem flatMap_slice (data : Bytes) (capacity count : Nat) :
    ((List.range count).flatMap fun index => data.slice (index * capacity) capacity) = data.take (count * capacity) := by
  induction count with
  | zero => simp
  | succ count ih =>
    rw [List.range_succ, List.flatMap_append, ih, List.flatMap_cons, List.flatMap_nil, List.append_nil, Bytes.slice,
      Nat.succ_mul, List.take_add]

theorem flatMap_chunk : (List.range m.count).flatMap m.chunk = m.data := by
  have hall := flatMap_slice m.data m.capacity m.count
  rw [List.take_of_length_le m.length_le] at hall
  exact hall

theorem fragment_eq (m : BleSplit) :
    fragmentBleMessage m.command m.data m.encrypted m.messageId m.mtu m.version = .ok m.frames := by
  have hcommand := m.command_lt
  have hidPos := m.messageId_pos
  have hid := m.messageId_lt
  have hversion := m.version_lt
  have hge := m.mtu_ge
  have hle := m.mtu_le
  have hcapacity : ((m.mtu : Int) - 4).toNat = m.capacity := by
    unfold capacity
    omega
  have hcount : ¬0x0F < frameCount m.data.length m.capacity := not_lt.mpr m.count_le
  unfold fragmentBleMessage
  rw [if_neg (by omega), if_neg (by omega), if_neg (by omega), if_neg (by omega)]
  dsimp only
  rw [hcapacity, if_neg hcount]
  rfl

@[simp] theorem length_frames : m.frames.length = m.count := by
  simp only [frames, List.length_map, List.length_range]

theorem mem_frames {raw : Bytes} : raw ∈ m.frames ↔ ∃ index < m.count, m.frame index = raw := by
  simp [frames]

theorem frame_inj {i j : Nat} (hi : i < m.count) (hj : j < m.count) (h : m.frame i = m.frame j) : i = j := by
  have hparse := parse_frame hi
  rw [h, parse_frame hj] at hparse
  cases hparse
  rfl

/-- No frame is sent twice. -/
theorem nodup_frames : m.frames.Nodup := by
  refine List.nodup_range.map_on ?_
  intro i hi j hj
  exact frame_inj (List.mem_range.mp hi) (List.mem_range.mp hj)

/-- Frames of a message, by their indices. -/
theorem exists_indices {raws : List Bytes} (h : ∀ raw ∈ raws, raw ∈ m.frames) :
    ∃ indices : List Nat, (∀ index ∈ indices, index < m.count) ∧ indices.map m.frame = raws := by
  induction raws with
  | nil => exact ⟨[], by simp, rfl⟩
  | cons raw raws ih =>
    obtain ⟨index, hindex, hframe⟩ := mem_frames.mp (h raw List.mem_cons_self)
    obtain ⟨indices, hindices, hmap⟩ := ih fun other hother => h other (List.mem_cons_of_mem raw hother)
    refine ⟨index :: indices, ?_, by rw [List.map_cons, hframe, hmap]⟩
    intro other hother
    rcases List.mem_cons.mp hother with rfl | hother
    · exact hindex
    · exact hindices other hother

end BleSplit

namespace BleMessageAssembler

/-- What is kept of the message with a key. -/
def kept (a : BleMessageAssembler) (key : BleKey) : Dict Nat Bytes := if some key = a.key then a.parts else ∅

theorem kept_of_key (key : BleKey) (parts : Dict Nat Bytes) : kept ⟨some key, parts⟩ key = parts := if_pos rfl

/-- A frame is kept beside those of its message; the last one completes it. -/
theorem add_eq {a : BleMessageAssembler} {raw : Bytes} {frame : BleFrame} (hparse : parseBleFrame raw = .ok frame)
    (hsame : ∀ data, (a.kept frame.key).get? frame.frameIndex = some data → data = frame.data) :
    a.add raw =
      let parts := (a.kept frame.key).set frame.frameIndex frame.data
      if parts.size ≠ frame.totalFrames then (.ok none, ⟨some frame.key, parts⟩)
      else (.ok (some ⟨frame.version, frame.encrypted, frame.messageId, frame.command,
        (List.range frame.totalFrames).flatMap fun index => (parts.get? index).getD []⟩), {}) := by
  have hstate : (if some frame.key ≠ a.key then ⟨some frame.key, ∅⟩ else a) =
      (⟨some frame.key, a.kept frame.key⟩ : BleMessageAssembler) := by
    unfold kept
    by_cases hkey : some frame.key = a.key
    · rw [if_neg (not_not.mpr hkey), if_pos hkey, hkey]
    · rw [if_pos hkey, if_neg hkey]
  have hconflict : ((a.kept frame.key).get? frame.frameIndex).any (· ≠ frame.data) = false := by
    cases hget : (a.kept frame.key).get? frame.frameIndex with
    | none => rfl
    | some data => simp [hsame data hget]
  unfold add
  rw [hparse]
  dsimp only
  rw [hstate, hconflict, if_neg Bool.false_ne_true]
  rfl

/-- The assembler holds the chunks of exactly the indices seen. -/
def Holding (m : BleSplit) (a : BleMessageAssembler) (seen : List Nat) : Prop :=
  ∀ index, (a.kept m.key).get? index = if index ∈ seen then some (m.chunk index) else none

variable {m : BleSplit} {a : BleMessageAssembler} {seen : List Nat}

/-- Its chunks and one more. -/
theorem Holding.get?_set (h : Holding m a seen) (index other : Nat) :
    ((a.kept m.key).set index (m.chunk index)).get? other =
      if other ∈ index :: seen then some (m.chunk other) else none := by
  rw [Dict.get?_set, h other]
  by_cases hother : other = index
  · rw [if_pos hother, if_pos (hother ▸ List.mem_cons_self), hother]
  · rw [if_neg hother]
    by_cases hseen : other ∈ seen
    · rw [if_pos hseen, if_pos (List.mem_cons_of_mem index hseen)]
    · rw [if_neg hseen, if_neg (by simp [hother, hseen])]

theorem Holding.same (h : Holding m a seen) (index : Nat) :
    ∀ data, (a.kept m.key).get? index = some data → data = m.chunk index := by
  intro data hget
  rw [h index] at hget
  split at hget
  · exact (Option.some.inj hget).symm
  · cases hget

theorem Holding.add_frame (h : Holding m a seen) {index : Nat} (hindex : index < m.count) :
    a.add (m.frame index) =
      let parts := (a.kept m.key).set index (m.chunk index)
      if parts.size ≠ m.count then (.ok none, ⟨some m.key, parts⟩)
      else (.ok (some ⟨m.version, m.encrypted, m.messageId, m.command,
        (List.range m.count).flatMap fun index => (parts.get? index).getD []⟩), {}) :=
  add_eq (BleSplit.parse_frame hindex) (h.same index)

/-- While a frame is missing nothing is returned. -/
theorem Holding.add_missing (h : Holding m a seen) {index missing : Nat} (hindex : index < m.count)
    (hmissing : missing < m.count) (hseen : ∀ other ∈ index :: seen, other < m.count ∧ other ≠ missing) :
    (a.add (m.frame index)).1 = .ok none ∧ Holding m (a.add (m.frame index)).2 (index :: seen) := by
  have hparts := h.get?_set index
  have hsize : ((a.kept m.key).set index (m.chunk index)).size ≠ m.count := by
    have hkeys : ∀ key ∈ ((a.kept m.key).set index (m.chunk index)).keys, key ∈ (List.range m.count).erase missing := by
      intro key hkey
      obtain ⟨data, hget⟩ := Dict.mem_keys.mp hkey
      rw [hparts key] at hget
      split at hget
      · rename_i hmem
        obtain ⟨hlt, hne⟩ := hseen key hmem
        exact (List.mem_erase_of_ne hne).mpr (List.mem_range.mpr hlt)
      · cases hget
    have hle := Dict.size_le_of_keys hkeys
    have hpos := m.count_pos
    rw [List.length_erase_of_mem (List.mem_range.mpr hmissing), List.length_range] at hle
    omega
  rw [h.add_frame hindex]
  dsimp only
  rw [if_pos hsize]
  refine ⟨rfl, fun other => ?_⟩
  exact (congrArg (Dict.get? · other) (kept_of_key m.key _)).trans (hparts other)

/-- The last frame completes the message, and nothing is kept. -/
theorem Holding.add_last (h : Holding m a seen) {index : Nat} (hindex : index < m.count)
    (hall : ∀ other, other ∈ index :: seen ↔ other < m.count) :
    a.add (m.frame index) = (.ok (some m.message), {}) := by
  have hparts := h.get?_set index
  have hsize : ((a.kept m.key).set index (m.chunk index)).size = m.count := by
    have hkeys : ∀ other, ((a.kept m.key).set index (m.chunk index)).get? other = none ↔ other ∉ List.range m.count := by
      intro other
      rw [hparts other, List.mem_range, ← hall other]
      by_cases hmem : other ∈ index :: seen
      · rw [if_pos hmem]
        exact iff_of_false (Option.some_ne_none _) (not_not.mpr hmem)
      · rw [if_neg hmem]
        exact iff_of_true rfl hmem
    rw [Dict.size_eq_length List.nodup_range hkeys, List.length_range]
  have hdata : ((List.range m.count).flatMap fun other =>
      (((a.kept m.key).set index (m.chunk index)).get? other).getD []) = m.data := by
    rw [← BleSplit.flatMap_chunk]
    refine List.flatMap_congr fun other hother => ?_
    rw [hparts other, if_pos ((hall other).mpr (List.mem_range.mp hother)), Option.getD_some]
  rw [h.add_frame hindex]
  dsimp only
  rw [if_neg (not_not.mpr hsize), hdata]
  rfl

/-- Frames of a message that leave one out. -/
theorem Holding.feed (h : Holding m a seen) {missing : Nat} (hmissing : missing < m.count)
    (hseen : ∀ other ∈ seen, other < m.count ∧ other ≠ missing) {indices : List Nat}
    (hindices : ∀ index ∈ indices, index < m.count ∧ index ≠ missing) :
    (a.feed (indices.map m.frame)).1 = List.replicate indices.length (.ok none) ∧
      Holding m (a.feed (indices.map m.frame)).2 (indices.reverse ++ seen) := by
  induction indices generalizing a seen with
  | nil => exact ⟨rfl, h⟩
  | cons index indices ih =>
    have hindex := hindices index List.mem_cons_self
    have hnow : ∀ other ∈ index :: seen, other < m.count ∧ other ≠ missing := by
      intro other hother
      rcases List.mem_cons.mp hother with rfl | hother
      · exact hindex
      · exact hseen other hother
    obtain ⟨hnone, hnext⟩ := h.add_missing hindex.1 hmissing hnow
    obtain ⟨hrest, hend⟩ := ih hnext hnow fun other hother => hindices other (List.mem_cons_of_mem index hother)
    rw [List.map_cons, BleMessageAssembler.feed, hnone, hrest, List.reverse_cons, List.append_assoc]
    exact ⟨rfl, hend⟩

/-- Some frames of a message, with any repetitions, and then the one that is missing. -/
theorem feed_message (m : BleSplit) {a : BleMessageAssembler} (hidle : a.key = some m.key → a.parts = ∅) {before : List Bytes}
    {last : Bytes} (hbefore : ∀ raw ∈ before, raw ∈ m.frames) (hlast : last ∈ m.frames) (hnew : last ∉ before)
    (hall : ∀ raw ∈ m.frames, raw = last ∨ raw ∈ before) :
    (a.feed before).1 = List.replicate before.length (.ok none) ∧
      (a.feed before).2.add last = (.ok (some m.message), {}) := by
  obtain ⟨indices, hindices, rfl⟩ := BleSplit.exists_indices hbefore
  obtain ⟨missing, hmissing, rfl⟩ := BleSplit.mem_frames.mp hlast
  have hstart : Holding m a [] := by
    intro index
    rw [if_neg List.not_mem_nil, kept]
    split
    · rename_i hkey
      rw [hidle hkey.symm, Dict.get?_empty]
    · exact Dict.get?_empty index
  have hother : ∀ index ∈ indices, index < m.count ∧ index ≠ missing := by
    intro index hindex
    refine ⟨hindices index hindex, ?_⟩
    rintro rfl
    exact hnew (List.mem_map_of_mem hindex)
  obtain ⟨hnone, hend⟩ := hstart.feed hmissing (by simp) hother
  rw [List.length_map]
  refine ⟨hnone, hend.add_last hmissing fun other => ?_⟩
  constructor
  · intro hmem
    rcases List.mem_cons.mp hmem with rfl | hmem
    · exact hmissing
    · rw [List.append_nil, List.mem_reverse] at hmem
      exact hindices other hmem
  · intro hlt
    rw [List.append_nil, List.mem_cons, List.mem_reverse]
    rcases hall _ (BleSplit.mem_frames.mpr ⟨other, hlt, rfl⟩) with heq | hmem
    · exact .inl (BleSplit.frame_inj hlt hmissing heq)
    · obtain ⟨index, hindex, heq⟩ := List.mem_map.mp hmem
      rw [← BleSplit.frame_inj (hindices index hindex) hlt heq]
      exact .inr hindex

end BleMessageAssembler

/-- Fragmentation and encryption, there and back. An empty message takes one frame. -/
theorem ble_round_trip {aes : AesCbc} (haes : aes.Inverts) :
    (∀ m : BleSplit, ∃ frames,
      fragmentBleMessage m.command m.data m.encrypted m.messageId m.mtu m.version = .ok frames ∧
      frames.length = max 1 ((m.data.length + (m.mtu - 4) - 1) / (m.mtu - 4)) ∧ frames.Nodup ∧
      (∀ raw ∈ frames, raw.length ≤ m.mtu ∧ ∃ frame, parseBleFrame raw = .ok frame ∧ frame.key = m.key) ∧
      ∀ (a : BleMessageAssembler) (before : List Bytes) (last : Bytes), (a.key = some m.key → a.parts = ∅) →
        (∀ raw ∈ before, raw ∈ frames) → last ∈ frames → last ∉ before → (∀ raw ∈ frames, raw = last ∨ raw ∈ before) →
        (a.feed before).1 = List.replicate before.length (.ok none) ∧
          (a.feed before).2.add last = (.ok (some m.message), {})) ∧
    ∀ (tanKeyHex : String) (key : Bytes), tanKey tanKeyHex = .ok key → ∀ data : Bytes, ∃ wire,
      encryptBlePayload aes data tanKeyHex = .ok wire ∧ wire.length = data.length ∧
        decryptBlePayload aes wire tanKeyHex = .ok data := by
  refine ⟨fun m => ⟨m.frames, m.fragment_eq, BleSplit.length_frames, BleSplit.nodup_frames, ?_, ?_⟩, fun _ _ hkey data => decrypt_encrypt haes hkey data⟩
  · intro raw hraw
    obtain ⟨index, hindex, rfl⟩ := BleSplit.mem_frames.mp hraw
    exact ⟨m.frame_length index, _, BleSplit.parse_frame hindex, rfl⟩
  · intro a before last hidle hbefore hlast hnew hall
    exact BleMessageAssembler.feed_message m hidle hbefore hlast hnew hall

/-- The bytes from 0 to 15. -/
def samplePlain : Bytes := [0, 1, 2, 3, 4, 5, 6, 7, 8, 9, 10, 11, 12, 13, 14, 15]

/-- Their AES-CBC encryption under the key of zeros and the vendor's IV. -/
def sampleCipher : Bytes := [60, 152, 127, 123, 226, 192, 240, 52, 151, 149, 54, 137, 185, 142, 149, 190]

/-- AES-128-CBC on the one block and its cipher text. -/
def sampleSwap (data : Bytes) : Bytes :=
  if data = samplePlain then sampleCipher else if data = sampleCipher then samplePlain else data

def sampleAes : AesCbc := ⟨fun _ _ data => sampleSwap data, fun _ _ data => sampleSwap data⟩

theorem sampleSwap_length (data : Bytes) : (sampleSwap data).length = data.length := by
  unfold sampleSwap
  split
  · rename_i heq
    rw [heq]
    rfl
  · split
    · rename_i heq
      rw [heq]
      rfl
    · rfl

theorem sampleSwap_swap (data : Bytes) : sampleSwap (sampleSwap data) = data := by
  by_cases hplain : data = samplePlain
  · rw [hplain]
    decide
  · by_cases hcipher : data = sampleCipher
    · rw [hcipher]
      decide
    · have hsame : sampleSwap data = data := by
        unfold sampleSwap
        rw [if_neg hplain, if_neg hcipher]
      rw [hsame, hsame]

theorem sampleAes_inverts : sampleAes.Inverts := fun _ _ data _ _ _ => ⟨sampleSwap_length data, sampleSwap_swap data⟩

/-- Three bytes in frames of two: the second frame and its repetition come before the first. -/
def sampleSplit : BleSplit where
  command := 7
  data := [1, 2, 3]
  encrypted := true
  messageId := 3
  mtu := 6
  version := 1
  command_lt := by decide
  messageId_pos := by decide
  messageId_lt := by decide
  version_lt := by decide
  mtu_ge := by decide
  mtu_le := by decide
  fits := by decide

/-- The message 1, 2, 3 in two frames: the first. -/
def sampleFirst : Bytes := [0x33, 7, 0x20, 2, 1, 2]

/-- And the second. -/
def sampleSecond : Bytes := [0x33, 7, 0x21, 1, 3]

theorem ble_round_trip_sample : sampleAes.Inverts ∧
    fragmentBleMessage 7 [1, 2, 3] true 3 6 1 = .ok [sampleFirst, sampleSecond] ∧
    (({} : BleMessageAssembler).feed [sampleSecond, sampleSecond]).1 = [.ok none, .ok none] ∧
    (({} : BleMessageAssembler).feed [sampleSecond, sampleSecond]).2.add sampleFirst =
      (.ok (some ⟨1, true, 3, 7, [1, 2, 3]⟩), {}) ∧
    ∃ wire, encryptBlePayload sampleAes (samplePlain ++ [1, 2, 3]) "00000000000000000000000000000000" = .ok wire ∧
      wire.length = 19 ∧ decryptBlePayload sampleAes wire "00000000000000000000000000000000" = .ok (samplePlain ++ [1, 2, 3]) := by
  obtain ⟨hframes, hcrypt⟩ := ble_round_trip sampleAes_inverts
  have hfragment : fragmentBleMessage 7 [1, 2, 3] true 3 6 1 = .ok [sampleFirst, sampleSecond] := by decide
  obtain ⟨frames, hok, -, -, -, hfeed⟩ := hframes sampleSplit
  obtain rfl : [sampleFirst, sampleSecond] = frames := Except.ok.inj (hfragment.symm.trans hok)
  obtain ⟨hnone, hlast⟩ := hfeed {} [sampleSecond, sampleSecond] sampleFirst (fun _ => rfl) (by decide) (by decide)
    (by decide) (by decide)
  exact ⟨sampleAes_inverts, hfragment, hnone, hlast, hcrypt _ (Bytes.zeros 16) rfl _⟩

end CamGuard.Ble
