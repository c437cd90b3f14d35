/-
Fragment packets survive the masked header: the words of a header are masked one by one,
over a checksum of the words in the clear, and unmasking gives both back (`unmask_masked`).
So a packet decodes to what it was made from (`decode_masked`) and its acknowledgement
carries its words under any mask (`ack_carries`), as long as the packet's length fits its
field; and the packets of a frame give the frame at the last one, in any order
(`run_frame`, `fragments_survive`).
-/
import CamGuard.Account.FragmentsFacts
import CamGuard.Lib.Blocks
import Mathlib.Data.List.Induction

namespace CamGuard.Account

/-! ## Masking -/

/-- A masked word. -/
def maskWord (mask : Nat) (word : Bytes) : Bytes := Bytes.ofNat 2 (word.toNat ^^^ mask)

/-- The eight words of a header, masked. -/
def maskWords (mask : Nat) (words : Bytes) : Bytes := Bytes.mapBlocks 2 (maskWord mask) 8 words

/-- The checksum of the words in the clear. -/
def wordsChecksum (mask : Nat) (words : Bytes) : Nat := Bytes.foldBlocks 2 (fun sum word => sum ||| Bytes.toNat word) 8 mask words

/-- The mask and the checksum of a header. -/
def maskFields (mask : Nat) (words : Bytes) : Bytes := Bytes.ofNat 2 mask ++ Bytes.ofNat 2 (wordsChecksum mask words)

section

variable {mask : Nat} (hmask : mask ≤ 0xFFFF)

theorem length_maskWord (mask : Nat) (word : Bytes) : (maskWord mask word).length = 2 := Bytes.length_ofNat _ _

include hmask

theorem toNat_maskWord {word : Bytes} (h : word.length ≤ 2) : (maskWord mask word).toNat = word.toNat ^^^ mask := by
  have hword : word.toNat < 2 ^ 16 := lt_of_lt_of_le (Bytes.toNat_lt word) (Nat.pow_le_pow_right (by decide) h)
  have hxor : word.toNat ^^^ mask < 2 ^ 16 := Nat.xor_lt_two_pow hword (by omega)
  rw [maskWord, Bytes.toNat_ofNat]
  exact Nat.mod_eq_of_lt hxor

theorem maskWord_maskWord {word : Bytes} (h : word.length = 2) : maskWord mask (maskWord mask word) = word := by
  have hback := Bytes.ofNat_toNat word
  rw [h] at hback
  rw [maskWord, toNat_maskWord hmask h.le, Nat.xor_assoc, Nat.xor_self, Nat.xor_zero, hback]

theorem wordsChecksum_lt (words : Bytes) : wordsChecksum mask words < 256 ^ 2 := by
  refine Bytes.foldBlocks_inv (P := fun sum => sum < 256 ^ 2) (fun sum word hword hsum => ?_) 8 (by omega) words
  have hsmall : word.toNat < 2 ^ 16 := lt_of_lt_of_le (Bytes.toNat_lt word) (Nat.pow_le_pow_right (by decide) hword)
  exact Nat.or_lt_two_pow (n := 16) hsum hsmall

omit hmask in
theorem length_maskWords {words : Bytes} (h : words.length = 16) : (maskWords mask words).length = 16 := by
  rw [maskWords, Bytes.length_mapBlocks (length_maskWord mask) h.ge, h]

/-- **Unmasking gives the words and their checksum back.** -/
theorem unmask_masked {head words : Bytes} (hhead : head.length = 4) (hwords : words.length = 16) (rest : Bytes) :
    unmask (head ++ (maskWords mask words ++ rest)) mask = (head ++ (words ++ rest), wordsChecksum mask words) := by
  have hlength := @length_maskWords mask words hwords
  have hscan := Bytes.foldl_scan_blocks (length_maskWord mask) (fun sum word => sum ||| (Bytes.toNat word ^^^ mask))
    (k := 8) (b := maskWords mask words ++ rest) hhead (by simp [hlength]) mask
  have hgather (sum : Nat) (word : Bytes) (hword : word.length = 2) :
      sum ||| ((maskWord mask word).toNat ^^^ mask) = sum ||| word.toNat := by
    rw [toNat_maskWord hmask hword.le, Nat.xor_assoc, Nat.xor_self, Nat.xor_zero]
  rw [Bytes.mapBlocks_append hlength, Bytes.foldBlocks_append _ hlength, maskWords,
    Bytes.mapBlocks_undo (length_maskWord mask) (fun _ => maskWord_maskWord hmask) hwords.ge,
    Bytes.foldBlocks_mapBlocks (length_maskWord mask) hgather hwords.ge] at hscan
  exact hscan

theorem encodeFragmentHeader_eq {head words spare : Bytes} (hhead : head.length = 4) (hwords : words.length = 16)
    (hspare : spare.length = 4) (hlead : head.at_ 0 = 0x70) :
    encodeFragmentHeader (head ++ (words ++ spare)) mask =
      .ok (head ++ (maskWords mask words ++ maskFields mask words)) := by
  have hlength : (head ++ (words ++ spare)).length = 0x18 := by simp [hhead, hwords, hspare]
  have hmasked := @length_maskWords mask words hwords
  have hfront : (head ++ words).length = 0x14 := by simp [hhead, hwords]
  -- The mask goes into the spare bytes first.
  have hput : (head ++ (words ++ spare)).put 0x14 (Bytes.ofNat 2 mask) =
      head ++ (words ++ (Bytes.ofNat 2 mask ++ spare.drop 2)) := by
    have hmiddle := Bytes.put_middle (x := spare.take 2) (c := spare.drop 2) (v := Bytes.ofNat 2 mask) hfront (by simp [hspare])
    rw [List.take_append_drop, List.append_assoc, List.append_assoc] at hmiddle
    exact hmiddle
  have hscan := Bytes.foldl_scan_blocks (length_maskWord mask) (fun sum word => sum ||| Bytes.toNat word)
    (k := 8) (b := words ++ (Bytes.ofNat 2 mask ++ spare.drop 2)) hhead (by simp [hwords]) mask
  rw [Bytes.mapBlocks_append hwords, Bytes.foldBlocks_append _ hwords] at hscan
  have hfold : maskedOffsets.foldl (fun (s : Bytes × Nat) off =>
      let value := s.1.field 2 off
      (s.1.put off (Bytes.ofNat 2 (value ^^^ mask)), s.2 ||| value))
        ((head ++ (words ++ spare)).put 0x14 (Bytes.ofNat 2 mask), mask) =
      (head ++ (maskWords mask words ++ (Bytes.ofNat 2 mask ++ spare.drop 2)), wordsChecksum mask words) := by
    rw [hput]
    exact hscan
  have hsum : (head ++ (maskWords mask words ++ (Bytes.ofNat 2 mask ++ spare.drop 2))).put 0x16
      (Bytes.ofNat 2 (wordsChecksum mask words)) =
      head ++ (maskWords mask words ++ (Bytes.ofNat 2 mask ++ Bytes.ofNat 2 (wordsChecksum mask words))) := by
    have hmiddle := Bytes.put_middle (x := spare.drop 2) (c := []) (v := Bytes.ofNat 2 (wordsChecksum mask words))
      (show (head ++ (maskWords mask words ++ Bytes.ofNat 2 mask)).length = 0x16 by simp [hhead, hmasked])
      (by simp [hspare])
    simpa using hmiddle
  unfold encodeFragmentHeader
  rw [if_neg (by rw [hlength, Bytes.at_append_left (by omega), hlead]; decide), if_neg (by omega)]
  dsimp only at hfold ⊢
  rw [hfold, hsum, maskFields]

theorem field_maskFields {head words : Bytes} (hhead : head.length = 4) (hwords : words.length = 16) (rest : Bytes) :
    Bytes.field 2 0x14 (head ++ (maskWords mask words ++ (maskFields mask words ++ rest))) = mask ∧
      Bytes.field 2 0x16 (head ++ (maskWords mask words ++ (maskFields mask words ++ rest))) = wordsChecksum mask words := by
  have hfront : (head ++ maskWords mask words).length = 0x14 := by
    rw [List.length_append, hhead, length_maskWords hwords]
  rw [← List.append_assoc, maskFields, List.append_assoc (Bytes.ofNat 2 mask)]
  refine ⟨Bytes.field_middle hfront (by omega), ?_⟩
  rw [← List.append_assoc]
  refine Bytes.field_middle ?_ (wordsChecksum_lt hmask words)
  rw [List.length_append, hfront, Bytes.length_ofNat]

/-- The packet that a masked header with these words decodes to. -/
def packetOf (head words checked payload : Bytes) : FragmentPacket where
  decodedHeader := head ++ (words ++ checked)
  identity := words.field 8 0
  sequence := words.field 4 8
  originalLength := words.field 2 12
  total := words.at_ 14 &&& 0x7F
  index := words.at_ 15
  largePayload := (words.at_ 14).testBit 7
  payload := payload

/-- **A masked header decodes**, where the packet's length fits its field. -/
theorem decode_masked {words payload : Bytes} (hwords : words.length = 16) (hfits : 0x18 + payload.length ≤ 0xFFFF) :
    let head := [0x70, 0x01] ++ Bytes.ofNat 2 (0x18 + payload.length)
    decodeFragmentPacket (head ++ (maskWords mask words ++ maskFields mask words) ++ payload) =
      .ok (packetOf head words (maskFields mask words) payload) := by
  intro head
  set checked := maskFields mask words with hdef
  have hhead : head.length = 4 := by simp [head]
  have hchecked : checked.length = 4 := by simp [hdef, maskFields]
  have hmasked := @length_maskWords mask words hwords
  have hassoc : head ++ (maskWords mask words ++ checked) ++ payload =
      head ++ (maskWords mask words ++ (checked ++ payload)) := by simp
  have hlength : (head ++ (maskWords mask words ++ (checked ++ payload))).length = 0x18 + payload.length := by
    simp only [List.length_append, hhead, hmasked, hchecked]
    omega
  have hlead : Bytes.slice (head ++ (maskWords mask words ++ (checked ++ payload))) 0 2 = [0x70, 0x01] := rfl
  have hsize : Bytes.field 2 2 (head ++ (maskWords mask words ++ (checked ++ payload))) = 0x18 + payload.length := by
    rw [show head = [0x70, 0x01] ++ Bytes.ofNat 2 (0x18 + payload.length) from rfl, List.append_assoc]
    exact Bytes.field_middle rfl (by omega)
  obtain ⟨hmaskField, hsumField⟩ := field_maskFields hmask hhead hwords payload
  have hunmask := unmask_masked hmask hhead hwords (checked ++ payload)
  have hfield (n off : Nat) (h : off + n ≤ 16) : Bytes.field n (off + 4) (head ++ (words ++ (checked ++ payload))) =
      words.field n off := by
    rw [Bytes.field_append_right (by omega), hhead, Nat.add_sub_cancel, Bytes.field_append_left (by omega)]
  have hat (i : Nat) (h : i < 16) : Bytes.at_ (head ++ (words ++ (checked ++ payload))) (i + 4) = words.at_ i := by
    rw [Bytes.at_append_right (by omega), hhead, Nat.add_sub_cancel, Bytes.at_append_left (by omega)]
  have hheader : (head ++ (words ++ (checked ++ payload))).slice 0 0x18 = head ++ (words ++ checked) := by
    rw [Bytes.slice, List.drop_zero, ← List.append_assoc words, ← List.append_assoc]
    exact List.take_left' (by simp [hhead, hwords, hchecked])
  have hpayload : (head ++ (words ++ (checked ++ payload))).drop 0x18 = payload := by
    rw [← List.append_assoc words, ← List.append_assoc]
    exact List.drop_left' (by simp [hhead, hwords, hchecked])
  rw [hassoc]
  unfold decodeFragmentPacket
  rw [if_neg (by rw [hlength, hlead]; simp), if_neg (by rw [hsize, hlength]; simp), hmaskField, hunmask]
  dsimp only
  rw [if_neg (by rw [hsumField]; simp), hheader, hpayload, hfield 8 0 (by decide), hfield 4 8 (by decide),
    hfield 2 12 (by decide), hat 14 (by decide), hat 15 (by decide), packetOf]

/-- **An acknowledgement carries the words** of the packet it is for, under any mask. -/
theorem ack_carries {packet : FragmentPacket} {words : Bytes} (hwords : words.length = 16)
    (hslice : packet.decodedHeader.slice 4 0x10 = words) : ∃ ack, buildFragmentAck packet mask = .ok ack ∧
      (unmask ack (ack.field 2 0x14)).2 = ack.field 2 0x16 ∧ (unmask ack (ack.field 2 0x14)).1.slice 4 0x10 = words := by
  have hhead : ([0x70, 0x02, 0x18, 0x00] : Bytes).length = 4 := rfl
  have hack := encodeFragmentHeader_eq hmask hhead hwords (Bytes.length_zeros 4) rfl
  obtain ⟨hmaskField, hsumField⟩ := field_maskFields hmask hhead hwords []
  have hunmask := unmask_masked hmask hhead hwords (maskFields mask words)
  rw [List.append_nil] at hmaskField hsumField
  rw [buildFragmentAck, hslice, List.append_assoc, hack]
  refine ⟨_, rfl, ?_⟩
  rw [hmaskField, hsumField, hunmask]
  exact ⟨rfl, Bytes.slice_middle hhead hwords⟩

end

/-- A packet too long for its length field is refused, whatever its header. -/
theorem decode_long {wire : Bytes} (h : 0xFFFF < wire.length) : ∃ fault, decodeFragmentPacket wire = .error fault := by
  have hsize : wire.field 2 2 < 256 ^ 2 := Bytes.field_lt
  unfold decodeFragmentPacket
  split
  · exact ⟨_, rfl⟩
  · rw [if_pos (by omega)]
    exact ⟨_, rfl⟩

/-! ## Frames -/

/-- A frame cut into equal chunks, the last of which may be shorter. -/
structure SplitFrame where
  identity : Nat
  sequence : Nat
  largePayload : Bool
  parts : List Bytes
  chunk : Nat
  identity_lt : identity < 256 ^ 8
  sequence_lt : sequence < 256 ^ 4
  count : 1 ≤ parts.length ∧ parts.length ≤ 0x7F
  equal : ∀ part ∈ parts.dropLast, part.length = chunk
  last : (parts.getLastD []).length ≤ chunk
  nonempty : 1 < parts.length → ∀ part ∈ parts, part ≠ []
  frame_le : parts.flatten.length ≤ 0xFFFF

namespace SplitFrame

variable (f : SplitFrame)

def frame : Bytes := f.parts.flatten

def part (i : Nat) : Bytes := f.parts.getD i []

def words (i : Nat) : Bytes :=
  Bytes.ofNat 8 f.identity ++ (Bytes.ofNat 4 f.sequence ++ (Bytes.ofNat 2 f.frame.length ++
    [UInt8.ofNat (f.parts.length + if f.largePayload then 0x80 else 0), UInt8.ofNat i]))

/-- The header of a part; the last four bytes are spare. -/
def header (i : Nat) (spare : Bytes) : Bytes :=
  [0x70, 0x01] ++ Bytes.ofNat 2 (0x18 + (f.part i).length) ++ (f.words i ++ spare)

/-- What is recovered of a packet. -/
structure Recovers (i : Nat) (p : FragmentPacket) : Prop where
  identity : p.identity = f.identity
  sequence : p.sequence = f.sequence
  originalLength : p.originalLength = f.frame.length
  total : p.total = f.parts.length
  index : p.index = i
  largePayload : p.largePayload = f.largePayload
  payload : p.payload = f.part i

theorem length_words (i : Nat) : (f.words i).length = 16 := by simp [words]

theorem recovers_packetOf {i : Nat} (hi : i < f.parts.length) (head checked : Bytes) :
    f.Recovers i (packetOf head (f.words i) checked (f.part i)) := by
  obtain ⟨hpos, hcount⟩ := f.count
  have hframe := f.frame_le
  have hidentity : Bytes.field 8 0 (f.words i) = f.identity := by
    rw [words]
    exact Bytes.field_middle (a := []) rfl f.identity_lt
  have hsequence : Bytes.field 4 8 (f.words i) = f.sequence := by
    rw [words]
    exact Bytes.field_middle (Bytes.length_ofNat 8 _) f.sequence_lt
  have hlength : Bytes.field 2 12 (f.words i) = f.frame.length := by
    rw [words, ← List.append_assoc]
    exact Bytes.field_middle (by simp) (by unfold frame; omega)
  have hlast : f.words i = (Bytes.ofNat 8 f.identity ++ Bytes.ofNat 4 f.sequence ++ Bytes.ofNat 2 f.frame.length) ++
      [UInt8.ofNat (f.parts.length + if f.largePayload then 0x80 else 0), UInt8.ofNat i] := by
    simp [words]
  have hflags : (f.words i).at_ 14 = (f.parts.length + if f.largePayload then 0x80 else 0) := by
    rw [hlast, Bytes.at_append_right (by simp)]
    change (UInt8.ofNat _).toNat = _
    rw [UInt8.toNat_ofNat', Nat.mod_eq_of_lt]
    split <;> omega
  have hindex : (f.words i).at_ 15 = i := by
    rw [hlast, Bytes.at_append_right (by simp)]
    change (UInt8.ofNat i).toNat = _
    rw [UInt8.toNat_ofNat']
    omega
  refine ⟨hidentity, hsequence, hlength, ?_, hindex, ?_, rfl⟩
  · change (f.words i).at_ 14 &&& 0x7F = _
    rw [hflags, show (0x7F : Nat) = 2 ^ 7 - 1 from rfl, Nat.and_two_pow_sub_one_eq_mod]
    split <;> omega
  · change ((f.words i).at_ 14).testBit 7 = _
    rw [hflags, Nat.testBit_eq_decide_div_mod_eq]
    cases f.largePayload with
    | true =>
      rw [if_pos rfl, decide_eq_true_eq]
      omega
    | false =>
      rw [if_neg (by simp), decide_eq_false_iff_not]
      omega

/-- **Each packet survives its mask**: it decodes to what it was made from, and its
acknowledgement carries its words. -/
theorem packet_survives {i : Nat} (hi : i < f.parts.length) (hfits : 0x18 + (f.part i).length ≤ 0xFFFF) {mask : Nat}
    (hmask : mask ≤ 0xFFFF) {spare : Bytes} (hspare : spare.length = 4) :
    ∃ header packet, encodeFragmentHeader (f.header i spare) mask = .ok header ∧
      decodeFragmentPacket (header ++ f.part i) = .ok packet ∧ f.Recovers i packet ∧
      ∀ ackMask ≤ 0xFFFF, ∃ ack, buildFragmentAck packet ackMask = .ok ack ∧
        (unmask ack (ack.field 2 0x14)).2 = ack.field 2 0x16 ∧
        (unmask ack (ack.field 2 0x14)).1.slice 4 0x10 = (f.header i spare).slice 4 0x10 := by
  have hhead : ([0x70, 0x01] ++ Bytes.ofNat 2 (0x18 + (f.part i).length) : Bytes).length = 4 := by simp
  have hslice (rest : Bytes) :
      Bytes.slice ([0x70, 0x01] ++ Bytes.ofNat 2 (0x18 + (f.part i).length) ++ (f.words i ++ rest)) 4 0x10 = f.words i :=
    Bytes.slice_middle hhead (f.length_words i)
  refine ⟨_, _, encodeFragmentHeader_eq hmask hhead (f.length_words i) hspare rfl,
    decode_masked hmask (f.length_words i) hfits, f.recovers_packetOf hi _ _, fun ackMask hack => ?_⟩
  rw [header, hslice spare]
  exact ack_carries hack (f.length_words i) (hslice _)

/-! ## Reassembly -/

def key : FragmentKey := ⟨f.identity, f.sequence, f.frame.length, f.parts.length, f.largePayload⟩

variable {f}

theorem Recovers.key {i : Nat} {p : FragmentPacket} (h : f.Recovers i p) : p.key = f.key := by
  rw [FragmentPacket.key, h.identity, h.sequence, h.originalLength, h.total, h.largePayload, SplitFrame.key]

theorem assemble_parts (f : SplitFrame) : FragmentReassembler.assemble f.frame.length f.parts.length f.parts = .ok f.frame := by
  have hequal := f.equal
  have hlast := f.last
  have hhead (hmany : 1 < f.parts.length) : (f.parts.headD []).length = f.chunk ∧ f.chunk ≠ 0 := by
    have hnonempty := f.nonempty hmany
    match hparts : f.parts, hmany with
    | first :: second :: rest, _ =>
      rw [hparts] at hequal hnonempty
      have hfirst : first.length = f.chunk := hequal first (by simp)
      refine ⟨hfirst, fun hzero => hnonempty first (by simp) ?_⟩
      rw [← List.length_eq_zero_iff, hfirst, hzero]
  have hchunks (hmany : 1 < f.parts.length) :
      (f.parts.dropLast.any fun part => decide (part.length ≠ (f.parts.headD []).length)) = false := by
    rw [(hhead hmany).1]
    simp only [List.any_eq_false, decide_eq_true_eq, not_not]
    exact hequal
  unfold FragmentReassembler.assemble
  dsimp only
  rw [if_neg, if_neg, if_neg]
  · rfl
  · exact not_not.mpr rfl
  · rintro ⟨hmany, hlarger⟩
    rw [(hhead hmany).1] at hlarger
    omega
  · rintro ⟨hmany, hzero | hany⟩
    · exact (hhead hmany).2 ((hhead hmany).1.symm.trans hzero)
    · rw [hchunks hmany] at hany
      cases hany

/-- A reassembler that has these parts of a frame, and of no other. -/
structure Holds (f : SplitFrame) (r : FragmentReassembler) (before : List Nat) : Prop where
  groups : ∀ k, r.groups.get? k = none ↔ ¬(k = f.key ∧ before ≠ [])
  parts : ∀ parts, r.groups.get? f.key = some parts → ∀ i, parts.get? i = if i ∈ before then some (f.part i) else none
  room : 1 ≤ r.maxGroups

theorem Holds.group {r : FragmentReassembler} {before : List Nat} (h : Holds f r before) (i : Nat) :
    ((r.groups.get? f.key).getD ∅).get? i = if i ∈ before then some (f.part i) else none := by
  cases hget : r.groups.get? f.key with
  | none =>
    have hnil : before = [] := by
      by_contra hne
      exact (h.groups f.key).mp hget ⟨rfl, hne⟩
    simp [hnil]
  | some parts => exact h.parts parts hget i

theorem Holds.add {r : FragmentReassembler} {before : List Nat} (h : Holds f r before) {i : Nat}
    (hnodup : (before ++ [i]).Nodup) (hlt : i < f.parts.length) {p : FragmentPacket} (hp : f.Recovers i p) :
    (before.length + 1 ≠ f.parts.length → ∃ r', r.add p = (.ok none, r') ∧ Holds f r' (before ++ [i])) ∧
      (before.length + 1 = f.parts.length → (∀ j ∈ before, j < f.parts.length) → (r.add p).1 = .ok (some f.frame)) := by
  obtain ⟨hpos, hcount⟩ := f.count
  have hnew : i ∉ before := by
    rw [List.nodup_append] at hnodup
    exact fun hmem => hnodup.2.2 i hmem i (by simp) rfl
  have hindex : ¬(p.total < 1 ∨ 0x7F < p.total ∨ p.total ≤ p.index) := by
    rw [hp.total, hp.index]
    omega
  have hroom : ¬((r.groups.get? p.key).isNone ∧ r.maxGroups ≤ r.groups.size) := by
    rintro ⟨hnone, hfull⟩
    rw [hp.key, Option.isNone_iff_eq_none, h.groups] at hnone
    have hempty : r.groups.size = 0 := by
      refine Dict.size_eq_length List.nodup_nil fun k => iff_of_true ((h.groups k).mpr ?_) (by simp)
      rintro ⟨rfl, hne⟩
      exact hnone ⟨rfl, hne⟩
    have hone := h.room
    omega
  set parts := ((r.groups.get? f.key).getD ∅).set i (f.part i) with hdef
  have hparts (j : Nat) : parts.get? j = if j ∈ before ++ [i] then some (f.part j) else none := by
    rw [hdef, Dict.get?_set, h.group]
    by_cases hj : j = i
    · simp [hj]
    · simp [hj]
  have hsize : parts.size = before.length + 1 := by
    rw [Dict.size_eq_length hnodup fun j => by rw [hparts]; simp]
    simp
  unfold FragmentReassembler.add
  rw [if_neg hindex, if_neg hroom]
  dsimp only
  rw [hp.key, hp.index, hp.payload, hp.total, hp.originalLength, h.group, if_neg hnew, if_neg (by simp), ← hdef]
  constructor
  · intro hmore
    refine ⟨_, if_pos (by rw [hsize]; exact hmore), fun k => ?_, fun parts' hget j => ?_, h.room⟩
    · rw [Dict.get?_set]
      by_cases hk : k = f.key
      · simp [hk]
      · rw [if_neg hk, h.groups]
        simp [hk]
    · rw [Dict.get?_set, if_pos rfl] at hget
      cases hget
      exact hparts j
  · intro hlast hbefore
    have hall : (List.range f.parts.length).map (fun index => (parts.get? index).getD []) = f.parts := by
      refine List.ext_getElem (by simp) fun j hj hj' => ?_
      have hmem : j ∈ before ++ [i] := by
        refine Delivery.range_subset hnodup (fun k hk => ?_) (by simpa using hlast) hj'
        rcases List.mem_append.mp hk with hk | hk
        · exact hbefore k hk
        · rw [List.mem_singleton.mp hk]
          exact hlt
      rw [List.getElem_map, List.getElem_range, hparts, if_pos hmem, Option.getD_some, SplitFrame.part,
        List.getD_eq_getElem?_getD, List.getElem?_eq_getElem hj', Option.getD_some]
    rw [if_neg (by rw [hsize]; exact not_not.mpr hlast), hall, f.assemble_parts]

section

variable (f) {r : FragmentReassembler} {maxGroups : Nat} (hnew : FragmentReassembler.new maxGroups = .ok r)
  {packet : Nat → FragmentPacket} (hpacket : ∀ i < f.parts.length, f.Recovers i (packet i))

include hnew

theorem Holds.fresh : Holds f r [] := by
  unfold FragmentReassembler.new at hnew
  split at hnew
  · cases hnew
  next hlimit =>
    cases hnew
    refine ⟨fun k => iff_of_true rfl (by simp), fun parts hget => ?_, ?_⟩
    · cases hget
    · change 1 ≤ maxGroups
      omega

include hpacket

theorem run_before {before : List Nat} (hnodup : before.Nodup) (hlt : ∀ i ∈ before, i < f.parts.length)
    (hmore : before.length < f.parts.length) :
    Holds f (FragmentRun.run r (before.map packet)).reassembler before ∧
      (FragmentRun.run r (before.map packet)).log.map Prod.snd = List.replicate before.length (.ok none) := by
  induction before using List.reverseRecOn with
  | nil => exact ⟨Holds.fresh f hnew, rfl⟩
  | append_singleton before i ih =>
    rw [List.length_append, List.length_singleton] at hmore
    obtain ⟨hholds, hlog⟩ := ih (hnodup.sublist (List.sublist_append_left ..))
      (fun j hj => hlt j (List.mem_append_left _ hj)) (by omega)
    have hi := hlt i (by simp)
    obtain ⟨r', hadd, hholds'⟩ := (hholds.add hnodup hi (hpacket i hi)).1 (by omega)
    rw [List.map_append, List.map_singleton, FragmentRun.run_append, FragmentRun.step, hadd]
    refine ⟨hholds', ?_⟩
    rw [List.map_append, hlog, List.length_append, List.length_singleton, List.replicate_succ']
    rfl

/-- **The packets of a frame give it at the last one**, in any order. -/
theorem run_frame {order : List Nat} (horder : order.Perm (List.range f.parts.length)) :
    (FragmentRun.run r (order.map packet)).log.map Prod.snd =
      List.replicate (f.parts.length - 1) (.ok none) ++ [.ok (some f.frame)] := by
  have hlength : order.length = f.parts.length := by rw [horder.length_eq, List.length_range]
  have hnodup : order.Nodup := horder.nodup_iff.mpr List.nodup_range
  have hlt : ∀ i ∈ order, i < f.parts.length := fun i hi => List.mem_range.mp (horder.mem_iff.mp hi)
  have hpos := f.count.1
  rcases List.eq_nil_or_concat' order with hnil | ⟨before, i, horder'⟩
  · rw [hnil, List.length_nil] at hlength
    omega
  · rw [horder', List.length_append, List.length_singleton] at hlength
    rw [horder'] at hnodup hlt ⊢
    have hbefore : ∀ j ∈ before, j < f.parts.length := fun j hj => hlt j (List.mem_append_left _ hj)
    have hi := hlt i (by simp)
    obtain ⟨hholds, hlog⟩ := run_before f hnew hpacket (hnodup.sublist (List.sublist_append_left ..)) hbefore (by omega)
    have hadd := (hholds.add hnodup hi (hpacket i hi)).2 hlength hbefore
    rw [List.map_append, List.map_singleton, FragmentRun.run_append, FragmentRun.step, List.map_append, hlog,
      List.map_singleton, hadd, ← hlength, Nat.add_sub_cancel]

end

/-! ## A frame through -/

/-- What comes of one packet, under any mask of its own and of its acknowledgement. -/
def Survives (f : SplitFrame) (i : Nat) : Prop :=
  ∀ mask ≤ 0xFFFF, ∀ spare : Bytes, spare.length = 4 →
    ∃ header packet, encodeFragmentHeader (f.header i spare) mask = .ok header ∧
      decodeFragmentPacket (header ++ f.part i) = .ok packet ∧ f.Recovers i packet ∧
      ∀ ackMask ≤ 0xFFFF, ∃ ack, buildFragmentAck packet ackMask = .ok ack ∧
        (unmask ack (ack.field 2 0x14)).2 = ack.field 2 0x16 ∧
        (unmask ack (ack.field 2 0x14)).1.slice 4 0x10 = (f.header i spare).slice 4 0x10

/-- **The fragments of a frame survive their masks**, where each packet fits its length
field: they decode to what they were made from, are acknowledged as such, and give the
frame exactly at the last one, whatever the order. -/
theorem fragments_survive (f : SplitFrame) (hfits : ∀ part ∈ f.parts, 0x18 + part.length ≤ 0xFFFF) :
    (∀ i < f.parts.length, f.Survives i) ∧
    ∀ (mask : Nat → Nat) (spare : Nat → Bytes) (packet : Nat → FragmentPacket),
      (∀ i < f.parts.length, mask i ≤ 0xFFFF ∧ (spare i).length = 4 ∧ ∃ header,
        encodeFragmentHeader (f.header i (spare i)) (mask i) = .ok header ∧
        decodeFragmentPacket (header ++ f.part i) = .ok (packet i)) →
      ∀ maxGroups r, FragmentReassembler.new maxGroups = .ok r → ∀ order : List Nat, order.Perm (List.range f.parts.length) →
        (FragmentRun.run r (order.map packet)).log.map Prod.snd =
          List.replicate (f.parts.length - 1) (.ok none) ++ [.ok (some f.frame)] := by
  have hpart (i : Nat) (hi : i < f.parts.length) : 0x18 + (f.part i).length ≤ 0xFFFF := by
    refine hfits _ ?_
    rw [part, List.getD_eq_getElem?_getD, List.getElem?_eq_getElem hi, Option.getD_some]
    exact List.getElem_mem hi
  have hsurvive (i : Nat) (hi : i < f.parts.length) : f.Survives i := fun _ hmask _ hspare =>
    f.packet_survives hi (hpart i hi) hmask hspare
  refine ⟨hsurvive, fun mask spare packet hpackets maxGroups r hnew order horder => ?_⟩
  refine f.run_frame hnew (fun i hi => ?_) horder
  obtain ⟨hmask, hspare, header, hencode, hdecode⟩ := hpackets i hi
  obtain ⟨header', packet', hencode', hdecode', hrecovers, -⟩ := hsurvive i hi (mask i) hmask (spare i) hspare
  rw [hencode, Except.ok.injEq] at hencode'
  subst hencode'
  rw [hdecode, Except.ok.injEq] at hdecode'
  rw [hdecode']
  exact hrecovers

/-- Seven bytes in three chunks. -/
def threeChunks : SplitFrame where
  identity := 0x1122334455667788
  sequence := 0xFFFFFFFF
  largePayload := true
  parts := [[1, 2, 3], [4, 5, 6], [7]]
  chunk := 3
  identity_lt := by decide
  sequence_lt := by decide
  count := by decide
  equal := by simp
  last := by simp
  nonempty := by simp
  frame_le := by decide

/-- Its packets, each under a mask of its own. -/
def threePackets (i : Nat) : FragmentPacket :=
  packetOf ([0x70, 0x01] ++ Bytes.ofNat 2 (0x18 + (threeChunks.part i).length)) (threeChunks.words i)
    (maskFields (0xBEEF + i) (threeChunks.words i)) (threeChunks.part i)

theorem three_chunks_survive : (∀ i < 3, threeChunks.Survives i) ∧
    (FragmentRun.run ⟨8, ∅⟩ ([2, 0, 1].map threePackets)).log.map Prod.snd =
      [.ok none, .ok none, .ok (some [1, 2, 3, 4, 5, 6, 7])] := by
  obtain ⟨hsurvive, hrun⟩ := fragments_survive threeChunks (by simp [threeChunks])
  refine ⟨hsurvive, hrun (fun i => 0xBEEF + i) (fun _ => Bytes.zeros 4) threePackets (fun i hi => ?_) 8 ⟨8, ∅⟩ rfl
    [2, 0, 1] (by decide)⟩
  have hi3 : i < 3 := hi
  have hmask : 0xBEEF + i ≤ 0xFFFF := by omega
  have hwords := threeChunks.length_words i
  refine ⟨hmask, rfl, _, encodeFragmentHeader_eq hmask (by simp) hwords rfl rfl, decode_masked hmask hwords ?_⟩
  have hsmall : ∀ j < 3, 0x18 + (threeChunks.part j).length ≤ 0xFFFF := by decide
  exact hsmall i hi3

/-- One chunk whose packet is longer than its length field can say. -/
def wideFrame : SplitFrame where
  identity := 1
  sequence := 1
  largePayload := false
  parts := [Bytes.zeros 65512]
  chunk := 65512
  identity_lt := by decide
  sequence_lt := by decide
  count := by decide
  equal := by simp
  last := by simp
  nonempty := by simp
  frame_le := by simp

theorem wide_frame_refused : ¬ ∀ f : SplitFrame, ∀ i < f.parts.length, f.Survives i := by
  intro hall
  obtain ⟨header, packet, hencode, hdecode, -⟩ := hall wideFrame 0 (by decide) 0 (by decide) (Bytes.zeros 4) rfl
  have hhead : ([0x70, 0x01] ++ Bytes.ofNat 2 (0x18 + (wideFrame.part 0).length) : Bytes).length = 4 := by simp
  have hwords := wideFrame.length_words 0
  have hmask : (0 : Nat) ≤ 0xFFFF := by decide
  have hmade := encodeFragmentHeader_eq hmask hhead hwords (Bytes.length_zeros 4) rfl
  have hwide : (wideFrame.part 0).length = 65512 := Bytes.length_zeros 65512
  unfold SplitFrame.header at hencode
  rw [hmade, Except.ok.injEq] at hencode
  have hlong : 0xFFFF < (header ++ wideFrame.part 0).length := by
    rw [← hencode]
    simp only [List.length_append, length_maskWords hwords, maskFields, Bytes.length_ofNat, hwide]
    decide
  obtain ⟨fault, hfault⟩ := decode_long hlong
  rw [hfault] at hdecode
  cases hdecode

end SplitFrame

end CamGuard.Account
