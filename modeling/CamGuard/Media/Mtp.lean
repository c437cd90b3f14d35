/-
MTP frames, as `media_protocol.py` builds and verifies them: a six-byte
prefix (lead byte, kind, an 11-bit total length split over two bytes, a
16-bit checksum) before the payload. The checksum is a rotating exclusive or
of the first twelve payload words, mixed with the length word.
-/
import CamGuard.Lib.Bytes
import Mathlib.Tactic.Set

namespace CamGuard.Media

def MTP_PREFIX_SIZE : Nat := 6
def MTP_MAX_FRAME_SIZE : Nat := 0x7FF

/-- `_rotate_left_16`. -/
def rotateLeft16 (value shift : Nat) : Nat :=
  let shift := shift &&& 15
  ((value <<< shift) ||| (value >>> ((16 - shift) &&& 15))) &&& 0xFFFF

/-- `mtp_frame_length`, for a frame of at least four bytes. -/
def mtpFrameLength (frame : Bytes) : Nat := (frame.at_ 2 &&& 0x07) ||| (frame.at_ 3 <<< 3)

/-- `mtp_checksum`, for a frame of at least thirty bytes. -/
def mtpChecksum (frame : Bytes) : Nat :=
  (List.range 12).foldl
    (fun checksum index => checksum ^^^ rotateLeft16 (frame.field 2 (MTP_PREFIX_SIZE + index * 2)) index) 0
    &&& 0xFFFF

/-- `verify_mtp_frame`. -/
def verifyMtpFrame (frame : Bytes) : Bool :=
  if frame.length < 30 ∨ frame.at_ 0 ≠ 0xC0 ∨ mtpFrameLength frame ≠ frame.length then false
  else frame.field 2 4 == mtpChecksum frame ^^^ frame.field 2 2

/-- Why `build_mtp_frame` refuses. -/
inductive MtpBuildFault where
  | subtype
  | payload
  | total
  deriving DecidableEq, Repr

def MtpBuildFault.reason : MtpBuildFault → String
  | .subtype => "MTP subtype must fit in one byte"
  | .payload => "MTP payload must contain at least 24 bytes"
  | .total => "MTP frame exceeds the 11-bit length field"

/-- `build_mtp_frame`: the checksum is computed with its own two bytes zero,
which it does not read. -/
def buildMtpFrame (subtype : Nat) (payload : Bytes) : Except MtpBuildFault Bytes :=
  let total := MTP_PREFIX_SIZE + payload.length
  if 0xFF < subtype then .error .subtype
  else if payload.length < 24 then .error .payload
  else if MTP_MAX_FRAME_SIZE < total then .error .total
  else
    let frame : Bytes :=
      [0xC0, UInt8.ofNat subtype, UInt8.ofNat (total &&& 0x07), UInt8.ofNat (total >>> 3), 0, 0] ++ payload
    .ok (frame.put 4 (Bytes.ofNat 2 (mtpChecksum frame ^^^ frame.field 2 2)))

theorem verifyMtpFrame_length {frame : Bytes} (h : verifyMtpFrame frame = true) :
    30 ≤ frame.length ∧ mtpFrameLength frame = frame.length := by
  simp only [verifyMtpFrame] at h
  split at h
  · cases h
  · rename_i hc
    simp only [not_or, not_not] at hc
    exact ⟨by omega, hc.2.2⟩

theorem mtpFrameLength_le (frame : Bytes) : mtpFrameLength frame ≤ MTP_MAX_FRAME_SIZE := by
  have hlow : frame.at_ 2 &&& 0x07 < 2 ^ 11 := lt_of_le_of_lt Nat.and_le_right (by decide)
  have hhigh : frame.at_ 3 <<< 3 < 2 ^ 11 := by
    have := frame.at_lt 3
    rw [Nat.shiftLeft_eq]
    omega
  exact Nat.le_of_lt_succ (Nat.or_lt_two_pow hlow hhigh)

theorem mtpFrameLength_take {frame : Bytes} {n : Nat} (h : 4 ≤ n) :
    mtpFrameLength (frame.take n) = mtpFrameLength frame := by
  simp only [mtpFrameLength, Bytes.at_take (show 2 < n by omega), Bytes.at_take (show 3 < n by omega)]

theorem mtpFrameLength_append {b c : Bytes} (h : 4 ≤ b.length) :
    mtpFrameLength (b ++ c) = mtpFrameLength b := by
  simp only [mtpFrameLength, Bytes.at_append_left (show 2 < b.length by omega),
    Bytes.at_append_left (show 3 < b.length by omega)]

/-! ## A built frame verifies -/

/-- The checksum reads the payload alone. -/
theorem mtpChecksum_head (head payload : Bytes) (h : head.length = MTP_PREFIX_SIZE) :
    mtpChecksum (head ++ payload) = mtpChecksum (Bytes.zeros MTP_PREFIX_SIZE ++ payload) := by
  have hfield : ∀ index, (head ++ payload).field 2 (MTP_PREFIX_SIZE + index * 2) =
      (Bytes.zeros MTP_PREFIX_SIZE ++ payload).field 2 (MTP_PREFIX_SIZE + index * 2) := by
    intro index
    rw [Bytes.field_append_right (by omega), Bytes.field_append_right (by simp), h, Bytes.length_zeros]
  simp only [mtpChecksum, hfield]

theorem mtpChecksum_lt (frame : Bytes) : mtpChecksum frame < 2 ^ 16 := by
  refine lt_of_le_of_lt Nat.and_le_right ?_
  decide

/-- The 11-bit length, split over two bytes and joined again. -/
theorem split_length {total : Nat} (h : total < 2 ^ 11) :
    (UInt8.ofNat (total &&& 7)).toNat &&& 7 ||| (UInt8.ofNat (total >>> 3)).toNat <<< 3 = total := by
  have hlow : total &&& 7 = total % 8 := Nat.and_two_pow_sub_one_eq_mod total 3
  have hhigh : total >>> 3 = total / 8 := Nat.shiftRight_eq_div_pow total 3
  have hmask : ∀ r, r &&& 7 = r % 8 := fun r => Nat.and_two_pow_sub_one_eq_mod r 3
  rw [hlow, hhigh, UInt8.toNat_ofNat', UInt8.toNat_ofNat', hmask, Nat.or_comm,
    ← Nat.shiftLeft_add_eq_or_of_lt (by omega), Nat.shiftLeft_eq]
  omega

/-- **What `build_mtp_frame` makes is a frame that `verify_mtp_frame` admits**,
with the payload behind a six-byte prefix. -/
theorem buildMtpFrame_ok {subtype : Nat} {payload frame : Bytes} (h : buildMtpFrame subtype payload = .ok frame) :
    verifyMtpFrame frame = true ∧ frame.slice 0 2 = [0xC0, UInt8.ofNat subtype] ∧
      frame.drop MTP_PREFIX_SIZE = payload ∧ frame.length = MTP_PREFIX_SIZE + payload.length := by
  simp only [buildMtpFrame] at h
  split at h
  · cases h
  split at h
  · cases h
  split at h
  · cases h
  rename_i hsub hmin hmax
  simp only [MTP_PREFIX_SIZE, MTP_MAX_FRAME_SIZE, Except.ok.injEq] at h hmin hmax
  set total := 6 + payload.length with htotal
  set lo := UInt8.ofNat (total &&& 0x07)
  set hi := UInt8.ofNat (total >>> 3)
  set blank : Bytes := [0xC0, UInt8.ofNat subtype, lo, hi, 0, 0] ++ payload with hblank
  set v := mtpChecksum blank ^^^ blank.field 2 2 with hv
  have hframe : frame = ([0xC0, UInt8.ofNat subtype, lo, hi] ++ Bytes.ofNat 2 v) ++ payload := by
    rw [← h, hblank]
    simp [Bytes.put]
  have hlen : frame.length = total := by rw [hframe]; simp [htotal]; omega
  have hword : ∀ tail : Bytes,
      Bytes.field 2 2 ([0xC0, UInt8.ofNat subtype, lo, hi] ++ tail) = Bytes.toNat [lo, hi] := by
    intro tail
    rfl
  have hv16 : v < 2 ^ 16 := by
    refine Nat.xor_lt_two_pow (mtpChecksum_lt _) ?_
    exact Bytes.field_lt
  have hsum : mtpChecksum frame = mtpChecksum blank := by
    rw [hframe, mtpChecksum_head _ payload (by simp [MTP_PREFIX_SIZE]), hblank,
      mtpChecksum_head [0xC0, UInt8.ofNat subtype, lo, hi, 0, 0] payload (by simp [MTP_PREFIX_SIZE])]
  have hcheck : frame.field 2 4 = v := by
    rw [hframe, List.append_assoc, Bytes.field_append_right (by simp)]
    simpa using Nat.mod_eq_of_lt hv16
  have hw : frame.field 2 2 = blank.field 2 2 := by
    rw [hframe, hblank, List.append_assoc]
    exact (hword _).trans (hword ([0, 0] ++ payload)).symm
  have hl : mtpFrameLength frame = frame.length := by
    rw [hlen, mtpFrameLength, hframe]
    exact split_length (by omega)
  refine ⟨?_, ?_, ?_, hlen⟩
  · rw [verifyMtpFrame, if_neg ?_, hcheck, hsum, hw]
    · simp [hv]
    · rw [hframe] at hl ⊢
      simp only [not_or, not_not]
      exact ⟨by simp; omega, rfl, hl⟩
  · rw [hframe]
    rfl
  · rw [hframe]
    exact List.drop_left' (by simp [MTP_PREFIX_SIZE])

theorem buildMtpFrame_of_fits {subtype : Nat} {payload : Bytes} (hsub : subtype ≤ 0xFF)
    (hmin : 24 ≤ payload.length) (hmax : MTP_PREFIX_SIZE + payload.length ≤ MTP_MAX_FRAME_SIZE) :
    ∃ frame, buildMtpFrame subtype payload = .ok frame := by
  simp only [buildMtpFrame]
  rw [if_neg (by omega), if_neg (by omega), if_neg (by omega)]
  exact ⟨_, rfl⟩

end CamGuard.Media
