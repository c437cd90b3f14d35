/-
RC5 is invertible: the two block transforms undo each other, for every key, every
number of rounds and every word size of whole bytes.

A round is undone by the round of the same number; the rounds are undone from
the last to the first (`foldl_undo`).
-/
import CamGuard.Crypto.Rc5

namespace CamGuard.Crypto

/-! ## Rotations -/

theorem rotr_rotl {w : Nat} (x y : BitVec w) : rotr (rotl x y) y = x := by
  unfold rotr rotl
  ext i hi
  have hr := Nat.mod_lt y.toNat (Nat.lt_of_le_of_lt (Nat.zero_le i) hi)
  generalize y.toNat % w = r at hr
  simp only [BitVec.getElem_rotateRight, BitVec.getElem_rotateLeft, Nat.mod_eq_of_lt hr]
  split
  · rw [dif_neg (by omega)]
    congr 1
    omega
  · rw [dif_pos (by omega)]
    congr 1
    omega

theorem rotl_rotr {w : Nat} (x y : BitVec w) : rotl (rotr x y) y = x := by
  unfold rotr rotl
  ext i hi
  have hr := Nat.mod_lt y.toNat (Nat.lt_of_le_of_lt (Nat.zero_le i) hi)
  generalize y.toNat % w = r at hr
  simp only [BitVec.getElem_rotateRight, BitVec.getElem_rotateLeft, Nat.mod_eq_of_lt hr]
  split
  · rw [dif_neg (by omega)]
    congr 1
    omega
  · rw [dif_pos (by omega)]
    congr 1
    omega

namespace RC5

variable {w : Nat}

/-! ## Rounds -/

theorem decryptRound_encryptRound (c : RC5 w) (i : Nat) (AB : BitVec w × BitVec w) :
    c.decryptRound (c.encryptRound AB i) i = AB := by
  simp only [decryptRound, encryptRound, BitVec.add_sub_cancel, rotr_rotl, BitVec.xor_assoc, BitVec.xor_self,
    BitVec.xor_zero]

theorem encryptRound_decryptRound (c : RC5 w) (i : Nat) (AB : BitVec w × BitVec w) :
    c.encryptRound (c.decryptRound AB i) i = AB := by
  simp only [decryptRound, encryptRound, BitVec.sub_add_cancel, rotl_rotr, BitVec.xor_assoc, BitVec.xor_self,
    BitVec.xor_zero]

/-- Steps that are undone one by one are undone from the last to the first. -/
theorem foldl_undo {σ ι : Type} {f g : σ → ι → σ} (h : ∀ i s, g (f s i) i = s) (is : List ι) (s : σ) :
    is.reverse.foldl g (is.foldl f s) = s := by
  induction is generalizing s with
  | nil => rfl
  | cons i is ih => rw [List.foldl_cons, List.reverse_cons, List.foldl_append, ih, List.foldl_cons, List.foldl_nil, h]

theorem decrypt_encrypt_rounds (c : RC5 w) (is : List Nat) (AB : BitVec w × BitVec w) :
    is.reverse.foldl c.decryptRound (is.foldl c.encryptRound AB) = AB :=
  foldl_undo c.decryptRound_encryptRound is AB

theorem encrypt_decrypt_rounds (c : RC5 w) (is : List Nat) (AB : BitVec w × BitVec w) :
    is.foldl c.encryptRound (is.reverse.foldl c.decryptRound AB) = AB := by
  have h := foldl_undo c.encryptRound_decryptRound is.reverse AB
  rwa [List.reverse_reverse] at h

/-! ## Blocks -/

theorem two_pow_bytes (hw : 8 ∣ w) : 256 ^ (w / 8) = 2 ^ w := by
  obtain ⟨u, rfl⟩ := hw
  rw [Nat.mul_div_cancel_left u (by decide), show 256 = 2 ^ 8 by decide, ← Nat.pow_mul]

theorem unpackBlock_packBlock (hw : 8 ∣ w) (A B : BitVec w) : unpackBlock w (packBlock A B) = (A, B) := by
  have hword (x : BitVec w) : BitVec.ofNat w (x.toNat % 256 ^ (w / 8)) = x := by
    rw [two_pow_bytes hw, Nat.mod_eq_of_lt x.isLt, BitVec.ofNat_toNat, BitVec.setWidth_eq]
  unfold unpackBlock packBlock
  rw [Bytes.field_ofNat, Bytes.field_append_right (by simp), Bytes.length_ofNat, Nat.sub_self, Bytes.field_ofNat_self,
    hword, hword]

theorem packBlock_unpackBlock (hw : 8 ∣ w) {block : Bytes} (h : block.length = w / 8 + w / 8) :
    packBlock (unpackBlock w block).1 (unpackBlock w block).2 = block := by
  have hword (off : Nat) (hoff : off + w / 8 ≤ block.length) :
      Bytes.ofNat (w / 8) (BitVec.ofNat w (block.field (w / 8) off)).toNat = block.slice off (w / 8) := by
    have hlt := @Bytes.field_lt block (w / 8) off
    rw [two_pow_bytes hw] at hlt
    rw [BitVec.toNat_ofNat, Nat.mod_eq_of_lt hlt, Bytes.ofNat_field hoff]
  unfold packBlock unpackBlock
  rw [hword 0 (by omega), hword (w / 8) (by omega), Bytes.slice_append_slice (Nat.zero_add _), ← h,
    Bytes.slice_zero_length]

@[simp] theorem length_decryptBlock (c : RC5 w) (block : Bytes) :
    (c.decryptBlock block).length = w / 8 + w / 8 := by
  simp [decryptBlock, packBlock]

/-- **Decryption undoes encryption.** -/
theorem decryptBlock_encryptBlock (hw : 8 ∣ w) (c : RC5 w) {block : Bytes} (h : block.length = w / 8 + w / 8) :
    c.decryptBlock (c.encryptBlock block) = block := by
  unfold decryptBlock encryptBlock
  simp only [unpackBlock_packBlock hw, Prod.mk.eta, decrypt_encrypt_rounds, BitVec.add_sub_cancel]
  exact packBlock_unpackBlock hw h

/-- **Encryption undoes decryption.** -/
theorem encryptBlock_decryptBlock (hw : 8 ∣ w) (c : RC5 w) {block : Bytes} (h : block.length = w / 8 + w / 8) :
    c.encryptBlock (c.decryptBlock block) = block := by
  unfold decryptBlock encryptBlock
  simp only [unpackBlock_packBlock hw, BitVec.sub_add_cancel, Prod.mk.eta, encrypt_decrypt_rounds]
  exact packBlock_unpackBlock hw h

/-- The known answer of the source's self-test. -/
example : (RC5.new 32 (Bytes.zeros 16) 12).encryptBlock (Bytes.zeros 8) =
    [0x21, 0xa5, 0xdb, 0xee, 0x15, 0x4b, 0x8f, 0x6d] := by decide +kernel

end RC5

end CamGuard.Crypto
