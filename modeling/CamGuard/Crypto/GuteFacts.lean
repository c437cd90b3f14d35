/-
The gute ciphers are invertible (`gute_ciphers_invert`). A frame is laid out as
first word, identity, the two words of sequence and checksum, flags, payload;
encryption changes the identity, the two words and the whole blocks of the
payload, and what decides how (length, mode, trailer flags, the key of mode 1)
stands in the first word and the flags, which stay. So decryption takes the same
blocks under the same key.
-/
import CamGuard.Crypto.Gute
import CamGuard.Crypto.Rc5Facts
import CamGuard.Lib.Blocks

namespace CamGuard.Crypto

/-! ## Layout -/

def lay (head id words flags payload : Bytes) : Bytes := head ++ (id ++ (words ++ (flags ++ payload)))

/-- The lengths of the parts of a header. -/
structure Sized (head id words flags : Bytes) : Prop where
  head : head.length = 4
  id : id.length = 8
  words : words.length = 8
  flags : flags.length = 4

theorem exists_lay {frm : Bytes} (h : 0x18 ≤ frm.length) :
    ∃ head id words flags payload, frm = lay head id words flags payload ∧ Sized head id words flags ∧
      payload.length = frm.length - 0x18 := by
  refine ⟨frm.take 4, (frm.drop 4).take 8, (frm.drop 12).take 8, (frm.drop 20).take 4, frm.drop 24, ?_, ?_, ?_⟩
  · have hsplit (off n : Nat) : (frm.drop off).take n ++ frm.drop (off + n) = frm.drop off := by
      rw [← List.drop_drop, List.take_append_drop]
    unfold lay
    rw [hsplit 20 4, hsplit 12 8, hsplit 4 8, List.take_append_drop]
  · constructor <;> simp only [List.length_take, List.length_drop] <;> omega
  · rw [List.length_drop]

section

variable {head id words flags payload : Bytes} (hs : Sized head id words flags)

include hs

theorem length_lay : (lay head id words flags payload).length = 0x18 + payload.length := by
  simp only [lay, List.length_append, hs.head, hs.id, hs.words, hs.flags]
  omega

theorem slice_lay_head : (lay head id words flags payload).slice 0 4 = head := by
  rw [lay, Bytes.slice_append_left (by rw [hs.head]), ← hs.head, Bytes.slice_zero_length]

theorem slice_lay_id : (lay head id words flags payload).slice 4 8 = id := Bytes.slice_middle hs.head hs.id

theorem slice_lay_words : (lay head id words flags payload).slice 0xC 8 = words := by
  rw [lay, ← List.append_assoc]
  exact Bytes.slice_middle (by rw [List.length_append, hs.head, hs.id]) hs.words

theorem slice_lay_flags : (lay head id words flags payload).slice 0x14 4 = flags := by
  rw [lay, ← List.append_assoc, ← List.append_assoc]
  exact Bytes.slice_middle (by simp only [List.length_append, hs.head, hs.id, hs.words]) hs.flags

theorem put_lay_words {v : Bytes} (hv : v.length = 8) :
    (lay head id words flags payload).put 0xC v = lay head id v flags payload := by
  rw [lay, ← List.append_assoc, Bytes.put_middle (by rw [List.length_append, hs.head, hs.id]) (hv.trans hs.words.symm),
    List.append_assoc]
  rfl

theorem put_lay_id {v : Bytes} (hv : v.length = 8) :
    (lay head id words flags payload).put 4 v = lay head v words flags payload :=
  Bytes.put_middle hs.head (hv.trans hs.id.symm)

theorem field_lay_words (o : Nat) (ho : o + 4 ≤ 8) :
    (lay head id words flags payload).field 4 (0xC + o) = words.field 4 o := by
  rw [← Bytes.field_slice ho, slice_lay_words hs]

theorem field_lay_id (o : Nat) (ho : o + 4 ≤ 8) :
    (lay head id words flags payload).field 4 (4 + o) = id.field 4 o := by
  rw [← Bytes.field_slice ho, slice_lay_id hs]

end

/-! ## The identity -/

/-- Two words combined with two others. -/
def mask (id words : Bytes) : Bytes :=
  Bytes.ofNat 4 (id.field 4 0 ^^^ words.field 4 0) ++ Bytes.ofNat 4 (id.field 4 4 ^^^ words.field 4 4)

@[simp] theorem length_mask (id words : Bytes) : (mask id words).length = 8 := by simp [mask]

theorem field_mask (id words : Bytes) :
    (mask id words).field 4 0 = id.field 4 0 ^^^ words.field 4 0 ∧
    (mask id words).field 4 4 = id.field 4 4 ^^^ words.field 4 4 := by
  have hlt (o : Nat) : id.field 4 o ^^^ words.field 4 o < 256 ^ 4 := by
    have hxor := Nat.xor_lt_two_pow (n := 32) (@Bytes.field_lt id 4 o) (@Bytes.field_lt words 4 o)
    exact hxor
  unfold mask
  constructor
  · rw [Bytes.field_ofNat, Nat.mod_eq_of_lt (hlt 0)]
  · rw [Bytes.field_append_right (by simp), Bytes.length_ofNat, Nat.sub_self, Bytes.field_ofNat_self,
      Nat.mod_eq_of_lt (hlt 4)]

/-- Masking twice is nothing. -/
theorem mask_mask {id : Bytes} (words : Bytes) (h : id.length = 8) : mask (mask id words) words = id := by
  obtain ⟨hfirst, hsecond⟩ := field_mask id words
  rw [mask, hfirst, hsecond, Nat.xor_assoc, Nat.xor_self, Nat.xor_zero, Nat.xor_assoc, Nat.xor_self, Nat.xor_zero,
    Bytes.ofNat_field (by omega), Bytes.ofNat_field (by omega), Bytes.slice_append_slice rfl,
    show 4 + 4 = id.length from h.symm, Bytes.slice_zero_length]

section

variable {head id words flags payload : Bytes} (hs : Sized head id words flags)

include hs

theorem modernEncryptId_lay {plain : Bytes} :
    modernEncryptId (lay head id words flags payload) plain =
      lay head (mask ((RC5.new 32 BASE_SESSION_KEY).encryptBlock (plain.slice 4 8)) words) words flags payload := by
  have hlen := @length_lay head id words flags payload hs
  unfold modernEncryptId
  simp only
  rw [Bytes.field_put_after (by simp) (by simp; omega), Bytes.put_put (by simp) (by omega),
    field_lay_words hs 0 (by omega), field_lay_words hs 4 (by omega), put_lay_id hs (by simp)]
  rfl

theorem modernDecryptId_lay :
    modernDecryptId (lay head id words flags payload) (lay head id words flags payload) =
      lay head ((RC5.new 32 BASE_SESSION_KEY).decryptBlock (mask id words)) words flags payload := by
  unfold modernDecryptId
  simp only
  rw [put_lay_id hs (RC5.length_decryptBlock ..), field_lay_words hs 0 (by omega), field_lay_words hs 4 (by omega),
    field_lay_id hs 0 (by omega), field_lay_id hs 4 (by omega)]
  rfl

/-- The two words and the whole blocks of the payload. -/
theorem modernCryptPayload_lay {f : Bytes → Bytes} (hf : ∀ b, (f b).length = 8) {id' : Bytes} (hid : id'.length = 8)
    {n : Nat} (hn : n ≤ payload.length) :
    modernCryptPayload f (lay head id words flags payload) n (lay head id' words flags payload) =
      lay head id' (f words) flags (Bytes.mapBlocks 8 f (n / 8) payload) := by
  have hs' : Sized head id' words flags := ⟨hs.head, hid, hs.words, hs.flags⟩
  have hpre (i s : Bytes) : lay head i s flags payload = (head ++ (i ++ (s ++ flags))) ++ payload := by
    simp [lay]
  unfold modernCryptPayload
  rw [slice_lay_words hs, put_lay_words hs' (hf words), hpre, hpre,
    Bytes.foldl_put_blocks hf (by simp [hs.head, hid, hs.flags, hf]) (by simp [hs.head, hs.id, hs.words, hs.flags])
      (by omega)]
  simp [lay]

end

/-! ## What stays -/

/-- Same length, first word and flags: all that decides how a frame is ciphered. -/
structure Like (a b : Bytes) : Prop where
  length : a.length = b.length
  head : a.slice 0 4 = b.slice 0 4
  flags : a.slice 0x14 4 = b.slice 0x14 4

theorem Like.field_length {a b : Bytes} (h : Like a b) : a.field 2 2 = b.field 2 2 := by
  have hfield (x : Bytes) : x.field 2 2 = Bytes.field 2 2 (x.slice 0 4) := by rw [Bytes.field_slice (by omega)]
  rw [hfield a, hfield b, h.head]

theorem Like.mode {a b : Bytes} (h : Like a b) : a.at_ 0x16 = b.at_ 0x16 := by
  have hfield (x : Bytes) : x.at_ 0x16 = Bytes.field 1 2 (x.slice 0x14 4) := by
    rw [Bytes.at_eq_field, Bytes.field_slice (by omega)]
  rw [hfield a, hfield b, h.flags]

theorem Like.dataLen {a b : Bytes} (h : Like a b) : modernEncryptedDataLen a = modernEncryptedDataLen b := by
  have hflags : a.field 4 0x14 = b.field 4 0x14 := by rw [Bytes.field, Bytes.field, h.flags]
  unfold modernEncryptedDataLen
  rw [h.length, h.field_length, hflags]

theorem Like.modeKey {a b : Bytes} (h : Like a b) : modeKey a = modeKey b := by
  have hslice (x : Bytes) : x.slice 0x14 3 = Bytes.slice (x.slice 0x14 4) 0 3 := by rw [Bytes.slice_slice (by omega)]
  rw [Crypto.modeKey, Crypto.modeKey, hslice a, hslice b, h.head, h.flags]

/-- The parts that change, changed. -/
theorem like_lay {head id words flags payload id' words' payload' : Bytes} (hs : Sized head id words flags)
    (hs' : Sized head id' words' flags) (hlen : payload'.length = payload.length) :
    Like (lay head id' words' flags payload') (lay head id words flags payload) where
  length := by rw [length_lay hs, length_lay hs', hlen]
  head := by rw [slice_lay_head hs, slice_lay_head hs']
  flags := by rw [slice_lay_flags hs, slice_lay_flags hs']

/-- A frame whose header says its length and this mode. -/
structure Checked (frm : Bytes) (mode : Nat) : Prop where
  ge : 0x18 ≤ frm.length
  length : frm.field 2 2 = frm.length
  mode : frm.at_ 0x16 &&& 3 = mode

theorem Like.checked {a b : Bytes} (h : Like a b) {mode : Nat} (hb : Checked b mode) : Checked a mode :=
  ⟨by rw [h.length]; exact hb.ge, by rw [h.length, h.field_length, hb.length], by rw [h.mode, hb.mode]⟩

theorem guteChecked_eq_ok (fault : GuteFault) {frm : Bytes} {mode : Nat} :
    guteChecked frm mode fault = .ok () ↔ Checked frm mode := by
  unfold guteChecked
  constructor
  · intro h
    split at h
    · cases h
    next hlength =>
      split at h
      · cases h
      next hmode =>
        simp only [not_or, not_lt, not_not] at hlength hmode
        exact ⟨hlength.1, hlength.2, hmode⟩
  · rintro ⟨hge, hlength, hmode⟩
    rw [if_neg (by simp only [not_or, not_lt, not_not]; exact ⟨hge, hlength⟩), if_neg (not_not.mpr hmode)]

theorem modernEncryptedDataLen_le {frm : Bytes} {n : Nat} (h : modernEncryptedDataLen frm = .ok n) :
    0x18 + n ≤ frm.length := by
  unfold modernEncryptedDataLen at h
  split at h
  · cases h
  next hge =>
    split at h
    · cases h
    · simp only at h
      generalize (if (frm.field 4 0x14).testBit 22 then 0x50 else 0) = auth at h
      generalize (if (frm.field 4 0x14).testBit 24 then 0x10 else 0) = stamp at h
      split at h
      · cases h
      · cases h
        omega

/-! ## Round trips -/

/-- Encryption of the words, the payload and the identity. -/
def encipher (f : Bytes → Bytes) (n : Nat) (frm : Bytes) : Bytes :=
  modernEncryptId (modernCryptPayload f frm n frm) frm

def decipher (f : Bytes → Bytes) (n : Nat) (frm : Bytes) : Bytes :=
  modernCryptPayload f frm n (modernDecryptId frm frm)

section

variable {e d : Bytes → Bytes} (he : ∀ b, (e b).length = 8) (hd : ∀ b, (d b).length = 8) {n : Nat} {frm : Bytes}
  (hn : 0x18 + n ≤ frm.length)

include hn

theorem encipher_like (he : ∀ b, (e b).length = 8) :
    Like (encipher e n frm) frm ∧ (encipher e n frm).drop (0x18 + 8 * (n / 8)) = frm.drop (0x18 + 8 * (n / 8)) := by
  obtain ⟨head, id, words, flags, payload, rfl, hs, hlen⟩ := exists_lay (Nat.le_trans (Nat.le_add_right ..) hn)
  have hs₁ : Sized head id (e words) flags := ⟨hs.head, hs.id, he _, hs.flags⟩
  rw [encipher, modernCryptPayload_lay hs he hs.id (by omega), modernEncryptId_lay hs₁]
  have hs₂ : Sized head (mask ((RC5.new 32 BASE_SESSION_KEY).encryptBlock
      ((lay head id words flags payload).slice 4 8)) (e words)) (e words) flags :=
    ⟨hs.head, length_mask .., he _, hs.flags⟩
  refine ⟨like_lay hs hs₂ (Bytes.length_mapBlocks he (by omega)), ?_⟩
  have hdrop {i s p : Bytes} (hsized : Sized head i s flags) :
      (lay head i s flags p).drop (0x18 + 8 * (n / 8)) = p.drop (8 * (n / 8)) := by
    have hpre : lay head i s flags p = (head ++ (i ++ (s ++ flags))) ++ p := by simp [lay]
    have hpos : (head ++ (i ++ (s ++ flags))).length = 0x18 := by
      simp [hsized.head, hsized.id, hsized.words, hsized.flags]
    rw [hpre, ← List.drop_drop, List.drop_left' hpos]
  rw [hdrop hs, hdrop hs₂, Bytes.drop_mapBlocks he]

theorem decipher_like (hd : ∀ b, (d b).length = 8) : Like (decipher d n frm) frm := by
  obtain ⟨head, id, words, flags, payload, rfl, hs, hlen⟩ := exists_lay (Nat.le_trans (Nat.le_add_right ..) hn)
  rw [decipher, modernDecryptId_lay hs, modernCryptPayload_lay hs hd (RC5.length_decryptBlock ..) (by omega)]
  exact like_lay hs ⟨hs.head, RC5.length_decryptBlock .., hd _, hs.flags⟩ (Bytes.length_mapBlocks hd (by omega))

include he hd

/-- **Decryption of what was encrypted.** -/
theorem decipher_encipher (hde : ∀ b : Bytes, b.length = 8 → d (e b) = b) :
    decipher d n (encipher e n frm) = frm := by
  obtain ⟨head, id, words, flags, payload, rfl, hs, hlen⟩ := exists_lay (Nat.le_trans (Nat.le_add_right ..) hn)
  have hs₁ : Sized head id (e words) flags := ⟨hs.head, hs.id, he _, hs.flags⟩
  have hblocks : (Bytes.mapBlocks 8 e (n / 8) payload).length = payload.length := Bytes.length_mapBlocks he (by omega)
  rw [encipher, modernCryptPayload_lay hs he hs.id (by omega), modernEncryptId_lay hs₁, slice_lay_id hs]
  have hs₂ : Sized head (mask ((RC5.new 32 BASE_SESSION_KEY).encryptBlock id) (e words)) (e words) flags :=
    ⟨hs.head, length_mask .., he _, hs.flags⟩
  rw [decipher, modernDecryptId_lay hs₂, modernCryptPayload_lay hs₂ hd (RC5.length_decryptBlock ..) (by omega),
    mask_mask _ (RC5.length_encryptBlock ..), RC5.decryptBlock_encryptBlock (by decide) _ hs.id, hde _ hs.words,
    Bytes.mapBlocks_undo he hde (by omega)]

/-- **Encryption of what was decrypted.** -/
theorem encipher_decipher (hed : ∀ b : Bytes, b.length = 8 → e (d b) = b) :
    encipher e n (decipher d n frm) = frm := by
  obtain ⟨head, id, words, flags, payload, rfl, hs, hlen⟩ := exists_lay (Nat.le_trans (Nat.le_add_right ..) hn)
  have hblocks : (Bytes.mapBlocks 8 d (n / 8) payload).length = payload.length := Bytes.length_mapBlocks hd (by omega)
  rw [decipher, modernDecryptId_lay hs, modernCryptPayload_lay hs hd (RC5.length_decryptBlock ..) (by omega)]
  have hs₁ : Sized head ((RC5.new 32 BASE_SESSION_KEY).decryptBlock (mask id words)) (d words) flags :=
    ⟨hs.head, RC5.length_decryptBlock .., hd _, hs.flags⟩
  have hs₂ : Sized head ((RC5.new 32 BASE_SESSION_KEY).decryptBlock (mask id words)) words flags :=
    ⟨hs.head, RC5.length_decryptBlock .., hs.words, hs.flags⟩
  rw [encipher, modernCryptPayload_lay hs₁ he hs₁.id (by omega), hed _ hs.words, modernEncryptId_lay hs₂,
    slice_lay_id hs₁, RC5.encryptBlock_decryptBlock (by decide) _ (length_mask ..), mask_mask _ hs.id,
    Bytes.mapBlocks_undo hd hed (by omega)]

end

/-- The identity alone. -/
theorem modernDecryptId_encryptId {frm : Bytes} (h : 0x18 ≤ frm.length) :
    modernDecryptId (modernEncryptId frm frm) (modernEncryptId frm frm) = frm ∧ Like (modernEncryptId frm frm) frm ∧
      (modernEncryptId frm frm).drop 0xC = frm.drop 0xC := by
  obtain ⟨head, id, words, flags, payload, rfl, hs, hlen⟩ := exists_lay h
  rw [modernEncryptId_lay hs, slice_lay_id hs]
  have hs₁ : Sized head (mask ((RC5.new 32 BASE_SESSION_KEY).encryptBlock id) words) words flags :=
    ⟨hs.head, length_mask .., hs.words, hs.flags⟩
  refine ⟨?_, like_lay hs hs₁ rfl, ?_⟩
  · rw [modernDecryptId_lay hs₁, mask_mask _ (RC5.length_encryptBlock ..),
      RC5.decryptBlock_encryptBlock (by decide) _ hs.id]
  · have hdrop {i : Bytes} (hi : i.length = 8) : (lay head i words flags payload).drop 0xC = words ++ (flags ++ payload) := by
      rw [lay, ← List.append_assoc, List.drop_left' (by rw [List.length_append, hs.head, hi])]
    rw [hdrop hs.id, hdrop hs₁.id]

theorem modernEncryptId_decryptId {frm : Bytes} (h : 0x18 ≤ frm.length) :
    modernEncryptId (modernDecryptId frm frm) (modernDecryptId frm frm) = frm ∧ Like (modernDecryptId frm frm) frm := by
  obtain ⟨head, id, words, flags, payload, rfl, hs, hlen⟩ := exists_lay h
  have hs₁ : Sized head ((RC5.new 32 BASE_SESSION_KEY).decryptBlock (mask id words)) words flags :=
    ⟨hs.head, RC5.length_decryptBlock .., hs.words, hs.flags⟩
  rw [modernDecryptId_lay hs]
  refine ⟨?_, like_lay hs hs₁ rfl⟩
  rw [modernEncryptId_lay hs₁, slice_lay_id hs₁, RC5.encryptBlock_decryptBlock (by decide) _ (length_mask ..),
    mask_mask _ hs.id]

/-! ## The ciphers -/

theorem guteMode0Encrypt_eq_ok {plain wire : Bytes} :
    guteMode0Encrypt plain = .ok wire ↔ Checked plain 0 ∧ wire = modernEncryptId plain plain := by
  unfold guteMode0Encrypt
  rw [← guteChecked_eq_ok .mode0Encrypt]
  cases guteChecked plain 0 .mode0Encrypt <;> simp [bind, Except.bind, eq_comm]

theorem guteMode0Decrypt_eq_ok {wire plain : Bytes} :
    guteMode0Decrypt wire = .ok plain ↔ Checked wire 0 ∧ plain = modernDecryptId wire wire := by
  unfold guteMode0Decrypt
  rw [← guteChecked_eq_ok .mode0Decrypt]
  cases guteChecked wire 0 .mode0Decrypt <;> simp [bind, Except.bind, eq_comm]

theorem guteMode1Encrypt_eq_ok {plain wire : Bytes} :
    guteMode1Encrypt plain = .ok wire ↔ Checked plain 1 ∧ ∃ n, modernEncryptedDataLen plain = .ok n ∧
      wire = encipher (RC5.new 32 (modeKey plain)).encryptBlock n plain := by
  unfold guteMode1Encrypt
  rw [← guteChecked_eq_ok .mode1Encrypt]
  cases guteChecked plain 1 .mode1Encrypt <;> cases modernEncryptedDataLen plain <;>
    simp [bind, Except.bind, encipher, eq_comm]

theorem guteMode1Decrypt_eq_ok {wire plain : Bytes} :
    guteMode1Decrypt wire = .ok plain ↔ Checked wire 1 ∧ ∃ n, modernEncryptedDataLen wire = .ok n ∧
      plain = decipher (RC5.new 32 (modeKey wire)).decryptBlock n wire := by
  unfold guteMode1Decrypt
  rw [← guteChecked_eq_ok .mode1Decrypt]
  cases guteChecked wire 1 .mode1Decrypt <;> cases modernEncryptedDataLen wire <;>
    simp [bind, Except.bind, decipher, eq_comm]

theorem guteMode2Encrypt_eq_ok {plain wire sessionKey : Bytes} :
    guteMode2Encrypt plain sessionKey = .ok wire ↔ sessionKey.length = 32 ∧ Checked plain 2 ∧
      ∃ n, modernEncryptedDataLen plain = .ok n ∧ wire = encipher (RC5.new 32 sessionKey).encryptBlock n plain := by
  unfold guteMode2Encrypt
  constructor
  · intro h
    split at h
    · cases h
    next hkey =>
      split at h
      · cases h
      next hlength =>
        split at h
        · cases h
        next hmode =>
          simp only [not_or, not_lt, not_not] at hkey hlength hmode
          split at h
          · cases h
          next n hn =>
            cases h
            exact ⟨hkey, ⟨hlength.1, hlength.2, hmode⟩, n, hn, rfl⟩
  · rintro ⟨hkey, ⟨hge, hlength, hmode⟩, n, hn, rfl⟩
    rw [if_neg (not_not.mpr hkey), if_neg (by simp only [not_or, not_lt, not_not]; exact ⟨hge, hlength⟩),
      if_neg (not_not.mpr hmode), hn]
    rfl

theorem guteMode2Decrypt_eq_ok {wire plain sessionKey : Bytes} :
    guteMode2Decrypt wire sessionKey = .ok plain ↔ sessionKey.length = 32 ∧ Checked wire 2 ∧
      ∃ n, modernEncryptedDataLen wire = .ok n ∧ plain = decipher (RC5.new 32 sessionKey).decryptBlock n wire := by
  unfold guteMode2Decrypt
  rw [← guteChecked_eq_ok .mode2Decrypt]
  by_cases hkey : sessionKey.length = 32 <;> cases guteChecked wire 2 .mode2Decrypt <;>
    cases modernEncryptedDataLen wire <;> simp [bind, Except.bind, decipher, eq_comm, hkey]

/-! ## Checksums -/

/-- The checksum does not read its own place. -/
theorem guteMode1XorChecksum_put {frame v : Bytes} (h : 0x18 ≤ frame.length) (hv : v.length = 4) :
    guteMode1XorChecksum (frame.put 0x10 v) = guteMode1XorChecksum frame := by
  have hlen : (frame.put 0x10 v).length = frame.length := Bytes.length_put (by omega)
  have hlike : Like (frame.put 0x10 v) frame :=
    ⟨hlen, Bytes.slice_put_before (by omega) (by omega), Bytes.slice_put_after (by omega) (by omega)⟩
  have hbefore (off : Nat) (hoff : off + 4 ≤ 0x10) : (frame.put 0x10 v).field 4 off = frame.field 4 off :=
    Bytes.field_put_before hoff (by omega)
  have hafter (off : Nat) (hoff : 0x14 ≤ off) : (frame.put 0x10 v).field 4 off = frame.field 4 off :=
    Bytes.field_put_after (by omega) (by omega)
  unfold guteMode1XorChecksum
  rw [hlike.length, hlike.field_length, hlike.dataLen, hafter 0x14 (by omega)]
  simp only [List.foldl_cons, List.foldl_nil, hbefore 0 (by omega), hbefore 4 (by omega), hbefore 8 (by omega),
    hbefore 0xC (by omega)]
  split
  · rfl
  split
  · rfl
  · congr 2
    refine List.foldl_ext _ _ _ fun out off hoff => ?_
    obtain ⟨i, -, rfl⟩ := List.mem_map.mp hoff
    rw [hafter _ (by omega)]

theorem guteMode1XorChecksum_lt {frame : Bytes} {sum : Nat} (h : guteMode1XorChecksum frame = .ok sum) :
    sum < 256 ^ 4 := by
  unfold guteMode1XorChecksum at h
  split at h
  · cases h
  split at h
  · cases h
  · cases h
    exact Nat.lt_of_le_of_lt Nat.and_le_right (by decide)

/-- The checksum is in its place, and right. -/
def Sealed (plain : Bytes) : Prop := guteMode1XorChecksum plain = .ok (plain.field 4 0x10)

theorem sealed_put {frame : Bytes} {sum : Nat} (h : guteMode1XorChecksum frame = .ok sum) :
    Sealed (frame.put 0x10 (Bytes.ofNat 4 sum)) := by
  have hge : 0x18 ≤ frame.length := by
    unfold guteMode1XorChecksum at h
    split at h
    · cases h
    · omega
  rw [Sealed, guteMode1XorChecksum_put hge (by simp), Bytes.field_put_self (by omega),
    Nat.mod_eq_of_lt (guteMode1XorChecksum_lt h), h]

/-! ## Results -/

/-- One cipher undoes the other; a frame that says its length and mode, with room
for its trailers, is accepted, and its first word and flags stay. -/
structure Invertible (mode : Nat) (encrypt decrypt : Bytes → Except GuteFault Bytes) : Prop where
  accepts : ∀ plain n, Checked plain mode → modernEncryptedDataLen plain = .ok n → ∃ wire, encrypt plain = .ok wire
  decrypts : ∀ plain wire, encrypt plain = .ok wire → decrypt wire = .ok plain
  encrypts : ∀ wire plain, decrypt wire = .ok plain → encrypt plain = .ok wire
  header : ∀ plain wire, encrypt plain = .ok wire → Like wire plain

theorem invertible_mode0 : Invertible 0 guteMode0Encrypt guteMode0Decrypt where
  accepts plain n h _ := ⟨_, guteMode0Encrypt_eq_ok.mpr ⟨h, rfl⟩⟩
  decrypts plain wire h := by
    obtain ⟨hplain, rfl⟩ := guteMode0Encrypt_eq_ok.mp h
    obtain ⟨hback, hlike, -⟩ := modernDecryptId_encryptId hplain.ge
    exact guteMode0Decrypt_eq_ok.mpr ⟨hlike.checked hplain, hback.symm⟩
  encrypts wire plain h := by
    obtain ⟨hwire, rfl⟩ := guteMode0Decrypt_eq_ok.mp h
    obtain ⟨hback, hlike⟩ := modernEncryptId_decryptId hwire.ge
    exact guteMode0Encrypt_eq_ok.mpr ⟨hlike.checked hwire, hback.symm⟩
  header plain wire h := by
    obtain ⟨hplain, rfl⟩ := guteMode0Encrypt_eq_ok.mp h
    exact (modernDecryptId_encryptId hplain.ge).2.1

section

variable (key : Bytes)

theorem encryptBlock_length (b : Bytes) : ((RC5.new 32 key).encryptBlock b).length = 8 := RC5.length_encryptBlock _ b

theorem decryptBlock_length (b : Bytes) : ((RC5.new 32 key).decryptBlock b).length = 8 := RC5.length_decryptBlock _ b

theorem decrypt_encrypt_block (b : Bytes) (h : b.length = 8) :
    (RC5.new 32 key).decryptBlock ((RC5.new 32 key).encryptBlock b) = b :=
  RC5.decryptBlock_encryptBlock (by decide) _ h

theorem encrypt_decrypt_block (b : Bytes) (h : b.length = 8) :
    (RC5.new 32 key).encryptBlock ((RC5.new 32 key).decryptBlock b) = b :=
  RC5.encryptBlock_decryptBlock (by decide) _ h

end

theorem invertible_mode1 : Invertible 1 guteMode1Encrypt guteMode1Decrypt where
  accepts plain n h hn := ⟨_, guteMode1Encrypt_eq_ok.mpr ⟨h, n, hn, rfl⟩⟩
  decrypts plain wire h := by
    obtain ⟨hplain, n, hn, rfl⟩ := guteMode1Encrypt_eq_ok.mp h
    have hle := modernEncryptedDataLen_le hn
    have hlike := (encipher_like hle (encryptBlock_length (modeKey plain))).1
    refine guteMode1Decrypt_eq_ok.mpr ⟨hlike.checked hplain, n, hlike.dataLen.trans hn, ?_⟩
    rw [hlike.modeKey, decipher_encipher (encryptBlock_length _) (decryptBlock_length _) hle (decrypt_encrypt_block _)]
  encrypts wire plain h := by
    obtain ⟨hwire, n, hn, rfl⟩ := guteMode1Decrypt_eq_ok.mp h
    have hle := modernEncryptedDataLen_le hn
    have hlike := decipher_like hle (decryptBlock_length (modeKey wire))
    refine guteMode1Encrypt_eq_ok.mpr ⟨hlike.checked hwire, n, hlike.dataLen.trans hn, ?_⟩
    rw [hlike.modeKey, encipher_decipher (encryptBlock_length _) (decryptBlock_length _) hle (encrypt_decrypt_block _)]
  header plain wire h := by
    obtain ⟨hplain, n, hn, rfl⟩ := guteMode1Encrypt_eq_ok.mp h
    exact (encipher_like (modernEncryptedDataLen_le hn) (encryptBlock_length _)).1

theorem invertible_mode2 {sessionKey : Bytes} (hkey : sessionKey.length = 32) :
    Invertible 2 (guteMode2Encrypt · sessionKey) (guteMode2Decrypt · sessionKey) where
  accepts plain n h hn := ⟨_, guteMode2Encrypt_eq_ok.mpr ⟨hkey, h, n, hn, rfl⟩⟩
  decrypts plain wire h := by
    obtain ⟨-, hplain, n, hn, rfl⟩ := guteMode2Encrypt_eq_ok.mp h
    have hle := modernEncryptedDataLen_le hn
    have hlike := (encipher_like hle (encryptBlock_length sessionKey)).1
    refine guteMode2Decrypt_eq_ok.mpr ⟨hkey, hlike.checked hplain, n, hlike.dataLen.trans hn, ?_⟩
    rw [decipher_encipher (encryptBlock_length _) (decryptBlock_length _) hle (decrypt_encrypt_block _)]
  encrypts wire plain h := by
    obtain ⟨-, hwire, n, hn, rfl⟩ := guteMode2Decrypt_eq_ok.mp h
    have hle := modernEncryptedDataLen_le hn
    have hlike := decipher_like hle (decryptBlock_length sessionKey)
    refine guteMode2Encrypt_eq_ok.mpr ⟨hkey, hlike.checked hwire, n, hlike.dataLen.trans hn, ?_⟩
    rw [encipher_decipher (encryptBlock_length _) (decryptBlock_length _) hle (encrypt_decrypt_block _)]
  header plain wire h := by
    obtain ⟨-, hplain, n, hn, rfl⟩ := guteMode2Encrypt_eq_ok.mp h
    exact (encipher_like (modernEncryptedDataLen_le hn) (encryptBlock_length _)).1

/-- **The frame ciphers are invertible.** RC5 undoes itself block by block, for
every key, word size and number of rounds; so do the three modes, on every frame
that they accept, and the bytes past the ciphered ones stay; what the finishing
helpers produce decrypts to a frame with the right checksum. -/
theorem gute_ciphers_invert :
    (∀ w ∈ [16, 32, 64], ∀ (key : Bytes) (rounds : Nat) (block : Bytes), block.length = w / 8 + w / 8 →
      (RC5.new w key rounds).decryptBlock ((RC5.new w key rounds).encryptBlock block) = block ∧
      (RC5.new w key rounds).encryptBlock ((RC5.new w key rounds).decryptBlock block) = block) ∧
    Invertible 0 guteMode0Encrypt guteMode0Decrypt ∧
    Invertible 1 guteMode1Encrypt guteMode1Decrypt ∧
    (∀ sessionKey : Bytes, sessionKey.length = 32 →
      Invertible 2 (guteMode2Encrypt · sessionKey) (guteMode2Decrypt · sessionKey)) ∧
    (∀ plain wire, guteMode0Encrypt plain = .ok wire → wire.drop 0xC = plain.drop 0xC) ∧
    (∀ plain wire n, modernEncryptedDataLen plain = .ok n →
      (guteMode1Encrypt plain = .ok wire ∨ ∃ sessionKey, guteMode2Encrypt plain sessionKey = .ok wire) →
      wire.drop (0x18 + 8 * (n / 8)) = plain.drop (0x18 + 8 * (n / 8))) ∧
    (∀ frame wire, finishMode1 frame = .ok wire → ∃ plain, guteMode1Decrypt wire = .ok plain ∧ Sealed plain) ∧
    ∀ frame wire sessionKey, finishMode2 frame sessionKey = .ok wire →
      ∃ plain, guteMode2Decrypt wire sessionKey = .ok plain ∧ Sealed plain := by
  refine ⟨?_, invertible_mode0, invertible_mode1, fun _ => invertible_mode2, ?_, ?_, ?_, ?_⟩
  · intro w hw key rounds block hblock
    have hbytes : 8 ∣ w := by
      simp only [List.mem_cons, List.not_mem_nil, or_false] at hw
      rcases hw with rfl | rfl | rfl <;> decide
    exact ⟨RC5.decryptBlock_encryptBlock hbytes _ hblock, RC5.encryptBlock_decryptBlock hbytes _ hblock⟩
  · intro plain wire h
    obtain ⟨hplain, rfl⟩ := guteMode0Encrypt_eq_ok.mp h
    exact (modernDecryptId_encryptId hplain.ge).2.2
  · intro plain wire n hn h
    have hle := modernEncryptedDataLen_le hn
    rcases h with h | ⟨sessionKey, h⟩
    · obtain ⟨-, m, hm, rfl⟩ := guteMode1Encrypt_eq_ok.mp h
      rw [hn] at hm
      cases hm
      exact (encipher_like hle (encryptBlock_length _)).2
    · obtain ⟨-, -, m, hm, rfl⟩ := guteMode2Encrypt_eq_ok.mp h
      rw [hn] at hm
      cases hm
      exact (encipher_like hle (encryptBlock_length _)).2
  · intro frame wire h
    unfold finishMode1 at h
    split at h
    · cases h
    next sum hsum => exact ⟨_, invertible_mode1.decrypts _ _ h, sealed_put hsum⟩
  · intro frame wire sessionKey h
    have hkey := finishMode2_key h
    unfold finishMode2 at h
    split at h
    · cases h
    next sum hsum => exact ⟨_, (invertible_mode2 hkey).decrypts _ _ h, sealed_put hsum⟩

end CamGuard.Crypto
