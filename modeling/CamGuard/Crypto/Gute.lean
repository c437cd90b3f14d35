/-
Gute frames: the header and checksum primitives of `wire.py` and the ciphers of
`crypto.py`, of modes 0, 1 and 2. A frame is at least 24 bytes; its 16-bit length stands
at 2, the identity at 4, the sequence at 12, the checksum at 16 and the flags,
with the cipher mode, at 20.

What the senders need of this layer is that a frame with a truthful header is
accepted and keeps its length (`finishMode2_ok`).
-/
import CamGuard.Crypto.Rc5
import Mathlib.Tactic.IntervalCases
import Mathlib.Tactic.Set

namespace CamGuard.Crypto

def BASE_SESSION_KEY : Bytes := [0x77, 0x77, 0x77, 0x2e, 0x67, 0x77, 0x65, 0x6c, 0x6c, 0x2e, 0x63, 0x63]

inductive GuteFault where
  | truncated
  | length
  | encryptedLength
  | sessionKey
  | mode
  | mode0Encrypt
  | mode0Decrypt
  | mode1Encrypt
  | mode1Decrypt
  | mode2Decrypt
  deriving DecidableEq, Repr

def GuteFault.reason : GuteFault → String
  | .truncated => "truncated gute frame"
  | .length => "invalid gute frame length"
  | .encryptedLength => "invalid gute encrypted length"
  | .sessionKey => "modern mode-2 requires a 32-byte session key"
  | .mode => "gute_mode2_encrypt requires mode 2"
  | .mode0Encrypt => "gute_mode0_encrypt requires mode 0"
  | .mode0Decrypt => "gute_mode0_decrypt requires mode 0"
  | .mode1Encrypt => "gute_mode1_encrypt requires mode 1"
  | .mode1Decrypt => "gute_mode1_decrypt requires mode 1"
  | .mode2Decrypt => "gute_mode2_decrypt requires mode 2"

/-- `modern_encrypted_data_len`. -/
def modernEncryptedDataLen (frm : Bytes) : Except GuteFault Nat :=
  if frm.length < 0x18 then .error .truncated
  else if frm.field 2 2 ≠ frm.length then .error .length
  else
    let flags := frm.field 4 0x14
    let auth := if flags.testBit 22 then 0x50 else 0
    let stamp := if flags.testBit 24 then 0x10 else 0
    if frm.length - 0x18 < auth + stamp then .error .encryptedLength
    else .ok (frm.length - 0x18 - auth - stamp)

/-- `gute_mode1_xor_checksum`. -/
def guteMode1XorChecksum (frm : Bytes) : Except GuteFault Nat :=
  if frm.length < 0x18 ∨ frm.field 2 2 ≠ frm.length then .error .length
  else
    match modernEncryptedDataLen frm with
    | .error e => .error e
    | .ok encryptedLen =>
      let seed := frm.field 4 0x14 &&& 0xFFFFFF
      let header := [0, 4, 8, 0xC].foldl (fun out off => out ^^^ frm.field 4 off) seed
      let words := (List.range (encryptedLen / 4)).map fun i => 0x18 + 4 * i
      .ok (words.foldl (fun out off => out ^^^ frm.field 4 off) header &&& 0xFFFFFFFF)

/-- `_modern_crypt_payload`: the sequence and checksum words, then the whole
blocks of the payload. -/
def modernCryptPayload (transform : Bytes → Bytes) (source : Bytes) (encryptedLen : Nat) (out : Bytes) : Bytes :=
  (List.range (encryptedLen / 8)).foldl
    (fun out i => out.put (0x18 + i * 8) (transform (source.slice (0x18 + i * 8) 8)))
    (out.put 0xC (transform (source.slice 0xC 8)))

/-- `_modern_encrypt_id`: the identity under the base key, masked with the
words just encrypted. -/
def modernEncryptId (out plain : Bytes) : Bytes :=
  let id := (RC5.new 32 BASE_SESSION_KEY).encryptBlock (plain.slice 4 8)
  let out := out.put 4 (Bytes.ofNat 4 (id.field 4 0 ^^^ out.field 4 0xC))
  out.put 8 (Bytes.ofNat 4 (id.field 4 4 ^^^ out.field 4 0x10))

/-- `gute_mode2_encrypt`. -/
def guteMode2Encrypt (plain sessionKey : Bytes) : Except GuteFault Bytes :=
  if sessionKey.length ≠ 32 then .error .sessionKey
  else if plain.length < 0x18 ∨ plain.field 2 2 ≠ plain.length then .error .length
  else if plain.at_ 0x16 &&& 3 ≠ 2 then .error .mode
  else
    match modernEncryptedDataLen plain with
    | .error e => .error e
    | .ok encryptedLen =>
      .ok (modernEncryptId
        (modernCryptPayload (RC5.new 32 sessionKey).encryptBlock plain encryptedLen plain) plain)

/-- `_modern_decrypt_id`: the identity unmasked with the words on the wire, then
decrypted under the base key. -/
def modernDecryptId (out wire : Bytes) : Bytes :=
  let idMasked := Bytes.ofNat 4 (wire.field 4 4 ^^^ wire.field 4 0xC) ++ Bytes.ofNat 4 (wire.field 4 8 ^^^ wire.field 4 0x10)
  out.put 4 ((RC5.new 32 BASE_SESSION_KEY).decryptBlock idMasked)

/-- The checks that the ciphers of modes 0 and 1 begin with. -/
def guteChecked (frm : Bytes) (mode : Nat) (fault : GuteFault) : Except GuteFault Unit :=
  if frm.length < 0x18 ∨ frm.field 2 2 ≠ frm.length then .error .length
  else if frm.at_ 0x16 &&& 3 ≠ mode then .error fault
  else .ok ()

/-- `gute_mode2_decrypt`. -/
def guteMode2Decrypt (wire sessionKey : Bytes) : Except GuteFault Bytes :=
  if sessionKey.length ≠ 32 then .error .sessionKey
  else do
    guteChecked wire 2 .mode2Decrypt
    let out := modernDecryptId wire wire
    let encryptedLen ← modernEncryptedDataLen wire
    .ok (modernCryptPayload (RC5.new 32 sessionKey).decryptBlock wire encryptedLen out)

/-- The key of mode 1 is in the frame: its first word and three bytes of flags. -/
def modeKey (frm : Bytes) : Bytes := frm.slice 0 4 ++ frm.slice 0x14 3 ++ [0]

/-- `gute_mode1_encrypt`. -/
def guteMode1Encrypt (plain : Bytes) : Except GuteFault Bytes := do
  guteChecked plain 1 .mode1Encrypt
  let encryptedLen ← modernEncryptedDataLen plain
  .ok (modernEncryptId
    (modernCryptPayload (RC5.new 32 (modeKey plain)).encryptBlock plain encryptedLen plain) plain)

/-- `gute_mode1_decrypt`. -/
def guteMode1Decrypt (wire : Bytes) : Except GuteFault Bytes := do
  guteChecked wire 1 .mode1Decrypt
  let out := modernDecryptId wire wire
  let encryptedLen ← modernEncryptedDataLen wire
  .ok (modernCryptPayload (RC5.new 32 (modeKey wire)).decryptBlock wire encryptedLen out)

/-- `gute_mode0_encrypt`: the identity only. -/
def guteMode0Encrypt (plain : Bytes) : Except GuteFault Bytes := do
  guteChecked plain 0 .mode0Encrypt
  .ok (modernEncryptId plain plain)

/-- `gute_mode0_decrypt`. -/
def guteMode0Decrypt (wire : Bytes) : Except GuteFault Bytes := do
  guteChecked wire 0 .mode0Decrypt
  .ok (modernDecryptId wire wire)

/-- `new_header`, for a length of at least 24. -/
def newHeader (subtype length identity sequence flags : Nat) : Bytes :=
  [0x7F, UInt8.ofNat subtype] ++ Bytes.ofNat 2 length ++ Bytes.ofNat 8 identity ++ Bytes.ofNat 4 sequence ++
    Bytes.zeros 4 ++ Bytes.ofNat 4 flags ++ Bytes.zeros (length - 0x18)

/-- `randomized_flags`; `noise` is what `secrets.randbits(15)` gave. -/
def randomizedFlags (noise mode proc : Nat) : Nat :=
  ((noise &&& 0x7FFF) <<< 1) ||| ((mode &&& 3) <<< 16) ||| ((proc &&& 3) <<< 18)

/-- `finish_mode2`. -/
def finishMode2 (frame sessionKey : Bytes) : Except GuteFault Bytes :=
  match guteMode1XorChecksum frame with
  | .error e => .error e
  | .ok checksum => guteMode2Encrypt (frame.put 0x10 (Bytes.ofNat 4 checksum)) sessionKey

/-- `finish_mode1`. -/
def finishMode1 (frame : Bytes) : Except GuteFault Bytes :=
  match guteMode1XorChecksum frame with
  | .error e => .error e
  | .ok checksum => guteMode1Encrypt (frame.put 0x10 (Bytes.ofNat 4 checksum))

/-! ## Lengths -/

theorem length_modernCryptPayload {transform : Bytes → Bytes} (ht : ∀ b, (transform b).length = 8)
    {source out : Bytes} {encryptedLen : Nat} (hlen : 0x18 + encryptedLen ≤ out.length) :
    (modernCryptPayload transform source encryptedLen out).length = out.length := by
  unfold modernCryptPayload
  have hfirst : (out.put 0xC (transform (source.slice 0xC 8))).length = out.length := by
    rw [Bytes.length_put]
    rw [ht]
    omega
  have hloop : ∀ (blocks : List Nat) (acc : Bytes), (∀ i ∈ blocks, i < encryptedLen / 8) → acc.length = out.length →
      (blocks.foldl (fun out i => out.put (0x18 + i * 8) (transform (source.slice (0x18 + i * 8) 8))) acc).length =
        out.length := by
    intro blocks
    induction blocks with
    | nil => exact fun acc _ hacc => hacc
    | cons i blocks ih =>
      intro acc hmem hacc
      have hi := hmem i (by simp)
      refine ih _ (fun j hj => hmem j (by simp [hj])) ?_
      rw [Bytes.length_put, hacc]
      rw [ht]
      omega
  exact hloop _ _ (fun i hi => List.mem_range.mp hi) hfirst

theorem length_modernEncryptId {out plain : Bytes} (h : 0x18 ≤ out.length) :
    (modernEncryptId out plain).length = out.length := by
  simp only [modernEncryptId]
  rw [Bytes.length_put, Bytes.length_put]
  · simp only [Bytes.length_ofNat]; omega
  · rw [Bytes.length_put] <;> simp only [Bytes.length_ofNat] <;> omega

/-- A header that says what the frame is: its length, mode 2 and no trailer. -/
structure Truthful (frame : Bytes) : Prop where
  length_ge : 0x18 ≤ frame.length
  length_eq : frame.field 2 2 = frame.length
  mode_eq : frame.at_ 0x16 &&& 3 = 2
  auth : (frame.field 4 0x14).testBit 22 = false
  stamp : (frame.field 4 0x14).testBit 24 = false

theorem Truthful.dataLen {frame : Bytes} (h : Truthful frame) :
    modernEncryptedDataLen frame = .ok (frame.length - 0x18) := by
  have hge := h.length_ge
  unfold modernEncryptedDataLen
  rw [if_neg (by omega), if_neg (by rw [h.length_eq]; simp)]
  simp [h.auth, h.stamp]

/-- Bytes written past the header leave it truthful. -/
theorem Truthful.put {frame v : Bytes} {p : Nat} (h : Truthful frame) (hp : 0x18 ≤ p)
    (hv : p + v.length ≤ frame.length) : Truthful (frame.put p v) where
  length_ge := by rw [Bytes.length_put hv]; exact h.length_ge
  length_eq := by rw [Bytes.length_put hv, Bytes.field_put_before (by omega) (by omega), h.length_eq]
  mode_eq := by rw [Bytes.at_eq_field, Bytes.field_put_before (by omega) (by omega), ← Bytes.at_eq_field, h.mode_eq]
  auth := by rw [Bytes.field_put_before (by omega) (by omega), h.auth]
  stamp := by rw [Bytes.field_put_before (by omega) (by omega), h.stamp]

/-- So do the first byte and the checksum. -/
theorem Truthful.put_lead {frame v : Bytes} (h : Truthful frame) (hv : v.length = 1) :
    Truthful (frame.put 0 v) := by
  have hge := h.length_ge
  have hlen : (frame.put 0 v).length = frame.length := Bytes.length_put (by omega)
  exact {
    length_ge := by rw [hlen]; exact hge
    length_eq := by rw [hlen, Bytes.field_put_after (by omega) (by omega), h.length_eq]
    mode_eq := by rw [Bytes.at_eq_field, Bytes.field_put_after (by omega) (by omega), ← Bytes.at_eq_field, h.mode_eq]
    auth := by rw [Bytes.field_put_after (by omega) (by omega), h.auth]
    stamp := by rw [Bytes.field_put_after (by omega) (by omega), h.stamp] }

theorem Truthful.put_checksum {frame v : Bytes} (h : Truthful frame) (hv : v.length = 4) :
    Truthful (frame.put 0x10 v) := by
  have hge := h.length_ge
  have hlen : (frame.put 0x10 v).length = frame.length := Bytes.length_put (by omega)
  exact {
    length_ge := by rw [hlen]; exact hge
    length_eq := by rw [hlen, Bytes.field_put_before (by omega) (by omega), h.length_eq]
    mode_eq := by rw [Bytes.at_eq_field, Bytes.field_put_after (by omega) (by omega), ← Bytes.at_eq_field, h.mode_eq]
    auth := by rw [Bytes.field_put_after (by omega) (by omega), h.auth]
    stamp := by rw [Bytes.field_put_after (by omega) (by omega), h.stamp] }

/-- **A truthful frame is finished, at its own length.** -/
theorem finishMode2_ok {frame sessionKey : Bytes} (h : Truthful frame) (hkey : sessionKey.length = 32) :
    ∃ wire, finishMode2 frame sessionKey = .ok wire ∧ wire.length = frame.length := by
  have hge := h.length_ge
  have hsum : ∃ checksum, guteMode1XorChecksum frame = .ok checksum := by
    unfold guteMode1XorChecksum
    rw [if_neg (by rw [h.length_eq]; simp; omega), h.dataLen]
    exact ⟨_, rfl⟩
  obtain ⟨checksum, hsum⟩ := hsum
  have hput := h.put_checksum (Bytes.length_ofNat 4 checksum)
  have hlen : (frame.put 0x10 (Bytes.ofNat 4 checksum)).length = frame.length :=
    Bytes.length_put (by simp only [Bytes.length_ofNat]; omega)
  have hblock : ∀ b, ((RC5.new 32 sessionKey).encryptBlock b).length = 8 := fun b => RC5.length_encryptBlock _ b
  set plain := frame.put 0x10 (Bytes.ofNat 4 checksum)
  set body := modernCryptPayload (RC5.new 32 sessionKey).encryptBlock plain (plain.length - 0x18) plain
  have hbody : body.length = plain.length := length_modernCryptPayload hblock (by omega)
  refine ⟨modernEncryptId body plain, ?_, ?_⟩
  · have hlength : ¬ (plain.length < 0x18 ∨ plain.field 2 2 ≠ plain.length) := by
      rw [hput.length_eq]
      omega
    simp only [finishMode2, hsum]
    unfold guteMode2Encrypt
    rw [if_neg (not_not.mpr hkey), if_neg hlength, if_neg (not_not.mpr hput.mode_eq), hput.dataLen]
  · rw [length_modernEncryptId (by omega), hbody, hlen]

/-! ## Headers -/

@[simp] theorem length_newHeader {subtype length identity sequence flags : Nat} (h : 0x18 ≤ length) :
    (newHeader subtype length identity sequence flags).length = length := by
  simp only [newHeader, List.length_append, Bytes.length_ofNat, Bytes.length_zeros, List.length_cons,
    List.length_nil]
  omega

theorem field_ofNat_third (v : Nat) : Bytes.field 1 2 (Bytes.ofNat 4 v) = v / 65536 % 256 := by
  simp only [Bytes.ofNat, Bytes.field, Bytes.slice, List.drop_succ_cons, List.drop_zero, List.take_succ_cons,
    List.take_zero, Bytes.toNat, UInt8.toNat_ofNat', Nat.div_div_eq_div_mul]
  omega

theorem truthful_newHeader {subtype length identity sequence flags : Nat} (h : 0x18 ≤ length)
    (hmax : length < 2 ^ 16) (hflags : flags < 2 ^ 22) (hmode : flags / 65536 % 4 = 2) :
    Truthful (newHeader subtype length identity sequence flags) := by
  have hword : (newHeader subtype length identity sequence flags).field 4 0x14 = flags := by
    simp (disch := simp) only [newHeader, Bytes.field_append_left, Bytes.field_append_right]
    simp
    omega
  have hbit : ∀ i, 22 ≤ i → flags.testBit i = false := fun i hi =>
    Nat.testBit_lt_two_pow (lt_of_lt_of_le hflags (Nat.pow_le_pow_right (by decide) hi))
  exact {
    length_ge := by rw [length_newHeader h]; exact h
    length_eq := by
      rw [length_newHeader h]
      simp (disch := simp) only [newHeader, Bytes.field_append_left, Bytes.field_append_right]
      simpa using Nat.mod_eq_of_lt hmax
    mode_eq := by
      rw [Bytes.at_eq_field]
      simp (disch := simp) only [newHeader, Bytes.field_append_left, Bytes.field_append_right]
      have hmask : ∀ r, r &&& 3 = r % 4 := fun r => Nat.and_two_pow_sub_one_eq_mod r 2
      simp only [List.length_append, Bytes.length_ofNat, Bytes.length_zeros, List.length_cons, List.length_nil,
        Nat.reduceAdd, Nat.reduceSub]
      rw [field_ofNat_third, hmask]
      omega
    auth := by rw [hword]; exact hbit 22 (by decide)
    stamp := by rw [hword]; exact hbit 24 (by decide) }

/-- A frame of `n` bytes with a truthful header. -/
def Framed (frame : Bytes) (n : Nat) : Prop := Truthful frame ∧ frame.length = n

/-- The header of a message frame, before its body is written. -/
theorem framed_lead {subtype length identity sequence flags : Nat} {lead : UInt8} (h : 0x18 ≤ length)
    (hmax : length < 2 ^ 16) (hflags : flags < 2 ^ 22) (hmode : flags / 65536 % 4 = 2) :
    Framed ((newHeader subtype length identity sequence flags).put 0 [lead]) length := by
  refine ⟨(truthful_newHeader h hmax hflags hmode).put_lead rfl, ?_⟩
  rw [Bytes.length_put] <;> simp only [length_newHeader h, List.length_cons, List.length_nil]
  omega

theorem Framed.put {frame v : Bytes} {n p : Nat} (h : Framed frame n) (hp : 0x18 ≤ p) (hv : p + v.length ≤ n) :
    Framed (frame.put p v) n := by
  obtain ⟨htruth, rfl⟩ := h
  exact ⟨htruth.put hp hv, Bytes.length_put hv⟩

theorem Framed.finish {frame sessionKey : Bytes} {n : Nat} (h : Framed frame n) (hkey : sessionKey.length = 32) :
    ∃ wire, finishMode2 frame sessionKey = .ok wire ∧ wire.length = n := by
  obtain ⟨htruth, rfl⟩ := h
  exact finishMode2_ok htruth hkey

/-- Without a 32-byte key nothing is finished. -/
theorem finishMode2_key {frame sessionKey wire : Bytes} (h : finishMode2 frame sessionKey = .ok wire) :
    sessionKey.length = 32 := by
  by_contra hkey
  unfold finishMode2 guteMode2Encrypt at h
  split at h
  · cases h
  · rw [if_pos hkey] at h
    cases h

theorem randomizedFlags_lt (noise mode proc : Nat) : randomizedFlags noise mode proc < 2 ^ 20 := by
  have hnoise : noise &&& 0x7FFF ≤ 0x7FFF := Nat.and_le_right
  have hmode : mode &&& 3 ≤ 3 := Nat.and_le_right
  have hproc : proc &&& 3 ≤ 3 := Nat.and_le_right
  refine Nat.or_lt_two_pow (Nat.or_lt_two_pow ?_ ?_) ?_
  · rw [Nat.shiftLeft_eq]; omega
  · rw [Nat.shiftLeft_eq]; omega
  · rw [Nat.shiftLeft_eq]; omega

theorem randomizedFlags_mode (noise proc : Nat) : randomizedFlags noise 2 proc / 65536 % 4 = 2 := by
  have hnoise : (noise &&& 0x7FFF) <<< 1 < 2 ^ 16 := by
    have : noise &&& 0x7FFF ≤ 0x7FFF := Nat.and_le_right
    rw [Nat.shiftLeft_eq]
    omega
  have hproc : proc &&& 3 ≤ 3 := Nat.and_le_right
  have hhigh : randomizedFlags noise 2 proc >>> 16 = 2 ||| ((proc &&& 3) <<< 2) := by
    rw [randomizedFlags, Nat.shiftRight_or_distrib, Nat.shiftRight_or_distrib, Nat.shiftRight_eq_zero _ _ hnoise,
      Nat.zero_or]
    simp only [Nat.shiftLeft_eq, Nat.shiftRight_eq_div_pow]
    congr 1
    omega
  rw [← Nat.shiftRight_eq_div_pow _ 16, hhigh]
  generalize proc &&& 3 = p at hproc
  interval_cases p <;> rfl

end CamGuard.Crypto
