/-
The command side of the StreamPipe framing (`stream_protocol.py`): the inner TLVs
and their cipher, the sequenced and the compact user-data records, and the builtin
commands in them, with the records that the talk path sends.

Each layer is read back by its own parser (`decryptTlv_encryptTlv`,
`unpack_packV1SequenceUserData`, `parse_buildBuiltinCommand`), and the loop over the
compact records is inverse to their concatenation (`userDataFrames_ok_iff`).
`command_channel_round_trip` puts them together.
-/
import CamGuard.Crypto.Rc5Facts
import CamGuard.Lib.Blocks
import CamGuard.Media.V1
import Mathlib.Tactic.NormNum

namespace CamGuard.Media

open Crypto

def MICROPHONE_STATE_CHANGE : Nat := 0x32

/-- `BuiltinCommand`. -/
structure BuiltinCommand where
  command : Nat
  flags : Nat
  timestamp : Nat
  payload : Bytes
  deriving DecidableEq, Repr

/-! ## TLVs -/

/-- The errors of `decrypt_command_tlv` and `decrypt_media_tlv`. -/
inductive TlvFault where
  | cookie
  | type
  | length
  deriving DecidableEq, Repr

def TlvFault.reason : TlvFault → String
  | .cookie => "CALLING cookie must be eight bytes"
  | .type => "unexpected inner TLV type"
  | .length => "inner TLV length mismatch"

/-- Why a TLV cannot be built. -/
inductive TlvBuildFault where
  | cookie
  /-- The `struct.error` of a length that needs more than two bytes. -/
  | overflow
  deriving DecidableEq, Repr

def TlvBuildFault.reason : TlvBuildFault → String
  | .cookie => "CALLING cookie must be eight bytes"
  | .overflow => "'H' format requires 0 <= number <= 65535"

/-- The loop of `_crypt_tlv`: the whole blocks behind the header, in place. -/
def cryptBlocks (transform : Bytes → Bytes) (body : Bytes) : Bytes :=
  (List.range ((body.length - 4) / 8)).foldl
    (fun body i => body.put (4 + i * 8) (transform (body.slice (4 + i * 8) 8))) body

/-- `_crypt_tlv` with `encrypt=True`. -/
def encryptTlv (innerType : UInt8) (payload cookie : Bytes) : Except TlvBuildFault Bytes :=
  if cookie.length ≠ 8 then .error .cookie
  else if 0xFFFF < 4 + payload.length then .error .overflow
  else
    let body := [innerType, 2] ++ Bytes.ofNat 2 (4 + payload.length) ++ payload
    .ok (cryptBlocks (RC5.new 32 cookie).encryptBlock body)

/-- `_crypt_tlv` with `encrypt=False`. -/
def decryptTlv (innerType : UInt8) (payload cookie : Bytes) : Except TlvFault Bytes :=
  if cookie.length ≠ 8 then .error .cookie
  else if payload.length < 4 ∨ payload.at_ 0 ≠ innerType.toNat then .error .type
  else if payload.field 2 2 ≠ payload.length then .error .length
  else .ok ((cryptBlocks (RC5.new 32 cookie).decryptBlock payload).drop 4)

def encryptCommandTlv (payload cookie : Bytes) : Except TlvBuildFault Bytes := encryptTlv 2 payload cookie

def decryptCommandTlv (frame cookie : Bytes) : Except TlvFault Bytes := decryptTlv 2 frame cookie

def encryptMediaTlv (payload cookie : Bytes) : Except TlvBuildFault Bytes := encryptTlv 4 payload cookie

/-- `decrypt_media_tlv`: the whole blocks of the body are decrypted in place. -/
def decryptMediaTlv (frame cookie : Bytes) : Except TlvFault Bytes :=
  if cookie.length ≠ 8 then .error .cookie
  else if frame.length < 4 ∨ frame.at_ 0 ≠ 4 then .error .type
  else if frame.field 2 2 ≠ frame.length then .error .length
  else
    let cipher := RC5.new 32 cookie
    let body := (List.range ((frame.length - 4) / 8)).foldl
      (fun body i => body.put (4 + i * 8) (cipher.decryptBlock (body.slice (4 + i * 8) 8))) frame
    .ok (body.drop 4)

theorem decryptMediaTlv_eq (frame cookie : Bytes) : decryptMediaTlv frame cookie = decryptTlv 4 frame cookie := rfl

/-! ## User-data records -/

/-- The errors of the V1 sequence wrapper. -/
inductive UserDataFault where
  | large
  | frame
  | header
  | length
  deriving DecidableEq, Repr

def UserDataFault.reason : UserDataFault → String
  | .large => "v1 sequenced user-data body is too large"
  | .frame => "not a v1 sequenced user-data frame"
  | .header => "invalid v1 sequenced user-data header"
  | .length => "v1 sequenced user-data length mismatch"

/-- The eight bytes that begin a user-data record, and the rest of it. -/
def userData (marker length : Nat) (rest : Bytes) : Bytes :=
  V1_MAGIC ++ (Bytes.ofNat 2 marker ++ (Bytes.ofNat 2 length ++ rest))

def packV1SequenceUserData (body : Bytes) : Except UserDataFault Bytes :=
  if 0xFFFF < body.length then .error .large
  else .ok (userData 0x0300 body.length (Bytes.zeros 20 ++ body))

def unpackV1SequenceUserData (frame : Bytes) : Except UserDataFault Bytes :=
  if frame.length < 28 ∨ frame.slice 0 4 ≠ V1_MAGIC then .error .frame
  else if frame.field 2 4 ≠ 0x0300 ∨ (frame.slice 8 20).any (· ≠ 0) then .error .header
  else if frame.length ≠ frame.field 2 6 + 28 then .error .length
  else .ok (frame.drop 28)

/-- The errors of `unpack_v1_user_data_frames`. -/
inductive CompactFault where
  | incomplete
  | header
  | truncated
  | empty
  deriving DecidableEq, Repr

def CompactFault.reason : CompactFault → String
  | .incomplete => "not a complete v1 user-data record"
  | .header => "invalid v1 user-data header"
  | .truncated => "truncated v1 user-data body"
  | .empty => "empty v1 user-data payload"

/-- The loop of `unpack_v1_user_data_frames`, on the bytes from `cursor` on. -/
def userDataFrames (unread : Bytes) : Except CompactFault (List Bytes) :=
  if unread = [] then .ok []
  else if _hrecord : unread.length < 8 ∨ unread.slice 0 4 ≠ V1_MAGIC then .error .incomplete
  else if unread.field 2 4 ≠ 0x0200 then .error .header
  else if unread.length < 8 + unread.field 2 6 then .error .truncated
  else
    match userDataFrames (unread.drop (8 + unread.field 2 6)) with
    | .ok frames => .ok (unread.slice 8 (unread.field 2 6) :: frames)
    | .error e => .error e
termination_by unread.length
decreasing_by
  rw [List.length_drop]
  omega

def unpackV1UserDataFrames (payload : Bytes) : Except CompactFault (List Bytes) :=
  match userDataFrames payload with
  | .ok [] => .error .empty
  | .ok frames => .ok frames
  | .error e => .error e

/-- A compact record around its body. -/
def compactRecord (body : Bytes) : Bytes := userData 0x0200 body.length body

/-! ## Builtin commands -/

/-- The errors of `parse_builtin_command`. -/
inductive BuiltinFault where
  | command
  | flagBits
  | short
  | reserved
  | unexpectedFlags
  deriving DecidableEq, Repr

def BuiltinFault.reason : BuiltinFault → String
  | .command => "command must fit in one byte"
  | .flagBits => "only the low two command flag bits are defined"
  | .short => "built-in command body is shorter than eight bytes"
  | .reserved => "unexpected built-in command reserved byte"
  | .unexpectedFlags => "unexpected built-in command flag bits"

/-- `build_builtin_command`; the mask reduces any timestamp. -/
def buildBuiltinCommand (command : Nat) (payload : Bytes) (flags : Nat) (timestampUs : Int) :
    Except BuiltinFault Bytes :=
  if 0xFF < command then .error .command
  else if 0x03 < flags then .error .flagBits
  else .ok ([0, UInt8.ofNat command] ++ (Bytes.ofNat 2 flags ++ (Bytes.ofNat 4 (timestampUs % 2 ^ 32).toNat ++ payload)))

def parseBuiltinCommand (frame : Bytes) : Except BuiltinFault BuiltinCommand :=
  if frame.length < 8 then .error .short
  else if frame.at_ 0 ≠ 0 then .error .reserved
  else if 0x03 < frame.field 2 2 then .error .unexpectedFlags
  else .ok ⟨frame.at_ 1, frame.field 2 2, frame.field 4 4, frame.drop 8⟩

/-! ## The records of the talk path -/

def packLegacyCaptureHeader (frameRate : Nat := 15) : Except String Bytes :=
  if frameRate < 1 ∨ 0x3F < frameRate then .error "legacy capture frame rate must be between 1 and 63"
  else .ok (V1_MAGIC ++ [0x00, 0x01, 0x05, 0x21, 0x01, 0x14, 0xf0, UInt8.ofNat (frameRate <<< 2)] ++ Bytes.zeros 16)

/-- `pack_v1_audio_encoding_header`: the stream count and the descriptor, cut to the
twenty bytes of the record. -/
def packV1AudioEncodingHeader (header : V1EncodingHeader) : Except String Bytes :=
  if header.audioChannels ≠ 1 ∧ header.audioChannels ≠ 2 then
    .error "v1 encoding header supports mono or stereo audio"
  else if header.audioBitWidth < 8 ∨ 0xFF < header.audioBitWidth ∨ header.audioBitWidth % 8 ≠ 0 then
    .error "audio bit width must be an 8-bit multiple fitting u8"
  else if header.audioSampleRate < 1 ∨ 0xFFFFFFFF < header.audioSampleRate then
    .error "intercom sample rate must fit in the native u32 field"
  else if header.audioFrameSize < 1 ∨ 0xFFFF < header.audioFrameSize then
    .error "intercom frame size must fit in the native u16 field"
  else
    let descriptor : Bytes := [0, 2, 0, 0] ++ Bytes.ofNat 4 header.audioSampleRate ++ Bytes.ofNat 2 header.audioFrameSize ++
      ([header.audioChannels, header.audioBitWidth, header.audioCodec, header.audioCodecOption].map UInt8.ofNat) ++
      Bytes.zeros 6
    .ok (V1_MAGIC ++ Bytes.ofNat 2 0x0500 ++ Bytes.zeros 2 ++ (0 :: 1 :: descriptor).take 20)

/-- `pack_legacy_talk_control`. -/
def packLegacyTalkControl (enabled : Bool) : Bytes :=
  V1_MAGIC ++ [0, 2, 5, if enabled then 1 else 0] ++ Bytes.zeros 20

/-- A command in its record, each layer with its own failure. -/
def packMicrophoneCommand (enabled : Bool) (timestampUs : Int) : Except (BuiltinFault ⊕ UserDataFault) Bytes :=
  match buildBuiltinCommand MICROPHONE_STATE_CHANGE [if enabled then 1 else 0] 0 timestampUs with
  | .error e => .error (.inl e)
  | .ok body => (packV1SequenceUserData body).mapError .inr

/-! ## Round trips -/

variable {payload cookie frame : Bytes}

theorem cryptBlocks_append {transform : Bytes → Bytes} (hlength : ∀ b, (transform b).length = 8) {head tail : Bytes}
    (hhead : head.length = 4) :
    cryptBlocks transform (head ++ tail) = head ++ Bytes.mapBlocks 8 transform (tail.length / 8) tail := by
  have hcount : (head ++ tail).length - 4 = tail.length := by rw [List.length_append, hhead, Nat.add_sub_cancel_left]
  rw [cryptBlocks, hcount]
  exact Bytes.foldl_inplace_blocks hlength hhead (Nat.mul_div_le tail.length 8)

/-- A TLV on the wire: the header is in clear. -/
theorem encryptTlv_ok {innerType : UInt8} {wire : Bytes} (h : encryptTlv innerType payload cookie = .ok wire) :
    cookie.length = 8 ∧ payload.length ≤ 65531 ∧ wire = [innerType, 2] ++ Bytes.ofNat 2 (4 + payload.length) ++
      Bytes.mapBlocks 8 (RC5.new 32 cookie).encryptBlock (payload.length / 8) payload := by
  unfold encryptTlv at h
  split at h
  · cases h
  rename_i hcookie
  split at h
  · cases h
  rename_i hfits
  cases h
  exact ⟨by omega, by omega, cryptBlocks_append (fun b => RC5.length_encryptBlock _ b) (by simp)⟩

theorem encryptTlv_fits (innerType : UInt8) (hcookie : cookie.length = 8) (hfits : payload.length ≤ 65531) :
    ∃ wire, encryptTlv innerType payload cookie = .ok wire := by
  unfold encryptTlv
  rw [if_neg (by omega), if_neg (by omega)]
  exact ⟨_, rfl⟩

theorem decryptTlv_ok {innerType : UInt8} (h : decryptTlv innerType frame cookie = .ok payload) :
    frame.at_ 0 = innerType.toNat := by
  unfold decryptTlv at h
  split at h
  · cases h
  split at h
  · cases h
  rename_i htype
  exact not_not.mp fun hne => htype (.inr hne)

theorem length_encryptTlv {innerType : UInt8} {wire : Bytes} (h : encryptTlv innerType payload cookie = .ok wire) :
    wire.length = 4 + payload.length := by
  obtain ⟨-, -, rfl⟩ := encryptTlv_ok h
  have hblocks := Bytes.length_mapBlocks (fun b => RC5.length_encryptBlock (RC5.new 32 cookie) b)
    (Nat.mul_div_le payload.length 8)
  rw [List.length_append, hblocks]
  simp

theorem encryptTlv_type {innerType : UInt8} {wire : Bytes} (h : encryptTlv innerType payload cookie = .ok wire) :
    wire.at_ 0 = innerType.toNat := by
  obtain ⟨-, -, rfl⟩ := encryptTlv_ok h
  rfl

theorem decryptTlv_encryptTlv {innerType : UInt8} {wire : Bytes}
    (h : encryptTlv innerType payload cookie = .ok wire) : decryptTlv innerType wire cookie = .ok payload := by
  have htype := encryptTlv_type h
  obtain ⟨hcookie, hfits, rfl⟩ := encryptTlv_ok h
  set cipher := (RC5.new 32 cookie)
  set tail := Bytes.mapBlocks 8 cipher.encryptBlock (payload.length / 8) payload
  set head := [innerType, 2] ++ Bytes.ofNat 2 (4 + payload.length)
  have hblocks : 8 * (payload.length / 8) ≤ payload.length := Nat.mul_div_le payload.length 8
  have hhead : head.length = 4 := by simp [head]
  have htail : tail.length = payload.length :=
    Bytes.length_mapBlocks (fun b => RC5.length_encryptBlock cipher b) hblocks
  have hlength : (head ++ tail).length = 4 + payload.length := by rw [List.length_append, hhead, htail]
  have hfield : Bytes.field 2 2 (head ++ tail) = (head ++ tail).length := by
    have hword : Bytes.field 2 2 head = Bytes.field 2 0 (Bytes.ofNat 2 (4 + payload.length)) :=
      Bytes.field_append_right (by simp)
    rw [hlength, Bytes.field_append_left hhead.ge, hword, Bytes.field_ofNat_self]
    exact Nat.mod_eq_of_lt (by omega)
  unfold decryptTlv
  rw [if_neg (by omega), if_neg (by rw [hlength, htype]; omega), if_neg (by rw [hfield]; exact fun h => h rfl),
    cryptBlocks_append (fun b => RC5.length_decryptBlock cipher b) hhead, htail, List.drop_left' hhead]
  exact congrArg _ (Bytes.mapBlocks_undo (fun b => RC5.length_encryptBlock cipher b)
    (fun b hb => RC5.decryptBlock_encryptBlock (by decide) cipher hb) hblocks)

/-- What a reader finds in the head of a record. -/
structure Headed (marker length : Nat) (rest record : Bytes) : Prop where
  size : record.length = 8 + rest.length
  magic : record.slice 0 4 = V1_MAGIC
  marker : record.field 2 4 = marker
  length : record.field 2 6 = length
  rest : ∀ k, record.drop (8 + k) = rest.drop k

theorem headed_userData {marker length : Nat} (hmarker : marker ≤ 0xFFFF) (hlength : length ≤ 0xFFFF) (rest : Bytes) :
    Headed marker length rest (userData marker length rest) := by
  unfold userData
  refine ⟨?_, List.take_left' length_V1_MAGIC, ?_, ?_, fun k => ?_⟩
  · simp only [List.length_append, length_V1_MAGIC, Bytes.length_ofNat]
    omega
  · rw [Bytes.field_append_right (by simp), length_V1_MAGIC, Bytes.field_ofNat]
    exact Nat.mod_eq_of_lt (by omega)
  · rw [Bytes.field_append_right (by simp), length_V1_MAGIC, Bytes.field_append_right (by simp), Bytes.length_ofNat,
      Bytes.field_ofNat]
    exact Nat.mod_eq_of_lt (by omega)
  · rw [← List.append_assoc, ← List.append_assoc, ← List.drop_drop, List.drop_left' (by simp)]

theorem unpack_packV1SequenceUserData {body : Bytes} (h : packV1SequenceUserData body = .ok frame) :
    frame.length = 28 + body.length ∧ unpackV1SequenceUserData frame = .ok body := by
  unfold packV1SequenceUserData at h
  split at h
  · cases h
  rename_i hfits
  cases h
  have hhead := headed_userData (by decide : 0x0300 ≤ 0xFFFF) (by omega : body.length ≤ 0xFFFF) (Bytes.zeros 20 ++ body)
  set frame := userData 0x0300 body.length (Bytes.zeros 20 ++ body)
  have hsize : frame.length = 28 + body.length := by
    rw [hhead.size, List.length_append, Bytes.length_zeros]
    omega
  have hzeros : frame.slice 8 20 = Bytes.zeros 20 := by
    rw [Bytes.slice, hhead.rest 0]
    exact List.take_left' (Bytes.length_zeros 20)
  refine ⟨hsize, ?_⟩
  unfold unpackV1SequenceUserData
  rw [if_neg (by rw [hsize, hhead.magic]; simp), if_neg (by rw [hhead.marker, hzeros]; decide),
    if_neg (by rw [hsize, hhead.length]; omega), hhead.rest 20, List.drop_left' (Bytes.length_zeros 20)]

/-- A command comes back with its timestamp reduced to four bytes. -/
theorem parse_buildBuiltinCommand {command flags : Nat} {timestampUs : Int}
    (h : buildBuiltinCommand command payload flags timestampUs = .ok frame) : frame.length = 8 + payload.length ∧
      parseBuiltinCommand frame = .ok ⟨command, flags, (timestampUs % 2 ^ 32).toNat, payload⟩ := by
  unfold buildBuiltinCommand at h
  split at h
  · cases h
  rename_i hcommand
  split at h
  · cases h
  rename_i hflags
  cases h
  set stamp := (timestampUs % 2 ^ 32).toNat with hstamp
  have hfits : stamp < 256 ^ 4 := by omega
  set tail := Bytes.ofNat 4 stamp ++ payload
  have hlength : ([0, UInt8.ofNat command] ++ (Bytes.ofNat 2 flags ++ tail)).length = 8 + payload.length := by
    simp [tail]
    omega
  refine ⟨hlength, ?_⟩
  have hbyte : Bytes.at_ ([0, UInt8.ofNat command] ++ (Bytes.ofNat 2 flags ++ tail)) 1 = command :=
    UInt8.toNat_ofNat_of_lt' (show command < 256 by omega)
  have hword : Bytes.field 2 2 ([0, UInt8.ofNat command] ++ (Bytes.ofNat 2 flags ++ tail)) = flags := by
    rw [Bytes.field_append_right (by simp)]
    refine (Bytes.field_ofNat 2 flags tail).trans (Nat.mod_eq_of_lt (by omega))
  have htime : Bytes.field 4 4 ([0, UInt8.ofNat command] ++ (Bytes.ofNat 2 flags ++ tail)) = stamp := by
    rw [Bytes.field_append_right (by simp), Bytes.field_append_right (by simp)]
    refine (Bytes.field_ofNat 4 stamp payload).trans (Nat.mod_eq_of_lt hfits)
  have hdrop : ([0, UInt8.ofNat command] ++ (Bytes.ofNat 2 flags ++ tail)).drop 8 = payload := by
    rw [← List.append_assoc, ← List.append_assoc]
    exact List.drop_left' (by simp)
  unfold parseBuiltinCommand
  rw [if_neg (by omega), if_neg (by exact fun h => h rfl), hword, if_neg hflags, hbyte, htime, hdrop]

/-! ## Concatenated records -/

theorem userDataFrames_nil : userDataFrames [] = .ok [] := by
  rw [userDataFrames, if_pos rfl]

/-- One turn of the loop, at a record that is there. -/
theorem userDataFrames_compactRecord {body : Bytes} (hbody : body.length ≤ 0xFFFF) (unread : Bytes) :
    userDataFrames (compactRecord body ++ unread) =
      match userDataFrames unread with
      | .ok frames => .ok (body :: frames)
      | .error e => .error e := by
  have hsplit : compactRecord body ++ unread = userData 0x0200 body.length (body ++ unread) := by
    simp only [compactRecord, userData, List.append_assoc]
  have hhead := headed_userData (by decide : 0x0200 ≤ 0xFFFF) hbody (body ++ unread)
  rw [hsplit]
  set record := userData 0x0200 body.length (body ++ unread)
  have hsize : record.length = 8 + (body.length + unread.length) := by rw [hhead.size, List.length_append]
  have hbytes : record.slice 8 body.length = body := by
    rw [Bytes.slice, hhead.rest 0]
    exact List.take_left' rfl
  rw [userDataFrames, if_neg (by rw [← List.length_eq_zero_iff]; omega), dif_neg (by rw [hsize, hhead.magic]; simp),
    if_neg (by rw [hhead.marker]; simp), hhead.length, if_neg (by omega), hhead.rest, List.drop_left' rfl, hbytes]

theorem userDataFrames_cons {unread : Bytes} {frames : List Bytes} (hne : unread ≠ [])
    (h : userDataFrames unread = .ok frames) : ∃ body later rest, frames = body :: later ∧ body.length ≤ 0xFFFF ∧
      unread = compactRecord body ++ rest ∧ rest.length < unread.length ∧ userDataFrames rest = .ok later := by
  rw [userDataFrames, if_neg hne] at h
  split at h
  · cases h
  rename_i hrecord
  split at h
  · cases h
  rename_i hmarker
  split at h
  · cases h
  rename_i hsize
  split at h
  · rename_i later hlater
    cases h
    rw [not_or, not_not, not_lt] at hrecord
    have hlength : (unread.slice 8 (unread.field 2 6)).length = unread.field 2 6 := Bytes.slice_length (by omega)
    have hfield : unread.field 2 6 < 256 ^ 2 := Bytes.field_lt
    refine ⟨_, later, _, rfl, by omega, ?_, by rw [List.length_drop]; omega, hlater⟩
    -- The four parts of the record are neighbouring slices.
    have hword : Bytes.ofNat 2 0x0200 = unread.slice 4 2 := by
      rw [← not_not.mp hmarker, Bytes.ofNat_field (by omega)]
    have hcount : Bytes.ofNat 2 (unread.field 2 6) = unread.slice 6 2 := Bytes.ofNat_field (by omega)
    rw [compactRecord, userData, hlength, hword, hcount, ← hrecord.2, Bytes.slice_append_slice rfl,
      Bytes.slice_append_slice rfl, Bytes.slice_append_slice rfl]
    simp only [Bytes.slice, List.drop_zero]
    rw [show 4 + (2 + (2 + unread.field 2 6)) = 8 + unread.field 2 6 by omega]
    exact (List.take_append_drop _ _).symm
  · cases h

/-- **The loop reads concatenated records, and nothing else.** -/
theorem userDataFrames_ok_iff (unread : Bytes) (frames : List Bytes) : userDataFrames unread = .ok frames ↔
    (∀ frame ∈ frames, frame.length ≤ 0xFFFF) ∧ unread = (frames.map compactRecord).flatten := by
  constructor
  · intro h
    induction hn : unread.length using Nat.strong_induction_on generalizing unread frames with
    | _ n ih =>
      by_cases hnil : unread = []
      · rw [hnil, userDataFrames_nil] at h
        cases h
        exact ⟨by simp, hnil⟩
      · obtain ⟨body, later, rest, rfl, hbody, rfl, hshort, hlater⟩ := userDataFrames_cons hnil h
        obtain ⟨hlaters, hrest⟩ := ih rest.length (hn ▸ hshort) rest later hlater rfl
        refine ⟨List.forall_mem_cons.mpr ⟨hbody, hlaters⟩, ?_⟩
        rw [List.map_cons, List.flatten_cons, ← hrest]
  · rintro ⟨hfits, rfl⟩
    induction frames with
    | nil => exact userDataFrames_nil
    | cons body later ih =>
      rw [List.forall_mem_cons] at hfits
      rw [List.map_cons, List.flatten_cons, userDataFrames_compactRecord hfits.1, ih hfits.2]

theorem unpackV1UserDataFrames_ok_iff (payload : Bytes) (frames : List Bytes) :
    unpackV1UserDataFrames payload = .ok frames ↔
      frames ≠ [] ∧ (∀ frame ∈ frames, frame.length ≤ 0xFFFF) ∧ payload = (frames.map compactRecord).flatten := by
  rw [← userDataFrames_ok_iff, unpackV1UserDataFrames]
  cases hread : userDataFrames payload with
  | error e => simp
  | ok found =>
    cases found with
    | nil => simp
    | cons first later =>
      refine ⟨fun h => ?_, fun h => h.2⟩
      cases h
      exact ⟨List.cons_ne_nil first later, rfl⟩

/-! ## The command channel -/

/-- **Commands, media and compact records come back as they were sent**, whatever
the cookie and the sizes; a TLV of one channel is never taken for one of the other. -/
theorem command_channel_round_trip :
    (∀ (cookie payload : Bytes) (command flags : Nat) (timestampUs : Int), cookie.length = 8 → command ≤ 0xFF →
      flags ≤ 3 → 4 + 28 + 8 + payload.length ≤ 0xFFFF →
      ∃ built packed wire, buildBuiltinCommand command payload flags timestampUs = .ok built ∧
        packV1SequenceUserData built = .ok packed ∧ encryptCommandTlv packed cookie = .ok wire ∧
        decryptCommandTlv wire cookie = .ok packed ∧ unpackV1SequenceUserData packed = .ok built ∧
        parseBuiltinCommand built = .ok ⟨command, flags, (timestampUs % 2 ^ 32).toNat, payload⟩) ∧
    (∀ cookie payload : Bytes, cookie.length = 8 → payload.length ≤ 65531 →
      ∃ wire, encryptMediaTlv payload cookie = .ok wire ∧ decryptMediaTlv wire cookie = .ok payload) ∧
    (∀ frame cookie other payload : Bytes,
      (decryptCommandTlv frame cookie = .ok payload ∨ encryptCommandTlv payload cookie = .ok frame →
        ∀ read, decryptMediaTlv frame other ≠ .ok read) ∧
      (decryptMediaTlv frame cookie = .ok payload ∨ encryptMediaTlv payload cookie = .ok frame →
        ∀ read, decryptCommandTlv frame other ≠ .ok read)) ∧
    ∀ (payload : Bytes) (frames : List Bytes), unpackV1UserDataFrames payload = .ok frames ↔
      frames ≠ [] ∧ (∀ frame ∈ frames, frame.length ≤ 0xFFFF) ∧ payload = (frames.map compactRecord).flatten := by
  simp only [decryptMediaTlv_eq]
  refine ⟨fun cookie payload command flags timestampUs hcookie hcommand hflags hfits => ?_,
    fun cookie payload hcookie hfits => ?_, fun frame cookie other payload => ⟨fun h read hread => ?_, fun h read hread => ?_⟩,
    unpackV1UserDataFrames_ok_iff⟩
  · obtain ⟨built, hbuilt⟩ : ∃ built, buildBuiltinCommand command payload flags timestampUs = .ok built := by
      rw [buildBuiltinCommand, if_neg (by omega), if_neg (by omega)]
      exact ⟨_, rfl⟩
    obtain ⟨hsize, hparse⟩ := parse_buildBuiltinCommand hbuilt
    obtain ⟨packed, hpacked⟩ : ∃ packed, packV1SequenceUserData built = .ok packed := by
      rw [packV1SequenceUserData, if_neg (by omega)]
      exact ⟨_, rfl⟩
    obtain ⟨hlength, hunpack⟩ := unpack_packV1SequenceUserData hpacked
    obtain ⟨wire, hwire⟩ := encryptTlv_fits 2 hcookie (by omega : packed.length ≤ 65531)
    exact ⟨built, packed, wire, hbuilt, hpacked, hwire, decryptTlv_encryptTlv hwire, hunpack, hparse⟩
  · obtain ⟨wire, hwire⟩ := encryptTlv_fits 4 hcookie hfits
    exact ⟨wire, hwire, decryptTlv_encryptTlv hwire⟩
  · have hcommand : frame.at_ 0 = 2 := h.elim decryptTlv_ok encryptTlv_type
    have hmedia : frame.at_ 0 = 4 := decryptTlv_ok hread
    omega
  · have hmedia : frame.at_ 0 = 4 := h.elim decryptTlv_ok encryptTlv_type
    have hcommand : frame.at_ 0 = 2 := decryptTlv_ok hread
    omega

end CamGuard.Media
