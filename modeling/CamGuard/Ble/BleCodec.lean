/-
The provisioning codec of `ble.py`: the payload's encryption under a TanKey, which leaves
a partial last block in the clear, and the split of a message into GATT frames with a
four-byte header and its reassembly from notifications.

AES-CBC on whole blocks is a parameter.
-/
import CamGuard.Lib.Dict
import CamGuard.Lib.Json

namespace CamGuard.Ble

/-- The `BleCodecError`s. -/
inductive BleCodecFault where
  | keyHex
  | keySize
  | short
  | reservedId
  | frameCount
  | frameIndex
  | frameLength
  | conflict
  | command
  | messageId
  | version
  | mtu
  | payload
  deriving DecidableEq, Repr

/-- Their texts. -/
def BleCodecFault.reason : BleCodecFault → String
  | .keyHex => "TanKey must be hexadecimal"
  | .keySize => "TanKey must decode to a 16, 24 or 32 byte AES key"
  | .short => "BLE frame is shorter than its four-byte header"
  | .reservedId => "BLE message ID zero is reserved"
  | .frameCount => "BLE frame count must be between 1 and 15"
  | .frameIndex => "BLE frame index is outside the declared message"
  | .frameLength => "BLE frame data length does not match its header"
  | .conflict => "Conflicting duplicate BLE frame"
  | .command => "BLE command must fit in one byte"
  | .messageId => "BLE message ID must be between 1 and 15"
  | .version => "BLE frame version must be between 0 and 7"
  | .mtu => "BLE MTU must be between 5 and 256"
  | .payload => "BLE payload requires more than 15 frames"

/-! ## The payload -/

/-- AES in CBC mode, of a key and an IV, on whole blocks. -/
structure AesCbc where
  encrypt : Bytes → Bytes → Bytes → Bytes
  decrypt : Bytes → Bytes → Bytes → Bytes

def VENDOR_AES_IV : Bytes := Bytes.ascii "iotVideo" ++ Bytes.zeros 8

/-- The value of a hexadecimal digit. -/
def hexDigit (c : Char) : Option Nat :=
  if 0x30 ≤ c.toNat ∧ c.toNat ≤ 0x39 then some (c.toNat - 0x30)
  else if 0x41 ≤ c.toNat ∧ c.toNat ≤ 0x46 then some (c.toNat - 0x41 + 10)
  else if 0x61 ≤ c.toNat ∧ c.toNat ≤ 0x66 then some (c.toNat - 0x61 + 10)
  else none

/-- What `bytes.fromhex` skips between two bytes. -/
def hexSpace (c : Char) : Bool := c.toNat == 0x20 || (0x09 ≤ c.toNat && c.toNat ≤ 0x0D)

/-- `bytes.fromhex`. -/
def fromHex : List Char → Option Bytes
  | [] => some []
  | [c] => if hexSpace c then some [] else none
  | c :: d :: rest =>
    if hexSpace c then fromHex (d :: rest)
    else
      match hexDigit c, hexDigit d with
      | some high, some low => (fromHex rest).map (UInt8.ofNat (16 * high + low) :: ·)
      | _, _ => none

/-- The key of a TanKey, which both directions check alike. -/
def tanKey (tanKeyHex : String) : Except BleCodecFault Bytes :=
  match fromHex tanKeyHex.toList with
  | none => .error .keyHex
  | some key => if key.length = 16 ∨ key.length = 24 ∨ key.length = 32 then .ok key else .error .keySize

/-- `encrypt_ble_payload`: the whole blocks are enciphered, the rest is left as it is. -/
def encryptBlePayload (aes : AesCbc) (data : Bytes) (tanKeyHex : String) : Except BleCodecFault Bytes :=
  match tanKey tanKeyHex with
  | .error fault => .error fault
  | .ok key =>
    let encryptedLength := data.length / 16 * 16
    if encryptedLength = 0 then .ok data
    else .ok (aes.encrypt key VENDOR_AES_IV (data.take encryptedLength) ++ data.drop encryptedLength)

/-- `decrypt_ble_payload`: the whole blocks are deciphered, the rest is left as it is. -/
def decryptBlePayload (aes : AesCbc) (data : Bytes) (tanKeyHex : String) : Except BleCodecFault Bytes :=
  match tanKey tanKeyHex with
  | .error fault => .error fault
  | .ok key =>
    let encryptedLength := data.length / 16 * 16
    if encryptedLength = 0 then .ok data
    else .ok (aes.decrypt key VENDOR_AES_IV (data.take encryptedLength) ++ data.drop encryptedLength)

/-! ## Frames -/

/-- `BleFrame`. -/
structure BleFrame where
  version : Nat
  encrypted : Bool
  messageId : Nat
  command : Nat
  totalFrames : Nat
  frameIndex : Nat
  data : Bytes
  deriving DecidableEq, Repr

/-- `BleMessage`. -/
structure BleMessage where
  version : Nat
  encrypted : Bool
  messageId : Nat
  command : Nat
  data : Bytes
  deriving DecidableEq, Repr

/-- `parse_ble_frame`. -/
def parseBleFrame (frame : Bytes) : Except BleCodecFault BleFrame :=
  if frame.length < 4 then .error .short
  else
    let control := frame.at_ 0
    let sequence := frame.at_ 2
    if control &&& 0x0F = 0 then .error .reservedId
    else if sequence >>> 4 = 0 then .error .frameCount
    else if sequence >>> 4 ≤ sequence &&& 0x0F then .error .frameIndex
    else if frame.length ≠ 4 + frame.at_ 3 then .error .frameLength
    else .ok {
      version := (control >>> 5) &&& 0x07
      encrypted := control &&& 0x10 ≠ 0
      messageId := control &&& 0x0F
      command := frame.at_ 1
      totalFrames := sequence >>> 4
      frameIndex := sequence &&& 0x0F
      data := frame.drop 4 }

/-- What the frames of a message have in common. -/
structure BleKey where
  version : Nat
  encrypted : Bool
  messageId : Nat
  command : Nat
  totalFrames : Nat
  deriving DecidableEq, Repr

/-- The message that a frame is of. -/
def BleFrame.key (f : BleFrame) : BleKey := ⟨f.version, f.encrypted, f.messageId, f.command, f.totalFrames⟩

/-- `BleMessageAssembler`: the message in progress and the parts of it so far. -/
structure BleMessageAssembler where
  key : Option BleKey := none
  parts : Dict Nat Bytes := ∅

namespace BleMessageAssembler

/-- `reset`. -/
def reset (_a : BleMessageAssembler) : BleMessageAssembler := {}

/-- `add`. The parts of a full message are all there, since an index is below the count. -/
def add (a : BleMessageAssembler) (raw : Bytes) : Except BleCodecFault (Option BleMessage) × BleMessageAssembler :=
  match parseBleFrame raw with
  | .error fault => (.error fault, a)
  | .ok frame =>
    let a := if some frame.key ≠ a.key then ⟨some frame.key, ∅⟩ else a
    if (a.parts.get? frame.frameIndex).any (· ≠ frame.data) then (.error .conflict, a)
    else
      let a := { a with parts := a.parts.set frame.frameIndex frame.data }
      if a.parts.size ≠ frame.totalFrames then (.ok none, a)
      else
        (.ok (some {
          version := frame.version
          encrypted := frame.encrypted
          messageId := frame.messageId
          command := frame.command
          data := (List.range frame.totalFrames).flatMap fun index => (a.parts.get? index).getD [] }), a.reset)

/-- The outcomes of some notifications, one after another. -/
def feed (a : BleMessageAssembler) : List Bytes → List (Except BleCodecFault (Option BleMessage)) × BleMessageAssembler
  | [] => ([], a)
  | raw :: rest => ((a.add raw).1 :: ((a.add raw).2.feed rest).1, ((a.add raw).2.feed rest).2)

end BleMessageAssembler

/-- The number of frames for `length` bytes, `capacity` in each. -/
def frameCount (length capacity : Nat) : Nat := max 1 ((length + capacity - 1) / capacity)

/-- The frame of one chunk. -/
def bleFrame (control command count index : Nat) (chunk : Bytes) : Bytes :=
  [UInt8.ofNat control, UInt8.ofNat command, UInt8.ofNat ((count <<< 4) ||| index), UInt8.ofNat chunk.length] ++ chunk

/-- The first byte of a frame. -/
def controlByte (version : Nat) (encrypted : Bool) (messageId : Nat) : Nat :=
  (version <<< 5) ||| (encrypted.toNat <<< 4) ||| messageId

/-- `fragment_ble_message`. -/
def fragmentBleMessage (command : Int) (data : Bytes) (encrypted : Bool) (messageId mtu : Int) (version : Int := 0) :
    Except BleCodecFault (List Bytes) :=
  if ¬(0 ≤ command ∧ command ≤ 0xFF) then .error .command
  else if ¬(1 ≤ messageId ∧ messageId ≤ 0x0F) then .error .messageId
  else if ¬(0 ≤ version ∧ version ≤ 0x07) then .error .version
  else if ¬(5 ≤ mtu ∧ mtu ≤ 0x100) then .error .mtu
  else
    let capacity := (mtu - 4).toNat
    let count := frameCount data.length capacity
    if 0x0F < count then .error .payload
    else
      let control := controlByte version.toNat encrypted messageId.toNat
      .ok ((List.range count).map fun index =>
        bleFrame control command.toNat count index (data.slice (index * capacity) capacity))

end CamGuard.Ble
