/-
Fragments of a broker's messages (`resource_service_protocol.py`): the header of
a fragment packet, masked and checked, and the bounded reassembly of a message
from its fragments.
-/
import CamGuard.Lib.Bytes
import CamGuard.Lib.Dict

namespace CamGuard.Account

/-- `FragmentPacket`, as its header decodes. -/
structure FragmentPacket where
  decodedHeader : Bytes
  identity : Nat
  sequence : Nat
  originalLength : Nat
  total : Nat
  index : Nat
  largePayload : Bool
  payload : Bytes
  deriving DecidableEq, Repr

/-- The `ValueError`s of the reassembler. -/
inductive FragmentFault where
  | limit
  | index
  | groups
  | conflict
  | sizes
  | final
  | length
  | decodedHeader
  | mask
  | packet
  | packetLength
  | checksum
  deriving DecidableEq, Repr

/-- Their texts. -/
def FragmentFault.reason : FragmentFault → String
  | .limit => "fragment group limit must be between 1 and 16"
  | .index => "fragment index/count is invalid"
  | .groups => "too many incomplete fragment groups"
  | .conflict => "conflicting duplicate fragment"
  | .sizes => "fragment chunks have inconsistent sizes"
  | .final => "final fragment is larger than preceding chunks"
  | .length => "reassembled frame length does not match the fragment header"
  | .decodedHeader => "invalid decoded fragment header"
  | .mask => "fragment mask must fit in 16 bits"
  | .packet => "not a gute fragment-data packet"
  | .packetLength => "fragment packet length is invalid"
  | .checksum => "fragment header checksum is invalid"

/-! ## Headers -/

/-- The offsets of the masked words, `range(4, 0x14, 2)`. -/
def maskedOffsets : List Nat := [4, 6, 8, 10, 12, 14, 16, 18]

/-- `encode_fragment_header`; `mask` is the one given or drawn. -/
def encodeFragmentHeader (decoded : Bytes) (mask : Nat) : Except FragmentFault Bytes :=
  if decoded.length < 0x18 ∨ decoded.at_ 0 ≠ 0x70 then .error .decodedHeader
  else if 0xFFFF < mask then .error .mask
  else
    let masked := maskedOffsets.foldl (fun (s : Bytes × Nat) off =>
      let value := s.1.field 2 off
      (s.1.put off (Bytes.ofNat 2 (value ^^^ mask)), s.2 ||| value)) (decoded.put 0x14 (Bytes.ofNat 2 mask), mask)
    .ok (masked.1.put 0x16 (Bytes.ofNat 2 masked.2))

/-- The loop of `decode_fragment_packet`: the words in the clear, and their checksum. -/
def unmask (wire : Bytes) (mask : Nat) : Bytes × Nat :=
  maskedOffsets.foldl (fun (s : Bytes × Nat) off =>
    let value := s.1.field 2 off ^^^ mask
    (s.1.put off (Bytes.ofNat 2 value), s.2 ||| value)) (wire, mask)

/-- `decode_fragment_packet`. -/
def decodeFragmentPacket (wire : Bytes) : Except FragmentFault FragmentPacket :=
  if wire.length < 0x18 ∨ wire.slice 0 2 ≠ [0x70, 0x01] then .error .packet
  else if wire.field 2 2 ≠ wire.length then .error .packetLength
  else
    let decoded := unmask wire (wire.field 2 0x14)
    if decoded.2 ≠ wire.field 2 0x16 then .error .checksum
    else
      let frame := decoded.1
      .ok {
        decodedHeader := frame.slice 0 0x18
        identity := frame.field 8 4
        sequence := frame.field 4 0x0C
        originalLength := frame.field 2 0x10
        total := frame.at_ 0x12 &&& 0x7F
        index := frame.at_ 0x13
        largePayload := (frame.at_ 0x12).testBit 7
        payload := frame.drop 0x18 }

/-- `build_fragment_ack`. -/
def buildFragmentAck (packet : FragmentPacket) (mask : Nat) : Except FragmentFault Bytes :=
  encodeFragmentHeader ([0x70, 0x02, 0x18, 0x00] ++ packet.decodedHeader.slice 4 0x10 ++ Bytes.zeros 4) mask

/-! ## Reassembly -/

/-- What the packets of one message have in common. -/
structure FragmentKey where
  identity : Nat
  sequence : Nat
  originalLength : Nat
  total : Nat
  largePayload : Bool
  deriving DecidableEq, Repr

/-- The message that a packet is of. -/
def FragmentPacket.key (p : FragmentPacket) : FragmentKey :=
  ⟨p.identity, p.sequence, p.originalLength, p.total, p.largePayload⟩

/-- `FragmentReassembler`: for each message that is incomplete, what has come of it. -/
structure FragmentReassembler where
  maxGroups : Nat
  groups : Dict FragmentKey (Dict Nat Bytes) := ∅

namespace FragmentReassembler

/-- `FragmentReassembler(max_groups)`. -/
def new (maxGroups : Nat := 8) : Except FragmentFault FragmentReassembler :=
  if maxGroups < 1 ∨ 16 < maxGroups then .error .limit else .ok { maxGroups := maxGroups }

/-- The end of `add`: the parts of a message that are all there, in order. -/
def assemble (originalLength total : Nat) (ordered : List Bytes) : Except FragmentFault Bytes :=
  let chunkSize := (ordered.headD []).length
  if 1 < total ∧ (chunkSize = 0 ∨ ordered.dropLast.any fun part => decide (part.length ≠ chunkSize)) then .error .sizes
  else if 1 < total ∧ chunkSize < (ordered.getLastD []).length then .error .final
  else if ordered.flatten.length ≠ originalLength then .error .length
  else .ok ordered.flatten

/-- `add`: the message, when this packet completes it. -/
def add (r : FragmentReassembler) (packet : FragmentPacket) :
    Except FragmentFault (Option Bytes) × FragmentReassembler :=
  if packet.total < 1 ∨ 0x7F < packet.total ∨ packet.total ≤ packet.index then (.error .index, r)
  else if (r.groups.get? packet.key).isNone ∧ r.maxGroups ≤ r.groups.size then (.error .groups, r)
  else
    let parts := (r.groups.get? packet.key).getD ∅
    if (parts.get? packet.index).any fun previous => decide (previous ≠ packet.payload) then
      (.error .conflict, { r with groups := r.groups.erase packet.key })
    else
      let parts := parts.set packet.index packet.payload
      if parts.size ≠ packet.total then (.ok none, { r with groups := r.groups.set packet.key parts })
      else
        let ordered := (List.range packet.total).map fun index => (parts.get? index).getD []
        let r := { r with groups := r.groups.erase packet.key }
        match assemble packet.originalLength packet.total ordered with
        | .error e => (.error e, r)
        | .ok assembled => (.ok (some assembled), r)

end FragmentReassembler

/-- A run of `add`: the reassembler, and each packet with what came of it. -/
structure FragmentRun where
  reassembler : FragmentReassembler
  log : List (FragmentPacket × Except FragmentFault (Option Bytes)) := []

namespace FragmentRun

/-- One packet. -/
def step (s : FragmentRun) (packet : FragmentPacket) : FragmentRun :=
  match s.reassembler.add packet with
  | (out, r) => ⟨r, s.log ++ [(packet, out)]⟩

/-- The packets, in order. -/
def run (r : FragmentReassembler) (packets : List FragmentPacket) : FragmentRun := packets.foldl step ⟨r, []⟩

end FragmentRun

end CamGuard.Account
