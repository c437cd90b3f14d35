/-
A reference demultiplexer for MPEG transport streams: packets of 188 bytes, their
adaptation fields skipped, the payloads of one program identifier gathered into
units at `payload_unit_start`, and a unit read as a packetised elementary stream
packet or as a section. It follows the format, not one writer of it: what a writer
may choose (stuffing, the length of a video packet left open) it accepts either way,
and it refuses what the format does not allow.
-/
import CamGuard.Lib.Framing
import CamGuard.Lib.Bytes
import Mathlib.Tactic.IntervalCases

namespace CamGuard.MpegTs

open CamGuard.Framing

structure Packet where
  pid : Nat
  start : Bool
  continuity : Nat
  /-- The base of the program clock reference, where the packet carries one. -/
  pcr : Option Nat
  payload : Bytes
  deriving DecidableEq, Repr

def PACKET : Nat := 188

/-- The clock reference of an adaptation field of `length` bytes behind its length
byte: absent, present, or a field too short for what its flags say. -/
def readPcr (length : Nat) (field : Bytes) : Option (Option Nat) :=
  if length = 0 ∨ field.at_ 0 / 16 % 2 = 0 then some none
  else if length < 7 then none
  else some (some (Bytes.toNatBE (field.slice 1 6) / 2 ^ 15))

/-- One packet. -/
def readPacket (w : Bytes) : Option Packet :=
  -- sync byte, no transport error, not scrambled
  if w.at_ 0 ≠ 0x47 ∨ w.at_ 1 / 128 ≠ 0 ∨ w.at_ 3 / 64 ≠ 0 then none
  else
    let packet (pcr : Option Nat) (payload : Bytes) : Packet :=
      ⟨w.at_ 1 % 32 * 256 + w.at_ 2, decide (w.at_ 1 / 64 % 2 = 1), w.at_ 3 % 16, pcr, payload⟩
    if w.at_ 3 / 16 % 4 = 1 then some (packet none (w.drop 4))
    else if w.at_ 3 / 16 % 4 = 3 then
      if 183 < w.at_ 4 + 1 then none
      else (readPcr (w.at_ 4) (w.drop 5)).map fun pcr => packet pcr (w.drop (5 + w.at_ 4))
    else none

/-- The stream as packets: each is 188 bytes. -/
def rule : Rule UInt8 Packet Unit where
  view b :=
    if b.length < PACKET then .wait
    else
      match readPacket (b.take PACKET) with
      | some packet => .record packet PACKET
      | none => .bad ()
  view_nil := rfl
  size_pos {b r n} h := by
    split at h
    · cases h
    · split at h
      · cases h
        decide
      · cases h
  size_le {b r n} h := by
    split at h
    · cases h
    next hlen =>
      split at h
      · cases h
        omega
      · cases h
  stable {b} c h := by
    by_cases hlen : b.length < PACKET
    · rw [if_pos hlen] at h
      exact absurd rfl h
    · rw [if_neg hlen, if_neg (by rw [List.length_append]; omega), List.take_append_of_le_length (by omega)]
  local_ {b r n} h := by
    by_cases hlen : b.length < PACKET
    · rw [if_pos hlen] at h
      cases h
    · rw [if_neg hlen] at h
      split at h
      next packet hread =>
        cases h
        have htake : (b.take PACKET).length = PACKET := by rw [List.length_take]; omega
        rw [if_neg (by omega), List.take_take, Nat.min_self, hread]
      · cases h

theorem encodes_of_read {w : Bytes} {packet : Packet} (hlen : w.length = PACKET) (hread : readPacket w = some packet) :
    rule.Encodes packet w := by
  rw [Rule.Encodes, rule]
  simp only
  rw [if_neg (by omega), List.take_of_length_le (by omega), hread, hlen]

/-- What encodes a packet is one: 188 bytes, the first of them for synchronisation. -/
theorem sync_of_encodes {w : Bytes} {packet : Packet} (h : rule.Encodes packet w) : w.length = PACKET ∧ w.at_ 0 = 0x47 := by
  rw [Rule.Encodes, rule] at h
  simp only at h
  split at h
  · cases h
  · split at h
    next hread =>
      have hlen : PACKET = w.length := by
        injection h
      refine ⟨hlen.symm, ?_⟩
      rw [List.take_of_length_le (by omega), readPacket] at hread
      split at hread
      · cases hread
      next hsync => exact by_contra fun hne => hsync (.inl hne)
    · cases h

theorem sync_of_encoded {ps : List Packet} {ws : List Bytes} (h : List.Forall₂ rule.Encodes ps ws) :
    ∀ w ∈ ws, w.length = PACKET ∧ w.at_ 0 = 0x47 := by
  induction h with
  | nil => exact nofun
  | cons hfirst _ ih =>
    intro w hw
    rcases List.mem_cons.mp hw with rfl | hw
    · exact sync_of_encodes hfirst
    · exact ih w hw

/-! ## Units -/

/-- The packets of one identifier. -/
def ofPid (pid : Nat) (packets : List Packet) : List Packet := packets.filter fun p => p.pid = pid

/-- What was gathered from one start to the next. -/
structure Gathered where
  pcr : Option Nat
  bytes : Bytes
  deriving DecidableEq, Repr

/-- One more packet of an identifier: a start opens a unit; anything else goes on with
the last one, and carries no clock reference. -/
def gather (units : List Gathered) (p : Packet) : Option (List Gathered) :=
  if p.start then some (units ++ [⟨p.pcr, p.payload⟩])
  else
    match units.getLast? with
    | none => none
    | some unit => if p.pcr.isSome then none else some (units.dropLast ++ [⟨unit.pcr, unit.bytes ++ p.payload⟩])

/-- The units of the packets of one identifier. -/
def units (packets : List Packet) : Option (List Gathered) := packets.foldlM gather []

/-! ## Elementary packets -/

structure Pes where
  streamId : Nat
  pts : Nat
  payload : Bytes
  deriving DecidableEq, Repr

/-- The 33 bits of a presentation time, from its five bytes. -/
def readPts (b : Bytes) : Nat :=
  b.at_ 0 / 2 % 8 * 2 ^ 30 + b.at_ 1 * 2 ^ 22 + b.at_ 2 / 2 * 2 ^ 15 + b.at_ 3 * 2 ^ 7 + b.at_ 4 / 2

/-- A packetised elementary stream packet with a presentation time and nothing else in
its header; a length of zero leaves the length open. -/
def readPes (b : Bytes) : Option Pes :=
  if b.length < 14 ∨ b.take 3 ≠ [0, 0, 1] then none
  else if b.at_ 6 / 64 ≠ 2 ∨ b.at_ 7 / 64 ≠ 2 ∨ b.at_ 8 ≠ 5 then none
  else if b.at_ 9 / 16 ≠ 2 ∨ b.at_ 9 % 2 ≠ 1 ∨ b.at_ 11 % 2 ≠ 1 ∨ b.at_ 13 % 2 ≠ 1 then none
  else
    let length := b.at_ 4 * 256 + b.at_ 5
    if length ≠ 0 ∧ length ≠ b.length - 6 then none
    else some ⟨b.at_ 3, readPts (b.drop 9), b.drop 14⟩

/-! ## Sections -/

/-- The shift register of the section checksum: one bit in. -/
def shiftIn (register : Nat) (bit : Bool) : Nat :=
  let feedback := (decide (register / 2 ^ 31 % 2 = 1)) != bit
  let shifted := register * 2 % 2 ^ 32
  if feedback then shifted ^^^ 0x04C11DB7 else shifted

/-- The bits of a byte, the highest first. -/
def bits (b : UInt8) : List Bool := (List.range 8).map fun i => decide (b.toNat / 2 ^ (7 - i) % 2 = 1)

/-- The register after all bits of a section, its checksum included. -/
def residue (section_ : Bytes) : Nat := (section_.flatMap bits).foldl shiftIn 0xFFFFFFFF

/-- A unit that is one section, behind a pointer of zero: of its own length, and with a
checksum that leaves nothing. -/
def sectionOk (b : Bytes) : Bool :=
  decide (b.at_ 0 = 0 ∧ b.length = 4 + (b.at_ 2 % 16 * 256 + b.at_ 3) ∧ residue (b.drop 1) = 0)

end CamGuard.MpegTs
