/-
The local transport stream of a native source (`av_transport.py`): HEVC and AAC
access units as MPEG-TS packets, with presentation times from microseconds.

A call that is refused raises `ValueError` before anything is assigned, so it gives
nothing here and leaves the transport as it was. `continuity` is the dictionary of
counters, whose default is zero.
-/
import CamGuard.Lib.Bytes
import Mathlib.Logic.Function.Basic

namespace CamGuard.Delivery

def VIDEO_PID : Nat := 0x101
def AUDIO_PID : Nat := 0x102
def PMT_PID : Nat := 0x100

/-- One turn of the inner loop of `crc32`. -/
def crcShift (value : Nat) : Nat :=
  ((value <<< 1) ^^^ (if value &&& 0x80000000 ≠ 0 then 0x04C11DB7 else 0)) &&& 0xFFFFFFFF

/-- One byte of `crc32`. -/
def crcByte (value : Nat) (byte : UInt8) : Nat := Nat.iterate crcShift 8 (value ^^^ (byte.toNat <<< 24))

/-- `crc32`. -/
def crc32 (data : Bytes) : Bytes := Bytes.ofNatBE 4 (data.foldl crcByte 0xFFFFFFFF)

/-- `pts_field`. -/
def ptsField (value : Nat) : Bytes :=
  [UInt8.ofNat (0x21 ||| ((value >>> 29) &&& 14)), UInt8.ofNat ((value >>> 22) &&& 255),
    UInt8.ofNat (((value >>> 14) &&& 254) ||| 1), UInt8.ofNat ((value >>> 7) &&& 255),
    UInt8.ofNat (((value <<< 1) &&& 254) ||| 1)]

/-- `AvTransport`: the first timestamp, and the continuity counter of each PID. -/
structure AvTransport where
  origin : Nat
  continuity : Nat → Nat := fun _ => 0
  started : Bool := false

namespace AvTransport

/-- The constructor. -/
def new (originUs : Int) : Option AvTransport :=
  if 0 ≤ originUs ∧ originUs < 2 ^ 64 then some { origin := originUs.toNat } else none

/-- The adaptation field of a packet that is not full. -/
def adaptation (first : Bool) (pcr : Option Nat) (part : Bytes) : Bytes :=
  if part.length < 184 then
    let length := 183 - part.length
    UInt8.ofNat length ::
      if length ≠ 0 then
        match first, pcr with
        | true, some pcr => 0x10 :: Bytes.ofNatBE 6 ((pcr <<< 15) ||| (0x3F <<< 9)) ++ List.replicate (length - 7) 0xFF
        | _, _ => 0 :: List.replicate (length - 1) 0xFF
      else []
  else []

/-- One packet of `_packets`. -/
def packet (pid : Nat) (first : Bool) (pcr : Option Nat) (continuity : Nat) (part : Bytes) : Bytes :=
  [0x47, UInt8.ofNat ((if first then 0x40 else 0) ||| (pid >>> 8)), UInt8.ofNat (pid &&& 255),
    UInt8.ofNat ((if part.length < 184 then 0x30 else 0x10) ||| continuity)] ++ adaptation first pcr part ++ part

/-- The room of a packet. -/
def capacity (first : Bool) (pcr : Option Nat) : Nat := if first && pcr.isSome then 176 else 184

/-- The loop of `_packets`; a turn takes at least one byte. -/
def packetsLoop (pid : Nat) (pcr : Option Nat) : Nat → Bool → (Nat → Nat) → Bytes → List Bytes × (Nat → Nat)
  | 0, _, continuity, _ => ([], continuity)
  | fuel + 1, first, continuity, payload =>
    if payload = [] then ([], continuity)
    else
      let (more, after) := packetsLoop pid pcr fuel false
        (Function.update continuity pid ((continuity pid + 1) &&& 15)) (payload.drop (capacity first pcr))
      (packet pid first pcr (continuity pid) (payload.take (capacity first pcr)) :: more, after)

/-- `_packets`. -/
def packets (t : AvTransport) (pid : Nat) (payload : Bytes) (pcr : Option Nat) : Bytes × AvTransport :=
  let (list, continuity) := packetsLoop pid pcr payload.length true t.continuity payload
  (list.flatten, { t with continuity := continuity })

/-- The program association table. -/
def pat : Bytes := [0x00, 0xb0, 0x0d, 0x00, 0x01, 0xc1, 0x00, 0x00, 0x00, 0x01, 0xe1, 0x00]

/-- The program map table. -/
def pmt : Bytes :=
  [0x02, 0xb0, 0x17, 0x00, 0x01, 0xc1, 0x00, 0x00, 0xe1, 0x01, 0xf0, 0x00, 0x24, 0xe1, 0x01, 0xf0, 0x00, 0x0f, 0xe1, 0x02,
    0xf0, 0x00]

/-- `_tables`. -/
def tables (t : AvTransport) : Bytes × AvTransport :=
  let (first, t) := t.packets 0 (0 :: pat ++ crc32 pat) none
  let (second, t) := t.packets PMT_PID (0 :: pmt ++ crc32 pmt) none
  (first ++ second, t)

/-- The presentation time of an access unit. -/
def pts (t : AvTransport) (timestampUs : Int) : Nat :=
  (((timestampUs.toNat - t.origin) * 9) / 100) &&& ((1 <<< 33) - 1)

/-- What `_pes` accepts. -/
def accepts (t : AvTransport) (payload : Bytes) (timestampUs : Int) (video : Bool) : Bool :=
  decide (0 < payload.length ∧ payload.length ≤ (if video then 1024 * 1024 else 65527)) &&
    decide ((t.origin : Int) ≤ timestampUs ∧ timestampUs < 2 ^ 64)

/-- The elementary packet of an access unit. -/
def pesBytes (payload : Bytes) (pts : Nat) (video : Bool) : Bytes :=
  [0, 0, 1, if video then 0xE0 else 0xC0] ++ Bytes.ofNatBE 2 (if video then 0 else payload.length + 8) ++
    [0x80, 0x80, 0x05] ++ ptsField pts ++ payload

/-- `_pes`. -/
def pes (t : AvTransport) (payload : Bytes) (timestampUs : Int) (video : Bool) : Option (Bytes × AvTransport) :=
  if t.accepts payload timestampUs video = false then none
  else
    let pts := t.pts timestampUs
    let (tables, t) := if t.started then ([], t) else
      let (tables, t) := t.tables
      (tables, { t with started := true })
    let (packets, t) := t.packets (if video then VIDEO_PID else AUDIO_PID) (pesBytes payload pts video)
      (if video then some pts else none)
    some (tables ++ packets, t)

/-- `video`. -/
def video (t : AvTransport) (payload : Bytes) (timestampUs : Int) : Option (Bytes × AvTransport) :=
  t.pes payload timestampUs true

/-- `audio`. -/
def audio (t : AvTransport) (payload : Bytes) (timestampUs : Int) : Option (Bytes × AvTransport) :=
  t.pes payload timestampUs false

end AvTransport

end CamGuard.Delivery
