/-
Top-level framing of the fragmented MP4 a local muxer writes
(`fragmented_mp4.py`): bytes arrive in any pieces, boxes are cut from them, and
two boxes make a chunk. Three pools hold bytes: what is not parsed yet, the
first box of a pair, and the chunks nobody took.
-/
import CamGuard.Lib.Bytes

namespace CamGuard.Delivery

def MP4_MAX_BYTES : Nat := 2 * 1024 * 1024
def MAX_CHUNKS : Nat := 8
/-- The boxes one `feed` may complete. -/
def MAX_BOXES : Nat := 64

def FTYP : Bytes := [0x66, 0x74, 0x79, 0x70]
def MOOV : Bytes := [0x6d, 0x6f, 0x6f, 0x76]
def MOOF : Bytes := [0x6d, 0x6f, 0x6f, 0x66]
def MDAT : Bytes := [0x6d, 0x64, 0x61, 0x74]

/-- The box types a diagnostic may name. -/
def knownBoxes : List (Bytes × String) :=
  [(FTYP, "ftyp"), (MOOV, "moov"), (MOOF, "moof"), (MDAT, "mdat"), ([0x66, 0x72, 0x65, 0x65], "free"),
    ([0x73, 0x69, 0x64, 0x78], "sidx"), ([0x73, 0x74, 0x79, 0x70], "styp"), ([0x6d, 0x66, 0x72, 0x61], "mfra"),
    ([0x6d, 0x66, 0x72, 0x6f], "mfro")]

/-- A label of `known`, never bytes of the stream. -/
def boxLabel (known : List (Bytes × String)) (kind : Bytes) : String :=
  ((known.find? fun entry => entry.1 = kind).map Prod.snd).getD "unknown"

/-- `Mp4Chunk`: the initialization, or a fragment. -/
structure Mp4Chunk where
  initialization : Bool
  data : Bytes
  deriving DecidableEq, Repr

/-- Every way `feed` or `claim` raises. -/
inductive Mp4Fault where
  | fresh
  | closed
  | capacity
  | boxBudget
  | stalled
  | size (declaredSize : Nat) (boxType : String)
  | order (expected actual : String)
  deriving DecidableEq, Repr

/-- Their texts. -/
def Mp4Fault.reason : Mp4Fault → String
  | .fresh => "fresh MP4 output required"
  | .closed => "MP4 output closed"
  | .capacity => "MP4 output capacity exceeded"
  | .boxBudget => "MP4 box budget exceeded"
  | .stalled => "MP4 consumer stalled"
  | .size _ _ => "unsupported MP4 box size"
  | .order _ _ => "unexpected MP4 box order"

/-- `Mp4SizeError(size, kind)`. -/
def sizeError (size : Nat) (kind : Bytes) : Mp4Fault := .size size (boxLabel (knownBoxes.take 4) kind)

/-- `Mp4OrderError(expected, actual)`. -/
def orderError (expected actual : Bytes) : Mp4Fault := .order (boxLabel knownBoxes expected) (boxLabel knownBoxes actual)

/-- `FragmentedMp4`: the bytes not parsed yet, half a pair of boxes, and the queue. -/
structure FragmentedMp4 where
  buffer : Bytes := []
  pair : Bytes := []
  expected : Bytes := FTYP
  chunks : List Mp4Chunk := []
  queuedBytes : Int := 0
  started : Bool := false
  claimed : Bool := false
  closed : Bool := false
  deriving DecidableEq, Repr

namespace FragmentedMp4

/-- `claim`. -/
def claim (f : FragmentedMp4) : Except Mp4Fault FragmentedMp4 :=
  if f.closed ∨ f.started ∨ f.claimed then .error .fresh else .ok { f with claimed := true }

/-- `buffered_bytes`. -/
def bufferedBytes (f : FragmentedMp4) : Int := f.buffer.length + f.pair.length + f.queuedBytes

/-- `close`. -/
def close (f : FragmentedMp4) : FragmentedMp4 :=
  { f with closed := true, buffer := [], pair := [], chunks := [], queuedBytes := 0 }

/-- The size a box declares, and its type. -/
def boxSize (b : Bytes) : Nat := Bytes.toNatBE (b.take 4)
/-- Its type. -/
def boxKind (b : Bytes) : Bytes := b.slice 4 4

/-- The `while` loop of `feed`; `boxes` counts what it completed. A box takes at
least its header, so the buffer's length bounds the turns. -/
def parse : Nat → Nat → FragmentedMp4 → Except Mp4Fault Unit × FragmentedMp4
  | 0, _, f => (.ok (), f)
  | fuel + 1, boxes, f =>
    if f.buffer.length < 8 then (.ok (), f)
    else
      let size := boxSize f.buffer
      let kind := boxKind f.buffer
      if size < 8 ∨ MP4_MAX_BYTES < size then (.error (sizeError size kind), f)
      else if kind ≠ f.expected then (.error (orderError f.expected kind), f)
      else if f.buffer.length < size then (.ok (), f)
      else if MAX_BOXES < boxes + 1 then (.error .boxBudget, f)
      else
        let box := f.buffer.take size
        let f := { f with buffer := f.buffer.drop size }
        if kind = FTYP ∨ kind = MOOF then
          parse fuel (boxes + 1) { f with
            pair := box
            expected := if kind = FTYP then MOOV else MDAT }
        else if MAX_CHUNKS ≤ f.chunks.length then (.error .stalled, f)
        else
          let chunk : Mp4Chunk := ⟨decide (kind = MOOV), f.pair ++ box⟩
          parse fuel (boxes + 1) { f with
            pair := []
            chunks := f.chunks ++ [chunk]
            queuedBytes := f.queuedBytes + chunk.data.length
            expected := MOOF }

/-- `feed`: whatever fails closes the output. -/
def feed (f : FragmentedMp4) (data : Bytes) : Except Mp4Fault Unit × FragmentedMp4 :=
  if f.closed then (.error .closed, f)
  else if (MP4_MAX_BYTES : Int) < f.bufferedBytes + data.length then (.error .capacity, f.close)
  else
    let f := { f with started := f.started || !data.isEmpty, buffer := f.buffer ++ data }
    match parse f.buffer.length 0 f with
    | (.error e, f) => (.error e, f.close)
    | (.ok (), f) => (.ok (), f)

/-- `take`. -/
def take (f : FragmentedMp4) : Option Mp4Chunk × FragmentedMp4 :=
  match f.chunks with
  | [] => (none, f)
  | chunk :: chunks => (some chunk, { f with chunks := chunks, queuedBytes := f.queuedBytes - chunk.data.length })

end FragmentedMp4

end CamGuard.Delivery
