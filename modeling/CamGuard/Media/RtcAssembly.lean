/-
Fragments of an RTC stream (`push_rtc_fragments.py`) and their assembly
(`push_rtc_assembly.py`): at most four fragment ids are pending, over one counter of bytes,
and what fails closes the assembly for good.
-/
import CamGuard.Lib.Bytes
import CamGuard.Lib.Dict

namespace CamGuard.Media

/-- `RTCFragment`. -/
structure RTCFragment where
  kind : Nat
  fragmentId : Int
  metadata : Bytes
  payload : Bytes
  deriving DecidableEq, Repr

/-- The errors of the parser and of the assembly. -/
inductive RtcFault where
  | size
  | kind
  | length
  | begins
  | unmatched
  | limit
  | closed
  | truncated
  deriving DecidableEq, Repr

def RtcFault.reason : RtcFault → String
  | .size => "RTC fragment size is invalid"
  | .kind => "RTC fragment type is unsupported"
  | .length => "RTC fragment length does not match"
  | .begins => "RTC fragment begin conflicts with pending state"
  | .unmatched => "RTC fragment has no matching begin"
  | .limit => "RTC fragment assembly limit exceeded"
  | .closed => "RTC fragment assembly is closed"
  | .truncated => "truncated RTC fragment stream"

/-- A field of 32 bits as a signed number. -/
def signed32 (v : Nat) : Int := if v < 0x80000000 then v else (v : Int) - 0x100000000

/-- `parse_rtc_fragment`. -/
def parseRtcFragment (frame : Bytes) : Except RtcFault RTCFragment :=
  if ¬(20 ≤ frame.length ∧ frame.length ≤ 0x8400 - 20) then .error .size
  else
    let kind := frame.field 2 0
    if kind ∉ [0xF0, 0xF1, 0xF2, 0xF3] then .error .kind
    else if frame.field 4 4 ≠ frame.length - 8 then .error .length
    else .ok ⟨kind, signed32 (frame.field 4 8), frame.slice 12 8, frame.drop 20⟩

/-- `RTCFragmentAssembly`. -/
structure RTCFragmentAssembly where
  /-- The bytes of each id, and the number of its records. -/
  pending : Dict Int (Bytes × Nat) := ∅
  size : Int := 0
  closed : Bool := false

namespace RTCFragmentAssembly

/-- `close`. -/
def close (_ : RTCFragmentAssembly) : RTCFragmentAssembly := ⟨∅, 0, true⟩

/-- `finish`. -/
def finish (a : RTCFragmentAssembly) : Except RtcFault Unit × RTCFragmentAssembly :=
  if a.closed then (.error .closed, a)
  else if a.pending.size ≠ 0 then (.error .truncated, a.close)
  else (.ok (), a.close)

/-- The buffer and the count that a fragment goes on with. -/
def buffered (a : RTCFragmentAssembly) (fragment : RTCFragment) : Except RtcFault (Bytes × Nat) :=
  if fragment.kind = 0xF0 then
    if a.pending.contains fragment.fragmentId ∨ 4 ≤ a.pending.size then .error .begins else .ok ([], 0)
  else
    match a.pending.get? fragment.fragmentId with
    | none => .error .unmatched
    | some entry => .ok entry

/-- `_feed`, of a frame that was parsed. -/
def take (a : RTCFragmentAssembly) (fragment : RTCFragment) : Except RtcFault (Option Bytes × RTCFragmentAssembly) :=
  match a.buffered fragment with
  | .error fault => .error fault
  | .ok (buffer, count) =>
    if fragment.kind = 0xF3 then
      .ok (none, { a with size := a.size - buffer.length, pending := a.pending.erase fragment.fragmentId })
    else if 256 < count + 1 ∨ 256 * 1024 < a.size + fragment.payload.length then .error .limit
    else
      let size := a.size + fragment.payload.length
      let buffer := buffer ++ fragment.payload
      if fragment.kind = 0xF2 then
        .ok (some buffer, { a with size := size - buffer.length, pending := a.pending.erase fragment.fragmentId })
      else .ok (none, { a with size := size, pending := a.pending.set fragment.fragmentId (buffer, count + 1) })

/-- `feed`. -/
def feed (a : RTCFragmentAssembly) (frame : Bytes) : Except RtcFault (Option Bytes) × RTCFragmentAssembly :=
  if a.closed then (.error .closed, a)
  else
    match parseRtcFragment frame with
    | .error fault => (.error fault, a.close)
    | .ok fragment =>
      match a.take fragment with
      | .error fault => (.error fault, a.close)
      | .ok (assembled, a) => (.ok assembled, a)

end RTCFragmentAssembly

/-- The calls of its owner. -/
inductive RtcCall where
  | feed (frame : Bytes)
  | close
  | finish
  deriving DecidableEq, Repr

namespace RTCFragmentAssembly

def step (a : RTCFragmentAssembly) : RtcCall → RTCFragmentAssembly
  | .feed frame => (a.feed frame).2
  | .close => a.close
  | .finish => a.finish.2

def run (calls : List RtcCall) : RTCFragmentAssembly := calls.foldl step {}

end RTCFragmentAssembly

end CamGuard.Media
