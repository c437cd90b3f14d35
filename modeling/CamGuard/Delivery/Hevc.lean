/-
The HEVC gate: inspection of a complete Annex-B access unit (`hevc_access.py`)
and the rule that a decoder restarts only at an IDR picture that brings its own
parameter sets (`hevc_recovery.py`).

The hash of a parameter set is a parameter: it is only compared for equality.
-/
import CamGuard.Lib.Bytes

namespace CamGuard.Delivery

def MAX_ACCESS_UNIT : Nat := 1024 * 1024
def MAX_NALS : Nat := 128

/-- A NAL unit: its type and its bytes. -/
structure Nal where
  kind : Nat
  data : Bytes
  deriving DecidableEq, Repr

/-- Whether it is the first slice of a picture. -/
def Nal.firstSlice (nal : Nal) : Bool := decide (nal.kind < 32) && decide (nal.data.at_ 2 &&& 0x80 ≠ 0)

/-- The `ValueError`s of `inspect_access_unit`. -/
inductive AccessFault where
  | size
  | count
  | missing
  | header
  | multilayer
  | picture
  deriving DecidableEq, Repr

/-- Their texts. -/
def AccessFault.reason : AccessFault → String
  | .size => "HEVC access-unit size out of bounds"
  | .count => "too many HEVC NAL units"
  | .missing => "HEVC Annex-B prefix missing"
  | .header => "invalid HEVC NAL header"
  | .multilayer => "multilayer HEVC is not supported by this gate"
  | .picture => "expected one complete HEVC picture per access unit"

/-- `_START.finditer`: where each start code begins and ends. The optional zero
is taken when a one follows it. -/
def startCodes : Nat → Bytes → List (Nat × Nat)
  | _, [] => []
  | _, [_] => []
  | _, [_, _] => []
  | pos, [a, b, c] => if a = 0 ∧ b = 0 ∧ c = 1 then [(pos, pos + 3)] else startCodes (pos + 1) [b, c]
  | pos, a :: b :: c :: d :: rest =>
    if a = 0 ∧ b = 0 ∧ c = 0 ∧ d = 1 then (pos, pos + 4) :: startCodes (pos + 4) rest
    else if a = 0 ∧ b = 0 ∧ c = 1 then (pos, pos + 3) :: startCodes (pos + 3) (d :: rest)
    else startCodes (pos + 1) (b :: c :: d :: rest)

/-- `rstrip(b"\x00")`. -/
def stripZeros (b : Bytes) : Bytes := (b.reverse.dropWhile (· = 0)).reverse

/-- One NAL unit from its bytes. -/
def readNal (body : Bytes) : Except AccessFault Nal :=
  if body.length < 3 ∨ body.at_ 0 &&& 0x80 ≠ 0 ∨ body.at_ 1 &&& 7 = 0 then .error .header
  else if ((body.at_ 0 &&& 1) <<< 5) ||| (body.at_ 1 >>> 3) ≠ 0 then .error .multilayer
  else .ok ⟨(body.at_ 0 >>> 1) &&& 63, body⟩

/-- The units between the start codes. -/
def readNals (payload : Bytes) : List (Nat × Nat) → Except AccessFault (List Nal)
  | [] => .ok []
  | (_, start) :: rest =>
    let stop := (rest.head?.map Prod.fst).getD payload.length
    match readNal (stripZeros (payload.slice start (stop - start))) with
    | .error e => .error e
    | .ok nal =>
      match readNals payload rest with
      | .error e => .error e
      | .ok nals => .ok (nal :: nals)

/-- The units that carry a picture. -/
def pictures (units : List Nal) : List Nal := units.filter fun nal => nal.kind < 32

/-- `inspect_access_unit`. -/
def inspectAccessUnit (payload : Bytes) : Except AccessFault (List Nal) :=
  if payload = [] ∨ MAX_ACCESS_UNIT < payload.length then .error .size
  else
    let starts := startCodes 0 payload
    if MAX_NALS < starts.length then .error .count
    else
      match starts with
      | [] => .error .missing
      | (first, _) :: _ =>
        if (payload.take first).any (· ≠ 0) then .error .missing
        else
          match readNals payload starts with
          | .error e => .error e
          | .ok units =>
            if pictures units ≠ [] ∧
                ((pictures units).head?.any (fun nal => nal.firstSlice) = false ∨
                  ((pictures units).filter fun nal => nal.firstSlice).length ≠ 1) then .error .picture
            else .ok units

/-! ## The gate -/

/-- Why a frame is passed on or dropped. -/
inductive DecisionReason where
  | invalidTimestamp
  | invalidAccessUnit
  | noPicture
  | incompleteOrUnpairedConfiguration
  | waitingForConfiguredIdr
  | configuredIdr
  | continuous
  deriving DecidableEq, Repr

/-- How the source writes it. -/
def DecisionReason.text : DecisionReason → String
  | .invalidTimestamp => "invalid_timestamp"
  | .invalidAccessUnit => "invalid_access_unit"
  | .noPicture => "no_picture"
  | .incompleteOrUnpairedConfiguration => "incomplete_or_unpaired_configuration"
  | .waitingForConfiguredIdr => "waiting_for_configured_idr"
  | .configuredIdr => "configured_idr"
  | .continuous => "continuous"

/-- `VideoDecision`. -/
structure VideoDecision where
  emit : Bool
  restartDecoder : Bool
  epoch : Nat
  reason : DecisionReason
  deriving DecidableEq, Repr

/-- `HevcRecovery`: whether it waits for a picture to start from, and what it has seen. -/
structure HevcRecovery where
  waiting : Bool := true
  epoch : Nat := 0
  lastTimestamp : Option Nat := none
  configuration : Option (List Bytes) := none
  deriving DecidableEq, Repr

/-- The parameter sets among the units. -/
def parameterSets (units : List Nal) : List Nal := units.filter fun nal => decide (nal.kind = 32 ∨ nal.kind = 33 ∨ nal.kind = 34)

/-- `complete`: one of each parameter set, in order, and nothing that carries a
picture up to the last. -/
def completeConfiguration (units : List Nal) : Bool :=
  match (parameterSets units).getLast? with
  | none => false
  | some last =>
    decide ((parameterSets units).map Nal.kind = [32, 33, 34]) &&
      (units.take (units.idxOf last + 1)).all fun nal => decide (32 ≤ nal.kind)

/-- `idr`. -/
def isIdr (units : List Nal) : Bool := (pictures units).all fun nal => decide (nal.kind = 19 ∨ nal.kind = 20)

namespace HevcRecovery

/-- `discontinuity`. -/
def discontinuity (g : HevcRecovery) : HevcRecovery :=
  { g with waiting := true, lastTimestamp := none, configuration := none }

/-- `_drop`. -/
def drop (g : HevcRecovery) (reason : DecisionReason) : VideoDecision × HevcRecovery :=
  (⟨false, false, g.epoch, reason⟩, g.discontinuity)

/-- `inspect` after the checks of the unit: `g` has seen a timestamp that went
back. -/
def judge (sha256 : Bytes → Bytes) (g : HevcRecovery) (units : List Nal) (timestamp : Nat) :
    VideoDecision × HevcRecovery :=
  let complete := completeConfiguration units
  let idr := isIdr units
  if parameterSets units ≠ [] ∧ (complete = false ∨ idr = false) then g.drop .incompleteOrUnpairedConfiguration
  else
    let config := if complete then some ((parameterSets units).map fun nal => sha256 nal.data) else none
    let waiting := g.waiting || (config.isSome && g.configuration.isSome && decide (config ≠ g.configuration))
    if waiting = true ∧ ¬ (idr = true ∧ complete = true) then
      (⟨false, false, g.epoch, .waitingForConfiguredIdr⟩, { g with waiting := waiting })
    else
      let epoch := if waiting then g.epoch + 1 else g.epoch
      (⟨true, waiting, epoch, if waiting then .configuredIdr else .continuous⟩, {
        waiting := false
        epoch := epoch
        lastTimestamp := some timestamp
        configuration := if config.isSome then config else g.configuration })

/-- `inspect`. -/
def inspect (sha256 : Bytes → Bytes) (g : HevcRecovery) (payload : Bytes) (timestamp : Nat) :
    VideoDecision × HevcRecovery :=
  if 0xFFFFFFFFFFFFFFFF < timestamp then g.drop .invalidTimestamp
  else
    match inspectAccessUnit payload with
    | .error _ => g.drop .invalidAccessUnit
    | .ok units =>
      if pictures units = [] then g.drop .noPicture
      else
        let g := if g.lastTimestamp.any fun last => decide (timestamp < last) then g.discontinuity else g
        g.judge sha256 units timestamp

end HevcRecovery

end CamGuard.Delivery
