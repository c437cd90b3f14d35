/-
The thing-model read codec (`model_protocol.py`) and the correlation of its
replies (`broker_model_reply.py`).

A read request names an allowed path; its reply carries the request's sequence
in the checksum's place, an error code and, if it has one, a JSON value. A reply
whose value is too large or too deep is not a reply.
-/
import CamGuard.Account.PtzProtocol

namespace CamGuard.Account

open CamGuard.Crypto

/-- `MODEL_READ_PATHS`. -/
def MODEL_READ_PATHS : List String :=
  ["ProConst._productInfo", "ProConst._versionInfo", "ProConst.devFuncCfg", "ProConst.devFunCode",
    "ProReadonly._online", "ProReadonly.sysVer", "ProReadonly.connectInfo", "ProReadonly.power", "ProReadonly.simCard",
    "ProReadonly.devInfo", "ProReadonly.tfInfo", "ProReadonly.aiModeDownL", "ProWritable._almEvtSetting",
    "ProWritable._otaMode", "ProWritable.timeZone", "ProWritable.onvifEn", "ProWritable.recordParm",
    "ProWritable.guardParm", "ProWritable.videoParm", "ProWritable.csVideoRes", "ProWritable.nightViewModeV2",
    "ProWritable.motionZone", "ProWritable.workMode", "ProWritable.pressKeyCall", "ProWritable.screenSwitch",
    "ProWritable.antiFlickerSwitch", "ProWritable.volume", "ProWritable.indicatorLight", "ProWritable.audioMode",
    "ProWritable.whiteLightPlan", "ProWritable.autoWhiteLight", "ProWritable.autoWorkMode", "ProWritable.resFile",
    "ProWritable.whiteLightCtrl", "ProWritable.zoomFocusW", "Action.whiteLightCtrl", "Action.expelCtrl",
    "Action.laserCtrl", "Action.ptzCheck", "Action.zoomFocusA"]

inductive ModelFault where
  | path
  | gute (e : GuteFault)
  deriving DecidableEq, Repr

def ModelFault.reason : ModelFault → String
  | .path => "thing-model path is not in the read-only allowlist"
  | .gute e => e.reason

/-- The plain frame of `build_model_read`. -/
def modelReadFrame (node : CertifiedNode) (device : Nat) (encodedPath : Bytes) (sequence message noise : Nat) : Bytes :=
  let frame := newHeader 0xB7 (0x26 + encodedPath.length + 1) node.sessionId sequence (randomizedFlags noise 2 3)
  let frame := frame.put 0 [0x7E]
  frame.put 0x18 (Bytes.ofNat 8 device ++ Bytes.ofNat 4 (message &&& 0x7FFFFFFF) ++
    Bytes.ofNat 2 encodedPath.length ++ encodedPath)

/-- `build_model_read`. -/
def buildModelRead (node : CertifiedNode) (device : Nat) (path : String) (sequence message noise : Nat) :
    Except ModelFault Bytes :=
  if path ∉ MODEL_READ_PATHS then .error .path
  else (finishMode2 (modelReadFrame node device (Bytes.ascii path) sequence message noise) node.sessionKey).mapError .gute

/-- `parse_model_read_response`, for a request's sequence: the error code, and
the value if there is one. -/
def parseModelReadResponse (loads : Loads) (frame : Bytes) (device requestSequence : Nat) :
    Option (Nat × Option Json) :=
  if frame.length < 0x26 ∨ frame.at_ 1 ≠ 0xB8 then none
  else
    let flags := frame.field 4 0x14
    if (frame.at_ 0 ≠ 0x7E ∧ frame.at_ 0 ≠ 0x7F) ∨ frame.field 2 2 ≠ frame.length ∨ flags.testBit 21 = false ∨
        flags.testBit 20 ∨ frame.field 4 0x10 ≠ requestSequence % 2 ^ 32 then none
    else if frame.field 8 0x18 ≠ device then none
    else
      let errorCode := frame.field 2 0x24
      if frame.at_ 0x20 &&& 1 = 0 then some (errorCode, none)
      else if frame.length < 0x28 then none
      else
        let jsonLength := frame.field 2 0x26
        if frame.length < 0x28 + jsonLength then none
        else
          match loads (frame.slice 0x28 jsonLength) with
          | none => none
          | some value => some (errorCode, some value)

/-- The loop of `_bounded_value`, the top of the stack first; it visits at most
256 parts. -/
def boundedValueLoop : Nat → List (Json × Nat) → Nat → Bool
  | _, [], _ => true
  | 0, _, _ => false
  | fuel + 1, (item, depth) :: pending, visited =>
    let visited := visited + 1
    if 16 < depth ∨ 256 < visited then false
    else if 256 < pending.length + item.parts.length then false
    else boundedValueLoop fuel (item.parts.reverse.map (·, depth + 1) ++ pending) visited

/-- `_bounded_value`. -/
def boundedValue (value : Json) : Bool := boundedValueLoop 257 [(value, 0)] 0

structure ReceiptTicket where
  generation : Nat
  sequence : Nat
  kind : Nat
  deriving DecidableEq, Repr

/-- `match_model_reply`: the error code and the value, `null` if there is none. -/
def matchModelReply (loads : Loads) (plain : Bytes) (ticket : ReceiptTicket) (generation session device : Nat) :
    Option (Nat × Json) :=
  if generation ≠ ticket.generation ∨ ticket.kind ≠ 0xB7 ∨ plain.length < 0x26 ∨ 4096 < plain.length ∨
      plain.field 8 4 ≠ session ∨ (plain.field 4 20 >>> 16) &&& 3 ≠ 2 then none
  else
    match parseModelReadResponse loads plain device ticket.sequence with
    | none => none
    | some (error, value) =>
      if boundedValue (value.getD .null) then some (error, value.getD .null) else none

/-! ## What they give -/

theorem short_path {path : String} (h : path ∈ MODEL_READ_PATHS) :
    ∃ cs : List Char, path = String.ofList cs ∧ cs.length ≤ 29 := by
  revert path
  unfold MODEL_READ_PATHS
  simp only [List.forall_mem_cons]
  and_intros
  all_goals first | exact ⟨_, rfl, by decide⟩ | exact fun _ h => absurd h List.not_mem_nil

theorem length_path {path : String} (h : path ∈ MODEL_READ_PATHS) : (Bytes.ascii path).length ≤ 29 := by
  obtain ⟨cs, rfl, hcs⟩ := short_path h
  rw [Bytes.ascii, String.toList_ofList, List.length_map]
  exact hcs

theorem framed_modelRead (node : CertifiedNode) (device : Nat) {encodedPath : Bytes} (h : encodedPath.length ≤ 29)
    (sequence message noise : Nat) :
    Framed (modelReadFrame node device encodedPath sequence message noise) (0x26 + encodedPath.length + 1) := by
  refine Framed.put (framed_lead (by omega) (by omega) ?_ (randomizedFlags_mode noise 3)) (by decide) ?_
  · exact lt_trans (randomizedFlags_lt noise 2 3) (by decide)
  · simp only [List.length_append, Bytes.length_ofNat]
    omega

theorem buildModelRead_ok (node : CertifiedNode) (hkey : node.sessionKey.length = 32) (device : Nat) {path : String}
    (hpath : path ∈ MODEL_READ_PATHS) (sequence message noise : Nat) :
    ∃ wire, buildModelRead node device path sequence message noise = .ok wire ∧ 1 ≤ wire.length ∧
      wire.length ≤ 4096 := by
  have hlen := length_path hpath
  obtain ⟨wire, heq, hwire⟩ := (framed_modelRead node device hlen sequence message noise).finish hkey
  refine ⟨wire, ?_, by omega, by omega⟩
  rw [buildModelRead, if_neg (not_not.mpr hpath), heq]
  rfl

theorem buildModelRead_length {node : CertifiedNode} {device : Nat} {path : String} {sequence message noise : Nat}
    {wire : Bytes} (h : buildModelRead node device path sequence message noise = .ok wire) :
    1 ≤ wire.length ∧ wire.length ≤ 4096 := by
  by_cases hpath : path ∈ MODEL_READ_PATHS
  · have hkey : node.sessionKey.length = 32 := by
      rw [buildModelRead, if_neg (not_not.mpr hpath)] at h
      cases hfinish : finishMode2 (modelReadFrame node device (Bytes.ascii path) sequence message noise) node.sessionKey with
      | error e =>
        rw [hfinish] at h
        cases h
      | ok wire' => exact finishMode2_key hfinish
    obtain ⟨wire', heq, hlen⟩ := buildModelRead_ok node hkey device hpath sequence message noise
    rw [h] at heq
    cases heq
    exact hlen
  · rw [buildModelRead, if_pos hpath] at h
    cases h

/-- A reply is no acknowledgement, and not of another kind. -/
theorem matchModelReply_frame {loads : Loads} {plain : Bytes} {ticket : ReceiptTicket} {generation session device : Nat}
    {reply : Nat × Json} (h : matchModelReply loads plain ticket generation session device = some reply) :
    plain.at_ 1 = 0xB8 := by
  unfold matchModelReply at h
  split at h
  · cases h
  split at h
  · cases h
  next error value hparse =>
  unfold parseModelReadResponse at hparse
  split at hparse
  · cases hparse
  next hframe => omega

end CamGuard.Account
