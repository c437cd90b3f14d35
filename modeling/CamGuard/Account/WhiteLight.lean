/-
The white light codec (`white_light.py`) and the lamp contracts
(`lamp_control_specs.py`): the type 12 read and the type 11 write, their
responses, and the receipt of a response.
-/
import CamGuard.Account.PtzProtocol
import CamGuard.Lib.JsonValue

namespace CamGuard.Account

open CamGuard.Crypto

/-- `LampReadSpec`, where there is no state to write, or `LampWriteSpec`. -/
structure LampSpec where
  accessId : Nat
  deviceId : Nat
  enabled : Option Bool := none
  deriving DecidableEq, Repr

/-- `isinstance(spec, LampWriteSpec)`. -/
def LampSpec.isWrite (spec : LampSpec) : Bool := spec.enabled.isSome

/-- `valid_target`. -/
def validTarget (access device : Nat) : Bool := decide (access < 2 ^ 64 ∧ 0 < device ∧ device < 2 ^ 64)

/-- The JSON text of a request, without blanks. -/
def lampText (enabled : Option Bool) : Bytes :=
  match enabled with
  | none => Bytes.ascii "\x7b\"type\":12\x7d"
  | some enabled =>
    Bytes.ascii "\x7b\"data\":\x7b\"whiteLightCtrl\":" ++ Bytes.ascii (if enabled then "1" else "0") ++
      Bytes.ascii ",\"whiteLightStatus\":0\x7d,\"type\":11\x7d"

/-- `build_white_light_request`; `noise` is the randomness of the flags. -/
def buildWhiteLightRequest (node : CertifiedNode) (access device : Nat) (enabled : Option Bool)
    (sequence message request noise : Nat) : Except GuteFault Bytes :=
  let payload := [0x01, 0xff, 0x00, 0x00] ++ Bytes.ofNat 4 request ++ lampText enabled
  let frame := newHeader 0xB9 (0x34 + payload.length) node.sessionId sequence (randomizedFlags noise 2 1)
  let frame := frame.put 0 [0x7E]
  let frame := frame.put 0x18 (Bytes.ofNat 4 2 ++ Bytes.ofNat 8 device ++ Bytes.ofNat 8 access ++
    Bytes.ofNat 4 (message &&& 0x7FFFFFFF) ++ Bytes.ofNat 2 payload.length)
  finishMode2 (frame.put 0x34 payload) node.sessionKey

/-- `parse_white_light_response`: the request's identifier and the decoded text. -/
def parseWhiteLightResponse (loads : TryLoads) (frame : Bytes) (expected : Nat) :
    Except LoadsFault (Option (Nat × Json)) :=
  if (expected ≠ 11 ∧ expected ≠ 12) ∨ frame.length < 0x3C ∨ frame.at_ 1 ≠ 0xB9 then .ok none
  else
    let length := frame.field 2 0x30
    if length < 8 ∨ frame.length < 0x34 + length then .ok none
    else
      let payload := frame.slice 0x34 length
      if payload.take 4 ≠ [0x01, 0xff, 0x00, 0x00] ∧ payload.take 4 ≠ [0x01, 0x00, 0x00, 0x00] then .ok none
      else
        match loads (payload.drop 8) with
        | .error .decode => .ok none
        | .error e => .error e
        | .ok value => .ok (if value.getInt? "type" = some (expected : Int) then some (payload.field 4 4, value) else none)

/-- `extract_white_light_state`. -/
def extractWhiteLightState (response : Json) : Option Bool :=
  if ((response.get? "type").map (Json.equalsInt 12)).getD false = false then none
  else if (response.get? "err").isSome ∧ response.getInt? "err" ≠ some 0 then none
  else
    match (response.get? "data").bind fun data => data.getInt? "whiteLightStatus" with
    | some 0 => some false
    | some 1 => some true
    | _ => none

inductive WhiteLightFault where
  | frame
  | mode
  | gute (e : GuteFault)
  deriving DecidableEq, Repr

def WhiteLightFault.reason : WhiteLightFault → String
  | .frame => "white-light receipt requires a full B9 response"
  | .mode => "white-light receipt requires an encrypted response"
  | .gute e => e.reason

/-- `build_white_light_receipt`. -/
def buildWhiteLightReceipt (node : CertifiedNode) (response : Bytes) (sequence noise : Nat) : Except WhiteLightFault Bytes :=
  if response.length < 0x34 ∨ response.at_ 1 ≠ 0xB9 then .error .frame
  else
    let flags := response.field 4 0x14
    let mode := (flags >>> 16) &&& 3
    let extra := if mode = 1 then flags &&& (1 <<< 25) else 0
    let frame := newHeader 0xBA 0x34 node.sessionId sequence (extra ||| randomizedFlags noise mode 1)
    let frame := frame.put 0 [0x7E]
    let frame := frame.put 0x1C (Bytes.ofNat 8 (response.field 8 0x24) ++ Bytes.ofNat 8 (response.field 8 0x1C) ++
      Bytes.ofNat 4 (response.field 4 0x2C))
    if mode = 2 then (finishMode2 frame node.sessionKey).mapError .gute
    else if mode = 1 then (finishMode1 frame).mapError .gute
    else .error .mode

end CamGuard.Account
