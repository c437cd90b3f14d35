/-
The alarm voice catalogue: the query and its request, the expansion and the
parsing of a response (`resource_service_protocol.py`,
`resource_service_session.py`) and the decoding of its entries
(`alarm_voice.py`).

Of an entry only what was checked is kept; its key follows from its source and
number.
-/
import CamGuard.Account.PtzProtocol
import CamGuard.Codec.QuickLz
import CamGuard.Lib.JsonValue

namespace CamGuard.Account

open CamGuard.Crypto

def ALARM_VOICE_RESOURCE_TYPE : Nat := 4

/-! ## Identifiers -/

/-- The value of a base64 character. -/
def base64Value (c : Char) : Option Nat :=
  if 'A' ≤ c ∧ c ≤ 'Z' then some (c.toNat - 'A'.toNat)
  else if 'a' ≤ c ∧ c ≤ 'z' then some (c.toNat - 'a'.toNat + 26)
  else if '0' ≤ c ∧ c ≤ '9' then some (c.toNat - '0'.toNat + 52)
  else if c = '+' then some 62
  else if c = '/' then some 63
  else none

/-- The bytes of a group whose padding is left out. -/
def base64Group (group : List Char) : Option Bytes :=
  match group.mapM base64Value with
  | some [a, b] => some [UInt8.ofNat (a * 4 + b / 16)]
  | some [a, b, c] => some [UInt8.ofNat (a * 4 + b / 16), UInt8.ofNat (b * 16 + c / 4)]
  | some [a, b, c, d] =>
    some [UInt8.ofNat (a * 4 + b / 16), UInt8.ofNat (b * 16 + c / 4), UInt8.ofNat (c * 64 + d)]
  | _ => none

/-- `base64.b64decode(…, validate=True)`. -/
def b64decode : List Char → Option Bytes
  | [] => some []
  | [a, b, '=', '='] => base64Group [a, b]
  | [a, b, c, '='] => base64Group [a, b, c]
  | a :: b :: c :: d :: rest =>
    (base64Group [a, b, c, d]).bind fun group => (b64decode rest).map (group ++ ·)
  | _ => none

/-- `alarm_voice_logical_number`. -/
def alarmVoiceLogicalNumber (resourceId : String) : Option Nat :=
  match b64decode resourceId.toList with
  | none => none
  | some decoded =>
    if decoded.length ≠ 24 ∨ decoded.field 4 0 ≠ ALARM_VOICE_RESOURCE_TYPE then none else some (decoded.field 4 4)

/-- An entry of the catalogue that has been checked. -/
structure AlarmVoiceResource where
  name : List Char
  durationMs : Option Nat
  system : Bool
  logicalNumber : Nat
  resourceId : String
  name_ne : name ≠ []
  number : alarmVoiceLogicalNumber resourceId = some logicalNumber

/-- `key`, which names the source and the number. -/
def alarmVoiceKey (system : Bool) (logicalNumber : Nat) : String :=
  (if system then "system" else "custom") ++ "-" ++ toString logicalNumber

def AlarmVoiceResource.key (r : AlarmVoiceResource) : String := alarmVoiceKey r.system r.logicalNumber

structure AlarmVoiceCatalog where
  code : Int
  reportedTotal : Int
  resources : List AlarmVoiceResource

/-! ## The request -/

/-- The account's identifier as a signed number. -/
def signedAccessId (access : Nat) : Int :=
  let masked : Nat := access % 0x10000000000000000
  if 0x8000000000000000 ≤ masked then (masked : Int) - 0x10000000000000000 else (masked : Int)

/-- The text of `build_alarm_voice_query`, in the envelope of the request; the
language is the default one. -/
def catalogText (system : Bool) (access : Nat) : Bytes :=
  Bytes.ascii "\x7b\"http\":\x7b\"url\":\"/resfile/queryres\",\"type\":\"POST\"\x7d,\"data\":\x7b\"pageSize\":20,\"curPage\":0,\"resTypes\":[4],\"bySys\":" ++
    Bytes.ascii (if system then "1" else "0") ++ Bytes.ascii ",\"accessId\":\"" ++
    Bytes.ascii (toString (signedAccessId access)) ++ Bytes.ascii "\"" ++
    (if system then Bytes.ascii ",\"keyWord\":\"language_8\"" else []) ++ Bytes.ascii "\x7d\x7d"

/-- `build_alarm_voice_catalog_request`, for a query of `build_alarm_voice_query`. -/
def buildAlarmVoiceCatalogRequest (node : CertifiedNode) (system : Bool) (access sequence noise : Nat) :
    Except GuteFault Bytes :=
  let payload := catalogText system access
  let service := Bytes.ascii "HTTP_PROXY/REQ"
  let frame := newHeader 0xC0 (0x20 + service.length + 1 + payload.length + 1) node.sessionId sequence
    (randomizedFlags noise 2 3)
  let frame := frame.put 0 [0x7E]
  let frame := frame.put 0x1C ([1, UInt8.ofNat service.length] ++ Bytes.ofNat 2 payload.length ++ service ++ [0] ++ payload)
  finishMode2 frame node.sessionKey

/-! ## The response -/

/-- `compressed_gute_payload_length`; `none` where it raises. -/
def compressedGutePayloadLength (frame : Bytes) : Option (Option Nat) :=
  if frame.length < 0x18 then none
  else
    let flags := frame.field 4 0x14
    if flags.testBit 0 = false then some none
    else
      let length := (flags >>> 1) &&& 0x7FFF
      if length = 0 then none else some (some length)

/-- `_expand_compressed_frame` with `decompress_level2`: the plain frame, unless
a decoder was needed and gave nothing. The outer `none` is where it raises. -/
def expandCompressedFrame (frame : Bytes) : Option (Option Bytes) :=
  match compressedGutePayloadLength frame with
  | none => none
  | some none => some (some frame)
  | some (some expected) =>
    match QuickLz.decompressLevel2 (frame.drop 0x18) expected with
    | .error _ => some none
    | .ok payload =>
      let expanded : Bytes := frame.take 0x18 ++ payload
      if payload.length ≠ expected ∨ 0xFFFF < expanded.length then some none
      else
        let expanded := expanded.put 2 (Bytes.ofNat 2 expanded.length)
        some (some (expanded.put 0x14 (Bytes.ofNat 4 (frame.field 4 0x14 &&& 0xFFFF0000))))

/-- `parse_alarm_voice_catalog_response`: the identifier it answers, the status and the text. -/
def parseAlarmVoiceCatalogResponse (frame : Bytes) : Option (Nat × Nat × Bytes) :=
  if frame.length < 0x20 ∨ frame.at_ 1 ≠ 0xC1 then none
  else if frame.at_ 0x18 &&& 1 = 0 then some (frame.field 4 0x10, frame.field 2 0x1C, [])
  else
    let length := frame.field 2 0x1E
    if 0x7800 < length ∨ frame.length < 0x20 + length then none
    else some (frame.field 4 0x10, frame.field 2 0x1C, frame.slice 0x20 length)

/-- `_description`. -/
def description (loads : TryLoads) (value : Option Json) : Except LoadsFault Json :=
  match value with
  | some (.dict entries) => .ok (.dict entries)
  | some (.str text) =>
    match loads (Bytes.utf8 text) with
    | .error .decode => .ok (.dict [])
    | .error e => .error e
    | .ok decoded => .ok (if decoded.isDict then decoded else .dict [])
  | _ => .ok (.dict [])

/-- `description.get("name") or description.get("alias")`, if it is a text that is
not blank: up to 120 characters of it. -/
def resourceName (description : Json) : List Char :=
  let value := if ((description.get? "name").map Json.truthy).getD false then description.get? "name"
    else description.get? "alias"
  match value.bind Json.asStr? with
  | none => []
  | some name => (strip name).take 120

/-- `description.get("duration")`, if it is one. -/
def resourceDuration (description : Json) : Option Nat :=
  match description.getInt? "duration" with
  | none => none
  | some duration => if 0 ≤ duration ∧ duration ≤ 60000 then some duration.toNat else none

/-- One turn of the loop of `decode_alarm_voice_catalog`, but for the entries
seen before; `none` is an entry that is passed over. -/
def decodeResource (loads : TryLoads) (entry : Json) : Except LoadsFault (Option AlarmVoiceResource) :=
  if ((entry.get? "resType").map (Json.equalsInt ALARM_VOICE_RESOURCE_TYPE)).getD false = false then .ok none
  else
    match (entry.get? "resId").bind Json.asStr? with
    | none => .ok none
    | some resourceId =>
      match hnumber : alarmVoiceLogicalNumber resourceId with
      | none => .ok none
      | some number =>
        let isSys := entry.getInt? "isSys"
        if isSys ≠ some 0 ∧ isSys ≠ some 1 then .ok none
        else
          match description loads (entry.get? "desc") with
          | .error e => .error e
          | .ok description =>
            if hname : resourceName description ≠ [] then
              if ((description.get? "audioFormat").bind Json.asStr?).map String.toLower = some "amr" then
                .ok (some {
                  name := resourceName description
                  durationMs := resourceDuration description
                  system := isSys = some 1
                  logicalNumber := number
                  resourceId := resourceId
                  name_ne := hname
                  number := hnumber })
              else .ok none
            else .ok none

/-- The loop of `decode_alarm_voice_catalog`. -/
def decodeResources (loads : TryLoads) : List Json → List AlarmVoiceResource → Except LoadsFault (List AlarmVoiceResource)
  | [], resources => .ok resources
  | entry :: entries, resources =>
    match decodeResource loads entry with
    | .error e => .error e
    | .ok none => decodeResources loads entries resources
    | .ok (some resource) =>
      if resource.key ∈ resources.map AlarmVoiceResource.key then decodeResources loads entries resources
      else decodeResources loads entries (resources ++ [resource])

/-- `json.loads`, within the part that gives up on a decoding error. -/
def tryDecode (loads : TryLoads) (text : Bytes) : Except LoadsFault (Option Json) :=
  match loads text with
  | .error .decode => .ok none
  | .error e => .error e
  | .ok value => .ok (some value)

/-- `data`, which may be a text of its own. -/
def catalogData (loads : TryLoads) (root : Json) : Except LoadsFault (Option Json) :=
  match root.get? "data" with
  | some (.str text) => tryDecode loads (Bytes.utf8 text)
  | data => .ok data

/-- `decode_alarm_voice_catalog`. -/
def decodeAlarmVoiceCatalog (loads : TryLoads) (payload : Bytes) : Except LoadsFault (Option AlarmVoiceCatalog) :=
  if 1000000 < payload.length then .ok none
  else do
    match ← tryDecode loads payload with
    | none => .ok none
    | some root =>
      if root.isDict = false then .ok none
      else
        match ← catalogData loads root with
        | none => .ok none
        | some data =>
          match (root.getD "code" (.int 0)).asInt?, data.isDict, (data.getD "total" (.int 0)).asInt?, data.getD "urls" (.list []) with
          | some code, true, some total, .list entries =>
            if total < 0 then .ok none
            else do
              let resources ← decodeResources loads (entries.take 20) []
              .ok (some ⟨code, total, resources⟩)
          | _, _, _, _ => .ok none

end CamGuard.Account
