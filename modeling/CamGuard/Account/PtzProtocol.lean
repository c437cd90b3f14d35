/-
The PTZ codec (`ptz_protocol.py`): the START and RELEASE requests, the receipt
of an application reply, and the three replies that can match a request. Also
the transport acknowledgement of `access_protocol.py`, which goes out with a
receipt.

Every frame built here has a truthful header, so building succeeds whenever the
session key has its 32 bytes (`buildPtzRequest_ok`, `buildPtzReceipt_ok`,
`buildMode2ResponseAck_ok`). `parsePtzReply_cases` says in terms of the wire
what a reply that is accepted has matched.
-/
import CamGuard.Account.Budget
import CamGuard.Account.Sequences
import CamGuard.Crypto.Gute
import CamGuard.Lib.Json

namespace CamGuard.Account

open CamGuard.Crypto

structure CertifiedNode where
  address : String × Nat
  sessionId : Nat
  sessionKey : Bytes
  deriving DecidableEq, Repr

inductive Direction where
  | left
  | right
  | up
  | down
  deriving DecidableEq, Repr

/-- `DIRECTIONS`. -/
def Direction.code : Direction → String
  | .left => "0"
  | .right => "1"
  | .up => "2"
  | .down => "3"

/-- The JSON text of a gesture, without blanks. -/
def gestureText (direction : Direction) (pressed : Bool) : Bytes :=
  Bytes.ascii "\x7b\"type\":2,\"data\":\x7b\"dir\":" ++ Bytes.ascii direction.code ++
    Bytes.ascii ",\"touchType\":" ++ Bytes.ascii (if pressed then "0" else "1") ++ Bytes.ascii "\x7d\x7d"

/-- `build_ptz_request`; `noise` is the randomness of the flags. -/
def buildPtzRequest (node : CertifiedNode) (access device : Nat) (direction : Direction) (pressed : Bool)
    (sequence message request noise : Nat) : Except GuteFault Bytes :=
  let payload := [0x01, 0xff, 0x00, 0x00] ++ Bytes.ofNat 4 request ++ gestureText direction pressed
  let frame := newHeader 0xB9 (0x34 + payload.length) node.sessionId sequence (randomizedFlags noise 2 1)
  let frame := frame.put 0 [0x7E]
  let frame := frame.put 0x18 (Bytes.ofNat 4 2 ++ Bytes.ofNat 8 device ++ Bytes.ofNat 8 access ++
    Bytes.ofNat 4 (message &&& 0x7FFFFFFF) ++ Bytes.ofNat 2 payload.length)
  finishMode2 (frame.put 0x34 payload) node.sessionKey

structure PtzReply where
  transportReceipt : Bool := false
  peerReceipt : Bool := false
  errorCode : Option Int := none
  deriving DecidableEq, Repr

inductive PtzFault where
  | receiptFrame
  | receiptMode
  | startUnavailable
  | releaseUnavailable
  | reservation
  | lifetime
  | duration
  | gute (e : GuteFault)
  | output (e : OutputFault)
  | sequences (e : SequenceFault)
  deriving DecidableEq, Repr

def PtzFault.reason : PtzFault → String
  | .receiptFrame => "PTZ receipt requires a full same-session B9 response"
  | .receiptMode => "PTZ receipt requires an encrypted application response"
  | .startUnavailable => "PTZ START unavailable; do not replay"
  | .releaseUnavailable => "PTZ RELEASE unavailable or attempts exhausted"
  | .reservation => "PTZ reservation requires exact reviewed account/axis identity"
  | .lifetime => "invalid release observation lifetime"
  | .duration => "PTZ duration must be 0.1..0.5 seconds"
  | .gute e => e.reason
  | .output e => e.reason
  | .sequences e => e.reason

/-- `build_ptz_receipt`. -/
def buildPtzReceipt (frame : Bytes) (node : CertifiedNode) (sequence noise : Nat) : Except PtzFault Bytes :=
  if frame.length < 0x3C ∨ frame.at_ 1 ≠ 0xB9 ∨ frame.at_ 0 ≠ 0x7E ∨ frame.field 8 4 ≠ node.sessionId then
    .error .receiptFrame
  else
    let flags := frame.field 4 0x14
    if (flags >>> 16) &&& 3 ≠ 2 ∨ flags.testBit 20 then .error .receiptMode
    else
      let receipt := newHeader 0xBA 0x34 node.sessionId sequence (randomizedFlags noise 2 1)
      let receipt := receipt.put 0 [0x7E]
      let destination := frame.field 8 0x1C
      let source := frame.field 8 0x24
      let message := frame.field 4 0x2C
      let receipt := receipt.put 0x1C (Bytes.ofNat 8 source ++ Bytes.ofNat 8 destination ++ Bytes.ofNat 4 message)
      (finishMode2 receipt node.sessionKey).mapError .gute

/-- `build_mode2_response_ack`. -/
def buildMode2ResponseAck (node : CertifiedNode) (response : Bytes) : Except GuteFault Bytes :=
  let frame := newHeader (response.at_ 1) 32 node.sessionId (response.field 4 0x0C) ((1 <<< 20) ||| (2 <<< 16))
  let frame := frame.put 0 [0x7E]
  finishMode2 (frame.put 0x18 (Bytes.ofNat 4 4)) node.sessionKey

/-- `parse_ptz_reply`. -/
def parsePtzReply (loads : Loads) (frame : Bytes) (node : CertifiedNode)
    (access device sequence message request : Nat) : Option PtzReply :=
  if frame.length < 0x18 ∨ 4096 < frame.length ∨ frame.at_ 0 ≠ 0x7E then none
  else
    let flags := frame.field 4 0x14
    if (flags >>> 16) &&& 3 ≠ 2 ∨ frame.field 8 4 ≠ node.sessionId then none
    else if flags.testBit 20 then
      if frame.at_ 1 ≠ 0xB9 ∨ frame.field 4 0x0C ≠ sequence % 2 ^ 32 then none
      else some { transportReceipt := true }
    else if frame.length < 0x34 ∨ (frame.at_ 1 ≠ 0xB9 ∧ frame.at_ 1 ≠ 0xBA) then none
    else if frame.field 8 0x1C ≠ access ∨ frame.field 8 0x24 ≠ device then none
    else if frame.at_ 1 = 0xBA then
      if frame.field 4 0x2C ≠ message &&& 0x7FFFFFFF then none
      else some { peerReceipt := true }
    else
      let length := frame.field 2 0x30
      if length < 8 ∨ frame.length < 0x34 + length then none
      else
        let payload := frame.slice 0x34 length
        if payload.take 4 ≠ [0x01, 0xff, 0x00, 0x00] ∧ payload.take 4 ≠ [0x01, 0x00, 0x00, 0x00] then none
        else if payload.field 4 4 ≠ request then none
        else
          match loads (payload.drop 8) with
          | none => none
          | some value =>
            match value.getInt? "type", value.getInt? "err" with
            | some 2, some err => some { errorCode := some err }
            | _, _ => none

/-! ## Building succeeds -/

theorem length_gestureText (direction : Direction) (pressed : Bool) : (gestureText direction pressed).length = 41 := by
  cases direction <;> cases pressed <;> decide

theorem buildPtzRequest_ok (node : CertifiedNode) (hkey : node.sessionKey.length = 32) (access device : Nat)
    (direction : Direction) (pressed : Bool) (sequence message request noise : Nat) :
    ∃ wire, buildPtzRequest node access device direction pressed sequence message request noise = .ok wire ∧
      wire.length = 101 := by
  have hpayload : ([0x01, 0xff, 0x00, 0x00] ++ Bytes.ofNat 4 request ++ gestureText direction pressed).length = 49 := by
    simp only [List.length_append, List.length_cons, List.length_nil, Bytes.length_ofNat, length_gestureText]
  unfold buildPtzRequest
  simp only [hpayload]
  refine Framed.finish (Framed.put (Framed.put (framed_lead (by decide) (by decide) ?_ ?_) (by decide) ?_)
    (by decide) ?_) hkey
  · exact lt_trans (randomizedFlags_lt noise 2 1) (by decide)
  · exact randomizedFlags_mode noise 1
  · simp
  · rw [hpayload]

theorem buildPtzRequest_key {node : CertifiedNode} {access device : Nat} {direction : Direction} {pressed : Bool}
    {sequence message request noise : Nat} {wire : Bytes}
    (h : buildPtzRequest node access device direction pressed sequence message request noise = .ok wire) :
    node.sessionKey.length = 32 := by
  unfold buildPtzRequest at h
  exact finishMode2_key h

theorem buildMode2ResponseAck_ok (node : CertifiedNode) (hkey : node.sessionKey.length = 32) (response : Bytes) :
    ∃ wire, buildMode2ResponseAck node response = .ok wire ∧ wire.length = 32 := by
  unfold buildMode2ResponseAck
  exact Framed.finish (Framed.put (framed_lead (by decide) (by decide) (by decide) (by decide)) (by decide) (by simp))
    hkey

/-! ## What a reply has matched -/

/-- A transport acknowledgement of the session's frame with this sequence. -/
def AcknowledgesTransport (node : CertifiedNode) (sequence : Nat) (frame : Bytes) : Prop :=
  frame.field 8 4 = node.sessionId ∧ (frame.field 4 0x14).testBit 20 ∧ frame.at_ 1 = 0xB9 ∧
    frame.field 4 0x0C = sequence

/-- The device's receipt for this message. -/
def AcknowledgesPeer (node : CertifiedNode) (access device message : Nat) (frame : Bytes) : Prop :=
  frame.field 8 4 = node.sessionId ∧ frame.at_ 1 = 0xBA ∧ frame.field 8 0x1C = access ∧
    frame.field 8 0x24 = device ∧ frame.field 4 0x2C = message

/-- The application's answer to this request, with its error code. -/
def Answers (loads : Loads) (node : CertifiedNode) (access device request : Nat) (err : Int) (frame : Bytes) : Prop :=
  frame.field 8 4 = node.sessionId ∧ frame.at_ 1 = 0xB9 ∧ frame.field 8 0x1C = access ∧ frame.field 8 0x24 = device ∧
    frame.field 4 0x38 = request ∧
    ∃ value, loads ((frame.slice 0x34 (frame.field 2 0x30)).drop 8) = some value ∧
      value.getInt? "type" = some 2 ∧ value.getInt? "err" = some err

/-- A frame whose receipt can be built. -/
structure Receiptable (node : CertifiedNode) (frame : Bytes) : Prop where
  length_ge : 0x3C ≤ frame.length
  lead : frame.at_ 0 = 0x7E
  subtype : frame.at_ 1 = 0xB9
  session : frame.field 8 4 = node.sessionId
  mode : (frame.field 4 0x14 >>> 16) &&& 3 = 2
  plain : (frame.field 4 0x14).testBit 20 = false

theorem buildPtzReceipt_ok {node : CertifiedNode} (hkey : node.sessionKey.length = 32) {frame : Bytes}
    (h : Receiptable node frame) (sequence noise : Nat) :
    ∃ wire, buildPtzReceipt frame node sequence noise = .ok wire ∧ wire.length = 0x34 := by
  have hlen := h.length_ge
  have hframe : ¬ (frame.length < 0x3C ∨ frame.at_ 1 ≠ 0xB9 ∨ frame.at_ 0 ≠ 0x7E ∨
      frame.field 8 4 ≠ node.sessionId) := by
    rw [h.lead, h.subtype, h.session]
    omega
  have hmode : ¬ ((frame.field 4 0x14 >>> 16) &&& 3 ≠ 2 ∨ (frame.field 4 0x14).testBit 20) := by
    simp [h.mode, h.plain]
  unfold buildPtzReceipt
  rw [if_neg hframe]
  simp only
  rw [if_neg hmode]
  obtain ⟨wire, heq, hwire⟩ : ∃ wire, finishMode2 _ node.sessionKey = .ok wire ∧ wire.length = 0x34 :=
    Framed.finish (Framed.put (p := 0x1C) (v := Bytes.ofNat 8 (frame.field 8 0x24) ++ Bytes.ofNat 8 (frame.field 8 0x1C) ++
      Bytes.ofNat 4 (frame.field 4 0x2C)) (framed_lead (by decide) (by decide)
      (lt_trans (randomizedFlags_lt noise 2 1) (by decide)) (randomizedFlags_mode noise 1)) (by decide) (by simp)) hkey
  exact ⟨wire, by rw [heq]; rfl, hwire⟩

theorem field_payload (frame : Bytes) {length : Nat} (h : 8 ≤ length) :
    (frame.slice 0x34 length).field 4 4 = frame.field 4 0x38 := by
  rw [Bytes.slice, Bytes.field_take (by omega), Bytes.field, Bytes.field, Bytes.slice, Bytes.slice, List.drop_drop]

/-- **Each accepted reply has matched the identifiers of its request.** -/
theorem parsePtzReply_cases {loads : Loads} {frame : Bytes} {node : CertifiedNode}
    {access device sequence message request : Nat} {reply : PtzReply}
    (h : parsePtzReply loads frame node access device sequence message request = some reply) :
    (reply = { transportReceipt := true } ∧ AcknowledgesTransport node (sequence % 2 ^ 32) frame) ∨
      (reply = { peerReceipt := true } ∧ AcknowledgesPeer node access device (message &&& 0x7FFFFFFF) frame) ∨
      ∃ err, reply = { errorCode := some err } ∧ Answers loads node access device request err frame ∧
        Receiptable node frame := by
  unfold parsePtzReply at h
  split at h
  · cases h
  next hlead =>
  simp only at h
  split at h
  · cases h
  next hmode =>
  obtain ⟨hlen, hmax, hlead⟩ : 0x18 ≤ frame.length ∧ frame.length ≤ 4096 ∧ frame.at_ 0 = 0x7E := by omega
  obtain ⟨hmode, hsession⟩ : (frame.field 4 0x14 >>> 16) &&& 3 = 2 ∧ frame.field 8 4 = node.sessionId := by omega
  split at h
  · next hack =>
    split at h
    · cases h
    · next hseq =>
      cases h
      exact .inl ⟨rfl, hsession, hack, by omega, by omega⟩
  next hplain =>
  split at h
  · cases h
  next hsub =>
  split at h
  · cases h
  next hids =>
  split at h
  · next hpeer =>
    split at h
    · cases h
    · next hmessage =>
      cases h
      exact .inr (.inl ⟨rfl, hsession, hpeer, by omega, by omega, by omega⟩)
  next hpeer =>
  split at h
  · cases h
  next hlength =>
  split at h
  · cases h
  split at h
  · cases h
  next hrequest =>
  split at h
  · cases h
  next value hvalue =>
  split at h
  · next err htype herr =>
    cases h
    have hfield := field_payload frame (show 8 ≤ frame.field 2 0x30 by omega)
    refine .inr (.inr ⟨err, rfl, ⟨hsession, by omega, by omega, by omega, by omega, value, hvalue, htype, herr⟩, ?_⟩)
    exact ⟨by omega, hlead, by omega, hsession, hmode, by simpa using hplain⟩
  · cases h

end CamGuard.Account
