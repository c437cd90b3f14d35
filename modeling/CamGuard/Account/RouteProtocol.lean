/-
The frames of a broker media route: the calling request that opens it and the
hangup that closes it (`rendezvous_protocol.py`), the startup metadata they
carry, and the broker's A3 answer with its relay table (`mtp_relays.py`,
`relay_selection.py`, `mtp_lan_endpoint.py`).

An address is its four bytes.
-/
import CamGuard.Account.PtzProtocol

namespace CamGuard.Account

open CamGuard.Crypto

structure OnlineDevice where
  deviceId : Nat
  status : Nat
  newPlatform : Bool
  serverId : Nat
  terminalId : Bytes
  deriving DecidableEq, Repr

structure CallingAttempt where
  linkId : Nat
  callId : Nat
  cookie : Bytes
  deriving DecidableEq, Repr

/-- The address the account's socket is bound to. -/
structure BoundAddress where
  ip : Bytes
  port : Nat
  ip_length : ip.length = 4
  port_lt : port < 2 ^ 16

/-- An address and a port. -/
abbrev Endpoint := Bytes × Nat

inductive CallingFault where
  | cookie
  | link
  | userData
  | definition
  | frame (e : GuteFault)
  deriving DecidableEq, Repr

def CallingFault.reason : CallingFault → String
  | .cookie => "calling cookie must be eight bytes"
  | .link => "calling link id must be a non-zero 24-bit value"
  | .userData => "calling request user data must be exactly 32 bytes"
  | .definition => "unsupported video definition"
  | .frame e => e.reason

/-! ## Startup metadata -/

/-- `build_av_init` without connection metadata. -/
def buildAvInit (callId : Nat) : Bytes :=
  let userData := ((Bytes.zeros 32).put 0 (Bytes.ofNat 4 1)).put 23 [0x12]
  let body := (Bytes.zeros 76).put 0 [3, 2, 0x4C, 0]
  let body := body.put 4 (Bytes.ofNat 4 callId)
  let body := body.put 8 (Bytes.ofNat 4 1)
  let body := body.put 16 (Bytes.ofNat 4 1)
  let body := body.put 20 (Bytes.ofNat 4 1)
  let body := body.put 24 userData
  body.put 64 (Bytes.ofNat 4 9)

/-- `with_preconnect_definition`: the same definition in all five slots. -/
def withPreconnectDefinition (userData : Bytes) (definition : Nat) : Except CallingFault Bytes :=
  if userData.length ≠ 32 then .error .userData
  else if definition ∉ [1, 2, 3, 7] then .error .definition
  else
    let packed := ((List.range 5).map fun channel => definition <<< (3 * channel)).sum
    .ok ((userData.put 0 [UInt8.ofNat (definition - 1)]).put 23 (Bytes.ofNat 2 packed))

/-! ## OPEN and CLOSE -/

/-- The body of the calling request, with its connection metadata. -/
def callingFrame (node : CertifiedNode) (access device : Nat) (address : BoundAddress) (attempt : CallingAttempt)
    (sequence noise : Nat) (userData : Bytes) : Bytes :=
  let frame := (newHeader 0xA4 177 node.sessionId sequence (randomizedFlags noise 2 1)).put 0 [0x7E]
  let frame := frame.put 0x18 (Bytes.ofNat 2 (0x0581 ||| 0x4000))
  let frame := frame.put 0x1A (Bytes.ofNat 2 address.port)
  let frame := frame.put 0x1C (Bytes.ofNat 4 attempt.linkId)
  let frame := frame.put 0x20 (Bytes.ofNat 8 access)
  let frame := frame.put 0x28 (Bytes.ofNat 8 device)
  let frame := frame.put 0x32 [1]
  let frame := frame.put 0x36 (Bytes.ofNat 2 address.port)
  let frame := frame.put 0x40 address.ip
  let frame := frame.put 0x78 attempt.cookie
  let frame := frame.put 0x84 (Bytes.ofNat 4 attempt.callId)
  let frame := frame.put 0x8C (Bytes.ofNat 4 1)
  let frame := frame.put 0x90 userData
  frame.put 0xB0 [userData.headD 0]

/-- `build_calling_request`, for a live route. -/
def buildCallingRequest (node : CertifiedNode) (access device : Nat) (address : BoundAddress) (attempt : CallingAttempt)
    (sequence noise : Nat) (userData : Bytes) : Except CallingFault Bytes :=
  if attempt.cookie.length ≠ 8 then .error .cookie
  else if attempt.linkId = 0 ∨ 0xFFFFFF < attempt.linkId then .error .link
  else if userData.length ≠ 32 then .error .userData
  else
    (finishMode2 (callingFrame node access device address attempt sequence noise userData) node.sessionKey).mapError
      .frame

def hangupFrame (node : CertifiedNode) (access device link sequence message noise : Nat) : Bytes :=
  let frame := (newHeader 0xB9 0x4C node.sessionId sequence (randomizedFlags noise 2 1)).put 0 [0x7E]
  let frame := frame.put 0x18 (Bytes.ofNat 4 1)
  let frame := frame.put 0x1C (Bytes.ofNat 8 device)
  let frame := frame.put 0x24 (Bytes.ofNat 8 access)
  let frame := frame.put 0x2C (Bytes.ofNat 4 (message &&& 0x7FFFFFFF))
  let frame := frame.put 0x38 (Bytes.ofNat 4 link)
  let frame := frame.put 0x3C (Bytes.ofNat 4 link)
  frame.put 0x40 (Bytes.ofNat 4 0x4E22)

/-- `build_route_hangup`. -/
def buildRouteHangup (node : CertifiedNode) (access device link sequence message noise : Nat) :
    Except CallingFault Bytes :=
  if link = 0 ∨ 0xFFFFFF < link then .error .link
  else (finishMode2 (hangupFrame node access device link sequence message noise) node.sessionKey).mapError .frame

/-! ## The relay table -/

/-- A network of IPv4 addresses. -/
def inNetwork (address : Bytes) (network : Bytes) (bits : Nat) : Bool :=
  decide (Bytes.toNat address.reverse / 2 ^ (32 - bits) = Bytes.toNat network.reverse / 2 ^ (32 - bits))

/-- `IPv4Address.is_global`. -/
def isGlobal (address : Bytes) : Bool :=
  let within := fun (network : Bytes × Nat) => inNetwork address network.1 network.2
  let reserved : List (Bytes × Nat) := [([0, 0, 0, 0], 8), ([10, 0, 0, 0], 8), ([127, 0, 0, 0], 8),
    ([169, 254, 0, 0], 16), ([172, 16, 0, 0], 12), ([192, 0, 0, 0], 24), ([192, 0, 2, 0], 24), ([192, 168, 0, 0], 16),
    ([198, 18, 0, 0], 15), ([198, 51, 100, 0], 24), ([203, 0, 113, 0], 24), ([240, 0, 0, 0], 4)]
  let shared := within ([100, 64, 0, 0], 10)
  let excepted := within ([192, 0, 0, 9], 32) || within ([192, 0, 0, 10], 32)
  !shared && (!reserved.any within || excepted)

structure MtpRelayDescriptor where
  family : Nat
  index : Nat
  flags : Nat
  address : Bytes
  udpPort : Nat
  deriving DecidableEq, Repr

/-- `tcp_port`: the advertised word, swapped. -/
def MtpRelayDescriptor.tcpPort (d : MtpRelayDescriptor) : Nat := ((d.udpPort &&& 0xFF) <<< 8) ||| (d.udpPort >>> 8)

structure MtpRelayAdvertisement where
  entries : List MtpRelayDescriptor
  options : Nat
  extension : Bytes
  deriving DecidableEq, Repr

/-- A 16-bit word in network order. -/
def networkWord (frame : Bytes) (offset : Nat) : Nat := frame.at_ offset * 256 + frame.at_ (offset + 1)

/-- The entries of one family. -/
def relayEntries (frame : Bytes) (offset family count stride width : Nat) : List MtpRelayDescriptor :=
  (List.range count).map fun index =>
    let entry := offset + index * stride
    { family := family
      index := index
      flags := frame.field 2 (entry + 8)
      address := frame.slice (entry + 12) width
      udpPort := networkWord frame (entry + 10) }

/-- `inspect_mtp_relay_advertisement`. -/
def inspectMtpRelayAdvertisement (frame : Bytes) (session link : Nat) : Option MtpRelayAdvertisement :=
  if frame.length < 0x7A ∨ 0x7A + 32 * 16 + 16 * 28 + 64 < frame.length then none
  else if frame.take 2 ≠ [0x7E, 0xA3] ∧ frame.take 2 ≠ [0x7F, 0xA3] then none
  else if frame.field 2 2 ≠ frame.length then none
  else if frame.field 8 4 ≠ session then none
  else if frame.field 4 0x1C ≠ link then none
  else
    let flags := frame.field 4 0x14
    if flags >>> 16 &&& 3 ≠ 2 ∨ flags.testBit 20 ∨ flags.testBit 0 then none
    else
      let v4 := frame.at_ 0x78
      let v6 := frame.at_ 0x79
      if 32 < v4 ∨ 16 < v6 then none
      else
        let tableEnd := 0x7A + v4 * 16 + v6 * 28
        if frame.length < tableEnd ∨ tableEnd + 64 < frame.length then none
        else some {
          entries := relayEntries frame 0x7A 4 v4 16 4 ++ relayEntries frame (0x7A + v4 * 16) 6 v6 28 16
          options := frame.field 2 0x18
          extension := frame.drop tableEnd }

/-- The checksum stands in the frame. -/
def checksummed (frame : Bytes) : Bool := decide (guteMode1XorChecksum frame = .ok (frame.field 4 16))

/-- `select_relay`. -/
def selectRelay (frame : Bytes) (session link : Nat) : Option Endpoint :=
  match inspectMtpRelayAdvertisement frame session link with
  | none => none
  | some advert =>
    if advert.entries.any fun entry => entry.family ≠ 4 then none
    else if checksummed frame = false then none
    else
      (advert.entries.find? fun entry =>
        entry.flags.testBit 2 && decide (entry.tcpPort ≠ 0) && isGlobal entry.address).map
          fun entry => (entry.address, entry.tcpPort)

/-- `parse_mtp_lan_endpoint`. -/
def parseMtpLanEndpoint (frame : Bytes) (session link : Nat) : Option Endpoint :=
  if (inspectMtpRelayAdvertisement frame session link).isNone then none
  else if checksummed frame = false then none
  else
    let address := frame.slice 0x64 4
    if !(inNetwork address [10, 0, 0, 0] 8 || inNetwork address [172, 16, 0, 0] 12 ||
      inNetwork address [192, 168, 0, 0] 16) then none
    else if address = frame.slice 0x60 4 then none
    else if frame.field 2 0x5A = 0 then none
    else some (address, frame.field 2 0x5A)

/-- `parse_mtp_peer_endpoint`. -/
def parseMtpPeerEndpoint (response : Bytes) (link : Nat) : Option Endpoint :=
  if response.length < 0x64 ∨ response.at_ 1 ≠ 0xA3 then none
  else if response.field 4 0x1C ≠ link then none
  else
    let port := networkWord response 0x58
    let address := response.slice 0x60 4
    if port = 0 ∨ address = [0, 0, 0, 0] then none else some (address, port)

/-! ## Lengths -/

theorem length_finishMode2 {frame sessionKey wire : Bytes} {n : Nat} (h : Framed frame n)
    (hwire : finishMode2 frame sessionKey = .ok wire) : wire.length = n := by
  obtain ⟨wire', hwire', hlength⟩ := h.finish (finishMode2_key hwire)
  rw [hwire] at hwire'
  cases hwire'
  exact hlength

theorem framed_callingFrame (node : CertifiedNode) (access device : Nat) (address : BoundAddress)
    {attempt : CallingAttempt} (sequence noise : Nat) {userData : Bytes} (hcookie : attempt.cookie.length = 8)
    (hdata : userData.length = 32) :
    Framed (callingFrame node access device address attempt sequence noise userData) 177 := by
  have hip := address.ip_length
  unfold callingFrame
  iterate 13 refine Framed.put ?_ (by decide) (by simp [hip, hcookie, hdata])
  exact framed_lead (by decide) (by decide) (lt_trans (randomizedFlags_lt noise 2 1) (by decide))
    (randomizedFlags_mode noise 1)

theorem framed_hangupFrame (node : CertifiedNode) (access device link sequence message noise : Nat) :
    Framed (hangupFrame node access device link sequence message noise) 76 := by
  unfold hangupFrame
  iterate 7 refine Framed.put ?_ (by decide) (by simp)
  exact framed_lead (by decide) (by decide) (lt_trans (randomizedFlags_lt noise 2 1) (by decide))
    (randomizedFlags_mode noise 1)

theorem length_buildCallingRequest {node : CertifiedNode} {access device : Nat} {address : BoundAddress}
    {attempt : CallingAttempt} {sequence noise : Nat} {userData wire : Bytes}
    (h : buildCallingRequest node access device address attempt sequence noise userData = .ok wire) :
    wire.length = 177 := by
  unfold buildCallingRequest at h
  split at h
  · cases h
  next hcookie =>
    split at h
    · cases h
    split at h
    · cases h
    next hdata =>
      cases hfinish : finishMode2 (callingFrame node access device address attempt sequence noise userData)
          node.sessionKey with
      | error e =>
        rw [hfinish] at h
        cases h
      | ok wire' =>
        rw [hfinish] at h
        cases h
        exact length_finishMode2 (framed_callingFrame node access device address sequence noise
          (not_not.mp hcookie) (not_not.mp hdata)) hfinish

theorem length_buildRouteHangup {node : CertifiedNode} {access device link sequence message noise : Nat} {wire : Bytes}
    (h : buildRouteHangup node access device link sequence message noise = .ok wire) : wire.length = 76 := by
  unfold buildRouteHangup at h
  split at h
  · cases h
  · cases hfinish : finishMode2 (hangupFrame node access device link sequence message noise) node.sessionKey with
    | error e =>
      rw [hfinish] at h
      cases h
    | ok wire' =>
      rw [hfinish] at h
      cases h
      exact length_finishMode2 (framed_hangupFrame node access device link sequence message noise) hfinish

end CamGuard.Account
