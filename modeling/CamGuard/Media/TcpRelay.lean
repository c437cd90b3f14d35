/-
KCP frames in the envelopes of a TCP relay (`mtp_tcp_kcp.py`): outbound `c0/00`
and `c0/60`, inbound `c0/10` and `c0/50`, the latter with eight bytes of route
before the segments. What comes in is brought to the canonical `c0/10` frame.
-/
import CamGuard.Media.Kcp
import CamGuard.Media.TcpFraming

namespace CamGuard.Media

inductive RelayFault where
  | conversation
  | otherConversation
  | destination
  | channel
  | limit
  | inbound
  | segments (e : KcpParseFault)
  | frame (e : MtpBuildFault)
  deriving DecidableEq, Repr

def RelayFault.reason : RelayFault → String
  | .conversation => "invalid KCP conversation"
  | .otherConversation => "KCP record belongs to a different conversation"
  | .destination => "invalid TCP relay destination"
  | .channel => "unsupported TCP relay channel"
  | .limit => "TCP relay record exceeds receive limit"
  | .inbound => "invalid inbound TCP relay KCP record"
  | .segments e => e.reason
  | .frame e => e.reason

/-- `_validate_conversation`. -/
def validateConversation (frame : Bytes) (conversation : Nat) : Except RelayFault Unit :=
  if 0xFFFFFFFF < conversation then .error .conversation
  else
    match parseKcpSegments frame with
    | .error e => .error (.segments e)
    | .ok segments =>
      if segments.any fun segment => decide (segment.conv ≠ conversation) then .error .otherConversation else .ok ()

/-- `wrap_tcp_relay_kcp`. -/
def wrapTcpRelayKcp (frame : Bytes) (destinationId expectedConversation : Nat) (channelType : Nat := 0x86) :
    Except RelayFault Bytes :=
  if 2 ^ 64 ≤ destinationId then .error .destination
  else if channelType ≠ 0x85 ∧ channelType ≠ 0x86 then .error .channel
  else if TCP_RECORD_LIMIT < frame.length + (if channelType = 0x86 then 8 else 0) then .error .limit
  else
    match validateConversation frame expectedConversation with
    | .error e => .error e
    | .ok () =>
      let payload := frame.drop 6
      if channelType = 0x86 then (buildMtpFrame 0x60 (Bytes.ofNat 8 destinationId ++ payload)).mapError .frame
      else (buildMtpFrame 0 payload).mapError .frame

/-- Where the segments of an inbound envelope begin. -/
def relayOffset (frame : Bytes) : Nat := if frame.at_ 1 = 0x50 then 14 else 6

/-- `unwrap_tcp_relay_kcp`. -/
def unwrapTcpRelayKcp (frame : Bytes) (expectedConversation : Nat) : Except RelayFault Bytes :=
  if TCP_RECORD_LIMIT < frame.length ∨ frame.slice 0 2 ∉ [[0xC0, 0x10], [0xC0, 0x50]] ∨ verifyMtpFrame frame = false then
    .error .inbound
  else
    match buildMtpFrame 0x10 (frame.drop (relayOffset frame)) with
    | .error e => .error (.frame e)
    | .ok normalized =>
      match validateConversation normalized expectedConversation with
      | .error e => .error e
      | .ok () => .ok normalized

end CamGuard.Media
