/-
Maintenance of a broker session (`broker_maintenance.py`): each datagram is
charged, fragments are acknowledged and reassembled, messages of the session are
acknowledged. Anything that raises closes the session.
-/
import CamGuard.Account.Fragments
import CamGuard.Account.PtzProtocol

namespace CamGuard.Account

open CamGuard.Crypto

/-- `TcpProfile`, as far as the broker is concerned. -/
inductive TcpProfile where
  | short
  | extended
  deriving DecidableEq, Repr

def TcpProfile.brokerSeconds : TcpProfile → Nat
  | .short => 15
  | .extended => 28

inductive MaintenanceFault where
  | closed
  | exhausted
  /-- What `inspect_message` raised. -/
  | inspect
  | traffic (e : TrafficFault)
  | fragment (e : FragmentFault)
  | gute (e : GuteFault)
  deriving DecidableEq, Repr

def MaintenanceFault.reason : MaintenanceFault → String
  | .closed => "broker maintenance is closed"
  | .exhausted => "broker maintenance budget exhausted"
  | .inspect => ""
  | .traffic e => e.reason
  | .fragment e => e.reason
  | .gute e => e.reason

/-- `decrypt_node_frame`. -/
def decryptNodeFrame (wire : Bytes) (node : CertifiedNode) : Option Bytes :=
  if wire.length < 0x20 ∨ (wire.at_ 0 ≠ 0x7E ∧ wire.at_ 0 ≠ 0x7F) then none
  else
    match wire.at_ 0x16 &&& 3 with
    | 2 => (guteMode2Decrypt wire node.sessionKey).toOption
    | 1 => (guteMode1Decrypt wire).toOption
    | 0 => some wire
    | _ => none

/-- A datagram, what the clock says when it is looked at and when it is charged,
and the mask drawn for an acknowledgement. -/
structure Datagram where
  now : ℚ
  charged : ℚ
  mask : Fin (2 ^ 16)
  wire : Bytes
  peer : String × Nat
  /-- `inspect_message`; `false` when it raises. -/
  inspect : Bytes → Bool := fun _ => true

structure BrokerMaintenance where
  /-- `None` when it is closed. -/
  node : Option CertifiedNode
  acknowledgeMessages : Bool
  /-- `None` for one that never comes. -/
  deadline : Option ℚ
  input : TrafficBudget
  fragments : FragmentReassembler := { maxGroups := 2 }
  datagrams : Nat := 0
  receivedBytes : Nat := 0
  messages : Nat := 0
  acknowledgements : Nat := 0

namespace BrokerMaintenance

/-- `BrokerMaintenance(…)`. -/
def new (node : CertifiedNode) (now started : ℚ) (profile : TcpProfile := .short) (acknowledgeMessages : Bool := true) :
    Except TrafficFault BrokerMaintenance := do
  let input ← TrafficBudget.new 512 (1024 * 1024) .finite started 1
  .ok {
    node := some node
    acknowledgeMessages := acknowledgeMessages
    deadline := some (now + profile.brokerSeconds)
    input := input }

/-- `BrokerMaintenance.account_check`. -/
def accountCheck (node : CertifiedNode) (now started : ℚ) (acknowledgeMessages : Bool := true)
    (policy : AccountPolicy := .finite) : Except TrafficFault BrokerMaintenance := do
  let input ← TrafficBudget.new 512 (1024 * 1024) policy started 1
  .ok {
    node := some node
    acknowledgeMessages := acknowledgeMessages
    deadline := if policy = .finite then some (now + 60) else none
    input := input }

def closed (b : BrokerMaintenance) : Bool := b.node.isNone

def close (b : BrokerMaintenance) : BrokerMaintenance := { b with node := none, fragments := { maxGroups := 2 } }

/-- A whole frame, after the replies there are already. -/
def message (b : BrokerMaintenance) (node : CertifiedNode) (d : Datagram) (wire : Bytes) (replies : List Bytes) :
    Except MaintenanceFault (List Bytes) × BrokerMaintenance :=
  if wire.length < 32 ∨ wire.at_ 0x16 &&& 3 ≠ 2 then (.ok replies, b)
  else
    match decryptNodeFrame wire node with
    | none => (.ok replies, b)
    | some plain =>
      if plain.field 8 4 ≠ node.sessionId then (.ok replies, b)
      else
        let b := { b with messages := b.messages + 1 }
        if d.inspect plain = false then (.error .inspect, b)
        else
          let flags := plain.field 4 20
          if b.acknowledgeMessages = true ∧ flags.testBit 20 = false ∧ (flags >>> 18) &&& 3 ≠ 0 then
            match buildMode2ResponseAck node plain with
            | .error e => (.error (.gute e), b)
            | .ok ack => (.ok (replies ++ [ack]), { b with acknowledgements := b.acknowledgements + 1 })
          else (.ok replies, b)

/-- The body of `receive`. -/
def handle (b : BrokerMaintenance) (node : CertifiedNode) (d : Datagram) :
    Except MaintenanceFault (List Bytes) × BrokerMaintenance :=
  let b := { b with
    datagrams := b.datagrams + 1
    receivedBytes := b.receivedBytes + d.wire.length }
  if (b.deadline.any fun deadline => decide (deadline ≤ d.now)) ∨ 4096 < d.wire.length then (.error .exhausted, b)
  else
    match b.input.charge d.charged d.wire.length with
    | (.error e, input) => (.error (.traffic e), { b with input := input })
    | (.ok (), input) =>
      let b := { b with input := input }
      if d.peer ≠ node.address then (.ok [], b)
      else if d.wire.slice 0 2 = [0x70, 0x01] then
        match decodeFragmentPacket d.wire with
        | .error e => (.error (.fragment e), b)
        | .ok fragment =>
          match b.fragments.add fragment with
          | (.error e, fragments) => (.error (.fragment e), { b with fragments := fragments })
          | (.ok assembled, fragments) =>
            let b := { b with fragments := fragments }
            match buildFragmentAck fragment d.mask with
            | .error e => (.error (.fragment e), b)
            | .ok ack =>
              let b := { b with acknowledgements := b.acknowledgements + 1 }
              match assembled with
              | none => (.ok [ack], b)
              | some wire => b.message node d wire [ack]
      else b.message node d d.wire []

/-- `receive`: whatever raises closes the session. -/
def receive (b : BrokerMaintenance) (d : Datagram) : Except MaintenanceFault (List Bytes) × BrokerMaintenance :=
  match b.node with
  | none => (.error .closed, b)
  | some node =>
    match b.handle node d with
    | (.error e, b) => (.error e, b.close)
    | (.ok replies, b) => (.ok replies, b)

/-- A run: the datagrams one after another. -/
def run (b : BrokerMaintenance) (datagrams : List Datagram) : BrokerMaintenance :=
  datagrams.foldl (fun b d => (b.receive d).2) b

end BrokerMaintenance

end CamGuard.Account
