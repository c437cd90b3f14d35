/-
Traffic admission (`account_policy.py`) and the account's output budget with
its cleanup reserves (`account_output_budget.py`).

A reserve is a set of slots by kind, protected before the first command of a
job goes out. The budget owns at most one for PTZ, one for the siren and one
per media route; a reserve object of the source is a token here, and holding
it is being the one the budget knows. Allowances are exact rationals.
-/
import Mathlib.Algebra.BigOperators.Fin
import Mathlib.Algebra.Order.Field.Rat
import Mathlib.Data.Fintype.Basic
import CamGuard.Lib.Dict

namespace CamGuard.Account

/-- The two policies of an account: the traffic is bounded in all, or refills. -/
inductive AccountPolicy where
  | finite
  | continuous
  deriving DecidableEq, Repr

def MAX_CLEANUP_RESERVES : Nat := 24

/-- The `ValueError`s of the traffic budget. -/
inductive TrafficFault where
  | limits
  | clock
  | charge
  | exhausted
  deriving DecidableEq, Repr

/-- Their texts. -/
def TrafficFault.reason : TrafficFault → String
  | .limits => "invalid traffic limits"
  | .clock => "invalid traffic clock"
  | .charge => "invalid traffic charge"
  | .exhausted => "traffic budget exhausted"

/-- `TrafficBudget`: packets and octets that are left, as of the last reading of the clock. -/
structure TrafficBudget where
  maxPackets : Nat
  maxOctets : Nat
  packets : ℚ
  octets : ℚ
  policy : AccountPolicy
  cleanupReserves : Nat
  last : ℚ
  deriving DecidableEq

namespace TrafficBudget

/-- `TrafficBudget(…)` for `members` routes. -/
def new (packets octets : Nat) (policy : AccountPolicy) (now : ℚ) (members : Nat) : Except TrafficFault TrafficBudget :=
  if packets < 1 ∨ 512 * members < packets ∨ octets < 1 ∨ 1024 * 1024 * members < octets then .error .limits
  else .ok {
    maxPackets := packets
    maxOctets := octets
    packets := packets
    octets := octets
    policy := policy
    cleanupReserves := max MAX_CLEANUP_RESERVES (18 + 2 * members)
    last := now }

/-- The allowance at a later time: under the continuous policy a full one is
replenished over sixty seconds. -/
def refill (b : TrafficBudget) (now : ℚ) : TrafficBudget :=
  match b.policy with
  | .finite => { b with last := now }
  | .continuous => { b with
      packets := min b.maxPackets (b.packets + (now - b.last) * b.maxPackets / 60)
      octets := min b.maxOctets (b.octets + (now - b.last) * b.maxOctets / 60)
      last := now }

/-- `available`, which also brings the budget up to the time. -/
def available (b : TrafficBudget) (now : ℚ) (packets octets : Nat) : Except TrafficFault Bool × TrafficBudget :=
  if now < b.last then (.error .clock, b)
  else
    let b := b.refill now
    (.ok (decide ((packets : ℚ) ≤ b.packets ∧ (octets : ℚ) ≤ b.octets)), b)

/-- `charge`: a packet, if it leaves `reserved` others. -/
def charge (b : TrafficBudget) (now : ℚ) (size : Nat) (reserved : Nat := 0) :
    Except TrafficFault Unit × TrafficBudget :=
  if 1024 * 1024 < size ∨ b.cleanupReserves < reserved then (.error .charge, b)
  else
    match b.available now (1 + reserved) (size + reserved * 4096) with
    | (.error e, b) => (.error e, b)
    | (.ok false, b) => (.error .exhausted, b)
    | (.ok true, b) => (.ok (), { b with packets := b.packets - 1, octets := b.octets - size })

end TrafficBudget

/-- What a gesture sends. -/
inductive PtzKind where
  | start
  | release
  | receipt
  deriving DecidableEq, Repr

/-- What a siren pulse sends. -/
inductive SirenKind where
  | on
  | off
  | read
  | receipt
  deriving DecidableEq, Repr

/-- What a media route sends. -/
inductive MediaKind where
  | open
  | close
  deriving DecidableEq, Repr

instance : Fintype PtzKind := ⟨{.start, .release, .receipt}, fun kind => by cases kind <;> decide⟩

instance : Fintype SirenKind := ⟨{.on, .off, .read, .receipt}, fun kind => by cases kind <;> decide⟩

instance : Fintype MediaKind := ⟨{.open, .close}, fun kind => by cases kind <;> decide⟩

/-- The slots of a reserve. -/
abbrev Slots (κ : Type) := κ → Nat

/-- `remaining`. -/
def Slots.remaining {κ : Type} [Fintype κ] (slots : Slots κ) : Nat := ∑ kind, slots kind

/-- One START, three RELEASE attempts and two receipt sends. -/
def ptzSlots : Slots PtzKind
  | .start => 1
  | .release => 3
  | .receipt => 2

/-- ON, two OFF attempts, three state reads and six receipts. -/
def sirenSlots : Slots SirenKind
  | .on => 1
  | .off => 2
  | .read => 3
  | .receipt => 6

/-- One route OPEN and one CLOSE. -/
def mediaSlots : Slots MediaKind
  | .open => 1
  | .close => 1

/-- The `ValueError`s of the output budget. -/
inductive OutputFault where
  | size
  | exhausted
  | ptzCapacity
  | sirenCapacity
  | mediaCapacity
  | ptzReservation
  | sirenReservation
  | mediaReservation
  | traffic (e : TrafficFault)
  deriving DecidableEq, Repr

/-- Their texts. -/
def OutputFault.reason : OutputFault → String
  | .size => "invalid datagram size"
  | .exhausted => "account output budget exhausted"
  | .ptzCapacity => "PTZ cleanup capacity unavailable"
  | .sirenCapacity => "siren cleanup capacity unavailable"
  | .mediaCapacity => "media cleanup capacity unavailable"
  | .ptzReservation => "PTZ output reservation unavailable"
  | .sirenReservation => "siren output reservation unavailable"
  | .mediaReservation => "media output reservation unavailable"
  | .traffic e => e.reason

/-- `AccountOutputBudget`: the traffic, and what the cleanups of jobs still have reserved. -/
structure AccountOutputBudget where
  traffic : TrafficBudget
  ptz : Option (Nat × Slots PtzKind) := none
  siren : Option (Nat × Slots SirenKind) := none
  media : Dict Nat (Slots MediaKind) := ∅
  mediaCapacity : Nat
  /-- The next reserve object. -/
  nextToken : Nat := 0

/-- The slots an owner's reference protects. -/
def heldSlots {κ : Type} [Fintype κ] (held : Option (Nat × Slots κ)) : Nat :=
  match held with
  | none => 0
  | some (_, slots) => slots.remaining

/-- The slots of the reserve object `token`, if it is the one referred to. -/
def slotsOf {κ : Type} (held : Option (Nat × Slots κ)) (token : Nat) : Option (Slots κ) :=
  match held with
  | some (owner, slots) => if owner = token then some slots else none
  | none => none

namespace AccountOutputBudget

/-- `AccountOutputBudget(…)`. -/
def new (packets octets : Option Nat) (policy : AccountPolicy) (now : ℚ) (mediaCapacity : Nat) :
    Except TrafficFault AccountOutputBudget :=
  match TrafficBudget.new (packets.getD (512 * mediaCapacity)) (octets.getD (1024 * 1024 * mediaCapacity)) policy now
    mediaCapacity with
  | .error e => .error e
  | .ok traffic => .ok { traffic := traffic, mediaCapacity := mediaCapacity }

/-- `_reserved`. -/
def reserved (b : AccountOutputBudget) : Nat :=
  heldSlots b.ptz + b.media.total Slots.remaining + heldSlots b.siren

/-- `charge`: a packet of nobody's reserve; it leaves every reserve whole. -/
def charge (b : AccountOutputBudget) (now : ℚ) (size : Nat) : Except OutputFault Unit × AccountOutputBudget :=
  if size < 1 ∨ 1024 * 1024 < size then (.error .size, b)
  else
    match b.traffic.charge now size b.reserved with
    | (.error _, traffic) => (.error .exhausted, { b with traffic := traffic })
    | (.ok (), traffic) => (.ok (), { b with traffic := traffic })

/-- The common part of the three `reserve_…`: refuse while `full`, then ask
for `slots` more packets than are reserved. -/
def withhold (b : AccountOutputBudget) (now : ℚ) (full : Bool) (slots : Nat) (refusal : OutputFault) :
    Except OutputFault Unit × AccountOutputBudget :=
  if full then (.error refusal, b)
  else
    match b.traffic.available now (b.reserved + slots) ((b.reserved + slots) * 4096) with
    | (.error e, traffic) => (.error (.traffic e), { b with traffic := traffic })
    | (.ok false, traffic) => (.error refusal, { b with traffic := traffic })
    | (.ok true, traffic) => (.ok (), { b with traffic := traffic })

/-- `reserve_ptz`: the token of the new reserve. -/
def reservePtz (b : AccountOutputBudget) (now : ℚ) : Except OutputFault Nat × AccountOutputBudget :=
  match b.withhold now b.ptz.isSome 6 .ptzCapacity with
  | (.error e, b) => (.error e, b)
  | (.ok (), b) => (.ok b.nextToken, { b with ptz := some (b.nextToken, ptzSlots), nextToken := b.nextToken + 1 })

/-- `reserve_siren`. -/
def reserveSiren (b : AccountOutputBudget) (now : ℚ) : Except OutputFault Nat × AccountOutputBudget :=
  match b.withhold now b.siren.isSome 12 .sirenCapacity with
  | (.error e, b) => (.error e, b)
  | (.ok (), b) => (.ok b.nextToken, { b with siren := some (b.nextToken, sirenSlots), nextToken := b.nextToken + 1 })

/-- `reserve_media`. -/
def reserveMedia (b : AccountOutputBudget) (now : ℚ) : Except OutputFault Nat × AccountOutputBudget :=
  match b.withhold now (decide (b.mediaCapacity ≤ b.media.size)) 2 .mediaCapacity with
  | (.error e, b) => (.error e, b)
  | (.ok (), b) =>
    (.ok b.nextToken, { b with media := b.media.set b.nextToken mediaSlots, nextToken := b.nextToken + 1 })

/-- The common part of the three reserves' `charge`: the debit, and the slots
left. -/
def debit {κ : Type} [DecidableEq κ] (traffic : TrafficBudget) (now : ℚ) (slots : Option (Slots κ)) (kind : κ)
    (size : Nat) (refusal : OutputFault) : Except OutputFault (Slots κ) × TrafficBudget :=
  match slots with
  | none => (.error refusal, traffic)
  | some slots =>
    if slots kind = 0 ∨ size < 1 ∨ 4096 < size then (.error refusal, traffic)
    else
      match traffic.charge now size with
      | (.error e, traffic) => (.error (.traffic e), traffic)
      | (.ok (), traffic) => (.ok (Function.update slots kind (slots kind - 1)), traffic)

/-- `PtzOutputReserve.charge`. -/
def chargePtz (b : AccountOutputBudget) (now : ℚ) (token : Nat) (kind : PtzKind) (size : Nat) :
    Except OutputFault Unit × AccountOutputBudget :=
  match debit b.traffic now (slotsOf b.ptz token) kind size .ptzReservation with
  | (.error e, traffic) => (.error e, { b with traffic := traffic })
  | (.ok slots, traffic) => (.ok (), { b with traffic := traffic, ptz := some (token, slots) })

/-- `SirenOutputReserve.charge`. -/
def chargeSiren (b : AccountOutputBudget) (now : ℚ) (token : Nat) (kind : SirenKind) (size : Nat) :
    Except OutputFault Unit × AccountOutputBudget :=
  match debit b.traffic now (slotsOf b.siren token) kind size .sirenReservation with
  | (.error e, traffic) => (.error e, { b with traffic := traffic })
  | (.ok slots, traffic) => (.ok (), { b with traffic := traffic, siren := some (token, slots) })

/-- `MediaOutputReserve.charge`. -/
def chargeMedia (b : AccountOutputBudget) (now : ℚ) (token : Nat) (kind : MediaKind) (size : Nat) :
    Except OutputFault Unit × AccountOutputBudget :=
  match debit b.traffic now (b.media.get? token) kind size .mediaReservation with
  | (.error e, traffic) => (.error e, { b with traffic := traffic })
  | (.ok slots, traffic) => (.ok (), { b with traffic := traffic, media := b.media.set token slots })

/-- `PtzOutputReserve.close`. -/
def closePtz (b : AccountOutputBudget) (token : Nat) : AccountOutputBudget :=
  if (slotsOf b.ptz token).isSome then { b with ptz := none } else b

/-- `SirenOutputReserve.close`. -/
def closeSiren (b : AccountOutputBudget) (token : Nat) : AccountOutputBudget :=
  if (slotsOf b.siren token).isSome then { b with siren := none } else b

/-- `MediaOutputReserve.close`. -/
def closeMedia (b : AccountOutputBudget) (token : Nat) : AccountOutputBudget :=
  { b with media := b.media.erase token }

end AccountOutputBudget

/-- The operations on an account's output. -/
inductive OutputOp where
  | charge (size : Nat)
  | reservePtz
  | reserveSiren
  | reserveMedia
  | chargePtz (token : Nat) (kind : PtzKind) (size : Nat)
  | chargeSiren (token : Nat) (kind : SirenKind) (size : Nat)
  | chargeMedia (token : Nat) (kind : MediaKind) (size : Nat)
  | closePtz (token : Nat)
  | closeSiren (token : Nat)
  | closeMedia (token : Nat)
  deriving DecidableEq, Repr

/-- The budget after an operation at time `now`. -/
def OutputOp.run (op : OutputOp) (now : ℚ) (b : AccountOutputBudget) : AccountOutputBudget :=
  match op with
  | .charge size => (b.charge now size).2
  | .reservePtz => (b.reservePtz now).2
  | .reserveSiren => (b.reserveSiren now).2
  | .reserveMedia => (b.reserveMedia now).2
  | .chargePtz token kind size => (b.chargePtz now token kind size).2
  | .chargeSiren token kind size => (b.chargeSiren now token kind size).2
  | .chargeMedia token kind size => (b.chargeMedia now token kind size).2
  | .closePtz token => b.closePtz token
  | .closeSiren token => b.closeSiren token
  | .closeMedia token => b.closeMedia token

/-- An operation on the reserve object `token`. -/
def OutputOp.on (token : Nat) : OutputOp → Bool
  | .chargePtz t _ _ | .chargeSiren t _ _ | .chargeMedia t _ _ => t = token
  | .closePtz t | .closeSiren t | .closeMedia t => t = token
  | _ => false

end CamGuard.Account
