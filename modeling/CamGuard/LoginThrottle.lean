/-
The pacing of logins (`login_throttle.py`): each origin falls into one of 4096 slots, and a
slot is one virtual time. The addresses of `ipaddress` are numbers; how they are read and
written, and the keyed hash, are parameters.
-/
import Mathlib.Algebra.Order.Field.Rat
import Mathlib.Logic.Function.Basic

namespace CamGuard

/-- What `ipaddress.ip_address` gives; an IPv6 address may have a scope. -/
inductive IpAddress where
  | v4 (ip : BitVec 32)
  | v6 (ip : BitVec 128) (scope : Option String)
  deriving DecidableEq, Repr

namespace IpAddress

/-- `ipv4_mapped`. -/
def ipv4Mapped (ip : BitVec 128) : Option IpAddress :=
  if ip >>> 32 = 0xFFFF then some (.v4 (ip.truncate 32)) else none

/-- `ip_network(f"{address}/64", strict=False).network_address`: the scope stays where the
address is its own network. -/
def network64 (ip : BitVec 128) (scope : Option String) : IpAddress :=
  let network := ip &&& (BitVec.allOnes 128 <<< 64)
  if network = ip then .v6 ip scope else .v6 network none

end IpAddress

/-- The standard library: `ipaddress.ip_address`, none where it raises, `str` of an address, and
`blake2s` under the salt, as the number of its four bytes. -/
structure LoginHosts where
  parse : String → Option IpAddress
  text : IpAddress → String
  digest : String → BitVec 32

namespace LoginThrottle

def BURST : Nat := 10
def INTERVAL : ℚ := 6
def SLOTS : Nat := 4096

end LoginThrottle

structure LoginThrottle where
  next : Fin LoginThrottle.SLOTS → ℚ := fun _ => 0

namespace LoginThrottle

variable (hosts : LoginHosts)

/-- `_slot`. -/
def slot (host : String) : Fin SLOTS :=
  let identity :=
    match hosts.parse host with
    | none => "unknown"
    | some (.v4 ip) => hosts.text (.v4 ip)
    | some (.v6 ip scope) => hosts.text ((IpAddress.ipv4Mapped ip).getD (IpAddress.network64 ip scope))
  ⟨(hosts.digest identity).toNat % SLOTS, Nat.mod_lt _ (by decide)⟩

/-- `retry_after`, at the time it has the lock. -/
def retryAfter (host : String) (now : ℚ) (t : LoginThrottle) : Int × LoginThrottle :=
  let slot := slot hosts host
  let earliest := t.next slot - (BURST - 1) * INTERVAL
  if now < earliest then ((earliest - now).ceil, t)
  else (0, { t with next := Function.update t.next slot (max now (t.next slot) + INTERVAL) })

/-- A call, and what it has given. -/
structure Attempt where
  now : ℚ
  host : String
  answer : Int
  deriving DecidableEq, Repr

/-- The calls in the order in which they have the lock. -/
def run (t : LoginThrottle) : List (ℚ × String) → List Attempt × LoginThrottle
  | [] => ([], t)
  | (now, host) :: calls =>
    let first := t.retryAfter hosts host now
    let rest := first.2.run calls
    (⟨now, host, first.1⟩ :: rest.1, rest.2)

end LoginThrottle

end CamGuard
