/-
The sequence namespace of one authenticated account generation
(`broker_sequences.py`): identifiers are handed out upwards, in groups, and
never twice; closing retires the namespace for good.
-/
import Mathlib.Algebra.Group.Nat.Defs
import Mathlib.Data.List.Range

namespace CamGuard.Account

inductive SequenceFault where
  | identity
  | count
  | closed
  | exhausted
  deriving DecidableEq, Repr

def SequenceFault.reason : SequenceFault → String
  | .identity => "invalid broker sequence identity"
  | .count => "sequence reservation must contain 1..64 IDs"
  | .closed => "broker sequence namespace closed"
  | .exhausted => "broker sequence exhausted; new generation required"

structure BrokerSequences where
  session : Nat
  generation : Nat
  next : Nat
  closed : Bool := false
  session_lt : session < 2 ^ 64
  generation_pos : 0 < generation
  next_le : next ≤ 2 ^ 32

namespace BrokerSequences

/-- `BrokerSequences(…)`. -/
def new (session generation next : Nat) : Except SequenceFault BrokerSequences :=
  if h : 0 < session ∧ session < 2 ^ 64 ∧ 0 < generation ∧ next < 2 ^ 32 then
    .ok {
      session := session
      generation := generation
      next := next
      session_lt := h.2.1
      generation_pos := h.2.2.1
      next_le := Nat.le_of_lt h.2.2.2 }
  else .error .identity

/-- `matches`. -/
def matchesIdentity (s : BrokerSequences) (session generation : Nat) : Bool :=
  !s.closed && session == s.session && generation == s.generation

/-- `reserve`: the identifiers of a command group. -/
def reserve (s : BrokerSequences) (count : Nat) : Except SequenceFault (List Nat) × BrokerSequences :=
  if count < 1 ∨ 64 < count then (.error .count, s)
  else if s.closed then (.error .closed, s)
  else if h : 2 ^ 32 < s.next + count then (.error .exhausted, s)
  else (.ok (List.range' s.next count), { s with next := s.next + count, next_le := Nat.le_of_not_lt h })

/-- `allocate`. -/
def allocate (s : BrokerSequences) : Except SequenceFault Nat × BrokerSequences :=
  match s.reserve 1 with
  | (.error e, s) => (.error e, s)
  | (.ok ids, s) => (.ok (ids.headD 0), s)

def close (s : BrokerSequences) : BrokerSequences :=
  { s with closed := true, session := 0, session_lt := by decide }

end BrokerSequences

end CamGuard.Account
