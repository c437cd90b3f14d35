/-
Sequence numbers that wrap at `2^32`, and the positions they stand for.

A stream numbers its items from some first number on; `number` is the number
on the wire, the position the place in the stream. A receiver sees only
numbers and compares them by their forward `distance`. The one fact that
matters is that within half the circle the distance gives the position back,
on the right side of the receiver's own.
-/
import Mathlib.Algebra.Group.Int.Defs
import Mathlib.Algebra.Group.Nat.Defs
import Mathlib.Data.Int.Notation
import Mathlib.Data.List.Nodup
import Mathlib.Data.List.Perm.Subperm
import Mathlib.Tactic.Common

namespace CamGuard.Serial

/-- The number at position `i` of a stream whose first number is `first`. -/
def number (first i : Nat) : Nat := (first + i) % 2 ^ 32

/-- `(a - b) & 0xFFFFFFFF`. -/
def distance (a b : Nat) : Nat := (((a : Int) - b) % 2 ^ 32).toNat

theorem number_lt (first i : Nat) : number first i < 2 ^ 32 := Nat.mod_lt _ (by decide)

theorem number_zero {first : Nat} (h : first < 2 ^ 32) : number first 0 = first := by
  unfold number
  omega

theorem number_succ (first i : Nat) : (number first i + 1) % 2 ^ 32 = number first (i + 1) := by
  unfold number
  omega

/-- At or ahead of the receiver, by less than half the circle. -/
theorem distance_ahead {first i n : Nat} (h : n ≤ i) (hw : i < n + 2 ^ 31) :
    distance (number first i) (number first n) = i - n := by
  unfold distance number
  omega

/-- Behind the receiver, by at most half the circle. -/
theorem distance_behind {first i n : Nat} (h : i < n) (hw : n ≤ i + 2 ^ 31) :
    2 ^ 31 ≤ distance (number first i) (number first n) := by
  unfold distance number
  omega

/-- Positions less than a circle apart have different numbers. -/
theorem number_inj {first i j n : Nat} (hi : n ≤ i) (hi' : i < n + 2 ^ 31) (hj : n ≤ j) (hj' : j < n + 2 ^ 31)
    (h : number first i = number first j) : i = j := by
  unfold number at h
  omega

/-! ## Positions seen -/

/-- How many positions from the first on are all among `seen`. -/
def contiguous (seen : List Nat) : Nat := ((List.range seen.length).takeWhile (· ∈ seen)).length

theorem contiguous_eq {seen : List Nat} {n : Nat} (hall : ∀ i < n, i ∈ seen) (hn : n ∉ seen) :
    contiguous seen = n := by
  -- The first `n` positions are distinct members of `seen`, so it is that long.
  have hle : n ≤ seen.length := by
    simpa using (List.nodup_range.subperm fun i hi => hall i (List.mem_range.mp hi)).length_le
  obtain ⟨m, hm⟩ : ∃ m, seen.length = n + m := ⟨seen.length - n, by omega⟩
  have hfirst : ∀ i ∈ List.range n, decide (i ∈ seen) = true := fun i hi => by
    simpa using hall i (List.mem_range.mp hi)
  have hrest : ((List.range m).map (n + ·)).takeWhile (· ∈ seen) = [] := by
    cases m with
    | zero => rfl
    | succ m =>
      rw [List.range_succ_eq_map, List.map_cons, List.takeWhile_cons_of_neg]
      simpa using hn
  rw [contiguous, hm, List.range_add, List.takeWhile_append_of_pos hfirst, hrest, List.append_nil,
    List.length_range]

end CamGuard.Serial
