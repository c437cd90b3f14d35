/-
Arithmetic that rounds. A program computes a sum of two readings of its clock and
rounds it; what is proved with `[Rounding]` holds however it rounds. `exact`, the
instance that is found where none is named, does not round at all, and `double` rounds
as IEEE 754 binary64 does.
-/
import Mathlib.Data.Rat.Floor

namespace CamGuard

/-- How the result of an operation is rounded; what is not above zero stays so. -/
class Rounding where
  round : ℚ → ℚ
  pos_of_round_pos : ∀ {q : ℚ}, 0 < round q → 0 < q

namespace Rounding

instance exact : Rounding := ⟨id, id⟩

@[simp] theorem round_exact (q : ℚ) : exact.round q = q := rfl

/-- The nearest integer, and of two the even one. -/
def nearestEven (q : ℚ) : ℤ :=
  let below := q.floor
  let rest := q - below
  if rest < 1 / 2 ∨ (rest = 1 / 2 ∧ below % 2 = 0) then below else below + 1

theorem nearestEven_nonpos {q : ℚ} (h : q ≤ 0) : nearestEven q ≤ 0 := by
  have hfloor := Rat.floor_le q
  have hbelow : q.floor ≤ 0 := by exact_mod_cast hfloor.trans h
  unfold nearestEven
  simp only
  split
  · exact hbelow
  next hup =>
    -- zero is not rounded up
    have hne : q.floor ≠ 0 := by
      intro hzero
      have hq : q = 0 := le_antisymm h (by simpa [hzero] using hfloor)
      rw [hzero, hq] at hup
      norm_num at hup
    omega

/-- `2 ^ e`. -/
def binary (e : ℤ) : ℚ := if 0 ≤ e then (2 ^ e.toNat : ℕ) else 1 / (2 ^ (-e).toNat : ℕ)

theorem binary_pos (e : ℤ) : 0 < binary e := by
  unfold binary
  split <;> positivity

/-- The `e` with `2 ^ e ≤ |q| < 2 ^ (e + 1)`. -/
def exponent (q : ℚ) : ℤ :=
  let e : ℤ := q.num.natAbs.log2 - q.den.log2
  if |q| < binary e then e - 1 else e

/-- The place of the last of the 53 bits, which below `2 ^ -1022` are fewer. -/
def lastPlace (q : ℚ) : ℤ := max (exponent q - 52) (-1074)

/-- To nearest, ties to even; below `2 ^ 1024`, where nothing overflows. -/
@[reducible] def double : Rounding where
  round q := nearestEven (q / binary (lastPlace q)) * binary (lastPlace q)
  pos_of_round_pos := by
    intro q hround
    by_contra hnot
    have hquotient : q / binary (lastPlace q) ≤ 0 := div_nonpos_of_nonpos_of_nonneg (not_lt.mp hnot) (binary_pos _).le
    have hnearest : (nearestEven (q / binary (lastPlace q)) : ℚ) ≤ 0 := by exact_mod_cast nearestEven_nonpos hquotient
    exact absurd hround (not_lt.mpr (mul_nonpos_of_nonpos_of_nonneg hnearest (binary_pos _).le))

/-- The double `0.1`. -/
example : double.round (1 / 10) = 3602879701896397 / 36028797018963968 := by decide +kernel

end Rounding

end CamGuard
