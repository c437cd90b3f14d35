/-
The rate of a media session (`media_policy.py`): three credits, for octets received,
octets sent and records framed. Each is full at the start and is replenished in one
second; a charge that any of them does not cover is refused.
-/
import Mathlib.Algebra.Order.Field.Rat
import Mathlib.Data.Fintype.Basic
import CamGuard.Lib.TokenBucket

namespace CamGuard.Media

/-- What the budget counts. -/
inductive MediaDimension where
  | rx
  | tx
  | records
  deriving DecidableEq, Repr

instance : Fintype MediaDimension := ⟨{.rx, .tx, .records}, fun dim => by cases dim <;> decide⟩

/-- `_limits`. -/
def MediaDimension.limit : MediaDimension → Nat
  | .rx => 2 * 1024 * 1024
  | .tx => 256 * 1024
  | .records => 4096

/-- The errors of `MediaRateBudget`. -/
inductive MediaRateFault where
  | charge
  | clock
  | exhausted
  deriving DecidableEq, Repr

def MediaRateFault.reason : MediaRateFault → String
  | .charge => "invalid media charge"
  | .clock => "invalid media clock"
  | .exhausted => "media rate exhausted"

/-- `MediaRateBudget`. -/
structure MediaRateBudget where
  credit : MediaDimension → ℚ
  last : ℚ

/-- The arguments of a charge, and the clock when it is made. -/
structure MediaCharge where
  now : ℚ
  costs : MediaDimension → Int

namespace MediaRateBudget

/-- `MediaRateBudget(…)`. -/
def new (now : ℚ) : MediaRateBudget := ⟨fun dim => dim.limit, now⟩

def refill (b : MediaRateBudget) (now : ℚ) : MediaRateBudget :=
  let elapsed := min 1 (now - b.last)
  ⟨fun dim => min dim.limit (b.credit dim + elapsed * dim.limit), now⟩

/-- `charge`. -/
def charge (b : MediaRateBudget) (c : MediaCharge) : Except MediaRateFault Unit × MediaRateBudget :=
  if ∃ dim, c.costs dim < 0 then (.error .charge, b)
  else if c.now < b.last then (.error .clock, b)
  else if ∃ dim, (b.refill c.now).credit dim < c.costs dim then (.error .exhausted, b.refill c.now)
  else (.ok (), ⟨fun dim => (b.refill c.now).credit dim - c.costs dim, c.now⟩)

/-- The charges admitted in a run, and the budget after it. -/
def run (b : MediaRateBudget) : List MediaCharge → List MediaCharge × MediaRateBudget
  | [] => ([], b)
  | c :: cs =>
    let rest := run (b.charge c).2 cs
    (if (b.charge c).1.isOk then c :: rest.1 else rest.1, rest.2)

/-- One limit a second. -/
def limits : TokenBucket.Limits MediaDimension ℚ where
  limit dim := dim.limit
  rate dim := dim.limit
  limit_nonneg dim := dim.limit.cast_nonneg
  rate_nonneg dim := dim.limit.cast_nonneg

/-- The budget as a level of the bucket's library. -/
def level (b : MediaRateBudget) : TokenBucket.Level MediaDimension ℚ := ⟨b.credit, b.last⟩

end MediaRateBudget

/-- And a charge as a demand. -/
def MediaCharge.demand (c : MediaCharge) : TokenBucket.Demand MediaDimension ℚ :=
  ⟨c.now, fun dim => c.costs dim, fun dim => c.costs dim⟩

namespace MediaRateBudget

open TokenBucket

theorem level_new (now : ℚ) : (new now).level.Sound limits :=
  fun dim => ⟨dim.limit.cast_nonneg, le_rfl⟩

/-- A credit is full after a second: more time than that adds nothing. -/
theorem refill_level {b : MediaRateBudget} {now : ℚ} (h : b.level.Sound limits) :
    (b.refill now).level = b.level.refill limits now := by
  unfold refill level Level.refill
  congr 1
  funext dim
  have hcredit : 0 ≤ b.credit dim := (h dim).1
  have hlimit : (0 : ℚ) ≤ dim.limit := dim.limit.cast_nonneg
  dsimp only [limits]
  rcases le_total (now - b.last) 1 with hshort | hlong
  · rw [min_eq_right hshort]
  · rw [min_eq_left hlong, one_mul, min_eq_left (le_add_of_nonneg_left hcredit), min_eq_left]
    calc (dim.limit : ℚ) ≤ (now - b.last) * dim.limit := le_mul_of_one_le_left hlimit hlong
      _ ≤ b.credit dim + (now - b.last) * dim.limit := le_add_of_nonneg_left hcredit

theorem charge_level {b : MediaRateBudget} {c : MediaCharge} (h : b.level.Sound limits) (hcosts : ∀ dim, 0 ≤ c.costs dim) :
    (b.charge c).1.isOk = (b.level.spend limits c.demand).1 ∧
      (b.charge c).2.level = (b.level.spend limits c.demand).2 := by
  have hvalid : ¬∃ dim, c.costs dim < 0 := fun ⟨dim, hneg⟩ => absurd (hcosts dim) (not_le.mpr hneg)
  have hfill : (b.refill c.now).level = b.level.refill limits c.demand.now := refill_level h
  have hcovers : (b.level.refill limits c.demand.now).Covers c.demand ↔ ¬∃ dim, (b.refill c.now).credit dim < c.costs dim := by
    rw [← hfill, not_exists]
    exact forall_congr' fun dim => not_lt.symm
  unfold charge
  rw [if_neg hvalid]
  by_cases hpast : c.now < b.last
  · rw [if_pos hpast, Level.spend_past (show c.demand.now < b.level.last from hpast)]
    exact ⟨rfl, rfl⟩
  have hnow : b.level.last ≤ c.demand.now := not_lt.mp hpast
  rw [if_neg hpast]
  by_cases hshort : ∃ dim, (b.refill c.now).credit dim < c.costs dim
  · rw [if_pos hshort, Level.spend_short hnow fun hmet => hcovers.mp hmet hshort]
    exact ⟨rfl, hfill⟩
  · rw [if_neg hshort, Level.spend_met hnow (hcovers.mpr hshort), ← hfill]
    exact ⟨rfl, rfl⟩

theorem charge_invalid {b : MediaRateBudget} {c : MediaCharge} (h : ¬∀ dim, 0 ≤ c.costs dim) :
    b.charge c = (.error .charge, b) := by
  unfold charge
  rw [if_pos]
  obtain ⟨dim, hneg⟩ := not_forall.mp h
  exact ⟨dim, not_le.mp hneg⟩

/-- The budget of a media session as a meter of its three credits. -/
def meter : Meter MediaDimension ℚ MediaRateBudget MediaCharge where
  limits := limits
  demand := MediaCharge.demand
  Valid c := ∀ dim, 0 ≤ c.costs dim
  Known _ := True
  level := level
  charge b c := ((b.charge c).1.isOk, (b.charge c).2)
  fair hvalid dim := ⟨Int.cast_nonneg (hvalid dim), le_rfl⟩
  charge_known _ := trivial
  charge_valid _ h hvalid := charge_level h hvalid
  charge_invalid _ hinvalid := by
    rw [charge_invalid hinvalid]
    rfl

theorem run_meter (b : MediaRateBudget) (cs : List MediaCharge) : b.run cs = meter.run b cs := by
  induction cs generalizing b with
  | nil => rfl
  | cons c cs ih =>
    rw [run, ih]
    rfl

end MediaRateBudget

end CamGuard.Media
