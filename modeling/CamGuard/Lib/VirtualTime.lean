/-
Pacing by one virtual time: a call is met unless the virtual time is too far ahead of the
clock, and what is met pushes the virtual time on by an interval. Over any linearly ordered
field, and whatever the clock does: in every window no more calls are met than the burst
and one for each interval of the window (`count_window`).
-/
import Mathlib.Algebra.Order.Field.Basic
import Mathlib.Tactic.Linarith
import Mathlib.Tactic.Ring

namespace CamGuard

structure Pacing (K : Type) [Field K] [LinearOrder K] where
  burst : Nat
  interval : K
  burst_pos : 1 ≤ burst
  interval_pos : 0 < interval

namespace Pacing

variable {K : Type} [Field K] [LinearOrder K] (P : Pacing K)

/-- When the next call is met, at the earliest. -/
def earliest (next : K) : K := next - (P.burst - 1) * P.interval

/-- The virtual time after a call. -/
def after (next now : K) : K := if now < P.earliest next then next else max now next + P.interval

/-- The times of the calls that are met. -/
def met (next : K) : List K → List K
  | [] => []
  | now :: times => if now < P.earliest next then met next times else now :: met (P.after next now) times

theorem after_refused {next now : K} (h : now < P.earliest next) : P.after next now = next := if_pos h

theorem after_met {next now : K} (h : ¬now < P.earliest next) : P.after next now = max now next + P.interval := if_neg h

variable [IsStrictOrderedRing K]

theorem le_after (next now : K) : next ≤ P.after next now := by
  have hpos := P.interval_pos
  unfold after
  split
  · exact le_rfl
  · linarith [le_max_right now next]

/-- What a window has left is what lies between the virtual time and the end of the burst. -/
theorem count_met (s t : K) (hst : s ≤ t) (next : K) (times : List K) :
    ((P.met next times).countP fun now => s ≤ now ∧ now ≤ t) * P.interval ≤
      max 0 (t + P.burst * P.interval - max next s) := by
  have hpos := P.interval_pos
  induction times generalizing next with
  | nil => simp [met]
  | cons now times ih =>
    unfold met
    split
    · exact ih next
    · next hmet =>
      have hlater := ih (P.after next now)
      have hnext := P.le_after next now
      by_cases hin : s ≤ now ∧ now ≤ t
      · have hearliest : next ≤ now + (P.burst - 1) * P.interval := by
          unfold earliest at hmet
          linarith [not_lt.mp hmet]
        have hroom : 0 ≤ ((P.burst : K) - 1) * P.interval := by
          have hburst : (1 : K) ≤ P.burst := by exact_mod_cast P.burst_pos
          exact mul_nonneg (by linarith) hpos.le
        have hexpand : ((P.burst : K) - 1) * P.interval = P.burst * P.interval - P.interval := by ring
        have hstarts : max next s + P.interval ≤ max (P.after next now) s := by
          refine le_trans ?_ (le_max_left _ _)
          rw [P.after_met hmet]
          have hle : max next s ≤ max now next := max_le (le_max_right _ _) (hin.1.trans (le_max_left _ _))
          linarith
        have hfits : max next s ≤ t + P.burst * P.interval - P.interval := by
          refine max_le ?_ ?_ <;> linarith [hin.2]
        rw [List.countP_cons_of_pos (by simpa using hin), Nat.cast_add, Nat.cast_one, add_mul, one_mul]
        rw [le_max_iff]
        right
        rcases le_max_iff.mp hlater with hzero | hsome
        · linarith
        · linarith
      · rw [List.countP_cons_of_neg (by simpa using hin)]
        refine hlater.trans (max_le_max le_rfl ?_)
        linarith [max_le_max hnext (le_refl s)]

/-- **A window meets the burst and one call for each interval in it**, whatever the clock
does. -/
theorem count_window {s t : K} (hst : s ≤ t) (next : K) (times : List K) :
    (((P.met next times).countP fun now => s ≤ now ∧ now ≤ t : Nat) : K) ≤ P.burst + (t - s) / P.interval := by
  have hpos := P.interval_pos
  have hcount := P.count_met s t hst next times
  have hburst : 0 ≤ (P.burst : K) * P.interval := mul_nonneg (Nat.cast_nonneg _) hpos.le
  have hbound : max 0 (t + P.burst * P.interval - max next s) ≤ P.burst * P.interval + (t - s) := by
    refine max_le ?_ ?_
    · linarith
    · linarith [le_max_right next s]
  have hsplit : ((P.burst : K) + (t - s) / P.interval) * P.interval = P.burst * P.interval + (t - s) := by
    rw [add_mul, div_mul_cancel₀ _ hpos.ne']
  refine le_of_mul_le_mul_right ?_ hpos
  rw [hsplit]
  exact hcount.trans hbound

end Pacing

end CamGuard
