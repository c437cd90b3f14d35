/-
Runs of a machine whose steps are calls, each with what it reads of the clock: one
time, or any number of readings. Where times do not go back, what a step preserves
from one time to a later one, a whole run preserves (`Machine.run_inv`).
-/
import Mathlib.Algebra.Order.Field.Rat

namespace CamGuard

/-- The times of `calls` do not go back, and start at `t` or later. -/
def Clocked {ι : Type} (t : ℚ) : List (ℚ × ι) → Prop
  | [] => True
  | (now, _) :: calls => t ≤ now ∧ Clocked now calls

instance Clocked.decidable {ι : Type} : (t : ℚ) → (calls : List (ℚ × ι)) → Decidable (Clocked t calls)
  | _, [] => .isTrue trivial
  | t, (now, _) :: calls =>
    have := Clocked.decidable now calls
    inferInstanceAs (Decidable (t ≤ now ∧ Clocked now calls))

/-- The time of the last call, or `t` before the first. -/
def endTime {ι : Type} (t : ℚ) : List (ℚ × ι) → ℚ
  | [] => t
  | (now, _) :: calls => endTime now calls

/-- The clock of the calls before one, of the call and of the calls after. -/
theorem Clocked.split {ι : Type} {t now : ℚ} {before after : List (ℚ × ι)} {call : ι}
    (h : Clocked t (before ++ (now, call) :: after)) :
    Clocked t before ∧ endTime t before ≤ now ∧ Clocked now after := by
  induction before generalizing t with
  | nil => exact ⟨trivial, h.1, h.2⟩
  | cons first before ih =>
    obtain ⟨hbefore, hnow, hafter⟩ := ih h.2
    exact ⟨⟨h.1, hbefore⟩, hnow, hafter⟩

/-- The clock of the first calls, and of the rest from where they end. -/
theorem Clocked.append {ι : Type} {t : ℚ} {before after : List (ℚ × ι)} (h : Clocked t (before ++ after)) :
    Clocked t before ∧ Clocked (endTime t before) after := by
  induction before generalizing t with
  | nil => exact ⟨trivial, h⟩
  | cons first before ih =>
    obtain ⟨hbefore, hafter⟩ := ih h.2
    exact ⟨⟨h.1, hbefore⟩, hafter⟩

/-- The next call is not before the last one. -/
theorem Clocked.endTime_le {ι : Type} {t now : ℚ} {calls : List (ℚ × ι)} {call : ι}
    (h : Clocked t (calls ++ [(now, call)])) : endTime t calls ≤ now := h.split.2.1

namespace Machine

variable {τ σ ι : Type}

/-- The state after the calls. -/
def run (step : τ → ι → σ → σ) (s : σ) (calls : List (τ × ι)) : σ :=
  calls.foldl (fun s call => step call.1 call.2 s) s

theorem run_append (step : τ → ι → σ → σ) (s : σ) (before after : List (τ × ι)) :
    run step s (before ++ after) = run step (run step s before) after := List.foldl_append ..

/-- **What every step keeps, a run keeps**, at the time it has reached. -/
theorem run_inv {step : ℚ → ι → σ → σ} {Inv : ℚ → σ → Prop}
    (hstep : ∀ {t now : ℚ} (call : ι) {s : σ}, t ≤ now → Inv t s → Inv now (step now call s))
    {t : ℚ} {s : σ} {calls : List (ℚ × ι)} (hclock : Clocked t calls) (h : Inv t s) :
    Inv (endTime t calls) (run step s calls) := by
  induction calls generalizing t s with
  | nil => exact h
  | cons call calls ih => exact ih hclock.2 (hstep call.2 hclock.1 h)

/-- What every step keeps from states in which its call is fit (`Ok`), a run of
fit calls keeps. -/
theorem run_keeps_of {step : τ → ι → σ → σ} {Inv : σ → Prop} {Ok : σ → ι → Prop}
    (hstep : ∀ now call s, Inv s → Ok s call → Inv (step now call s)) {s : σ} {calls : List (τ × ι)}
    (hok : ∀ before now call after, calls = before ++ (now, call) :: after → Ok (run step s before) call)
    (h : Inv s) : Inv (run step s calls) := by
  induction calls generalizing s with
  | nil => exact h
  | cons call calls ih =>
    refine ih (fun before now next after hsplit => ?_) (hstep call.1 call.2 s h (hok [] call.1 call.2 calls rfl))
    exact hok (call :: before) now next after (by rw [hsplit, List.cons_append])

/-- What every step keeps at any time, a run keeps. -/
theorem run_keeps {step : τ → ι → σ → σ} {Inv : σ → Prop} (hstep : ∀ now call s, Inv s → Inv (step now call s))
    {s : σ} {calls : List (τ × ι)} (h : Inv s) : Inv (run step s calls) := by
  have hfit := @run_keeps_of τ σ ι step Inv (fun _ _ => True)
  exact hfit (fun now call s hs _ => hstep now call s hs) (fun _ _ _ _ _ => trivial) h

end Machine

end CamGuard
