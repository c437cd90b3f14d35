/-
A latch: one holder at a time, and a holder that leaves it in doubt closes it
for good. A log of takings and releases that the latch allows shows, between two
takings, the release of the first one in good order (`Latch.released`).
-/
import Mathlib.Data.List.Basic

namespace CamGuard

inductive Latch (κ : Type) where
  | free
  | held (key : κ)
  /-- Released in doubt. -/
  | jammed
  deriving DecidableEq

namespace Latch

/-- What happens to a latch; a release says whether it is in good order. -/
inductive Move (κ : Type) where
  | take (key : κ)
  | release (key : κ) (settled : Bool)
  deriving DecidableEq

variable {κ : Type} [DecidableEq κ]

/-- The latch after a move it allows. -/
def step : Latch κ → Move κ → Option (Latch κ)
  | .free, .take key => some (.held key)
  | .held key, .release other settled => if key = other then some (if settled then .free else .jammed) else none
  | _, _ => none

/-- The latch after moves all of which it allows. -/
def run (l : Latch κ) (moves : List (Move κ)) : Option (Latch κ) := moves.foldlM step l

theorem run_cons (l : Latch κ) (m : Move κ) (moves : List (Move κ)) :
    l.run (m :: moves) = (l.step m).bind fun l => l.run moves := rfl

theorem run_append (l : Latch κ) (before after : List (Move κ)) :
    l.run (before ++ after) = (l.run before).bind fun l => l.run after := List.foldlM_append

theorem run_snoc {l l' : Latch κ} {moves : List (Move κ)} (h : l.run moves = some l') (m : Move κ) :
    l.run (moves ++ [m]) = l'.step m := by
  rw [run_append, h, Option.bind_some, run_cons]
  cases l'.step m <;> rfl

/-- Nothing is allowed any more. -/
theorem run_jammed {moves : List (Move κ)} {l : Latch κ} (h : run .jammed moves = some l) : l = .jammed := by
  cases moves with
  | nil =>
    cases h
    rfl
  | cons m moves => cases h

/-- The state in which a latch is taken. -/
theorem run_take {l l' : Latch κ} {key : κ} {moves : List (Move κ)} (h : l.run (.take key :: moves) = some l') :
    l = .free ∧ run (.held key) moves = some l' := by
  cases l with
  | free => exact ⟨rfl, h⟩
  | held other => cases h
  | jammed => cases h

/-- What is held and then free was first released, in good order. -/
theorem run_held {key : κ} {moves : List (Move κ)} (h : run (.held key) moves = some .free) :
    ∃ rest, moves = .release key true :: rest := by
  cases moves with
  | nil => cases h
  | cons m rest =>
    cases m with
    | take other => cases h
    | release other settled =>
      rw [run_cons, step] at h
      by_cases hkey : key = other
      · subst hkey
        rw [if_pos rfl, Option.bind_some] at h
        cases settled with
        | true => exact ⟨rest, rfl⟩
        | false => cases run_jammed h
      · rw [if_neg hkey] at h
        cases h

/-- **Before the latch is taken again, who had it has released it in good
order.** -/
theorem released {l : Latch κ} {before between after : List (Move κ)} {earlier key : κ}
    (h : run .free (before ++ .take earlier :: (between ++ .take key :: after)) = some l) :
    ∃ rest, between = .release earlier true :: rest := by
  rw [run_append] at h
  obtain ⟨start, -, h⟩ := Option.bind_eq_some_iff.mp h
  obtain ⟨-, h⟩ := run_take h
  rw [run_append] at h
  obtain ⟨middle, hmiddle, h⟩ := Option.bind_eq_some_iff.mp h
  obtain ⟨rfl, -⟩ := run_take h
  exact run_held hmiddle

end Latch

end CamGuard
