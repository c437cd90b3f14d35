/-
Pieces of Lempel–Ziv decoders: a back reference that is copied element by element and
may reach into what it writes, and a ring that holds the last entries at each index.
Nothing here is about one format.
-/
import Mathlib.Data.List.Basic

namespace CamGuard.Lz

variable {α : Type}

/-! ## Back references -/

/-- `for offset in range(n): output.append(output[reference + offset])`. -/
def copy (reference : Nat) : Nat → List α → Option (List α)
  | 0, output => some output
  | n + 1, output =>
    match output[reference]? with
    | none => none
    | some x => copy (reference + 1) n (output ++ [x])

variable [Inhabited α]

/-- The first `n` elements of a period that is repeated. -/
def cycle (period : List α) (n : Nat) : List α := (List.range n).map fun i => period.getD (i % period.length) default

@[simp] theorem length_cycle (period : List α) (n : Nat) : (cycle period n).length = n := by simp [cycle]

theorem cycle_succ (period : List α) (n : Nat) :
    cycle period (n + 1) = cycle period n ++ [period.getD (n % period.length) default] := by
  simp [cycle, List.range_succ]

theorem getElem?_cycle {period : List α} (h : period ≠ []) (n : Nat) :
    (period ++ cycle period n)[n]? = some (period.getD (n % period.length) default) := by
  have hpos := List.length_pos_iff.mpr h
  by_cases hlt : n < period.length
  · rw [List.getElem?_append_left hlt, Nat.mod_eq_of_lt hlt, List.getD_eq_getElem?_getD, List.getElem?_eq_getElem hlt]
    rfl
  · have hmod : n % period.length = (n - period.length) % period.length := Nat.mod_eq_sub_mod (Nat.not_lt.mp hlt)
    rw [List.getElem?_append_right (Nat.not_lt.mp hlt), cycle, List.getElem?_map, List.getElem?_range (by omega), hmod]
    rfl

/-- **A back reference repeats what lies between it and the end.** -/
theorem copy_cycle (before : List α) {period : List α} (h : period ≠ []) (n : Nat) :
    copy before.length n (before ++ period) = some (before ++ period ++ cycle period n) := by
  have hgo : ∀ n k, copy (before.length + k) n (before ++ (period ++ cycle period k)) =
      some (before ++ (period ++ cycle period (k + n))) := by
    intro n
    induction n with
    | zero => exact fun k => rfl
    | succ n ih =>
      intro k
      have hget : (before ++ (period ++ cycle period k))[before.length + k]? =
          some (period.getD (k % period.length) default) := by
        rw [List.getElem?_append_right (Nat.le_add_right ..), Nat.add_sub_cancel_left, getElem?_cycle h]
      rw [copy, hget]
      have hnext := ih (k + 1)
      rw [cycle_succ, ← Nat.add_assoc] at hnext
      simp only [List.append_assoc] at hnext ⊢
      rw [hnext, Nat.add_right_comm]
      rfl
  have hall := hgo n 0
  simp only [cycle, List.range_zero, List.map_nil, List.append_nil, Nat.add_zero, Nat.zero_add] at hall
  rw [hall, List.append_assoc]
  rfl

theorem copy_eq {output : List α} {reference : Nat} (h : reference < output.length) (n : Nat) :
    copy reference n output = some (output ++ cycle (output.drop reference) n) := by
  have hperiod : output.drop reference ≠ [] := by
    rw [ne_eq, List.drop_eq_nil_iff]
    omega
  have hcopy := copy_cycle (output.take reference) hperiod n
  rwa [List.take_append_drop, List.length_take_of_le (Nat.le_of_lt h)] at hcopy

/-! ## Rings -/

omit [Inhabited α]

/-- The last entry whose index is the slot's, modulo the size of the ring. -/
def lastAt (size slot : Nat) (entries : List α) : Option α :=
  (entries.zipIdx.filter fun e => decide (e.2 % size = slot)).getLast?.map Prod.fst

@[simp] theorem lastAt_nil (size slot : Nat) : lastAt size slot ([] : List α) = none := rfl

theorem lastAt_snoc (size slot : Nat) (entries : List α) (x : α) :
    lastAt size slot (entries ++ [x]) = if entries.length % size = slot then some x else lastAt size slot entries := by
  have hindex : (entries ++ [x]).zipIdx = entries.zipIdx ++ [(x, entries.length)] := by
    rw [List.zipIdx_append]
    simp
  rw [lastAt, hindex, List.filter_append]
  by_cases hslot : entries.length % size = slot
  · simp [hslot]
  · simp [hslot, lastAt]

theorem lastAt_mem {size slot : Nat} {entries : List α} {x : α} (h : lastAt size slot entries = some x) : x ∈ entries := by
  obtain ⟨e, he, rfl⟩ := Option.map_eq_some_iff.mp h
  have hmem := (List.mem_filter.mp (List.mem_of_getLast? he)).1
  exact List.fst_mem_of_mem_zipIdx hmem

end CamGuard.Lz
