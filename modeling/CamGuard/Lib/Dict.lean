/-
Insertion-ordered dictionaries, as Python's `dict`: a key is held once, a
write to a key that is there keeps its place, a write to a new key goes last.

A dictionary carries the proof that its keys are distinct, so that an entry
and a lookup are the same thing (`get?_eq_some`). `total` sums a weight over
the values; the size is the case of weight one, and the two laws of `total`
are what every byte or slot counter kept beside a dictionary is proved from.
-/
import Mathlib.Algebra.BigOperators.Group.List.Basic
import Mathlib.Algebra.Order.BigOperators.Group.List
import Mathlib.Algebra.Order.Ring.Nat
import Mathlib.Data.List.Nodup
import Mathlib.Data.List.Perm.Subperm

namespace CamGuard

structure Dict (κ β : Type) where
  entries : List (κ × β)
  nodup : (entries.map Prod.fst).Nodup

namespace Dict

variable {κ β : Type}

/-- `{}`. -/
def empty : Dict κ β := ⟨[], List.nodup_nil⟩

instance : EmptyCollection (Dict κ β) := ⟨empty⟩

instance : Inhabited (Dict κ β) := ⟨empty⟩

instance [DecidableEq κ] [DecidableEq β] : DecidableEq (Dict κ β) := fun a b =>
  decidable_of_iff (a.entries = b.entries) (by cases a; cases b; simp)

/-- `keys`, in order. -/
def keys (d : Dict κ β) : List κ := d.entries.map Prod.fst

/-- `values`, in order. -/
def values (d : Dict κ β) : List β := d.entries.map Prod.snd

/-- `len(d)`. -/
def size (d : Dict κ β) : Nat := d.entries.length

/-- The sum of a weight over the values. -/
def total (f : β → Nat) (d : Dict κ β) : Nat := (d.values.map f).sum

variable [DecidableEq κ]

/-- `d.get(k)`. -/
def get? (d : Dict κ β) (k : κ) : Option β := (d.entries.find? fun e => e.1 = k).map Prod.snd

/-- `k in d`. -/
def contains (d : Dict κ β) (k : κ) : Bool := (d.get? k).isSome

/-- `d.pop(k, None)`, without the value. -/
def erase (d : Dict κ β) (k : κ) : Dict κ β :=
  ⟨d.entries.filter fun e => e.1 ≠ k, d.nodup.sublist (List.filter_sublist.map Prod.fst)⟩

/-- The entries with the value at `k` replaced; the keys stay. -/
def replace (k : κ) (v : β) (entries : List (κ × β)) : List (κ × β) :=
  entries.map fun e => if e.1 = k then (k, v) else e

theorem keys_replace (k : κ) (v : β) (entries : List (κ × β)) :
    (replace k v entries).map Prod.fst = entries.map Prod.fst := by
  rw [replace, List.map_map]
  refine List.map_congr_left fun e _ => ?_
  by_cases he : e.1 = k
  · simp [he]
  · simp [he]

/-- Every value replaced, in its place. -/
def mapValues {γ : Type} (f : β → γ) (d : Dict κ β) : Dict κ γ :=
  ⟨d.entries.map fun e => (e.1, f e.2), by rw [List.map_map]; exact d.nodup⟩

/-- `d[k] = v`. -/
def set (d : Dict κ β) (k : κ) (v : β) : Dict κ β :=
  if h : k ∈ d.keys then ⟨replace k v d.entries, by rw [keys_replace]; exact d.nodup⟩
  else ⟨d.entries ++ [(k, v)], by
    rw [List.map_append, List.nodup_append]
    refine ⟨d.nodup, by simp, ?_⟩
    rintro a ha b hb rfl
    obtain rfl : a = k := by simpa using hb
    exact h ha⟩

/-! ## Lookups -/

omit [DecidableEq κ] in
@[ext] theorem ext {a b : Dict κ β} (h : a.entries = b.entries) : a = b := by
  cases a; cases b; cases h; rfl

/-- An entry is what a lookup finds. -/
theorem get?_eq_some {d : Dict κ β} {k : κ} {v : β} : d.get? k = some v ↔ (k, v) ∈ d.entries := by
  unfold get?
  constructor
  · intro h
    obtain ⟨e, he, rfl⟩ := Option.map_eq_some_iff.mp h
    have hk : e.1 = k := by simpa using List.find?_some he
    rw [← hk]
    exact List.mem_of_find?_eq_some he
  · intro h
    cases hf : d.entries.find? fun e => e.1 = k with
    | none =>
      have := List.find?_eq_none.mp hf _ h
      simp at this
    | some e =>
      have hk : e.1 = k := by simpa using List.find?_some hf
      have : e = (k, v) := List.inj_on_of_nodup_map d.nodup (List.mem_of_find?_eq_some hf) h hk
      simp [this]

theorem get?_eq_none {d : Dict κ β} {k : κ} : d.get? k = none ↔ k ∉ d.keys := by
  simp only [get?, Option.map_eq_none_iff, List.find?_eq_none, keys, List.mem_map, not_exists, not_and,
    decide_eq_true_eq]

theorem mem_keys {d : Dict κ β} {k : κ} : k ∈ d.keys ↔ ∃ v, d.get? k = some v := by
  rw [← Option.ne_none_iff_exists', ne_eq, get?_eq_none, not_not]

@[simp] theorem get?_empty (k : κ) : (∅ : Dict κ β).get? k = none := rfl

omit [DecidableEq κ] in
@[simp] theorem size_empty : (∅ : Dict κ β).size = 0 := rfl

omit [DecidableEq κ] in
@[simp] theorem total_empty (f : β → Nat) : (∅ : Dict κ β).total f = 0 := rfl

theorem get?_erase (d : Dict κ β) (k j : κ) : (d.erase k).get? j = if j = k then none else d.get? j := by
  apply Option.ext
  intro v
  rw [get?_eq_some]
  by_cases hj : j = k
  · simp [erase, hj]
  · simp [erase, hj, get?_eq_some]

theorem set_of_none {d : Dict κ β} {k : κ} (h : d.get? k = none) (v : β) :
    (d.set k v).entries = d.entries ++ [(k, v)] := by
  rw [set, dif_neg (get?_eq_none.mp h)]

theorem get?_set (d : Dict κ β) (k : κ) (v : β) (j : κ) :
    (d.set k v).get? j = if j = k then some v else d.get? j := by
  apply Option.ext
  intro w
  rw [get?_eq_some, set]
  by_cases hk : k ∈ d.keys
  · rw [dif_pos hk]
    obtain ⟨u, hu⟩ := mem_keys.mp hk
    simp only [replace, List.mem_map]
    by_cases hj : j = k
    · rw [if_pos hj, hj]
      constructor
      · rintro ⟨e, -, he⟩
        split at he
        · simpa using congrArg Prod.snd he
        · next hne => exact absurd (congrArg Prod.fst he) hne
      · intro hw
        cases hw
        exact ⟨(k, u), get?_eq_some.mp hu, by simp⟩
    · rw [if_neg hj, get?_eq_some]
      constructor
      · rintro ⟨e, hmem, he⟩
        split at he
        · exact absurd (congrArg Prod.fst he).symm hj
        · rwa [← he]
      · intro hmem
        exact ⟨(j, w), hmem, by simp [hj]⟩
  · rw [dif_neg hk]
    have hnone := get?_eq_none.mpr hk
    by_cases hj : j = k
    · have hnot : (k, w) ∉ d.entries := fun hmem => by
        rw [← get?_eq_some, hnone] at hmem
        cases hmem
      simp [hj, hnot, eq_comm]
    · simp [hj, get?_eq_some]

theorem get?_mapValues {γ : Type} (f : β → γ) (d : Dict κ β) (k : κ) :
    (d.mapValues f).get? k = (d.get? k).map f := by
  apply Option.ext
  intro v
  rw [get?_eq_some, Option.map_eq_some_iff]
  constructor
  · intro h
    obtain ⟨e, he, heq⟩ := List.mem_map.mp h
    cases heq
    exact ⟨e.2, get?_eq_some.mpr he, rfl⟩
  · rintro ⟨u, hu, rfl⟩
    exact List.mem_map.mpr ⟨(k, u), get?_eq_some.mp hu, rfl⟩

/-! ## Counters -/

omit [DecidableEq κ] in
theorem size_eq_total (d : Dict κ β) : d.size = d.total fun _ => 1 := by
  simp [size, total, values, Function.comp_def]

/-- A new key adds its weight. -/
theorem total_set_of_none {d : Dict κ β} {k : κ} (h : d.get? k = none) (v : β) (f : β → Nat) :
    (d.set k v).total f = d.total f + f v := by
  simp [total, values, set_of_none h]

/-- A key that goes takes its weight with it. -/
theorem total_erase {d : Dict κ β} {k : κ} {v : β} (h : d.get? k = some v) (f : β → Nat) :
    (d.erase k).total f + f v = d.total f := by
  obtain ⟨pre, post, hsplit⟩ := List.append_of_mem (get?_eq_some.mp h)
  have hnodup := d.nodup
  rw [hsplit, List.map_append, List.map_cons, List.nodup_append, List.nodup_cons] at hnodup
  obtain ⟨-, ⟨hpost, -⟩, hdisj⟩ := hnodup
  have hpre : pre.filter (fun e => e.1 ≠ k) = pre := by
    refine List.filter_eq_self.mpr fun e he => ?_
    simpa using hdisj _ (List.mem_map_of_mem (f := Prod.fst) he) k (by simp)
  have htail : post.filter (fun e => e.1 ≠ k) = post := by
    refine List.filter_eq_self.mpr fun e he => ?_
    have hmem : e.1 ∈ post.map Prod.fst := List.mem_map_of_mem he
    have hne : e.1 ≠ k := by
      rintro rfl
      exact hpost hmem
    simpa using hne
  have hkept : (d.erase k).entries = pre ++ post := by
    simp only [erase, hsplit, List.filter_append, hpre]
    rw [List.filter_cons_of_neg (by simp), htail]
  simp only [total, values, hkept, hsplit, List.map_append, List.map_cons, List.sum_append, List.sum_cons]
  omega

theorem total_erase_le (d : Dict κ β) (k : κ) (f : β → Nat) : (d.erase k).total f ≤ d.total f := by
  have hsub : (d.erase k).values.Sublist d.values := List.filter_sublist.map Prod.snd
  exact (hsub.map f).sum_le_sum fun _ _ => Nat.zero_le _

omit [DecidableEq κ] in
/-- A bound on every weight bounds their sum. -/
theorem total_le {d : Dict κ β} {f : β → Nat} {c : Nat} (h : ∀ v ∈ d.values, f v ≤ c) : d.total f ≤ d.size * c := by
  have hsum := List.sum_le_card_nsmul (d.values.map f) c (by simpa using h)
  simpa [total, size, values] using hsum

/-- A key that is there trades its weight for the new one. -/
theorem total_set_of_some {d : Dict κ β} {k : κ} {u : β} (h : d.get? k = some u) (v : β) (f : β → Nat) :
    (d.set k v).total f + f u = d.total f + f v := by
  obtain ⟨pre, post, hsplit⟩ := List.append_of_mem (get?_eq_some.mp h)
  have hnodup := d.nodup
  rw [hsplit, List.map_append, List.map_cons, List.nodup_append, List.nodup_cons] at hnodup
  obtain ⟨-, ⟨hpost, -⟩, hdisj⟩ := hnodup
  have hkeep : ∀ l : List (κ × β), k ∉ l.map Prod.fst → replace k v l = l := by
    intro l hl
    have hsame : ∀ e ∈ l, (if e.1 = k then (k, v) else e) = id e := by
      intro e he
      rw [if_neg]
      · rfl
      · rintro rfl
        exact hl (List.mem_map_of_mem he)
    rw [replace, List.map_congr_left hsame, List.map_id]
  have hpre : k ∉ pre.map Prod.fst := fun hmem => hdisj k hmem k (by simp) rfl
  have hentries : (d.set k v).entries = pre ++ (k, v) :: post := by
    rw [set, dif_pos (mem_keys.mpr ⟨u, h⟩)]
    simp only [hsplit, replace, List.map_append, List.map_cons, if_true]
    rw [← replace, ← replace, hkeep pre hpre, hkeep post hpost]
  simp only [total, values, hentries, hsplit, List.map_append, List.map_cons, List.sum_append, List.sum_cons]
  omega

omit [DecidableEq κ] in
@[simp] theorem size_mapValues {γ : Type} (f : β → γ) (d : Dict κ β) : (d.mapValues f).size = d.size :=
  List.length_map ..

theorem size_set_of_some {d : Dict κ β} {k : κ} {u : β} (h : d.get? k = some u) (v : β) : (d.set k v).size = d.size := by
  have := total_set_of_some h v fun _ => 1
  simp only [size_eq_total]
  omega

theorem size_set_of_none {d : Dict κ β} {k : κ} (h : d.get? k = none) (v : β) :
    (d.set k v).size = d.size + 1 := by
  simp only [size_eq_total, total_set_of_none h]

theorem size_erase_le (d : Dict κ β) (k : κ) : (d.erase k).size ≤ d.size := List.length_filter_le ..

theorem size_erase {d : Dict κ β} {k : κ} {v : β} (h : d.get? k = some v) :
    (d.erase k).size + 1 = d.size := by
  simp only [size_eq_total]
  exact total_erase h fun _ => 1

/-- A dictionary with these keys has their number. -/
theorem size_eq_length {d : Dict κ β} {keys : List κ} (hnodup : keys.Nodup) (h : ∀ k, d.get? k = none ↔ k ∉ keys) :
    d.size = keys.length := by
  have hmem (k : κ) : k ∈ d.keys ↔ k ∈ keys := by
    rw [← not_iff_not, ← get?_eq_none, h]
  have hperm : d.keys.Perm keys := (List.perm_ext_iff_of_nodup d.nodup hnodup).mpr hmem
  rw [← hperm.length_eq, Dict.keys, List.length_map, size]

omit [DecidableEq κ] in
/-- A dictionary is no larger than any list its keys are among. -/
theorem size_le_of_keys {d : Dict κ β} {l : List κ} (h : ∀ k ∈ d.keys, k ∈ l) : d.size ≤ l.length := by
  have : d.keys.length = d.size := List.length_map ..
  rw [← this]
  exact (d.nodup.subperm h).length_le

end Dict

end CamGuard
