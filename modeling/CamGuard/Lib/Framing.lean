/-
Incremental framing: records cut from a stream that arrives in chunks.

A `Rule` looks at the unread part of a stream and answers one of three things:
it needs more, the stream is broken here, or a record of some size begins
here. The laws of a rule are what makes the cut points irrelevant: an answer
other than "more" does not change when more arrives (`stable`), and a record
is decided by its own symbols (`local_`).

`Rule.scan` reads everything that is there. `scan_append` is the law of the
whole development: scanning a prefix, keeping the rest, and scanning the rest
with what came later is scanning it all at once. `feedAll` feeds chunks one
after another, and a feed that meets a broken record answers the failure
alone, dropping the records it had cut before it; so `feedAll_of_scan_ok` says
the chunks do not matter for a stream that reads well, and
`feedAll_of_scan_error` how much survives of one that does not.
-/
import Mathlib.Data.List.Basic
import Mathlib.Data.List.Forall2

namespace CamGuard.Framing

variable {α ρ ε : Type}

/-- What a rule says of the unread symbols. -/
inductive Verdict (ρ ε : Type) where
  | wait
  | bad (e : ε)
  | record (r : ρ) (size : Nat)
  deriving DecidableEq

/-- A framing rule, with the laws that make the cut points irrelevant. -/
structure Rule (α ρ ε : Type) where
  view : List α → Verdict ρ ε
  view_nil : view [] = .wait
  size_pos : ∀ {b r n}, view b = .record r n → 0 < n
  size_le : ∀ {b r n}, view b = .record r n → n ≤ b.length
  stable : ∀ {b} (c), view b ≠ .wait → view (b ++ c) = view b
  local_ : ∀ {b r n}, view b = .record r n → view (b.take n) = .record r n

namespace Rule

variable (R : Rule α ρ ε)

/-- The reading loop, for at most `fuel` records. -/
def scanFuel : Nat → List α → List ρ × Except ε (List α)
  | 0, b => ([], .ok b)
  | fuel + 1, b =>
    match R.view b with
    | .wait => ([], .ok b)
    | .bad e => ([], .error e)
    | .record r n =>
      let t := scanFuel fuel (b.drop n)
      (r :: t.1, t.2)

/-- Every record that is complete in `b`, and the rest or the failure after
them. A record takes at least one symbol, so the length bounds the loop. -/
def scan (b : List α) : List ρ × Except ε (List α) := R.scanFuel (b.length + 1) b

/-- Past the length, more fuel reads nothing more. -/
theorem scanFuel_le {k m : Nat} {b : List α} (hb : b.length < k) (hkm : k ≤ m) :
    R.scanFuel m b = R.scanFuel k b := by
  -- On `k`: both loops read the same record, and what is left is shorter.
  induction k generalizing m b with
  | zero => omega
  | succ k ih =>
    obtain ⟨m, rfl⟩ : ∃ m', m = m' + 1 := ⟨m - 1, by omega⟩
    simp only [scanFuel]
    split
    · rfl
    · rfl
    · rename_i r n hv
      have hpos := R.size_pos hv
      have hle := R.size_le hv
      have hlen : (b.drop n).length < k := by simp; omega
      simp only [ih hlen (show k ≤ m by omega)]

/-- One turn of the loop. -/
theorem scan_eq (b : List α) : R.scan b =
    match R.view b with
    | .wait => ([], .ok b)
    | .bad e => ([], .error e)
    | .record r n => (r :: (R.scan (b.drop n)).1, (R.scan (b.drop n)).2) := by
  rw [scan, scanFuel]
  split
  · rfl
  · rfl
  · rename_i r n hv
    have hpos := R.size_pos hv
    have hle := R.size_le hv
    have hfuel : (b.drop n).length + 1 ≤ b.length := by simp; omega
    simp only [scan, R.scanFuel_le (Nat.lt_succ_self (b.drop n).length) hfuel]

variable {R}

theorem scan_wait {b : List α} (h : R.view b = .wait) : R.scan b = ([], .ok b) := by
  rw [scan_eq, h]

theorem scan_bad {b : List α} {e : ε} (h : R.view b = .bad e) : R.scan b = ([], .error e) := by
  rw [scan_eq, h]

theorem scan_record {b : List α} {r : ρ} {n : Nat} (h : R.view b = .record r n) :
    R.scan b = (r :: (R.scan (b.drop n)).1, (R.scan (b.drop n)).2) := by
  rw [scan_eq, h]

variable (R)

/-- Induction along the loop of `scan`: a stop, a break, or one record and the
rest. -/
theorem scan_induction {P : List α → Prop} (wait : ∀ b, R.view b = .wait → P b)
    (bad : ∀ b e, R.view b = .bad e → P b)
    (record : ∀ b r n, R.view b = .record r n → P (b.drop n) → P b) (b : List α) : P b := by
  obtain ⟨k, hk⟩ : ∃ k, b.length < k := ⟨_, Nat.lt_succ_self _⟩
  induction k generalizing b with
  | zero => omega
  | succ k ih =>
    cases hv : R.view b with
    | wait => exact wait b hv
    | bad e => exact bad b e hv
    | record r n =>
      have hpos := R.size_pos hv
      have hle := R.size_le hv
      exact record b r n hv (ih _ (by simp; omega))

/-- What is left after a scan is a stream the rule waits on. -/
theorem view_rest {b rest : List α} (h : (R.scan b).2 = .ok rest) : R.view rest = .wait := by
  induction b using R.scan_induction with
  | wait b hv =>
    rw [scan_wait hv] at h
    cases h
    exact hv
  | bad b e hv => rw [scan_bad hv] at h; cases h
  | record b r n hv ih =>
    rw [scan_record hv] at h
    exact ih h

/-- **Scanning in two goes.** A prefix that reads well leaves a rest; scanning
the rest with what comes later gives the remaining records. -/
theorem scan_append_ok {b rest : List α} (c : List α) (h : (R.scan b).2 = .ok rest) :
    R.scan (b ++ c) = ((R.scan b).1 ++ (R.scan (rest ++ c)).1, (R.scan (rest ++ c)).2) := by
  induction b using R.scan_induction with
  | wait b hv =>
    rw [scan_wait hv] at h ⊢
    cases h
    rfl
  | bad b e hv => rw [scan_bad hv] at h; cases h
  | record b r n hv ih =>
    have hvc : R.view (b ++ c) = .record r n := by rw [R.stable c (by simp [hv]), hv]
    have hdrop : (b ++ c).drop n = b.drop n ++ c := List.drop_append_of_le_length (R.size_le hv)
    rw [scan_record hv] at h ⊢
    rw [scan_record hvc, hdrop, ih h]
    rfl

/-- A broken prefix stays broken, with the same records before the break. -/
theorem scan_append_error {b : List α} {e : ε} (c : List α) (h : (R.scan b).2 = .error e) :
    R.scan (b ++ c) = R.scan b := by
  induction b using R.scan_induction with
  | wait b hv => rw [scan_wait hv] at h; cases h
  | bad b e' hv =>
    have hvc : R.view (b ++ c) = .bad e' := by rw [R.stable c (by simp [hv]), hv]
    rw [scan_bad hv, scan_bad hvc]
  | record b r n hv ih =>
    have hvc : R.view (b ++ c) = .record r n := by rw [R.stable c (by simp [hv]), hv]
    have hdrop : (b ++ c).drop n = b.drop n ++ c := List.drop_append_of_le_length (R.size_le hv)
    rw [scan_record hv] at h ⊢
    rw [scan_record hvc, hdrop, ih h]

/-! ## Feeding chunks -/

/-- Feeding chunks one after another from the unread part `b`: the records
answered by the feeds that succeed, and the unread part or the first failure. -/
def feedAll : List α → List (List α) → List ρ × Except ε (List α)
  | b, [] => ([], .ok b)
  | b, c :: cs =>
    match R.scan (b ++ c) with
    | (rs, .ok rest) =>
      let t := feedAll rest cs
      (rs ++ t.1, t.2)
    | (_, .error e) => ([], .error e)

theorem feedAll_cons_ok {b c rest : List α} {cs : List (List α)} (h : (R.scan (b ++ c)).2 = .ok rest) :
    R.feedAll b (c :: cs) = ((R.scan (b ++ c)).1 ++ (R.feedAll rest cs).1, (R.feedAll rest cs).2) := by
  rw [feedAll]
  rcases hs : R.scan (b ++ c) with ⟨rs, e | rest'⟩
  · rw [hs] at h; cases h
  · rw [hs] at h; cases h; rfl

theorem feedAll_cons_error {b c : List α} {e : ε} {cs : List (List α)} (h : (R.scan (b ++ c)).2 = .error e) :
    R.feedAll b (c :: cs) = ([], .error e) := by
  rw [feedAll]
  rcases hs : R.scan (b ++ c) with ⟨rs, e' | rest⟩
  · rw [hs] at h; cases h; rfl
  · rw [hs] at h; cases h

/-- **The chunks do not matter** for a stream that reads well. -/
theorem feedAll_of_scan_ok {b rest : List α} {cs : List (List α)} (hb : R.view b = .wait)
    (h : (R.scan (b ++ cs.flatten)).2 = .ok rest) : R.feedAll b cs = R.scan (b ++ cs.flatten) := by
  induction cs generalizing b with
  | nil => simp [feedAll, scan_wait hb]
  | cons c cs ih =>
    rw [List.flatten_cons, ← List.append_assoc] at h ⊢
    cases hc : (R.scan (b ++ c)).2 with
    | error e => rw [R.scan_append_error _ hc, hc] at h; cases h
    | ok mid =>
      rw [R.scan_append_ok _ hc] at h ⊢
      rw [R.feedAll_cons_ok hc, ih (R.view_rest hc) h]

/-- Whatever the chunks, a broken stream fails with the break it has, and what
was answered before is a prefix of the records before the break. -/
theorem feedAll_of_scan_error {b : List α} {e : ε} {cs : List (List α)} (hb : R.view b = .wait)
    (h : (R.scan (b ++ cs.flatten)).2 = .error e) :
    (R.feedAll b cs).2 = .error e ∧ (R.feedAll b cs).1 <+: (R.scan (b ++ cs.flatten)).1 := by
  induction cs generalizing b with
  | nil => simp [scan_wait hb] at h
  | cons c cs ih =>
    rw [List.flatten_cons, ← List.append_assoc] at h ⊢
    cases hc : (R.scan (b ++ c)).2 with
    | error e' =>
      rw [R.scan_append_error _ hc] at h ⊢
      rw [R.feedAll_cons_error hc]
      exact ⟨hc.symm.trans h, List.nil_prefix⟩
    | ok mid =>
      rw [R.scan_append_ok _ hc] at h ⊢
      obtain ⟨herr, hpre⟩ := ih (R.view_rest hc) h
      rw [R.feedAll_cons_ok hc]
      exact ⟨herr, (List.prefix_append_right_inj _).mpr hpre⟩

/-- One more symbol completes at most one record, and nothing breaks behind it. -/
theorem scan_snoc_error {b : List α} {x : α} {e : ε} (hb : R.view b = .wait)
    (h : (R.scan (b ++ [x])).2 = .error e) : (R.scan (b ++ [x])).1 = [] := by
  cases hv : R.view (b ++ [x]) with
  | wait => rw [scan_wait hv]
  | bad e => rw [scan_bad hv]
  | record r n =>
    have hle := R.size_le hv
    have hlt : b.length < n := by
      -- A record within `b` would have been decided before `x` came.
      by_contra hn
      have hloc := R.local_ hv
      rw [List.take_append_of_le_length (by omega)] at hloc
      have hstable := R.stable (b.drop n) (by rw [hloc]; simp)
      rw [List.take_append_drop, hb, hloc] at hstable
      cases hstable
    have hall : (b ++ [x]).drop n = [] := List.drop_eq_nil_of_le (by simp at hle ⊢; omega)
    rw [scan_record hv, hall, scan_wait R.view_nil] at h
    cases h

/-- Fed one symbol at a time, a stream loses nothing before its break. -/
theorem feedAll_singletons {b : List α} (hb : R.view b = .wait) (c : List α) :
    R.feedAll b (c.map fun x => [x]) = R.scan (b ++ c) := by
  induction c generalizing b with
  | nil => simp [feedAll, scan_wait hb]
  | cons x c ih =>
    have hcat : b ++ x :: c = b ++ [x] ++ c := by simp
    rw [List.map_cons, hcat]
    cases hc : (R.scan (b ++ [x])).2 with
    | error e =>
      rw [R.feedAll_cons_error hc, R.scan_append_error _ hc]
      exact Prod.ext (R.scan_snoc_error hb hc).symm hc.symm
    | ok mid => rw [R.feedAll_cons_ok hc, R.scan_append_ok _ hc, ih (R.view_rest hc)]

/-! ## Serialised records -/

/-- `w` is exactly the symbols of the record `r`. -/
def Encodes (r : ρ) (w : List α) : Prop := R.view w = .record r w.length

variable {R}

theorem Encodes.view_append {r : ρ} {w : List α} (h : R.Encodes r w) (c : List α) :
    R.view (w ++ c) = .record r w.length := by
  rw [R.stable c (by rw [h]; simp), h]

/-- A serialised list of records is read back, and the reading goes on after it. -/
theorem scan_flatten {rs : List ρ} {ws : List (List α)} (h : List.Forall₂ R.Encodes rs ws) (c : List α) :
    R.scan (ws.flatten ++ c) = (rs ++ (R.scan c).1, (R.scan c).2) := by
  induction h with
  | nil => simp
  | @cons r w rs ws hw _ ih =>
    rw [List.flatten_cons, List.append_assoc, scan_record (hw.view_append _), List.drop_left, ih]
    rfl

/-- A record cut short is one the rule waits on. -/
theorem Encodes.view_of_short {r : ρ} {p c : List α} (h : R.Encodes r (p ++ c)) (hc : c ≠ []) :
    R.view p = .wait := by
  by_contra hp
  have hv : R.view p = .record r (p ++ c).length := by rw [← R.stable c hp, h]
  have hle := R.size_le hv
  have hpos := List.length_pos_iff.mpr hc
  simp only [List.length_append] at hle
  omega

/-- How many of the serialised records end within the first `n` symbols. -/
def completed : List (List α) → Nat → Nat
  | [], _ => 0
  | w :: ws, n => if w.length ≤ n then completed ws (n - w.length) + 1 else 0

theorem completed_le_length (ws : List (List α)) (n : Nat) : completed ws n ≤ ws.length := by
  induction ws generalizing n with
  | nil => simp [completed]
  | cons w ws ih =>
    have := ih (n - w.length)
    simp only [completed, List.length_cons]
    split <;> omega

/-- A cut of a serialised list reads as the records that end before the cut. -/
theorem scan_of_prefix {rs : List ρ} {ws : List (List α)} (h : List.Forall₂ R.Encodes rs ws) {p : List α}
    (hp : p <+: ws.flatten) :
    (R.scan p).1 = rs.take (completed ws p.length) ∧ ∃ rest, (R.scan p).2 = .ok rest := by
  induction h generalizing p with
  | nil =>
    obtain rfl : p = [] := List.prefix_nil.mp hp
    rw [scan_wait R.view_nil]
    exact ⟨rfl, _, rfl⟩
  | @cons r w rs ws hw _ ih =>
    rw [List.flatten_cons] at hp
    by_cases hlen : w.length ≤ p.length
    · obtain ⟨q, rfl⟩ : w <+: p := List.prefix_of_prefix_length_le (List.prefix_append w _) hp hlen
      obtain ⟨hrec, hrest⟩ := ih ((List.prefix_append_right_inj w).mp hp)
      rw [scan_record (hw.view_append q), List.drop_left]
      refine ⟨?_, hrest⟩
      simp only [completed, List.length_append, Nat.le_add_right, if_true, Nat.add_sub_cancel_left,
        List.take_succ_cons, hrec]
    · obtain ⟨c, rfl⟩ : p <+: w := List.prefix_of_prefix_length_le hp (List.prefix_append w _) (by omega)
      have hc : c ≠ [] := by rintro rfl; simp at hlen
      rw [scan_wait (hw.view_of_short hc)]
      simp only [completed, if_neg hlen]
      exact ⟨rfl, _, rfl⟩

/-- And only serialised records are ever read. -/
theorem scan_ok_inv {b rest : List α} (h : (R.scan b).2 = .ok rest) :
    ∃ ws, List.Forall₂ R.Encodes (R.scan b).1 ws ∧ b = ws.flatten ++ rest := by
  induction b using R.scan_induction with
  | wait b hv =>
    rw [scan_wait hv] at h ⊢
    cases h
    exact ⟨[], .nil, rfl⟩
  | bad b e hv => rw [scan_bad hv] at h; cases h
  | record b r n hv ih =>
    rw [scan_record hv] at h ⊢
    obtain ⟨ws, hall, heq⟩ := ih h
    have hlen : (b.take n).length = n := by simp [R.size_le hv]
    refine ⟨b.take n :: ws, .cons ?_ hall, ?_⟩
    · rw [Encodes, hlen]; exact R.local_ hv
    · rw [List.flatten_cons, List.append_assoc, ← heq, List.take_append_drop]

end Rule

end CamGuard.Framing
