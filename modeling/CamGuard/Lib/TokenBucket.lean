/-
Token buckets, several at once: a demand is met if every bucket covers what it needs,
and then each is debited what it costs. Buckets fill at their rates up to their limits,
over any linearly ordered field.

Filling in two goes is filling in one (`refill_refill`), so what is refused leaves no
trace (`spend_run`); and over every window of time no bucket gives more than its limit
and what flows in meanwhile (`run_window`). A machine that follows the levels charge by
charge (`Meter`) inherits all of it.
-/
import Mathlib.Algebra.BigOperators.Group.List.Basic
import Mathlib.Algebra.Order.Field.Basic
import Mathlib.Data.Fintype.Defs
import Mathlib.Tactic.Linarith
import Mathlib.Tactic.Ring

namespace CamGuard.TokenBucket

/-- What each dimension can hold, and how fast it refills. -/
structure Limits (ι K : Type) [Field K] [LinearOrder K] where
  limit : ι → K
  rate : ι → K
  limit_nonneg : ∀ i, 0 ≤ limit i
  rate_nonneg : ∀ i, 0 ≤ rate i

/-- What each dimension has, as of a time. -/
structure Level (ι K : Type) where
  credit : ι → K
  last : K

/-- At a time: what each dimension must have, and what is taken of it. -/
structure Demand (ι K : Type) where
  now : K
  need : ι → K
  cost : ι → K

section

variable {ι K : Type} [Field K] [LinearOrder K]

/-- A demand that costs no more than it needs. -/
def Demand.Fair (d : Demand ι K) : Prop := ∀ i, 0 ≤ d.cost i ∧ d.cost i ≤ d.need i

/-- What some demands cost a bucket from `s` to `t`. -/
def spent (i : ι) (s t : K) (ds : List (Demand ι K)) : K :=
  ((ds.filter fun d => s ≤ d.now ∧ d.now ≤ t).map fun d => d.cost i).sum

theorem spent_inside {i : ι} {s t : K} {d : Demand ι K} (hs : s ≤ d.now) (ht : d.now ≤ t) (ds : List (Demand ι K)) :
    spent i s t (d :: ds) = d.cost i + spent i s t ds := by
  unfold spent
  rw [List.filter_cons_of_pos (by simpa using ⟨hs, ht⟩), List.map_cons, List.sum_cons]

theorem spent_outside {i : ι} {s t : K} {d : Demand ι K} (h : d.now < s ∨ t < d.now) (ds : List (Demand ι K)) :
    spent i s t (d :: ds) = spent i s t ds := by
  unfold spent
  rw [List.filter_cons_of_neg]
  rcases h with h | h
  · simp [h]
  · simp [h]

/-- A list of demands is within some window. -/
theorem exists_window (ds : List (Demand ι K)) : ∃ s t, s ≤ t ∧ ∀ d ∈ ds, s ≤ d.now ∧ d.now ≤ t := by
  induction ds with
  | nil => exact ⟨0, 0, le_rfl, by simp⟩
  | cons d ds ih =>
    obtain ⟨s, t, hst, hds⟩ := ih
    refine ⟨min s d.now, max t d.now, (min_le_left _ _).trans (hst.trans (le_max_left _ _)), ?_⟩
    intro e he
    rcases List.mem_cons.mp he with rfl | he
    · exact ⟨min_le_right _ _, le_max_right _ _⟩
    · exact ⟨(min_le_left _ _).trans (hds e he).1, (hds e he).2.trans (le_max_left _ _)⟩

/-- In a window that holds them all, demands cost what they cost. -/
theorem spent_all {i : ι} {s t : K} {ds : List (Demand ι K)} (h : ∀ d ∈ ds, s ≤ d.now ∧ d.now ≤ t) :
    spent i s t ds = (ds.map fun d => d.cost i).sum := by
  unfold spent
  rw [List.filter_eq_self.mpr]
  intro d hd
  simpa using h d hd

/-- Demands that all come after the window cost it nothing. -/
theorem spent_late {i : ι} {s t : K} {ds : List (Demand ι K)} (h : ∀ d ∈ ds, t < d.now) : spent i s t ds = 0 := by
  induction ds with
  | nil => rfl
  | cons d ds ih =>
    rw [spent_outside (.inr (h d List.mem_cons_self))]
    exact ih fun later hlater => h later (List.mem_cons_of_mem d hlater)

namespace Level

theorem flow_split (L : Limits ι K) (i : ι) (s u t : K) :
    (t - s) * L.rate i = (u - s) * L.rate i + (t - u) * L.rate i := by
  ring

variable (L : Limits ι K)

/-- The bucket at a later time. -/
def refill (b : Level ι K) (now : K) : Level ι K :=
  ⟨fun i => min (L.limit i) (b.credit i + (now - b.last) * L.rate i), now⟩

/-- Every credit is within its limit. -/
def Sound (b : Level ι K) : Prop := ∀ i, 0 ≤ b.credit i ∧ b.credit i ≤ L.limit i

/-- Is the demand met at this level? -/
def Covers (b : Level ι K) (d : Demand ι K) : Prop := ∀ i, d.need i ≤ b.credit i

instance [Fintype ι] (b : Level ι K) (d : Demand ι K) : Decidable (b.Covers d) :=
  inferInstanceAs (Decidable (∀ i, d.need i ≤ b.credit i))

/-- The bucket after a demand that is met. -/
def debit (b : Level ι K) (d : Demand ι K) : Level ι K := ⟨fun i => b.credit i - d.cost i, b.last⟩

variable [Fintype ι]

/-- The demand is met or refused; one from before the last changes nothing. -/
def spend (b : Level ι K) (d : Demand ι K) : Bool × Level ι K :=
  if d.now < b.last then (false, b)
  else if (b.refill L d.now).Covers d then (true, (b.refill L d.now).debit d)
  else (false, b.refill L d.now)

/-- The demands that are met, and the level after them all. -/
def run (b : Level ι K) : List (Demand ι K) → List (Demand ι K) × Level ι K
  | [] => ([], b)
  | d :: ds =>
    let rest := run (b.spend L d).2 ds
    (if (b.spend L d).1 then d :: rest.1 else rest.1, rest.2)

variable {L} {b : Level ι K} {d : Demand ι K}

theorem spend_past (h : d.now < b.last) : b.spend L d = (false, b) := if_pos h

theorem spend_met (h : b.last ≤ d.now) (hcovers : (b.refill L d.now).Covers d) :
    b.spend L d = (true, (b.refill L d.now).debit d) := by
  rw [Level.spend, if_neg (not_lt.mpr h), if_pos hcovers]

theorem spend_short (h : b.last ≤ d.now) (hcovers : ¬(b.refill L d.now).Covers d) :
    b.spend L d = (false, b.refill L d.now) := by
  rw [Level.spend, if_neg (not_lt.mpr h), if_neg hcovers]

/-- What a demand can do. -/
theorem spend_cases (L : Limits ι K) (b : Level ι K) (d : Demand ι K) :
    (d.now < b.last ∧ b.spend L d = (false, b)) ∨
      b.last ≤ d.now ∧
        ((b.refill L d.now).Covers d ∧ b.spend L d = (true, (b.refill L d.now).debit d) ∨
          b.spend L d = (false, b.refill L d.now)) := by
  by_cases hpast : d.now < b.last
  · exact .inl ⟨hpast, spend_past hpast⟩
  have hnow : b.last ≤ d.now := not_lt.mp hpast
  by_cases hcovers : (b.refill L d.now).Covers d
  · exact .inr ⟨hnow, .inl ⟨hcovers, spend_met hnow hcovers⟩⟩
  · exact .inr ⟨hnow, .inr (spend_short hnow hcovers)⟩

theorem run_met {ds : List (Demand ι K)} (h : (b.spend L d).1 = true) :
    (b.run L (d :: ds)).1 = d :: ((b.spend L d).2.run L ds).1 := by
  rw [Level.run, if_pos h]

theorem run_refused {ds : List (Demand ι K)} (h : (b.spend L d).1 = false) :
    (b.run L (d :: ds)).1 = ((b.spend L d).2.run L ds).1 := by
  rw [Level.run, if_neg (by simp [h])]

theorem last_le_spend (b : Level ι K) (d : Demand ι K) : b.last ≤ (b.spend L d).2.last := by
  rcases spend_cases L b d with ⟨_, heq⟩ | ⟨hnow, ⟨_, heq⟩ | heq⟩
  · rw [heq]
  · rw [heq]
    exact hnow
  · rw [heq]
    exact hnow

theorem last_le_run (b : Level ι K) (ds : List (Demand ι K)) : b.last ≤ (b.run L ds).2.last := by
  induction ds generalizing b with
  | nil => exact le_rfl
  | cons d ds ih => exact (last_le_spend b d).trans (ih _)

/-- What is met comes at the last time or later. -/
theorem last_le_of_run {ds : List (Demand ι K)} (h : d ∈ (b.run L ds).1) : b.last ≤ d.now := by
  induction ds generalizing b with
  | nil => cases h
  | cons first ds ih =>
    have hlast := last_le_spend (L := L) b first
    rcases spend_cases L b first with ⟨_, heq⟩ | ⟨hnow, ⟨_, heq⟩ | heq⟩
    · rw [run_refused (by rw [heq])] at h
      exact hlast.trans (ih h)
    · rw [run_met (by rw [heq])] at h
      rcases List.mem_cons.mp h with rfl | hrest
      · exact hnow
      · exact hlast.trans (ih hrest)
    · rw [run_refused (by rw [heq])] at h
      exact hlast.trans (ih h)

/-- What is met from a level of a later time on is outside the window. -/
theorem spent_after (i : ι) (s : K) {t : K} (ht : t < b.last) (ds : List (Demand ι K)) :
    spent i s t (b.run L ds).1 = 0 :=
  spent_late fun _ hmet => ht.trans_le (last_le_of_run hmet)

end Level

end

namespace Level

variable {ι K : Type} [Field K] [LinearOrder K] [IsStrictOrderedRing K]
variable {L : Limits ι K} {b : Level ι K} {d : Demand ι K} {now later : K}

theorem flow_nonneg (L : Limits ι K) (i : ι) {s t : K} (h : s ≤ t) : 0 ≤ (t - s) * L.rate i :=
  mul_nonneg (sub_nonneg.mpr h) (L.rate_nonneg i)

theorem Sound.refill (h : b.Sound L) (hnow : b.last ≤ now) : (b.refill L now).Sound L := by
  intro i
  have hflow := flow_nonneg L i hnow
  exact ⟨le_min (L.limit_nonneg i) (add_nonneg (h i).1 hflow), min_le_left _ _⟩

/-- Filling in two goes is filling in one. -/
theorem refill_refill (hlater : now ≤ later) : (b.refill L now).refill L later = b.refill L later := by
  unfold Level.refill
  congr 1
  funext i
  dsimp only
  have hflow := flow_nonneg L i hlater
  rw [flow_split L i b.last now later, ← add_assoc, ← min_add_add_right, ← min_assoc, min_eq_left (le_add_of_nonneg_right hflow)]

theorem Sound.debit (h : b.Sound L) (hcovers : b.Covers d) (hfair : d.Fair) : (b.debit d).Sound L := by
  intro i
  obtain ⟨hnonneg, hcost⟩ := hfair i
  constructor
  · exact sub_nonneg.mpr (hcost.trans (hcovers i))
  · exact (sub_le_self _ hnonneg).trans (h i).2

variable [Fintype ι]

theorem Sound.spend (h : b.Sound L) (hfair : d.Fair) : (b.spend L d).2.Sound L := by
  rcases spend_cases L b d with ⟨_, heq⟩ | ⟨hnow, ⟨hcovers, heq⟩ | heq⟩
  · rw [heq]
    exact h
  · rw [heq]
    exact (h.refill hnow).debit hcovers hfair
  · rw [heq]
    exact h.refill hnow

/-- A refused demand takes no credit. -/
theorem credit_refused (h : b.Sound L) (hrefused : (b.spend L d).1 = false) (i : ι) :
    b.credit i ≤ (b.spend L d).2.credit i := by
  rcases spend_cases L b d with ⟨_, heq⟩ | ⟨hnow, ⟨_, heq⟩ | heq⟩
  · rw [heq]
  · rw [heq] at hrefused
    cases hrefused
  · rw [heq]
    exact le_min (h i).2 (le_add_of_nonneg_right (flow_nonneg L i hnow))

theorem Sound.run (h : b.Sound L) {ds : List (Demand ι K)} (hfair : ∀ d ∈ ds, d.Fair) : (b.run L ds).2.Sound L := by
  induction ds generalizing b with
  | nil => exact h
  | cons d ds ih =>
    exact ih (h.spend (hfair d List.mem_cons_self)) fun e he => hfair e (List.mem_cons_of_mem d he)

/-- From a level on, no bucket gives more than its credit and what flows in. -/
theorem spent_le_credit (h : b.Sound L) (i : ι) (s : K) {t : K} (ht : b.last ≤ t) {ds : List (Demand ι K)}
    (hfair : ∀ d ∈ ds, d.Fair) : spent i s t (b.run L ds).1 ≤ b.credit i + (t - b.last) * L.rate i := by
  induction ds generalizing b with
  | nil => exact add_nonneg (h i).1 (flow_nonneg L i ht)
  | cons d ds ih =>
    have hd := hfair d List.mem_cons_self
    have hds : ∀ e ∈ ds, e.Fair := fun e he => hfair e (List.mem_cons_of_mem d he)
    have hrest := h.spend hd
    rcases spend_cases L b d with ⟨_, heq⟩ | ⟨hnow, hspend⟩
    · rw [run_refused (by rw [heq]), heq]
      exact ih h ht hds
    have hfill : (b.refill L d.now).credit i ≤ b.credit i + (d.now - b.last) * L.rate i := min_le_right _ _
    have hflow := flow_split L i b.last d.now t
    by_cases hlate : t < d.now
    · -- The demand and all that follows come after the window.
      have hzero : spent i s t (b.run L (d :: ds)).1 = 0 := by
        rcases hspend with ⟨_, heq⟩ | heq
        · rw [run_met (by rw [heq]), spent_outside (.inr hlate), heq]
          exact spent_after i s hlate ds
        · rw [run_refused (by rw [heq]), heq]
          exact spent_after i s hlate ds
      rw [hzero]
      exact add_nonneg (h i).1 (flow_nonneg L i ht)
    have hin : d.now ≤ t := not_lt.mp hlate
    rcases hspend with ⟨_, heq⟩ | heq
    · rw [heq] at hrest
      have hlater : spent i s t (((b.refill L d.now).debit d).run L ds).1 ≤
          (b.refill L d.now).credit i - d.cost i + (t - d.now) * L.rate i := ih hrest hin hds
      rw [run_met (by rw [heq]), heq]
      by_cases hs : d.now < s
      · rw [spent_outside (.inl hs)]
        have hcost := (hd i).1
        linarith
      · rw [spent_inside (not_lt.mp hs) hin]
        linarith
    · rw [heq] at hrest
      have hlater : spent i s t ((b.refill L d.now).run L ds).1 ≤
          (b.refill L d.now).credit i + (t - d.now) * L.rate i := ih hrest hin hds
      rw [run_refused (by rw [heq]), heq]
      linarith

theorem spend_refill (hnow : b.last ≤ now) (hlater : now ≤ d.now) : (b.refill L now).spend L d = b.spend L d := by
  have hpast : ¬d.now < (b.refill L now).last := not_lt.mpr hlater
  have hlast : ¬d.now < b.last := not_lt.mpr (hnow.trans hlater)
  unfold Level.spend
  rw [if_neg hpast, if_neg hlast, refill_refill hlater]

/-- Over a window no bucket gives more than its limit and what flows in. -/
theorem run_window (h : b.Sound L) (i : ι) {s t : K} (hst : s ≤ t) {ds : List (Demand ι K)}
    (hfair : ∀ d ∈ ds, d.Fair) : spent i s t (b.run L ds).1 ≤ L.limit i + (t - s) * L.rate i := by
  induction ds generalizing b with
  | nil => exact add_nonneg (L.limit_nonneg i) (flow_nonneg L i hst)
  | cons d ds ih =>
    have hrest := ih (h.spend (hfair d List.mem_cons_self)) fun e he => hfair e (List.mem_cons_of_mem d he)
    rcases spend_cases L b d with ⟨_, heq⟩ | ⟨hnow, hspend⟩
    · rw [run_refused (by rw [heq])]
      exact hrest
    by_cases hearly : d.now < s
    · -- The window has not begun.
      rcases hspend with ⟨_, heq⟩ | heq
      · rw [run_met (by rw [heq]), spent_outside (.inl hearly)]
        exact hrest
      · rw [run_refused (by rw [heq])]
        exact hrest
    have hs : s ≤ d.now := not_lt.mp hearly
    by_cases hlate : t < d.now
    · rcases hspend with ⟨_, heq⟩ | heq
      · rw [run_met (by rw [heq]), spent_outside (.inr hlate)]
        exact hrest
      · rw [run_refused (by rw [heq])]
        exact hrest
    -- The first demand of the window finds at most the limit.
    have hfull := h.refill hnow
    have hsame : (b.refill L d.now).run L (d :: ds) = b.run L (d :: ds) := by
      rw [Level.run, Level.run, spend_refill hnow le_rfl]
    have hgiven := spent_le_credit hfull i s (not_lt.mp hlate) hfair
    rw [hsame] at hgiven
    have hlimit := (hfull i).2
    have hflow := flow_split L i s d.now t
    have hlead := flow_nonneg L i hs
    have hlast : (b.refill L d.now).last = d.now := rfl
    rw [hlast] at hgiven
    linarith

/-- What was refused leaves no trace: a later demand finds what it would have found. -/
theorem spend_run {ds : List (Demand ι K)} (hrefused : (b.run L ds).1 = []) (hlast : b.last ≤ d.now)
    (hds : ∀ e ∈ ds, e.now ≤ d.now) : (b.run L ds).2.last ≤ d.now ∧ (b.run L ds).2.spend L d = b.spend L d := by
  induction ds generalizing b with
  | nil => exact ⟨hlast, rfl⟩
  | cons e ds ih =>
    have he := hds e List.mem_cons_self
    have hrest : ∀ e ∈ ds, e.now ≤ d.now := fun x hx => hds x (List.mem_cons_of_mem e hx)
    have hsnd : (b.run L (e :: ds)).2 = ((b.spend L e).2.run L ds).2 := rfl
    rw [hsnd]
    rcases spend_cases L b e with ⟨_, heq⟩ | ⟨hnow, ⟨_, heq⟩ | heq⟩
    · rw [run_refused (by rw [heq])] at hrefused
      rw [heq] at hrefused ⊢
      exact ih hrefused hlast hrest
    · rw [run_met (by rw [heq])] at hrefused
      cases hrefused
    · rw [run_refused (by rw [heq])] at hrefused
      rw [heq] at hrefused ⊢
      obtain ⟨hle, hspend⟩ := ih (b := b.refill L e.now) hrefused he hrest
      exact ⟨hle, hspend.trans (spend_refill hnow he)⟩

/-- Nor is a demand from before the last met after them. -/
theorem spend_run_met {ds : List (Demand ι K)} (hrefused : (b.run L ds).1 = []) (hds : ∀ e ∈ ds, e.now ≤ d.now) :
    ((b.run L ds).2.spend L d).1 = (b.spend L d).1 := by
  by_cases hpast : d.now < b.last
  · unfold Level.spend
    rw [if_pos hpast, if_pos (hpast.trans_le (last_le_run b ds))]
  · rw [(spend_run hrefused (not_lt.mp hpast) hds).2]

end Level

/-- A machine that follows the levels: each charge is a demand, or invalid and
without effect. -/
structure Meter (ι K σ α : Type) [Field K] [LinearOrder K] [Fintype ι] where
  limits : Limits ι K
  demand : α → Demand ι K
  Valid : α → Prop
  /-- The machines with these limits. -/
  Known : σ → Prop
  level : σ → Level ι K
  charge : σ → α → Bool × σ
  fair : ∀ {a}, Valid a → (demand a).Fair
  charge_known : ∀ {s a}, Known s → Known (charge s a).2
  charge_valid : ∀ {s a}, Known s → (level s).Sound limits → Valid a →
    (charge s a).1 = ((level s).spend limits (demand a)).1 ∧
      level (charge s a).2 = ((level s).spend limits (demand a)).2
  charge_invalid : ∀ {s a}, Known s → ¬Valid a → charge s a = (false, s)

namespace Meter

variable {ι K σ α : Type} [Field K] [LinearOrder K] [Fintype ι] (m : Meter ι K σ α)

/-- The charges that are admitted, and the machine after them all. -/
def run (s : σ) : List α → List α × σ
  | [] => ([], s)
  | a :: as =>
    let rest := run (m.charge s a).2 as
    (if (m.charge s a).1 then a :: rest.1 else rest.1, rest.2)

variable [IsStrictOrderedRing K] {m} {s : σ}

/-- A run is a run of the levels, over the demands of its valid charges. -/
theorem run_follows (hs : m.Known s) (h : (m.level s).Sound m.limits) (as : List α) :
    ∃ ds, (∀ d ∈ ds, d.Fair) ∧ (∀ d ∈ ds, ∃ a ∈ as, d = m.demand a) ∧
      (m.run s as).1.map m.demand = ((m.level s).run m.limits ds).1 ∧ m.Known (m.run s as).2 ∧
      m.level (m.run s as).2 = ((m.level s).run m.limits ds).2 := by
  induction as generalizing s with
  | nil => exact ⟨[], by simp, by simp, rfl, hs, rfl⟩
  | cons a as ih =>
    by_cases hvalid : m.Valid a
    · obtain ⟨hmet, hnext⟩ := m.charge_valid hs h hvalid
      have hsound := h.spend (m.fair hvalid)
      rw [← hnext] at hsound
      obtain ⟨ds, hfair, hfrom, hrun, hknown, hend⟩ := ih (m.charge_known hs) hsound
      rw [hnext] at hrun hend
      refine ⟨m.demand a :: ds, ?_, ?_, ?_, hknown, hend⟩
      · intro d hd
        rcases List.mem_cons.mp hd with rfl | hd
        · exact m.fair hvalid
        · exact hfair d hd
      · intro d hd
        rcases List.mem_cons.mp hd with rfl | hd
        · exact ⟨a, List.mem_cons_self, rfl⟩
        · obtain ⟨x, hx, heq⟩ := hfrom d hd
          exact ⟨x, List.mem_cons_of_mem a hx, heq⟩
      · rw [run, Level.run, ← hmet]
        dsimp only
        split
        · rw [List.map_cons, hrun]
        · exact hrun
    · have hskip := m.charge_invalid hs hvalid
      obtain ⟨ds, hfair, hfrom, hrun, hknown, hend⟩ := ih hs h
      rw [run, hskip]
      refine ⟨ds, hfair, ?_, hrun, hknown, hend⟩
      intro d hd
      obtain ⟨x, hx, heq⟩ := hfrom d hd
      exact ⟨x, List.mem_cons_of_mem a hx, heq⟩

theorem window (hs : m.Known s) (h : (m.level s).Sound m.limits) (as : List α) (i : ι) {first last : K}
    (hwin : first ≤ last) :
    spent i first last ((m.run s as).1.map m.demand) ≤ m.limits.limit i + (last - first) * m.limits.rate i := by
  obtain ⟨ds, hfair, _, hrun, _⟩ := run_follows hs h as
  rw [hrun]
  exact Level.run_window h i hwin hfair

theorem sound (hs : m.Known s) (h : (m.level s).Sound m.limits) (as : List α) :
    m.Known (m.run s as).2 ∧ (m.level (m.run s as).2).Sound m.limits := by
  obtain ⟨ds, hfair, _, _, hknown, hend⟩ := run_follows hs h as
  rw [hend]
  exact ⟨hknown, h.run hfair⟩

/-- A refused charge takes no credit. -/
theorem credit_refused (hs : m.Known s) (h : (m.level s).Sound m.limits) {a : α} (hrefused : (m.charge s a).1 = false)
    (i : ι) : (m.level s).credit i ≤ (m.level (m.charge s a).2).credit i := by
  by_cases hvalid : m.Valid a
  · obtain ⟨hmet, hnext⟩ := m.charge_valid hs h hvalid
    rw [hrefused] at hmet
    rw [hnext]
    exact Level.credit_refused h hmet.symm i
  · rw [m.charge_invalid hs hvalid]

/-- Refused charges do not change what a later one finds. -/
theorem charge_refused (hs : m.Known s) (h : (m.level s).Sound m.limits) {as : List α} (hrefused : (m.run s as).1 = [])
    {a : α} (has : ∀ e ∈ as, (m.demand e).now ≤ (m.demand a).now) :
    (m.charge (m.run s as).2 a).1 = (m.charge s a).1 := by
  obtain ⟨ds, hfair, hfrom, hrun, hknown, hend⟩ := run_follows hs h as
  rw [hrefused] at hrun
  have hsound := h.run hfair
  rw [← hend] at hsound
  by_cases hvalid : m.Valid a
  · have hnow : ∀ e ∈ ds, e.now ≤ (m.demand a).now := by
      intro e he
      obtain ⟨x, hx, rfl⟩ := hfrom e he
      exact has x hx
    rw [(m.charge_valid hknown hsound hvalid).1, (m.charge_valid hs h hvalid).1, hend]
    exact Level.spend_run_met hrun.symm hnow
  · rw [m.charge_invalid hknown hvalid, m.charge_invalid hs hvalid]

/-- A bucket that nothing flows into gives no more than its limit in all. -/
theorem total (hs : m.Known s) (h : (m.level s).Sound m.limits) (as : List α) {i : ι} (hrate : m.limits.rate i = 0) :
    ((m.run s as).1.map fun a => (m.demand a).cost i).sum ≤ m.limits.limit i := by
  obtain ⟨first, last, hwin, hall⟩ := exists_window ((m.run s as).1.map m.demand)
  have hspent := window hs h as i hwin
  rw [spent_all hall, List.map_map, hrate, mul_zero, add_zero] at hspent
  exact hspent

end Meter

end CamGuard.TokenBucket
