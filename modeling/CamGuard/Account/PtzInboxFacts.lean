/-
Gestures never overlap: whatever callers and worker do, in any order, the slot
is free only when the gesture that had it is over (`Kept`), and it is free again
as soon as the caller has left and the worker has finished.

The serials of an inbox run out, so that the last of these holds as long as
there are any (`serials_run_out`).
-/
import CamGuard.Account.PtzInbox

namespace CamGuard.Account

namespace PtzInbox

/-! ## Moves -/

/-- What a call does. -/
inductive Moves (i : PtzInbox) : Option MotionEvent → PtzInbox → Prop
  | stay : Moves i none i
  | stop (closed : Bool) (h : i.closed = true → closed = true) :
    Moves i none { i with slot := i.slot.map MotionSlot.cancel, closed := closed }
  | submit (spec : PtzSpec) (deadline : ℚ) (hslot : i.slot = none) (hclosed : i.closed = false) :
    Moves i (some (.submitted ⟨i.generation, i.serial⟩)) { i with
      serial := i.serial + 1
      slot := some { ticket := ⟨i.generation, i.serial⟩, spec := spec, deadline := deadline } }
  | claim {s : MotionSlot} (hslot : i.slot = some s) (hclaimed : s.claimed = false) (hresult : s.result = none) :
    Moves i (some (.claimed s.ticket)) { i with slot := some { s with claimed := true } }
  | stale {ticket : MotionTicket} (h : ∀ s, i.slot = some s → s.ticket ≠ ticket) :
    Moves i (some (.abandoned ticket)) i
  | abandon {s : MotionSlot} (hslot : i.slot = some s) :
    Moves i (some (.abandoned s.ticket)) { i with
      slot :=
        if (MotionSlot.cancel { s with abandoned := true }).result.any ScheduledPtzResult.safe then none
        else some (MotionSlot.cancel { s with abandoned := true }) }
  | finish {s : MotionSlot} (result : ScheduledPtzResult) (hslot : i.slot = some s) (hclaimed : s.claimed = true)
      (hresult : s.result = none) (slot : Option MotionSlot)
      (hnext : (slot = none ∧ s.abandoned = true ∧ result.safe = true) ∨
        (slot = some { s with result := some result } ∧ (s.abandoned = true → result.safe = false))) :
    Moves i (some (.finished s.ticket result)) { i with closed := i.closed || !result.safe, slot := slot }
  | take {s : MotionSlot} {result : ScheduledPtzResult} (hslot : i.slot = some s) (hresult : s.result = some result) :
    Moves i (some (.taken s.ticket result)) { i with slot := none }

theorem moves_claim (i : PtzInbox) (now : ℚ) : Moves i (step now .claim i).1 (step now .claim i).2 := by
  unfold step claim
  cases hslot : i.slot with
  | none => exact .stay
  | some s =>
    simp only
    by_cases hbusy : s.claimed = true ∨ s.result.isSome = true
    · rw [if_pos hbusy]
      exact .stay
    rw [if_neg hbusy]
    simp only [not_or, Bool.not_eq_true, Option.isSome_eq_false_iff, Option.isNone_iff_eq_none] at hbusy
    by_cases hlate : i.closed = true ∨ s.deadline ≤ now
    · rw [if_pos hlate]
      have hstop := Moves.stop (i := i) i.closed id
      rw [hslot] at hstop
      exact hstop
    · rw [if_neg hlate]
      exact .claim hslot hbusy.1 hbusy.2

theorem moves_finish (i : PtzInbox) (now : ℚ) (ticket : MotionTicket) (result : ScheduledPtzResult) :
    Moves i (step now (.finish ticket result) i).1 (step now (.finish ticket result) i).2 := by
  unfold step finish
  cases hslot : i.slot with
  | none => exact .stay
  | some s =>
    simp only
    by_cases hrefused : s.ticket ≠ ticket ∨ s.claimed = false ∨ s.result.isSome = true
    · rw [if_pos hrefused]
      exact .stay
    rw [if_neg hrefused]
    simp only [not_or, ne_eq, Decidable.not_not, Bool.not_eq_false, Bool.not_eq_true, Option.isSome_eq_false_iff,
      Option.isNone_iff_eq_none] at hrefused
    obtain ⟨rfl, hclaimed, hresult⟩ := hrefused
    by_cases hmoving : result.startAttempted = true ∧ result.releaseDeliveryConfirmed = false
    · rw [if_pos hmoving]
      have hsafe : result.safe = false := by simp [ScheduledPtzResult.safe, hmoving.1, hmoving.2]
      have hfinish := Moves.finish result hslot hclaimed hresult _ (.inr ⟨rfl, fun _ => hsafe⟩)
      rw [hsafe, Bool.not_false, Bool.or_true] at hfinish
      exact hfinish
    · rw [if_neg hmoving]
      have hsafe : result.safe = true := by
        cases hstart : result.startAttempted <;> cases hrelease : result.releaseDeliveryConfirmed <;>
          simp_all [ScheduledPtzResult.safe]
      by_cases habandoned : s.abandoned = true
      · rw [if_pos habandoned]
        have hfinish := Moves.finish result hslot hclaimed hresult _ (.inl ⟨rfl, habandoned, hsafe⟩)
        rw [hsafe, Bool.not_true, Bool.or_false] at hfinish
        exact hfinish
      · rw [if_neg habandoned]
        have hfinish := Moves.finish result hslot hclaimed hresult _ (.inr ⟨rfl, fun heq => absurd heq habandoned⟩)
        rw [hsafe, Bool.not_true, Bool.or_false] at hfinish
        exact hfinish

/-- **Every call is one of the moves.** -/
theorem step_moves (i : PtzInbox) (now : ℚ) (call : MotionCall) : Moves i (i.step now call).1 (i.step now call).2 := by
  cases call with
  | submit spec =>
    unfold step submit
    simp only
    by_cases hvalid : spec.valid = false
    · rw [if_pos hvalid]
      exact .stay
    rw [if_neg hvalid]
    by_cases hopen : i.closed = true ∨ i.slot.isSome = true ∨ 2 ^ 64 ≤ i.serial
    · rw [if_pos hopen]
      exact .stay
    · rw [if_neg hopen]
      simp only [not_or, Bool.not_eq_true, Option.isSome_eq_false_iff, Option.isNone_iff_eq_none] at hopen
      exact .submit spec (now + 1) hopen.2.1 hopen.1
  | cancel ticket =>
    unfold step cancel
    cases hslot : i.slot with
    | none => exact .stay
    | some s =>
      simp only
      split
      · exact .stay
      · have hstop := Moves.stop (i := i) i.closed id
        rw [hslot] at hstop
        exact hstop
  | abandon ticket =>
    unfold step abandon
    cases hslot : i.slot with
    | none =>
      refine .stale fun s hs => ?_
      rw [hslot] at hs
      cases hs
    | some s =>
      simp only
      by_cases hticket : s.ticket ≠ ticket
      · rw [if_pos hticket]
        refine .stale fun s' hs' => ?_
        rw [hslot] at hs'
        cases hs'
        exact hticket
      · rw [if_neg hticket, ← not_not.mp hticket]
        exact .abandon hslot
  | take ticket =>
    unfold step take
    cases hslot : i.slot with
    | none => exact .stay
    | some s =>
      simp only
      by_cases hticket : s.ticket ≠ ticket
      · rw [if_pos hticket]
        exact .stay
      rw [if_neg hticket]
      cases hresult : s.result with
      | none => exact .stay
      | some result =>
        rw [← not_not.mp hticket]
        exact .take hslot hresult
  | claim => exact i.moves_claim now
  | finish ticket result => exact i.moves_finish now ticket result
  | close => exact .stop true fun _ => rfl

end PtzInbox

/-! ## Kept -/

open PtzInbox

/-- The caller that had the ticket has abandoned it. -/
def Left (log : List MotionEvent) (ticket : MotionTicket) : Prop :=
  ∃ before after, log = before ++ .abandoned ticket :: after ∧ .submitted ticket ∈ before

/-- What is right after what came before. -/
def PtzInbox.MotionEvent.Right (before : List MotionEvent) : MotionEvent → Prop
  | .submitted ticket => .submitted ticket ∉ before ∧
    (∀ other, .claimed other ∈ before → ∃ result, .finished other result ∈ before) ∧
    ∀ other result, .finished other result ∈ before → result.safe = true
  | .finished ticket _ => .claimed ticket ∈ before ∧ ∀ result, .finished ticket result ∉ before
  | .taken ticket _ => ∀ result, .taken ticket result ∉ before
  | _ => True

/-- What the log says of the gesture in the slot. -/
structure MotionSlot.Kept (log : List MotionEvent) (s : MotionSlot) : Prop where
  submitted : .submitted s.ticket ∈ log
  claimed : s.claimed = true ↔ .claimed s.ticket ∈ log
  finished : ∀ result, .finished s.ticket result ∈ log → s.result = some result
  result : s.claimed = true → ∀ result, s.result = some result → .finished s.ticket result ∈ log
  plain : s.claimed = false → ∀ result, s.result = some result → result.safe = true
  untaken : ∀ result, .taken s.ticket result ∉ log
  left : Left log s.ticket → s.abandoned = true
  abandoned : s.abandoned = true → s.claimed = true ∧ ∀ result, s.result = some result → result.safe = false

/-- What holds in every run. -/
structure PtzInbox.Kept (log : List MotionEvent) (i : PtzInbox) : Prop where
  right : Justified MotionEvent.Right log
  fresh : ∀ ticket, .submitted ticket ∈ log → ticket.serial < i.serial
  submitted : ∀ ticket, .claimed ticket ∈ log → .submitted ticket ∈ log
  taken : ∀ ticket result, .taken ticket result ∈ log → .submitted ticket ∈ log
  finished : ∀ ticket result, .finished ticket result ∈ log → .claimed ticket ∈ log
  slot : ∀ s, i.slot = some s → s.Kept log
  gone : ∀ ticket, .claimed ticket ∈ log → (∀ s, i.slot = some s → s.ticket ≠ ticket) →
    ∃ result, .finished ticket result ∈ log
  closed : ∀ ticket result, .finished ticket result ∈ log → result.safe = false → i.closed = true

variable {log : List MotionEvent} {i i' : PtzInbox}

theorem left_snoc {ticket : MotionTicket} {e : MotionEvent} (h : Left (log ++ [e]) ticket) :
    Left log ticket ∨ (e = .abandoned ticket ∧ .submitted ticket ∈ log) := by
  obtain ⟨before, after, hsplit, hmem⟩ := h
  rcases List.eq_nil_or_concat after with rfl | ⟨rest, last, rfl⟩
  · obtain ⟨rfl, hlast⟩ := List.append_inj' hsplit rfl
    cases hlast
    exact .inr ⟨rfl, hmem⟩
  · rw [List.concat_eq_append, ← List.cons_append, ← List.append_assoc] at hsplit
    exact .inl ⟨before, rest, (List.append_inj' hsplit rfl).1, hmem⟩

theorem MotionSlot.Kept.cancel {s : MotionSlot} (h : s.Kept log) : s.cancel.Kept log := by
  unfold MotionSlot.cancel
  simp only
  split
  · next hopen =>
    obtain ⟨hclaimed, hresult⟩ := hopen
    exact { h with
      finished := fun result hmem => by
        rw [h.finished result hmem] at hresult
        cases hresult
      result := fun hthis => by
        simp only [hclaimed] at hthis
        cases hthis
      plain := fun _ result hthis => by
        cases hthis
        rfl
      abandoned := fun habandoned => by
        have hthis := (h.abandoned habandoned).1
        rw [hclaimed] at hthis
        cases hthis }
  · exact { h with }

/-- An event of another gesture, or one that the slot does not show. -/
theorem MotionSlot.Kept.snoc {s : MotionSlot} (h : s.Kept log) {e : MotionEvent} (hclaimed : e ≠ .claimed s.ticket)
    (hfinished : ∀ result, e ≠ .finished s.ticket result) (htaken : ∀ result, e ≠ .taken s.ticket result)
    (habandoned : e ≠ .abandoned s.ticket) : s.Kept (log ++ [e]) where
  submitted := List.mem_append_left _ h.submitted
  claimed := by
    rw [h.claimed, List.mem_append, List.mem_singleton]
    exact ⟨.inl, fun hmem => hmem.resolve_right hclaimed.symm⟩
  finished := fun result hmem => by
    rw [List.mem_append, List.mem_singleton] at hmem
    exact h.finished result (hmem.resolve_right (hfinished result).symm)
  result := fun hthis result hresult => List.mem_append_left _ (h.result hthis result hresult)
  plain := h.plain
  untaken := fun result hmem => by
    rw [List.mem_append, List.mem_singleton] at hmem
    exact h.untaken result (hmem.resolve_right (htaken result).symm)
  left := fun hleft => by
    rcases left_snoc hleft with hleft | ⟨heq, -⟩
    · exact h.left hleft
    · exact absurd heq habandoned
  abandoned := h.abandoned

namespace PtzInbox

theorem Kept.over (h : Kept log i) (hslot : i.slot = none) {ticket : MotionTicket} (hclaimed : .claimed ticket ∈ log) :
    ∃ result, .finished ticket result ∈ log :=
  h.gone ticket hclaimed fun s hs => by
    rw [hslot] at hs
    cases hs

theorem Kept.stop (h : Kept log i) {closed : Bool} (hclosed : i.closed = true → closed = true) :
    Kept log { i with slot := i.slot.map MotionSlot.cancel, closed := closed } :=
  { h with
    slot := fun s hs => by
      obtain ⟨old, hold, rfl⟩ := Option.map_eq_some_iff.mp hs
      exact (h.slot old hold).cancel
    gone := fun ticket hclaimed hother => by
      refine h.gone ticket hclaimed fun s hs => ?_
      have hcancel := hother s.cancel (Option.map_eq_some_iff.mpr ⟨s, hs, rfl⟩)
      unfold MotionSlot.cancel at hcancel
      simp only at hcancel
      split at hcancel <;> exact hcancel
    closed := fun ticket result hfinished hmoving => hclosed (h.closed ticket result hfinished hmoving) }

theorem Kept.next (h : Kept log i) {e : MotionEvent} (hright : e.Right log) (hserial : i.serial ≤ i'.serial)
    (hclosed : i.closed = true → i'.closed = true) (hsubmitted : ∀ ticket, e = .submitted ticket → ticket.serial < i'.serial)
    (hclaimed : ∀ ticket, e = .claimed ticket → .submitted ticket ∈ log)
    (htaken : ∀ ticket result, e = .taken ticket result → .submitted ticket ∈ log)
    (hfinished : ∀ ticket result, e = .finished ticket result →
      .claimed ticket ∈ log ∧ (result.safe = false → i'.closed = true))
    (hslot : ∀ s, i'.slot = some s → s.Kept (log ++ [e]))
    (hgone : ∀ ticket, .claimed ticket ∈ log ++ [e] → (∀ s, i'.slot = some s → s.ticket ≠ ticket) →
      ∃ result, .finished ticket result ∈ log ++ [e]) : Kept (log ++ [e]) i' where
  right := h.right.snoc hright
  fresh := fun ticket hmem => by
    rcases List.mem_append.mp hmem with hmem | hmem
    · exact lt_of_lt_of_le (h.fresh ticket hmem) hserial
    · exact hsubmitted ticket (List.mem_singleton.mp hmem).symm
  submitted := fun ticket hmem => by
    rcases List.mem_append.mp hmem with hmem | hmem
    · exact List.mem_append_left _ (h.submitted ticket hmem)
    · exact List.mem_append_left _ (hclaimed ticket (List.mem_singleton.mp hmem).symm)
  taken := fun ticket result hmem => by
    rcases List.mem_append.mp hmem with hmem | hmem
    · exact List.mem_append_left _ (h.taken ticket result hmem)
    · exact List.mem_append_left _ (htaken ticket result (List.mem_singleton.mp hmem).symm)
  finished := fun ticket result hmem => by
    rcases List.mem_append.mp hmem with hmem | hmem
    · exact List.mem_append_left _ (h.finished ticket result hmem)
    · exact List.mem_append_left _ (hfinished ticket result (List.mem_singleton.mp hmem).symm).1
  slot := hslot
  gone := hgone
  closed := fun ticket result hmem hmoving => by
    rcases List.mem_append.mp hmem with hmem | hmem
    · exact hclosed (h.closed ticket result hmem hmoving)
    · exact (hfinished ticket result (List.mem_singleton.mp hmem).symm).2 hmoving

theorem Kept.submit (h : Kept log i) (spec : PtzSpec) (deadline : ℚ) (hslot : i.slot = none) (hclosed : i.closed = false) :
    Kept (log ++ [.submitted ⟨i.generation, i.serial⟩]) { i with
      serial := i.serial + 1
      slot := some { ticket := ⟨i.generation, i.serial⟩, spec := spec, deadline := deadline } } := by
  have hnew : .submitted ⟨i.generation, i.serial⟩ ∉ log := fun hmem => absurd (h.fresh _ hmem) (lt_irrefl _)
  have hright : MotionEvent.Right log (.submitted ⟨i.generation, i.serial⟩) := by
    refine ⟨hnew, fun other => h.over hslot, fun other result hfinished => ?_⟩
    by_contra hmoving
    have hthis := h.closed other result hfinished (by simpa using hmoving)
    rw [hclosed] at hthis
    cases hthis
  refine h.next hright (Nat.le_succ _) id (fun ticket heq => ?_) (by simp) (by simp) (by simp) (fun s hs => ?_)
    fun ticket hmem _ => ?_
  · cases heq
    exact Nat.lt_succ_self _
  · cases hs
    exact {
      submitted := by simp
      claimed := by
        constructor
        · intro hclaimed
          cases hclaimed
        · intro hmem
          simp only [List.mem_append, List.mem_singleton, reduceCtorEq, or_false] at hmem
          exact absurd (h.submitted _ hmem) hnew
      finished := fun result hmem => by
        simp only [List.mem_append, List.mem_singleton, reduceCtorEq, or_false] at hmem
        exact absurd (h.submitted _ (h.finished _ _ hmem)) hnew
      result := fun hclaimed => by cases hclaimed
      plain := fun _ result hthis => by cases hthis
      untaken := fun result hmem => by
        simp only [List.mem_append, List.mem_singleton, reduceCtorEq, or_false] at hmem
        exact hnew (h.taken _ _ hmem)
      left := fun hleft => by
        rcases left_snoc hleft with ⟨before, after, hsplit, hmem⟩ | ⟨heq, -⟩
        · refine absurd ?_ hnew
          rw [hsplit]
          exact List.mem_append_left _ hmem
        · cases heq
      abandoned := fun habandoned => by cases habandoned }
  · simp only [List.mem_append, List.mem_singleton, reduceCtorEq, or_false] at hmem
    obtain ⟨result, hfinished⟩ := h.over hslot hmem
    exact ⟨result, List.mem_append_left _ hfinished⟩

/-- A gesture that is no longer in the slot, or never was, is as it was. -/
theorem Kept.others (h : Kept log i) {s : MotionSlot} (hslot : i.slot = some s) {ticket : MotionTicket}
    (hclaimed : .claimed ticket ∈ log) (hne : s.ticket ≠ ticket) : ∃ result, .finished ticket result ∈ log :=
  h.gone ticket hclaimed fun s' hs' => by
    rw [hslot] at hs'
    cases hs'
    exact hne

theorem Kept.claim (h : Kept log i) {s : MotionSlot} (hslot : i.slot = some s) (hresult : s.result = none) :
    Kept (log ++ [.claimed s.ticket]) { i with slot := some { s with claimed := true } } := by
  have hkept := h.slot s hslot
  refine h.next trivial (le_refl _) id (by simp) (fun ticket heq => ?_) (by simp) (by simp) (fun s' hs' => ?_)
    fun ticket hmem hother => ?_
  · cases heq
    exact hkept.submitted
  · cases hs'
    exact {
      submitted := List.mem_append_left _ hkept.submitted
      claimed := by simp
      finished := fun result hmem => by
        simp only [List.mem_append, List.mem_singleton, reduceCtorEq, or_false] at hmem
        exact hkept.finished result hmem
      result := fun _ result hthis => by
        simp only [hresult] at hthis
        cases hthis
      plain := fun hthis => by cases hthis
      untaken := fun result hmem => by
        simp only [List.mem_append, List.mem_singleton, reduceCtorEq, or_false] at hmem
        exact hkept.untaken result hmem
      left := fun hleft => by
        rcases left_snoc hleft with hleft | ⟨heq, -⟩
        · exact hkept.left hleft
        · cases heq
      abandoned := fun habandoned => ⟨rfl, (hkept.abandoned habandoned).2⟩ }
  · have hne : s.ticket ≠ ticket := hother { s with claimed := true } rfl
    simp only [List.mem_append, List.mem_singleton, MotionEvent.claimed.injEq] at hmem
    obtain ⟨result, hfinished⟩ := h.others hslot (hmem.resolve_right hne.symm) hne
    exact ⟨result, List.mem_append_left _ hfinished⟩

theorem Kept.stale (h : Kept log i) {ticket : MotionTicket} (hstale : ∀ s, i.slot = some s → s.ticket ≠ ticket) :
    Kept (log ++ [.abandoned ticket]) i := by
  refine h.next trivial (le_refl _) id (by simp) (by simp) (by simp) (by simp) (fun s hs => ?_) fun other hmem hother => ?_
  · refine (h.slot s hs).snoc (by simp) (by simp) (by simp) ?_
    simpa using (hstale s hs).symm
  · simp only [List.mem_append, List.mem_singleton, reduceCtorEq, or_false] at hmem
    obtain ⟨result, hfinished⟩ := h.gone other hmem hother
    exact ⟨result, List.mem_append_left _ hfinished⟩

/-- An abandoned gesture stays only if it is claimed, and its end is not known
or not safe. -/
theorem Kept.abandon (h : Kept log i) {s : MotionSlot} (hslot : i.slot = some s) :
    Kept (log ++ [.abandoned s.ticket]) { i with
      slot :=
        if (MotionSlot.cancel { s with abandoned := true }).result.any ScheduledPtzResult.safe then none
        else some (MotionSlot.cancel { s with abandoned := true }) } := by
  have hkept := h.slot s hslot
  by_cases hopen : s.claimed = false ∧ s.result.isNone = true
  · -- What was not claimed ends at once, and the slot is free.
    have hcancel : (MotionSlot.cancel { s with abandoned := true }).result = some ⟨"cancelled", false, 0, false, false⟩ := by
      simp only [MotionSlot.cancel]
      rw [if_pos hopen]
    rw [hcancel, if_pos (by decide)]
    refine h.next trivial (le_refl _) id (by simp) (by simp) (by simp) (by simp) (fun s' hs' => by cases hs')
      fun ticket hmem _ => ?_
    simp only [List.mem_append, List.mem_singleton, reduceCtorEq, or_false] at hmem ⊢
    refine h.others hslot hmem ?_
    rintro rfl
    rw [hkept.claimed.mpr hmem] at hopen
    cases hopen.1
  · have hcancel : MotionSlot.cancel { s with abandoned := true } = { s with abandoned := true, cancelled := true } := by
      simp only [MotionSlot.cancel]
      rw [if_neg hopen]
    rw [hcancel]
    by_cases hsafe : s.result.any ScheduledPtzResult.safe
    · simp only [hsafe, if_true]
      refine h.next trivial (le_refl _) id (by simp) (by simp) (by simp) (by simp) (fun s' hs' => by cases hs')
        fun ticket hmem _ => ?_
      simp only [List.mem_append, List.mem_singleton, reduceCtorEq, or_false] at hmem ⊢
      by_cases hticket : s.ticket = ticket
      · subst hticket
        cases hresult : s.result with
        | none =>
          rw [hresult] at hsafe
          cases hsafe
        | some result => exact ⟨result, hkept.result (hkept.claimed.mpr hmem) result hresult⟩
      · exact h.others hslot hmem hticket
    · have hmoving : ∀ result, s.result = some result → result.safe = false := by
        intro result hresult
        rw [hresult] at hsafe
        simpa using hsafe
      have hclaimed : s.claimed = true := by
        by_contra hnot
        have hnot : s.claimed = false := by simpa using hnot
        cases hresult : s.result with
        | none => exact hopen ⟨hnot, by rw [hresult]; rfl⟩
        | some result =>
          have hsafe' := hkept.plain hnot result hresult
          rw [hmoving result hresult] at hsafe'
          cases hsafe'
      simp only [hsafe, Bool.false_eq_true, if_false]
      refine h.next trivial (le_refl _) id (by simp) (by simp) (by simp) (by simp) (fun s' hs' => ?_)
        fun ticket hmem hother => ?_
      · cases hs'
        exact {
          submitted := List.mem_append_left _ hkept.submitted
          claimed := by
            simp only [List.mem_append, List.mem_singleton, reduceCtorEq, or_false]
            exact hkept.claimed
          finished := fun result hmem => by
            simp only [List.mem_append, List.mem_singleton, reduceCtorEq, or_false] at hmem
            exact hkept.finished result hmem
          result := fun hthis result hresult => List.mem_append_left _ (hkept.result hthis result hresult)
          plain := hkept.plain
          untaken := fun result hmem => by
            simp only [List.mem_append, List.mem_singleton, reduceCtorEq, or_false] at hmem
            exact hkept.untaken result hmem
          left := fun _ => rfl
          abandoned := fun _ => ⟨hclaimed, hmoving⟩ }
      · simp only [List.mem_append, List.mem_singleton, reduceCtorEq, or_false] at hmem ⊢
        exact h.others hslot hmem (hother { s with abandoned := true, cancelled := true } rfl)

theorem Kept.finish (h : Kept log i) {s : MotionSlot} (result : ScheduledPtzResult) (hslot : i.slot = some s)
    (hclaimed : s.claimed = true) (hresult : s.result = none) {slot : Option MotionSlot}
    (hnext : (slot = none ∧ s.abandoned = true ∧ result.safe = true) ∨
      (slot = some { s with result := some result } ∧ (s.abandoned = true → result.safe = false))) :
    Kept (log ++ [.finished s.ticket result]) { i with closed := i.closed || !result.safe, slot := slot } := by
  have hkept := h.slot s hslot
  have hmine : .claimed s.ticket ∈ log := hkept.claimed.mp hclaimed
  have hnew : ∀ other, .finished s.ticket other ∉ log := by
    intro other hmem
    rw [hkept.finished other hmem] at hresult
    cases hresult
  refine h.next ⟨hmine, hnew⟩ (le_refl _) (fun hthis => by simp [hthis]) (by simp) (by simp) (by simp)
    (fun ticket other heq => ?_) (fun s' hs' => ?_) fun ticket hmem _ => ?_
  · cases heq
    exact ⟨hmine, fun hmoving => by simp [hmoving]⟩
  · rcases hnext with ⟨hnone, -⟩ | ⟨hsome, hmoving⟩
    · rw [show slot = some s' from hs'] at hnone
      cases hnone
    · rw [show slot = some s' from hs'] at hsome
      cases hsome
      exact {
        submitted := List.mem_append_left _ hkept.submitted
        claimed := by
          simp only [List.mem_append, List.mem_singleton, reduceCtorEq, or_false]
          exact hkept.claimed
        finished := fun other hmem => by
          simp only [List.mem_append, List.mem_singleton, MotionEvent.finished.injEq, true_and] at hmem
          rcases hmem with hmem | rfl
          · exact absurd hmem (hnew other)
          · rfl
        result := fun _ other hthis => by
          cases hthis
          simp
        plain := fun hthis => by
          simp only [hclaimed] at hthis
          cases hthis
        untaken := fun other hmem => by
          simp only [List.mem_append, List.mem_singleton, reduceCtorEq, or_false] at hmem
          exact hkept.untaken other hmem
        left := fun hleft => by
          rcases left_snoc hleft with hleft | ⟨heq, -⟩
          · exact hkept.left hleft
          · cases heq
        abandoned := fun habandoned => ⟨hclaimed, fun other hthis => by
          cases hthis
          exact hmoving habandoned⟩ }
  · by_cases hticket : s.ticket = ticket
    · subst hticket
      exact ⟨result, by simp⟩
    · simp only [List.mem_append, List.mem_singleton, reduceCtorEq, or_false] at hmem
      obtain ⟨other, hfinished⟩ := h.others hslot hmem hticket
      exact ⟨other, List.mem_append_left _ hfinished⟩

theorem Kept.take (h : Kept log i) {s : MotionSlot} {result : ScheduledPtzResult} (hslot : i.slot = some s)
    (hresult : s.result = some result) : Kept (log ++ [.taken s.ticket result]) { i with slot := none } := by
  have hkept := h.slot s hslot
  refine h.next hkept.untaken (le_refl _) id (by simp) (by simp) (fun ticket other heq => ?_) (by simp)
    (fun s' hs' => by cases hs') fun ticket hmem _ => ?_
  · cases heq
    exact hkept.submitted
  · simp only [List.mem_append, List.mem_singleton, reduceCtorEq, or_false] at hmem ⊢
    by_cases hticket : s.ticket = ticket
    · subst hticket
      exact ⟨result, hkept.result (hkept.claimed.mpr hmem) result hresult⟩
    · exact h.others hslot hmem hticket

theorem Kept.moves (h : Kept log i) {e : Option MotionEvent} (hmoves : Moves i e i') : Kept (log ++ e.toList) i' := by
  cases hmoves with
  | stay => simpa using h
  | stop closed hclosed => simpa using h.stop hclosed
  | submit spec deadline hslot hclosed => exact h.submit spec deadline hslot hclosed
  | claim hslot _ hresult => exact h.claim hslot hresult
  | stale hstale => exact h.stale hstale
  | abandon hslot => exact h.abandon hslot
  | finish result hslot hclaimed hresult slot hnext => exact h.finish result hslot hclaimed hresult hnext
  | take hslot hresult => exact h.take hslot hresult

end PtzInbox

/-! ## Runs -/

namespace MotionRun

theorem kept_new {generation : Nat} {i : PtzInbox} (h : PtzInbox.new generation = .ok i) : Kept [] i := by
  unfold PtzInbox.new at h
  split at h
  · cases h
    exact {
      right := justified_nil _
      fresh := fun _ hmem => by cases hmem
      submitted := fun _ hmem => by cases hmem
      taken := fun _ _ hmem => by cases hmem
      finished := fun _ _ hmem => by cases hmem
      slot := fun s hs => by cases hs
      gone := fun _ hmem => by cases hmem
      closed := fun _ _ hmem => by cases hmem }
  · cases h

theorem kept_run {r : MotionRun} (h : Kept r.log r.inbox) (calls : List (ℚ × MotionCall)) :
    Kept (Machine.run step r calls).log (Machine.run step r calls).inbox := by
  induction calls generalizing r with
  | nil => exact h
  | cons call calls ih => exact ih (r := r.step call.1 call.2) (h.moves (r.inbox.step_moves call.1 call.2))

/-- The caller has left the gesture, with its result or without, and the worker
has finished it, if it had claimed it, and the camera stands still. -/
def Settled (log : List MotionEvent) (ticket : MotionTicket) : Prop :=
  (Left log ticket ∨ ∃ result, .taken ticket result ∈ log) ∧
    (.claimed ticket ∈ log → ∃ result, .finished ticket result ∈ log ∧ result.safe = true)

/-- **A settled gesture does not hold the slot.** -/
theorem settled_free {log : List MotionEvent} {i : PtzInbox} (h : Kept log i) {ticket : MotionTicket}
    (hsettled : Settled log ticket) {s : MotionSlot} (hslot : i.slot = some s) : s.ticket ≠ ticket := by
  rintro rfl
  have hkept := h.slot s hslot
  obtain ⟨hleft | ⟨result, htaken⟩, hsafe⟩ := hsettled
  · obtain ⟨hclaimed, hmoving⟩ := hkept.abandoned (hkept.left hleft)
    obtain ⟨result, hfinished, hthis⟩ := hsafe (hkept.claimed.mp hclaimed)
    rw [hmoving result (hkept.finished result hfinished)] at hthis
    cases hthis
  · exact hkept.untaken result htaken

/-- The takes of a ticket that gave a result. -/
def takes (ticket : MotionTicket) (log : List MotionEvent) : List MotionEvent :=
  log.filter fun e => match e with
    | .taken other _ => decide (other = ticket)
    | _ => false

theorem takes_le_one {log : List MotionEvent} (h : Justified MotionEvent.Right log) (ticket : MotionTicket) :
    (takes ticket log).length ≤ 1 := by
  induction log using List.reverseRecOn with
  | nil => exact Nat.zero_le _
  | append_singleton log e ih =>
    have hbefore : Justified MotionEvent.Right log := fun before e' after hsplit =>
      h before e' (after ++ [e]) (by rw [hsplit, List.append_assoc, List.cons_append])
    have hlast := h log e [] rfl
    rw [takes, List.filter_append, List.length_append, ← takes]
    by_cases htaken : ∃ result, e = .taken ticket result
    · obtain ⟨result, rfl⟩ := htaken
      have hnone : takes ticket log = [] := by
        refine List.filter_eq_nil_iff.mpr fun e he => ?_
        cases e with
        | taken other result' =>
          simp only [decide_eq_true_eq]
          rintro rfl
          exact hlast result' he
        | _ => simp
      rw [hnone]
      simp
    · have hnot : (List.filter (fun e => match e with
          | MotionEvent.taken other _ => decide (other = ticket)
          | _ => false) [e]) = [] := by
        refine List.filter_eq_nil_iff.mpr fun e' he' => ?_
        rw [List.mem_singleton.mp he']
        cases e with
        | taken other result' =>
          simp only [decide_eq_true_eq]
          rintro rfl
          exact htaken ⟨result', rfl⟩
        | _ => simp
      rw [hnot]
      exact ih hbefore

theorem stale_nothing {i : PtzInbox} {ticket : MotionTicket} (h : ∀ s, i.slot = some s → s.ticket ≠ ticket)
    (result : ScheduledPtzResult) :
    i.cancel ticket = (false, i) ∧ i.abandon ticket = i ∧ i.take ticket = (none, i) ∧ i.finish ticket result = (false, i) := by
  unfold PtzInbox.cancel PtzInbox.abandon PtzInbox.take PtzInbox.finish
  cases hslot : i.slot with
  | none => exact ⟨rfl, rfl, rfl, rfl⟩
  | some s =>
    have hother := h s hslot
    simp only
    rw [if_pos (.inl hother), if_pos hother, if_pos hother, if_pos (.inl hother)]
    exact ⟨rfl, rfl, rfl, rfl⟩

theorem finish_accepted {log : List MotionEvent} {i : PtzInbox} (h : Kept log i) {ticket : MotionTicket}
    (hclaimed : .claimed ticket ∈ log) (hopen : ∀ result, .finished ticket result ∉ log) (result : ScheduledPtzResult) :
    (i.finish ticket result).1 = true := by
  have hslot : ∃ s, i.slot = some s ∧ s.ticket = ticket := by
    by_contra hnot
    obtain ⟨result', hfinished⟩ := h.gone ticket hclaimed fun s hs heq => hnot ⟨s, hs, heq⟩
    exact hopen result' hfinished
  obtain ⟨s, hslot, rfl⟩ := hslot
  have hkept := h.slot s hslot
  have hthis := hkept.claimed.mpr hclaimed
  have hresult : s.result = none := by
    cases hsome : s.result with
    | none => rfl
    | some result' => exact absurd (hkept.result hthis result' hsome) (hopen result')
  unfold PtzInbox.finish
  simp only [hslot]
  rw [if_neg (by simp [hthis, hresult])]
  split
  · rfl
  split <;> rfl

/-- **Gestures never overlap.** In every run of callers and worker on an inbox:
a gesture is admitted only when every claimed one has its result, and every
result is safe; at most one gesture is claimed and has no result, and the
worker's result for it is accepted; a ticket is given out once, gives at most
one result, and does nothing to another gesture; and a gesture that its caller
has left and that the worker has finished safely, if it had claimed it, does not
hold the slot: when every gesture is such, the slot is free, and another one is
admitted unless the inbox is closed or its serials are used up. -/
theorem gestures_never_overlap {generation : Nat} {i : PtzInbox} (hnew : PtzInbox.new generation = .ok i)
    (calls : List (ℚ × MotionCall)) :
    let r := run i calls
    Justified (fun before e => ∀ ticket, e = .submitted ticket → .submitted ticket ∉ before ∧
      (∀ other, .claimed other ∈ before → ∃ result, .finished other result ∈ before) ∧
      ∀ other result, .finished other result ∈ before → result.safe = true) r.log ∧
    (∀ ticket, .claimed ticket ∈ r.log → (∀ result, .finished ticket result ∉ r.log) →
      (∀ other, .claimed other ∈ r.log → (∀ result, .finished other result ∉ r.log) → other = ticket) ∧
      ∀ result, (r.inbox.finish ticket result).1 = true) ∧
    (∀ ticket, (takes ticket r.log).length ≤ 1) ∧
    (∀ ticket, (∀ s, r.inbox.slot = some s → s.ticket ≠ ticket) → ∀ result, r.inbox.cancel ticket = (false, r.inbox) ∧
      r.inbox.abandon ticket = r.inbox ∧ r.inbox.take ticket = (none, r.inbox) ∧
      r.inbox.finish ticket result = (false, r.inbox)) ∧
    (∀ ticket, Settled r.log ticket → ∀ s, r.inbox.slot = some s → s.ticket ≠ ticket) ∧
    ((∀ ticket, .submitted ticket ∈ r.log → Settled r.log ticket) → r.inbox.slot = none ∧
      ∀ spec now, spec.valid = true → r.inbox.closed = false → r.inbox.serial < 2 ^ 64 →
        ∃ ticket, (r.inbox.submit spec now).1 = .ok ticket) := by
  have h : Kept (run i calls).log (run i calls).inbox := kept_run (kept_new hnew) calls
  -- What is claimed and has no result is in the slot.
  have hslot : ∀ ticket, .claimed ticket ∈ (run i calls).log → (∀ result, .finished ticket result ∉ (run i calls).log) →
      ∃ s, (run i calls).inbox.slot = some s ∧ s.ticket = ticket := by
    intro ticket hclaimed hopen
    by_contra hnot
    obtain ⟨result, hfinished⟩ := h.gone ticket hclaimed fun s hs heq => hnot ⟨s, hs, heq⟩
    exact hopen result hfinished
  refine ⟨fun before e after hsplit ticket heq => ?_, fun ticket hclaimed hopen => ⟨fun other hclaimed' hopen' => ?_, ?_⟩,
    takes_le_one h.right, fun ticket hstale result => stale_nothing hstale result,
    fun ticket hsettled s hs => settled_free h hsettled hs, fun hall => ?_⟩
  · have hright := h.right before e after hsplit
    rw [heq] at hright
    exact hright
  · obtain ⟨s, hs, hticket⟩ := hslot ticket hclaimed hopen
    obtain ⟨s', hs', hticket'⟩ := hslot other hclaimed' hopen'
    rw [hs] at hs'
    cases hs'
    exact hticket'.symm.trans hticket
  · exact finish_accepted h hclaimed hopen
  · have hfree : (run i calls).inbox.slot = none := by
      cases hsome : (run i calls).inbox.slot with
      | none => rfl
      | some s => exact absurd rfl (settled_free h (hall s.ticket (h.slot s hsome).submitted) hsome)
    refine ⟨hfree, fun spec now hvalid hclosed hserial => ?_⟩
    unfold PtzInbox.submit
    rw [if_neg (by simp [hvalid]), if_neg (by simp [hclosed, hfree]; omega)]
    exact ⟨_, rfl⟩

/-- A gesture to the left. -/
def leftGesture : PtzSpec := ⟨5, 9, .left, [.left, .right], 1 / 5⟩

/-- A claimed gesture is abandoned, then finished, and another one submitted
before and after. -/
def abandonedThenFinished : List (ℚ × MotionCall) :=
  [(0, .submit leftGesture), (0, .claim), (0, .abandon ⟨3, 0⟩), (0, .submit leftGesture),
    (1, .finish ⟨3, 0⟩ ⟨"completed", true, 1, true, false⟩), (1, .submit leftGesture)]

/-- The theorem applies to this run, in which the second submission is refused. -/
theorem gestures_never_overlap_abandoned : ∃ i, PtzInbox.new 3 = .ok i ∧
    (run i abandonedThenFinished).log = [.submitted ⟨3, 0⟩, .claimed ⟨3, 0⟩, .abandoned ⟨3, 0⟩,
      .finished ⟨3, 0⟩ ⟨"completed", true, 1, true, false⟩, .submitted ⟨3, 1⟩] ∧
    (takes ⟨3, 0⟩ (run i abandonedThenFinished).log).length ≤ 1 := by
  have hnew : PtzInbox.new 3 = .ok { generation := 3 } := rfl
  exact ⟨_, hnew, by decide +kernel, (gestures_never_overlap hnew abandonedThenFinished).2.2.1 ⟨3, 0⟩⟩

/-- A gesture is submitted and abandoned, `n` times. -/
def abandonedCalls (n : Nat) : List (ℚ × MotionCall) :=
  (List.range n).flatMap fun k => [(0, .submit leftGesture), (0, .abandon ⟨1, k⟩)]

def abandonedLog (n : Nat) : List MotionEvent :=
  (List.range n).flatMap fun k => [.submitted ⟨1, k⟩, .abandoned ⟨1, k⟩]

theorem run_abandoned {n : Nat} (h : n ≤ 2 ^ 64) :
    run { generation := 1 } (abandonedCalls n) = ⟨{ generation := 1, serial := n }, abandonedLog n⟩ := by
  induction n with
  | zero => rfl
  | succ n ih =>
    have hsubmit : PtzInbox.submit { generation := 1, serial := n } leftGesture 0 = (.ok ⟨1, n⟩, {
        generation := 1
        serial := n + 1
        slot := some { ticket := ⟨1, n⟩, spec := leftGesture, deadline := 0 + 1 } }) := by
      unfold PtzInbox.submit
      rw [if_neg (by decide +kernel), if_neg (by simp; omega)]
    have habandon : PtzInbox.abandon {
        generation := 1
        serial := n + 1
        slot := some { ticket := ⟨1, n⟩, spec := leftGesture, deadline := 0 + 1 } } ⟨1, n⟩ =
        { generation := 1, serial := n + 1 } := by
      simp [PtzInbox.abandon, MotionSlot.cancel, ScheduledPtzResult.safe]
    have hrun := ih (by omega)
    unfold run at hrun ⊢
    rw [abandonedCalls, List.range_succ, List.flatMap_append, Machine.run_append, ← abandonedCalls, hrun]
    simp only [List.flatMap_cons, List.flatMap_nil, List.append_nil, Machine.run, List.foldl_cons, List.foldl_nil, step,
      PtzInbox.step, hsubmit, habandon]
    simp [abandonedLog, List.range_succ]

/-- **The serials run out**: after enough gestures that were abandoned at once
the slot is free and the inbox is open, and no gesture is admitted. -/
theorem serials_run_out :
    (∀ ticket, .submitted ticket ∈ (run { generation := 1 } (abandonedCalls (2 ^ 64))).log →
      Settled (run { generation := 1 } (abandonedCalls (2 ^ 64))).log ticket) ∧
    (run { generation := 1 } (abandonedCalls (2 ^ 64))).inbox.slot = none ∧
    (run { generation := 1 } (abandonedCalls (2 ^ 64))).inbox.closed = false ∧ leftGesture.valid = true ∧
    ∀ now, ((run { generation := 1 } (abandonedCalls (2 ^ 64))).inbox.submit leftGesture now).1 = .error .unavailable := by
  rw [run_abandoned (le_refl _)]
  refine ⟨fun ticket hmem => ?_, rfl, rfl, by decide +kernel, fun now => ?_⟩
  · simp only [abandonedLog, List.mem_flatMap, List.mem_cons, reduceCtorEq, MotionEvent.submitted.injEq, List.not_mem_nil,
      or_false] at hmem
    obtain ⟨k, hk, rfl⟩ := hmem
    refine ⟨.inl ?_, fun hclaimed => ?_⟩
    · obtain ⟨before, after, hsplit⟩ := List.append_of_mem hk
      refine ⟨before.flatMap (fun k => [.submitted ⟨1, k⟩, .abandoned ⟨1, k⟩]) ++ [.submitted ⟨1, k⟩],
        after.flatMap fun k => [.submitted ⟨1, k⟩, .abandoned ⟨1, k⟩], ?_, by simp⟩
      rw [abandonedLog, hsplit]
      simp
    · simp [abandonedLog] at hclaimed
  · unfold PtzInbox.submit
    rw [if_neg (by decide +kernel), if_pos (.inr (.inr (le_refl _)))]

end MotionRun

end CamGuard.Account
