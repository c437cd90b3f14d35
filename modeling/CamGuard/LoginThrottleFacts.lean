/-
What the login throttle promises: it is a pacing of each slot (`run_met`), which no call of
another slot has a part in (`run_filter`), and which a refused call does not touch.
-/
import Mathlib.Tactic.NormNum
import CamGuard.Lib.VirtualTime
import CamGuard.LoginThrottle

namespace CamGuard.LoginThrottle

/-- Ten at once, and one every six seconds. -/
def pacing : Pacing ℚ := ⟨BURST, INTERVAL, by decide, by norm_num [INTERVAL]⟩

variable {hosts : LoginHosts} {host : String} {now : ℚ} {t t' : LoginThrottle} {i : Fin SLOTS}

theorem retryAfter_refused (h : now < pacing.earliest (t.next (slot hosts host))) :
    t.retryAfter hosts host now = ((pacing.earliest (t.next (slot hosts host)) - now).ceil, t) := if_pos h

theorem retryAfter_met (h : ¬now < pacing.earliest (t.next (slot hosts host))) :
    t.retryAfter hosts host now =
      (0, { t with next := Function.update t.next (slot hosts host) (pacing.after (t.next (slot hosts host)) now) }) := by
  rw [pacing.after_met h]
  exact if_neg h

/-- Nothing but a wait is refused: the answer is zero exactly if the call is met. -/
theorem answer_eq_zero : (t.retryAfter hosts host now).1 = 0 ↔ ¬now < pacing.earliest (t.next (slot hosts host)) := by
  by_cases hwait : now < pacing.earliest (t.next (slot hosts host))
  · rw [retryAfter_refused hwait]
    refine iff_of_false (fun hzero => ?_) (not_not.mpr hwait)
    have hpos : (0 : Int) < (pacing.earliest (t.next (slot hosts host)) - now).ceil :=
      Rat.lt_ceil_iff.mpr (by rw [Int.cast_zero]; exact sub_pos.mpr hwait)
    exact hpos.ne' hzero
  · rw [retryAfter_met hwait]
    exact iff_of_true rfl hwait

theorem next_self : (t.retryAfter hosts host now).2.next (slot hosts host) = pacing.after (t.next (slot hosts host)) now := by
  by_cases hwait : now < pacing.earliest (t.next (slot hosts host))
  · rw [retryAfter_refused hwait, pacing.after_refused hwait]
  · rw [retryAfter_met hwait]
    exact Function.update_self _ _ _

theorem next_other (h : slot hosts host ≠ i) : (t.retryAfter hosts host now).2.next i = t.next i := by
  by_cases hwait : now < pacing.earliest (t.next (slot hosts host))
  · rw [retryAfter_refused hwait]
  · rw [retryAfter_met hwait]
    exact Function.update_of_ne (Ne.symm h) _ _

theorem answer_same (h : t.next (slot hosts host) = t'.next (slot hosts host)) :
    (t.retryAfter hosts host now).1 = (t'.retryAfter hosts host now).1 := by
  by_cases hwait : now < pacing.earliest (t.next (slot hosts host))
  · have hwait' := hwait
    rw [h] at hwait'
    rw [retryAfter_refused hwait, retryAfter_refused hwait', h]
  · have hwait' := hwait
    rw [h] at hwait'
    rw [retryAfter_met hwait, retryAfter_met hwait']

/-! ## Runs -/

/-- **No slot has a part in another's calls.** -/
theorem run_filter (h : t.next i = t'.next i) (calls : List (ℚ × String)) :
    (t.run hosts calls).1.filter (fun e => slot hosts e.host = i) =
      (t'.run hosts (calls.filter fun call => slot hosts call.2 = i)).1 := by
  induction calls generalizing t t' with
  | nil => rfl
  | cons call calls ih =>
    obtain ⟨now, host⟩ := call
    by_cases hslot : slot hosts host = i
    · subst hslot
      have hnext : (t.retryAfter hosts host now).2.next (slot hosts host) =
          (t'.retryAfter hosts host now).2.next (slot hosts host) := by
        rw [next_self, next_self, h]
      simp only [run, List.filter_cons, decide_true, if_true, ih hnext, answer_same h]
    · simp only [run, List.filter_cons, hslot, decide_false, Bool.false_eq_true, if_false]
      exact ih ((next_other hslot).trans h)

theorem run_met (t : LoginThrottle) (calls : List (ℚ × String)) :
    ((t.run hosts calls).1.filter fun e => slot hosts e.host = i && e.answer = 0).map Attempt.now =
      pacing.met (t.next i) ((calls.filter fun call => slot hosts call.2 = i).map Prod.fst) := by
  induction calls generalizing t with
  | nil => rfl
  | cons call calls ih =>
    obtain ⟨now, host⟩ := call
    have hrest := ih (t.retryAfter hosts host now).2
    by_cases hslot : slot hosts host = i
    · subst hslot
      rw [next_self] at hrest
      by_cases hwait : now < pacing.earliest (t.next (slot hosts host))
      · have hanswer : (t.retryAfter hosts host now).1 ≠ 0 := fun hzero => answer_eq_zero.mp hzero hwait
        rw [pacing.after_refused hwait] at hrest
        simpa [run, hanswer, Pacing.met, hwait] using hrest
      · have hanswer : (t.retryAfter hosts host now).1 = 0 := answer_eq_zero.mpr hwait
        simpa [run, hanswer, Pacing.met, hwait] using hrest
    · rw [next_other hslot] at hrest
      simpa [run, hslot] using hrest

theorem next_kept {calls : List (ℚ × String)} (h : ∀ e ∈ (t.run hosts calls).1, slot hosts e.host = i → e.answer ≠ 0) :
    (t.run hosts calls).2.next i = t.next i := by
  induction calls generalizing t with
  | nil => rfl
  | cons call calls ih =>
    obtain ⟨now, host⟩ := call
    rw [run, List.forall_mem_cons] at h
    refine (ih h.2).trans ?_
    by_cases hslot : slot hosts host = i
    · subst hslot
      have hwait : now < pacing.earliest (t.next (slot hosts host)) := not_not.mp (mt answer_eq_zero.mpr (h.1 rfl))
      rw [retryAfter_refused hwait]
    · exact next_other hslot

theorem met_after_wait (hrefused : (t.retryAfter hosts host now).1 ≠ 0) {host' : String}
    (h : t'.next (slot hosts host') = t.next (slot hosts host)) {later : ℚ}
    (hwait : now + (t.retryAfter hosts host now).1 ≤ later) : (t'.retryAfter hosts host' later).1 = 0 := by
  have hearly : now < pacing.earliest (t.next (slot hosts host)) := not_not.mp (mt answer_eq_zero.mpr hrefused)
  rw [retryAfter_refused hearly] at hwait
  have hceil : pacing.earliest (t.next (slot hosts host)) - now ≤
      ((pacing.earliest (t.next (slot hosts host)) - now).ceil : Int) := Rat.le_ceil
  rw [answer_eq_zero, h]
  linarith

/-- **Logins are paced**, in every order in which the calls may have the lock and whatever
the clock does. In every window a slot meets at most ten calls and one for each six
seconds; a refused call changes nothing; after the wait it was told its slot meets a call,
unless another was met there in between; and the calls of other slots have no part in it. -/
theorem login_paced (hosts : LoginHosts) (calls : List (ℚ × String)) :
    (∀ (i : Fin SLOTS) (s t : ℚ), s ≤ t →
      (((run hosts {} calls).1.countP fun e =>
        s ≤ e.now && e.now ≤ t && (slot hosts e.host = i && e.answer = 0) : Nat) : ℚ) ≤ 10 + (t - s) / 6) ∧
    (∀ host now, let t := (run hosts {} calls).2
      let refused := t.retryAfter hosts host now
      refused.1 ≠ 0 → refused.2 = t ∧
        ∀ between host' later, slot hosts host' = slot hosts host →
          (∀ e ∈ (refused.2.run hosts between).1, slot hosts e.host = slot hosts host → e.answer ≠ 0) →
          now + refused.1 ≤ later → ((refused.2.run hosts between).2.retryAfter hosts host' later).1 = 0) ∧
    ∀ i : Fin SLOTS, (run hosts {} calls).1.filter (fun e => slot hosts e.host = i) =
      (run hosts {} (calls.filter fun call => slot hosts call.2 = i)).1 := by
  refine ⟨fun i s t hst => ?_, fun host now => ?_, fun i => run_filter rfl calls⟩
  · have hwindow := pacing.count_window hst (({} : LoginThrottle).next i)
      ((calls.filter fun call => slot hosts call.2 = i).map Prod.fst)
    rw [← run_met, List.countP_map, List.countP_filter] at hwindow
    simpa [pacing, BURST, INTERVAL, Function.comp_def] using hwindow
  · intro t refused hrefused
    have hkept : refused.2 = t := by
      rw [show refused = _ from retryAfter_refused (not_not.mp (mt answer_eq_zero.mpr hrefused))]
    refine ⟨hkept, fun between host' later hhost hbetween hlater => ?_⟩
    rw [hkept] at hbetween ⊢
    refine met_after_wait hrefused ?_ hlater
    rw [hhost]
    exact next_kept hbetween

end CamGuard.LoginThrottle
