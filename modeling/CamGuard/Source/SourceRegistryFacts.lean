/-
The registry is exclusive whatever its threads do. Every entry belongs to the call
of `run` that made it, for as long as that call goes on, and for ever if it raised
(`Inv`); no section under the lock touches the entry of another call but to signal
it.
-/
import CamGuard.Source.SourceRegistry
import Mathlib.Data.List.Induction
import Mathlib.Tactic.Common

namespace CamGuard.Source

/-- The call owns an entry: it goes on, or it raised. -/
def RunPoint.Owns (point : RunPoint) : Prop := point ≠ .returned ∧ point ≠ .refused

namespace SourceRegistry

/-- The entry is the one that this call made. -/
structure Made (s : SourceRegistry) (r : Nat) (run : SourceRun) (e : SourceEntry) : Prop where
  entry : s.entries.get? run.camera = some e
  maker : e.run = r
  domain : e.domain = run.domain
  blocked : e.phase = .blocked ↔ run.point = .raised

structure Inv (s : SourceRegistry) : Prop where
  mine : ∀ r run, s.runs r = some run → run.point.Owns → ∃ e, Made s r run e
  theirs : ∀ camera e, s.entries.get? camera = some e →
    ∃ run, s.runs e.run = some run ∧ run.camera = camera ∧ run.point.Owns
  domains : ∀ c₁ c₂ e₁ e₂, s.entries.get? c₁ = some e₁ → s.entries.get? c₂ = some e₂ → e₁.domain = e₂.domain → c₁ = c₂
  size : ∀ capacity, s.capacity = some capacity → s.entries.size ≤ capacity
  returned : ∀ r run, s.runs r = some run → run.point = .result ∨ run.point = .confirmed → run.returned = true
  shutdowns : ∀ k pending, s.shutdowns k = some pending → s.closed = true ∧
    ∀ camera e, s.entries.get? camera = some e → e.phase ≠ .blocked → e.stop = true ∨ camera ∈ pending

variable {s : SourceRegistry}

/-- The entry of a camera is the one of the call that its `run` names. -/
theorem Inv.made (h : Inv s) {camera : String} {e : SourceEntry} (he : s.entries.get? camera = some e) :
    ∃ run, s.runs e.run = some run ∧ run.camera = camera ∧ run.point.Owns ∧ Made s e.run run e := by
  obtain ⟨run, hrun, hcamera, howns⟩ := h.theirs camera e he
  obtain ⟨e', hmade⟩ := h.mine e.run run hrun howns
  have heq : e' = e := by
    have hentry := hmade.entry
    rw [hcamera, he] at hentry
    exact (Option.some.inj hentry).symm
  subst heq
  exact ⟨run, hrun, hcamera, howns, hmade⟩

/-! ## Moves -/

theorem Inv.goesOn (h : Inv s) {r : Nat} {run : SourceRun} (hrun : s.runs r = some run) (howns : run.point.Owns)
    {run' : SourceRun} (hcamera : run'.camera = run.camera) (hdomain : run'.domain = run.domain)
    (hpoint : run'.point.Owns) (hraised : run'.point = .raised ↔ run.point = .raised)
    (hreturned : run'.point = .result ∨ run'.point = .confirmed → run'.returned = true) : Inv (s.setRun r run') := by
  have hself : (s.setRun r run').runs r = some run' := Function.update_self ..
  have hother {r' : Nat} (hne : r' ≠ r) : (s.setRun r run').runs r' = s.runs r' := Function.update_of_ne hne ..
  refine ⟨fun r' x hx howns' => ?_, fun camera e he => ?_, h.domains, h.size, fun r' x hx => ?_, h.shutdowns⟩
  · by_cases heq : r' = r
    · subst heq
      rw [hself] at hx
      cases hx
      obtain ⟨e, hmade⟩ := h.mine r' run hrun howns
      exact ⟨e, by rw [hcamera]; exact hmade.entry, hmade.maker, by rw [hdomain]; exact hmade.domain,
        by rw [hraised]; exact hmade.blocked⟩
    · rw [hother heq] at hx
      obtain ⟨e, hmade⟩ := h.mine r' x hx howns'
      exact ⟨e, hmade.entry, hmade.maker, hmade.domain, hmade.blocked⟩
  · obtain ⟨x, hx, hxcamera, hxowns⟩ := h.theirs camera e he
    by_cases heq : e.run = r
    · rw [heq] at hx ⊢
      rw [hrun] at hx
      cases hx
      exact ⟨run', hself, by rw [hcamera]; exact hxcamera, hpoint⟩
    · exact ⟨x, by rw [hother heq]; exact hx, hxcamera, hxowns⟩
  · by_cases heq : r' = r
    · subst heq
      rw [hself] at hx
      cases hx
      exact hreturned
    · rw [hother heq] at hx
      exact h.returned r' x hx

theorem Inv.refused (h : Inv s) {r : Nat} (hnew : s.runs r = none) (camera domain : String) :
    Inv (s.setRun r ⟨camera, domain, .refused, false⟩) := by
  have hself : (s.setRun r ⟨camera, domain, .refused, false⟩).runs r = some ⟨camera, domain, .refused, false⟩ :=
    Function.update_self ..
  have hother {r' : Nat} (hne : r' ≠ r) : (s.setRun r ⟨camera, domain, .refused, false⟩).runs r' = s.runs r' :=
    Function.update_of_ne hne ..
  refine ⟨fun r' x hx howns => ?_, fun c e he => ?_, h.domains, h.size, fun r' x hx hpoint => ?_, h.shutdowns⟩
  · by_cases heq : r' = r
    · subst heq
      rw [hself] at hx
      cases hx
      exact absurd rfl howns.2
    · rw [hother heq] at hx
      obtain ⟨e, hmade⟩ := h.mine r' x hx howns
      exact ⟨e, hmade.entry, hmade.maker, hmade.domain, hmade.blocked⟩
  · obtain ⟨x, hx, hxcamera, hxowns⟩ := h.theirs c e he
    have hne : e.run ≠ r := by
      intro heq
      rw [heq, hnew] at hx
      cases hx
    exact ⟨x, by rw [hother hne]; exact hx, hxcamera, hxowns⟩
  · by_cases heq : r' = r
    · subst heq
      rw [hself] at hx
      cases hx
      rcases hpoint with hpoint | hpoint <;> cases hpoint
    · rw [hother heq] at hx
      exact h.returned r' x hx hpoint

/-- An entry is changed in its place: signalled, or moved along its phases. -/
theorem Inv.signal (h : Inv s) {camera : String} {e e' : SourceEntry} (he : s.entries.get? camera = some e)
    (hrun : e'.run = e.run) (hdomain : e'.domain = e.domain) (hphase : e'.phase = .blocked ↔ e.phase = .blocked)
    (hstop : e.stop = true → e'.stop = true) : Inv { s with entries := s.entries.set camera e' } := by
  have hget (c : String) : (s.entries.set camera e').get? c = if c = camera then some e' else s.entries.get? c :=
    Dict.get?_set ..
  -- what a lookup finds now stands for what it found before
  have hback {c : String} {x : SourceEntry} (hx : (s.entries.set camera e').get? c = some x) :
      ∃ x₀, s.entries.get? c = some x₀ ∧ x.run = x₀.run ∧ x.domain = x₀.domain ∧
        (x.phase = .blocked ↔ x₀.phase = .blocked) ∧ (x₀.stop = true → x.stop = true) := by
    rw [hget] at hx
    split at hx
    next hc =>
      cases hx
      exact ⟨e, by rw [hc]; exact he, hrun, hdomain, hphase, hstop⟩
    next => exact ⟨x, hx, rfl, rfl, Iff.rfl, id⟩
  refine ⟨fun r run hr howns => ?_, fun c x hx => ?_, fun c₁ c₂ e₁ e₂ h₁ h₂ heq => ?_, fun capacity hcapacity => ?_,
    h.returned, fun k pending hk => ?_⟩
  · obtain ⟨x, hmade⟩ := h.mine r run hr howns
    by_cases hc : run.camera = camera
    · have hentry := hmade.entry
      rw [hc, he] at hentry
      cases hentry
      exact ⟨e', by rw [hget, if_pos hc], by rw [hrun]; exact hmade.maker, by rw [hdomain]; exact hmade.domain,
        hphase.trans hmade.blocked⟩
    · exact ⟨x, by rw [hget, if_neg hc]; exact hmade.entry, hmade.maker, hmade.domain, hmade.blocked⟩
  · obtain ⟨x₀, hx₀, hxrun, -⟩ := hback hx
    rw [hxrun]
    exact h.theirs c x₀ hx₀
  · obtain ⟨x₁, hx₁, -, hd₁, -⟩ := hback h₁
    obtain ⟨x₂, hx₂, -, hd₂, -⟩ := hback h₂
    exact h.domains c₁ c₂ x₁ x₂ hx₁ hx₂ (by rw [← hd₁, ← hd₂, heq])
  · rw [Dict.size_set_of_some he]
    exact h.size capacity hcapacity
  · obtain ⟨hclosed, hall⟩ := h.shutdowns k pending hk
    refine ⟨hclosed, fun c x hx hopen => ?_⟩
    obtain ⟨x₀, hx₀, -, -, hblocked, hstop₀⟩ := hback hx
    rcases hall c x₀ hx₀ (fun hb => hopen (hblocked.mpr hb)) with hset | hmem
    · exact .inl (hstop₀ hset)
    · exact .inr hmem

theorem Inv.admitted (h : Inv s) {r : Nat} (hnew : s.runs r = none) {camera domain : String} (owner : Nat)
    (hopen : s.closed = false) (hfree : s.full camera domain = false) :
    Inv ({ s with entries := s.entries.set camera ⟨domain, owner, false, .starting, r⟩ }.setRun r
      ⟨camera, domain, .factory, false⟩) := by
  simp only [full, Bool.or_eq_false_iff, Dict.contains, Option.isSome_eq_false_iff, Option.isNone_iff_eq_none,
    List.any_eq_false, decide_eq_true_eq] at hfree
  obtain ⟨⟨hnone, hcapacity⟩, hdomain⟩ := hfree
  have hget (c : String) : (s.entries.set camera ⟨domain, owner, false, .starting, r⟩).get? c =
      if c = camera then some ⟨domain, owner, false, .starting, r⟩ else s.entries.get? c := Dict.get?_set ..
  have hother {r' : Nat} (hne : r' ≠ r) : Function.update s.runs r (some ⟨camera, domain, .factory, false⟩) r' = s.runs r' :=
    Function.update_of_ne hne ..
  have hfresh {c : String} {e : SourceEntry} (he : s.entries.get? c = some e) : e.run ≠ r ∧ e.domain ≠ domain ∧ c ≠ camera := by
    refine ⟨fun heq => ?_, hdomain e (List.mem_map.mpr ⟨(c, e), Dict.get?_eq_some.mp he, rfl⟩), fun heq => ?_⟩
    · obtain ⟨x, hx, -⟩ := h.theirs c e he
      rw [heq, hnew] at hx
      cases hx
    · rw [heq, hnone] at he
      cases he
  refine ⟨fun r' x hx howns => ?_, fun c e he => ?_, fun c₁ c₂ e₁ e₂ h₁ h₂ heq => ?_, fun capacity hcap => ?_,
    fun r' x hx hpoint => ?_, fun k pending hk => ?_⟩
  · by_cases heq : r' = r
    · subst heq
      simp only [setRun, Function.update_self] at hx
      cases hx
      refine ⟨⟨domain, owner, false, .starting, r'⟩, ?_, rfl, rfl, ⟨fun hb => (nomatch hb), fun hb => (nomatch hb)⟩⟩
      exact (hget camera).trans (if_pos rfl)
    · simp only [setRun, hother heq] at hx
      obtain ⟨e, hmade⟩ := h.mine r' x hx howns
      exact ⟨e, (hget x.camera).trans ((if_neg (hfresh hmade.entry).2.2).trans hmade.entry), hmade.maker, hmade.domain,
        hmade.blocked⟩
  · replace he := (hget c).symm.trans he
    split at he
    next hc =>
      cases he
      exact ⟨⟨camera, domain, .factory, false⟩, Function.update_self .., hc.symm, ⟨nofun, nofun⟩⟩
    next =>
      obtain ⟨x, hx, hxcamera, hxowns⟩ := h.theirs c e he
      exact ⟨x, (hother (hfresh he).1).trans hx, hxcamera, hxowns⟩
  · replace h₁ := (hget c₁).symm.trans h₁
    replace h₂ := (hget c₂).symm.trans h₂
    split at h₁
    next hc₁ =>
      cases h₁
      split at h₂
      next hc₂ => rw [hc₁, hc₂]
      next => exact absurd heq.symm (hfresh h₂).2.1
    next =>
      split at h₂
      next =>
        cases h₂
        exact absurd heq (hfresh h₁).2.1
      next => exact h.domains c₁ c₂ e₁ e₂ h₁ h₂ heq
  · have hcap' : s.capacity = some capacity := hcap
    have hsize : (s.entries.set camera ⟨domain, owner, false, .starting, r⟩).size = s.entries.size + 1 :=
      Dict.size_set_of_none hnone _
    rw [hcap', Option.any_some, decide_eq_false_iff_not] at hcapacity
    show (s.entries.set camera ⟨domain, owner, false, .starting, r⟩).size ≤ capacity
    omega
  · by_cases heq : r' = r
    · subst heq
      simp only [setRun, Function.update_self] at hx
      cases hx
      rcases hpoint with hpoint | hpoint <;> cases hpoint
    · simp only [setRun, hother heq] at hx
      exact h.returned r' x hx hpoint
  · have hclosed := (h.shutdowns k pending hk).1
    rw [hopen] at hclosed
    cases hclosed

theorem Inv.blocks (h : Inv s) {r : Nat} {run : SourceRun} (hrun : s.runs r = some run)
    {e : SourceEntry} (hmade : Made s r run e) :
    Inv ({ s with entries := s.entries.set run.camera { e with phase := .blocked } }.setRun r { run with point := .raised }) := by
  have hget (c : String) : (s.entries.set run.camera { e with phase := .blocked }).get? c =
      if c = run.camera then some { e with phase := .blocked } else s.entries.get? c := Dict.get?_set ..
  have hother {r' : Nat} (hne : r' ≠ r) : Function.update s.runs r (some { run with point := .raised }) r' = s.runs r' :=
    Function.update_of_ne hne ..
  have hback {c : String} {x : SourceEntry} (hx : (s.entries.set run.camera { e with phase := .blocked }).get? c = some x) :
      ∃ x₀, s.entries.get? c = some x₀ ∧ x.run = x₀.run ∧ x.domain = x₀.domain ∧ x.stop = x₀.stop ∧
        (x.phase ≠ .blocked → x₀.phase ≠ .blocked) := by
    rw [hget] at hx
    split at hx
    next hc =>
      cases hx
      exact ⟨e, by rw [hc]; exact hmade.entry, rfl, rfl, rfl, fun hne => absurd rfl hne⟩
    next => exact ⟨x, hx, rfl, rfl, rfl, id⟩
  refine ⟨fun r' x hx howns => ?_, fun c x hx => ?_, fun c₁ c₂ e₁ e₂ h₁ h₂ heq => ?_, fun capacity hcapacity => ?_,
    fun r' x hx hresult => ?_, fun k pending hk => ?_⟩
  · by_cases heq : r' = r
    · subst heq
      simp only [setRun, Function.update_self] at hx
      cases hx
      exact ⟨{ e with phase := .blocked }, (hget run.camera).trans (if_pos rfl), hmade.maker, hmade.domain, fun _ => rfl, fun _ => rfl⟩
    · simp only [setRun, hother heq] at hx
      obtain ⟨x₀, hx₀⟩ := h.mine r' x hx howns
      have hne : x.camera ≠ run.camera := by
        intro hc
        have hentry := hx₀.entry
        rw [hc, hmade.entry] at hentry
        cases hentry
        exact heq (hx₀.maker.symm.trans hmade.maker)
      exact ⟨x₀, (hget x.camera).trans ((if_neg hne).trans hx₀.entry), hx₀.maker, hx₀.domain, hx₀.blocked⟩
  · obtain ⟨x₀, hx₀, hxrun, -⟩ := hback hx
    obtain ⟨y, hy, hycamera, hyowns⟩ := h.theirs c x₀ hx₀
    rw [hxrun]
    by_cases heq : x₀.run = r
    · rw [heq] at hy ⊢
      rw [hrun] at hy
      cases hy
      exact ⟨{ run with point := .raised }, Function.update_self .., hycamera, ⟨nofun, nofun⟩⟩
    · exact ⟨y, (hother heq).trans hy, hycamera, hyowns⟩
  · obtain ⟨x₁, hx₁, -, hd₁, -⟩ := hback h₁
    obtain ⟨x₂, hx₂, -, hd₂, -⟩ := hback h₂
    exact h.domains c₁ c₂ x₁ x₂ hx₁ hx₂ (by rw [← hd₁, ← hd₂, heq])
  · refine Nat.le_trans (Nat.le_of_eq ?_) (h.size capacity hcapacity)
    exact Dict.size_set_of_some hmade.entry _
  · by_cases heq : r' = r
    · subst heq
      simp only [setRun, Function.update_self] at hx
      cases hx
      rcases hresult with hresult | hresult <;> cases hresult
    · simp only [setRun, hother heq] at hx
      exact h.returned r' x hx hresult
  · obtain ⟨hclosed, hall⟩ := h.shutdowns k pending hk
    refine ⟨hclosed, fun c x hx hopen => ?_⟩
    obtain ⟨x₀, hx₀, -, -, hstop, hblocked⟩ := hback hx
    rw [hstop]
    exact hall c x₀ hx₀ (hblocked hopen)

theorem Inv.removed (h : Inv s) {r : Nat} {run : SourceRun} (hrun : s.runs r = some run) {e : SourceEntry}
    (hmade : Made s r run e) :
    Inv ({ s with entries := s.entries.erase run.camera }.setRun r { run with point := .returned }) := by
  have hget (c : String) : (s.entries.erase run.camera).get? c = if c = run.camera then none else s.entries.get? c :=
    Dict.get?_erase ..
  have hother {r' : Nat} (hne : r' ≠ r) : Function.update s.runs r (some { run with point := .returned }) r' = s.runs r' :=
    Function.update_of_ne hne ..
  have hback {c : String} {x : SourceEntry} (hx : (s.entries.erase run.camera).get? c = some x) :
      c ≠ run.camera ∧ s.entries.get? c = some x := by
    rw [hget] at hx
    split at hx
    · cases hx
    next hc => exact ⟨hc, hx⟩
  refine ⟨fun r' x hx howns => ?_, fun c x hx => ?_, fun c₁ c₂ e₁ e₂ h₁ h₂ heq => ?_, fun capacity hcapacity => ?_,
    fun r' x hx hresult => ?_, fun k pending hk => ?_⟩
  · by_cases heq : r' = r
    · subst heq
      simp only [setRun, Function.update_self] at hx
      cases hx
      exact absurd rfl howns.1
    · simp only [setRun, hother heq] at hx
      obtain ⟨x₀, hx₀⟩ := h.mine r' x hx howns
      have hne : x.camera ≠ run.camera := by
        intro hc
        have hentry := hx₀.entry
        rw [hc, hmade.entry] at hentry
        cases hentry
        exact heq (hx₀.maker.symm.trans hmade.maker)
      exact ⟨x₀, (hget x.camera).trans ((if_neg hne).trans hx₀.entry), hx₀.maker, hx₀.domain, hx₀.blocked⟩
  · obtain ⟨hc, hx₀⟩ := hback hx
    obtain ⟨y, hy, hycamera, hyowns⟩ := h.theirs c x hx₀
    have hne : x.run ≠ r := by
      intro heq
      rw [heq, hrun] at hy
      cases hy
      exact hc hycamera.symm
    exact ⟨y, (hother hne).trans hy, hycamera, hyowns⟩
  · exact h.domains c₁ c₂ e₁ e₂ (hback h₁).2 (hback h₂).2 heq
  · exact Nat.le_trans (Dict.size_erase_le s.entries run.camera) (h.size capacity hcapacity)
  · by_cases heq : r' = r
    · subst heq
      simp only [setRun, Function.update_self] at hx
      cases hx
      rcases hresult with hresult | hresult <;> cases hresult
    · simp only [setRun, hother heq] at hx
      exact h.returned r' x hx hresult
  · obtain ⟨hclosed, hall⟩ := h.shutdowns k pending hk
    exact ⟨hclosed, fun c x hx hopen => hall c x (hback hx).2 hopen⟩

/-! ## Sections -/

/-- What `stop` leaves: everything as it was, or one entry signalled. -/
theorem stopped_cases (s : SourceRegistry) (camera : String) (owner : Option Nat) :
    s.stopped camera owner = s ∨ ∃ e, s.entries.get? camera = some e ∧ e.phase ≠ .blocked ∧
      s.stopped camera owner = { s with entries := s.entries.set camera { e with stop := true, phase := .stopping } } := by
  cases he : s.entries.get? camera with
  | none =>
    left
    simp only [stopped, stop, he]
  | some e =>
    by_cases howner : (owner.any fun owner => decide (e.owner ≠ owner)) = true
    · left
      simp only [stopped, stop, he, if_pos howner]
    by_cases hblocked : e.phase = .blocked
    · left
      simp only [stopped, stop, he, if_neg howner, if_pos hblocked]
    · refine .inr ⟨e, rfl, hblocked, ?_⟩
      simp only [stopped, stop, he, if_neg howner, if_neg hblocked]

theorem Inv.stopped (h : Inv s) (camera : String) (owner : Option Nat) : Inv (s.stopped camera owner) := by
  rcases s.stopped_cases camera owner with hsame | ⟨e, he, hphase, hstop⟩
  · rw [hsame]
    exact h
  · rw [hstop]
    exact h.signal he rfl rfl ⟨fun hb => (nomatch hb), fun hb => absurd hb hphase⟩ fun _ => rfl

/-- After `stop` the camera's entry is signalled, unless it is blocked. -/
theorem stopped_signals (s : SourceRegistry) {camera : String} {e : SourceEntry}
    (he : (s.stopped camera none).entries.get? camera = some e) (hphase : e.phase ≠ .blocked) : e.stop = true := by
  cases hold : s.entries.get? camera with
  | none =>
    simp only [SourceRegistry.stopped, stop, hold] at he
    cases he
  | some e₀ =>
    simp only [SourceRegistry.stopped, stop, hold, Option.any_none, Bool.false_eq_true, if_false] at he
    by_cases hblocked : e₀.phase = .blocked
    · rw [if_pos hblocked] at he
      simp only [hold] at he
      cases he
      exact absurd hblocked hphase
    · rw [if_neg hblocked] at he
      simp only [Dict.get?_set, if_true] at he
      cases he
      rfl

theorem Inv.constructed (h : Inv s) {r : Nat} {run : SourceRun} (hrun : s.runs r = some run)
    (hpoint : run.point = .factory) : Inv (s.constructed r run) := by
  have howns : run.point.Owns := by rw [hpoint]; exact ⟨nofun, nofun⟩
  obtain ⟨e, hmade⟩ := h.mine r run hrun howns
  have hopen : e.phase ≠ .blocked := by
    intro hb
    have hraised := hmade.blocked.mp hb
    rw [hpoint] at hraised
    cases hraised
  have hmodify : s.modify run.camera (fun entry => { entry with phase := if entry.stop then .stopping else .running }) =
      { s with entries := s.entries.set run.camera { e with phase := if e.stop then .stopping else .running } } := by
    simp only [modify, hmade.entry]
  have h₁ : Inv { s with entries := s.entries.set run.camera { e with phase := if e.stop then .stopping else .running } } := by
    refine h.signal hmade.entry rfl rfl ⟨fun hb => ?_, fun hb => absurd hb hopen⟩ id
    cases hstop : e.stop <;> simp [hstop] at hb
  rw [SourceRegistry.constructed, hmodify]
  refine h₁.goesOn hrun howns rfl rfl ⟨nofun, nofun⟩ ⟨nofun, fun hr => ?_⟩ fun hr => ?_
  · rw [hpoint] at hr
    cases hr
  · rcases hr with hr | hr <;> cases hr

/-- The entry of a call that goes on is not blocked. -/
theorem Made.open {r : Nat} {run : SourceRun} {e : SourceEntry} (h : Made s r run e) (hpoint : run.point ≠ .raised) :
    e.phase ≠ .blocked := fun hb => hpoint (h.blocked.mp hb)

theorem finish_true (h : Inv s) {r : Nat} {run : SourceRun} (hrun : s.runs r = some run) (hpoint : run.point = .confirmed) :
    s.finish r run true = { s with entries := s.entries.erase run.camera }.setRun r { run with point := .returned } := by
  obtain ⟨e, hmade⟩ := h.mine r run hrun (by rw [hpoint]; exact ⟨nofun, nofun⟩)
  have hopen := hmade.open (by rw [hpoint]; exact nofun)
  simp [finish, hmade.entry, hopen]

theorem finish_false (h : Inv s) {r : Nat} {run : SourceRun} (hrun : s.runs r = some run) (hpoint : run.point = .raising) :
    ∃ e, Made s r run e ∧ s.finish r run false =
      { s with entries := s.entries.set run.camera { e with phase := .blocked } }.setRun r { run with point := .raised } := by
  obtain ⟨e, hmade⟩ := h.mine r run hrun (by rw [hpoint]; exact ⟨nofun, nofun⟩)
  refine ⟨e, hmade, ?_⟩
  simp [finish, modify, hmade.entry]

theorem confirm_eq (h : Inv s) {r : Nat} {run : SourceRun} (hrun : s.runs r = some run) (hpoint : run.point = .result) :
    s.confirm r run = s.setRun r { run with point := .confirmed } := by
  obtain ⟨e, hmade⟩ := h.mine r run hrun (by rw [hpoint]; exact ⟨nofun, nofun⟩)
  have hopen := hmade.open (by rw [hpoint]; exact nofun)
  simp only [confirm, hmade.entry, if_neg hopen]

theorem Inv.step (h : Inv s) (op : RegistryOp) : Inv (s.step op) := by
  cases op with
  | call r camera domain owner cancelled =>
    simp only [SourceRegistry.step]
    cases hnew : s.runs r with
    | some run => exact h
    | none =>
      simp only [Option.isSome_none, Bool.false_eq_true, if_false, reserve]
      split
      · exact h.refused hnew camera domain
      next hfree =>
        simp only [not_or, Bool.not_eq_true] at hfree
        exact h.admitted hnew owner hfree.2.2.2.1 hfree.2.2.2.2
  | construct r ok =>
    simp only [SourceRegistry.step]
    split
    next run hrun =>
      split
      next hpoint =>
        split
        · exact h.constructed hrun hpoint
        · have howns : run.point.Owns := by rw [hpoint]; exact ⟨nofun, nofun⟩
          refine h.goesOn hrun howns rfl rfl ⟨nofun, nofun⟩ ⟨nofun, fun hr => ?_⟩ fun hr => ?_
          · rw [hpoint] at hr
            cases hr
          · rcases hr with hr | hr <;> cases hr
      next => exact h
    next => exact h
  | leave r ok =>
    simp only [SourceRegistry.step]
    split
    next run hrun =>
      split
      next hpoint =>
        have howns : run.point.Owns := by rw [hpoint]; exact ⟨nofun, nofun⟩
        have hnot : run.point ≠ .raised := by rw [hpoint]; exact nofun
        cases ok with
        | true => exact h.goesOn hrun howns rfl rfl ⟨nofun, nofun⟩ ⟨nofun, fun hr => absurd hr hnot⟩ fun _ => rfl
        | false =>
          refine h.goesOn hrun howns rfl rfl ⟨nofun, nofun⟩ ⟨nofun, fun hr => absurd hr hnot⟩ fun hr => ?_
          rcases hr with hr | hr <;> cases hr
      next => exact h
    next => exact h
  | confirm r =>
    simp only [SourceRegistry.step]
    split
    next run hrun =>
      split
      next hpoint =>
        have howns : run.point.Owns := by rw [hpoint]; exact ⟨nofun, nofun⟩
        rw [confirm_eq h hrun hpoint]
        refine h.goesOn hrun howns rfl rfl ⟨nofun, nofun⟩ ⟨nofun, fun hr => ?_⟩ fun _ => h.returned r run hrun (.inl hpoint)
        rw [hpoint] at hr
        cases hr
      next => exact h
    next => exact h
  | finish r =>
    simp only [SourceRegistry.step]
    split
    next run hrun =>
      split
      next hpoint =>
        obtain ⟨e, hmade⟩ := h.mine r run hrun (by rw [hpoint]; exact ⟨nofun, nofun⟩)
        rw [finish_true h hrun hpoint]
        exact h.removed hrun hmade
      next =>
        split
        next hpoint =>
          obtain ⟨e, hmade, hfinish⟩ := finish_false h hrun hpoint
          rw [hfinish]
          exact h.blocks hrun hmade
        next => exact h
    next => exact h
  | stop camera owner => exact h.stopped camera owner
  | shutdown k =>
    simp only [SourceRegistry.step]
    split
    · exact h
    next hnew =>
      refine ⟨fun r run hrun howns => ?_, h.theirs, h.domains, h.size, h.returned, fun k' pending hk => ⟨rfl, fun camera e he hopen => ?_⟩⟩
      · obtain ⟨e, hmade⟩ := h.mine r run hrun howns
        exact ⟨e, hmade.entry, hmade.maker, hmade.domain, hmade.blocked⟩
      · replace hk : Function.update s.shutdowns k (some s.entries.keys) k' = some pending := hk
        by_cases heq : k' = k
        · subst heq
          rw [Function.update_self] at hk
          cases hk
          exact .inr (Dict.mem_keys.mpr ⟨e, he⟩)
        · rw [Function.update_of_ne heq] at hk
          exact (h.shutdowns k' pending hk).2 camera e he hopen
  | stopNext k =>
    simp only [SourceRegistry.step]
    split
    next camera rest hpending =>
      have hstopped := h.stopped camera none
      have hsame : (s.stopped camera none).shutdowns = s.shutdowns := by
        rcases s.stopped_cases camera none with heq | ⟨e, -, -, heq⟩ <;> rw [heq]
      refine ⟨fun r run hrun howns => ?_, hstopped.theirs, hstopped.domains, hstopped.size, hstopped.returned,
        fun k' pending hk => ?_⟩
      · obtain ⟨e, hmade⟩ := hstopped.mine r run hrun howns
        exact ⟨e, hmade.entry, hmade.maker, hmade.domain, hmade.blocked⟩
      · by_cases heq : k' = k
        · subst heq
          replace hk : Function.update s.shutdowns k' (some rest) k' = some pending := hk
          rw [Function.update_self] at hk
          cases hk
          rw [← hsame] at hpending
          obtain ⟨hclosed, hall⟩ := hstopped.shutdowns k' _ hpending
          refine ⟨hclosed, fun c e he hopen => ?_⟩
          rcases hall c e he hopen with hset | hmem
          · exact .inl hset
          · rcases List.mem_cons.mp hmem with rfl | hmem
            · exact .inl (s.stopped_signals he hopen)
            · exact .inr hmem
        · replace hk : Function.update s.shutdowns k (some rest) k' = some pending := hk
          rw [Function.update_of_ne heq, ← hsame] at hk
          exact hstopped.shutdowns k' pending hk
    next => exact h

theorem Inv.exec (h : Inv s) (ops : List RegistryOp) : Inv (s.exec ops) := by
  induction ops generalizing s with
  | nil => exact h
  | cons op ops ih => exact ih (h.step op)

theorem inv_new (capacity : Option Nat) : Inv { capacity } :=
  ⟨fun _ _ h => (nomatch h), fun _ _ h => (nomatch h), fun _ _ _ _ h => (nomatch h), fun _ _ => Nat.zero_le _,
    fun _ _ h => (nomatch h), fun _ _ h => (nomatch h)⟩

/-! ## What a step does to an entry -/

/-- The same reservation; a blocked one is left alone. -/
structure Kept (e e' : SourceEntry) : Prop where
  run : e'.run = e.run
  domain : e'.domain = e.domain
  blocked : e.phase = .blocked → e' = e

theorem Kept.refl (e : SourceEntry) : Kept e e := ⟨rfl, rfl, fun _ => rfl⟩

/-- A write in the place of an entry keeps every entry that it does not replace. -/
theorem kept_set {entries : Dict String SourceEntry} {c camera : String} {x x' e : SourceEntry}
    (hx : entries.get? c = some x) (hkept : Kept x x') (he : entries.get? camera = some e) :
    ∃ e', (entries.set c x').get? camera = some e' ∧ Kept e e' := by
  by_cases hc : camera = c
  · subst hc
    rw [hx] at he
    cases he
    exact ⟨x', by rw [Dict.get?_set, if_pos rfl], hkept⟩
  · exact ⟨e, by rw [Dict.get?_set, if_neg hc]; exact he, Kept.refl e⟩

theorem stopped_kept (s : SourceRegistry) (c : String) (owner : Option Nat) {camera : String} {e : SourceEntry}
    (he : s.entries.get? camera = some e) : ∃ e', (s.stopped c owner).entries.get? camera = some e' ∧ Kept e e' := by
  rcases s.stopped_cases c owner with hsame | ⟨x, hx, hopen, hstop⟩
  · rw [hsame]
    exact ⟨e, he, Kept.refl e⟩
  · rw [hstop]
    exact kept_set hx ⟨rfl, rfl, fun hb => absurd hb hopen⟩ he

/-- **An entry is kept, or its own source has returned.** -/
theorem step_entry (h : Inv s) (op : RegistryOp) {camera : String} {e : SourceEntry}
    (he : s.entries.get? camera = some e) :
    (∃ e', (s.step op).entries.get? camera = some e' ∧ Kept e e') ∨
      op = .finish e.run ∧ ∃ run, s.runs e.run = some run ∧ run.returned = true := by
  have hsame {s' : SourceRegistry} (hs : s'.entries = s.entries) : ∃ e', s'.entries.get? camera = some e' ∧ Kept e e' :=
    ⟨e, by rw [hs]; exact he, Kept.refl e⟩
  cases op with
  | call r c domain owner cancelled =>
    left
    simp only [SourceRegistry.step]
    split
    · exact hsame rfl
    · rw [reserve]
      split
      · exact hsame rfl
      next hfree =>
        simp only [not_or, Bool.not_eq_true, full, Bool.or_eq_false_iff, Dict.contains, Option.isSome_eq_false_iff,
          Option.isNone_iff_eq_none] at hfree
        have hc : camera ≠ c := by
          rintro rfl
          rw [hfree.2.2.2.2.1.1] at he
          cases he
        exact ⟨e, (Dict.get?_set ..).trans ((if_neg hc).trans he), Kept.refl e⟩
  | construct r ok =>
    left
    simp only [SourceRegistry.step]
    split
    next run hrun =>
      split
      next hpoint =>
        split
        · obtain ⟨x, hmade⟩ := h.mine r run hrun (by rw [hpoint]; exact ⟨nofun, nofun⟩)
          have hopen := hmade.open (by rw [hpoint]; exact nofun)
          simp only [constructed, modify, hmade.entry]
          exact kept_set hmade.entry ⟨rfl, rfl, fun hb => absurd hb hopen⟩ he
        · exact hsame rfl
      next => exact hsame rfl
    next => exact hsame rfl
  | leave r ok =>
    left
    simp only [SourceRegistry.step]
    split
    · split
      · exact hsame rfl
      · exact hsame rfl
    · exact hsame rfl
  | confirm r =>
    left
    simp only [SourceRegistry.step]
    split
    next run hrun =>
      split
      next hpoint =>
        rw [confirm_eq h hrun hpoint]
        exact hsame rfl
      next => exact hsame rfl
    next => exact hsame rfl
  | finish r =>
    simp only [SourceRegistry.step]
    split
    next run hrun =>
      split
      next hpoint =>
        obtain ⟨x, hmade⟩ := h.mine r run hrun (by rw [hpoint]; exact ⟨nofun, nofun⟩)
        rw [finish_true h hrun hpoint]
        by_cases hc : camera = run.camera
        · subst hc
          have hx := hmade.entry
          rw [he] at hx
          cases hx
          refine .inr ⟨by rw [hmade.maker], run, by rw [hmade.maker]; exact hrun, h.returned r run hrun (.inr hpoint)⟩
        · exact .inl ⟨e, (Dict.get?_erase ..).trans ((if_neg hc).trans he), Kept.refl e⟩
      next =>
        left
        split
        next hpoint =>
          obtain ⟨x, hmade, hfinish⟩ := finish_false h hrun hpoint
          rw [hfinish]
          exact kept_set hmade.entry ⟨rfl, rfl, fun hb => by cases x; cases hb; rfl⟩ he
        next => exact hsame rfl
    next => exact .inl (hsame rfl)
  | stop c owner => exact .inl (s.stopped_kept c owner he)
  | shutdown k =>
    left
    simp only [SourceRegistry.step]
    split
    · exact hsame rfl
    · exact hsame rfl
  | stopNext k =>
    left
    simp only [SourceRegistry.step]
    split
    next c rest _ => exact s.stopped_kept c none he
    next => exact hsame rfl

/-- A call that raised keeps its entry, blocked, whatever comes. -/
theorem raised_stays (h : Inv s) {camera : String} {e : SourceEntry} (he : s.entries.get? camera = some e)
    (hblocked : e.phase = .blocked) (ops : List RegistryOp) : (s.exec ops).entries.get? camera = some e := by
  induction ops generalizing s with
  | nil => exact he
  | cons op ops ih =>
    refine ih (h.step op) ?_
    rcases step_entry h op he with ⟨e', he', hkept⟩ | ⟨rfl, run, hrun, -⟩
    · rw [he', hkept.blocked hblocked]
    · -- the call of a blocked entry is over
      obtain ⟨run', hrun', -, -, hmade⟩ := h.made he
      rw [hrun] at hrun'
      cases hrun'
      have hpoint := hmade.blocked.mp hblocked
      simp only [SourceRegistry.step, hrun, hpoint]
      exact he

/-! ## After shutdown -/

/-- What every step leaves alone but the two of `begin_shutdown`. -/
structure Framed (s s' : SourceRegistry) : Prop where
  capacity : s'.capacity = s.capacity
  closed : s'.closed = s.closed
  shutdowns : s'.shutdowns = s.shutdowns

theorem Framed.refl (s : SourceRegistry) : Framed s s := ⟨rfl, rfl, rfl⟩

/-- What a step does to the calls: nothing, or it takes one on that is at work, or
it starts one, which a closed registry refuses. -/
def Calls (s s' : SourceRegistry) : Prop :=
  s'.runs = s.runs ∨ ∃ r run, s'.runs = Function.update s.runs r (some run) ∧
    ((∃ run₀, s.runs r = some run₀ ∧ run₀.point ≠ .refused) ∨ s.runs r = none ∧ (s.closed = true → run.point = .refused))

theorem modify_frame (s : SourceRegistry) (camera : String) (f : SourceEntry → SourceEntry) :
    Framed s (s.modify camera f) ∧ (s.modify camera f).runs = s.runs := by
  rw [modify]
  split
  · exact ⟨.refl s, rfl⟩
  · exact ⟨⟨rfl, rfl, rfl⟩, rfl⟩

theorem stopped_frame (s : SourceRegistry) (camera : String) (owner : Option Nat) :
    Framed s (s.stopped camera owner) ∧ (s.stopped camera owner).runs = s.runs := by
  rcases s.stopped_cases camera owner with hsame | ⟨e, -, -, hstop⟩
  · rw [hsame]
    exact ⟨.refl s, rfl⟩
  · rw [hstop]
    exact ⟨⟨rfl, rfl, rfl⟩, rfl⟩

theorem finish_frame (s : SourceRegistry) (r : Nat) (run : SourceRun) (confirmed : Bool) :
    Framed s (s.finish r run confirmed) ∧
      ∃ point, (s.finish r run confirmed).runs = Function.update s.runs r (some { run with point := point }) := by
  obtain ⟨hframe, hruns⟩ := s.modify_frame run.camera fun entry => { entry with phase := .blocked }
  simp only [finish]
  split
  all_goals split
  · exact ⟨⟨rfl, rfl, rfl⟩, .returned, rfl⟩
  · exact ⟨⟨hframe.capacity, hframe.closed, hframe.shutdowns⟩, .raised, by rw [setRun, hruns]⟩
  · exact ⟨⟨rfl, rfl, rfl⟩, .returned, rfl⟩
  · exact ⟨⟨hframe.capacity, hframe.closed, hframe.shutdowns⟩, .raised, by rw [setRun, hruns]⟩

theorem step_frame (s : SourceRegistry) (op : RegistryOp) (hshutdown : ∀ k, op ≠ .shutdown k) (hstop : ∀ k, op ≠ .stopNext k) :
    Framed s (s.step op) ∧ Calls s (s.step op) := by
  have hsame : Framed s s ∧ Calls s s := ⟨.refl s, .inl rfl⟩
  have hgoes {r : Nat} {run : SourceRun} (hrun : s.runs r = some run) (hpoint : run.point ≠ .refused) (run' : SourceRun) :
      Framed s (s.setRun r run') ∧ Calls s (s.setRun r run') :=
    ⟨⟨rfl, rfl, rfl⟩, .inr ⟨r, run', rfl, .inl ⟨run, hrun, hpoint⟩⟩⟩
  cases op with
  | call r camera domain owner cancelled =>
    simp only [SourceRegistry.step]
    cases hnew : s.runs r with
    | some run => exact hsame
    | none =>
      simp only [Option.isSome_none, Bool.false_eq_true, if_false, reserve]
      split
      · exact ⟨⟨rfl, rfl, rfl⟩, .inr ⟨r, _, rfl, .inr ⟨hnew, fun _ => rfl⟩⟩⟩
      next hfree =>
        refine ⟨⟨rfl, rfl, rfl⟩, .inr ⟨r, _, rfl, .inr ⟨hnew, fun hclosed => ?_⟩⟩⟩
        exact absurd (.inr (.inr (.inr (.inl hclosed)))) hfree
  | construct r ok =>
    simp only [SourceRegistry.step]
    split
    next run hrun =>
      split
      next hpoint =>
        have hne : run.point ≠ .refused := by rw [hpoint]; exact nofun
        split
        · obtain ⟨hframe, hruns⟩ := s.modify_frame run.camera fun entry =>
            { entry with phase := if entry.stop then .stopping else .running }
          refine ⟨⟨hframe.capacity, hframe.closed, hframe.shutdowns⟩, .inr ⟨r, { run with point := .source }, ?_, .inl ⟨run, hrun, hne⟩⟩⟩
          rw [constructed, setRun, hruns]
        · exact hgoes hrun hne _
      next => exact hsame
    next => exact hsame
  | leave r ok =>
    simp only [SourceRegistry.step]
    split
    next run hrun =>
      split
      next hpoint => exact hgoes hrun (by rw [hpoint]; exact nofun) _
      next => exact hsame
    next => exact hsame
  | confirm r =>
    simp only [SourceRegistry.step]
    split
    next run hrun =>
      split
      next hpoint =>
        have hne : run.point ≠ .refused := by rw [hpoint]; exact nofun
        rw [confirm]
        split
        · exact hgoes hrun hne _
        · exact hgoes hrun hne _
      next => exact hsame
    next => exact hsame
  | finish r =>
    simp only [SourceRegistry.step]
    have hfinish {run : SourceRun} (hrun : s.runs r = some run) (hne : run.point ≠ .refused) (confirmed : Bool) :
        Framed s (s.finish r run confirmed) ∧ Calls s (s.finish r run confirmed) := by
      obtain ⟨hframe, point, hruns⟩ := s.finish_frame r run confirmed
      exact ⟨hframe, .inr ⟨r, _, hruns, .inl ⟨run, hrun, hne⟩⟩⟩
    split
    next run hrun =>
      split
      next hpoint => exact hfinish hrun (by rw [hpoint]; exact nofun) true
      next =>
        split
        next hpoint => exact hfinish hrun (by rw [hpoint]; exact nofun) false
        next => exact hsame
    next => exact hsame
  | stop camera owner =>
    obtain ⟨hframe, hruns⟩ := s.stopped_frame camera owner
    exact ⟨hframe, .inl hruns⟩
  | shutdown k => exact absurd rfl (hshutdown k)
  | stopNext k => exact absurd rfl (hstop k)

/-- **What every step keeps**: the capacity, a registry that is closed, and a
shutdown that has gone through its cameras. -/
theorem step_keeps (s : SourceRegistry) (op : RegistryOp) :
    (s.step op).capacity = s.capacity ∧ (s.closed = true → (s.step op).closed = true) ∧
      (∀ k, s.shutdowns k = some [] → (s.step op).shutdowns k = some []) ∧ Calls s (s.step op) := by
  by_cases hshutdown : ∃ k, op = .shutdown k
  · obtain ⟨k, rfl⟩ := hshutdown
    simp only [SourceRegistry.step]
    split
    · exact ⟨rfl, id, fun _ => id, .inl rfl⟩
    next hnew =>
      refine ⟨rfl, fun _ => rfl, fun k' h => ?_, .inl rfl⟩
      have hne : k' ≠ k := by
        rintro rfl
        rw [h] at hnew
        exact hnew rfl
      exact (Function.update_of_ne hne ..).trans h
  by_cases hstop : ∃ k, op = .stopNext k
  · obtain ⟨k, rfl⟩ := hstop
    simp only [SourceRegistry.step]
    split
    next camera rest hpending =>
      obtain ⟨hframe, hruns⟩ := s.stopped_frame camera none
      refine ⟨hframe.capacity, fun h => hframe.closed.trans h, fun k' h => ?_, .inl hruns⟩
      have hne : k' ≠ k := by
        rintro rfl
        rw [h] at hpending
        cases hpending
      exact (Function.update_of_ne hne ..).trans h
    next => exact ⟨rfl, id, fun _ => id, .inl rfl⟩
  · obtain ⟨hframe, hcalls⟩ := s.step_frame op (fun k h => hshutdown ⟨k, h⟩) fun k h => hstop ⟨k, h⟩
    exact ⟨hframe.capacity, fun h => hframe.closed.trans h, fun k h => by rw [hframe.shutdowns]; exact h, hcalls⟩

theorem exec_keeps (s : SourceRegistry) (ops : List RegistryOp) : (s.exec ops).capacity = s.capacity ∧
    ∀ k, s.shutdowns k = some [] → (s.exec ops).shutdowns k = some [] := by
  induction ops generalizing s with
  | nil => exact ⟨rfl, fun _ => id⟩
  | cons op ops ih =>
    obtain ⟨hcapacity, -, hdone, -⟩ := s.step_keeps op
    obtain ⟨hcapacity', hdone'⟩ := ih (s.step op)
    exact ⟨hcapacity'.trans hcapacity, fun k h => hdone' k (hdone k h)⟩

/-- The registry is closed, and a call that was not admitted then never is. -/
def Shut (s : SourceRegistry) (r : Nat) : Prop :=
  s.closed = true ∧ ∀ run, s.runs r = some run → run.point = .refused

theorem Shut.step {r : Nat} (h : Shut s r) (op : RegistryOp) : Shut (s.step op) r := by
  obtain ⟨-, hclosed, -, hcalls⟩ := s.step_keeps op
  refine ⟨hclosed h.1, fun x hx => ?_⟩
  rcases hcalls with hsame | ⟨r', run, hruns, hcase⟩
  · rw [hsame] at hx
    exact h.2 x hx
  · rw [hruns] at hx
    by_cases heq : r = r'
    · subst heq
      rw [Function.update_self] at hx
      cases hx
      rcases hcase with ⟨run₀, hrun₀, hne⟩ | ⟨-, hrefused⟩
      · exact absurd (h.2 run₀ hrun₀) hne
      · exact hrefused h.1
    · rw [Function.update_of_ne heq] at hx
      exact h.2 x hx

theorem Shut.exec {r : Nat} (h : Shut s r) (ops : List RegistryOp) : Shut (s.exec ops) r := by
  induction ops generalizing s with
  | nil => exact h
  | cons op ops ih => exact ih (h.step op)

/-- What the registry's part of `cancelled()` tells the source of a call. -/
def observes (s : SourceRegistry) (r : Nat) : Bool :=
  match s.runs r with
  | none => false
  | some run => (s.entries.get? run.camera).any SourceEntry.stop

/-- **The registry is exclusive.** In every order of the steps of any calls: one
entry for each camera and for each domain, and no more than the capacity; an entry
goes only when its own source has returned; a call that raised keeps its camera and
its domain, blocked, for ever; once a shutdown has begun no call is admitted, and
once it is done every source that is at work is told to stop, from then on. -/
theorem registry_exclusive (capacity : Option Nat) (ops : List RegistryOp) :
    let s : SourceRegistry := exec { capacity } ops
    (s.entries.keys.Nodup ∧
      (∀ c₁ c₂ e₁ e₂, s.entries.get? c₁ = some e₁ → s.entries.get? c₂ = some e₂ → e₁.domain = e₂.domain → c₁ = c₂) ∧
      ∀ n, capacity = some n → s.entries.size ≤ n) ∧
    (∀ op camera e, s.entries.get? camera = some e →
      (∃ e', (s.step op).entries.get? camera = some e' ∧ e'.run = e.run ∧ e'.domain = e.domain) ∨
        op = .finish e.run ∧ ∃ run, s.runs e.run = some run ∧ run.returned = true) ∧
    (∀ r run, s.runs r = some run → run.point = .raised → ∃ e : SourceEntry, e.domain = run.domain ∧
      e.phase = .blocked ∧ e.run = r ∧ ∀ more, (s.exec more).entries.get? run.camera = some e) ∧
    (∀ k pending r, s.shutdowns k = some pending → s.runs r = none →
      ∀ more run, (s.exec more).runs r = some run → run.point = .refused) ∧
    ∀ k, s.shutdowns k = some [] → ∀ more r run, (s.exec more).runs r = some run →
      run.point = .factory ∨ run.point = .source → (s.exec more).observes r = true := by
  intro s
  have h : Inv s := (inv_new capacity).exec ops
  have hcapacity : s.capacity = capacity := (exec_keeps _ ops).1
  refine ⟨⟨s.entries.nodup, h.domains, fun n hn => h.size n (hcapacity.trans hn)⟩, fun op camera e he => ?_,
    fun r run hrun hpoint => ?_, fun k pending r hk hnew more => ?_, fun k hk more r run hrun hpoint => ?_⟩
  · rcases step_entry h op he with ⟨e', he', hkept⟩ | hreturned
    · exact .inl ⟨e', he', hkept.run, hkept.domain⟩
    · exact .inr hreturned
  · obtain ⟨e, hmade⟩ := h.mine r run hrun (by rw [hpoint]; exact ⟨nofun, nofun⟩)
    have hblocked := hmade.blocked.mpr hpoint
    exact ⟨e, hmade.domain, hblocked, hmade.maker, raised_stays h hmade.entry hblocked⟩
  · have hshut : Shut s r := ⟨(h.shutdowns k pending hk).1, fun run hrun => by rw [hnew] at hrun; cases hrun⟩
    exact (hshut.exec more).2
  · have h' := h.exec more
    have hdone := (s.exec_keeps more).2 k hk
    have hraised : run.point ≠ .raised := by rcases hpoint with hpoint | hpoint <;> rw [hpoint] <;> exact nofun
    obtain ⟨e, hmade⟩ := h'.mine r run hrun (by rcases hpoint with hpoint | hpoint <;> rw [hpoint] <;> exact ⟨nofun, nofun⟩)
    have hstop := ((h'.shutdowns k [] hdone).2 run.camera e hmade.entry (hmade.open hraised)).resolve_right List.not_mem_nil
    simp only [observes, hrun, hmade.entry, Option.any_some]
    exact hstop

end SourceRegistry

end CamGuard.Source
