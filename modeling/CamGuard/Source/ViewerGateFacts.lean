/-
What sections under the gate's lock keep. A camera is `Shut` when its hold says
drained and no lease of it is left; only `resume` opens it again, and a hold never
says drained while there is a lease.
-/
import CamGuard.Source.ViewerGate

namespace CamGuard.Source.ViewerGate

variable {g g' : ViewerGate} {cameraId : String}

def Shut (g : ViewerGate) (cameraId : String) : Prop :=
  g.holds.get? cameraId = some .drained ∧ g.hasLease cameraId = false

/-- Drained means without leases. -/
def Inv (g : ViewerGate) : Prop := ∀ cameraId, g.holds.get? cameraId = some .drained → g.hasLease cameraId = false

theorem isDrained_iff : g.isDrained cameraId = .ok true ↔ validCameraId cameraId = true ∧ g.Shut cameraId := by
  rw [isDrained, Shut]
  split <;> simp_all

/-- What is held admits nobody. -/
theorem admit_held {held : Hold} (h : g.holds.get? cameraId = some held) : ∃ fault, g.admitViewer cameraId = .error fault := by
  rw [admitViewer]
  split
  · exact ⟨_, rfl⟩
  · exact ⟨_, if_pos (.inl (by rw [Dict.contains, h]; rfl))⟩

/-! ## Leases and holds -/

theorem hasLease_set (cameraId other : String) (held : Hold) : (g.set other held).hasLease cameraId = g.hasLease cameraId := rfl

theorem hasLease_cancel (cameraId other : String) : (g.cancel other).hasLease cameraId = g.hasLease cameraId := by
  simp only [hasLease, cancel, List.any_map]
  congr 1
  funext lease
  simp only [Function.comp_apply]
  split <;> rfl

theorem get?_set (cameraId other : String) (held : Hold) :
    (g.set other held).holds.get? cameraId = if cameraId = other then some held else g.holds.get? cameraId :=
  Dict.get?_set ..

theorem hasLease_release (h : g.hasLease cameraId = false) (id : Nat) : (g.release id).hasLease cameraId = false := by
  rw [hasLease, List.any_eq_false] at h ⊢
  exact fun lease hlease => h lease (List.mem_of_mem_filter hlease)

/-! ## What a section does -/

/-- The effect of one section: drained is a hold that was drained or has no lease now,
leases come to cameras that are not held, and only `opens` are opened. -/
structure Section (opens : String → Prop) (g g' : ViewerGate) : Prop where
  drained : ∀ cameraId, g'.holds.get? cameraId = some .drained →
    g.holds.get? cameraId = some .drained ∨ g'.hasLease cameraId = false
  leases : ∀ cameraId, g'.hasLease cameraId = true → g.hasLease cameraId = true ∨ g.holds.get? cameraId = none
  shut : ∀ cameraId, g.Shut cameraId → ¬ opens cameraId → g'.holds.get? cameraId = some .drained

variable {opens : String → Prop}

namespace Section

theorem refl (opens : String → Prop) (g : ViewerGate) : Section opens g g :=
  ⟨fun _ => .inl, fun _ => .inl, fun _ h _ => h.1⟩

theorem no_lease (h : Section opens g g') (hdrained : g.holds.get? cameraId = some .drained)
    (hnone : g.hasLease cameraId = false) : g'.hasLease cameraId = false := by
  cases hlease : g'.hasLease cameraId with
  | false => rfl
  | true =>
    rcases h.leases cameraId hlease with h | h
    · rw [hnone] at h
      exact h.symm
    · rw [hdrained] at h
      cases h

theorem inv (h : Section opens g g') (hinv : Inv g) : Inv g' := by
  intro cameraId hdrained
  rcases h.drained cameraId hdrained with hbefore | hnone
  · exact h.no_lease hbefore (hinv cameraId hbefore)
  · exact hnone

theorem shut_after (h : Section opens g g') (hshut : g.Shut cameraId) (hopens : ¬ opens cameraId) : g'.Shut cameraId :=
  ⟨h.shut cameraId hshut hopens, h.no_lease hshut.1 hshut.2⟩

/-- A section that leaves the leases and changes one hold. -/
theorem of_set {other : String} {held : Hold}
    (hget : ∀ cameraId, g'.holds.get? cameraId = if cameraId = other then some held else g.holds.get? cameraId)
    (hleases : ∀ cameraId, g'.hasLease cameraId = g.hasLease cameraId)
    (hdrained : held = .drained → g.hasLease other = false)
    (hshut : g.Shut other → held = .drained) : Section opens g g' := by
  refine ⟨fun cameraId h => ?_, fun cameraId h => .inl (by rwa [← hleases]), fun cameraId h _ => ?_⟩
  · rw [hget] at h
    split at h
    next heq =>
      cases h
      rw [heq, hleases]
      exact .inr (hdrained rfl)
    · exact .inl h
  · rw [hget]
    split
    next heq =>
      rw [heq] at h
      rw [hshut h]
    · exact h.1

end Section

theorem admit_section {lease : ViewerLease} (h : g.admitViewer cameraId = .ok (lease, g')) : Section opens g g' := by
  rw [admitViewer] at h
  split at h
  · cases h
  split at h
  · cases h
  next hopen =>
    cases h
    have hfree : g.holds.get? cameraId = none := by
      rw [not_or, Dict.contains] at hopen
      simpa using hopen.1
    refine ⟨fun _ => .inl, fun other hlease => ?_, fun _ h _ => h.1⟩
    by_cases heq : other = cameraId
    · rw [heq]
      exact .inr hfree
    · left
      have hne : decide (cameraId = other) = false := by simpa using Ne.symm heq
      simpa [hasLease, List.any_append, hne] using hlease

theorem release_section (id : Nat) : Section opens g (g.release id) := by
  refine ⟨fun _ => .inl, fun cameraId hlease => ?_, fun _ h _ => h.1⟩
  cases hbefore : g.hasLease cameraId with
  | true => exact .inl rfl
  | false =>
    rw [hasLease_release hbefore id] at hlease
    cases hlease

theorem hold_section (h : g.hold cameraId = .ok g') : Section opens g g' := by
  rw [hold] at h
  split at h
  · cases h
  split at h
  · cases h
    exact ⟨fun _ => .inl, fun other hlease => .inl (by rwa [hasLease_cancel] at hlease), fun _ h _ => h.1⟩
  next hfree =>
    split at h
    · cases h
    · cases h
      refine Section.of_set (fun other => get?_set other cameraId .blocked) (fun other => hasLease_cancel other cameraId) nofun
        fun hshut => ?_
      rw [Dict.contains, hshut.1] at hfree
      exact absurd rfl hfree

theorem drainTurn_section (g : ViewerGate) (cameraId : String) (expired : Bool) : Section opens g (g.drainTurn cameraId expired).2 := by
  rw [drainTurn]
  split
  next hlease =>
    split
    · refine Section.of_set (fun other => get?_set other cameraId .blocked) (fun _ => rfl) nofun fun hshut => ?_
      rw [hshut.2] at hlease
      cases hlease
    · exact .refl opens g
  next hnone =>
    exact Section.of_set (fun other => get?_set other cameraId .drained) (fun _ => rfl) (fun _ => by simpa using hnone)
      fun _ => rfl

/-- What a drain that finds no lease does, and what it says of the ones it finds. -/
theorem drainTurn_done {expired : Bool} (h : (g.drainTurn cameraId expired).1 = .done) :
    (g.drainTurn cameraId expired).2.Shut cameraId := by
  rw [drainTurn] at h ⊢
  split at h
  · split at h <;> cases h
  next hnone =>
    rw [if_neg hnone]
    exact ⟨by rw [get?_set, if_pos rfl], by rw [hasLease_set]; simpa using hnone⟩

theorem suspend_section (g : ViewerGate) (cameraId : String) (timeout : ℚ) (expired : Bool) :
    Section opens g (g.suspend cameraId timeout expired).2 := by
  rw [suspend]
  split
  · exact .refl opens g
  split
  · exact .refl opens g
  split
  · exact .refl opens g
  split
  · exact .refl opens g
  have hlease (other : String) : ((g.set cameraId .draining).cancel cameraId).hasLease other = g.hasLease other :=
    hasLease_cancel other cameraId
  have hget (held : Hold) (other : String) : (((g.set cameraId .draining).cancel cameraId).set cameraId held).holds.get? other =
      if other = cameraId then some held else g.holds.get? other := by
    rw [get?_set]
    split
    · rfl
    next hne => exact (get?_set other cameraId .draining).trans (if_neg hne)
  rw [drainTurn]
  split
  next hsome =>
    rw [hlease] at hsome
    have hshut : ¬ g.Shut cameraId := by
      intro h
      rw [h.2] at hsome
      cases hsome
    split
    · exact Section.of_set (hget .blocked) hlease nofun fun h => absurd h hshut
    · exact Section.of_set (fun other => get?_set other cameraId .draining) hlease nofun fun h => absurd h hshut
  next hnone =>
    rw [hlease] at hnone
    exact Section.of_set (hget .drained) hlease (fun _ => by simpa using hnone) fun _ => rfl

theorem suspend_done {timeout : ℚ} {expired : Bool} (h : (g.suspend cameraId timeout expired).1 = .done) :
    (g.suspend cameraId timeout expired).2.Shut cameraId := by
  rw [suspend] at h ⊢
  split at h
  · cases h
  split at h
  · cases h
  split at h
  · cases h
  split at h
  · cases h
  next hvalid htimeout hdraining hroom =>
    rw [if_neg hvalid, if_neg htimeout, if_neg hdraining, if_neg hroom]
    exact drainTurn_done h

theorem resume_section (h : g.resume cameraId = .ok g') : Section (· = cameraId) g g' := by
  rw [resume] at h
  split at h
  · cases h
  split at h
  · cases h
    exact .refl _ g
  split at h
  · cases h
  · cases h
    have hget (other : String) : Dict.get? (g.holds.erase cameraId) other = if other = cameraId then none else g.holds.get? other :=
      Dict.get?_erase ..
    refine ⟨fun other hdrained => ?_, fun _ => .inl, fun other hshut hne => ?_⟩
    · rw [hget] at hdrained
      split at hdrained
      · cases hdrained
      · exact .inl hdrained
    · rw [hget, if_neg hne]
      exact hshut.1

/-! ## One camera at a time -/

/-- The holds of other cameras are as they were. -/
def Only (cameraId : String) (g g' : ViewerGate) : Prop := ∀ other, other ≠ cameraId → g'.holds.get? other = g.holds.get? other

theorem set_only (g : ViewerGate) (cameraId : String) (held : Hold) : Only cameraId g (g.set cameraId held) := by
  intro other hne
  rw [get?_set, if_neg hne]

theorem hold_only (h : g.hold cameraId = .ok g') : Only cameraId g g' := by
  rw [hold] at h
  split at h
  · cases h
  split at h
  · cases h
    exact fun _ _ => rfl
  split at h
  · cases h
  · cases h
    exact set_only g cameraId .blocked

theorem drainTurn_only (g : ViewerGate) (cameraId : String) (expired : Bool) : Only cameraId g (g.drainTurn cameraId expired).2 := by
  rw [drainTurn]
  split
  · split
    · exact set_only g cameraId .blocked
    · exact fun _ _ => rfl
  · exact set_only g cameraId .drained

theorem suspend_only (g : ViewerGate) (cameraId : String) (timeout : ℚ) (expired : Bool) :
    Only cameraId g (g.suspend cameraId timeout expired).2 := by
  rw [suspend]
  split
  · exact fun _ _ => rfl
  split
  · exact fun _ _ => rfl
  split
  · exact fun _ _ => rfl
  split
  · exact fun _ _ => rfl
  · intro other hne
    have hturn := drainTurn_only ((g.set cameraId .draining).cancel cameraId) cameraId expired other hne
    exact hturn.trans (set_only g cameraId .draining other hne)

theorem resume_only (h : g.resume cameraId = .ok g') : Only cameraId g g' := by
  rw [resume] at h
  split at h
  · cases h
  split at h
  · cases h
    exact fun _ _ => rfl
  split at h
  · cases h
  · cases h
    intro other hne
    exact (Dict.get?_erase ..).trans (if_neg hne)

/-! ## Held cameras -/

theorem contains_set (cameraId other : String) (held : Hold) (h : cameraId = other ∨ g.holds.contains cameraId = true) :
    (g.set other held).holds.contains cameraId = true := by
  rw [Dict.contains, get?_set]
  split
  · rfl
  next hne => exact h.resolve_left hne

/-- A hold holds, if there is room for it. -/
theorem hold_contains (h : g.hold cameraId = .ok g') : g'.holds.contains cameraId = true := by
  rw [hold] at h
  split at h
  · cases h
  split at h
  next hheld =>
    cases h
    exact hheld
  split at h
  · cases h
  · cases h
    exact contains_set cameraId cameraId .blocked (.inl rfl)

theorem hold_ok (hvalid : validCameraId cameraId = true) (hroom : g.holds.contains cameraId = true ∨ g.holds.size < MAX_VIEWER_HOLDS) :
    ∃ g', g.hold cameraId = .ok g' := by
  rw [hold, hvalid, if_neg (by decide)]
  split
  · exact ⟨_, rfl⟩
  next hfree =>
    have hlt := hroom.resolve_left hfree
    rw [if_neg (by omega)]
    exact ⟨_, rfl⟩

theorem drainTurn_contains (h : g.holds.contains cameraId = true) (other : String) (expired : Bool) :
    (g.drainTurn other expired).2.holds.contains cameraId = true := by
  rw [drainTurn]
  split
  · split
    · exact contains_set cameraId other .blocked (.inr h)
    · exact h
  · exact contains_set cameraId other .drained (.inr h)

theorem suspend_contains (h : g.holds.contains cameraId = true) (other : String) (timeout : ℚ) (expired : Bool) :
    (g.suspend other timeout expired).2.holds.contains cameraId = true := by
  rw [suspend]
  split
  · exact h
  split
  · exact h
  split
  · exact h
  split
  · exact h
  · have hset : ((g.set other .draining).cancel other).holds.contains cameraId = true :=
      contains_set cameraId other .draining (.inr h)
    exact drainTurn_contains hset other expired

theorem admit_holds {lease : ViewerLease} (h : g.admitViewer cameraId = .ok (lease, g')) : g'.holds = g.holds := by
  rw [admitViewer] at h
  split at h
  · cases h
  split at h
  · cases h
  · cases h
    rfl

end CamGuard.Source.ViewerGate
