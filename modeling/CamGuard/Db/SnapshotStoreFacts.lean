/-
The evidence store as a history of compare-and-swaps. A call that changes a camera's row
leaves the generation it was allowed by spent (`Spent`), and what is spent stays so.
-/
import CamGuard.Db.SnapshotStore
import Mathlib.Data.List.Induction

namespace CamGuard.Db

namespace SnapshotStore

variable {s : SnapshotStore} {camera : String} {call : SnapshotCall}

/-! ## One call -/

/-- The generation of a row, which is 0 where there is none. -/
def generationOf (row : Option SnapshotRow) : Int := (row.map SnapshotRow.generation).getD 0

/-- The batch of a row. -/
def storedOf (row : Option SnapshotRow) : Option StoredEvidence := row.bind SnapshotRow.stored

/-- **What a change does to the row of a camera.** -/
inductive Effect (camera : String) (row row' : Option SnapshotRow) : SnapshotCall → SnapshotAnswer → Prop
  | begin_ (hafter : row' = some ⟨generationOf row + 1, none⟩) :
      Effect camera row row' (.begin_ camera) (.ticket (generationOf row + 1))
  | save {snapshot : CapabilitySnapshot} {generation : Int} {expiresAt : Option ℚ} {stored : StoredEvidence}
      (hvalid : validatedEvidence snapshot generation expiresAt = some stored) (hcamera : snapshot.cameraId = camera)
      (hbefore : row = some ⟨generation, none⟩) (hafter : row' = some ⟨generation, some stored⟩) :
      Effect camera row row' (.save snapshot generation expiresAt) (.stored true)
  | publish {snapshot : CapabilitySnapshot} {generation : Int} {expiresAt : Option ℚ} {stored : StoredEvidence}
      (hvalid : validatedEvidence snapshot (generation + 1) expiresAt = some stored) (hcamera : snapshot.cameraId = camera)
      (hbefore : generationOf row = generation) (hlater : ∀ old ∈ storedOf row, old.collectedAt ≤ stored.collectedAt)
      (hafter : row' = some ⟨generation + 1, some stored⟩) :
      Effect camera row row' (.publishObservation snapshot generation expiresAt) (.stored true)
  | replace {snapshot : CapabilitySnapshot} {generation : Int} {expiresAt : Option ℚ} {stored : StoredEvidence}
      (hvalid : validatedEvidence snapshot generation expiresAt = some stored) (hcamera : snapshot.cameraId = camera)
      (hbefore : generationOf row = generation) (hlater : ∀ old ∈ storedOf row, old.collectedAt ≤ stored.collectedAt)
      (hafter : row' = some ⟨generation + 1, some stored⟩) :
      Effect camera row row' (.replaceCurrent snapshot generation expiresAt) (.stored true)

theorem update_cases (s : SnapshotStore) (camera : String) (change : SnapshotRow → Option SnapshotRow) :
    s.update camera change = (.stored false, s) ∨
      ∃ row row', s.get? camera = some row ∧ change row = some row' ∧
        s.update camera change = (.stored true, s.set camera row') := by
  unfold update
  cases hrow : s.get? camera with
  | none => exact .inl rfl
  | some row =>
    simp only [Option.bind_some]
    cases hchange : change row with
    | none => exact .inl rfl
    | some row' => exact .inr ⟨row, row', rfl, hchange, rfl⟩

/-- The camera that a call is about, when it can change a row. -/
def target : SnapshotCall → Option String
  | .begin_ camera => some camera
  | call => call.published.map fun published => published.1.cameraId

/-- **A call leaves the store as it is and does not succeed, or it changes the row of its
camera.** -/
theorem step_effect (s : SnapshotStore) (call : SnapshotCall) :
    ((s.step call).2 = s ∧ (s.step call).1 ≠ .stored true ∧ ((∃ camera, call = .begin_ camera) → (s.step call).1 = .raised)) ∨
      ∃ camera row', target call = some camera ∧ (s.step call).2 = s.set camera row' ∧
        Effect camera (s.get? camera) (some row') call (s.step call).1 := by
  cases call with
  | begin_ camera =>
    dsimp only [step, begin_]
    split
    · exact .inl ⟨rfl, by simp, fun _ => rfl⟩
    · refine .inr ⟨camera, _, rfl, rfl, ?_⟩
      cases hrow : s.get? camera with
      | none => exact .begin_ rfl
      | some row => exact .begin_ rfl
  | save snapshot generation expiresAt =>
    dsimp only [step, save]
    cases hvalid : validatedEvidence snapshot generation expiresAt with
    | none => exact .inl ⟨rfl, by simp, by simp⟩
    | some stored =>
      dsimp only
      rcases s.update_cases snapshot.cameraId (fun row =>
          if row.generation = generation ∧ row.stored.isNone then some { row with stored := some stored } else none) with
        heq | ⟨row, row', hrow, hchange, heq⟩
      · rw [heq]
        exact .inl ⟨rfl, by simp, by simp⟩
      · rw [heq]
        split at hchange
        · next hguard =>
          cases hchange
          refine .inr ⟨snapshot.cameraId, _, rfl, rfl, ?_⟩
          obtain ⟨rowGeneration, old⟩ := row
          obtain ⟨rfl, hnone⟩ := hguard
          rw [Option.isNone_iff_eq_none] at hnone
          exact .save hvalid rfl (hrow.trans (by rw [show old = none from hnone])) rfl
        · cases hchange
  | publishObservation snapshot generation expiresAt =>
    dsimp only [step, publishObservation]
    split
    · exact .inl ⟨rfl, by simp, by simp⟩
    cases hvalid : validatedEvidence snapshot (generation + 1) expiresAt with
    | none => exact .inl ⟨rfl, by simp, by simp⟩
    | some stored =>
      dsimp only
      split
      · next hzero =>
        cases hrow : s.get? snapshot.cameraId with
        | some row => exact .inl ⟨rfl, by simp, by simp⟩
        | none =>
          refine .inr ⟨snapshot.cameraId, _, rfl, rfl, ?_⟩
          rw [hrow]
          subst hzero
          exact .publish hvalid rfl rfl (by simp [storedOf]) rfl
      · rcases s.update_cases snapshot.cameraId (fun row =>
            if row.generation = generation ∧ row.stored.all (fun old => decide (old.collectedAt ≤ stored.collectedAt)) then
              some ⟨row.generation + 1, some stored⟩
            else none) with heq | ⟨row, row', hrow, hchange, heq⟩
        · rw [heq]
          exact .inl ⟨rfl, by simp, by simp⟩
        · rw [heq]
          split at hchange
          · next hguard =>
            cases hchange
            refine .inr ⟨snapshot.cameraId, _, rfl, rfl, ?_⟩
            rw [hrow]
            obtain ⟨rfl, hlater⟩ := hguard
            refine .publish hvalid rfl rfl (fun old hold => ?_) rfl
            rw [show row.stored = some old from hold, Option.all_some] at hlater
            exact of_decide_eq_true hlater
          · cases hchange
  | replaceCurrent snapshot generation expiresAt =>
    dsimp only [step, replaceCurrent]
    cases hvalid : validatedEvidence snapshot generation expiresAt with
    | none => exact .inl ⟨rfl, by simp, by simp⟩
    | some stored =>
      dsimp only
      rcases s.update_cases snapshot.cameraId (fun row =>
          if row.generation = generation ∧ row.stored.any (fun old =>
              decide (old.revision = RULE_REVISION) && decide (old.collectedAt ≤ stored.collectedAt)) then
            some ⟨row.generation + 1, some stored⟩
          else none) with heq | ⟨row, row', hrow, hchange, heq⟩
      · rw [heq]
        exact .inl ⟨rfl, by simp, by simp⟩
      · rw [heq]
        split at hchange
        · next hguard =>
          cases hchange
          refine .inr ⟨snapshot.cameraId, _, rfl, rfl, ?_⟩
          rw [hrow]
          obtain ⟨rfl, hlater⟩ := hguard
          refine .replace hvalid rfl rfl (fun old hold => ?_) rfl
          rw [show row.stored = some old from hold, Option.any_some, Bool.and_eq_true, decide_eq_true_eq,
            decide_eq_true_eq] at hlater
          exact hlater.2
        · cases hchange
  | refreshGeneration camera =>
    dsimp only [step, refreshGeneration]
    split <;> exact .inl ⟨rfl, by simp, by simp⟩
  | observedGeneration camera =>
    dsimp only [step, observedGeneration]
    split <;> exact .inl ⟨rfl, by simp, by simp⟩
  | resolve camera identity feature now => exact .inl ⟨rfl, by simp [step], by simp⟩

theorem step_failed (h : (s.step call).1 ≠ .stored true) (hbegin : ∀ camera, call ≠ .begin_ camera) :
    (s.step call).2 = s := by
  rcases step_effect s call with ⟨hsame, -, -⟩ | ⟨camera, row', -, -, heffect⟩
  · exact hsame
  · generalize (s.step call).1 = got at h heffect
    cases heffect with
    | begin_ => exact absurd rfl (hbegin camera)
    | save | publish | replace => exact absurd rfl h

/-! ## What is spent -/

/-- Nothing can be written any more that the generation would allow. -/
def Spent (row : Option SnapshotRow) (generation : Int) : Prop :=
  generation < generationOf row ∨ generation = generationOf row ∧ (storedOf row).isSome

theorem Effect.spent {row row' : Option SnapshotRow} {got : SnapshotAnswer} (h : Effect camera row row' call got)
    {generation : Int} (hle : generation ≤ generationOf row) : Spent row' generation := by
  cases h with
  | begin_ hafter =>
    rw [hafter]
    exact .inl (Int.lt_add_one_of_le hle)
  | save _ _ hbefore hafter =>
    rw [hbefore] at hle
    rw [hafter]
    rcases lt_or_eq_of_le hle with hlt | heq
    · exact .inl hlt
    · exact .inr ⟨heq, rfl⟩
  | publish _ _ hbefore _ hafter | replace _ _ hbefore _ hafter =>
    rw [hbefore] at hle
    rw [hafter]
    exact .inl (Int.lt_add_one_of_le hle)

theorem Effect.generation_le {row row' : Option SnapshotRow} {got : SnapshotAnswer} (h : Effect camera row row' call got) :
    generationOf row ≤ generationOf row' := by
  rcases h.spent (le_refl _) with hlt | ⟨heq, -⟩
  · exact le_of_lt hlt
  · exact le_of_eq heq

/-- A call changes the row of its own camera, or none. -/
theorem step_row (s : SnapshotStore) (call : SnapshotCall) (camera : String) :
    (s.step call).2.get? camera = s.get? camera ∨
      Effect camera (s.get? camera) ((s.step call).2.get? camera) call (s.step call).1 := by
  rcases step_effect s call with ⟨hsame, -, -⟩ | ⟨other, row', -, hset, heffect⟩
  · exact .inl (by rw [hsame])
  · by_cases hcamera : camera = other
    · subst hcamera
      rw [hset, Dict.get?_set, if_pos rfl]
      exact .inr heffect
    · rw [hset, Dict.get?_set, if_neg hcamera]
      exact .inl rfl

theorem step_generation (s : SnapshotStore) (call : SnapshotCall) (camera : String) :
    generationOf (s.get? camera) ≤ generationOf ((s.step call).2.get? camera) := by
  rcases step_row s call camera with hsame | heffect
  · rw [hsame]
  · exact heffect.generation_le

theorem Spent.step {generation : Int} (h : Spent (s.get? camera) generation) (call : SnapshotCall) :
    Spent ((s.step call).2.get? camera) generation := by
  rcases step_row s call camera with hsame | heffect
  · rwa [hsame]
  · refine heffect.spent ?_
    rcases h with hlt | ⟨heq, -⟩
    · exact le_of_lt hlt
    · exact le_of_eq heq

/-! ## Runs -/

variable {table : SnapshotStore}

theorem run_snoc (calls : List SnapshotCall) (call : SnapshotCall) :
    run table (calls ++ [call]) = ((run table calls).step call).2 := by
  rw [run, List.foldl_append]
  rfl

theorem run_keeps {P : SnapshotStore → Prop} (hstep : ∀ s call, P s → P (s.step call).2) {before : List SnapshotCall}
    (h : P (run table before)) (after : List SnapshotCall) : P (run table (before ++ after)) := by
  induction after using List.reverseRecOn with
  | nil => rwa [List.append_nil]
  | append_singleton after call ih =>
    rw [← List.append_assoc, run_snoc]
    exact hstep _ call ih

theorem run_generation (table : SnapshotStore) (camera : String) (before after : List SnapshotCall) :
    generationOf ((run table before).get? camera) ≤ generationOf ((run table (before ++ after)).get? camera) :=
  run_keeps (P := fun s => generationOf ((run table before).get? camera) ≤ generationOf (s.get? camera))
    (fun s call h => le_trans h (step_generation s call camera)) (le_refl _) after

theorem changed_effect {before : List SnapshotCall} (h : Changed table camera before call) :
    Effect camera ((run table before).get? camera) ((run table (before ++ [call])).get? camera) call (answer table before call) := by
  rw [run_snoc]
  rcases step_effect (run table before) call with ⟨-, hnot, hbegin⟩ | ⟨other, row', htarget, hset, heffect⟩
  · rcases h with ⟨rfl, hdone⟩ | ⟨hdone, -⟩
    · exact absurd (hbegin ⟨camera, rfl⟩) hdone
    · exact absurd hdone hnot
  · have hcamera : other = camera := by
      rcases h with ⟨rfl, -⟩ | ⟨-, snapshot, expiresAt, hpublished, hcamera⟩
      · exact (Option.some.inj htarget).symm
      · cases call with
        | begin_ | refreshGeneration | observedGeneration | resolve => cases hpublished
        | save | publishObservation | replaceCurrent =>
          cases hpublished
          exact (Option.some.inj htarget).symm.trans hcamera
    subst hcamera
    rw [hset, Dict.get?_set, if_pos rfl]
    exact heffect

theorem unchanged {before : List SnapshotCall} (h : ¬ Changed table camera before call) :
    (run table (before ++ [call])).get? camera = (run table before).get? camera := by
  rw [run_snoc]
  rcases step_row (run table before) call camera with hsame | heffect
  · exact hsame
  · refine absurd ?_ h
    unfold Changed answer
    generalize ((run table before).step call).1 = got at heffect ⊢
    cases heffect with
    | begin_ => exact .inl ⟨rfl, by simp⟩
    | save _ hcamera | publish _ hcamera | replace _ hcamera => exact .inr ⟨rfl, _, _, rfl, hcamera⟩

/-- After a change the generation that it found is spent, at any later time. -/
theorem Changed.spent {before : List SnapshotCall} (h : Changed table camera before call) (after : List SnapshotCall)
    {generation : Int} (hle : generation ≤ generationOf ((run table before).get? camera)) :
    Spent ((run table (before ++ call :: after)).get? camera) generation := by
  have hspent := (changed_effect h).spent hle
  rw [List.append_cons]
  exact run_keeps (P := fun s => Spent (s.get? camera) generation) (fun s call h => h.step call) hspent after

theorem save_unspent {before : List SnapshotCall} {snapshot : CapabilitySnapshot} {generation : Int} {expiresAt : Option ℚ}
    (h : answer table before (.save snapshot generation expiresAt) = .stored true) :
    generationOf ((run table before).get? snapshot.cameraId) = generation ∧
      ¬ Spent ((run table before).get? snapshot.cameraId) generation := by
  have hchanged : Changed table snapshot.cameraId before (.save snapshot generation expiresAt) := .inr ⟨h, _, _, rfl, rfl⟩
  have heffect := changed_effect hchanged
  rw [h] at heffect
  cases heffect with
  | save _ _ hbefore =>
    rw [hbefore]
    refine ⟨rfl, ?_⟩
    rintro (hlt | ⟨-, hsome⟩)
    · exact lt_irrefl _ hlt
    · cases hsome

/-- The calls that carry an observed generation. -/
def observer : SnapshotCall → Option (CapabilitySnapshot × Int)
  | .publishObservation snapshot generation _ => some (snapshot, generation)
  | .replaceCurrent snapshot generation _ => some (snapshot, generation)
  | _ => none

theorem observer_changed {before : List SnapshotCall} {snapshot : CapabilitySnapshot} {generation : Int}
    (h : answer table before call = .stored true) (hobserver : observer call = some (snapshot, generation)) :
    Changed table snapshot.cameraId before call := by
  cases call with
  | begin_ | save | refreshGeneration | observedGeneration | resolve => cases hobserver
  | publishObservation | replaceCurrent =>
    cases hobserver
    exact .inr ⟨h, _, _, rfl, rfl⟩

/-! ## What is stored -/

theorem collectEvidence_spec {evidence evidence' : List (String × EvidenceState)} {items : List PropertyEvidence}
    (h : collectEvidence evidence items = some evidence') :
    evidence' = evidence ++ items.map fun item => (item.feature, item.state) := by
  induction items generalizing evidence with
  | nil =>
    cases h
    simp
  | cons item rest ih =>
    unfold collectEvidence at h
    split at h
    · cases h
    · rw [ih h, List.map_cons, List.append_assoc, List.singleton_append]

theorem validTime_some {value : Option ℚ} {t : ℚ} (h : validTime value = some t) : value = some t :=
  (Option.filter_eq_some_iff.mp h).1

theorem validatedEvidence_spec {snapshot : CapabilitySnapshot} {generation : Int} {expiresAt : Option ℚ}
    {stored : StoredEvidence} (h : validatedEvidence snapshot generation expiresAt = some stored) :
    stored.identity = snapshot.identity ∧ snapshot.collectedAt = some stored.collectedAt ∧
      expiresAt = some stored.expiresAt ∧
      stored.evidence = snapshot.evidence.map fun item => (item.feature, item.state) := by
  unfold validatedEvidence at h
  split at h
  · cases h
  split at h
  · next collectedAt expires hcollected hexpires =>
    split at h
    · cases h
    obtain ⟨evidence, hevidence, rfl⟩ := Option.map_eq_some_iff.mp h
    exact ⟨rfl, validTime_some hcollected, validTime_some hexpires, collectEvidence_spec hevidence⟩
  · cases h

/-- An observation is published at the generation that it carries, leaves it behind, and is
no older than what it replaces. -/
theorem observer_generation {before : List SnapshotCall} {snapshot : CapabilitySnapshot} {generation : Int}
    (h : answer table before call = .stored true) (hobserver : observer call = some (snapshot, generation)) :
    generationOf ((run table before).get? snapshot.cameraId) = generation ∧
      generation < generationOf ((run table (before ++ [call])).get? snapshot.cameraId) ∧
      ∀ old ∈ storedOf ((run table before).get? snapshot.cameraId), ∃ t, snapshot.collectedAt = some t ∧ old.collectedAt ≤ t := by
  have heffect := changed_effect (observer_changed h hobserver)
  rw [h] at heffect
  cases heffect with
  | save => cases hobserver
  | publish hvalid _ hbefore hlater hafter | replace hvalid _ hbefore hlater hafter =>
    cases hobserver
    obtain ⟨-, hcollected, -⟩ := validatedEvidence_spec hvalid
    rw [hafter]
    exact ⟨hbefore, Int.lt_succ _, fun old hold => ⟨_, hcollected, hlater old hold⟩⟩

/-- The batch was written by this call. -/
def Wrote (table : SnapshotStore) (camera : String) (stored : StoredEvidence) (before : List SnapshotCall) (call : SnapshotCall) : Prop :=
  answer table before call = .stored true ∧ ∃ snapshot expiresAt generation, call.published = some (snapshot, expiresAt) ∧
    snapshot.cameraId = camera ∧ validatedEvidence snapshot generation expiresAt = some stored

/-- Nothing has changed the evidence of the camera in these calls, after those. -/
def Quiet (table : SnapshotStore) (camera : String) (before calls : List SnapshotCall) : Prop :=
  ∀ first next rest, calls = first ++ next :: rest → ¬ Changed table camera (before ++ first) next

theorem Quiet.snoc {before calls : List SnapshotCall} {last : SnapshotCall} (h : Quiet table camera before calls)
    (hlast : ¬ Changed table camera (before ++ calls) last) : Quiet table camera before (calls ++ [last]) := by
  intro first next rest heq
  rcases List.eq_nil_or_concat rest with rfl | ⟨rest, final, rfl⟩
  · obtain ⟨rfl, hnext⟩ := List.append_inj' heq rfl
    cases hnext
    exact hlast
  · rw [List.concat_eq_append, ← List.cons_append, ← List.append_assoc] at heq
    exact h first next rest (List.append_inj' heq rfl).1

/-- **Where evidence comes from**: the last change wrote it, or it was there. -/
theorem run_origin (calls : List SnapshotCall) {stored : StoredEvidence}
    (h : storedOf ((run table calls).get? camera) = some stored) :
    (∃ before call after, calls = before ++ call :: after ∧ Wrote table camera stored before call ∧
      Quiet table camera (before ++ [call]) after) ∨
      storedOf (table.get? camera) = some stored ∧ Quiet table camera [] calls := by
  induction calls using List.reverseRecOn with
  | nil => exact .inr ⟨h, fun first next rest heq => by simp at heq⟩
  | append_singleton calls last ih =>
    by_cases hchanged : Changed table camera calls last
    · refine .inl ⟨calls, last, [], rfl, ?_, fun first next rest heq => by simp at heq⟩
      have heffect := changed_effect hchanged
      unfold Wrote
      generalize answer table calls last = got at heffect ⊢
      cases heffect with
      | begin_ hafter =>
        rw [hafter] at h
        cases h
      | save hvalid hcamera _ hafter | publish hvalid hcamera _ _ hafter | replace hvalid hcamera _ _ hafter =>
        rw [hafter] at h
        cases h
        exact ⟨rfl, _, _, _, rfl, hcamera, hvalid⟩
    · rw [unchanged hchanged] at h
      rcases ih h with ⟨before, call, after, rfl, hwrote, hquiet⟩ | ⟨hthere, hquiet⟩
      · rw [List.append_cons] at hchanged
        exact .inl ⟨before, call, after ++ [last], by simp, hwrote, hquiet.snoc hchanged⟩
      · exact .inr ⟨hthere, hquiet.snoc hchanged⟩

theorem resolve_known {identity : CapabilityIdentity} {feature : String} {now : Option ℚ}
    (h : s.resolve camera identity feature now ≠ .unknown) :
    ∃ stored t, storedOf (s.get? camera) = some stored ∧ now = some t ∧ stored.identity = identity ∧
      stored.collectedAt ≤ t ∧ t < stored.expiresAt ∧ stored.revision = RULE_REVISION ∧
      (feature, s.resolve camera identity feature now) ∈ stored.evidence := by
  unfold resolve at h ⊢
  split at h
  · exact absurd rfl h
  next values hload =>
  unfold load at hload
  obtain ⟨t, ht, hrow⟩ := Option.bind_eq_some_iff.mp hload
  obtain ⟨stored, hstored, hvalues⟩ := Option.map_eq_some_iff.mp hrow
  obtain ⟨hget, hguard⟩ := Option.filter_eq_some_iff.mp hstored
  simp only [Bool.and_eq_true, decide_eq_true_eq] at hguard
  obtain ⟨⟨⟨hidentity, hcollected⟩, hexpires⟩, hrevision⟩ := hguard
  refine ⟨stored, t, hget, validTime_some ht, hidentity, hcollected, hexpires, hrevision, ?_⟩
  cases hfind : values.find? (fun e => decide (e.1 = feature)) with
  | none =>
    rw [hfind] at h
    exact absurd rfl h
  | some entry =>
    simp only [Option.map_some, Option.getD_some]
    rw [hvalues]
    have hname := List.find?_some hfind
    rw [decide_eq_true_eq] at hname
    rw [← hname]
    exact List.mem_of_find?_eq_some hfind

/-! ## Compare and swap -/

theorem begin_generation {before : List SnapshotCall} {generation : Int}
    (h : answer table before (.begin_ camera) = .ticket generation) :
    Changed table camera before (.begin_ camera) ∧ generationOf ((run table before).get? camera) < generation ∧
      generationOf ((run table (before ++ [SnapshotCall.begin_ camera])).get? camera) = generation := by
  have hchanged : Changed table camera before (.begin_ camera) := .inl ⟨rfl, by rw [h]; simp⟩
  have heffect := changed_effect hchanged
  rw [h] at heffect
  cases heffect with
  | begin_ hafter =>
    rw [hafter]
    exact ⟨hchanged, Int.lt_succ _, rfl⟩

theorem observed_generation {before : List SnapshotCall} {read : SnapshotCall} {generation : Int}
    (hread : read = .refreshGeneration camera ∨ read = .observedGeneration camera)
    (h : answer table before read = .observed (some generation)) : generationOf ((run table before).get? camera) = generation := by
  rcases hread with rfl | rfl
  · simp only [answer, step, refreshGeneration] at h
    split at h
    · cases h
    · obtain ⟨row, hrow, rfl⟩ := Option.map_eq_some_iff.mp (SnapshotAnswer.observed.inj h)
      rw [(Option.filter_eq_some_iff.mp hrow).1]
      rfl
  · simp only [answer, step, observedGeneration] at h
    split at h
    · cases h
    · exact Option.some.inj (SnapshotAnswer.observed.inj h)

/-- Between a `begin` and the save that succeeds with its ticket nothing changes. -/
theorem save_quiet {snapshot : CapabilitySnapshot} {generation : Int} {expiresAt : Option ℚ}
    {before between : List SnapshotCall} (hticket : answer table before (.begin_ snapshot.cameraId) = .ticket generation)
    (hdone : answer table (before ++ .begin_ snapshot.cameraId :: between) (.save snapshot generation expiresAt) = .stored true)
    {first rest : List SnapshotCall} (hbetween : between = first ++ call :: rest) :
    ¬ Changed table snapshot.cameraId (before ++ .begin_ snapshot.cameraId :: first) call := by
  intro hchanged
  obtain ⟨-, -, hbegin⟩ := begin_generation hticket
  have hlater := run_generation table snapshot.cameraId (before ++ [SnapshotCall.begin_ snapshot.cameraId]) first
  rw [hbegin, ← List.append_cons] at hlater
  have hspent := hchanged.spent rest hlater
  rw [List.append_assoc, List.cons_append, ← hbetween] at hspent
  exact (save_unspent hdone).2 hspent

theorem save_once {snapshot snapshot' : CapabilitySnapshot} {generation : Int} {expiresAt expiresAt' : Option ℚ}
    {before between : List SnapshotCall} (hcamera : snapshot.cameraId = snapshot'.cameraId)
    (hdone : answer table before (.save snapshot generation expiresAt) = .stored true) :
    answer table (before ++ .save snapshot generation expiresAt :: between) (.save snapshot' generation expiresAt') ≠
      .stored true := by
  intro hagain
  have hchanged : Changed table snapshot.cameraId before (.save snapshot generation expiresAt) := .inr ⟨hdone, _, _, rfl, rfl⟩
  have hspent := hchanged.spent between (le_of_eq (save_unspent hdone).1.symm)
  rw [hcamera] at hspent
  exact (save_unspent hagain).2 hspent

theorem observed_once {call' : SnapshotCall} {snapshot snapshot' : CapabilitySnapshot} {generation : Int}
    {before between : List SnapshotCall} (hobserver : observer call = some (snapshot, generation))
    (hobserver' : observer call' = some (snapshot', generation)) (hcamera : snapshot.cameraId = snapshot'.cameraId)
    (hdone : answer table before call = .stored true) : answer table (before ++ call :: between) call' ≠ .stored true := by
  intro hagain
  obtain ⟨-, hspent, -⟩ := observer_generation hdone hobserver
  obtain ⟨hsame, -, -⟩ := observer_generation hagain hobserver'
  have hlater := run_generation table snapshot.cameraId (before ++ [call]) between
  rw [← List.append_cons, hcamera, hsame] at hlater
  rw [hcamera] at hspent
  exact absurd hspent (not_lt.mpr hlater)

/-- An observation is not saved after a `begin` that came behind its reading. -/
theorem observed_begin {read : SnapshotCall} {snapshot : CapabilitySnapshot} {generation : Int}
    {before between first rest : List SnapshotCall}
    (hread : read = .refreshGeneration snapshot.cameraId ∨ read = .observedGeneration snapshot.cameraId)
    (hobserved : answer table before read = .observed (some generation)) (hobserver : observer call = some (snapshot, generation))
    (hdone : answer table (before ++ read :: between) call = .stored true)
    (hbetween : between = first ++ .begin_ snapshot.cameraId :: rest) :
    answer table (before ++ read :: first) (.begin_ snapshot.cameraId) = .raised := by
  by_contra hbegin
  have hchanged : Changed table snapshot.cameraId (before ++ read :: first) (.begin_ snapshot.cameraId) := .inl ⟨rfl, hbegin⟩
  have hlater := run_generation table snapshot.cameraId before (read :: first)
  rw [observed_generation hread hobserved] at hlater
  have heffect := changed_effect hchanged
  have hafter := run_generation table snapshot.cameraId (before ++ read :: first ++ [SnapshotCall.begin_ snapshot.cameraId]) rest
  obtain ⟨hsame, -, -⟩ := observer_generation hdone hobserver
  have hlist : before ++ read :: between = before ++ read :: first ++ [SnapshotCall.begin_ snapshot.cameraId] ++ rest := by
    rw [hbetween]
    simp
  rw [← hlist, hsame] at hafter
  generalize answer table (before ++ read :: first) (.begin_ snapshot.cameraId) = got at heffect
  cases heffect with
  | begin_ hrow =>
    rw [hrow] at hafter
    exact absurd (lt_of_le_of_lt hlater (Int.lt_succ _)) (not_lt.mpr hafter)

/-- What `resolve` knows was stored by the last change, or was there. -/
theorem resolve_origin {calls : List SnapshotCall} {identity : CapabilityIdentity} {feature : String} {now : Option ℚ}
    (h : (run table calls).resolve camera identity feature now ≠ .unknown) :
    (∃ before call after snapshot collectedAt t expiresAt, calls = before ++ call :: after ∧
      call.published = some (snapshot, some expiresAt) ∧ answer table before call = .stored true ∧
      snapshot.cameraId = camera ∧ snapshot.identity = identity ∧
      ⟨feature, (run table calls).resolve camera identity feature now⟩ ∈ snapshot.evidence ∧
      snapshot.collectedAt = some collectedAt ∧ now = some t ∧ collectedAt ≤ t ∧ t < expiresAt ∧
      Quiet table camera (before ++ [call]) after) ∨
    ∃ stored t, storedOf (table.get? camera) = some stored ∧ stored.identity = identity ∧
      (feature, (run table calls).resolve camera identity feature now) ∈ stored.evidence ∧
      now = some t ∧ stored.collectedAt ≤ t ∧ t < stored.expiresAt ∧ stored.revision = RULE_REVISION ∧ Quiet table camera [] calls := by
  obtain ⟨stored, t, hstored, hnow, hidentity, hcollected, hexpires, hrevision, hmem⟩ := resolve_known h
  rcases run_origin calls hstored with
    ⟨before, call, after, heq, ⟨hdone, snapshot, expiresAt, generation, hpublished, hcamera, hvalid⟩, hquiet⟩ | ⟨hthere, hquiet⟩
  swap
  · exact .inr ⟨stored, t, hthere, hidentity, hmem, hnow, hcollected, hexpires, hrevision, hquiet⟩
  left
  obtain ⟨hsame, hcollected', hexpires', hevidence⟩ := validatedEvidence_spec hvalid
  rw [hevidence] at hmem
  obtain ⟨item, hitem, hentry⟩ := List.mem_map.mp hmem
  refine ⟨before, call, after, snapshot, stored.collectedAt, t, stored.expiresAt, heq, hexpires' ▸ hpublished, hdone, hcamera,
    hsame.symm.trans hidentity, ?_, hcollected', hnow, hcollected, hexpires, hquiet⟩
  obtain ⟨hfeature, hstate⟩ := Prod.mk.inj hentry
  rw [← hstate, ← hfeature]
  exact hitem

/-- **The evidence store is a compare-and-swap history**, in every run of any collectors'
calls on any table: generations do not go back; between a `begin` and the one `save` that succeeds with
its ticket nothing changes the camera's row, and none succeeds with it again; an observed
generation publishes at most once, never after a `begin`, and never older evidence; a call
that fails leaves every row; and `resolve` answers with what the last change has stored, or,
where nothing has changed, with what was in the table. -/
theorem snapshots_compare_and_swap (table : SnapshotStore) (calls : List SnapshotCall) :
    (∀ camera (before after : List SnapshotCall), calls = before ++ after →
      generationOf ((run table before).get? camera) ≤ generationOf ((run table calls).get? camera)) ∧
    (∀ snapshot generation expiresAt (before between after : List SnapshotCall),
      calls = before ++ .begin_ snapshot.cameraId :: between ++ .save snapshot generation expiresAt :: after →
      answer table before (.begin_ snapshot.cameraId) = .ticket generation →
      answer table (before ++ .begin_ snapshot.cameraId :: between) (.save snapshot generation expiresAt) = .stored true →
      ∀ first call rest, between = first ++ call :: rest →
        ¬ Changed table snapshot.cameraId (before ++ .begin_ snapshot.cameraId :: first) call) ∧
    (∀ snapshot snapshot' generation expiresAt expiresAt' (before between after : List SnapshotCall),
      calls = before ++ .save snapshot generation expiresAt :: between ++ .save snapshot' generation expiresAt' :: after →
      snapshot.cameraId = snapshot'.cameraId → answer table before (.save snapshot generation expiresAt) = .stored true →
      answer table (before ++ .save snapshot generation expiresAt :: between) (.save snapshot' generation expiresAt') ≠
        .stored true) ∧
    (∀ call call' snapshot snapshot' generation (before between after : List SnapshotCall),
      calls = before ++ call :: between ++ call' :: after → observer call = some (snapshot, generation) →
      observer call' = some (snapshot', generation) → snapshot.cameraId = snapshot'.cameraId →
      answer table before call = .stored true → answer table (before ++ call :: between) call' ≠ .stored true) ∧
    (∀ read call snapshot generation (before between after : List SnapshotCall),
      calls = before ++ read :: between ++ call :: after →
      read = .refreshGeneration snapshot.cameraId ∨ read = .observedGeneration snapshot.cameraId →
      answer table before read = .observed (some generation) → observer call = some (snapshot, generation) →
      answer table (before ++ read :: between) call = .stored true →
      ∀ first rest, between = first ++ .begin_ snapshot.cameraId :: rest →
        answer table (before ++ read :: first) (.begin_ snapshot.cameraId) = .raised) ∧
    (∀ call (before after : List SnapshotCall), calls = before ++ call :: after → call.published.isSome → answer table before call ≠ .stored true →
      run table (before ++ [call]) = run table before) ∧
    (∀ call snapshot generation (before after : List SnapshotCall), calls = before ++ call :: after →
      observer call = some (snapshot, generation) → answer table before call = .stored true →
      ∀ old ∈ storedOf ((run table before).get? snapshot.cameraId), ∃ t, snapshot.collectedAt = some t ∧ old.collectedAt ≤ t) ∧
    ∀ camera identity feature now, (run table calls).resolve camera identity feature now ≠ .unknown →
      (∃ (before : List SnapshotCall) (call : SnapshotCall) (after : List SnapshotCall) (snapshot : _) (collectedAt t expiresAt : _),
        calls = before ++ call :: after ∧ call.published = some (snapshot, some expiresAt) ∧ answer table before call = .stored true ∧
        snapshot.cameraId = camera ∧ snapshot.identity = identity ∧
        ⟨feature, (run table calls).resolve camera identity feature now⟩ ∈ snapshot.evidence ∧
        snapshot.collectedAt = some collectedAt ∧ now = some t ∧ collectedAt ≤ t ∧ t < expiresAt ∧
        Quiet table camera (before ++ [call]) after) ∨
      ∃ stored t, storedOf (table.get? camera) = some stored ∧ stored.identity = identity ∧
        (feature, (run table calls).resolve camera identity feature now) ∈ stored.evidence ∧
        now = some t ∧ stored.collectedAt ≤ t ∧ t < stored.expiresAt ∧ stored.revision = RULE_REVISION ∧
        Quiet table camera [] calls := by
  refine ⟨fun camera before after heq => heq ▸ run_generation table camera before after, ?_, ?_, ?_, ?_, ?_, ?_, ?_⟩
  · intro snapshot generation expiresAt before between after _ hticket hdone first call rest hbetween
    exact save_quiet hticket hdone hbetween
  · intro snapshot snapshot' generation expiresAt expiresAt' before between after _ hcamera hdone
    exact save_once hcamera hdone
  · intro call call' snapshot snapshot' generation before between after _ hobserver hobserver' hcamera hdone
    exact observed_once hobserver hobserver' hcamera hdone
  · intro read call snapshot generation before between after _ hread hobserved hobserver hdone first rest hbetween
    exact observed_begin hread hobserved hobserver hdone hbetween
  · intro call before after _ hpublished hfailed
    rw [run_snoc]
    refine step_failed hfailed fun camera hbegin => ?_
    rw [hbegin] at hpublished
    cases hpublished
  · intro call snapshot generation before after _ hobserver hdone
    exact (observer_generation hdone hobserver).2.2
  · intro camera identity feature now h
    exact resolve_origin h

end SnapshotStore

end CamGuard.Db
