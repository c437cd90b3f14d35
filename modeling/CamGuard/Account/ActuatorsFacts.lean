/-
The actuators exclude one another. Whatever the callers do with the jobs, a job's
result stays as it is (`Forward`), so what a `prepare` has seen of the last jobs holds
on: every job but the last of its kind is over and settled, and there is no gesture
under way beside a pulse that may still sound (`Exclusive`).
-/
import CamGuard.Account.Actuators
import Mathlib.Data.List.Induction

namespace CamGuard.Account

open CamGuard.Crypto

/-! ## Results stay -/

theorem PtzWorld.step_result {loads : Loads} {now : ℚ} (call : JobCall) {w : PtzWorld} {r : ScheduledPtzResult}
    (h : w.job.result = some r) : (w.step loads now call.ptz).2.job.result = some r := by
  cases call with
  | nextPacket => simp [JobCall.ptz, PtzWorld.step, PtzWorld.nextPacket, h]
  | observe plain peer generation noise =>
    simp only [JobCall.ptz, PtzWorld.step, PtzWorld.observe, h, Option.isSome_some, true_or, if_true]
    split <;> exact h
  | cancel => exact h
  | sendFailed => exact h

theorem SirenWorld.step_result {loads : Loads} {now : ℚ} (call : JobCall) {w : SirenWorld} {r : SirenPulseResult}
    (h : w.job.result = some r) : (w.step loads now call.siren).2.job.result = some r := by
  cases call with
  | nextPacket => simp [JobCall.siren, SirenWorld.step, SirenWorld.nextPacket, h]
  | observe plain peer generation noise => simp [JobCall.siren, SirenWorld.step, SirenWorld.observe, h]
  | cancel => exact h
  | sendFailed => exact h

/-- A new gesture is under way. -/
theorem PtzScheduler.new_result {node : CertifiedNode} {source source' : BrokerSequences}
    {output output' : AccountOutputBudget} {generation : Nat} {spec : PtzSpec} {draws : PtzDraws} {now : ℚ}
    {job : PtzScheduler} (h : PtzScheduler.new node source output generation spec draws now = (.ok job, output', source')) :
    job.result = none := by
  unfold PtzScheduler.new at h
  split at h
  · cases h
  split at h
  · cases h
  split at h
  · cases h
  · cases h
    rfl

theorem SirenPulseJob.build_result {node : CertifiedNode} {generation : Nat} {spec : SirenPulseSpec} {draws : SirenDraws}
    {token : Nat} {admission : ℚ} {ids : List Nat} {job : SirenPulseJob}
    (h : build node generation spec draws token admission ids = .ok job) : job.result = none := by
  unfold build at h
  split at h
  · split at h
    · cases h
    simp only at h
    split at h
    · cases h
    split at h
    · cases h
    · cases h
      rfl
  · cases h

theorem SirenPulseJob.new_result {node : CertifiedNode} {source source' : BrokerSequences}
    {output output' : AccountOutputBudget} {spec : SirenPulseSpec} {generation : Nat} {draws : SirenDraws}
    {admitUntil : Option ℚ} {now : ℚ} {job : SirenPulseJob}
    (h : SirenPulseJob.new node source output spec generation draws admitUntil now = (.ok job, output', source')) :
    job.result = none := by
  unfold SirenPulseJob.new at h
  simp only at h
  split at h
  · cases h
  split at h
  · cases h
  split at h
  · cases h
  split at h
  · cases h
  next hbuild =>
    cases h
    exact build_result hbuild

/-! ## Jobs of one kind -/

section

variable {α ρ : Type} {result : α → Option ρ} {bad : ρ → Bool} {jobs jobs' : List α}

/-- The job is not over, or it has ended badly. -/
def Pending (result : α → Option ρ) (bad : ρ → Bool) (job : α) : Prop :=
  result job = none ∨ ∃ r, result job = some r ∧ bad r = true

/-- The jobs are the same, and a result stays. -/
structure Onward (result : α → Option ρ) (jobs jobs' : List α) : Prop where
  length : jobs'.length = jobs.length
  stays : ∀ (id : Nat) job', jobs'[id]? = some job' →
    ∃ job, jobs[id]? = some job ∧ ∀ r, result job = some r → result job' = some r

theorem Onward.refl (result : α → Option ρ) (jobs : List α) : Onward result jobs jobs :=
  ⟨rfl, fun _ job h => ⟨job, h, fun _ hr => hr⟩⟩

theorem Onward.set {id : Nat} {job job' : α} (hjob : jobs[id]? = some job)
    (hstays : ∀ r, result job = some r → result job' = some r) : Onward result jobs (jobs.set id job') where
  length := List.length_set
  stays := by
    intro other found hfound
    rw [List.getElem?_set] at hfound
    split at hfound
    next heq =>
      subst heq
      rw [if_pos (List.getElem?_eq_some_iff.mp hjob).1] at hfound
      cases hfound
      exact ⟨job, hjob, hstays⟩
    next => exact ⟨found, hfound, fun _ hr => hr⟩

theorem Onward.modify {f : α → α} (hstays : ∀ job, result (f job) = result job) (id : Nat) :
    Onward result jobs (jobs.modify id f) where
  length := List.length_modify ..
  stays := by
    intro other found hfound
    rw [List.getElem?_modify] at hfound
    obtain ⟨job, hjob, heq⟩ := Option.map_eq_some_iff.mp hfound
    refine ⟨job, hjob, fun r hr => ?_⟩
    split at heq
    · rw [← heq]
      exact (hstays job).trans hr
    · rw [← heq]
      exact hr

/-- A job that is not over was not over. -/
theorem Onward.unfinished (h : Onward result jobs jobs') {id : Nat} {job' : α} (hjob' : jobs'[id]? = some job')
    (hnone : result job' = none) : ∃ job, jobs[id]? = some job ∧ result job = none := by
  obtain ⟨job, hjob, hstays⟩ := h.stays id job' hjob'
  refine ⟨job, hjob, ?_⟩
  cases hr : result job with
  | none => rfl
  | some r =>
    rw [hstays r hr] at hnone
    cases hnone

theorem Onward.pending (h : Onward result jobs jobs') {id : Nat} {job' : α} (hjob' : jobs'[id]? = some job')
    (hpending : Pending result bad job') : ∃ job, jobs[id]? = some job ∧ Pending result bad job := by
  obtain ⟨job, hjob, hstays⟩ := h.stays id job' hjob'
  refine ⟨job, hjob, ?_⟩
  cases hr : result job with
  | none => exact .inl hr
  | some r =>
    rcases hpending with hnone | ⟨r', hr', hbad⟩
    · rw [hstays r hr] at hnone
      cases hnone
    · rw [hstays r hr] at hr'
      cases hr'
      exact .inr ⟨r, hr, hbad⟩

/-- A job that has ended badly stays so. -/
theorem Onward.ended (h : Onward result jobs jobs') {id : Nat} {job : α} (hjob : jobs[id]? = some job) {r : ρ}
    (hr : result job = some r) : ∃ job', jobs'[id]? = some job' ∧ result job' = some r := by
  have hlt : id < jobs'.length := by
    rw [h.length]
    exact (List.getElem?_eq_some_iff.mp hjob).1
  obtain ⟨found, hfound, hstays⟩ := h.stays id _ (List.getElem?_eq_getElem hlt)
  rw [hjob] at hfound
  cases hfound
  exact ⟨_, List.getElem?_eq_getElem hlt, hstays r hr⟩

/-- Only the last job is pending. -/
def OnlyLast (result : α → Option ρ) (bad : ρ → Bool) (jobs : List α) : Prop :=
  ∀ (id : Nat) job, jobs[id]? = some job → Pending result bad job → id + 1 = jobs.length

theorem OnlyLast.onward (h : OnlyLast result bad jobs) (honward : Onward result jobs jobs') : OnlyLast result bad jobs' := by
  intro id job' hjob' hpending
  obtain ⟨job, hjob, hpending⟩ := honward.pending hjob' hpending
  rw [honward.length]
  exact h id job hjob hpending

theorem OnlyLast.settled (h : OnlyLast result bad jobs)
    (hlast : ∀ job, jobs.getLast? = some job → ¬ Pending result bad job) : ∀ job ∈ jobs, ¬ Pending result bad job := by
  intro job hmem hpending
  obtain ⟨id, hjob⟩ := List.mem_iff_getElem?.mp hmem
  have hid := h id job hjob hpending
  refine hlast job ?_ hpending
  rw [List.getLast?_eq_getElem?, show jobs.length - 1 = id by omega]
  exact hjob

theorem OnlyLast.append (h : ∀ job ∈ jobs, ¬ Pending result bad job) (new : α) : OnlyLast result bad (jobs ++ [new]) := by
  intro id job hjob hpending
  rw [List.getElem?_append] at hjob
  split at hjob
  next => exact absurd hpending (h job (List.mem_of_getElem? hjob))
  next hge =>
    have hlt := (List.getElem?_eq_some_iff.mp hjob).1
    rw [List.length_append, List.length_singleton]
    rw [List.length_singleton] at hlt
    omega

/-- At most one job is not over. -/
theorem OnlyLast.count (h : OnlyLast result bad jobs) : (jobs.filter fun job => (result job).isNone).length ≤ 1 := by
  rcases List.eq_nil_or_concat jobs with rfl | ⟨front, last, rfl⟩
  · exact Nat.zero_le 1
  rw [List.concat_eq_append] at h ⊢
  have hfront : front.filter (fun job => (result job).isNone) = [] := by
    rw [List.filter_eq_nil_iff]
    intro job hmem hnone
    obtain ⟨id, hjob⟩ := List.mem_iff_getElem?.mp hmem
    have hlt := (List.getElem?_eq_some_iff.mp hjob).1
    have hid := h id job (by rw [List.getElem?_append_left hlt]; exact hjob) (.inl (by simpa using hnone))
    rw [List.length_append, List.length_singleton] at hid
    omega
  rw [List.filter_append, hfront, List.nil_append]
  exact List.length_filter_le _ [last]

end

/-- A gesture that was started, and whose release is not confirmed. -/
def ScheduledPtzResult.bad (r : ScheduledPtzResult) : Bool := r.startAttempted && !r.releaseDeliveryConfirmed

/-- A pulse that was started and is not confirmed off. -/
def SirenPulseResult.bad (r : SirenPulseResult) : Bool := r.startAttempted && !r.offConfirmed

namespace AccountActuators

abbrev motionResult (m : Nat × PtzScheduler) : Option ScheduledPtzResult := m.2.result

abbrev pulseResult (p : Nat × SirenPulseJob) : Option SirenPulseResult := p.2.result

/-! ## One step -/

/-- The jobs are the same, and results stay. -/
structure Forward (w w' : AccountActuators) : Prop where
  motions : Onward motionResult w.motions w'.motions
  pulses : Onward pulseResult w.pulses w'.pulses

theorem Forward.refl (w : AccountActuators) : Forward w w := ⟨.refl _ _, .refl _ _⟩

theorem forward_cancelMotion (w : AccountActuators) : Forward w w.cancelMotion := by
  refine ⟨?_, .refl _ _⟩
  exact Onward.modify (f := fun entry : Nat × PtzScheduler => (entry.1, entry.2.cancel)) (fun _ => rfl) _

theorem forward_become (w : AccountActuators) (account : BrokerAccount) : Forward w (w.become account) := by
  unfold become
  simp only
  split
  · exact ⟨(forward_cancelMotion { w with account := account }).motions, .refl _ _⟩
  · exact ⟨.refl _ _, .refl _ _⟩

theorem forward_stepMotion (loads : Loads) (w : AccountActuators) (id : Nat) (call : JobCall) (now : ℚ) :
    Forward w (w.stepMotion loads id call now) := by
  unfold stepMotion
  split
  · exact .refl w
  next output job hjob => exact ⟨.set hjob fun r hr => PtzWorld.step_result call hr, .refl _ _⟩

theorem forward_stepPulse (loads : Loads) (w : AccountActuators) (id : Nat) (call : JobCall) (now : ℚ) :
    Forward w (w.stepPulse loads id call now) := by
  unfold stepPulse
  split
  · exact .refl w
  next output job hjob => exact ⟨.refl _ _, .set hjob fun r hr => SirenWorld.step_result call hr⟩

theorem forward_drain (w : AccountActuators) (media : MediaState) (now : ℚ) : Forward w (w.drain media now).2 := by
  unfold drain
  simp only
  split
  next =>
    obtain ⟨hmotions, hpulses⟩ := forward_become w.cancelMotion (w.account.drain (w.jobs media) now).2
    have hcancel := (forward_cancelMotion w).motions
    refine ⟨⟨hmotions.length.trans hcancel.length, fun id job' hjob' => ?_⟩, hpulses⟩
    obtain ⟨job, hjob, hstays⟩ := hmotions.stays id job' hjob'
    obtain ⟨first, hfirst, hstays'⟩ := hcancel.stays id job hjob
    exact ⟨first, hfirst, fun r hr => hstays r (hstays' r hr)⟩
  next => exact forward_become w _

/-- What the guards of both `prepare`s say of the jobs. -/
structure Clear (w : AccountActuators) : Prop where
  motions : ∀ job, w.motions.getLast? = some job → ¬ Pending motionResult ScheduledPtzResult.bad job
  pulses : ∀ job, w.pulses.getLast? = some job → ¬ Pending pulseResult SirenPulseResult.bad job

theorem clear_of_guards {w : AccountActuators} (hmotion : w.motionCleanupPending = false)
    (hunconfirmed : w.motionUnconfirmed = false) (hsiren : w.sirenCleanupPending = false) : Clear w := by
  constructor
  · intro job hlast hpending
    simp only [motionCleanupPending, motionUnconfirmed, ptz, hlast, Option.map_some, Option.any_some,
      PtzScheduler.unconfirmed] at hmotion hunconfirmed
    rcases hpending with hnone | ⟨r, hr, hbad⟩
    · rw [show job.2.result = none from hnone] at hmotion
      cases hmotion
    · rw [show job.2.result = some r from hr, Option.any_some] at hunconfirmed
      rw [ScheduledPtzResult.bad, hunconfirmed] at hbad
      cases hbad
  · intro job hlast hpending
    simp only [sirenCleanupPending, siren, hlast, Option.map_some, Option.any_some, SirenPulseJob.unconfirmed] at hsiren
    rcases hpending with hnone | ⟨r, hr, hbad⟩
    · rw [show job.2.result = none from hnone] at hsiren
      cases hsiren
    · rw [show job.2.result = some r from hr, Option.any_some, Option.isNone_some, Bool.false_or] at hsiren
      rw [SirenPulseResult.bad, hsiren] at hbad
      cases hbad

/-- **What a step does to the jobs**: it takes them further, or it adds one to jobs that
are all settled. -/
inductive Moves (w : AccountActuators) : Bool → AccountActuators → Prop
  | onward {w' : AccountActuators} (h : Forward w w') : Moves w false w'
  | motion {w' : AccountActuators} (output : Nat) (job : PtzScheduler) (hclear : Clear w) (hnew : job.result = none)
      (hmotions : w'.motions = w.motions ++ [(output, job)]) (hpulses : w'.pulses = w.pulses) : Moves w true w'
  | pulse {w' : AccountActuators} (output : Nat) (job : SirenPulseJob) (hclear : Clear w) (hnew : job.result = none)
      (hmotions : w'.motions = w.motions) (hpulses : w'.pulses = w.pulses ++ [(output, job)]) : Moves w true w'

theorem preparePtz_moves (w : AccountActuators) (media : MediaState) (output : Nat) (spec : PtzSpec) (draws : PtzDraws)
    (now : ℚ) : Moves w (w.preparePtz media output spec draws now).1.isOk (w.preparePtz media output spec draws now).2 := by
  unfold preparePtz
  split
  · exact .onward (.refl w)
  next hadmits =>
  split
  · exact .onward (forward_become w _)
  next hunconfirmed =>
  split
  · exact .onward (.refl w)
  split
  · exact .onward ⟨.refl _ _, .refl _ _⟩
  next job budget source hnew =>
    simp only [admitsPtz, Bool.not_eq_false, Bool.and_eq_true, Bool.not_eq_true'] at hadmits
    exact .motion output job (clear_of_guards hadmits.1.1.2 (Bool.not_eq_true _ ▸ hunconfirmed) hadmits.2)
      (PtzScheduler.new_result hnew) rfl rfl

theorem prepareSirenPulse_moves (w : AccountActuators) (media : MediaState) (output : Nat) (spec : SirenPulseSpec)
    (draws : SirenDraws) (admitUntil : Option ℚ) (now : ℚ) :
    Moves w (w.prepareSirenPulse media output spec draws admitUntil now).1.isOk
      (w.prepareSirenPulse media output spec draws admitUntil now).2 := by
  unfold prepareSirenPulse
  split
  · exact .onward (.refl w)
  split
  · exact .onward (.refl w)
  next hadmits =>
  split
  · exact .onward ⟨.refl _ _, .refl _ _⟩
  next job budget source hnew =>
    simp only [admitsSiren, Bool.not_eq_false, Bool.and_eq_true, Bool.not_eq_true'] at hadmits
    exact .pulse output job (clear_of_guards hadmits.1.1.2 hadmits.2 hadmits.1.1.1.2)
      (SirenPulseJob.new_result hnew) rfl rfl

theorem step_moves (loads : Loads) (now : ℚ) (call : AccountCall) (w : AccountActuators) :
    Moves w (w.step loads now call).1.prepared (w.step loads now call).2 := by
  cases call with
  | preparePtz media output spec draws =>
    have hmoves := w.preparePtz_moves media output spec draws now
    rw [step]
    split <;> next heq =>
      rw [heq] at hmoves
      exact hmoves
  | prepareSirenPulse media output spec draws admitUntil =>
    have hmoves := w.prepareSirenPulse_moves media output spec draws admitUntil now
    rw [step]
    split <;> next heq =>
      rw [heq] at hmoves
      exact hmoves
  | motion id call => exact .onward (forward_stepMotion loads w id call now)
  | pulse id call => exact .onward (forward_stepPulse loads w id call now)
  | submitRead media draws device path timeout =>
    rw [step]
    split <;> exact .onward (forward_become w _)
  | cancelRead ticket => exact .onward (forward_become w _)
  | tick media noise => exact .onward (forward_become w _)
  | receive media plain peer generation =>
    rw [step]
    split <;> exact .onward (forward_become w _)
  | drain media => exact .onward (forward_drain w media now)
  | retire reason => exact .onward (forward_become w _)
  | reserve count => exact .onward ⟨.refl _ _, .refl _ _⟩
  | output id op => exact .onward ⟨.refl _ _, .refl _ _⟩

/-! ## Whole runs -/

/-- Only the last gesture and the last pulse are pending, and they are not both: there is
no pulse that may still sound beside a gesture under way. -/
structure Exclusive (w : AccountActuators) : Prop where
  motions : OnlyLast motionResult ScheduledPtzResult.bad w.motions
  pulses : OnlyLast pulseResult SirenPulseResult.bad w.pulses
  apart : ∀ m ∈ w.motions, ∀ p ∈ w.pulses, m.2.result = none → ¬ Pending pulseResult SirenPulseResult.bad p

/-- A job has ended started but unconfirmed. -/
def Unconfirmed (w : AccountActuators) : Prop :=
  (∃ m ∈ w.motions, ∃ r, m.2.result = some r ∧ r.bad = true) ∨ ∃ p ∈ w.pulses, ∃ r, p.2.result = some r ∧ r.bad = true

theorem Exclusive.settled {w : AccountActuators} (h : Exclusive w) (hclear : Clear w) :
    (∀ m ∈ w.motions, ¬ Pending motionResult ScheduledPtzResult.bad m) ∧
      ∀ p ∈ w.pulses, ¬ Pending pulseResult SirenPulseResult.bad p :=
  ⟨h.motions.settled hclear.motions, h.pulses.settled hclear.pulses⟩

theorem Exclusive.moves {w w' : AccountActuators} {prepared : Bool} (h : Exclusive w) (hmoves : Moves w prepared w') :
    Exclusive w' := by
  cases hmoves with
  | onward hforward =>
    refine ⟨h.motions.onward hforward.motions, h.pulses.onward hforward.pulses, fun m' hm' p' hp' hnone hpending => ?_⟩
    obtain ⟨i, hi⟩ := List.mem_iff_getElem?.mp hm'
    obtain ⟨j, hj⟩ := List.mem_iff_getElem?.mp hp'
    obtain ⟨m, hm, hnone⟩ := hforward.motions.unfinished hi hnone
    obtain ⟨p, hp, hpending⟩ := hforward.pulses.pending hj hpending
    exact h.apart m (List.mem_of_getElem? hm) p (List.mem_of_getElem? hp) hnone hpending
  | motion output job hclear hnew hmotions hpulses =>
    obtain ⟨hmotion, hpulse⟩ := h.settled hclear
    refine ⟨by rw [hmotions]; exact .append hmotion _, by rw [hpulses]; exact h.pulses, fun m _ p hp _ => ?_⟩
    rw [hpulses] at hp
    exact hpulse p hp
  | pulse output job hclear hnew hmotions hpulses =>
    obtain ⟨hmotion, hpulse⟩ := h.settled hclear
    refine ⟨by rw [hmotions]; exact h.motions, by rw [hpulses]; exact .append hpulse _, fun m hm p _ hnone => ?_⟩
    rw [hmotions] at hm
    exact absurd (.inl hnone) (hmotion m hm)

/-- Nothing is prepared beside a job that has ended unconfirmed, and it stays so. -/
theorem Unconfirmed.moves {w w' : AccountActuators} {prepared : Bool} (h : Unconfirmed w) (hexclusive : Exclusive w)
    (hmoves : Moves w prepared w') : prepared = false ∧ Unconfirmed w' := by
  have hblocked : ¬ Clear w := by
    intro hclear
    obtain ⟨hmotion, hpulse⟩ := hexclusive.settled hclear
    rcases h with ⟨m, hm, r, hr, hbad⟩ | ⟨p, hp, r, hr, hbad⟩
    · exact hmotion m hm (.inr ⟨r, hr, hbad⟩)
    · exact hpulse p hp (.inr ⟨r, hr, hbad⟩)
  cases hmoves with
  | onward hforward =>
    refine ⟨rfl, ?_⟩
    rcases h with ⟨m, hm, r, hr, hbad⟩ | ⟨p, hp, r, hr, hbad⟩
    · obtain ⟨id, hid⟩ := List.mem_iff_getElem?.mp hm
      obtain ⟨m', hm', hr'⟩ := hforward.motions.ended hid hr
      exact .inl ⟨m', List.mem_of_getElem? hm', r, hr', hbad⟩
    · obtain ⟨id, hid⟩ := List.mem_iff_getElem?.mp hp
      obtain ⟨p', hp', hr'⟩ := hforward.pulses.ended hid hr
      exact .inr ⟨p', List.mem_of_getElem? hp', r, hr', hbad⟩
  | motion output job hclear hnew hmotions hpulses => exact absurd hclear hblocked
  | pulse output job hclear hnew hmotions hpulses => exact absurd hclear hblocked

end AccountActuators

namespace ActuatorRun

open AccountActuators

theorem run_snoc (loads : Loads) (account : BrokerAccount) (outputs : Nat → AccountOutputBudget)
    (calls : List (ℚ × AccountCall)) (call : ℚ × AccountCall) :
    run loads account outputs (calls ++ [call]) = (run loads account outputs calls).step loads call.1 call.2 := by
  rw [run, Machine.run_append]
  rfl

theorem exclusive_run (loads : Loads) (account : BrokerAccount) (outputs : Nat → AccountOutputBudget)
    (calls : List (ℚ × AccountCall)) : Exclusive (run loads account outputs calls).world := by
  induction calls using List.reverseRecOn with
  | nil => exact ⟨fun id m hm => by simp [run, Machine.run] at hm, fun id p hp => by simp [run, Machine.run] at hp,
      fun m hm => by simp [run, Machine.run] at hm⟩
  | append_singleton calls call ih =>
    rw [run_snoc]
    exact ih.moves (step_moves loads call.1 call.2 _)

theorem length_log (loads : Loads) (account : BrokerAccount) (outputs : Nat → AccountOutputBudget)
    (calls : List (ℚ × AccountCall)) : (run loads account outputs calls).log.length = calls.length := by
  induction calls using List.reverseRecOn with
  | nil => rfl
  | append_singleton calls call ih =>
    rw [run_snoc, step, List.length_append, List.length_append, ih]
    rfl

theorem unconfirmed_run (loads : Loads) (account : BrokerAccount) (outputs : Nat → AccountOutputBudget)
    {before : List (ℚ × AccountCall)} (h : Unconfirmed (run loads account outputs before).world)
    (after : List (ℚ × AccountCall)) :
    Unconfirmed (run loads account outputs (before ++ after)).world ∧
      ∀ e ∈ (run loads account outputs (before ++ after)).log.drop before.length, e.prepared = false := by
  induction after using List.reverseRecOn with
  | nil =>
    rw [List.append_nil]
    refine ⟨h, fun e he => ?_⟩
    rw [List.drop_eq_nil_of_le (by rw [length_log])] at he
    cases he
  | append_singleton after call ih =>
    obtain ⟨hbefore, hlog⟩ := ih
    rw [← List.append_assoc, run_snoc]
    obtain ⟨hnone, hafter⟩ := hbefore.moves (exclusive_run loads account outputs _) (step_moves loads call.1 call.2 _)
    refine ⟨hafter, fun e he => ?_⟩
    rw [step, List.drop_append_of_le_length (by rw [length_log]; simp), List.mem_append, List.mem_singleton] at he
    rcases he with he | he
    · exact hlog e he
    · rw [he]
      exact hnone

/-- **The actuators exclude one another.** In every run of `prepare_ptz`,
`prepare_siren_pulse`, the steps of their jobs and all else an account does: no gesture is
under way beside a pulse that is under way or may still sound, at most one gesture and
one pulse are under way, and once a job has ended started but unconfirmed nothing is
prepared any more. -/
theorem actuators_exclude (loads : Loads) (account : BrokerAccount) (outputs : Nat → AccountOutputBudget)
    (calls : List (ℚ × AccountCall)) :
    let w := (run loads account outputs calls).world
    (∀ m ∈ w.motions, ∀ p ∈ w.pulses, m.2.result = none →
      p.2.result ≠ none ∧ ∀ r, p.2.result = some r → r.startAttempted = true → r.offConfirmed = true) ∧
    (w.motions.filter fun m => m.2.result.isNone).length ≤ 1 ∧
    (w.pulses.filter fun p => p.2.result.isNone).length ≤ 1 ∧
    ∀ before after, calls = before ++ after → Unconfirmed (run loads account outputs before).world →
      ∀ e ∈ (run loads account outputs calls).log.drop before.length, e.prepared = false := by
  have hexclusive := exclusive_run loads account outputs calls
  refine ⟨fun m hm p hp hnone => ?_, hexclusive.motions.count, hexclusive.pulses.count, fun before after heq h => ?_⟩
  · have hsettled := hexclusive.apart m hm p hp hnone
    refine ⟨fun hp => hsettled (.inl hp), fun r hr hstarted => ?_⟩
    by_contra hoff
    refine hsettled (.inr ⟨r, hr, ?_⟩)
    rw [SirenPulseResult.bad, hstarted, Bool.true_and, Bool.not_eq_true']
    exact Bool.not_eq_true _ ▸ hoff
  · subst heq
    exact (unconfirmed_run loads account outputs h after).2

end ActuatorRun

end CamGuard.Account
