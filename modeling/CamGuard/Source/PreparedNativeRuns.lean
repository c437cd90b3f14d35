/-
Whole runs of a prepared native source: it is sealed once its callback is over or a
`close` has blocked it, it is published once, and a `close` that returns leaves no run
behind that it has not seen. The last needs that no `close` gives up its wait while the
run stands between a look at the stop flag and what it does next (`Overlooks`), and that
the policy is not active then that no publication counted its revision up to the maximum
(`Exhausts`).
-/
import CamGuard.Source.PreparedNativeFacts

namespace CamGuard.Source.PreparedNative

variable {s : PreparedNative} {p : Prepared}

/-! ## What holds all along -/

structure Inv (p : Prepared) (s : PreparedNative) : Prop where
  camera : s.cameraId = p.cameraId
  stored : Stored p s.db s.selection
  room : othersHeld s.viewers s.cameraId < MAX_VIEWER_HOLDS
  registered : Registered s
  blocking : Blocking s

theorem inv_new (p : Prepared) : Inv p (new p) := by
  refine ⟨rfl, ⟨?_, ?_, ⟨p.revision_pos, p.revision_le⟩, fun _ => rfl, nofun⟩, p.room,
    ⟨SourceRegistry.inv_new p.capacity, nofun, fun _ => rfl, nofun⟩, ⟨nofun, nofun⟩⟩
  · simp [new]
  · simp [new]

theorem Inv.step (h : Inv p s) (e : NativeEvent) : Inv p (s.step e) := by
  refine ⟨?_, h.stored.step h.camera e, ?_, h.registered.step e, h.blocking.step h.camera h.room e⟩
  · rw [s.step_cameraId]
    exact h.camera
  · rw [s.step_cameraId]
    exact (s.step_gate e).room h.room

theorem run_snoc (p : Prepared) (events : List NativeEvent) (e : NativeEvent) :
    run p (events ++ [e]) = (run p events).step e := by
  rw [run, List.foldl_append]
  rfl

theorem inv_run (p : Prepared) (events : List NativeEvent) : Inv p (run p events) := by
  induction events using List.reverseRecOn with
  | nil => exact inv_new p
  | append_singleton events e ih =>
    rw [run_snoc]
    exact ih.step e

/-! ## Who is blocked is sealed -/

/-- The holder that blocks has held the viewers, and now it blocks the policy. -/
theorem Inv.sealed (h : Inv p s) (hsealed : Settled s → Sealed s) {e : NativeEvent} (hsettled : Settled (s.step e)) :
    Sealed (s.step e) := by
  rcases s.settled_step hsettled with hbefore | ⟨⟨env, rfl⟩, hholder, hfree⟩
  · exact (hsealed hbefore).step e
  refine ⟨s.step_stop _ ?_, ?_, fun point hpoint => ?_⟩
  · rcases hholder with hholder | hholder
    · exact h.blocking.stopped .policy (.inl hholder) (.inr rfl)
    · exact h.blocking.stopped .policy (.inr hholder) (.inr rfl)
  · rw [s.step_cameraId]
    refine (s.step_gate _).held (fun hopens => ?_) (h.blocking.held hholder)
    rcases hholder with hholder | hholder <;> (rw [hholder] at hopens; cases hopens.1)
  · rw [hfree] at hpoint
    cases hpoint

theorem sealed_run (p : Prepared) (events : List NativeEvent) : Settled (run p events) → Sealed (run p events) := by
  induction events using List.reverseRecOn with
  | nil =>
    rintro (h | h | h) <;> cases h
  | append_singleton events e ih =>
    rw [run_snoc]
    exact (inv_run p events).sealed ih

/-! ## Whose policy is still active -/

/-- A publication counts the revision up to the maximum, behind which nothing is blocked. -/
def Exhausts (s : PreparedNative) (e : NativeEvent) : Prop :=
  (∃ env, e = .locked env) ∧ s.holder = some (.publish .activate) ∧ s.selection.phase = .transition ∧
    s.selection.revision = MAX_REVISION - 1

/-- No publication does. -/
def Spared (p : Prepared) (events : List NativeEvent) : Prop :=
  ∀ before e after, events = before ++ e :: after → ¬ Exhausts (run p before) e

theorem spared_snoc {events : List NativeEvent} {e : NativeEvent} :
    Spared p (events ++ [e]) ↔ Spared p events ∧ ¬ Exhausts (run p events) e := by
  constructor
  · intro h
    refine ⟨fun before other after heq => h before other (after ++ [e]) ?_, h events e [] rfl⟩
    rw [heq, List.append_assoc, List.cons_append]
  · rintro ⟨h, hlast⟩ before other after heq
    rcases List.eq_nil_or_concat' after with rfl | ⟨after, last, rfl⟩
    · obtain ⟨rfl, hother⟩ := List.append_inj' heq rfl
      cases hother
      exact hlast
    · rw [← List.cons_append, ← List.append_assoc] at heq
      exact h before other after (List.append_inj' heq rfl).1

/-- A revision that can be counted up after an activation. -/
theorem Inv.countable (h : Inv p s) {e : NativeEvent} (hspared : ¬ Exhausts s e)
    (hcountable : s.selection.phase = .active → p.revision ≠ MAX_REVISION - 1)
    (hactive : (s.step e).selection.phase = .active) : p.revision ≠ MAX_REVISION - 1 := by
  by_cases hlocked : ∃ env, e = .locked env
  · obtain ⟨env, rfl⟩ := hlocked
    rw [PreparedNative.step] at hactive
    rcases s.lockStep_policy env with ⟨-, hselection⟩ | ⟨hholder, hok, -⟩ | ⟨-, -, hselection⟩
    · rw [hselection] at hactive
      exact hcountable hactive
    · rw [h.camera] at hok
      have hbefore : s.selection.phase = .transition := by
        simpa [PolicyDb.required] using (h.stored.changed (.inl rfl) hok).2.1
      rw [← h.stored.transition hbefore]
      exact fun hrevision => hspared ⟨⟨env, rfl⟩, hholder, hbefore, hrevision⟩
    · rw [hselection] at hactive
      intro hrevision
      exact (h.stored.blockPolicy h.camera).2.1 (fun hphase => hcountable hphase hrevision) hactive
  · rw [(s.step_policy fun env heq => hlocked ⟨env, heq⟩).2] at hactive
    exact hcountable hactive

/-- **A revision that is exhausted leaves the policy active.** -/
theorem Inv.exhausted (h : Inv p s) {e : NativeEvent}
    (hspent : Exhausts s e ∨ p.revision = MAX_REVISION - 1 ∧ s.selection.phase = .active) :
    p.revision = MAX_REVISION - 1 ∧ (s.step e).selection.phase = .active := by
  rcases hspent with ⟨⟨env, rfl⟩, hholder, hphase, hrevision⟩ | ⟨hrevision, hphase⟩
  · refine ⟨(h.stored.transition hphase).symm.trans hrevision, ?_⟩
    have hrequired : s.selection.phase ∈ PolicyDb.required .active := by
      rw [hphase]
      decide
    obtain ⟨result, db', hok⟩ := h.stored.change_ok hrequired (by omega)
    have hstep : (s.lockStep env).selection = result := by
      rw [lockStep, hholder]
      dsimp only
      rw [publishStep, h.camera, PolicyDb.activate, hok]
    rw [PreparedNative.step, hstep]
    exact (h.stored.changed (.inl rfl) hok).2.2
  · refine ⟨hrevision, ?_⟩
    by_cases hlocked : ∃ env, e = .locked env
    · obtain ⟨env, rfl⟩ := hlocked
      rw [PreparedNative.step]
      rcases s.lockStep_policy env with ⟨-, hselection⟩ | ⟨-, hok, -⟩ | ⟨-, -, hselection⟩
      · rwa [hselection]
      · rw [h.camera] at hok
        have hrequired := (h.stored.changed (.inl rfl) hok).2.1
        rw [hphase] at hrequired
        exact absurd hrequired (by decide)
      · rw [hselection, PreparedNative.blockPolicy]
        split
        · split
          · exact hphase
          next result db hok =>
            rw [h.camera] at hok
            obtain ⟨-, -, -, -, hcounted, hrange, -⟩ := PolicyDb.change_ok hok
            have hnow := (h.stored.active hphase).1
            omega
        · exact hphase
    · rwa [(s.step_policy fun env heq => hlocked ⟨env, heq⟩).2]

theorem exhausted_run {events : List NativeEvent} (h : ¬ Spared p events) :
    p.revision = MAX_REVISION - 1 ∧ (run p events).selection.phase = .active := by
  induction events using List.reverseRecOn with
  | nil => exact absurd (fun before e after heq => by simp at heq) h
  | append_singleton events e ih =>
    rw [spared_snoc, not_and_or, not_not] at h
    rw [run_snoc]
    exact (inv_run p events).exhausted (h.symm.imp_right ih)

theorem countable_run {events : List NativeEvent} (h : Spared p events) :
    (run p events).selection.phase = .active → p.revision ≠ MAX_REVISION - 1 := by
  induction events using List.reverseRecOn with
  | nil => exact nofun
  | append_singleton events e ih =>
    rw [spared_snoc] at h
    rw [run_snoc]
    exact (inv_run p events).countable h.2 (ih h.1)

/-- Who blocks a policy that can be blocked leaves it so. -/
theorem Inv.inactive (h : Inv p s) (hsealed : Settled s → Sealed s) (hinactive : Settled s → s.selection.phase ≠ .active)
    (hcountable : s.selection.phase = .active → p.revision ≠ MAX_REVISION - 1) {e : NativeEvent}
    (hsettled : Settled (s.step e)) : (s.step e).selection.phase ≠ .active := by
  rcases s.settled_step hsettled with hbefore | ⟨⟨env, rfl⟩, hholder, -⟩
  · exact (hsealed hbefore).inactive h.camera h.stored (hinactive hbefore) e
  have hphase : (s.lockStep env).selection = s.blockPolicy.selection := by
    unfold lockStep
    rcases hholder with hholder | hholder <;> rw [hholder] <;> rfl
  rw [PreparedNative.step, hphase]
  by_cases hactive : s.selection.phase = .active
  · exact (h.stored.blockPolicy h.camera).2.2 (hcountable hactive)
  · exact (h.stored.blockPolicy h.camera).2.1 hactive

/-- **A settled source's policy is active exactly if a publication exhausted its revision.** -/
theorem inactive_iff {events : List NativeEvent} (hsettled : Settled (run p events)) :
    (run p events).selection.phase ≠ .active ↔ Spared p events := by
  constructor
  · intro hphase
    by_contra hspent
    exact hphase (exhausted_run hspent).2
  · intro hspared
    induction events using List.reverseRecOn with
    | nil => exact nofun
    | append_singleton events e ih =>
      rw [spared_snoc] at hspared
      rw [run_snoc] at hsettled ⊢
      exact (inv_run p events).inactive (sealed_run p events) (fun hbefore => ih hbefore hspared.1)
        (countable_run hspared.1) hsettled

/-! ## Publications -/

/-- What was looked at before a publication. -/
def Looked (log : List NativeEntry) : Prop := ∃ before, log = before ++ [.sawDone false, .sawOffer true]

/-- The log, in a phase of the policy. -/
structure Logged (log : List NativeEntry) (phase : Phase) : Prop where
  phase : .published ∈ log → phase ≠ .transition
  once : log.count .published ≤ 1
  looked : Justified (fun before e => e = .published → Looked before) log

/-- What a publication has done before its next access. -/
def Passed (log : List NativeEntry) (phase : Phase) : PublishPoint → Prop
  | .first | .activate => True
  | .routes | .stop | .done => phase ≠ .transition ∧ .published ∉ log
  | .valid => (phase ≠ .transition ∧ .published ∉ log) ∧ ∃ before, log = before ++ [.sawDone false]
  | .resume | .mark => (phase ≠ .transition ∧ .published ∉ log) ∧ Looked log

namespace Logged

variable {log : List NativeEntry} {phase : Phase}

theorem add (h : Logged log phase) {e : NativeEntry} (hne : e ≠ .published) : Logged (log ++ [e]) phase := by
  refine ⟨fun hmem => h.phase ?_, ?_, h.looked.snoc fun heq => absurd heq hne⟩
  · rcases List.mem_append.mp hmem with hmem | hmem
    · exact hmem
    · exact absurd (List.mem_singleton.mp hmem).symm hne
  · rw [List.count_append, List.count_eq_zero.mpr fun hmem => hne (List.mem_singleton.mp hmem).symm]
    exact h.once

theorem moves (h : Logged log phase) {phase' : Phase} (hphase : phase ≠ .transition → phase' ≠ .transition) : Logged log phase' :=
  ⟨fun hmem => hphase (h.phase hmem), h.once, h.looked⟩

/-- **A publication is logged.** -/
theorem publish (h : Logged log phase) (hpassed : Passed log phase .mark) : Logged (log ++ [.published]) phase := by
  obtain ⟨⟨hphase, hnew⟩, hlooked⟩ := hpassed
  refine ⟨fun _ => hphase, ?_, h.looked.snoc fun _ => hlooked⟩
  rw [List.count_append, List.count_eq_zero.mpr hnew]
  rfl

end Logged

structure Publishing (s : PreparedNative) : Prop where
  logged : Logged s.log s.selection.phase
  passed : ∀ point, s.holder = some (.publish point) → Passed s.log s.selection.phase point

/-- Blocking leaves no row in transition that was not. -/
theorem Stored.blockPolicy_phase (h : Stored p s.db s.selection) (hcamera : s.cameraId = p.cameraId)
    (hphase : s.selection.phase ≠ .transition) : s.blockPolicy.selection.phase ≠ .transition := by
  unfold PreparedNative.blockPolicy
  rw [hcamera]
  split
  · split
    · exact hphase
    next result db hok =>
      rw [(h.changed (.inr rfl) hok).2.2]
      exact nofun
  · exact hphase

theorem Publishing.publishStep (h : Publishing s) (hstored : Stored p s.db s.selection) (hcamera : s.cameraId = p.cameraId)
    {point : PublishPoint} (hpoint : s.holder = some (.publish point)) (env : LockEnv) : Publishing (s.publishStep env point) := by
  have hpassed := h.passed point hpoint
  have hleaves {log : List NativeEntry} {selection : Selection} {db : PolicyDb} {viewers : ViewerGate} {published : Bool}
      (hlogged : Logged log selection.phase) :
      Publishing { s with log := log, selection := selection, db := db, viewers := viewers, published := published, holder := none } :=
    ⟨hlogged, by simp⟩
  have hgoes {next : PublishPoint} {log : List NativeEntry} {selection : Selection} {db : PolicyDb} {viewers : ViewerGate}
      (hlogged : Logged log selection.phase) (hnext : Passed log selection.phase next) :
      Publishing { s with log := log, selection := selection, db := db, viewers := viewers, holder := some (.publish next) } :=
    ⟨hlogged, fun point heq => by cases heq; exact hnext⟩
  cases point with
  | first =>
    rw [PreparedNative.publishStep]
    split
    · exact hleaves h.logged
    · exact hgoes h.logged trivial
  | activate =>
    rw [PreparedNative.publishStep]
    split
    · exact hleaves h.logged
    next selection db hok =>
      -- the row was in transition, so nothing was published before
      rw [hcamera] at hok
      obtain ⟨-, hrequired, hactive⟩ := hstored.changed (.inl rfl) hok
      have hbefore : s.selection.phase = .transition := by simpa [PolicyDb.required] using hrequired
      have hafter : selection.phase ≠ .transition := by
        rw [hactive]
        simp
      exact hgoes (h.logged.moves fun _ => hafter) ⟨hafter, fun hmem => h.logged.phase hmem hbefore⟩
  | routes =>
    rw [PreparedNative.publishStep]
    split
    · exact hgoes h.logged hpassed
    · exact hleaves h.logged
  | stop =>
    rw [PreparedNative.publishStep]
    split
    · exact hleaves h.logged
    · exact hgoes h.logged hpassed
  | done =>
    rw [PreparedNative.publishStep]
    split
    · exact hleaves (h.logged.add (by simp))
    next hdone =>
      rw [Bool.not_eq_true] at hdone
      refine hgoes (h.logged.add (by simp)) ⟨⟨hpassed.1, ?_⟩, s.log, by rw [hdone]⟩
      simpa using hpassed.2
  | valid =>
    rw [PreparedNative.publishStep]
    split
    next hvalid =>
      obtain ⟨⟨hphase, hnew⟩, before, hlog⟩ := hpassed
      refine hgoes (h.logged.add (by simp)) ⟨⟨hphase, by simpa using hnew⟩, before, ?_⟩
      rw [hlog, hvalid, List.append_assoc]
      rfl
    · exact hleaves (h.logged.add (by simp))
  | resume =>
    rw [PreparedNative.publishStep]
    split
    · exact hleaves h.logged
    · exact hgoes h.logged hpassed
  | mark => exact hleaves (h.logged.publish hpassed)

/-- A step that is no publication's: it leaves the log, or it says that `close` is over. -/
theorem Publishing.others {s' : PreparedNative} (h : Publishing s)
    (hlog : s'.log = s.log ∨ s'.log = s.log ++ [.closed] ∧ s'.holder = none)
    (hphase : s.selection.phase ≠ .transition → s'.selection.phase ≠ .transition)
    (hholder : ∀ point, s'.holder = some (.publish point) → point = .first ∨ s.holder = some (.publish point) ∧ s'.selection = s.selection) :
    Publishing s' := by
  rcases hlog with hlog | ⟨hlog, hfree⟩
  · refine ⟨?_, fun point hpoint => ?_⟩
    · rw [hlog]
      exact h.logged.moves hphase
    · rcases hholder point hpoint with rfl | ⟨hsame, hselection⟩
      · trivial
      · rw [hlog, hselection]
        exact h.passed point hsame
  · refine ⟨?_, fun point hpoint => ?_⟩
    · rw [hlog]
      exact (h.logged.add (e := .closed) nofun).moves hphase
    · rw [hfree] at hpoint
      cases hpoint

theorem step_log (s : PreparedNative) {e : NativeEvent} (h : ∀ env, e ≠ .locked env) :
    (s.step e).log = s.log ∨ (s.step e).log = s.log ++ [.closed] ∧ (s.step e).holder = none ∧ (s.step e).closed = true := by
  cases e with
  | locked env => exact absurd rfl (h env)
  | run event =>
    obtain ⟨registry, completion, constructed, stop, heq, -⟩ := s.runStep_eq event
    rw [step, heq]
    exact .inl rfl
  | closing expired =>
    rw [step]
    unfold closeStep
    split
    case h_8 =>
      split
      next hfree => exact .inr ⟨rfl, hfree, rfl⟩
      · exact .inl rfl
    case h_3 => split <;> (try split) <;> exact .inl rfl
    all_goals
      try split
      all_goals exact .inl rfl
  | giveUp =>
    rw [step, giveUp]
    split <;> exact .inl rfl
  | _ =>
    rw [step]
    try split
    all_goals exact .inl rfl

theorem block_log (s : PreparedNative) (env : LockEnv) (h : ∀ point, s.holder ≠ some (.publish point)) :
    ((s.lockStep env).log = s.log ∨ (s.lockStep env).log = s.log ++ [.closed] ∧ (s.lockStep env).holder = none ∧ s.closed = true) ∧
      ∀ point, (s.lockStep env).holder ≠ some (.publish point) := by
  obtain ⟨viewers, hviewers⟩ := s.holdViewers_eq
  obtain ⟨selection, db, hpolicy⟩ := s.blockPolicy_eq
  unfold lockStep
  split
  · exact ⟨.inl rfl, h⟩
  next point hholder => exact absurd hholder (h point)
  next point hholder =>
    cases point with
    | closed =>
      rw [endedStep]
      split <;> exact ⟨.inl rfl, by simp⟩
    | stop => exact ⟨.inl rfl, by simp [endedStep]⟩
    | hold =>
      rw [endedStep, hviewers]
      exact ⟨.inl rfl, by simp⟩
    | policy =>
      rw [endedStep, hpolicy]
      exact ⟨.inl rfl, by simp⟩
  next point hholder =>
    cases point with
    | closed =>
      rw [closeLocked]
      split
      next hclosed => exact ⟨.inr ⟨rfl, rfl, hclosed⟩, by simp⟩
      · exact ⟨.inl rfl, by simp⟩
    | stop => exact ⟨.inl rfl, by simp [closeLocked]⟩
    | hold =>
      rw [closeLocked, hviewers]
      exact ⟨.inl rfl, by simp⟩
    | policy =>
      rw [closeLocked, hpolicy]
      exact ⟨.inl rfl, by simp⟩

theorem Publishing.step (h : Publishing s) (hinv : Inv p s) (e : NativeEvent) : Publishing (s.step e) := by
  by_cases hlocked : ∃ env, e = .locked env
  · obtain ⟨env, rfl⟩ := hlocked
    by_cases hpublish : ∃ point, s.holder = some (.publish point)
    · obtain ⟨point, hpoint⟩ := hpublish
      have hstep := h.publishStep hinv.stored hinv.camera hpoint env
      rw [PreparedNative.step]
      unfold lockStep
      rw [hpoint]
      exact hstep
    · obtain ⟨hlog, hholder⟩ := s.block_log env fun point hpoint => hpublish ⟨point, hpoint⟩
      refine h.others ?_ (fun hphase => ?_) fun point hpoint => absurd hpoint (hholder point)
      · exact hlog.imp_right fun hclosed => ⟨hclosed.1, hclosed.2.1⟩
      · rw [PreparedNative.step]
        rcases s.lockStep_policy env with ⟨-, hsame⟩ | ⟨hactivate, -⟩ | ⟨-, -, hblock⟩
        · rwa [hsame]
        · exact absurd ⟨_, hactivate⟩ hpublish
        · rw [hblock]
          exact hinv.stored.blockPolicy_phase hinv.camera hphase
  · have hnot : ∀ env, e ≠ .locked env := fun env heq => hlocked ⟨env, heq⟩
    have hselection := (s.step_policy hnot).2
    refine h.others ((s.step_log hnot).imp_right fun hclosed => ⟨hclosed.1, hclosed.2.1⟩) (fun hphase => ?_) fun point hpoint => ?_
    · rwa [hselection]
    · rcases s.step_holder hnot with hsame | ⟨-, hnew⟩
      · exact .inr ⟨hsame.symm.trans hpoint, hselection⟩
      · rcases hnew with hnew | hnew | hnew <;> rw [hnew] at hpoint <;> cases hpoint
        exact .inl rfl

theorem publishing_run (p : Prepared) (events : List NativeEvent) : Publishing (run p events) := by
  induction events using List.reverseRecOn with
  | nil => exact ⟨⟨nofun, Nat.zero_le _, justified_nil _⟩, nofun⟩
  | append_singleton events e ih =>
    rw [run_snoc]
    exact ih.step (inv_run p events) e

/-! ## What `close` knows of the run -/

/-- The run is over, or it will not begin. -/
def Gone (s : PreparedNative) : Prop :=
  s.isDone = true ∨ s.stop = true ∧ s.constructed = false ∧ s.owns = false ∧ s.completion ≠ some .admitting

theorem owns_of_origin {s' : PreparedNative} (hcamera : s'.cameraId = s.cameraId)
    (hfrom : ∀ c e', s'.registry.entries.get? c = some e' →
      (∃ e, s.registry.entries.get? c = some e ∧ SourceRegistry.Same e e') ∨ e'.owner ≠ 0)
    (h : s.owns = false) : s'.owns = false := by
  rw [PreparedNative.owns, Option.any_eq_false] at h ⊢
  intro e' he'
  rw [hcamera] at he'
  rcases hfrom _ e' he' with ⟨e, he, howner, -⟩ | hother
  · rw [howner]
    exact h e he
  · exact decide_eq_false hother

theorem foreign_owner {op : SourceRegistry.RegistryOp} (h : foreign op = true) {registry : SourceRegistry} {c : String}
    {e' : SourceEntry} (he : (registry.step op).entries.get? c = some e') :
    (∃ e, registry.entries.get? c = some e ∧ SourceRegistry.Same e e') ∨ e'.owner ≠ 0 := by
  rcases SourceRegistry.step_origin op he with hold | ⟨r, domain, owner, cancelled, rfl, howner, -⟩
  · exact .inl hold
  · rw [howner]
    exact .inr (of_decide_eq_true h).2

/-- Who is not the run leaves it. -/
structure RunFrame (s s' : PreparedNative) : Prop where
  cameraId : s'.cameraId = s.cameraId
  completion : s'.completion = s.completion ∨ s.completion = none ∧ s.stop = false
  constructed : s'.constructed = s.constructed
  owns : s.owns = false → s'.owns = false

theorem RunFrame.of_registry {s' : PreparedNative} (hcamera : s'.cameraId = s.cameraId) (hregistry : s'.registry = s.registry)
    (hcompletion : s'.completion = s.completion) (hconstructed : s'.constructed = s.constructed) : RunFrame s s' := by
  refine ⟨hcamera, .inl hcompletion, hconstructed, fun h => ?_⟩
  rwa [PreparedNative.owns, hcamera, hregistry]

theorem step_runFrame (s : PreparedNative) {e : NativeEvent} (h : ∀ event, e ≠ .run event) : RunFrame s (s.step e) := by
  cases e with
  | run event => exact absurd rfl (h event)
  | launch accepted =>
    rw [step]
    split
    · exact .of_registry rfl rfl rfl rfl
    next hfree =>
      simp only [not_or, Bool.not_eq_true, Option.isSome_eq_false_iff, Option.isNone_iff_eq_none] at hfree
      exact ⟨rfl, .inr ⟨hfree.2.2.1, hfree.2.1⟩, rfl, id⟩
  | locked env =>
    have hframe := s.lockStep_frame env
    exact .of_registry hframe.cameraId hframe.registry hframe.completion hframe.constructed
  | closing expired =>
    obtain ⟨viewers, registry, closed, holder, closer, log, heq, hregistry, -⟩ := s.closeStep_eq expired
    rw [step, heq]
    rcases hregistry with rfl | rfl
    · exact .of_registry rfl rfl rfl rfl
    · refine ⟨rfl, .inl rfl, rfl, owns_of_origin rfl fun c e' he' => .inl ?_⟩
      exact SourceRegistry.stopped_same _ _ _ he'
  | registry op =>
    rw [step]
    split
    next hforeign => exact ⟨rfl, .inl rfl, rfl, owns_of_origin rfl fun c e' he' => foreign_owner hforeign he'⟩
    · exact .of_registry rfl rfl rfl rfl
  | giveUp =>
    rw [step, giveUp]
    split <;> exact .of_registry rfl rfl rfl rfl
  | _ =>
    rw [step]
    try split
    all_goals exact .of_registry rfl rfl rfl rfl

theorem runStep_done (s : PreparedNative) (event : RunEvent) (h : s.isDone = true) : s.runStep event = s := by
  rw [isDone, Option.any_eq_true] at h
  obtain ⟨stage, hstage, hdone⟩ := h
  unfold runStep
  rw [hstage]
  cases stage <;> first | rfl | cases hdone

/-- **A run that is gone stays gone.** -/
theorem Gone.step (h : Gone s) (hregistered : Registered s) (e : NativeEvent) : Gone (s.step e) := by
  by_cases hrun : ∃ event, e = .run event
  · obtain ⟨event, rfl⟩ := hrun
    rw [PreparedNative.step]
    rcases h with hdone | ⟨hstop, hconstructed, howns, hadmitting⟩
    · rw [s.runStep_done event hdone]
      exact .inl hdone
    have hinside : ∀ stage, s.completion = some stage → stage.inside = false := by
      intro stage hstage
      by_contra hin
      rw [Bool.not_eq_false] at hin
      rw [hregistered.owns (by rw [hstage]; exact hin)] at howns
      cases howns
    unfold runStep
    split
    next hstage => exact .inr ⟨hstop, hconstructed, howns, by simp⟩
    next hstage => exact .inl rfl
    next valid hstage =>
      rw [if_pos hstop]
      exact .inr ⟨hstop, hconstructed, howns, by simp⟩
    next hstage => exact absurd hstage hadmitting
    next valid hstage => cases hinside _ hstage
    next hstage => cases hinside _ hstage
    next ok hstage => cases hinside _ hstage
    next hstage => cases hinside _ hstage
    next ok hstage => cases hinside _ hstage
    next hstage => cases hinside _ hstage
    next hstage => cases hinside _ hstage
    next failed hstage => exact .inl rfl
    · exact .inr ⟨hstop, hconstructed, howns, hadmitting⟩
  · have hframe := s.step_runFrame fun event heq => hrun ⟨event, heq⟩
    rcases h with hdone | ⟨hstop, hconstructed, howns, hadmitting⟩
    · left
      rw [isDone]
      rcases hframe.completion with hsame | ⟨hnone, -⟩
      · rw [hsame]
        exact hdone
      · rw [isDone, hnone] at hdone
        cases hdone
    · refine .inr ⟨s.step_stop e hstop, hframe.constructed.trans hconstructed, hframe.owns howns, ?_⟩
      rcases hframe.completion with hsame | ⟨-, hgo⟩
      · rw [hsame]
        exact hadmitting
      · rw [hstop] at hgo
        cases hgo

/-- The run is behind a look at the stop flag, and in front of what it looked for: its
entry in the registry, or `_constructed`. -/
def Passing (s : PreparedNative) : Prop := s.completion = some .admitting ∨ s.completion = some .cleared

/-- Once it is told to stop, the run passes no more looks. -/
theorem passing_step (hstop : s.stop = true) (h : ¬ Passing s) (e : NativeEvent) : ¬ Passing (s.step e) := by
  by_cases hrun : ∃ event, e = .run event
  · obtain ⟨event, rfl⟩ := hrun
    rw [step]
    unfold runStep
    split
    case h_3 =>
      rw [if_pos hstop]
      rintro (heq | heq) <;> cases heq
    case h_4 hstage => exact absurd (.inl hstage) h
    case h_5 =>
      rw [if_pos (.inl hstop)]
      rintro (heq | heq) <;> cases heq
    case h_8 =>
      split
      · exact h
      · exact h
    case h_9 => exact h
    case h_10 => exact h
    case h_11 =>
      rintro (heq | heq)
      all_goals
        simp only at heq
        split at heq <;> cases heq
    case h_13 => exact h
    all_goals rintro (heq | heq) <;> cases heq
  · have hframe := s.step_runFrame fun event heq => hrun ⟨event, heq⟩
    rcases hframe.completion with hsame | ⟨-, hgo⟩
    · rw [Passing, hsame]
      exact h
    · rw [hstop] at hgo
      cases hgo

theorem step_constructed (s : PreparedNative) (e : NativeEvent) :
    (s.step e).constructed = s.constructed ∨ s.completion = some .cleared := by
  by_cases hrun : ∃ event, e = .run event
  · obtain ⟨event, rfl⟩ := hrun
    rw [step]
    unfold runStep
    split
    case h_3 => split <;> (try split) <;> exact .inl rfl
    case h_5 => split <;> exact .inl rfl
    case h_6 hstage => exact .inr hstage
    case h_8 => split <;> exact .inl rfl
    all_goals exact .inl rfl
  · exact .inl (s.step_runFrame fun event heq => hrun ⟨event, heq⟩).constructed

/-- A `close` that looks at `_constructed` or at the registry, and one that is behind
that. -/
def ClosePoint.judging : ClosePoint → Bool
  | .constructed | .owns => true
  | _ => false

def ClosePoint.leaving : ClosePoint → Bool
  | .suspending | .draining | .marking => true
  | _ => false

structure Closing (s : PreparedNative) : Prop where
  unlaunched : s.completion = none → s.constructed = false
  judging : s.closer.any ClosePoint.judging = true → ¬ Passing s
  unflagged : s.closer = some .owns → s.constructed = false
  gone : s.closer.any ClosePoint.leaving = true ∨ s.closed = true → Gone s
  shut : s.closer = some .marking ∨ s.closed = true → s.viewers.Shut s.cameraId
  returned : .closed ∈ s.log → s.closed = true

/-- **The wait runs out** while the run is passing. -/
def Overlooks (s : PreparedNative) : NativeEvent → Prop
  | .closing true => s.closer = some .awaiting ∧ Passing s
  | _ => False

theorem step_closer (s : PreparedNative) {e : NativeEvent} (h : ∀ expired, e ≠ .closing expired) :
    ((s.step e).closer = s.closer ∨ (s.step e).closer = none ∨ (s.step e).closer = some .entering ∨
      (s.step e).closer = some .stopping) ∧ (s.step e).closed = s.closed := by
  cases e with
  | closing expired => exact absurd rfl (h expired)
  | run event =>
    obtain ⟨registry, completion, constructed, stop, heq, -⟩ := s.runStep_eq event
    rw [step, heq]
    exact ⟨.inl rfl, rfl⟩
  | locked env =>
    refine ⟨?_, (s.lockStep_frame env).closed⟩
    obtain ⟨viewers, hviewers⟩ := s.holdViewers_eq
    obtain ⟨selection, db, hpolicy⟩ := s.blockPolicy_eq
    rw [step]
    unfold lockStep
    split
    · exact .inl rfl
    next point _ =>
      left
      cases point <;> rw [publishStep] <;> (try split) <;> rfl
    next point _ =>
      left
      cases point with
      | closed =>
        rw [endedStep]
        split <;> rfl
      | stop => rfl
      | hold => rw [endedStep, hviewers]
      | policy => rw [endedStep, hpolicy]
    next point _ =>
      cases point with
      | closed =>
        rw [closeLocked]
        split
        · exact .inr (.inl rfl)
        · exact .inl rfl
      | stop => exact .inl rfl
      | hold =>
        rw [closeLocked, hviewers]
        exact .inl rfl
      | policy => exact .inr (.inr (.inr rfl))
  | close =>
    rw [step]
    split
    · exact ⟨.inr (.inr (.inl rfl)), rfl⟩
    · exact ⟨.inl rfl, rfl⟩
  | giveUp =>
    rw [step, giveUp]
    split
    · exact ⟨.inl rfl, rfl⟩
    · exact ⟨.inr (.inl rfl), rfl⟩
  | _ =>
    rw [step]
    try split
    all_goals exact ⟨.inl rfl, rfl⟩

/-- A turn of `close`. -/
inductive CloseMove (s s' : PreparedNative) (expired : Bool) : Prop where
  | waits (closer : s'.closer = s.closer) (closed : s'.closed = s.closed)
  | raises (closer : s'.closer = none) (closed : s'.closed = s.closed)
  | begins (closer : s'.closer = some .blocking ∨ s'.closer = some .awaiting) (closed : s'.closed = s.closed)
  | unlaunched (before : s.closer = some .stopping) (absent : s.completion = none) (closer : s'.closer = some .suspending)
      (closed : s'.closed = s.closed)
  | ended (before : s.closer = some .awaiting) (done : s.isDone = true)
      (closer : s'.closer = some .suspending ∨ s'.closer = some .constructed) (closed : s'.closed = s.closed)
  | expires (before : s.closer = some .awaiting) (late : expired = true) (closer : s'.closer = some .constructed)
      (closed : s'.closed = s.closed)
  | unflagged (before : s.closer = some .constructed) (flag : s.constructed = false) (closer : s'.closer = some .owns)
      (closed : s'.closed = s.closed)
  | unowned (before : s.closer = some .owns) (entry : s.owns = false) (closer : s'.closer = some .suspending)
      (closed : s'.closed = s.closed)
  | drains (before : s.closer.any ClosePoint.leaving = true) (closer : s'.closer = some .draining) (closed : s'.closed = s.closed)
  | drained (before : s.closer.any ClosePoint.leaving = true) (shut : s'.viewers.Shut s.cameraId) (closer : s'.closer = some .marking)
      (closed : s'.closed = s.closed)
  | marks (before : s.closer = some .marking) (closer : s'.closer = none) (closed : s'.closed = true)

theorem drainedTo_moves (hleaving : s.closer.any ClosePoint.leaving = true) {turn : Drain × ViewerGate}
    (hdone : turn.1 = .done → turn.2.Shut s.cameraId) (expired : Bool) : CloseMove s (s.drainedTo turn) expired := by
  obtain ⟨drain, viewers⟩ := turn
  cases drain with
  | done => exact .drained hleaving (hdone rfl) rfl rfl
  | waiting => exact .drains hleaving rfl rfl
  | raised fault => exact .raises rfl rfl

/-- **What a turn of `close` can do.** -/
theorem closeStep_moves (s : PreparedNative) (expired : Bool) : CloseMove s (s.closeStep expired) expired := by
  unfold closeStep
  split
  next hcloser =>
    split
    · exact .begins (.inl rfl) rfl
    · exact .waits rfl rfl
  next hcloser =>
    split
    next habsent => exact .unlaunched hcloser habsent rfl rfl
    · exact .begins (.inr rfl) rfl
  next hcloser =>
    have hdone {stage : RunStage} (hstage : s.completion = some stage) (h : stage.isDone = true) : s.isDone = true := by
      rw [isDone, hstage]
      exact h
    split
    next hstage => exact .ended hcloser (hdone hstage rfl) (.inl rfl) rfl
    next hstage => exact .ended hcloser (hdone hstage rfl) (.inl rfl) rfl
    next hstage => exact .ended hcloser (hdone hstage rfl) (.inr rfl) rfl
    · split
      next hlate => exact .expires hcloser hlate rfl rfl
      · exact .waits rfl rfl
  next hcloser =>
    cases hflag : s.constructed with
    | true => exact .raises rfl rfl
    | false => exact .unflagged hcloser hflag rfl rfl
  next hcloser =>
    cases hentry : s.owns with
    | true => exact .raises rfl rfl
    | false => exact .unowned hcloser hentry rfl rfl
  next hcloser => exact drainedTo_moves (by rw [hcloser]; rfl) ViewerGate.suspend_done expired
  next hcloser => exact drainedTo_moves (by rw [hcloser]; rfl) ViewerGate.drainTurn_done expired
  next hcloser =>
    split
    · exact .marks hcloser rfl rfl
    · exact .waits rfl rfl
  · exact .waits rfl rfl
  · exact .waits rfl rfl

theorem step_launched (s : PreparedNative) {e : NativeEvent} (h : (s.step e).completion = none) : s.completion = none := by
  by_cases hrun : ∃ event, e = .run event
  · obtain ⟨event, rfl⟩ := hrun
    rw [step] at h
    unfold runStep at h
    split at h
    case h_3 =>
      split at h
      · cases h
      · split at h <;> cases h
    case h_5 => split at h <;> cases h
    case h_8 => split at h <;> exact h
    case h_9 => exact h
    case h_10 => exact h
    case h_11 =>
      simp only at h
      split at h <;> cases h
    case h_13 => exact h
    all_goals cases h
  · rcases (s.step_runFrame fun event heq => hrun ⟨event, heq⟩).completion with hsame | ⟨hnone, -⟩
    · exact hsame.symm.trans h
    · exact hnone

theorem step_returned (s : PreparedNative) {e : NativeEvent} (h : .closed ∈ (s.step e).log) :
    .closed ∈ s.log ∨ (s.step e).closed = true := by
  by_cases hlocked : ∃ env, e = .locked env
  · obtain ⟨env, rfl⟩ := hlocked
    have hclosed := (s.lockStep_frame env).closed
    by_cases hpublish : ∃ point, s.holder = some (.publish point)
    · left
      obtain ⟨point, hpoint⟩ := hpublish
      rw [step] at h
      unfold lockStep at h
      rw [hpoint] at h
      cases point <;> simp only [publishStep] at h <;> (try split at h) <;> simpa using h
    · rcases (s.block_log env fun point hpoint => hpublish ⟨point, hpoint⟩).1 with hlog | ⟨-, -, hbefore⟩
      · rw [step, hlog] at h
        exact .inl h
      · exact .inr (hclosed.trans hbefore)
  · rcases s.step_log (fun env heq => hlocked ⟨env, heq⟩) with hlog | ⟨-, -, hclosed⟩
    · rw [hlog] at h
      exact .inl h
    · exact .inr hclosed

theorem Registered.unlaunched (h : Registered s) (habsent : s.completion = none) : s.owns = false := by
  have hnone := h.early (by rw [habsent]; rfl)
  rw [PreparedNative.owns, Option.any_eq_false]
  intro e he
  refine decide_eq_false fun howner => ?_
  obtain ⟨run, hrun, -⟩ := h.inv.theirs _ e he
  rw [(h.owner _ e he).mp howner, hnone] at hrun
  cases hrun

theorem settled_of_judging (h : s.closer.any ClosePoint.judging = true) : Settled s := by
  refine .inr (.inr ?_)
  cases hcloser : s.closer with
  | none => rw [hcloser] at h; cases h
  | some point =>
    rw [hcloser] at h
    cases point <;> first | rfl | cases h

/-- What a step leaves of what `close` has found, if it leaves `close` where it is. -/
theorem Closing.keeps (h : Closing s) (hinv : Inv p s) (hsealed : Settled s → Sealed s) (e : NativeEvent)
    (hjudging : (s.step e).closer.any ClosePoint.judging = true → s.closer.any ClosePoint.judging = true ∨ s.stop = true ∧ ¬ Passing s)
    (hunflagged : (s.step e).closer = some .owns → s.closer = some .owns ∨ s.constructed = false ∧ ¬ Passing s)
    (hgone : (s.step e).closer.any ClosePoint.leaving = true ∨ (s.step e).closed = true →
      (s.closer.any ClosePoint.leaving = true ∨ s.closed = true) ∨ Gone s)
    (hshut : (s.step e).closer = some .marking ∨ (s.step e).closed = true →
      (s.closer = some .marking ∨ s.closed = true) ∨ (s.step e).viewers.Shut s.cameraId)
    (hreturned : s.closed = true → (s.step e).closed = true) : Closing (s.step e) := by
  refine ⟨fun habsent => ?_, fun hat => ?_, fun hat => ?_, fun hat => ?_, fun hat => ?_, fun hlog => ?_⟩
  · have hbefore := s.step_launched habsent
    rcases s.step_constructed e with hsame | hcleared
    · exact hsame.trans (h.unlaunched hbefore)
    · rw [hbefore] at hcleared
      cases hcleared
  · rcases hjudging hat with hbefore | ⟨hstop, hpassing⟩
    · exact passing_step (hsealed (settled_of_judging hbefore)).stop (h.judging hbefore) e
    · exact passing_step hstop hpassing e
  · have hfalse : s.constructed = false ∧ ¬ Passing s := by
      rcases hunflagged hat with hbefore | hfalse
      · exact ⟨h.unflagged hbefore, h.judging (by rw [hbefore]; rfl)⟩
      · exact hfalse
    rcases s.step_constructed e with hsame | hcleared
    · exact hsame.trans hfalse.1
    · exact absurd (.inr hcleared) hfalse.2
  · rcases hgone hat with hbefore | hnow
    · exact (h.gone hbefore).step hinv.registered e
    · exact hnow.step hinv.registered e
  · rw [s.step_cameraId]
    rcases hshut hat with hbefore | hnow
    · have hseal : Sealed s := by
        rcases hbefore with hmarking | hclosed
        · exact hsealed (.inr (.inr (by rw [hmarking]; rfl)))
        · exact hsealed (.inr (.inl hclosed))
      refine (s.step_gate e).shut (fun hopens => ?_) (h.shut hbefore)
      cases hseal.holder .resume hopens.1
    · exact hnow
  · rcases s.step_returned hlog with hbefore | hnow
    · exact hreturned (h.returned hbefore)
    · exact hnow

/-- **What `close` has found stays true**, and it finds nothing that is not, unless the
wait runs out while the run is passing. -/
theorem Closing.step (h : Closing s) (hinv : Inv p s) (hsealed : Settled s → Sealed s) (e : NativeEvent)
    (hlooks : ¬ Overlooks s e) : Closing (s.step e) := by
  by_cases hclosing : ∃ expired, e = .closing expired
  swap
  · obtain ⟨hcloser, hclosed⟩ := s.step_closer fun expired heq => hclosing ⟨expired, heq⟩
    have hback {P : ClosePoint → Bool} (hentering : P .entering = false) (hstopping : P .stopping = false)
        (hat : (s.step e).closer.any P = true) : s.closer.any P = true := by
      rcases hcloser with hsame | hnew | hnew | hnew
      · rwa [hsame] at hat
      · rw [hnew] at hat
        cases hat
      · rw [hnew, Option.any_some, hentering] at hat
        cases hat
      · rw [hnew, Option.any_some, hstopping] at hat
        cases hat
    have hsame {point : ClosePoint} (hentering : point ≠ .entering) (hstopping : point ≠ .stopping)
        (hat : (s.step e).closer = some point) : s.closer = some point := by
      rcases hcloser with hsame | hnew | hnew | hnew
      · exact hsame.symm.trans hat
      · rw [hnew] at hat
        cases hat
      · exact absurd (Option.some.inj (hnew.symm.trans hat)).symm hentering
      · exact absurd (Option.some.inj (hnew.symm.trans hat)).symm hstopping
    refine h.keeps hinv hsealed e (fun hat => .inl (hback rfl rfl hat)) (fun hat => .inl (hsame nofun nofun hat)) (fun hat => ?_)
      (fun hat => ?_) (fun hat => hclosed.trans hat)
    · rw [hclosed] at hat
      exact .inl (hat.imp_left (hback rfl rfl))
    · rw [hclosed] at hat
      exact .inl (hat.imp_left (hsame nofun nofun))
  · obtain ⟨expired, rfl⟩ := hclosing
    have hmoves := s.closeStep_moves expired
    have hblocked {point : ClosePoint} (hcloser : s.closer = some point) (hpoint : ClosePoint.blocked point = true) : Sealed s :=
      hsealed (.inr (.inr (by rw [hcloser]; exact hpoint)))
    -- a turn that leaves `_closed`: only what it makes of `closer` matters
    have hturn (hclosed : (s.closeStep expired).closed = s.closed)
        (hjudging : (s.closeStep expired).closer.any ClosePoint.judging = true →
          s.closer.any ClosePoint.judging = true ∨ s.stop = true ∧ ¬ Passing s)
        (hunflagged : (s.closeStep expired).closer = some .owns → s.closer = some .owns ∨ s.constructed = false ∧ ¬ Passing s)
        (hgone : (s.closeStep expired).closer.any ClosePoint.leaving = true → s.closer.any ClosePoint.leaving = true ∨ Gone s)
        (hshut : (s.closeStep expired).closer = some .marking → s.closer = some .marking ∨ (s.closeStep expired).viewers.Shut s.cameraId) :
        Closing (s.step (.closing expired)) := by
      refine h.keeps hinv hsealed (.closing expired) hjudging hunflagged ?_ ?_ (fun hat => hclosed.trans hat)
      · rintro (hat | hat)
        · exact (hgone hat).imp_left .inl
        · exact .inl (.inr (hclosed.symm.trans hat))
      · rintro (hat | hat)
        · exact (hshut hat).imp_left .inl
        · exact .inl (.inr (hclosed.symm.trans hat))
    cases hmoves with
    | waits hcloser hclosed =>
      refine hturn hclosed ?_ ?_ ?_ ?_ <;> rw [hcloser] <;> exact .inl
    | raises hcloser hclosed =>
      refine hturn hclosed ?_ ?_ ?_ ?_ <;> rw [hcloser] <;> exact nofun
    | begins hcloser hclosed =>
      rcases hcloser with hcloser | hcloser
      all_goals refine hturn hclosed ?_ ?_ ?_ ?_ <;> rw [hcloser] <;> exact nofun
    | unlaunched hbefore habsent hcloser hclosed =>
      have hgone : Gone s := by
        refine .inr ⟨(hblocked hbefore rfl).stop, h.unlaunched habsent, hinv.registered.unlaunched habsent, ?_⟩
        rw [habsent]
        exact nofun
      refine hturn hclosed ?_ ?_ (fun _ => .inr hgone) ?_ <;> rw [hcloser] <;> exact nofun
    | ended hbefore hdone hcloser hclosed =>
      have hpassing : ¬ Passing s := by
        rintro (hstage | hstage) <;> (rw [isDone, hstage] at hdone; cases hdone)
      refine hturn hclosed (fun _ => .inr ⟨(hblocked hbefore rfl).stop, hpassing⟩) ?_ (fun _ => .inr (.inl hdone)) ?_
      all_goals rcases hcloser with hcloser | hcloser <;> rw [hcloser] <;> exact nofun
    | expires hbefore hlate hcloser hclosed =>
      subst hlate
      have hpassing : ¬ Passing s := fun hpassing => hlooks ⟨hbefore, hpassing⟩
      refine hturn hclosed (fun _ => .inr ⟨(hblocked hbefore rfl).stop, hpassing⟩) ?_ ?_ ?_ <;> rw [hcloser] <;> exact nofun
    | unflagged hbefore hflag hcloser hclosed =>
      have hjudging : s.closer.any ClosePoint.judging = true := by rw [hbefore]; rfl
      refine hturn hclosed (fun _ => .inl hjudging) (fun _ => .inr ⟨hflag, h.judging hjudging⟩) ?_ ?_ <;> rw [hcloser] <;> exact nofun
    | unowned hbefore hentry hcloser hclosed =>
      have hpassing := h.judging (by rw [hbefore]; rfl)
      have hgone : Gone s :=
        .inr ⟨(hblocked hbefore rfl).stop, h.unflagged hbefore, hentry, fun hstage => hpassing (.inl hstage)⟩
      refine hturn hclosed ?_ ?_ (fun _ => .inr hgone) ?_ <;> rw [hcloser] <;> exact nofun
    | drains hbefore hcloser hclosed =>
      refine hturn hclosed ?_ ?_ (fun _ => .inl hbefore) ?_ <;> rw [hcloser] <;> exact nofun
    | drained hbefore hshut hcloser hclosed =>
      refine hturn hclosed ?_ ?_ (fun _ => .inl hbefore) (fun _ => .inr hshut) <;> rw [hcloser] <;> exact nofun
    | marks hbefore hcloser hclosed =>
      have hleaving : s.closer.any ClosePoint.leaving = true := by rw [hbefore]; rfl
      refine h.keeps hinv hsealed (.closing expired) ?_ ?_ (fun _ => .inl (.inl hleaving)) (fun _ => .inl (.inl hbefore)) (fun _ => hclosed)
      · rw [PreparedNative.step, hcloser]
        exact nofun
      · rw [PreparedNative.step, hcloser]
        exact nofun

/-- No wait of a `close` runs out while the run is passing. -/
def Careful (p : Prepared) (events : List NativeEvent) : Prop :=
  ∀ before e after, events = before ++ e :: after → ¬ Overlooks (run p before) e

theorem closing_run {events : List NativeEvent} (h : Careful p events) :
    Closing (run p events) := by
  induction events using List.reverseRecOn with
  | nil =>
    refine ⟨fun _ => rfl, nofun, nofun, ?_, ?_, nofun⟩
    · rintro (hat | hat) <;> cases hat
    · rintro (hat | hat) <;> cases hat
  | append_singleton events e ih =>
    rw [run_snoc]
    refine (ih fun before e' after heq => ?_).step (inv_run p events) (sealed_run p events) e (h events e [] rfl)
    exact h before e' (after ++ [e]) (by rw [heq, List.append_assoc, List.cons_append])

/-- **A finished native source leaves nobody admitted.** Once its callback is over, its
viewers are held, and its policy is not active if and only if no publication has counted
its revision up to the maximum. It is published once at most, and only when the last
looks found its future not done and its offer valid. And when a `close` has returned, the
future is done, or the source was never constructed and has no entry; no viewer of the
camera has a lease. The last needs that no wait of a `close` runs out between a look of
the run at the stop flag and what it looked for. -/
theorem native_retires (p : Prepared) (events : List NativeEvent) :
    let s := run p events
    (s.callback = .returned → s.viewers.holds.contains p.cameraId = true ∧
      (∃ fault, s.viewers.admitViewer p.cameraId = .error fault) ∧
      ((s.db.readFor p.cameraId).phase ≠ .active ↔ Spared p events)) ∧
    (s.log.count .published ≤ 1 ∧ Justified (fun before e => e = .published → Looked before) s.log) ∧
    (Careful p events → .closed ∈ s.log →
      (s.isDone = true ∨ s.constructed = false ∧ s.owns = false) ∧ s.viewers.hasLease p.cameraId = false) := by
  intro s
  have hinv : Inv p s := inv_run p events
  have hpublishing := (publishing_run p events).logged
  refine ⟨fun hreturned => ?_, ⟨hpublishing.once, hpublishing.looked⟩, fun hcareful hlog => ?_⟩
  · have hsealed : Sealed s := sealed_run p events (.inl hreturned)
    have hheld := hsealed.held
    rw [hinv.camera] at hheld
    obtain ⟨held, hget⟩ := Option.isSome_iff_exists.mp hheld
    refine ⟨hheld, ViewerGate.admit_held hget, ?_⟩
    rw [hinv.stored.readFor]
    exact inactive_iff (.inl hreturned)
  · have hclosing : Closing s := closing_run hcareful
    have hclosed := hclosing.returned hlog
    have hshut := hclosing.shut (.inr hclosed)
    rw [hinv.camera] at hshut
    refine ⟨?_, hshut.2⟩
    rcases hclosing.gone (.inr hclosed) with hdone | ⟨-, hconstructed, howns, -⟩
    · exact .inl hdone
    · exact .inr ⟨hconstructed, howns⟩

theorem claimed_valid : validCameraId "cam_000000000000000000000000" = true := by decide

/-- A camera whose viewers are gone, with its receipt claimed. -/
def claimedCamera : Prepared where
  cameraId := "cam_000000000000000000000000"
  valid := claimed_valid
  domain := "10.0.0.2"
  revision := 1
  revision_pos := by decide
  revision_le := by decide
  viewers := { holds := (∅ : Dict String Hold).set "cam_000000000000000000000000" .drained }
  room := by decide
  capacity := some 1

theorem careful_of_patient {events : List NativeEvent} (h : .closing true ∉ events) : Careful p events := by
  rintro before e after rfl hlooks
  unfold Overlooks at hlooks
  split at hlooks
  · exact h (by simp)
  · exact hlooks

/-- A source that is published, and then closed. -/
def publishedEvents : List NativeEvent :=
  ([.launch true, .register, .run .start, .run (.check true), .run .admission, .run (.construct true), .run .flag,
    .run (.made true), .publish] : List NativeEvent) ++ List.replicate 8 (NativeEvent.locked ⟨true, true⟩) ++
  ([.close, .closing false] : List NativeEvent) ++ List.replicate 4 (NativeEvent.locked ⟨true, true⟩) ++
  ([.closing false, .run (.leave true), .run .confirm, .run .finish, .run .resolve, .ended] : List NativeEvent) ++
  List.replicate 4 (NativeEvent.locked ⟨true, true⟩) ++ ([.closing false, .closing false, .closing false] : List NativeEvent)

theorem native_retires_published :
    let s := run claimedCamera publishedEvents
    (s.callback = .returned ∧ s.viewers.holds.contains claimedCamera.cameraId = true ∧
      (s.db.readFor claimedCamera.cameraId).phase ≠ .active) ∧
      .published ∈ s.log ∧ s.log.count .published ≤ 1 ∧
      .closed ∈ s.log ∧ s.viewers.hasLease claimedCamera.cameraId = false := by
  have hcareful : Careful claimedCamera publishedEvents := careful_of_patient (by simp [publishedEvents])
  have hspared : Spared claimedCamera publishedEvents := by
    by_contra hspent
    exact absurd (exhausted_run hspent).1 (by decide)
  obtain ⟨hended, hpublished, hclosed⟩ := native_retires claimedCamera publishedEvents
  have hreturned : (run claimedCamera publishedEvents).callback = .returned := by decide +kernel
  have hlog : (run claimedCamera publishedEvents).log = [.sawDone false, .sawOffer true, .published, .closed] := by decide +kernel
  refine ⟨⟨hreturned, (hended hreturned).1, (hended hreturned).2.2.mpr hspared⟩, ?_, hpublished.1, ?_,
    (hclosed hcareful ?_).2⟩
  all_goals
    rw [hlog]
    simp

/-- The wait runs out behind the look of the run in front of its admission: `close`
returns, and the run holds its entry. -/
def overlookedEvents : List NativeEvent :=
  ([.launch true, .register, .run .start, .run (.check true), .close, .closing false] : List NativeEvent) ++
    List.replicate 4 (NativeEvent.locked ⟨true, true⟩) ++
  ([.closing false, .closing true, .closing false, .closing false, .run .admission, .closing false,
    .closing false] : List NativeEvent)

theorem close_overlooks :
    let s := run claimedCamera overlookedEvents
    .closed ∈ s.log ∧ s.completion = some .admitted ∧
      ¬ ((s.isDone = true ∨ s.constructed = false ∧ s.owns = false) ∧ s.viewers.hasLease claimedCamera.cameraId = false) := by
  decide +kernel

end CamGuard.Source.PreparedNative
