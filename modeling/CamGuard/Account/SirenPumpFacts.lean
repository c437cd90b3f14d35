/-
One pulse at a time: the pump takes its tickets as a latch is taken, and a pulse
that was started and is not confirmed off jams it (`PumpRun.Latched.step`). With
the safety of the single pulse this is the safety of the siren.
-/
import CamGuard.Account.SirenPulseFacts
import CamGuard.Account.SirenPump

namespace CamGuard.Account

/-! ## The latch -/

/-- An event of a pulse, as the latch sees it. -/
def PulseEvent.move : PulseEvent → Latch.Move Nat
  | .claimed id => .take id
  | .ended id result => .release id result.settled

namespace SirenPulsePump

/-- The state of the latch. -/
inductive Holds : SirenPulsePump → Latch Nat → Prop
  /-- Between a claim and the job. -/
  | preparing {p : SirenPulsePump} {id : Nat} {ticket : SirenPulseTicket} :
    p.phase = .prepare id ticket → p.job = none → p.unsettled = false → Holds p (.held id)
  | working {p : SirenPulsePump} {id : Nat} {job : SirenPulseJob} :
    (∀ id ticket, p.phase ≠ .prepare id ticket) → p.job = some job → p.ticket = some id → Holds p (.held id)
  | resting {p : SirenPulsePump} :
    (∀ id ticket, p.phase ≠ .prepare id ticket) → p.job = none →
      Holds p (if p.unsettled then .jammed else .free)

end SirenPulsePump

namespace PumpRun

open SirenPulsePump (Holds)

/-- The log is one the latch accepts. -/
def Latched (r : PumpRun) : Prop :=
  ∃ l, Latch.run .free (r.log.map PulseEvent.move) = some l ∧ Holds r.pump l

variable {r : PumpRun} {loads : Loads} {now : ℚ}

theorem Latched.quiet (h : r.Latched) {pump : SirenPulsePump} (hkeep : ∀ l, Holds r.pump l → Holds pump l) :
    Latched ⟨pump, r.log ++ []⟩ := by
  obtain ⟨l, haccepts, hholds⟩ := h
  exact ⟨l, by rw [List.append_nil]; exact haccepts, hkeep l hholds⟩

/-- The latch only looks at the phase, the job and its ticket, and the last
result. -/
theorem holds_of_same {p p' : SirenPulsePump} (hphase : ∀ id ticket, p'.phase = .prepare id ticket ↔ p.phase = .prepare id ticket)
    (hjob : p'.job.isSome = p.job.isSome) (hticket : p'.ticket = p.ticket) (hlast : p'.lastResult = p.lastResult)
    {l : Latch Nat} (h : Holds p l) : Holds p' l := by
  have hnone : p.job = none → p'.job = none ∧ p'.unsettled = p.unsettled := by
    intro hj
    have hj' : p'.job = none := by simpa [hj] using hjob
    exact ⟨hj', by simp only [SirenPulsePump.unsettled, hj, hj', hlast]⟩
  cases h with
  | preparing hp hj hu => exact .preparing ((hphase _ _).mpr hp) (hnone hj).1 ((hnone hj).2.trans hu)
  | working hp hj ht =>
    obtain ⟨job', hj'⟩ := Option.isSome_iff_exists.mp (show p'.job.isSome = true by rw [hjob, hj]; rfl)
    exact .working (fun id ticket heq => hp id ticket ((hphase _ _).mp heq)) hj' (hticket.trans ht)
  | resting hp hj =>
    rw [← (hnone hj).2]
    exact .resting (fun id ticket heq => hp id ticket ((hphase _ _).mp heq)) (hnone hj).1

theorem withJob_same (p : SirenPulsePump) (f : SirenWorld → Except SirenFault (List SirenPacket) × SirenWorld) :
    (p.withJob f).2.job.isSome = p.job.isSome ∧ (p.withJob f).2.ticket = p.ticket ∧
      (p.withJob f).2.lastResult = p.lastResult ∧ (p.withJob f).2.phase = p.phase := by
  unfold SirenPulsePump.withJob
  cases hj : p.job with
  | none => simp [hj]
  | some job => exact ⟨rfl, rfl, rfl, rfl⟩

theorem prepare_same (p : SirenPulsePump) (account : SirenPulsePump.Admission) (ticket : SirenPulseTicket) (now : ℚ) :
    (p.prepare account ticket now).2.job = p.job ∧ (p.prepare account ticket now).2.lastResult = p.lastResult := by
  unfold SirenPulsePump.prepare
  split
  · exact ⟨rfl, rfl⟩
  · split <;> exact ⟨rfl, rfl⟩

theorem Latched.on (h : r.Latched) (hphase : ∀ id ticket, r.pump.phase ≠ .prepare id ticket) {pump : SirenPulsePump}
    (hnext : ∀ id ticket, pump.phase ≠ .prepare id ticket) (hjob : pump.job.isSome = r.pump.job.isSome)
    (hticket : pump.ticket = r.pump.ticket) (hlast : pump.lastResult = r.pump.lastResult) :
    Latched ⟨pump, r.log ++ []⟩ :=
  h.quiet fun _ => holds_of_same
    (fun id ticket => ⟨fun heq => absurd heq (hnext id ticket), fun heq => absurd heq (hphase id ticket)⟩)
    hjob hticket hlast

theorem Latched.claimed (h : r.Latched) (hphase : ∀ id ticket, r.pump.phase ≠ .prepare id ticket)
    (hjob : r.pump.job = none) (hsettled : r.pump.unsettled = false) {pump : SirenPulsePump} {id : Nat}
    {ticket : SirenPulseTicket} (hnext : pump.phase = .prepare id ticket) (hjob' : pump.job = none)
    (hlast : pump.lastResult = r.pump.lastResult) : Latched ⟨pump, r.log ++ [.claimed id]⟩ := by
  obtain ⟨l, haccepts, hholds⟩ := h
  have hfree : l = .free := by
    cases hholds with
    | preparing hp _ _ => exact absurd hp (hphase _ _)
    | working _ hj _ =>
      rw [hjob] at hj
      cases hj
    | resting _ _ => rw [hsettled, if_neg (by decide)]
  subst hfree
  refine ⟨.held id, ?_, .preparing hnext hjob' ?_⟩
  · rw [List.map_append, List.map_singleton, Latch.run_snoc haccepts]
    rfl
  · rw [← hsettled, SirenPulsePump.unsettled, SirenPulsePump.unsettled, hjob, hjob', hlast]

theorem Latched.ended (h : r.Latched) {id : Nat} (hheld : ∀ l, Holds r.pump l → l = .held id) {pump : SirenPulsePump}
    {result : SirenPulseResult} (hnext : ∀ id ticket, pump.phase ≠ .prepare id ticket) (hjob : pump.job = none)
    (hresult : result.settled = !pump.unsettled) : Latched ⟨pump, r.log ++ [.ended id result]⟩ := by
  obtain ⟨l, haccepts, hholds⟩ := h
  obtain rfl := hheld l hholds
  refine ⟨_, ?_, .resting hnext hjob⟩
  rw [List.map_append, List.map_singleton, Latch.run_snoc haccepts, PulseEvent.move, Latch.step, if_pos rfl, hresult]
  cases pump.unsettled <;> rfl

theorem cancelJob_same (p : SirenPulsePump) (b : Prop) [Decidable b] :
    (if b then p.cancelJob else p).job.isSome = p.job.isSome ∧ (if b then p.cancelJob else p).ticket = p.ticket ∧
      (if b then p.cancelJob else p).lastResult = p.lastResult := by
  split
  · exact ⟨by simp [SirenPulsePump.cancelJob], rfl, rfl⟩
  · exact ⟨rfl, rfl, rfl⟩

/-- **The sections of a poll respect the latch.** -/
theorem Latched.poll (h : r.Latched) (account : SirenPulsePump.Admission) (now : ℚ) :
    Latched ⟨(r.pump.poll account now).2, r.log ++ (r.pump.poll account now).1.events⟩ := by
  unfold SirenPulsePump.poll
  cases hphase : r.pump.phase with
  | idle =>
    have hidle : ∀ id ticket, r.pump.phase ≠ .prepare id ticket := by simp [hphase]
    simp only
    split
    · next id _ _ =>
      obtain ⟨hjob, hticket, hlast⟩ := cancelJob_same r.pump (r.pump.inbox.completion id = .cancelled)
      exact h.on hidle (by simp) hjob hticket hlast
    · exact h.on hidle (by simp) rfl rfl rfl
  | publish =>
    have hpublish : ∀ id ticket, r.pump.phase ≠ .prepare id ticket := by simp [hphase]
    simp only
    split
    · next result id hresult hticket =>
      obtain ⟨job, hjob, -⟩ := Option.bind_eq_some_iff.mp hresult
      refine h.ended (fun l hholds => ?_) (by simp) rfl ?_
      · cases hholds with
        | preparing hp _ _ => exact absurd hp (hpublish _ _)
        | working _ _ ht =>
          rw [hticket] at ht
          cases ht
          rfl
        | resting _ hj =>
          rw [hjob] at hj
          cases hj
      · simp [SirenPulsePump.unsettled, SirenPulseResult.settled]
    · exact h.on hpublish (by simp) rfl rfl rfl
  | claim =>
    have hclaim : ∀ id ticket, r.pump.phase ≠ .prepare id ticket := by simp [hphase]
    simp only
    split
    · next hgo =>
      have hjob : r.pump.job = none := by simpa using hgo.1
      split
      · exact h.on hclaim (by simp) rfl rfl rfl
      · exact h.claimed hclaim hjob hgo.2 rfl hjob rfl
    · exact h.on hclaim (by simp) rfl rfl rfl
  | prepare id ticket =>
    -- Nothing but the job to come is left of the claim.
    have hheld : ∀ l, Holds r.pump l → l = .held id ∧ r.pump.job = none ∧ r.pump.unsettled = false := by
      intro l hholds
      cases hholds with
      | preparing hp hj hu =>
        rw [hphase] at hp
        cases hp
        exact ⟨rfl, hj, hu⟩
      | working hp _ _ => exact absurd hphase (hp _ _)
      | resting hp _ => exact absurd hphase (hp _ _)
    obtain ⟨hjob, hlast⟩ := prepare_same r.pump account ticket now
    simp only
    split
    · next p heq =>
      rw [heq] at hjob hlast
      obtain ⟨l, haccepts, hholds⟩ := h
      obtain ⟨-, hnone, hsettled⟩ := hheld l hholds
      refine Latched.ended ⟨l, haccepts, hholds⟩ (fun l hl => (hheld l hl).1) (by simp) (hjob.trans hnone) ?_
      have hkept : p.unsettled = r.pump.unsettled := by
        simp only [SirenPulsePump.unsettled, show p.job = r.pump.job from hjob, hnone,
          show p.lastResult = r.pump.lastResult from hlast]
      rw [show cancelledResult.settled = !r.pump.unsettled by rw [hsettled]; rfl, ← hkept]
      rfl
    · next job p heq =>
      obtain ⟨l, haccepts, hholds⟩ := h
      obtain ⟨rfl, -, -⟩ := hheld l hholds
      exact ⟨_, by rw [List.append_nil]; exact haccepts, .working (by simp) rfl rfl⟩
  | confirm id =>
    obtain ⟨hjob, hticket, hlast⟩ := cancelJob_same r.pump (r.pump.inbox.completion id = .cancelled)
    exact h.on (by simp [hphase]) (by simp) hjob hticket hlast
  | send =>
    obtain ⟨hjob, hticket, hlast, -⟩ := withJob_same r.pump fun w => w.nextPacket now
    exact h.on (by simp [hphase]) (by simp) hjob hticket hlast

/-- **Every step respects the latch.** -/
theorem Latched.step (h : r.Latched) (loads : Loads) (now : ℚ) (call : SirenPulsePump.PumpCall) :
    (r.step loads now call).Latched := by
  have hsame : ∀ pump : SirenPulsePump, pump.phase = r.pump.phase → pump.job.isSome = r.pump.job.isSome →
      pump.ticket = r.pump.ticket → pump.lastResult = r.pump.lastResult → Latched ⟨pump, r.log ++ []⟩ :=
    fun pump hphase hjob hticket hlast => h.quiet fun _ => holds_of_same (fun _ _ => by rw [hphase]) hjob hticket hlast
  unfold PumpRun.step SirenPulsePump.step
  cases call with
  | poll account => exact h.poll account now
  | observe plain peer generation =>
    obtain ⟨hjob, hticket, hlast, hkept⟩ := withJob_same r.pump fun w => w.observe loads plain peer generation now
    cases hphase : r.pump.phase with
    | idle => exact hsame _ hkept hjob hticket hlast
    | _ => exact hsame _ rfl rfl rfl rfl
  | sendFailed =>
    cases hphase : r.pump.phase with
    | idle => exact hsame _ hphase.symm (by simp) rfl rfl
    | _ => exact hsame _ rfl rfl rfl rfl
  | cancel =>
    cases hphase : r.pump.phase with
    | idle => exact hsame _ rfl (by simp [SirenPulsePump.cancelJob]) rfl rfl
    | _ => exact hsame _ rfl rfl rfl rfl
  | submit spec => exact hsame _ rfl rfl rfl rfl
  | cancelTicket id => exact hsame _ rfl rfl rfl rfl
  | take id => exact hsame _ rfl rfl rfl rfl
  | closeInbox => exact hsame _ rfl rfl rfl rfl
  | output op => exact hsame _ rfl rfl rfl rfl
  | reserve count => exact hsame _ rfl rfl rfl rfl
  | retire => exact hsame _ rfl rfl rfl rfl

theorem Latched.run (h : r.Latched) (loads : Loads) (calls : List (ℚ × SirenPulsePump.PumpCall)) :
    (Machine.run (PumpRun.step loads) r calls).Latched := by
  induction calls generalizing r with
  | nil => exact h
  | cons call calls ih => exact ih (h.step loads call.1 call.2)

theorem latched_new {pump : SirenPulsePump} (hphase : pump.phase = .idle) (hjob : pump.job = none)
    (hlast : pump.lastResult = none) : Latched ⟨pump, []⟩ := by
  refine ⟨.free, rfl, ?_⟩
  have hfree : (if pump.unsettled then Latch.jammed else .free : Latch Nat) = .free := by
    simp [SirenPulsePump.unsettled, hjob, hlast]
  rw [← hfree]
  exact .resting (by simp [hphase]) hjob

theorem ended_of_move {event : PulseEvent} {id : Nat} (h : event.move = .release id true) :
    ∃ result, event = .ended id result ∧ (result.startAttempted = false ∨ result.offConfirmed = true) := by
  cases event with
  | claimed other => cases h
  | ended other result =>
    simp only [PulseEvent.move, Latch.Move.release.injEq, SirenPulseResult.settled, Bool.or_eq_true,
      Bool.not_eq_true'] at h
    obtain ⟨rfl, hsettled⟩ := h
    exact ⟨result, rfl, hsettled⟩

theorem Latched.ended_between (h : r.Latched) {before between after : List PulseEvent} {earlier id : Nat}
    (hlog : r.log = before ++ .claimed earlier :: (between ++ .claimed id :: after)) :
    ∃ result rest, between = .ended earlier result :: rest ∧
      (result.startAttempted = false ∨ result.offConfirmed = true) := by
  obtain ⟨l, haccepts, -⟩ := h
  rw [hlog, List.map_append, List.map_cons, List.map_append, List.map_cons] at haccepts
  obtain ⟨rest, hrest⟩ := Latch.released haccepts
  cases between with
  | nil => cases hrest
  | cons event between =>
    rw [List.map_cons, List.cons.injEq] at hrest
    obtain ⟨result, rfl, hsettled⟩ := ended_of_move hrest.1
    exact ⟨result, between, rfl, hsettled⟩

end PumpRun

/-! ## Safety -/

namespace SirenRun

open Trace SirenTrace

/-- **Siren pulse safety.** In every run of a pulse on an account, whatever the
others do with the output and the namespace: ON goes out at most once and OFF at
most twice, with the same bytes; a result with a start has an OFF attempted; a
result that is confirmed has an acknowledgement of OFF, and none with an error,
and then the state read back as OFF with no invalid reply, and a result stays;
a cancellation before ON leaves the run without any packet; no packet goes
beyond the slots of the reserve, and no charge fails. And in every run of the
pump and its inbox, between two claims the first pulse has ended, with no start
or confirmed off. -/
theorem siren_pulse_safety (loads : Loads) {node : CertifiedNode} {source source' : BrokerSequences}
    {output output' : AccountOutputBudget} {spec : SirenPulseSpec} {generation : Nat} {draws : SirenDraws}
    {admitUntil : Option ℚ} {t : ℚ} {job : SirenPulseJob} (hreached : output.Reached t)
    (hnew : SirenPulseJob.new node source output spec generation draws admitUntil t = (.ok job, output', source'))
    (calls : List (ℚ × SirenCall)) (hclock : Clocked t calls) {pump : SirenPulsePump} (hphase : pump.phase = .idle)
    (hjob : pump.job = none) (hlast : pump.lastResult = none) (pumpCalls : List (ℚ × SirenPulsePump.PumpCall)) :
    let r := SirenRun.run loads ⟨output', source', job⟩ calls
    let log := (PumpRun.run loads pump pumpCalls).log
    (ofKind .on (packets r.trace)).length ≤ 1 ∧
    (ofKind .off (packets r.trace)).length ≤ 2 ∧
    (∀ p ∈ ofKind .off (packets r.trace), p.wire = job.off) ∧
    (∀ res, r.world.job.result = some res → res.startAttempted → 1 ≤ res.offAttempts ∧
      res.offAttempts = (ofKind .off (packets r.trace)).length) ∧
    (∀ now call, Clocked t (calls ++ [(now, call)]) →
      (∀ res, r.world.job.result = none → (r.step loads now call).world.job.result = some res → res.offConfirmed →
        OffAcknowledged job.identity r.trace ∧ OffRead loads job.identity r.trace) ∧
      ∀ res, r.world.job.result = some res → (r.step loads now call).world.job.result = some res) ∧
    (∀ (before : List (ℚ × SirenCall)) now call (after : List (ℚ × SirenCall)), calls = before ++ (now, call) :: after → (call = .cancel ∨ call = .sendFailed) →
      ofKind .on (packets (SirenRun.run loads ⟨output', source', job⟩ before).trace) = [] → packets r.trace = []) ∧
    (∀ kind, (ofKind kind (packets r.trace)).length ≤ sirenSlots kind) ∧
    (∀ e ∈ r.trace, ∀ fault, e.out ≠ .error (.output fault)) ∧
    ∀ (before between after : List PulseEvent) earlier id, log = before ++ .claimed earlier :: (between ++ .claimed id :: after) →
      ∃ result rest, between = .ended earlier result :: rest ∧
        (result.startAttempted = false ∨ result.offConfirmed = true) := by
  have hsound := new_sound loads hreached hnew
  have h := hsound.run hclock
  obtain ⟨hon, hoff, hsame, hattempted, hwithin, hcharged⟩ := h.safe
  refine ⟨hon, hoff, hsame, hattempted, fun now call hnext => h.result hnext.endTime_le call, ?_, hwithin, hcharged, ?_⟩
  · intro before now call after hcalls hcall hsilent
    subst hcalls
    have hclocks := Clocked.split hclock
    have hbefore := hsound.run hclocks.1
    have hall := hbefore.silenced hsilent hcall hclocks.2.1 hclocks.2.2
    rw [SirenRun.run, Machine.run_append]
    exact hall
  · intro before between after earlier id hlog
    have hlatched := (PumpRun.latched_new hphase hjob hlast).run loads pumpCalls
    exact hlatched.ended_between hlog

/-- An account with one camera, and a pulse of two seconds on it. -/
def pulseNode : CertifiedNode := ⟨("203.0.113.7", 19000), 7, List.replicate 32 0x11⟩

def pulseSpec : SirenPulseSpec := ⟨5, 9, 2, by decide, by decide, .inl rfl⟩

def pulseDraws : SirenDraws := ⟨⟨3, by decide⟩, 0, 0, fun _ => ⟨⟨1, by decide⟩, 0⟩⟩

/-- ON at 0, OFF at 2, and nobody answers. -/
def pulseCalls : List (ℚ × SirenCall) := [(0, .nextPacket), (1, .nextPacket), (2, .nextPacket), (5, .nextPacket)]

/-- The pump claims a first pulse and starts it. -/
def pulsePumpCalls : List (ℚ × SirenPulsePump.PumpCall) :=
  (0, .submit pulseSpec) :: List.replicate 5 (0, .poll ⟨true, pulseDraws⟩)

/-- Whether OFF goes out once in the run of the job, and the pump claims its pulse. -/
def pulseUnanswered : Bool :=
  match AccountOutputBudget.new none none .finite 0 1, BrokerSequences.new 7 1 0 with
  | .ok output, .ok source =>
    match SirenPulseJob.new pulseNode source output pulseSpec 1 pulseDraws none 0 with
    | (.ok job, output', source') =>
      decide ((SirenRun.run (fun _ => none) ⟨output', source', job⟩ pulseCalls).world.job.result.map
        SirenPulseResult.offAttempts = some 1) &&
      decide ((PumpRun.run (fun _ => none) ⟨pulseNode, 1, ⟨1, [], none, false⟩, output, source, none, none, none, .idle⟩
        pulsePumpCalls).log = [.claimed 0])
    | _ => false
  | _, _ => false

/-- The safety theorem applies to this run: ON and OFF go out, OFF is not
confirmed, and the pump has claimed its pulse. -/
theorem siren_pulse_safety_unanswered : ∃ output source job output' source' pump,
    AccountOutputBudget.new none none .finite 0 1 = .ok output ∧
    SirenPulseJob.new pulseNode source output pulseSpec 1 pulseDraws none 0 = (.ok job, output', source') ∧
    (∀ p ∈ ofKind .off (packets (SirenRun.run (fun _ => none) ⟨output', source', job⟩ pulseCalls).trace),
      p.wire = job.off) ∧
    ((SirenRun.run (fun _ => none) ⟨output', source', job⟩ pulseCalls).world.job.result.map SirenPulseResult.offAttempts =
      some 1) ∧
    (PumpRun.run (fun _ => none) pump pulsePumpCalls).log = [.claimed 0] := by
  have h : pulseUnanswered = true := by decide +kernel
  unfold pulseUnanswered at h
  split at h
  · next output source houtput hsource =>
    split at h
    · next job output' source' hnew =>
      rw [Bool.and_eq_true, decide_eq_true_eq, decide_eq_true_eq] at h
      have hsafe := siren_pulse_safety (fun _ => none) (.new houtput) hnew pulseCalls (by decide +kernel)
        (show SirenPulsePump.phase ⟨pulseNode, 1, ⟨1, [], none, false⟩, output, source, none, none, none, .idle⟩ = .idle
          from rfl) rfl rfl pulsePumpCalls
      exact ⟨output, source, job, output', source', _, houtput, hnew, hsafe.2.2.1, h.1, h.2⟩
    · cases h
  · cases h

end SirenRun

end CamGuard.Account
