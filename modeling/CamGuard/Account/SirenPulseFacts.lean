/-
Siren pulse safety: ON at most once, OFF at most twice with the same bytes, an
OFF before any result of a started pulse, no confirmation without an error-free
acknowledgement and a state read back as OFF, and no charge outside the reserve.

`Polled` and `Noticed` say everything that a poll and an observation can do
while the reserve holds the job's slots (`Resources`), so that no charge fails.
`Traced` compares the job with its trace, `Evidenced` what it has noted with
what the trace shows.
-/
import CamGuard.Account.BudgetFacts
import CamGuard.Account.SirenPulse
import Mathlib.Data.List.GetD

namespace CamGuard.Account

open AccountOutputBudget (Charged)
open CamGuard.Crypto

/-! ## Wires -/

theorem framed_sirenAction (node : CertifiedNode) (access device : Nat) (enabled : Bool) (sequence message noise : Nat) :
    Framed (sirenActionFrame node access device enabled sequence message noise) 75 := by
  have hpath : (Bytes.ascii SIREN_ACTION_PATH).length = 22 := by decide
  have hjson : (Bytes.ascii (if enabled then "2" else "1")).length = 1 := by cases enabled <;> decide
  unfold sirenActionFrame
  simp only [hpath, hjson]
  refine Framed.put (Framed.put (framed_lead (by decide) (by decide) ?_ (randomizedFlags_mode noise 3)) (by decide) ?_)
    (by decide) ?_
  · exact lt_trans (randomizedFlags_lt noise 2 3) (by decide)
  · simp [hpath]
  · simp [hjson]

theorem buildSirenAction_length {node : CertifiedNode} {access device : Nat} {enabled : Bool} {sequence message noise : Nat}
    {wire : Bytes} (h : buildSirenAction node access device enabled sequence message noise = .ok wire) :
    node.sessionKey.length = 32 ∧ wire.length = 75 := by
  have hkey := finishMode2_key h
  obtain ⟨wire', heq, hlen⟩ := (framed_sirenAction node access device enabled sequence message noise).finish hkey
  rw [buildSirenAction, heq] at h
  cases h
  exact ⟨hkey, hlen⟩

namespace SirenWorld

/-! ## Resources -/

/-- The job's share of the account, and its own counters. -/
structure Resources (t : ℚ) (w : SirenWorld) : Prop where
  key : w.job.node.sessionKey.length = 32
  wires : w.job.result = none → w.job.on.length = 75 ∧ w.job.off.length = 75
  reads : w.job.probe.wires.length = 3 ∧ ∀ wire ∈ w.job.probe.wires, 1 ≤ wire.length ∧ wire.length ≤ 4096
  honours : w.output.Honours
  last : w.output.traffic.last ≤ t
  token : w.job.token < w.output.nextToken
  held : w.job.Unsettled → ∃ slots, slotsOf w.output.siren w.job.token = some slots ∧
    slots .on = (if w.job.started then 0 else 1) ∧ slots .off + w.job.offs = 2 ∧ slots .read + w.job.probe.index = 3 ∧
    slots .receipt + w.job.receipts = 6
  offs_le : w.job.offs ≤ 2
  reads_le : w.job.probe.index ≤ 3
  receipts_le : w.job.receipts ≤ 6
  unstarted : w.job.started = false → w.job.offs = 0 ∧ w.job.receipts = 0
  unstopped : w.job.offs = 0 → w.job.offError = none ∧ w.job.probe.index = 0
  result : ∀ r, w.job.result = some r → r.startAttempted = w.job.started ∧ r.offAttempts = w.job.offs ∧
    (w.job.started → 1 ≤ w.job.offs)

variable {w : SirenWorld} {now : ℚ}

theorem Resources.later {t : ℚ} (h : w.Resources t) (ht : t ≤ now) : w.Resources now :=
  { h with last := le_trans h.last ht }

theorem unsettled_of_none {j : SirenPulseJob} (h : j.result = none) : j.Unsettled := by
  intro r hr
  rw [h] at hr
  cases hr

/-- **A packet on a slot the job has left goes out.** -/
theorem send_ok (h : w.Resources now) {slots : Slots SirenKind}
    (hheld : slotsOf w.output.siren w.job.token = some slots) {kind : SirenKind} (hslot : slots kind ≠ 0) {wire : Bytes}
    (hwire : 1 ≤ wire.length ∧ wire.length ≤ 4096) (next : SirenPulseJob) :
    ∃ output, w.send now kind wire next = (.ok [⟨kind, wire⟩], { w with output := output, job := next }) ∧
      Charged AccountOutputBudget.siren w.output output w.job.token kind now := by
  obtain ⟨output, heq, hcharged⟩ := h.honours.chargeSiren_ok h.last hheld hslot hwire.1 hwire.2
  exact ⟨output, by rw [SirenWorld.send, heq], hcharged⟩

/-! ## What a poll can do -/

/-- The packets of a poll of `w` at `now`, and the world after it. -/
inductive Polled (w : SirenWorld) (now : ℚ) : List SirenPacket → SirenWorld → Prop
  | done : w.job.result.isSome → Polled w now [] w
  | refused : w.job.result = none → w.job.started = false → Polled w now [] (w.finish "cancelled")
  | on (output : AccountOutputBudget) : w.job.result = none → w.job.started = false → w.job.cancelled = false →
    Charged AccountOutputBudget.siren w.output output w.job.token .on now →
    Polled w now [⟨.on, w.job.on⟩] { w with
      output := output
      job := { w.job with
        started := true
        holdUntil := now + w.job.seconds
        onUntil := now + 3 / 2 } }
  | waiting (offUntil : ℚ) : w.job.result = none → w.job.started → (w.job.offs ≠ 0 → offUntil = w.job.offUntil) →
    Polled w now [] { w with job := { w.job with offUntil := offUntil } }
  | off (output : AccountOutputBudget) (offUntil : ℚ) : w.job.result = none → w.job.started → w.job.offs < 2 →
    (w.job.offs = 0 → offUntil = now + 2) → (w.job.offs ≠ 0 → offUntil = w.job.offUntil) →
    Charged AccountOutputBudget.siren w.output output w.job.token .off now →
    Polled w now [⟨.off, w.job.off⟩] { w with
      output := output
      job := { w.job with
        offUntil := offUntil
        offs := w.job.offs + 1
        retryAt := now + 1 / 2 } }
  | read (output : AccountOutputBudget) (wire : Bytes) : w.job.result = none → w.job.started → w.job.offs ≠ 0 →
    w.job.probe.index < 3 → Charged AccountOutputBudget.siren w.output output w.job.token .read now →
    Polled w now [⟨.read, wire⟩] { w with
      output := output
      job := { w.job with probe := { w.job.probe with
        index := w.job.probe.index + 1
        nextAt := now + 2 / 5 } } }
  | finished (status : String) (confirmed : Bool) : w.job.result = none → w.job.started → w.job.offs ≠ 0 →
    (confirmed → w.job.offError = some 0 ∧ w.job.probe.state = some 1 ∧ w.job.probe.invalid = false) →
    Polled w now [] (w.finish status confirmed)

theorem sendOff_polled (h : w.Resources now) (hres : w.job.result = none) (hstarted : w.job.started = true)
    (hfew : w.job.offs < 2) {offUntil : ℚ} (hfirst : w.job.offs = 0 → offUntil = now + 2)
    (hlater : w.job.offs ≠ 0 → offUntil = w.job.offUntil) :
    ∃ packets w', sendOff { w with job := { w.job with offUntil := offUntil } } now = (.ok packets, w') ∧
      Polled w now packets w' := by
  obtain ⟨slots, hheld, -, hoff, -, -⟩ := h.held (unsettled_of_none hres)
  have hlen := (h.wires hres).2
  have hkeep : Resources now { w with job := { w.job with offUntil := offUntil } } := { h with }
  obtain ⟨output, heq, hcharged⟩ := send_ok hkeep hheld (show slots .off ≠ 0 by omega)
    (show 1 ≤ w.job.off.length ∧ w.job.off.length ≤ 4096 by omega)
    { w.job with offUntil := offUntil, offs := w.job.offs + 1, retryAt := now + 1 / 2 }
  exact ⟨_, _, heq, .off output offUntil hres hstarted hfew hfirst hlater hcharged⟩

theorem nextOff_polled (h : w.Resources now) (hres : w.job.result = none) (hstarted : w.job.started = true) (offUntil : ℚ)
    (hfirst : w.job.offs = 0 → offUntil = now + 2) (hlater : w.job.offs ≠ 0 → offUntil = w.job.offUntil) :
    ∃ packets w', nextOff { w with job := { w.job with offUntil := offUntil } } now = (.ok packets, w') ∧
      Polled w now packets w' := by
  unfold SirenWorld.nextOff
  by_cases hack : w.job.offError = some 0
  · simp only [if_pos hack]
    have hoffs : w.job.offs ≠ 0 := by
      intro hzero
      rw [(h.unstopped hzero).1] at hack
      cases hack
    split
    · next hagain => exact sendOff_polled h hres hstarted hagain.2.1 hfirst hlater
    unfold SirenOffProbe.nextPacket
    by_cases hidle : w.job.probe.state = some 1 ∨ w.job.probe.invalid ∨ 3 ≤ w.job.probe.index ∨ now < w.job.probe.nextAt
    · simp only [if_pos hidle]
      exact ⟨_, _, rfl, .waiting offUntil hres hstarted hlater⟩
    · simp only [if_neg hidle]
      have hindex : w.job.probe.index < 3 := by
        by_contra hmany
        exact hidle (.inr (.inr (.inl (by omega))))
      obtain ⟨slots, hheld, -, -, hread, -⟩ := h.held (unsettled_of_none hres)
      have hwire : w.job.probe.wires.getD w.job.probe.index [] ∈ w.job.probe.wires := by
        rw [List.getD_eq_getElem _ _ (by rw [h.reads.1]; exact hindex)]
        exact List.getElem_mem _
      obtain rfl := hlater hoffs
      obtain ⟨output, heq, hcharged⟩ := h.honours.chargeSiren_ok h.last hheld (show slots .read ≠ 0 by omega)
        (h.reads.2 _ hwire).1 (h.reads.2 _ hwire).2
      refine ⟨_, _, ?_, .read output (w.job.probe.wires.getD w.job.probe.index []) hres hstarted hoffs hindex hcharged⟩
      simp only [SirenWorld.send, heq]
  · simp only [if_neg hack]
    split
    · next hagain => exact sendOff_polled h hres hstarted hagain.1 hfirst hlater
    · exact ⟨_, _, rfl, .waiting offUntil hres hstarted hlater⟩

/-- **No poll fails, and this is all it can do.** -/
theorem nextPacket_polled (h : w.Resources now) :
    ∃ packets w', w.nextPacket now = (.ok packets, w') ∧ Polled w now packets w' := by
  unfold SirenWorld.nextPacket
  split
  · next hdone => exact ⟨_, _, rfl, .done hdone⟩
  next hres =>
  have hres : w.job.result = none := by simpa using hres
  split
  · next hstarted =>
    split
    · exact ⟨_, _, rfl, .refused hres hstarted⟩
    next hgo =>
    rw [not_or] at hgo
    obtain ⟨slots, hheld, hon, -⟩ := h.held (unsettled_of_none hres)
    rw [hstarted] at hon
    have hlen := (h.wires hres).1
    obtain ⟨output, heq, hcharged⟩ := send_ok h hheld (show slots .on ≠ 0 by rw [hon]; decide)
      (show 1 ≤ w.job.on.length ∧ w.job.on.length ≤ 4096 by omega)
      { w.job with started := true, holdUntil := now + w.job.seconds, onUntil := now + 3 / 2 }
    exact ⟨_, _, heq, .on output hres hstarted (by simpa using hgo.1) hcharged⟩
  next hstarted =>
  have hstarted : w.job.started = true := by simpa using hstarted
  split
  · next hzero =>
    split
    · exact ⟨_, _, rfl, .waiting w.job.offUntil hres hstarted fun _ => rfl⟩
    · exact nextOff_polled h hres hstarted _ (fun _ => rfl) (fun hnot => absurd hzero hnot)
  next hoffs =>
  split
  · refine ⟨_, _, rfl, .finished _ _ hres hstarted hoffs fun hconf => ?_⟩
    simp only [Bool.and_eq_true, decide_eq_true_eq, Bool.not_eq_true'] at hconf
    exact ⟨hconf.1.1, hconf.1.2, hconf.2⟩
  split
  · exact ⟨_, _, rfl, .finished _ false hres hstarted hoffs (by simp)⟩
  · exact nextOff_polled h hres hstarted w.job.offUntil (fun hzero => absurd hzero hoffs) (fun _ => rfl)

/-! ## What an observation can do -/

/-- A change of the job that leaves its commands and their counters. -/
structure Noted (j j' : SirenPulseJob) : Prop where
  identity : j'.identity = j.identity
  token : j'.token = j.token
  on : j'.on = j.on
  off : j'.off = j.off
  started : j'.started = j.started
  offs : j'.offs = j.offs
  offUntil : j'.offUntil = j.offUntil
  reads : j'.probe.wires = j.probe.wires ∧ j'.probe.index = j.probe.index
  result : j'.result = j.result
  offError : j.offs = 0 → j'.offError = j.offError
  cancelled : j.cancelled → j'.cancelled

theorem Noted.refl (j : SirenPulseJob) : Noted j j :=
  ⟨rfl, rfl, rfl, rfl, rfl, rfl, rfl, ⟨rfl, rfl⟩, rfl, fun _ => rfl, id⟩

/-- The packets of an observation and the world after it: at most a receipt. -/
structure Noticed (w : SirenWorld) (now : ℚ) (packets : List SirenPacket) (w' : SirenWorld) : Prop where
  noted : Noted w.job w'.job
  packets : (packets = [] ∧ w'.output = w.output ∧ w'.job.receipts = w.job.receipts) ∨
    ∃ wire, w.job.started ∧ w.job.result = none ∧ w.job.receipts < 6 ∧ packets = [⟨.receipt, wire⟩] ∧
      w'.job.receipts = w.job.receipts + 1 ∧ Charged AccountOutputBudget.siren w.output w'.output w.job.token .receipt now

theorem receipt_noticed (h : w.Resources now) (hres : w.job.result = none) (hstarted : w.job.started = true)
    {j : SirenPulseJob} (hj : Noted w.job j) (hreceipts : j.receipts = w.job.receipts) (plain : Bytes) :
    ∃ packets w', receipt { w with job := j } now plain = (.ok packets, w') ∧ Noticed w now packets w' ∧
      w'.job.offError = j.offError ∧ w'.job.probe = j.probe := by
  have hnode : j.node = w.job.node := congrArg SirenIdentity.node hj.identity
  obtain ⟨reply, hreply, hlen⟩ := buildMode2ResponseAck_ok j.node (by rw [hnode]; exact h.key) plain
  obtain ⟨slots, hheld, -, -, -, hslots⟩ := h.held (unsettled_of_none hres)
  unfold SirenWorld.receipt
  split
  · next hsend =>
    have hfew : w.job.receipts < 6 := by
      rw [← hreceipts]
      exact hsend.2
    obtain ⟨output, heq, hcharged⟩ := h.honours.chargeSiren_ok h.last hheld (show slots .receipt ≠ 0 by omega)
      (show 1 ≤ reply.length by omega) (by omega)
    rw [← hj.token] at heq
    simp only [hreply, SirenWorld.send, heq]
    refine ⟨_, _, rfl, ⟨⟨hj.identity, hj.token, hj.on, hj.off, hj.started, hj.offs, hj.offUntil, hj.reads, hj.result,
      hj.offError, hj.cancelled⟩, .inr ⟨reply, hstarted, hres, hfew, rfl, by simp only [hreceipts], hcharged⟩⟩, rfl, rfl⟩
  · exact ⟨_, _, rfl, ⟨hj, .inl ⟨rfl, rfl, hreceipts⟩⟩, rfl, rfl⟩

theorem noted_answered (j : SirenPulseJob) (code : Nat) : Noted j (answered j code) := by
  unfold answered
  split
  · next hoffs =>
    split
    · exact { Noted.refl j with offError := fun hzero => absurd hzero hoffs }
    · exact .refl j
  · split
    · exact { Noted.refl j with }
    · exact .refl j

theorem noted_acknowledged (j : SirenPulseJob) (sequence : Nat) (accepted : Bool) :
    Noted j (acknowledged j sequence accepted) := by
  unfold acknowledged
  split
  · exact { Noted.refl j with cancelled := fun hc => by simp [hc] }
  · split
    · exact { Noted.refl j with }
    · exact .refl j

theorem acknowledged_evidence (j : SirenPulseJob) (sequence : Nat) (accepted : Bool) :
    (acknowledged j sequence accepted).offError = j.offError ∧ (acknowledged j sequence accepted).probe = j.probe ∧
      (acknowledged j sequence accepted).receipts = j.receipts := by
  unfold acknowledged
  split
  · exact ⟨rfl, rfl, rfl⟩
  · split <;> exact ⟨rfl, rfl, rfl⟩

theorem answered_receipts (j : SirenPulseJob) (code : Nat) : (answered j code).receipts = j.receipts := by
  unfold answered
  split <;> split <;> rfl

/-! ## What an observation notes -/

/-- The frames that count for OFF. -/
def Sees (w : SirenWorld) (plain : Bytes) (peer : String × Nat) (generation : Nat) (now : ℚ) : Prop :=
  w.job.result = none ∧ w.job.started ∧ w.job.offs ≠ 0 ∧ now < w.job.offUntil ∧ peer = w.job.node.address ∧
    generation = w.job.generation ∧ wellFramed w.job.node plain

instance (w : SirenWorld) (plain : Bytes) (peer : String × Nat) (generation : Nat) (now : ℚ) :
    Decidable (w.Sees plain peer generation now) := inferInstanceAs (Decidable (_ ∧ _))

/-- The acknowledgement of OFF in a frame. -/
def ackIn (w : SirenWorld) (plain : Bytes) (peer : String × Nat) (generation : Nat) (now : ℚ) : Option Nat :=
  if w.Sees plain peer generation now then
    if (plain.field 4 20).testBit 20 then none else parseSirenActionResponse plain w.job.offId
  else none

/-- The reply to a state read in a frame. -/
def replyIn (loads : Loads) (w : SirenWorld) (plain : Bytes) (peer : String × Nat) (generation : Nat) (now : ℚ) :
    Option (Nat × Json) :=
  if w.Sees plain peer generation now ∧ w.job.offError = some 0 then
    w.job.probe.replyTo loads w.job.node w.job.device plain generation
  else none

/-- The first error stays; until then the last acknowledgement counts. -/
def noteAck (offError : Option Nat) (code : Nat) : Option Nat :=
  if offError = none ∨ offError = some 0 then some code else offError

/-- The state a probe has noted, and whether a reply was invalid. -/
def noteReply (noted : Option Int × Bool) (reply : Nat × Json) : Option Int × Bool :=
  match SirenOffProbe.reading reply with
  | none => (noted.1, true)
  | some state => if noted.2 then noted else (some state, false)

theorem probe_observe (loads : Loads) (p : SirenOffProbe) (node : CertifiedNode) (device : Nat) (plain : Bytes)
    (generation : Nat) :
    (p.replyTo loads node device plain generation = none ∧ p.observe loads node device plain generation = (false, p)) ∨
      ∃ reply, p.replyTo loads node device plain generation = some reply ∧
        p.observe loads node device plain generation = (true, { p with
          state := (noteReply (p.state, p.invalid) reply).1
          invalid := (noteReply (p.state, p.invalid) reply).2 }) := by
  unfold SirenOffProbe.observe
  cases hreply : p.replyTo loads node device plain generation with
  | none => exact .inl ⟨rfl, rfl⟩
  | some reply =>
    refine .inr ⟨reply, rfl, ?_⟩
    cases hreading : SirenOffProbe.reading reply with
    | none => simp [noteReply, hreading]
    | some state =>
      by_cases hinvalid : p.invalid
      · simp only [noteReply, hreading, if_pos hinvalid]
      · simp [noteReply, hreading, hinvalid]

theorem replyTo_frame {loads : Loads} {p : SirenOffProbe} {node : CertifiedNode} {device : Nat} {plain : Bytes}
    {generation : Nat} {reply : Nat × Json} (h : p.replyTo loads node device plain generation = some reply) :
    plain.at_ 1 = 0xB8 := by
  unfold SirenOffProbe.replyTo at h
  split at h
  · cases h
  · obtain ⟨ticket, -, hmatch⟩ := Option.bind_eq_some_iff.mp h
    exact matchModelReply_frame hmatch

theorem answered_off {j : SirenPulseJob} (hoffs : j.offs ≠ 0) (code : Nat) :
    (answered j code).offError = noteAck j.offError code ∧ ((answered j code).probe.state, (answered j code).probe.invalid) =
      (j.probe.state, j.probe.invalid) := by
  unfold answered noteAck
  rw [if_pos hoffs]
  split <;> exact ⟨rfl, rfl⟩

theorem answered_on {j : SirenPulseJob} (hoffs : ¬ j.offs ≠ 0) (code : Nat) :
    (answered j code).offError = j.offError ∧ (answered j code).probe = j.probe := by
  unfold answered
  rw [if_neg hoffs]
  split <;> exact ⟨rfl, rfl⟩

/-- What an observation gives when it returns. -/
def Notes (loads : Loads) (w : SirenWorld) (plain : Bytes) (peer : String × Nat) (generation : Nat) (now : ℚ)
    (j : SirenPulseJob) : Prop :=
  j.offError = (w.ackIn plain peer generation now).toList.foldl noteAck w.job.offError ∧
    (j.probe.state, j.probe.invalid) =
      (w.replyIn loads plain peer generation now).toList.foldl noteReply (w.job.probe.state, w.job.probe.invalid)

theorem notes_nothing (loads : Loads) {plain : Bytes} {peer : String × Nat} {generation : Nat}
    (hack : w.ackIn plain peer generation now = none) (hreply : w.replyIn loads plain peer generation now = none) :
    Notes loads w plain peer generation now w.job := by
  rw [Notes, hack, hreply]
  exact ⟨rfl, rfl⟩

theorem observeAction_noticed (loads : Loads) (h : w.Resources now) (hres : w.job.result = none)
    (hstarted : w.job.started = true) {plain : Bytes} {peer : String × Nat} {generation : Nat}
    (hsees : w.job.offs ≠ 0 → w.Sees plain peer generation now)
    (hreply : w.replyIn loads plain peer generation now = none) :
    (∃ packets w', w.observeAction plain now = (.ok packets, w') ∧ Noticed w now packets w' ∧
        Notes loads w plain peer generation now w'.job) ∨
      ∃ e, w.observeAction plain now = (.error (.gute e), w) ∧ Notes loads w plain peer generation now w.job := by
  have hsame : Noticed w now [] w := ⟨.refl w.job, .inl ⟨rfl, rfl, rfl⟩⟩
  have hquiet : ∀ j : SirenPulseJob, j.offError = w.job.offError → j.probe = w.job.probe →
      w.ackIn plain peer generation now = none → Notes loads w plain peer generation now j := by
    intro j hoff hprobe hack
    rw [Notes, hack, hreply, hoff, hprobe]
    exact ⟨rfl, rfl⟩
  unfold SirenWorld.observeAction
  simp only
  by_cases hflag : (plain.field 4 20).testBit 20
  · have hack : w.ackIn plain peer generation now = none := by
      unfold SirenWorld.ackIn
      rw [if_pos hflag]
      split <;> rfl
    rw [if_pos hflag]
    split
    · exact .inl ⟨_, _, rfl, hsame, hquiet _ rfl rfl hack⟩
    split
    · next e _ => exact .inr ⟨e, rfl, hquiet _ rfl rfl hack⟩
    split
    · exact .inl ⟨_, _, rfl, hsame, hquiet _ rfl rfl hack⟩
    · obtain ⟨hoff, hprobe, hreceipts⟩ := acknowledged_evidence w.job (plain.field 4 12) (decide (plain.field 2 26 = 0))
      exact .inl ⟨_, _, rfl, ⟨noted_acknowledged .., .inl ⟨rfl, rfl, hreceipts⟩⟩, hquiet _ hoff hprobe hack⟩
  · rw [if_neg hflag]
    by_cases hoffs : w.job.offs ≠ 0
    · -- OFF is out: the answer is its acknowledgement.
      have hack : w.ackIn plain peer generation now = parseSirenActionResponse plain w.job.offId := by
        rw [SirenWorld.ackIn, if_pos (hsees hoffs), if_neg hflag]
      rw [if_pos hoffs]
      cases hparse : parseSirenActionResponse plain w.job.offId with
      | none => exact .inl ⟨_, _, rfl, hsame, hquiet _ rfl rfl (by rw [hack, hparse])⟩
      | some code =>
        obtain ⟨packets, w', heq, hnoticed, hoff, hprobe⟩ := receipt_noticed h hres hstarted
          (noted_answered w.job code) (answered_receipts w.job code) plain
        refine .inl ⟨packets, w', heq, hnoticed, ?_⟩
        rw [Notes, hack, hparse, hreply, hoff, hprobe]
        exact answered_off hoffs code
    · have hack : w.ackIn plain peer generation now = none := if_neg fun hs => hoffs hs.2.2.1
      rw [if_neg hoffs]
      cases hparse : parseSirenActionResponse plain w.job.onId with
      | none => exact .inl ⟨_, _, rfl, hsame, hquiet _ rfl rfl hack⟩
      | some code =>
        obtain ⟨packets, w', heq, hnoticed, hoff, hprobe⟩ := receipt_noticed h hres hstarted
          (noted_answered w.job code) (answered_receipts w.job code) plain
        obtain ⟨hoff', hprobe'⟩ := answered_on hoffs code
        exact .inl ⟨packets, w', heq, hnoticed, hquiet _ (hoff.trans hoff') (hprobe.trans hprobe') hack⟩

/-- **An observation only fails on an acknowledgement it cannot check**, without
a change; else this is all it can do. -/
theorem observe_noticed (loads : Loads) (h : w.Resources now) (plain : Bytes) (peer : String × Nat) (generation : Nat) :
    (∃ packets w', w.observe loads plain peer generation now = (.ok packets, w') ∧ Noticed w now packets w' ∧
        Notes loads w plain peer generation now w'.job) ∨
      ∃ e, w.observe loads plain peer generation now = (.error (.gute e), w) ∧
        Notes loads w plain peer generation now w.job := by
  have hunseen : ¬ w.Sees plain peer generation now → Notes loads w plain peer generation now w.job := fun hnot =>
    notes_nothing loads (if_neg hnot) (if_neg fun hsees => hnot hsees.1)
  have hsame : Noticed w now [] w := ⟨.refl w.job, .inl ⟨rfl, rfl, rfl⟩⟩
  unfold SirenWorld.observe
  split
  · next hskip =>
    refine .inl ⟨_, _, rfl, hsame, hunseen ?_⟩
    rintro ⟨hres, hstarted, -, -, hpeer, hgeneration, hframed⟩
    simp [hres, hstarted, hpeer, hgeneration, hframed] at hskip
  next hgo =>
  have hres : w.job.result = none := by
    by_contra hsome
    exact hgo (.inl (Option.isSome_iff_ne_none.mpr hsome))
  have hstarted : w.job.started = true := by
    by_contra hnot
    exact hgo (.inr (.inl (by simpa using hnot)))
  have hpeer : peer = w.job.node.address := by
    by_contra hnot
    exact hgo (.inr (.inr (.inl hnot)))
  have hgeneration : generation = w.job.generation := by
    by_contra hnot
    exact hgo (.inr (.inr (.inr (.inl hnot))))
  have hframed : wellFramed w.job.node plain = true := by
    by_contra hnot
    exact hgo (.inr (.inr (.inr (.inr (by simpa using hnot)))))
  split
  · next hlate =>
    exact .inl ⟨_, _, rfl, hsame, hunseen fun hsees => absurd hsees.2.2.2.1 (not_lt.mpr hlate.2)⟩
  next hintime =>
  split
  · next hlate => exact .inl ⟨_, _, rfl, hsame, hunseen fun hsees => hsees.2.2.1 hlate.1⟩
  -- From here on the frame counts, for OFF if OFF is out and else for ON.
  have hsees : w.job.offs ≠ 0 → w.Sees plain peer generation now := by
    intro hoffs
    refine ⟨hres, hstarted, hoffs, ?_, hpeer, hgeneration, hframed⟩
    by_contra hlate
    exact hintime ⟨hoffs, not_lt.mp hlate⟩
  split
  · next hprobing =>
    have hreplyIn : w.replyIn loads plain peer generation now =
        w.job.probe.replyTo loads w.job.node w.job.device plain generation :=
      if_pos ⟨hsees hprobing.1, hprobing.2⟩
    rcases probe_observe loads w.job.probe w.job.node w.job.device plain generation with
      ⟨hnone, hobs⟩ | ⟨reply, hsome, hobs⟩
    · rw [hobs]
      exact observeAction_noticed loads h hres hstarted hsees (by rw [hreplyIn, hnone])
    · rw [hobs]
      -- A reply to a state read is no answer to an action.
      have hack : w.ackIn plain peer generation now = none := by
        have hkind := replyTo_frame hsome
        unfold SirenWorld.ackIn parseSirenActionResponse
        rw [if_pos (show plain.length < 0x36 ∨ plain.at_ 1 ≠ 0xAD by omega)]
        split
        · split <;> rfl
        · rfl
      obtain ⟨packets, w', heq, hnoticed, hoff, hprobe⟩ := receipt_noticed h hres hstarted
        (j := { w.job with probe := { w.job.probe with
          state := (noteReply (w.job.probe.state, w.job.probe.invalid) reply).1
          invalid := (noteReply (w.job.probe.state, w.job.probe.invalid) reply).2 } })
        { Noted.refl w.job with } rfl plain
      refine .inl ⟨packets, w', heq, hnoticed, ?_⟩
      rw [Notes, hack, hreplyIn, hsome, hoff, hprobe]
      exact ⟨rfl, rfl⟩
  · next hnot =>
    exact observeAction_noticed loads h hres hstarted hsees
      (if_neg fun hsees' => hnot ⟨hsees'.1.2.2.1, hsees'.2⟩)

/-! ## The resources -/

/-- A result of no ON, or that is confirmed, gives the reserve back. -/
theorem Resources.finish (h : w.Resources now) (hres : w.job.result = none) (status : String) (confirmed : Bool)
    (hoffs : w.job.started → 1 ≤ w.job.offs) : (w.finish status confirmed).Resources now := by
  have hunsettled : (w.finish status confirmed).job.Unsettled ↔ w.job.started ∧ confirmed = false := by
    simp [SirenPulseJob.Unsettled, SirenWorld.finish]
  have hresult : ∀ r, (w.finish status confirmed).job.result = some r → r.startAttempted = w.job.started ∧
      r.offAttempts = w.job.offs ∧ (w.job.started → 1 ≤ w.job.offs) := by
    intro r hr
    cases hr
    exact ⟨rfl, rfl, hoffs⟩
  have hwires : (w.finish status confirmed).job.result = none → (w.finish status confirmed).job.on.length = 75 ∧
      (w.finish status confirmed).job.off.length = 75 := fun hnone => by cases hnone
  by_cases hclose : w.job.started = false ∨ confirmed
  · have houtput : (w.finish status confirmed).output = w.output.closeSiren w.job.token := if_pos hclose
    exact { h with
      wires := hwires
      honours := by rw [houtput]; exact h.honours.closeSiren _
      last := by
        rw [houtput, AccountOutputBudget.closeSiren]
        split <;> exact h.last
      token := by
        rw [houtput, AccountOutputBudget.closeSiren]
        split <;> exact h.token
      held := fun hun => by
        obtain ⟨hs, hc⟩ := hunsettled.mp hun
        rcases hclose with hclose | hclose
        · rw [hs] at hclose; cases hclose
        · rw [hc] at hclose; cases hclose
      result := hresult }
  · have houtput : (w.finish status confirmed).output = w.output := if_neg hclose
    exact { h with
      wires := hwires
      honours := by rw [houtput]; exact h.honours
      last := by rw [houtput]; exact h.last
      token := by rw [houtput]; exact h.token
      held := fun _ => by rw [houtput]; exact h.held (unsettled_of_none hres)
      result := hresult }

theorem Resources.polled (h : w.Resources now) {packets : List SirenPacket} {w' : SirenWorld}
    (hp : Polled w now packets w') : w'.Resources now := by
  cases hp with
  | done _ => exact h
  | waiting offUntil hres hstarted hlater => exact { h with }
  | refused hres hstarted => exact h.finish hres _ false fun hs => by rw [hstarted] at hs; cases hs
  | finished status confirmed hres hstarted hoffs hconf => exact h.finish hres status confirmed fun _ => by omega
  | on output hres hstarted hcancel hcharged =>
    obtain ⟨slots, hheld, hon, hoff, hread, hreceipt⟩ := h.held (unsettled_of_none hres)
    obtain ⟨slots', hheld', hkind, hother⟩ := hcharged.held hheld
    exact { h with
      honours := hcharged.honours
      last := hcharged.last
      token := by rw [hcharged.next]; exact h.token
      held := fun _ => ⟨slots', hheld', by rw [hkind, hon, hstarted]; rfl, by rw [hother .off (by decide)]; exact hoff,
        by rw [hother .read (by decide)]; exact hread, by rw [hother .receipt (by decide)]; exact hreceipt⟩
      unstarted := fun hs => by cases hs
      result := fun r hr => by
        simp only [hres] at hr
        cases hr }
  | off output offUntil hres hstarted hfew hfirst hlater hcharged =>
    obtain ⟨slots, hheld, hon, hoff, hread, hreceipt⟩ := h.held (unsettled_of_none hres)
    obtain ⟨slots', hheld', hkind, hother⟩ := hcharged.held hheld
    exact { h with
      honours := hcharged.honours
      last := hcharged.last
      token := by rw [hcharged.next]; exact h.token
      held := fun _ => ⟨slots', hheld', by rw [hother .on (by decide)]; exact hon, by rw [hkind]; simp only; omega,
        by rw [hother .read (by decide)]; exact hread, by rw [hother .receipt (by decide)]; exact hreceipt⟩
      offs_le := hfew
      unstarted := fun hs => by
        simp only [hstarted] at hs
        cases hs
      unstopped := fun hzero => by cases hzero
      result := fun r hr => by
        simp only [hres] at hr
        cases hr }
  | read output wire hres hstarted hoffs hindex hcharged =>
    obtain ⟨slots, hheld, hon, hoff, hread, hreceipt⟩ := h.held (unsettled_of_none hres)
    obtain ⟨slots', hheld', hkind, hother⟩ := hcharged.held hheld
    exact { h with
      honours := hcharged.honours
      last := hcharged.last
      token := by rw [hcharged.next]; exact h.token
      held := fun _ => ⟨slots', hheld', by rw [hother .on (by decide)]; exact hon,
        by rw [hother .off (by decide)]; exact hoff, by rw [hkind]; simp only; omega,
        by rw [hother .receipt (by decide)]; exact hreceipt⟩
      reads_le := hindex
      unstopped := fun hzero => absurd hzero hoffs
      result := fun r hr => by
        simp only [hres] at hr
        cases hr }

theorem Resources.noticed (h : w.Resources now) {packets : List SirenPacket} {w' : SirenWorld}
    (hn : Noticed w now packets w') : w'.Resources now := by
  have hj := hn.noted
  have hnode : w'.job.node = w.job.node := congrArg SirenIdentity.node hj.identity
  have hunsettled : w'.job.Unsettled ↔ w.job.Unsettled := by
    rw [SirenPulseJob.Unsettled, SirenPulseJob.Unsettled, hj.result]
  have hunstopped : w'.job.offs = 0 → w'.job.offError = none ∧ w'.job.probe.index = 0 := by
    intro hzero
    rw [hj.offs] at hzero
    rw [hj.offError hzero, hj.reads.2]
    exact h.unstopped hzero
  rcases hn.packets with ⟨-, houtput, hreceipts⟩ | ⟨wire, hstarted, hres, hfew, -, hreceipts, hcharged⟩
  · exact {
      key := by rw [hnode]; exact h.key
      wires := by rw [hj.result, hj.on, hj.off]; exact h.wires
      reads := by rw [hj.reads.1]; exact h.reads
      honours := by rw [houtput]; exact h.honours
      last := by rw [houtput]; exact h.last
      token := by rw [houtput, hj.token]; exact h.token
      held := by
        rw [hunsettled, houtput, hj.token, hj.started, hj.offs, hj.reads.2, hreceipts]
        exact h.held
      offs_le := by rw [hj.offs]; exact h.offs_le
      reads_le := by rw [hj.reads.2]; exact h.reads_le
      receipts_le := by rw [hreceipts]; exact h.receipts_le
      unstarted := by rw [hj.started, hj.offs, hreceipts]; exact h.unstarted
      unstopped := hunstopped
      result := by rw [hj.result, hj.started, hj.offs]; exact h.result }
  · obtain ⟨slots, hheld, hon, hoff, hread, hreceipt⟩ := h.held (unsettled_of_none hres)
    obtain ⟨slots', hheld', hkind, hother⟩ := hcharged.held hheld
    exact {
      key := by rw [hnode]; exact h.key
      wires := by rw [hj.result, hj.on, hj.off]; exact h.wires
      reads := by rw [hj.reads.1]; exact h.reads
      honours := hcharged.honours
      last := hcharged.last
      token := by rw [hcharged.next, hj.token]; exact h.token
      held := by
        intro _
        rw [hj.token, hj.started, hj.offs, hj.reads.2, hreceipts]
        exact ⟨slots', hheld', by rw [hother .on (by decide)]; exact hon, by rw [hother .off (by decide)]; exact hoff,
          by rw [hother .read (by decide)]; exact hread, by rw [hkind]; omega⟩
      offs_le := by rw [hj.offs]; exact h.offs_le
      reads_le := by rw [hj.reads.2]; exact h.reads_le
      receipts_le := by rw [hreceipts]; exact hfew
      unstarted := fun hs => by
        rw [hj.started, hstarted] at hs
        cases hs
      unstopped := hunstopped
      result := fun r hr => by
        rw [hj.result, hres] at hr
        cases hr }

theorem Resources.output (h : w.Resources now) {op : OutputOp} (hother : op.on w.job.token = false) :
    Resources now { w with output := op.run now w.output } := by
  have hframes := op.run_frames now w.output hother h.token
  obtain ⟨hhonours, hlast⟩ := op.run_honours h.honours h.last
  exact { h with
    honours := hhonours
    last := hlast
    token := lt_of_lt_of_le h.token hframes.next
    held := fun hun => by
      simp only [hframes.siren]
      exact h.held hun }

/-- **Every step keeps the resources in order.** -/
theorem Resources.step (loads : Loads) {t : ℚ} (h : w.Resources t) (ht : t ≤ now) (call : SirenCall) :
    (w.step loads now call).2.Resources now := by
  have h := h.later ht
  cases call with
  | nextPacket =>
    obtain ⟨packets, w', heq, hp⟩ := nextPacket_polled h
    rw [SirenWorld.step, heq]
    exact h.polled hp
  | observe plain peer generation =>
    rw [SirenWorld.step]
    rcases observe_noticed loads h plain peer generation with ⟨packets, w', heq, hn, -⟩ | ⟨e, heq, -⟩
    · rw [heq]
      exact h.noticed hn
    · rw [heq]
      exact h
  | cancel => exact { h with }
  | sendFailed => exact { h with }
  | output op =>
    by_cases hown : op.on w.job.token
    · simp only [SirenWorld.step, if_pos hown]
      exact h
    · simp only [SirenWorld.step, if_neg hown]
      exact h.output (by simpa using hown)
  | reserve count => exact { h with }
  | retire => exact { h with }

end SirenWorld

/-! ## The trace -/

namespace SirenRun

open Trace SirenTrace

/-- The trace and the job agree; `job` is the one that was built. -/
structure Traced (job : SirenPulseJob) (r : SirenRun) : Prop where
  clean : ∀ e ∈ r.trace, (∃ out, e.out = .ok out) ∨
    ∃ plain peer generation fault, e.call = .observe plain peer generation ∧ e.out = .error (.gute fault)
  identity : r.world.job.identity = job.identity
  token : r.world.job.token = job.token
  wire : r.world.job.result = none → r.world.job.off = job.off
  ons : (ofKind .on (packets r.trace)).length = if r.world.job.started then 1 else 0
  offs : ofKind .off (packets r.trace) = List.replicate r.world.job.offs ⟨.off, job.off⟩
  reads : (ofKind .read (packets r.trace)).length = r.world.job.probe.index
  receipts : (ofKind .receipt (packets r.trace)).length = r.world.job.receipts
  silent : r.world.job.started = false → packets r.trace = []
  offTime : r.world.job.offs ≠ 0 → firstTime .off r.trace = some (r.world.job.offUntil - 2)

variable {r : SirenRun} {job : SirenPulseJob} {now : ℚ} {loads : Loads}

/-- What the trace is compared with. -/
structure SamePulse (j j' : SirenPulseJob) : Prop where
  identity : j'.identity = j.identity
  token : j'.token = j.token
  wire : j'.result = none → j.result = none ∧ j'.off = j.off
  started : j'.started = j.started
  offs : j'.offs = j.offs
  index : j'.probe.index = j.probe.index
  receipts : j'.receipts = j.receipts
  offUntil : j.offs ≠ 0 → j'.offUntil = j.offUntil

theorem Traced.quiet (h : r.Traced job) {w' : SirenWorld} {e : SirenEvent} (hpackets : e.packets = [])
    (hclean : (∃ out, e.out = .ok out) ∨
      ∃ plain peer generation fault, e.call = .observe plain peer generation ∧ e.out = .error (.gute fault))
    (hsame : SamePulse r.world.job w'.job) : Traced job ⟨w', r.trace ++ [e]⟩ := by
  have hall : packets (r.trace ++ [e]) = packets r.trace := by rw [packets_append, hpackets, List.append_nil]
  exact {
    clean := by
      intro e' he'
      rcases List.mem_append.mp he' with he' | he'
      · exact h.clean e' he'
      · rw [List.mem_singleton.mp he']
        exact hclean
    identity := hsame.identity.trans h.identity
    token := hsame.token.trans h.token
    wire := fun hnone => by
      obtain ⟨hres, hoff⟩ := hsame.wire hnone
      rw [hoff]
      exact h.wire hres
    ons := by rw [hall, hsame.started]; exact h.ons
    offs := by rw [hall, hsame.offs]; exact h.offs
    reads := by rw [hall, hsame.index]; exact h.reads
    receipts := by rw [hall, hsame.receipts]; exact h.receipts
    silent := by rw [hall, hsame.started]; exact h.silent
    offTime := by
      intro hoffs
      rw [hsame.offs] at hoffs
      rw [firstTime_quiet (by rw [hpackets]; simp), h.offTime hoffs, hsame.offUntil hoffs] }

/-- An event with one packet, which its own counter counts. -/
theorem Traced.loud (h : r.Traced job) {w' : SirenWorld} {e : SirenEvent} {kind : SirenKind} {wire : Bytes}
    (hout : e.out = .ok [⟨kind, wire⟩]) (hidentity : w'.job.identity = r.world.job.identity)
    (htoken : w'.job.token = r.world.job.token) (hres : r.world.job.result = none) (hwire : w'.job.off = r.world.job.off)
    (hstarted : w'.job.started = true) (hon : kind = .on ↔ r.world.job.started = false)
    (hoffs : w'.job.offs = r.world.job.offs + if kind = .off then 1 else 0) (hoff : kind = .off → wire = job.off)
    (hindex : w'.job.probe.index = r.world.job.probe.index + if kind = .read then 1 else 0)
    (hreceipts : w'.job.receipts = r.world.job.receipts + if kind = .receipt then 1 else 0)
    (hfirst : r.world.job.offs = 0 → kind = .off → w'.job.offUntil = e.now + 2)
    (hlater : r.world.job.offs ≠ 0 → w'.job.offUntil = r.world.job.offUntil) : Traced job ⟨w', r.trace ++ [e]⟩ := by
  have hpackets : e.packets = [⟨kind, wire⟩] := by rw [Event.packets, hout]
  have hcount : ∀ k, (ofKind k (packets (r.trace ++ [e]))).length =
      (ofKind k (packets r.trace)).length + if kind = k then 1 else 0 := by
    intro k
    rw [packets_append, ofKind_append, hpackets, List.length_append]
    by_cases hk : kind = k
    · simp [ofKind, hk]
    · simp [ofKind, hk]
  exact {
    clean := by
      intro e' he'
      rcases List.mem_append.mp he' with he' | he'
      · exact h.clean e' he'
      · rw [List.mem_singleton.mp he']
        exact .inl ⟨_, hout⟩
    identity := hidentity.trans h.identity
    token := htoken.trans h.token
    wire := fun _ => by rw [hwire]; exact h.wire hres
    ons := by
      rw [hcount, h.ons, hstarted, if_pos rfl]
      by_cases hkind : kind = .on
      · rw [hon.mp hkind, if_pos hkind, if_neg (by decide)]
      · have hs : r.world.job.started = true := by
          by_contra hnot
          exact hkind (hon.mpr (by simpa using hnot))
        rw [hs, if_neg hkind, if_pos rfl]
    offs := by
      rw [packets_append, ofKind_append, h.offs, hpackets, hoffs]
      by_cases hkind : kind = .off
      · rw [if_pos hkind, List.replicate_succ', hkind, hoff hkind]
        rfl
      · rw [if_neg hkind, ofKind_eq_nil (by simpa using hkind), List.append_nil]
        rfl
    reads := by rw [hcount, h.reads, hindex]
    receipts := by rw [hcount, h.receipts, hreceipts]
    silent := fun hs => by
      rw [hstarted] at hs
      cases hs
    offTime := by
      intro hnonzero
      by_cases hzero : r.world.job.offs = 0
      · -- The first OFF.
        have hkind : kind = .off := by
          by_contra hnot
          rw [hoffs, hzero, if_neg hnot] at hnonzero
          exact hnonzero rfl
        have hnone := h.offs
        rw [hzero, List.replicate_zero] at hnone
        rw [firstTime_append, firstTime_eq_none hnone, hfirst hzero hkind]
        simp [hpackets, hkind]
      · rw [firstTime_stays (h.offTime hzero), hlater hzero] }

theorem Traced.polled (h : r.Traced job) {out : List SirenPacket} {w' : SirenWorld}
    (hp : SirenWorld.Polled r.world now out w') : Traced job ⟨w', r.trace ++ [⟨now, .nextPacket, .ok out⟩]⟩ := by
  cases hp with
  | done _ => exact h.quiet rfl (.inl ⟨_, rfl⟩) ⟨rfl, rfl, fun hn => ⟨hn, rfl⟩, rfl, rfl, rfl, rfl, fun _ => rfl⟩
  | refused hres hstarted =>
    exact h.quiet rfl (.inl ⟨_, rfl⟩) ⟨rfl, rfl, fun hn => (by cases hn), rfl, rfl, rfl, rfl, fun _ => rfl⟩
  | finished status confirmed hres hstarted hoffs hconf =>
    exact h.quiet rfl (.inl ⟨_, rfl⟩) ⟨rfl, rfl, fun hn => (by cases hn), rfl, rfl, rfl, rfl, fun _ => rfl⟩
  | waiting offUntil hres hstarted hlater =>
    exact h.quiet rfl (.inl ⟨_, rfl⟩) ⟨rfl, rfl, fun hn => ⟨hn, rfl⟩, rfl, rfl, rfl, rfl, hlater⟩
  | on output hres hstarted hcancel hcharged =>
    exact h.loud rfl rfl rfl hres rfl rfl (by simp [hstarted]) rfl (by simp) rfl rfl (by simp) fun _ => rfl
  | off output offUntil hres hstarted hfew hfirst hlater hcharged =>
    exact h.loud rfl rfl rfl hres rfl hstarted (by simp [hstarted]) rfl (fun _ => h.wire hres) rfl rfl
      (fun hzero _ => hfirst hzero) hlater
  | read output wire hres hstarted hoffs hindex hcharged =>
    exact h.loud rfl rfl rfl hres rfl hstarted (by simp [hstarted]) rfl (by simp) rfl rfl (by simp) fun _ => rfl

theorem Traced.noticed (h : r.Traced job) {out : List SirenPacket} {w' : SirenWorld}
    (hn : SirenWorld.Noticed r.world now out w') (plain : Bytes) (peer : String × Nat) (generation : Nat) :
    Traced job ⟨w', r.trace ++ [⟨now, .observe plain peer generation, .ok out⟩]⟩ := by
  have hj := hn.noted
  rcases hn.packets with ⟨hout, -, hreceipts⟩ | ⟨wire, hstarted, hres, -, hout, hreceipts, -⟩
  · rw [hout]
    exact h.quiet rfl (.inl ⟨_, rfl⟩) ⟨hj.identity, hj.token, fun hn => ⟨hj.result ▸ hn, hj.off⟩, hj.started, hj.offs,
      hj.reads.2, hreceipts, fun _ => hj.offUntil⟩
  · rw [hout]
    exact h.loud rfl hj.identity hj.token hres hj.off (hj.started.trans hstarted) (by simp [hstarted]) hj.offs (by simp)
      hj.reads.2 hreceipts (by simp) fun _ => hj.offUntil

/-- **Every step keeps trace and job in agreement.** -/
theorem Traced.step (loads : Loads) {t : ℚ} (h : r.Traced job) (hr : r.world.Resources t) (ht : t ≤ now)
    (call : SirenCall) : (r.step loads now call).Traced job := by
  have hr := hr.later ht
  have hkeep : SamePulse r.world.job r.world.job := ⟨rfl, rfl, fun hn => ⟨hn, rfl⟩, rfl, rfl, rfl, rfl, fun _ => rfl⟩
  cases call with
  | nextPacket =>
    obtain ⟨out, w', heq, hp⟩ := SirenWorld.nextPacket_polled hr
    rw [SirenRun.step, SirenWorld.step, heq]
    exact h.polled hp
  | observe plain peer generation =>
    rw [SirenRun.step, SirenWorld.step]
    rcases SirenWorld.observe_noticed loads hr plain peer generation with ⟨out, w', heq, hn, -⟩ | ⟨e, heq, -⟩
    · rw [heq]
      exact h.noticed hn plain peer generation
    · rw [heq]
      exact h.quiet rfl (.inr ⟨plain, peer, generation, e, rfl, rfl⟩) hkeep
  | cancel => exact h.quiet rfl (.inl ⟨_, rfl⟩) { hkeep with }
  | sendFailed => exact h.quiet rfl (.inl ⟨_, rfl⟩) { hkeep with }
  | output op =>
    by_cases hown : op.on r.world.job.token
    · simp only [SirenRun.step, SirenWorld.step, if_pos hown]
      exact h.quiet rfl (.inl ⟨_, rfl⟩) hkeep
    · simp only [SirenRun.step, SirenWorld.step, if_neg hown]
      exact h.quiet rfl (.inl ⟨_, rfl⟩) hkeep
  | reserve count => exact h.quiet rfl (.inl ⟨_, rfl⟩) hkeep
  | retire => exact h.quiet rfl (.inl ⟨_, rfl⟩) hkeep

/-! ## The evidence -/

open SirenWorld (noteAck noteReply)

theorem foldl_noteAck_error {code : Nat} (h : code ≠ 0) (acks : List Nat) :
    acks.foldl noteAck (some code) = some code := by
  induction acks with
  | nil => rfl
  | cons ack acks ih => rw [List.foldl_cons, noteAck, if_neg (by simp [h]), ih]

theorem foldl_noteAck_zero (acks : List Nat) :
    acks.foldl noteAck (some 0) = some 0 ↔ ∀ code ∈ acks, code = 0 := by
  induction acks with
  | nil => simp
  | cons ack acks ih =>
    rw [List.foldl_cons, noteAck, if_pos (.inr rfl)]
    by_cases hzero : ack = 0
    · rw [hzero, ih]
      simp
    · rw [foldl_noteAck_error hzero]
      simp [hzero]

/-- OFF is noted as acknowledged if it was, and never with an error. -/
theorem foldl_noteAck (acks : List Nat) :
    acks.foldl noteAck none = some 0 ↔ acks ≠ [] ∧ ∀ code ∈ acks, code = 0 := by
  cases acks with
  | nil => simp
  | cons ack acks =>
    rw [List.foldl_cons, noteAck, if_pos (.inl rfl)]
    by_cases hzero : ack = 0
    · rw [hzero, foldl_noteAck_zero]
      simp
    · rw [foldl_noteAck_error hzero]
      simp [hzero]

/-- A state is noted if it was the last one read, and no reply was invalid. -/
theorem foldl_noteReply {replies : List (Nat × Json)} {state : Option Int}
    (h : replies.foldl noteReply (none, false) = (state, false)) :
    state = replies.getLast?.bind SirenOffProbe.reading ∧ ∀ reply ∈ replies, SirenOffProbe.reading reply ≠ none := by
  induction replies using List.reverseRecOn generalizing state with
  | nil =>
    cases h
    exact ⟨rfl, by simp⟩
  | append_singleton replies reply ih =>
    rcases hnoted : replies.foldl noteReply (none, false) with ⟨noted, invalid⟩
    rw [List.foldl_append, List.foldl_cons, List.foldl_nil, hnoted, noteReply] at h
    cases hreading : SirenOffProbe.reading reply with
    | none =>
      rw [hreading] at h
      cases h
    | some now =>
      rw [hreading] at h
      simp only at h
      cases invalid with
      | true => cases h
      | false =>
        cases h
        refine ⟨by simp [hreading], fun r hr => ?_⟩
        rcases List.mem_append.mp hr with hr | hr
        · exact (ih hnoted).2 r hr
        · rw [List.mem_singleton.mp hr, hreading]
          simp

/-- While the job is running, it has noted what the trace shows. -/
def Evidenced (loads : Loads) (job : SirenPulseJob) (r : SirenRun) : Prop :=
  r.world.job.result = none →
    r.world.job.offError = (offAcks job.identity r.trace).foldl noteAck none ∧
      (r.world.job.probe.state, r.world.job.probe.invalid) =
        (probeReplies loads job.identity r.trace).foldl noteReply (none, false)

theorem Evidenced.quiet (h : r.Evidenced loads job) {w' : SirenWorld} {e : SirenEvent}
    (hcall : ∀ plain peer generation, e.call ≠ .observe plain peer generation)
    (hresult : w'.job.result = none → r.world.job.result = none) (hoff : w'.job.offError = r.world.job.offError)
    (hprobe : w'.job.probe.state = r.world.job.probe.state ∧ w'.job.probe.invalid = r.world.job.probe.invalid) :
    Evidenced loads job ⟨w', r.trace ++ [e]⟩ := by
  intro hnone
  obtain ⟨hacks, hreplies⟩ := h (hresult hnone)
  have hseen : seen job.identity r.trace e = none := by
    unfold seen
    split
    · next plain peer generation hobserve => exact absurd hobserve (hcall plain peer generation)
    · rfl
  have hack : ackAt job.identity r.trace e = none := by rw [ackAt, hseen]; rfl
  have hreply : replyAt loads job.identity r.trace e = none := by rw [replyAt, hseen]; rfl
  simp only [offAcks, probeReplies, history_append, hack, hreply, Option.toList_none, List.append_nil, hoff, hprobe.1,
    hprobe.2]
  exact ⟨hacks, hreplies⟩

/-- The frames that count for OFF are those the trace shows. -/
theorem seen_observe (ht : r.Traced job) (hr : r.world.Resources now) (hres : r.world.job.result = none) (plain : Bytes)
    (peer : String × Nat) (generation : Nat) (out : Except SirenFault (List SirenPacket)) :
    seen job.identity r.trace ⟨now, .observe plain peer generation, out⟩ =
      if r.world.Sees plain peer generation now then some plain else none := by
  have hnode : job.identity.node = r.world.job.node := (congrArg SirenIdentity.node ht.identity).symm
  have hgeneration : job.identity.generation = r.world.job.generation := (congrArg SirenIdentity.generation ht.identity).symm
  have htime : (firstTime .off r.trace).any (fun off => decide (now < off + 2)) ↔
      r.world.job.offs ≠ 0 ∧ now < r.world.job.offUntil := by
    by_cases hzero : r.world.job.offs = 0
    · have hnone := ht.offs
      rw [hzero, List.replicate_zero] at hnone
      rw [firstTime_eq_none hnone]
      simp [hzero]
    · rw [ht.offTime hzero]
      simp [hzero]
  have hstarted : r.world.job.offs ≠ 0 → r.world.job.started = true := by
    intro hoffs
    by_contra hnot
    exact hoffs (hr.unstarted (by simpa using hnot)).1
  unfold seen
  simp only [hnode, hgeneration, htime]
  by_cases hsees : r.world.Sees plain peer generation now
  · obtain ⟨-, -, hoffs, hlate, hpeer, hgen, hframed⟩ := hsees
    rw [if_pos ⟨hpeer, hgen, hframed, hoffs, hlate⟩, if_pos ⟨hres, hstarted hoffs, hoffs, hlate, hpeer, hgen, hframed⟩]
  · rw [if_neg hsees, if_neg]
    rintro ⟨hpeer, hgen, hframed, hoffs, hlate⟩
    exact hsees ⟨hres, hstarted hoffs, hoffs, hlate, hpeer, hgen, hframed⟩

theorem Evidenced.observe (h : r.Evidenced loads job) (ht : r.Traced job) (hr : r.world.Resources now) {plain : Bytes}
    {peer : String × Nat} {generation : Nat} {w' : SirenWorld} (hresult : w'.job.result = r.world.job.result)
    (hnotes : SirenWorld.Notes loads r.world plain peer generation now w'.job)
    (out : Except SirenFault (List SirenPacket)) :
    Evidenced loads job ⟨w', r.trace ++ [⟨now, .observe plain peer generation, out⟩]⟩ := by
  intro hnone
  have hres : r.world.job.result = none := hresult ▸ hnone
  obtain ⟨hacks, hreplies⟩ := h hres
  have hseen := seen_observe ht hr hres plain peer generation out
  have hidentity := ht.identity
  have hack : ackAt job.identity r.trace ⟨now, .observe plain peer generation, out⟩ =
      r.world.ackIn plain peer generation now := by
    rw [ackAt, hseen, SirenWorld.ackIn, ← hidentity]
    split <;> rfl
  have hacknowledged : OffAcknowledged job.identity r.trace ↔ r.world.job.offError = some 0 := by
    rw [hacks, foldl_noteAck]
    rfl
  have hreply : replyAt loads job.identity r.trace ⟨now, .observe plain peer generation, out⟩ =
      r.world.replyIn loads plain peer generation now := by
    rw [replyAt, hseen, SirenWorld.replyIn]
    by_cases hsees : r.world.Sees plain peer generation now
    · have hgeneration := hsees.2.2.2.2.2.1
      have htickets : job.identity.tickets = r.world.job.probe.tickets := (congrArg SirenIdentity.tickets hidentity).symm
      have hpinned : job.identity.generation = generation := by rw [hgeneration, ← hidentity]; rfl
      have hnode : job.identity.node = r.world.job.node := (congrArg SirenIdentity.node hidentity).symm
      have hdevice : job.identity.device = r.world.job.device := (congrArg SirenIdentity.device hidentity).symm
      simp only [Option.bind_some, ht.reads, hacknowledged, hsees, true_and, if_true, SirenOffProbe.replyTo, htickets,
        hpinned, hnode, hdevice]
      by_cases hoff : r.world.job.offError = some 0
      · by_cases hindex : r.world.job.probe.index = 0
        · simp [hoff, hindex]
        · simp [hoff, hindex]
      · simp [hoff]
    · rw [if_neg hsees, if_neg fun hs => hsees hs.1]
      rfl
  obtain ⟨hoff, hprobe⟩ := hnotes
  simp only [offAcks, probeReplies, history_append, hack, hreply, List.foldl_append]
  rw [hoff, hprobe, hacks, hreplies]
  exact ⟨rfl, rfl⟩

/-- **Every step notes what the trace shows.** -/
theorem Evidenced.step {t : ℚ} (h : r.Evidenced loads job) (ht : r.Traced job) (hr : r.world.Resources t) (hnow : t ≤ now)
    (call : SirenCall) : (r.step loads now call).Evidenced loads job := by
  have hr := hr.later hnow
  cases call with
  | nextPacket =>
    obtain ⟨out, w', heq, hp⟩ := SirenWorld.nextPacket_polled hr
    rw [SirenRun.step, SirenWorld.step, heq]
    cases hp with
    | done _ => exact h.quiet (by simp) id rfl ⟨rfl, rfl⟩
    | refused hres _ => exact h.quiet (by simp) (fun _ => hres) rfl ⟨rfl, rfl⟩
    | finished status confirmed hres _ _ _ => exact h.quiet (by simp) (fun _ => hres) rfl ⟨rfl, rfl⟩
    | waiting offUntil _ _ _ => exact h.quiet (by simp) id rfl ⟨rfl, rfl⟩
    | on output _ _ _ _ => exact h.quiet (by simp) id rfl ⟨rfl, rfl⟩
    | off output offUntil _ _ _ _ _ _ => exact h.quiet (by simp) id rfl ⟨rfl, rfl⟩
    | read output wire _ _ _ _ _ => exact h.quiet (by simp) id rfl ⟨rfl, rfl⟩
  | observe plain peer generation =>
    rw [SirenRun.step, SirenWorld.step]
    rcases SirenWorld.observe_noticed loads hr plain peer generation with ⟨out, w', heq, hn, hnotes⟩ | ⟨e, heq, hnotes⟩
    · rw [heq]
      exact h.observe ht hr hn.noted.result hnotes _
    · rw [heq]
      exact h.observe ht hr rfl hnotes _
  | cancel => exact h.quiet (by simp) id rfl ⟨rfl, rfl⟩
  | sendFailed => exact h.quiet (by simp) id rfl ⟨rfl, rfl⟩
  | output op =>
    by_cases hown : op.on r.world.job.token
    · simp only [SirenRun.step, SirenWorld.step, if_pos hown]
      exact h.quiet (by simp) id rfl ⟨rfl, rfl⟩
    · simp only [SirenRun.step, SirenWorld.step, if_neg hown]
      exact h.quiet (by simp) id rfl ⟨rfl, rfl⟩
  | reserve count => exact h.quiet (by simp) id rfl ⟨rfl, rfl⟩
  | retire => exact h.quiet (by simp) id rfl ⟨rfl, rfl⟩

/-! ## Runs -/

/-- Everything that holds at time `t` of a run of `job`. -/
structure Sound (loads : Loads) (job : SirenPulseJob) (t : ℚ) (r : SirenRun) : Prop where
  resources : r.world.Resources t
  traced : r.Traced job
  evidenced : r.Evidenced loads job

theorem Sound.step {t : ℚ} (h : r.Sound loads job t) (hnow : t ≤ now) (call : SirenCall) :
    (r.step loads now call).Sound loads job now where
  resources := h.resources.step loads hnow call
  traced := h.traced.step loads h.resources hnow call
  evidenced := h.evidenced.step h.traced h.resources hnow call

theorem Sound.run {w : SirenWorld} {t : ℚ} (h : Sound loads job t ⟨w, []⟩) {calls : List (ℚ × SirenCall)}
    (hclock : Clocked t calls) : (SirenRun.run loads w calls).Sound loads job (endTime t calls) :=
  Machine.run_inv (fun call _ hnow hs => hs.step hnow call) hclock h

/-- What a step does to the result: a confirmed one has its evidence, and one
that is there stays. -/
theorem Sound.result {t : ℚ} (h : r.Sound loads job t) (hnow : t ≤ now) (call : SirenCall) :
    (∀ res, r.world.job.result = none → (r.step loads now call).world.job.result = some res → res.offConfirmed →
      OffAcknowledged job.identity r.trace ∧ OffRead loads job.identity r.trace) ∧
    ∀ res, r.world.job.result = some res → (r.step loads now call).world.job.result = some res := by
  have hr := h.resources.later hnow
  have hquiet : ∀ j : SirenPulseJob, j.result = r.world.job.result →
      (∀ res, r.world.job.result = none → j.result = some res → res.offConfirmed →
        OffAcknowledged job.identity r.trace ∧ OffRead loads job.identity r.trace) ∧
      ∀ res, r.world.job.result = some res → j.result = some res := by
    intro j hj
    refine ⟨fun res hnone hsome => ?_, fun res hres => hj.trans hres⟩
    rw [hj, hnone] at hsome
    cases hsome
  cases call with
  | nextPacket =>
    obtain ⟨out, w', heq, hp⟩ := SirenWorld.nextPacket_polled hr
    rw [SirenRun.step, SirenWorld.step, heq]
    cases hp with
    | done _ => exact hquiet _ rfl
    | waiting offUntil _ _ _ => exact hquiet _ rfl
    | on output _ _ _ _ => exact hquiet _ rfl
    | off output offUntil _ _ _ _ _ _ => exact hquiet _ rfl
    | read output wire _ _ _ _ _ => exact hquiet _ rfl
    | refused hres _ =>
      refine ⟨fun res _ hsome hconf => ?_, fun res hsome => ?_⟩
      · cases hsome
        cases hconf
      · rw [hres] at hsome
        cases hsome
    | finished status confirmed hres hstarted hoffs hevidence =>
      refine ⟨fun res _ hsome hconf => ?_, fun res hsome => ?_⟩
      · cases hsome
        obtain ⟨hoff, hstate, hvalid⟩ := hevidence hconf
        obtain ⟨hacks, hreplies⟩ := h.evidenced hres
        rw [hstate, hvalid] at hreplies
        obtain ⟨hlast, hall⟩ := foldl_noteReply hreplies.symm
        obtain ⟨reply, hreply, hreading⟩ := Option.bind_eq_some_iff.mp hlast.symm
        exact ⟨(foldl_noteAck _).mp (hacks.symm.trans hoff), ⟨reply, hreply, hreading⟩, hall⟩
      · rw [hres] at hsome
        cases hsome
  | observe plain peer generation =>
    rw [SirenRun.step, SirenWorld.step]
    rcases SirenWorld.observe_noticed loads hr plain peer generation with ⟨out, w', heq, hn, -⟩ | ⟨e, heq, -⟩
    · rw [heq]
      exact hquiet _ hn.noted.result
    · rw [heq]
      exact hquiet _ rfl
  | cancel => exact hquiet _ rfl
  | sendFailed => exact hquiet _ rfl
  | output op =>
    by_cases hown : op.on r.world.job.token
    · simp only [SirenRun.step, SirenWorld.step, if_pos hown]
      exact hquiet _ rfl
    · simp only [SirenRun.step, SirenWorld.step, if_neg hown]
      exact hquiet _ rfl
  | reserve count => exact hquiet _ rfl
  | retire => exact hquiet _ rfl

/-- A job that was cancelled before ON. -/
def Silenced (w : SirenWorld) : Prop := w.job.cancelled ∧ w.job.started = false

theorem Silenced.step {w : SirenWorld} (h : Silenced w) (hr : w.Resources now) (call : SirenCall) :
    Silenced (w.step loads now call).2 := by
  obtain ⟨hcancel, hstarted⟩ := h
  have hnot : ∀ {P : Prop}, w.job.started = true → P := fun hs => by
    rw [hstarted] at hs
    cases hs
  cases call with
  | nextPacket =>
    obtain ⟨out, w', heq, hp⟩ := SirenWorld.nextPacket_polled hr
    rw [SirenWorld.step, heq]
    cases hp with
    | done _ => exact ⟨hcancel, hstarted⟩
    | refused _ _ => exact ⟨hcancel, hstarted⟩
    | on output _ _ hgo _ =>
      rw [hcancel] at hgo
      cases hgo
    | waiting offUntil _ hs _ => exact hnot hs
    | off output offUntil _ hs _ _ _ _ => exact hnot hs
    | read output wire _ hs _ _ _ => exact hnot hs
    | finished status confirmed _ hs _ _ => exact hnot hs
  | observe plain peer generation =>
    rw [SirenWorld.step]
    rcases SirenWorld.observe_noticed loads hr plain peer generation with ⟨out, w', heq, hn, -⟩ | ⟨e, heq, -⟩
    · rw [heq]
      exact ⟨hn.noted.cancelled hcancel, hn.noted.started.trans hstarted⟩
    · rw [heq]
      exact ⟨hcancel, hstarted⟩
  | cancel => exact ⟨rfl, hstarted⟩
  | sendFailed => exact ⟨rfl, hstarted⟩
  | output op =>
    by_cases hown : op.on w.job.token
    · simp only [SirenWorld.step, if_pos hown]
      exact ⟨hcancel, hstarted⟩
    · simp only [SirenWorld.step, if_neg hown]
      exact ⟨hcancel, hstarted⟩
  | reserve count => exact ⟨hcancel, hstarted⟩
  | retire => exact ⟨hcancel, hstarted⟩

/-- **A cancellation before ON leaves the whole run without a packet.** -/
theorem Sound.silenced {t : ℚ} (h : r.Sound loads job t) (hon : ofKind .on (packets r.trace) = []) {call : SirenCall}
    (hcall : call = .cancel ∨ call = .sendFailed) (hnow : t ≤ now) {after : List (ℚ × SirenCall)}
    (hclock : Clocked now after) :
    packets (Machine.run (SirenRun.step loads) (r.step loads now call) after).trace = [] := by
  have hstarted : r.world.job.started = false := by
    by_contra hs
    have hons := h.traced.ons
    rw [hon, if_pos (by simpa using hs)] at hons
    cases hons
  have hfirst : (r.step loads now call).Sound loads job now ∧ Silenced (r.step loads now call).world := by
    refine ⟨h.step hnow call, ?_⟩
    rcases hcall with rfl | rfl <;> exact ⟨rfl, hstarted⟩
  have hrun := @Machine.run_inv _ _ _ (fun t (r : SirenRun) => r.Sound loads job t ∧ Silenced r.world)
    (fun call _ hnow hs => ⟨hs.1.step hnow call, hs.2.step (hs.1.resources.later hnow) call⟩) _ _ _ hclock hfirst
  exact hrun.1.traced.silent hrun.2.2

/-! ## Construction -/

/-- One request for every sequence, each of a size that fits a slot. -/
theorem buildWires_ok {node : CertifiedNode} {device : Nat} {sequences : List Nat} {draws : List ReadDraws}
    {wires : List Bytes} (h : SirenOffProbe.buildWires node device sequences draws = .ok wires)
    (hlen : sequences.length = draws.length) :
    wires.length = sequences.length ∧ ∀ wire ∈ wires, 1 ≤ wire.length ∧ wire.length ≤ 4096 := by
  induction sequences generalizing draws wires with
  | nil =>
    cases h
    exact ⟨rfl, by simp⟩
  | cons sequence sequences ih =>
    cases draws with
    | nil => cases hlen
    | cons draw draws =>
      unfold SirenOffProbe.buildWires at h
      split at h
      · cases h
      next wire hwire =>
      split at h
      · cases h
      next rest hrest =>
      cases h
      obtain ⟨hcount, hsize⟩ := ih hrest (by simpa using hlen)
      refine ⟨by simp [hcount], fun other hother => ?_⟩
      rcases List.mem_cons.mp hother with rfl | hother
      · exact buildModelRead_length hwire
      · exact hsize other hother

theorem build_ok {node : CertifiedNode} {generation : Nat} {spec : SirenPulseSpec} {draws : SirenDraws} {token : Nat}
    {admission : ℚ} {ids : List Nat} (hids : ids.length = 5)
    (h : SirenPulseJob.build node generation spec draws token admission ids = .ok job) :
    job.node.sessionKey.length = 32 ∧ job.on.length = 75 ∧ job.off.length = 75 ∧ job.token = token ∧
      (job.probe.wires.length = 3 ∧ ∀ wire ∈ job.probe.wires, 1 ≤ wire.length ∧ wire.length ≤ 4096) ∧
      job.started = false ∧ job.result = none ∧ job.offs = 0 ∧ job.receipts = 0 ∧ job.probe.index = 0 ∧
      job.offError = none ∧ job.probe.state = none ∧ job.probe.invalid = false := by
  unfold SirenPulseJob.build at h
  split at h
  · next onSeq offSeq readSequences =>
    split at h
    · cases h
    next probe hprobe =>
    simp only at h
    split at h
    · cases h
    next on hon =>
    split at h
    · cases h
    next off hoff =>
    cases h
    have hreads : readSequences.length = 3 := by simpa using hids
    unfold SirenOffProbe.new at hprobe
    split at hprobe
    · cases hprobe
    next wires hwires =>
    cases hprobe
    obtain ⟨hcount, hsize⟩ := buildWires_ok hwires (by simp [hreads])
    obtain ⟨hkey, honLength⟩ := buildSirenAction_length hon
    exact ⟨hkey, honLength, (buildSirenAction_length hoff).2, rfl, ⟨hcount.trans hreads, hsize⟩, rfl, rfl, rfl, rfl, rfl,
      rfl, rfl, rfl⟩
  · cases h

/-- **A job that was built is sound.** -/
theorem new_sound (loads : Loads) {node : CertifiedNode} {source source' : BrokerSequences}
    {output output' : AccountOutputBudget} {spec : SirenPulseSpec} {generation : Nat} {draws : SirenDraws}
    {admitUntil : Option ℚ} {t : ℚ} (hreached : output.Reached t)
    (h : SirenPulseJob.new node source output spec generation draws admitUntil t = (.ok job, output', source')) :
    Sound loads job t ⟨⟨output', source', job⟩, []⟩ := by
  obtain ⟨hhonours, hlast⟩ := hreached.honours
  unfold SirenPulseJob.new at h
  simp only at h
  split at h
  · cases h
  split at h
  · cases h
  next token granted hgrant =>
  obtain ⟨hslots, htoken⟩ := AccountOutputBudget.reserveSiren_granted hgrant
  have hkept := hhonours.reserveSiren hlast
  rw [hgrant] at hkept
  split at h
  · cases h
  next ids source'' hids =>
  split at h
  · cases h
  next job' hbuild =>
  cases h
  have hcount : ids.length = 5 := by
    unfold BrokerSequences.reserve at hids
    split at hids
    · cases hids
    split at hids
    · cases hids
    split at hids
    · cases hids
    · cases hids
      exact List.length_range'
  obtain ⟨hkey, hon, hoff, rfl, hreads, hstarted, hresult, hoffs, hreceipts, hindex, herror, hstate, hvalid⟩ :=
    build_ok hcount hbuild
  exact {
    resources := {
      key := hkey
      wires := fun _ => ⟨hon, hoff⟩
      reads := hreads
      honours := hkept.1
      last := hkept.2
      token := htoken
      held := fun _ => ⟨sirenSlots, hslots, by simp [hstarted, sirenSlots], by simp [hoffs, sirenSlots],
        by simp [hindex, sirenSlots], by simp [hreceipts, sirenSlots]⟩
      offs_le := by simp [hoffs]
      reads_le := by simp [hindex]
      receipts_le := by simp [hreceipts]
      unstarted := fun _ => ⟨hoffs, hreceipts⟩
      unstopped := fun _ => ⟨herror, hindex⟩
      result := fun r hr => by
        rw [hresult] at hr
        cases hr }
    traced := {
      clean := fun e he => by cases he
      identity := rfl
      token := rfl
      wire := fun _ => rfl
      ons := by simp [hstarted, packets, ofKind]
      offs := by simp [hoffs, packets, ofKind]
      reads := by simp [hindex, packets, ofKind]
      receipts := by simp [hreceipts, packets, ofKind]
      silent := fun _ => rfl
      offTime := fun hnot => absurd hoffs hnot }
    evidenced := fun _ => ⟨herror, by rw [hstate, hvalid]; rfl⟩ }

/-! ## Safety -/

/-- What a run of `job` that has come to `r` shows. -/
structure Safe (job : SirenPulseJob) (r : SirenRun) : Prop where
  on_once : (ofKind .on (packets r.trace)).length ≤ 1
  off_twice : (ofKind .off (packets r.trace)).length ≤ 2
  off_same : ∀ p ∈ ofKind .off (packets r.trace), p.wire = job.off
  off_attempted : ∀ res, r.world.job.result = some res → res.startAttempted →
    1 ≤ res.offAttempts ∧ res.offAttempts = (ofKind .off (packets r.trace)).length
  within : ∀ kind, (ofKind kind (packets r.trace)).length ≤ sirenSlots kind
  charged : ∀ e ∈ r.trace, ∀ fault, e.out ≠ .error (.output fault)

theorem Sound.safe {t : ℚ} (h : r.Sound loads job t) : r.Safe job := by
  have hons : (ofKind .on (packets r.trace)).length ≤ 1 := by
    rw [h.traced.ons]
    split <;> simp
  have hoffs : (ofKind .off (packets r.trace)).length = r.world.job.offs := by
    rw [h.traced.offs, List.length_replicate]
  have htwice := h.resources.offs_le
  exact {
    on_once := hons
    off_twice := by rw [hoffs]; exact htwice
    off_same := by
      intro p hp
      rw [h.traced.offs] at hp
      rw [List.eq_of_mem_replicate hp]
    off_attempted := by
      intro res hres hstarted
      obtain ⟨hs, hattempts, hone⟩ := h.resources.result res hres
      rw [hs] at hstarted
      rw [hattempts, hoffs]
      exact ⟨hone hstarted, rfl⟩
    within := by
      intro kind
      cases kind with
      | on => exact hons
      | off => rw [hoffs]; exact htwice
      | read => rw [h.traced.reads]; exact h.resources.reads_le
      | receipt => rw [h.traced.receipts]; exact h.resources.receipts_le
    charged := by
      intro e he fault hfault
      rcases h.traced.clean e he with ⟨out, hout⟩ | ⟨plain, peer, generation, gute, -, hout⟩
      · rw [hfault] at hout
        cases hout
      · rw [hfault] at hout
        cases hout }

end SirenRun

end CamGuard.Account
