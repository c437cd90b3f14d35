/-
PTZ motor safety: one START, at most three identical RELEASEs after it, a
RELEASE at the first poll once the movement is over and the RELEASE can be
tracked, no confirmation against the evidence, and an output reserve that is kept
until the gesture is settled.

`Polled` says everything a poll can do while the reserve holds the job's slots
(`Resources`), so that no charge fails; a poll fails only if it is `Stuck`. From them one invariant for the resources
(`Resources`), one for the trace (`Traced`) and one for the evidence
(`Evidenced`) are shown step by step and carried over a run.
-/
import CamGuard.Account.BudgetFacts
import CamGuard.Account.PtzScheduler

namespace CamGuard.Account

open AccountOutputBudget (Charged)

/-! ## Jobs -/

/-- What is fixed when a job is built. -/
structure PtzIdentity where
  node : CertifiedNode
  generation : Nat
  access : Nat
  device : Nat
  correlation : ReleaseCorrelation
  start : Bytes
  release : Bytes

def PtzScheduler.identity (j : PtzScheduler) : PtzIdentity where
  node := j.node
  generation := j.generation
  access := j.access
  device := j.device
  correlation := j.commands.releaseCorrelation
  start := j.commands.start
  release := j.commands.release

/-- What construction has checked. -/
structure PtzIdentity.WellFormed (i : PtzIdentity) : Prop where
  key : i.node.sessionKey.length = 32
  generation : 1 ≤ i.generation
  access : 1 ≤ i.access ∧ i.access < 2 ^ 64
  device : 1 ≤ i.device ∧ i.device < 2 ^ 64
  sequence : i.correlation.sequence < 2 ^ 32
  message : i.correlation.message < 2 ^ 31
  request : i.correlation.request < 2 ^ 32
  start : i.start.length = 101
  release : i.release.length = 101

/-- The tracking is of this RELEASE, until this deadline. -/
structure ReleaseDelivery.Pinned (d : ReleaseDelivery) (i : PtzIdentity) (deadline : ℚ) : Prop where
  node : d.node = i.node
  generation : d.generation = i.generation
  access : d.access = i.access
  device : d.device = i.device
  correlation : d.correlation = i.correlation
  deadline : d.deadline = deadline

namespace PtzWorld

/-- The job's share of the account, and its own counters. -/
structure Resources (t : ℚ) (w : PtzWorld) : Prop where
  nonneg : 0 ≤ t
  job : w.job.identity.WellFormed
  honours : w.output.Honours
  last : w.output.traffic.last ≤ t
  token : w.job.token < w.output.nextToken
  held : w.job.Unsettled → ∃ slots, slotsOf w.output.ptz w.job.token = some slots ∧
    slots .start = (if w.job.started then 0 else 1) ∧ slots .release + w.job.releases = 3 ∧
    (w.job.receiptPrepared = false → slots .receipt = 2)
  closed : ¬ w.job.Unsettled → slotsOf w.output.ptz w.job.token = none
  started : w.job.commands.started = w.job.started
  attempts : w.job.commands.releaseAttempts = w.job.releases
  releases_le : w.job.releases ≤ 3
  untracked : w.job.delivery = none → w.job.releases = 0 ∧ w.job.retryAt = 0 ∧ w.job.settleUntil = none
  tracked : ∀ d, w.job.delivery = some d → w.job.started ∧ 1 ≤ w.job.releases ∧ d.Pinned w.job.identity w.job.releaseUntil
  result : ∀ r, w.job.result = some r → r.startAttempted = w.job.started ∧ r.releaseAttempts = w.job.releases ∧
    (w.job.started → w.job.delivery.isSome) ∧ (r.releaseDeliveryConfirmed → r.startAttempted)

variable {w : PtzWorld} {now : ℚ}

theorem Resources.later {t : ℚ} (h : w.Resources t) (ht : t ≤ now) : w.Resources now :=
  { h with nonneg := le_trans h.nonneg ht, last := le_trans h.last ht }

theorem unsettled_of_none {j : PtzScheduler} (h : j.result = none) : j.Unsettled := by
  intro r hr
  rw [h] at hr
  cases hr

/-- **A charge on a slot the job has left goes through.** -/
theorem charge_ok (hh : w.output.Honours) (hl : w.output.traffic.last ≤ now) {slots : Slots PtzKind}
    (hheld : slotsOf w.output.ptz w.job.token = some slots) (kind : PtzKind) (hslot : slots kind ≠ 0) (size : Nat)
    (hpos : 1 ≤ size) (hsize : size ≤ 4096) :
    ∃ output, w.charge now kind size = (.ok (), { w with output := output }) ∧
      Charged AccountOutputBudget.ptz w.output output w.job.token kind now := by
  obtain ⟨output, heq, hcharged⟩ := hh.chargePtz_ok hl hheld hslot hpos hsize
  exact ⟨output, by rw [PtzWorld.charge, heq], hcharged⟩

/-! ## What a poll can do -/

/-- The tracking of the first RELEASE. -/
def freshDelivery (j : PtzScheduler) (deadline : ℚ) : ReleaseDelivery where
  node := j.node
  generation := j.generation
  access := j.access
  device := j.device
  correlation := j.commands.releaseCorrelation
  deadline := deadline

/-- The packets of a poll of `w` at `now`, and the world after it. -/
inductive Polled [Rounding] (w : PtzWorld) (now : ℚ) : List PtzPacket → PtzWorld → Prop
  | done : w.job.result.isSome → Polled w now [] w
  | refused (commands : ReservedPtzCommands) (reason : String) :
    w.job.result = none → w.job.started = false →
    (commands = w.job.commands ∨ commands = w.job.commands.cancelStart) →
    Polled w now [] (finish { w with job := { w.job with commands := commands } } reason)
  | start (output : AccountOutputBudget) :
    w.job.result = none → w.job.started = false → w.job.cancelled = false →
    Charged AccountOutputBudget.ptz w.output output w.job.token .start now →
    Polled w now [⟨.start, w.job.commands.start⟩] { w with
      output := output
      job := { w.job with
        commands := { w.job.commands with started := true }
        started := true
        moveUntil := Rounding.round (now + w.job.duration) } }
  | moving : w.job.result = none → w.job.started → w.job.delivery = none → w.job.cancelled = false →
    now < w.job.moveUntil → Polled w now [] w
  | release (output : AccountOutputBudget) :
    w.job.result = none → w.job.started → w.job.delivery = none → (w.job.cancelled ∨ w.job.moveUntil ≤ now) →
    PtzTrace.InWindow now →
    Charged AccountOutputBudget.ptz w.output output w.job.token .release now →
    Polled w now [⟨.release, w.job.commands.release⟩] { w with
      output := output
      job := { w.job with
        releaseUntil := Rounding.round (now + 2)
        delivery := some (freshDelivery w.job (Rounding.round (now + 2)))
        commands := { w.job.commands with releaseAttempts := w.job.commands.releaseAttempts + 1 }
        releases := w.job.releases + 1
        retryAt := Rounding.round (now + 1 / 2) } }
  | waiting (d : ReleaseDelivery) : w.job.result = none → w.job.delivery = some d → Polled w now [] w
  | again (d : ReleaseDelivery) (output : AccountOutputBudget) :
    w.job.result = none → w.job.delivery = some d → w.job.releases < 3 →
    Charged AccountOutputBudget.ptz w.output output w.job.token .release now →
    Polled w now [⟨.release, w.job.commands.release⟩] { w with
      output := output
      job := { w.job with
        commands := { w.job.commands with releaseAttempts := w.job.commands.releaseAttempts + 1 }
        releases := w.job.releases + 1
        retryAt := Rounding.round (now + 1 / 2) } }
  | released (d : ReleaseDelivery) :
    w.job.result = none → w.job.delivery = some d → d.confirmed → Polled w now [] (w.finish "released" true)
  | unconfirmed (d : ReleaseDelivery) :
    w.job.result = none → w.job.delivery = some d → Polled w now [] (w.finish "release_unconfirmed")

/-- The poll of `w` at `now` fails: a RELEASE is due and cannot be tracked. -/
structure Stuck [Rounding] (w : PtzWorld) (now : ℚ) : Prop where
  result : w.job.result = none
  started : w.job.started = true
  delivery : w.job.delivery = none
  due : w.job.cancelled ∨ w.job.moveUntil ≤ now
  window : ¬ PtzTrace.InWindow now

theorem nextStart_polled [Rounding] (h : w.Resources now) (hres : w.job.result = none) (hstarted : w.job.started = false) :
    ∃ packets w', w.nextStart now = (.ok packets, w') ∧ Polled w now packets w' := by
  unfold PtzWorld.nextStart
  split
  · exact ⟨_, _, rfl, .refused _ _ hres hstarted (.inr rfl)⟩
  next hgo =>
  rw [not_or] at hgo
  unfold ReservedPtzCommands.takeStart
  split
  · next hcommands =>
    split at hcommands
    · cases hcommands
      exact ⟨_, _, rfl, .refused _ _ hres hstarted (.inl rfl)⟩
    · cases hcommands
  · next wire commands hcommands =>
    split at hcommands
    · cases hcommands
    cases hcommands
    obtain ⟨slots, hheld, hslot, -, -⟩ := h.held (unsettled_of_none hres)
    rw [hstarted] at hslot
    have hsize : w.job.commands.start.length = 101 := h.job.start
    obtain ⟨output, heq, hcharged⟩ := charge_ok (w := { w with job := { w.job with
      commands := { w.job.commands with started := true } } }) h.honours h.last hheld .start (by rw [hslot]; decide)
      w.job.commands.start.length (by omega) (by omega)
    rw [heq]
    exact ⟨_, _, rfl, .start output hres hstarted (by simpa using hgo.1) hcharged⟩

theorem takeRelease_ok {c : ReservedPtzCommands} (hstarted : c.started = true) (hattempts : c.releaseAttempts < 3) :
    c.takeRelease = (.ok c.release, { c with releaseAttempts := c.releaseAttempts + 1 }) := by
  rw [ReservedPtzCommands.takeRelease, if_neg]
  rw [hstarted]
  simp only [Bool.true_eq_false, false_or]
  omega

theorem nextRelease_polled [Rounding] (h : w.Resources now) (hres : w.job.result = none) {d : ReleaseDelivery}
    (hd : w.job.delivery = some d) : ∃ packets w', w.nextRelease now d = (.ok packets, w') ∧ Polled w now packets w' := by
  unfold PtzWorld.nextRelease
  split
  · next hconf => exact ⟨_, _, rfl, .released d hres hd hconf.1⟩
  split
  · exact ⟨_, _, rfl, .unconfirmed d hres hd⟩
  split
  · exact ⟨_, _, rfl, .waiting d hres hd⟩
  next hgo =>
  have hreleases : w.job.releases < 3 := by
    by_contra hmany
    exact hgo (.inr (.inl (by omega)))
  obtain ⟨slots, hheld, -, hslot, -⟩ := h.held (unsettled_of_none hres)
  have hsize : w.job.commands.release.length = 101 := h.job.release
  have hattempts := h.attempts
  rw [takeRelease_ok (by rw [h.started]; exact (h.tracked d hd).1) (by omega)]
  obtain ⟨output, heq, hcharged⟩ := charge_ok (w := { w with job := { w.job with
    commands := { w.job.commands with releaseAttempts := w.job.commands.releaseAttempts + 1 } } }) h.honours h.last hheld
    .release (by omega) w.job.commands.release.length (by omega) (by omega)
  simp only [heq]
  exact ⟨_, _, rfl, .again d output hres hd hreleases hcharged⟩

/-- The first RELEASE is tracked from the poll that gives it, if its lifetime is one. -/
theorem freshDelivery_eq [Rounding] {j : PtzScheduler} (h : j.identity.WellFormed) (deadline now : ℚ) :
    ReleaseDelivery.new j.node j.generation j.access j.device j.commands.releaseCorrelation deadline now =
      if Rounding.round (deadline - now) ≤ 0 ∨ 2 < Rounding.round (deadline - now) then .error .lifetime
      else .ok (freshDelivery j deadline) := by
  have hgeneration : ¬ j.generation < 1 := not_lt.mpr h.generation
  have haccess : ¬ j.access < 1 ∧ ¬ 2 ^ 64 ≤ j.access := ⟨not_lt.mpr h.access.1, not_le.mpr h.access.2⟩
  have hdevice : ¬ j.device < 1 ∧ ¬ 2 ^ 64 ≤ j.device := ⟨not_lt.mpr h.device.1, not_le.mpr h.device.2⟩
  have hsequence : ¬ 2 ^ 32 ≤ j.commands.releaseCorrelation.sequence := not_le.mpr h.sequence
  have hmessage : ¬ 2 ^ 31 ≤ j.commands.releaseCorrelation.message := not_le.mpr h.message
  have hrequest : ¬ 2 ^ 32 ≤ j.commands.releaseCorrelation.request := not_le.mpr h.request
  simp only [ReleaseDelivery.new, hgeneration, haccess, hdevice, hsequence, hmessage, hrequest, false_or]
  rfl

/-- **A poll fails only if it is stuck, and this is all it can do.** -/
theorem nextPacket_polled [Rounding] (h : w.Resources now) :
    (∃ packets w', w.nextPacket now = (.ok packets, w') ∧ Polled w now packets w') ∨
      Stuck w now ∧ w.nextPacket now =
        (.error .lifetime, { w with job := { w.job with releaseUntil := Rounding.round (now + 2) } }) := by
  unfold PtzWorld.nextPacket
  split
  · next hdone => exact .inl ⟨_, _, rfl, .done hdone⟩
  next hres =>
  have hres : w.job.result = none := by simpa using hres
  split
  · next hstarted => exact .inl (nextStart_polled h hres hstarted)
  next hstarted =>
  have hstarted : w.job.started = true := by simpa using hstarted
  split
  · next d hd => exact .inl (nextRelease_polled h hres hd)
  next hd =>
  split
  · next hmove => exact .inl ⟨_, _, rfl, .moving hres hstarted hd hmove.1 hmove.2⟩
  next hdue =>
  have hdue : w.job.cancelled ∨ w.job.moveUntil ≤ now := by
    by_contra hnot
    rw [not_or, not_le] at hnot
    exact hdue ⟨by simpa using hnot.1, hnot.2⟩
  simp only [freshDelivery_eq h.job]
  by_cases hwindow : PtzTrace.InWindow now
  · left
    rw [if_neg (not_or.mpr ⟨not_le.mpr hwindow.1, not_lt.mpr hwindow.2⟩)]
    obtain ⟨hzero, hretry, hsettle⟩ := h.untracked hd
    obtain ⟨slots, hheld, -, hslot, -⟩ := h.held (unsettled_of_none hres)
    have hsize : w.job.commands.release.length = 101 := h.job.release
    have hattempts := h.attempts
    have hnow := h.nonneg
    -- The fresh tracking has seen nothing, and its two seconds are still to come.
    have hlater : ¬ Rounding.round (now + 2) ≤ now := by
      have := Rounding.pos_of_round_pos hwindow.1
      rw [not_le]
      linarith
    unfold PtzWorld.nextRelease
    simp only
    rw [if_neg (by simp [freshDelivery, ReleaseDelivery.confirmed]), if_neg hlater,
      if_neg (by simp [freshDelivery, ReleaseDelivery.confirmed, hzero, hretry, hnow])]
    simp only [takeRelease_ok (c := w.job.commands) (by rw [h.started]; exact hstarted) (by omega)]
    obtain ⟨output, heq, hcharged⟩ := charge_ok (w := { w with job := { w.job with
      releaseUntil := Rounding.round (now + 2)
      delivery := some (freshDelivery w.job (Rounding.round (now + 2)))
      commands := { w.job.commands with releaseAttempts := w.job.commands.releaseAttempts + 1 } } }) h.honours h.last
      hheld .release (by omega) w.job.commands.release.length (by omega) (by omega)
    exact ⟨_, _, by rw [heq], .release output hres hstarted hd hdue hwindow hcharged⟩
  · right
    have hrefused : Rounding.round (Rounding.round (now + 2) - now) ≤ 0 ∨
        2 < Rounding.round (Rounding.round (now + 2) - now) := by
      by_contra hnot
      rw [not_or, not_le, not_lt] at hnot
      exact hwindow hnot
    rw [if_pos hrefused]
    exact ⟨⟨hres, hstarted, hd, hdue, hwindow⟩, rfl⟩

/-! ## What an observation can do -/

/-- Charges on the receipt slots alone. -/
structure Receipted (b b' : AccountOutputBudget) (token : Nat) (now : ℚ) : Prop where
  honours : b'.Honours
  last : b'.traffic.last ≤ now
  slots : ∀ slots, slotsOf b.ptz token = some slots → ∃ slots', slotsOf b'.ptz token = some slots' ∧
    slots' .start = slots .start ∧ slots' .release = slots .release
  next : b'.nextToken = b.nextToken

theorem sendReceipts_ok (hh : w.output.Honours) (hl : w.output.traffic.last ≤ now) {slots : Slots PtzKind}
    (hheld : slotsOf w.output.ptz w.job.token = some slots) {wires : List Bytes} (hmany : wires.length ≤ slots .receipt)
    (hsize : ∀ wire ∈ wires, 1 ≤ wire.length ∧ wire.length ≤ 4096) :
    ∃ packets output, w.sendReceipts now wires = (.ok packets, { w with output := output }) ∧
      (∀ p ∈ packets, p.kind = .receipt) ∧ Receipted w.output output w.job.token now := by
  induction wires generalizing w slots with
  | nil => exact ⟨[], w.output, rfl, by simp, hh, hl, fun own hown => ⟨own, hown, rfl, rfl⟩, rfl⟩
  | cons wire wires ih =>
    obtain ⟨hpos, hmax⟩ := hsize wire (by simp)
    have hslot : slots .receipt ≠ 0 := by
      simp only [List.length_cons] at hmany
      omega
    obtain ⟨output, heq, hcharged⟩ := charge_ok hh hl hheld .receipt hslot wire.length hpos hmax
    have hheld' := hcharged.slots slots hheld
    obtain ⟨packets, output', heq', hkinds, hrest⟩ := ih (w := { w with output := output }) hcharged.honours
      hcharged.last hheld' (by rw [Function.update_self]; simp only [List.length_cons] at hmany; omega)
      (fun wire' hwire' => hsize wire' (by simp [hwire']))
    refine ⟨⟨.receipt, wire⟩ :: packets, output', ?_, ?_, hrest.honours, hrest.last, ?_, ?_⟩
    · simp only [PtzWorld.sendReceipts, heq, heq']
    · intro p hp
      rcases List.mem_cons.mp hp with rfl | hp
      · rfl
      · exact hkinds p hp
    · intro own hown
      obtain ⟨slots', hslots', hstart, hrelease⟩ := hrest.slots _ (hcharged.slots own hown)
      refine ⟨slots', hslots', ?_, ?_⟩
      · rw [hstart, Function.update_of_ne (by decide)]
      · rw [hrelease, Function.update_of_ne (by decide)]
    · rw [hrest.next, hcharged.next]

theorem receiptWires_ok {node : CertifiedNode} (hkey : node.sessionKey.length = 32) {plain : Bytes}
    (h : Receiptable node plain) (receiptSequence noise : Nat) :
    ∃ wires, receiptWires node receiptSequence plain noise = .ok wires ∧ wires.length ≤ 2 ∧
      ∀ wire ∈ wires, 1 ≤ wire.length ∧ wire.length ≤ 4096 := by
  obtain ⟨receipt, hreceipt, hlen⟩ := buildPtzReceipt_ok hkey h receiptSequence noise
  obtain ⟨ack, hack, hacklen⟩ := buildMode2ResponseAck_ok node hkey plain
  unfold receiptWires
  by_cases hasks : (plain.field 4 20 >>> 18) &&& 3 ≠ 0
  · refine ⟨[ack, receipt], ?_, by simp, ?_⟩
    · simp only [if_pos hasks, hack, Except.mapError, Except.map, hreceipt, List.singleton_append]
    · simp only [List.mem_cons, List.not_mem_nil, or_false]
      rintro wire (rfl | rfl) <;> omega
  · refine ⟨[receipt], ?_, by simp, ?_⟩
    · simp only [if_neg hasks, hreceipt, List.nil_append]
    · simp only [List.mem_cons, List.not_mem_nil, or_false]
      rintro wire rfl
      omega

/-- The packets of an observation, and the world after it. -/
inductive Observed (loads : Loads) (w : PtzWorld) (plain : Bytes) (peer : String × Nat) (generation : Nat) (now : ℚ) :
    List PtzPacket → PtzWorld → Prop
  | ignored : w.job.delivery = none ∨ w.job.result.isSome → Observed loads w plain peer generation now [] w
  | looked (d : ReleaseDelivery) (settle : Option ℚ) : w.job.result = none → w.job.delivery = some d →
    Observed loads w plain peer generation now [] { w with job := { w.job with
      delivery := some (d.observe loads plain peer generation now).2
      settleUntil := settle } }
  | answered (d : ReleaseDelivery) (settle : Option ℚ) (packets : List PtzPacket) (output : AccountOutputBudget) :
    w.job.result = none → w.job.delivery = some d → (∀ p ∈ packets, p.kind = .receipt) →
    Receipted w.output output w.job.token now →
    Observed loads w plain peer generation now packets { w with
      output := output
      job := { w.job with
        delivery := some (d.observe loads plain peer generation now).2
        settleUntil := settle
        receiptPrepared := true } }

/-- The tracking passes on what the codec found, in frames of its own session. -/
theorem observe_reply {loads : Loads} {d : ReleaseDelivery} {plain : Bytes} {peer : String × Nat} {generation : Nat}
    {reply : PtzReply} (h : (d.observe loads plain peer generation now).1 = some reply) :
    parsePtzReply loads plain d.node d.access d.device d.correlation.sequence d.correlation.message
      d.correlation.request = some reply := by
  unfold ReleaseDelivery.observe at h
  split at h
  · cases h
  split at h
  · cases h
  simp only at h
  split at h
  · cases h
  split at h
  · cases h
  next found hfound =>
  split at h
  · cases h
    exact hfound
  · cases h
    exact hfound

/-- **No observation fails, and this is all it can do.** -/
theorem observe_observed [Rounding] (loads : Loads) (h : w.Resources now) (plain : Bytes) (peer : String × Nat)
    (generation noise : Nat) :
    ∃ packets w', w.observe loads plain peer generation noise now = (.ok packets, w') ∧
      Observed loads w plain peer generation now packets w' := by
  unfold PtzWorld.observe
  split
  · next hd => exact ⟨_, _, rfl, .ignored (.inl hd)⟩
  next d hd =>
  obtain ⟨-, hreleases, hpinned⟩ := h.tracked d hd
  split
  · next hskip =>
    rcases hskip with hres | hzero
    · exact ⟨_, _, rfl, .ignored (.inr hres)⟩
    · omega
  next hgo =>
  have hres : w.job.result = none := by
    rw [not_or] at hgo
    simpa using hgo.1
  simp only
  split
  · exact ⟨_, _, rfl, .looked d _ hres hd⟩
  next hanswer =>
  rw [not_or] at hanswer
  obtain ⟨err, herr⟩ : ∃ err, (d.observe loads plain peer generation now).1.bind PtzReply.errorCode = some err :=
    Option.ne_none_iff_exists'.mp fun hnone => hanswer.1 (Option.isNone_iff_eq_none.mpr hnone)
  obtain ⟨reply, hreply, herr⟩ := Option.bind_eq_some_iff.mp herr
  have hreceiptable : Receiptable w.job.node plain := by
    have hnode : d.node = w.job.node := hpinned.node
    rw [← hnode]
    rcases parsePtzReply_cases (observe_reply hreply) with ⟨rfl, -⟩ | ⟨rfl, -⟩ | ⟨_, -, -, hr⟩
    · cases herr
    · cases herr
    · exact hr
  have hkey : w.job.node.sessionKey.length = 32 := h.job.key
  obtain ⟨wires, hwires, hmany, hsizes⟩ := receiptWires_ok hkey hreceiptable w.job.commands.receiptSequence noise
  obtain ⟨slots, hheld, -, -, hslot⟩ := h.held (unsettled_of_none hres)
  have hprepared : w.job.receiptPrepared = false := by simpa using hanswer.2
  rw [hwires]
  obtain ⟨packets, output, heq, hkinds, hcharged⟩ := sendReceipts_ok (w := { w with job := { w.job with
    delivery := some (d.observe loads plain peer generation now).2
    settleUntil := if (d.observe loads plain peer generation now).2.confirmed then
      some (w.job.settleUntil.getD (Rounding.round (now + Rounding.round (1 / 50)))) else none
    receiptPrepared := true } }) h.honours h.last hheld (by rw [hslot hprepared]; exact hmany) hsizes
  exact ⟨_, _, heq, .answered d _ packets output hres hd hkinds hcharged⟩

/-! ## The resources -/

/-- A result that is `released`, or that is of no START, settles the job. -/
theorem Resources.finish (h : w.Resources now) (hres : w.job.result = none) (reason : String) (confirmed : Bool)
    (hdelivery : w.job.started → w.job.delivery.isSome) (hconfirmed : confirmed → w.job.started) :
    (w.finish reason confirmed).Resources now := by
  have hunsettled : (w.finish reason confirmed).job.Unsettled ↔ w.job.started ∧ confirmed = false := by
    simp [PtzScheduler.Unsettled, PtzWorld.finish]
  by_cases hclose : confirmed ∨ w.job.started = false
  · have hsettled : ¬ (w.finish reason confirmed).job.Unsettled := by
      rw [hunsettled]
      rintro ⟨hs, hc⟩
      rcases hclose with hclose | hclose
      · rw [hc] at hclose; cases hclose
      · rw [hs] at hclose; cases hclose
    have houtput : (w.finish reason confirmed).output = w.output.closePtz w.job.token := if_pos hclose
    exact {
      nonneg := h.nonneg
      job := h.job
      honours := by rw [houtput]; exact h.honours.closePtz _
      last := by
        rw [houtput, AccountOutputBudget.closePtz]
        split <;> exact h.last
      token := by
        rw [houtput, AccountOutputBudget.closePtz]
        split <;> exact h.token
      held := fun hun => absurd hun hsettled
      closed := fun _ => by rw [houtput]; exact AccountOutputBudget.slotsOf_closePtz _ _
      started := h.started
      attempts := h.attempts
      releases_le := h.releases_le
      untracked := h.untracked
      tracked := h.tracked
      result := by
        intro r hr
        cases hr
        exact ⟨rfl, rfl, hdelivery, hconfirmed⟩ }
  · have houtput : (w.finish reason confirmed).output = w.output := if_neg hclose
    have hun : (w.finish reason confirmed).job.Unsettled := by
      rw [hunsettled]
      rw [not_or] at hclose
      exact ⟨by simpa using hclose.2, by simpa using hclose.1⟩
    exact {
      nonneg := h.nonneg
      job := h.job
      honours := by rw [houtput]; exact h.honours
      last := by rw [houtput]; exact h.last
      token := by rw [houtput]; exact h.token
      held := fun _ => by rw [houtput]; exact h.held (unsettled_of_none hres)
      closed := fun hnot => absurd hun hnot
      started := h.started
      attempts := h.attempts
      releases_le := h.releases_le
      untracked := h.untracked
      tracked := h.tracked
      result := by
        intro r hr
        cases hr
        exact ⟨rfl, rfl, hdelivery, hconfirmed⟩ }

theorem Resources.polled [Rounding] (h : w.Resources now) {packets : List PtzPacket} {w' : PtzWorld}
    (hp : Polled w now packets w') : w'.Resources now := by
  cases hp with
  | done _ => exact h
  | moving _ _ _ _ _ => exact h
  | waiting d _ _ => exact h
  | refused commands reason hres hstarted hcommands =>
    have hkeep : Resources now { w with job := { w.job with commands := commands } } := by
      rcases hcommands with rfl | rfl
      · exact h
      · exact { h with }
    exact hkeep.finish hres reason false (fun hs => by rw [hstarted] at hs; cases hs) (by simp)
  | start output hres hstarted hcancel hcharged =>
    have hun := unsettled_of_none hres
    obtain ⟨slots, hheld, hstart, hrelease, hreceipt⟩ := h.held hun
    obtain ⟨slots', hheld', hkind, hother⟩ := hcharged.held hheld
    have hnone : w.job.delivery = none := by
      by_contra hsome
      obtain ⟨d, hd⟩ := Option.ne_none_iff_exists'.mp hsome
      rw [(h.tracked d hd).1] at hstarted
      cases hstarted
    exact { h with
      honours := hcharged.honours
      last := hcharged.last
      token := by rw [hcharged.next]; exact h.token
      held := fun _ => ⟨slots', hheld', by rw [hkind, hstart, hstarted]; rfl,
        by rw [hother .release (by decide)]; exact hrelease, fun hr => by rw [hother .receipt (by decide), hreceipt hr]⟩
      closed := fun hnot => absurd hun hnot
      started := rfl
      tracked := fun d hd => by
        simp only [hnone] at hd
        cases hd
      result := fun r hr => by
        simp only [hres] at hr
        cases hr }
  | release output hres hstarted hd hdue hwindow hcharged =>
    have hun := unsettled_of_none hres
    obtain ⟨slots, hheld, hstart, hrelease, hreceipt⟩ := h.held hun
    obtain ⟨slots', hheld', hkind, hother⟩ := hcharged.held hheld
    have hzero := (h.untracked hd).1
    exact { h with
      honours := hcharged.honours
      last := hcharged.last
      token := by rw [hcharged.next]; exact h.token
      held := fun _ => ⟨slots', hheld', by rw [hother .start (by decide)]; exact hstart,
        by rw [hkind]; simp only; omega, fun hr => by rw [hother .receipt (by decide), hreceipt hr]⟩
      closed := fun hnot => absurd hun hnot
      attempts := by simp only [h.attempts]
      releases_le := by simp only [hzero]; decide
      untracked := fun hnone => by cases hnone
      tracked := fun d hd => by
        cases hd
        exact ⟨hstarted, Nat.succ_pos _, rfl, rfl, rfl, rfl, rfl, rfl⟩
      result := fun r hr => by
        simp only [hres] at hr
        cases hr }
  | again d output hres hd hreleases hcharged =>
    have hun := unsettled_of_none hres
    obtain ⟨slots, hheld, hstart, hrelease, hreceipt⟩ := h.held hun
    obtain ⟨slots', hheld', hkind, hother⟩ := hcharged.held hheld
    exact { h with
      honours := hcharged.honours
      last := hcharged.last
      token := by rw [hcharged.next]; exact h.token
      held := fun _ => ⟨slots', hheld', by rw [hother .start (by decide)]; exact hstart,
        by rw [hkind]; simp only; omega, fun hr => by rw [hother .receipt (by decide), hreceipt hr]⟩
      closed := fun hnot => absurd hun hnot
      attempts := by simp only [h.attempts]
      releases_le := hreleases
      untracked := fun hnone => by
        simp only [hd] at hnone
        cases hnone
      tracked := fun d hd => ⟨(h.tracked d hd).1, Nat.succ_pos _, (h.tracked d hd).2.2⟩
      result := fun r hr => by
        simp only [hres] at hr
        cases hr }
  | released d hres hd hconf =>
    exact h.finish hres _ true (fun _ => by rw [hd]; rfl) (fun _ => (h.tracked d hd).1)
  | unconfirmed d hres hd => exact h.finish hres _ false (fun _ => by rw [hd]; rfl) (by simp)

theorem Resources.stuck [Rounding] (h : w.Resources now) (hstuck : Stuck w now) :
    Resources now { w with job := { w.job with releaseUntil := Rounding.round (now + 2) } } :=
  { h with
    tracked := fun d hd => by
      simp only [hstuck.delivery] at hd
      cases hd }

theorem observe_pinned {d : ReleaseDelivery} {i : PtzIdentity} {deadline : ℚ} (h : d.Pinned i deadline) (loads : Loads)
    (plain : Bytes) (peer : String × Nat) (generation : Nat) (now : ℚ) :
    (d.observe loads plain peer generation now).2.Pinned i deadline := by
  have hkeep : ∀ (frames : Nat) (transport peer application error : Bool), ReleaseDelivery.Pinned
      { d with
        frames := frames
        transport := transport
        peer := peer
        application := application
        error := error } i deadline := fun _ _ _ _ _ =>
    ⟨h.node, h.generation, h.access, h.device, h.correlation, h.deadline⟩
  unfold ReleaseDelivery.observe
  split
  · exact h
  split
  · exact hkeep _ _ _ _ _
  simp only
  split
  · exact hkeep _ _ _ _ _
  split
  · exact hkeep _ _ _ _ _
  split
  · exact hkeep _ _ _ _ _
  · exact hkeep _ _ _ _ _

theorem Resources.observed (h : w.Resources now) {loads : Loads} {plain : Bytes} {peer : String × Nat} {generation : Nat}
    {packets : List PtzPacket} {w' : PtzWorld} (ho : Observed loads w plain peer generation now packets w') :
    w'.Resources now := by
  cases ho with
  | ignored _ => exact h
  | looked d settle hres hd =>
    obtain ⟨hstarted, hreleases, hpinned⟩ := h.tracked d hd
    exact { h with
      untracked := fun hnone => by cases hnone
      tracked := fun d' hd' => by
        cases hd'
        exact ⟨hstarted, hreleases, observe_pinned hpinned loads plain peer generation now⟩
      result := fun r hr => by
        simp only [hres] at hr
        cases hr }
  | answered d settle packets output hres hd hkinds hreceipted =>
    obtain ⟨hstarted, hreleases, hpinned⟩ := h.tracked d hd
    have hun := unsettled_of_none hres
    obtain ⟨slots, hheld, hstart, hrelease, -⟩ := h.held hun
    obtain ⟨slots', hheld', hstart', hrelease'⟩ := hreceipted.slots slots hheld
    exact { h with
      honours := hreceipted.honours
      last := hreceipted.last
      token := by rw [hreceipted.next]; exact h.token
      held := fun _ => ⟨slots', hheld', by rw [hstart']; exact hstart, by rw [hrelease']; exact hrelease,
        fun hr => by cases hr⟩
      closed := fun hnot => absurd hun hnot
      untracked := fun hnone => by cases hnone
      tracked := fun d' hd' => by
        cases hd'
        exact ⟨hstarted, hreleases, observe_pinned hpinned loads plain peer generation now⟩
      result := fun r hr => by
        simp only [hres] at hr
        cases hr }

theorem Resources.output (h : w.Resources now) {op : OutputOp} (hother : op.on w.job.token = false) :
    Resources now { w with output := op.run now w.output } := by
  have hframes := op.run_frames now w.output hother h.token
  obtain ⟨hhonours, hlast⟩ := op.run_honours h.honours h.last
  exact { h with
    honours := hhonours
    last := hlast
    token := lt_of_lt_of_le h.token hframes.next
    held := fun hun => by
      simp only [hframes.ptz]
      exact h.held hun
    closed := fun hnot => by
      simp only [hframes.ptz]
      exact h.closed hnot }

/-- **Every step keeps the resources in order.** -/
theorem Resources.step [Rounding] (loads : Loads) {t : ℚ} (h : w.Resources t) (ht : t ≤ now) (call : PtzCall) :
    (w.step loads now call).2.Resources now := by
  have h := h.later ht
  cases call with
  | nextPacket =>
    rcases nextPacket_polled h with ⟨packets, w', heq, hp⟩ | ⟨hstuck, heq⟩
    · rw [PtzWorld.step, heq]
      exact h.polled hp
    · rw [PtzWorld.step, heq]
      exact h.stuck hstuck
  | observe plain peer generation noise =>
    obtain ⟨packets, w', heq, ho⟩ := observe_observed loads h plain peer generation noise
    rw [PtzWorld.step, heq]
    exact h.observed ho
  | cancel => exact { h with }
  | sendFailed => exact { h with }
  | output op =>
    by_cases hown : op.on w.job.token
    · simp only [PtzWorld.step, if_pos hown]
      exact h
    · simp only [PtzWorld.step, if_neg hown]
      exact h.output (by simpa using hown)
  | reserve count => exact { h with }
  | retire => exact { h with }

end PtzWorld

/-! ## The trace -/

namespace PtzTrace

theorem cancelled_append (trace : List PtzEvent) (e : PtzEvent) :
    cancelled (trace ++ [e]) = (cancelled trace || decide (e.call = .cancel ∨ e.call = .sendFailed)) := by
  simp [cancelled]

end PtzTrace

/-- What the trace is compared with. -/
structure SameMotion (j j' : PtzScheduler) : Prop where
  start : j'.commands.start = j.commands.start
  release : j'.commands.release = j.commands.release
  started : j'.started = j.started
  releases : j'.releases = j.releases
  duration : j'.duration = j.duration
  moveUntil : j'.moveUntil = j.moveUntil
  releaseUntil : j.delivery.isSome → j'.releaseUntil = j.releaseUntil
  delivery : j'.delivery.isSome = j.delivery.isSome

namespace PtzRun

open Trace PtzTrace

section

variable [Rounding]

/-- The trace and the job agree. -/
structure Traced (r : PtzRun) : Prop where
  clean : Justified (Clean r.world.job.duration) r.trace
  starts : ofKind .start (packets r.trace) =
    if r.world.job.started then [⟨.start, r.world.job.commands.start⟩] else []
  releases : ofKind .release (packets r.trace) =
    List.replicate r.world.job.releases ⟨.release, r.world.job.commands.release⟩
  order : ∀ (before : List PtzPacket) p (after : List PtzPacket), packets r.trace = before ++ p :: after → p.kind = .release → ∃ s ∈ before, s.kind = .start
  start : r.world.job.started → ∃ start, firstTime .start r.trace = some start ∧
    r.world.job.moveUntil = Rounding.round (start + r.world.job.duration)
  release : r.world.job.delivery.isSome → (∃ release, firstTime .release r.trace = some release ∧
      r.world.job.releaseUntil = Rounding.round (release + 2)) ∧
    ∃ (before : List PtzEvent) (e : PtzEvent) (after : List PtzEvent), r.trace = before ++ e :: after ∧ e.call = .nextPacket ∧
      Due r.world.job.duration before e.now ∧ InWindow e.now
  cancel : r.world.job.cancelled = cancelled r.trace

variable {r : PtzRun}

theorem Traced.due (h : r.Traced) {now : ℚ} (hstarted : r.world.job.started = true)
    (hdue : r.world.job.cancelled ∨ r.world.job.moveUntil ≤ now) : Due r.world.job.duration r.trace now := by
  obtain ⟨start, hstart, hmove⟩ := h.start hstarted
  refine ⟨start, hstart, ?_⟩
  rcases hdue with hcancel | hlate
  · exact .inr (by rw [← h.cancel]; exact hcancel)
  · exact .inl (hmove ▸ hlate)

theorem Traced.quiet (h : r.Traced) {w' : PtzWorld} {e : PtzEvent} (hclean : Clean r.world.job.duration r.trace e)
    (hkinds : ∀ p ∈ e.packets, p.kind = .receipt) (hsame : SameMotion r.world.job w'.job)
    (hcancel : w'.job.cancelled = (r.world.job.cancelled || decide (e.call = .cancel ∨ e.call = .sendFailed))) :
    Traced ⟨w', r.trace ++ [e]⟩ := by
  have hnot : ∀ kind, kind ≠ .receipt → ∀ p ∈ e.packets, p.kind ≠ kind := by
    intro kind hkind p hp
    rw [hkinds p hp]
    exact hkind.symm
  have hsilent : ∀ kind, kind ≠ .receipt → ofKind kind (packets (r.trace ++ [e])) = ofKind kind (packets r.trace) := by
    intro kind hkind
    rw [packets_append, ofKind_append, ofKind_eq_nil (hnot kind hkind), List.append_nil]
  exact {
    clean := by
      simp only [hsame.duration]
      exact h.clean.snoc hclean
    starts := by rw [hsilent .start (by decide), h.starts, hsame.started, hsame.start]
    releases := by rw [hsilent .release (by decide), h.releases, hsame.releases, hsame.release]
    order := by
      rw [packets_append]
      exact order_append h.order fun p hp hkind => absurd hkind (hnot .release (by decide) p hp)
    start := by
      intro hstarted
      rw [hsame.started] at hstarted
      rw [firstTime_quiet (hnot .start (by decide)), hsame.moveUntil, hsame.duration]
      exact h.start hstarted
    release := by
      intro hdelivery
      rw [hsame.delivery] at hdelivery
      obtain ⟨htime, before, e', after, htrace, hcall, hdue⟩ := h.release hdelivery
      rw [firstTime_quiet (hnot .release (by decide)), hsame.releaseUntil hdelivery, hsame.duration]
      exact ⟨htime, before, e', after ++ [e], by rw [htrace]; simp, hcall, hdue⟩
    cancel := by rw [cancelled_append, hcancel, h.cancel] }

theorem clean_append (h : r.Traced) {e : PtzEvent} {out : List PtzPacket} (hout : e.out = .ok out) :
    Justified (Clean r.world.job.duration) (r.trace ++ [e]) :=
  h.clean.snoc (.inl ⟨out, hout⟩)

variable {now : ℚ}

theorem Traced.started (h : r.Traced) (hr : r.world.Resources now) (hstarted : r.world.job.started = false)
    (output : AccountOutputBudget) :
    Traced ⟨{ r.world with
      output := output
      job := { r.world.job with
        commands := { r.world.job.commands with started := true }
        started := true
        moveUntil := Rounding.round (now + r.world.job.duration) } },
      r.trace ++ [⟨now, .nextPacket, .ok [⟨.start, r.world.job.commands.start⟩]⟩]⟩ := by
  have hnone : r.world.job.delivery = none := by
    by_contra hsome
    obtain ⟨d, hd⟩ := Option.ne_none_iff_exists'.mp hsome
    rw [(hr.tracked d hd).1] at hstarted
    cases hstarted
  have hstarts := h.starts
  rw [hstarted, if_neg (by decide)] at hstarts
  exact {
    clean := clean_append h rfl
    starts := by rw [packets_append, ofKind_append, hstarts]; rfl
    releases := by rw [packets_append, ofKind_append, h.releases]; exact List.append_nil _
    order := by
      rw [packets_append]
      refine order_append h.order fun p hp hkind => ?_
      rw [List.mem_singleton.mp hp] at hkind
      cases hkind
    start := by
      intro _
      refine ⟨now, ?_, rfl⟩
      rw [firstTime_append, firstTime_eq_none hstarts]
      simp [Event.packets]
    release := by
      intro hdelivery
      simp only [hnone] at hdelivery
      cases hdelivery
    cancel := by rw [cancelled_append, ← h.cancel]; simp }

theorem releases_append (h : r.Traced) {e : PtzEvent} (hout : e.out = .ok [⟨.release, r.world.job.commands.release⟩]) :
    ofKind .release (packets (r.trace ++ [e])) =
      List.replicate (r.world.job.releases + 1) ⟨.release, r.world.job.commands.release⟩ := by
  have hpackets : e.packets = [⟨.release, r.world.job.commands.release⟩] := by rw [Event.packets, hout]
  rw [packets_append, ofKind_append, h.releases, hpackets, List.replicate_succ']
  rfl

omit [Rounding] in
theorem starts_append {e : PtzEvent} (hout : e.out = .ok [⟨.release, r.world.job.commands.release⟩]) :
    ofKind .start (packets (r.trace ++ [e])) = ofKind .start (packets r.trace) := by
  have hpackets : e.packets = [⟨.release, r.world.job.commands.release⟩] := by rw [Event.packets, hout]
  rw [packets_append, ofKind_append, hpackets]
  exact List.append_nil _

theorem order_release (h : r.Traced) (hstarted : r.world.job.started = true) (e : PtzEvent) :
    ∀ before p after, packets (r.trace ++ [e]) = before ++ p :: after → p.kind = .release →
      ∃ s ∈ before, s.kind = .start := by
  have hstarts := h.starts
  rw [hstarted, if_pos rfl] at hstarts
  have hmem : ⟨.start, r.world.job.commands.start⟩ ∈ ofKind .start (packets r.trace) := by
    rw [hstarts]
    exact List.mem_singleton_self _
  rw [packets_append]
  exact order_append h.order fun _ _ _ => ⟨_, List.mem_of_mem_filter hmem, rfl⟩

theorem Traced.released (h : r.Traced) (hr : r.world.Resources now) (hstarted : r.world.job.started = true)
    (hd : r.world.job.delivery = none) (hdue : r.world.job.cancelled ∨ r.world.job.moveUntil ≤ now)
    (hwindow : InWindow now) (output : AccountOutputBudget) (delivery : ReleaseDelivery) :
    Traced ⟨{ r.world with
      output := output
      job := { r.world.job with
        releaseUntil := Rounding.round (now + 2)
        delivery := some delivery
        commands := { r.world.job.commands with releaseAttempts := r.world.job.commands.releaseAttempts + 1 }
        releases := r.world.job.releases + 1
        retryAt := Rounding.round (now + 1 / 2) } },
      r.trace ++ [⟨now, .nextPacket, .ok [⟨.release, r.world.job.commands.release⟩]⟩]⟩ := by
  have hzero := (hr.untracked hd).1
  have hreleases := h.releases
  rw [hzero, List.replicate_zero] at hreleases
  obtain ⟨start, hstart, hmove⟩ := h.start hstarted
  exact {
    clean := clean_append h rfl
    starts := by rw [starts_append rfl, h.starts]
    releases := releases_append h rfl
    order := order_release h hstarted _
    start := fun _ => ⟨start, firstTime_stays hstart _, hmove⟩
    release := by
      intro _
      refine ⟨⟨now, ?_, rfl⟩, r.trace, _, [], rfl, rfl, h.due hstarted hdue, hwindow⟩
      rw [firstTime_append, firstTime_eq_none hreleases]
      simp [Event.packets]
    cancel := by rw [cancelled_append, ← h.cancel]; simp }

theorem Traced.again (h : r.Traced) (hstarted : r.world.job.started = true) (output : AccountOutputBudget) :
    Traced ⟨{ r.world with
      output := output
      job := { r.world.job with
        commands := { r.world.job.commands with releaseAttempts := r.world.job.commands.releaseAttempts + 1 }
        releases := r.world.job.releases + 1
        retryAt := Rounding.round (now + 1 / 2) } },
      r.trace ++ [⟨now, .nextPacket, .ok [⟨.release, r.world.job.commands.release⟩]⟩]⟩ where
  clean := clean_append h rfl
  starts := by rw [starts_append rfl, h.starts]
  releases := releases_append h rfl
  order := order_release h hstarted _
  start := fun hs => by
    obtain ⟨start, hstart, hmove⟩ := h.start hs
    exact ⟨start, firstTime_stays hstart _, hmove⟩
  release := by
    intro hdelivery
    obtain ⟨⟨release, htime, huntil⟩, before, e', after, htrace, hcall, hdue⟩ := h.release hdelivery
    exact ⟨⟨release, firstTime_stays htime _, huntil⟩, before, e', _, by rw [htrace, List.append_assoc, List.cons_append], hcall, hdue⟩
  cancel := by rw [cancelled_append, ← h.cancel]; simp

theorem Traced.polled (h : r.Traced) (hr : r.world.Resources now) {out : List PtzPacket} {w' : PtzWorld}
    (hp : PtzWorld.Polled r.world now out w') : Traced ⟨w', r.trace ++ [⟨now, .nextPacket, .ok out⟩]⟩ := by
  cases hp with
  | done _ => exact h.quiet (.inl ⟨_, rfl⟩) (by simp [Event.packets]) ⟨rfl, rfl, rfl, rfl, rfl, rfl, fun _ => rfl, rfl⟩ (by simp)
  | moving _ _ _ _ _ => exact h.quiet (.inl ⟨_, rfl⟩) (by simp [Event.packets]) ⟨rfl, rfl, rfl, rfl, rfl, rfl, fun _ => rfl, rfl⟩ (by simp)
  | waiting d _ _ => exact h.quiet (.inl ⟨_, rfl⟩) (by simp [Event.packets]) ⟨rfl, rfl, rfl, rfl, rfl, rfl, fun _ => rfl, rfl⟩ (by simp)
  | refused commands reason hres hstarted hcommands =>
    refine h.quiet (.inl ⟨_, rfl⟩) (by simp [Event.packets]) ⟨?_, ?_, rfl, rfl, rfl, rfl, fun _ => rfl, rfl⟩ (by simp [PtzWorld.finish])
    · rcases hcommands with rfl | rfl <;> rfl
    · rcases hcommands with rfl | rfl <;> rfl
  | start output hres hstarted hcancel hcharged => exact h.started hr hstarted output
  | release output hres hstarted hd hdue hwindow hcharged => exact h.released hr hstarted hd hdue hwindow output _
  | again d output hres hd hreleases hcharged => exact h.again (hr.tracked d hd).1 output
  | released d hres hd hconf =>
    exact h.quiet (.inl ⟨_, rfl⟩) (by simp [Event.packets]) ⟨rfl, rfl, rfl, rfl, rfl, rfl, fun _ => rfl, rfl⟩ (by simp [PtzWorld.finish])
  | unconfirmed d hres hd =>
    exact h.quiet (.inl ⟨_, rfl⟩) (by simp [Event.packets]) ⟨rfl, rfl, rfl, rfl, rfl, rfl, fun _ => rfl, rfl⟩ (by simp [PtzWorld.finish])

theorem Traced.stuck (h : r.Traced) (hstuck : r.world.Stuck now) :
    Traced ⟨{ r.world with job := { r.world.job with releaseUntil := Rounding.round (now + 2) } },
      r.trace ++ [⟨now, .nextPacket, .error .lifetime⟩]⟩ := by
  refine h.quiet (.inr ⟨rfl, rfl, h.due hstuck.started hstuck.due, hstuck.window⟩) (by simp [Event.packets])
    ⟨rfl, rfl, rfl, rfl, rfl, rfl, fun hsome => ?_, rfl⟩ (by simp)
  rw [hstuck.delivery] at hsome
  cases hsome

theorem Traced.observed (h : r.Traced) {loads : Loads} {plain : Bytes} {peer : String × Nat} {generation : Nat}
    {out : List PtzPacket} {w' : PtzWorld} (ho : PtzWorld.Observed loads r.world plain peer generation now out w')
    (noise : Nat) : Traced ⟨w', r.trace ++ [⟨now, .observe plain peer generation noise, .ok out⟩]⟩ := by
  cases ho with
  | ignored _ => exact h.quiet (.inl ⟨_, rfl⟩) (by simp [Event.packets]) ⟨rfl, rfl, rfl, rfl, rfl, rfl, fun _ => rfl, rfl⟩ (by simp)
  | looked d settle hres hd =>
    exact h.quiet (.inl ⟨_, rfl⟩) (by simp [Event.packets]) ⟨rfl, rfl, rfl, rfl, rfl, rfl, fun _ => rfl, by rw [hd]; rfl⟩ (by simp)
  | answered d settle out output hres hd hkinds hreceipted =>
    exact h.quiet (.inl ⟨_, rfl⟩) hkinds ⟨rfl, rfl, rfl, rfl, rfl, rfl, fun _ => rfl, by rw [hd]; rfl⟩ (by simp)

/-- **Every step keeps trace and job in agreement.** -/
theorem Traced.step (loads : Loads) {t : ℚ} (h : r.Traced) (hr : r.world.Resources t) (ht : t ≤ now) (call : PtzCall) :
    (r.step loads now call).Traced := by
  have hr := hr.later ht
  cases call with
  | nextPacket =>
    rcases PtzWorld.nextPacket_polled hr with ⟨out, w', heq, hp⟩ | ⟨hstuck, heq⟩
    · rw [PtzRun.step, PtzWorld.step, heq]
      exact h.polled hr hp
    · rw [PtzRun.step, PtzWorld.step, heq]
      exact h.stuck hstuck
  | observe plain peer generation noise =>
    obtain ⟨out, w', heq, ho⟩ := PtzWorld.observe_observed loads hr plain peer generation noise
    rw [PtzRun.step, PtzWorld.step, heq]
    exact h.observed ho noise
  | cancel => exact h.quiet (.inl ⟨_, rfl⟩) (by simp [Event.packets]) ⟨rfl, rfl, rfl, rfl, rfl, rfl, fun _ => rfl, rfl⟩ (by simp [PtzScheduler.cancel])
  | sendFailed =>
    exact h.quiet (.inl ⟨_, rfl⟩) (by simp [Event.packets]) ⟨rfl, rfl, rfl, rfl, rfl, rfl, fun _ => rfl, rfl⟩ (by simp [PtzScheduler.sendFailed])
  | output op =>
    by_cases hown : op.on r.world.job.token
    · simp only [PtzRun.step, PtzWorld.step, if_pos hown]
      exact h.quiet (.inl ⟨_, rfl⟩) (by simp [Event.packets]) ⟨rfl, rfl, rfl, rfl, rfl, rfl, fun _ => rfl, rfl⟩ (by simp)
    · simp only [PtzRun.step, PtzWorld.step, if_neg hown]
      exact h.quiet (.inl ⟨_, rfl⟩) (by simp [Event.packets]) ⟨rfl, rfl, rfl, rfl, rfl, rfl, fun _ => rfl, rfl⟩ (by simp)
  | reserve count => exact h.quiet (.inl ⟨_, rfl⟩) (by simp [Event.packets]) ⟨rfl, rfl, rfl, rfl, rfl, rfl, fun _ => rfl, rfl⟩ (by simp)
  | retire => exact h.quiet (.inl ⟨_, rfl⟩) (by simp [Event.packets]) ⟨rfl, rfl, rfl, rfl, rfl, rfl, fun _ => rfl, rfl⟩ (by simp)

/-! ## The evidence -/

/-- Confirmation by what was considered: the application's answer without an
error, or the transport's and the device's receipts, each for this RELEASE. -/
def Confirmation (loads : Loads) (i : PtzIdentity) (trace : List PtzEvent) : Prop :=
  (∃ plain, Considered i.node i.generation trace plain ∧
      Answers loads i.node i.access i.device i.correlation.request 0 plain) ∨
    (∃ plain, Considered i.node i.generation trace plain ∧
      AcknowledgesTransport i.node i.correlation.sequence plain) ∧
    ∃ plain, Considered i.node i.generation trace plain ∧
      AcknowledgesPeer i.node i.access i.device i.correlation.message plain

/-- A considered frame that the codec reads as an application error. -/
def ExplicitError (loads : Loads) (i : PtzIdentity) (trace : List PtzEvent) : Prop :=
  ∃ plain reply err, Considered i.node i.generation trace plain ∧
    parsePtzReply loads plain i.node i.access i.device i.correlation.sequence i.correlation.message
      i.correlation.request = some reply ∧
    reply.errorCode = some err ∧ err ≠ 0

/-- What the tracking has noted was considered. -/
structure Supported (loads : Loads) (i : PtzIdentity) (trace : List PtzEvent) (d : ReleaseDelivery) : Prop where
  transport : d.transport → ∃ plain, Considered i.node i.generation trace plain ∧
    AcknowledgesTransport i.node i.correlation.sequence plain
  peer : d.peer → ∃ plain, Considered i.node i.generation trace plain ∧
    AcknowledgesPeer i.node i.access i.device i.correlation.message plain
  application : d.application → ∃ plain, Considered i.node i.generation trace plain ∧
    Answers loads i.node i.access i.device i.correlation.request 0 plain

/-- The tracking has noted nothing that was not considered, and no explicit
error has escaped it. -/
structure Evidenced (loads : Loads) (r : PtzRun) : Prop where
  supported : ∀ d, r.world.job.delivery = some d → Supported loads r.world.job.identity r.trace d
  error : r.world.job.result = none → ∀ d, r.world.job.delivery = some d → d.error = false →
    ¬ ExplicitError loads r.world.job.identity r.trace

theorem considered_append {node : CertifiedNode} {generation : Nat} {trace : List PtzEvent} {e : PtzEvent} {plain : Bytes} :
    Considered node generation (trace ++ [e]) plain ↔ Considered node generation trace plain ∨
      ∃ release noise, firstTime .release trace = some release ∧ e.now < Rounding.round (release + 2) ∧
        e.call = .observe plain node.address generation noise := by
  constructor
  · rintro ⟨before, e', after, release, noise, htrace, htime, hnow, hcall⟩
    rcases List.eq_nil_or_concat after with rfl | ⟨after, last, rfl⟩
    · obtain ⟨rfl, hlast⟩ := List.append_inj' htrace rfl
      cases hlast
      exact .inr ⟨release, noise, htime, hnow, hcall⟩
    · rw [List.concat_eq_append, ← List.cons_append, ← List.append_assoc] at htrace
      obtain ⟨rfl, -⟩ := List.append_inj' htrace rfl
      exact .inl ⟨before, e', after, release, noise, rfl, htime, hnow, hcall⟩
  · rintro (⟨before, e', after, release, noise, rfl, htime, hnow, hcall⟩ | ⟨release, noise, htime, hnow, hcall⟩)
    · exact ⟨before, e', after ++ [e], release, noise, by simp, htime, hnow, hcall⟩
    · exact ⟨trace, e, [], release, noise, rfl, htime, hnow, hcall⟩

theorem not_considered {node : CertifiedNode} {generation : Nat} {trace : List PtzEvent}
    (h : firstTime .release trace = none) (plain : Bytes) : ¬ Considered node generation trace plain := by
  rintro ⟨before, e, after, release, noise, rfl, htime, -, -⟩
  have : ∀ (after before : List PtzEvent) (t : ℚ), firstTime .release before = some t →
      firstTime .release (before ++ after) = some t := by
    intro after before t ht
    simp only [firstTime, List.find?_append, Option.map_eq_some_iff] at ht ⊢
    obtain ⟨first, hfirst, hnow⟩ := ht
    exact ⟨first, by rw [hfirst, Option.some_or], hnow⟩
  rw [this _ _ _ htime] at h
  cases h

variable {loads : Loads} {i : PtzIdentity}

theorem Supported.append {trace : List PtzEvent} {d : ReleaseDelivery} (h : Supported loads i trace d) (e : PtzEvent) :
    Supported loads i (trace ++ [e]) d where
  transport := fun hd => by
    obtain ⟨plain, hcon, hack⟩ := h.transport hd
    exact ⟨plain, considered_append.mpr (.inl hcon), hack⟩
  peer := fun hd => by
    obtain ⟨plain, hcon, hack⟩ := h.peer hd
    exact ⟨plain, considered_append.mpr (.inl hcon), hack⟩
  application := fun hd => by
    obtain ⟨plain, hcon, hack⟩ := h.application hd
    exact ⟨plain, considered_append.mpr (.inl hcon), hack⟩

theorem explicitError_append {trace : List PtzEvent} {e : PtzEvent}
    (hnot : ∀ plain noise release, firstTime .release trace = some release → e.now < Rounding.round (release + 2) →
      e.call ≠ .observe plain i.node.address i.generation noise)
    (h : ¬ ExplicitError loads i trace) : ¬ ExplicitError loads i (trace ++ [e]) := by
  rintro ⟨plain, reply, err, hcon, hparse, hcode, hne⟩
  rcases considered_append.mp hcon with hcon | ⟨release, noise, htime, hnow, hcall⟩
  · exact h ⟨plain, reply, err, hcon, hparse, hcode, hne⟩
  · exact hnot plain noise release htime hnow hcall

omit [Rounding] in
/-- What an observation notes: nothing once the deadline is over; an error at
the 65th frame; else what the codec finds in a frame of the pinned peer. -/
theorem observe_cases (d : ReleaseDelivery) (loads : Loads) (plain : Bytes) (peer : String × Nat) (generation : Nat)
    (now : ℚ) :
    (d.deadline ≤ now ∧ (d.observe loads plain peer generation now).2 = d) ∨
      (now < d.deadline ∧ (d.observe loads plain peer generation now).2 = { d with error := true }) ∨
      (now < d.deadline ∧ (d.observe loads plain peer generation now).2 = { d with frames := d.frames + 1 } ∧
        (peer = d.node.address → generation = d.generation → parsePtzReply loads plain d.node d.access d.device
          d.correlation.sequence d.correlation.message d.correlation.request = none)) ∨
      ∃ reply, now < d.deadline ∧ peer = d.node.address ∧ generation = d.generation ∧
        parsePtzReply loads plain d.node d.access d.device d.correlation.sequence d.correlation.message
          d.correlation.request = some reply ∧
        (d.observe loads plain peer generation now).2 = { d with
          frames := d.frames + 1
          transport := d.transport || reply.transportReceipt
          peer := d.peer || reply.peerReceipt
          application := d.application || reply.errorCode.any fun err => decide (err = 0)
          error := d.error || reply.errorCode.any fun err => decide (err ≠ 0) } := by
  unfold ReleaseDelivery.observe
  by_cases hlate : d.deadline ≤ now
  · rw [if_pos hlate]
    exact .inl ⟨hlate, rfl⟩
  rw [if_neg hlate]
  have hlate := not_le.mp hlate
  by_cases hfull : 64 ≤ d.frames
  · rw [if_pos hfull]
    exact .inr (.inl ⟨hlate, rfl⟩)
  rw [if_neg hfull]
  simp only
  by_cases hforeign : peer ≠ d.node.address ∨ generation ≠ d.generation
  · rw [if_pos hforeign]
    refine .inr (.inr (.inl ⟨hlate, rfl, fun hpeer hgeneration => ?_⟩))
    rcases hforeign with hforeign | hforeign
    · exact absurd hpeer hforeign
    · exact absurd hgeneration hforeign
  rw [if_neg hforeign]
  rw [not_or, not_not, not_not] at hforeign
  cases hparse : parsePtzReply loads plain d.node d.access d.device d.correlation.sequence d.correlation.message
      d.correlation.request with
  | none => exact .inr (.inr (.inl ⟨hlate, rfl, fun _ _ => rfl⟩))
  | some reply =>
    refine .inr (.inr (.inr ⟨reply, hlate, hforeign.1, hforeign.2, rfl, ?_⟩))
    cases hcode : reply.errorCode with
    | none => simp [hcode]
    | some err => simp [hcode]

theorem Supported.observe {trace : List PtzEvent} {d : ReleaseDelivery} {deadline now : ℚ} (h : Supported loads i trace d)
    (hi : i.WellFormed) (hpinned : d.Pinned i deadline)
    (hrelease : ∃ release, firstTime .release trace = some release ∧ deadline = Rounding.round (release + 2))
    (plain : Bytes) (peer : String × Nat) (generation noise : Nat) (out : Except PtzFault (List PtzPacket)) :
    Supported loads i (trace ++ [⟨now, .observe plain peer generation noise, out⟩])
      (d.observe loads plain peer generation now).2 := by
  have hkeep := h.append ⟨now, .observe plain peer generation noise, out⟩
  rcases observe_cases d loads plain peer generation now with
    ⟨-, heq⟩ | ⟨-, heq⟩ | ⟨-, heq, -⟩ | ⟨reply, hlate, hpeer, hgeneration, hparse, heq⟩
  · rw [heq]
    exact hkeep
  · rw [heq]
    exact ⟨hkeep.transport, hkeep.peer, hkeep.application⟩
  · rw [heq]
    exact ⟨hkeep.transport, hkeep.peer, hkeep.application⟩
  rw [heq]
  rw [hpinned.deadline] at hlate
  rw [hpinned.node] at hpeer hparse
  rw [hpinned.generation] at hgeneration
  rw [hpinned.access, hpinned.device, hpinned.correlation] at hparse
  have hcon : Considered i.node i.generation (trace ++ [⟨now, .observe plain peer generation noise, out⟩]) plain := by
    obtain ⟨release, htime, huntil⟩ := hrelease
    exact considered_append.mpr (.inr ⟨release, noise, htime, huntil ▸ hlate, by rw [hpeer, hgeneration]⟩)
  have hsequence : i.correlation.sequence % 2 ^ 32 = i.correlation.sequence := Nat.mod_eq_of_lt hi.sequence
  have hmessage : i.correlation.message &&& 0x7FFFFFFF = i.correlation.message := by
    have := Nat.and_two_pow_sub_one_eq_mod i.correlation.message 31
    rw [Nat.mod_eq_of_lt hi.message] at this
    exact this
  -- One reply settles one of the three.
  rcases parsePtzReply_cases hparse with ⟨rfl, hack⟩ | ⟨rfl, hack⟩ | ⟨err, rfl, hack, -⟩
  · rw [hsequence] at hack
    exact {
      transport := fun _ => ⟨plain, hcon, hack⟩
      peer := fun hd => hkeep.peer (by simpa using hd)
      application := fun hd => hkeep.application (by simpa using hd) }
  · rw [hmessage] at hack
    exact {
      transport := fun hd => hkeep.transport (by simpa using hd)
      peer := fun _ => ⟨plain, hcon, hack⟩
      application := fun hd => hkeep.application (by simpa using hd) }
  · refine {
      transport := fun hd => hkeep.transport (by simpa using hd)
      peer := fun hd => hkeep.peer (by simpa using hd)
      application := fun hd => ?_ }
    simp only [Option.any_some, Bool.or_eq_true, decide_eq_true_eq] at hd
    rcases hd with hd | rfl
    · exact hkeep.application hd
    · exact ⟨plain, hcon, hack⟩

theorem not_explicitError_observe {trace : List PtzEvent} {d : ReleaseDelivery} {deadline now : ℚ}
    (h : d.error = false → ¬ ExplicitError loads i trace) (hpinned : d.Pinned i deadline)
    (hrelease : ∃ release, firstTime .release trace = some release ∧ deadline = Rounding.round (release + 2))
    (plain : Bytes) (peer : String × Nat) (generation noise : Nat) (out : Except PtzFault (List PtzPacket))
    (herror : (d.observe loads plain peer generation now).2.error = false) :
    ¬ ExplicitError loads i (trace ++ [⟨now, .observe plain peer generation noise, out⟩]) := by
  rintro ⟨plain', reply', err, hcon, hparse', hcode, hne⟩
  rcases considered_append.mp hcon with hcon | ⟨release, noise', htime, hnow, hcall⟩
  · refine h ?_ ⟨plain', reply', err, hcon, hparse', hcode, hne⟩
    rcases observe_cases d loads plain peer generation now with
      ⟨-, heq⟩ | ⟨-, heq⟩ | ⟨-, heq, -⟩ | ⟨reply, -, -, -, -, heq⟩
    · rwa [heq] at herror
    · rw [heq] at herror
      cases herror
    · rwa [heq] at herror
    · rw [heq, Bool.or_eq_false_iff] at herror
      exact herror.1
  · cases hcall
    obtain ⟨release', htime', huntil⟩ := hrelease
    rw [htime'] at htime
    cases htime
    rw [← huntil] at hnow
    have hfound : parsePtzReply loads plain d.node d.access d.device d.correlation.sequence d.correlation.message
        d.correlation.request = some reply' := by
      rw [hpinned.node, hpinned.access, hpinned.device, hpinned.correlation]
      exact hparse'
    rcases observe_cases d loads plain i.node.address i.generation now with
      ⟨hlate, -⟩ | ⟨-, heq⟩ | ⟨-, -, hnone⟩ | ⟨reply, -, -, -, hparse, heq⟩
    · rw [hpinned.deadline] at hlate
      exact absurd hnow (not_lt.mpr hlate)
    · rw [heq] at herror
      cases herror
    · rw [hnone (by rw [hpinned.node]) hpinned.generation.symm] at hfound
      cases hfound
    · rw [hparse] at hfound
      cases hfound
      rw [heq] at herror
      simp [hcode, hne] at herror

/-- An event that is no observation, after which the tracking is as it was. -/
theorem Evidenced.quiet (h : r.Evidenced loads) {w' : PtzWorld} {e : PtzEvent}
    (hcall : ∀ plain peer generation noise, e.call ≠ .observe plain peer generation noise)
    (hidentity : w'.job.identity = r.world.job.identity) (hdelivery : w'.job.delivery = r.world.job.delivery)
    (hresult : w'.job.result = none → r.world.job.result = none) : Evidenced loads ⟨w', r.trace ++ [e]⟩ where
  supported := by
    intro d hd
    simp only [hdelivery] at hd
    simp only [hidentity]
    exact (h.supported d hd).append e
  error := by
    intro hres d hd herror
    simp only [hdelivery] at hd
    simp only [hidentity]
    exact explicitError_append (fun plain noise _ _ _ => hcall plain _ _ noise) (h.error (hresult hres) d hd herror)

theorem Evidenced.polled (h : r.Evidenced loads) (ht : r.Traced) (hr : r.world.Resources now) {out : List PtzPacket}
    {w' : PtzWorld} (hp : PtzWorld.Polled r.world now out w') :
    Evidenced loads ⟨w', r.trace ++ [⟨now, .nextPacket, .ok out⟩]⟩ := by
  have hcall : ∀ plain peer generation noise, PtzCall.nextPacket ≠ .observe plain peer generation noise := by
    intro plain peer generation noise hno
    cases hno
  cases hp with
  | done _ => exact h.quiet hcall rfl rfl id
  | moving _ _ _ _ _ => exact h.quiet hcall rfl rfl id
  | waiting d _ _ => exact h.quiet hcall rfl rfl id
  | refused commands reason hres hstarted hcommands =>
    refine h.quiet hcall ?_ rfl fun _ => hres
    rcases hcommands with rfl | rfl <;> rfl
  | start output hres hstarted hcancel hcharged => exact h.quiet hcall rfl rfl id
  | release output hres hstarted hd hdue hwindow hcharged =>
    -- The tracking is fresh, and nothing could be considered before it.
    have hreleases := ht.releases
    rw [(hr.untracked hd).1, List.replicate_zero] at hreleases
    have hnone : ¬ ExplicitError loads r.world.job.identity r.trace := by
      rintro ⟨plain, -, -, hcon, -⟩
      exact not_considered (firstTime_eq_none hreleases) plain hcon
    exact {
      supported := by
        intro d hd'
        cases hd'
        exact ⟨by simp [PtzWorld.freshDelivery], by simp [PtzWorld.freshDelivery], by simp [PtzWorld.freshDelivery]⟩
      error := fun _ _ _ _ => explicitError_append (fun plain noise _ _ _ => hcall plain _ _ noise) hnone }
  | again d output hres hd hreleases hcharged => exact h.quiet hcall rfl rfl id
  | released d hres hd hconf => exact h.quiet hcall rfl rfl fun _ => hres
  | unconfirmed d hres hd => exact h.quiet hcall rfl rfl fun _ => hres

theorem Evidenced.observed (h : r.Evidenced loads) (ht : r.Traced) (hr : r.world.Resources now) {plain : Bytes}
    {peer : String × Nat} {generation : Nat} {out : List PtzPacket} {w' : PtzWorld}
    (ho : PtzWorld.Observed loads r.world plain peer generation now out w') (noise : Nat) :
    Evidenced loads ⟨w', r.trace ++ [⟨now, .observe plain peer generation noise, .ok out⟩]⟩ := by
  have hlook : ∀ d, r.world.job.result = none → r.world.job.delivery = some d →
      Supported loads r.world.job.identity (r.trace ++ [⟨now, .observe plain peer generation noise, .ok out⟩])
        (d.observe loads plain peer generation now).2 ∧
      ((d.observe loads plain peer generation now).2.error = false →
        ¬ ExplicitError loads r.world.job.identity
          (r.trace ++ [⟨now, .observe plain peer generation noise, .ok out⟩])) := by
    intro d hres hd
    have hpinned := (hr.tracked d hd).2.2
    have hrelease := (ht.release (by rw [hd]; rfl)).1
    exact ⟨(h.supported d hd).observe hr.job hpinned hrelease plain peer generation noise _,
      not_explicitError_observe (h.error hres d hd) hpinned hrelease plain peer generation noise _⟩
  cases ho with
  | ignored hskip =>
    refine ⟨fun d hd => (h.supported d hd).append _, fun hres d hd _ => ?_⟩
    rcases hskip with hnone | hdone
    · simp only [hnone] at hd
      cases hd
    · rw [show r.world.job.result = none from hres] at hdone
      cases hdone
  | looked d settle hres hd =>
    obtain ⟨hsupported, herror⟩ := hlook d hres hd
    exact ⟨fun d' hd' => by cases hd'; exact hsupported, fun _ d' hd' => by cases hd'; exact herror⟩
  | answered d settle out output hres hd hkinds hreceipted =>
    obtain ⟨hsupported, herror⟩ := hlook d hres hd
    exact ⟨fun d' hd' => by cases hd'; exact hsupported, fun _ d' hd' => by cases hd'; exact herror⟩

/-- **Every step keeps the evidence.** -/
theorem Evidenced.step {t : ℚ} (h : r.Evidenced loads) (ht : r.Traced) (hr : r.world.Resources t) (hnow : t ≤ now)
    (call : PtzCall) : (r.step loads now call).Evidenced loads := by
  have hr := hr.later hnow
  cases call with
  | nextPacket =>
    rcases PtzWorld.nextPacket_polled hr with ⟨out, w', heq, hp⟩ | ⟨-, heq⟩
    · rw [PtzRun.step, PtzWorld.step, heq]
      exact h.polled ht hr hp
    · rw [PtzRun.step, PtzWorld.step, heq]
      exact h.quiet (by simp) rfl rfl id
  | observe plain peer generation noise =>
    obtain ⟨out, w', heq, ho⟩ := PtzWorld.observe_observed loads hr plain peer generation noise
    rw [PtzRun.step, PtzWorld.step, heq]
    exact h.observed ht hr ho noise
  | cancel => exact h.quiet (by simp) rfl rfl id
  | sendFailed => exact h.quiet (by simp) rfl rfl id
  | output op =>
    by_cases hown : op.on r.world.job.token
    · simp only [PtzRun.step, PtzWorld.step, if_pos hown]
      exact h.quiet (by simp) rfl rfl id
    · simp only [PtzRun.step, PtzWorld.step, if_neg hown]
      exact h.quiet (by simp) rfl rfl id
  | reserve count => exact h.quiet (by simp) rfl rfl id
  | retire => exact h.quiet (by simp) rfl rfl id

/-! ## What is fixed -/

/-- The job is still the one that was built. -/
structure Fixed (j j' : PtzScheduler) : Prop where
  identity : j'.identity = j.identity
  duration : j'.duration = j.duration
  token : j'.token = j.token

theorem step_fixed (loads : Loads) {t : ℚ} {w : PtzWorld} (h : w.Resources t) (hnow : t ≤ now) (call : PtzCall) :
    Fixed w.job (w.step loads now call).2.job ∧
      (∀ res, w.job.result = some res → (w.step loads now call).2.job.result = some res) ∧
      ∀ res, w.job.result = none → (w.step loads now call).2.job.result = some res → res.releaseDeliveryConfirmed →
        ∃ d, w.job.delivery = some d ∧ d.confirmed := by
  have h := h.later hnow
  have hquiet : ∀ j : PtzScheduler, j.result = w.job.result → ∀ res, w.job.result = none → j.result = some res →
      res.releaseDeliveryConfirmed → ∃ d, w.job.delivery = some d ∧ d.confirmed := by
    intro j hj res hnone hsome
    rw [hj, hnone] at hsome
    cases hsome
  cases call with
  | nextPacket =>
    rcases PtzWorld.nextPacket_polled h with ⟨out, w', heq, hp⟩ | ⟨-, heq⟩
    on_goal 2 =>
      rw [PtzWorld.step, heq]
      exact ⟨⟨rfl, rfl, rfl⟩, fun _ => id, hquiet _ rfl⟩
    rw [PtzWorld.step, heq]
    cases hp with
    | done _ => exact ⟨⟨rfl, rfl, rfl⟩, fun _ => id, hquiet _ rfl⟩
    | moving _ _ _ _ _ => exact ⟨⟨rfl, rfl, rfl⟩, fun _ => id, hquiet _ rfl⟩
    | waiting d _ _ => exact ⟨⟨rfl, rfl, rfl⟩, fun _ => id, hquiet _ rfl⟩
    | refused commands reason hres hstarted hcommands =>
      refine ⟨⟨?_, rfl, rfl⟩, fun res hres' => ?_, fun res _ hres' hconf => ?_⟩
      · rcases hcommands with rfl | rfl <;> rfl
      · rw [hres] at hres'
        cases hres'
      · cases hres'
        cases hconf
    | start output hres hstarted hcancel hcharged => exact ⟨⟨rfl, rfl, rfl⟩, fun _ => id, hquiet _ rfl⟩
    | release output hres hstarted hd hdue hwindow hcharged => exact ⟨⟨rfl, rfl, rfl⟩, fun _ => id, hquiet _ rfl⟩
    | again d output hres hd hreleases hcharged => exact ⟨⟨rfl, rfl, rfl⟩, fun _ => id, hquiet _ rfl⟩
    | released d hres hd hconf =>
      refine ⟨⟨rfl, rfl, rfl⟩, fun res hres' => ?_, fun _ _ _ _ => ⟨d, hd, hconf⟩⟩
      rw [hres] at hres'
      cases hres'
    | unconfirmed d hres hd =>
      refine ⟨⟨rfl, rfl, rfl⟩, fun res hres' => ?_, fun res _ hres' hconf => ?_⟩
      · rw [hres] at hres'
        cases hres'
      · cases hres'
        cases hconf
  | observe plain peer generation noise =>
    obtain ⟨out, w', heq, ho⟩ := PtzWorld.observe_observed loads h plain peer generation noise
    rw [PtzWorld.step, heq]
    cases ho with
    | ignored _ => exact ⟨⟨rfl, rfl, rfl⟩, fun _ => id, hquiet _ rfl⟩
    | looked d settle hres hd => exact ⟨⟨rfl, rfl, rfl⟩, fun _ => id, hquiet _ rfl⟩
    | answered d settle out output hres hd hkinds hreceipted => exact ⟨⟨rfl, rfl, rfl⟩, fun _ => id, hquiet _ rfl⟩
  | cancel => exact ⟨⟨rfl, rfl, rfl⟩, fun _ => id, hquiet _ rfl⟩
  | sendFailed => exact ⟨⟨rfl, rfl, rfl⟩, fun _ => id, hquiet _ rfl⟩
  | output op =>
    by_cases hown : op.on w.job.token
    · simp only [PtzWorld.step, if_pos hown]
      exact ⟨⟨rfl, rfl, rfl⟩, fun _ => id, hquiet _ rfl⟩
    · simp only [PtzWorld.step, if_neg hown]
      exact ⟨⟨rfl, rfl, rfl⟩, fun _ => id, hquiet _ rfl⟩
  | reserve count => exact ⟨⟨rfl, rfl, rfl⟩, fun _ => id, hquiet _ rfl⟩
  | retire => exact ⟨⟨rfl, rfl, rfl⟩, fun _ => id, hquiet _ rfl⟩

/-! ## Runs -/

/-- Everything that holds at time `t` of a run of `job`. -/
structure Sound (loads : Loads) (job : PtzScheduler) (t : ℚ) (r : PtzRun) : Prop where
  resources : r.world.Resources t
  traced : r.Traced
  evidenced : r.Evidenced loads
  fixed : Fixed job r.world.job

variable {job : PtzScheduler}

theorem Sound.step {t : ℚ} (h : r.Sound loads job t) (hnow : t ≤ now) (call : PtzCall) :
    (r.step loads now call).Sound loads job now where
  resources := h.resources.step loads hnow call
  traced := h.traced.step loads h.resources hnow call
  evidenced := h.evidenced.step h.traced h.resources hnow call
  fixed := by
    obtain ⟨hfixed, -⟩ := step_fixed loads h.resources hnow call
    exact ⟨hfixed.identity.trans h.fixed.identity, hfixed.duration.trans h.fixed.duration,
      hfixed.token.trans h.fixed.token⟩

/-- The first poll at which the movement is over and a RELEASE can be tracked gives it. -/
theorem Sound.release_due {t : ℚ} (h : r.Sound loads job t) (hnow : t ≤ now)
    (hdue : FirstDue job.duration r.trace now) :
    (r.step loads now .nextPacket).trace = r.trace ++ [⟨now, .nextPacket, .ok [⟨.release, job.commands.release⟩]⟩] := by
  have hr := h.resources.later hnow
  obtain ⟨⟨start, hstart, hover⟩, hwindow, hfirst⟩ := hdue
  have hstarted : r.world.job.started = true := by
    by_contra hnot
    have hstarts := h.traced.starts
    rw [if_neg hnot] at hstarts
    rw [firstTime_eq_none hstarts] at hstart
    cases hstart
  have hnone : r.world.job.delivery = none := by
    by_contra hsome
    obtain ⟨-, before, e, after, htrace, hcall, hdue⟩ := h.traced.release (Option.isSome_iff_ne_none.mpr hsome)
    rw [h.fixed.duration] at hdue
    exact hfirst before e after htrace hcall hdue
  have hres : r.world.job.result = none := by
    by_contra hsome
    obtain ⟨res, hres⟩ := Option.ne_none_iff_exists'.mp hsome
    have := (hr.result res hres).2.2.1 hstarted
    rw [hnone] at this
    cases this
  have hrelease : r.world.job.commands.release = job.commands.release := congrArg PtzIdentity.release h.fixed.identity
  rcases PtzWorld.nextPacket_polled hr with ⟨out, w', heq, hp⟩ | ⟨hstuck, -⟩
  on_goal 2 => exact absurd hwindow hstuck.window
  rw [PtzRun.step, PtzWorld.step, heq]
  cases hp with
  | done hdone => rw [hres] at hdone; cases hdone
  | refused commands reason _ hs _ => rw [hstarted] at hs; cases hs
  | start output _ hs _ _ => rw [hstarted] at hs; cases hs
  | moving _ _ _ hcancel hmove =>
    -- Over, but neither by the clock nor by a cancellation.
    obtain ⟨start', hstart', hmoveUntil⟩ := h.traced.start hstarted
    rw [hstart'] at hstart
    cases hstart
    rcases hover with hover | hover
    · rw [← h.fixed.duration, ← hmoveUntil] at hover
      exact absurd hmove (not_lt.mpr hover)
    · rw [← h.traced.cancel, hcancel] at hover
      cases hover
  | release output _ _ _ _ _ _ => rw [hrelease]
  | waiting d _ hd => rw [hnone] at hd; cases hd
  | again d output _ hd _ _ => rw [hnone] at hd; cases hd
  | released d _ hd _ => rw [hnone] at hd; cases hd
  | unconfirmed d _ hd => rw [hnone] at hd; cases hd

theorem Sound.confirmed {t : ℚ} (h : r.Sound loads job t) (hnow : t ≤ now) (call : PtzCall) {res : ScheduledPtzResult}
    (hnone : r.world.job.result = none) (hsome : (r.step loads now call).world.job.result = some res)
    (hconf : res.releaseDeliveryConfirmed) :
    ¬ ExplicitError loads job.identity r.trace ∧ Confirmation loads job.identity r.trace := by
  obtain ⟨-, -, hstep⟩ := step_fixed loads h.resources hnow call
  obtain ⟨d, hd, hconfirmed⟩ := hstep res hnone hsome hconf
  simp only [ReleaseDelivery.confirmed, Bool.and_eq_true, Bool.or_eq_true, Bool.not_eq_true'] at hconfirmed
  obtain ⟨herror, hnoted⟩ := hconfirmed
  rw [← h.fixed.identity]
  refine ⟨h.evidenced.error hnone d hd herror, ?_⟩
  have hsupported := h.evidenced.supported d hd
  rcases hnoted with happ | ⟨htransport, hpeer⟩
  · exact .inl (hsupported.application happ)
  · exact .inr ⟨hsupported.transport htransport, hsupported.peer hpeer⟩

theorem Sound.reserve {t : ℚ} (h : r.Sound loads job t) :
    (slotsOf r.world.output.ptz job.token).isSome ↔ r.world.job.Unsettled := by
  rw [← h.fixed.token]
  constructor
  · intro hheld
    by_contra hnot
    rw [h.resources.closed hnot] at hheld
    cases hheld
  · intro hun
    obtain ⟨slots, hheld, -⟩ := h.resources.held hun
    rw [hheld]
    rfl

/-! ## From construction on -/

omit [Rounding] in
theorem reservePtzCommands_ok {node : CertifiedNode} {source source' : BrokerSequences} {generation : Nat} {spec : PtzSpec}
    {draws : PtzDraws} {commands : ReservedPtzCommands}
    (h : reservePtzCommands node source generation spec draws = (.ok commands, source')) :
    (∃ sequence, commands.releaseCorrelation = ⟨sequence, draws.releaseMessage, draws.releaseRequest⟩ ∧
        sequence < 2 ^ 32 ∧
        buildPtzRequest node spec.access spec.device spec.direction false sequence draws.releaseMessage
          draws.releaseRequest draws.releaseNoise = .ok commands.release) ∧
      node.sessionKey.length = 32 ∧ commands.start.length = 101 ∧ commands.release.length = 101 ∧
      commands.started = false ∧ commands.releaseAttempts = 0 ∧ 1 ≤ generation ∧
      (1 ≤ spec.access ∧ spec.access < 2 ^ 64) ∧ 1 ≤ spec.device ∧ spec.device < 2 ^ 64 := by
  unfold reservePtzCommands at h
  split at h
  · cases h
  next hids =>
  rw [not_or, not_or, not_or, not_or, not_or] at hids
  obtain ⟨hmatch, haccess, haccess', hdevice, hdevice', -⟩ := hids
  have hgeneration : generation = source.generation := by
    simp only [BrokerSequences.matchesIdentity, Bool.not_eq_false, Bool.and_eq_true, beq_iff_eq] at hmatch
    exact hmatch.2
  have hpos := source.generation_pos
  unfold BrokerSequences.reserve at h
  split at h
  · cases h
  next reserved hreserve =>
  split at h
  · next a b c =>
    rw [if_neg (by decide)] at hreserve
    split at hreserve
    · cases hreserve
    split at hreserve
    · cases hreserve
    next hroom =>
    cases hreserve
    split at h
    · cases h
    next startWire hstart =>
    split at h
    · cases h
    next releaseWire hrelease =>
    cases h
    have hkey := buildPtzRequest_key hstart
    obtain ⟨wire, hwire, hlen⟩ := buildPtzRequest_ok node hkey spec.access spec.device spec.direction true source.next
      draws.startMessage draws.startRequest draws.startNoise
    obtain ⟨wire', hwire', hlen'⟩ := buildPtzRequest_ok node hkey spec.access spec.device spec.direction false
      (source.next + 1) draws.releaseMessage draws.releaseRequest draws.releaseNoise
    rw [hstart] at hwire
    rw [hrelease] at hwire'
    cases hwire
    cases hwire'
    exact ⟨⟨source.next + 1, rfl, by omega, hrelease⟩, hkey, hlen, hlen', rfl, rfl, by omega, by omega, by omega⟩
  · cases h

/-- A job that was built is sound, and its RELEASE carries its identifiers. -/
theorem new_sound (loads : Loads) {node : CertifiedNode} {source source' : BrokerSequences}
    {output output' : AccountOutputBudget} {generation : Nat} {spec : PtzSpec} {draws : PtzDraws} {t : ℚ}
    (hreached : output.Reached t) (ht : 0 ≤ t)
    (h : PtzScheduler.new node source output generation spec draws t = (.ok job, output', source')) :
    Sound loads job t ⟨⟨output', source', job⟩, []⟩ ∧
      buildPtzRequest node spec.access spec.device spec.direction false job.identity.correlation.sequence
        job.identity.correlation.message job.identity.correlation.request draws.releaseNoise =
        .ok job.commands.release := by
  obtain ⟨hhonours, hlast⟩ := hreached.honours
  unfold PtzScheduler.new at h
  split at h
  · cases h
  split at h
  · cases h
  next token granted hgrant =>
  obtain ⟨hslots, htoken⟩ := AccountOutputBudget.reservePtz_granted hgrant
  have hkept := hhonours.reservePtz hlast
  rw [hgrant] at hkept
  split at h
  · cases h
  next commands source'' hcommands =>
  cases h
  obtain ⟨⟨sequence, hcorrelation, hsequence, hwire⟩, hkey, hstart, hrelease, hstarted, hattempts, hgeneration, haccess,
    hdevice⟩ := reservePtzCommands_ok hcommands
  refine ⟨?_, by simp only [PtzScheduler.identity, hcorrelation]; exact hwire⟩
  have hidentity : PtzIdentity.WellFormed ⟨node, generation, spec.access, spec.device, commands.releaseCorrelation,
      commands.start, commands.release⟩ :=
    ⟨hkey, hgeneration, haccess, hdevice, by rw [hcorrelation]; exact hsequence,
      by rw [hcorrelation]; exact draws.releaseMessage.isLt, by rw [hcorrelation]; exact draws.releaseRequest.isLt,
      hstart, hrelease⟩
  exact {
    resources := {
      nonneg := ht
      job := hidentity
      honours := hkept.1
      last := hkept.2
      token := htoken
      held := fun _ => ⟨ptzSlots, hslots, rfl, rfl, fun _ => rfl⟩
      closed := fun hnot => absurd (PtzWorld.unsettled_of_none rfl) hnot
      started := hstarted
      attempts := hattempts
      releases_le := Nat.zero_le _
      untracked := fun _ => ⟨rfl, rfl, rfl⟩
      tracked := fun d hd => by cases hd
      result := fun r hr => by cases hr }
    traced := {
      clean := justified_nil _
      starts := rfl
      releases := rfl
      order := fun before p after hsplit => by
        simp only [packets, List.flatMap_nil, List.nil_eq, List.append_eq_nil_iff, reduceCtorEq, and_false] at hsplit
      start := fun hs => by cases hs
      release := fun hd => by cases hd
      cancel := rfl }
    evidenced := ⟨fun d hd => (by cases hd), fun _ d hd => (by cases hd)⟩
    fixed := ⟨rfl, rfl, rfl⟩ }

theorem new_duration {node : CertifiedNode} {source source' : BrokerSequences} {output output' : AccountOutputBudget}
    {generation : Nat} {spec : PtzSpec} {draws : PtzDraws} {t : ℚ}
    (h : PtzScheduler.new node source output generation spec draws t = (.ok job, output', source')) :
    job.duration = spec.duration := by
  unfold PtzScheduler.new at h
  split at h
  · cases h
  split at h
  · cases h
  split at h
  · cases h
  · cases h
    rfl

/-- **PTZ motor safety.** Whatever is called on a job, in whatever order at
times that do not go back, and whatever others do with the account's output and
sequences: no call fails but a poll at which a RELEASE is due and its two seconds,
as they are rounded, are no lifetime; there is at most one START, and at most three
RELEASEs, all of them the one prebuilt datagram and each after START; a result
of a started gesture counts a RELEASE; the first poll after the movement is over
that does not so fail gives a RELEASE; a result is confirmed only with evidence for the identifiers of
that RELEASE and without an explicit error among the frames considered so far,
and does not change any more; the reserve is held exactly while the job is not
over, or is over with a START that is not confirmed to have been released. -/
theorem ptz_motor_safety (loads : Loads) {node : CertifiedNode} {source source' : BrokerSequences}
    {output output' : AccountOutputBudget} {generation : Nat} {spec : PtzSpec} {draws : PtzDraws} {t : ℚ}
    {job : PtzScheduler} (hreached : output.Reached t) (ht : 0 ≤ t)
    (hnew : PtzScheduler.new node source output generation spec draws t = (.ok job, output', source'))
    (calls : List (ℚ × PtzCall)) (hclock : Clocked t calls) :
    let r := PtzRun.run loads ⟨output', source', job⟩ calls
    Justified (Clean spec.duration) r.trace ∧
    (ofKind .start (packets r.trace)).length ≤ 1 ∧
    (ofKind .release (packets r.trace)).length ≤ 3 ∧
    (∀ p ∈ ofKind .release (packets r.trace), p.wire = job.commands.release) ∧
    (∀ (before : List PtzPacket) p (after : List PtzPacket), packets r.trace = before ++ p :: after → p.kind = .release → ∃ s ∈ before, s.kind = .start) ∧
    (∀ res, r.world.job.result = some res → res.startAttempted → 1 ≤ res.releaseAttempts) ∧
    (∀ now, Clocked t (calls ++ [(now, .nextPacket)]) → FirstDue spec.duration r.trace now →
      (r.step loads now .nextPacket).trace = r.trace ++ [⟨now, .nextPacket, .ok [⟨.release, job.commands.release⟩]⟩]) ∧
    (buildPtzRequest node spec.access spec.device spec.direction false job.identity.correlation.sequence
      job.identity.correlation.message job.identity.correlation.request draws.releaseNoise = .ok job.commands.release) ∧
    (∀ now call, Clocked t (calls ++ [(now, call)]) →
      (∀ res, r.world.job.result = none → (r.step loads now call).world.job.result = some res →
        res.releaseDeliveryConfirmed →
        ¬ ExplicitError loads job.identity r.trace ∧ Confirmation loads job.identity r.trace) ∧
      ∀ res, r.world.job.result = some res → (r.step loads now call).world.job.result = some res) ∧
    ((slotsOf r.world.output.ptz job.token).isSome ↔ r.world.job.Unsettled) := by
  obtain ⟨hsound, hwire⟩ := new_sound loads hreached ht hnew
  have hduration : job.duration = spec.duration := new_duration hnew
  have h : Sound loads job (endTime t calls) (PtzRun.run loads ⟨output', source', job⟩ calls) :=
    Machine.run_inv (fun call _ hnow hs => hs.step hnow call) hclock hsound
  have hrelease := congrArg PtzIdentity.release h.fixed.identity
  have hclean := h.traced.clean
  rw [h.fixed.duration, hduration] at hclean
  refine ⟨hclean, ?_, ?_, ?_, h.traced.order, ?_, ?_, hwire, ?_, h.reserve⟩
  · rw [h.traced.starts]
    split <;> simp
  · rw [h.traced.releases, List.length_replicate]
    exact h.resources.releases_le
  · intro p hp
    rw [h.traced.releases] at hp
    rw [List.eq_of_mem_replicate hp]
    exact hrelease
  · intro res hres hstarted
    obtain ⟨hs, hreleases, hdelivery, -⟩ := h.resources.result res hres
    rw [hs] at hstarted
    obtain ⟨d, hd⟩ := Option.isSome_iff_exists.mp (hdelivery hstarted)
    rw [hreleases]
    exact (h.resources.tracked d hd).2.1
  · intro now hnext hdue
    rw [← hduration] at hdue
    exact h.release_due hnext.endTime_le hdue
  · intro now call hnext
    refine ⟨fun res hnone hsome hconf => h.confirmed hnext.endTime_le call hnone hsome hconf, ?_⟩
    exact (step_fixed loads h.resources hnext.endTime_le call).2.1

end

/-! ## A late error -/

/-- An account with one camera, and a gesture to the left on it. -/
def exampleNode : CertifiedNode := ⟨("203.0.113.7", 19000), 7, List.replicate 32 0x11⟩

def exampleSpec : PtzSpec := ⟨5, 9, .left, [.left, .right], 1 / 5⟩

def exampleDraws : PtzDraws := ⟨3, 4, 1, 2, 0, 0⟩

def exampleWorld [Rounding] (spec : PtzSpec) (now : ℚ) : Option PtzWorld :=
  match AccountOutputBudget.new none none .finite now 1, BrokerSequences.new 7 1 0 with
  | .ok output, .ok source =>
    match PtzScheduler.new exampleNode source output 1 spec exampleDraws now with
    | (.ok job, output, source) => some ⟨output, source, job⟩
    | _ => none
  | _, _ => none

def answerText (err : String) : Bytes := Bytes.ascii ("\x7b\"type\":2,\"err\":" ++ err ++ "\x7d")

/-- The application's answer to the RELEASE, decrypted. -/
def answerFrame (err : String) : Bytes :=
  ([0x7E, 0xB9] : Bytes) ++ Bytes.ofNat 2 78 ++ Bytes.ofNat 8 7 ++ Bytes.ofNat 4 0 ++ Bytes.ofNat 4 0 ++ Bytes.ofNat 4 (2 <<< 16) ++
    Bytes.ofNat 4 2 ++ Bytes.ofNat 8 5 ++ Bytes.ofNat 8 9 ++ Bytes.ofNat 4 3 ++ Bytes.ofNat 2 26 ++ Bytes.zeros 2 ++
    [0x01, 0xff, 0x00, 0x00] ++ Bytes.ofNat 4 4 ++ answerText err

/-- `json.loads` on the two answers. -/
def answerLoads : Loads := fun text =>
  if text = answerText "0" then some (.dict [("type", .int 2), ("err", .int 0)])
  else if text = answerText "1" then some (.dict [("type", .int 2), ("err", .int 1)])
  else none

/-- START at 0, RELEASE at 0.2, an answer without an error at 2.19, an error at
2.205, a poll at 2.22. -/
def lateErrorCalls : List (ℚ × PtzCall) :=
  [(0, .nextPacket), (1 / 5, .nextPacket), (219 / 100, .observe (answerFrame "0") ("203.0.113.7", 19000) 1 0),
    (441 / 200, .observe (answerFrame "1") ("203.0.113.7", 19000) 1 0), (111 / 50, .nextPacket)]

/-- START at 1.5 and a poll at the double `2.006`. -/
def stuckCalls : List (ℚ × PtzCall) :=
  [(3 / 2, .nextPacket), (4517110426252607 / 2251799813685248, .nextPacket)]

/-- In doubles `(2.006 + 2.0) - 2.006` is more than two: the poll fails, a movement of a
quarter of a second is not ended. -/
theorem release_stuck :
    letI : Rounding := .double
    Rounding.round (2006 / 1000) = 4517110426252607 / 2251799813685248 ∧
      ∃ w, exampleWorld { exampleSpec with duration := 1 / 4 } (3 / 2) = some w ∧ Clocked (3 / 2) stuckCalls ∧
        ((PtzRun.run answerLoads w stuckCalls).trace.map fun e => e.out.map (List.map Packet.kind)) =
          [.ok [.start], .error .lifetime] := by
  have h : ((@exampleWorld .double { exampleSpec with duration := 1 / 4 } (3 / 2)).any fun w =>
      decide (Clocked (3 / 2) stuckCalls ∧
        ((@PtzRun.run .double answerLoads w stuckCalls).trace.map fun e => e.out.map (List.map Packet.kind)) =
          [.ok [.start], .error .lifetime])) = true := by
    decide +kernel
  refine ⟨by decide +kernel, ?_⟩
  obtain ⟨w, hw, hholds⟩ := (Option.any_eq_true _ _).mp h
  exact ⟨w, hw, of_decide_eq_true hholds⟩

/-- The error at 2.205 comes after the two seconds of the RELEASE and is not
looked at, so the result is confirmed; the reserve is held before START; and a poll
can fail. -/
theorem late_error_confirmed :
    (∃ w, exampleWorld exampleSpec 0 = some w ∧ Clocked 0 lateErrorCalls ∧
      (PtzRun.run answerLoads w lateErrorCalls).world.job.result = some ⟨"released", true, 1, true, false⟩ ∧
      parsePtzReply answerLoads (answerFrame "1") exampleNode 5 9 w.job.commands.releaseCorrelation.sequence
        w.job.commands.releaseCorrelation.message w.job.commands.releaseCorrelation.request =
        some { errorCode := some 1 } ∧
      w.job.started = false ∧ (slotsOf w.output.ptz w.job.token).isSome) ∧
    letI : Rounding := .double
    ∃ w, exampleWorld { exampleSpec with duration := 1 / 4 } (3 / 2) = some w ∧ Clocked (3 / 2) stuckCalls ∧
      ((PtzRun.run answerLoads w stuckCalls).trace.map fun e => e.out.map (List.map Packet.kind)) =
        [.ok [.start], .error .lifetime] := by
  refine ⟨?_, release_stuck.2⟩
  have h : ((exampleWorld exampleSpec 0).any fun w => decide (Clocked 0 lateErrorCalls ∧
      (PtzRun.run answerLoads w lateErrorCalls).world.job.result = some ⟨"released", true, 1, true, false⟩ ∧
      parsePtzReply answerLoads (answerFrame "1") exampleNode 5 9 w.job.commands.releaseCorrelation.sequence
        w.job.commands.releaseCorrelation.message w.job.commands.releaseCorrelation.request =
        some { errorCode := some 1 } ∧
      w.job.started = false ∧ (slotsOf w.output.ptz w.job.token).isSome)) = true := by
    decide +kernel
  obtain ⟨w, hw, hholds⟩ := (Option.any_eq_true _ _).mp h
  exact ⟨w, hw, of_decide_eq_true hholds⟩

/-- The safety theorem applies to this run. -/
theorem ptz_motor_safety_left : ∃ source output job output' source',
    AccountOutputBudget.new none none .finite 0 1 = .ok output ∧
    PtzScheduler.new exampleNode source output 1 exampleSpec exampleDraws 0 = (.ok job, output', source') ∧
    (ofKind .start (packets (PtzRun.run answerLoads ⟨output', source', job⟩ lateErrorCalls).trace)).length ≤ 1 := by
  have h : (exampleWorld exampleSpec 0).isSome = true := by decide +kernel
  unfold exampleWorld at h
  split at h
  · next output source houtput hsource =>
    split at h
    · next job output' source' hnew =>
      have hsafe := ptz_motor_safety answerLoads (.new houtput) (le_refl 0) hnew lateErrorCalls (by decide +kernel)
      exact ⟨source, output, job, output', source', houtput, hnew, hsafe.2.1⟩
    · cases h
  · cases h

end PtzRun

end CamGuard.Account
