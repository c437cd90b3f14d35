/-
The output budget honours its reserves: whatever is charged, what is withheld
for cleanup stays covered, in packets and in octets. So a charge on a slot a
reserve still has never fails, and no other traffic can make it fail.

`Covers` is the invariant of the traffic allowance, `Honours` that of the
whole budget; every operation keeps both (`OutputOp.run_honours`).
-/
import CamGuard.Account.Budget
import Mathlib.Tactic.Linarith
import Mathlib.Tactic.Positivity

namespace CamGuard.Account

/-! ## Traffic -/

/-- The allowance covers `n` packets of 4096 octets, and is not above its
limit. -/
structure TrafficBudget.Covers (b : TrafficBudget) (n : Nat) : Prop where
  packets : (n : ℚ) ≤ b.packets
  octets : (n * 4096 : ℚ) ≤ b.octets
  packets_le : b.packets ≤ b.maxPackets
  octets_le : b.octets ≤ b.maxOctets

namespace TrafficBudget

variable {b : TrafficBudget} {n : Nat} {now : ℚ}

theorem Covers.mono {m : Nat} (h : b.Covers n) (hm : m ≤ n) : b.Covers m where
  packets := le_trans (by exact_mod_cast hm) h.packets
  octets := by
    have : (m : ℚ) ≤ n := by exact_mod_cast hm
    have := h.octets
    linarith
  packets_le := h.packets_le
  octets_le := h.octets_le

/-- Time only adds to the allowance. -/
theorem Covers.refill (h : b.Covers n) (hnow : b.last ≤ now) : (b.refill now).Covers n := by
  unfold TrafficBudget.refill
  cases b.policy with
  | finite => exact ⟨h.packets, h.octets, h.packets_le, h.octets_le⟩
  | continuous =>
    have helapsed : 0 ≤ now - b.last := by linarith
    have hpackets : 0 ≤ (now - b.last) * b.maxPackets / 60 := by positivity
    have hoctets : 0 ≤ (now - b.last) * b.maxOctets / 60 := by positivity
    have h1 := h.packets
    have h2 := h.octets
    have h3 := h.packets_le
    have h4 := h.octets_le
    refine ⟨?_, ?_, min_le_left _ _, min_le_left _ _⟩
    · exact le_min (by linarith) (by linarith)
    · exact le_min (by linarith) (by linarith)

@[simp] theorem last_refill : (b.refill now).last = now := by
  unfold TrafficBudget.refill
  cases b.policy <;> rfl

theorem available_eq (hnow : b.last ≤ now) (p o : Nat) :
    b.available now p o =
      (.ok (decide ((p : ℚ) ≤ (b.refill now).packets ∧ (o : ℚ) ≤ (b.refill now).octets)), b.refill now) := by
  rw [available, if_neg (not_lt.mpr hnow)]

/-- A charge that may fail: what was covered stays covered. -/
theorem Covers.charge (h : b.Covers n) (hnow : b.last ≤ now) (size : Nat) :
    (b.charge now size n).2.Covers n ∧ (b.charge now size n).2.last ≤ now := by
  unfold TrafficBudget.charge
  split
  · exact ⟨h, hnow⟩
  rw [available_eq hnow]
  have hr := h.refill hnow
  by_cases havail : ((1 + n : Nat) : ℚ) ≤ (b.refill now).packets ∧
      ((size + n * 4096 : Nat) : ℚ) ≤ (b.refill now).octets
  · rw [decide_eq_true havail]
    obtain ⟨hp, ho⟩ := havail
    push_cast at hp ho
    have hsize : (0 : ℚ) ≤ size := by positivity
    refine ⟨⟨by linarith, by linarith, ?_, ?_⟩, le_of_eq last_refill⟩
    · have := hr.packets_le
      simp only
      linarith
    · have := hr.octets_le
      simp only
      linarith
  · rw [decide_eq_false havail]
    exact ⟨hr, le_of_eq last_refill⟩

/-- A charge on a slot that is covered succeeds and uses up just that slot. -/
theorem Covers.charge_slot (h : b.Covers (n + 1)) (hnow : b.last ≤ now) {size : Nat} (hsize : size ≤ 4096) :
    ∃ b', b.charge now size = (.ok (), b') ∧ b'.Covers n ∧ b'.last ≤ now := by
  have hr := h.refill hnow
  have hp := hr.packets
  have ho := hr.octets
  push_cast at hp ho
  have hn : (0 : ℚ) ≤ n := by positivity
  have hs : (size : ℚ) ≤ 4096 := by exact_mod_cast hsize
  have hs0 : (0 : ℚ) ≤ size := by positivity
  have havail : ((1 + 0 : Nat) : ℚ) ≤ (b.refill now).packets ∧
      ((size + 0 * 4096 : Nat) : ℚ) ≤ (b.refill now).octets := by
    push_cast
    constructor <;> linarith
  refine ⟨{ b.refill now with
    packets := (b.refill now).packets - 1
    octets := (b.refill now).octets - size }, ?_, ?_, le_of_eq last_refill⟩
  · unfold TrafficBudget.charge
    rw [if_neg (by omega), available_eq hnow, decide_eq_true havail]
  · refine ⟨by simp only; linarith, by simp only; linarith, ?_, ?_⟩
    · have := hr.packets_le
      simp only
      linarith
    · have := hr.octets_le
      simp only
      linarith

end TrafficBudget

/-! ## Slots -/

/-- A slot taken is one slot less. -/
theorem Slots.remaining_update {κ : Type} [Fintype κ] [DecidableEq κ] {slots : Slots κ} {kind : κ}
    (h : slots kind ≠ 0) :
    Slots.remaining (Function.update slots kind (slots kind - 1)) + 1 = Slots.remaining slots := by
  unfold Slots.remaining
  rw [Finset.sum_update_of_mem (Finset.mem_univ kind), Finset.sdiff_singleton_eq_erase,
    ← Finset.add_sum_erase Finset.univ slots (Finset.mem_univ kind)]
  omega

/-! ## The whole budget -/

theorem slotsOf_eq_some {κ : Type} {held : Option (Nat × Slots κ)} {token : Nat} {slots : Slots κ} :
    slotsOf held token = some slots ↔ held = some (token, slots) := by
  cases held with
  | none => simp [slotsOf]
  | some pair =>
    obtain ⟨owner, own⟩ := pair
    by_cases h : owner = token
    · simp [slotsOf, h]
    · simp [slotsOf, h]

namespace AccountOutputBudget

/-- The invariant: the reserves are covered, and no token is used twice. -/
structure Honours (b : AccountOutputBudget) : Prop where
  covers : b.traffic.Covers b.reserved
  ptz_token : ∀ token slots, b.ptz = some (token, slots) → token < b.nextToken
  siren_token : ∀ token slots, b.siren = some (token, slots) → token < b.nextToken
  media_token : ∀ token slots, b.media.get? token = some slots → token < b.nextToken

variable {b : AccountOutputBudget} {now : ℚ}

theorem honours_new {packets octets : Option Nat} {policy : AccountPolicy} {mediaCapacity : Nat}
    (h : new packets octets policy now mediaCapacity = .ok b) : b.Honours ∧ b.traffic.last = now := by
  unfold AccountOutputBudget.new TrafficBudget.new at h
  split at h
  · cases h
  · next traffic htraffic =>
    split at htraffic
    · cases htraffic
    · cases htraffic
      cases h
      exact ⟨⟨⟨by simp [reserved, heldSlots], by simp [reserved, heldSlots], le_refl _, le_refl _⟩,
        by simp, by simp, by simp⟩, rfl⟩

/-- A traffic allowance that covers the same reserves can take the place of
another. -/
theorem Honours.with_traffic (h : b.Honours) {traffic : TrafficBudget} (ht : traffic.Covers b.reserved) :
    Honours { b with traffic := traffic } :=
  ⟨ht, h.ptz_token, h.siren_token, h.media_token⟩

theorem Honours.charge (h : b.Honours) (hnow : b.traffic.last ≤ now) (size : Nat) :
    (b.charge now size).2.Honours ∧ (b.charge now size).2.traffic.last ≤ now := by
  unfold AccountOutputBudget.charge
  split
  · exact ⟨h, hnow⟩
  obtain ⟨hc, hl⟩ := h.covers.charge hnow size
  rcases hch : b.traffic.charge now size b.reserved with ⟨r, traffic⟩
  rw [hch] at hc hl
  cases r with
  | error e => exact ⟨h.with_traffic hc, hl⟩
  | ok u => exact ⟨h.with_traffic hc, hl⟩

/-- A debit on a slot a reserve has succeeds and uses up just that slot. -/
theorem debit_ok {κ : Type} [DecidableEq κ] {traffic : TrafficBudget} {slots : Slots κ} {kind : κ} {size n : Nat}
    (hcov : traffic.Covers (n + 1)) (hnow : traffic.last ≤ now) (hslot : slots kind ≠ 0) (hpos : 1 ≤ size)
    (hsize : size ≤ 4096) (refusal : OutputFault) :
    ∃ traffic', debit traffic now (some slots) kind size refusal =
        (.ok (Function.update slots kind (slots kind - 1)), traffic') ∧ traffic'.Covers n ∧ traffic'.last ≤ now := by
  obtain ⟨traffic', hch, hc, hl⟩ := hcov.charge_slot hnow hsize
  refine ⟨traffic', ?_, hc, hl⟩
  rw [debit, if_neg (by omega), hch]

/-- A debit that may fail leaves the slots it does not use covered. -/
theorem debit_covers {κ : Type} [Fintype κ] [DecidableEq κ] {traffic : TrafficBudget} {slots : Option (Slots κ)}
    {kind : κ} {size others : Nat} (hcov : ∀ own, slots = some own → traffic.Covers (others + own.remaining))
    (hnow : traffic.last ≤ now) (refusal : OutputFault) :
    (∃ own, slots = some own ∧ ∃ left traffic',
        debit traffic now slots kind size refusal = (.ok left, traffic') ∧
        traffic'.Covers (others + Slots.remaining left) ∧ traffic'.last ≤ now) ∨
      ∃ e, debit traffic now slots kind size refusal = (.error e, traffic) := by
  cases slots with
  | none => exact .inr ⟨refusal, rfl⟩
  | some own =>
    by_cases hbad : own kind = 0 ∨ size < 1 ∨ 4096 < size
    · exact .inr ⟨refusal, by rw [debit, if_pos hbad]⟩
    · have hslot : own kind ≠ 0 := by omega
      have hrem := Slots.remaining_update hslot
      have hcov' := hcov own rfl
      rw [← hrem, ← Nat.add_assoc] at hcov'
      obtain ⟨traffic', heq, hc, hl⟩ := debit_ok hcov' hnow hslot (show 1 ≤ size by omega) (by omega) refusal
      exact .inl ⟨own, rfl, _, traffic', heq, hc, hl⟩

/-- What a refusal leaves, and what an agreement allows to be reserved. -/
theorem Honours.withhold_cases (h : b.Honours) (hnow : b.traffic.last ≤ now) (full : Bool) (slots : Nat)
    (refusal : OutputFault) :
    (∃ e traffic, b.withhold now full slots refusal = (.error e, { b with traffic := traffic }) ∧
        Honours { b with traffic := traffic } ∧ traffic.last ≤ now) ∨
      (full = false ∧ ∃ traffic, b.withhold now full slots refusal = (.ok (), { b with traffic := traffic }) ∧
        traffic.Covers (b.reserved + slots) ∧ traffic.last ≤ now) := by
  unfold AccountOutputBudget.withhold
  by_cases hfull : full
  · rw [if_pos hfull]
    exact .inl ⟨refusal, b.traffic, rfl, h, hnow⟩
  rw [if_neg hfull, TrafficBudget.available_eq hnow]
  have hr := h.covers.refill hnow
  have hlast : (b.traffic.refill now).last ≤ now := le_of_eq TrafficBudget.last_refill
  by_cases havail : ((b.reserved + slots : Nat) : ℚ) ≤ (b.traffic.refill now).packets ∧
      (((b.reserved + slots) * 4096 : Nat) : ℚ) ≤ (b.traffic.refill now).octets
  · rw [decide_eq_true havail]
    refine .inr ⟨by simpa using hfull, b.traffic.refill now, rfl, ?_, hlast⟩
    exact ⟨havail.1, by exact_mod_cast havail.2, hr.packets_le, hr.octets_le⟩
  · rw [decide_eq_false havail]
    exact .inl ⟨refusal, b.traffic.refill now, rfl, h.with_traffic hr, hlast⟩

theorem Honours.reservePtz (h : b.Honours) (hnow : b.traffic.last ≤ now) :
    (b.reservePtz now).2.Honours ∧ (b.reservePtz now).2.traffic.last ≤ now := by
  unfold AccountOutputBudget.reservePtz
  rcases h.withhold_cases hnow b.ptz.isSome 6 .ptzCapacity with ⟨e, traffic, heq, hb, hl⟩ | ⟨hfull, traffic, heq, hc, hl⟩
  · rw [heq]
    exact ⟨hb, hl⟩
  · rw [heq]
    have hnone : b.ptz = none := by simpa using hfull
    have hsum : reserved { b with
        traffic := traffic
        ptz := some (b.nextToken, ptzSlots)
        nextToken := b.nextToken + 1 } = b.reserved + 6 := by
      have : Slots.remaining ptzSlots = 6 := by decide
      simp only [reserved, hnone, heldSlots]
      omega
    refine ⟨⟨by rw [hsum]; exact hc, ?_, ?_, ?_⟩, hl⟩
    · intro token slots htoken
      simp only [Option.some.injEq, Prod.mk.injEq] at htoken
      simp only
      omega
    · exact fun token slots htoken => Nat.lt_succ_of_lt (h.siren_token token slots htoken)
    · exact fun token slots htoken => Nat.lt_succ_of_lt (h.media_token token slots htoken)

theorem Honours.reserveSiren (h : b.Honours) (hnow : b.traffic.last ≤ now) :
    (b.reserveSiren now).2.Honours ∧ (b.reserveSiren now).2.traffic.last ≤ now := by
  unfold AccountOutputBudget.reserveSiren
  rcases h.withhold_cases hnow b.siren.isSome 12 .sirenCapacity with
    ⟨e, traffic, heq, hb, hl⟩ | ⟨hfull, traffic, heq, hc, hl⟩
  · rw [heq]
    exact ⟨hb, hl⟩
  · rw [heq]
    have hnone : b.siren = none := by simpa using hfull
    have hsum : reserved { b with
        traffic := traffic
        siren := some (b.nextToken, sirenSlots)
        nextToken := b.nextToken + 1 } = b.reserved + 12 := by
      have : Slots.remaining sirenSlots = 12 := by decide
      simp only [reserved, hnone, heldSlots]
      omega
    refine ⟨⟨by rw [hsum]; exact hc, ?_, ?_, ?_⟩, hl⟩
    · exact fun token slots htoken => Nat.lt_succ_of_lt (h.ptz_token token slots htoken)
    · intro token slots htoken
      simp only [Option.some.injEq, Prod.mk.injEq] at htoken
      simp only
      omega
    · exact fun token slots htoken => Nat.lt_succ_of_lt (h.media_token token slots htoken)

theorem Honours.reserveMedia (h : b.Honours) (hnow : b.traffic.last ≤ now) :
    (b.reserveMedia now).2.Honours ∧ (b.reserveMedia now).2.traffic.last ≤ now := by
  unfold AccountOutputBudget.reserveMedia
  rcases h.withhold_cases hnow (decide (b.mediaCapacity ≤ b.media.size)) 2 .mediaCapacity with
    ⟨e, traffic, heq, hb, hl⟩ | ⟨-, traffic, heq, hc, hl⟩
  · rw [heq]
    exact ⟨hb, hl⟩
  · rw [heq]
    have hnone : b.media.get? b.nextToken = none := by
      cases hget : b.media.get? b.nextToken with
      | none => rfl
      | some slots => exact absurd (h.media_token _ _ hget) (lt_irrefl _)
    have hsum : reserved { b with
        traffic := traffic
        media := b.media.set b.nextToken mediaSlots
        nextToken := b.nextToken + 1 } = b.reserved + 2 := by
      have : Slots.remaining mediaSlots = 2 := by decide
      simp only [reserved, Dict.total_set_of_none hnone]
      omega
    refine ⟨⟨by rw [hsum]; exact hc, ?_, ?_, ?_⟩, hl⟩
    · exact fun token slots htoken => Nat.lt_succ_of_lt (h.ptz_token token slots htoken)
    · exact fun token slots htoken => Nat.lt_succ_of_lt (h.siren_token token slots htoken)
    · intro token slots htoken
      rw [Dict.get?_set] at htoken
      split at htoken
      · next hnew =>
        rw [hnew]
        exact Nat.lt_succ_self _
      · exact Nat.lt_succ_of_lt (h.media_token token slots htoken)

/-! ## Charges and closes of a reserve -/

theorem Honours.chargePtz (h : b.Honours) (hnow : b.traffic.last ≤ now) (token : Nat) (kind : PtzKind) (size : Nat) :
    (b.chargePtz now token kind size).2.Honours ∧ (b.chargePtz now token kind size).2.traffic.last ≤ now := by
  have hcov : ∀ own, slotsOf b.ptz token = some own →
      b.traffic.Covers (b.media.total Slots.remaining + heldSlots b.siren + own.remaining) := by
    intro own hown
    refine h.covers.mono ?_
    rw [slotsOf_eq_some] at hown
    simp only [reserved, hown, heldSlots]
    omega
  unfold AccountOutputBudget.chargePtz
  rcases debit_covers hcov hnow .ptzReservation with ⟨own, hown, left, traffic, heq, hc, hl⟩ | ⟨e, heq⟩
  · rw [heq]
    rw [slotsOf_eq_some] at hown
    refine ⟨⟨?_, ?_, h.siren_token, h.media_token⟩, hl⟩
    · refine hc.mono ?_
      simp only [reserved, heldSlots]
      omega
    · intro token' slots htoken
      simp only [Option.some.injEq, Prod.mk.injEq] at htoken
      have := h.ptz_token token own hown
      simp only
      omega
  · rw [heq]
    exact ⟨h, hnow⟩

theorem Honours.chargeSiren (h : b.Honours) (hnow : b.traffic.last ≤ now) (token : Nat) (kind : SirenKind)
    (size : Nat) :
    (b.chargeSiren now token kind size).2.Honours ∧ (b.chargeSiren now token kind size).2.traffic.last ≤ now := by
  have hcov : ∀ own, slotsOf b.siren token = some own →
      b.traffic.Covers (heldSlots b.ptz + b.media.total Slots.remaining + own.remaining) := by
    intro own hown
    refine h.covers.mono ?_
    rw [slotsOf_eq_some] at hown
    simp only [reserved, hown, heldSlots]
    omega
  unfold AccountOutputBudget.chargeSiren
  rcases debit_covers hcov hnow .sirenReservation with ⟨own, hown, left, traffic, heq, hc, hl⟩ | ⟨e, heq⟩
  · rw [heq]
    rw [slotsOf_eq_some] at hown
    refine ⟨⟨?_, h.ptz_token, ?_, h.media_token⟩, hl⟩
    · refine hc.mono ?_
      simp only [reserved, heldSlots]
      omega
    · intro token' slots htoken
      simp only [Option.some.injEq, Prod.mk.injEq] at htoken
      have := h.siren_token token own hown
      simp only
      omega
  · rw [heq]
    exact ⟨h, hnow⟩

theorem Honours.chargeMedia (h : b.Honours) (hnow : b.traffic.last ≤ now) (token : Nat) (kind : MediaKind)
    (size : Nat) :
    (b.chargeMedia now token kind size).2.Honours ∧ (b.chargeMedia now token kind size).2.traffic.last ≤ now := by
  have hcov : ∀ own, b.media.get? token = some own →
      b.traffic.Covers (heldSlots b.ptz + (b.media.erase token).total Slots.remaining + heldSlots b.siren +
        own.remaining) := by
    intro own hown
    have := Dict.total_erase hown Slots.remaining
    refine h.covers.mono ?_
    simp only [reserved]
    omega
  unfold AccountOutputBudget.chargeMedia
  rcases debit_covers hcov hnow .mediaReservation with ⟨own, hown, left, traffic, heq, hc, hl⟩ | ⟨e, heq⟩
  · rw [heq]
    refine ⟨⟨?_, h.ptz_token, h.siren_token, ?_⟩, hl⟩
    · have := Dict.total_set_of_some hown left Slots.remaining
      have := Dict.total_erase hown Slots.remaining
      refine hc.mono ?_
      simp only [reserved]
      omega
    · intro token' slots htoken
      rw [Dict.get?_set] at htoken
      split at htoken
      · next hsame =>
        rw [hsame]
        exact h.media_token token own hown
      · exact h.media_token token' slots htoken
  · rw [heq]
    exact ⟨h, hnow⟩

theorem Honours.closePtz (h : b.Honours) (token : Nat) : (b.closePtz token).Honours := by
  unfold AccountOutputBudget.closePtz
  split
  · refine ⟨h.covers.mono ?_, by simp, h.siren_token, h.media_token⟩
    simp only [reserved, heldSlots]
    omega
  · exact h

theorem Honours.closeSiren (h : b.Honours) (token : Nat) : (b.closeSiren token).Honours := by
  unfold AccountOutputBudget.closeSiren
  split
  · refine ⟨h.covers.mono ?_, h.ptz_token, by simp, h.media_token⟩
    simp only [reserved, heldSlots]
    omega
  · exact h

theorem Honours.closeMedia (h : b.Honours) (token : Nat) : (b.closeMedia token).Honours := by
  refine ⟨h.covers.mono ?_, h.ptz_token, h.siren_token, ?_⟩
  · have := Dict.total_erase_le b.media token Slots.remaining
    simp only [reserved, AccountOutputBudget.closeMedia]
    omega
  · intro token' slots htoken
    simp only [AccountOutputBudget.closeMedia, Dict.get?_erase] at htoken
    split at htoken
    · cases htoken
    · exact h.media_token token' slots htoken

/-! ## What a reserve's own charge does -/

/-- A charge that went through: one slot of `kind` less in the reserve that
`held` refers to. -/
structure Charged {κ : Type} [DecidableEq κ] (held : AccountOutputBudget → Option (Nat × Slots κ))
    (b b' : AccountOutputBudget) (token : Nat) (kind : κ) (now : ℚ) : Prop where
  honours : b'.Honours
  last : b'.traffic.last ≤ now
  slots : ∀ slots, slotsOf (held b) token = some slots →
    slotsOf (held b') token = some (Function.update slots kind (slots kind - 1))
  next : b'.nextToken = b.nextToken

theorem Charged.held {κ : Type} [DecidableEq κ] {held : AccountOutputBudget → Option (Nat × Slots κ)}
    {b b' : AccountOutputBudget} {token : Nat} {kind : κ} {slots : Slots κ} (h : Charged held b b' token kind now)
    (hheld : slotsOf (held b) token = some slots) :
    ∃ slots', slotsOf (held b') token = some slots' ∧ slots' kind = slots kind - 1 ∧
      ∀ other, other ≠ kind → slots' other = slots other :=
  ⟨_, h.slots slots hheld, Function.update_self .., fun _ hother => Function.update_of_ne hother ..⟩

/-- **A charge on a slot the PTZ reserve has succeeds.** -/
theorem Honours.chargePtz_ok (h : b.Honours) (hnow : b.traffic.last ≤ now) {token : Nat} {slots : Slots PtzKind}
    (hheld : slotsOf b.ptz token = some slots) {kind : PtzKind} (hslot : slots kind ≠ 0) {size : Nat} (hpos : 1 ≤ size)
    (hsize : size ≤ 4096) :
    ∃ b', b.chargePtz now token kind size = (.ok (), b') ∧ Charged AccountOutputBudget.ptz b b' token kind now := by
  have hkeep := h.chargePtz hnow token kind size
  have hcov : b.traffic.Covers (slots.remaining - 1 + 1) := by
    refine h.covers.mono ?_
    have := Slots.remaining_update hslot
    rw [slotsOf_eq_some] at hheld
    simp only [reserved, hheld, heldSlots]
    omega
  obtain ⟨traffic, heq, -, -⟩ := debit_ok hcov hnow hslot hpos hsize .ptzReservation
  have hcharge : b.chargePtz now token kind size = (.ok (), { b with
      traffic := traffic
      ptz := some (token, Function.update slots kind (slots kind - 1)) }) := by
    unfold AccountOutputBudget.chargePtz
    rw [hheld, heq]
  rw [hcharge] at hkeep
  refine ⟨_, hcharge, hkeep.1, hkeep.2, fun own hown => ?_, rfl⟩
  rw [hheld] at hown
  cases hown
  simp [slotsOf]

/-- **A charge on a slot the siren reserve has succeeds.** -/
theorem Honours.chargeSiren_ok (h : b.Honours) (hnow : b.traffic.last ≤ now) {token : Nat} {slots : Slots SirenKind}
    (hheld : slotsOf b.siren token = some slots) {kind : SirenKind} (hslot : slots kind ≠ 0) {size : Nat}
    (hpos : 1 ≤ size) (hsize : size ≤ 4096) :
    ∃ b', b.chargeSiren now token kind size = (.ok (), b') ∧ Charged AccountOutputBudget.siren b b' token kind now := by
  have hkeep := h.chargeSiren hnow token kind size
  have hcov : b.traffic.Covers (slots.remaining - 1 + 1) := by
    refine h.covers.mono ?_
    have := Slots.remaining_update hslot
    rw [slotsOf_eq_some] at hheld
    simp only [reserved, hheld, heldSlots]
    omega
  obtain ⟨traffic, heq, -, -⟩ := debit_ok hcov hnow hslot hpos hsize .sirenReservation
  have hcharge : b.chargeSiren now token kind size = (.ok (), { b with
      traffic := traffic
      siren := some (token, Function.update slots kind (slots kind - 1)) }) := by
    unfold AccountOutputBudget.chargeSiren
    rw [hheld, heq]
  rw [hcharge] at hkeep
  refine ⟨_, hcharge, hkeep.1, hkeep.2, fun own hown => ?_, rfl⟩
  rw [hheld] at hown
  cases hown
  simp [slotsOf]

theorem slotsOf_closePtz (b : AccountOutputBudget) (token : Nat) : slotsOf (b.closePtz token).ptz token = none := by
  unfold AccountOutputBudget.closePtz
  split
  · rfl
  · next h => simpa using h

/-- What a reserve that was granted is. -/
theorem reservePtz_granted {token : Nat} {b' : AccountOutputBudget} (h : b.reservePtz now = (.ok token, b')) :
    slotsOf b'.ptz token = some ptzSlots ∧ token < b'.nextToken := by
  unfold AccountOutputBudget.reservePtz at h
  split at h
  · cases h
  · cases h
    exact ⟨by simp [slotsOf], Nat.lt_succ_self _⟩

theorem reserveSiren_granted {token : Nat} {b' : AccountOutputBudget} (h : b.reserveSiren now = (.ok token, b')) :
    slotsOf b'.siren token = some sirenSlots ∧ token < b'.nextToken := by
  unfold AccountOutputBudget.reserveSiren at h
  split at h
  · cases h
  · cases h
    exact ⟨by simp [slotsOf], Nat.lt_succ_self _⟩

/-! ## What others cannot do to a reserve -/

theorem charge_shape (b : AccountOutputBudget) (now : ℚ) (size : Nat) :
    ∃ traffic, (b.charge now size).2 = { b with traffic := traffic } := by
  unfold AccountOutputBudget.charge
  split
  · exact ⟨b.traffic, rfl⟩
  · split
    · exact ⟨_, rfl⟩
    · exact ⟨_, rfl⟩

theorem withhold_shape (b : AccountOutputBudget) (now : ℚ) (full : Bool) (slots : Nat) (refusal : OutputFault) :
    (full = false ∧ ∃ traffic, b.withhold now full slots refusal = (.ok (), { b with traffic := traffic })) ∨
      ∃ e traffic, b.withhold now full slots refusal = (.error e, { b with traffic := traffic }) := by
  unfold AccountOutputBudget.withhold
  cases full with
  | true => exact .inr ⟨refusal, b.traffic, rfl⟩
  | false =>
    rw [if_neg (by simp)]
    split
    · exact .inr ⟨_, _, rfl⟩
    · exact .inr ⟨_, _, rfl⟩
    · exact .inl ⟨rfl, _, rfl⟩

/-- The three kinds of reserve, as far as another's token is concerned. -/
structure Frames (b b' : AccountOutputBudget) (token : Nat) : Prop where
  ptz : slotsOf b'.ptz token = slotsOf b.ptz token
  siren : slotsOf b'.siren token = slotsOf b.siren token
  next : b.nextToken ≤ b'.nextToken

theorem Frames.traffic (b : AccountOutputBudget) (traffic : TrafficBudget) (token : Nat) :
    Frames b { b with traffic := traffic } token := ⟨rfl, rfl, le_refl _⟩

theorem slotsOf_new {κ : Type} {owner token : Nat} {slots : Slots κ} (h : owner ≠ token) :
    slotsOf (some (owner, slots)) token = none := by
  rw [slotsOf, if_neg h]

theorem frames_reservePtz (b : AccountOutputBudget) (now : ℚ) {token : Nat} (h : token < b.nextToken) :
    Frames b (b.reservePtz now).2 token := by
  unfold AccountOutputBudget.reservePtz
  rcases b.withhold_shape now b.ptz.isSome 6 .ptzCapacity with ⟨hfull, traffic, heq⟩ | ⟨e, traffic, heq⟩
  · have hnone : b.ptz = none := by simpa using hfull
    rw [heq]
    refine ⟨?_, rfl, Nat.le_succ _⟩
    rw [hnone]
    exact slotsOf_new (by simp only; omega)
  · rw [heq]
    exact .traffic b traffic token

theorem frames_reserveSiren (b : AccountOutputBudget) (now : ℚ) {token : Nat} (h : token < b.nextToken) :
    Frames b (b.reserveSiren now).2 token := by
  unfold AccountOutputBudget.reserveSiren
  rcases b.withhold_shape now b.siren.isSome 12 .sirenCapacity with ⟨hfull, traffic, heq⟩ | ⟨e, traffic, heq⟩
  · have hnone : b.siren = none := by simpa using hfull
    rw [heq]
    refine ⟨rfl, ?_, Nat.le_succ _⟩
    rw [hnone]
    exact slotsOf_new (by simp only; omega)
  · rw [heq]
    exact .traffic b traffic token

theorem frames_reserveMedia (b : AccountOutputBudget) (now : ℚ) (token : Nat) :
    Frames b (b.reserveMedia now).2 token := by
  unfold AccountOutputBudget.reserveMedia
  rcases b.withhold_shape now (decide (b.mediaCapacity ≤ b.media.size)) 2 .mediaCapacity with
    ⟨-, traffic, heq⟩ | ⟨e, traffic, heq⟩
  · rw [heq]
    exact ⟨rfl, rfl, Nat.le_succ _⟩
  · rw [heq]
    exact .traffic b traffic token

/-- A debit on a reserve that is not the one referred to changes nothing. -/
theorem frames_chargePtz (b : AccountOutputBudget) (now : ℚ) {owner token : Nat} (kind : PtzKind) (size : Nat)
    (h : owner ≠ token) : Frames b (b.chargePtz now owner kind size).2 token := by
  unfold AccountOutputBudget.chargePtz
  cases hheld : slotsOf b.ptz owner with
  | none => exact .traffic b b.traffic token
  | some slots =>
    split
    · exact .traffic b _ token
    · refine ⟨?_, rfl, le_refl _⟩
      rw [slotsOf_eq_some.mp hheld, slotsOf_new h, slotsOf_new h]

theorem frames_chargeSiren (b : AccountOutputBudget) (now : ℚ) {owner token : Nat} (kind : SirenKind) (size : Nat)
    (h : owner ≠ token) : Frames b (b.chargeSiren now owner kind size).2 token := by
  unfold AccountOutputBudget.chargeSiren
  cases hheld : slotsOf b.siren owner with
  | none => exact .traffic b b.traffic token
  | some slots =>
    split
    · exact .traffic b _ token
    · refine ⟨rfl, ?_, le_refl _⟩
      rw [slotsOf_eq_some.mp hheld, slotsOf_new h, slotsOf_new h]

theorem frames_chargeMedia (b : AccountOutputBudget) (now : ℚ) (owner token : Nat) (kind : MediaKind) (size : Nat) :
    Frames b (b.chargeMedia now owner kind size).2 token := by
  unfold AccountOutputBudget.chargeMedia
  split
  · exact .traffic b _ token
  · exact ⟨rfl, rfl, le_refl _⟩

theorem frames_closePtz (b : AccountOutputBudget) {owner token : Nat} (h : owner ≠ token) :
    Frames b (b.closePtz owner) token := by
  unfold AccountOutputBudget.closePtz
  split
  · next hheld =>
    obtain ⟨slots, hheld⟩ := Option.isSome_iff_exists.mp hheld
    refine ⟨?_, rfl, le_refl _⟩
    rw [slotsOf_eq_some.mp hheld, slotsOf_new h]
    rfl
  · exact .traffic b b.traffic token

theorem frames_closeSiren (b : AccountOutputBudget) {owner token : Nat} (h : owner ≠ token) :
    Frames b (b.closeSiren owner) token := by
  unfold AccountOutputBudget.closeSiren
  split
  · next hheld =>
    obtain ⟨slots, hheld⟩ := Option.isSome_iff_exists.mp hheld
    refine ⟨rfl, ?_, le_refl _⟩
    rw [slotsOf_eq_some.mp hheld, slotsOf_new h]
    rfl
  · exact .traffic b b.traffic token

end AccountOutputBudget

/-- **Every operation keeps the reserves covered.** -/
theorem OutputOp.run_honours {b : AccountOutputBudget} {now : ℚ} (h : b.Honours) (hnow : b.traffic.last ≤ now)
    (op : OutputOp) : (op.run now b).Honours ∧ (op.run now b).traffic.last ≤ now := by
  cases op with
  | charge size => exact h.charge hnow size
  | reservePtz => exact h.reservePtz hnow
  | reserveSiren => exact h.reserveSiren hnow
  | reserveMedia => exact h.reserveMedia hnow
  | chargePtz token kind size => exact h.chargePtz hnow token kind size
  | chargeSiren token kind size => exact h.chargeSiren hnow token kind size
  | chargeMedia token kind size => exact h.chargeMedia hnow token kind size
  | closePtz token => exact ⟨h.closePtz token, by rw [run, AccountOutputBudget.closePtz]; split <;> exact hnow⟩
  | closeSiren token => exact ⟨h.closeSiren token, by rw [run, AccountOutputBudget.closeSiren]; split <;> exact hnow⟩
  | closeMedia token => exact ⟨h.closeMedia token, hnow⟩

/-- The budgets an account can have at a time. -/
inductive AccountOutputBudget.Reached : ℚ → AccountOutputBudget → Prop
  | new {packets octets : Option Nat} {policy : AccountPolicy} {now : ℚ} {mediaCapacity : Nat} {b : AccountOutputBudget} :
    AccountOutputBudget.new packets octets policy now mediaCapacity = .ok b → Reached now b
  | op {t now : ℚ} {b : AccountOutputBudget} (op : OutputOp) : Reached t b → t ≤ now → Reached now (op.run now b)

theorem AccountOutputBudget.Reached.honours {t : ℚ} {b : AccountOutputBudget} (h : Reached t b) :
    b.Honours ∧ b.traffic.last ≤ t := by
  induction h with
  | new hnew =>
    obtain ⟨hhonours, hlast⟩ := honours_new hnew
    exact ⟨hhonours, le_of_eq hlast⟩
  | op op _ hnow ih => exact op.run_honours ih.1 (le_trans ih.2 hnow)

/-- **Nobody else can touch a reserve**: not its slots while it is held, and
its token is not given out again. -/
theorem OutputOp.run_frames (op : OutputOp) (now : ℚ) (b : AccountOutputBudget) {token : Nat}
    (hother : op.on token = false) (hold : token < b.nextToken) : b.Frames (op.run now b) token := by
  cases op with
  | charge size =>
    obtain ⟨traffic, heq⟩ := b.charge_shape now size
    rw [run, heq]
    exact .traffic b traffic token
  | reservePtz => exact b.frames_reservePtz now hold
  | reserveSiren => exact b.frames_reserveSiren now hold
  | reserveMedia => exact b.frames_reserveMedia now token
  | chargePtz owner kind size => exact b.frames_chargePtz now kind size (by simpa [on] using hother)
  | chargeSiren owner kind size => exact b.frames_chargeSiren now kind size (by simpa [on] using hother)
  | chargeMedia owner kind size => exact b.frames_chargeMedia now owner token kind size
  | closePtz owner => exact b.frames_closePtz (by simpa [on] using hother)
  | closeSiren owner => exact b.frames_closeSiren (by simpa [on] using hother)
  | closeMedia owner => exact ⟨rfl, rfl, le_refl _⟩

end CamGuard.Account
