/-
The reserves never exceed the cleanup capacity, so the allowance that is
withheld for them is all there is to withhold; with `Honours` this is what the
output budget promises its reserves in every run.
-/
import CamGuard.Account.BudgetFacts
import CamGuard.Lib.Clocked

namespace CamGuard.Account

/-! ## The capacity -/

namespace TrafficBudget

variable (b : TrafficBudget) (now : ℚ)

@[simp] theorem cleanup_refill : (b.refill now).cleanupReserves = b.cleanupReserves := by
  unfold refill
  cases b.policy <;> rfl

theorem cleanup_available (packets octets : Nat) : (b.available now packets octets).2.cleanupReserves = b.cleanupReserves := by
  unfold available
  split
  · rfl
  · exact b.cleanup_refill now

theorem cleanup_charge (size reserved : Nat) : (b.charge now size reserved).2.cleanupReserves = b.cleanupReserves := by
  have havailable := b.cleanup_available now (1 + reserved) (size + reserved * 4096)
  unfold charge
  split
  · rfl
  · split
    · next heq =>
      rw [heq] at havailable
      exact havailable
    · next heq =>
      rw [heq] at havailable
      exact havailable
    · next heq =>
      rw [heq] at havailable
      exact havailable

end TrafficBudget

namespace AccountOutputBudget

/-- Every reserve is within what it was granted. -/
structure Within (b : AccountOutputBudget) : Prop where
  cleanup : 18 + 2 * b.mediaCapacity ≤ b.traffic.cleanupReserves
  ptz : heldSlots b.ptz ≤ 6
  siren : heldSlots b.siren ≤ 12
  media : ∀ token slots, b.media.get? token = some slots → Slots.remaining slots ≤ 2
  routes : b.media.size ≤ b.mediaCapacity

variable {b : AccountOutputBudget} {now : ℚ}

/-- **The reserves never exceed the cleanup capacity.** -/
theorem Within.reserved_le (h : b.Within) : b.reserved ≤ b.traffic.cleanupReserves := by
  have hmedia : b.media.total Slots.remaining ≤ b.media.size * 2 := by
    refine Dict.total_le fun slots hslots => ?_
    obtain ⟨e, he, rfl⟩ := List.mem_map.mp hslots
    exact h.media e.1 e.2 (Dict.get?_eq_some.mpr he)
  have := h.cleanup
  have := h.ptz
  have := h.siren
  have := h.routes
  unfold reserved
  omega

theorem within_new {packets octets : Option Nat} {policy : AccountPolicy} {mediaCapacity : Nat}
    (h : new packets octets policy now mediaCapacity = .ok b) : b.Within := by
  unfold AccountOutputBudget.new TrafficBudget.new at h
  split at h
  · cases h
  · next traffic htraffic =>
    split at htraffic
    · cases htraffic
    · cases htraffic
      cases h
      exact ⟨le_max_right _ _, Nat.zero_le _, Nat.zero_le _, by simp, Nat.zero_le _⟩

/-- Another allowance with the same capacity. -/
theorem Within.with_traffic (h : b.Within) {traffic : TrafficBudget}
    (ht : traffic.cleanupReserves = b.traffic.cleanupReserves) : Within { b with traffic := traffic } :=
  { h with cleanup := by simpa [ht] using h.cleanup }

theorem Within.charge (h : b.Within) (size : Nat) : (b.charge now size).2.Within := by
  have htraffic := b.traffic.cleanup_charge now size b.reserved
  unfold AccountOutputBudget.charge
  split
  · exact h
  split
  · next heq =>
    rw [heq] at htraffic
    exact h.with_traffic htraffic
  · next heq =>
    rw [heq] at htraffic
    exact h.with_traffic htraffic

theorem Within.withhold_cases (h : b.Within) (full : Bool) (slots : Nat) (refusal : OutputFault) :
    (∃ e b', b.withhold now full slots refusal = (.error e, b') ∧ b'.Within) ∨
      (full = false ∧ ∃ traffic, b.withhold now full slots refusal = (.ok (), { b with traffic := traffic }) ∧
        Within { b with traffic := traffic }) := by
  have havailable := b.traffic.cleanup_available now (b.reserved + slots) ((b.reserved + slots) * 4096)
  unfold AccountOutputBudget.withhold
  by_cases hfull : full
  · rw [if_pos hfull]
    exact .inl ⟨_, _, rfl, h⟩
  · rw [if_neg hfull]
    split
    · next heq =>
      rw [heq] at havailable
      exact .inl ⟨_, _, rfl, h.with_traffic havailable⟩
    · next heq =>
      rw [heq] at havailable
      exact .inl ⟨_, _, rfl, h.with_traffic havailable⟩
    · next heq =>
      rw [heq] at havailable
      exact .inr ⟨by simpa using hfull, _, rfl, h.with_traffic havailable⟩

theorem Within.reservePtz (h : b.Within) : (b.reservePtz now).2.Within := by
  unfold AccountOutputBudget.reservePtz
  rcases h.withhold_cases b.ptz.isSome 6 .ptzCapacity with ⟨e, b', heq, hb'⟩ | ⟨-, traffic, heq, hb'⟩
  · rw [heq]
    exact hb'
  · rw [heq]
    exact { hb' with ptz := (show Slots.remaining ptzSlots ≤ 6 by decide) }

theorem Within.reserveSiren (h : b.Within) : (b.reserveSiren now).2.Within := by
  unfold AccountOutputBudget.reserveSiren
  rcases h.withhold_cases b.siren.isSome 12 .sirenCapacity with ⟨e, b', heq, hb'⟩ | ⟨-, traffic, heq, hb'⟩
  · rw [heq]
    exact hb'
  · rw [heq]
    exact { hb' with siren := (show Slots.remaining sirenSlots ≤ 12 by decide) }

theorem Within.reserveMedia (h : b.Within) (hh : b.Honours) : (b.reserveMedia now).2.Within := by
  unfold AccountOutputBudget.reserveMedia
  rcases h.withhold_cases (decide (b.mediaCapacity ≤ b.media.size)) 2 .mediaCapacity with
    ⟨e, b', heq, hb'⟩ | ⟨hfull, traffic, heq, hb'⟩
  · rw [heq]
    exact hb'
  · rw [heq]
    have hnew : b.media.get? b.nextToken = none := by
      cases hslots : b.media.get? b.nextToken with
      | none => rfl
      | some slots => exact absurd (hh.media_token _ _ hslots) (lt_irrefl _)
    have hroom : b.media.size < b.mediaCapacity := by simpa using hfull
    exact { hb' with
      media := fun token slots hslots => by
        simp only [Dict.get?_set] at hslots
        split at hslots
        · cases hslots
          decide
        · exact h.media token slots hslots
      routes := by
        simp only
        rw [Dict.size_set_of_none hnew]
        exact hroom }

theorem debit_cases {κ : Type} [Fintype κ] [DecidableEq κ] (traffic : TrafficBudget) (now : ℚ) (slots : Option (Slots κ))
    (kind : κ) (size : Nat) (refusal : OutputFault) :
    (∃ e traffic', debit traffic now slots kind size refusal = (.error e, traffic') ∧
        traffic'.cleanupReserves = traffic.cleanupReserves) ∨
      ∃ own left traffic', slots = some own ∧ debit traffic now slots kind size refusal = (.ok left, traffic') ∧
        Slots.remaining left ≤ Slots.remaining own ∧ traffic'.cleanupReserves = traffic.cleanupReserves := by
  have hcharge := traffic.cleanup_charge now size 0
  unfold debit
  cases slots with
  | none => exact .inl ⟨_, _, rfl, rfl⟩
  | some own =>
    by_cases hbad : own kind = 0 ∨ size < 1 ∨ 4096 < size
    · simp only [if_pos hbad]
      exact .inl ⟨_, _, rfl, rfl⟩
    · simp only [if_neg hbad]
      split
      · next heq =>
        rw [heq] at hcharge
        exact .inl ⟨_, _, rfl, hcharge⟩
      · next heq =>
        rw [heq] at hcharge
        have hused := Slots.remaining_update (show own kind ≠ 0 by omega)
        exact .inr ⟨own, _, _, rfl, rfl, by omega, hcharge⟩

theorem Within.chargePtz (h : b.Within) (token : Nat) (kind : PtzKind) (size : Nat) :
    (b.chargePtz now token kind size).2.Within := by
  unfold AccountOutputBudget.chargePtz
  rcases debit_cases b.traffic now (slotsOf b.ptz token) kind size .ptzReservation with
    ⟨e, traffic, heq, ht⟩ | ⟨own, left, traffic, hown, heq, hleft, ht⟩
  · rw [heq]
    exact h.with_traffic ht
  · rw [heq]
    have hheld := h.ptz
    rw [slotsOf_eq_some.mp hown] at hheld
    exact { h.with_traffic ht with ptz := le_trans hleft hheld }

theorem Within.chargeSiren (h : b.Within) (token : Nat) (kind : SirenKind) (size : Nat) :
    (b.chargeSiren now token kind size).2.Within := by
  unfold AccountOutputBudget.chargeSiren
  rcases debit_cases b.traffic now (slotsOf b.siren token) kind size .sirenReservation with
    ⟨e, traffic, heq, ht⟩ | ⟨own, left, traffic, hown, heq, hleft, ht⟩
  · rw [heq]
    exact h.with_traffic ht
  · rw [heq]
    have hheld := h.siren
    rw [slotsOf_eq_some.mp hown] at hheld
    exact { h.with_traffic ht with siren := le_trans hleft hheld }

theorem Within.chargeMedia (h : b.Within) (token : Nat) (kind : MediaKind) (size : Nat) :
    (b.chargeMedia now token kind size).2.Within := by
  unfold AccountOutputBudget.chargeMedia
  rcases debit_cases b.traffic now (b.media.get? token) kind size .mediaReservation with
    ⟨e, traffic, heq, ht⟩ | ⟨own, left, traffic, hown, heq, hleft, ht⟩
  · rw [heq]
    exact h.with_traffic ht
  · rw [heq]
    exact { h.with_traffic ht with
      media := fun other slots hslots => by
        simp only [Dict.get?_set] at hslots
        split at hslots
        · cases hslots
          exact le_trans hleft (h.media token own hown)
        · exact h.media other slots hslots
      routes := by
        simp only
        rw [Dict.size_set_of_some hown]
        exact h.routes }

theorem Within.closeMedia (h : b.Within) (token : Nat) : (b.closeMedia token).Within :=
  { h with
    media := fun other slots hslots => by
      simp only [AccountOutputBudget.closeMedia, Dict.get?_erase] at hslots
      split at hslots
      · cases hslots
      · exact h.media other slots hslots
    routes := le_trans (Dict.size_erase_le ..) h.routes }

/-- **A charge on a slot a route's reserve has succeeds.** -/
theorem Honours.chargeMedia_ok (h : b.Honours) (hnow : b.traffic.last ≤ now) {token : Nat} {slots : Slots MediaKind}
    (hheld : b.media.get? token = some slots) {kind : MediaKind} (hslot : slots kind ≠ 0) {size : Nat} (hpos : 1 ≤ size)
    (hsize : size ≤ 4096) :
    ∃ traffic, b.chargeMedia now token kind size = (.ok (), { b with
      traffic := traffic
      media := b.media.set token (Function.update slots kind (slots kind - 1)) }) := by
  have hcov : b.traffic.Covers (slots.remaining - 1 + 1) := by
    refine h.covers.mono ?_
    have hused := Slots.remaining_update hslot
    have hall := Dict.total_erase hheld Slots.remaining
    simp only [reserved]
    omega
  obtain ⟨traffic, heq, -, -⟩ := debit_ok hcov hnow hslot hpos hsize .mediaReservation
  refine ⟨traffic, ?_⟩
  unfold AccountOutputBudget.chargeMedia
  rw [hheld, heq]

end AccountOutputBudget

/-- Every operation keeps the reserves within what they were granted. -/
theorem OutputOp.run_within {b : AccountOutputBudget} (h : b.Within) (hh : b.Honours) (now : ℚ) (op : OutputOp) :
    (op.run now b).Within := by
  cases op with
  | charge size => exact h.charge size
  | reservePtz => exact h.reservePtz
  | reserveSiren => exact h.reserveSiren
  | reserveMedia => exact h.reserveMedia hh
  | chargePtz token kind size => exact h.chargePtz token kind size
  | chargeSiren token kind size => exact h.chargeSiren token kind size
  | chargeMedia token kind size => exact h.chargeMedia token kind size
  | closePtz token =>
    rw [run, AccountOutputBudget.closePtz]
    split
    · exact { h with ptz := Nat.zero_le _ }
    · exact h
  | closeSiren token =>
    rw [run, AccountOutputBudget.closeSiren]
    split
    · exact { h with siren := Nat.zero_le _ }
    · exact h
  | closeMedia token => exact h.closeMedia token

/-! ## Runs -/

namespace AccountOutputBudget

/-- What holds of a budget at time `t`. -/
structure Sound (t : ℚ) (b : AccountOutputBudget) : Prop where
  honours : b.Honours
  last : b.traffic.last ≤ t
  within : b.Within

theorem Sound.step {t now : ℚ} {b : AccountOutputBudget} (h : b.Sound t) (hnow : t ≤ now) (op : OutputOp) :
    (op.run now b).Sound now where
  honours := (op.run_honours h.honours (le_trans h.last hnow)).1
  last := (op.run_honours h.honours (le_trans h.last hnow)).2
  within := op.run_within h.within h.honours now

/-- The budget after the operations. -/
def run (b : AccountOutputBudget) (ops : List (ℚ × OutputOp)) : AccountOutputBudget :=
  Machine.run (fun now op b => op.run now b) b ops

theorem sound_run {packets octets : Option Nat} {policy : AccountPolicy} {mediaCapacity : Nat} {t : ℚ}
    {b : AccountOutputBudget} (hnew : new packets octets policy t mediaCapacity = .ok b) {ops : List (ℚ × OutputOp)}
    (hclock : Clocked t ops) : (b.run ops).Sound (endTime t ops) := by
  obtain ⟨hhonours, hlast⟩ := honours_new hnew
  have hstart : b.Sound t := ⟨hhonours, le_of_eq hlast, within_new hnew⟩
  exact Machine.run_inv (fun op _ hnow hs => hs.step hnow op) hclock hstart

/-- An ordinary charge that would eat into the reserves is refused, and the
allowance is what it was, or what it has become with time. -/
theorem Sound.refused {t now : ℚ} {b : AccountOutputBudget} (h : b.Sound t) (hnow : t ≤ now) {size : Nat}
    (heats : (b.traffic.refill now).packets < 1 + b.reserved ∨
      (b.traffic.refill now).octets < size + 4096 * b.reserved) :
    ∃ fault traffic, b.charge now size = (.error fault, { b with traffic := traffic }) ∧
      (traffic = b.traffic ∨ traffic = b.traffic.refill now) := by
  unfold AccountOutputBudget.charge
  by_cases hsize : size < 1 ∨ 1024 * 1024 < size
  · rw [if_pos hsize]
    exact ⟨_, b.traffic, rfl, .inl rfl⟩
  rw [if_neg hsize]
  have hnot : ¬ (((1 + b.reserved : Nat) : ℚ) ≤ (b.traffic.refill now).packets ∧
      ((size + b.reserved * 4096 : Nat) : ℚ) ≤ (b.traffic.refill now).octets) := by
    rintro ⟨hpackets, hoctets⟩
    push_cast at hpackets hoctets
    rcases heats with heats | heats
    · linarith
    · linarith
  have hcharge : b.traffic.charge now size b.reserved = (.error .exhausted, b.traffic.refill now) := by
    have hcapacity := h.within.reserved_le
    unfold TrafficBudget.charge
    rw [if_neg (by omega), TrafficBudget.available_eq (le_trans h.last hnow), decide_eq_false hnot]
  rw [hcharge]
  exact ⟨_, _, rfl, .inr rfl⟩

/-- **The output budget honours its reserves.** Whatever is charged, reserved
and closed, under either policy: the allowance covers every reserved packet and
4096 octets for each, and the reserves are within the cleanup capacity; so a
charge of at most 4096 octets on a slot that a reserve still has goes through,
and an ordinary charge that would eat into a reserve is refused with nothing
debited. -/
theorem reserves_honoured {packets octets : Option Nat} {policy : AccountPolicy} {mediaCapacity : Nat} {t : ℚ}
    {b₀ : AccountOutputBudget} (hnew : new packets octets policy t mediaCapacity = .ok b₀) (ops : List (ℚ × OutputOp))
    (hclock : Clocked t ops) :
    let b := b₀.run ops
    (b.reserved : ℚ) ≤ b.traffic.packets ∧
    4096 * (b.reserved : ℚ) ≤ b.traffic.octets ∧
    b.reserved ≤ b.traffic.cleanupReserves ∧
    ∀ now, endTime t ops ≤ now → ∀ size,
      (1 ≤ size → size ≤ 4096 → ∀ token,
        (∀ slots kind, slotsOf b.ptz token = some slots → slots kind ≠ 0 →
          (b.chargePtz now token kind size).1 = .ok ()) ∧
        (∀ slots kind, slotsOf b.siren token = some slots → slots kind ≠ 0 →
          (b.chargeSiren now token kind size).1 = .ok ()) ∧
        ∀ slots kind, b.media.get? token = some slots → slots kind ≠ 0 →
          (b.chargeMedia now token kind size).1 = .ok ()) ∧
      ((b.traffic.refill now).packets < 1 + b.reserved ∨
          (b.traffic.refill now).octets < size + 4096 * b.reserved →
        ∃ fault traffic, b.charge now size = (.error fault, { b with traffic := traffic }) ∧
          (traffic = b.traffic ∨ traffic = b.traffic.refill now)) := by
  have h := sound_run hnew hclock
  refine ⟨h.honours.covers.packets, ?_, h.within.reserved_le, fun now hnow size => ⟨?_, h.refused hnow⟩⟩
  · have := h.honours.covers.octets
    linarith
  intro hpos hsize token
  have hlast := le_trans h.last hnow
  refine ⟨fun slots kind hheld hslot => ?_, fun slots kind hheld hslot => ?_, fun slots kind hheld hslot => ?_⟩
  · obtain ⟨b', heq, -⟩ := h.honours.chargePtz_ok hlast hheld hslot hpos hsize
    rw [heq]
  · obtain ⟨b', heq, -⟩ := h.honours.chargeSiren_ok hlast hheld hslot hpos hsize
    rw [heq]
  · obtain ⟨traffic, heq⟩ := h.honours.chargeMedia_ok hlast hheld hslot hpos hsize
    rw [heq]

/-- With 20 packets and a siren reserve, ordinary traffic stops at 12. -/
theorem reserves_honoured_siren : ∃ b₀, new (some 20) none .finite 0 1 = .ok b₀ ∧
    (b₀.run ((0, .reserveSiren) :: List.replicate 9 (1, .charge 100))).traffic.packets = 12 ∧
    (b₀.run ((0, .reserveSiren) :: List.replicate 9 (1, .charge 100))).reserved ≤ 24 := by
  refine ⟨_, rfl, by decide +kernel, ?_⟩
  have hnew : new (some 20) none .finite 0 1 = .ok _ := rfl
  have hhonoured := reserves_honoured hnew ((0, .reserveSiren) :: List.replicate 9 (1, .charge 100)) (by decide +kernel)
  exact le_trans hhonoured.2.2.1 (by decide +kernel)

end AccountOutputBudget

end CamGuard.Account
