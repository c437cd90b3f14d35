/-
The two rates hold over every window of time: the media session's budget and the
account's traffic budget are meters of token buckets, and a budget under the finite
policy is one that nothing flows into.
-/
import Mathlib.Tactic.NormNum
import CamGuard.Account.BudgetFacts
import CamGuard.Media.RateBudget

namespace CamGuard.Account

open TokenBucket

/-- What a budget counts. -/
inductive TrafficDimension where
  | packets
  | octets
  deriving DecidableEq, Repr

instance : Fintype TrafficDimension := ⟨{.packets, .octets}, fun dim => by cases dim <;> decide⟩

/-- The arguments of a charge, of any sign, and the clock when it is made. -/
structure TrafficCharge where
  now : ℚ
  size : Int
  reserved : Int
  deriving DecidableEq, Repr

/-- What a charge takes when it is met. -/
def TrafficCharge.cost (c : TrafficCharge) : TrafficDimension → ℚ
  | .packets => 1
  | .octets => c.size

/-- What a charge asks for, with what is withheld for the reserves. -/
def TrafficCharge.need (c : TrafficCharge) : TrafficDimension → ℚ
  | .packets => 1 + c.reserved
  | .octets => c.size + c.reserved * 4096

/-- The charge as a demand on a token bucket. -/
def TrafficCharge.demand (c : TrafficCharge) : Demand TrafficDimension ℚ := ⟨c.now, c.need, c.cost⟩

namespace TrafficBudget

/-- What a dimension can hold. -/
def limit (b : TrafficBudget) : TrafficDimension → Nat
  | .packets => b.maxPackets
  | .octets => b.maxOctets

/-- What a dimension has left. -/
def credit (b : TrafficBudget) : TrafficDimension → ℚ
  | .packets => b.packets
  | .octets => b.octets

/-- A call of `charge`: an argument below zero is refused with those above the bounds. -/
def take (b : TrafficBudget) (c : TrafficCharge) : Except TrafficFault Unit × TrafficBudget :=
  if c.size < 0 ∨ c.reserved < 0 then (.error .charge, b) else b.charge c.now c.size.toNat c.reserved.toNat

/-- The charges admitted in a run, and the budget after it. -/
def run (b : TrafficBudget) : List TrafficCharge → List TrafficCharge × TrafficBudget
  | [] => ([], b)
  | c :: cs =>
    let rest := run (b.take c).2 cs
    (if (b.take c).1.isOk then c :: rest.1 else rest.1, rest.2)

/-- A limit in sixty seconds under the continuous policy, nothing under the finite. -/
def rate (b : TrafficBudget) (dim : TrafficDimension) : ℚ :=
  match b.policy with
  | .finite => 0
  | .continuous => b.limit dim / 60

theorem rate_finite {b : TrafficBudget} (h : b.policy = .finite) (dim : TrafficDimension) : b.rate dim = 0 := by
  rw [rate, h]

theorem rate_continuous {b : TrafficBudget} (h : b.policy = .continuous) (dim : TrafficDimension) :
    b.rate dim = b.limit dim / 60 := by
  rw [rate, h]

theorem rate_nonneg (b : TrafficBudget) (dim : TrafficDimension) : 0 ≤ b.rate dim := by
  unfold rate
  cases b.policy with
  | finite => exact le_rfl
  | continuous => exact div_nonneg (b.limit dim).cast_nonneg (by norm_num)

/-- The limits and the rate of the budget's token bucket. -/
def limits (b : TrafficBudget) : Limits TrafficDimension ℚ where
  limit dim := b.limit dim
  rate := b.rate
  limit_nonneg dim := (b.limit dim).cast_nonneg
  rate_nonneg := b.rate_nonneg

/-- How full the token bucket is. -/
def level (b : TrafficBudget) : Level TrafficDimension ℚ := ⟨b.credit, b.last⟩

/-- Built with the same arguments. -/
structure Alike (b c : TrafficBudget) : Prop where
  maxPackets : c.maxPackets = b.maxPackets
  maxOctets : c.maxOctets = b.maxOctets
  policy : c.policy = b.policy
  cleanupReserves : c.cleanupReserves = b.cleanupReserves

theorem Alike.limits {b c : TrafficBudget} (h : Alike b c) : c.limits = b.limits := by
  obtain ⟨maxPackets, maxOctets, packets, octets, policy, cleanupReserves, last⟩ := b
  obtain ⟨rfl, rfl, rfl, rfl⟩ := h
  rfl

theorem refill_alike (b : TrafficBudget) (now : ℚ) : Alike b (b.refill now) := by
  unfold refill
  split
  · exact ⟨rfl, rfl, rfl, rfl⟩
  · exact ⟨rfl, rfl, rfl, rfl⟩

theorem refill_level {b : TrafficBudget} {now : ℚ} (h : b.level.Sound b.limits) :
    (b.refill now).level = b.level.refill b.limits now := by
  obtain ⟨maxPackets, maxOctets, packets, octets, policy, cleanupReserves, last⟩ := b
  unfold level Level.refill
  cases policy with
  | finite =>
    congr 1
    funext dim
    cases dim with
    | packets =>
      have hlimit : packets ≤ maxPackets := (h .packets).2
      change packets = min (maxPackets : ℚ) (packets + (now - last) * 0)
      rw [mul_zero, add_zero, min_eq_right hlimit]
    | octets =>
      have hlimit : octets ≤ maxOctets := (h .octets).2
      change octets = min (maxOctets : ℚ) (octets + (now - last) * 0)
      rw [mul_zero, add_zero, min_eq_right hlimit]
  | continuous =>
    congr 1
    funext dim
    cases dim with
    | packets => simp [refill, credit, limits, rate, limit, mul_div_assoc]
    | octets => simp [refill, credit, limits, rate, limit, mul_div_assoc]

/-- The arguments `charge` accepts, with `bound` reserves at most. -/
def Accepts (bound : Nat) (c : TrafficCharge) : Prop :=
  0 ≤ c.size ∧ c.size ≤ 1024 * 1024 ∧ 0 ≤ c.reserved ∧ c.reserved ≤ bound

theorem take_invalid {b : TrafficBudget} {c : TrafficCharge} (h : ¬Accepts b.cleanupReserves c) :
    b.take c = (.error .charge, b) := by
  unfold take charge
  split
  · rfl
  · rename_i hsign
    rw [if_pos]
    unfold Accepts at h
    omega

/-- What a charge of accepted arguments can do. -/
theorem charge_cases {b : TrafficBudget} {size reserved : Nat} (hsize : size ≤ 1024 * 1024)
    (hreserved : reserved ≤ b.cleanupReserves) (now : ℚ) :
    (now < b.last ∧ b.charge now size reserved = (.error .clock, b)) ∨
      b.last ≤ now ∧
        (((1 + reserved : Nat) : ℚ) ≤ (b.refill now).packets ∧ ((size + reserved * 4096 : Nat) : ℚ) ≤ (b.refill now).octets ∧
            b.charge now size reserved = (.ok (), { b.refill now with
              packets := (b.refill now).packets - 1
              octets := (b.refill now).octets - size }) ∨
          ¬(((1 + reserved : Nat) : ℚ) ≤ (b.refill now).packets ∧
              ((size + reserved * 4096 : Nat) : ℚ) ≤ (b.refill now).octets) ∧
            b.charge now size reserved = (.error .exhausted, b.refill now)) := by
  have hbounds : ¬(1024 * 1024 < size ∨ b.cleanupReserves < reserved) := by omega
  unfold charge
  rw [if_neg hbounds]
  by_cases hpast : now < b.last
  · left
    rw [available, if_pos hpast]
    exact ⟨hpast, rfl⟩
  have hnow : b.last ≤ now := not_lt.mp hpast
  refine .inr ⟨hnow, ?_⟩
  rw [available_eq hnow]
  by_cases hcovers : ((1 + reserved : Nat) : ℚ) ≤ (b.refill now).packets ∧
      ((size + reserved * 4096 : Nat) : ℚ) ≤ (b.refill now).octets
  · left
    rw [decide_eq_true hcovers]
    exact ⟨hcovers.1, hcovers.2, rfl⟩
  · right
    rw [decide_eq_false hcovers]
    exact ⟨hcovers, rfl⟩

theorem covers_iff {b : TrafficBudget} {size reserved : Nat} (now : ℚ) :
    b.level.Covers (TrafficCharge.demand ⟨now, size, reserved⟩) ↔
      ((1 + reserved : Nat) : ℚ) ≤ b.packets ∧ ((size + reserved * 4096 : Nat) : ℚ) ≤ b.octets := by
  push_cast
  constructor
  · intro hmet
    exact ⟨hmet .packets, hmet .octets⟩
  · rintro ⟨hpackets, hoctets⟩ dim
    cases dim with
    | packets => exact hpackets
    | octets => exact hoctets

theorem take_level {b : TrafficBudget} {c : TrafficCharge} (h : b.level.Sound b.limits)
    (hvalid : Accepts b.cleanupReserves c) :
    (b.take c).1.isOk = (b.level.spend b.limits c.demand).1 ∧
      (b.take c).2.level = (b.level.spend b.limits c.demand).2 := by
  obtain ⟨now, size, reserved⟩ := c
  obtain ⟨hsize, hsizeMax, hreserved, hreservedMax⟩ := hvalid
  obtain ⟨size, rfl⟩ := Int.eq_ofNat_of_zero_le hsize
  obtain ⟨reserved, rfl⟩ := Int.eq_ofNat_of_zero_le hreserved
  have htake : b.take ⟨now, size, reserved⟩ = b.charge now size reserved := by
    unfold take
    rw [if_neg (by dsimp only; omega)]
    rfl
  have hfill : (b.refill now).level = b.level.refill b.limits now := refill_level h
  have hsizeLe : size ≤ 1024 * 1024 := Int.ofNat_le.mp hsizeMax
  have hreservedLe : reserved ≤ b.cleanupReserves := Int.ofNat_le.mp hreservedMax
  rw [htake]
  rcases charge_cases hsizeLe hreservedLe now with ⟨hpast, heq⟩ | ⟨hnow, ⟨hpackets, hoctets, heq⟩ | ⟨hshort, heq⟩⟩
  · have hspend := Level.spend_past (L := b.limits) (b := b.level) (d := TrafficCharge.demand ⟨now, size, reserved⟩)
      hpast
    rw [heq, hspend]
    exact ⟨rfl, rfl⟩
  · have hmet := (covers_iff now).mpr ⟨hpackets, hoctets⟩
    rw [hfill] at hmet
    have hspend := Level.spend_met (d := TrafficCharge.demand ⟨now, size, reserved⟩) hnow hmet
    rw [heq, hspend]
    refine ⟨rfl, ?_⟩
    change _ = (b.level.refill b.limits now).debit _
    rw [← hfill]
    unfold level Level.debit
    congr 1
    funext dim
    cases dim with
    | packets => rfl
    | octets => simp [credit, TrafficCharge.demand, TrafficCharge.cost]
  · have hunmet := mt (covers_iff now).mp hshort
    rw [hfill] at hunmet
    have hspend := Level.spend_short (d := TrafficCharge.demand ⟨now, size, reserved⟩) hnow hunmet
    rw [heq, hspend]
    exact ⟨rfl, hfill⟩

theorem charge_alike (b : TrafficBudget) (now : ℚ) (size reserved : Nat) : Alike b (b.charge now size reserved).2 := by
  have hrefill := refill_alike b now
  by_cases hbounds : 1024 * 1024 < size ∨ b.cleanupReserves < reserved
  · unfold charge
    rw [if_pos hbounds]
    exact ⟨rfl, rfl, rfl, rfl⟩
  obtain ⟨hsize, hreserved⟩ := not_or.mp hbounds
  rcases charge_cases (not_lt.mp hsize) (not_lt.mp hreserved) now with
    ⟨_, heq⟩ | ⟨_, ⟨_, _, heq⟩ | ⟨_, heq⟩⟩
  · rw [heq]
    exact ⟨rfl, rfl, rfl, rfl⟩
  · rw [heq]
    exact ⟨hrefill.maxPackets, hrefill.maxOctets, hrefill.policy, hrefill.cleanupReserves⟩
  · rw [heq]
    exact hrefill

theorem Alike.trans {b c d : TrafficBudget} (h : Alike b c) (h' : Alike c d) : Alike b d :=
  ⟨h'.maxPackets.trans h.maxPackets, h'.maxOctets.trans h.maxOctets, h'.policy.trans h.policy,
    h'.cleanupReserves.trans h.cleanupReserves⟩

theorem take_alike (b : TrafficBudget) (c : TrafficCharge) : Alike b (b.take c).2 := by
  unfold take
  split
  · exact ⟨rfl, rfl, rfl, rfl⟩
  · exact charge_alike b c.now c.size.toNat c.reserved.toNat

/-- An account's traffic budget as a meter of packets and octets. -/
def meter (built : TrafficBudget) : Meter TrafficDimension ℚ TrafficBudget TrafficCharge where
  limits := built.limits
  demand := TrafficCharge.demand
  Valid c := Accepts built.cleanupReserves c
  Known b := Alike built b
  level := level
  charge b c := ((b.take c).1.isOk, (b.take c).2)
  fair := by
    rintro c ⟨hsize, -, hreserved, -⟩ dim
    have hsize : (0 : ℚ) ≤ c.size := Int.cast_nonneg hsize
    have hreserved : (0 : ℚ) ≤ c.reserved := Int.cast_nonneg hreserved
    cases dim with
    | packets => exact ⟨zero_le_one, le_add_of_nonneg_right hreserved⟩
    | octets => exact ⟨hsize, le_add_of_nonneg_right (mul_nonneg hreserved (by norm_num))⟩
  charge_known h := h.trans (take_alike _ _)
  charge_valid hknown h hvalid := by
    rw [← hknown.limits] at h ⊢
    rw [← hknown.cleanupReserves] at hvalid
    exact take_level h hvalid
  charge_invalid hknown hinvalid := by
    rw [← hknown.cleanupReserves] at hinvalid
    rw [take_invalid hinvalid]
    rfl

theorem run_meter (built b : TrafficBudget) (cs : List TrafficCharge) : b.run cs = (meter built).run b cs := by
  induction cs generalizing b with
  | nil => rfl
  | cons c cs ih =>
    rw [run, ih]
    rfl

theorem level_new {packets octets members : Nat} {policy : AccountPolicy} {now : ℚ} {b : TrafficBudget}
    (h : new packets octets policy now members = .ok b) :
    b.maxPackets = packets ∧ b.maxOctets = octets ∧ b.policy = policy ∧ b.level.Sound b.limits := by
  unfold new at h
  split at h
  · cases h
  · cases h
    refine ⟨rfl, rfl, rfl, fun dim => ?_⟩
    cases dim with
    | packets => exact ⟨packets.cast_nonneg, le_rfl⟩
    | octets => exact ⟨octets.cast_nonneg, le_rfl⟩

end TrafficBudget

/-- The rate of a media session, over the charges admitted so far and those to come. -/
structure MediaRateHolds (admitted : List Media.MediaCharge) (b : Media.MediaRateBudget) : Prop where
  window : ∀ dim s t, s ≤ t →
    spent dim s t (admitted.map Media.MediaCharge.demand) ≤ dim.limit + (t - s) * dim.limit
  credit : ∀ dim, 0 ≤ b.credit dim ∧ b.credit dim ≤ dim.limit
  debit : ∀ c, (b.charge c).1.isOk = false → ∀ dim, b.credit dim ≤ (b.charge c).2.credit dim
  refused : ∀ cs c, (b.run cs).1 = [] → (∀ e ∈ cs, e.now ≤ c.now) →
    ((b.run cs).2.charge c).1.isOk = (b.charge c).1.isOk

/-- The same of an account's traffic, whose limits are those it was built with. -/
structure TrafficRateHolds (built : TrafficBudget) (admitted : List TrafficCharge) (b : TrafficBudget) : Prop where
  continuous : built.policy = .continuous → ∀ dim s t, s ≤ t →
    spent dim s t (admitted.map TrafficCharge.demand) ≤ built.limit dim + (t - s) * (built.limit dim / 60)
  finite : built.policy = .finite → ∀ dim, (admitted.map fun c => c.cost dim).sum ≤ built.limit dim
  credit : ∀ dim, 0 ≤ b.credit dim ∧ b.credit dim ≤ built.limit dim
  debit : ∀ c, (b.take c).1.isOk = false → ∀ dim, b.credit dim ≤ (b.take c).2.credit dim
  refused : ∀ cs c, (b.run cs).1 = [] → (∀ e ∈ cs, e.now ≤ c.now) →
    ((b.run cs).2.take c).1.isOk = (b.take c).1.isOk

theorem media_rate (start : ℚ) (cs : List Media.MediaCharge) :
    MediaRateHolds ((Media.MediaRateBudget.new start).run cs).1 ((Media.MediaRateBudget.new start).run cs).2 := by
  have hnew := Media.MediaRateBudget.level_new start
  have hsound := Meter.sound (m := Media.MediaRateBudget.meter) trivial hnew cs
  rw [Media.MediaRateBudget.run_meter]
  constructor
  · intro dim s t hst
    exact Meter.window (m := Media.MediaRateBudget.meter) trivial hnew cs dim hst
  · exact hsound.2
  · intro c hrefused dim
    exact Meter.credit_refused (m := Media.MediaRateBudget.meter) trivial hsound.2 hrefused dim
  · intro es c hrefused hes
    rw [Media.MediaRateBudget.run_meter] at hrefused ⊢
    exact Meter.charge_refused (m := Media.MediaRateBudget.meter) trivial hsound.2 hrefused hes

theorem TrafficBudget.traffic_rate {built : TrafficBudget} (h : built.level.Sound built.limits) (cs : List TrafficCharge) :
    TrafficRateHolds built (built.run cs).1 (built.run cs).2 := by
  have hknown : built.Alike built := ⟨rfl, rfl, rfl, rfl⟩
  have hsound := Meter.sound (m := meter built) hknown h cs
  rw [run_meter built]
  constructor
  · intro hpolicy dim s t hst
    rw [← rate_continuous hpolicy dim]
    exact Meter.window (m := meter built) hknown h cs dim hst
  · intro hpolicy dim
    exact Meter.total (m := meter built) hknown h cs (rate_finite hpolicy dim)
  · exact hsound.2
  · intro c hrefused dim
    exact Meter.credit_refused (m := meter built) hsound.1 hsound.2 hrefused dim
  · intro es c hrefused hes
    rw [run_meter built] at hrefused ⊢
    exact Meter.charge_refused (m := meter built) hsound.1 hsound.2 hrefused hes

/-- Both rates hold of every run from a new budget. -/
theorem rates_hold :
    (∀ (start : ℚ) (cs : List Media.MediaCharge),
      MediaRateHolds ((Media.MediaRateBudget.new start).run cs).1 ((Media.MediaRateBudget.new start).run cs).2) ∧
    ∀ (packets octets members : Nat) (policy : AccountPolicy) (start : ℚ) (built : TrafficBudget),
      TrafficBudget.new packets octets policy start members = .ok built →
      built.maxPackets = packets ∧ built.maxOctets = octets ∧ built.policy = policy ∧
        ∀ cs, TrafficRateHolds built (built.run cs).1 (built.run cs).2 := by
  refine ⟨media_rate, ?_⟩
  intro packets octets members policy start built hnew
  obtain ⟨hpackets, hoctets, hpolicy, hsound⟩ := TrafficBudget.level_new hnew
  exact ⟨hpackets, hoctets, hpolicy, fun cs => TrafficBudget.traffic_rate hsound cs⟩

/-- Four charges of a small account: the third is refused, and the fourth waited for its
packet. -/
theorem rates_hold_small : ∃ built, TrafficBudget.new 2 100 .continuous 0 1 = .ok built ∧
    (built.run [⟨1, 40, 0⟩, ⟨2, 40, 0⟩, ⟨3, 10, 0⟩, ⟨40, 10, 0⟩]).1 = [⟨1, 40, 0⟩, ⟨2, 40, 0⟩, ⟨40, 10, 0⟩] ∧
    TrafficRateHolds built [⟨1, 40, 0⟩, ⟨2, 40, 0⟩, ⟨40, 10, 0⟩]
      (built.run [⟨1, 40, 0⟩, ⟨2, 40, 0⟩, ⟨3, 10, 0⟩, ⟨40, 10, 0⟩]).2 := by
  have hadmitted : (TrafficBudget.run ⟨2, 100, 2, 100, .continuous, 24, 0⟩
      [⟨1, 40, 0⟩, ⟨2, 40, 0⟩, ⟨3, 10, 0⟩, ⟨40, 10, 0⟩]).1 = [⟨1, 40, 0⟩, ⟨2, 40, 0⟩, ⟨40, 10, 0⟩] := by decide +kernel
  have hholds := (rates_hold.2 2 100 1 .continuous 0 _ rfl).2.2.2 [⟨1, 40, 0⟩, ⟨2, 40, 0⟩, ⟨3, 10, 0⟩, ⟨40, 10, 0⟩]
  exact ⟨_, rfl, hadmitted, hadmitted ▸ hholds⟩

end CamGuard.Account
