/-
The slots of the media leases: leases of one inbox share no camera, device or
delivery; a claimed one keeps its slot until its result is set and taken; after
a completion that is not clean nothing is admitted or claimed (`lease_slots`).

The inbox changes one lease at a time (`Moves`). What the pump has to know of
that is which leases are held: claimed, and without a result (`Held`).
-/
import CamGuard.Account.MediaLease
import CamGuard.Lib.Trace

namespace CamGuard.Account

namespace MediaLeaseInbox

/-! ## Moves -/

/-- Nothing in common that may be leased once. -/
structure Apart (l l' : MediaLease) : Prop where
  camera : l.cameraId ≠ l'.cameraId
  device : l.bootstrap.spec.device.deviceId ≠ l'.bootstrap.spec.device.deviceId
  video : l.bootstrap.video ≠ l'.bootstrap.video

theorem Apart.symm {l l' : MediaLease} (h : Apart l l') : Apart l' l := ⟨h.camera.symm, h.device.symm, h.video.symm⟩

/-- What an operation does to one lease. -/
inductive Moves (i : MediaLeaseInbox) : Option LeaseEvent → MediaLeaseInbox → Prop
  | stay (closed : Bool) (h : i.closed = true → closed = true) : Moves i none { i with closed := closed }
  | submit (lease : MediaLease) (hopen : i.closed = false) (hroom : i.leases.size < i.capacity)
      (hclaimed : lease.claimed = false) (hresult : lease.result = none)
      (hapart : ∀ t l, i.leases.get? t = some l → Apart l lease) :
    Moves i (some (.submitted ⟨i.generation, i.serial⟩)) { i with
      serial := i.serial + 1
      leases := i.leases.set ⟨i.generation, i.serial⟩ lease }
  | cancel {t : MediaLeaseTicket} {l : MediaLease} (hget : i.leases.get? t = some l) (hresult : l.result = none)
      (outcome : Option MediaLeaseOutcome) (hkeeps : l.claimed = true → outcome = none) :
    Moves i none { i with leases := i.leases.set t { l with cancelled := true, result := outcome } }
  | claim {t : MediaLeaseTicket} {l : MediaLease} (hopen : i.closed = false) (hget : i.leases.get? t = some l)
      (hclaimed : l.claimed = false) (hresult : l.result = none) :
    Moves i (some (.claimed t)) { i with leases := i.leases.set t { l with claimed := true } }
  | finish {t : MediaLeaseTicket} {l : MediaLease} (outcome : MediaLeaseOutcome) (clean : Bool)
      (hget : i.leases.get? t = some l) (hclaimed : l.claimed = true) (hresult : l.result = none) :
    Moves i (some (.finished t clean)) { i with
      leases := i.leases.set t { l with result := some outcome }
      closed := i.closed || !clean }
  | take {t : MediaLeaseTicket} {l : MediaLease} {outcome : MediaLeaseOutcome} (hget : i.leases.get? t = some l)
      (hresult : l.result = some outcome) : Moves i (some (.taken t outcome)) { i with leases := i.leases.erase t }

theorem Moves.refl (i : MediaLeaseInbox) : Moves i none i := .stay i.closed fun h => h

theorem Moves.opened {i i' : MediaLeaseInbox} {t : MediaLeaseTicket} (h : Moves i (some (.claimed t)) i') :
    i.closed = false := by
  cases h
  assumption

theorem submit_moves (i : MediaLeaseInbox) (closed : Nat → Bool) (cameraId : String) (bootstrap : MediaBootstrap) :
    (∃ ticket, (i.submit closed cameraId bootstrap).1 = .ok ticket ∧
      Moves i (some (.submitted ticket)) (i.submit closed cameraId bootstrap).2) ∨
    ∃ e, i.submit closed cameraId bootstrap = (.error e, i) := by
  unfold submit
  simp only
  split
  · exact .inr ⟨_, rfl⟩
  split
  · exact .inr ⟨_, rfl⟩
  next hfull =>
    split
    · exact .inr ⟨_, rfl⟩
    next hapart =>
      simp only [not_or, Bool.not_eq_true, not_le] at hfull
      refine .inl ⟨_, rfl, .submit _ hfull.1 hfull.2.1 rfl rfl fun t l hget => ?_⟩
      have hvalue : l ∈ i.leases.values := List.mem_map_of_mem (Dict.get?_eq_some.mp hget)
      simp only [Bool.not_eq_true, List.any_eq_false, decide_eq_true_eq, not_or] at hapart
      obtain ⟨hcamera, hdevice, hvideo⟩ := hapart l hvalue
      exact ⟨hcamera, hdevice, hvideo⟩

theorem cancel_moves (i : MediaLeaseInbox) (t : MediaLeaseTicket) : Moves i none (i.cancel t).2.2 := by
  unfold cancel
  split
  · exact .refl i
  next l hget =>
    split
    · exact .refl i
    next hresult =>
      simp only [Option.not_isSome_iff_eq_none] at hresult
      split
      · have hcancel := Moves.cancel hget hresult none fun _ => rfl
        rw [← hresult] at hcancel
        exact hcancel
      next hclaimed => exact .cancel hget hresult _ fun h => absurd h hclaimed

theorem take_moves (i : MediaLeaseInbox) (t : MediaLeaseTicket) :
    Moves i ((i.take t).1.map (.taken t)) (i.take t).2 := by
  unfold take
  split
  · exact .refl i
  next l hget =>
    split
    · exact .refl i
    next hresult => exact .take hget hresult

theorem finish_moves (i : MediaLeaseInbox) (t : MediaLeaseTicket) (channel : MediaChannelSummary) (uncertain : Bool) :
    (∃ l, i.leases.get? t = some l ∧ l.claimed = true ∧ l.result = none ∧
      (i.finish t channel uncertain).1 = .ok () ∧
      Moves i (some (.finished t (!uncertain && mediaChannelsClosed [channel] false)))
        (i.finish t channel uncertain).2) ∨
    ((∃ l, i.leases.get? t = some l ∧ l.claimed = true ∧ l.result = none) ∧
      i.finish t channel uncertain = (.error .completion, i)) ∨
    ((¬ ∃ l, i.leases.get? t = some l ∧ l.claimed = true ∧ l.result = none) ∧
      i.finish t channel uncertain = (.ok (), i)) := by
  unfold finish
  split
  next hget => exact .inr (.inr ⟨by simp [hget], rfl⟩)
  next l hget =>
    split
    next hother =>
      refine .inr (.inr ⟨?_, rfl⟩)
      rintro ⟨l', hget', hclaimed, hresult⟩
      rw [hget] at hget'
      cases hget'
      simp [hclaimed, hresult] at hother
    next hheld =>
      simp only [not_or, Bool.not_eq_false, Option.not_isSome_iff_eq_none] at hheld
      split
      · exact .inr (.inl ⟨⟨l, hget, hheld.1, hheld.2⟩, rfl⟩)
      · exact .inl ⟨l, hget, hheld.1, hheld.2, rfl, .finish _ _ hget hheld.1 hheld.2⟩

/-- The leases that end on the way to a claim, one after another. -/
inductive Lapses : MediaLeaseInbox → MediaLeaseInbox → Prop
  | nil (i : MediaLeaseInbox) : Lapses i i
  | cons {i j k : MediaLeaseInbox} (h : Moves i none j) (rest : Lapses j k) : Lapses i k

theorem claimFrom_moves (closed : Nat → Bool) (tickets : List MediaLeaseTicket) (i : MediaLeaseInbox)
    (hopen : i.closed = false) :
    ∃ j, Lapses i j ∧ (claimFrom closed tickets i = (none, j) ∨
      ∃ t l, j.leases.get? t = some l ∧ (claimFrom closed tickets i).1 = some (t, l.bootstrap) ∧
        l.claimed = false ∧ l.result = none ∧ Moves j (some (.claimed t)) (claimFrom closed tickets i).2) := by
  induction tickets generalizing i with
  | nil => exact ⟨i, .nil i, .inl rfl⟩
  | cons t rest ih =>
    unfold claimFrom
    split
    · exact ih i hopen
    next l hget =>
      split
      · exact ih i hopen
      next hfree =>
        simp only [not_or, Bool.not_eq_true, Option.isSome_eq_false_iff, Option.isNone_iff_eq_none] at hfree
        split
        · have hlapse := Moves.cancel hget hfree.2 (some ⟨"cancelled", none⟩) fun h => by simp [hfree.1] at h
          obtain ⟨j, hpath, hclaim⟩ := ih { i with leases := i.leases.set t { l with
            cancelled := true
            result := some ⟨"cancelled", none⟩ } } hopen
          exact ⟨j, .cons hlapse hpath, hclaim⟩
        · exact ⟨i, .nil i, .inr ⟨t, l, hget, rfl, hfree.1, hfree.2, .claim hopen hget hfree.1 hfree.2⟩⟩

theorem claim_moves (i : MediaLeaseInbox) (closed : Nat → Bool) :
    (∃ j, Lapses i j ∧ i.claim closed = (none, j)) ∨
    ∃ j t l, Lapses i j ∧ j.closed = false ∧ j.leases.get? t = some l ∧ l.claimed = false ∧
      (i.claim closed).1 = some (t, l.bootstrap) ∧ Moves j (some (.claimed t)) (i.claim closed).2 := by
  unfold claim
  split
  · exact .inl ⟨i, .nil i, rfl⟩
  next hopen =>
    simp only [Bool.not_eq_true] at hopen
    obtain ⟨j, hpath, heq | ⟨t, l, hget, hfound, hunclaimed, hresult, hmove⟩⟩ :=
      claimFrom_moves closed i.leases.keys i hopen
    · exact .inl ⟨j, hpath, heq⟩
    · exact .inr ⟨j, t, l, hpath, hmove.opened, hget, hunclaimed, hfound, hmove⟩

/-! ## What is kept -/

/-- An event is right after what came before: tickets are given out once,
finished once and taken once; what was claimed is taken when it is finished;
nothing is admitted or claimed after a completion that is not clean. -/
def Right (before : List LeaseEvent) : LeaseEvent → Prop
  | .submitted t => .submitted t ∉ before ∧ ∀ t', .finished t' false ∉ before
  | .claimed t => .submitted t ∈ before ∧ .claimed t ∉ before ∧ ∀ t', .finished t' false ∉ before
  | .finished t _ => .claimed t ∈ before ∧ ∀ clean, .finished t clean ∉ before
  | .taken t _ => (∀ outcome, .taken t outcome ∉ before) ∧ (.claimed t ∈ before → ∃ clean, .finished t clean ∈ before)
  | .retiring => True
  | .raised _ => True

/-- What holds of an inbox and of what has been seen of it. -/
structure Kept (i : MediaLeaseInbox) (log : List LeaseEvent) : Prop where
  fits : i.leases.size ≤ i.capacity
  apart : ∀ {t t' l l'}, i.leases.get? t = some l → i.leases.get? t' = some l' → t ≠ t' → Apart l l'
  issued : ∀ {t}, .submitted t ∈ log → t.generation = i.generation ∧ t.serial < i.serial
  known : ∀ {t l}, i.leases.get? t = some l → .submitted t ∈ log
  claimed : ∀ {t l}, i.leases.get? t = some l → (l.claimed = true ↔ .claimed t ∈ log)
  claims : ∀ {t}, .claimed t ∈ log → .submitted t ∈ log
  finishes : ∀ {t clean}, .finished t clean ∈ log → .claimed t ∈ log
  finished : ∀ {t l}, i.leases.get? t = some l → l.claimed = true →
    (l.result = none ↔ ∀ clean, .finished t clean ∉ log)
  taken : ∀ {t o}, .taken t o ∈ log → .submitted t ∈ log ∧ i.leases.get? t = none
  /-- A lease is there until it is taken. -/
  present : ∀ {t}, .submitted t ∈ log → (∀ o, .taken t o ∉ log) → ∃ l, i.leases.get? t = some l
  fence : ∀ {t}, .finished t false ∈ log → i.closed = true
  order : Justified Right log

theorem Kept.fresh {i : MediaLeaseInbox} {log : List LeaseEvent} (h : Kept i log) :
    .submitted ⟨i.generation, i.serial⟩ ∉ log :=
  fun hmem => Nat.lt_irrefl _ (h.issued hmem).2

theorem Kept.get?_fresh {i : MediaLeaseInbox} {log : List LeaseEvent} (h : Kept i log) :
    i.leases.get? ⟨i.generation, i.serial⟩ = none := by
  cases hget : i.leases.get? ⟨i.generation, i.serial⟩ with
  | none => rfl
  | some l => exact absurd (h.known hget) h.fresh

/-- A lease of the same camera and bootstrap in its place. -/
theorem Kept.apart_set {i : MediaLeaseInbox} {log : List LeaseEvent} (h : Kept i log) {t : MediaLeaseTicket}
    {l l' : MediaLease} (hget : i.leases.get? t = some l) {t₁ t₂ : MediaLeaseTicket} {l₁ l₂ : MediaLease}
    (h₁ : (i.leases.set t l').get? t₁ = some l₁) (h₂ : (i.leases.set t l').get? t₂ = some l₂) (hne : t₁ ≠ t₂)
    (hcamera : l'.cameraId = l.cameraId) (hbootstrap : l'.bootstrap = l.bootstrap) : Apart l₁ l₂ := by
  rw [Dict.get?_set] at h₁ h₂
  split at h₁ <;> split at h₂
  next heq heq' => exact absurd (heq.trans heq'.symm) hne
  next heq hother =>
    cases h₁
    obtain ⟨hc, hd, hv⟩ := h.apart hget h₂ (Ne.symm hother)
    exact ⟨hcamera ▸ hc, hbootstrap ▸ hd, hbootstrap ▸ hv⟩
  next hother heq =>
    cases h₂
    obtain ⟨hc, hd, hv⟩ := h.apart h₁ hget hother
    exact ⟨hcamera ▸ hc, hbootstrap ▸ hd, hbootstrap ▸ hv⟩
  · exact h.apart h₁ h₂ hne

section

variable {i : MediaLeaseInbox} {log : List LeaseEvent} {t : MediaLeaseTicket} {l : MediaLease}

theorem Kept.submit (h : Kept i log) (lease : MediaLease) (hopen : i.closed = false)
    (hroom : i.leases.size < i.capacity) (hunclaimed : lease.claimed = false)
    (hothers : ∀ t l, i.leases.get? t = some l → Apart l lease) :
    Kept { i with leases := i.leases.set ⟨i.generation, i.serial⟩ lease, serial := i.serial + 1 }
      (log ++ [.submitted ⟨i.generation, i.serial⟩]) := by
  have hfresh := h.fresh
  have hnone := h.get?_fresh
  obtain ⟨hfits, hapart, hissued, hknown, hclaimed, hclaims, hfinishes, hfinished, htaken, hpresent, hfence, horder⟩ := h
  have hsymm (t : MediaLeaseTicket) (l : MediaLease) (hget : i.leases.get? t = some l) : Apart lease l :=
    (hothers t l hget).symm
  refine ⟨?_, ?_, ?_, ?_, ?_, ?_, ?_, ?_, ?_, ?_, ?_, ?_⟩
  · simp only
    rw [Dict.size_set_of_none hnone]
    exact hroom
  · grind -linarith [Dict.get?_set]
  · grind -linarith
  · grind -linarith [Dict.get?_set]
  · grind -linarith [Dict.get?_set]
  · grind -linarith
  · grind -linarith
  · grind -linarith [Dict.get?_set]
  · grind -linarith [Dict.get?_set]
  · grind -linarith [Dict.get?_set]
  · grind -linarith
  · refine horder.snoc ⟨hfresh, fun t hmem => ?_⟩
    rw [hfence hmem] at hopen
    cases hopen

theorem Kept.fits_set (h : Kept i log) (hget : i.leases.get? t = some l) (l' : MediaLease) :
    (i.leases.set t l').size ≤ i.capacity := by
  rw [Dict.size_set_of_some hget]
  exact h.fits

theorem Kept.cancel (h : Kept i log) (hget : i.leases.get? t = some l) (hresult : l.result = none)
    (outcome : Option MediaLeaseOutcome) (hkeeps : l.claimed = true → outcome = none) :
    Kept { i with leases := i.leases.set t { l with cancelled := true, result := outcome } } log := by
  have hroom := h.fits_set hget
  have hreplace := @h.apart_set
  obtain ⟨hfits, hapart, hissued, hknown, hclaimed, hclaims, hfinishes, hfinished, htaken, hpresent, hfence, horder⟩ := h
  refine ⟨hroom _, fun h₁ h₂ hne => hreplace hget h₁ h₂ hne rfl rfl, hissued, ?_, ?_, hclaims, hfinishes, ?_, ?_, ?_,
    hfence, horder⟩
  all_goals grind -linarith [Dict.get?_set]

theorem Kept.claim (h : Kept i log) (hopen : i.closed = false) (hget : i.leases.get? t = some l)
    (hunclaimed : l.claimed = false) (hresult : l.result = none) :
    Kept { i with leases := i.leases.set t { l with claimed := true } } (log ++ [.claimed t]) := by
  have hroom := h.fits_set hget
  have hreplace := @h.apart_set
  obtain ⟨hfits, hapart, hissued, hknown, hclaimed, hclaims, hfinishes, hfinished, htaken, hpresent, hfence, horder⟩ := h
  have hclean : ∀ t, .finished t false ∉ log := by
    intro t hmem
    rw [hfence hmem] at hopen
    cases hopen
  have hfirst := (hclaimed hget).not.mp (by simp [hunclaimed])
  refine ⟨hroom _, fun h₁ h₂ hne => hreplace hget h₁ h₂ hne rfl rfl, ?_, ?_, ?_, ?_, ?_, ?_, ?_, ?_, ?_,
    horder.snoc ⟨hknown hget, hfirst, hclean⟩⟩
  all_goals grind -linarith [Dict.get?_set]

theorem Kept.finish (h : Kept i log) (outcome : MediaLeaseOutcome) (clean : Bool) (hget : i.leases.get? t = some l)
    (hheld : l.claimed = true) (hresult : l.result = none) :
    Kept { i with leases := i.leases.set t { l with result := some outcome }, closed := i.closed || !clean }
      (log ++ [.finished t clean]) := by
  have hroom := h.fits_set hget
  have hreplace := @h.apart_set
  obtain ⟨hfits, hapart, hissued, hknown, hclaimed, hclaims, hfinishes, hfinished, htaken, hpresent, hfence, horder⟩ := h
  refine ⟨hroom _, fun h₁ h₂ hne => hreplace hget h₁ h₂ hne rfl rfl, ?_, ?_, ?_, ?_, ?_, ?_, ?_, ?_, ?_,
    horder.snoc ⟨(hclaimed hget).mp hheld, (hfinished hget hheld).mp hresult⟩⟩
  all_goals grind -linarith [Dict.get?_set]

theorem Kept.take (h : Kept i log) {outcome : MediaLeaseOutcome} (hget : i.leases.get? t = some l)
    (hresult : l.result = some outcome) :
    Kept { i with leases := i.leases.erase t } (log ++ [.taken t outcome]) := by
  obtain ⟨hfits, hapart, hissued, hknown, hclaimed, hclaims, hfinishes, hfinished, htaken, hpresent, hfence, horder⟩ := h
  refine ⟨le_trans (Dict.size_erase_le ..) hfits, ?_, ?_, ?_, ?_, ?_, ?_, ?_, ?_, ?_, ?_, ?_⟩
  case refine_11 =>
    refine horder.snoc ⟨fun o hmem => ?_, fun hmem => ?_⟩
    · rw [(htaken hmem).2] at hget
      cases hget
    · by_contra hnever
      have hnone := (hfinished hget ((hclaimed hget).mpr hmem)).mpr (by simpa using hnever)
      rw [hresult] at hnone
      cases hnone
  all_goals grind -linarith [Dict.get?_erase]

end

/-- **A move keeps it.** -/
theorem Kept.moves {i i' : MediaLeaseInbox} {log : List LeaseEvent} {event : Option LeaseEvent} (h : Kept i log)
    (hmove : Moves i event i') : Kept i' (log ++ event.toList) := by
  cases hmove with
  | stay closed hclosed =>
    rw [Option.toList_none, List.append_nil]
    exact { h with fence := fun hmem => hclosed (h.fence hmem) }
  | submit lease hopen hroom hunclaimed hresult hothers => exact h.submit lease hopen hroom hunclaimed hothers
  | cancel hget hresult outcome hkeeps => simpa using h.cancel hget hresult outcome hkeeps
  | claim hopen hget hunclaimed hresult => exact h.claim hopen hget hunclaimed hresult
  | finish outcome clean hget hheld hresult => exact h.finish outcome clean hget hheld hresult
  | take hget hresult => exact h.take hget hresult

theorem Kept.note {i : MediaLeaseInbox} {log : List LeaseEvent} (h : Kept i log) {e : LeaseEvent}
    (he : e = .retiring ∨ ∃ fault, e = .raised fault) : Kept i (log ++ [e]) := by
  obtain ⟨hfits, hapart, hissued, hknown, hclaimed, hclaims, hfinishes, hfinished, htaken, hpresent, hfence, horder⟩ := h
  refine ⟨hfits, hapart, ?_, ?_, ?_, ?_, ?_, ?_, ?_, ?_, ?_, ?_⟩
  case refine_10 => rcases he with rfl | ⟨fault, rfl⟩ <;> exact horder.snoc trivial
  all_goals grind -linarith

/-! ## Held leases -/

/-- The lease is claimed and has no result. -/
def Held (i : MediaLeaseInbox) (t : MediaLeaseTicket) (b : MediaBootstrap) : Prop :=
  ∃ l, i.leases.get? t = some l ∧ l.claimed = true ∧ l.result = none ∧ l.bootstrap = b

/-- Claims and completions apart, no move changes what is held. -/
theorem Moves.held {i i' : MediaLeaseInbox} {event : Option LeaseEvent} (h : Moves i event i')
    (hclaim : ∀ t, event ≠ some (.claimed t)) (hfinish : ∀ t clean, event ≠ some (.finished t clean))
    (hnone : i.leases.get? ⟨i.generation, i.serial⟩ = none) (t : MediaLeaseTicket) (b : MediaBootstrap) :
    Held i' t b ↔ Held i t b := by
  unfold Held
  cases h with
  | stay closed _ => rfl
  | submit lease hopen hroom hunclaimed hresult hothers => grind -linarith [Dict.get?_set]
  | cancel hget hresult outcome hkeeps => grind -linarith [Dict.get?_set]
  | claim hopen hget hunclaimed hresult => exact absurd rfl (hclaim _)
  | finish outcome clean hget hheld hresult => exact absurd rfl (hfinish _ _)
  | take hget hresult => grind -linarith [Dict.get?_erase]

theorem Moves.held_claimed {i i' : MediaLeaseInbox} {t : MediaLeaseTicket} {l : MediaLease}
    (h : Moves i (some (.claimed t)) i') (hget : i.leases.get? t = some l) (t' : MediaLeaseTicket)
    (b : MediaBootstrap) : Held i' t' b ↔ Held i t' b ∨ t' = t ∧ b = l.bootstrap := by
  unfold Held
  cases h
  grind -linarith [Dict.get?_set]

theorem Moves.held_finished {i i' : MediaLeaseInbox} {t : MediaLeaseTicket} {clean : Bool}
    (h : Moves i (some (.finished t clean)) i') (t' : MediaLeaseTicket) (b : MediaBootstrap) :
    Held i' t' b ↔ Held i t' b ∧ t' ≠ t := by
  unfold Held
  cases h
  grind -linarith [Dict.get?_set]

theorem Moves.closed {i i' : MediaLeaseInbox} {event : Option LeaseEvent} (h : Moves i event i')
    (hclosed : i.closed = true) : i'.closed = true := by
  cases h <;> simp_all

end MediaLeaseInbox

/-! ## The pump -/

open MediaLeaseInbox

/-- A completion was not clean, or the pump's `finish` has begun. -/
def LeaseRun.Retired (log : List LeaseEvent) : Prop := .retiring ∈ log ∨ ∃ t, .finished t false ∈ log

namespace MediaLeasePump

open LeaseRun

/-- The reader is not between a claim and its route. -/
def Settled (p : MediaLeasePump) : Prop := ∀ t b, p.phase ≠ .prepare t b

/-- The reader is in `finish`. -/
def Finishing (p : MediaLeasePump) : Prop :=
  match p.phase with
  | .cancelling _ _ | .completing _ _ => True
  | _ => False

/-- What holds of the pump, its inbox and what has been seen. -/
structure Owned (p : MediaLeasePump) (log : List LeaseEvent) : Prop where
  kept : Kept p.inbox log
  held : ∀ {t b}, Held p.inbox t b →
    (∃ channel, p.active.get? t = some channel ∧ channel.bootstrap = b) ∨ p.phase = .prepare t b
  active : ¬ Retired log → ∀ {t channel}, p.active.get? t = some channel → Held p.inbox t channel.bootstrap
  preparing : ∀ {t b}, p.phase = .prepare t b → ¬ Retired log ∧ Held p.inbox t b ∧ p.active.get? t = none
  devices : ∀ {t t' channel channel'}, p.active.get? t = some channel → p.active.get? t' = some channel' → t ≠ t' →
    channel.bootstrap.spec.device.deviceId ≠ channel'.bootstrap.spec.device.deviceId
  shut : .retiring ∈ log → p.inbox.closed = true
  finishing : p.Finishing → .retiring ∈ log

theorem Owned.not_retired {p : MediaLeasePump} {log : List LeaseEvent} (h : Owned p log)
    (hopen : p.inbox.closed = false) : ¬ Retired log := by
  rintro (hretiring | ⟨t, hfinished⟩)
  · rw [h.shut hretiring] at hopen
    cases hopen
  · rw [h.kept.fence hfinished] at hopen
    cases hopen

/-- A move of the inbox that is no claim and no completion. -/
theorem Owned.moves {p p' : MediaLeasePump} {log : List LeaseEvent} {event : Option LeaseEvent} (h : Owned p log)
    (hmove : Moves p.inbox event p'.inbox) (hactive : p'.active = p.active) (hphase : p'.phase = p.phase)
    (hclaim : ∀ t, event ≠ some (.claimed t)) (hfinish : ∀ t clean, event ≠ some (.finished t clean))
    (hretire : event ≠ some .retiring) : Owned p' (log ++ event.toList) := by
  have hheld := hmove.held hclaim hfinish h.kept.get?_fresh
  have hretired : Retired (log ++ event.toList) ↔ Retired log := by
    unfold Retired
    grind -linarith
  have hshut := hmove.closed
  obtain ⟨hkept, hheld', hactive', hpreparing, hdevices, hclosed, hfinishing⟩ := h
  refine ⟨hkept.moves hmove, ?_, ?_, ?_, ?_, ?_, ?_⟩
  · grind -linarith
  · grind -linarith
  · grind -linarith
  · grind -linarith
  · grind -linarith
  · grind -linarith [Finishing]

theorem Owned.lapses {p : MediaLeasePump} {log : List LeaseEvent} {j : MediaLeaseInbox} (h : Owned p log)
    (hpath : Lapses p.inbox j) : Owned { p with inbox := j } log := by
  generalize hinbox : p.inbox = i at hpath
  induction hpath generalizing p with
  | nil i =>
    rw [← hinbox]
    exact h
  | @cons i j k hmove rest ih =>
    have hnext : Owned { p with inbox := j } (log ++ (none : Option LeaseEvent).toList) :=
      h.moves (by rw [hinbox]; exact hmove) rfl rfl (fun _ => by simp) (fun _ _ => by simp) (by simp)
    rw [Option.toList_none, List.append_nil] at hnext
    exact @ih { p with inbox := j } hnext rfl

theorem Owned.phase {p : MediaLeasePump} {log : List LeaseEvent} (h : Owned p log) (hsettled : p.Settled)
    {phase : LeasePhase} (hphase : ∀ t b, phase ≠ .prepare t b)
    (hfinishing : { p with phase := phase }.Finishing → p.Finishing) : Owned { p with phase := phase } log :=
  ⟨h.kept, fun hheld => .inl ((h.held hheld).resolve_right (hsettled _ _)), h.active,
    fun heq => absurd heq (hphase _ _), h.devices, h.shut, fun hnow => h.finishing (hfinishing hnow)⟩

theorem Owned.raised {p : MediaLeasePump} {log : List LeaseEvent} (h : Owned p log) (fault : LeaseFault) :
    Owned p (log ++ [.raised fault]) := by
  have hretired : Retired (log ++ [.raised fault]) ↔ Retired log := by
    unfold Retired
    simp
  obtain ⟨hkept, hheld, hactive, hpreparing, hdevices, hclosed, hfinishing⟩ := h
  refine ⟨hkept.note (.inr ⟨fault, rfl⟩), hheld, ?_, ?_, hdevices, ?_, ?_⟩
  · rw [hretired]
    exact hactive
  · rw [hretired]
    exact hpreparing
  · simpa using hclosed
  · simpa using hfinishing

/-- A channel changes its state, not its bootstrap. -/
theorem Owned.drive {p : MediaLeasePump} {log : List LeaseEvent} (h : Owned p log) {t : MediaLeaseTicket}
    {channel : AccountMediaChannel} (hget : p.active.get? t = some channel) (state : ChannelState) :
    Owned { p with active := p.active.set t { channel with state := state } } log := by
  obtain ⟨hkept, hheld, hactive, hpreparing, hdevices, hclosed, hfinishing⟩ := h
  refine ⟨hkept, ?_, ?_, ?_, ?_, hclosed, hfinishing⟩
  · grind -linarith [Dict.get?_set]
  · grind -linarith [Dict.get?_set]
  · grind -linarith [Dict.get?_set]
  · grind -linarith [Dict.get?_set]

/-- A claim: the lease is held, and the reader is about to give it a route. -/
theorem Owned.claimed {p p' : MediaLeasePump} {log : List LeaseEvent} {t : MediaLeaseTicket} {l : MediaLease}
    (h : Owned p log) (hsettled : p.Settled) (hopen : p.inbox.closed = false) (hget : p.inbox.leases.get? t = some l)
    (hunclaimed : l.claimed = false) (hmove : Moves p.inbox (some (.claimed t)) p'.inbox)
    (hactive : p'.active = p.active) (hphase : p'.phase = .prepare t l.bootstrap) :
    Owned p' (log ++ [.claimed t]) := by
  have hheld := hmove.held_claimed hget
  have hretired : ¬ Retired (log ++ [.claimed t]) := by
    have hbefore := h.not_retired hopen
    unfold Retired at hbefore ⊢
    simpa using hbefore
  have hnew : p.active.get? t = none := by
    cases hchannel : p.active.get? t with
    | none => rfl
    | some channel =>
      obtain ⟨l', hget', hclaimed', -⟩ := h.active (h.not_retired hopen) hchannel
      rw [hget] at hget'
      cases hget'
      rw [hunclaimed] at hclaimed'
      cases hclaimed'
  have hbefore := h.not_retired hopen
  have hshut := hmove.closed
  obtain ⟨hkept, hheld', hactive', hpreparing, hdevices, hclosed, hfinishing⟩ := h
  refine ⟨hkept.moves hmove, ?_, ?_, ?_, ?_, ?_, ?_⟩
  · grind -linarith [Settled]
  · grind -linarith
  · grind -linarith
  · grind -linarith
  · grind -linarith
  · simp [Finishing, hphase]

theorem Owned.prepared {p : MediaLeasePump} {log : List LeaseEvent} {t : MediaLeaseTicket} {b : MediaBootstrap}
    (h : Owned p log) (hphase : p.phase = .prepare t b) :
    Owned { p with active := p.active.set t { bootstrap := b }, phase := .idle } log := by
  obtain ⟨hretired, hheld, hnew⟩ := h.preparing hphase
  have hapart {t' : MediaLeaseTicket} {channel : AccountMediaChannel} (hget : p.active.get? t' = some channel)
      (hne : t' ≠ t) : channel.bootstrap.spec.device.deviceId ≠ b.spec.device.deviceId := by
    obtain ⟨l, hl, -, -, hbootstrap⟩ := hheld
    obtain ⟨l', hl', -, -, hbootstrap'⟩ := h.active hretired hget
    rw [← hbootstrap, ← hbootstrap']
    exact (h.kept.apart hl' hl hne).device
  have hother := @h.held
  obtain ⟨hkept, -, hactive, -, hdevices, hclosed, -⟩ := h
  refine ⟨hkept, ?_, ?_, fun heq => (by cases heq), ?_, hclosed, fun hnow => hnow.elim⟩
  · intro t' b' hheld'
    refine .inl ?_
    simp only [Dict.get?_set]
    rcases hother hheld' with ⟨channel, hget, hbootstrap⟩ | hthis
    · have hne : t' ≠ t := by
        rintro rfl
        rw [hnew] at hget
        cases hget
      exact ⟨channel, by rw [if_neg hne]; exact hget, hbootstrap⟩
    · rw [hphase] at hthis
      cases hthis
      exact ⟨_, if_pos rfl, rfl⟩
  · grind -linarith [Dict.get?_set]
  · grind -linarith [Dict.get?_set]

/-- A completion: the channel goes, unless the reader is done with its leases. -/
theorem Owned.finished {p p' : MediaLeasePump} {log : List LeaseEvent} {t : MediaLeaseTicket} {clean : Bool}
    (h : Owned p log) (hmove : Moves p.inbox (some (.finished t clean)) p'.inbox)
    (hactive : (∀ t', p'.active.get? t' = if t' = t then none else p.active.get? t') ∨
      p'.active = p.active ∧ Retired (log ++ [.finished t clean]))
    (hphase : ∀ t' b, p.phase = .prepare t' b → t' = t) (hsettled : p'.Settled)
    (hfinish : p'.Finishing → p.Finishing) : Owned p' (log ++ [.finished t clean]) := by
  have hheld := hmove.held_finished
  have hretired : Retired log → Retired (log ++ [.finished t clean]) := by
    unfold Retired
    grind -linarith
  have hshut := hmove.closed
  obtain ⟨hkept, hheld', hactive', hpreparing, hdevices, hclosed, hfinishing⟩ := h
  refine ⟨hkept.moves hmove, ?_, ?_, fun heq => absurd heq (hsettled _ _), ?_, ?_, ?_⟩
  · grind -linarith
  · grind -linarith
  · grind -linarith
  · grind -linarith
  · grind -linarith

/-! ## Steps -/

/-- What setting a result comes to: the held lease ends, or nothing changes. -/
theorem finishLease_cases (p : MediaLeasePump) (t : MediaLeaseTicket) (channel : MediaChannelSummary)
    (uncertain : Bool) :
    (∃ i, p.finishLease t channel uncertain =
        (.ok [.finished t (!uncertain && mediaChannelsClosed [channel] false)], { p with inbox := i }) ∧
      Moves p.inbox (some (.finished t (!uncertain && mediaChannelsClosed [channel] false))) i) ∨
    p.finishLease t channel uncertain = (.error .completion, p) ∨
    (∀ b, ¬ Held p.inbox t b) ∧ p.finishLease t channel uncertain = (.ok [], p) := by
  unfold finishLease
  rcases p.inbox.finish_moves t channel uncertain with ⟨l, hget, hclaimed, hresult, hok, hmove⟩ | ⟨-, heq⟩ | ⟨hfree, heq⟩
  · refine .inl ⟨_, ?_, hmove⟩
    cases hfinish : p.inbox.finish t channel uncertain with
    | mk result inbox =>
      rw [hfinish] at hok
      cases hok
      simp [hget, hclaimed, hresult]
  · exact .inr (.inl (by rw [heq]))
  · refine .inr (.inr ⟨fun b => ?_, ?_⟩)
    · rintro ⟨l, hget, hclaimed, hresult, -⟩
      exact hfree ⟨l, hget, hclaimed, hresult⟩
    · rw [heq]
      cases hget : p.inbox.leases.get? t with
      | none => rfl
      | some l =>
        have hnot : (l.claimed && l.result.isNone) = false := by
          rw [← Bool.not_eq_true, Bool.and_eq_true, Option.isNone_iff_eq_none]
          rintro ⟨hclaimed, hresult⟩
          exact hfree ⟨l, hget, hclaimed, hresult⟩
        simp [hnot]

/-- `_complete` likewise; the flag says whether it was clean. -/
theorem complete_cases (p : MediaLeasePump) (t : MediaLeaseTicket) (channel : AccountMediaChannel)
    (uncertain : Bool) :
    ∃ clean, (∃ i, p.complete t channel uncertain = (.ok (clean, [.finished t clean]),
        { p with inbox := i, cleanupUncertain := p.cleanupUncertain || !clean }) ∧
      Moves p.inbox (some (.finished t clean)) i) ∨
    p.complete t channel uncertain = (.error .completion, { p with cleanupUncertain := p.cleanupUncertain || !clean }) ∨
    (∀ b, ¬ Held p.inbox t b) ∧
      p.complete t channel uncertain = (.ok (clean, []), { p with cleanupUncertain := p.cleanupUncertain || !clean }) := by
  unfold complete
  simp only
  generalize hclean : (mediaChannelsClosed [channel.summary] false && !uncertain) = clean
  have hflag : (!(!clean) && mediaChannelsClosed [channel.summary] false) = clean := by
    rw [← hclean]
    cases mediaChannelsClosed [channel.summary] false <;> cases uncertain <;> rfl
  refine ⟨clean, ?_⟩
  rcases { p with cleanupUncertain := p.cleanupUncertain || !clean }.finishLease_cases t channel.summary (!clean) with
    ⟨i, heq, hmove⟩ | heq | ⟨hfree, heq⟩
  · rw [hflag] at heq hmove
    exact .inl ⟨i, by rw [heq], hmove⟩
  · exact .inr (.inl (by rw [heq]))
  · exact .inr (.inr ⟨hfree, by rw [heq]⟩)

theorem Owned.flag {p : MediaLeasePump} {log : List LeaseEvent} (h : Owned p log) (uncertain : Bool) :
    Owned { p with cleanupUncertain := uncertain } log :=
  ⟨h.kept, h.held, h.active, h.preparing, h.devices, h.shut, h.finishing⟩

theorem Owned.polled {p : MediaLeasePump} {log : List LeaseEvent} (h : Owned p log) (hsettled : p.Settled)
    {phase : LeasePhase} (hphase : phase = .idle ∨ ∃ rest defer, phase = .sweep rest defer) :
    Owned { p with phase := phase } log := by
  rcases hphase with rfl | ⟨rest, defer, rfl⟩
  · exact h.phase hsettled (fun _ _ => nofun) fun hnow => hnow.elim
  · exact h.phase hsettled (fun _ _ => nofun) fun hnow => hnow.elim

theorem Owned.dropped {p : MediaLeasePump} {log : List LeaseEvent} (h : Owned p log) {t : MediaLeaseTicket}
    (hfree : ∀ b, ¬ Held p.inbox t b) : Owned { p with active := p.active.erase t } log := by
  obtain ⟨hkept, hheld, hactive, hpreparing, hdevices, hclosed, hfinishing⟩ := h
  refine ⟨hkept, ?_, ?_, ?_, ?_, hclosed, hfinishing⟩
  · grind -linarith [Dict.get?_erase]
  · grind -linarith [Dict.get?_erase]
  · grind -linarith [Dict.get?_erase]
  · grind -linarith [Dict.get?_erase]

theorem sweepOne_owned {p : MediaLeasePump} {log : List LeaseEvent} (h : Owned p log) (hsettled : p.Settled)
    (reader : Reader) {t : MediaLeaseTicket} {channel : AccountMediaChannel} (hget : p.active.get? t = some channel)
    (rest : List MediaLeaseTicket) (defer : Option Nat) :
    Owned (p.sweepOne reader t channel rest defer).2 (log ++ (p.sweepOne reader t channel rest defer).1) := by
  have hnext := h.polled hsettled (.inr ⟨rest, defer, rfl⟩)
  unfold sweepOne
  split
  · simpa using hnext
  split
  · split
    · exact (h.polled hsettled (.inl rfl)).raised _
    obtain ⟨clean, ⟨i, heq, hmove⟩ | heq | ⟨hfree, heq⟩⟩ := p.complete_cases t channel false
    · rw [heq]
      have hphase (t' : MediaLeaseTicket) (b : MediaBootstrap) (hnow : p.phase = .prepare t' b) : t' = t :=
        absurd hnow (hsettled t' b)
      cases clean with
      | false =>
        simp only [← List.append_assoc]
        have hdone : Owned { p with inbox := i, cleanupUncertain := p.cleanupUncertain || !false, phase := .idle }
            (log ++ [.finished t false]) :=
          h.finished hmove (.inr ⟨rfl, .inr ⟨t, by simp⟩⟩) hphase (fun _ _ => nofun) fun hnow => hnow.elim
        exact hdone.raised _
      | true =>
        refine h.finished hmove (.inl fun t' => Dict.get?_erase ..) hphase (fun _ _ => nofun) ?_
        exact fun hnow => hnow.elim
    · rw [heq]
      exact ((h.flag (p.cleanupUncertain || !clean)).polled hsettled (.inl rfl)).raised _
    · rw [heq]
      have hflag := h.flag (p.cleanupUncertain || !clean)
      cases clean with
      | false =>
        simp only [List.nil_append]
        exact (hflag.polled hsettled (.inl rfl)).raised _
      | true =>
        simp only [List.append_nil]
        exact (hflag.dropped hfree).polled hsettled (.inr ⟨rest, defer, rfl⟩)
  split
  · split
    · exact (h.polled hsettled (.inl rfl)).raised _
    · simp only [List.append_nil]
      exact (h.drive hget _).polled hsettled (.inr ⟨rest, defer, rfl⟩)
  · simpa using hnext

/-- **A section of `poll`.** -/
theorem poll_owned {p : MediaLeasePump} {log : List LeaseEvent} (h : Owned p log) (reader : Reader)
    (defer : Option Nat) : Owned (p.poll reader defer).2 (log ++ (p.poll reader defer).1) := by
  unfold poll
  split
  next hphase =>
    simp only [List.append_nil]
    exact h.polled (fun t b heq => by rw [hphase] at heq; cases heq) (.inr ⟨_, _, rfl⟩)
  next t rest defer hphase =>
    have hsettled : p.Settled := fun t b heq => by rw [hphase] at heq; cases heq
    split
    · simp only [List.append_nil]
      exact h.polled hsettled (.inr ⟨_, _, rfl⟩)
    next channel hget => exact sweepOne_owned h hsettled reader hget rest defer
  next defer hphase =>
    have hsettled : p.Settled := fun t b heq => by rw [hphase] at heq; cases heq
    rcases p.inbox.claim_moves p.closed with ⟨j, hpath, heq⟩ | ⟨j, t, l, hpath, hopen, hget, hunclaimed, heq, hmove⟩
    · rw [heq]
      simp only [List.append_nil]
      exact (h.lapses hpath).polled hsettled (.inl rfl)
    · cases hclaim : p.inbox.claim p.closed with
      | mk found inbox =>
        rw [hclaim] at heq hmove
        cases heq
        exact (h.lapses hpath).claimed hsettled hopen hget hunclaimed hmove rfl rfl
  next t b hphase =>
    split
    · simp only [List.append_nil]
      exact h.prepared hphase
    · obtain ⟨hretired, ⟨l, hget, hclaimed, hresult, rfl⟩, hnew⟩ := h.preparing hphase
      have hsame (t' : MediaLeaseTicket) : p.active.get? t' = if t' = t then none else p.active.get? t' := by
        split
        next heq => rw [heq, hnew]
        · rfl
      have hphase' (t' : MediaLeaseTicket) (b : MediaBootstrap) (hnow : p.phase = .prepare t' b) : t' = t := by
        rw [hphase] at hnow
        cases hnow
        rfl
      rcases p.finishLease_cases t ⟨l.bootstrap.spec.device.deviceId, some ⟨false, false, false⟩, none, "protocol", "", [],
        none⟩ false with ⟨i, heq, hmove⟩ | heq | ⟨hfree, heq⟩
      · rw [heq]
        simp only [← List.append_assoc]
        have hdone : Owned { p with inbox := i, phase := .idle } (log ++ [.finished t true]) :=
          h.finished hmove (.inl hsame) hphase' (fun _ _ => nofun) fun hnow => hnow.elim
        exact hdone.raised _
      · rw [finishLease, MediaLeaseInbox.finish, hget] at heq
        simp [hclaimed, hresult] at heq
      · exact absurd ⟨l, hget, hclaimed, hresult, rfl⟩ (hfree l.bootstrap)
  · simpa using h
  · simpa using h

theorem Owned.retiring {p : MediaLeasePump} {log : List LeaseEvent} (h : Owned p log) (hsettled : p.Settled)
    (rest : List MediaLeaseTicket) (uncertain : Bool) :
    Owned { p with inbox := p.inbox.close, phase := .cancelling rest uncertain } (log ++ [.retiring]) := by
  have hclose : Moves p.inbox none p.inbox.close := .stay true fun _ => rfl
  have hheld := hclose.held (fun _ => nofun) (fun _ _ => nofun) h.kept.get?_fresh
  have hkept := h.kept.moves hclose
  rw [Option.toList_none, List.append_nil] at hkept
  refine ⟨hkept.note (.inl rfl), fun hnow => ?_, fun hretired => absurd (.inl (by simp)) hretired,
    fun heq => (by cases heq), h.devices, fun _ => rfl, fun _ => by simp⟩
  exact .inl ((h.held ((hheld _ _).mp hnow)).resolve_right (hsettled _ _))

/-- **A section of `finish`.** -/
theorem finish_owned {p : MediaLeasePump} {log : List LeaseEvent} (h : Owned p log) (uncertain : Bool) :
    Owned (p.finish uncertain).2 (log ++ (p.finish uncertain).1) := by
  unfold finish
  split
  next hphase => exact h.retiring (fun t b heq => by rw [hphase] at heq; cases heq) _ _
  next t rest uncertain hphase =>
    have hfinishing : p.Finishing := by simp [Finishing, hphase]
    have hcancel : Owned { p with inbox := (p.inbox.cancel t).2.2 } (log ++ (none : Option LeaseEvent).toList) :=
      h.moves (p.inbox.cancel_moves t) rfl rfl (fun _ => nofun) (fun _ _ => nofun) nofun
    refine hcancel.phase (fun t b heq => ?_) (fun _ _ => nofun) fun _ => hfinishing
    simp only [hphase] at heq
    cases heq
  next uncertain hphase =>
    simp only [List.append_nil]
    exact h.phase (fun t b heq => by rw [hphase] at heq; cases heq) (fun _ _ => nofun)
      fun _ => by simp [Finishing, hphase]
  next t rest uncertain hphase =>
    have hsettled : p.Settled := fun t b heq => by rw [hphase] at heq; cases heq
    have hfinishing : p.Finishing := by simp [Finishing, hphase]
    split
    · simp only [List.append_nil]
      exact h.phase hsettled (fun _ _ => nofun) fun _ => hfinishing
    next channel hget =>
      obtain ⟨clean, ⟨i, heq, hmove⟩ | heq | ⟨hfree, heq⟩⟩ := p.complete_cases t channel uncertain
      · rw [heq]
        exact h.finished hmove (.inr ⟨rfl, .inl (by simp [h.finishing hfinishing])⟩)
          (fun t' b hnow => absurd hnow (hsettled t' b)) (fun _ _ => nofun) fun _ => hfinishing
      · rw [heq]
        exact ((h.flag (p.cleanupUncertain || !clean)).polled hsettled (.inl rfl)).raised _
      · rw [heq]
        simp only [List.append_nil]
        exact (h.flag (p.cleanupUncertain || !clean)).phase hsettled (fun _ _ => nofun) fun _ => hfinishing
  next uncertain hphase =>
    simp only [List.append_nil]
    exact h.polled (fun t b heq => by rw [hphase] at heq; cases heq) (.inl rfl)
  · simpa using h
  · simpa using h

/-- **A call, of the sources or of the reader.** -/
theorem step_owned {p : MediaLeasePump} {log : List LeaseEvent} (h : Owned p log) (c : LeaseCall) :
    Owned (p.step c).2 (log ++ (p.step c).1) := by
  have hquiet {p' : MediaLeasePump} (hmove : Moves p.inbox none p'.inbox) (hactive : p'.active = p.active)
      (hphase : p'.phase = p.phase) : Owned p' (log ++ []) :=
    h.moves hmove hactive hphase (fun _ => nofun) (fun _ _ => nofun) nofun
  unfold step
  cases c with
  | submit cameraId bootstrap =>
    rcases p.inbox.submit_moves p.closed cameraId bootstrap with ⟨t, hok, hmove⟩ | ⟨e, heq⟩
    · simp only
      cases hsubmit : p.inbox.submit p.closed cameraId bootstrap with
      | mk result inbox =>
        rw [hsubmit] at hok hmove
        cases hok
        have hdone : Owned { p with inbox := inbox } (log ++ (some (LeaseEvent.submitted t)).toList) :=
          h.moves hmove rfl rfl (fun _ => nofun) (fun _ _ => nofun) nofun
        exact hdone
    · simp only [heq]
      exact hquiet (.refl _) rfl rfl
  | cancel t => exact hquiet (p.inbox.cancel_moves t) rfl rfl
  | take t =>
    have hmove := p.inbox.take_moves t
    simp only
    cases htake : p.inbox.take t with
    | mk outcome inbox =>
      rw [htake] at hmove
      cases outcome with
      | none => exact hquiet hmove rfl rfl
      | some outcome =>
        have hdone : Owned { p with inbox := inbox } (log ++ (some (LeaseEvent.taken t outcome)).toList) :=
          h.moves hmove rfl rfl (fun _ => nofun) (fun _ _ => nofun) nofun
        exact hdone
  | close => exact hquiet (.stay true fun _ => rfl) rfl rfl
  | closeVideo video => exact hquiet (.refl _) rfl rfl
  | poll reader defer => exact poll_owned h reader defer
  | finish uncertain => exact finish_owned h uncertain
  | drive t state =>
    simp only
    split
    · simpa using h
    next channel hget => simpa using h.drive hget state

end MediaLeasePump

/-! ## Runs -/

namespace LeaseRun

open MediaLeasePump

theorem owned_new {generation accessId : Nat} {targets : List OnlineDevice} {capacity : Option Nat}
    {inbox : MediaLeaseInbox} (hnew : MediaLeaseInbox.new generation accessId targets capacity = .ok inbox) :
    Owned { inbox := inbox } [] := by
  have hleases : inbox.leases = ∅ := by
    unfold MediaLeaseInbox.new at hnew
    simp only at hnew
    split at hnew
    · cases hnew
    split at hnew
    · cases hnew
    split at hnew
    · cases hnew
    · cases hnew
      rfl
  have hnone (t : MediaLeaseTicket) : inbox.leases.get? t = none := by rw [hleases]; rfl
  have hkept : Kept inbox [] := by
    refine ⟨by simp [hleases], ?_, by simp, ?_, ?_, by simp, by simp, ?_, by simp, by simp, by simp, justified_nil _⟩
    all_goals simp [hnone]
  refine ⟨hkept, ?_, ?_, nofun, ?_, by simp, fun hnow => hnow.elim⟩
  · rintro t b ⟨l, hget, -⟩
    rw [hnone] at hget
    cases hget
  · simp
  · simp

theorem run_owned {inbox : MediaLeaseInbox} (h : Owned { inbox := inbox } []) (calls : List LeaseCall) :
    Owned (run inbox calls).pump (run inbox calls).log := by
  induction calls using List.reverseRecOn with
  | nil => exact h
  | append_singleton calls call ih =>
    unfold run at ih ⊢
    rw [List.foldl_append]
    exact step_owned ih call

/-- **Media lease slots.** Leases share no camera, device or delivery, and fit
the capacity. A claimed one keeps its slot, with no result before it is
finished, until it is taken; a ticket is given out, finished and taken once,
and none is given out or claimed after a completion that was not clean
(`Right`); a ticket that was taken addresses nothing. Every claimed lease
without a result has a channel or is about to get its route; as long as nothing
was retired, every channel has such a lease. No two channels have one device. -/
theorem lease_slots {generation accessId : Nat} {targets : List OnlineDevice} {capacity : Option Nat}
    {inbox : MediaLeaseInbox} (hnew : MediaLeaseInbox.new generation accessId targets capacity = .ok inbox)
    (calls : List LeaseCall) :
    let r := run inbox calls
    let leases := r.pump.inbox.leases
    leases.size ≤ r.pump.inbox.capacity ∧
    (∀ t t' l l', leases.get? t = some l → leases.get? t' = some l' → t ≠ t' → Apart l l') ∧
    (∀ t, .claimed t ∈ r.log → (∀ outcome, .taken t outcome ∉ r.log) →
      ∃ l, leases.get? t = some l ∧ l.claimed = true ∧ (l.result = none ↔ ∀ clean, .finished t clean ∉ r.log)) ∧
    Justified Right r.log ∧
    (∀ t outcome, .taken t outcome ∈ r.log → leases.get? t = none) ∧
    (∀ t, .finished t false ∈ r.log → r.pump.inbox.closed = true) ∧
    (∀ t b, Held r.pump.inbox t b →
      (∃ channel, r.pump.active.get? t = some channel ∧ channel.bootstrap = b) ∨ r.pump.phase = .prepare t b) ∧
    (¬ Retired r.log → ∀ t channel, r.pump.active.get? t = some channel →
      Held r.pump.inbox t channel.bootstrap) ∧
    ∀ t t' channel channel', r.pump.active.get? t = some channel → r.pump.active.get? t' = some channel' → t ≠ t' →
      channel.bootstrap.spec.device.deviceId ≠ channel'.bootstrap.spec.device.deviceId := by
  have h := run_owned (owned_new hnew) calls
  refine ⟨h.kept.fits, fun _ _ _ _ => h.kept.apart, fun t hclaimed hhere => ?_, h.kept.order,
    fun t outcome htaken => (h.kept.taken htaken).2, fun t => h.kept.fence, fun t b => h.held,
    fun hretired t channel => h.active hretired, fun _ _ _ _ => h.devices⟩
  obtain ⟨l, hget⟩ := h.kept.present (h.kept.claims hclaimed) hhere
  have hl := (h.kept.claimed hget).mpr hclaimed
  exact ⟨l, hget, hl, h.kept.finished hget hl⟩

/-- A lease that gets its route; then the reader finishes. -/
def retirement (uncertain : Bool) : List LeaseCall :=
  let bootstrap : MediaBootstrap := { spec := { accessId := 9, device := ⟨7, 1, true, 0, []⟩ }, video := some 0 }
  let reader : Reader := ⟨true, none⟩
  [.submit "cam_000000000000000000000000" bootstrap, .poll reader none, .poll reader none, .poll reader none,
    .finish uncertain, .finish uncertain, .finish uncertain, .closeVideo 0, .finish uncertain, .finish uncertain]

/-- `finish` completes the leases and leaves the channels in the map. -/
theorem finished_channel_stays : ¬ ∀ generation accessId targets capacity inbox calls,
    MediaLeaseInbox.new generation accessId targets capacity = .ok inbox →
    ∀ t, (∃ channel, (run inbox calls).pump.active.get? t = some channel) ↔ ∃ b, Held (run inbox calls).pump.inbox t b := by
  intro hexact
  have h : (match MediaLeaseInbox.new 1 9 [⟨7, 1, true, 0, []⟩] none with
    | .ok inbox =>
      let r := run inbox (retirement false)
      ((r.pump.active.get? ⟨1, 0⟩).isSome && ((r.pump.inbox.leases.get? ⟨1, 0⟩).any fun l => l.result.isSome))
    | .error _ => false) = true := by decide +kernel
  split at h
  next inbox hnew =>
    simp only [Bool.and_eq_true, Option.isSome_iff_exists, Option.any_eq_true] at h
    obtain ⟨hactive, l, hget, result, hresult⟩ := h
    obtain ⟨b, l', hget', -, hnone, -⟩ := (hexact _ _ _ _ inbox (retirement false) hnew ⟨1, 0⟩).mp hactive
    rw [hget] at hget'
    cases hget'
    rw [hresult] at hnone
    cases hnone
  · cases h

/-- Until then the channel and the lease are there together. -/
theorem lease_slots_active : ∃ inbox, MediaLeaseInbox.new 1 9 [⟨7, 1, true, 0, []⟩] none = .ok inbox ∧
    ∃ channel, (run inbox ((retirement false).take 4)).pump.active.get? ⟨1, 0⟩ = some channel ∧
      Held (run inbox ((retirement false).take 4)).pump.inbox ⟨1, 0⟩ channel.bootstrap := by
  have h : (match MediaLeaseInbox.new 1 9 [⟨7, 1, true, 0, []⟩] none with
    | .ok inbox =>
      let r := run inbox ((retirement false).take 4)
      (r.pump.active.get? ⟨1, 0⟩).isSome && decide (r.log = [.submitted ⟨1, 0⟩, .claimed ⟨1, 0⟩])
    | .error _ => false) = true := by decide +kernel
  split at h
  next inbox hnew =>
    simp only [Bool.and_eq_true, Option.isSome_iff_exists, decide_eq_true_eq] at h
    obtain ⟨⟨channel, hactive⟩, hlog⟩ := h
    obtain ⟨-, -, -, -, -, -, -, hheld, -⟩ := lease_slots hnew ((retirement false).take 4)
    refine ⟨inbox, hnew, channel, hactive, hheld ?_ _ _ hactive⟩
    rw [hlog]
    simp [Retired]
  · cases h

end LeaseRun

end CamGuard.Account
