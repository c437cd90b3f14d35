/-
Media routes are owned: a route is opened once and closed once, in that order
and always from its own reserve; the table has one live route for a device and
no more than its capacity; a route that may still be open stays in the table and
stops every other one; no link is given out twice (`routes_owned`).

A call moves the jobs one at a time, and a job moves in one of four ways
(`JobMoves`); everything is proved for one such move, and for `prepare`.
-/
import CamGuard.Account.BudgetCapacity
import CamGuard.Account.MediaRoute
import CamGuard.Lib.Trace
import Mathlib.Data.List.Count

namespace CamGuard.Account

open CamGuard.Crypto

/-! ## Somebody else's reserve -/

namespace AccountOutputBudget

/-- The reserve of a route is as it was. -/
structure Spares (b b' : AccountOutputBudget) (token : Nat) : Prop where
  media : b'.media.get? token = b.media.get? token
  next : b.nextToken ≤ b'.nextToken

variable {b : AccountOutputBudget} {now : ℚ}

theorem Spares.refl (b : AccountOutputBudget) (token : Nat) : b.Spares b token := ⟨rfl, le_refl _⟩

theorem Spares.traffic (b : AccountOutputBudget) (traffic : TrafficBudget) (token : Nat) :
    b.Spares { b with traffic := traffic } token := ⟨rfl, le_refl _⟩

theorem spares_closeMedia (b : AccountOutputBudget) {owner token : Nat} (h : owner ≠ token) :
    b.Spares (b.closeMedia owner) token := by
  refine ⟨?_, le_refl _⟩
  simp only [AccountOutputBudget.closeMedia, Dict.get?_erase]
  rw [if_neg (Ne.symm h)]

theorem spares_chargeMedia (b : AccountOutputBudget) (now : ℚ) {owner token : Nat} (kind : MediaKind) (size : Nat)
    (h : owner ≠ token) : b.Spares (b.chargeMedia now owner kind size).2 token := by
  unfold AccountOutputBudget.chargeMedia
  split
  · exact .traffic b _ token
  · refine ⟨?_, le_refl _⟩
    simp only [Dict.get?_set]
    rw [if_neg (Ne.symm h)]

theorem reserveMedia_cases (b : AccountOutputBudget) (now : ℚ) :
    (∃ traffic, b.reserveMedia now = (.ok b.nextToken, { b with
      traffic := traffic
      media := b.media.set b.nextToken mediaSlots
      nextToken := b.nextToken + 1 })) ∨
    ∃ e traffic, b.reserveMedia now = (.error e, { b with traffic := traffic }) := by
  unfold AccountOutputBudget.reserveMedia
  rcases b.withhold_shape now (decide (b.mediaCapacity ≤ b.media.size)) 2 .mediaCapacity with
    ⟨-, traffic, heq⟩ | ⟨e, traffic, heq⟩
  · rw [heq]
    exact .inl ⟨traffic, rfl⟩
  · rw [heq]
    exact .inr ⟨e, traffic, rfl⟩

theorem spares_reserveMedia (b : AccountOutputBudget) (now : ℚ) {token : Nat} (h : token < b.nextToken) :
    b.Spares (b.reserveMedia now).2 token := by
  rcases b.reserveMedia_cases now with ⟨traffic, heq⟩ | ⟨e, traffic, heq⟩
  · rw [heq]
    refine ⟨?_, Nat.le_succ _⟩
    simp only [Dict.get?_set]
    rw [if_neg (Nat.ne_of_lt h)]
  · rw [heq]
    exact .traffic b traffic token

end AccountOutputBudget

/-- **Nobody else can touch a route's reserve.** -/
theorem OutputOp.run_spares (op : OutputOp) (now : ℚ) (b : AccountOutputBudget) {token : Nat}
    (hother : op.on token = false) (hold : token < b.nextToken) : b.Spares (op.run now b) token := by
  cases op with
  | charge size =>
    obtain ⟨traffic, heq⟩ := b.charge_shape now size
    rw [run, heq]
    exact .traffic b traffic token
  | reservePtz =>
    rw [run, AccountOutputBudget.reservePtz]
    rcases b.withhold_shape now b.ptz.isSome 6 .ptzCapacity with ⟨-, traffic, heq⟩ | ⟨e, traffic, heq⟩ <;> rw [heq]
    · exact ⟨rfl, Nat.le_succ _⟩
    · exact .traffic b traffic token
  | reserveSiren =>
    rw [run, AccountOutputBudget.reserveSiren]
    rcases b.withhold_shape now b.siren.isSome 12 .sirenCapacity with ⟨-, traffic, heq⟩ | ⟨e, traffic, heq⟩ <;> rw [heq]
    · exact ⟨rfl, Nat.le_succ _⟩
    · exact .traffic b traffic token
  | reserveMedia => exact b.spares_reserveMedia now hold
  | chargePtz owner kind size =>
    rw [run, AccountOutputBudget.chargePtz]
    split <;> exact ⟨rfl, le_refl _⟩
  | chargeSiren owner kind size =>
    rw [run, AccountOutputBudget.chargeSiren]
    split <;> exact ⟨rfl, le_refl _⟩
  | chargeMedia owner kind size => exact b.spares_chargeMedia now kind size (by simpa [on] using hother)
  | closePtz owner =>
    rw [run, AccountOutputBudget.closePtz]
    split <;> exact ⟨rfl, le_refl _⟩
  | closeSiren owner =>
    rw [run, AccountOutputBudget.closeSiren]
    split <;> exact ⟨rfl, le_refl _⟩
  | closeMedia owner => exact b.spares_closeMedia (by simpa [on] using hother)

/-! ## One job -/

namespace MediaRouteJob

/-- The broker's receipt for the hangup with this sequence, with result 0. -/
structure Receipt (plain : Bytes) (session sequence : Nat) : Prop where
  header : ReceiptHeader plain session sequence
  checksum : guteMode1XorChecksum plain = .ok (plain.field 4 16)
  mode : (plain.field 4 20 >>> 16) &&& 3 = 2
  acknowledges : (plain.field 4 20).testBit 20 = true
  whole : (plain.field 4 20).testBit 21 = false
  result : plain.field 2 26 = 0

/-- What holds of a job and of the output it has its reserve in. -/
structure Sound (session : Nat) (j : MediaRouteJob) (b : AccountOutputBudget) : Prop where
  order : j.closingSent = true → j.opened = true
  known : j.reserve < b.nextToken
  node : j.result = none → ∃ node, j.node = some node ∧ node.sessionId = session
  held : j.result = none → ∃ slots, b.media.get? j.reserve = some slots ∧
    (j.opened = false → slots .open ≠ 0) ∧ (j.closingSent = false → slots .close ≠ 0)
  opening : j.result = none → 1 ≤ j.opening.length ∧ j.opening.length ≤ 4096
  closing : j.result = none → 1 ≤ j.closing.length ∧ j.closing.length ≤ 4096
  ended : ∀ r, j.result = some r → r.opened = true → r.closeAttempted = true

/-- Only what no later step depends on is different. -/
def Idles (j j' : MediaRouteJob) : Prop :=
  ∃ cancelled endpoint lan nat, j' = { j with
    cancelled := cancelled
    endpoint := endpoint
    lanEndpoint := lan
    natEndpoint := nat }

/-- What a call does to a job, its output and what it sends; `seen` is the frame
it is shown. -/
inductive JobMoves (session : Nat) (now : ℚ) (seen : Option Bytes) (j : MediaRouteJob) (b : AccountOutputBudget) :
    Option MediaKind → MediaRouteJob → AccountOutputBudget → Prop
  | idle {j' : MediaRouteJob} (h : j.Idles j') : JobMoves session now seen j b none j' b
  | finish (confirmed : Bool) {j₁ : MediaRouteJob} (hidle : j.Idles j₁) (hlive : j.result = none)
      (hclosed : j.opened = true → j.closingSent = true)
      (hreceipt : confirmed = true → now < j.closeUntil ∧ j.closingSent = true ∧
        ∃ plain, seen = some plain ∧ Receipt plain session j.closingSequence) :
    JobMoves session now seen j b none (j₁.finish b confirmed).1 (j₁.finish b confirmed).2
  | open (hlive : j.result = none) (hclosed : j.opened = false) :
    JobMoves session now seen j b (some .open) { j with opened := true, relayUntil := now + 4 }
      (b.chargeMedia now j.reserve .open j.opening.length).2
  | close {j₁ : MediaRouteJob} (hidle : j.Idles j₁) (hlive : j.result = none) (hopened : j.opened = true)
      (hopen : j.closingSent = false) :
    JobMoves session now seen j b (some .close) { j₁ with closingSent := true, closeUntil := now + 3 / 2 }
      (b.chargeMedia now j₁.reserve .close j₁.closing.length).2

variable {session : Nat} {j j' : MediaRouteJob} {b b' : AccountOutputBudget} {now : ℚ}

theorem Idles.refl (j : MediaRouteJob) : j.Idles j := ⟨_, _, _, _, rfl⟩

theorem Idles.cancel (j : MediaRouteJob) : j.Idles j.cancel := ⟨_, _, _, _, rfl⟩

theorem idles_candidates (j : MediaRouteJob) (node : CertifiedNode) (plain : Bytes) :
    j.Idles (j.candidates node plain) := by
  unfold candidates
  split <;> simp only <;> split
  · exact ⟨_, _, _, _, rfl⟩
  · split
    · exact ⟨_, _, _, _, rfl⟩
    · split <;> exact ⟨_, _, _, _, rfl⟩
  · exact ⟨_, _, _, _, rfl⟩
  · split
    · exact ⟨_, _, _, _, rfl⟩
    · split <;> exact ⟨_, _, _, _, rfl⟩

/-- **A poll pays what it sends.** -/
theorem nextPacket_moves (h : j.Sound session b) (hb : b.Honours) (hnow : b.traffic.last ≤ now)
    (source : BrokerSequences) :
    ∃ packet, (j.nextPacket source b now).1 = .ok packet ∧
      JobMoves session now none j b (packet.map Prod.fst) (j.nextPacket source b now).2.1
        (j.nextPacket source b now).2.2 := by
  unfold nextPacket
  split
  · exact ⟨none, rfl, .idle (.refl j)⟩
  · exact ⟨none, rfl, .idle (.refl j)⟩
  next node hresult hnode =>
    obtain ⟨slots, hheld, hslotOpen, hslotClose⟩ := h.held hresult
    obtain ⟨hopening, hopening'⟩ := h.opening hresult
    obtain ⟨hclosing, hclosing'⟩ := h.closing hresult
    by_cases hopened : j.opened = false
    · rw [if_pos hopened]
      split
      · refine ⟨none, rfl, .finish false (.refl j) hresult ?_ nofun⟩
        rw [hopened]
        nofun
      · obtain ⟨traffic, hcharge⟩ := hb.chargeMedia_ok hnow hheld (hslotOpen hopened) hopening hopening'
        have hmove : JobMoves session now none j b (some .open) _ _ := .open hresult hopened
        rw [hcharge] at hmove ⊢
        exact ⟨some (.open, j.opening), rfl, hmove⟩
    · rw [if_neg hopened]
      simp only [Bool.not_eq_false] at hopened
      -- The route is given up when no relay has come in time.
      have hidle : j.Idles (if j.endpoint.isNone = true ∧ j.relayUntil ≤ now then j.cancel else j) := by
        split
        · exact .cancel j
        · exact .refl j
      generalize (if j.endpoint.isNone = true ∧ j.relayUntil ≤ now then j.cancel else j) = j₁ at hidle ⊢
      have hsame : j₁.reserve = j.reserve ∧ j₁.closing = j.closing ∧ j₁.closingSent = j.closingSent := by
        obtain ⟨_, _, _, _, rfl⟩ := hidle
        exact ⟨rfl, rfl, rfl⟩
      obtain ⟨hreserve, hwire, hsent⟩ := hsame
      simp only
      split
      next hclose =>
        rw [hsent] at hclose
        obtain ⟨traffic, hcharge⟩ := hb.chargeMedia_ok hnow hheld (hslotClose hclose.1) hclosing hclosing'
        rw [← hreserve, ← hwire] at hcharge
        have hmove : JobMoves session now none j b (some .close) _ _ := .close hidle hresult hopened hclose.1
        rw [hcharge] at hmove ⊢
        exact ⟨some (.close, j₁.closing), rfl, hmove⟩
      · split
        next hlate =>
          rw [hsent] at hlate
          exact ⟨none, rfl, .finish false hidle hresult (fun _ => hlate.1) nofun⟩
        · exact ⟨none, rfl, .idle hidle⟩

theorem observe_moves (h : j.Sound session b) (plain : Bytes) (peer : String × Nat) (generation : Nat) (now : ℚ) :
    JobMoves session now (some plain) j b none (j.observe b plain peer generation now).2.1
      (j.observe b plain peer generation now).2.2 := by
  unfold observe
  split
  · exact .idle (.refl j)
  · exact .idle (.refl j)
  next node hresult hnode =>
    obtain ⟨node', hnode', hsession⟩ := h.node hresult
    obtain rfl : node' = node := by
      rw [hnode] at hnode'
      exact (Option.some.inj hnode').symm
    split
    · exact .idle (.refl j)
    split
    · split
      · exact .idle (idles_candidates j node' plain)
      · exact .idle (.refl j)
    next hsent =>
      split
      · exact .idle (.refl j)
      next hfit =>
        simp only [not_or, not_le, not_not] at hfit
        split
        · exact .idle (.refl j)
        next checksum hchecksum =>
          split
          · exact .idle (.refl j)
          next hequal =>
            simp only
            split
            next hflags =>
              simp only [Bool.not_eq_false] at hsent
              refine .finish _ (.refl j) hresult (fun _ => hsent) fun hconfirmed => ⟨hfit.1, hsent, plain, rfl, ?_⟩
              exact {
                header := hsession ▸ hfit.2
                checksum := by rw [hchecksum, not_not.mp hequal]
                mode := hflags.1
                acknowledges := hflags.2.1
                whole := hflags.2.2
                result := of_decide_eq_true hconfirmed }
            · exact .idle (.refl j)

/-- A finished job has given its reserve back, or keeps it. -/
theorem finish_budget (j : MediaRouteJob) (b : AccountOutputBudget) (confirmed : Bool) :
    (j.finish b confirmed).2 = b ∨ (j.finish b confirmed).2 = b.closeMedia j.reserve := by
  unfold finish
  by_cases hback : (confirmed || !j.opened) = true
  · exact .inr (by simp [hback])
  · exact .inl (by simp [hback])

theorem JobMoves.others {seen : Option Bytes} {kind : Option MediaKind} (h : JobMoves session now seen j b kind j' b')
    (hb : b.Honours) (hnow : b.traffic.last ≤ now) :
    b'.Honours ∧ b'.traffic.last ≤ now ∧ ∀ token, j.reserve ≠ token → b.Spares b' token := by
  cases h with
  | idle hidle => exact ⟨hb, hnow, fun token _ => .refl b token⟩
  | finish confirmed hidle hlive hclosed hreceipt =>
    obtain ⟨_, _, _, _, rfl⟩ := hidle
    rcases finish_budget _ b confirmed with heq | heq <;> rw [heq]
    · exact ⟨hb, hnow, fun token _ => .refl b token⟩
    · exact ⟨hb.closeMedia _, hnow, fun token hother => b.spares_closeMedia hother⟩
  | «open» hlive hclosed =>
    obtain ⟨hb', hnow'⟩ := hb.chargeMedia hnow j.reserve .open j.opening.length
    exact ⟨hb', hnow', fun token hother => b.spares_chargeMedia now .open _ hother⟩
  | close hidle hlive hopened hopen =>
    obtain ⟨_, _, _, _, rfl⟩ := hidle
    obtain ⟨hb', hnow'⟩ := hb.chargeMedia hnow j.reserve .close j.closing.length
    exact ⟨hb', hnow', fun token hother => b.spares_chargeMedia now .close _ hother⟩

/-- A job is untouched by what spares its reserve. -/
theorem Sound.spared (h : j.Sound session b) (hspares : b.Spares b' j.reserve) : j.Sound session b' :=
  { h with
    known := lt_of_lt_of_le h.known hspares.next
    held := by
      rw [hspares.media]
      exact h.held }

theorem Sound.idles (h : j.Sound session b) (hidle : j.Idles j') : j'.Sound session b := by
  obtain ⟨_, _, _, _, rfl⟩ := hidle
  exact ⟨h.order, h.known, h.node, h.held, h.opening, h.closing, h.ended⟩

theorem Sound.finish (h : j.Sound session b) (hclosed : j.opened = true → j.closingSent = true) (confirmed : Bool) :
    (j.finish b confirmed).1.Sound session (j.finish b confirmed).2 := by
  have hknown : j.reserve < (j.finish b confirmed).2.nextToken := by
    rcases finish_budget j b confirmed with heq | heq <;> rw [heq] <;> exact h.known
  exact {
    order := h.order
    known := hknown
    node := nofun
    held := nofun
    opening := nofun
    closing := nofun
    ended := by
      rintro r hr hopened
      cases hr
      exact hclosed hopened }

/-- The slots of a reserve after a charge on one of them. -/
theorem charged_slots (h : b.Honours) (hnow : b.traffic.last ≤ now) {token : Nat} {slots : Slots MediaKind}
    (hheld : b.media.get? token = some slots) {kind : MediaKind} (hslot : slots kind ≠ 0) {size : Nat} (hpos : 1 ≤ size)
    (hsize : size ≤ 4096) :
    ∃ slots', (b.chargeMedia now token kind size).2.media.get? token = some slots' ∧
      (∀ other, other ≠ kind → slots' other = slots other) ∧
      (b.chargeMedia now token kind size).2.nextToken = b.nextToken := by
  obtain ⟨traffic, hcharge⟩ := h.chargeMedia_ok hnow hheld hslot hpos hsize
  rw [hcharge]
  refine ⟨_, by simp only [Dict.get?_set, if_true]; rfl, fun other hother => ?_, rfl⟩
  exact Function.update_of_ne hother _ _

/-- **A move keeps a job sound.** -/
theorem Sound.moves {seen : Option Bytes} {kind : Option MediaKind} (h : j.Sound session b) (hb : b.Honours)
    (hnow : b.traffic.last ≤ now) (hmove : JobMoves session now seen j b kind j' b') : j'.Sound session b' := by
  cases hmove with
  | idle hidle => exact h.idles hidle
  | @finish confirmed j₁ hidle hlive hclosed hreceipt =>
    refine (h.idles hidle).finish ?_ confirmed
    obtain ⟨_, _, _, _, rfl⟩ := hidle
    exact hclosed
  | «open» hlive hclosed =>
    obtain ⟨slots, hheld, hslotOpen, hslotClose⟩ := h.held hlive
    obtain ⟨slots', hheld', hother, hnext⟩ :=
      charged_slots hb hnow hheld (hslotOpen hclosed) (h.opening hlive).1 (h.opening hlive).2
    exact {
      order := fun _ => rfl
      known := by
        rw [hnext]
        exact h.known
      node := h.node
      held := fun _ => ⟨slots', hheld', nofun, fun hsent => by
        rw [hother .close nofun]
        exact hslotClose hsent⟩
      opening := h.opening
      closing := h.closing
      ended := h.ended }
  | close hidle hlive hopened hopen =>
    obtain ⟨_, _, _, _, rfl⟩ := hidle
    obtain ⟨slots, hheld, hslotOpen, hslotClose⟩ := h.held hlive
    obtain ⟨slots', hheld', hother, hnext⟩ :=
      charged_slots hb hnow hheld (hslotClose hopen) (h.closing hlive).1 (h.closing hlive).2
    exact {
      order := fun _ => hopened
      known := by
        rw [hnext]
        exact h.known
      node := h.node
      held := fun _ => ⟨slots', hheld', fun hclosed => by
        rw [hother .open nofun]
        exact hslotOpen hclosed, nofun⟩
      opening := h.opening
      closing := h.closing
      ended := h.ended }

/-- What no move changes. -/
structure Stays (j j' : MediaRouteJob) : Prop where
  output : j'.output = j.output
  reserve : j'.reserve = j.reserve
  closingSequence : j'.closingSequence = j.closingSequence
  /-- A route that is live was so before, for the same device. -/
  live : j'.result = none → j.result = none ∧ j'.deviceId = j.deviceId
  /-- A result is final. -/
  ended : ∀ r, j.result = some r → j'.result = some r

theorem Idles.stays (h : j.Idles j') : j.Stays j' := by
  obtain ⟨_, _, _, _, rfl⟩ := h
  exact ⟨rfl, rfl, rfl, fun hlive => ⟨hlive, rfl⟩, fun _ hr => hr⟩

theorem JobMoves.stays {seen : Option Bytes} {kind : Option MediaKind} (h : JobMoves session now seen j b kind j' b') :
    j.Stays j' := by
  cases h with
  | idle hidle => exact hidle.stays
  | finish confirmed hidle hlive hclosed hreceipt =>
    obtain ⟨_, _, _, _, rfl⟩ := hidle
    refine ⟨rfl, rfl, rfl, nofun, fun r hr => ?_⟩
    rw [hlive] at hr
    cases hr
  | «open» hlive hclosed => exact ⟨rfl, rfl, rfl, fun hlive => ⟨hlive, rfl⟩, fun _ hr => hr⟩
  | close hidle hlive hopened hopen =>
    obtain ⟨_, _, _, _, rfl⟩ := hidle
    exact ⟨rfl, rfl, rfl, fun hlive => ⟨hlive, rfl⟩, fun _ hr => hr⟩

/-- What is sent, and what the job knows of it. -/
inductive Notes (now : ℚ) (j j' : MediaRouteJob) : Option MediaKind → Prop
  | quiet (hopened : j'.opened = j.opened) (hsent : j'.closingSent = j.closingSent)
      (huntil : j'.closeUntil = j.closeUntil) : Notes now j j' none
  | open (hbefore : j.opened = false) (hopened : j'.opened = true) (hsent : j'.closingSent = j.closingSent)
      (huntil : j'.closeUntil = j.closeUntil) : Notes now j j' (some .open)
  | close (hopened : j.opened = true) (hopened' : j'.opened = true) (hbefore : j.closingSent = false)
      (hsent : j'.closingSent = true) (huntil : j'.closeUntil = now + 3 / 2) : Notes now j j' (some .close)

theorem JobMoves.notes {seen : Option Bytes} {kind : Option MediaKind} (h : JobMoves session now seen j b kind j' b') :
    Notes now j j' kind := by
  cases h with
  | idle hidle =>
    obtain ⟨_, _, _, _, rfl⟩ := hidle
    exact .quiet rfl rfl rfl
  | finish confirmed hidle hlive hclosed hreceipt =>
    obtain ⟨_, _, _, _, rfl⟩ := hidle
    exact .quiet rfl rfl rfl
  | «open» hlive hclosed => exact .open hclosed rfl rfl rfl
  | close hidle hlive hopened hopen =>
    obtain ⟨_, _, _, _, rfl⟩ := hidle
    exact .close hopened hopened hopen rfl rfl

/-- A release that is new was confirmed by what the job was shown. -/
theorem JobMoves.confirmed {seen : Option Bytes} {kind : Option MediaKind} {r : MediaRouteResult}
    (h : JobMoves session now seen j b kind j' b') (hlive : j.result = none) (hr : j'.result = some r)
    (hrelease : r.brokerRelease = true) :
    now < j.closeUntil ∧ j.closingSent = true ∧ ∃ plain, seen = some plain ∧ Receipt plain session j.closingSequence := by
  cases h with
  | idle hidle =>
    obtain ⟨_, _, _, _, rfl⟩ := hidle
    simp [hlive] at hr
  | finish confirmed hidle _ hclosed hreceipt =>
    cases hr
    exact hreceipt hrelease
  | «open» _ hclosed => simp [hlive] at hr
  | close hidle _ hopened hopen =>
    obtain ⟨_, _, _, _, rfl⟩ := hidle
    simp [hlive] at hr

/-- A job that has just been made. -/
structure Fresh (session output device token : Nat) (j : MediaRouteJob) (b : AccountOutputBudget) : Prop where
  sound : j.Sound session b
  output : j.output = output
  reserve : j.reserve = token
  device : j.deviceId = device
  live : j.result = none
  unopened : j.opened = false
  unclosed : j.closingSent = false

theorem frames_length {node : CertifiedNode} {spec : MediaRouteSpec} {address : BoundAddress} {attempt : CallingAttempt}
    {draws : RouteDraws} {opening closing : Nat} {metadata openingWire closingWire : Bytes}
    (h : frames node spec address attempt draws opening closing = .ok (metadata, openingWire, closingWire)) :
    openingWire.length = 177 ∧ closingWire.length = 76 := by
  unfold frames at h
  split at h
  · cases h
  split at h
  · cases h
  next hopening =>
    split at h
    · cases h
    next hclosing =>
      cases h
      exact ⟨length_buildCallingRequest hopening, length_buildRouteHangup hclosing⟩

/-- **The constructor**: the job is fresh if there is one, and the other reserves
are spared in any case. -/
theorem new_spec (hb : b.Honours) (hnow : b.traffic.last ≤ now) {node : CertifiedNode}
    (hsession : node.sessionId = session) (source : BrokerSequences) (output : Nat) (spec : MediaRouteSpec)
    (generation : Nat) (address : BoundAddress) (link : Nat) (draws : RouteDraws) :
    ∃ made b' source', new node source output b spec generation address link draws now = (made, b', source') ∧
      b'.Honours ∧ b'.traffic.last ≤ now ∧ (∀ token, token < b.nextToken → b.Spares b' token) ∧
      ∀ job, made = .ok job → Fresh session output spec.device.deviceId b.nextToken job b' := by
  unfold new
  split
  · exact ⟨_, _, _, rfl, hb, hnow, fun token _ => .refl b token, fun job h => by cases h⟩
  split
  · exact ⟨_, _, _, rfl, hb, hnow, fun token _ => .refl b token, fun job h => by cases h⟩
  have hreserved := hb.reserveMedia hnow
  have hspared (token : Nat) (htoken : token < b.nextToken) := b.spares_reserveMedia now htoken
  rcases b.reserveMedia_cases now with ⟨traffic, heq⟩ | ⟨e, traffic, heq⟩
  · rw [heq] at hreserved hspared ⊢
    simp only at hreserved hspared ⊢
    have hback (token : Nat) (htoken : token < b.nextToken) :
        b.Spares (AccountOutputBudget.closeMedia { b with
          traffic := traffic
          media := b.media.set b.nextToken mediaSlots
          nextToken := b.nextToken + 1 } b.nextToken) token := by
      have hkept := AccountOutputBudget.spares_closeMedia { b with
          traffic := traffic
          media := b.media.set b.nextToken mediaSlots
          nextToken := b.nextToken + 1 } (Nat.ne_of_gt htoken)
      exact ⟨hkept.media.trans (hspared token htoken).media, le_trans (hspared token htoken).next hkept.next⟩
    split
    · exact ⟨_, _, _, rfl, hreserved.1.closeMedia _, hreserved.2, hback, fun job h => by cases h⟩
    · split
      · exact ⟨_, _, _, rfl, hreserved.1.closeMedia _, hreserved.2, hback, fun job h => by cases h⟩
      next hframes =>
        obtain ⟨hopening, hclosing⟩ := frames_length hframes
        refine ⟨_, _, _, rfl, hreserved.1, hreserved.2, hspared, ?_⟩
        rintro job ⟨⟩
        have hheld : (b.media.set b.nextToken mediaSlots).get? b.nextToken = some mediaSlots := by
          rw [Dict.get?_set, if_pos rfl]
        exact {
          sound := {
            order := nofun
            known := Nat.lt_succ_self _
            node := fun _ => ⟨node, rfl, hsession⟩
            held := fun _ => ⟨mediaSlots, hheld, fun _ => by decide, fun _ => by decide⟩
            opening := fun _ => by
              simp only [hopening]
              decide
            closing := fun _ => by
              simp only [hclosing]
              decide
            ended := nofun }
          output := rfl
          reserve := rfl
          device := rfl
          live := rfl
          unopened := rfl
          unclosed := rfl }
  · rw [heq] at hreserved hspared ⊢
    exact ⟨_, _, _, rfl, hreserved.1, hreserved.2, hspared, fun job h => by cases h⟩

end MediaRouteJob

/-! ## The table -/

namespace RouteWorld

open MediaRouteJob

/-- What holds of the account's objects at a time. -/
structure Sound (session : Nat) (t : ℚ) (w : RouteWorld) : Prop where
  outputs : ∀ number, (w.outputs number).Honours ∧ (w.outputs number).traffic.last ≤ t
  jobs : ∀ {id : Nat} {job : MediaRouteJob}, w.jobs[id]? = some job → job.Sound session (w.outputs job.output)
  apart : ∀ {id other : Nat} {job job' : MediaRouteJob}, w.jobs[id]? = some job → w.jobs[other]? = some job' → id ≠ other →
    job.output = job'.output → job.reserve ≠ job'.reserve
  node : ∀ {node}, w.table.node = some node → node.sessionId = session
  live : ∀ {id : Nat} {job : MediaRouteJob}, w.jobs[id]? = some job → job.result = none →
    w.table.routes.get? job.deviceId = some id
  /-- A route that may still be open is in the table. -/
  uncertain : ∀ {id : Nat} {job : MediaRouteJob} {r : MediaRouteResult}, w.jobs[id]? = some job →
    job.result = some r → r.opened = true → r.brokerRelease = false → ∃ device, w.table.routes.get? device = some id
  fits : w.table.routes.size ≤ w.table.capacity

variable {session : Nat} {t now : ℚ} {w : RouteWorld}

theorem Sound.later (h : w.Sound session t) (hnow : t ≤ now) : w.Sound session now :=
  { h with outputs := fun number => ⟨(h.outputs number).1, le_trans (h.outputs number).2 hnow⟩ }

theorem jobs_setJob (w : RouteWorld) {id : Nat} {job : MediaRouteJob} (hjob : w.jobs[id]? = some job)
    (job' : MediaRouteJob) (b : AccountOutputBudget) (other : Nat) :
    (w.setJob id job' b).jobs[other]? = if other = id then some job' else w.jobs[other]? := by
  have hid := (List.getElem?_eq_some_iff.mp hjob).1
  simp only [setJob, setBudget]
  by_cases hother : other = id
  · subst hother
    simp [List.getElem?_set_self hid]
  · rw [List.getElem?_set_ne (Ne.symm hother), if_neg hother]

theorem outputs_setJob (w : RouteWorld) (id : Nat) (job' : MediaRouteJob) (b : AccountOutputBudget) (number : Nat) :
    (w.setJob id job' b).outputs number = if number = job'.output then b else w.outputs number := by
  simp only [setJob, setBudget, Function.update_apply]

/-- **A move of one job keeps the whole.** -/
theorem Sound.setJob (h : w.Sound session now) {id : Nat} {job job' : MediaRouteJob} (hjob : w.jobs[id]? = some job)
    {seen : Option Bytes} {kind : Option MediaKind} {b' : AccountOutputBudget}
    (hmove : JobMoves session now seen job (w.outputs job.output) kind job' b') :
    (w.setJob id job' b').Sound session now := by
  obtain ⟨hhonours, hlast⟩ := h.outputs job.output
  obtain ⟨hhonours', hlast', hspares⟩ := hmove.others hhonours hlast
  have hstays := hmove.stays
  have houtput := hstays.output
  refine ⟨?_, ?_, ?_, h.node, ?_, ?_, h.fits⟩
  · intro number
    rw [outputs_setJob]
    split
    · exact ⟨hhonours', hlast'⟩
    · exact h.outputs number
  · intro other found hfound
    rw [jobs_setJob w hjob] at hfound
    rw [outputs_setJob]
    split at hfound
    · cases hfound
      rw [if_pos rfl]
      exact (h.jobs hjob).moves hhonours hlast hmove
    next hne =>
      have hsound := h.jobs hfound
      split
      next hsame =>
        rw [houtput] at hsame
        rw [hsame] at hsound
        exact hsound.spared (hspares _ (h.apart hjob hfound (Ne.symm hne) hsame.symm))
      · exact hsound
  · intro first second job₁ job₂ hfirst hsecond hne
    rw [jobs_setJob w hjob] at hfirst hsecond
    split at hfirst <;> split at hsecond
    next h₁ h₂ => exact absurd (h₁.trans h₂.symm) hne
    next h₁ h₂ =>
      cases hfirst
      rw [hstays.output, hstays.reserve]
      exact h.apart hjob hsecond (Ne.symm h₂)
    next h₁ h₂ =>
      cases hsecond
      rw [hstays.output, hstays.reserve]
      exact h.apart hfirst hjob h₁
    next h₁ h₂ => exact h.apart hfirst hsecond hne
  · intro other found hfound hlive
    rw [jobs_setJob w hjob] at hfound
    split at hfound
    next heq =>
      cases hfound
      rw [(hstays.live hlive).2, heq]
      exact h.live hjob (hstays.live hlive).1
    · exact h.live hfound hlive
  · intro other found r hfound hr hopened hunreleased
    rw [jobs_setJob w hjob] at hfound
    split at hfound
    next heq =>
      cases hfound
      rw [heq]
      cases hold : job.result with
      | none => exact ⟨_, h.live hjob hold⟩
      | some r' =>
        have hfinal := hstays.ended r' hold
        rw [hr] at hfinal
        cases hfinal
        exact h.uncertain hjob hold hopened hunreleased
    · exact h.uncertain hfound hr hopened hunreleased

/-! ## The table's own operations -/

/-- An output that changes, and spares the reserves of the jobs. -/
theorem Sound.setBudget (h : w.Sound session now) (number : Nat) {b' : AccountOutputBudget}
    (hb' : b'.Honours ∧ b'.traffic.last ≤ now)
    (hspares : ∀ (id : Nat) (job : MediaRouteJob), w.jobs[id]? = some job → job.output = number →
      (w.outputs number).Spares b' job.reserve) :
    (w.setBudget number b').Sound session now := by
  refine ⟨?_, ?_, h.apart, h.node, h.live, h.uncertain, h.fits⟩
  · intro other
    simp only [RouteWorld.setBudget, Function.update_apply]
    split
    · exact hb'
    · exact h.outputs other
  · intro id job hjob
    simp only [RouteWorld.setBudget, Function.update_apply]
    have hsound := h.jobs hjob
    split
    next hsame =>
      rw [hsame] at hsound
      exact hsound.spared (hspares id job hjob hsame)
    · exact hsound

theorem result_of_job {id : Nat} {job : MediaRouteJob} (hjob : w.jobs[id]? = some job) : w.result id = job.result := by
  rw [result, hjob, Option.bind_some]

theorem get?_purged (w : RouteWorld) (device id : Nat) :
    w.purged.get? device = some id ↔ w.table.routes.get? device = some id ∧ w.result id = none := by
  rw [Dict.get?_eq_some, Dict.get?_eq_some]
  simp [purged]

/-- The account is fenced while a route may still be open. -/
theorem Sound.fenced (h : w.Sound session t) {id : Nat} {job : MediaRouteJob} {r : MediaRouteResult}
    (hjob : w.jobs[id]? = some job) (hr : job.result = some r) (hopened : r.opened = true)
    (hunreleased : r.brokerRelease = false) : w.releaseUncertain = true := by
  obtain ⟨device, hdevice⟩ := h.uncertain hjob hr hopened hunreleased
  rw [releaseUncertain, List.any_eq_true]
  refine ⟨id, List.mem_map_of_mem (Dict.get?_eq_some.mp hdevice), ?_⟩
  rw [result_of_job hjob, hr]
  simp [hopened, hunreleased]

/-- Only what is known to be closed leaves the table. -/
theorem Sound.purge (h : w.Sound session t) (hcertain : w.releaseUncertain = false) :
    Sound session t { w with table := { w.table with routes := w.purged } } := by
  refine ⟨h.outputs, h.jobs, h.apart, h.node, ?_, ?_, le_trans (List.length_filter_le ..) h.fits⟩
  · intro id job hjob hlive
    exact (get?_purged w _ _).mpr ⟨h.live hjob hlive, (result_of_job hjob).trans hlive⟩
  · intro id job r hjob hr hopened hunreleased
    rw [h.fenced hjob hr hopened hunreleased] at hcertain
    cases hcertain

/-- A job that was there, or the one that was added. -/
theorem jobs_append {jobs : List MediaRouteJob} {job found : MediaRouteJob} {id : Nat}
    (h : (jobs ++ [job])[id]? = some found) : jobs[id]? = some found ∨ id = jobs.length ∧ found = job := by
  rcases Nat.lt_or_ge id jobs.length with hlt | hge
  · rw [List.getElem?_append_left hlt] at h
    exact .inl h
  · rw [List.getElem?_append_right hge, List.getElem?_singleton] at h
    split at h
    next hlast => exact .inr ⟨by omega, by simpa using h.symm⟩
    · cases h

theorem Sound.enter (h : w.Sound session now) {output device : Nat} {job : MediaRouteJob} {b' : AccountOutputBudget}
    (hb' : b'.Honours ∧ b'.traffic.last ≤ now)
    (hspares : ∀ token, token < (w.outputs output).nextToken → (w.outputs output).Spares b' token)
    (hfresh : Fresh session output device (w.outputs output).nextToken job b')
    (hdevice : w.table.routes.get? device = none) (hroom : w.table.routes.size < w.table.capacity)
    (source : BrokerSequences) (owner : Option Nat) :
    Sound session now { w.setBudget output b' with
      source := source
      jobs := w.jobs ++ [job]
      table := { w.table with routes := w.table.routes.set device w.jobs.length, output := owner } } := by
  have hkept := h.setBudget output hb' fun id found hfound hsame =>
    hspares _ (hsame ▸ (h.jobs hfound).known)
  have hstill {other id : Nat} (hother : w.table.routes.get? other = some id) :
      (w.table.routes.set device w.jobs.length).get? other = some id := by
    rw [Dict.get?_set, if_neg]
    · exact hother
    · rintro rfl
      rw [hdevice] at hother
      cases hother
  refine ⟨hkept.outputs, ?_, ?_, h.node, ?_, ?_, ?_⟩
  · intro id found hfound
    rcases jobs_append hfound with hold | ⟨-, rfl⟩
    · exact hkept.jobs hold
    · simp only [RouteWorld.setBudget, hfresh.output, Function.update_self]
      exact hfresh.sound
  · intro id other job₁ job₂ hfirst hsecond hne hsame
    rcases jobs_append hfirst with hold | ⟨rfl, rfl⟩ <;> rcases jobs_append hsecond with hold' | ⟨rfl, rfl⟩
    · exact h.apart hold hold' hne hsame
    · rw [hfresh.reserve]
      rw [hfresh.output] at hsame
      exact Nat.ne_of_lt (hsame ▸ (h.jobs hold).known)
    · rw [hfresh.reserve]
      rw [hfresh.output] at hsame
      exact Nat.ne_of_gt (hsame ▸ (h.jobs hold').known)
    · exact absurd rfl hne
  · intro id found hfound hlive
    rcases jobs_append hfound with hold | ⟨rfl, rfl⟩
    · exact hstill (h.live hold hlive)
    · rw [hfresh.device, Dict.get?_set, if_pos rfl]
  · intro id found r hfound hr hopened hunreleased
    rcases jobs_append hfound with hold | ⟨rfl, rfl⟩
    · obtain ⟨other, hother⟩ := h.uncertain hold hr hopened hunreleased
      exact ⟨other, hstill hother⟩
    · rw [hfresh.live] at hr
      cases hr
  · simp only
    rw [Dict.size_set_of_none hdevice]
    exact hroom

/-! ## What has been seen -/

/-- How often a route has sent a kind of packet. -/
def sends (log : List (ℚ × RouteEvent)) (id : Nat) (kind : MediaKind) : Nat := log.countP fun e => e.2 = .sent id kind

/-- The broker's receipt for the route's hangup came in time. -/
def Confirmed (session : Nat) (log : List (ℚ × RouteEvent)) (id sequence : Nat) : Prop :=
  ∃ sent seen plain peer, (sent, .sent id .close) ∈ log ∧ (seen, .observed plain peer) ∈ log ∧ sent ≤ seen ∧
    seen < sent + 3 / 2 ∧ Receipt plain session sequence

/-- A CLOSE is right after an OPEN of the same route. -/
def AfterOpen (before : List (ℚ × RouteEvent)) (e : ℚ × RouteEvent) : Prop :=
  ∀ id, e.2 = .sent id .close → ∃ sent, (sent, .sent id .open) ∈ before

/-- What the log says of the jobs. -/
structure Logged (session : Nat) (t : ℚ) (w : RouteWorld) (log : List (ℚ × RouteEvent)) : Prop where
  times : ∀ e ∈ log, e.1 ≤ t
  opens : ∀ {id : Nat} {job : MediaRouteJob}, w.jobs[id]? = some job → sends log id .open = job.opened.toNat
  closes : ∀ {id : Nat} {job : MediaRouteJob}, w.jobs[id]? = some job → sends log id .close = job.closingSent.toNat
  absent : ∀ {id : Nat} (kind : MediaKind), w.jobs[id]? = none → sends log id kind = 0
  paid : ∀ s id e, (s, .unpaid id e) ∉ log
  ordered : Justified AfterOpen log
  due : ∀ {id : Nat} {job : MediaRouteJob}, w.jobs[id]? = some job → job.closingSent = true →
    ∃ sent, (sent, .sent id .close) ∈ log ∧ job.closeUntil = sent + 3 / 2
  released : ∀ {id : Nat} {job : MediaRouteJob} {r : MediaRouteResult}, w.jobs[id]? = some job →
    job.result = some r → r.brokerRelease = true → Confirmed session log id job.closingSequence

variable {log : List (ℚ × RouteEvent)}

theorem sends_snoc (log : List (ℚ × RouteEvent)) (e : ℚ × RouteEvent) (id : Nat) (kind : MediaKind) :
    sends (log ++ [e]) id kind = sends log id kind + if e.2 = .sent id kind then 1 else 0 := by
  simp only [sends, List.countP_append, List.countP_singleton, decide_eq_true_eq]

theorem sent_of_sends {id : Nat} {kind : MediaKind} (h : sends log id kind ≠ 0) : ∃ s, (s, .sent id kind) ∈ log := by
  obtain ⟨e, he, hkind⟩ := List.countP_pos_iff.mp (Nat.pos_of_ne_zero h)
  refine ⟨e.1, ?_⟩
  rw [← of_decide_eq_true hkind]
  exact he

theorem Confirmed.mono {id sequence : Nat} (h : Confirmed session log id sequence) (more : List (ℚ × RouteEvent)) :
    Confirmed session (log ++ more) id sequence := by
  obtain ⟨sent, seen, plain, peer, hsent, hseen, hfacts⟩ := h
  exact ⟨sent, seen, plain, peer, List.mem_append_left _ hsent, List.mem_append_left _ hseen, hfacts⟩

/-- An event that is neither a packet nor a refused charge. -/
theorem Logged.note (h : Logged session t w log) (hnow : t ≤ now) {e : RouteEvent}
    (hsent : ∀ id kind, e ≠ .sent id kind) (hpaid : ∀ id fault, e ≠ .unpaid id fault) :
    Logged session now w (log ++ [(now, e)]) := by
  have hcount (id : Nat) (kind : MediaKind) : sends (log ++ [(now, e)]) id kind = sends log id kind := by
    rw [sends_snoc, if_neg (hsent id kind), Nat.add_zero]
  refine ⟨?_, ?_, ?_, ?_, ?_, h.ordered.snoc fun id hclose => absurd hclose (hsent id .close), ?_, ?_⟩
  · intro e' he'
    rcases List.mem_append.mp he' with hold | hnew
    · exact le_trans (h.times e' hold) hnow
    · cases List.mem_singleton.mp hnew
      exact le_refl now
  · intro id job hjob
    rw [hcount, h.opens hjob]
  · intro id job hjob
    rw [hcount, h.closes hjob]
  · intro id kind hjob
    rw [hcount, h.absent kind hjob]
  · intro s id fault hmem
    rcases List.mem_append.mp hmem with hold | hnew
    · exact h.paid s id fault hold
    · cases List.mem_singleton.mp hnew
      exact hpaid id fault rfl
  · intro id job hjob hclosing
    obtain ⟨sent, hmem, huntil⟩ := h.due hjob hclosing
    exact ⟨sent, List.mem_append_left _ hmem, huntil⟩
  · intro id job r hjob hr hrelease
    exact (h.released hjob hr hrelease).mono _

/-- The count of a kind after a packet of one job. -/
theorem sends_move (log : List (ℚ × RouteEvent)) (now : ℚ) (id other : Nat) (sent : Option MediaKind)
    (kind : MediaKind) :
    sends (log ++ (sent.map fun k => (now, RouteEvent.sent id k)).toList) other kind =
      sends log other kind + if other = id ∧ sent = some kind then 1 else 0 := by
  cases sent with
  | none => simp
  | some k =>
    rw [Option.map_some, Option.toList_some, sends_snoc]
    congr 1
    refine if_congr ?_ rfl rfl
    simp only [RouteEvent.sent.injEq, Option.some.injEq, eq_comm]

/-- The release of a job that has moved is confirmed. -/
theorem Logged.confirms (h : Logged session now w log) {id : Nat} {job job' : MediaRouteJob}
    (hjob : w.jobs[id]? = some job) {seen : Option Bytes} {kind : Option MediaKind} {b b' : AccountOutputBudget}
    (hmove : JobMoves session now seen job b kind job' b')
    (hseen : ∀ plain, seen = some plain → ∃ peer, (now, .observed plain peer) ∈ log) {r : MediaRouteResult}
    (hr : job'.result = some r) (hrelease : r.brokerRelease = true) :
    Confirmed session log id job'.closingSequence := by
  rw [hmove.stays.closingSequence]
  cases hold : job.result with
  | some r' =>
    have hfinal := hmove.stays.ended r' hold
    rw [hr] at hfinal
    cases hfinal
    exact h.released hjob hold hrelease
  | none =>
    obtain ⟨hbefore, hclosing, plain, hplain, hreceipt⟩ := hmove.confirmed hold hr hrelease
    obtain ⟨sent, hsent, huntil⟩ := h.due hjob hclosing
    obtain ⟨peer, hpeer⟩ := hseen plain hplain
    exact ⟨sent, now, plain, peer, hsent, hpeer, h.times _ hsent, huntil ▸ hbefore, hreceipt⟩

/-- **What one job does is what the log says of it.** -/
theorem Logged.setJob (h : Logged session now w log) {id : Nat} {job job' : MediaRouteJob}
    (hjob : w.jobs[id]? = some job) {seen : Option Bytes} {kind : Option MediaKind} {b b' : AccountOutputBudget}
    (hmove : JobMoves session now seen job b kind job' b')
    (hseen : ∀ plain, seen = some plain → ∃ peer, (now, .observed plain peer) ∈ log) :
    Logged session now (w.setJob id job' b') (log ++ (kind.map fun k => (now, RouteEvent.sent id k)).toList) := by
  have hnotes := hmove.notes
  have hnew : ∀ e ∈ (kind.map fun k => (now, RouteEvent.sent id k)).toList, ∃ k, kind = some k ∧ e = (now, .sent id k) := by
    intro e he
    cases kind with
    | none => simp at he
    | some k => exact ⟨k, rfl, by simpa using he⟩
  refine ⟨?_, ?_, ?_, ?_, ?_, ?_, ?_, ?_⟩
  · intro e he
    rcases List.mem_append.mp he with hold | hadd
    · exact h.times e hold
    · obtain ⟨k, -, rfl⟩ := hnew e hadd
      exact le_refl now
  · intro other found hfound
    rw [jobs_setJob w hjob] at hfound
    rw [sends_move]
    split at hfound
    next heq =>
      cases hfound
      rw [heq, h.opens hjob]
      cases hnotes with
      | quiet hopened hsent huntil => simp [hopened]
      | «open» hbefore hopened hsent huntil => simp [hbefore, hopened]
      | close hopened hopened' hbefore hsent huntil => simp [hopened, hopened']
    next hne => rw [if_neg (fun hboth => hne hboth.1), h.opens hfound, Nat.add_zero]
  · intro other found hfound
    rw [jobs_setJob w hjob] at hfound
    rw [sends_move]
    split at hfound
    next heq =>
      cases hfound
      rw [heq, h.closes hjob]
      cases hnotes with
      | quiet hopened hsent huntil => simp [hsent]
      | «open» hbefore hopened hsent huntil => simp [hsent]
      | close hopened hopened' hbefore hsent huntil => simp [hbefore, hsent]
    next hne => rw [if_neg (fun hboth => hne hboth.1), h.closes hfound, Nat.add_zero]
  · intro other k hfound
    rw [jobs_setJob w hjob] at hfound
    rw [sends_move]
    split at hfound
    · cases hfound
    next hne => rw [if_neg (fun hboth => hne hboth.1), h.absent k hfound]
  · intro s other fault hmem
    rcases List.mem_append.mp hmem with hold | hadd
    · exact h.paid s other fault hold
    · obtain ⟨k, -, heq⟩ := hnew _ hadd
      cases heq
  · cases hnotes with
    | quiet hopened hsent huntil => simpa using h.ordered
    | «open» hbefore hopened hsent huntil => exact h.ordered.snoc nofun
    | close hopened hopened' hbefore hsent huntil =>
      -- The job was open, so its OPEN is in the log.
      refine h.ordered.snoc ?_
      rintro other ⟨⟩
      exact sent_of_sends (by rw [h.opens hjob, hopened]; decide)
  · intro other found hfound hclosing
    rw [jobs_setJob w hjob] at hfound
    split at hfound
    next heq =>
      cases hfound
      subst heq
      cases hnotes with
      | quiet hopened hsent huntil =>
        obtain ⟨sent, hmem, hdue⟩ := h.due hjob (hsent ▸ hclosing)
        exact ⟨sent, List.mem_append_left _ hmem, huntil.trans hdue⟩
      | «open» hbefore hopened hsent huntil =>
        obtain ⟨sent, hmem, hdue⟩ := h.due hjob (hsent ▸ hclosing)
        exact ⟨sent, List.mem_append_left _ hmem, huntil.trans hdue⟩
      | close hopened hopened' hbefore hsent huntil => exact ⟨now, by simp, huntil⟩
    · obtain ⟨sent, hmem, hdue⟩ := h.due hfound hclosing
      exact ⟨sent, List.mem_append_left _ hmem, hdue⟩
  · intro other found r hfound hr hrelease
    rw [jobs_setJob w hjob] at hfound
    split at hfound
    next heq =>
      cases hfound
      subst heq
      exact (h.confirms hjob hmove hseen hr hrelease).mono _
    · exact (h.released hfound hr hrelease).mono _

theorem Logged.enter (h : Logged session now w log) {w' : RouteWorld} {output device token : Nat} {job : MediaRouteJob}
    {b : AccountOutputBudget} (hfresh : Fresh session output device token job b) (hjobs : w'.jobs = w.jobs ++ [job]) :
    Logged session now w' log := by
  have hnone (kind : MediaKind) : sends log w.jobs.length kind = 0 := h.absent kind (by simp)
  refine ⟨h.times, ?_, ?_, ?_, h.paid, h.ordered, ?_, ?_⟩ <;> rw [hjobs]
  · intro id found hfound
    rcases jobs_append hfound with hold | ⟨rfl, rfl⟩
    · exact h.opens hold
    · rw [hnone, hfresh.unopened, Bool.toNat_false]
  · intro id found hfound
    rcases jobs_append hfound with hold | ⟨rfl, rfl⟩
    · exact h.closes hold
    · rw [hnone, hfresh.unclosed, Bool.toNat_false]
  · intro id kind hfound
    rw [List.getElem?_eq_none_iff, List.length_append] at hfound
    exact h.absent kind (List.getElem?_eq_none (by omega))
  · intro id found hfound hclosing
    rcases jobs_append hfound with hold | ⟨rfl, rfl⟩
    · exact h.due hold hclosing
    · rw [hfresh.unclosed] at hclosing
      cases hclosing
  · intro id found r hfound hr hrelease
    rcases jobs_append hfound with hold | ⟨rfl, rfl⟩
    · exact h.released hold hr hrelease
    · rw [hfresh.live] at hr
      cases hr

/-! ## Links -/

/-- The links that were allocated. -/
def links (log : List (ℚ × RouteEvent)) : List Nat :=
  log.filterMap fun e => match e.2 with
    | .linked link => some link
    | _ => none

/-- The link at a place of the round that starts after `start`. -/
def linkAt (start i : Nat) : Nat := (start + i) % 0xFFFFFF + 1

/-- The table goes round the link space once. -/
structure Linked (w : RouteWorld) (log : List (ℚ × RouteEvent)) (start : Nat) : Prop where
  round : links log = (List.range (links log).length).map (linkAt start)
  next : w.table.nextLink = linkAt start (links log).length
  left : w.table.linksLeft + (links log).length = 0xFFFFFF

theorem linkAt_succ (start i : Nat) : linkAt start i % 0xFFFFFF + 1 = linkAt start (i + 1) := by
  unfold linkAt
  omega

theorem nodup_round (start : Nat) {n : Nat} (hn : n ≤ 0xFFFFFF) : ((List.range n).map (linkAt start)).Nodup := by
  refine List.Nodup.map_on ?_ List.nodup_range
  intro i hi j hj hij
  rw [List.mem_range] at hi hj
  unfold linkAt at hij
  omega

theorem links_append (log more : List (ℚ × RouteEvent)) : links (log ++ more) = links log ++ links more :=
  List.filterMap_append

/-- **No link is allocated twice, and all are link ids.** -/
theorem Linked.valid {start : Nat} (h : Linked w log start) :
    (links log).Nodup ∧ ∀ link ∈ links log, 1 ≤ link ∧ link ≤ 0xFFFFFF := by
  have hleft := h.left
  rw [h.round]
  refine ⟨nodup_round start (by omega), ?_⟩
  intro link hlink
  obtain ⟨i, -, rfl⟩ := List.mem_map.mp hlink
  unfold linkAt
  omega

theorem Linked.allocate {start : Nat} {w' : RouteWorld} {more : List (ℚ × RouteEvent)} (h : Linked w log start)
    (hlinks : links more = [w.table.nextLink]) (hleft : w.table.linksLeft ≠ 0)
    (hnext : w'.table.nextLink = w.table.nextLink % 0xFFFFFF + 1)
    (hleft' : w'.table.linksLeft = w.table.linksLeft - 1) : Linked w' (log ++ more) start := by
  have hall : links (log ++ more) = links log ++ [w.table.nextLink] := by
    rw [links_append, hlinks]
  have hold := h.left
  refine ⟨?_, ?_, ?_⟩
  · rw [hall, List.length_append, List.length_singleton, List.range_succ, List.map_append, ← h.round, h.next]
    rfl
  · rw [hall, List.length_append, List.length_singleton, hnext, h.next, linkAt_succ]
  · rw [hall, List.length_append, List.length_singleton, hleft']
    omega

theorem Linked.same {start : Nat} {w' : RouteWorld} {more : List (ℚ × RouteEvent)} (h : Linked w log start)
    (hlinks : links more = []) (hnext : w'.table.nextLink = w.table.nextLink)
    (hleft : w'.table.linksLeft = w.table.linksLeft) : Linked w' (log ++ more) start := by
  have hall : links (log ++ more) = links log := by rw [links_append, hlinks, List.append_nil]
  exact ⟨by rw [hall]; exact h.round, by rw [hall, hnext]; exact h.next, by rw [hall, hleft]; exact h.left⟩

/-! ## Calls -/

/-- The jobs there were are there, and what has ended stays ended. -/
structure Grows (w w' : RouteWorld) : Prop where
  jobs : ∀ (id : Nat) (job : MediaRouteJob), w.jobs[id]? = some job →
    ∃ job', w'.jobs[id]? = some job' ∧ ∀ r, job.result = some r → job'.result = some r
  capacity : w'.table.capacity = w.table.capacity

theorem Grows.same {w w' : RouteWorld} (h : w'.jobs = w.jobs) (hcapacity : w'.table.capacity = w.table.capacity) :
    w.Grows w' := ⟨fun _ job hjob => ⟨job, h ▸ hjob, fun _ hr => hr⟩, hcapacity⟩

theorem Grows.refl (w : RouteWorld) : w.Grows w := .same rfl rfl

theorem Grows.trans {w₁ w₂ w₃ : RouteWorld} (h : w₁.Grows w₂) (h' : w₂.Grows w₃) : w₁.Grows w₃ := by
  refine ⟨fun id job hjob => ?_, h'.capacity.trans h.capacity⟩
  obtain ⟨job', hjob', hends⟩ := h.jobs id job hjob
  obtain ⟨job'', hjob'', hends'⟩ := h'.jobs id job' hjob'
  exact ⟨job'', hjob'', fun r hr => hends' r (hends r hr)⟩

theorem grows_setJob {id : Nat} {job job' : MediaRouteJob} (hjob : w.jobs[id]? = some job) (hstays : job.Stays job')
    (b : AccountOutputBudget) : w.Grows (w.setJob id job' b) := by
  refine ⟨fun other found hfound => ?_, rfl⟩
  rw [jobs_setJob w hjob]
  split
  next heq =>
    rw [heq, hjob] at hfound
    cases hfound
    exact ⟨job', rfl, hstays.ended⟩
  · exact ⟨found, hfound, fun _ hr => hr⟩

/-- What holds of a world and its log, `start` links into the round. -/
structure Kept (session start : Nat) (t : ℚ) (w : RouteWorld) (log : List (ℚ × RouteEvent)) : Prop where
  sound : w.Sound session t
  logged : Logged session t w log
  linked : Linked w log start

variable {start : Nat}

theorem Kept.setJob (h : Kept session start now w log) {id : Nat} {job job' : MediaRouteJob}
    (hjob : w.jobs[id]? = some job) {seen : Option Bytes} {kind : Option MediaKind} {b' : AccountOutputBudget}
    (hmove : JobMoves session now seen job (w.outputs job.output) kind job' b')
    (hseen : ∀ plain, seen = some plain → ∃ peer, (now, .observed plain peer) ∈ log) :
    Kept session start now (w.setJob id job' b') (log ++ (kind.map fun k => (now, RouteEvent.sent id k)).toList) where
  sound := h.sound.setJob hjob hmove
  logged := h.logged.setJob hjob hmove hseen
  linked := h.linked.same (by cases kind <;> rfl) rfl rfl

theorem Kept.later (h : Kept session start t w log) (hnow : t ≤ now) : Kept session start now w log where
  sound := h.sound.later hnow
  logged := { h.logged with times := fun e he => le_trans (h.logged.times e he) hnow }
  linked := h.linked

theorem Kept.nextPacket (h : Kept session start now w log) (id : Nat) :
    ∃ events, (w.call now (.nextPacket id)).1 = events ∧
      Kept session start now (w.call now (.nextPacket id)).2 (log ++ events.map fun e => (now, e)) ∧
      w.Grows (w.call now (.nextPacket id)).2 := by
  simp only [call, RouteWorld.nextPacket]
  cases hjob : w.jobs[id]? with
  | none => exact ⟨[], rfl, by simpa using h, .refl w⟩
  | some job =>
    obtain ⟨hhonours, hlast⟩ := h.sound.outputs job.output
    obtain ⟨packet, hok, hmove⟩ := nextPacket_moves (h.sound.jobs hjob) hhonours hlast w.source
    have hkept := h.setJob hjob hmove nofun
    have hgrows := grows_setJob hjob hmove.stays (job.nextPacket w.source (w.outputs job.output) now).2.2
    simp only [hok]
    cases packet with
    | none => exact ⟨[], rfl, by simpa using hkept, hgrows⟩
    | some packet => exact ⟨[.sent id packet.1], rfl, by simpa using hkept, hgrows⟩

theorem Kept.observeJob (h : Kept session start now w log) {plain : Bytes} {peer : String × Nat}
    (hseen : (now, .observed plain peer) ∈ log) (id generation : Nat) :
    Kept session start now (w.observeJob id plain peer generation now).2 log ∧
      w.Grows (w.observeJob id plain peer generation now).2 := by
  unfold RouteWorld.observeJob
  split
  · exact ⟨h, .refl w⟩
  next job hjob =>
    have hmove := observe_moves (h.sound.jobs hjob) plain peer generation now
    have hkept := h.setJob hjob hmove (by
      rintro plain' ⟨⟩
      exact ⟨peer, hseen⟩)
    exact ⟨by simpa using hkept, grows_setJob hjob hmove.stays _⟩

/-- The jobs one after another: what one keeps they all keep. -/
theorem Kept.observe {plain : Bytes} {peer : String × Nat} (hseen : (now, .observed plain peer) ∈ log)
    (generation : Nat) (ids : List Nat) (h : Kept session start now w log) :
    Kept session start now (w.observe ids plain peer generation now).2 log ∧
      w.Grows (w.observe ids plain peer generation now).2 := by
  induction ids generalizing w with
  | nil => exact ⟨h, .refl w⟩
  | cons id ids ih =>
    obtain ⟨hkept, hgrows⟩ := h.observeJob hseen id generation
    unfold RouteWorld.observe
    split
    next heq =>
      rw [heq] at hkept hgrows
      exact ⟨hkept, hgrows⟩
    next heq =>
      rw [heq] at hkept hgrows
      obtain ⟨hkept', hgrows'⟩ := ih hkept
      exact ⟨hkept', hgrows.trans hgrows'⟩

theorem cancelJob_eq (w : RouteWorld) {id : Nat} {job : MediaRouteJob} (hjob : w.jobs[id]? = some job) :
    w.cancelJob id = w.setJob id job.cancel (w.outputs job.output) := by
  have hid := (List.getElem?_eq_some_iff.mp hjob).1
  have hjobs : w.jobs.modify id cancel = w.jobs.set id job.cancel := by
    rw [List.modify_eq_set_getElem?, hjob]
    rfl
  simp only [cancelJob, RouteWorld.setJob, RouteWorld.setBudget, hjobs]
  rw [show job.cancel.output = job.output from rfl, Function.update_eq_self]

theorem Kept.cancelJob (h : Kept session start now w log) (id : Nat) :
    Kept session start now (w.cancelJob id) log ∧ w.Grows (w.cancelJob id) := by
  cases hjob : w.jobs[id]? with
  | none =>
    have hsame : w.cancelJob id = w := by
      have hlen := List.getElem?_eq_none_iff.mp hjob
      simp only [RouteWorld.cancelJob]
      rw [List.modify_eq_self hlen]
    rw [hsame]
    exact ⟨h, .refl w⟩
  | some job =>
    have hmove : JobMoves session now none job (w.outputs job.output) none job.cancel (w.outputs job.output) :=
      .idle (.cancel job)
    rw [cancelJob_eq w hjob]
    exact ⟨by simpa using h.setJob hjob hmove nofun, grows_setJob hjob hmove.stays _⟩

theorem Kept.cancelAll (h : Kept session start now w log) :
    Kept session start now w.cancelAll log ∧ w.Grows w.cancelAll := by
  have hloop : ∀ (ids : List Nat) (w : RouteWorld), Kept session start now w log →
      Kept session start now (ids.foldl RouteWorld.cancelJob w) log ∧ w.Grows (ids.foldl RouteWorld.cancelJob w) := by
    intro ids
    induction ids with
    | nil => exact fun w hw => ⟨hw, .refl w⟩
    | cons id ids ih =>
      intro w hw
      obtain ⟨hkept, hgrows⟩ := hw.cancelJob id
      obtain ⟨hkept', hgrows'⟩ := ih _ hkept
      exact ⟨hkept', hgrows.trans hgrows'⟩
  have hclosed : Kept session start now { w with table := { w.table with closed := true } } log :=
    ⟨{ h.sound with }, { h.logged with }, ⟨h.linked.round, h.linked.next, h.linked.left⟩⟩
  obtain ⟨hkept, hgrows⟩ := hloop w.table.routes.values _ hclosed
  refine ⟨⟨{ hkept.sound with node := nofun }, { hkept.logged with },
    ⟨hkept.linked.round, hkept.linked.next, hkept.linked.left⟩⟩, ⟨hgrows.jobs, hgrows.capacity⟩⟩

theorem Kept.output (h : Kept session start now w log) {number : Nat} {op : OutputOp}
    (hother : w.intrudes number op = false) :
    Kept session start now (w.setBudget number (op.run now (w.outputs number))) log := by
  obtain ⟨hhonours, hlast⟩ := h.sound.outputs number
  have hspares (id : Nat) (job : MediaRouteJob) (hjob : w.jobs[id]? = some job) (hsame : job.output = number) :
      (w.outputs number).Spares (op.run now (w.outputs number)) job.reserve := by
    refine op.run_spares now _ ?_ (hsame ▸ (h.sound.jobs hjob).known)
    have hfree := List.any_eq_false.mp hother job (List.mem_of_getElem? hjob)
    simpa [hsame] using hfree
  exact ⟨h.sound.setBudget number (op.run_honours hhonours hlast) hspares, { h.logged with },
    ⟨h.linked.round, h.linked.next, h.linked.left⟩⟩

theorem Kept.purge (h : Kept session start now w log) (hcertain : w.releaseUncertain = false) :
    Kept session start now { w with table := { w.table with routes := w.purged } } log :=
  ⟨h.sound.purge hcertain, { h.logged with }, ⟨h.linked.round, h.linked.next, h.linked.left⟩⟩

theorem Kept.allocate (h : Kept session start now w log) (hleft : w.table.linksLeft ≠ 0) :
    Kept session start now { w with table := { w.table with
      nextLink := w.table.nextLink % 0xFFFFFF + 1
      linksLeft := w.table.linksLeft - 1 } } (log ++ [(now, .linked w.table.nextLink)]) :=
  ⟨{ h.sound with }, { h.logged.note (le_refl now) (e := .linked w.table.nextLink) nofun nofun with },
    h.linked.allocate rfl hleft rfl rfl⟩

/-- A route that is made, or that could not be. -/
theorem Kept.make (h : Kept session start now w log) {output : Nat} (device : Nat) {b' : AccountOutputBudget}
    (hb' : b'.Honours ∧ b'.traffic.last ≤ now)
    (hspares : ∀ token, token < (w.outputs output).nextToken → (w.outputs output).Spares b' token)
    (source : BrokerSequences) :
    Kept session start now { w.setBudget output b' with source := source } log ∧
    ∀ job, Fresh session output device (w.outputs output).nextToken job b' →
      w.table.routes.get? device = none → w.table.routes.size < w.table.capacity → ∀ owner route,
      Kept session start now { w.setBudget output b' with
        source := source
        jobs := w.jobs ++ [job]
        table := { w.table with routes := w.table.routes.set device w.jobs.length, output := owner } }
        (log ++ [(now, .prepared route)]) := by
  constructor
  · have hsound := h.sound.setBudget output hb' fun id job hjob hsame => hspares _ (hsame ▸ (h.sound.jobs hjob).known)
    exact ⟨{ hsound with }, { h.logged with }, ⟨h.linked.round, h.linked.next, h.linked.left⟩⟩
  · intro job hfresh hdevice hroom owner route
    refine ⟨h.sound.enter hb' hspares hfresh hdevice hroom source owner, ?_, h.linked.same rfl rfl rfl⟩
    exact (h.logged.note (le_refl now) (e := .prepared route) nofun nofun).enter hfresh rfl

theorem grows_append (w : RouteWorld) {w' : RouteWorld} (job : MediaRouteJob) (h : w'.jobs = w.jobs ++ [job])
    (hcapacity : w'.table.capacity = w.table.capacity) : w.Grows w' := by
  refine ⟨fun id found hfound => ⟨found, ?_, fun _ hr => hr⟩, hcapacity⟩
  rw [h, List.getElem?_append_left (List.getElem?_eq_some_iff.mp hfound).1]
  exact hfound

/-- What is seen of a `prepare`. -/
def prepareEvents (link : Option Nat) (made : Except RouteFault Prepared) : List RouteEvent :=
  link.toList.map .linked ++ match made with
    | .error _ => []
    | .ok route => [.prepared route]

theorem Kept.prepare (h : Kept session start now w log) (spec : MediaRouteSpec) (output : Nat) (draws : RouteDraws) :
    ∃ link made w', w.prepare spec output draws now = (link, made, w') ∧
      Kept session start now w' (log ++ (prepareEvents link made).map fun e => (now, e)) ∧ w.Grows w' := by
  unfold RouteWorld.prepare
  split
  · exact ⟨_, _, _, rfl, by simpa [prepareEvents] using h, .refl w⟩
  next hrefused =>
  simp only [not_or, Bool.not_eq_true] at hrefused
  have hpurged := h.purge hrefused.2
  simp only
  split
  · exact ⟨_, _, _, rfl, by simpa [prepareEvents] using hpurged, .same rfl rfl⟩
  split
  · exact ⟨_, _, _, rfl, by simpa [prepareEvents] using hpurged, .same rfl rfl⟩
  next hroom =>
  split
  · exact ⟨_, _, _, rfl, by simpa [prepareEvents] using hpurged, .same rfl rfl⟩
  next hleft =>
  have hlinked := hpurged.allocate hleft
  split
  · exact ⟨_, _, _, rfl, by simpa [prepareEvents] using hlinked, .same rfl rfl⟩
  next node hnode =>
  obtain ⟨hhonours, hlast⟩ := h.sound.outputs output
  obtain ⟨made, b', source', hnew, hhonours', hlast', hspares, hfresh⟩ :=
    new_spec hhonours hlast (h.sound.node hnode) w.source output spec w.table.generation w.table.address
      w.table.nextLink draws
  obtain ⟨hfailed, hmade⟩ := hlinked.make spec.device.deviceId ⟨hhonours', hlast'⟩ hspares source'
  rw [hnew]
  cases made with
  | error e => exact ⟨_, _, _, rfl, by simpa [prepareEvents] using hfailed, .same rfl rfl⟩
  | ok job =>
    simp only [not_or, not_le, Dict.contains, Bool.not_eq_true, Option.isSome_eq_false_iff,
      Option.isNone_iff_eq_none] at hroom
    refine ⟨_, _, _, rfl, ?_, grows_append w job rfl rfl⟩
    simpa [prepareEvents] using hmade job (hfresh job rfl) hroom.1 hroom.2 (some output) _

/-- **Every call keeps it.** -/
theorem Kept.call (h : Kept session start t w log) (hnow : t ≤ now) (c : RouteCall) :
    Kept session start now (w.call now c).2 (log ++ (w.call now c).1.map fun e => (now, e)) ∧
      w.Grows (w.call now c).2 := by
  have h := h.later hnow
  cases c with
  | prepare spec output draws =>
    obtain ⟨link, made, w', heq, hkept, hgrows⟩ := h.prepare spec output draws
    simp only [RouteWorld.call, heq]
    cases made with
    | error e => exact ⟨by simpa [prepareEvents] using hkept, hgrows⟩
    | ok route => exact ⟨by simpa [prepareEvents] using hkept, hgrows⟩
  | nextPacket id =>
    obtain ⟨events, rfl, hkept, hgrows⟩ := h.nextPacket id
    exact ⟨hkept, hgrows⟩
  | observe plain peer generation =>
    have hnoted : Kept session start now w (log ++ [(now, .observed plain peer)]) :=
      ⟨h.sound, h.logged.note (le_refl now) nofun nofun, h.linked.same rfl rfl rfl⟩
    exact hnoted.observe (by simp) generation w.table.routes.values
  | cancel id => simpa [RouteWorld.call] using h.cancelJob id
  | sendFailed id =>
    have hcancel : w.call now (.sendFailed id) = ([], w.cancelJob id) := rfl
    rw [hcancel]
    simpa using h.cancelJob id
  | cancelAll => simpa [RouteWorld.call] using h.cancelAll
  | output number op =>
    simp only [RouteWorld.call]
    split
    · exact ⟨by simpa using h, .refl w⟩
    next hother => exact ⟨by simpa using h.output (by simpa using hother), .same rfl rfl⟩
  | reserve count =>
    exact ⟨by simpa [RouteWorld.call] using
      ⟨{ h.sound with }, { h.logged with }, ⟨h.linked.round, h.linked.next, h.linked.left⟩⟩, .same rfl rfl⟩
  | retire =>
    exact ⟨by simpa [RouteWorld.call] using
      ⟨{ h.sound with }, { h.logged with }, ⟨h.linked.round, h.linked.next, h.linked.left⟩⟩, .same rfl rfl⟩

end RouteWorld

/-! ## Runs -/

namespace RouteRun

open RouteWorld MediaRouteJob

/-- The account's table has just been made, on outputs that are in order. -/
structure Starts (node : CertifiedNode) (capacity : Nat) (t : ℚ) (w : RouteWorld) : Prop where
  table : ∃ generation address draw, AccountMediaRoutes.new node generation address capacity draw = some w.table
  jobs : w.jobs = []
  outputs : ∀ number, (w.outputs number).Reached t

theorem Starts.kept {node : CertifiedNode} {capacity : Nat} {t : ℚ} {w : RouteWorld} (h : Starts node capacity t w) :
    ∃ start, Kept node.sessionId start t w [] := by
  obtain ⟨generation, address, draw, htable⟩ := h.table
  unfold AccountMediaRoutes.new at htable
  split at htable
  · cases htable
  have htable := Option.some.inj htable
  have hnone (id : Nat) : w.jobs[id]? = none := by rw [h.jobs]; rfl
  refine ⟨draw.val, ?_, ?_, ?_⟩
  · refine ⟨fun number => ⟨(h.outputs number).honours.1, (h.outputs number).honours.2⟩, ?_, ?_, ?_, ?_, ?_, ?_⟩
    · intro id job hjob
      rw [hnone] at hjob
      cases hjob
    · intro id other job job' hjob
      rw [hnone] at hjob
      cases hjob
    · rw [← htable]
      rintro node' ⟨⟩
      rfl
    · intro id job hjob
      rw [hnone] at hjob
      cases hjob
    · intro id job r hjob
      rw [hnone] at hjob
      cases hjob
    · rw [← htable]
      exact Nat.zero_le _
  · refine ⟨nofun, ?_, ?_, fun _ _ => rfl, nofun, justified_nil _, ?_, ?_⟩
    · intro id job hjob
      rw [hnone] at hjob
      cases hjob
    · intro id job hjob
      rw [hnone] at hjob
      cases hjob
    · intro id job hjob
      rw [hnone] at hjob
      cases hjob
    · intro id job r hjob
      rw [hnone] at hjob
      cases hjob
  · refine ⟨rfl, ?_, ?_⟩
    · rw [← htable]
      simp [linkAt, links, Nat.mod_eq_of_lt draw.isLt]
    · rw [← htable]
      rfl

theorem step_kept {session start : Nat} {t now : ℚ} {r : RouteRun} (h : Kept session start t r.world r.log)
    (hnow : t ≤ now) (c : RouteCall) :
    Kept session start now (step now c r).world (step now c r).log ∧ r.world.Grows (step now c r).world :=
  h.call hnow c

theorem run_kept {session start : Nat} {t : ℚ} {r : RouteRun} {calls : List (ℚ × RouteCall)}
    (h : Kept session start t r.world r.log) (hclock : Clocked t calls) :
    Kept session start (endTime t calls) (Machine.run step r calls).world (Machine.run step r calls).log ∧
      r.world.Grows (Machine.run step r calls).world := by
  induction calls generalizing t r with
  | nil => exact ⟨h, .refl _⟩
  | cons call calls ih =>
    obtain ⟨hkept, hgrows⟩ := step_kept h hclock.1 call.2
    obtain ⟨hkept', hgrows'⟩ := ih hkept hclock.2
    exact ⟨hkept', hgrows.trans hgrows'⟩

/-- A route that has not ended. -/
def Live (w : RouteWorld) (id : Nat) : Prop := ∃ job, w.jobs[id]? = some job ∧ job.result = none

/-- No more routes are live than the table has room for. -/
theorem live_le {session : Nat} {t : ℚ} {w : RouteWorld} (h : w.Sound session t) {ids : List Nat} (hnodup : ids.Nodup)
    (hlive : ∀ id ∈ ids, Live w id) : ids.length ≤ w.table.capacity := by
  have hdevice : ∀ id ∈ ids, ∃ device, w.table.routes.get? device = some id := by
    intro id hid
    obtain ⟨job, hjob, hresult⟩ := hlive id hid
    exact ⟨job.deviceId, h.live hjob hresult⟩
  have hvalues : ids ⊆ w.table.routes.values := by
    intro id hid
    obtain ⟨device, hdevice⟩ := hdevice id hid
    exact List.mem_map_of_mem (Dict.get?_eq_some.mp hdevice)
  have hlength := (hnodup.subperm hvalues).length_le
  have hsize : w.table.routes.values.length = w.table.routes.size := List.length_map ..
  exact le_trans (hsize ▸ hlength) h.fits

/-- What a run shows of the routes of an account. -/
structure Owned (session capacity : Nat) (r : RouteRun) : Prop where
  /-- OPEN and CLOSE are sent at most once, -/
  once : ∀ id kind, sends r.log id kind ≤ 1
  /-- in this order, -/
  ordered : Justified AfterOpen r.log
  /-- and the reserve pays for both. -/
  paid : ∀ s id e, (s, .unpaid id e) ∉ r.log
  closed : ∀ {id : Nat} {job : MediaRouteJob} {result : MediaRouteResult}, r.world.jobs[id]? = some job →
    job.result = some result → result.opened = true → result.closeAttempted = true
  confirmed : ∀ {id : Nat} {job : MediaRouteJob} {result : MediaRouteResult}, r.world.jobs[id]? = some job →
    job.result = some result → result.brokerRelease = true → Confirmed session r.log id job.closingSequence
  device : ∀ {id other : Nat} {job job' : MediaRouteJob}, r.world.jobs[id]? = some job →
    r.world.jobs[other]? = some job' → job.result = none → job'.result = none → job.deviceId = job'.deviceId → id = other
  capacity : ∀ ids : List Nat, ids.Nodup → (∀ id ∈ ids, Live r.world id) → ids.length ≤ capacity
  links : (links r.log).Nodup ∧ ∀ link ∈ RouteWorld.links r.log, 1 ≤ link ∧ link ≤ 0xFFFFFF

theorem owned_of_kept {session start : Nat} {t : ℚ} {r : RouteRun} (h : Kept session start t r.world r.log) :
    Owned session r.world.table.capacity r where
  once := by
    intro id kind
    cases hjob : r.world.jobs[id]? with
    | none =>
      rw [h.logged.absent kind hjob]
      exact Nat.zero_le 1
    | some job =>
      cases kind with
      | «open» =>
        rw [h.logged.opens hjob]
        exact Bool.toNat_le _
      | close =>
        rw [h.logged.closes hjob]
        exact Bool.toNat_le _
  ordered := h.logged.ordered
  paid := h.logged.paid
  closed := fun hjob hresult hopened => (h.sound.jobs hjob).ended _ hresult hopened
  confirmed := fun hjob hresult hrelease => h.logged.released hjob hresult hrelease
  device := by
    intro id other job job' hjob hjob' hlive hlive' hsame
    have hid := h.sound.live hjob hlive
    rw [hsame, h.sound.live hjob' hlive'] at hid
    exact (Option.some.inj hid).symm
  capacity := fun ids hnodup hlive => live_le h.sound hnodup hlive
  links := h.linked.valid

/-- A route that ended open fences the account. -/
def Fenced (w : RouteWorld) (id : Nat) : Prop :=
  (∃ device, w.table.routes.get? device = some id) ∧
    ∀ spec output draws now, (w.prepare spec output draws now).2.1 = .error .refused

theorem fenced_of_kept {session start : Nat} {t : ℚ} {w : RouteWorld} {log : List (ℚ × RouteEvent)}
    (h : Kept session start t w log) {id : Nat} {job : MediaRouteJob} {result : MediaRouteResult}
    (hjob : w.jobs[id]? = some job) (hresult : job.result = some result) (hopened : result.opened = true)
    (hunreleased : result.brokerRelease = false) : Fenced w id := by
  refine ⟨h.sound.uncertain hjob hresult hopened hunreleased, fun spec output draws now => ?_⟩
  have huncertain := h.sound.fenced hjob hresult hopened hunreleased
  rw [RouteWorld.prepare, if_pos (.inr huncertain)]

/-- **Media routes are owned**: in every run what `Owned` says holds, and once a
route has ended open but unreleased it is in the table and nothing is prepared. -/
theorem routes_owned {node : CertifiedNode} {capacity : Nat} {t : ℚ} {w : RouteWorld} (hstart : Starts node capacity t w)
    {calls : List (ℚ × RouteCall)} (hclock : Clocked t calls) :
    Owned node.sessionId capacity (run w calls) ∧
    ∀ before after, calls = before ++ after → ∀ (id : Nat) (job : MediaRouteJob) (result : MediaRouteResult),
      (run w before).world.jobs[id]? = some job → job.result = some result → result.opened = true →
      result.brokerRelease = false → Fenced (run w calls).world id := by
  obtain ⟨start, hkept⟩ := hstart.kept
  obtain ⟨hend, hgrows⟩ := run_kept (r := ⟨w, []⟩) hkept hclock
  have hcapacity : (run w calls).world.table.capacity = capacity := by
    obtain ⟨generation, address, draw, htable⟩ := hstart.table
    unfold AccountMediaRoutes.new at htable
    split at htable
    · cases htable
    · rw [show (run w calls).world.table.capacity = w.table.capacity from hgrows.capacity, ← Option.some.inj htable]
  refine ⟨hcapacity ▸ owned_of_kept hend, ?_⟩
  rintro before after rfl id job result hjob hresult hopened hunreleased
  obtain ⟨hbefore, hafter⟩ := hclock.append
  obtain ⟨hmiddle, -⟩ := run_kept (r := ⟨w, []⟩) hkept hbefore
  obtain ⟨-, hlater⟩ := run_kept (r := run w before) hmiddle hafter
  have hrest : run w (before ++ after) = Machine.run step (run w before) after := Machine.run_append ..
  rw [← hrest] at hlater
  obtain ⟨job', hjob', hends⟩ := hlater.jobs id job hjob
  exact fenced_of_kept hend hjob' (hends result hresult) hopened hunreleased

/-- Whether the first route of a run ends open and unreleased. -/
def leavesOpen (node : CertifiedNode) (calls : List (ℚ × RouteCall)) : Bool :=
  match AccountOutputBudget.new none none .continuous 0 2, BrokerSequences.new 1 1 1,
      AccountMediaRoutes.new node 1 ⟨[192, 168, 0, 2], 4000, rfl, by decide⟩ 2 0 with
  | .ok b, .ok source, some table =>
    decide ((run ⟨table, [], fun _ => b, source⟩ calls).world.result 0 = some ⟨true, true, false⟩)
  | _, _, _ => false

/-- A route is opened and closed, no receipt comes, and the account is fenced. -/
theorem routes_owned_unreleased :
    let node : CertifiedNode := ⟨("broker", 7000), 1, List.replicate 32 7⟩
    let spec : MediaRouteSpec := ⟨5, ⟨9, 1, false, 0, []⟩, false⟩
    let draws : RouteDraws := ⟨3, ⟨List.replicate 8 1, rfl⟩, 0, 4, 0⟩
    let calls : List (ℚ × RouteCall) := [(0, .prepare spec 0 draws), (0, .nextPacket 0), (1, .cancel 0),
      (1, .nextPacket 0), (3, .nextPacket 0), (4, .cancelAll)]
    ∃ w, Starts node 2 0 w ∧ Clocked 0 calls ∧ (run w calls).world.result 0 = some ⟨true, true, false⟩ ∧
      Owned 1 2 (run w calls) ∧ Fenced (run w calls).world 0 := by
  intro node spec draws calls
  have hrun : leavesOpen node calls = true := by decide +kernel
  unfold leavesOpen at hrun
  split at hrun
  next b source table hb hsource htable =>
    have hresult := of_decide_eq_true hrun
    have hstart : Starts node 2 0 ⟨table, [], fun _ => b, source⟩ := ⟨⟨_, _, _, htable⟩, rfl, fun _ => .new hb⟩
    have hclock : Clocked 0 calls := by decide
    obtain ⟨howned, hfence⟩ := routes_owned hstart hclock
    obtain ⟨job, hjob, hended⟩ := Option.bind_eq_some_iff.mp hresult
    exact ⟨_, hstart, hclock, hresult, howned, hfence calls [] (by simp) 0 job _ hjob hended rfl rfl⟩
  · cases hrun

end RouteRun

end CamGuard.Account
