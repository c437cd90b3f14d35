/-
What a sender transmits: the wire of its request, again and again, four times at most
and a quarter of a second apart. The transmissions under one pair of conversation and
sequence are `Spaced`; a sender that is `Kept` accounts for all of those under its own.
-/
import CamGuard.Media.AvControlSend
import Mathlib.Tactic.Linarith

namespace CamGuard.Media

open Bytes

/-! ## Transmissions -/

namespace Sent

/-- The one segment of a transmission. -/
def segment (m : Sent) : Option KcpSegment :=
  match parseKcpSegments m.wire with
  | .ok [segment] => some segment
  | _ => none

/-- Its conversation and sequence. -/
def key (m : Sent) : Option (Nat × Nat) := m.segment.map fun s => (s.conv, s.sequence)

/-- The code of the control in it. -/
def action (m : Sent) : Option Nat := m.segment.map fun s => s.body.field 4 8

end Sent

/-- The transmissions of one conversation and sequence. -/
def under (key : Nat × Nat) (ms : List Sent) : List Sent := ms.filter fun m => m.key = some key

/-- Four at most, of the same bytes, a quarter of a second apart. -/
structure Spaced (ms : List Sent) : Prop where
  four : ms.length ≤ 4
  same : ∀ a ∈ ms, ∀ b ∈ ms, a.wire = b.wire
  apart : ms.Pairwise fun a b => 1 / 4 ≤ b.now - a.now

theorem spaced_nil : Spaced [] := ⟨Nat.zero_le _, nofun, .nil⟩

section Under

variable {key : Nat × Nat} {ms : List Sent} {m : Sent}

theorem under_append_other (h : m.key ≠ some key) : under key (ms ++ [m]) = under key ms := by
  simp [under, List.filter_append, h]

theorem under_append_self (h : m.key = some key) : under key (ms ++ [m]) = under key ms ++ [m] := by
  simp [under, List.filter_append, h]

theorem mem_under : m ∈ under key ms ↔ m ∈ ms ∧ m.key = some key := by
  rw [under, List.mem_filter, decide_eq_true_eq]

end Under

/-! ## The wires -/

/-- A control of 76 bytes with this code. -/
def Coded (code : Nat) (b : Bytes) : Prop := b.length = 76 ∧ b.field 4 8 = code

/-- What is written behind the code leaves it. -/
theorem Coded.put {code : Nat} {b v : Bytes} {p : Nat} (h : Coded code b) (hp : 12 ≤ p) (hv : p + v.length ≤ 76) :
    Coded code (b.put p v) := by
  have hlen := h.1
  refine ⟨?_, ?_⟩
  · rw [length_put (by omega)]
    exact hlen
  · rw [field_put_before hp (by omega)]
    exact h.2

theorem coded_head {b : Bytes} (hlen : b.length = 76) (callId : Nat) {code : Nat} (hcode : code < 2 ^ 32) :
    Coded code ((b.put 4 (ofNat 4 callId)).put 8 (ofNat 4 code)) := by
  have hcall : (b.put 4 (ofNat 4 callId)).length = 76 := by
    rw [length_put (by rw [length_ofNat]; omega)]
    exact hlen
  refine ⟨?_, ?_⟩
  · rw [length_put (by rw [length_ofNat]; omega)]
    exact hcall
  · rw [field_put_self (by omega)]
    exact Nat.mod_eq_of_lt hcode

theorem coded_control (callId : Nat) {code : Nat} (hcode : code < 2 ^ 32) : Coded code (buildAvControl callId code) :=
  (coded_head rfl callId hcode).put (by decide) (by rw [length_ofNat]; decide)

theorem coded_init (callId : Nat) {userData : Bytes} (hlen : userData.length = 32) :
    Coded 1 (((((((((zeros 76).put 0 [3, 2, 0x4C, 0]).put 4 (ofNat 4 callId)).put 8 (ofNat 4 1)).put 16 (ofNat 4 1)).put 20
      (ofNat 4 1)).put 24 userData).put 64 (ofNat 4 9))) := by
  have hhead : Coded 1 (((((zeros 76).put 0 [3, 2, 0x4C, 0]).put 4 (ofNat 4 callId)).put 8 (ofNat 4 1))) :=
    coded_head rfl callId (by decide)
  have htype := (hhead.put (v := ofNat 4 1) (p := 16) (by decide) (by rw [length_ofNat]; decide)).put (v := ofNat 4 1) (p := 20)
    (by decide) (by rw [length_ofNat]; decide)
  exact (htype.put (v := userData) (p := 24) (by decide) (by omega)).put (by decide) (by rw [length_ofNat]; decide)

/-- Arguments that are refused; everything else is a `ReceiveError`. -/
def SenderFault.isConfig : SenderFault → Bool
  | .config _ => true
  | _ => false

namespace ReliableAvControl

variable {r r' : ReliableAvControl}

theorem body_coded {action : AvAction} {callId : Nat} {userData : Option Bytes} {b : Bytes}
    (h : body action callId userData = .ok b) : Coded action.code b := by
  rw [body] at h
  split at h
  next hinit =>
    subst hinit
    cases userData with
    | none =>
      cases h
      exact coded_init callId rfl
    | some userData =>
      rw [buildAvInit] at h
      split at h
      · cases h
      next hlen =>
        cases h
        exact coded_init callId (not_not.mp hlen)
  · cases h
    refine coded_control callId ?_
    cases action <;> decide

/-- What the wire of a request says. -/
structure Wired (r : ReliableAvControl) (action : AvAction) (wire : Bytes) : Prop where
  key : ∀ now, (Sent.mk wire now).key = some (r.conv, r.sequence)
  action : ∀ now, (Sent.mk wire now).action = some action.code
  stamp : ∀ now, (Sent.mk wire now).segment.map KcpSegment.timestamp = some r.timestamp

theorem timestampOf_lt (created : ℚ) : timestampOf created < 2 ^ 32 := by
  have hnonneg := Int.emod_nonneg ((created * 1000).num.tdiv (created * 1000).den) (show (2 ^ 32 : Int) ≠ 0 by decide)
  have hlt := Int.emod_lt_of_pos ((created * 1000).num.tdiv (created * 1000).den) (show (0 : Int) < 2 ^ 32 by decide)
  rw [timestampOf]
  omega

/-- **A new request** has its wire and has sent nothing. -/
theorem new_ok {peer : Peer} {linkId callId sequence : Nat} {action : AvAction} {userData : Option Bytes} {sdkInitRepeat : Bool}
    {now : ℚ} (h : new peer linkId callId action sequence userData sdkInitRepeat now = .ok r) :
    r.peer = peer ∧ r.conv = (if action = .init then linkId ||| 0x80000000 else linkId) ∧ r.sequence = sequence ∧
      r.closed = false ∧ r.acknowledged = false ∧ r.attempts = 0 ∧ r.lastSent = none ∧ Wired r action r.wire := by
  rw [new] at h
  split at h
  · cases h
  next hlink =>
  split at h
  · cases h
  split at h
  · cases h
  next hsequence =>
  split at h
  · cases h
  simp only at h
  split at h
  · cases h
  next b hbody =>
  split at h
  · cases h
  next wire hpush =>
  cases h
  refine ⟨rfl, rfl, rfl, rfl, rfl, rfl, rfl, ?_⟩
  have hcoded := body_coded hbody
  have hconv : (if action = .init then linkId ||| 0x80000000 else linkId) < 2 ^ 32 := by
    have hlt : linkId < 2 ^ 32 := by omega
    split
    · exact Nat.or_lt_two_pow hlt (by decide)
    · exact hlt
  have hseq : sequence < 2 ^ 32 := by
    rw [Bool.not_eq_false, sequenceFits, Bool.or_eq_true, decide_eq_true_eq, Bool.and_eq_true, decide_eq_true_eq] at hsequence
    rcases hsequence with hsequence | hsequence
    · rw [hsequence]
      split <;> decide
    · omega
  have hstamp := timestampOf_lt now
  rw [buildKcpPush, if_neg (by decide)] at hpush
  generalize hsegment : KcpSegment.mk _ _ _ _ _ _ _ _ = segment at hpush
  have hlen := hcoded.1
  have hfits : segment.Fits := by
    subst hsegment
    refine ⟨Nat.mod_lt _ (by decide), (by decide : KCP_PUSH < 2 ^ 8), (by decide : 0 < 2 ^ 8),
      (by decide : DEFAULT_RECEIVE_SEGMENTS < 2 ^ 16), Nat.mod_lt _ (by decide), Nat.mod_lt _ (by decide), Nat.mod_lt _ (by decide), ?_⟩
    simp only
    omega
  have hsize : segment.body.length ≤ MTP_MAX_FRAME_SIZE - MTP_PREFIX_SIZE - KCP_HEADER_SIZE := by
    subst hsegment
    simp only [hlen]
    decide
  obtain ⟨frame, hframe, hparse⟩ := kcpFrame_ok hfits hsize
  rw [hframe] at hpush
  cases hpush
  subst hsegment
  refine ⟨fun now => ?_, fun now => ?_, fun now => ?_⟩
  · rw [Sent.key, Sent.segment, hparse, Option.map_some, Nat.mod_eq_of_lt hconv, Nat.mod_eq_of_lt hseq]
  · rw [Sent.action, Sent.segment, hparse, Option.map_some, hcoded.2]
  · rw [Sent.segment, hparse, Option.map_some, Nat.mod_eq_of_lt hstamp]

/-! ## The calls -/

theorem poll_cases {now : ℚ} {result : Except SenderFault Unit} (h : r.poll now = (result, r')) :
    (result = .ok () ∧ r' = r ∧ r.closed = false) ∨ ∃ e, result = .error e ∧ e.isConfig = false := by
  rw [poll] at h
  split at h
  · cases h
    exact .inr ⟨_, rfl, rfl⟩
  next hopen =>
  split at h
  · cases h
    exact .inr ⟨_, rfl, rfl⟩
  · cases h
    exact .inl ⟨rfl, rfl, by simpa using hopen⟩

/-- A transmission is due. -/
structure Sends (r r' : ReliableAvControl) (m : Sent) : Prop where
  opened : r.closed = false
  waiting : r.acknowledged = false
  four : r.attempts < 4
  apart : ∀ last ∈ r.lastSent, 1 / 4 ≤ m.now - last
  wire : m.wire = r.wire
  next : r' = { r with lastSent := some m.now, attempts := r.attempts + 1 }

theorem due_cases {clock : DueClock} {result : Except SenderFault (Option Sent)} (h : r.due clock = (result, r')) :
    (∃ e, result = .error e ∧ e.isConfig = false) ∨ (result = .ok none ∧ r' = r) ∨
      ∃ m, result = .ok (some m) ∧ Sends r r' m := by
  rw [due] at h
  split at h
  next r₁ e hpoll =>
    cases h
    rcases poll_cases hpoll with ⟨hok, -⟩ | ⟨e, he, hkind⟩
    · cases hok
    · cases he
      exact .inl ⟨_, rfl, hkind⟩
  next r₁ hpoll =>
    obtain ⟨-, rfl, hopen⟩ := (poll_cases hpoll).resolve_right (by rintro ⟨e, he, -⟩; cases he)
    split at h
    · cases h
      exact .inr (.inl ⟨rfl, rfl⟩)
    next hmore =>
    rw [not_or, Bool.not_eq_true] at hmore
    split at h
    · cases h
      exact .inr (.inl ⟨rfl, rfl⟩)
    next hapart =>
      cases h
      refine .inr (.inr ⟨_, rfl, ⟨hopen, hmore.1, by omega, fun last hlast => ?_, rfl, rfl⟩⟩)
      rw [Option.mem_def] at hlast
      simp only [hlast, Option.any_some, decide_eq_true_eq, not_lt] at hapart
      exact hapart

/-- A request that has just been made sends, unless its time has run out. -/
theorem due_new {clock : DueClock} {result : Except SenderFault (Option Sent)} (h : r.due clock = (result, r'))
    (hwaiting : r.acknowledged = false) (hattempts : r.attempts = 0) (hlast : r.lastSent = none) :
    (∃ e, result = .error e ∧ e.isConfig = false) ∨ ∃ m, result = .ok (some m) ∧ Sends r r' m := by
  rcases due_cases h with herror | ⟨hnone, -⟩ | hsends
  · exact .inl herror
  · rw [due] at h
    split at h
    next r₁ e hpoll =>
      cases h
      cases hnone
    next r₁ hpoll =>
      obtain ⟨-, rfl, -⟩ := (poll_cases hpoll).resolve_right (by rintro ⟨e, he, -⟩; cases he)
      rw [hwaiting, hattempts, hlast] at h
      subst hnone
      cases h
  · exact .inr hsends

/-- A datagram acknowledges the request. -/
def acks (r : ReliableAvControl) (wire : Bytes) (peer : Peer) : Bool :=
  !r.acknowledged && decide (r.attempts ≠ 0 ∧ peer = r.peer ∧ wire.length ≤ MTP_MAX_FRAME_SIZE) &&
    match parseKcpSegments wire with
    | .error _ => false
    | .ok segments => segments.any r.acknowledges

/-- The request behind a datagram. -/
def noted (wire : Bytes) (peer : Peer) (r : ReliableAvControl) : ReliableAvControl :=
  if r.acks wire peer then { r with acknowledged := true, wire := [] } else r

theorem receiveAck_cases {now : ℚ} {wire : Bytes} {peer : Peer} {result : Except SenderFault Bool}
    (h : r.receiveAck now wire peer = (result, r')) :
    (∃ e, result = .error e ∧ e.isConfig = false) ∨ (result = .ok (r.acks wire peer) ∧ r' = r.noted wire peer) := by
  rw [receiveAck] at h
  split at h
  next r₁ e hpoll =>
    cases h
    rcases poll_cases hpoll with ⟨hok, -⟩ | ⟨e, he, hkind⟩
    · cases hok
    · cases he
      exact .inl ⟨_, rfl, hkind⟩
  next r₁ hpoll =>
    obtain ⟨-, heq, hopen⟩ := (poll_cases hpoll).resolve_right (by rintro ⟨e, he, -⟩; cases he)
    rw [heq] at h
    right
    rw [noted, acks]
    split at h
    next hskip =>
      cases h
      have hnot : (!r.acknowledged && decide (r.attempts ≠ 0 ∧ peer = r.peer ∧ wire.length ≤ MTP_MAX_FRAME_SIZE)) = false := by
        rw [Bool.and_eq_false_iff, Bool.not_eq_false', decide_eq_false_iff_not]
        by_cases hack : r.acknowledged = true
        · exact .inl hack
        · right
          rintro ⟨hattempts, hpeer, hsize⟩
          rcases hskip with hskip | hskip | hskip | hskip
          · exact hack hskip
          · exact hattempts hskip
          · exact hskip hpeer
          · omega
      rw [hnot]
      exact ⟨rfl, rfl⟩
    next hread =>
      rw [not_or, not_or, not_or, not_not, not_lt, Bool.not_eq_true] at hread
      obtain ⟨hwaiting, hattempts, hpeer, hsize⟩ := hread
      rw [hwaiting, decide_eq_true ⟨hattempts, hpeer, hsize⟩, Bool.not_false, Bool.true_and, Bool.true_and]
      cases hparse : parseKcpSegments wire with
      | error fault =>
        rw [hparse] at h
        cases h
        exact ⟨rfl, rfl⟩
      | ok segments =>
        rw [hparse] at h
        simp only at h ⊢
        split at h
        next hany =>
          cases h
          simp only [hany, if_true, and_self]
        next hany =>
          cases h
          simp only [hany, if_false, and_true, Bool.false_eq_true]

/-! ## The account of a sender -/

/-- An open sender, and all that was sent under its conversation and sequence. -/
structure Kept (peer : Peer) (action : AvAction) (r : ReliableAvControl) (ms : List Sent) : Prop where
  peer : r.peer = peer
  opened : r.closed = false
  wired : r.acknowledged = false → Wired r action r.wire
  count : (under (r.conv, r.sequence) ms).length = r.attempts
  four : r.attempts ≤ 4
  last : ∀ m ∈ under (r.conv, r.sequence) ms, ∃ t, r.lastSent = some t ∧ m.now ≤ t
  same : r.acknowledged = false → ∀ m ∈ under (r.conv, r.sequence) ms, m.wire = r.wire
  codes : ∀ m ∈ under (r.conv, r.sequence) ms, m.action = some action.code ∧
    m.segment.map KcpSegment.timestamp = some r.timestamp

variable {peer : Peer} {action : AvAction} {ms ms' : List Sent} {m : Sent}

theorem Kept.frame (h : Kept peer action r ms) (hsame : under (r.conv, r.sequence) ms' = under (r.conv, r.sequence) ms) :
    Kept peer action r ms' := by
  refine ⟨h.peer, h.opened, h.wired, ?_, h.four, ?_, ?_, ?_⟩ <;> rw [hsame]
  · exact h.count
  · exact h.last
  · exact h.same
  · exact h.codes

theorem kept_new {linkId callId sequence : Nat} {userData : Option Bytes} {sdkInitRepeat : Bool} {now : ℚ}
    (h : new peer linkId callId action sequence userData sdkInitRepeat now = .ok r)
    (hunused : under (r.conv, r.sequence) ms = []) : Kept peer action r ms := by
  obtain ⟨hpeer, -, -, hopen, hwaiting, hattempts, -, hwired⟩ := new_ok h
  refine ⟨hpeer, hopen, fun _ => hwired, ?_, ?_, ?_, ?_, ?_⟩
  · rw [hunused, hattempts]
    rfl
  · rw [hattempts]
    exact Nat.zero_le _
  · rw [hunused]
    exact nofun
  · rw [hunused]
    exact fun _ => nofun
  · rw [hunused]
    exact nofun

theorem Kept.noted (h : Kept peer action r ms) (wire : Bytes) (from_ : Peer) : Kept peer action (r.noted wire from_) ms := by
  rw [ReliableAvControl.noted]
  split
  · exact ⟨h.peer, h.opened, nofun, h.count, h.four, h.last, nofun, h.codes⟩
  · exact h

theorem Kept.key (h : Kept peer action r ms) (hsends : Sends r r' m) : m.key = some (r.conv, r.sequence) := by
  have hkey := (h.wired hsends.waiting).key m.now
  rwa [← hsends.wire] at hkey

theorem Kept.code (h : Kept peer action r ms) (hsends : Sends r r' m) : m.action = some action.code := by
  have hcode := (h.wired hsends.waiting).action m.now
  rwa [← hsends.wire] at hcode

/-- **A transmission is accounted for.** -/
theorem Kept.sends (h : Kept peer action r ms) (hsends : Sends r r' m) : Kept peer action r' (ms ++ [m]) := by
  have hkey := h.key hsends
  have hunder : under (r.conv, r.sequence) (ms ++ [m]) = under (r.conv, r.sequence) ms ++ [m] := under_append_self hkey
  have hwired := h.wired hsends.waiting
  have hcount := h.count
  have hfour := hsends.four
  rw [hsends.next]
  have hall {P : Sent → Prop} (hold : ∀ a ∈ under (r.conv, r.sequence) ms, P a) (hnew : P m) :
      ∀ a ∈ under (r.conv, r.sequence) (ms ++ [m]), P a := by
    intro a ha
    rw [hunder, List.mem_append, List.mem_singleton] at ha
    rcases ha with ha | rfl
    · exact hold a ha
    · exact hnew
  refine ⟨h.peer, h.opened, fun _ => ⟨hwired.key, hwired.action, hwired.stamp⟩, ?_, ?_, ?_, fun _ => ?_, ?_⟩
  · simp only [hunder, List.length_append, List.length_singleton, hcount]
  · simp only
    omega
  · refine hall (fun a ha => ⟨_, rfl, ?_⟩) ⟨_, rfl, le_rfl⟩
    obtain ⟨t, ht, hle⟩ := h.last a ha
    have hapart := hsends.apart t ht
    linarith
  · exact hall (h.same hsends.waiting) hsends.wire
  · have hstamp := hwired.stamp m.now
    rw [← hsends.wire] at hstamp
    exact hall h.codes ⟨h.code hsends, hstamp⟩

/-- **What is sent stays spaced.** -/
theorem Kept.spaced (h : Kept peer action r ms) (hsends : Sends r r' m) (hspaced : ∀ key, Spaced (under key ms)) :
    ∀ key, Spaced (under key (ms ++ [m])) := by
  intro key
  have hkey := h.key hsends
  by_cases heq : key = (r.conv, r.sequence)
  swap
  · rw [under_append_other]
    · exact hspaced key
    · rw [hkey]
      exact fun hsome => heq (Option.some.inj hsome).symm
  subst heq
  have hold := hspaced (r.conv, r.sequence)
  have hcount := h.count
  have hfour := hsends.four
  have hsame : ∀ a ∈ under (r.conv, r.sequence) ms, a.wire = m.wire := by
    intro a ha
    rw [hsends.wire]
    exact h.same hsends.waiting a ha
  rw [under_append_self hkey]
  refine ⟨?_, fun a ha b hb => ?_, ?_⟩
  · rw [List.length_append, List.length_singleton]
    omega
  · rw [List.mem_append, List.mem_singleton] at ha hb
    rcases ha with ha | rfl <;> rcases hb with hb | rfl
    · exact hold.same a ha b hb
    · exact hsame a ha
    · exact (hsame b hb).symm
    · rfl
  · rw [List.pairwise_append]
    refine ⟨hold.apart, List.pairwise_singleton .., fun a ha b hb => ?_⟩
    obtain rfl := List.mem_singleton.mp hb
    obtain ⟨t, ht, hle⟩ := h.last a ha
    have hapart := hsends.apart t ht
    linarith

end ReliableAvControl

/-! ## Repeated requests -/

namespace AvInitRequests

open ReliableAvControl

variable {q q' : AvInitRequests} {rs rs' : List ReliableAvControl}

theorem pollAll_cases {clock : Nat → ℚ} {result : Except SenderFault Unit} (h : pollAll rs clock = (result, rs')) :
    (result = .ok () ∧ rs' = rs) ∨ ∃ e, result = .error e ∧ e.isConfig = false := by
  induction rs generalizing rs' clock result with
  | nil =>
    cases h
    exact .inl ⟨rfl, rfl⟩
  | cons r rs ih =>
    rw [pollAll] at h
    split at h
    next e r₁ hpoll =>
      cases h
      rcases poll_cases hpoll with ⟨hok, -⟩ | ⟨e, he, hkind⟩
      · cases hok
      · cases he
        exact .inr ⟨_, rfl, hkind⟩
    next r₁ hpoll =>
      obtain ⟨-, heq, -⟩ := (poll_cases hpoll).resolve_right (by rintro ⟨e, he, -⟩; cases he)
      cases h
      rcases ih rfl with ⟨hok, hrest⟩ | herror
      · exact .inl ⟨hok, by rw [heq, hrest]⟩
      · exact .inr herror

theorem poll_cases {clock : Nat → ℚ} {result : Except SenderFault Unit} (h : q.poll clock = (result, q')) :
    (result = .ok () ∧ q' = q) ∨ ∃ e, result = .error e ∧ e.isConfig = false := by
  rw [poll] at h
  split at h
  · cases h
    exact .inr ⟨_, rfl, rfl⟩
  · cases h
    rcases pollAll_cases rfl with ⟨hok, hsame⟩ | herror
    · exact .inl ⟨hok, by rw [hsame]⟩
    · exact .inr herror

/-- **Who sends**: the first request that has something to. -/
theorem dueFirst_cases {clock : Nat → DueClock} {result : Except SenderFault (Option Sent)}
    (h : dueFirst rs clock = (result, rs')) :
    (∃ e, result = .error e ∧ e.isConfig = false) ∨ (result = .ok none ∧ rs' = rs) ∨
      ∃ m pre r r' post, result = .ok (some m) ∧ Sends r r' m ∧ rs = pre ++ r :: post ∧ rs' = pre ++ r' :: post := by
  induction rs generalizing rs' clock result with
  | nil =>
    cases h
    exact .inr (.inl ⟨rfl, rfl⟩)
  | cons r rs ih =>
    rw [dueFirst] at h
    split at h
    next e r₁ hdue =>
      cases h
      rcases due_cases hdue with ⟨e, he, hkind⟩ | ⟨hnone, -⟩ | ⟨m, hsome, -⟩
      · cases he
        exact .inl ⟨_, rfl, hkind⟩
      · cases hnone
      · cases hsome
    next sent r₁ hdue =>
      cases h
      rcases due_cases hdue with ⟨e, he, -⟩ | ⟨hnone, -⟩ | ⟨m, hsome, hsends⟩
      · cases he
      · cases hnone
      · cases hsome
        exact .inr (.inr ⟨_, [], r, r₁, rs, rfl, hsends, rfl, rfl⟩)
    next r₁ hdue =>
      rcases due_cases hdue with ⟨e, he, -⟩ | ⟨-, heq⟩ | ⟨m, hsome, -⟩
      · cases he
      · cases h
        rcases ih rfl with herror | ⟨hnone, hrest⟩ | ⟨m, pre, r₂, r₃, post, hsome, hsends, hbefore, hafter⟩
        · exact .inl herror
        · exact .inr (.inl ⟨hnone, by rw [heq, hrest]⟩)
        · exact .inr (.inr ⟨m, r :: pre, r₂, r₃, post, hsome, hsends, by rw [hbefore]; rfl, by rw [hafter, heq]; rfl⟩)
      · cases hsome

theorem ackAll_cases {clock : Nat → ℚ} {wire : Bytes} {peer : Peer} {result : Except SenderFault Bool}
    (h : ackAll rs clock wire peer = (result, rs')) :
    (∃ e, result = .error e ∧ e.isConfig = false) ∨
      (result = .ok (rs.any fun r => r.acks wire peer) ∧ rs' = rs.map (noted wire peer)) := by
  induction rs generalizing rs' clock result with
  | nil =>
    cases h
    exact .inr ⟨rfl, rfl⟩
  | cons r rs ih =>
    rw [ackAll] at h
    split at h
    next e r₁ hack =>
      cases h
      rcases receiveAck_cases hack with ⟨e, he, hkind⟩ | ⟨hok, -⟩
      · cases he
        exact .inl ⟨_, rfl, hkind⟩
      · cases hok
    next received r₁ hack =>
      rcases receiveAck_cases hack with ⟨e, he, -⟩ | ⟨hreceived, hnoted⟩
      · cases he
      cases hreceived
      split at h
      next e rest hrest =>
        cases h
        rcases ih hrest with herror | ⟨hok, -⟩
        · exact .inl herror
        · cases hok
      next more rest hrest =>
        cases h
        rcases ih hrest with ⟨e, he, -⟩ | ⟨hmore, hall⟩
        · cases he
        · cases hmore
          exact .inr ⟨by rw [List.any_cons], by rw [hnoted, hall, List.map_cons]⟩

/-- Open requests under sequences of their own, and all that was sent of them. -/
structure Kept (peer : Peer) (conv : Nat) (q : AvInitRequests) (ms : List Sent) : Prop where
  opened : q.closed = false
  peer_eq : q.peer = peer
  conv_eq : q.link ||| 0x80000000 = conv
  each : ∀ r ∈ q.requests, r.conv = conv ∧ r.sequence < q.count ∧ r.Kept peer .init ms
  distinct : (q.requests.map ReliableAvControl.sequence).Nodup
  count : q.count ≤ 25
  used : ∀ n, under (conv, n) ms ≠ [] ↔ n < q.count

variable {peer : Peer} {conv : Nat} {ms ms' : List Sent} {m : Sent}

theorem Kept.frame (h : Kept peer conv q ms) (hsame : ∀ n, under (conv, n) ms' = under (conv, n) ms) : Kept peer conv q ms' := by
  refine ⟨h.opened, h.peer_eq, h.conv_eq, fun r hr => ?_, h.distinct, h.count, fun n => ?_⟩
  · obtain ⟨hconv, hlt, hkept⟩ := h.each r hr
    refine ⟨hconv, hlt, hkept.frame ?_⟩
    rw [hconv]
    exact hsame _
  · rw [hsame]
    exact h.used n

theorem Kept.stopRepeating (h : Kept peer conv q ms) : Kept peer conv q.stopRepeating ms := by
  rw [AvInitRequests.stopRepeating]
  split
  · exact ⟨h.opened, h.peer_eq, h.conv_eq, nofun, .nil, h.count, h.used⟩
  · exact ⟨h.opened, h.peer_eq, h.conv_eq, h.each, h.distinct, h.count, h.used⟩

/-- Sequences that are used with a transmission more. -/
theorem used_append {n k : Nat} (hkey : m.key = some (conv, n)) (hn : n < k) (hold : ∀ i, i ≠ n → (under (conv, i) ms ≠ [] ↔ i < k)) :
    ∀ i, under (conv, i) (ms ++ [m]) ≠ [] ↔ i < k := by
  intro i
  by_cases heq : i = n
  · subst heq
    rw [under_append_self hkey]
    simpa using hn
  · rw [under_append_other, hold i heq]
    rw [hkey]
    intro hsome
    cases hsome
    exact heq rfl

theorem Kept.sends {pre post : List ReliableAvControl} {r r' : ReliableAvControl} (h : Kept peer conv q ms)
    (hbefore : q.requests = pre ++ r :: post) (hsends : Sends r r' m) (attempts : Nat) :
    Kept peer conv { q with requests := pre ++ r' :: post, attempts := attempts } (ms ++ [m]) := by
  obtain ⟨hconv, hlt, hkept⟩ := h.each r (by rw [hbefore]; simp)
  have hkey := hkept.key hsends
  rw [hconv] at hkey
  have hconv' : r'.conv = conv := by rw [hsends.next]; exact hconv
  have hseq' : r'.sequence = r.sequence := by rw [hsends.next]
  have hdistinct := h.distinct
  have hsequences : (pre ++ r' :: post).map ReliableAvControl.sequence = q.requests.map ReliableAvControl.sequence := by
    rw [hbefore, List.map_append, List.map_append, List.map_cons, List.map_cons, hseq']
  rw [hbefore, List.map_append, List.map_cons, List.nodup_middle, List.nodup_cons] at hdistinct
  refine ⟨h.opened, h.peer_eq, h.conv_eq, fun x hx => ?_, ?_, h.count, ?_⟩
  · rw [List.mem_append, List.mem_cons] at hx
    by_cases hx' : x = r'
    · subst hx'
      exact ⟨hconv', by rw [hseq']; exact hlt, hkept.sends hsends⟩
    · have hother : x ∈ pre ++ post := by
        rw [List.mem_append]
        rcases hx with hx | hx | hx
        · exact .inl hx
        · exact absurd hx hx'
        · exact .inr hx
      obtain ⟨hxconv, hxlt, hxkept⟩ := h.each x (by
        rw [hbefore]
        rw [List.mem_append] at hother
        rw [List.mem_append, List.mem_cons]
        exact hother.imp_right .inr)
      refine ⟨hxconv, hxlt, hxkept.frame (under_append_other ?_)⟩
      rw [hkey, hxconv]
      intro hsome
      simp only [Option.some.injEq, Prod.mk.injEq, true_and] at hsome
      apply hdistinct.1
      rw [hsome, ← List.map_append]
      exact List.mem_map_of_mem hother
  · rw [hsequences]
    exact h.distinct
  · exact used_append hkey hlt fun i _ => h.used i

/-- How a call of `due` goes on an account. -/
inductive DueMove (peer : Peer) (conv : Nat) (ms : List Sent) (result : Except SenderFault (Option Sent)) (kept : List Sent → Prop) :
    Prop where
  | fails (e : SenderFault) (error : result = .error e) (kind : e.isConfig = false)
  | refuses (e : ControlConfigFault) (error : result = .error (.config e)) (account : kept ms)
  | quiet (silent : result = .ok none) (account : kept ms)
  | sends (m : Sent) (some_ : result = .ok (some m)) (r r' : ReliableAvControl) (sender : r.Kept peer .init ms)
      (conv_eq : r.conv = conv) (sends : Sends r r' m) (account : kept (ms ++ [m]))

/-- A new request, with its first transmission. -/
theorem Kept.request (h : Kept peer conv q ms) {clock : RequestsClock} {result : Except SenderFault (Option Sent)}
    (hdue : q.request clock = (result, q')) :
    DueMove peer conv ms result fun ms' => Kept peer conv q' ms' ∧ q'.acknowledged = q.acknowledged := by
  rw [AvInitRequests.request] at hdue
  split at hdue
  · cases hdue
    exact .quiet rfl ⟨h, rfl⟩
  next hmore =>
  rw [not_or, not_or, not_le] at hmore
  split at hdue
  · cases hdue
    exact .refuses _ rfl ⟨h, rfl⟩
  next r hnew =>
  cases hdue
  rw [h.peer_eq] at hnew
  obtain ⟨-, hconv, hsequence, -, hwaiting, hattempts, hlast, -⟩ := new_ok hnew
  rw [if_pos rfl, h.conv_eq] at hconv
  have hunused : under (r.conv, r.sequence) ms = [] := by
    rw [hconv, hsequence]
    by_contra hne
    exact absurd ((h.used q.count).mp hne) (Nat.lt_irrefl _)
  have hkept := kept_new hnew hunused
  rcases due_new rfl hwaiting hattempts hlast with ⟨e, he, hkind⟩ | ⟨m, hm, hsends⟩
  · exact .fails e he hkind
  have hkey := hkept.key hsends
  rw [hconv, hsequence] at hkey
  have hnext := hsends.next
  refine .sends m hm r _ hkept hconv hsends ⟨⟨h.opened, h.peer_eq, h.conv_eq, fun x hx => ?_, ?_, ?_, ?_⟩, rfl⟩
  · rw [List.mem_append, List.mem_singleton] at hx
    rcases hx with hx | rfl
    · obtain ⟨hxconv, hxlt, hxkept⟩ := h.each x hx
      refine ⟨hxconv, Nat.lt_succ_of_lt hxlt, hxkept.frame (under_append_other ?_)⟩
      rw [hkey, hxconv]
      intro hsome
      have heq := (Prod.mk.inj (Option.some.inj hsome)).2
      omega
    · refine ⟨?_, ?_, hkept.sends hsends⟩
      · rw [hnext]
        exact hconv
      · rw [hnext]
        simp only
        omega
  · rw [List.map_append, List.map_singleton, hnext, List.nodup_append]
    refine ⟨h.distinct, List.nodup_singleton _, fun a ha b hb => ?_⟩
    obtain ⟨x, hx, rfl⟩ := List.mem_map.mp ha
    have hxlt := (h.each x hx).2.1
    have hbeq : b = q.count := (List.mem_singleton.mp hb).trans hsequence
    omega
  · simp only
    omega
  · refine used_append hkey (Nat.lt_succ_self _) fun i hi => ?_
    rw [h.used i]
    simp only
    omega

/-- **`due` of the requests.** -/
theorem Kept.due (h : Kept peer conv q ms) {clock : RequestsClock} {result : Except SenderFault (Option Sent)}
    (hdue : q.due clock = (result, q')) :
    DueMove peer conv ms result fun ms' => Kept peer conv q' ms' ∧ q'.acknowledged = q.acknowledged := by
  rw [AvInitRequests.due] at hdue
  split at hdue
  next e q₁ hpoll =>
    cases hdue
    rcases AvInitRequests.poll_cases hpoll with ⟨hok, -⟩ | ⟨e, he, hkind⟩
    · cases hok
    · cases he
      exact .fails _ rfl hkind
  next q₁ hpoll =>
  obtain ⟨-, heq⟩ := (AvInitRequests.poll_cases hpoll).resolve_right (by rintro ⟨e, he, -⟩; cases he)
  rw [heq] at hdue
  split at hdue
  next e requests hfirst =>
    cases hdue
    rcases dueFirst_cases hfirst with ⟨e, he, hkind⟩ | ⟨hnone, -⟩ | ⟨m, pre, r, r', post, hsome, -⟩
    · cases he
      exact .fails _ rfl hkind
    · cases hnone
    · cases hsome
  next sent requests hfirst =>
    cases hdue
    rcases dueFirst_cases hfirst with ⟨e, he, -⟩ | ⟨hnone, -⟩ | ⟨m, pre, r, r', post, hsome, hsends, hbefore, hafter⟩
    · cases he
    · cases hnone
    · cases hsome
      obtain ⟨hconv, -, hkept⟩ := h.each r (by rw [hbefore]; simp)
      refine .sends sent rfl r r' hkept hconv hsends ⟨?_, rfl⟩
      rw [hafter]
      exact h.sends hbefore hsends _
  next requests hfirst =>
    rcases dueFirst_cases hfirst with ⟨e, he, -⟩ | ⟨-, hsame⟩ | ⟨m, pre, r, r', post, hsome, -⟩
    · cases he
    · rw [hsame] at hdue
      exact h.request hdue
    · cases hsome

/-- **`receive_ack` of the requests.** -/
theorem Kept.receiveAck (h : Kept peer conv q ms) {clock : AckClock} {wire : Bytes} {from_ : Peer} {received : Bool}
    (hack : q.receiveAck clock wire from_ = (.ok received, q')) :
    Kept peer conv q' ms ∧ (q'.acknowledged = true → q.acknowledged = true ∨ ∃ r ∈ q.requests, r.acks wire from_ = true) := by
  rw [AvInitRequests.receiveAck] at hack
  split at hack
  · cases hack
  next q₁ hpoll =>
  obtain ⟨-, heq⟩ := (AvInitRequests.poll_cases hpoll).resolve_right (by rintro ⟨e, he, -⟩; cases he)
  rw [heq] at hack
  split at hack
  · cases hack
  next more requests hall =>
  rcases ackAll_cases hall with ⟨e, he, -⟩ | ⟨hmore, hnoted⟩
  · cases he
  cases hmore
  have hsequence (r : ReliableAvControl) : (r.noted wire from_).sequence = r.sequence := by
    rw [noted]
    split <;> rfl
  have hconv (r : ReliableAvControl) : (r.noted wire from_).conv = r.conv := by
    rw [noted]
    split <;> rfl
  have hkept : Kept peer conv { q with requests := requests, acknowledged := q.acknowledged || q.requests.any fun r => r.acks wire from_ }
      ms := by
    refine ⟨h.opened, h.peer_eq, h.conv_eq, fun x hx => ?_, ?_, h.count, h.used⟩
    · rw [hnoted] at hx
      obtain ⟨r, hr, rfl⟩ := List.mem_map.mp hx
      obtain ⟨hrconv, hlt, hkept⟩ := h.each r hr
      exact ⟨(hconv r).trans hrconv, by rw [hsequence]; exact hlt, hkept.noted wire from_⟩
    · rw [hnoted, List.map_map]
      have hsame : ReliableAvControl.sequence ∘ noted wire from_ = ReliableAvControl.sequence := funext hsequence
      rw [hsame]
      exact h.distinct
  have hacked : (q.acknowledged || q.requests.any fun r => r.acks wire from_) = true →
      q.acknowledged = true ∨ ∃ r ∈ q.requests, r.acks wire from_ = true := by
    rw [Bool.or_eq_true, List.any_eq_true]
    exact id
  simp only at hack
  split at hack
  · cases hack
    exact ⟨⟨hkept.opened, hkept.peer_eq, hkept.conv_eq, nofun, .nil, hkept.count, hkept.used⟩, hacked⟩
  · cases hack
    exact ⟨hkept, hacked⟩

end AvInitRequests

end CamGuard.Media
