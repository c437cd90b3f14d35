/-
The UDP socket of a talk session, as the senders and the sessions use it
(`audio_sender.py`, `modern_audio_sender.py`, `intercom_session.py`,
`modern_intercom_session.py`): what is handed to `sendto`, and the loop that waits
for the acknowledgement of one packet and acknowledges what the camera pushes.

What the outside does is the `TalkEnv`. The log tells everything that was handed to
the socket and heard from it, in order, and the frames that a sender accepted.

The readings of the clock inside `receive_datagrams` are left out: what a call of it
yields is arbitrary.
-/
import CamGuard.Media.AvControlSend
import CamGuard.Media.StreamProtocol
import CamGuard.Media.TcpRelayFacts

namespace CamGuard.Talk

open CamGuard.Media

/-- What the outside does, each by how often it was asked before. -/
structure TalkEnv where
  monotonic : Nat → ℚ
  timeNs : Nat → Nat
  /-- This `sendto` raises `OSError`. -/
  raises : Nat → Bool
  /-- What this `receive_datagrams` yields, given its deadline. -/
  yields : Nat → ℚ → List (Bytes × Peer)

inductive TalkEvent where
  /-- A sender has accepted this frame. -/
  | accepted (frame : Bytes)
  /-- A packet of ours handed to `sendto`. -/
  | push (conv sequence : Nat) (body wire : Bytes)
  /-- The acknowledgement of a packet of the camera handed to `sendto`. -/
  | ack (wire : Bytes)
  /-- A segment of the camera. -/
  | heard (segment : KcpSegment)
  deriving DecidableEq, Repr

structure TalkSocket where
  inboundNext : Dict Nat Nat
  reads : Nat := 0
  stamps : Nat := 0
  sends : Nat := 0
  windows : Nat := 0
  log : List TalkEvent := []

inductive TalkFault where
  | os
  | frame (e : KcpBuildFault)
  | packet (e : AudioPacketFault)
  | tlv (e : TlvBuildFault)
  | builtin (e : BuiltinFault)
  | userData (e : UserDataFault)
  | value (reason : String)
  | runtime (reason : String)
  | assertion
  deriving DecidableEq, Repr

namespace TalkSocket

variable (env : TalkEnv)

def note (event : TalkEvent) (t : TalkSocket) : TalkSocket := { t with log := t.log ++ [event] }

/-- `time.monotonic()`. -/
def monotonic (t : TalkSocket) : ℚ × TalkSocket := (env.monotonic t.reads, { t with reads := t.reads + 1 })

/-- `time.time_ns() // 1_000`. -/
def stampUs (t : TalkSocket) : Nat × TalkSocket := (env.timeNs t.stamps / 1000, { t with stamps := t.stamps + 1 })

/-- `sock.sendto(…)`; true if it raises. -/
def sendto (event : TalkEvent) (t : TalkSocket) : Bool × TalkSocket :=
  (env.raises t.sends, { t.note event with sends := t.sends + 1 })

/-- `self._inbound_next.get(conv, 0)`. -/
def unacknowledged (conv : Nat) (t : TalkSocket) : Nat := (t.inboundNext.get? conv).getD 0

/-- A segment that acknowledges the packet waited for. -/
def Acknowledges (conv sequence : Nat) (segment : KcpSegment) : Prop :=
  segment.command = KCP_ACK ∧ segment.conv = conv ∧ segment.sequence = sequence

instance (conv sequence : Nat) (segment : KcpSegment) : Decidable (Acknowledges conv sequence segment) :=
  inferInstanceAs (Decidable (_ ∧ _))

/-- The loop over the segments of a datagram. -/
def hearSegments (conv sequence : Nat) : List KcpSegment → Bool → TalkSocket → Except TalkFault Bool × TalkSocket
  | [], acknowledged, t => (.ok acknowledged, t)
  | segment :: segments, acknowledged, t =>
    let t := t.note (.heard segment)
    if Acknowledges conv sequence segment then hearSegments conv sequence segments true t
    else if segment.command ≠ KCP_PUSH then hearSegments conv sequence segments acknowledged t
    else
      let next := max (t.unacknowledged segment.conv) (segment.sequence + 1)
      let t := { t with inboundNext := t.inboundNext.set segment.conv next }
      match buildKcpAck segment.conv segment.sequence segment.timestamp next 0x100 with
      | .error e => (.error (.frame e), t)
      | .ok wire =>
        match t.sendto env (.ack wire) with
        | (true, t) => (.error .os, t)
        | (false, t) => hearSegments conv sequence segments acknowledged t

/-- The loop over the datagrams, until one acknowledges the packet. -/
def hearDatagrams (peer : Peer) (conv sequence : Nat) :
    List (Bytes × Peer) → TalkSocket → Except TalkFault Bool × TalkSocket
  | [], t => (.ok false, t)
  | (response, source) :: datagrams, t =>
    if source ≠ peer ∨ response.slice 0 2 ≠ [0xC0, 0x10] then hearDatagrams peer conv sequence datagrams t
    else
      match parseKcpSegments response with
      | .error _ => hearDatagrams peer conv sequence datagrams t
      | .ok segments =>
        match hearSegments env conv sequence segments false t with
        | (.ok false, t) => hearDatagrams peer conv sequence datagrams t
        | heard => heard

/-- One `receive_datagrams`, until its deadline or the acknowledgement. -/
def listen (peer : Peer) (conv sequence : Nat) (deadline : ℚ) (t : TalkSocket) : Except TalkFault Bool × TalkSocket :=
  hearDatagrams env peer conv sequence (env.yields t.windows deadline) { t with windows := t.windows + 1 }

/-- A packet of ours, built once and sent again unchanged. -/
structure Packet where
  conv : Nat
  sequence : Nat
  body : Bytes
  wire : Bytes
  deriving DecidableEq, Repr

def Packet.event (p : Packet) : TalkEvent := .push p.conv p.sequence p.body p.wire

def packet? : TalkEvent → Option Packet
  | .push conv sequence body wire => some ⟨conv, sequence, body, wire⟩
  | _ => none

/-- The packets handed to `sendto`, each as often as it was. -/
def handed (events : List TalkEvent) : List Packet := events.filterMap packet?

/-- The attempts of `_send_and_wait`. -/
def sendAndWait (peer : Peer) (timeout : ℚ) (packet : Packet) : Nat → TalkSocket → Except TalkFault Bool × TalkSocket
  | 0, t => (.ok false, t)
  | attempts + 1, t =>
    match t.sendto env packet.event with
    | (true, t) => (.error .os, t)
    | (false, t) =>
      let (now, t) := t.monotonic env
      match t.listen env peer packet.conv packet.sequence (now + min timeout (4 / 10)) with
      | (.ok false, t) => sendAndWait peer timeout packet attempts t
      | heard => heard

/-- The attempts of a sender: none is made once the session is over. -/
def sendUntil (peer : Peer) (timeout sessionDeadline : ℚ) (packet : Packet) :
    Nat → TalkSocket → Except TalkFault Bool × TalkSocket
  | 0, t => (.ok false, t)
  | attempts + 1, t =>
    let (now, t) := t.monotonic env
    if sessionDeadline ≤ now then (.ok false, t)
    else
      match t.sendto env packet.event with
      | (true, t) => (.error .os, t)
      | (false, t) =>
        match t.listen env peer packet.conv packet.sequence (min (now + min timeout (4 / 10)) sessionDeadline) with
        | (.ok false, t) => sendUntil peer timeout sessionDeadline packet attempts t
        | heard => heard

/-- `build_kcp_push` with the clock as its timestamp. -/
def buildPush (conv sequence : Nat) (body : Bytes) (t : TalkSocket) : Except TalkFault Packet × TalkSocket :=
  let unacknowledged := t.unacknowledged conv
  let (now, t) := t.monotonic env
  match buildKcpPush conv sequence body (ReliableAvControl.timestampOf now) unacknowledged with
  | .error e => (.error (.frame e), t)
  | .ok wire => (.ok ⟨conv, sequence, body, wire⟩, t)

/-! ## What a wait does -/

variable {env : TalkEnv} {α β : Type}

/-- What was done at the socket: it raises exactly with one of its `sendto`. -/
structure Spends (env : TalkEnv) (t : TalkSocket) (r : Except TalkFault α × TalkSocket) (events : List TalkEvent) :
    Prop where
  log : r.2.log = t.log ++ events
  sends : t.sends ≤ r.2.sends
  calm : ∀ a, r.1 = .ok a → ∀ n, t.sends ≤ n → n < r.2.sends → env.raises n = false
  raised : ∀ e, r.1 = .error e → e = .os ∧ ∃ n, t.sends ≤ n ∧ n < r.2.sends ∧ env.raises n = true

namespace Spends

variable {t t' : TalkSocket} {r : Except TalkFault α × TalkSocket} {events later : List TalkEvent} {a : α}

/-- What leaves the socket and the log alone. -/
theorem still (a : α) (hlog : t'.log = t.log) (hsends : t'.sends = t.sends) : Spends env t (.ok a, t') [] :=
  ⟨by rw [hlog, List.append_nil], hsends.ge, fun _ _ n hle hlt => absurd hlt (by rw [hsends]; exact hle.not_gt),
    fun e he => by cases he⟩

theorem note (a : α) (event : TalkEvent) : Spends env t (.ok a, t.note event) [event] :=
  ⟨rfl, le_rfl, fun _ _ n hle hlt => absurd hlt hle.not_gt, fun e he => by cases he⟩

/-- The log can be taken from an equal socket. -/
theorem from_ (h : Spends env t' r events) (hlog : t'.log = t.log) (hsends : t'.sends = t.sends) :
    Spends env t r events := by
  refine ⟨by rw [h.log, hlog], hsends ▸ h.sends, ?_, ?_⟩
  · rw [← hsends]
    exact h.calm
  · rw [← hsends]
    exact h.raised

theorem bind {b : β} {t₁ : TalkSocket} (h : Spends env t (.ok b, t₁) events) (hlater : Spends env t₁ r later) :
    Spends env t r (events ++ later) := by
  refine ⟨by rw [hlater.log, h.log, List.append_assoc], h.sends.trans hlater.sends, fun a ha n hle hlt => ?_,
    fun e he => ?_⟩
  · rcases lt_or_ge n t₁.sends with hbefore | hafter
    · exact h.calm b rfl n hle hbefore
    · exact hlater.calm a ha n hafter hlt
  · obtain ⟨hos, n, hle, hlt, hraises⟩ := hlater.raised e he
    exact ⟨hos, n, h.sends.trans hle, hlt, hraises⟩

/-- A call that fails is not gone on with. -/
theorem error {e : TalkFault} (h : Spends env t ((.error e : Except TalkFault β), t') events) :
    Spends env t ((.error e : Except TalkFault α), t') events :=
  ⟨h.log, h.sends, fun a ha => (by cases ha), fun f hf => h.raised f (by cases hf; rfl)⟩

theorem map {b : β} (h : Spends env t (.ok b, t') events) : Spends env t (.ok a, t') events :=
  ⟨h.log, h.sends, fun _ _ => h.calm b rfl, fun _ hf => by cases hf⟩

/-- What spends raises if and only if one of its `sendto` does. -/
theorem raises_iff (h : Spends env t r events) :
    (∃ a, r.1 = .ok a) ↔ ∀ n, t.sends ≤ n → n < r.2.sends → env.raises n = false := by
  cases hr : r.1 with
  | ok a => exact iff_of_true ⟨a, rfl⟩ (h.calm a hr)
  | error e =>
    refine iff_of_false (fun ⟨a, ha⟩ => by cases ha) fun hcalm => ?_
    obtain ⟨-, n, hle, hlt, hraises⟩ := h.raised e hr
    rw [hcalm n hle hlt] at hraises
    cases hraises

end Spends

section

variable {t t' : TalkSocket} {event : TalkEvent}

theorem sendto_raised (h : t.sendto env event = (true, t')) :
    Spends env t ((.error .os : Except TalkFault α), t') [event] := by
  obtain ⟨hraises, rfl⟩ := Prod.mk.inj h
  exact ⟨rfl, Nat.le_succ _, fun a ha => (by cases ha),
    fun e he => ⟨by cases he; rfl, t.sends, le_rfl, Nat.lt_succ_self _, hraises⟩⟩

theorem sendto_calm (a : α) (h : t.sendto env event = (false, t')) : Spends env t (.ok a, t') [event] := by
  obtain ⟨hraises, rfl⟩ := Prod.mk.inj h
  refine ⟨rfl, Nat.le_succ _, fun _ _ n hle hlt => ?_, fun e he => by cases he⟩
  obtain rfl : n = t.sends := le_antisymm (Nat.lt_succ_iff.mp hlt) hle
  exact hraises

end

/-- The acknowledgement of a segment always fits its frame. -/
theorem buildKcpAck_ok (conv sequence timestamp unacknowledged : Nat) :
    ∃ wire, buildKcpAck conv sequence timestamp unacknowledged 0x100 = .ok wire := by
  rw [buildKcpAck, if_neg (by decide)]
  obtain ⟨frame, hframe, -⟩ := kcpFrame_ok (s := ⟨conv % 2 ^ 32, KCP_ACK, 0, (0x100 : Int).toNat, timestamp % 2 ^ 32,
    sequence % 2 ^ 32, unacknowledged % 2 ^ 32, []⟩) (fits_of_mod (by decide) (by decide) (by decide)) (Nat.zero_le _)
  exact ⟨frame, hframe⟩

/-- The events of a wait: what was heard, and what was acknowledged. -/
def Quiet (event : TalkEvent) : Prop := (∃ segment, event = .heard segment) ∨ ∃ wire, event = .ack wire

/-- The packet's acknowledgement is among the events. -/
def Hears (conv sequence : Nat) (events : List TalkEvent) : Prop :=
  ∃ segment, TalkEvent.heard segment ∈ events ∧ Acknowledges conv sequence segment

theorem Quiet.packet? {event : TalkEvent} (h : Quiet event) : packet? event = none := by
  obtain ⟨segment, rfl⟩ | ⟨wire, rfl⟩ := h
  · rfl
  · rfl

theorem handed_append (events later : List TalkEvent) : handed (events ++ later) = handed events ++ handed later :=
  List.filterMap_append

theorem handed_quiet {events : List TalkEvent} (h : ∀ event ∈ events, Quiet event) : handed events = [] :=
  List.filterMap_eq_nil_iff.mpr fun event hmem => (h event hmem).packet?

theorem handed_event (p : Packet) (events : List TalkEvent) : handed (p.event :: events) = p :: handed events := rfl

theorem hears_append {conv sequence : Nat} {events later : List TalkEvent} :
    Hears conv sequence (events ++ later) ↔ Hears conv sequence events ∨ Hears conv sequence later := by
  simp only [Hears, List.mem_append, or_and_right, exists_or]

/-- A wait that answers says whether the acknowledgement was heard in it. -/
structure Listens (env : TalkEnv) (conv sequence : Nat) (acknowledged : Bool) (t : TalkSocket)
    (r : Except TalkFault Bool × TalkSocket) (events : List TalkEvent) : Prop where
  spends : Spends env t r events
  quiet : ∀ event ∈ events, Quiet event
  answer : ∀ found, r.1 = .ok found → (found = true ↔ acknowledged = true ∨ Hears conv sequence events)

theorem Listens.from_ {conv sequence : Nat} {acknowledged : Bool} {t t' : TalkSocket}
    {r : Except TalkFault Bool × TalkSocket} {events : List TalkEvent}
    (h : Listens env conv sequence acknowledged t' r events) (hlog : t'.log = t.log) (hsends : t'.sends = t.sends) :
    Listens env conv sequence acknowledged t r events :=
  ⟨h.spends.from_ hlog hsends, h.quiet, h.answer⟩

section

variable {conv sequence : Nat}

theorem hearSegments_listens (segments : List KcpSegment) (acknowledged : Bool) (t : TalkSocket) :
    ∃ events, Listens env conv sequence acknowledged t (hearSegments env conv sequence segments acknowledged t) events := by
  induction segments generalizing acknowledged t with
  | nil =>
    refine ⟨[], .still acknowledged rfl rfl, by simp, fun found h => ?_⟩
    cases h
    simp [Hears]
  | cons segment segments ih =>
    rw [hearSegments]
    dsimp only
    have hnote (b : Bool) : Spends env t ((.ok b : Except TalkFault Bool), t.note (.heard segment)) [.heard segment] :=
      .note b _
    have hquiet : Quiet (.heard segment) := .inl ⟨segment, rfl⟩
    have hhears {events : List TalkEvent} : Hears conv sequence (.heard segment :: events) ↔
        Acknowledges conv sequence segment ∨ Hears conv sequence events := by
      rw [← List.singleton_append, hears_append]
      simp [Hears]
    split
    · rename_i hacknowledges
      obtain ⟨events, h⟩ := ih true (t.note (.heard segment))
      refine ⟨.heard segment :: events, (hnote true).bind h.spends, List.forall_mem_cons.mpr ⟨hquiet, h.quiet⟩,
        fun found hfound => ?_⟩
      rw [h.answer found hfound, hhears]
      simp [hacknowledges]
    rename_i hother
    split
    · obtain ⟨events, h⟩ := ih acknowledged (t.note (.heard segment))
      refine ⟨.heard segment :: events, (hnote true).bind h.spends, List.forall_mem_cons.mpr ⟨hquiet, h.quiet⟩,
        fun found hfound => ?_⟩
      rw [h.answer found hfound, hhears]
      simp [hother]
    -- A packet of the camera is acknowledged before the loop goes on.
    set next := max ((t.note (.heard segment)).unacknowledged segment.conv) (segment.sequence + 1)
    obtain ⟨wire, hwire⟩ := buildKcpAck_ok segment.conv segment.sequence segment.timestamp next
    rw [hwire]
    dsimp only
    set t₁ : TalkSocket :=
      { t.note (.heard segment) with inboundNext := (t.note (.heard segment)).inboundNext.set segment.conv next }
    have hfirst : Spends env t ((.ok true : Except TalkFault Bool), t₁) [.heard segment] := ⟨rfl, le_rfl,
      fun _ _ n hle hlt => absurd hlt hle.not_gt, fun e he => by cases he⟩
    have hack : Quiet (.ack wire) := .inr ⟨wire, rfl⟩
    split
    · rename_i t₂ hsend
      refine ⟨[.heard segment] ++ [.ack wire], hfirst.bind (sendto_raised hsend),
        List.forall_mem_cons.mpr ⟨hquiet, List.forall_mem_singleton.mpr hack⟩, fun found h => by cases h⟩
    · rename_i t₂ hsend
      obtain ⟨events, h⟩ := ih acknowledged t₂
      refine ⟨[.heard segment] ++ ([.ack wire] ++ events), hfirst.bind ((sendto_calm true hsend).bind h.spends),
        List.forall_mem_cons.mpr ⟨hquiet, List.forall_mem_cons.mpr ⟨hack, h.quiet⟩⟩, fun found hfound => ?_⟩
      rw [h.answer found hfound, List.singleton_append, hhears, hears_append]
      simp [hother, Hears]

theorem hearDatagrams_listens (peer : Peer) (datagrams : List (Bytes × Peer)) (t : TalkSocket) :
    ∃ events, Listens env conv sequence false t (hearDatagrams env peer conv sequence datagrams t) events := by
  induction datagrams generalizing t with
  | nil =>
    refine ⟨[], .still false rfl rfl, by simp, fun found h => ?_⟩
    cases h
    simp [Hears]
  | cons datagram datagrams ih =>
    rw [hearDatagrams]
    split
    · exact ih t
    split
    · exact ih t
    rename_i segments hparse
    obtain ⟨events, h⟩ := @hearSegments_listens env conv sequence segments false t
    split
    · rename_i t₁ hheard
      rw [hheard] at h
      obtain ⟨later, hlater⟩ := ih t₁
      have hnone : ¬Hears conv sequence events := by simpa using (h.answer false rfl).not
      refine ⟨events ++ later, h.spends.bind hlater.spends, fun event hmem => ?_, fun found hfound => ?_⟩
      · rcases List.mem_append.mp hmem with hmem | hmem
        · exact h.quiet event hmem
        · exact hlater.quiet event hmem
      · rw [hlater.answer found hfound, hears_append, or_iff_right hnone]
    · exact ⟨events, h⟩

theorem listen_listens (peer : Peer) (deadline : ℚ) (t : TalkSocket) :
    ∃ events, Listens env conv sequence false t (t.listen env peer conv sequence deadline) events := by
  obtain ⟨events, h⟩ := @hearDatagrams_listens env conv sequence peer (env.yields t.windows deadline)
    { t with windows := t.windows + 1 }
  exact ⟨events, h.from_ rfl rfl⟩

end

/-- The attempts to send a packet: it goes out some times, with what is heard in
between, and the answer says whether its acknowledgement was. -/
structure Offers (env : TalkEnv) (packet : Packet) (attempts : Nat) (t : TalkSocket)
    (r : Except TalkFault Bool × TalkSocket) (events : List TalkEvent) : Prop where
  spends : Spends env t r events
  copies : ∃ k ≤ attempts, handed events = List.replicate k packet
  kinds : ∀ event ∈ events, event = packet.event ∨ Quiet event
  first : events = [] ∨ ∃ later, events = packet.event :: later
  answer : ∀ found, r.1 = .ok found → (found = true ↔ Hears packet.conv packet.sequence events)

section

variable {packet : Packet} {attempts : Nat} {t t' : TalkSocket} {r : Except TalkFault Bool × TalkSocket}
  {events later : List TalkEvent}

theorem Offers.none (t' : TalkSocket) (hlog : t'.log = t.log) (hsends : t'.sends = t.sends) :
    Offers env packet attempts t (.ok false, t') [] := by
  refine ⟨.still false hlog hsends, ⟨0, Nat.zero_le _, rfl⟩, by simp, .inl rfl, fun found h => ?_⟩
  cases h
  simp [Hears]

theorem Offers.from_ (h : Offers env packet attempts t' r events) (hlog : t'.log = t.log) (hsends : t'.sends = t.sends) :
    Offers env packet attempts t r events :=
  ⟨h.spends.from_ hlog hsends, h.copies, h.kinds, h.first, h.answer⟩

theorem Offers.raised (h : t.sendto env packet.event = (true, t')) :
    Offers env packet (attempts + 1) t (.error .os, t') [packet.event] :=
  ⟨sendto_raised h, ⟨1, by omega, rfl⟩, by simp, .inr ⟨[], rfl⟩, fun found hfound => by cases hfound⟩

/-- An attempt that ends the sending: it was acknowledged, or something raised. -/
theorem Offers.last (h : t.sendto env packet.event = (false, t'))
    (hlisten : Listens env packet.conv packet.sequence false t' r events) :
    Offers env packet (attempts + 1) t r (packet.event :: events) := by
  refine ⟨(sendto_calm true h).bind hlisten.spends, ⟨1, by omega, ?_⟩,
    List.forall_mem_cons.mpr ⟨.inl rfl, fun event hmem => .inr (hlisten.quiet event hmem)⟩, .inr ⟨events, rfl⟩,
    fun found hfound => ?_⟩
  · rw [handed_event, handed_quiet hlisten.quiet]
    rfl
  · rw [hlisten.answer found hfound, ← List.singleton_append, hears_append]
    simp [Hears, Packet.event]

/-- An attempt without an answer, and the attempts after it. -/
theorem Offers.again {t₁ : TalkSocket} (h : t.sendto env packet.event = (false, t'))
    (hlisten : Listens env packet.conv packet.sequence false t' (.ok false, t₁) events)
    (hlater : Offers env packet attempts t₁ r later) :
    Offers env packet (attempts + 1) t r (packet.event :: events ++ later) := by
  have hfirst : Offers env packet 1 t (.ok false, t₁) (packet.event :: events) := .last h hlisten
  obtain ⟨k, hk, hcopies⟩ := hlater.copies
  have hnone : ¬Hears packet.conv packet.sequence (packet.event :: events) := by simpa using (hfirst.answer false rfl).not
  refine ⟨hfirst.spends.bind hlater.spends, ⟨k + 1, by omega, ?_⟩, fun event hmem => ?_,
    .inr ⟨events ++ later, rfl⟩, fun found hfound => ?_⟩
  · rw [handed_append, hcopies, handed_event, handed_quiet hlisten.quiet]
    rfl
  · exact (List.mem_append.mp hmem).elim (hfirst.kinds event) (hlater.kinds event)
  · rw [hlater.answer found hfound, hears_append, or_iff_right hnone]

theorem sendAndWait_offers (env : TalkEnv) (peer : Peer) (timeout : ℚ) (packet : Packet) (attempts : Nat) (t : TalkSocket) :
    ∃ events, Offers env packet attempts t (sendAndWait env peer timeout packet attempts t) events ∧
      (0 < attempts → packet.event ∈ events) := by
  induction attempts generalizing t with
  | zero => exact ⟨[], .none t rfl rfl, fun h => absurd h (by decide)⟩
  | succ attempts ih =>
    rw [sendAndWait]
    split
    · rename_i t₁ hsend
      exact ⟨_, .raised hsend, fun _ => List.mem_cons_self⟩
    rename_i t₁ hsend
    dsimp only [monotonic]
    obtain ⟨events, hlisten⟩ := @listen_listens env packet.conv packet.sequence peer
      (env.monotonic t₁.reads + min timeout (4 / 10)) { t₁ with reads := t₁.reads + 1 }
    replace hlisten := hlisten.from_ (t := t₁) rfl rfl
    split
    · rename_i t₂ hheard
      rw [hheard] at hlisten
      obtain ⟨later, hlater, -⟩ := ih t₂
      exact ⟨_, .again hsend hlisten hlater, fun _ => List.mem_cons_self⟩
    · exact ⟨_, .last hsend hlisten, fun _ => List.mem_cons_self⟩

/-- A sender makes no attempt exactly if the session is over by its first one. -/
theorem sendUntil_offers (env : TalkEnv) (peer : Peer) (timeout sessionDeadline : ℚ) (packet : Packet) (attempts : Nat)
    (t : TalkSocket) : ∃ events, Offers env packet attempts t (sendUntil env peer timeout sessionDeadline packet attempts t) events ∧
      (0 < attempts → (events = [] ↔ sessionDeadline ≤ env.monotonic t.reads)) := by
  induction attempts generalizing t with
  | zero => exact ⟨[], .none t rfl rfl, fun h => absurd h (by decide)⟩
  | succ attempts ih =>
    rw [sendUntil]
    dsimp only [monotonic]
    split
    · rename_i hover
      exact ⟨[], .none _ rfl rfl, fun _ => iff_of_true rfl hover⟩
    rename_i hover
    set t' : TalkSocket := { t with reads := t.reads + 1 }
    split
    · rename_i t₁ hsend
      have h : Offers env packet (attempts + 1) t' (.error .os, t₁) [packet.event] := .raised hsend
      exact ⟨_, h.from_ rfl rfl, fun _ => iff_of_false (List.cons_ne_nil _ _) hover⟩
    rename_i t₁ hsend
    obtain ⟨events, hlisten⟩ := @listen_listens env packet.conv packet.sequence peer
      (min (env.monotonic t.reads + min timeout (4 / 10)) sessionDeadline) t₁
    split
    · rename_i t₂ hheard
      rw [hheard] at hlisten
      obtain ⟨later, hlater, -⟩ := ih t₂
      have h := Offers.again hsend hlisten hlater
      exact ⟨_, h.from_ rfl rfl, fun _ => iff_of_false (List.cons_ne_nil _ _) hover⟩
    · have h : Offers env packet (attempts + 1) t' _ (packet.event :: events) := .last hsend hlisten
      exact ⟨_, h.from_ rfl rfl, fun _ => iff_of_false (List.cons_ne_nil _ _) hover⟩

end

end TalkSocket

end CamGuard.Talk
