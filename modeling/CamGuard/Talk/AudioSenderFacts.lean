/-
Facts about the talk senders (`AudioSender.lean`): what they count is what the camera
was sent and what it acknowledged.

`sendPacket_cases` says what one packet does. The ledger (`Ledger`) keeps the packets
that were handed to the socket beside the log and the counters; a packet extends it
(`Ledger.sendPacket`), a frame that is accepted joins what is pending
(`Ledger.accept`), and a run of calls keeps it (`ledger_run`). Frames are counted as
sent though they never were exactly if the session is over when their packet is first
tried (`Late`).
-/
import CamGuard.Media.V1Facts
import CamGuard.Talk.AudioSender

namespace CamGuard.Talk

open CamGuard.Media TalkSocket

variable {env : TalkEnv}

/-- The packet is the record of these frames, under the cookie. -/
def Carries (conv : Nat) (cookie : Bytes) (frames : List Bytes) (p : TalkSocket.Packet) : Prop :=
  p.conv = conv ∧ ∃ (timestamp now unacknowledged : Nat) (record : Bytes),
    buildV1AudioPacket frames timestamp = .ok record ∧ encryptMediaTlv record cookie = .ok p.body ∧
      buildKcpPush conv p.sequence p.body now unacknowledged = .ok p.wire

/-- A burst as the senders make them. -/
structure Burstlike (frames : List Bytes) : Prop where
  pos : frames ≠ []
  le : frames.length ≤ 4
  amr : ∀ frame ∈ frames, AmrFrame frame

theorem length_flatten_amr {frames : List Bytes} (h : ∀ frame ∈ frames, AmrFrame frame) :
    frames.flatten.length = 32 * frames.length := by
  induction frames with
  | nil => rfl
  | cons frame frames ih =>
    rw [List.forall_mem_cons] at h
    rw [List.flatten_cons, List.length_append, ih h.2, h.1.1, AMR_MODE_7_FRAME_BYTES, List.length_cons]
    omega

theorem buildV1AudioPacket_burst {frames : List Bytes} (h : Burstlike frames) (timestamp : Nat) :
    ∃ record, buildV1AudioPacket frames timestamp = .ok record ∧ record.length ≤ 164 := by
  have hle := h.le
  rw [buildV1AudioPacket, if_neg h.pos, if_neg (by omega), if_neg]
  · refine ⟨_, rfl, ?_⟩
    simp only [List.length_append, length_V1_MAGIC, Bytes.length_ofNat, Bytes.length_zeros, V1Item.length_audioTable,
      length_flatten_amr h.amr]
    omega
  · rw [List.any_eq_true]
    rintro ⟨frame, hmem, hbad⟩
    have hlength : frame.length = 32 := (h.amr frame hmem).1
    rw [decide_eq_true_eq] at hbad
    rcases hbad with rfl | hlong
    · cases hlength
    · omega

theorem buildPush_ok (env : TalkEnv) (conv sequence : Nat) {body : Bytes} (hbody : body.length ≤ 2017) (t : TalkSocket) :
    ∃ wire, t.buildPush env conv sequence body =
        (.ok ⟨conv, sequence, body, wire⟩, { t with reads := t.reads + 1 }) ∧
      buildKcpPush conv sequence body (ReliableAvControl.timestampOf (env.monotonic t.reads)) (t.unacknowledged conv) =
        .ok wire := by
  obtain ⟨wire, hwire⟩ : ∃ wire, buildKcpPush conv sequence body
      (ReliableAvControl.timestampOf (env.monotonic t.reads)) (t.unacknowledged conv) = .ok wire := by
    rw [buildKcpPush, if_neg (by decide)]
    obtain ⟨frame, hframe, -⟩ := kcpFrame_ok (s := ⟨conv % 2 ^ 32, KCP_PUSH, 0, 0x100,
      ReliableAvControl.timestampOf (env.monotonic t.reads) % 2 ^ 32, sequence % 2 ^ 32,
      t.unacknowledged conv % 2 ^ 32, body⟩) (fits_of_mod (by decide) (by decide) (by omega)) hbody
    exact ⟨frame, hframe⟩
  refine ⟨wire, ?_, hwire⟩
  rw [buildPush]
  dsimp only [monotonic]
  rw [hwire]

/-! ## One packet -/

namespace AudioSender

variable {s : AudioSender} {frames : List Bytes} {t : TalkSocket}

/-- What lets a frame in, but for the time. -/
def Open (s : AudioSender) (frame : Bytes) : Prop :=
  s.closed = false ∧ s.aborted = false ∧ (s.requestedFrames : Int) < s.maxFrames ∧ AmrFrame frame

theorem vet_cases (env : TalkEnv) (name : String) (frame : Bytes) (t : TalkSocket) (s : AudioSender) :
    (¬s.Open frame ∧ ∃ e, s.vet env name frame t = (.refused e, t)) ∨
    (s.Open frame ∧ s.sessionDeadline ≤ env.monotonic t.reads ∧
      s.vet env name frame t = (.late, { t with reads := t.reads + 1 })) ∨
    (s.Open frame ∧ env.monotonic t.reads < s.sessionDeadline ∧
      s.vet env name frame t = (.admitted, { t with reads := t.reads + 1 })) := by
  unfold vet
  split
  · rename_i hclosed
    exact .inl ⟨fun h => absurd h.1 (by simp [hclosed]), _, rfl⟩
  rename_i hclosed
  split
  · rename_i haborted
    exact .inl ⟨fun h => absurd h.2.1 (by simp [haborted]), _, rfl⟩
  rename_i haborted
  split
  · rename_i hbound
    exact .inl ⟨fun h => absurd h.2.2.1 hbound.not_gt, _, rfl⟩
  rename_i hbound
  split
  · rename_i hframe
    exact .inl ⟨fun h => hframe h.2.2.2, _, rfl⟩
  rename_i hframe
  have hopen : s.Open frame := ⟨by simpa using hclosed, by simpa using haborted, not_le.mp hbound, not_not.mp hframe⟩
  dsimp only [monotonic]
  split
  · rename_i hlate
    exact .inr (.inl ⟨hopen, hlate, rfl⟩)
  · rename_i hintime
    exact .inr (.inr ⟨hopen, not_le.mp hintime, rfl⟩)

theorem sendPacket_refused (env : TalkEnv) (hframes : Burstlike frames) (hcookie : s.cookie.length ≠ 8)
    (timestamp : Nat) (t : TalkSocket) : ∃ e, s.sendPacket env frames timestamp t = (.error e, t, s) := by
  obtain ⟨record, hrecord, -⟩ := buildV1AudioPacket_burst hframes timestamp
  rw [sendPacket, hrecord]
  dsimp only
  rw [encryptMediaTlv, encryptTlv, if_pos hcookie]
  exact ⟨_, rfl⟩

theorem sendPacket_cases (env : TalkEnv) (hframes : Burstlike frames) (hcookie : s.cookie.length = 8)
    (timestamp : Nat) (t : TalkSocket) : ∃ p r events, Carries s.conv s.cookie frames p ∧ p.sequence = s.sequence ∧
      Offers env p 3 t r events ∧ (events = [] ↔ s.sessionDeadline ≤ env.monotonic (t.reads + 1)) ∧
      (∀ e, r.1 = .error e → s.sendPacket env frames timestamp t = (.error e, r.2, s)) ∧
      (r.1 = .ok false → s.sendPacket env frames timestamp t = (.ok false, r.2,
        { s with sentFrames := s.sentFrames + frames.length, sequence := s.sequence + 1, aborted := true })) ∧
      (r.1 = .ok true → s.sendPacket env frames timestamp t = (.ok true, r.2,
        { s with
          sentFrames := s.sentFrames + frames.length
          sequence := s.sequence + 1
          acknowledgedFrames := s.acknowledgedFrames + frames.length })) := by
  obtain ⟨record, hrecord, hlength⟩ := buildV1AudioPacket_burst hframes timestamp
  obtain ⟨media, hmedia⟩ := encryptTlv_fits 4 hcookie (by omega : record.length ≤ 65531)
  have hbody : media.length ≤ 2017 := by
    rw [length_encryptTlv hmedia]
    omega
  obtain ⟨wire, hpush, hwire⟩ := buildPush_ok env s.conv s.sequence hbody t
  obtain ⟨events, hoffers, hlate⟩ := sendUntil_offers env s.peer s.boundedTimeout
    s.sessionDeadline ⟨s.conv, s.sequence, media, wire⟩ 3 { t with reads := t.reads + 1 }
  refine ⟨⟨s.conv, s.sequence, media, wire⟩, _, events, ⟨rfl, timestamp, _, _, record, hrecord, hmedia, hwire⟩, rfl,
    hoffers.from_ rfl rfl, hlate (by decide), ?_⟩
  rw [sendPacket, hrecord]
  dsimp only
  rw [show encryptMediaTlv record s.cookie = .ok media from hmedia]
  dsimp only
  rw [hpush]
  dsimp only
  generalize sendUntil env s.peer s.boundedTimeout s.sessionDeadline ⟨s.conv, s.sequence, media, wire⟩ 3
    { t with reads := t.reads + 1 } = r
  obtain ⟨answer, t'⟩ := r
  refine ⟨fun e he => ?_, fun he => ?_, fun he => ?_⟩
  · obtain rfl : answer = .error e := he
    rfl
  · obtain rfl : answer = .ok false := he
    rfl
  · obtain rfl : answer = .ok true := he
    rfl

end AudioSender

/-! ## The ledger -/

/-- A packet that was handed to the socket. -/
structure Burst where
  frames : List Bytes
  packet : TalkSocket.Packet
  copies : Nat
  acknowledged : Bool

def accepted? : TalkEvent → Option Bytes
  | .accepted frame => some frame
  | _ => none

/-- The frames that were accepted. -/
def accepted (events : List TalkEvent) : List Bytes := events.filterMap accepted?

/-- The packet's acknowledgement was heard after it was sent. -/
def AckHeard (events : List TalkEvent) (p : TalkSocket.Packet) : Prop :=
  ∃ before later, events = before ++ p.event :: later ∧ Hears p.conv p.sequence later

/-- All the frames of some bursts, in order. -/
def framesOf (bursts : List Burst) : List Bytes := bursts.flatMap Burst.frames

/-- The packets of a run beside its events: what each carries, how often it was sent,
and whether it was acknowledged. -/
structure Packeted (conv : Nat) (cookie : Bytes) (initial : Nat) (events : List TalkEvent) (bursts : List Burst) :
    Prop where
  handed : handed events = bursts.flatMap fun b => List.replicate b.copies b.packet
  copies : ∀ b ∈ bursts, 1 ≤ b.copies ∧ b.copies ≤ 3
  sequences : bursts.map (fun b => b.packet.sequence) = List.range' initial bursts.length
  carries : ∀ b ∈ bursts, Burstlike b.frames ∧ Carries conv cookie b.frames b.packet
  acknowledged : ∀ b ∈ bursts, b.acknowledged = true ↔ AckHeard events b.packet

theorem accepted_append (events later : List TalkEvent) : accepted (events ++ later) = accepted events ++ accepted later :=
  List.filterMap_append

theorem accepted_of_kinds {p : TalkSocket.Packet} {events : List TalkEvent}
    (h : ∀ event ∈ events, event = p.event ∨ Quiet event) : accepted events = [] := by
  refine List.filterMap_eq_nil_iff.mpr fun event hmem => ?_
  rcases h event hmem with rfl | ⟨segment, rfl⟩ | ⟨wire, rfl⟩
  · rfl
  · rfl
  · rfl

namespace Packeted

variable {conv initial : Nat} {cookie : Bytes} {events later : List TalkEvent} {bursts : List Burst} {p : TalkSocket.Packet}

theorem fresh (h : Packeted conv cookie initial events bursts) (hp : p.sequence = initial + bursts.length) :
    p.event ∉ events := by
  intro hmem
  have hhanded : p ∈ TalkSocket.handed events := List.mem_filterMap.mpr ⟨p.event, hmem, rfl⟩
  rw [h.handed, List.mem_flatMap] at hhanded
  obtain ⟨b, hb, hcopy⟩ := hhanded
  have hsequence : b.packet.sequence ∈ bursts.map fun b => b.packet.sequence := List.mem_map.mpr ⟨b, hb, rfl⟩
  rw [h.sequences, List.mem_range'_1, ← List.eq_of_mem_replicate hcopy, hp] at hsequence
  omega

/-- Events without a packet or an answer leave the ledger as it is. -/
theorem append (h : Packeted conv cookie initial events bursts) (hhanded : TalkSocket.handed later = [])
    (hheard : ∀ conv sequence, ¬Hears conv sequence later) : Packeted conv cookie initial (events ++ later) bursts := by
  refine ⟨by rw [handed_append, hhanded, List.append_nil, h.handed], h.copies, h.sequences, h.carries, fun b hb => ?_⟩
  rw [h.acknowledged b hb]
  constructor
  · rintro ⟨before, after, rfl, hhears⟩
    exact ⟨before, after ++ later, by simp, hears_append.mpr (.inl hhears)⟩
  · rintro ⟨before, after, hsplit, hhears⟩
    -- The packet is not among the later events, so they end what comes after it.
    rcases List.append_eq_append_iff.mp hsplit with ⟨rest, hbefore, hrest⟩ | ⟨rest, hevents, hrest⟩
    · have hmem : b.packet.event ∈ later := hrest ▸ List.mem_append_right rest List.mem_cons_self
      have hin : b.packet ∈ TalkSocket.handed later := List.mem_filterMap.mpr ⟨_, hmem, rfl⟩
      rw [hhanded] at hin
      cases hin
    · cases rest with
      | nil =>
        have hmem : b.packet.event ∈ later := by
          rw [List.nil_append] at hrest
          exact hrest ▸ List.mem_cons_self
        have hin : b.packet ∈ TalkSocket.handed later := List.mem_filterMap.mpr ⟨_, hmem, rfl⟩
        rw [hhanded] at hin
        cases hin
      | cons first rest =>
        rw [List.cons_append, List.cons.injEq] at hrest
        obtain ⟨rfl, rfl⟩ := hrest
        exact ⟨before, rest, hevents, (hears_append.mp hhears).resolve_right (hheard _ _)⟩

/-- A packet that was tried joins the ledger, if all before it were acknowledged. -/
theorem burst {t : TalkSocket} {r : Except TalkFault Bool × TalkSocket} {frames : List Bytes} {found : Bool}
    (h : Packeted conv cookie initial events bursts) (hall : ∀ b ∈ bursts, b.acknowledged = true)
    (hp : p.sequence = initial + bursts.length) (hburst : Burstlike frames) (hcarries : Carries conv cookie frames p)
    (hoffers : Offers env p 3 t r later) (hne : later ≠ []) (hfound : r.1 = .ok found) :
    ∃ copies, Packeted conv cookie initial (events ++ later) (bursts ++ [⟨frames, p, copies, found⟩]) := by
  obtain ⟨after, rfl⟩ := hoffers.first.resolve_left hne
  obtain ⟨k, hk, hcopies⟩ := hoffers.copies
  have hpos : 1 ≤ k := by
    rw [handed_event] at hcopies
    cases k with
    | zero => cases hcopies
    | succ k => omega
  have hfresh := h.fresh hp
  refine ⟨k, ?_, ?_, ?_, ?_, ?_⟩
  · rw [handed_append, h.handed, hcopies, List.flatMap_append, List.flatMap_singleton]
  · exact List.forall_mem_append.mpr ⟨h.copies, List.forall_mem_singleton.mpr ⟨hpos, hk⟩⟩
  · rw [List.map_append, h.sequences, List.length_append, List.map_singleton, List.length_singleton, List.range'_concat,
      Nat.one_mul, hp]
  · exact List.forall_mem_append.mpr ⟨h.carries, List.forall_mem_singleton.mpr ⟨hburst, hcarries⟩⟩
  · refine List.forall_mem_append.mpr ⟨fun b hb => ?_, List.forall_mem_singleton.mpr ?_⟩
    · obtain ⟨before, rest, hevents, hhears⟩ := (h.acknowledged b hb).mp (hall b hb)
      refine iff_of_true (hall b hb) ⟨before, rest ++ p.event :: after, ?_, hears_append.mpr (.inl hhears)⟩
      rw [hevents, List.append_assoc, List.cons_append]
    · dsimp only
      rw [hoffers.answer found hfound]
      have htail : Hears p.conv p.sequence (p.event :: after) ↔ Hears p.conv p.sequence after := by
        rw [← List.singleton_append, hears_append]
        simp [Hears, TalkSocket.Packet.event]
      constructor
      · exact fun hhears => ⟨events, after, rfl, htail.mp hhears⟩
      · rintro ⟨before, rest, hsplit, hhears⟩
        rcases List.append_eq_append_iff.mp hsplit with ⟨mid, -, hmid⟩ | ⟨mid, hevents, hmid⟩
        · rw [hmid, hears_append, ← List.singleton_append, hears_append]
          exact .inr (.inr hhears)
        · cases mid with
          | nil =>
            rw [List.nil_append] at hmid
            rw [← hmid, ← List.singleton_append, hears_append]
            exact .inr hhears
          | cons first mid =>
            rw [List.cons_append, List.cons.injEq] at hmid
            obtain ⟨rfl, -⟩ := hmid
            exact absurd (hevents ▸ List.mem_append_right before List.mem_cons_self) hfresh

end Packeted

/-- A sender's counters beside its packets: `lost` are the frames of packets that
never went out, and `unsent` how many of them were counted as sent. -/
structure Ledger (s₀ s : AudioSender) (pending lost : List Bytes) (unsent : Nat) (events : List TalkEvent)
    (bursts : List Burst) : Prop where
  packets : Packeted s₀.conv s₀.cookie s₀.sequence events bursts
  same : s.conv = s₀.conv ∧ s.cookie = s₀.cookie ∧ s.maxFrames = s₀.maxFrames
  order : accepted events = framesOf bursts ++ lost ++ pending
  requested : s.requestedFrames = (accepted events).length
  bound : (s.requestedFrames : Int) ≤ s.maxFrames
  sent : s.sentFrames = (framesOf bursts).length + unsent
  unsent_le : unsent ≤ lost.length
  acknowledged : s.acknowledgedFrames = (framesOf (bursts.filter Burst.acknowledged)).length
  live : s.aborted = false → unsent = 0 ∧ s.sequence = s₀.sequence + bursts.length ∧
    (∀ b ∈ bursts, b.acknowledged = true) ∧ (s.cookie.length = 8 → lost = [])
  bare : s.cookie.length ≠ 8 → bursts = []
  paced : s.requestedFrames ≠ 0 → s.lastSendAt.isSome = true

namespace Ledger

variable {s₀ s : AudioSender} {pending lost frames : List Bytes} {unsent : Nat} {events : List TalkEvent}
  {bursts : List Burst} {t : TalkSocket}

theorem accept (env : TalkEnv) (h : Ledger s₀ s pending lost unsent events bursts)
    (hroom : (s.requestedFrames : Int) < s.maxFrames) (frame : Bytes) (t : TalkSocket) :
    (s.accept env frame t).1.log = t.log ++ [.accepted frame] ∧
      (s.requestedFrames ≠ 0 → (s.accept env frame t).1.reads = t.reads + 2) ∧
      Ledger s₀ (s.accept env frame t).2 (pending ++ [frame]) lost unsent (events ++ [.accepted frame]) bursts := by
  refine ⟨?_, fun hrequested => ?_, ?_⟩
  · unfold AudioSender.accept AudioSender.pace
    dsimp only [monotonic, note]
    split
    · rfl
    · rfl
  · unfold AudioSender.accept AudioSender.pace
    rw [if_pos (h.paced hrequested)]
    rfl
  · have haccepted : accepted (events ++ [.accepted frame]) = accepted events ++ [frame] := accepted_append _ _
    refine ⟨h.packets.append rfl fun conv sequence => by simp [Hears], h.same, ?_, ?_, ?_, h.sent, h.unsent_le,
      h.acknowledged, h.live, h.bare, fun _ => rfl⟩
    · rw [haccepted, h.order, List.append_assoc]
    · rw [haccepted, List.length_append, ← h.requested]
      rfl
    · exact Int.add_one_le_iff.mpr hroom

/-- **A packet is booked**: if it goes out the ledger gains it, if the session is over
before its frames are counted as sent all the same. -/
theorem sendPacket (env : TalkEnv) (hsends : ∀ n, env.raises n = false)
    (h : Ledger s₀ s frames lost unsent events bursts) (hlive : s.aborted = false) (hburst : Burstlike frames)
    (timestamp : Nat) (t : TalkSocket) : ∃ lost' unsent' later bursts',
      (s.sendPacket env frames timestamp t).2.1.log = t.log ++ later ∧
      Ledger s₀ (s.sendPacket env frames timestamp t).2.2 [] lost' unsent' (events ++ later) bursts' ∧
      (unsent' = 0 ↔ ¬(s.cookie.length = 8 ∧ s.sessionDeadline ≤ env.monotonic (t.reads + 1))) := by
  obtain ⟨hover, hsequence, hall, hlost⟩ := h.live hlive
  have hnothing : accepted events = framesOf bursts ++ (lost ++ frames) ++ [] := by
    rw [h.order, List.append_nil, List.append_assoc]
  by_cases hcookie : s.cookie.length = 8
  · obtain ⟨p, r, later, hcarries, hp, hoffers, hlate, -, hfalse, htrue⟩ :=
      AudioSender.sendPacket_cases env hburst hcookie timestamp t
    obtain ⟨found, hfound⟩ : ∃ found, r.1 = .ok found := hoffers.spends.raises_iff.mpr fun n _ _ => hsends n
    have hquiet : accepted (events ++ later) = accepted events := by
      rw [accepted_append, accepted_of_kinds hoffers.kinds, List.append_nil]
    rw [hlost hcookie] at h hnothing
    by_cases hnone : later = []
    · -- No attempt was made.
      have hdead : found = false := by
        have hhears : ¬Hears p.conv p.sequence later := by simp [hnone, Hears]
        simpa using (hoffers.answer found hfound).not.mpr hhears
      rw [hdead] at hfound
      rw [hfalse hfound]
      refine ⟨frames, frames.length, later, bursts, hoffers.spends.log, ⟨?_, h.same, ?_, ?_, h.bound, ?_, le_rfl,
        h.acknowledged, fun hrunning => (by cases hrunning), h.bare, h.paced⟩,
        iff_of_false (fun hzero => hburst.pos (List.length_eq_zero_iff.mp hzero)) (not_not.mpr ⟨hcookie, hlate.mp hnone⟩)⟩
      · rw [hnone, List.append_nil]
        exact h.packets
      · rw [hquiet, hnothing, List.nil_append]
      · rw [hquiet]
        exact h.requested
      · show s.sentFrames + frames.length = _
        rw [h.sent, hover]
        omega
    · have hintime : ¬(s.cookie.length = 8 ∧ s.sessionDeadline ≤ env.monotonic (t.reads + 1)) :=
        fun hover => hnone (hlate.mpr hover.2)
      rw [h.same.1, h.same.2.1] at hcarries
      obtain ⟨copies, hpackets⟩ := h.packets.burst hall (hp.trans hsequence) hburst hcarries hoffers hnone hfound
      set b : Burst := ⟨frames, p, copies, found⟩
      have hframes : framesOf (bursts ++ [b]) = framesOf bursts ++ frames := by
        rw [framesOf, List.flatMap_append, List.flatMap_singleton]
        rfl
      have horder : accepted (events ++ later) = framesOf (bursts ++ [b]) ++ [] ++ [] := by
        rw [hquiet, hnothing, hframes, List.nil_append, List.append_nil, List.append_nil]
      have hrequested : s.requestedFrames = (accepted (events ++ later)).length := hquiet ▸ h.requested
      have hsent : s.sentFrames + frames.length = (framesOf (bursts ++ [b])).length + 0 := by
        rw [hframes, List.length_append, h.sent, hover]
        rfl
      have hbare : s.cookie.length ≠ 8 → bursts ++ [b] = [] := fun hbad => absurd hcookie hbad
      cases found with
      | false =>
        rw [hfalse hfound]
        refine ⟨[], 0, later, bursts ++ [b], hoffers.spends.log, ⟨hpackets, h.same, horder, hrequested, h.bound, hsent,
          le_rfl, ?_, fun hrunning => (by cases hrunning), hbare, h.paced⟩, iff_of_true rfl hintime⟩
        rw [List.filter_append, List.filter_singleton]
        show s.acknowledgedFrames = (framesOf (bursts.filter Burst.acknowledged ++ [])).length
        rw [List.append_nil, h.acknowledged]
      | true =>
        rw [htrue hfound]
        refine ⟨[], 0, later, bursts ++ [b], hoffers.spends.log, ⟨hpackets, h.same, horder, hrequested, h.bound, hsent,
          le_rfl, ?_, fun _ => ⟨rfl, ?_, ?_, fun _ => rfl⟩, hbare, h.paced⟩, iff_of_true rfl hintime⟩
        · rw [List.filter_append, List.filter_singleton]
          show s.acknowledgedFrames + frames.length = (framesOf (bursts.filter Burst.acknowledged ++ [b])).length
          rw [framesOf, List.flatMap_append, List.length_append, h.acknowledged, List.flatMap_singleton]
          rfl
        · show s.sequence + 1 = _
          rw [hsequence, List.length_append, List.length_singleton, Nat.add_assoc]
        · exact List.forall_mem_append.mpr ⟨hall, List.forall_mem_singleton.mpr rfl⟩
  · obtain ⟨e, he⟩ := AudioSender.sendPacket_refused env hburst hcookie timestamp t
    rw [he]
    refine ⟨lost ++ frames, unsent, [], bursts, (List.append_nil _).symm, ?_, iff_of_true hover fun h => hcookie h.1⟩
    rw [List.append_nil]
    exact ⟨h.packets, h.same, hnothing, h.requested, h.bound, h.sent, by rw [hover]; exact Nat.zero_le _, h.acknowledged,
      fun _ => ⟨hover, hsequence, hall, fun hgood => absurd hgood hcookie⟩, h.bare, h.paced⟩

end Ledger

/-! ## Runs of the modern sender -/

inductive AudioCall where
  | send (frame : Bytes)
  | close
  deriving DecidableEq, Repr

namespace ModernAudioSender

/-- What a call leaves behind; its answer or exception goes to the caller. -/
def step (env : TalkEnv) (x : TalkSocket × ModernAudioSender) : AudioCall → TalkSocket × ModernAudioSender
  | .send frame => (x.2.send env frame x.1).2
  | .close => (x.2.close env x.1).2

def run (env : TalkEnv) (calls : List AudioCall) (x : TalkSocket × ModernAudioSender) : TalkSocket × ModernAudioSender :=
  calls.foldl (step env) x

/-- The call completes a burst, or flushes one, and its first look at the clock for
that finds the session over: for a frame the fifth reading, after the one that
admitted it. -/
def Late (env : TalkEnv) (x : TalkSocket × ModernAudioSender) (call : AudioCall) : Prop :=
  x.2.cookie.length = 8 ∧
    match call with
    | .send frame => x.2.Open frame ∧ env.monotonic x.1.reads < x.2.sessionDeadline ∧ x.2.pending.length = 3 ∧
        x.2.sessionDeadline ≤ env.monotonic (x.1.reads + 4)
    | .close => x.2.closed = false ∧ x.2.aborted = false ∧ x.2.pending ≠ [] ∧
        x.2.sessionDeadline ≤ env.monotonic (x.1.reads + 1)

/-- No call of the run is late. -/
def Punctual (env : TalkEnv) : List AudioCall → TalkSocket × ModernAudioSender → Prop
  | [], _ => True
  | call :: calls, x => ¬Late env x call ∧ Punctual env calls (step env x call)

/-- The ledger of a sender, and what it keeps about its burst. -/
structure Booked (s₀ : AudioSender) (s : ModernAudioSender) (lost : List Bytes) (unsent : Nat) (events : List TalkEvent)
    (bursts : List Burst) : Prop where
  ledger : Ledger s₀ s.toAudioSender s.pending lost unsent events bursts
  short : s.pending.length ≤ 3
  amr : ∀ frame ∈ s.pending, AmrFrame frame
  dated : s.pending ≠ [] → s.pendingTimestampUs.isSome = true

variable {s₀ : AudioSender} {s : ModernAudioSender} {lost : List Bytes} {unsent : Nat} {events : List TalkEvent}
  {bursts : List Burst} {t : TalkSocket}

theorem flush_booked (env : TalkEnv) (hsends : ∀ n, env.raises n = false)
    (h : Ledger s₀ s.toAudioSender s.pending lost unsent events bursts) (hlive : s.aborted = false)
    (hlength : s.pending.length ≤ 4) (hamr : ∀ frame ∈ s.pending, AmrFrame frame)
    (hdated : s.pending ≠ [] → s.pendingTimestampUs.isSome = true) (t : TalkSocket) :
    ∃ lost' unsent' later bursts', (s.flush env t).2.1.log = t.log ++ later ∧
      Booked s₀ (s.flush env t).2.2 lost' unsent' (events ++ later) bursts' ∧
      (unsent' = 0 ↔ ¬(s.cookie.length = 8 ∧ s.pending ≠ [] ∧ s.sessionDeadline ≤ env.monotonic (t.reads + 1))) := by
  rw [flush]
  split
  · rename_i hnone
    refine ⟨lost, unsent, [], bursts, (List.append_nil _).symm, ?_, iff_of_true (h.live hlive).1 fun hlate => hlate.2.1 hnone⟩
    rw [List.append_nil]
    exact ⟨h, by rw [hnone]; exact Nat.zero_le 3, hamr, hdated⟩
  rename_i hsome
  obtain ⟨timestamp, hstamp⟩ := Option.isSome_iff_exists.mp (hdated hsome)
  rw [hstamp]
  dsimp only
  obtain ⟨lost', unsent', later, bursts', hlog, hledger, hover⟩ :=
    h.sendPacket env hsends hlive ⟨hsome, hlength, hamr⟩ timestamp t
  refine ⟨lost', unsent', later, bursts', hlog, ⟨hledger, Nat.zero_le 3, by simp, fun hne => absurd rfl hne⟩, hover.trans ?_⟩
  rw [and_iff_right hsome]

theorem collect_ledger (env : TalkEnv) (h : Booked s₀ s lost unsent events bursts) {frame : Bytes}
    (hopen : s.Open frame) (t : TalkSocket) :
    (s.collect env frame t).1.log = t.log ++ [.accepted frame] ∧
      (s.pending ≠ [] → (s.collect env frame t).1.reads = t.reads + 2) ∧
      (s.collect env frame t).2.pending = s.pending ++ [frame] ∧
      (s.collect env frame t).2.aborted = s.aborted ∧ (s.collect env frame t).2.cookie = s.cookie ∧
      (s.collect env frame t).2.sessionDeadline = s.sessionDeadline ∧
      (s.collect env frame t).2.pendingTimestampUs.isSome = true ∧
      Ledger s₀ (s.collect env frame t).2.toAudioSender (s.pending ++ [frame]) lost unsent
        (events ++ [.accepted frame]) bursts := by
  obtain ⟨hlog, hreads, hledger⟩ := h.ledger.accept env hopen.2.2.1 frame t
  have hrequested : s.pending ≠ [] → s.requestedFrames ≠ 0 := by
    intro hne hzero
    have hcount := h.ledger.requested
    rw [h.ledger.order, hzero, List.length_append, List.length_append] at hcount
    exact hne (List.length_eq_zero_iff.mp (by omega))
  unfold collect
  dsimp only [stampUs]
  split
  · rename_i hnone
    rw [hnone] at hledger ⊢
    exact ⟨hlog, fun hne => absurd rfl hne, rfl, rfl, rfl, rfl, rfl, hledger⟩
  · rename_i hsome
    exact ⟨hlog, fun hne => hreads (hrequested hne), rfl, rfl, rfl, rfl, h.dated hsome, hledger⟩

/-- What a call does to the ledger: frames are counted that never go out exactly if
the call is late. -/
theorem step_booked (env : TalkEnv) (hsends : ∀ n, env.raises n = false) (h : Booked s₀ s lost unsent events bursts)
    (t : TalkSocket) (call : AudioCall) : ∃ lost' unsent' later bursts',
      (step env (t, s) call).1.log = t.log ++ later ∧
      Booked s₀ (step env (t, s) call).2 lost' unsent' (events ++ later) bursts' ∧
      (unsent' = 0 ↔ unsent = 0 ∧ ¬Late env (t, s) call) := by
  have still {t' : TalkSocket} {s' : ModernAudioSender} (hlog : t'.log = t.log)
      (hbooked : Booked s₀ s' lost unsent events bursts) (hnot : ¬Late env (t, s) call) :
      ∃ lost' unsent' later bursts', t'.log = t.log ++ later ∧ Booked s₀ s' lost' unsent' (events ++ later) bursts' ∧
        (unsent' = 0 ↔ unsent = 0 ∧ ¬Late env (t, s) call) := by
    refine ⟨lost, unsent, [], bursts, by rw [hlog, List.append_nil], ?_, (and_iff_left hnot).symm⟩
    rw [List.append_nil]
    exact hbooked
  cases call with
  | send frame =>
    simp only [step, send]
    rcases s.toAudioSender.vet_cases env "modern" frame t with
      ⟨hshut, e, he⟩ | ⟨hopen, hover, he⟩ | ⟨hopen, hintime, he⟩
    · rw [he]
      exact still rfl h fun hlate => hshut hlate.2.1
    · rw [he]
      have hledger : Ledger s₀ { s.toAudioSender with aborted := true } s.pending lost unsent events bursts :=
        ⟨h.ledger.packets, h.ledger.same, h.ledger.order, h.ledger.requested, h.ledger.bound, h.ledger.sent,
          h.ledger.unsent_le, h.ledger.acknowledged, fun hrunning => (by cases hrunning), h.ledger.bare, h.ledger.paced⟩
      exact still rfl ⟨hledger, h.short, h.amr, h.dated⟩ fun hlate => absurd hlate.2.2.1 hover.not_gt
    · rw [he]
      dsimp only
      obtain ⟨hlog, hreads, hpending, haborted, hcookie, hdeadline, hdated, hledger⟩ :=
        collect_ledger env h hopen { t with reads := t.reads + 1 }
      have hamr : ∀ other ∈ s.pending ++ [frame], AmrFrame other :=
        List.forall_mem_append.mpr ⟨h.amr, List.forall_mem_singleton.mpr hopen.2.2.2⟩
      have hzero : unsent = 0 := (h.ledger.live hopen.2.1).1
      have hlength : (s.pending ++ [frame]).length = s.pending.length + 1 := by
        rw [List.length_append, List.length_singleton]
      generalize s.collect env frame { t with reads := t.reads + 1 } = collected at *
      obtain ⟨t', s'⟩ := collected
      dsimp only at hlog hreads hpending haborted hcookie hdeadline hdated hledger ⊢
      split
      · rename_i hmore
        rw [hpending, hlength, AMR_FRAME_DURATION_US, NATIVE_BATCH_THRESHOLD_US] at hmore
        refine ⟨lost, unsent, [.accepted frame], bursts, hlog, ⟨hpending ▸ hledger, ?_, hpending ▸ hamr, fun _ => hdated⟩,
          iff_of_true hzero ⟨hzero, fun hlate => ?_⟩⟩
        · rw [hpending, hlength]
          omega
        · have hthree : s.pending.length = 3 := hlate.2.2.2.1
          omega
      · rename_i hfull
        rw [hpending, hlength, AMR_FRAME_DURATION_US, NATIVE_BATCH_THRESHOLD_US] at hfull
        have hshort := h.short
        have hthree : s.pending.length = 3 := by omega
        have hne : s.pending ≠ [] := by
          rw [← List.length_pos_iff]
          omega
        obtain ⟨lost', unsent', later, bursts', hflush, hbooked, hlate⟩ := flush_booked env hsends (hpending ▸ hledger)
          (haborted.trans hopen.2.1) (by rw [hpending, hlength]; omega) (hpending ▸ hamr) (fun _ => hdated) t'
        refine ⟨lost', unsent', .accepted frame :: later, bursts', by rw [hflush, hlog, List.append_assoc]; rfl, ?_,
          hlate.trans ?_⟩
        · rw [List.append_assoc] at hbooked
          exact hbooked
        · rw [hcookie, hdeadline, hreads hne, hpending, and_iff_right hzero]
          refine not_congr ⟨fun h => ⟨h.1, hopen, hintime, hthree, h.2.2⟩, fun h => ⟨h.1, by simp, h.2.2.2.2⟩⟩
  | close =>
    simp only [step, close]
    split
    · rename_i hrunning
      obtain ⟨lost', unsent', later, bursts', hflush, hbooked, hlate⟩ :=
        flush_booked env hsends h.ledger hrunning.2 (h.short.trans (by decide)) h.amr h.dated t
      have hzero : unsent = 0 := (h.ledger.live hrunning.2).1
      have hiff : unsent' = 0 ↔ unsent = 0 ∧ ¬Late env (t, s) .close := by
        rw [hlate, and_iff_right hzero]
        exact not_congr ⟨fun h => ⟨h.1, hrunning.1, hrunning.2, h.2⟩, fun h => ⟨h.1, h.2.2.2⟩⟩
      generalize s.flush env t = flushed at *
      obtain ⟨answer, t', s'⟩ := flushed
      cases answer with
      | error e => exact ⟨lost', unsent', later, bursts', hflush, hbooked, hiff⟩
      | ok answer =>
        have hledger := hbooked.ledger
        exact ⟨lost', unsent', later, bursts', hflush, ⟨⟨hledger.packets, hledger.same, hledger.order, hledger.requested,
          hledger.bound, hledger.sent, hledger.unsent_le, hledger.acknowledged, hledger.live, hledger.bare, hledger.paced⟩,
          hbooked.short, hbooked.amr, hbooked.dated⟩, hiff⟩
    · rename_i hended
      have hledger := h.ledger
      exact still rfl ⟨⟨hledger.packets, hledger.same, hledger.order, hledger.requested,
        hledger.bound, hledger.sent, hledger.unsent_le, hledger.acknowledged, hledger.live, hledger.bare, hledger.paced⟩,
        h.short, h.amr, h.dated⟩ fun hlate => hended ⟨hlate.2.1, hlate.2.2.1⟩

theorem run_booked (env : TalkEnv) (hsends : ∀ n, env.raises n = false) (h : Booked s₀ s lost unsent events bursts)
    (t : TalkSocket) (calls : List AudioCall) : ∃ lost' unsent' later bursts',
      (run env calls (t, s)).1.log = t.log ++ later ∧
      Booked s₀ (run env calls (t, s)).2 lost' unsent' (events ++ later) bursts' ∧
      (unsent' = 0 ↔ unsent = 0 ∧ Punctual env calls (t, s)) := by
  induction calls generalizing t s lost unsent events bursts with
  | nil =>
    refine ⟨lost, unsent, [], bursts, (List.append_nil _).symm, ?_, (and_iff_left trivial).symm⟩
    rw [List.append_nil]
    exact h
  | cons call calls ih =>
    obtain ⟨lost₁, unsent₁, first, bursts₁, hlog, hbooked, hover⟩ := step_booked env hsends h t call
    obtain ⟨lost', unsent', later, bursts', hlog', hbooked', hover'⟩ := ih hbooked (step env (t, s) call).1
    refine ⟨lost', unsent', first ++ later, bursts', ?_, ?_, ?_⟩
    · rw [← List.append_assoc, ← hlog]
      exact hlog'
    · rw [← List.append_assoc]
      exact hbooked'
    · rw [hover', hover, and_assoc]
      rfl

/-- The account of a sender after some events: its packets, in order and each with the
frames it carries, and the counters. -/
structure Accounted (conv : Nat) (cookie : Bytes) (initial : Nat) (maxFrames : Int) (s : ModernAudioSender)
    (events : List TalkEvent) (bursts : List Burst) : Prop where
  packets : Packeted conv cookie initial events bursts
  order : framesOf bursts <+: accepted events
  requested : s.requestedFrames = (accepted events).length
  counts : s.acknowledgedFrames ≤ s.sentFrames ∧ s.sentFrames ≤ s.requestedFrames ∧
    (s.requestedFrames : Int) ≤ maxFrames
  acknowledged : s.acknowledgedFrames = (framesOf (bursts.filter Burst.acknowledged)).length

theorem length_framesOf_filter (bursts : List Burst) :
    (framesOf (bursts.filter Burst.acknowledged)).length ≤ (framesOf bursts).length := by
  have hsub : (bursts.filter Burst.acknowledged).Sublist bursts := List.filter_sublist
  exact (hsub.flatMap Burst.frames).length_le

theorem Booked.accounted (h : Booked s₀ s lost unsent events bursts) :
    Accounted s₀.conv s₀.cookie s₀.sequence s₀.maxFrames s events bursts := by
  have hledger := h.ledger
  have hcount := congrArg List.length hledger.order
  rw [List.length_append, List.length_append, ← hledger.requested] at hcount
  have hacked := length_framesOf_filter bursts
  have hsent := hledger.sent
  have hover := hledger.unsent_le
  refine ⟨hledger.packets, ⟨lost ++ s.pending, ?_⟩, hledger.requested, ⟨?_, by omega, ?_⟩, hledger.acknowledged⟩
  · rw [← List.append_assoc, hledger.order]
  · rw [hledger.acknowledged]
    omega
  · rw [← hledger.same.2.2]
    exact hledger.bound

theorem new_booked {peer : Peer} {conv sequence : Nat} {cookie : Bytes} {timeout : ℚ} {maxFrames : Int}
    {t₀ t₁ : TalkSocket} (h : new env peer conv cookie sequence timeout maxFrames t₀ = (.ok s, t₁)) :
    t₁.log = t₀.log ∧ (s.conv = conv ∧ s.cookie = cookie ∧ s.sequence = sequence ∧ s.maxFrames = maxFrames) ∧
      Booked s.toAudioSender s [] 0 [] [] := by
  unfold new AudioSender.new at h
  split at h
  · cases h
  rename_i sender t hsender
  split at hsender
  · cases hsender
  rename_i hbound
  cases hsender
  cases h
  refine ⟨rfl, ⟨rfl, rfl, rfl, rfl⟩, ⟨⟨rfl, by simp, rfl, by simp, by simp⟩, ⟨rfl, rfl, rfl⟩, rfl, rfl, ?_, rfl, le_rfl,
    rfl, fun _ => ⟨rfl, rfl, by simp, fun _ => rfl⟩, fun _ => rfl, fun h => absurd rfl h⟩, Nat.zero_le 3, by simp,
    fun h => absurd rfl h⟩
  show (0 : Int) ≤ maxFrames
  omega

/-- **What the sender counts is what happened**, after any calls: whatever is received
and whatever the clock says, every frame goes into one packet at most, in order and by
fours, packets are numbered one after another and sent three times at most, and the
acknowledged frames are those of the packets whose acknowledgement was heard. The sent
frames are those of the packets that went out if and only if no call was late. -/
theorem modern_audio_accounting (hsends : ∀ n, env.raises n = false) {peer : Peer} {conv sequence : Nat}
    {cookie : Bytes} {timeout : ℚ} {maxFrames : Int} {t₀ t₁ : TalkSocket} {s₀ : ModernAudioSender}
    (hnew : new env peer conv cookie sequence timeout maxFrames t₀ = (.ok s₀, t₁)) (calls : List AudioCall) :
    ∃ events bursts, (run env calls (t₁, s₀)).1.log = t₀.log ++ events ∧
      Accounted conv cookie sequence maxFrames (run env calls (t₁, s₀)).2 events bursts ∧
      ((run env calls (t₁, s₀)).2.sentFrames = (framesOf bursts).length ↔ Punctual env calls (t₁, s₀)) := by
  obtain ⟨hlog, ⟨hconv, hcookie, hsequence, hmax⟩, hbooked⟩ := new_booked hnew
  obtain ⟨lost, unsent, events, bursts, hrun, hafter, hover⟩ := run_booked env hsends hbooked t₁ calls
  rw [List.nil_append] at hafter
  have haccounted := hafter.accounted
  rw [hconv, hcookie, hsequence, hmax] at haccounted
  refine ⟨events, bursts, by rw [hrun, hlog], haccounted, ?_⟩
  have hsent := hafter.ledger.sent
  rw [and_iff_right rfl] at hover
  rw [← hover, hsent]
  omega

/-! ## A session of three bursts -/

def amrFrame : Bytes := 0x3C :: List.replicate 31 0

def freshSocket : TalkSocket := { inboundNext := .empty }

def talkPeer : Peer := ("192.168.1.20", 32100)

/-- The camera acknowledges the first packet and the third at once, the second when it is
sent again. -/
def heardEnv : TalkEnv where
  monotonic _ := 0
  timeNs _ := 0
  raises _ := false
  yields n _ := match n with
    | 0 => [((buildKcpAck 7 2 0 0 0x100).toOption.getD [], talkPeer)]
    | 2 => [((buildKcpAck 7 3 0 0 0x100).toOption.getD [], talkPeer)]
    | 3 => [((buildKcpAck 7 4 0 0 0x100).toOption.getD [], talkPeer)]
    | _ => []

/-- Nine frames and a close. -/
def nineFrames : List AudioCall := List.replicate 9 (.send amrFrame) ++ [.close]

theorem bursts_accounted : ∃ s₀ t₁, new heardEnv talkPeer 7 (List.replicate 8 1) 2 1 500 freshSocket = (.ok s₀, t₁) ∧
    (∃ events bursts, (run heardEnv nineFrames (t₁, s₀)).1.log = freshSocket.log ++ events ∧
      Accounted 7 (List.replicate 8 1) 2 500 (run heardEnv nineFrames (t₁, s₀)).2 events bursts ∧
      ((run heardEnv nineFrames (t₁, s₀)).2.sentFrames = (framesOf bursts).length ↔
        Punctual heardEnv nineFrames (t₁, s₀))) ∧
    (handed (run heardEnv nineFrames (t₁, s₀)).1.log).map (fun p => p.sequence) = [2, 3, 3, 4] :=
  ⟨_, _, rfl, modern_audio_accounting (fun _ => rfl) rfl _, by decide +kernel⟩

/-! ## A burst that is flushed too late -/

/-- The clock jumps past the session between the third reading and the fourth, and
nothing is ever received. -/
def tardyEnv : TalkEnv where
  monotonic n := if n < 3 then 0 else 100
  timeNs _ := 0
  raises _ := false
  yields _ _ := []

/-- One frame, and a close when the session is unsent: it is counted as sent, and no
packet was handed to the socket. -/
theorem tardy_close_counts_unsent : ∃ s₀ t₁,
    new tardyEnv talkPeer 7 (List.replicate 8 1) 2 1 500 freshSocket = (.ok s₀, t₁) ∧
      (run tardyEnv [.send amrFrame, .close] (t₁, s₀)).2.result.sentFrames = 1 ∧
      handed (run tardyEnv [.send amrFrame, .close] (t₁, s₀)).1.log = [] := by
  refine ⟨_, _, rfl, ?_, ?_⟩
  · decide +kernel
  · decide +kernel

end ModernAudioSender

end CamGuard.Talk
