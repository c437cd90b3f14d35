/-
LAN talkback is paced. What has been sent so far is a prefix of what was asked for, its
packets count on from one another, and each of them was due (`Paced`): this is kept by
every step of the message, whatever time the steps take, and says at its end that all is
sent exactly once (`talkback_paced`).
-/
import CamGuard.Talk.PacedTalk
import CamGuard.Talk.RtspBackchannelFacts
import CamGuard.Lib.Trace
import Mathlib.Tactic.Linarith

namespace CamGuard.Talk

/-! ## Packets -/

/-- What a packet says. -/
structure RtpCarries (packet payload : Bytes) (sequence timestamp : Nat) (marker : Bool) : Prop where
  payload : packet.drop 12 = payload
  sequence : (packet.slice 2 2).toNatBE = sequence % 0x10000
  timestamp : (packet.slice 4 4).toNatBE = timestamp % 0x100000000
  marker : (packet.at_ 1).testBit 7 = marker

theorem packRtp_carries {payload packet : Bytes} {sequence timestamp ssrc : Nat} {marker : Bool}
    (h : packRtp payload sequence timestamp ssrc marker = .ok packet) : RtpCarries packet payload sequence timestamp marker := by
  unfold packRtp at h
  split at h
  · cases h
  cases h
  have hlead (b : UInt8) : ([0x80, b] : Bytes).length = 2 := rfl
  refine ⟨?_, ?_, ?_, ?_⟩
  · exact List.drop_left' (by simp)
  · simp only [List.append_assoc]
    rw [Bytes.slice_middle (hlead _) (Bytes.length_ofNatBE 2 sequence), Bytes.toNatBE_ofNatBE]
    rfl
  · simp only [List.append_assoc]
    rw [← List.append_assoc, Bytes.slice_middle (by simp) (Bytes.length_ofNatBE 4 timestamp), Bytes.toNatBE_ofNatBE]
    rfl
  · simp only [List.append_assoc]
    rw [Bytes.at_append_left (by simp)]
    cases marker <;> decide

/-! ## Reading the log -/

namespace TalkMoment

/-- The packet written, and when the write begins. -/
def media? : TalkMoment → Option (Bytes × ℚ)
  | .wire (.media _ _ packet _) begun _ => some (packet, begun)
  | _ => none

def mark? (mark : TalkMark) : TalkMoment → Option ℚ
  | .mark m time => if m = mark then some time else none
  | .wire .. => none

/-- OPEN, answered with 200. -/
def Granted (m : TalkMoment) : Prop :=
  ∃ session r begun ended, m = .wire (.request session "USER_CMD_SET" (some .open) (.response r)) begun ended ∧ r.status = 200

/-- CLOSE is requested at this time. -/
def Closes (begun : ℚ) (m : TalkMoment) : Prop := ∃ event ended, m = .wire event begun ended ∧ event.command? = some .close

/-- Nothing that counts: no packet, no reading, no CLOSE. -/
structure Idle (m : TalkMoment) : Prop where
  media : m.media? = none
  mark : ∀ mark, m.mark? mark = none
  not_closes : ∀ begun, ¬m.Closes begun

theorem idle_wire {event : RtspEvent} (begun ended : ℚ) (hmedia : (TalkMoment.wire event begun ended).media? = none)
    (hcommand : event.command? ≠ some .close) : (TalkMoment.wire event begun ended).Idle := by
  refine ⟨hmedia, fun mark => rfl, ?_⟩
  rintro begun' ⟨event', ended', ⟨⟩, hclose⟩
  exact hcommand hclose

theorem Granted.idle {m : TalkMoment} (h : m.Granted) : m.Idle := by
  obtain ⟨session, r, begun, ended, rfl, -⟩ := h
  exact idle_wire begun ended rfl (by simp [RtspEvent.command?])

end TalkMoment

/-- The packets written. -/
def written (log : List TalkMoment) : List (Bytes × ℚ) := log.filterMap TalkMoment.media?

/-- The readings of one kind. -/
def marked (mark : TalkMark) (log : List TalkMoment) : List ℚ := log.filterMap (TalkMoment.mark? mark)

theorem written_append (a b : List TalkMoment) : written (a ++ b) = written a ++ written b := List.filterMap_append

theorem marked_append (mark : TalkMark) (a b : List TalkMoment) : marked mark (a ++ b) = marked mark a ++ marked mark b :=
  List.filterMap_append

/-- A packet is written whose send began less than the refresh after the last answer; what a
refresh is counted from follows an OPEN that is granted; and no send begins before one. -/
def Timely (before : List TalkMoment) (m : TalkMoment) : Prop :=
  (m.media? ≠ none → ∃ begun answered, (marked .send before).getLast? = some begun ∧
    (marked .answered before).getLast? = some answered ∧ begun < answered + OPEN_REFRESH_SECONDS) ∧
  (m.mark? .answered ≠ none → ∃ earlier granted, before = earlier ++ [granted] ∧ granted.Granted) ∧
  (m.mark? .send ≠ none → marked .answered before ≠ [])

theorem timely_quiet {m : TalkMoment} (hmedia : m.media? = none) (hanswered : m.mark? .answered = none)
    (hsend : m.mark? .send = none) (before : List TalkMoment) : Timely before m :=
  ⟨fun h => absurd hmedia h, fun h => absurd hanswered h, fun h => absurd hsend h⟩

namespace PacedTalk

/-! ## Time -/

section

variable (clock : TalkClock) (t : PacedTalk)

@[simp] theorem read_session : (t.read clock).2.session = t.session := rfl

@[simp] theorem read_log : (t.read clock).2.log = t.log := rfl

theorem le_pass (least : ℚ) : t.now + least ≤ (t.pass clock least).now := by
  have hlapse := clock.lapse_nonneg t.lapses
  unfold pass
  dsimp only
  linarith

theorem le_read : t.now ≤ (t.read clock).2.now := by
  have hle := le_pass clock t 0
  rw [add_zero] at hle
  exact hle

theorem sleepUntil_session (deadline : ℚ) : (t.sleepUntil clock deadline).session = t.session := by
  unfold sleepUntil
  dsimp only
  split <;> rfl

theorem sleepUntil_log (deadline : ℚ) : (t.sleepUntil clock deadline).log = t.log := by
  unfold sleepUntil
  dsimp only
  split <;> rfl

/-- A sleep ends no earlier than the deadline. -/
theorem le_sleepUntil (deadline : ℚ) : deadline ≤ (t.sleepUntil clock deadline).now := by
  unfold sleepUntil
  dsimp only
  split
  · next hwait =>
    have hle := le_pass clock (t.read clock).2 (deadline - (t.read clock).1)
    have hnow : (t.read clock).1 = (t.read clock).2.now := rfl
    linarith
  · next hlate =>
    have hnow : (t.read clock).1 = (t.read clock).2.now := rfl
    linarith

/-- What the wire adds to the log, with its times. -/
theorem foldl_stamp (events : List RtspEvent) :
    (events.foldl (stamp clock) t).session = t.session ∧ t.now ≤ (events.foldl (stamp clock) t).now ∧
      ∃ moments, (events.foldl (stamp clock) t).log = t.log ++ moments ∧
        ∀ m ∈ moments, ∃ e ∈ events, ∃ begun ended, m = .wire e begun ended ∧ t.now ≤ begun := by
  induction events generalizing t with
  | nil => exact ⟨rfl, le_rfl, [], by simp, by simp⟩
  | cons e events ih =>
    have hle : t.now ≤ (t.stamp clock e).now := le_read clock t
    obtain ⟨hsession, hnow, moments, hlog, hmoments⟩ := ih (t.stamp clock e)
    rw [List.foldl_cons]
    refine ⟨hsession, hle.trans hnow, .wire e t.now (t.stamp clock e).now :: moments, ?_, fun m hm => ?_⟩
    · rw [hlog]
      exact List.append_assoc ..
    · rcases List.mem_cons.mp hm with rfl | hm
      · exact ⟨e, by simp, _, _, rfl, le_rfl⟩
      · obtain ⟨e', he', begun, ended, rfl, hbegun⟩ := hmoments m hm
        exact ⟨e', by simp [he'], begun, ended, rfl, hle.trans hbegun⟩

variable {α : Type}

/-- What is done outside adds its events to the log. -/
theorem outside_adds {p : RtspEvent → Prop} {step : RtspTalkSession → α × RtspTalkSession}
    (h : Adds p t.session.wire (step t.session).2.wire) :
    (t.outside clock step).1 = (step t.session).1 ∧ (t.outside clock step).2.session = (step t.session).2 ∧
      t.now ≤ (t.outside clock step).2.now ∧
      ∃ moments, (t.outside clock step).2.log = t.log ++ moments ∧
        ∀ m ∈ moments, ∃ e, p e ∧ ∃ begun ended, m = .wire e begun ended ∧ t.now ≤ begun := by
  obtain ⟨tail, hlog, htail⟩ := h
  have hdrop : (step t.session).2.wire.log.drop t.session.wire.log.length = tail := by
    rw [hlog, List.drop_left]
  obtain ⟨hsession, hnow, moments, hmoments, hall⟩ := foldl_stamp clock { t with session := (step t.session).2 } tail
  unfold outside
  dsimp only
  rw [hdrop]
  refine ⟨rfl, hsession, hnow, moments, hmoments, fun m hm => ?_⟩
  obtain ⟨e, he, hwire⟩ := hall m hm
  exact ⟨e, htail e he, hwire⟩

theorem outside_eq (step : RtspTalkSession → α × RtspTalkSession) {events : List RtspEvent}
    (h : (step t.session).2.wire.log = t.session.wire.log ++ events) :
    t.outside clock step = ((step t.session).1, events.foldl (stamp clock) { t with session := (step t.session).2 }) := by
  unfold outside
  dsimp only
  rw [h, List.drop_left]

end

end PacedTalk

/-! ## What has been sent -/

/-- These payloads have been sent, by this session, and all in time. -/
structure Paced (start : RtpStart) (s : RtspTalkSession) (log : List TalkMoment) (playback : Option ℚ) (sent : List Bytes) :
    Prop where
  opened : s.opened = true
  sequence : s.sequence % 0x10000 = (start.sequence + sent.length) % 0x10000
  timestamp : s.timestamp % 0x100000000 = (start.timestamp + RTP_TIMESTAMP_STEP * sent.length) % 0x100000000
  first : s.firstPacket = decide (sent = [])
  payloads : (written log).map (fun w => w.1.drop 12) = sent
  packets : ∀ k w, (written log)[k]? = some w →
    ∃ payload, RtpCarries w.1 payload (start.sequence + k) (start.timestamp + RTP_TIMESTAMP_STEP * k) (decide (k = 0))
  started : marked .playback log = playback.toList
  due : ∀ k w, (written log)[k]? = some w → PRELOAD_PACKETS ≤ k →
    ∃ time, playback = some time ∧ time + ((k : ℚ) - 9) * RTP_PACKET_SECONDS ≤ w.2
  refreshAt : ∃ answered, (marked .answered log).getLast? = some answered ∧ s.refreshAt = answered + OPEN_REFRESH_SECONDS
  timely : Justified Timely log
  unclosed : ∀ m ∈ log, ∀ begun, ¬m.Closes begun

namespace Paced

variable {start : RtpStart} {s s' : RtspTalkSession} {log : List TalkMoment} {playback : Option ℚ} {sent : List Bytes}

theorem length_written (h : Paced start s log playback sent) : (written log).length = sent.length := by
  rw [← h.payloads, List.length_map]

theorem quiet (h : Paced start s log playback sent) {m : TalkMoment} (hmedia : m.media? = none)
    (hplayback : m.mark? .playback = none) (hanswered : m.mark? .answered = none) (hclose : ∀ begun, ¬m.Closes begun)
    (htimely : Timely log m) (hkept : s' = { s with wire := s'.wire }) : Paced start s' (log ++ [m]) playback sent := by
  have hwritten : written (log ++ [m]) = written log := by simp [written, hmedia]
  have hmarked : marked .playback (log ++ [m]) = marked .playback log := by simp [marked, hplayback]
  have hanswers : marked .answered (log ++ [m]) = marked .answered log := by simp [marked, hanswered]
  rw [hkept]
  refine ⟨h.opened, h.sequence, h.timestamp, h.first, ?_, ?_, ?_, ?_, ?_, h.timely.snoc htimely, ?_⟩
  · rw [hwritten]
    exact h.payloads
  · rw [hwritten]
    exact h.packets
  · rw [hmarked]
    exact h.started
  · rw [hwritten]
    exact h.due
  · rw [hanswers]
    exact h.refreshAt
  · intro m' hm'
    rcases List.mem_append.mp hm' with hm' | hm'
    · exact h.unclosed m' hm'
    · rw [List.mem_singleton.mp hm']
      exact hclose

theorem send (h : Paced start s log playback sent) (time : ℚ) : Paced start s (log ++ [.mark .send time]) playback sent := by
  refine h.quiet rfl rfl rfl ?_ ⟨fun hmedia => absurd rfl hmedia, fun hmark => absurd rfl hmark, fun _ hnone => ?_⟩ rfl
  · rintro begun ⟨event, ended, ⟨⟩, -⟩
  · obtain ⟨answered, hanswered, -⟩ := h.refreshAt
    rw [hnone] at hanswered
    cases hanswered

theorem play (h : Paced start s log none sent) (time : ℚ) :
    Paced start s (log ++ [.mark .playback time]) (some time) sent := by
  have hwritten : written (log ++ [.mark .playback time]) = written log := by simp [written, TalkMoment.media?]
  have hanswers : marked .answered (log ++ [.mark .playback time]) = marked .answered log := by
    simp [marked, TalkMoment.mark?]
  refine ⟨h.opened, h.sequence, h.timestamp, h.first, ?_, ?_, ?_, ?_, ?_, h.timely.snoc (timely_quiet rfl rfl rfl log), ?_⟩
  · rw [hwritten]
    exact h.payloads
  · rw [hwritten]
    exact h.packets
  · rw [marked_append, h.started]
    rfl
  · rw [hwritten]
    intro k w hw hk
    obtain ⟨_, ⟨⟩, -⟩ := h.due k w hw hk
  · rw [hanswers]
    exact h.refreshAt
  · intro m hm
    rcases List.mem_append.mp hm with hm | hm
    · exact h.unclosed m hm
    · rw [List.mem_singleton.mp hm]
      rintro begun ⟨event, ended, ⟨⟩, -⟩

theorem grant (h : Paced start s log playback sent) {m : TalkMoment} (hgranted : m.Granted) (answered : ℚ)
    (hkept : s' = { s with wire := s'.wire, refreshAt := answered + OPEN_REFRESH_SECONDS }) :
    Paced start s' (log ++ [m] ++ [.mark .answered answered]) playback sent := by
  have hopen : Paced start s (log ++ [m]) playback sent :=
    h.quiet hgranted.idle.media (hgranted.idle.mark _) (hgranted.idle.mark _) hgranted.idle.not_closes
      (timely_quiet hgranted.idle.media (hgranted.idle.mark _) (hgranted.idle.mark _) log) rfl
  have hwritten : written (log ++ [m] ++ [.mark .answered answered]) = written (log ++ [m]) := by
    rw [written_append]
    exact List.append_nil _
  have hmarked : marked .playback (log ++ [m] ++ [.mark .answered answered]) = marked .playback (log ++ [m]) := by
    rw [marked_append]
    exact List.append_nil _
  rw [hkept]
  refine ⟨hopen.opened, hopen.sequence, hopen.timestamp, hopen.first, ?_, ?_, ?_, ?_, ⟨answered, ?_, rfl⟩,
    hopen.timely.snoc ⟨fun hmedia => absurd rfl hmedia, fun _ => ⟨log, m, rfl, hgranted⟩, fun hmark => absurd rfl hmark⟩, ?_⟩
  · rw [hwritten]
    exact hopen.payloads
  · rw [hwritten]
    exact hopen.packets
  · rw [hmarked]
    exact hopen.started
  · rw [hwritten]
    exact hopen.due
  · rw [marked_append]
    exact List.getLast?_concat
  · intro m' hm'
    rcases List.mem_append.mp hm' with hm' | hm'
    · exact hopen.unclosed m' hm'
    · rw [List.mem_singleton.mp hm']
      rintro begun ⟨event, ended, ⟨⟩, -⟩

theorem packet (h : Paced start s log playback sent) {payload packet : Bytes}
    (hpack : packRtp payload s.sequence s.timestamp s.ssrc s.firstPacket = .ok packet) {session channel : Nat}
    {raised : Bool} {begun ended sendBegun : ℚ} (hsend : (marked .send log).getLast? = some sendBegun)
    (hfresh : sendBegun < s.refreshAt)
    (hdue : PRELOAD_PACKETS ≤ sent.length →
      ∃ time, playback = some time ∧ time + ((sent.length : ℚ) - 9) * RTP_PACKET_SECONDS ≤ begun)
    (hkept : s' = { s with
      wire := s'.wire
      firstPacket := false
      sequence := (s.sequence + 1) % 0x10000
      timestamp := (s.timestamp + RTP_TIMESTAMP_STEP) % 0x100000000 }) :
    Paced start s' (log ++ [.wire (.media session channel packet raised) begun ended]) playback (sent ++ [payload]) := by
  have hcarries := packRtp_carries hpack
  have hwritten : written (log ++ [.wire (.media session channel packet raised) begun ended]) =
      written log ++ [(packet, begun)] := written_append ..
  have hmarked (mark : TalkMark) : marked mark (log ++ [.wire (.media session channel packet raised) begun ended]) =
      marked mark log := by simp [marked, TalkMoment.mark?]
  have hlast {k : Nat} {w : Bytes × ℚ} (hw : (written log ++ [(packet, begun)])[k]? = some w) :
      (written log)[k]? = some w ∨ k = sent.length ∧ w = (packet, begun) := by
    rw [List.getElem?_append] at hw
    split at hw
    · exact .inl hw
    · next hk =>
      rw [List.getElem?_singleton] at hw
      split at hw
      · next hzero =>
        cases hw
        have hcount := h.length_written
        exact .inr ⟨by omega, rfl⟩
      · cases hw
  have hsequence := h.sequence
  have htimestamp := h.timestamp
  rw [hkept]
  refine ⟨h.opened, ?_, ?_, by simp, ?_, ?_, ?_, ?_, ?_, h.timely.snoc ⟨fun _ => ?_, fun hmark => absurd rfl hmark, fun hmark => absurd rfl hmark⟩, ?_⟩
  · rw [List.length_append, List.length_singleton]
    change (s.sequence + 1) % 0x10000 % 0x10000 = _
    omega
  · rw [List.length_append, List.length_singleton]
    simp only [RTP_TIMESTAMP_STEP] at htimestamp ⊢
    omega
  · rw [hwritten, List.map_append, h.payloads, List.map_singleton, hcarries.payload]
  · rw [hwritten]
    intro k w hw
    rcases hlast hw with hw | ⟨rfl, rfl⟩
    · exact h.packets k w hw
    · refine ⟨payload, hcarries.payload, ?_, ?_, ?_⟩
      · rw [hcarries.sequence, hsequence]
      · rw [hcarries.timestamp, htimestamp]
      · rw [hcarries.marker, h.first]
        simp [List.length_eq_zero_iff]
  · rw [hmarked]
    exact h.started
  · rw [hwritten]
    intro k w hw hk
    rcases hlast hw with hw | ⟨rfl, rfl⟩
    · exact h.due k w hw hk
    · exact hdue hk
  · rw [hmarked]
    exact h.refreshAt
  · obtain ⟨answered, hanswered, hrefresh⟩ := h.refreshAt
    exact ⟨sendBegun, answered, hsend, hanswered, by rw [← hrefresh]; exact hfresh⟩
  · intro m hm
    rcases List.mem_append.mp hm with hm | hm
    · exact h.unclosed m hm
    · rw [List.mem_singleton.mp hm]
      rintro begun' ⟨event, ended', ⟨⟩, hclose⟩
      cases hclose

end Paced

/-! ## Steps of the session -/

theorem RtspTalkSession.write_ok {env : RtspEnv} {payload : Bytes} {s s' : RtspTalkSession}
    (h : s.write env payload = (.ok (), s')) :
    ∃ packet, packRtp payload s.sequence s.timestamp s.ssrc s.firstPacket = .ok packet ∧
      s'.wire.log = s.wire.log ++ [.media s.session RTP_CHANNEL packet false] ∧
      s' = { s with
        wire := s'.wire
        firstPacket := false
        sequence := (s.sequence + 1) % 0x10000
        timestamp := (s.timestamp + RTP_TIMESTAMP_STEP) % 0x100000000 } := by
  unfold write at h
  split at h
  · cases h
  · next packet hpack =>
    dsimp only [RtspWire.media] at h
    split at h
    · cases h
    · next hraised =>
      rw [Bool.not_eq_true] at hraised
      obtain ⟨-, rfl⟩ := Prod.mk.inj h
      refine ⟨packet, hpack, ?_, rfl⟩
      rw [← hraised]
      rfl

namespace PacedTalk

variable {env : RtspEnv} {clock : TalkClock} {t u : PacedTalk}

theorem outside_granted (h : t.outside clock (RtspTalkSession.control env .open) = (.ok (), u)) :
    ∃ m : TalkMoment, m.Granted ∧ u.log = t.log ++ [m] ∧ u.session = { t.session with wire := u.session.wire } ∧ t.now ≤ u.now := by
  have hadds : (t.session.control env .open).2.wire.log = t.session.wire.log ++
      [.request t.session.session "USER_CMD_SET" (some .open) (env.answer t.session.wire.requests)] := by
    rw [RtspTalkSession.control_snd]
    rfl
  have hone := outside_eq clock t (RtspTalkSession.control env .open) hadds
  rw [hone] at h
  obtain ⟨hok, rfl⟩ := Prod.mk.inj h
  obtain ⟨r, hanswer, hstatus⟩ := (RtspTalkSession.control_ok env .open t.session).mp hok
  refine ⟨_, ⟨_, r, _, _, by rw [hanswer], hstatus⟩, rfl, ?_, le_read clock t⟩
  rw [RtspTalkSession.control_snd]
  rfl

theorem outside_written {payload : Bytes} (h : t.outside clock (RtspTalkSession.write env payload) = (.ok (), u)) :
    ∃ packet session channel raised ended,
      packRtp payload t.session.sequence t.session.timestamp t.session.ssrc t.session.firstPacket = .ok packet ∧
      u.log = t.log ++ [.wire (.media session channel packet raised) t.now ended] ∧ t.now ≤ u.now ∧
      u.session = { t.session with
        wire := u.session.wire
        firstPacket := false
        sequence := (t.session.sequence + 1) % 0x10000
        timestamp := (t.session.timestamp + RTP_TIMESTAMP_STEP) % 0x100000000 } := by
  cases hwrite : t.session.write env payload with
  | mk out s' =>
  cases out with
  | error fault =>
    have hfault : (t.outside clock (RtspTalkSession.write env payload)).1 = .error fault := congrArg Prod.fst hwrite
    rw [h] at hfault
    cases hfault
  | ok done =>
    obtain ⟨packet, hpack, hlog, hkept⟩ := RtspTalkSession.write_ok hwrite
    have hone := outside_eq clock t (RtspTalkSession.write env payload) (by rw [hwrite]; exact hlog)
    rw [hone, hwrite] at h
    obtain ⟨-, rfl⟩ := Prod.mk.inj h
    exact ⟨packet, _, _, _, _, hpack, rfl, le_read clock t, hkept⟩

variable {start : RtpStart} {playback : Option ℚ} {sent : List Bytes}

/-- The refresh of a packet: its send begins less than the refresh after the last answer. -/
theorem refresh_paced {begun : ℚ} (h : Paced start t.session t.log playback sent)
    (hsend : (marked .send t.log).getLast? = some begun) (hbegun : begun ≤ t.now)
    (heq : t.refresh env clock = (.ok (), u)) :
    Paced start u.session u.log playback sent ∧ (marked .send u.log).getLast? = some begun ∧
      begun < u.session.refreshAt ∧ t.now ≤ u.now := by
  have hread := le_read clock t
  unfold refresh at heq
  dsimp only at heq
  split at heq
  · next hearly =>
    obtain ⟨-, rfl⟩ := Prod.mk.inj heq
    have hnow : (t.read clock).1 = (t.read clock).2.now := rfl
    refine ⟨h, hsend, ?_, hread⟩
    linarith
  · split at heq
    · cases heq
    · next v hcontrol =>
      obtain ⟨m, hgranted, hlog, hkept, hnow⟩ := outside_granted hcontrol
      obtain ⟨-, rfl⟩ := Prod.mk.inj heq
      have hread' := le_read clock (t.read clock).2
      have hread'' := le_read clock v
      have hread''' := le_read clock (v.read clock).2
      have hlater : t.now ≤ ((v.read clock).2.granted clock).now := by
        change t.now ≤ ((v.read clock).2.read clock).2.now
        linarith
      have hpaced : Paced start ((v.read clock).2.granted clock).session _ playback sent :=
        h.grant hgranted (((v.read clock).2.read clock).1)
        (congrArg (fun s : RtspTalkSession => { s with
          refreshAt := ((v.read clock).2.read clock).1 + OPEN_REFRESH_SECONDS }) hkept)
      rw [show ((v.read clock).2.granted clock).log = t.log ++ [m] ++ [.mark .answered ((v.read clock).2.read clock).1] from
        congrArg (· ++ _) hlog]
      refine ⟨hpaced, ?_, ?_, hlater⟩
      · have hmark : marked .send [m] = [] := by simp [marked, hgranted.idle.mark]
        rw [marked_append, marked_append, hmark, List.append_nil]
        exact (congrArg List.getLast? (List.append_nil _)).trans hsend
      · change begun < ((v.read clock).2.read clock).2.now + OPEN_REFRESH_SECONDS
        unfold OPEN_REFRESH_SECONDS
        linarith

/-- A packet, whose send has begun. -/
theorem sendPcm_paced {begun : ℚ} {payload : Bytes} (h : Paced start t.session t.log playback sent)
    (hsend : (marked .send t.log).getLast? = some begun) (hbegun : begun ≤ t.now)
    (hdue : PRELOAD_PACKETS ≤ sent.length →
      ∃ time, playback = some time ∧ time + ((sent.length : ℚ) - 9) * RTP_PACKET_SECONDS ≤ t.now)
    (heq : t.sendPcm env clock payload = (.ok (), u)) :
    Paced start u.session u.log playback (sent ++ [payload]) := by
  unfold sendPcm at heq
  split at heq
  · cases heq
  split at heq
  · cases heq
  next v hrefresh =>
  obtain ⟨hpaced, hsend', hfresh, hnow⟩ := refresh_paced h hsend hbegun hrefresh
  unfold write at heq
  split at heq
  · cases heq
  dsimp only at heq
  obtain ⟨hok, rfl⟩ := Prod.mk.inj heq
  obtain ⟨packet, session, channel, raised, ended, hpack, hlog, -, hkept⟩ :=
    outside_written (Prod.ext hok rfl : (v.read clock).2.outside clock (RtspTalkSession.write env payload) = (.ok (), _))
  have hread := le_read clock v
  rw [read_session, read_log, hlog]
  refine hpaced.packet hpack hsend' hfresh (fun hmany => ?_) hkept
  obtain ⟨time, hplayback, hdeadline⟩ := hdue hmany
  exact ⟨time, hplayback, by linarith⟩

/-! ## The message -/

/-- The loop of `send_pending`: everything pending is sent, each packet when it is due. -/
theorem sendPending_paced {preload : Bool} {time : ℚ} {pending : List Bytes} {sentPackets n : Nat}
    (h : Paced start t.session t.log (some time) sent) (hcount : sentPackets = sent.length)
    (heq : t.sendPending env clock preload time pending sentPackets = (.ok n, u)) :
    Paced start u.session u.log (some time) (sent ++ pending) ∧ n = (sent ++ pending).length := by
  induction pending generalizing t sent sentPackets with
  | nil =>
    unfold sendPending at heq
    obtain ⟨hn, rfl⟩ := Prod.mk.inj heq
    cases hn
    rw [List.append_nil]
    exact ⟨h, hcount⟩
  | cons payload pending ih =>
    unfold sendPending at heq
    dsimp only at heq
    generalize hwaited : (if (!preload) = true ∨ PRELOAD_PACKETS ≤ sentPackets then
      t.sleepUntil clock (time + (sentPackets - PRELOAD_PACKETS + 1) * RTP_PACKET_SECONDS) else t) = v at heq
    have hsame : v.session = t.session ∧ v.log = t.log := by
      rw [← hwaited]
      split
      · exact ⟨sleepUntil_session .., sleepUntil_log ..⟩
      · exact ⟨rfl, rfl⟩
    have hdue (hmany : PRELOAD_PACKETS ≤ sent.length) :
        ∃ start, some time = some start ∧ start + ((sent.length : ℚ) - 9) * RTP_PACKET_SECONDS ≤ v.now := by
      refine ⟨time, rfl, ?_⟩
      have hle := le_sleepUntil clock t (time + (sentPackets - PRELOAD_PACKETS + 1) * RTP_PACKET_SECONDS)
      rw [if_pos (.inr (hcount ▸ hmany))] at hwaited
      rw [hwaited, hcount] at hle
      unfold PRELOAD_PACKETS at hle
      push_cast at hle
      linarith
    have hpaced : Paced start v.session v.log (some time) sent := by
      rw [hsame.1, hsame.2]
      exact h
    split at heq
    · cases heq
    next w hpcm =>
    have hnow := le_read clock v
    have hsent := sendPcm_paced (t := (v.note clock .send).2) (hpaced.send (v.read clock).1)
      (by rw [show (v.note clock .send).2.log = v.log ++ [.mark .send (v.read clock).1] from rfl, marked_append]
          exact List.getLast?_concat)
      le_rfl
      (fun hmany => by
        obtain ⟨start, hstart, hle⟩ := hdue hmany
        exact ⟨start, hstart, hle.trans hnow⟩)
      hpcm
    obtain ⟨hall, hn⟩ := ih (t := (w.read clock).2) hsent (by rw [hcount, List.length_append, List.length_singleton]) heq
    rw [List.append_assoc] at hall hn
    exact ⟨hall, hn⟩

/-- The chunks taken have been sent, but for what is pending. -/
structure Delivering (start : RtpStart) (t : PacedTalk) (d : PacedDelivery) (taken sent : List Bytes) : Prop where
  paced : Paced start t.session t.log d.playbackStarted sent
  sentPackets : d.sentPackets = sent.length
  payloads : (sent ++ d.pending).flatten = taken.flatten
  packets : (sent ++ d.pending).length = 2 * taken.length
  unstarted : d.playbackStarted = none → sent = []
  requested : d.requestedFrames = taken.length
  frames : d.pending = [] → d.sentFrames = d.requestedFrames

theorem playbackFrom_paced (h : Paced start t.session t.log playback sent) :
    Paced start (t.playbackFrom clock playback).2.session (t.playbackFrom clock playback).2.log
      (some (t.playbackFrom clock playback).1) sent := by
  cases playback with
  | some time => exact h
  | none => exact h.play _

theorem flush_delivering {preload : Bool} {d d' : PacedDelivery} {taken : List Bytes} (h : Delivering start t d taken sent)
    (heq : t.flush env clock preload d = (.ok d', u)) :
    d'.pending = [] ∧ Delivering start u d' taken (sent ++ d.pending) := by
  unfold flush at heq
  dsimp only at heq
  split at heq
  · cases heq
  next n w hpending =>
  obtain ⟨hsent, hn⟩ := sendPending_paced (playbackFrom_paced h.paced) h.sentPackets hpending
  obtain ⟨hd, rfl⟩ := Prod.mk.inj heq
  cases hd
  refine ⟨rfl, hsent, hn, ?_, ?_, by simp, h.requested, fun _ => rfl⟩
  · rw [List.append_nil]
    exact h.payloads
  · rw [List.append_nil]
    exact h.packets

theorem halves {chunk : Bytes} (h : chunk.length = RTSP_PCM_FRAME_BYTES) :
    [chunk.slice 0 RTP_PAYLOAD_BYTES, chunk.slice RTP_PAYLOAD_BYTES RTP_PAYLOAD_BYTES].flatten = chunk := by
  have hrest : (chunk.drop RTP_PAYLOAD_BYTES).length ≤ RTP_PAYLOAD_BYTES := by
    rw [List.length_drop, h]
    decide
  rw [List.flatten_cons, List.flatten_cons, List.flatten_nil, List.append_nil, Bytes.slice, Bytes.slice, List.drop_zero,
    List.take_of_length_le hrest, List.take_append_drop]

/-- The loop over the chunks. -/
theorem sendAll_delivering {chunks : List Bytes} {d d' : PacedDelivery} {taken : List Bytes} {fails : Bool}
    (h : Delivering start t d taken sent) (heq : t.sendAll env clock fails chunks d = (.ok d', u)) :
    d'.pending = [] ∧ ∃ sent', Delivering start u d' (taken ++ chunks) sent' := by
  induction chunks generalizing t d taken sent with
  | nil =>
    unfold sendAll at heq
    rw [List.append_nil]
    split at heq
    · cases heq
    split at heq
    · next hpending =>
      obtain ⟨hd, rfl⟩ := Prod.mk.inj heq
      cases hd
      exact ⟨hpending, sent, h⟩
    · obtain ⟨hpending, hdelivering⟩ := flush_delivering h heq
      exact ⟨hpending, _, hdelivering⟩
  | cons chunk chunks ih =>
    unfold sendAll at heq
    split at heq
    · cases heq
    next hlength =>
    rw [ne_eq, not_not] at hlength
    dsimp only at heq
    have htaken : Delivering start t { d with
        requestedFrames := d.requestedFrames + 1
        pending := d.pending ++ [chunk.slice 0 RTP_PAYLOAD_BYTES, chunk.slice RTP_PAYLOAD_BYTES RTP_PAYLOAD_BYTES] }
        (taken ++ [chunk]) sent := by
      refine ⟨h.paced, h.sentPackets, ?_, ?_, h.unstarted, ?_, by simp⟩
      · rw [← List.append_assoc, List.flatten_append, h.payloads, halves hlength, List.flatten_append,
          List.flatten_singleton]
      · rw [← List.append_assoc, List.length_append, h.packets, List.length_append, List.length_singleton]
        simp only [List.length_cons, List.length_nil]
        omega
      · rw [List.length_append, h.requested, List.length_singleton]
    rw [← List.singleton_append, ← List.append_assoc]
    split at heq
    · exact ih htaken heq
    · split at heq
      · cases heq
      next d'' v hflush =>
      obtain ⟨-, hdelivering⟩ := flush_delivering htaken hflush
      exact ih hdelivering heq

/-! ## The opening -/

/-- A session that has sent nothing, and has only asked. -/
structure Asking (start : RtpStart) (t : PacedTalk) : Prop where
  sequence : t.session.sequence = start.sequence
  timestamp : t.session.timestamp = start.timestamp
  first : t.session.firstPacket = true
  idle : ∀ m ∈ t.log, m.Idle

theorem outside_asking (clock : TalkClock) {α : Type} {step : RtspTalkSession → α × RtspTalkSession} (h : Asking start t)
    (hasks : RtspTalkSession.Asks t.session (step t.session).2) : Asking start (t.outside clock step).2 := by
  obtain ⟨-, hsession, -, moments, hlog, hmoments⟩ := outside_adds clock t hasks.adds
  have hkept := hasks.kept
  refine ⟨?_, ?_, ?_, fun m hm => ?_⟩
  · rw [hsession, hkept]
    exact h.sequence
  · rw [hsession, hkept]
    exact h.timestamp
  · rw [hsession, hkept]
    exact h.first
  · rw [hlog] at hm
    rcases List.mem_append.mp hm with hm | hm
    · exact h.idle m hm
    · obtain ⟨e, ⟨session, method, answer, rfl⟩, begun, ended, rfl, -⟩ := hmoments m hm
      exact TalkMoment.idle_wire begun ended rfl (by simp [RtspEvent.command?])

theorem reconnect_ok {s s' : RtspTalkSession} (h : reconnect env s = (.ok (), s')) :
    ∃ session r, s'.wire.log = s.wire.log ++
        [.shut s.session, .request session "USER_CMD_SET" (some .open) (.response r)] ∧ r.status = 200 ∧
      s' = { s with wire := s'.wire, session := s'.session, challenged := s'.challenged } := by
  unfold reconnect RtspWire.connect at h
  dsimp only at h
  cases hreachable : env.unreachable (s.wire.note (.shut s.session)).connects with
  | true =>
    rw [hreachable, if_pos rfl] at h
    cases h
  | false =>
    rw [hreachable, if_neg Bool.false_ne_true] at h
    obtain ⟨rfl, r, hanswer, hstatus⟩ := RtspTalkSession.control_granted h
    refine ⟨(s.wire.note (.shut s.session)).connects, r, ?_, hstatus, rfl⟩
    rw [← hanswer]
    exact List.append_assoc ..

/-- The first OPEN is granted. -/
theorem Asking.paced {s : RtspTalkSession} {log : List TalkMoment} {m : TalkMoment} (hidle : ∀ m ∈ log, m.Idle)
    (hgranted : m.Granted) (answered : ℚ) (hopened : s.opened = true) (hsequence : s.sequence = start.sequence)
    (htimestamp : s.timestamp = start.timestamp) (hfirst : s.firstPacket = true)
    (hrefresh : s.refreshAt = answered + OPEN_REFRESH_SECONDS) :
    Paced start s (log ++ [m] ++ [.mark .answered answered]) none [] := by
  have hall : ∀ m' ∈ log ++ [m], m'.Idle := by
    intro m' hm'
    rcases List.mem_append.mp hm' with hm' | hm'
    · exact hidle m' hm'
    · rw [List.mem_singleton.mp hm']
      exact hgranted.idle
  have hwritten : written (log ++ [m]) = [] := List.filterMap_eq_nil_iff.mpr fun m' hm' => (hall m' hm').media
  have hmarked (mark : TalkMark) : marked mark (log ++ [m]) = [] :=
    List.filterMap_eq_nil_iff.mpr fun m' hm' => (hall m' hm').mark mark
  have hnone : written (log ++ [m] ++ [.mark .answered answered]) = [] := by
    rw [written_append, hwritten]
    rfl
  have htimely : Justified Timely (log ++ [m]) := by
    intro before m' after hsplit
    have hm' := hall m' (by rw [hsplit]; simp)
    exact timely_quiet hm'.media (hm'.mark _) (hm'.mark _) before
  refine ⟨hopened, by rw [hsequence]; rfl, by rw [htimestamp]; rfl, hfirst, by rw [hnone]; rfl, ?_, ?_, ?_, ⟨answered, ?_, hrefresh⟩,
    htimely.snoc ⟨fun hmedia => absurd rfl hmedia, fun _ => ⟨log, m, rfl, hgranted⟩, fun hmark => absurd rfl hmark⟩, ?_⟩
  · rw [hnone]
    simp
  · rw [marked_append, hmarked]
    rfl
  · rw [hnone]
    simp
  · rw [marked_append, hmarked]
    rfl
  · intro m' hm'
    rcases List.mem_append.mp hm' with hm' | hm'
    · exact (hall m' hm').not_closes
    · rw [List.mem_singleton.mp hm']
      rintro begun ⟨event, ended, ⟨⟩, -⟩

theorem open_paced {camera : RtspCamera} (h : Asking start t) (heq : t.open_ env clock camera = (.ok (), u)) :
    Paced start u.session u.log none [] := by
  unfold open_ at heq
  split at heq
  · cases heq
  next v hdescribe =>
  have hdescribed := outside_asking clock h (RtspTalkSession.describe_asks env camera t.session)
  rw [hdescribe] at hdescribed
  split at heq
  · cases heq
  next w hoptions =>
  have hoffered := outside_asking clock hdescribed (RtspTalkSession.options_asks env v.session).1
  rw [hoptions] at hoffered
  split at heq
  · cases heq
  next x hreconnect =>
  obtain ⟨-, rfl⟩ := Prod.mk.inj heq
  cases hstep : reconnect env w.session with
  | mk out s =>
  cases out with
  | error fault =>
    have hfault : (w.outside clock (reconnect env)).1 = .error fault := congrArg Prod.fst hstep
    rw [hreconnect] at hfault
    cases hfault
  | ok done =>
    obtain ⟨session, r, hlog, hstatus, hkept⟩ := reconnect_ok hstep
    have hout := outside_eq clock w (reconnect env) (by rw [hstep]; exact hlog)
    rw [hreconnect, hstep] at hout
    obtain ⟨-, rfl⟩ := Prod.mk.inj hout
    change Paced start _ (w.log ++ [.wire (.shut w.session.session) _ _] ++
      [.wire (.request session "USER_CMD_SET" (some .open) (.response r)) _ _] ++ [.mark .answered _]) none []
    refine Asking.paced (fun m hm => ?_) ⟨session, r, _, _, rfl, hstatus⟩ _ rfl ?_ ?_ ?_ rfl
    · rcases List.mem_append.mp hm with hm | hm
      · exact hoffered.idle m hm
      · rw [List.mem_singleton.mp hm]
        exact TalkMoment.idle_wire _ _ rfl (by simp [RtspEvent.command?])
    · change s.sequence = _
      rw [hkept]
      exact hoffered.sequence
    · change s.timestamp = _
      rw [hkept]
      exact hoffered.timestamp
    · change s.firstPacket = _
      rw [hkept]
      exact hoffered.first

/-! ## What a message has done -/

/-- A send that begins as long as the refresh after the last of these answers, or later, has
an OPEN granted before its packet is written. -/
def RefreshedFrom (answer : TalkMoment → Option ℚ) (log : List TalkMoment) : Prop :=
  ∀ (before : List TalkMoment) (begun : ℚ) (between : List TalkMoment) (m : TalkMoment) (after : List TalkMoment),
    log = before ++ .mark .send begun :: (between ++ m :: after) → m.media? ≠ none →
    marked .send between = [] → ∀ answered, (before.filterMap answer).getLast? = some answered →
      answered + OPEN_REFRESH_SECONDS ≤ begun → ∃ g ∈ between, g.Granted

/-- All chunks have been sent exactly once, in order and paced. -/
structure Talkback (start : RtpStart) (chunks : List Bytes) (log : List TalkMoment) (result : AudioMessageResult)
    (playback : ℚ) : Prop where
  started : marked .playback log = [playback]
  payloads : ((written log).map fun w => w.1.drop 12).flatten = chunks.flatten
  packets : ∀ k w, (written log)[k]? = some w →
    ∃ payload, RtpCarries w.1 payload (start.sequence + k) (start.timestamp + RTP_TIMESTAMP_STEP * k) (decide (k = 0))
  due : ∀ k w, (written log)[k]? = some w → PRELOAD_PACKETS ≤ k → playback + ((k : ℚ) - 9) * RTP_PACKET_SECONDS ≤ w.2
  begun : ∀ (before : List TalkMoment) (m : TalkMoment) (after : List TalkMoment), log = before ++ m :: after → m.media? ≠ none →
    ∃ (earlier : List TalkMoment) (time : ℚ) (between : List TalkMoment), before = earlier ++ .mark .send time :: between ∧ marked .send between = [] ∧
      marked .answered earlier ≠ []
  refreshed : RefreshedFrom (TalkMoment.mark? .answered) log
  drained : ∀ m ∈ log, ∀ time, m.Closes time → playback + (written log).length * RTP_PACKET_SECONDS ≤ time
  requested : result.requestedFrames = chunks.length
  sent : result.sentFrames = chunks.length

/-- Where the last send began. -/
theorem split_send {before : List TalkMoment} {time : ℚ} (h : (marked .send before).getLast? = some time) :
    ∃ earlier between : List TalkMoment, before = earlier ++ .mark .send time :: between ∧ marked .send between = [] := by
  induction before using List.reverseRecOn with
  | nil => cases h
  | append_singleton before m ih =>
    rw [marked_append] at h
    cases hmark : m.mark? .send with
    | none =>
      have hnone : marked .send [m] = [] := by simp [marked, hmark]
      rw [hnone, List.append_nil] at h
      obtain ⟨earlier, between, rfl, hbetween⟩ := ih h
      refine ⟨earlier, between ++ [m], by simp, ?_⟩
      rw [marked_append, hbetween, hnone]
      rfl
    | some last =>
      have hsome : marked .send [m] = [last] := by simp [marked, hmark]
      rw [hsome, List.getLast?_concat] at h
      cases h
      refine ⟨before, [], ?_, rfl⟩
      cases m with
      | wire event begun ended => cases hmark
      | mark kind reading =>
        rw [TalkMoment.mark?] at hmark
        split at hmark
        · next hsend => rw [hsend, Option.some.inj hmark]
        · cases hmark

theorem refreshed_of_timely {log : List TalkMoment} (h : Justified Timely log) :
    RefreshedFrom (TalkMoment.mark? .answered) log := by
  intro before begun between m after hsplit hmedia hbetween answered hanswered hlate
  have hwhole : log = (before ++ .mark .send begun :: between) ++ m :: after := by rw [hsplit]; simp
  obtain ⟨begun', answered', hsend', hanswered', hearly⟩ := (h _ _ _ hwhole).1 hmedia
  have hsends : marked .send (before ++ .mark .send begun :: between) = marked .send before ++ [begun] := by
    rw [marked_append, ← List.singleton_append, marked_append, hbetween, List.append_nil]
    rfl
  have hanswers : marked .answered (before ++ .mark .send begun :: between) =
      marked .answered before ++ marked .answered between := by
    rw [marked_append, ← List.singleton_append, marked_append]
    rfl
  rw [hsends, List.getLast?_concat, Option.some.injEq] at hsend'
  subst hsend'
  rw [hanswers] at hanswered'
  have hnew : marked .answered between ≠ [] := by
    intro hnone
    rw [hnone, List.append_nil] at hanswered'
    rw [marked, hanswered, Option.some.injEq] at hanswered'
    subst hanswered'
    exact absurd hlate (not_le.mpr hearly)
  -- The reading is the one after the OPEN of a refresh.
  obtain ⟨time, htime⟩ := List.exists_mem_of_ne_nil _ hnew
  obtain ⟨mark, hmem, hmark⟩ := List.mem_filterMap.mp htime
  obtain ⟨first, last, rfl⟩ := List.append_of_mem hmem
  have hreading : log = (before ++ .mark .send begun :: first) ++ mark :: (last ++ m :: after) := by rw [hsplit]; simp
  obtain ⟨earlier, granted, heq, hgranted⟩ := (h _ _ _ hreading).2.1 (by rw [hmark]; simp)
  rcases List.eq_nil_or_concat' first with rfl | ⟨first, g, rfl⟩
  · obtain ⟨-, hsame⟩ := List.append_inj' heq rfl
    obtain ⟨session, r, begun', ended, hwire, -⟩ := hgranted
    rw [hwire] at hsame
    cases hsame
  · rw [← List.cons_append, ← List.append_assoc] at heq
    obtain ⟨-, hsame⟩ := List.append_inj' heq rfl
    rw [List.singleton_inj.mp hsame]
    exact ⟨granted, by simp, hgranted⟩

theorem begun_of_timely {log : List TalkMoment} (h : Justified Timely log) {before after : List TalkMoment} {m : TalkMoment}
    (hsplit : log = before ++ m :: after) (hmedia : m.media? ≠ none) :
    ∃ (earlier : List TalkMoment) (time : ℚ) (between : List TalkMoment),
      before = earlier ++ .mark .send time :: between ∧ marked .send between = [] ∧ marked .answered earlier ≠ [] := by
  obtain ⟨begun, -, hsend, -⟩ := (h _ _ _ hsplit).1 hmedia
  obtain ⟨earlier, between, rfl, hbetween⟩ := split_send hsend
  refine ⟨earlier, begun, between, rfl, hbetween, ?_⟩
  rw [List.append_assoc, List.cons_append] at hsplit
  exact (h _ _ _ hsplit).2.2 (by simp [TalkMoment.mark?])

theorem new_asking {camera : RtspCamera} {s : RtspTalkSession} {wire : RtspWire}
    (h : RtspTalkSession.new env camera start = (.ok s, wire)) (now : ℚ) : Asking start { session := s, now := now } := by
  unfold RtspTalkSession.new at h
  split at h
  · cases h
  split at h
  · cases h
  · obtain ⟨hs, -⟩ := Prod.mk.inj h
    cases hs
    exact ⟨rfl, rfl, rfl, by simp⟩

/-- The body before its `finally`: all is sent, and played. -/
theorem deliver_delivering {camera : RtspCamera} {chunks : List Bytes} {fails : Bool} {d : PacedDelivery}
    (h : Asking start t) (heq : t.deliver env clock camera chunks fails = (.ok d, u)) :
    d.pending = [] ∧ ∃ sent, Delivering start u d chunks sent ∧
      ∀ time, d.playbackStarted = some time → time + sent.length * RTP_PACKET_SECONDS ≤ u.now := by
  unfold deliver at heq
  split at heq
  · cases heq
  next v hopen =>
  split at heq
  · cases heq
  next d' w hsend =>
  obtain ⟨hd, rfl⟩ := Prod.mk.inj heq
  cases hd
  have hstart : Delivering start v {} [] [] := ⟨open_paced h hopen, rfl, rfl, rfl, fun _ => rfl, rfl, fun _ => rfl⟩
  obtain ⟨hpending, sent, hdelivering⟩ := sendAll_delivering hstart hsend
  rw [List.nil_append] at hdelivering
  refine ⟨hpending, sent, ?_, fun time htime => ?_⟩
  · unfold drain
    split
    · exact hdelivering
    · next time htime =>
      have hpaced := hdelivering.paced
      rw [← sleepUntil_session clock w (time + d.sentPackets * RTP_PACKET_SECONDS),
        ← sleepUntil_log clock w (time + d.sentPackets * RTP_PACKET_SECONDS)] at hpaced
      exact { hdelivering with paced := hpaced }
  · unfold drain
    rw [htime]
    dsimp only
    rw [← hdelivering.sentPackets]
    exact le_sleepUntil clock w _

/-- What CLOSE and what follows add to the log. -/
theorem close_moments (env : RtspEnv) (clock : TalkClock) (t : PacedTalk) :
    ∃ moments, (t.outside clock (RtspTalkSession.close env)).2.log = t.log ++ moments ∧
      ∀ m ∈ moments, m.media? = none ∧ (∀ mark, m.mark? mark = none) ∧ ∀ time, m.Closes time → t.now ≤ time := by
  obtain ⟨-, -, -, moments, hlog, hmoments⟩ := outside_adds clock t (RtspTalkSession.close_adds env t.session)
  refine ⟨moments, hlog, fun m hm => ?_⟩
  obtain ⟨e, hkind, begun, ended, rfl, hbegun⟩ := hmoments m hm
  refine ⟨?_, fun mark => rfl, ?_⟩
  · rcases hkind with ⟨session, answer, rfl⟩ | ⟨session, rfl⟩
    · rfl
    · rfl
  · rintro time ⟨event, ended', ⟨⟩, -⟩
    exact hbegun

/-- **LAN talkback delivers each chunk exactly once, in order and paced**, whatever time
everything takes. -/
theorem talkback_paced (env : RtspEnv) (clock : TalkClock) (camera : RtspCamera) (start : RtpStart) (chunks : List Bytes)
    (fails : Bool) (result : AudioMessageResult) (h : (sendChunks env clock camera start chunks fails).1 = .ok result) :
    ∃ playback, Talkback start chunks (sendChunks env clock camera start chunks fails).2 result playback := by
  unfold sendChunks at h ⊢
  cases hnew : RtspTalkSession.new env camera start with
  | mk out wire =>
  rw [hnew] at h
  cases out with
  | error fault => cases h
  | ok s =>
    dsimp only at h ⊢
    have hasking : Asking start (read clock { session := s, now := clock.start }).2 :=
      { new_asking hnew clock.start with }
    cases hdeliver : (read clock { session := s, now := clock.start }).2.deliver env clock camera chunks fails with
    | mk out u =>
    rw [hdeliver] at h
    cases out with
    | error fault => cases h
    | ok d =>
      dsimp only at h ⊢
      obtain ⟨hpending, sent, hd, hdrained⟩ := deliver_delivering hasking hdeliver
      obtain ⟨moments, hlog, hmoments⟩ := close_moments env clock u
      split at h
      · cases h
      next hsome =>
      have hresult := vet_eq h
      rw [if_neg hsome, hlog]
      dsimp only
      have hpackets := hd.packets
      have hpayloads := hd.payloads
      rw [hpending, List.append_nil] at hpackets hpayloads
      have hcount : chunks.length ≠ 0 := hd.requested ▸ hsome
      cases hplayback : d.playbackStarted with
      | none =>
        rw [hd.unstarted hplayback, List.length_nil] at hpackets
        omega
      | some playback =>
        have hpaced := hd.paced
        rw [hplayback] at hpaced
        have hwritten : written (u.log ++ moments) = written u.log := by
          rw [written_append, show written moments = [] from List.filterMap_eq_nil_iff.mpr fun m hm => (hmoments m hm).1,
            List.append_nil]
        have htimely : Justified Timely (u.log ++ moments) := hpaced.timely.append fun before m hm =>
          timely_quiet (hmoments m hm).1 ((hmoments m hm).2.1 _) ((hmoments m hm).2.1 _) before
        refine ⟨playback, ?_, ?_, ?_, ?_, fun _ _ _ => begun_of_timely htimely, refreshed_of_timely htimely, ?_, ?_, ?_⟩
        · rw [marked_append, hpaced.started,
            show marked .playback moments = [] from List.filterMap_eq_nil_iff.mpr fun m hm => (hmoments m hm).2.1 _]
          rfl
        · rw [hwritten, hpaced.payloads, hpayloads]
        · rw [hwritten]
          exact hpaced.packets
        · rw [hwritten]
          intro k w hw hk
          obtain ⟨_, ⟨⟩, hdue⟩ := hpaced.due k w hw hk
          exact hdue
        · intro m hm time hclose
          rw [hwritten, hpaced.length_written]
          rcases List.mem_append.mp hm with hm | hm
          · exact absurd hclose (hpaced.unclosed m hm time)
          · exact (hdrained playback hplayback).trans ((hmoments m hm).2.2 time hclose)
        · rw [hresult]
          exact hd.requested
        · rw [hresult]
          exact (hd.frames hpending).trans hd.requested

/-- A camera that grants everything. -/
def grantAll : RtspEnv where
  unreachable _ := false
  answer _ := .response ⟨200, "OPTIONS, DESCRIBE, USER_CMD_SET"⟩
  broken _ := false
  clock _ := 0

/-- Nothing takes any time. -/
def stillClock : TalkClock where
  start := 100
  lapse _ := 0
  lapse_nonneg _ := le_rfl

/-- Twelve packets, two of them after the preload and all numbers wrapping. -/
theorem six_chunks_paced : ∃ playback, Talkback ⟨0xFFFB, 0xFFFFFF00, 1⟩ (List.replicate 6 (Bytes.zeros 640))
    (sendChunks grantAll stillClock someCamera ⟨0xFFFB, 0xFFFFFF00, 1⟩ (List.replicate 6 (Bytes.zeros 640)) false).2
    ⟨120, 6, 6, 6, true, true, true⟩ playback :=
  talkback_paced grantAll stillClock someCamera ⟨0xFFFB, 0xFFFFFF00, 1⟩ (List.replicate 6 (Bytes.zeros 640)) false
    ⟨120, 6, 6, 6, true, true, true⟩ (by decide +kernel)

/-- A clock by which the first packet is late for a refresh, a second passes between the two
readings after its answer, and three and a half before the second packet. -/
def slowReading : TalkClock where
  start := 100
  lapse n := if n = 8 then 4 else if n = 12 then 1 else if n = 17 then 7 / 2 else 0
  lapse_nonneg n := by split_ifs <;> norm_num

/-- When an OPEN that is granted has been answered. -/
def grantedAt : TalkMoment → Option ℚ
  | .wire (.request _ _ (some .open) (.response r)) _ ended => if r.status = 200 then some ended else none
  | _ => none

/-- What happens by that clock before the second packet is sent. -/
def untilSecond : List TalkMoment :=
  [.wire (.request 0 "DESCRIBE" none (grantAll.answer 0)) 100 100,
    .wire (.request 0 "OPTIONS" none (grantAll.answer 1)) 100 100,
    .wire (.shut 0) 100 100,
    .wire (.request 1 "USER_CMD_SET" (some .open) (grantAll.answer 2)) 100 100,
    .mark .answered 100,
    .mark .playback 100,
    .mark .send 100,
    .wire (.request 1 "USER_CMD_SET" (some .open) (grantAll.answer 3)) 104 104,
    .mark .answered 105,
    .wire (.media 1 2 ([0x80, 0x88, 0xFF, 0xFF, 0, 0, 0, 0, 0, 0, 0, 1] ++ Bytes.zeros 320) false) 105 105]

def secondPacket : TalkMoment :=
  .wire (.media 1 2 ([0x80, 0x08, 0, 0, 0, 0, 0, 0xA0, 0, 0, 0, 1] ++ Bytes.zeros 320) false) (217 / 2) (217 / 2)

def afterSecond : List TalkMoment :=
  [.wire (.request 1 "USER_CMD_SET" (some .close) (grantAll.answer 4)) (217 / 2) (217 / 2),
    .wire (.shut 1) (217 / 2) (217 / 2)]

/-- The refresh is counted from a reading that comes after the answer. -/
theorem late_reading_unrefreshed : ¬ ∀ env clock camera start chunks fails result,
    (sendChunks env clock camera start chunks fails).1 = .ok result →
      RefreshedFrom grantedAt (sendChunks env clock camera start chunks fails).2 := by
  intro hall
  have hrefreshed := hall grantAll slowReading someCamera ⟨0xFFFF, 0, 1⟩ [Bytes.zeros 640] false
    ⟨20, 1, 1, 1, true, true, true⟩ (by decide +kernel)
  have hlog : (sendChunks grantAll slowReading someCamera ⟨0xFFFF, 0, 1⟩ [Bytes.zeros 640] false).2 =
      untilSecond ++ .mark .send (217 / 2) :: ([] ++ secondPacket :: afterSecond) := by
    decide +kernel
  obtain ⟨g, hg, -⟩ := hrefreshed _ _ _ _ _ hlog (by simp [secondPacket, TalkMoment.media?]) rfl 104 (by decide +kernel)
    (by decide +kernel)
  cases hg

end PacedTalk

end CamGuard.Talk
