/-
Facts about the talk sessions (`IntercomSession.lean`): the close of a session that
was started (`intercom_cleanup`). The legacy session attempts talk STOP and then AV
CLOSE whatever the socket does (`LegacyIntercomSession.close_hands`), the modern one if
and only if the flush of its pending audio raises nothing
(`ModernIntercomSession.close_hands_iff`).
-/
import CamGuard.Talk.AudioSenderFacts
import CamGuard.Talk.IntercomSession

namespace CamGuard.Talk

open CamGuard.Account CamGuard.Media TalkSocket

variable {env : TalkEnv} {t t' : TalkSocket}

/-! ## The sender in a session -/

namespace ModernAudioSender

/-- A sender that can build the packet of what is pending. -/
structure Ready (cookie : Bytes) (s : ModernAudioSender) : Prop where
  same : s.cookie = cookie
  size : cookie.length = 8
  short : s.pending.length ≤ 3
  amr : ∀ frame ∈ s.pending, AmrFrame frame
  dated : s.pending ≠ [] → s.pendingTimestampUs.isSome = true

variable {cookie : Bytes} {s : ModernAudioSender}

/-- What a flush hands over is media, and it raises with one of its `sendto` only. -/
theorem flush_spends (env : TalkEnv) (hcookie : s.cookie.length = 8) (hlength : s.pending.length ≤ 4)
    (hamr : ∀ frame ∈ s.pending, AmrFrame frame) (hdated : s.pending ≠ [] → s.pendingTimestampUs.isSome = true)
    (t : TalkSocket) : ∃ events, Spends env t ((s.flush env t).1, (s.flush env t).2.1) events ∧
      (∀ p : TalkSocket.Packet, p.event ∈ events → p.body.at_ 0 = 4) ∧ (s.flush env t).2.2.pending = [] ∧
      (s.flush env t).2.2.cookie = s.cookie := by
  rw [flush]
  split
  · rename_i hnone
    exact ⟨[], .still true rfl rfl, fun p hmem => (by cases hmem), hnone, rfl⟩
  rename_i hsome
  obtain ⟨timestamp, hstamp⟩ := Option.isSome_iff_exists.mp (hdated hsome)
  rw [hstamp]
  dsimp only
  obtain ⟨p, r, events, ⟨-, _, _, _, record, -, hmedia, -⟩, -, hoffers, -, herror, hfalse, htrue⟩ :=
    s.toAudioSender.sendPacket_cases env ⟨hsome, hlength, hamr⟩ hcookie timestamp t
  have hbodies : ∀ q : TalkSocket.Packet, q.event ∈ events → q.body.at_ 0 = 4 := by
    intro q hmem
    rcases hoffers.kinds _ hmem with heq | ⟨segment, heq⟩ | ⟨wire, heq⟩
    · have hbody : q.body = p.body := by
        cases q
        cases heq
        rfl
      rw [hbody]
      exact encryptTlv_type hmedia
    · cases heq
    · cases heq
  have hspends := hoffers.spends
  obtain ⟨answer, t'⟩ := r
  cases answer with
  | error e =>
    rw [herror e rfl]
    exact ⟨events, hspends, hbodies, rfl, rfl⟩
  | ok found =>
    cases found with
    | false =>
      rw [hfalse rfl]
      exact ⟨events, hspends, hbodies, rfl, rfl⟩
    | true =>
      rw [htrue rfl]
      exact ⟨events, hspends, hbodies, rfl, rfl⟩

theorem Ready.send (h : Ready cookie s) (env : TalkEnv) (frame : Bytes) (t : TalkSocket) :
    Ready cookie (s.send env frame t).2.2 := by
  rw [ModernAudioSender.send]
  rcases s.toAudioSender.vet_cases env "modern" frame t with ⟨-, e, he⟩ | ⟨-, -, he⟩ | ⟨hopen, -, he⟩
  · rw [he]
    exact h
  · rw [he]
    exact ⟨h.same, h.size, h.short, h.amr, h.dated⟩
  rw [he]
  dsimp only
  have hamr : ∀ other ∈ s.pending ++ [frame], AmrFrame other :=
    List.forall_mem_append.mpr ⟨h.amr, List.forall_mem_singleton.mpr hopen.2.2.2⟩
  have hcollect : (s.collect env frame { t with reads := t.reads + 1 }).2.pending = s.pending ++ [frame] ∧
      (s.collect env frame { t with reads := t.reads + 1 }).2.cookie = s.cookie ∧
      (s.collect env frame { t with reads := t.reads + 1 }).2.pendingTimestampUs.isSome = true := by
    unfold collect
    dsimp only [stampUs]
    split
    · rename_i hnone
      rw [hnone]
      exact ⟨rfl, rfl, rfl⟩
    · rename_i hsome
      exact ⟨rfl, rfl, h.dated hsome⟩
  generalize s.collect env frame { t with reads := t.reads + 1 } = collected at *
  obtain ⟨t', s'⟩ := collected
  obtain ⟨hpending, hcookie, hdated⟩ := hcollect
  dsimp only at hpending hcookie hdated ⊢
  split
  · rename_i hmore
    refine ⟨hcookie.trans h.same, h.size, ?_, hpending ▸ hamr, fun _ => hdated⟩
    simp only [AMR_FRAME_DURATION_US, NATIVE_BATCH_THRESHOLD_US] at hmore
    show s'.pending.length ≤ 3
    omega
  · have hshort := h.short
    have hlength : s'.pending.length ≤ 4 := by
      rw [hpending, List.length_append, List.length_singleton]
      omega
    obtain ⟨events, -, -, hnone, hsame⟩ := flush_spends env (by rw [hcookie, h.same, h.size]) hlength (hpending ▸ hamr)
      (fun _ => hdated) t'
    exact ⟨hsame.trans (hcookie.trans h.same), h.size, by rw [hnone]; exact Nat.zero_le 3, by simp [hnone],
      fun hne => absurd hnone hne⟩

/-- What a close hands over is media, and it raises with one of its `sendto` only. -/
theorem Ready.close_spends (h : Ready cookie s) (env : TalkEnv) (t : TalkSocket) :
    ∃ events, Spends env t ((s.close env t).1, (s.close env t).2.1) events ∧
      ∀ p : TalkSocket.Packet, p.event ∈ events → p.body.at_ 0 = 4 := by
  rw [close]
  split
  · obtain ⟨events, hspends, hbodies, -, -⟩ := flush_spends env (by rw [h.same, h.size]) (h.short.trans (by decide)) h.amr
      h.dated t
    generalize s.flush env t = flushed at *
    obtain ⟨answer, t', s'⟩ := flushed
    cases answer with
    | error e => exact ⟨events, hspends.error, hbodies⟩
    | ok answer => exact ⟨events, hspends.map, hbodies⟩
  · exact ⟨[], .still _ rfl rfl, fun p hmem => by cases hmem⟩

theorem ready_new {peer : Peer} {conv sequence : Nat} {timeout : ℚ} {maxFrames : Int} (hcookie : cookie.length = 8)
    (h : new env peer conv cookie sequence timeout maxFrames t = (.ok s, t')) : Ready cookie s := by
  obtain ⟨-, ⟨-, hsame, -, -⟩, hbooked⟩ := new_booked h
  exact ⟨hsame, hcookie, hbooked.short, hbooked.amr, hbooked.dated⟩

end ModernAudioSender

/-! ## Packets of the session -/

/-- The events hand over a packet of the first kind, and one of the second after it. -/
def StopsAndCloses (stop close : TalkSocket.Packet → Prop) (events : List TalkEvent) : Prop :=
  ∃ before p between q after, stop p ∧ close q ∧
    events = before ++ TalkSocket.Packet.event p :: between ++ TalkSocket.Packet.event q :: after

namespace IntercomControl

variable {s : IntercomControl} {peer : Peer}

/-- A packet is handed to the socket, whatever becomes of it. -/
theorem sendAndWait_hands (env : TalkEnv) (hpeer : s.peer = some peer) (conv sequence : Nat) {body : Bytes}
    (hbody : body.length ≤ 2017) {attempts : Nat} (hattempts : 0 < attempts) (t : TalkSocket) :
    ∃ p events, p.conv = conv ∧ p.body = body ∧ TalkSocket.Packet.event p ∈ events ∧
      (s.sendAndWait env conv sequence body attempts t).2.log = t.log ++ events := by
  obtain ⟨wire, hpush, -⟩ := buildPush_ok env conv sequence hbody t
  obtain ⟨events, hoffers, hsent⟩ := sendAndWait_offers env peer s.boundedTimeout ⟨conv, sequence, body, wire⟩ attempts
    { t with reads := t.reads + 1 }
  refine ⟨⟨conv, sequence, body, wire⟩, events, rfl, rfl, hsent hattempts, ?_⟩
  rw [sendAndWait, hpeer]
  dsimp only
  rw [hpush]
  exact hoffers.spends.log

/-- `finally`: the second is attempted where the first leaves off. -/
theorem stopAndClose_socket (stop close : TalkSocket → Except TalkFault Bool × TalkSocket) (t : TalkSocket) :
    (s.stopAndClose stop close t).2.1 = (close (stop t).2).2 := by
  unfold stopAndClose
  dsimp only
  split
  · rename_i heq
    rw [heq]
  · rename_i heq
    rw [heq]

theorem stopAndClose_closed (stop close : TalkSocket → Except TalkFault Bool × TalkSocket) (t : TalkSocket) :
    (s.stopAndClose stop close t).2.2.closed = s.closed := by
  unfold stopAndClose
  dsimp only
  split
  · rfl
  · rfl

/-- Both packets go out, in this order. -/
theorem stopAndClose_hands {stop close : TalkSocket → Except TalkFault Bool × TalkSocket} {isStop isClose : TalkSocket.Packet → Prop}
    (hstop : ∀ t, ∃ p events, isStop p ∧ TalkSocket.Packet.event p ∈ events ∧ (stop t).2.log = t.log ++ events)
    (hclose : ∀ t, ∃ p events, isClose p ∧ TalkSocket.Packet.event p ∈ events ∧ (close t).2.log = t.log ++ events)
    (t : TalkSocket) : ∃ events, (s.stopAndClose stop close t).2.1.log = t.log ++ events ∧
      StopsAndCloses isStop isClose events := by
  obtain ⟨p, events, hp, hmem, hlog⟩ := hstop t
  obtain ⟨q, later, hq, hmem', hlog'⟩ := hclose (stop t).2
  obtain ⟨before, between, rfl⟩ := List.append_of_mem hmem
  obtain ⟨before', after, rfl⟩ := List.append_of_mem hmem'
  refine ⟨_, ?_, ⟨before, p, between ++ before', q, after, hp, hq, rfl⟩⟩
  rw [stopAndClose_socket, hlog', hlog]
  simp only [List.append_assoc, List.cons_append]

end IntercomControl

theorem mediaTlv_ok {payload : Except String Bytes} {cookie body : Bytes} (h : mediaTlv payload cookie = .ok body) :
    cookie.length = 8 := by
  cases payload with
  | error e => cases h
  | ok payload =>
    rw [mediaTlv] at h
    cases hbuilt : encryptMediaTlv payload cookie with
    | error e =>
      rw [hbuilt] at h
      cases h
    | ok wire => exact (encryptTlv_ok hbuilt).1

/-- The two talk controls of the legacy session fit their frame. -/
theorem legacyTalk_fits {cookie : Bytes} (hcookie : cookie.length = 8) (enabled : Bool) :
    ∃ body, mediaTlv (.ok (packLegacyTalkControl enabled)) cookie = .ok body ∧ body.length ≤ 2017 := by
  have hlength : (packLegacyTalkControl enabled).length = 28 := by simp [packLegacyTalkControl]
  obtain ⟨wire, hwire⟩ := encryptTlv_fits 4 hcookie (by omega : (packLegacyTalkControl enabled).length ≤ 65531)
  refine ⟨wire, ?_, by rw [length_encryptTlv hwire, hlength]; decide⟩
  rw [mediaTlv, show encryptMediaTlv _ cookie = .ok wire from hwire]
  rfl

/-- The microphone command, once it is dated, is a TLV of type 2 that fits its frame. -/
theorem microphone_fits {cookie : Bytes} (hcookie : cookie.length = 8) (enabled : Bool) (timestampUs : Nat) :
    ∃ body, microphoneTlv enabled timestampUs cookie = .ok body ∧ body.length ≤ 2017 := by
  obtain ⟨built, hbuilt⟩ : ∃ built, buildBuiltinCommand MICROPHONE_STATE_CHANGE [if enabled then 1 else 0] 0 timestampUs =
      .ok built := by
    rw [buildBuiltinCommand, if_neg (by decide), if_neg (by decide)]
    exact ⟨_, rfl⟩
  have hsize : built.length = 9 := (parse_buildBuiltinCommand hbuilt).1
  obtain ⟨packed, hpacked⟩ : ∃ packed, packV1SequenceUserData built = .ok packed := by
    rw [packV1SequenceUserData, if_neg (by omega)]
    exact ⟨_, rfl⟩
  have hlength : packed.length = 37 := by rw [(unpack_packV1SequenceUserData hpacked).1, hsize]
  obtain ⟨wire, hwire⟩ := encryptTlv_fits 2 hcookie (by omega : packed.length ≤ 65531)
  refine ⟨wire, ?_, by rw [length_encryptTlv hwire, hlength]; decide⟩
  rw [microphoneTlv, packMicrophoneCommand, hbuilt]
  dsimp only
  rw [hpacked]
  simp only [Except.mapError]
  rw [show encryptCommandTlv packed cookie = .ok wire from hwire]

theorem microphoneTlv_ok {enabled : Bool} {timestampUs : Nat} {cookie body : Bytes}
    (h : microphoneTlv enabled timestampUs cookie = .ok body) : cookie.length = 8 ∧ body.at_ 0 = 2 := by
  unfold microphoneTlv at h
  split at h
  · cases h
  · cases h
  rename_i payload _
  cases hbuilt : encryptCommandTlv payload cookie with
  | error e =>
    rw [hbuilt] at h
    cases h
  | ok wire =>
    rw [hbuilt] at h
    cases h
    exact ⟨(encryptTlv_ok hbuilt).1, encryptTlv_type hbuilt⟩

theorem length_buildAvControl (callId action : Nat) : (buildAvControl callId action).length = 76 := by
  have hput (b v : Bytes) (off : Nat) (hb : b.length = 76) (hv : off + v.length ≤ 76) : (b.put off v).length = 76 := by
    rw [Bytes.length_put (by omega), hb]
  unfold buildAvControl
  exact hput _ _ _ (hput _ _ _ (hput _ _ _ (hput _ _ _ (Bytes.length_zeros 76) (by decide)) (by simp)) (by simp)) (by simp)

/-- What a session says of its call and its life is the same. -/
structure SameCall (s s' : IntercomControl) : Prop where
  attempt : s'.attempt = s.attempt
  peer : s'.peer = s.peer
  valid : s'.valid = s.valid
  started : s'.startCalled = s.startCalled
  closed : s'.closed = s.closed

theorem SameCall.refl (s : IntercomControl) : SameCall s s := ⟨rfl, rfl, rfl, rfl, rfl⟩

/-- A session between its start and its close. -/
structure Talking (call : CallingAttempt) (s : IntercomControl) : Prop where
  attempt : s.attempt = some call
  peer : ∃ peer, s.peer = some peer
  cookie : call.cookie.length = 8
  valid : s.valid = true
  started : s.startCalled = true
  opened : s.closed = false

theorem Talking.same {call : CallingAttempt} {s s' : IntercomControl} (h : Talking call s) (hsame : SameCall s s') :
    Talking call s' :=
  ⟨hsame.attempt.trans h.attempt, h.peer.imp fun _ hpeer => hsame.peer.trans hpeer, h.cookie, hsame.valid.trans h.valid,
    hsame.started.trans h.started, hsame.closed.trans h.opened⟩

theorem sendBuilt_ok {s : IntercomControl} {conv sequence attempts : Nat} {body : Except TalkFault Bytes} {found : Bool}
    (h : s.sendBuilt env conv sequence body attempts t = (.ok found, t')) : ∃ built, body = .ok built := by
  cases body with
  | error e => cases h
  | ok built => exact ⟨built, rfl⟩

/-! ## The legacy session -/

namespace LegacyIntercomSession

variable {s s' : LegacyIntercomSession} {call : CallingAttempt} {peer : Peer} {found : Bool}

theorem openAudio_same {cookie : Bytes} (h : s.openAudio env peer cookie t = (.ok found, t', s')) :
    SameCall s.toIntercomControl s'.toIntercomControl := by
  unfold openAudio at h
  split at h
  · cases h
  · cases h
    exact .refl _

theorem startTalk_same {cookie : Bytes} (h : s.startTalk env peer cookie t = (.ok found, t', s')) :
    SameCall s.toIntercomControl s'.toIntercomControl := by
  unfold startTalk at h
  split at h
  · cases h
  dsimp only at h
  split at h
  · have hsame := openAudio_same h
    exact ⟨hsame.attempt, hsame.peer, hsame.valid, hsame.started, hsame.closed⟩
  · cases h
    exact ⟨rfl, rfl, rfl, rfl, rfl⟩

/-- The header is sent under the cookie. -/
theorem startHeader_same {cookie : Bytes} (h : s.startHeader env peer cookie t = (.ok found, t', s')) :
    cookie.length = 8 ∧ SameCall s.toIntercomControl s'.toIntercomControl := by
  unfold startHeader at h
  split at h
  · cases h
  rename_i hsent
  obtain ⟨built, hbuilt⟩ := sendBuilt_ok hsent
  refine ⟨mediaTlv_ok hbuilt, ?_⟩
  dsimp only at h
  split at h
  · have hsame := startTalk_same h
    exact ⟨hsame.attempt, hsame.peer, hsame.valid, hsame.started, hsame.closed⟩
  · cases h
    exact ⟨rfl, rfl, rfl, rfl, rfl⟩

theorem start_talking (h : s.start env t = (.ok true, t', s')) : ∃ call, Talking call s'.toIntercomControl := by
  unfold start at h
  split at h
  · cases h
  rename_i hclosed
  split at h
  · cases h
  dsimp only at h
  split at h
  · cases h
  rename_i hvalid
  split at h
  · rename_i call peer hattempt hpeer
    split at h
    · cases h
    split at h
    · obtain ⟨hcookie, hsame⟩ := startHeader_same h
      exact ⟨call, hsame.attempt.trans hattempt, ⟨peer, hsame.peer.trans hpeer⟩, hcookie,
        hsame.valid.trans (by simpa using hvalid), hsame.started, hsame.closed.trans (by simpa using hclosed)⟩
    · cases h
  · cases h

theorem sendAudioFrame_same (env : TalkEnv) (frame : Bytes) (t : TalkSocket) (s : LegacyIntercomSession) :
    SameCall s.toIntercomControl (s.sendAudioFrame env frame t).2.2.toIntercomControl := by
  unfold sendAudioFrame
  split
  · exact .refl _
  split
  · exact .refl _
  split
  · exact .refl _
  · exact .refl _

/-- The frames of a session, one after another; answers and exceptions go to the caller. -/
def talk (env : TalkEnv) (frames : List Bytes) (x : TalkSocket × LegacyIntercomSession) :
    TalkSocket × LegacyIntercomSession :=
  frames.foldl (fun x frame => (x.2.sendAudioFrame env frame x.1).2) x

theorem talk_talking (env : TalkEnv) (frames : List Bytes) {x : TalkSocket × LegacyIntercomSession}
    (h : Talking call x.2.toIntercomControl) : Talking call (talk env frames x).2.toIntercomControl := by
  induction frames generalizing x with
  | nil => exact h
  | cons frame frames ih => exact ih (h.same (sendAudioFrame_same env frame x.1 x.2))

/-- Talk STOP of this call. -/
def IsStop (s : LegacyIntercomSession) (call : CallingAttempt) (p : TalkSocket.Packet) : Prop :=
  p.conv = s.conv ∧ mediaTlv (.ok (packLegacyTalkControl false)) call.cookie = .ok p.body

/-- Its AV CLOSE. -/
def IsClose (s : LegacyIntercomSession) (call : CallingAttempt) (p : TalkSocket.Packet) : Prop :=
  p.conv = s.conv ∧ p.body = buildAvControl call.callId 7

/-- Talk STOP and AV CLOSE under any sequence number. -/
theorem stopAndClose_legacy (control : IntercomControl) (hpeer : control.peer = some peer)
    (hcookie : call.cookie.length = 8) (env : TalkEnv) (conv sequence : Nat) (t : TalkSocket) : ∃ events,
      (control.stopAndClose
        (fun t => control.sendBuilt env conv sequence (mediaTlv (.ok (packLegacyTalkControl false)) call.cookie) 4 t)
        (fun t => control.sendAndWait env conv (sequence + 1) (buildAvControl call.callId 7) 3 t) t).2.1.log =
          t.log ++ events ∧
      StopsAndCloses
        (fun p => p.conv = conv ∧ mediaTlv (.ok (packLegacyTalkControl false)) call.cookie = .ok p.body)
        (fun p => p.conv = conv ∧ p.body = buildAvControl call.callId 7) events := by
  obtain ⟨body, hbody, hfits⟩ := legacyTalk_fits hcookie false
  have hstop (t : TalkSocket) : ∃ p events,
      (p.conv = conv ∧ mediaTlv (.ok (packLegacyTalkControl false)) call.cookie = .ok p.body) ∧
      TalkSocket.Packet.event p ∈ events ∧
      (control.sendBuilt env conv sequence (mediaTlv (.ok (packLegacyTalkControl false)) call.cookie) 4 t).2.log =
        t.log ++ events := by
    obtain ⟨p, events, hconv, hsame, hmem, hlog⟩ :=
      control.sendAndWait_hands env hpeer conv sequence hfits (by decide : 0 < 4) t
    rw [hbody]
    exact ⟨p, events, ⟨hconv, by rw [hsame]⟩, hmem, hlog⟩
  have hclose (t : TalkSocket) : ∃ p events, (p.conv = conv ∧ p.body = buildAvControl call.callId 7) ∧
      TalkSocket.Packet.event p ∈ events ∧
      (control.sendAndWait env conv (sequence + 1) (buildAvControl call.callId 7) 3 t).2.log = t.log ++ events := by
    obtain ⟨p, events, hconv, hsame, hmem, hlog⟩ := control.sendAndWait_hands env hpeer conv (sequence + 1)
      (by rw [length_buildAvControl]; decide : (buildAvControl call.callId 7).length ≤ 2017) (by decide : 0 < 3) t
    exact ⟨p, events, ⟨hconv, hsame⟩, hmem, hlog⟩
  exact control.stopAndClose_hands hstop hclose t

theorem close_hands (h : Talking call s.toIntercomControl) (env : TalkEnv) (t : TalkSocket) :
    (∃ events, (s.close env t).2.1.log = t.log ++ events ∧ StopsAndCloses (IsStop s call) (IsClose s call) events) ∧
      (s.close env t).2.2.closed = true := by
  obtain ⟨peer, hpeer⟩ := h.peer
  unfold close
  rw [if_neg (by simp [h.opened])]
  dsimp only
  rw [if_neg (by simp [h.valid, h.started])]
  split
  · rename_i hnone
    rw [h.attempt] at hnone
    cases hnone
  rename_i attempt hattempt
  obtain rfl : call = attempt := by
    rw [h.attempt] at hattempt
    exact Option.some.inj hattempt
  cases s.audioSender with
  | none =>
    dsimp only
    exact ⟨stopAndClose_legacy { s.toIntercomControl with closed := true } hpeer h.cookie env s.conv s.sequence t,
      IntercomControl.stopAndClose_closed _ _ t⟩
  | some sender =>
    dsimp only [LegacyAudioSender.close]
    exact ⟨stopAndClose_legacy { s.toIntercomControl with closed := true } hpeer h.cookie env s.conv
        sender.result.nextSequence t, IntercomControl.stopAndClose_closed _ _ t⟩

end LegacyIntercomSession

/-! ## The modern session -/

namespace ModernIntercomSession

variable {s s' : ModernIntercomSession} {call : CallingAttempt} {peer : Peer} {found : Bool}

/-- The session has a sender for its call. -/
def Voiced (cookie : Bytes) (s : ModernIntercomSession) : Prop :=
  ∃ sender, s.audioSender = some sender ∧ sender.Ready cookie

theorem openAudio_voiced {cookie : Bytes} (hcookie : cookie.length = 8)
    (h : s.openAudio env peer cookie t = (.ok found, t', s')) :
    SameCall s.toIntercomControl s'.toIntercomControl ∧ Voiced cookie s' := by
  unfold openAudio at h
  split at h
  · cases h
  · rename_i sender _ hnew
    cases h
    exact ⟨.refl _, sender, rfl, ModernAudioSender.ready_new hcookie hnew⟩

theorem startTalk_voiced {cookie : Bytes} (h : s.startTalk env peer cookie t = (.ok true, t', s')) :
    cookie.length = 8 ∧ SameCall s.toIntercomControl s'.toIntercomControl ∧ Voiced cookie s' := by
  unfold startTalk at h
  dsimp only [stampUs] at h
  split at h
  · cases h
  rename_i hsent
  obtain ⟨built, hbuilt⟩ := sendBuilt_ok hsent
  have hcookie := (microphoneTlv_ok hbuilt).1
  refine ⟨hcookie, ?_⟩
  split at h
  · obtain ⟨hsame, hvoiced⟩ := openAudio_voiced hcookie h
    exact ⟨⟨hsame.attempt, hsame.peer, hsame.valid, hsame.started, hsame.closed⟩, hvoiced⟩
  · cases h

theorem startHeader_voiced {cookie : Bytes} (h : s.startHeader env peer cookie t = (.ok true, t', s')) :
    cookie.length = 8 ∧ SameCall s.toIntercomControl s'.toIntercomControl ∧ Voiced cookie s' := by
  unfold startHeader at h
  split at h
  · cases h
  dsimp only at h
  split at h
  · obtain ⟨hcookie, hsame, hvoiced⟩ := startTalk_voiced h
    exact ⟨hcookie, ⟨hsame.attempt, hsame.peer, hsame.valid, hsame.started, hsame.closed⟩, hvoiced⟩
  · cases h

theorem start_talking (h : s.start env t = (.ok true, t', s')) :
    ∃ call, Talking call s'.toIntercomControl ∧ Voiced call.cookie s' := by
  unfold start at h
  split at h
  · cases h
  rename_i hclosed
  split at h
  · cases h
  dsimp only at h
  split at h
  · cases h
  rename_i hvalid
  split at h
  · rename_i call peer hattempt hpeer
    split at h
    · cases h
    split at h
    · obtain ⟨hcookie, hsame, hvoiced⟩ := startHeader_voiced h
      exact ⟨call, ⟨hsame.attempt.trans hattempt, ⟨peer, hsame.peer.trans hpeer⟩, hcookie,
        hsame.valid.trans (by simpa using hvalid), hsame.started, hsame.closed.trans (by simpa using hclosed)⟩, hvoiced⟩
    · cases h
  · cases h

theorem sendAudioFrame_voiced {cookie : Bytes} (h : Voiced cookie s) (env : TalkEnv) (frame : Bytes) (t : TalkSocket) :
    SameCall s.toIntercomControl (s.sendAudioFrame env frame t).2.2.toIntercomControl ∧
      Voiced cookie (s.sendAudioFrame env frame t).2.2 := by
  obtain ⟨sender, hsender, hready⟩ := h
  have hsent := hready.send env frame t
  unfold sendAudioFrame
  split
  · exact ⟨.refl _, sender, hsender, hready⟩
  rw [hsender]
  dsimp only
  generalize sender.send env frame t = sent at hsent
  obtain ⟨answer, t', sender'⟩ := sent
  cases answer with
  | error e => exact ⟨.refl _, sender', rfl, hsent⟩
  | ok acknowledged => exact ⟨.refl _, sender', rfl, hsent⟩

/-- The frames of a session, one after another; answers and exceptions go to the caller. -/
def talk (env : TalkEnv) (frames : List Bytes) (x : TalkSocket × ModernIntercomSession) :
    TalkSocket × ModernIntercomSession :=
  frames.foldl (fun x frame => (x.2.sendAudioFrame env frame x.1).2) x

theorem talk_talking (env : TalkEnv) (frames : List Bytes) {x : TalkSocket × ModernIntercomSession}
    (h : Talking call x.2.toIntercomControl) (hvoiced : Voiced call.cookie x.2) :
    Talking call (talk env frames x).2.toIntercomControl ∧ Voiced call.cookie (talk env frames x).2 := by
  induction frames generalizing x with
  | nil => exact ⟨h, hvoiced⟩
  | cons frame frames ih =>
    obtain ⟨hsame, hvoiced'⟩ := sendAudioFrame_voiced hvoiced env frame x.1
    exact ih (h.same hsame) hvoiced'

/-- Talk STOP of this call, whenever it is dated. -/
def IsStop (s : ModernIntercomSession) (call : CallingAttempt) (p : TalkSocket.Packet) : Prop :=
  p.conv = s.commandConv ∧ ∃ timestampUs, microphoneTlv false timestampUs call.cookie = .ok p.body

/-- Its AV CLOSE. -/
def IsClose (s : ModernIntercomSession) (call : CallingAttempt) (p : TalkSocket.Packet) : Prop :=
  p.conv = s.mediaConv ∧ p.body = buildAvControl call.callId 7

/-- One of the `sendto` raises that the close of the sender makes for what is pending. -/
def FlushRaises (env : TalkEnv) (s : ModernIntercomSession) (t : TalkSocket) : Prop :=
  ∃ sender, s.audioSender = some sender ∧
    ∃ n, t.sends ≤ n ∧ n < (sender.close env t).2.1.sends ∧ env.raises n = true

theorem stopAndClose_modern (hpeer : s.peer = some peer) (hcookie : call.cookie.length = 8) (env : TalkEnv)
    (t : TalkSocket) : ∃ events,
      (s.toIntercomControl.stopAndClose (s.stopTalk env call.cookie)
        (fun t => s.sendAndWait env s.mediaConv s.mediaSequence (buildAvControl call.callId 7) 3 t) t).2.1.log =
          t.log ++ events ∧
      StopsAndCloses (IsStop s call) (IsClose s call) events := by
  have hstop (t : TalkSocket) : ∃ p events, IsStop s call p ∧ TalkSocket.Packet.event p ∈ events ∧
      (s.stopTalk env call.cookie t).2.log = t.log ++ events := by
    unfold stopTalk
    dsimp only [stampUs]
    obtain ⟨body, hbody, hfits⟩ := microphone_fits hcookie false (env.timeNs t.stamps / 1000)
    rw [hbody]
    obtain ⟨p, events, hconv, hsame, hmem, hlog⟩ := s.toIntercomControl.sendAndWait_hands env hpeer s.commandConv
      s.commandSequence hfits (by decide : 0 < 4) { t with stamps := t.stamps + 1 }
    exact ⟨p, events, ⟨hconv, _, by rw [hsame]; exact hbody⟩, hmem, hlog⟩
  have hclose (t : TalkSocket) : ∃ p events, IsClose s call p ∧ TalkSocket.Packet.event p ∈ events ∧
      (s.sendAndWait env s.mediaConv s.mediaSequence (buildAvControl call.callId 7) 3 t).2.log = t.log ++ events := by
    obtain ⟨p, events, hconv, hsame, hmem, hlog⟩ := s.toIntercomControl.sendAndWait_hands env hpeer s.mediaConv
      s.mediaSequence (by rw [length_buildAvControl]; decide : (buildAvControl call.callId 7).length ≤ 2017)
      (by decide : 0 < 3) t
    exact ⟨p, events, ⟨hconv, hsame⟩, hmem, hlog⟩
  exact s.toIntercomControl.stopAndClose_hands hstop hclose t

/-- Both are handed over by a close exactly if the flush before them raises nothing. -/
theorem close_hands_iff (h : Talking call s.toIntercomControl) (hvoiced : Voiced call.cookie s) (env : TalkEnv)
    (t : TalkSocket) : (∃ events, (s.close env t).2.1.log = t.log ++ events ∧
      (StopsAndCloses (IsStop s call) (IsClose s call) events ↔ ¬FlushRaises env s t)) ∧
      (s.close env t).2.2.closed = true := by
  obtain ⟨peer, hpeer⟩ := h.peer
  obtain ⟨sender, hsender, hready⟩ := hvoiced
  obtain ⟨events, hspends, hbodies⟩ := hready.close_spends env t
  have hraises : ¬FlushRaises env s t ↔ ∃ audio, (sender.close env t).1 = .ok audio := by
    rw [hspends.raises_iff, FlushRaises]
    constructor
    · intro hcalm n hle hlt
      by_contra hraise
      exact hcalm ⟨sender, hsender, n, hle, hlt, by simpa using hraise⟩
    · rintro hcalm ⟨other, hother, n, hle, hlt, hraise⟩
      rw [hsender] at hother
      cases hother
      rw [hcalm n hle hlt] at hraise
      cases hraise
  unfold close
  rw [if_neg (by simp [h.opened])]
  dsimp only
  rw [if_neg (by simp [h.valid, h.started])]
  split
  · rename_i hnone
    rw [h.attempt] at hnone
    cases hnone
  rename_i attempt hattempt
  obtain rfl : call = attempt := by
    rw [h.attempt] at hattempt
    exact Option.some.inj hattempt
  unfold closeAudio
  dsimp only
  rw [hsender]
  dsimp only
  generalize sender.close env t = closed at hspends hraises
  obtain ⟨answer, t', sender'⟩ := closed
  cases answer with
  | error e =>
    dsimp only
    refine ⟨⟨events, hspends.log, iff_of_false ?_ (hraises.not.mpr fun ⟨audio, haudio⟩ => by cases haudio)⟩, rfl⟩
    -- What the flush handed over is media, and talk STOP is not.
    rintro ⟨before, p, between, q, after, ⟨-, timestampUs, hstop⟩, -, rfl⟩
    have hmedia : p.body.at_ 0 = 4 := hbodies p (by simp)
    rw [(microphoneTlv_ok hstop).2] at hmedia
    cases hmedia
  | ok audio =>
    dsimp only
    set silent : ModernIntercomSession :=
      { s with closed := true, audioSender := some sender', mediaSequence := audio.nextSequence }
    obtain ⟨later, hlog, before, p, between, q, after, hp, hq, hlater⟩ :=
      @stopAndClose_modern silent call peer hpeer h.cookie env t'
    refine ⟨⟨events ++ later, ?_, iff_of_true ⟨events ++ before, p, between, q, after, hp, hq, ?_⟩
      (hraises.mpr ⟨audio, rfl⟩)⟩, IntercomControl.stopAndClose_closed _ _ t'⟩
    · rw [← List.append_assoc, ← hspends.log]
      exact hlog
    · rw [hlater]
      simp only [List.append_assoc]

theorem close_again (h : s.closed = true) (env : TalkEnv) (t : TalkSocket) : s.close env t = (.ok s.result, t, s) := by
  rw [close, if_pos h]

end ModernIntercomSession

theorem LegacyIntercomSession.close_again {s : LegacyIntercomSession} (h : s.closed = true) (env : TalkEnv)
    (t : TalkSocket) : s.close env t = (.ok s.result, t, s) := by
  rw [LegacyIntercomSession.close, if_pos h]

/-- **The close of a session that was started**, after any frames, whatever is received
and whichever `sendto` raise: the legacy one always hands over talk STOP and then AV
CLOSE, the modern one if and only if no `sendto` of the flush before them raises. A
second close hands over nothing. -/
theorem intercom_cleanup (env : TalkEnv) (t t₁ : TalkSocket) (frames : List Bytes) :
    (∀ s s₁ : LegacyIntercomSession, s.start env t = (.ok true, t₁, s₁) →
      ∃ call x, x = LegacyIntercomSession.talk env frames (t₁, s₁) ∧ x.2.attempt = some call ∧
        (∃ events, (x.2.close env x.1).2.1.log = x.1.log ++ events ∧
          StopsAndCloses (x.2.IsStop call) (x.2.IsClose call) events) ∧
        ∀ later t', ((x.2.close env x.1).2.2.close later t').2.1 = t') ∧
    (∀ s s₁ : ModernIntercomSession, s.start env t = (.ok true, t₁, s₁) →
      ∃ call x, x = ModernIntercomSession.talk env frames (t₁, s₁) ∧ x.2.attempt = some call ∧
        (∃ events, (x.2.close env x.1).2.1.log = x.1.log ++ events ∧
          (StopsAndCloses (x.2.IsStop call) (x.2.IsClose call) events ↔ ¬x.2.FlushRaises env x.1)) ∧
        ∀ later t', ((x.2.close env x.1).2.2.close later t').2.1 = t') := by
  refine ⟨fun s s₁ hstart => ?_, fun s s₁ hstart => ?_⟩
  · obtain ⟨call, hcall⟩ := LegacyIntercomSession.start_talking hstart
    have htalking := LegacyIntercomSession.talk_talking env frames (x := (t₁, s₁)) hcall
    obtain ⟨hhands, hclosed⟩ := LegacyIntercomSession.close_hands htalking env
      (LegacyIntercomSession.talk env frames (t₁, s₁)).1
    refine ⟨call, _, rfl, htalking.attempt, hhands, fun later t' => ?_⟩
    rw [LegacyIntercomSession.close_again hclosed]
  · obtain ⟨call, hcall, hvoiced⟩ := ModernIntercomSession.start_talking hstart
    obtain ⟨htalking, hsender⟩ := ModernIntercomSession.talk_talking env frames (x := (t₁, s₁)) hcall hvoiced
    obtain ⟨hhands, hclosed⟩ := ModernIntercomSession.close_hands_iff htalking hsender env
      (ModernIntercomSession.talk env frames (t₁, s₁)).1
    refine ⟨call, _, rfl, htalking.attempt, hhands, fun later t' => ?_⟩
    rw [ModernIntercomSession.close_again hclosed]

/-! ## A close after two frames -/

namespace ModernIntercomSession

def brokenCalling : CallingResult := ⟨some ⟨7, 42, List.replicate 8 1⟩, some ModernAudioSender.talkPeer⟩

def brokenAv : AvSessionResult := ⟨true, 1, .empty, some 1, some INTERCOM_AUDIO_FORMAT⟩

/-- The camera acknowledges the start, the audio, the second talk STOP and AV CLOSE. -/
def quietEnv : TalkEnv where
  monotonic _ := 0
  timeNs _ := 0
  raises _ := false
  yields n _ := match n with
    | 0 => [((buildKcpAck 7 0 0 0 0x100).toOption.getD [], ModernAudioSender.talkPeer)]
    | 1 => [((buildKcpAck 7 1 0 0 0x100).toOption.getD [], ModernAudioSender.talkPeer)]
    | 2 => [((buildKcpAck 0x80000007 1 0 0 0x100).toOption.getD [], ModernAudioSender.talkPeer)]
    | 3 => [((buildKcpAck 7 2 0 0 0x100).toOption.getD [], ModernAudioSender.talkPeer)]
    | 5 => [((buildKcpAck 0x80000007 2 0 0 0x100).toOption.getD [], ModernAudioSender.talkPeer)]
    | 6 => [((buildKcpAck 7 3 0 0 0x100).toOption.getD [], ModernAudioSender.talkPeer)]
    | _ => []

def quietStart : Except TalkFault Bool × TalkSocket × ModernIntercomSession :=
  (new brokenCalling brokenAv 1).1.start quietEnv (new brokenCalling brokenAv 1).2

def quietTalk : TalkSocket × ModernIntercomSession :=
  talk quietEnv [ModernAudioSender.amrFrame, ModernAudioSender.amrFrame] quietStart.2

/-- Two frames are pending when the session is closed: their packet, talk STOP twice and
AV CLOSE are handed over. -/
theorem intercom_cleanup_quiet :
    (∃ call, quietTalk.2.attempt = some call ∧
      ∃ events, (quietTalk.2.close quietEnv quietTalk.1).2.1.log = quietTalk.1.log ++ events ∧
        StopsAndCloses (quietTalk.2.IsStop call) (quietTalk.2.IsClose call) events) ∧
    (handed (quietTalk.2.close quietEnv quietTalk.1).2.1.log).map (fun p => (p.conv, p.sequence, p.body.at_ 0)) =
      [(7, 0, 3), (7, 1, 4), (0x80000007, 1, 2), (7, 2, 4), (0x80000007, 2, 2), (0x80000007, 2, 2), (7, 3, 3)] := by
  constructor
  · have hopened : quietStart.1 = .ok true := by decide +kernel
    have hstart : quietStart = (.ok true, quietStart.2) := Prod.ext hopened rfl
    obtain ⟨call, x, hx, hattempt, ⟨events, hlog, hhands⟩, -⟩ :=
      (intercom_cleanup quietEnv _ _ [ModernAudioSender.amrFrame, ModernAudioSender.amrFrame]).2 _ _ hstart
    have hcalm : ¬ x.2.FlushRaises quietEnv x.1 := by
      rintro ⟨sender, -, n, -, -, hraises⟩
      cases hraises
    rw [show quietTalk = x from hx.symm]
    exact ⟨call, hattempt, events, hlog, hhands.mpr hcalm⟩
  · decide +kernel

/-! ## A flush that raises -/

/-- The camera acknowledges the three packets of the start; the fourth `sendto` raises. -/
def brokenEnv : TalkEnv where
  monotonic _ := 0
  timeNs _ := 0
  raises n := n = 3
  yields n _ := match n with
    | 0 => [((buildKcpAck 7 0 0 0 0x100).toOption.getD [], ModernAudioSender.talkPeer)]
    | 1 => [((buildKcpAck 7 1 0 0 0x100).toOption.getD [], ModernAudioSender.talkPeer)]
    | 2 => [((buildKcpAck 0x80000007 1 0 0 0x100).toOption.getD [], ModernAudioSender.talkPeer)]
    | _ => []

def brokenStart : Except TalkFault Bool × TalkSocket × ModernIntercomSession :=
  (new brokenCalling brokenAv 1).1.start brokenEnv (new brokenCalling brokenAv 1).2

def brokenClose : Except TalkFault IntercomControlResult × TalkSocket × ModernIntercomSession :=
  let x := talk brokenEnv [ModernAudioSender.amrFrame] brokenStart.2
  x.2.close brokenEnv x.1

/-- One frame and a close: AV START, the header, talk START and the frame are all that
is ever handed over, also by a second close. -/
theorem broken_flush_skips_stop : brokenStart.1 = .ok true ∧ brokenClose.1 = .error .os ∧
    (handed (brokenClose.2.2.close brokenEnv brokenClose.2.1).2.1.log).map
      (fun p => (p.conv, p.sequence, p.body.at_ 0)) = [(7, 0, 3), (7, 1, 4), (0x80000007, 1, 2), (7, 2, 4)] := by
  refine ⟨?_, ?_, ?_⟩
  · decide +kernel
  · decide +kernel
  · decide +kernel

end ModernIntercomSession

end CamGuard.Talk
