/-
The pacing of LAN talkback (`_send_chunks` of `rtsp_backchannel.py`): the session as before,
with every sleep and every reading of the clock. Time passes at each of them and on the
wire, by as much as the clock says; a sleep takes at least what was asked.
-/
import CamGuard.Talk.RtspBackchannel

namespace CamGuard.Talk

def RTP_PACKET_SECONDS : ℚ := 1 / 100

/-- How long things take: the `n`-th reading, exchange, write or sleep, beyond what a sleep
was asked for. -/
structure TalkClock where
  start : ℚ
  lapse : Nat → ℚ
  lapse_nonneg : ∀ n, 0 ≤ lapse n

/-- The readings that something is counted from. -/
inductive TalkMark where
  /-- `playback_started`. -/
  | playback
  /-- `send_started`. -/
  | send
  /-- The reading after the answer to OPEN, from which the next refresh is set. -/
  | answered
  deriving DecidableEq, Repr

inductive TalkMoment where
  | wire (event : RtspEvent) (begun ended : ℚ)
  | mark (mark : TalkMark) (time : ℚ)
  deriving DecidableEq, Repr

/-- A session and its time. -/
structure PacedTalk where
  session : RtspTalkSession
  now : ℚ
  lapses : Nat := 0
  log : List TalkMoment := []

namespace PacedTalk

section

variable (clock : TalkClock)

/-- Something that takes `least` or longer. -/
def pass (least : ℚ) (t : PacedTalk) : PacedTalk :=
  { t with now := t.now + least + clock.lapse t.lapses, lapses := t.lapses + 1 }

/-- `clock()`. -/
def read (t : PacedTalk) : ℚ × PacedTalk := ((t.pass clock 0).now, t.pass clock 0)

/-- `clock()`, to count from. -/
def note (mark : TalkMark) (t : PacedTalk) : ℚ × PacedTalk :=
  let now := t.read clock
  (now.1, { now.2 with log := now.2.log ++ [.mark mark now.1] })

/-- `wait = deadline - clock()`, and the sleep if there is something to wait for. -/
def sleepUntil (deadline : ℚ) (t : PacedTalk) : PacedTalk :=
  let now := t.read clock
  if 0 < deadline - now.1 then now.2.pass clock (deadline - now.1) else now.2

/-- An event of the wire takes its time. -/
def stamp (t : PacedTalk) (event : RtspEvent) : PacedTalk :=
  let later := t.pass clock 0
  { later with log := t.log ++ [.wire event t.now later.now] }

/-- What the session does outside, event by event. -/
def outside {α : Type} (step : RtspTalkSession → α × RtspTalkSession) (t : PacedTalk) : α × PacedTalk :=
  let r := step t.session
  (r.1, (r.2.wire.log.drop t.session.wire.log.length).foldl (stamp clock) { t with session := r.2 })

/-- `self._refresh_at = self._clock() + OPEN_REFRESH_SECONDS`. -/
def granted (t : PacedTalk) : PacedTalk :=
  let now := t.note clock .answered
  { now.2 with session := { now.2.session with refreshAt := now.1 + OPEN_REFRESH_SECONDS } }

end

/-! ## The session -/

/-- The new connection of `open` and its audio command. -/
def reconnect (env : RtspEnv) (s : RtspTalkSession) : Except TalkbackFault Unit × RtspTalkSession :=
  let s := { s with wire := s.wire.note (.shut s.session) }
  match s.wire.connect env with
  | (.error fault, wire) => (.error fault, { s with wire := wire })
  | (.ok session, wire) => RtspTalkSession.control env .open { s with wire := wire, session := session, challenged := false }

variable (env : RtspEnv) (clock : TalkClock)

/-- `open`. -/
def open_ (camera : RtspCamera) (t : PacedTalk) : Except TalkbackFault Unit × PacedTalk :=
  match t.outside clock (RtspTalkSession.describe env camera) with
  | (.error fault, t) => (.error fault, t)
  | (.ok (), t) =>
    match t.outside clock (RtspTalkSession.options env) with
    | (.error fault, t) => (.error fault, t)
    | (.ok (), t) =>
      match t.outside clock (reconnect env) with
      | (.error fault, t) => (.error fault, t)
      | (.ok (), t) => (.ok (), granted clock { t with session := { t.session with opened := true } })

/-- The refresh of `send_pcm`, with the readings for its duration. -/
def refresh (t : PacedTalk) : Except TalkbackFault Unit × PacedTalk :=
  let now := t.read clock
  if now.1 < now.2.session.refreshAt then (.ok (), now.2)
  else
    match (now.2.read clock).2.outside clock (RtspTalkSession.control env .open) with
    | (.error fault, t) => (.error fault, (t.read clock).2)
    | (.ok (), t) => (.ok (), (t.read clock).2.granted clock)

/-- The packet of `send_pcm`, with the readings for its duration. -/
def write (payload : Bytes) (t : PacedTalk) : Except TalkbackFault Unit × PacedTalk :=
  match packRtp payload t.session.sequence t.session.timestamp t.session.ssrc t.session.firstPacket with
  | .error fault => (.error fault, t)
  | .ok _ =>
    let r := (t.read clock).2.outside clock (RtspTalkSession.write env payload)
    (r.1, (r.2.read clock).2)

/-- `send_pcm`. -/
def sendPcm (payload : Bytes) (t : PacedTalk) : Except TalkbackFault Unit × PacedTalk :=
  if !t.session.opened then (.error (.backchannel "RTSP talkback is not open"), t)
  else
    match t.refresh env clock with
    | (.error fault, t) => (.error fault, t)
    | (.ok (), t) => t.write env clock payload

end PacedTalk

/-! ## A message -/

/-- The locals of `_send_chunks`. -/
structure PacedDelivery where
  requestedFrames : Nat := 0
  sentFrames : Nat := 0
  pending : List Bytes := []
  playbackStarted : Option ℚ := none
  sentPackets : Nat := 0

namespace PacedTalk

variable (env : RtspEnv) (clock : TalkClock)

/-- The loop of `send_pending`, and how many packets have been sent after it. -/
def sendPending (preload : Bool) (playbackStarted : ℚ) :
    List Bytes → Nat → PacedTalk → Except TalkbackFault Nat × PacedTalk
  | [], sentPackets, t => (.ok sentPackets, t)
  | payload :: pending, sentPackets, t =>
    let t :=
      if !preload ∨ PRELOAD_PACKETS ≤ sentPackets then
        t.sleepUntil clock (playbackStarted + (sentPackets - PRELOAD_PACKETS + 1) * RTP_PACKET_SECONDS)
      else t
    match (t.note clock .send).2.sendPcm env clock payload with
    | (.error fault, t) => (.error fault, t)
    | (.ok (), t) => sendPending preload playbackStarted pending (sentPackets + 1) (t.read clock).2

/-- The start of `send_pending`: `playback_started`, now if not before. -/
def playbackFrom (playbackStarted : Option ℚ) (t : PacedTalk) : ℚ × PacedTalk :=
  match playbackStarted with
  | some time => (time, t)
  | none => t.note clock .playback

/-- A call of `send_pending`, and the frames it has sent. -/
def flush (preload : Bool) (d : PacedDelivery) (t : PacedTalk) : Except TalkbackFault PacedDelivery × PacedTalk :=
  let started := t.playbackFrom clock d.playbackStarted
  match started.2.sendPending env clock preload started.1 d.pending d.sentPackets with
  | (.error fault, t) => (.error fault, t)
  | (.ok sentPackets, t) => (.ok { d with
      pending := []
      playbackStarted := some started.1
      sentPackets := sentPackets
      sentFrames := d.requestedFrames }, t)

/-- The loop over the chunks, which may fail to come, and the rest of them. -/
def sendAll (fails : Bool) : List Bytes → PacedDelivery → PacedTalk → Except TalkbackFault PacedDelivery × PacedTalk
  | [], d, t =>
    if fails then (.error .chunks, t)
    else if d.pending = [] then (.ok d, t)
    else t.flush env clock true d
  | chunk :: chunks, d, t =>
    if chunk.length ≠ RTSP_PCM_FRAME_BYTES then
      (.error (.value "RTSP talkback requires complete 20 ms PCM frames"), t)
    else
      let d := { d with
        requestedFrames := d.requestedFrames + 1
        pending := d.pending ++ [chunk.slice 0 RTP_PAYLOAD_BYTES, chunk.slice RTP_PAYLOAD_BYTES RTP_PAYLOAD_BYTES] }
      if d.playbackStarted.isNone ∧ d.pending.length < PRELOAD_PACKETS then sendAll fails chunks d t
      else
        match t.flush env clock d.playbackStarted.isNone d with
        | (.error fault, t) => (.error fault, t)
        | (.ok d, t) => sendAll fails chunks d t

/-- CLOSE waits for what is queued to be played. -/
def drain (d : PacedDelivery) (t : PacedTalk) : PacedTalk :=
  match d.playbackStarted with
  | none => t
  | some time => t.sleepUntil clock (time + d.sentPackets * RTP_PACKET_SECONDS)

/-- The body of `_send_chunks` before its `finally`. -/
def deliver (camera : RtspCamera) (chunks : List Bytes) (fails : Bool) (t : PacedTalk) :
    Except TalkbackFault PacedDelivery × PacedTalk :=
  match t.open_ env clock camera with
  | (.error fault, t) => (.error fault, t)
  | (.ok (), t) =>
    match t.sendAll env clock fails chunks {} with
    | (.error fault, t) => (.error fault, t)
    | (.ok d, t) => (.ok d, t.drain clock d)

/-- `_send_chunks`, and what happened. -/
def sendChunks (camera : RtspCamera) (start : RtpStart) (chunks : List Bytes) (fails : Bool) :
    Except TalkbackFault AudioMessageResult × List TalkMoment :=
  match RtspTalkSession.new env camera start with
  | (.error fault, _) => (.error fault, [])
  | (.ok s, _) =>
    -- `operation_started`
    let begun := (read clock { session := s, now := clock.start }).2
    let delivered := begun.deliver env clock camera chunks fails
    let released := delivered.2.outside clock (RtspTalkSession.close env)
    match delivered.1 with
    | .error fault => (.error fault, released.2.log)
    | .ok d =>
      if d.requestedFrames = 0 then
        (.error (.value "RTSP talkback requires at least one PCM frame"), released.2.log)
      else
        (AudioMessageResult.vet {
          durationMs := d.requestedFrames * RTSP_PCM_FRAME_MS
          requestedFrames := d.requestedFrames
          sentFrames := d.sentFrames
          acknowledgedFrames := d.sentFrames
          directConnection := true
          sessionCompleted := released.1
          routeReleased := released.1 }, released.2.log)

end PacedTalk

end CamGuard.Talk
