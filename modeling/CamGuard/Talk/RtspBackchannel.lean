/-
LAN talkback over RTSP (`rtsp_backchannel.py`): the decoder of the camera is opened and
closed by `USER_CMD_SET` requests with an audio command, and PCM goes out between them in
interleaved RTP records.

A response is what `parse_status` and the `public` header of `parse_headers` give of it.
The telemetry of `DeliveryTiming`, the sleeps and the readings of the clock that only they
use are left out.
-/
import Mathlib.Algebra.Order.Ring.Rat
import CamGuard.Lib.JsonValue

namespace CamGuard.Talk

def RTP_PAYLOAD_BYTES : Nat := 320
def RTP_CHANNEL : Nat := 2
def RTP_PAYLOAD_TYPE : Nat := 8
def RTP_TIMESTAMP_STEP : Nat := 160
def PRELOAD_PACKETS : Nat := 10
def OPEN_REFRESH_SECONDS : ℚ := 4
def RTSP_PCM_FRAME_BYTES : Nat := 640
def RTSP_PCM_FRAME_MS : Nat := 20

/-! ## The wire -/

inductive AudioCtl where
  | open
  | close
  deriving DecidableEq, Repr

structure RtspResponse where
  status : Int
  /-- The `public` header. -/
  allows : String
  deriving DecidableEq, Repr

/-- What becomes of one request. -/
inductive RtspAnswer where
  | raised
  | lost
  | response (r : RtspResponse)
  deriving DecidableEq, Repr

/-- What the outside does, each by how often it was asked before. -/
structure RtspEnv where
  /-- This connection raises `OSError`. -/
  unreachable : Nat → Bool
  answer : Nat → RtspAnswer
  /-- This media write raises `OSError`. -/
  broken : Nat → Bool
  clock : Nat → ℚ

inductive RtspEvent where
  | request (session : Nat) (method : String) (command : Option AudioCtl) (answer : RtspAnswer)
  | media (session channel : Nat) (packet : Bytes) (raised : Bool)
  | shut (session : Nat)
  deriving DecidableEq, Repr

structure RtspWire where
  connects : Nat := 0
  requests : Nat := 0
  writes : Nat := 0
  reads : Nat := 0
  log : List RtspEvent := []

inductive TalkbackFault where
  | os
  | backchannel (reason : String)
  | value (reason : String)
  /-- The chunks could not be had. -/
  | chunks
  deriving DecidableEq, Repr

namespace RtspWire

variable (env : RtspEnv)

def note (event : RtspEvent) (w : RtspWire) : RtspWire := { w with log := w.log ++ [event] }

/-- `_new_session()`. -/
def connect (w : RtspWire) : Except TalkbackFault Nat × RtspWire :=
  (if env.unreachable w.connects then .error .os else .ok w.connects, { w with connects := w.connects + 1 })

/-- `request(…)` of a session. -/
def request (session : Nat) (method : String) (command : Option AudioCtl) (w : RtspWire) : RtspAnswer × RtspWire :=
  (env.answer w.requests, { w.note (.request session method command (env.answer w.requests)) with
    requests := w.requests + 1 })

/-- `send_interleaved(…)` of a session; true if it raises. -/
def media (session channel : Nat) (packet : Bytes) (w : RtspWire) : Bool × RtspWire :=
  (env.broken w.writes, { w.note (.media session channel packet (env.broken w.writes)) with writes := w.writes + 1 })

def clock (w : RtspWire) : ℚ × RtspWire := (env.clock w.reads, { w with reads := w.reads + 1 })

end RtspWire

/-! ## The session -/

/-- `pack_rtp`. -/
def packRtp (payload : Bytes) (sequence timestamp ssrc : Nat) (marker : Bool) : Except TalkbackFault Bytes :=
  if payload.length ≠ RTP_PAYLOAD_BYTES then
    .error (.value "Yoosee RTSP talkback requires exactly 320 PCM payload bytes")
  else .ok ([0x80, UInt8.ofNat (RTP_PAYLOAD_TYPE ||| if marker then 0x80 else 0)] ++ Bytes.ofNatBE 2 sequence ++
    Bytes.ofNatBE 4 timestamp ++ Bytes.ofNatBE 4 ssrc ++ payload)

structure RtspCamera where
  lastIp : String
  streamPath : String
  rtspPort : Nat
  username : String
  deriving DecidableEq, Repr

/-- `supported`. -/
def RtspCamera.supported (camera : RtspCamera) : Bool := camera.lastIp ≠ "" && camera.streamPath ≠ "" && camera.rtspPort ≠ 0

/-- The numbers drawn for a session. -/
structure RtpStart where
  sequence : Nat
  timestamp : Nat
  ssrc : Nat

structure RtspTalkSession where
  wire : RtspWire
  session : Nat
  challenged : Bool := false
  opened : Bool := false
  refreshAt : ℚ := 0
  sequence : Nat
  timestamp : Nat
  ssrc : Nat
  firstPacket : Bool := true

/-- The methods a `public` header allows. -/
def RtspResponse.publicMethods (r : RtspResponse) : List (List Char) :=
  (r.allows.toList.splitOn ',').map fun method =>
    (((method.dropWhile isSpace).reverse.dropWhile isSpace).reverse).map Char.toUpper

def AudioCtl.text : AudioCtl → String
  | .open => "open"
  | .close => "close"

namespace RtspTalkSession

variable (env : RtspEnv)

/-- `RtspTalkSession(…)`. -/
def new (camera : RtspCamera) (start : RtpStart) : Except TalkbackFault RtspTalkSession × RtspWire :=
  if !camera.supported then (.error (.backchannel "camera has no usable local RTSP address"), {})
  else
    match RtspWire.connect env {} with
    | (.error fault, wire) => (.error fault, wire)
    | (.ok session, wire) => (.ok {
        wire := wire
        session := session
        sequence := start.sequence
        timestamp := start.timestamp
        ssrc := start.ssrc }, wire)

/-- `_request`. -/
def ask (method : String) (command : Option AudioCtl) (s : RtspTalkSession) :
    Except TalkbackFault RtspResponse × RtspTalkSession :=
  let r := s.wire.request env s.session method command
  match r.1 with
  | .raised => (.error .os, { s with wire := r.2 })
  | .lost => (.error (.backchannel ("camera did not answer RTSP " ++ method)), { s with wire := r.2 })
  | .response response => (.ok response, { s with wire := r.2 })

/-- `_control`. -/
def control (command : AudioCtl) (s : RtspTalkSession) : Except TalkbackFault Unit × RtspTalkSession :=
  match s.ask env "USER_CMD_SET" (some command) with
  | (.error fault, s) => (.error fault, s)
  | (.ok response, s) =>
    if response.status ≠ 200 then
      (.error (.backchannel ("camera rejected RTSP audio " ++ command.text ++ " (" ++ toString response.status ++ ")")), s)
    else (.ok (), s)

/-- The DESCRIBE requests of `open`. -/
def describe (camera : RtspCamera) (s : RtspTalkSession) : Except TalkbackFault Unit × RtspTalkSession :=
  match s.ask env "DESCRIBE" none with
  | (.error fault, s) => (.error fault, s)
  | (.ok first, s) =>
    if first.status = 401 ∧ camera.username = "" then
      (.error (.backchannel "camera requires RTSP credentials"), s)
    else
      let last := if first.status = 401 then ask env "DESCRIBE" none { s with challenged := true } else (.ok first, s)
      match last with
      | (.error fault, s) => (.error fault, s)
      | (.ok response, s) =>
        if response.status ≠ 200 then
          (.error (.backchannel ("camera rejected RTSP credentials (" ++ toString response.status ++ ")")), s)
        else (.ok (), s)

/-- The OPTIONS request of `open`. -/
def options (s : RtspTalkSession) : Except TalkbackFault Unit × RtspTalkSession :=
  match s.ask env "OPTIONS" none with
  | (.error fault, s) => (.error fault, s)
  | (.ok response, s) =>
    if response.status ≠ 200 ∨ "USER_CMD_SET".toList ∉ response.publicMethods then
      (.error (.backchannel "camera does not advertise Yoosee RTSP talkback"), s)
    else (.ok (), s)

/-- The new connection of `open`, the audio command and what is noted if it succeeds. -/
def enable (s : RtspTalkSession) : Except TalkbackFault Unit × RtspTalkSession :=
  let s := { s with wire := s.wire.note (.shut s.session) }
  match s.wire.connect env with
  | (.error fault, wire) => (.error fault, { s with wire := wire })
  | (.ok session, wire) =>
    match control env .open { s with wire := wire, session := session, challenged := false } with
    | (.error fault, s) => (.error fault, s)
    | (.ok (), s) =>
      let now := s.wire.clock env
      (.ok (), { s with wire := now.2, opened := true, refreshAt := now.1 + OPEN_REFRESH_SECONDS })

/-- `open`. -/
def open_ (camera : RtspCamera) (s : RtspTalkSession) : Except TalkbackFault Unit × RtspTalkSession :=
  match s.describe env camera with
  | (.error fault, s) => (.error fault, s)
  | (.ok (), s) =>
    match s.options env with
    | (.error fault, s) => (.error fault, s)
    | (.ok (), s) => s.enable env

/-- The refresh of `send_pcm`. -/
def refresh (s : RtspTalkSession) : Except TalkbackFault Unit × RtspTalkSession :=
  let now := s.wire.clock env
  let s := { s with wire := now.2 }
  if now.1 < s.refreshAt then (.ok (), s)
  else
    match s.control env .open with
    | (.error fault, s) => (.error fault, s)
    | (.ok (), s) =>
      let now := s.wire.clock env
      (.ok (), { s with wire := now.2, refreshAt := now.1 + OPEN_REFRESH_SECONDS })

/-- The packet of `send_pcm`. -/
def write (payload : Bytes) (s : RtspTalkSession) : Except TalkbackFault Unit × RtspTalkSession :=
  match packRtp payload s.sequence s.timestamp s.ssrc s.firstPacket with
  | .error fault => (.error fault, s)
  | .ok packet =>
    let r := s.wire.media env s.session RTP_CHANNEL packet
    if r.1 then (.error .os, { s with wire := r.2 })
    else (.ok (), { s with
      wire := r.2
      firstPacket := false
      sequence := (s.sequence + 1) % 0x10000
      timestamp := (s.timestamp + RTP_TIMESTAMP_STEP) % 0x100000000 })

/-- `send_pcm`. -/
def sendPcm (payload : Bytes) (s : RtspTalkSession) : Except TalkbackFault Unit × RtspTalkSession :=
  if !s.opened then (.error (.backchannel "RTSP talkback is not open"), s)
  else
    match s.refresh env with
    | (.error fault, s) => (.error fault, s)
    | (.ok (), s) => s.write env payload

/-- The CLOSE on a fresh socket, after the one on the session has failed. -/
def recover (s : RtspTalkSession) : Bool × RtspTalkSession :=
  match s.wire.connect env with
  | (.error _, wire) => (false, { s with wire := wire })
  | (.ok session, wire) =>
    let r := wire.request env session "USER_CMD_SET" (some .close)
    let s := { s with wire := r.2.note (.shut session) }
    match r.1 with
    | .response response => (response.status = 200, s)
    | _ => (false, s)

/-- `close`: is the decoder released? -/
def close (s : RtspTalkSession) : Bool × RtspTalkSession :=
  let r :=
    if s.opened then
      match s.control env .close with
      | (.ok (), s) => (true, s)
      | (.error _, s) => s.recover env
    else (true, s)
  (r.1, { r.2 with opened := false, wire := r.2.wire.note (.shut r.2.session) })

end RtspTalkSession

/-! ## A message -/

structure AudioMessageResult where
  durationMs : Nat
  requestedFrames : Nat
  sentFrames : Nat
  acknowledgedFrames : Nat
  directConnection : Bool
  sessionCompleted : Bool
  routeReleased : Bool
  deriving DecidableEq, Repr

/-- `AudioMessageResult(…)`. -/
def AudioMessageResult.vet (r : AudioMessageResult) : Except TalkbackFault AudioMessageResult :=
  if ¬(20 ≤ r.durationMs ∧ r.durationMs ≤ 10000) ∨ r.durationMs % 20 ≠ 0 then
    .error (.value "audio-message duration must be complete 20 ms frames")
  else if ¬(r.acknowledgedFrames ≤ r.sentFrames ∧ r.sentFrames ≤ r.requestedFrames ∧ r.requestedFrames ≤ 500) then
    .error (.value "audio-message frame counts are inconsistent")
  else .ok r

/-- The locals of `_send_chunks`. -/
structure TalkDelivery where
  requestedFrames : Nat := 0
  sentFrames : Nat := 0
  pending : List Bytes := []
  started : Bool := false

/-- `send_pending`. -/
def sendPending (env : RtspEnv) : List Bytes → RtspTalkSession → Except TalkbackFault Unit × RtspTalkSession
  | [], s => (.ok (), s)
  | payload :: pending, s =>
    match s.sendPcm env payload with
    | (.error fault, s) => (.error fault, s)
    | (.ok (), s) => sendPending env pending s

/-- A call of `send_pending`, and the frames it has sent. -/
def TalkDelivery.flush (env : RtspEnv) (d : TalkDelivery) (s : RtspTalkSession) :
    Except TalkbackFault TalkDelivery × RtspTalkSession :=
  match sendPending env d.pending s with
  | (.error fault, s) => (.error fault, s)
  | (.ok (), s) => (.ok { d with pending := [], started := true, sentFrames := d.requestedFrames }, s)

/-- The loop over the chunks, which may fail to come, and the rest of them. -/
def sendAll (env : RtspEnv) (fails : Bool) : List Bytes → TalkDelivery → RtspTalkSession →
    Except TalkbackFault TalkDelivery × RtspTalkSession
  | [], d, s =>
    if fails then (.error .chunks, s)
    else if d.pending = [] then (.ok d, s)
    else d.flush env s
  | chunk :: chunks, d, s =>
    if chunk.length ≠ RTSP_PCM_FRAME_BYTES then
      (.error (.value "RTSP talkback requires complete 20 ms PCM frames"), s)
    else
      let d := { d with
        requestedFrames := d.requestedFrames + 1
        pending := d.pending ++ [chunk.slice 0 RTP_PAYLOAD_BYTES, chunk.slice RTP_PAYLOAD_BYTES RTP_PAYLOAD_BYTES] }
      if !d.started ∧ d.pending.length < PRELOAD_PACKETS then sendAll env fails chunks d s
      else
        match d.flush env s with
        | (.error fault, s) => (.error fault, s)
        | (.ok d, s) => sendAll env fails chunks d s

/-- The body of `_send_chunks` before its `finally`. -/
def deliver (env : RtspEnv) (camera : RtspCamera) (chunks : List Bytes) (fails : Bool) (s : RtspTalkSession) :
    Except TalkbackFault TalkDelivery × RtspTalkSession :=
  match s.open_ env camera with
  | (.error fault, s) => (.error fault, s)
  | (.ok (), s) => sendAll env fails chunks {} s

/-- `_send_chunks`, and the wire after it. -/
def sendChunks (env : RtspEnv) (camera : RtspCamera) (start : RtpStart) (chunks : List Bytes) (fails : Bool) :
    Except TalkbackFault AudioMessageResult × RtspWire :=
  match RtspTalkSession.new env camera start with
  | (.error fault, wire) => (.error fault, wire)
  | (.ok s, _) =>
    let delivered := deliver env camera chunks fails s
    let released := delivered.2.close env
    match delivered.1 with
    | .error fault => (.error fault, released.2.wire)
    | .ok d =>
      if d.requestedFrames = 0 then
        (.error (.value "RTSP talkback requires at least one PCM frame"), released.2.wire)
      else
        (AudioMessageResult.vet {
          durationMs := d.requestedFrames * RTSP_PCM_FRAME_MS
          requestedFrames := d.requestedFrames
          sentFrames := d.sentFrames
          acknowledgedFrames := d.sentFrames
          directConnection := true
          sessionCompleted := released.1
          routeReleased := released.1 }, released.2.wire)

end CamGuard.Talk
