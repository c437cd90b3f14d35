/-
The control lifecycle of a talk session (`intercom_session.py`,
`modern_intercom_session.py`): AV START, the header and talk START, the audio, and at
the end talk STOP and AV CLOSE.

An exception keeps what was done before it; the close of either session is a
`try`/`finally`, so AV CLOSE is attempted whatever becomes of talk STOP.
-/
import CamGuard.Account.RouteProtocol
import CamGuard.Talk.AudioSender

namespace CamGuard.Talk

open CamGuard.Account CamGuard.Media

/-- `CallingResult`. -/
structure CallingResult where
  attempt : Option CallingAttempt
  peerEndpoint : Option Peer

structure AvSessionResult where
  accepted : Bool
  nextSendSequence : Nat
  inboundNext : Dict Nat Nat
  streamVersion : Option Nat
  encodingHeader : Option V1EncodingHeader

/-- `IntercomControlResult`. -/
structure IntercomControlResult where
  avStartAcknowledged : Bool
  headerAcknowledged : Bool
  talkStartAcknowledged : Bool
  talkStopAcknowledged : Bool
  avCloseAcknowledged : Bool
  audio : Option AudioSendResult
  deriving DecidableEq, Repr

def IntercomControlResult.completed (r : IntercomControlResult) : Bool :=
  r.avStartAcknowledged && r.headerAcknowledged && r.talkStartAcknowledged && r.talkStopAcknowledged &&
    r.avCloseAcknowledged && r.audio.all AudioSendResult.completed

/-- What both sessions keep. -/
structure IntercomControl where
  attempt : Option CallingAttempt
  peer : Option Peer
  valid : Bool
  boundedTimeout : ℚ
  maxAudioFrames : Int
  startCalled : Bool := false
  closed : Bool := false
  avStartAcknowledged : Bool := false
  headerAcknowledged : Bool := false
  talkStartAcknowledged : Bool := false
  talkStopAcknowledged : Bool := false
  avCloseAcknowledged : Bool := false

namespace IntercomControl

variable (env : TalkEnv)

def new (calling : CallingResult) (valid : Bool) (timeout : ℚ) (maxAudioFrames : Int) : IntercomControl where
  attempt := calling.attempt
  peer := calling.peerEndpoint
  valid := calling.attempt.isSome && calling.peerEndpoint.isSome && valid
  boundedTimeout := max (1 / 10) (min timeout 5)
  maxAudioFrames := maxAudioFrames

/-- A packet built once, sent until its acknowledgement or for these attempts. -/
def sendAndWait (conv sequence : Nat) (body : Bytes) (attempts : Nat) (t : TalkSocket) (s : IntercomControl) :
    Except TalkFault Bool × TalkSocket :=
  match s.peer with
  | none => (.ok false, t)
  | some peer =>
    match t.buildPush env conv sequence body with
    | (.error e, t) => (.error e, t)
    | (.ok packet, t) => t.sendAndWait env peer s.boundedTimeout packet attempts

/-- The same, of a body that is still to be built. -/
def sendBuilt (conv sequence : Nat) (body : Except TalkFault Bytes) (attempts : Nat) (t : TalkSocket)
    (s : IntercomControl) : Except TalkFault Bool × TalkSocket :=
  match body with
  | .error e => (.error e, t)
  | .ok body => s.sendAndWait env conv sequence body attempts t

def result (s : IntercomControl) (snapshot : Option AudioSendResult) : IntercomControlResult :=
  ⟨s.avStartAcknowledged, s.headerAcknowledged, s.talkStartAcknowledged, s.talkStopAcknowledged, s.avCloseAcknowledged,
    snapshot.filter fun audio => audio.requestedFrames ≠ 0⟩

/-- The `try`/`finally` at the end of both: the answers are kept, and of two
exceptions the one of AV CLOSE is raised. -/
def stopAndClose (stop close : TalkSocket → Except TalkFault Bool × TalkSocket) (t : TalkSocket) (s : IntercomControl) :
    Except TalkFault Unit × TalkSocket × IntercomControl :=
  let (stopped, t) := stop t
  let s := { s with talkStopAcknowledged := stopped.toOption.getD s.talkStopAcknowledged }
  match close t with
  | (.error e, t) => (.error e, t, s)
  | (.ok acknowledged, t) => (stopped.map fun _ => (), t, { s with avCloseAcknowledged := acknowledged })

end IntercomControl

def mediaTlv (payload : Except String Bytes) (cookie : Bytes) : Except TalkFault Bytes :=
  match payload with
  | .error e => .error (.value e)
  | .ok payload => (encryptMediaTlv payload cookie).mapError .tlv

/-! ## The legacy session -/

/-- `LegacyIntercomSession`. -/
structure LegacyIntercomSession extends IntercomControl where
  conv : Nat
  sequence : Nat
  expectedAudioFrames : Option Nat
  audioSender : Option LegacyAudioSender := none

namespace LegacyIntercomSession

variable (env : TalkEnv)

/-- The session, and its table of what the camera sent. -/
def new (calling : CallingResult) (av : AvSessionResult) (timeout : ℚ) (maxAudioFrames : Int := MAX_AUDIO_FRAMES)
    (expectedAudioFrames : Option Nat := none) : LegacyIntercomSession × TalkSocket :=
  ({ IntercomControl.new calling (av.accepted && av.streamVersion = some 1) timeout maxAudioFrames with
      conv := (calling.attempt.map CallingAttempt.linkId).getD 0
      sequence := 0
      expectedAudioFrames := expectedAudioFrames }, { inboundNext := av.inboundNext })

def result (s : LegacyIntercomSession) : IntercomControlResult :=
  s.toIntercomControl.result (s.audioSender.map fun sender => sender.result s.expectedAudioFrames)

/-- Talk START is acknowledged: the sender is made. -/
def openAudio (peer : Peer) (cookie : Bytes) (t : TalkSocket) (s : LegacyIntercomSession) :
    Except TalkFault Bool × TalkSocket × LegacyIntercomSession :=
  match LegacyAudioSender.new env peer s.conv cookie s.sequence s.boundedTimeout s.maxAudioFrames t with
  | (.error e, t) => (.error e, t, s)
  | (.ok sender, t) => (.ok true, t, { s with audioSender := some sender })

/-- The third packet of `start`. -/
def startTalk (peer : Peer) (cookie : Bytes) (t : TalkSocket) (s : LegacyIntercomSession) :
    Except TalkFault Bool × TalkSocket × LegacyIntercomSession :=
  match s.sendBuilt env s.conv s.sequence (mediaTlv (.ok (packLegacyTalkControl true)) cookie) 3 t with
  | (.error e, t) => (.error e, t, s)
  | (.ok acknowledged, t) =>
    let s := { s with talkStartAcknowledged := acknowledged, sequence := s.sequence + 1 }
    if acknowledged then s.openAudio env peer cookie t else (.ok false, t, s)

/-- The second. -/
def startHeader (peer : Peer) (cookie : Bytes) (t : TalkSocket) (s : LegacyIntercomSession) :
    Except TalkFault Bool × TalkSocket × LegacyIntercomSession :=
  match s.sendBuilt env s.conv s.sequence (mediaTlv packLegacyCaptureHeader cookie) 3 t with
  | (.error e, t) => (.error e, t, s)
  | (.ok acknowledged, t) =>
    let s := { s with headerAcknowledged := acknowledged, sequence := s.sequence + 1 }
    if acknowledged then s.startTalk env peer cookie t else (.ok false, t, s)

def start (t : TalkSocket) (s : LegacyIntercomSession) : Except TalkFault Bool × TalkSocket × LegacyIntercomSession :=
  if s.closed then (.error (.runtime "legacy intercom session is closed"), t, s)
  else if s.startCalled then (.error (.runtime "legacy intercom session has already started"), t, s)
  else
    let s := { s with startCalled := true }
    if s.valid = false then (.ok false, t, s)
    else
      match s.attempt, s.peer with
      | some attempt, some peer =>
        match s.sendAndWait env s.conv s.sequence (buildAvControl attempt.callId 6) 2 t with
        | (.error e, t) => (.error e, t, s)
        | (.ok acknowledged, t) =>
          let s := { s with avStartAcknowledged := acknowledged, sequence := s.sequence + 1 }
          if acknowledged then s.startHeader env peer attempt.cookie t else (.ok false, t, s)
      | _, _ => (.error .assertion, t, s)

def sendAudioFrame (frame : Bytes) (t : TalkSocket) (s : LegacyIntercomSession) :
    Except TalkFault Bool × TalkSocket × LegacyIntercomSession :=
  if s.closed then (.error (.runtime "legacy intercom session is closed"), t, s)
  else
    match s.audioSender with
    | none => (.error (.runtime "legacy intercom talk state is not active"), t, s)
    | some sender =>
      match LegacyAudioSender.send env frame t sender with
      | (.error e, t, sender) => (.error e, t, { s with audioSender := some sender })
      | (.ok acknowledged, t, sender) =>
        (.ok acknowledged, t, { s with audioSender := some sender, sequence := sender.result.nextSequence })

def close (t : TalkSocket) (s : LegacyIntercomSession) :
    Except TalkFault IntercomControlResult × TalkSocket × LegacyIntercomSession :=
  if s.closed then (.ok s.result, t, s)
  else
    let s := { s with closed := true }
    if s.valid = false ∨ s.startCalled = false then (.ok s.result, t, s)
    else
      match s.attempt with
      | none => (.error .assertion, t, s)
      | some attempt =>
        let s := match s.audioSender with
          | none => s
          | some sender =>
            let (audio, sender) := LegacyAudioSender.close sender
            { s with audioSender := some sender, sequence := audio.nextSequence }
        let stopped := s.toIntercomControl.stopAndClose
          (fun t => s.sendBuilt env s.conv s.sequence (mediaTlv (.ok (packLegacyTalkControl false)) attempt.cookie) 4 t)
          (fun t => s.sendAndWait env s.conv (s.sequence + 1) (buildAvControl attempt.callId 7) 3 t) t
        let s := { s with toIntercomControl := stopped.2.2, sequence := s.sequence + 1 }
        (stopped.1.map fun _ => s.result, stopped.2.1, s)

end LegacyIntercomSession

/-! ## The modern session -/

def INTERCOM_AUDIO_FORMAT : V1EncodingHeader where
  marker := 0x0102
  audioCodec := 5
  audioCodecOption := 0
  audioChannels := 1
  audioBitWidth := 16
  audioSampleRate := 8000
  audioFrameSize := 160
  videoCodec := 0
  videoFrameRate := 0
  videoWidth := 0
  videoHeight := 0

/-- The microphone command, dated when it is built, in its TLV. -/
def microphoneTlv (enabled : Bool) (timestampUs : Nat) (cookie : Bytes) : Except TalkFault Bytes :=
  match packMicrophoneCommand enabled timestampUs with
  | .error (.inl e) => .error (.builtin e)
  | .error (.inr e) => .error (.userData e)
  | .ok payload => (encryptCommandTlv payload cookie).mapError .tlv

/-- `ModernIntercomSession`: media and commands have a conversation each. -/
structure ModernIntercomSession extends IntercomControl where
  mediaConv : Nat
  commandConv : Nat
  mediaSequence : Nat
  commandSequence : Nat
  audioSender : Option ModernAudioSender := none

namespace ModernIntercomSession

variable (env : TalkEnv)

/-- The session, and its table of what the camera sent. -/
def new (calling : CallingResult) (av : AvSessionResult) (timeout : ℚ) (maxAudioFrames : Int := MAX_AUDIO_FRAMES) :
    ModernIntercomSession × TalkSocket :=
  let linkId := (calling.attempt.map CallingAttempt.linkId).getD 0
  ({ IntercomControl.new calling (av.accepted && av.streamVersion = some 1 && av.encodingHeader.isSome) timeout
      maxAudioFrames with
      mediaConv := linkId
      commandConv := linkId ||| 0x80000000
      mediaSequence := 0
      commandSequence := av.nextSendSequence }, { inboundNext := av.inboundNext })

def result (s : ModernIntercomSession) : IntercomControlResult :=
  s.toIntercomControl.result (s.audioSender.map fun sender => sender.toAudioSender.result)

/-- Talk START is acknowledged: the sender is made. -/
def openAudio (peer : Peer) (cookie : Bytes) (t : TalkSocket) (s : ModernIntercomSession) :
    Except TalkFault Bool × TalkSocket × ModernIntercomSession :=
  match ModernAudioSender.new env peer s.mediaConv cookie s.mediaSequence s.boundedTimeout s.maxAudioFrames t with
  | (.error e, t) => (.error e, t, s)
  | (.ok sender, t) => (.ok true, t, { s with audioSender := some sender })

/-- The third packet of `start`, on the conversation of the commands. -/
def startTalk (peer : Peer) (cookie : Bytes) (t : TalkSocket) (s : ModernIntercomSession) :
    Except TalkFault Bool × TalkSocket × ModernIntercomSession :=
  let (timestampUs, t) := t.stampUs env
  match s.sendBuilt env s.commandConv s.commandSequence (microphoneTlv true timestampUs cookie) 1 t with
  | (.error e, t) => (.error e, t, s)
  | (.ok acknowledged, t) =>
    let s := { s with talkStartAcknowledged := acknowledged, commandSequence := s.commandSequence + 1 }
    if acknowledged then s.openAudio env peer cookie t else (.ok false, t, s)

/-- The second. -/
def startHeader (peer : Peer) (cookie : Bytes) (t : TalkSocket) (s : ModernIntercomSession) :
    Except TalkFault Bool × TalkSocket × ModernIntercomSession :=
  match s.sendBuilt env s.mediaConv s.mediaSequence
    (mediaTlv (packV1AudioEncodingHeader INTERCOM_AUDIO_FORMAT) cookie) 3 t with
  | (.error e, t) => (.error e, t, s)
  | (.ok acknowledged, t) =>
    let s := { s with headerAcknowledged := acknowledged, mediaSequence := s.mediaSequence + 1 }
    if acknowledged then s.startTalk env peer cookie t else (.ok false, t, s)

def start (t : TalkSocket) (s : ModernIntercomSession) : Except TalkFault Bool × TalkSocket × ModernIntercomSession :=
  if s.closed then (.error (.runtime "modern intercom session is closed"), t, s)
  else if s.startCalled then (.error (.runtime "modern intercom session has already started"), t, s)
  else
    let s := { s with startCalled := true }
    if s.valid = false then (.ok false, t, s)
    else
      match s.attempt, s.peer with
      | some attempt, some peer =>
        match s.sendAndWait env s.mediaConv s.mediaSequence (buildAvControl attempt.callId 6) 2 t with
        | (.error e, t) => (.error e, t, s)
        | (.ok acknowledged, t) =>
          let s := { s with avStartAcknowledged := acknowledged, mediaSequence := s.mediaSequence + 1 }
          if acknowledged then s.startHeader env peer attempt.cookie t else (.ok false, t, s)
      | _, _ => (.error .assertion, t, s)

def sendAudioFrame (frame : Bytes) (t : TalkSocket) (s : ModernIntercomSession) :
    Except TalkFault Bool × TalkSocket × ModernIntercomSession :=
  if s.closed then (.error (.runtime "modern intercom session is closed"), t, s)
  else
    match s.audioSender with
    | none => (.error (.runtime "modern intercom talk state is not active"), t, s)
    | some sender =>
      match sender.send env frame t with
      | (.error e, t, sender) => (.error e, t, { s with audioSender := some sender })
      | (.ok acknowledged, t, sender) =>
        (.ok acknowledged, t, { s with audioSender := some sender, mediaSequence := sender.result.nextSequence })

/-- The sender is closed first, outside the `try`. -/
def closeAudio (t : TalkSocket) (s : ModernIntercomSession) :
    Except TalkFault Unit × TalkSocket × ModernIntercomSession :=
  match s.audioSender with
  | none => (.ok (), t, s)
  | some sender =>
    match sender.close env t with
    | (.error e, t, sender) => (.error e, t, { s with audioSender := some sender })
    | (.ok audio, t, sender) => (.ok (), t, { s with audioSender := some sender, mediaSequence := audio.nextSequence })

/-- Talk STOP, dated when it is built. -/
def stopTalk (cookie : Bytes) (s : ModernIntercomSession) (t : TalkSocket) : Except TalkFault Bool × TalkSocket :=
  let (timestampUs, t) := t.stampUs env
  s.sendBuilt env s.commandConv s.commandSequence (microphoneTlv false timestampUs cookie) 4 t

def close (t : TalkSocket) (s : ModernIntercomSession) :
    Except TalkFault IntercomControlResult × TalkSocket × ModernIntercomSession :=
  if s.closed then (.ok s.result, t, s)
  else
    let s := { s with closed := true }
    if s.valid = false ∨ s.startCalled = false then (.ok s.result, t, s)
    else
      match s.attempt with
      | none => (.error .assertion, t, s)
      | some attempt =>
        match s.closeAudio env t with
        | (.error e, t, s) => (.error e, t, s)
        | (.ok (), t, s) =>
          let stopped := s.toIntercomControl.stopAndClose (s.stopTalk env attempt.cookie)
            (fun t => s.sendAndWait env s.mediaConv s.mediaSequence (buildAvControl attempt.callId 7) 3 t) t
          let s := { s with toIntercomControl := stopped.2.2 }
          (stopped.1.map fun _ => s.result, stopped.2.1, s)

end ModernIntercomSession

end CamGuard.Talk
