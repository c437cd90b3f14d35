/-
Leases of an account's media: the inbox through which sources ask for a camera
(`media_lease_inbox.py`) and the pump of the account's reader, which gives each
lease a channel (`media_lease_pump.py`).

Every operation of the inbox is one section under its lock; a poll of the pump
has several, and calls of the sources may come between them. What the rest of
the reader does to a channel is a call of its own (`drive`), and so is the
closing of a delivery (`closeVideo`), since anybody may close one at any time.
-/
import CamGuard.Account.MediaRoute
import CamGuard.CameraIdentity

namespace CamGuard.Account

/-! ## Channels -/

/-- Trusted admission of a route; a delivery object is a number. -/
structure MediaBootstrap where
  spec : MediaRouteSpec
  video : Option Nat := none
  deriving DecidableEq, Repr

/-- `TcpMediaResult`. -/
structure TcpMediaResult where
  ready : Bool
  closeAcknowledged : Bool
  socketCloseFailed : Bool
  videoFrames : Nat
  audioFrames : Nat
  encodingHeaders : Nat
  deriving DecidableEq, Repr

/-- `UdpMediaResult`. -/
structure UdpMediaResult where
  ready : Bool
  closeAcknowledged : Bool
  detached : Bool
  videoFrames : Nat
  audioFrames : Nat
  encodingHeaders : Nat
  deriving DecidableEq, Repr

/-- `MediaChannelSummary`. -/
structure MediaChannelSummary where
  deviceId : Nat
  media : Option MediaRouteResult
  tcp : Option TcpMediaResult
  failure : String := ""
  protocolCode : String := ""
  protocolFacts : List (String × Nat) := []
  udp : Option UdpMediaResult := none
  deriving DecidableEq, Repr

/-- `media_channels_closed`. -/
def mediaChannelsClosed (channels : List MediaChannelSummary) (requireTcpReceipt : Bool := true) : Bool :=
  channels.all fun item =>
    (item.media.any fun media => !media.opened || media.brokerRelease) &&
    (item.tcp.all fun tcp => !tcp.socketCloseFailed && (tcp.closeAcknowledged || !requireTcpReceipt)) &&
    item.udp.all fun udp => udp.detached

/-- What the reader has made of a channel, as far as the pump reads it. -/
structure ChannelState where
  route : Option MediaRouteResult := none
  transportRunning : Bool := false
  tcp : Option TcpMediaResult := none
  udp : Option UdpMediaResult := none
  failure : String := ""
  protocolCode : String := ""
  protocolFacts : List (String × Nat) := []
  deriving DecidableEq, Repr

/-- `AccountMediaChannel`: what it was started with and how far it is. -/
structure AccountMediaChannel where
  bootstrap : MediaBootstrap
  state : ChannelState := {}
  deriving DecidableEq, Repr

/-- `summary`. -/
def AccountMediaChannel.summary (c : AccountMediaChannel) : MediaChannelSummary where
  deviceId := c.bootstrap.spec.device.deviceId
  media := c.state.route
  tcp := c.state.tcp
  failure := c.state.failure
  protocolCode := c.state.protocolCode
  protocolFacts := c.state.protocolFacts
  udp := c.state.udp

/-! ## Inbox -/

/-- `MediaLeaseTicket`. -/
structure MediaLeaseTicket where
  generation : Nat
  serial : Nat
  deriving DecidableEq, Repr

/-- `MediaLeaseOutcome`. -/
structure MediaLeaseOutcome where
  status : String
  channel : Option MediaChannelSummary := none
  deriving DecidableEq, Repr

/-- `_Lease`. -/
structure MediaLease where
  cameraId : String
  bootstrap : MediaBootstrap
  claimed : Bool := false
  cancelled : Bool := false
  result : Option MediaLeaseOutcome := none
  deriving DecidableEq, Repr

/-- The `ValueError`s of the inbox. -/
inductive LeaseFault where
  | mediaCapacity
  | identity
  | targets
  | source
  | capacity
  | duplicate
  | completion
  | running
  | unconfirmed
  /-- What `prepare` or `request_stop` raised. -/
  | reader
  deriving DecidableEq, Repr

/-- Their texts. -/
def LeaseFault.reason : LeaseFault → String
  | .mediaCapacity => "invalid media route capacity"
  | .identity => "typed account lease identity required"
  | .targets => "bounded authenticated lease targets required"
  | .source => "fresh exact-account source lease required"
  | .capacity => "media lease capacity unavailable"
  | .duplicate => "duplicate media lease identity or delivery"
  | .completion => "media lease completion identity mismatch"
  | .running => "media route ended before transport retirement"
  | .unconfirmed => "media lease cleanup unconfirmed"
  | .reader => ""

/-- `MediaLeaseInbox`: the leases of one account's generation. -/
structure MediaLeaseInbox where
  generation : Nat
  accessId : Nat
  targets : List OnlineDevice
  capacity : Nat
  closed : Bool := false
  serial : Nat := 0
  leases : Dict MediaLeaseTicket MediaLease := ∅

namespace MediaLeaseInbox

/-- `MediaLeaseInbox(…)`. -/
def new (generation accessId : Nat) (targets : List OnlineDevice) (capacity : Option Nat) :
    Except LeaseFault MediaLeaseInbox :=
  let capacity := capacity.getD targets.length
  if capacity < 1 then .error .mediaCapacity
  else if generation = 0 ∨ 2 ^ 64 ≤ generation ∨ 2 ^ 64 ≤ accessId then .error .identity
  else if targets.length < 1 ∨ capacity < targets.length ∨
      (targets.any fun target => decide (target.deviceId = 0 ∨ 2 ^ 64 ≤ target.deviceId)) ∨
      ¬ (targets.map OnlineDevice.deviceId).Nodup then .error .targets
  else .ok { generation := generation, accessId := accessId, targets := targets, capacity := capacity }

/-- The delivery is missing or closed; `closed` says which ones are. -/
def gone (closed : Nat → Bool) (video : Option Nat) : Bool :=
  match video with
  | none => true
  | some v => closed v

/-- `submit`; `closed` says which deliveries are closed. -/
def submit (i : MediaLeaseInbox) (closed : Nat → Bool) (cameraId : String) (bootstrap : MediaBootstrap) :
    Except LeaseFault MediaLeaseTicket × MediaLeaseInbox :=
  let device := bootstrap.spec.device
  if validCameraId cameraId = false ∨ bootstrap.spec.accessId ≠ i.accessId ∨ device.deviceId = 0 ∨
      2 ^ 64 ≤ device.deviceId ∨ device.status = 0 ∨ device ∉ i.targets ∨ gone closed bootstrap.video then
    (.error .source, i)
  else if i.closed ∨ i.capacity ≤ i.leases.size ∨ 2 ^ 64 ≤ i.serial then (.error .capacity, i)
  else if i.leases.values.any fun lease => decide (lease.cameraId = cameraId ∨
      lease.bootstrap.spec.device.deviceId = device.deviceId ∨ lease.bootstrap.video = bootstrap.video) then
    (.error .duplicate, i)
  else
    let ticket : MediaLeaseTicket := ⟨i.generation, i.serial⟩
    (.ok ticket, { i with
      serial := i.serial + 1
      leases := i.leases.set ticket { cameraId := cameraId, bootstrap := bootstrap } })

/-- The loop of `claim`: leases without a delivery end on the way. -/
def claimFrom (closed : Nat → Bool) : List MediaLeaseTicket → MediaLeaseInbox →
    Option (MediaLeaseTicket × MediaBootstrap) × MediaLeaseInbox
  | [], i => (none, i)
  | ticket :: rest, i =>
    match i.leases.get? ticket with
    | none => claimFrom closed rest i
    | some lease =>
      if lease.claimed ∨ lease.result.isSome then claimFrom closed rest i
      else if gone closed lease.bootstrap.video then
        claimFrom closed rest { i with leases := i.leases.set ticket { lease with
          cancelled := true
          result := some ⟨"cancelled", none⟩ } }
      else (some (ticket, lease.bootstrap), { i with leases := i.leases.set ticket { lease with claimed := true } })

/-- `claim`: the first lease that can be. -/
def claim (i : MediaLeaseInbox) (closed : Nat → Bool) : Option (MediaLeaseTicket × MediaBootstrap) × MediaLeaseInbox :=
  if i.closed then (none, i) else claimFrom closed i.leases.keys i

/-- `cancel`; the delivery of a lease that ends here is closed after. -/
def cancel (i : MediaLeaseInbox) (ticket : MediaLeaseTicket) : Bool × Option Nat × MediaLeaseInbox :=
  match i.leases.get? ticket with
  | none => (false, none, i)
  | some lease =>
    if lease.result.isSome then (false, none, i)
    else if lease.claimed then
      (true, none, { i with leases := i.leases.set ticket { lease with cancelled := true } })
    else (true, lease.bootstrap.video, { i with leases := i.leases.set ticket { lease with
      cancelled := true
      result := some ⟨"cancelled", none⟩ } })

/-- `should_cancel`. -/
def shouldCancel (i : MediaLeaseInbox) (closed : Nat → Bool) (ticket : MediaLeaseTicket) : Bool :=
  i.closed || match i.leases.get? ticket with
    | none => true
    | some lease => lease.cancelled || gone closed lease.bootstrap.video

/-- `finish`: a completion that is not clean closes the inbox. -/
def finish (i : MediaLeaseInbox) (ticket : MediaLeaseTicket) (channel : MediaChannelSummary) (uncertain : Bool) :
    Except LeaseFault Unit × MediaLeaseInbox :=
  match i.leases.get? ticket with
  | none => (.ok (), i)
  | some lease =>
    if lease.claimed = false ∨ lease.result.isSome then (.ok (), i)
    else if channel.deviceId ≠ lease.bootstrap.spec.device.deviceId then (.error .completion, i)
    else
      let clean := !uncertain && mediaChannelsClosed [channel] false
      (.ok (), { i with
        leases := i.leases.set ticket { lease with
          result := some ⟨if clean then "closed" else "blocked", some channel⟩ }
        closed := i.closed || !clean })

/-- `take`: an outcome is handed out once. -/
def take (i : MediaLeaseInbox) (ticket : MediaLeaseTicket) : Option MediaLeaseOutcome × MediaLeaseInbox :=
  match i.leases.get? ticket with
  | none => (none, i)
  | some lease =>
    match lease.result with
    | none => (none, i)
    | some result => (some result, { i with leases := i.leases.erase ticket })

/-- The section of `close`; then every lease there was is cancelled. -/
def close (i : MediaLeaseInbox) : MediaLeaseInbox := { i with closed := true }

end MediaLeaseInbox

/-! ## Pump -/

/-- Where the reader is in `poll` or `finish`. -/
inductive LeasePhase where
  | idle
  /-- The channels that are left to look at. -/
  | sweep (rest : List MediaLeaseTicket) (defer : Option Nat)
  | prepare (ticket : MediaLeaseTicket) (bootstrap : MediaBootstrap)
  /-- `finish`: the leases that are left to cancel. -/
  | cancelling (rest : List MediaLeaseTicket) (uncertain : Bool)
  /-- `finish`: the channels that are left to complete. -/
  | completing (rest : List MediaLeaseTicket) (uncertain : Bool)

/-- `MediaLeasePump`, with the channels that it holds. -/
structure MediaLeasePump where
  inbox : MediaLeaseInbox
  /-- The deliveries that are closed. -/
  closed : Nat → Bool := fun _ => false
  active : Dict MediaLeaseTicket AccountMediaChannel := ∅
  cleanupUncertain : Bool := false
  phase : LeasePhase := .idle

/-- What can be seen of a run. -/
inductive LeaseEvent where
  | submitted (ticket : MediaLeaseTicket)
  | claimed (ticket : MediaLeaseTicket)
  /-- The result of a claimed lease was set. -/
  | finished (ticket : MediaLeaseTicket) (clean : Bool)
  | taken (ticket : MediaLeaseTicket) (outcome : MediaLeaseOutcome)
  /-- The pump's `finish` has begun. -/
  | retiring
  | raised (e : LeaseFault)
  deriving DecidableEq

namespace MediaLeasePump

/-- The inbox's `finish`, and what is seen of it. -/
def finishLease (p : MediaLeasePump) (ticket : MediaLeaseTicket) (channel : MediaChannelSummary) (uncertain : Bool) :
    Except LeaseFault (List LeaseEvent) × MediaLeasePump :=
  match p.inbox.finish ticket channel uncertain with
  | (.error e, inbox) => (.error e, { p with inbox := inbox })
  | (.ok (), inbox) =>
    let set := (p.inbox.leases.get? ticket).any fun lease => lease.claimed && lease.result.isNone
    let clean := !uncertain && mediaChannelsClosed [channel] false
    (.ok (if set then [.finished ticket clean] else []), { p with inbox := inbox })

/-- `_complete`: whether the completion is clean, and what is seen. -/
def complete (p : MediaLeasePump) (ticket : MediaLeaseTicket) (channel : AccountMediaChannel) (uncertain : Bool) :
    Except LeaseFault (Bool × List LeaseEvent) × MediaLeasePump :=
  let clean := mediaChannelsClosed [channel.summary] false && !uncertain
  match { p with cleanupUncertain := p.cleanupUncertain || !clean }.finishLease ticket channel.summary (!clean) with
  | (.error e, p) => (.error e, p)
  | (.ok events, p) => (.ok (clean, events), p)

/-- What the rest of the reader has for a section: whether `prepare` gives a
route, and what `request_stop` makes of a channel (`none` is an exception). -/
structure Reader where
  prepares : Bool
  stops : Option ChannelState

/-- One channel of `poll`. -/
def sweepOne (p : MediaLeasePump) (reader : Reader) (ticket : MediaLeaseTicket) (channel : AccountMediaChannel)
    (rest : List MediaLeaseTicket) (defer : Option Nat) : List LeaseEvent × MediaLeasePump :=
  if some channel.bootstrap.spec.device.deviceId = defer then ([], { p with phase := .sweep rest defer })
  else if channel.state.route.isSome then
    if channel.state.transportRunning then ([.raised .running], { p with phase := .idle })
    else
      match p.complete ticket channel false with
      | (.error e, p) => ([.raised e], { p with phase := .idle })
      | (.ok (false, events), p) => (events ++ [.raised .unconfirmed], { p with phase := .idle })
      | (.ok (true, events), p) => (events, { p with active := p.active.erase ticket, phase := .sweep rest defer })
  else if p.inbox.shouldCancel p.closed ticket then
    match reader.stops with
    | none => ([.raised .reader], { p with phase := .idle })
    | some state =>
      ([], { p with active := p.active.set ticket { channel with state := state }, phase := .sweep rest defer })
  else ([], { p with phase := .sweep rest defer })

/-- The next section of `poll`; `defer` is read when it starts. -/
def poll (p : MediaLeasePump) (reader : Reader) (defer : Option Nat) : List LeaseEvent × MediaLeasePump :=
  match p.phase with
  | .idle => ([], { p with phase := .sweep p.active.keys defer })
  | .sweep (ticket :: rest) defer =>
    match p.active.get? ticket with
    | none => ([], { p with phase := .sweep rest defer })
    | some channel => p.sweepOne reader ticket channel rest defer
  | .sweep [] _ =>
    match p.inbox.claim p.closed with
    | (none, inbox) => ([], { p with inbox := inbox, phase := .idle })
    | (some (ticket, bootstrap), inbox) =>
      ([.claimed ticket], { p with inbox := inbox, phase := .prepare ticket bootstrap })
  | .prepare ticket bootstrap =>
    if reader.prepares then
      ([], { p with active := p.active.set ticket { bootstrap := bootstrap }, phase := .idle })
    else
      match p.finishLease ticket ⟨bootstrap.spec.device.deviceId, some ⟨false, false, false⟩, none, "protocol", "", [],
        none⟩ false with
      | (.error e, p) => ([.raised e], { p with phase := .idle })
      | (.ok events, p) => (events ++ [.raised .reader], { p with phase := .idle })
  | .cancelling _ _ => ([], p)
  | .completing _ _ => ([], p)

/-- The next section of `finish`. -/
def finish (p : MediaLeasePump) (uncertain : Bool) : List LeaseEvent × MediaLeasePump :=
  match p.phase with
  | .idle =>
    ([.retiring], { p with inbox := p.inbox.close, phase := .cancelling p.inbox.leases.keys uncertain })
  | .cancelling (ticket :: rest) uncertain =>
    ([], { p with inbox := (p.inbox.cancel ticket).2.2, phase := .cancelling rest uncertain })
  | .cancelling [] uncertain => ([], { p with phase := .completing p.active.keys uncertain })
  | .completing (ticket :: rest) uncertain =>
    match p.active.get? ticket with
    | none => ([], { p with phase := .completing rest uncertain })
    | some channel =>
      match p.complete ticket channel uncertain with
      | (.error e, p) => ([.raised e], { p with phase := .idle })
      | (.ok (_, events), p) => (events, { p with phase := .completing rest uncertain })
  | .completing [] _ => ([], { p with phase := .idle })
  | .sweep _ _ => ([], p)
  | .prepare _ _ => ([], p)

/-! ## Runs -/

/-- A call of a source's, or a part of the pump's work. -/
inductive LeaseCall where
  /-- The sources. -/
  | submit (cameraId : String) (bootstrap : MediaBootstrap)
  | cancel (ticket : MediaLeaseTicket)
  | take (ticket : MediaLeaseTicket)
  | close
  | closeVideo (video : Nat)
  /-- The reader. -/
  | poll (reader : Reader) (defer : Option Nat)
  | finish (uncertain : Bool)
  | drive (ticket : MediaLeaseTicket) (state : ChannelState)

/-- One call, and what it tells. -/
def step (p : MediaLeasePump) (c : LeaseCall) : List LeaseEvent × MediaLeasePump :=
  match c with
  | .submit cameraId bootstrap =>
    match p.inbox.submit p.closed cameraId bootstrap with
    | (.error _, inbox) => ([], { p with inbox := inbox })
    | (.ok ticket, inbox) => ([.submitted ticket], { p with inbox := inbox })
  | .cancel ticket => ([], { p with inbox := (p.inbox.cancel ticket).2.2 })
  | .take ticket =>
    match p.inbox.take ticket with
    | (none, inbox) => ([], { p with inbox := inbox })
    | (some outcome, inbox) => ([.taken ticket outcome], { p with inbox := inbox })
  | .close => ([], { p with inbox := p.inbox.close })
  | .closeVideo video => ([], { p with closed := Function.update p.closed video true })
  | .poll reader defer => p.poll reader defer
  | .finish uncertain => p.finish uncertain
  | .drive ticket state =>
    match p.active.get? ticket with
    | none => ([], p)
    | some channel => ([], { p with active := p.active.set ticket { channel with state := state } })

end MediaLeasePump

/-- A run: the pump with its inbox, and what has been seen. -/
structure LeaseRun where
  pump : MediaLeasePump
  log : List LeaseEvent := []

namespace LeaseRun

/-- One call; what it tells is logged. -/
def step (r : LeaseRun) (c : MediaLeasePump.LeaseCall) : LeaseRun :=
  match r.pump.step c with
  | (events, pump) => ⟨pump, r.log ++ events⟩

/-- The calls, on an inbox that has just been made. -/
def run (inbox : MediaLeaseInbox) (calls : List MediaLeasePump.LeaseCall) : LeaseRun :=
  calls.foldl step ⟨{ inbox := inbox }, []⟩

end LeaseRun

end CamGuard.Account
