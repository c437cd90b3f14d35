/-
Broker media routes: one job per route, which opens and closes it
(`media_route_job.py`), and the account's table of them
(`account_media_routes.py`).

Jobs outlive the table, so they are kept beside it and known by their place;
the table holds places. An account's output is known by its number. A run
(`RouteWorld.step`) also has steps of others on the outputs and on the sequence
namespace; nobody but a job has its reserve.
-/
import CamGuard.Account.RouteProtocol
import CamGuard.Lib.Clocked

namespace CamGuard.Account

open CamGuard.Crypto

/-! ## One route -/

structure MediaRouteSpec where
  accessId : Nat
  device : OnlineDevice
  preferLanUdp : Bool := false
  deriving DecidableEq, Repr

structure MediaRouteResult where
  opened : Bool
  closeAttempted : Bool
  brokerRelease : Bool
  deriving DecidableEq, Repr

/-- What `secrets` gives while a route is prepared. -/
structure RouteDraws where
  callId : Fin (2 ^ 32)
  cookie : { b : Bytes // b.length = 8 }
  openNoise : Nat
  hangupMessage : Fin (2 ^ 31)
  closeNoise : Nat

structure MediaRouteJob where
  /-- The output the reserve is of, and the reserve. -/
  output : Nat
  reserve : Nat
  closingSequence : Nat
  attempt : CallingAttempt
  metadata : Bytes
  opening : Bytes
  closing : Bytes
  node : Option CertifiedNode
  generation : Nat
  admitUntil : ℚ
  relayUntil : ℚ := 0
  closeUntil : ℚ := 0
  cancelled : Bool := false
  opened : Bool := false
  closingSent : Bool := false
  endpoint : Option Endpoint := none
  lanEndpoint : Option Endpoint := none
  natEndpoint : Option Endpoint := none
  accessId : Nat
  deviceId : Nat
  result : Option MediaRouteResult := none

inductive RouteFault where
  | identity
  | link
  | refused
  | owner
  | capacity
  | exhausted
  | output (e : OutputFault)
  | sequence (e : SequenceFault)
  | calling (e : CallingFault)
  | frame (e : GuteFault)
  deriving DecidableEq, Repr

def RouteFault.reason : RouteFault → String
  | .identity => "media route identity mismatch"
  | .link => "invalid allocated media link"
  | .refused => "account not accepting media route"
  | .owner => "shared account output owner required"
  | .capacity => "media route capacity or duplicate device"
  | .exhausted => "media route link space exhausted"
  | .output e => e.reason
  | .sequence e => e.reason
  | .calling e => e.reason
  | .frame e => e.reason

namespace MediaRouteJob

/-- The frames of a route, once it has its two sequences. -/
def frames (node : CertifiedNode) (spec : MediaRouteSpec) (address : BoundAddress) (attempt : CallingAttempt)
    (draws : RouteDraws) (opening closing : Nat) : Except CallingFault (Bytes × Bytes × Bytes) :=
  match withPreconnectDefinition ((buildAvInit attempt.callId).slice 24 32) 3 with
  | .error e => .error e
  | .ok metadata =>
    match buildCallingRequest node spec.accessId spec.device.deviceId address attempt opening draws.openNoise
      metadata with
    | .error e => .error e
    | .ok openingWire =>
      match buildRouteHangup node spec.accessId spec.device.deviceId attempt.linkId closing draws.hangupMessage
        draws.closeNoise with
      | .error e => .error e
      | .ok closingWire => .ok (metadata, openingWire, closingWire)

/-- `MediaRouteJob(…)` on a link that was allocated. What fails after the reserve
was taken gives it back. -/
def new (node : CertifiedNode) (source : BrokerSequences) (output : Nat) (budget : AccountOutputBudget)
    (spec : MediaRouteSpec) (generation : Nat) (address : BoundAddress) (link : Nat) (draws : RouteDraws) (now : ℚ) :
    Except RouteFault MediaRouteJob × AccountOutputBudget × BrokerSequences :=
  if source.matchesIdentity node.sessionId generation = false ∨ 2 ^ 64 ≤ spec.accessId ∨ spec.device.deviceId = 0 ∨
      2 ^ 64 ≤ spec.device.deviceId ∨ spec.device.status = 0 then (.error .identity, budget, source)
  else if link = 0 ∨ 0xFFFFFF < link then (.error .link, budget, source)
  else
    match budget.reserveMedia now with
    | (.error e, budget) => (.error (.output e), budget, source)
    | (.ok token, budget) =>
      match source.reserve 2 with
      | (.error e, source) => (.error (.sequence e), budget.closeMedia token, source)
      | (.ok ids, source) =>
        let attempt : CallingAttempt := ⟨link, draws.callId, draws.cookie⟩
        match frames node spec address attempt draws (ids.getD 0 0) (ids.getD 1 0) with
        | .error e => (.error (.calling e), budget.closeMedia token, source)
        | .ok (metadata, opening, closing) => (.ok {
            output := output
            reserve := token
            closingSequence := ids.getD 1 0
            attempt := attempt
            metadata := metadata
            opening := opening
            closing := closing
            node := some node
            generation := generation
            admitUntil := now + 1
            accessId := spec.accessId
            deviceId := spec.device.deviceId }, budget, source)

def cancel (j : MediaRouteJob) : MediaRouteJob := { j with cancelled := true }

/-- `send_failed`. -/
def sendFailed (j : MediaRouteJob) : MediaRouteJob := j.cancel

/-- `_finish`: the reserve of a route that may still be open is kept. -/
def finish (j : MediaRouteJob) (budget : AccountOutputBudget) (confirmed : Bool) :
    MediaRouteJob × AccountOutputBudget :=
  ({ j with
      result := some ⟨j.opened, j.closingSent, confirmed⟩
      opening := []
      closing := []
      node := none
      attempt := ⟨0, 0, []⟩
      metadata := []
      endpoint := none
      lanEndpoint := none
      natEndpoint := none
      accessId := 0
      deviceId := 0 },
    if confirmed || !j.opened then budget.closeMedia j.reserve else budget)

/-- `next_packet`. -/
def nextPacket (j : MediaRouteJob) (source : BrokerSequences) (budget : AccountOutputBudget) (now : ℚ) :
    Except RouteFault (Option (MediaKind × Bytes)) × MediaRouteJob × AccountOutputBudget :=
  match j.result, j.node with
  | some _, _ => (.ok none, j, budget)
  | none, none => (.ok none, j, budget)
  | none, some node =>
    if j.opened = false then
      if j.cancelled ∨ j.admitUntil ≤ now ∨ source.matchesIdentity node.sessionId j.generation = false then
        (.ok none, j.finish budget false)
      else
        match budget.chargeMedia now j.reserve .open j.opening.length with
        | (.error e, budget) => (.error (.output e), j, budget)
        | (.ok (), budget) =>
          (.ok (some (.open, j.opening)), { j with opened := true, relayUntil := now + 4 }, budget)
    else
      let j := if j.endpoint.isNone ∧ j.relayUntil ≤ now then j.cancel else j
      if j.closingSent = false ∧ j.cancelled then
        match budget.chargeMedia now j.reserve .close j.closing.length with
        | (.error e, budget) => (.error (.output e), j, budget)
        | (.ok (), budget) =>
          (.ok (some (.close, j.closing)), { j with closingSent := true, closeUntil := now + 3 / 2 }, budget)
      else if j.closingSent ∧ j.closeUntil ≤ now then (.ok none, j.finish budget false)
      else (.ok none, j, budget)

/-- The header of a receipt for the hangup with this sequence. -/
def ReceiptHeader (plain : Bytes) (session sequence : Nat) : Prop :=
  plain.length = 32 ∧ (plain.at_ 0 = 0x7E ∨ plain.at_ 0 = 0x7F) ∧ plain.at_ 1 = 0xB9 ∧ plain.field 2 2 = 32 ∧
    plain.field 8 4 = session ∧ plain.field 4 12 = sequence

instance (plain : Bytes) (session sequence : Nat) : Decidable (ReceiptHeader plain session sequence) :=
  inferInstanceAs (Decidable (_ ∧ _))

/-- The candidates an A3 answer brings; the relay ends the search. -/
def candidates (j : MediaRouteJob) (node : CertifiedNode) (plain : Bytes) : MediaRouteJob :=
  let j := match parseMtpLanEndpoint plain node.sessionId j.attempt.linkId with
    | none => j
    | some candidate => { j with lanEndpoint := some candidate }
  let j := { j with endpoint := selectRelay plain node.sessionId j.attempt.linkId }
  if j.endpoint.isNone then j
  else
    match parseMtpPeerEndpoint plain j.attempt.linkId with
    | none => j
    | some direct => if isGlobal direct.1 then { j with natEndpoint := some direct } else j

/-- `observe`; the checksum of a frame with trailer flags cannot be taken. -/
def observe (j : MediaRouteJob) (budget : AccountOutputBudget) (plain : Bytes) (peer : String × Nat) (generation : Nat)
    (now : ℚ) : Except RouteFault Unit × MediaRouteJob × AccountOutputBudget :=
  match j.result, j.node with
  | some _, _ => (.ok (), j, budget)
  | none, none => (.ok (), j, budget)
  | none, some node =>
    if j.opened = false ∨ peer ≠ node.address ∨ generation ≠ j.generation then (.ok (), j, budget)
    else if j.closingSent = false then
      if j.endpoint.isNone ∧ j.cancelled = false ∧ now < j.relayUntil then (.ok (), j.candidates node plain, budget)
      else (.ok (), j, budget)
    else if j.closeUntil ≤ now ∨ ¬ ReceiptHeader plain node.sessionId j.closingSequence then (.ok (), j, budget)
    else
      match guteMode1XorChecksum plain with
      | .error e => (.error (.frame e), j, budget)
      | .ok checksum =>
        if plain.field 4 16 ≠ checksum then (.ok (), j, budget)
        else
          let flags := plain.field 4 20
          if (flags >>> 16) &&& 3 = 2 ∧ flags.testBit 20 ∧ flags.testBit 21 = false then
            (.ok (), j.finish budget (decide (plain.field 2 26 = 0)))
          else (.ok (), j, budget)

end MediaRouteJob

/-! ## The table -/

structure AccountMediaRoutes where
  node : Option CertifiedNode
  generation : Nat
  address : BoundAddress
  capacity : Nat
  routes : Dict Nat Nat := ∅
  closed : Bool := false
  output : Option Nat := none
  nextLink : Nat
  linksLeft : Nat := 0xFFFFFF

/-- `AccountMediaRoutes(…)`; `draw` is what `secrets.randbelow(0xFFFFFF)` gave. -/
def AccountMediaRoutes.new (node : CertifiedNode) (generation : Nat) (address : BoundAddress) (capacity : Nat)
    (draw : Fin 0xFFFFFF) : Option AccountMediaRoutes :=
  if capacity < 1 then none
  else some {
    node := some node
    generation := generation
    address := address
    capacity := capacity
    nextLink := draw.val + 1 }

/-- The table, every job there was, the outputs and the sequence namespace. -/
structure RouteWorld where
  table : AccountMediaRoutes
  jobs : List MediaRouteJob := []
  outputs : Nat → AccountOutputBudget
  source : BrokerSequences

namespace RouteWorld

/-- The result of the job at a place. -/
def result (w : RouteWorld) (id : Nat) : Option MediaRouteResult := (w.jobs[id]?).bind MediaRouteJob.result

/-- `cleanup_pending`. -/
def cleanupPending (w : RouteWorld) : Bool := w.table.routes.values.any fun id => (w.result id).isNone

/-- `release_uncertain`. -/
def releaseUncertain (w : RouteWorld) : Bool :=
  w.table.routes.values.any fun id => (w.result id).any fun r => r.opened && !r.brokerRelease

def setBudget (w : RouteWorld) (output : Nat) (budget : AccountOutputBudget) : RouteWorld :=
  { w with outputs := Function.update w.outputs output budget }

/-- A job among the account's objects, and back. -/
def setJob (w : RouteWorld) (id : Nat) (job : MediaRouteJob) (budget : AccountOutputBudget) : RouteWorld :=
  { w.setBudget job.output budget with jobs := w.jobs.set id job }

/-- What a prepared route has: its place, its link and its device. -/
structure Prepared where
  id : Nat
  link : Nat
  device : Nat
  deriving DecidableEq, Repr

/-- The table without the jobs that have ended. -/
def purged (w : RouteWorld) : Dict Nat Nat :=
  ⟨w.table.routes.entries.filter fun e => (w.result e.2).isNone,
    w.table.routes.nodup.sublist (List.filter_sublist.map Prod.fst)⟩

/-- `prepare`; the link that was allocated, if one was, and the job. -/
def prepare (w : RouteWorld) (spec : MediaRouteSpec) (output : Nat) (draws : RouteDraws) (now : ℚ) :
    Option Nat × Except RouteFault Prepared × RouteWorld :=
  if w.table.closed ∨ w.releaseUncertain then (none, .error .refused, w)
  else
    let routes := w.purged
    let w := { w with table := { w.table with routes := routes } }
    if w.table.output.isSome ∧ w.table.output ≠ some output then (none, .error .owner, w)
    else if routes.contains spec.device.deviceId ∨ w.table.capacity ≤ routes.size then (none, .error .capacity, w)
    else if w.table.linksLeft = 0 then (none, .error .exhausted, w)
    else
      let link := w.table.nextLink
      let w := { w with table := { w.table with nextLink := link % 0xFFFFFF + 1, linksLeft := w.table.linksLeft - 1 } }
      match w.table.node with
      | none => (some link, .error .refused, w)
      | some node =>
        match MediaRouteJob.new node w.source output (w.outputs output) spec w.table.generation w.table.address link
          draws now with
        | (.error e, budget, source) => (some link, .error e, { w.setBudget output budget with source := source })
        | (.ok job, budget, source) =>
          (some link, .ok ⟨w.jobs.length, link, spec.device.deviceId⟩, { w.setBudget output budget with
            source := source
            jobs := w.jobs ++ [job]
            table := { w.table with
              routes := routes.set spec.device.deviceId w.jobs.length
              output := some output } })

/-- `next_packet` of the job at a place. -/
def nextPacket (w : RouteWorld) (id : Nat) (now : ℚ) : Except RouteFault (Option (MediaKind × Bytes)) × RouteWorld :=
  match w.jobs[id]? with
  | none => (.ok none, w)
  | some job =>
    match job.nextPacket w.source (w.outputs job.output) now with
    | (out, job, budget) => (out, w.setJob id job budget)

def observeJob (w : RouteWorld) (id : Nat) (plain : Bytes) (peer : String × Nat) (generation : Nat) (now : ℚ) :
    Except RouteFault Unit × RouteWorld :=
  match w.jobs[id]? with
  | none => (.ok (), w)
  | some job =>
    match job.observe (w.outputs job.output) plain peer generation now with
    | (out, job, budget) => (out, w.setJob id job budget)

/-- `observe`: the jobs of the table one after another, up to one that fails. -/
def observe (w : RouteWorld) (ids : List Nat) (plain : Bytes) (peer : String × Nat) (generation : Nat) (now : ℚ) :
    Except RouteFault Unit × RouteWorld :=
  match ids with
  | [] => (.ok (), w)
  | id :: ids =>
    match w.observeJob id plain peer generation now with
    | (.error e, w) => (.error e, w)
    | (.ok (), w) => w.observe ids plain peer generation now

def cancelJob (w : RouteWorld) (id : Nat) : RouteWorld := { w with jobs := w.jobs.modify id MediaRouteJob.cancel }

/-- `cancel_all`. -/
def cancelAll (w : RouteWorld) : RouteWorld :=
  let w := { w with table := { w.table with closed := true } }
  let w := w.table.routes.values.foldl cancelJob w
  { w with table := { w.table with node := none } }

/-! ## Runs -/

inductive RouteCall where
  | prepare (spec : MediaRouteSpec) (output : Nat) (draws : RouteDraws)
  | nextPacket (id : Nat)
  | observe (plain : Bytes) (peer : String × Nat) (generation : Nat)
  | cancel (id : Nat)
  | sendFailed (id : Nat)
  | cancelAll
  /-- The rest of the account. -/
  | output (number : Nat) (op : OutputOp)
  | reserve (count : Nat)
  | retire

/-- What can be seen of a run. -/
inductive RouteEvent where
  /-- A link was allocated. -/
  | linked (link : Nat)
  | prepared (route : Prepared)
  | sent (id : Nat) (kind : MediaKind)
  /-- A reserved charge was refused. -/
  | unpaid (id : Nat) (e : RouteFault)
  | observed (plain : Bytes) (peer : String × Nat)
  deriving DecidableEq

/-- Somebody else's operation on the reserve of a job. -/
def intrudes (w : RouteWorld) (number : Nat) (op : OutputOp) : Bool :=
  w.jobs.any fun job => decide (job.output = number) && op.on job.reserve

def call (w : RouteWorld) (now : ℚ) (c : RouteCall) : List RouteEvent × RouteWorld :=
  match c with
  | .prepare spec output draws =>
    match w.prepare spec output draws now with
    | (link, .error _, w) => (link.toList.map .linked, w)
    | (link, .ok route, w) => (link.toList.map .linked ++ [.prepared route], w)
  | .nextPacket id =>
    match w.nextPacket id now with
    | (.error e, w) => ([.unpaid id e], w)
    | (.ok none, w) => ([], w)
    | (.ok (some (kind, _)), w) => ([.sent id kind], w)
  | .observe plain peer generation =>
    ([.observed plain peer], (w.observe w.table.routes.values plain peer generation now).2)
  | .cancel id => ([], w.cancelJob id)
  | .sendFailed id => ([], { w with jobs := w.jobs.modify id MediaRouteJob.sendFailed })
  | .cancelAll => ([], w.cancelAll)
  | .output number op =>
    if w.intrudes number op then ([], w) else ([], w.setBudget number (op.run now (w.outputs number)))
  | .reserve count => ([], { w with source := (w.source.reserve count).2 })
  | .retire => ([], { w with source := w.source.close })

end RouteWorld

/-- A run: the world, and what has been seen with its times. -/
structure RouteRun where
  world : RouteWorld
  log : List (ℚ × RouteWorld.RouteEvent) := []

namespace RouteRun

def step (now : ℚ) (c : RouteWorld.RouteCall) (r : RouteRun) : RouteRun :=
  match r.world.call now c with
  | (events, world) => ⟨world, r.log ++ events.map fun e => (now, e)⟩

def run (w : RouteWorld) (calls : List (ℚ × RouteWorld.RouteCall)) : RouteRun := Machine.run step ⟨w, []⟩ calls

end RouteRun

end CamGuard.Account
