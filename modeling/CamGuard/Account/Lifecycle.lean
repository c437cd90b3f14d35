/-
The generations of an account (`account_read_lifecycle.py`), with what it uses
of a worker (`account_read_worker.py`) and of the driver's motion grants
(`ptz_authority.py`).

Any number of threads may call `run`; each run is a list of phases, between
which the other callers come. A section under the lock is one step. What the
connection factory, the worker and the inboxes answer is an input of the step
that asks them.
-/
import CamGuard.Account.Mailbox
import CamGuard.Account.MediaLease
import CamGuard.Account.PtzScheduler
import CamGuard.Account.SirenPulse

namespace CamGuard.Account

/-! ## Grants -/

/-- What an account may do with a camera's motors. -/
structure PtzGrant where
  accessId : Nat
  deviceId : Nat
  directions : List Direction

/-- `PtzAuthority.authorize`; the grants are of one account, one for a device. -/
def authorize (grants : List PtzGrant) (spec : PtzSpec) : Bool :=
  match grants.find? fun grant => grant.deviceId = spec.device with
  | none => false
  | some grant =>
    decide (spec.access = grant.accessId ∧ (∀ d ∈ spec.reviewedDirections, d ∈ grant.directions) ∧
      spec.direction ∈ grant.directions)

/-! ## Workers -/

/-- The inboxes of a worker. -/
inductive InboxKind where
  | mailbox
  | catalog
  | siren
  | lamp
  | control
  | motion
  deriving DecidableEq, Repr

/-- A ticket of one of the inboxes. -/
structure InboxTicket where
  kind : InboxKind
  generation : Nat
  serial : Nat
  deriving DecidableEq, Repr

/-- What the lifecycle can see of an inbox. -/
structure Inbox where
  kind : InboxKind
  generation : Nat
  serial : Nat := 0
  closed : Bool := false
  deriving DecidableEq, Repr

namespace Inbox

/-- `submit`; whether there is room is an input. -/
def submit (room : Bool) (i : Inbox) : Option InboxTicket × Inbox :=
  if i.closed ∨ room = false then (none, i)
  else (some ⟨i.kind, i.generation, i.serial⟩, { i with serial := i.serial + 1 })

/-- `close`. -/
def close (i : Inbox) : Inbox := { i with closed := true }

end Inbox

/-- `AccountReadWorker`, with its inboxes and its two events. -/
structure AccountReadWorker where
  generation : Nat
  inboxes : List Inbox
  stopSet : Bool := false
  drainSet : Bool := false
  deriving DecidableEq, Repr

namespace AccountReadWorker

/-- `AccountReadWorker(…)`. -/
def new (generation : Nat) (stateReads motion : Bool) : AccountReadWorker where
  generation := generation
  inboxes :=
    let kinds : List InboxKind := [.mailbox] ++ (if stateReads then [.lamp, .catalog, .control, .siren] else []) ++
      if motion then [.motion] else []
    kinds.map fun kind => { kind := kind, generation := generation }

/-- The inbox of a kind, where the worker has one. -/
def inbox (w : AccountReadWorker) (kind : InboxKind) : Option Inbox := w.inboxes.find? fun i => i.kind = kind

/-- One inbox has changed. -/
def setInbox (inbox : Inbox) (w : AccountReadWorker) : AccountReadWorker :=
  { w with inboxes := w.inboxes.map fun i => if i.kind = inbox.kind then inbox else i }

/-- The inboxes but the mailbox are closed. -/
def closeInboxes (w : AccountReadWorker) : AccountReadWorker :=
  { w with inboxes := w.inboxes.map fun i => if i.kind = .mailbox then i else i.close }

/-- `mailbox.close()` and `mailbox.drain()`: what waits there ends in one way or
the other, and nothing more is admitted. -/
def closeMailbox (w : AccountReadWorker) : AccountReadWorker :=
  { w with inboxes := w.inboxes.map fun i => if i.kind = .mailbox then i.close else i }

/-- `stop`, but for its source leases. -/
def stop (w : AccountReadWorker) : AccountReadWorker := { w.closeInboxes with stopSet := true }

/-- `drain`, but for its source leases. -/
def drain (w : AccountReadWorker) : AccountReadWorker := { w.closeInboxes with drainSet := true }

end AccountReadWorker

/-- What is read of a `WorkerSummary`. -/
structure WorkerSummary where
  socketCloseFailed : Bool
  motion : Option ScheduledPtzResult := none
  media : Option MediaRouteResult := none
  tcp : Option TcpMediaResult := none
  siren : Option SirenPulseResult := none
  mediaChannels : List MediaChannelSummary := []
  leaseCleanupUncertain : Bool := false

/-- Whether a summary permits another run; `leases` says that the account had
source leases. -/
def WorkerSummary.verified (s : WorkerSummary) (leases : Bool) : Bool :=
  !s.socketCloseFailed && !s.leaseCleanupUncertain && mediaChannelsClosed s.mediaChannels (!leases) &&
    (s.media.all fun media => !media.opened || media.brokerRelease) &&
    (s.tcp.all fun tcp => !tcp.socketCloseFailed && (tcp.closeAcknowledged || leases)) &&
    (s.motion.all fun motion => !motion.startAttempted || motion.releaseDeliveryConfirmed) &&
    (s.siren.all fun siren => !siren.startAttempted || siren.offConfirmed)

/-! ## The lifecycle -/

/-- `state`; a blocked account does not run again. -/
inductive LifecycleState where
  | idle
  | connecting
  | active
  | draining
  | blocked
  deriving DecidableEq, Repr

/-- How a call of the lifecycle fails. -/
inductive LifecycleFault where
  | reads
  | catalog
  | siren
  | lampRead
  | lampWrite
  | control
  | motion
  | scope
  /-- The inbox itself does not take it. -/
  | inbox
  | busy
  | exhausted
  | initialReads
  | initialRead
  | mediaOnly
  | mediaMotion
  | mediaLeases
  deriving DecidableEq, Repr

/-- The text of a fault, but for what an inbox says. -/
def LifecycleFault.reason : LifecycleFault → Option String
  | .reads => some "account not accepting reads"
  | .catalog => some "account not accepting catalogue reads"
  | .siren => some "account not accepting siren pulse"
  | .lampRead => some "account not accepting lamp-state reads"
  | .lampWrite => some "account not accepting lamp changes"
  | .control => some "account not accepting control changes"
  | .motion => some "account not accepting motion"
  | .scope => some "gesture outside driver-reviewed enrollment scope"
  | .inbox => none
  | .busy => some "account busy or cleanup unconfirmed"
  | .exhausted => some "account generation exhausted"
  | .initialReads => some "bounded initial read tuple required"
  | .initialRead => some "invalid bounded read submission"
  | .mediaOnly => some "continuous media-only account and fresh delivery required"
  | .mediaMotion => some "reviewed continuous motion grants and fresh media delivery required"
  | .mediaLeases => some "continuous media-lease account required"

/-- The lifecycle; its worker is known by its place among all there were. -/
structure AccountReadLifecycle where
  policy : AccountPolicy := .finite
  grants : List PtzGrant := []
  stateReads : Bool := false
  state : LifecycleState := .idle
  generation : Nat := 0
  worker : Option Nat := none
  drain : Bool := false
  stop : Bool := false

namespace AccountReadLifecycle

/-- `_motion_authority.enabled`. -/
def motionEnabled (l : AccountReadLifecycle) : Bool := !l.grants.isEmpty

/-- The first section of `_run`. -/
def claim (l : AccountReadLifecycle) : Except LifecycleFault Nat × AccountReadLifecycle :=
  if l.state ≠ .idle then (.error .busy, l)
  else if 2 ^ 64 - 1 ≤ l.generation then (.error .exhausted, { l with state := .blocked })
  else (.ok (l.generation + 1), { l with
    generation := l.generation + 1
    state := .connecting
    worker := none
    drain := false
    stop := false })

/-- The states in which `drain` and `stop` do something. -/
def stoppable (l : AccountReadLifecycle) : Bool :=
  l.state == .connecting || l.state == .active || l.state == .draining

end AccountReadLifecycle

/-! ## Runs -/

/-- What is used of a `ReadConnection`. -/
structure ReadConnection where
  accessId : Option Nat := none
  targets : List OnlineDevice := []
  deriving DecidableEq

/-- A read that a run makes at its beginning. -/
structure ReadSpec where
  device : Nat
  path : String
  timeout : ℚ

/-- What a run is asked for: `run`, `run_reads`, `run_media`, `run_media_motion`
(with whether the delivery is open) or `run_media_leases`. -/
inductive RunPlan where
  | plain
  | reads (specs : List ReadSpec)
  | media (fresh : Bool)
  | mediaMotion (fresh : Bool)
  | leases

namespace RunPlan

/-- The reads are admitted by a mailbox of their own. -/
def admitted (mailbox : BrokerMailbox) (now : ℚ) : List ReadSpec → Bool
  | [] => true
  | spec :: specs =>
    match mailbox.submit spec.device spec.path spec.timeout now with
    | (.error _, _) => false
    | (.ok _, mailbox) => admitted mailbox now specs

/-- What is checked before `_run`. -/
def check (l : AccountReadLifecycle) (now : ℚ) : RunPlan → Except LifecycleFault Unit
  | .plain => .ok ()
  | .reads specs =>
    if specs.length < 1 ∨ 8 < specs.length then .error .initialReads
    else
      match BrokerMailbox.new 1 l.stateReads with
      | .error _ => .error .initialRead
      | .ok mailbox => if admitted mailbox now specs then .ok () else .error .initialRead
  | .media fresh =>
    if l.policy ≠ .continuous ∨ l.motionEnabled ∨ fresh = false then .error .mediaOnly else .ok ()
  | .mediaMotion fresh =>
    if l.policy ≠ .continuous ∨ l.motionEnabled = false ∨ fresh = false then .error .mediaMotion else .ok ()
  | .leases => if l.policy ≠ .continuous then .error .mediaLeases else .ok ()

/-- Whether a run is to have a media route. -/
def hasMedia : RunPlan → Bool
  | .media _ => true
  | .mediaMotion _ => true
  | _ => false

/-- The reads of a run that is asked for reads. -/
def initialReads : RunPlan → List ReadSpec
  | .reads specs => specs
  | _ => []

end RunPlan

/-- Where a run is; the last four lie after its `try`. -/
inductive RunPhase where
  | connect
  | leases (connection : ReadConnection)
  | build
  | route
  | reads
  | publish
  | start
  | work
  /-- The connection was not handed over. -/
  | cleanup
  | settle
  | ended
  deriving DecidableEq

/-- A run and how far it is. -/
structure Run where
  generation : Nat
  plan : RunPlan
  phase : RunPhase := .connect
  worker : Option Nat := none
  /-- There is a lease inbox. -/
  leases : Bool := false
  summary : Option WorkerSummary := none

/-- What comes back to a run. -/
inductive RunInput where
  | connection (connection : ReadConnection)
  | leases (inbox : MediaLeaseInbox)
  | done
  | summary (summary : WorkerSummary)
  | raised

/-! ## Calls -/

/-- The functions that submit. -/
inductive SubmitCall where
  | submit
  | submitCatalogRead
  | submitSirenPulse
  | submitLampRead
  | submitLampWrite
  | submitControlWrite
  | submitMotion (spec : PtzSpec) (generation : Option Nat)

/-- The inbox that it submits to. -/
def SubmitCall.kind : SubmitCall → InboxKind
  | .submit => .mailbox
  | .submitCatalogRead => .catalog
  | .submitSirenPulse => .siren
  | .submitLampRead => .lamp
  | .submitLampWrite => .lamp
  | .submitControlWrite => .control
  | .submitMotion .. => .motion

/-- What it raises when the account is not active, or has no such inbox. -/
def SubmitCall.fault : SubmitCall → LifecycleFault
  | .submit => .reads
  | .submitCatalogRead => .catalog
  | .submitSirenPulse => .siren
  | .submitLampRead => .lampRead
  | .submitLampWrite => .lampWrite
  | .submitControlWrite => .control
  | .submitMotion .. => .motion

/-- The functions that pass a ticket on to its inbox. -/
inductive TicketCall where
  | take
  | takeBound
  | cancel
  | takeCatalogRead
  | cancelCatalogRead
  | takeSirenPulse
  | cancelSirenPulse
  | takeLampRead
  | cancelLampRead
  | takeControlWrite
  | cancelControlWrite
  | takeMotion
  | cancelMotion
  | abandonMotion
  deriving DecidableEq, Repr

/-- The inbox that the ticket is passed on to. -/
def TicketCall.kind : TicketCall → InboxKind
  | .take => .mailbox
  | .takeBound => .mailbox
  | .cancel => .mailbox
  | .takeCatalogRead => .catalog
  | .cancelCatalogRead => .catalog
  | .takeSirenPulse => .siren
  | .cancelSirenPulse => .siren
  | .takeLampRead => .lamp
  | .cancelLampRead => .lamp
  | .takeControlWrite => .control
  | .cancelControlWrite => .control
  | .takeMotion => .motion
  | .cancelMotion => .motion
  | .abandonMotion => .motion

/-- What has happened. -/
inductive LifecycleEntry where
  | claimed (generation : Nat)
  | drain
  | stop
  /-- A worker has given out a ticket. -/
  | issued (ticket : InboxTicket) (worker : Nat)
  /-- A ticket was passed on to a worker. -/
  | forwarded (call : TicketCall) (ticket : InboxTicket) (worker : Nat)
  /-- The worker, as it is when its loop begins. -/
  | started (generation : Nat) (worker : AccountReadWorker)
  /-- The worker, as it is when its loop begins only to close the connection. -/
  | cleaned (generation : Nat) (worker : AccountReadWorker)
  | settled (generation : Nat) (leases : Bool) (summary : Option WorkerSummary) (state : LifecycleState)

/-- The lifecycle, the workers and runs there have been, and what has happened. -/
structure LifecycleSystem where
  life : AccountReadLifecycle
  workers : List AccountReadWorker := []
  runs : List Run := []
  log : List LifecycleEntry := []

namespace LifecycleSystem

/-- Something has happened. -/
def note (entry : LifecycleEntry) (s : LifecycleSystem) : LifecycleSystem := { s with log := s.log ++ [entry] }

/-- The worker that a call for this inbox reaches, and the inbox. -/
def reach (kind : InboxKind) (s : LifecycleSystem) : Option (Nat × Inbox) :=
  s.life.worker.bind fun w => (s.workers[w]?).bind fun worker => (worker.inbox kind).map fun inbox => (w, inbox)

/-- What the functions that submit have in common. -/
def submitTo (call : SubmitCall) (room : Bool) (s : LifecycleSystem) : Except LifecycleFault InboxTicket × LifecycleSystem :=
  if s.life.state ≠ .active then (.error call.fault, s)
  else
    match s.reach call.kind with
    | none => (.error call.fault, s)
    | some (w, inbox) =>
      match inbox.submit room with
      | (none, _) => (.error .inbox, s)
      | (some ticket, inbox) =>
        (.ok ticket, note (.issued ticket w) { s with workers := s.workers.modify w (AccountReadWorker.setInbox inbox) })

/-- The functions that submit; motion is authorized first, and for the generation it names. -/
def submit (call : SubmitCall) (room : Bool) (s : LifecycleSystem) : Except LifecycleFault InboxTicket × LifecycleSystem :=
  match call with
  | .submitMotion spec generation =>
    if authorize s.life.grants spec = false then (.error .scope, s)
    else if generation.any fun g => g ≠ s.life.generation then (.error .motion, s)
    else s.submitTo call room
  | _ => s.submitTo call room

/-- What the functions that take, cancel and abandon have in common: a ticket of
another generation, or without an inbox for it, is not passed on. -/
def address (call : TicketCall) (ticket : InboxTicket) (s : LifecycleSystem) : LifecycleSystem :=
  if ticket.generation ≠ s.life.generation then s
  else
    match s.reach call.kind with
    | none => s
    | some (w, _) => note (.forwarded call ticket w) s

/-- `drain`. -/
def drain (s : LifecycleSystem) : LifecycleSystem :=
  if s.life.stoppable = false then s
  else { s with
    life := { s.life with
      state := .draining
      drain := true }
    workers := s.life.worker.elim s.workers fun w => s.workers.modify w fun worker => worker.closeMailbox.drain }

/-- `stop`. -/
def stop (s : LifecycleSystem) : LifecycleSystem :=
  if s.life.stoppable = false then s
  else { s with
    life := { s.life with
      state := .draining
      stop := true }
    workers := s.life.worker.elim s.workers fun w => s.workers.modify w fun worker => worker.closeMailbox.stop }

/-- `run` and its variants, up to the end of the first section. -/
def claim (plan : RunPlan) (now : ℚ) (s : LifecycleSystem) : Except LifecycleFault Unit × LifecycleSystem :=
  match plan.check s.life now with
  | .error e => (.error e, s)
  | .ok () =>
    match s.life.claim with
    | (.error e, life) => (.error e, { s with life := life })
    | (.ok generation, life) =>
      (.ok (), note (.claimed generation) { s with
        life := life
        runs := s.runs ++ [{ generation := generation, plan := plan }] })

/-- The lease inbox is the account's. -/
def ownInbox (generation : Nat) (connection : ReadConnection) (inbox : MediaLeaseInbox) : Bool :=
  decide (inbox.generation = generation ∧ connection.accessId = some inbox.accessId ∧ inbox.targets = connection.targets)

/-- The section that publishes the worker. -/
def publish (w : Nat) (s : LifecycleSystem) : LifecycleSystem :=
  let life := { s.life with worker := some w }
  if s.life.stop then { s with
    life := life
    workers := s.workers.modify w fun worker => worker.closeMailbox.stop }
  else if s.life.drain then { s with
    life := life
    workers := s.workers.modify w fun worker => worker.closeMailbox.drain }
  else { s with life := { life with state := .active } }

/-- The last section of a run. -/
def settle (r : Run) (s : LifecycleSystem) : LifecycleSystem :=
  let state : LifecycleState := if r.summary.any fun summary => summary.verified r.leases then .idle else .blocked
  note (.settled r.generation r.leases r.summary state) { s with life := { s.life with state := state } }

/-- A run has gone on. -/
def setRun (i : Nat) (r : Run) (s : LifecycleSystem) : LifecycleSystem := { s with runs := s.runs.set i r }

/-- The tickets of the initial reads. -/
def issueReads (w : Nat) : List ReadSpec → LifecycleSystem → LifecycleSystem
  | [], s => s
  | _ :: specs, s =>
    match (s.workers[w]?).bind fun worker => worker.inbox .mailbox with
    | none => issueReads w specs s
    | some inbox =>
      match inbox.submit true with
      | (none, _) => issueReads w specs s
      | (some ticket, inbox) =>
        issueReads w specs (note (.issued ticket w)
          { s with workers := s.workers.modify w (AccountReadWorker.setInbox inbox) })

/-- A connection that was not handed over is closed, by its worker if there is
one. -/
def clean (r : Run) (s : LifecycleSystem) : LifecycleSystem :=
  match r.worker with
  | none => s
  | some w =>
    let s := { s with workers := s.workers.modify w AccountReadWorker.stop }
    match s.workers[w]? with
    | none => s
    | some worker => note (.cleaned r.generation worker) s

/-- A phase of a run, with what comes back to it; anything else does not come. -/
def advance (i : Nat) (input : RunInput) (s : LifecycleSystem) : LifecycleSystem :=
  match s.runs[i]? with
  | none => s
  | some r =>
    match r.phase, input with
    | .connect, .connection connection =>
      match r.plan with
      | .leases => s.setRun i { r with phase := .leases connection }
      | _ => s.setRun i { r with phase := .build }
    | .connect, .raised => s.setRun i { r with phase := .settle }
    | .leases connection, .leases inbox =>
      if ownInbox r.generation connection inbox then s.setRun i { r with leases := true, phase := .build }
      else s.setRun i { r with leases := true, phase := .cleanup }
    | .leases _, .raised => s.setRun i { r with phase := .cleanup }
    | .build, .done =>
      let worker := AccountReadWorker.new r.generation s.life.stateReads s.life.motionEnabled
      setRun i { r with worker := some s.workers.length, phase := if r.plan.hasMedia then .route else .reads }
        { s with workers := s.workers ++ [worker] }
    | .build, .raised => s.setRun i { r with phase := .cleanup }
    | .route, .done => s.setRun i { r with phase := .reads }
    | .route, .raised => s.setRun i { r with phase := .cleanup }
    | .reads, .done =>
      match r.worker with
      | none => s
      | some w => setRun i { r with phase := .publish } (issueReads w r.plan.initialReads s)
    | .reads, .raised => s.setRun i { r with phase := .cleanup }
    | .publish, .done =>
      match r.worker with
      | none => s
      | some w => setRun i { r with phase := .start } (s.publish w)
    | .start, .done =>
      match r.worker.bind fun w => s.workers[w]? with
      | none => s
      | some worker => setRun i { r with phase := .work } (note (.started r.generation worker) s)
    | .work, .summary summary => s.setRun i { r with summary := some summary, phase := .settle }
    | .work, .raised => s.setRun i { r with phase := .settle }
    | .cleanup, .done => setRun i { r with phase := .settle } (s.clean r)
    | .cleanup, .raised => setRun i { r with phase := .settle } (s.clean r)
    | .settle, .done => setRun i { r with phase := .ended } (s.settle r)
    | _, _ => s

end LifecycleSystem

/-- A call from outside, or a step of a run. -/
inductive LifecycleCall where
  | run (plan : RunPlan)
  | advance (run : Nat) (input : RunInput)
  | submit (call : SubmitCall) (room : Bool)
  | ticket (call : TicketCall) (ticket : InboxTicket)
  | drain
  | stop

namespace LifecycleSystem

/-- One call or step. -/
def step (now : ℚ) (call : LifecycleCall) (s : LifecycleSystem) : LifecycleSystem :=
  match call with
  | .run plan => (s.claim plan now).2
  | .advance i input => s.advance i input
  | .submit call room => (s.submit call room).2
  | .ticket call ticket => s.address call ticket
  | .drain => note .drain s.drain
  | .stop => note .stop s.stop

/-- The calls, on a lifecycle that has just been made. -/
def run (policy : AccountPolicy) (grants : List PtzGrant) (stateReads : Bool) (calls : List (ℚ × LifecycleCall)) :
    LifecycleSystem :=
  Machine.run step { life := { policy := policy, grants := grants, stateReads := stateReads } } calls

end LifecycleSystem

end CamGuard.Account
