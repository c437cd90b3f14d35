/-
The account with its two actuators (`broker_account.py`): the gesture and the siren
pulse it has prepared last, which decide what it admits next, beside its reads.

`_ptz` and `_siren` are the last of the jobs that were returned; their callers go on
driving the others too, so all of them are kept, each with the output budget it was
given. What the account asks of its media routes (`MediaState`) comes with each call;
the sequences of all other jobs come from the same source (`reserve`).
-/
import CamGuard.Account.BrokerAccount
import CamGuard.Account.PtzScheduler
import CamGuard.Account.SirenPulse

namespace CamGuard.Account

open CamGuard.Crypto

/-- What the account asks of its media routes: `cleanup_pending`, `release_uncertain`,
and whether `observe` raises. -/
structure MediaState where
  pending : Bool := false
  uncertain : Bool := false
  fails : Bool := false

structure AccountActuators where
  account : BrokerAccount
  outputs : Nat → AccountOutputBudget
  motions : List (Nat × PtzScheduler) := []
  pulses : List (Nat × SirenPulseJob) := []

inductive ActuatorFault where
  | ptz
  | unconfirmed
  | motion (e : PtzFault)
  | siren
  | pulse (e : SirenFault)
  deriving DecidableEq, Repr

def ActuatorFault.reason : ActuatorFault → String
  | .ptz => "account not accepting PTZ"
  | .unconfirmed => "previous PTZ release unconfirmed"
  | .motion e => e.reason
  | .siren => "account not accepting siren pulse"
  | .pulse e => e.reason

/-- A gesture that was started and whose release is not confirmed. -/
def PtzScheduler.unconfirmed (j : PtzScheduler) : Bool :=
  j.result.any fun r => r.startAttempted && !r.releaseDeliveryConfirmed

/-- A pulse that was started and is not confirmed off. -/
def SirenPulseJob.unconfirmed (j : SirenPulseJob) : Bool :=
  j.result.any fun r => r.startAttempted && !r.offConfirmed

namespace AccountActuators

/-- `_ptz`. -/
def ptz (w : AccountActuators) : Option PtzScheduler := w.motions.getLast?.map Prod.snd

/-- `_siren`. -/
def siren (w : AccountActuators) : Option SirenPulseJob := w.pulses.getLast?.map Prod.snd

/-- `motion_cleanup_pending`. -/
def motionCleanupPending (w : AccountActuators) : Bool := w.ptz.any fun job => job.result.isNone

/-- The last gesture was started, and its release is not confirmed. -/
def motionUnconfirmed (w : AccountActuators) : Bool := w.ptz.any PtzScheduler.unconfirmed

/-- `siren_cleanup_pending`. -/
def sirenCleanupPending (w : AccountActuators) : Bool :=
  w.siren.any fun job => job.result.isNone || job.unconfirmed

/-- What the account's operations ask of all its jobs. -/
def jobs (w : AccountActuators) (media : MediaState) : AccountJobs where
  motionPending := w.motionCleanupPending
  motionUnconfirmed := w.motionUnconfirmed
  mediaPending := media.pending
  mediaUncertain := media.uncertain
  mediaFails := media.fails

/-- `self._ptz.cancel()`. -/
def cancelMotion (w : AccountActuators) : AccountActuators :=
  { w with motions := w.motions.modify (w.motions.length - 1) fun entry => (entry.1, entry.2.cancel) }

/-- The account after an operation of its own; a retirement cancels the gesture. -/
def become (w : AccountActuators) (account : BrokerAccount) : AccountActuators :=
  let w' := { w with account := account }
  if w.account.reason.isNone ∧ account.reason.isSome then w'.cancelMotion else w'

/-- The guards of `prepare_ptz` that leave the account as it is. -/
def admitsPtz (w : AccountActuators) (media : MediaState) (now : ℚ) : Bool :=
  w.account.active && !(w.account.deadline.any fun deadline => decide (deadline - now < 4)) &&
    !w.motionCleanupPending && !media.uncertain && !w.sirenCleanupPending

/-- `prepare_ptz`. -/
def preparePtz (w : AccountActuators) (media : MediaState) (output : Nat) (spec : PtzSpec) (draws : PtzDraws) (now : ℚ) :
    Except ActuatorFault Unit × AccountActuators :=
  if w.admitsPtz media now = false then (.error .ptz, w)
  else if w.motionUnconfirmed then (.error .unconfirmed, w.become (w.account.retire .transport).2)
  else
    match w.account.node with
    | none => (.error .ptz, w)
    | some node =>
      match PtzScheduler.new node w.account.source (w.outputs output) w.account.generation spec draws now with
      | (.error e, budget, source) => (.error (.motion e), { w with
          account := { w.account with source := source }
          outputs := Function.update w.outputs output budget })
      | (.ok job, budget, source) => (.ok (), { w with
          account := { w.account with source := source }
          outputs := Function.update w.outputs output budget
          motions := w.motions ++ [(output, job)] })

/-- The guards of `prepare_siren_pulse`. -/
def admitsSiren (w : AccountActuators) (media : MediaState) (spec : SirenPulseSpec) (now : ℚ) : Bool :=
  w.account.active && !media.uncertain && !w.sirenCleanupPending && !w.motionCleanupPending &&
    !(w.account.deadline.any fun deadline => decide (deadline - now < spec.seconds + 4)) && !w.motionUnconfirmed

/-- `prepare_siren_pulse`. -/
def prepareSirenPulse (w : AccountActuators) (media : MediaState) (output : Nat) (spec : SirenPulseSpec)
    (draws : SirenDraws) (admitUntil : Option ℚ) (now : ℚ) : Except ActuatorFault Unit × AccountActuators :=
  match w.account.node with
  | none => (.error .siren, w)
  | some node =>
    if w.admitsSiren media spec now = false then (.error .siren, w)
    else
      match SirenPulseJob.new node w.account.source (w.outputs output) spec w.account.generation draws admitUntil now with
      | (.error e, budget, source) => (.error (.pulse e), { w with
          account := { w.account with source := source }
          outputs := Function.update w.outputs output budget })
      | (.ok job, budget, source) => (.ok (), { w with
          account := { w.account with source := source }
          outputs := Function.update w.outputs output budget
          pulses := w.pulses ++ [(output, job)] })

end AccountActuators

/-! ## Steps -/

/-- What the owner of a job does with it. -/
inductive JobCall where
  | nextPacket
  | observe (plain : Bytes) (peer : String × Nat) (generation noise : Nat)
  | cancel
  | sendFailed

def JobCall.ptz : JobCall → PtzCall
  | .nextPacket => .nextPacket
  | .observe plain peer generation noise => .observe plain peer generation noise
  | .cancel => .cancel
  | .sendFailed => .sendFailed

def JobCall.siren : JobCall → SirenCall
  | .nextPacket => .nextPacket
  | .observe plain peer generation _ => .observe plain peer generation
  | .cancel => .cancel
  | .sendFailed => .sendFailed

inductive AccountCall where
  | preparePtz (media : MediaState) (output : Nat) (spec : PtzSpec) (draws : PtzDraws)
  | prepareSirenPulse (media : MediaState) (output : Nat) (spec : SirenPulseSpec) (draws : SirenDraws)
    (admitUntil : Option ℚ)
  | motion (id : Nat) (call : JobCall)
  | pulse (id : Nat) (call : JobCall)
  | submitRead (media : MediaState) (draws : BrokerAccount.SubmitDraws) (device : Nat) (path : String) (timeout : ℚ)
  | cancelRead (ticket : ReceiptTicket)
  | tick (media : MediaState) (noise : Nat)
  | receive (media : MediaState) (plain : Bytes) (peer : String × Nat) (generation : Nat)
  | drain (media : MediaState)
  | retire (reason : Retirement)
  /-- The sequences of a media route, or of a catalogue, lamp or volume job. -/
  | reserve (count : Nat)
  /-- Somebody else's use of an output budget. -/
  | output (id : Nat) (op : OutputOp)

/-- What came of a call: a job or a read that was accepted, the endings that were
returned, and those that an exception has kept from the caller. -/
structure AccountEvent where
  prepared : Bool := false
  accepted : Option ReadRequest := none
  reported : List ReadCompletion := []
  lost : List ReadCompletion := []

namespace AccountActuators

/-- A step of the job at a place, on the objects it shares. -/
def stepMotion (loads : Loads) (w : AccountActuators) (id : Nat) (call : JobCall) (now : ℚ) : AccountActuators :=
  match w.motions[id]? with
  | none => w
  | some (output, job) =>
    match PtzWorld.step loads now call.ptz ⟨w.outputs output, w.account.source, job⟩ with
    | (_, world) => { w with
        outputs := Function.update w.outputs output world.output
        motions := w.motions.set id (output, world.job) }

def stepPulse (loads : Loads) (w : AccountActuators) (id : Nat) (call : JobCall) (now : ℚ) : AccountActuators :=
  match w.pulses[id]? with
  | none => w
  | some (output, job) =>
    match SirenWorld.step loads now call.siren ⟨w.outputs output, w.account.source, job⟩ with
    | (_, world) => { w with
        outputs := Function.update w.outputs output world.output
        pulses := w.pulses.set id (output, world.job) }

/-- `drain`: the gesture of an active account is cancelled before it expires. -/
def drain (w : AccountActuators) (media : MediaState) (now : ℚ) : AccountEvents × AccountActuators :=
  let w' := if w.account.active then w.cancelMotion else w
  match w.account.drain (w.jobs media) now with
  | (events, account) => (events, w'.become account)

def step (loads : Loads) (now : ℚ) (call : AccountCall) (w : AccountActuators) : AccountEvent × AccountActuators :=
  match call with
  | .preparePtz media output spec draws =>
    match w.preparePtz media output spec draws now with
    | (.ok (), w') => ({ prepared := true }, w')
    -- `retire` returns the endings, and `prepare_ptz` raises.
    | (.error .unconfirmed, w') => ({ lost := (w.account.retire .transport).1.reads }, w')
    | (.error _, w') => ({}, w')
  | .prepareSirenPulse media output spec draws admitUntil =>
    match w.prepareSirenPulse media output spec draws admitUntil now with
    | (.ok (), w') => ({ prepared := true }, w')
    | (.error _, w') => ({}, w')
  | .motion id call => ({}, w.stepMotion loads id call now)
  | .pulse id call => ({}, w.stepPulse loads id call now)
  | .submitRead media draws device path timeout =>
    match w.account.submitRead (w.jobs media) draws device path timeout now with
    | (.error _, account) => ({}, w.become account)
    | (.ok read, account) => ({ accepted := some read.request }, w.become account)
  | .cancelRead ticket => ({ reported := (w.account.reads.cancel ticket).1.toList }, w.become (w.account.cancelRead ticket))
  | .tick media noise =>
    match w.account.tick (w.jobs media) noise now with
    | (events, account) => ({ reported := events.reads }, w.become account)
  | .receive media plain peer generation =>
    match w.account.receive loads (w.jobs media) plain peer generation now with
    | (.ok events, account) => ({ reported := events.reads }, w.become account)
    -- What `_expire` has ended goes with the exception.
    | (.error _, account) => ({ lost := (w.account.expire (w.jobs media) now).1.reads }, w.become account)
  | .drain media =>
    match w.drain media now with
    | (events, w') => ({ reported := events.reads }, w')
  | .retire reason =>
    match w.account.retire reason with
    | (events, account) => ({ reported := events.reads }, w.become account)
  | .reserve count => ({}, { w with account := { w.account with source := (w.account.source.reserve count).2 } })
  | .output id op => ({}, { w with outputs := Function.update w.outputs id (op.run now (w.outputs id)) })

end AccountActuators

/-- A run: the account with its jobs, and everything that has happened. -/
structure ActuatorRun where
  world : AccountActuators
  log : List AccountEvent := []

namespace ActuatorRun

def step (loads : Loads) (now : ℚ) (call : AccountCall) (r : ActuatorRun) : ActuatorRun :=
  match r.world.step loads now call with
  | (event, world) => ⟨world, r.log ++ [event]⟩

/-- The calls, on an account that has just been made. -/
def run (loads : Loads) (account : BrokerAccount) (outputs : Nat → AccountOutputBudget) (calls : List (ℚ × AccountCall)) :
    ActuatorRun :=
  Machine.run (step loads) ⟨{ account := account, outputs := outputs }, []⟩ calls

end ActuatorRun

end CamGuard.Account
