/-
Admission of siren pulses (`siren_pulse_inbox.py`) and the pump that works them
off on the account's owner (`siren_pulse_pump.py`).

Every operation of the inbox is one section under its lock, so the callers'
operations fall between those of the owner. A poll of the pump has five such
places: it is a program over the phases of `PollPhase`, and a run may put any
call of another thread between two of them.
-/
import CamGuard.Account.SirenPulse
import CamGuard.Lib.Latch

namespace CamGuard.Account

open CamGuard.Crypto

/-! ## Inbox -/

/-- `cancelled_result`. -/
def cancelledResult : SirenPulseResult where
  status := "cancelled"
  startAttempted := false
  offAttempts := 0
  offConfirmed := false
  onError := none
  offError := none
  transportAcknowledged := false
  sendFailed := false

/-- A future. -/
inductive SirenCompletion where
  | pending
  | cancelled
  | result (r : SirenPulseResult)
  deriving DecidableEq

namespace SirenCompletion

/-- `Future.done`. -/
def done (c : SirenCompletion) : Bool := c != .pending

/-- `Future.cancel`: too late once there is a result. -/
def cancel (c : SirenCompletion) : SirenCompletion := if c = .pending then .cancelled else c

end SirenCompletion

/-- `SirenPulseTicket`, with its future. -/
structure SirenPulseTicket where
  generation : Nat
  spec : SirenPulseSpec
  admitUntil : ℚ
  completion : SirenCompletion := .pending
  claimed : Bool := false

/-- The `ValueError`s of the inbox. -/
inductive InboxFault where
  | generation
  | unavailable
  deriving DecidableEq, Repr

/-- Their texts. -/
def InboxFault.reason : InboxFault → String
  | .generation => "siren generation required"
  | .unavailable => "siren admission unavailable"

/-- The inbox with every ticket it has given out; a ticket is known by its
place. -/
structure SirenPulseInbox where
  generation : Nat
  tickets : List SirenPulseTicket := []
  slot : Option Nat := none
  closed : Bool := false

namespace SirenPulseInbox

/-- `SirenPulseInbox(…)`. -/
def new (generation : Nat) : Except InboxFault SirenPulseInbox :=
  if 0 < generation ∧ generation < 2 ^ 64 then .ok { generation := generation } else .error .generation

/-- `submit`: one pulse at a time. -/
def submit (i : SirenPulseInbox) (spec : SirenPulseSpec) (now : ℚ) : Except InboxFault Nat × SirenPulseInbox :=
  if i.closed ∨ i.slot.isSome then (.error .unavailable, i)
  else (.ok i.tickets.length, { i with
    tickets := i.tickets ++ [{ generation := i.generation, spec := spec, admitUntil := now + 1 }]
    slot := some i.tickets.length })

/-- A future has changed. -/
def setCompletion (i : SirenPulseInbox) (id : Nat) (completion : SirenCompletion) : SirenPulseInbox :=
  { i with tickets := i.tickets.modify id fun ticket => { ticket with completion := completion } }

/-- The future of a ticket; one that was never given out is pending. -/
def completion (i : SirenPulseInbox) (id : Nat) : SirenCompletion :=
  ((i.tickets[id]?).map SirenPulseTicket.completion).getD .pending

/-- `claim`: the ticket in the slot, if its time has not run out. -/
def claim (i : SirenPulseInbox) (now : ℚ) : Option (Nat × SirenPulseTicket) × SirenPulseInbox :=
  match i.slot with
  | none => (none, i)
  | some id =>
    match i.tickets[id]? with
    | none => (none, i)
    | some ticket =>
      if i.closed ∨ ticket.claimed ∨ ticket.completion.done then (none, i)
      else if ticket.admitUntil ≤ now then (none, i.setCompletion id (.result cancelledResult))
      else (some (id, ticket), { i with tickets := i.tickets.modify id fun ticket => { ticket with claimed := true } })

/-- `cancel`: a claimed ticket keeps the slot until its pulse is over. -/
def cancel (i : SirenPulseInbox) (id : Nat) : SirenPulseInbox :=
  if i.slot = some id then
    let i := i.setCompletion id (i.completion id).cancel
    if ((i.tickets[id]?).any SirenPulseTicket.claimed) = false ∨ i.completion id ≠ .cancelled then { i with slot := none }
    else i
  else i

/-- `finish`: a pulse that may still sound closes the inbox. -/
def finish (i : SirenPulseInbox) (id : Nat) (result : SirenPulseResult) : SirenPulseInbox :=
  if i.slot = some id then
    let i := { i with closed := i.closed || (result.startAttempted && !result.offConfirmed) }
    if (i.completion id).done = false then i.setCompletion id (.result result)
    else if i.completion id = .cancelled then { i with slot := none }
    else i
  else i

/-- `take`: a result is handed out once, and its slot is free. -/
def take (i : SirenPulseInbox) (id : Nat) : Option SirenPulseResult × SirenPulseInbox :=
  if i.slot = some id then
    match i.completion id with
    | .result r => (some r, { i with slot := none })
    | _ => (none, i)
  else (none, i)

/-- `close`: the owner still has to drain the OFF of a claimed ticket. -/
def close (i : SirenPulseInbox) : SirenPulseInbox :=
  let i := { i with closed := true }
  match i.slot with
  | none => i
  | some id =>
    if (i.completion id).done then i
    else if (i.tickets[id]?).any SirenPulseTicket.claimed then i.setCompletion id .cancelled
    else i.setCompletion id (.result cancelledResult)

end SirenPulseInbox

/-! ## Pump -/

/-- Where a poll is. -/
inductive PollPhase where
  | idle
  /-- The cancellation of the ticket has been passed on. -/
  | publish
  | claim
  | prepare (id : Nat) (ticket : SirenPulseTicket)
  /-- A job has been prepared for the ticket. -/
  | confirm (id : Nat)
  | send

/-- `SirenPulsePump`, with the account's objects that its job works on. -/
structure SirenPulsePump where
  node : CertifiedNode
  generation : Nat
  inbox : SirenPulseInbox
  output : AccountOutputBudget
  source : BrokerSequences
  job : Option SirenPulseJob := none
  ticket : Option Nat := none
  lastResult : Option SirenPulseResult := none
  phase : PollPhase := .idle

/-- What happens to the pulses: a ticket is claimed, and has its result. -/
inductive PulseEvent where
  | claimed (id : Nat)
  | ended (id : Nat) (result : SirenPulseResult)
  deriving DecidableEq

/-- The siren is known to be off. -/
def SirenPulseResult.settled (r : SirenPulseResult) : Bool := !r.startAttempted || r.offConfirmed

namespace SirenPulsePump

/-- `active`. -/
def active (p : SirenPulsePump) : Bool := p.job.any fun job => job.result.isNone

/-- `unsafe`. -/
def unsettled (p : SirenPulsePump) : Bool :=
  let result := match p.job with
    | some job => job.result
    | none => p.lastResult
  result.any fun r => r.startAttempted && !r.offConfirmed

/-- The job, if there is one, is cancelled. -/
def cancelJob (p : SirenPulsePump) : SirenPulsePump := { p with job := p.job.map SirenPulseJob.cancel }

/-- The job among the account's objects, and back. -/
def withJob (p : SirenPulsePump) (f : SirenWorld → Except SirenFault (List SirenPacket) × SirenWorld) :
    Except SirenFault (List SirenPacket) × SirenPulsePump :=
  match p.job with
  | none => (.ok [], p)
  | some job =>
    match f ⟨p.output, p.source, job⟩ with
    | (out, w) => (out, { p with output := w.output, source := w.source, job := some w.job })

/-- What the rest of the account has for a poll: whether `prepare_siren_pulse`
accepts a pulse, and what `secrets` gives. -/
structure Admission where
  accepts : Bool
  draws : SirenDraws

/-- `prepare_siren_pulse`; all its failures are `ValueError`s. -/
def prepare (p : SirenPulsePump) (account : Admission) (ticket : SirenPulseTicket) (now : ℚ) :
    Option SirenPulseJob × SirenPulsePump :=
  if account.accepts = false then (none, p)
  else
    match SirenPulseJob.new p.node p.source p.output ticket.spec p.generation account.draws (some ticket.admitUntil) now with
    | (.error _, output, source) => (none, { p with output := output, source := source })
    | (.ok job, output, source) => (some job, { p with output := output, source := source })

/-- What a step of the pump gives: what it sends, or how it fails, and what
happens to the pulses. -/
structure Outcome where
  out : Except SirenFault (List SirenPacket) := .ok []
  events : List PulseEvent := []

/-- The next section of `poll`. -/
def poll (p : SirenPulsePump) (account : Admission) (now : ℚ) : Outcome × SirenPulsePump :=
  match p.phase with
  | .idle =>
    match p.job, p.ticket with
    | some _, some id =>
      let p := if p.inbox.completion id = .cancelled then p.cancelJob else p
      ({}, { p with phase := .publish })
    | _, _ => ({}, { p with phase := .claim })
  | .publish =>
    match p.job.bind SirenPulseJob.result, p.ticket with
    | some result, some id => ({ events := [.ended id result] }, { p with
        lastResult := some result
        inbox := p.inbox.finish id result
        job := none
        ticket := none
        phase := .claim })
    | _, _ => ({}, { p with phase := .claim })
  | .claim =>
    if p.job.isNone ∧ p.unsettled = false then
      match p.inbox.claim now with
      | (none, inbox) => ({}, { p with inbox := inbox, phase := .send })
      | (some (id, ticket), inbox) =>
        ({ events := [.claimed id] }, { p with inbox := inbox, phase := .prepare id ticket })
    else ({}, { p with phase := .send })
  | .prepare id ticket =>
    match p.prepare account ticket now with
    | (none, p) =>
      ({ events := [.ended id cancelledResult] }, { p with inbox := p.inbox.finish id cancelledResult, phase := .idle })
    | (some job, p) => ({}, { p with job := some job, ticket := some id, phase := .confirm id })
  | .confirm id =>
    let p := if p.inbox.completion id = .cancelled then p.cancelJob else p
    ({}, { p with phase := .send })
  | .send =>
    match p.withJob fun w => w.nextPacket now with
    | (out, p) => ({ out := out }, { p with phase := .idle })

/-! ## Runs -/

/-- A call of the worker's. -/
inductive PumpCall where
  | poll (account : Admission)
  | observe (plain : Bytes) (peer : String × Nat) (generation : Nat)
  | sendFailed
  | cancel
  /-- The callers. -/
  | submit (spec : SirenPulseSpec)
  | cancelTicket (id : Nat)
  | take (id : Nat)
  | closeInbox
  /-- The rest of the account; it may do anything to the output. -/
  | output (op : OutputOp)
  | reserve (count : Nat)
  | retire

/-- A call; the owner's other calls do not come inside a poll. -/
def step (loads : Loads) (now : ℚ) (call : PumpCall) (p : SirenPulsePump) : Outcome × SirenPulsePump :=
  match call, p.phase with
  | .poll account, _ => p.poll account now
  | .observe plain peer generation, .idle =>
    match p.withJob fun w => w.observe loads plain peer generation now with
    | (out, p) => ({ out := out }, p)
  | .sendFailed, .idle => ({}, { p with job := p.job.map SirenPulseJob.sendFailed })
  | .cancel, .idle => ({}, { p.cancelJob with inbox := p.inbox.close })
  | .submit spec, _ => ({}, { p with inbox := (p.inbox.submit spec now).2 })
  | .cancelTicket id, _ => ({}, { p with inbox := p.inbox.cancel id })
  | .take id, _ => ({}, { p with inbox := (p.inbox.take id).2 })
  | .closeInbox, _ => ({}, { p with inbox := p.inbox.close })
  | .output op, _ => ({}, { p with output := op.run now p.output })
  | .reserve count, _ => ({}, { p with source := (p.source.reserve count).2 })
  | .retire, _ => ({}, { p with source := p.source.close })
  | _, _ => ({}, p)

end SirenPulsePump

/-- A run of the pump: its state, and what has happened to the pulses. -/
structure PumpRun where
  pump : SirenPulsePump
  log : List PulseEvent := []

namespace PumpRun

/-- One call; what it tells is logged. -/
def step (loads : Loads) (now : ℚ) (call : SirenPulsePump.PumpCall) (r : PumpRun) : PumpRun :=
  match r.pump.step loads now call with
  | (outcome, pump) => ⟨pump, r.log ++ outcome.events⟩

/-- The calls, in order. -/
def run (loads : Loads) (p : SirenPulsePump) (calls : List (ℚ × SirenPulsePump.PumpCall)) : PumpRun :=
  Machine.run (step loads) ⟨p, []⟩ calls

end PumpRun

end CamGuard.Account
