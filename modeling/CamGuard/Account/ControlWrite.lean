/-
Admission of control writes (`model_control_inbox.py`) and the pump that works
them off on the account's owner (`model_control_pump.py`).

The inbox has one slot. Every operation is one section under its lock; a poll of
the pump has several, and a call of the caller may come between two of them.
The job of a write (`model_control_job.py`) is a parameter: the pump only asks
it for packets and for its result, and passes on frames and cancellation.
-/
import CamGuard.Lib.Bytes
import CamGuard.Lib.Clocked

namespace CamGuard.Account

/-- `ControlWriteResult`. -/
structure ControlWriteResult where
  status : String
  errorCode : Option Nat := none
  transportAcknowledged : Bool := false
  deriving DecidableEq, Repr

/-- A future. -/
inductive Completion (α : Type) where
  | pending
  | cancelled
  | result (r : α)
  deriving DecidableEq

namespace Completion

variable {α : Type}

/-- `Future.done`. -/
def done : Completion α → Bool
  | .pending => false
  | .cancelled => true
  | .result _ => true

/-- `cancelled()`. -/
def isCancelled : Completion α → Bool
  | .pending => false
  | .cancelled => true
  | .result _ => false

/-- `Future.cancel`: too late once there is a result. -/
def cancel : Completion α → Completion α
  | .pending => .cancelled
  | .cancelled => .cancelled
  | .result r => .result r

end Completion

/-! ## Inbox -/

/-- `ControlWriteTicket`, with its future and whether the pump has it. -/
structure ControlWriteTicket (Spec : Type) where
  generation : Nat
  spec : Spec
  deadline : ℚ
  completion : Completion ControlWriteResult := .pending
  claimed : Bool := false

/-- The `ValueError`s of the inbox. -/
inductive ControlWriteFault where
  | generation
  | unavailable
  deriving DecidableEq, Repr

/-- Their texts. -/
def ControlWriteFault.reason : ControlWriteFault → String
  | .generation => "control generation required"
  | .unavailable => "control write admission unavailable"

/-- The inbox with every ticket it has given out; a ticket is known by its
place. -/
structure ControlWriteInbox (Spec : Type) where
  generation : Nat
  tickets : List (ControlWriteTicket Spec) := []
  slot : Option Nat := none
  closed : Bool := false

namespace ControlWriteInbox

variable {Spec : Type}

/-- `ControlWriteInbox(…)`. -/
def new (generation : Nat) : Except ControlWriteFault (ControlWriteInbox Spec) :=
  if 0 < generation ∧ generation < 2 ^ 64 then .ok { generation := generation } else .error .generation

/-- `submit`; what is submitted is typed. -/
def submit (i : ControlWriteInbox Spec) (spec : Spec) (now : ℚ) :
    Except ControlWriteFault Nat × ControlWriteInbox Spec :=
  if i.closed ∨ i.slot.isSome then (.error .unavailable, i)
  else (.ok i.tickets.length, { i with
    tickets := i.tickets ++ [{ generation := i.generation, spec := spec, deadline := now + 2 }]
    slot := some i.tickets.length })

/-- The future of a ticket; one that was never given out is pending. -/
def completion (i : ControlWriteInbox Spec) (id : Nat) : Completion ControlWriteResult :=
  ((i.tickets[id]?).map ControlWriteTicket.completion).getD .pending

/-- Whether the pump has the ticket. -/
def claimed (i : ControlWriteInbox Spec) (id : Nat) : Bool :=
  ((i.tickets[id]?).map ControlWriteTicket.claimed).getD false

/-- A future has changed. -/
def setCompletion (i : ControlWriteInbox Spec) (id : Nat) (completion : Completion ControlWriteResult) :
    ControlWriteInbox Spec :=
  { i with tickets := i.tickets.modify id fun ticket => { ticket with completion := completion } }

/-- The pump has the ticket. -/
def setClaimed (i : ControlWriteInbox Spec) (id : Nat) : ControlWriteInbox Spec :=
  { i with tickets := i.tickets.modify id fun ticket => { ticket with claimed := true } }

/-- `claim`: the ticket in the slot, if its time has not run out. -/
def claim (i : ControlWriteInbox Spec) (now : ℚ) : Option (Nat × ControlWriteTicket Spec) × ControlWriteInbox Spec :=
  match i.slot.bind fun id => (i.tickets[id]?).map fun ticket => (id, ticket) with
  | none => (none, i)
  | some (id, ticket) =>
    if i.closed ∨ ticket.claimed ∨ ticket.completion.done then (none, i)
    else if ticket.deadline ≤ now then (none, i.setCompletion id (.result ⟨"timeout", none, false⟩))
    else (some (id, ticket), i.setClaimed id)

/-- `cancel`: only a ticket that was not claimed leaves the slot. -/
def cancel (i : ControlWriteInbox Spec) (id : Nat) : ControlWriteInbox Spec :=
  if i.slot = some id then
    let i := i.setCompletion id (i.completion id).cancel
    if i.claimed id = false then { i with slot := none } else i
  else i

/-- `finish`: the slot of a cancelled ticket is free then. -/
def finish (i : ControlWriteInbox Spec) (id : Nat) (result : ControlWriteResult) : ControlWriteInbox Spec :=
  if i.slot = some id then
    if (i.completion id).done = false then i.setCompletion id (.result result)
    else if (i.completion id).isCancelled then { i with slot := none }
    else i
  else i

/-- `take`: a result is handed out once, and its slot is free. -/
def take (i : ControlWriteInbox Spec) (id : Nat) : Option ControlWriteResult × ControlWriteInbox Spec :=
  if i.slot = some id then
    match i.completion id with
    | .result r => (some r, { i with slot := none })
    | _ => (none, i)
  else (none, i)

/-- `close`: what waits is cancelled. -/
def close (i : ControlWriteInbox Spec) : ControlWriteInbox Spec :=
  let i := { i with closed := true }
  match i.slot with
  | none => i
  | some id => if (i.completion id).done then i else i.setCompletion id (.result ⟨"cancelled", none, false⟩)

/-! ## Moves

The operations as moves of an inbox, with what can be seen of each. A ticket is
in hand only after it was given out, so `cancel` and `take` do nothing for a
place that has none. -/

/-- The moves on an inbox. -/
inductive Move (Spec : Type) where
  | submit (spec : Spec)
  | take (id : Nat)
  | cancel (id : Nat)
  | claim
  | finish (id : Nat) (result : ControlWriteResult)
  | close

/-- What has been executed for a ticket. -/
inductive WriteEvent where
  | submitted (id : Nat)
  | claimed (id : Nat)
  | finished (id : Nat)
  | cancelled (id : Nat)
  /-- A take has given a result. -/
  | taken (id : Nat) (result : ControlWriteResult)
  deriving DecidableEq

/-- One move, and what it tells. -/
def move (now : ℚ) (m : Move Spec) (i : ControlWriteInbox Spec) : Option WriteEvent × ControlWriteInbox Spec :=
  match m with
  | .submit spec =>
    match i.submit spec now with
    | (.error _, i) => (none, i)
    | (.ok id, i) => (some (.submitted id), i)
  | .take id =>
    match i.take id with
    | (none, i) => (none, i)
    | (some result, i) => (some (.taken id result), i)
  | .cancel id => if id < i.tickets.length then (some (.cancelled id), i.cancel id) else (none, i)
  | .claim =>
    match i.claim now with
    | (none, i) => (none, i)
    | (some (id, _), i) => (some (.claimed id), i)
  | .finish id result => (some (.finished id), i.finish id result)
  | .close => (none, i.close)

end ControlWriteInbox

/-! ## Pump -/

/-- What the pump uses of a `ControlWriteJob`. -/
structure ControlWriteJobs (Job : Type) where
  result : Job → Option ControlWriteResult
  cancel : Job → Job
  nextPacket : ℚ → Job → Option Bytes × Job
  observe : ℚ → Bytes → String × Nat → Nat → Job → Job

/-- Where a poll is. -/
inductive WritePhase (Spec : Type) where
  | idle
  /-- The cancellation of the ticket has been passed on. -/
  | publish
  | claim
  | prepare (id : Nat) (ticket : ControlWriteTicket Spec)
  /-- A job has been prepared for the ticket. -/
  | confirm (id : Nat)
  | send

/-- `ControlWritePump`, with the section of `poll` that it is in. -/
structure ControlWritePump (Spec Job : Type) where
  inbox : ControlWriteInbox Spec
  job : Option Job := none
  ticket : Option Nat := none
  phase : WritePhase Spec := .idle

namespace ControlWritePump

variable {Spec Job : Type} (jobs : ControlWriteJobs Job)

/-- What a step gives: the packets it returns, and the move it makes on the
inbox. -/
structure Outcome (Spec : Type) where
  packets : List Bytes := []
  move : Option (ControlWriteInbox.Move Spec) := none

/-- The job, if there is one, is cancelled. -/
def cancelJob (p : ControlWritePump Spec Job) : ControlWritePump Spec Job := { p with job := p.job.map jobs.cancel }

/-- The next section of `poll`; `prepared` is what `prepare_control_write` gives,
should it be asked for a job (`none` is a `ValueError`). The move on the inbox is
left to `step`; what `claim` gives is read before. -/
def poll (prepared : Option Job) (now : ℚ) (p : ControlWritePump Spec Job) :
    Outcome Spec × ControlWritePump Spec Job :=
  match p.phase with
  | .idle =>
    match p.job, p.ticket with
    | some _, some id =>
      let p := if (p.inbox.completion id).isCancelled then p.cancelJob jobs else p
      ({}, { p with phase := .publish })
    | _, _ => ({}, { p with phase := .claim })
  | .publish =>
    match p.job.bind jobs.result, p.ticket with
    | some result, some id =>
      ({ move := some (.finish id result) }, { p with job := none, ticket := none, phase := .claim })
    | _, _ => ({}, { p with phase := .claim })
  | .claim =>
    if p.job.isNone then
      match (p.inbox.claim now).1 with
      | none => ({ move := some .claim }, { p with phase := .send })
      | some (id, ticket) => ({ move := some .claim }, { p with phase := .prepare id ticket })
    else ({}, { p with phase := .send })
  | .prepare id _ =>
    match prepared with
    | none => ({ move := some (.finish id ⟨"unavailable", none, false⟩) }, { p with phase := .idle })
    | some job => ({}, { p with job := some job, ticket := some id, phase := .confirm id })
  | .confirm id =>
    let p := if (p.inbox.completion id).isCancelled then p.cancelJob jobs else p
    ({}, { p with phase := .send })
  | .send =>
    match p.job with
    | none => ({}, { p with phase := .idle })
    | some job =>
      match jobs.nextPacket now job with
      | (packet, job) => ({ packets := packet.toList }, { p with job := some job, phase := .idle })

/-! ## Runs -/

/-- A call of the caller's, or a section of the pump's. -/
inductive WriteCall (Spec Job : Type) where
  /-- The caller. -/
  | submit (spec : Spec)
  | take (id : Nat)
  | cancel (id : Nat)
  /-- The owner. -/
  | poll (prepared : Option Job)
  | observe (plain : Bytes) (peer : String × Nat) (generation : Nat)
  | close

/-- A call, up to its move on the inbox; the owner's other calls do not come
inside a poll. -/
def call (now : ℚ) (c : WriteCall Spec Job) (p : ControlWritePump Spec Job) :
    Outcome Spec × ControlWritePump Spec Job :=
  match c, p.phase with
  | .submit spec, _ => ({ move := some (.submit spec) }, p)
  | .take id, _ => ({ move := some (.take id) }, p)
  | .cancel id, _ => ({ move := some (.cancel id) }, p)
  | .poll prepared, _ => p.poll jobs prepared now
  | .observe plain peer generation, .idle =>
    ({}, { p with job := p.job.map (jobs.observe now plain peer generation) })
  | .close, .idle => ({ move := some .close }, { p.cancelJob jobs with job := none, ticket := none })
  | _, _ => ({}, p)

end ControlWritePump

/-- A run of the pump: its state, and what has been executed. -/
structure WriteRun (Spec Job : Type) where
  pump : ControlWritePump Spec Job
  log : List ControlWriteInbox.WriteEvent := []

namespace WriteRun

variable {Spec Job : Type} (jobs : ControlWriteJobs Job)

/-- One call; what it tells is logged. -/
def step (now : ℚ) (c : ControlWritePump.WriteCall Spec Job) (r : WriteRun Spec Job) : WriteRun Spec Job :=
  match r.pump.call jobs now c with
  | (outcome, pump) =>
    match outcome.move with
    | none => { r with pump := pump }
    | some m => ⟨{ pump with inbox := (pump.inbox.move now m).2 }, r.log ++ (pump.inbox.move now m).1.toList⟩

/-- The calls, on an inbox of this generation that has just been made. -/
def run (generation : Nat) (calls : List (ℚ × ControlWritePump.WriteCall Spec Job)) : WriteRun Spec Job :=
  Machine.run (step jobs) ⟨{ inbox := { generation := generation } }, []⟩ calls

end WriteRun

end CamGuard.Account
