/-
Admission of reads between callers and the owner of the account
(`broker_mailbox.py`). Every operation is one section under the lock, and reads
the clock in it; a slot stays until its outcome is taken and, if its read was
handed out and stopped, until the owner has released it. The deadline of a
submission is rounded.
-/
import CamGuard.Account.Reads

namespace CamGuard.Account

/-- `ACCOUNT_IDENTITY_READ_PATHS`. -/
def ACCOUNT_IDENTITY_READ_PATHS : List String :=
  ["ProConst._productInfo", "ProConst._versionInfo", "ProReadonly.devInfo"]

/-- `ACCOUNT_STATE_READ_PATHS`. -/
def ACCOUNT_STATE_READ_PATHS : List String :=
  ["ProWritable.volume", "ProWritable.guardParm", "ProWritable.videoParm", "ProWritable.resFile", "Action.expelCtrl"]

/-- `MailboxTicket`. -/
structure MailboxTicket where
  generation : Nat
  sequence : Nat
  deriving DecidableEq, Repr

/-- `ReadSubmission`: a read that a caller has asked for. -/
structure ReadSubmission where
  ticket : MailboxTicket
  device : Nat
  path : String
  deadline : ℚ

/-- `ReadOutcome`, as the caller gets it. -/
structure ReadOutcome where
  status : ReadStatus
  completion : Option ReadCompletion := none

/-- `BoundReadOutcome`: an outcome with the request that the read was bound to. -/
structure BoundReadOutcome where
  request : Option ReadRequest
  outcome : ReadOutcome

/-- The `ValueError`s of the mailbox. -/
inductive MailboxFault where
  | generation
  | submission
  | closed
  | capacity
  deriving DecidableEq, Repr

/-- Their texts. -/
def MailboxFault.reason : MailboxFault → String
  | .generation => "invalid mailbox generation"
  | .submission => "invalid bounded read submission"
  | .closed => "mailbox closed or sequence exhausted"
  | .capacity => "mailbox capacity exhausted"

/-- `_Slot`. -/
structure MailSlot where
  submission : ReadSubmission
  claimed : Bool := false
  outcome : Option ReadOutcome := none
  consumed : Bool := false
  cancelPending : Bool := false
  request : Option ReadRequest := none

namespace MailSlot

/-- `_stop`. -/
def stop (s : MailSlot) (status : ReadStatus) : MailSlot :=
  if s.outcome.isNone ∧ s.consumed = false then
    { s with outcome := some { status := status }, cancelPending := s.claimed }
  else s

/-- A slot whose time has run out is stopped. -/
def expire (s : MailSlot) (now : ℚ) : MailSlot := if s.submission.deadline ≤ now then s.stop .timeout else s

/-- A slot whose read is handed out by a poll. -/
def claimable (closed : Bool) (s : MailSlot) : Bool := !s.claimed && s.outcome.isNone && !closed

/-- A slot that can be claimed is. -/
def claim (closed : Bool) (s : MailSlot) : MailSlot := if s.claimable closed then { s with claimed := true } else s

end MailSlot

/-- `MailboxWork`: what a poll hands to the owner. -/
structure MailboxWork where
  submissions : List ReadSubmission
  cancellations : List MailboxTicket

/-- `BrokerMailbox`. -/
structure BrokerMailbox where
  readPaths : List String
  generation : Nat
  slots : Dict MailboxTicket MailSlot := ∅
  next : Nat := 0
  closed : Bool := false

namespace BrokerMailbox

/-- `BrokerMailbox(…)`. -/
def new (generation : Nat) (stateReads : Bool) : Except MailboxFault BrokerMailbox :=
  if generation = 0 then .error .generation
  else .ok {
    readPaths := ACCOUNT_IDENTITY_READ_PATHS ++ if stateReads then ACCOUNT_STATE_READ_PATHS else []
    generation := generation }

/-- `submit`. -/
def submit [Rounding] (m : BrokerMailbox) (device : Nat) (path : String) (timeout now : ℚ) :
    Except MailboxFault ReadSubmission × BrokerMailbox :=
  if device = 0 ∨ 2 ^ 64 ≤ device ∨ path ∉ m.readPaths ∨ timeout ≤ 0 ∨ MAX_TIMEOUT < timeout then (.error .submission, m)
  else if m.closed ∨ 2 ^ 64 ≤ m.next then (.error .closed, m)
  else if MAX_PENDING ≤ m.slots.size then (.error .capacity, m)
  else
    let submission : ReadSubmission := ⟨⟨m.generation, m.next⟩, device, path, Rounding.round (now + timeout)⟩
    (.ok submission, { m with
      next := m.next + 1
      slots := m.slots.set submission.ticket { submission := submission } })

/-- `poll`: what has run out of time is stopped first. -/
def poll (m : BrokerMailbox) (now : ℚ) : MailboxWork × BrokerMailbox :=
  let slots := m.slots.mapValues fun s => s.expire now
  ({ submissions := (slots.values.filter (MailSlot.claimable m.closed)).map MailSlot.submission
     cancellations := (slots.entries.filter fun e => e.2.cancelPending).map Prod.fst },
    { m with slots := slots.mapValues (MailSlot.claim m.closed) })

/-- `acknowledge_cancel`, without its result. -/
def acknowledgeCancel (m : BrokerMailbox) (ticket : MailboxTicket) : BrokerMailbox :=
  match m.slots.get? ticket with
  | none => m
  | some slot =>
    if slot.cancelPending = false then m
    else if slot.consumed then { m with slots := m.slots.erase ticket }
    else { m with slots := m.slots.set ticket { slot with cancelPending := false } }

/-- What `bind` asks of a slot and a request. -/
def binds (m : BrokerMailbox) (slot : MailSlot) (request : ReadRequest) (now : ℚ) : Bool :=
  slot.claimed && slot.request.isNone && slot.outcome.isNone && !slot.consumed &&
    decide (now < slot.submission.deadline) && decide (request.ticket.generation = m.generation) &&
    decide (request.ticket.kind = 0xB7) && decide (request.device = slot.submission.device) &&
    decide (request.path = slot.submission.path) &&
    !m.slots.values.any fun s => s.request.any fun r => decide (r.ticket = request.ticket)

/-- `bind`: the owner has registered the read as this request. -/
def bind (m : BrokerMailbox) (ticket : MailboxTicket) (request : ReadRequest) (now : ℚ) : Bool × BrokerMailbox :=
  match m.slots.get? ticket with
  | none => (false, m)
  | some slot =>
    if m.binds slot request now then
      (true, { m with slots := m.slots.set ticket { slot with request := some request } })
    else (false, m)

/-- `finish`, without its result. -/
def finish (m : BrokerMailbox) (ticket : MailboxTicket) (completion : ReadCompletion) (now : ℚ) : BrokerMailbox :=
  match m.slots.get? ticket with
  | none => m
  | some slot =>
    if slot.claimed = false ∨ slot.outcome.isSome ∨ slot.consumed ∨ slot.request ≠ some completion.request then m
    else
      let outcome : ReadOutcome :=
        if slot.submission.deadline ≤ now then { status := .timeout }
        else { status := completion.status, completion := some completion }
      { m with slots := m.slots.set ticket { slot with outcome := some outcome } }

/-- `cancel`, without its result. -/
def cancel (m : BrokerMailbox) (ticket : MailboxTicket) : BrokerMailbox :=
  match m.slots.get? ticket with
  | none => m
  | some slot => { m with slots := m.slots.set ticket (slot.stop .cancelled) }

/-- `ready`: the owner's last check before it sends. -/
def ready (m : BrokerMailbox) (ticket : MailboxTicket) (now : ℚ) : Bool × BrokerMailbox :=
  match m.slots.get? ticket with
  | none => (false, m)
  | some slot =>
    let slot := slot.expire now
    (slot.request.isSome && slot.outcome.isNone && !slot.consumed, { m with slots := m.slots.set ticket slot })

/-- `take_bound`. -/
def takeBound (m : BrokerMailbox) (ticket : MailboxTicket) (now : ℚ) : Option BoundReadOutcome × BrokerMailbox :=
  match m.slots.get? ticket with
  | none => (none, m)
  | some slot =>
    if slot.consumed then (none, m)
    else
      let slot := slot.expire now
      match slot.outcome with
      | none => (none, { m with slots := m.slots.set ticket slot })
      | some outcome =>
        (some ⟨slot.request, outcome⟩, { m with
          slots :=
            if slot.cancelPending then m.slots.set ticket { slot with outcome := none, consumed := true }
            else m.slots.erase ticket })

/-- `take`. -/
def take (m : BrokerMailbox) (ticket : MailboxTicket) (now : ℚ) : Option ReadOutcome × BrokerMailbox :=
  match m.takeBound ticket now with
  | (bound, m) => (bound.map BoundReadOutcome.outcome, m)

/-- `close`: what has no outcome yet is cancelled. -/
def close (m : BrokerMailbox) : BrokerMailbox :=
  { m with closed := true, slots := m.slots.mapValues fun s => s.stop .cancelled }

/-- `drain`: what was handed out may still finish. -/
def drain (m : BrokerMailbox) : BrokerMailbox :=
  { m with closed := true, slots := m.slots.mapValues fun s => if s.claimed then s else s.stop .cancelled }

end BrokerMailbox

end CamGuard.Account
