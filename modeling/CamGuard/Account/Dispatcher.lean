/-
The owner's side of the reads (`account_read_dispatcher.py`): it hands the
mailbox's submissions to the account and the account's completions back to the
mailbox.

Callers use the mailbox while the owner is inside one of its calls, so a call of
the owner is a list of tasks, each with at most one section under the mailbox's
lock; a run may put any operation of a caller between two of them. Only the
owner touches the account.
-/
import CamGuard.Account.BrokerAccount
import CamGuard.Account.Mailbox
import CamGuard.Lib.Clocked

namespace CamGuard.Account

/-- What the owner has still to do in its call. -/
inductive DispatchTask where
  /-- `account.tick`. -/
  | tick
  /-- `account.receive`. -/
  | receive (plain : Bytes) (peer : String × Nat) (generation : Nat)
  /-- `account.retire`. -/
  | retire (reason : Retirement)
  /-- `mailbox.drain`. -/
  | drainMailbox
  /-- `account.drain`. -/
  | drainAccount
  /-- A completion of `_publish`. -/
  | publish (completion : ReadCompletion)
  /-- `mailbox.close` in `_publish`. -/
  | closeMailbox
  /-- The poll of a mailbox that has been closed. -/
  | pollClosed
  /-- The poll of `step`. -/
  | pollWork
  /-- `_release`. -/
  | release (ticket : MailboxTicket)
  /-- A submission of `step`. -/
  | prepare (submission : ReadSubmission)
  /-- The binding of what the account has registered for a submission. -/
  | bind (ticket : MailboxTicket) (read : BrokerAccount.SubmittedRead)

/-- `AccountReadDispatcher`, inside a call. -/
structure Dispatcher where
  mailbox : BrokerMailbox
  account : BrokerAccount
  requests : Dict MailboxTicket ReadRequest := ∅
  routes : Dict ReceiptTicket MailboxTicket := ∅
  todo : List DispatchTask := []

/-- What can be seen of a run. -/
inductive DispatchEvent where
  /-- `submit` has accepted a read. -/
  | accepted (ticket : MailboxTicket) (deadline : ℚ)
  /-- `take` was called, and what it gave. -/
  | taken (ticket : MailboxTicket) (now : ℚ) (outcome : Option ReadOutcome)
  /-- The read of the ticket is bound to a request of the account. -/
  | bound (ticket : MailboxTicket) (request : ReadRequest)
  /-- The account has completed a request. -/
  | completed (completion : ReadCompletion)
  /-- The mailbox was closed. -/
  | closed

/-- What a task of the owner gets from elsewhere. -/
structure TaskInput where
  jobs : AccountJobs := {}
  draws : BrokerAccount.SubmitDraws := ⟨0, 0⟩

namespace Dispatcher

/-- `AccountReadDispatcher(…)`. -/
def new (node : CertifiedNode) (nextSequence generation : Nat) (address : LocalAddress) (policy : AccountPolicy)
    (stateReads : Bool) (now : ℚ) : Option Dispatcher :=
  match BrokerMailbox.new generation stateReads, BrokerAccount.new node nextSequence generation address policy now with
  | .ok mailbox, some account => some { mailbox := mailbox, account := account }
  | _, _ => none

/-- The tasks of `_publish`. -/
def publishTasks (events : AccountEvents) : List DispatchTask :=
  events.reads.map .publish ++ if events.retired.isSome then [.closeMailbox, .pollClosed] else []

/-- The account's events, to be published before the rest. -/
def publishing (d : Dispatcher) (events : AccountEvents) (account : BrokerAccount) (rest : List DispatchTask) :
    List DispatchEvent × Dispatcher :=
  (events.reads.map .completed, { d with account := account, todo := publishTasks events ++ rest })

/-- `_release`. -/
def release (d : Dispatcher) (ticket : MailboxTicket) : Dispatcher :=
  let d := match d.requests.get? ticket with
    | none => d
    | some request => { d with
        requests := d.requests.erase ticket
        routes := d.routes.erase request.ticket
        account := d.account.cancelRead request.ticket }
  { d with mailbox := d.mailbox.acknowledgeCancel ticket }

/-- A completion of `_publish`. -/
def publish (d : Dispatcher) (completion : ReadCompletion) (now : ℚ) : Dispatcher :=
  match d.routes.get? completion.request.ticket with
  | none => d
  | some ticket => { d with
      routes := d.routes.erase completion.request.ticket
      requests := d.requests.erase ticket
      mailbox := d.mailbox.finish ticket completion now }

variable [Rounding]

/-- The next task of the owner's call. -/
def perform (loads : Loads) (now : ℚ) (input : TaskInput) (task : DispatchTask) (rest : List DispatchTask)
    (d : Dispatcher) : List DispatchEvent × Dispatcher :=
  match task with
  | .tick =>
    match d.account.tick input.jobs input.draws.noise now with
    | (events, account) => d.publishing events account rest
  | .receive plain peer generation =>
    match d.account.receive loads input.jobs plain peer generation now with
    | (.ok events, account) => d.publishing events account rest
    | (.error _, account) => ([], { d with account := account, todo := [] })
  | .retire reason =>
    match d.account.retire reason with
    | (events, account) => d.publishing events account rest
  | .drainMailbox => ([], { d with mailbox := d.mailbox.drain, todo := rest })
  | .drainAccount =>
    match d.account.drain input.jobs now with
    | (events, account) => d.publishing events account rest
  | .publish completion => ([], { d.publish completion now with todo := rest })
  | .closeMailbox => ([.closed], { d with mailbox := d.mailbox.close, todo := rest })
  | .pollClosed =>
    match d.mailbox.poll now with
    | (work, mailbox) => ([], { d with mailbox := mailbox, todo := work.cancellations.map .release ++ rest })
  | .pollWork =>
    match d.mailbox.poll now with
    | (work, mailbox) =>
      ([], { d with
        mailbox := mailbox
        todo := work.cancellations.map .release ++ (work.submissions.map .prepare ++ rest) })
  | .release ticket => ([], { d.release ticket with todo := rest })
  | .prepare submission =>
    let remaining := Rounding.round (submission.deadline - now)
    if remaining ≤ 0 then ([], { d with todo := rest })
    else
      match d.account.submitRead input.jobs input.draws submission.device submission.path remaining now with
      | (.ok read, account) => ([], { d with account := account, todo := .bind submission.ticket read :: rest })
      -- `close("prepare")` ends the call.
      | (.error _, account) =>
        match account.retire .prepare with
        | (events, account) => d.publishing events account []
  | .bind ticket read =>
    match d.mailbox.bind ticket read.request now with
    | (false, mailbox) =>
      ([], { d with mailbox := mailbox, account := d.account.cancelRead read.request.ticket, todo := rest })
    | (true, mailbox) =>
      ([.bound ticket read.request], { d with
        mailbox := mailbox
        requests := d.requests.set ticket read.request
        routes := d.routes.set read.request.ticket ticket
        todo := rest })

/-! ## Runs -/

inductive DispatchCall where
  /-- The callers. -/
  | submit (device : Nat) (path : String) (timeout : ℚ)
  | cancel (ticket : MailboxTicket)
  | take (ticket : MailboxTicket)
  | closeMailbox
  | drainMailbox
  /-- The owner: a call, or the next task of the one it is in. -/
  | step
  | receive (plain : Bytes) (peer : String × Nat) (generation : Nat)
  | close (reason : Retirement)
  | drain
  | proceed (input : TaskInput)
  | ready (ticket : MailboxTicket)
  /-- The other users of the account's sequences. -/
  | reserve (count : Nat)

/-- The owner begins a call, unless it is in one. -/
def begin (d : Dispatcher) (tasks : List DispatchTask) : List DispatchEvent × Dispatcher :=
  ([], if d.todo.isEmpty then { d with todo := tasks } else d)

def step (loads : Loads) (now : ℚ) (call : DispatchCall) (d : Dispatcher) : List DispatchEvent × Dispatcher :=
  match call with
  | .submit device path timeout =>
    match d.mailbox.submit device path timeout now with
    | (.error _, mailbox) => ([], { d with mailbox := mailbox })
    | (.ok submission, mailbox) => ([.accepted submission.ticket submission.deadline], { d with mailbox := mailbox })
  | .cancel ticket => ([], { d with mailbox := d.mailbox.cancel ticket })
  | .take ticket =>
    match d.mailbox.take ticket now with
    | (outcome, mailbox) => ([.taken ticket now outcome], { d with mailbox := mailbox })
  | .closeMailbox => ([.closed], { d with mailbox := d.mailbox.close })
  | .drainMailbox => ([], { d with mailbox := d.mailbox.drain })
  | .step => d.begin [.tick, .pollWork]
  | .receive plain peer generation => d.begin [.receive plain peer generation]
  | .close reason => d.begin [.retire reason]
  | .drain => d.begin [.drainMailbox, .drainAccount]
  | .proceed input =>
    match d.todo with
    | [] => ([], d)
    | task :: rest => d.perform loads now input task rest
  | .ready ticket => ([], { d with mailbox := (d.mailbox.ready ticket now).2 })
  | .reserve count => ([], { d with account := { d.account with source := (d.account.source.reserve count).2 } })

end Dispatcher

variable [Rounding]

/-- A run of the dispatcher: its state and what has been seen. -/
structure DispatchRun where
  dispatcher : Dispatcher
  log : List DispatchEvent := []

namespace DispatchRun

def step (loads : Loads) (now : ℚ) (call : Dispatcher.DispatchCall) (r : DispatchRun) : DispatchRun :=
  match r.dispatcher.step loads now call with
  | (events, dispatcher) => ⟨dispatcher, r.log ++ events⟩

/-- The calls, from a dispatcher that has just been made. -/
def run (loads : Loads) (d : Dispatcher) (calls : List (ℚ × Dispatcher.DispatchCall)) : DispatchRun :=
  Machine.run (step loads) ⟨d, []⟩ calls

end DispatchRun

end CamGuard.Account
