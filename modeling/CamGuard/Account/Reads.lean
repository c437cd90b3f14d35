/-
Transport receipts (`broker_transactions.py`) and the reads that wait for a
camera's answer (`broker_reads.py`).

A read is registered under a new sequence, with a receipt pending for it beside
the read; it ends with the answer, a rejected receipt, its deadline, a
cancellation or the end of the account. The sequence namespace is the account's
and is passed in and out. A call on the reads takes the readings of the clock that
it makes, in order; one on the receipts makes one. The deadlines are rounded.
-/
import CamGuard.Account.ModelProtocol
import CamGuard.Account.Sequences
import CamGuard.Lib.Dict
import CamGuard.Lib.Rounding

namespace CamGuard.Account

open CamGuard.Crypto

variable [Rounding]

def MAX_PENDING : Nat := 8

def MAX_TIMEOUT : ℚ := 10

/-! ## Receipts -/

/-- `TransportReceipt`. -/
structure TransportReceipt where
  ticket : ReceiptTicket
  result : Nat
  deriving DecidableEq, Repr

/-- `accepted`. -/
def TransportReceipt.accepted (r : TransportReceipt) : Bool := r.result == 0

/-- The `ValueError`s of receipts. -/
inductive TransactionFault where
  | identity
  | closed
  | bounds
  | capacity
  | sequences (e : SequenceFault)
  deriving DecidableEq, Repr

/-- Their texts. -/
def TransactionFault.reason : TransactionFault → String
  | .identity => "broker sequence identity mismatch"
  | .closed => "broker transactions closed"
  | .bounds => "invalid broker transaction bounds"
  | .capacity => "broker transaction capacity exhausted"
  | .sequences e => e.reason

/-- Receipts on a namespace that somebody else owns. -/
structure BrokerTransactions where
  session : Nat
  generation : Nat
  pending : Dict Nat (ReceiptTicket × ℚ) := ∅
  closed : Bool := false

namespace BrokerTransactions

/-- `active`, on the account's sequences. -/
def active (b : BrokerTransactions) (source : BrokerSequences) : Bool :=
  !b.closed && source.matchesIdentity b.session b.generation

/-- `register`; `now` is the clock as the deadline is computed. -/
def register (b : BrokerTransactions) (source : BrokerSequences) (kind : Nat) (timeout now : ℚ) :
    Except TransactionFault ReceiptTicket × BrokerTransactions × BrokerSequences :=
  if b.active source = false then (.error .closed, b, source)
  else if 255 < kind ∨ timeout ≤ 0 ∨ MAX_TIMEOUT < timeout then (.error .bounds, b, source)
  else if MAX_PENDING ≤ b.pending.size then (.error .capacity, b, source)
  else
    match source.allocate with
    | (.error e, source) => (.error (.sequences e), b, source)
    | (.ok sequence, source) =>
      let ticket : ReceiptTicket := ⟨b.generation, sequence, kind⟩
      (.ok ticket, { b with pending := b.pending.set sequence (ticket, Rounding.round (now + timeout)) }, source)

/-- `poll`, without the expired tickets. -/
def poll (b : BrokerTransactions) (now : ℚ) : BrokerTransactions :=
  { b with pending := (b.pending.entries.filter fun e => decide (e.2.2 ≤ now)).foldl (fun d e => d.erase e.1) b.pending }

/-- `cancel`, of this ticket and no other of its sequence. -/
def cancel (b : BrokerTransactions) (ticket : ReceiptTicket) : BrokerTransactions :=
  match b.pending.get? ticket.sequence with
  | none => b
  | some (held, _) => if held = ticket then { b with pending := b.pending.erase ticket.sequence } else b

/-- `accept`; it fails on a frame whose checksum cannot be formed. -/
def accept (b : BrokerTransactions) (source : BrokerSequences) (plain : Bytes) (generation : Nat) (now : ℚ) :
    Except GuteFault (Option TransportReceipt) × BrokerTransactions :=
  if b.active source = false ∨ generation ≠ b.generation ∨ plain.length ≠ 32 ∨
      (plain.at_ 0 ≠ 0x7E ∧ plain.at_ 0 ≠ 0x7F) ∨ plain.field 2 2 ≠ 32 ∨ plain.field 8 4 ≠ b.session then (.ok none, b)
  else
    match guteMode1XorChecksum plain with
    | .error e => (.error e, b)
    | .ok checksum =>
      let flags := plain.field 4 20
      if plain.field 4 16 ≠ checksum ∨ (flags >>> 16) &&& 3 ≠ 2 ∨ flags.testBit 20 = false ∨ flags.testBit 21 then
        (.ok none, b)
      else
        let sequence := plain.field 4 12
        match b.pending.get? sequence with
        | none => (.ok none, b)
        | some (ticket, deadline) =>
          if plain.at_ 1 ≠ ticket.kind ∨ deadline ≤ now then (.ok none, b)
          else (.ok (some ⟨ticket, plain.field 2 26⟩), { b with pending := b.pending.erase sequence })

/-- `close`, for a namespace that somebody else owns. -/
def close (b : BrokerTransactions) : BrokerTransactions := { b with pending := ∅, session := 0, closed := true }

end BrokerTransactions

/-! ## Reads -/

/-- `ReadRequest`. -/
structure ReadRequest where
  ticket : ReceiptTicket
  device : Nat
  path : String
  deriving DecidableEq, Repr

/-- How a read ends. -/
inductive ReadStatus where
  | response
  | transportRejected
  | timeout
  | cancelled
  deriving DecidableEq, Repr

/-- `ReadCompletion`. -/
structure ReadCompletion where
  request : ReadRequest
  status : ReadStatus
  transportResult : Option Nat
  errorCode : Option Nat := none
  value : Json := .null

/-- A read that waits, with what its receipt has said. -/
structure PendingRead where
  request : ReadRequest
  deadline : ℚ
  transportResult : Option Nat := none

/-- The `ValueError`s of reads. -/
inductive ReadFault where
  | closed
  | notAllowed
  | capacity
  | transaction (e : TransactionFault)
  deriving DecidableEq, Repr

/-- Their texts. -/
def ReadFault.reason : ReadFault → String
  | .closed => "broker reads closed"
  | .notAllowed => "invalid allowlisted broker read"
  | .capacity => "broker read capacity exhausted"
  | .transaction e => e.reason

/-- `BrokerReads`: the reads that wait, beside their receipts. -/
structure BrokerReads where
  receipts : BrokerTransactions
  session : Nat
  pending : Dict Nat PendingRead := ∅
  closed : Bool := false

namespace BrokerReads

/-- `BrokerReads(…)` on the account's namespace. -/
def new (source : BrokerSequences) (session generation : Nat) : Except TransactionFault BrokerReads :=
  if source.matchesIdentity session generation = false then .error .identity
  else .ok {
    receipts := {
      session := session
      generation := generation }
    session := session }

/-- `register`. -/
def register (b : BrokerReads) (source : BrokerSequences) (device : Nat) (path : String) (timeout : ℚ) (clock : Nat → ℚ) :
    Except ReadFault ReadRequest × BrokerReads × BrokerSequences :=
  if b.closed ∨ b.receipts.active source = false then (.error .closed, b, source)
  else if device = 0 ∨ 2 ^ 64 ≤ device ∨ path ∉ MODEL_READ_PATHS then (.error .notAllowed, b, source)
  else if MAX_PENDING ≤ b.pending.size then (.error .capacity, b, source)
  else
    match b.receipts.register source 0xB7 timeout (clock 1) with
    | (.error e, receipts, source) => (.error (.transaction e), { b with receipts := receipts }, source)
    | (.ok ticket, receipts, source) =>
      let request : ReadRequest := ⟨ticket, device, path⟩
      (.ok request, { b with
        receipts := receipts
        pending := b.pending.set ticket.sequence {
          request := request
          deadline := Rounding.round (clock 0 + timeout) } }, source)

/-- `_finish`. -/
def finish (b : BrokerReads) (pending : PendingRead) (status : ReadStatus) (errorCode : Option Nat := none)
    (value : Json := .null) : ReadCompletion × BrokerReads :=
  ({ request := pending.request
     status := status
     transportResult := pending.transportResult
     errorCode := errorCode
     value := value },
    { b with
      pending := b.pending.erase pending.request.ticket.sequence
      receipts := b.receipts.cancel pending.request.ticket })

/-- The endings of several reads, in order. -/
def finishAll (status : ReadStatus) : List PendingRead → BrokerReads → List ReadCompletion × BrokerReads
  | [], b => ([], b)
  | pending :: rest, b =>
    match b.finish pending status with
    | (completion, b) =>
      match finishAll status rest b with
      | (completions, b) => (completion :: completions, b)

/-- The first read that waits and that the frame answers; the clock is read for each. -/
def answered (loads : Loads) (plain : Bytes) (generation session : Nat) :
    (Nat → ℚ) → List PendingRead → Option (PendingRead × Nat × Json)
  | _, [] => none
  | clock, pending :: rest =>
    if pending.deadline ≤ clock 0 then answered loads plain generation session (fun i => clock (i + 1)) rest
    else
      match matchModelReply loads plain pending.request.ticket generation session pending.request.device with
      | some (error, value) => some (pending, error, value)
      | none => answered loads plain generation session (fun i => clock (i + 1)) rest

/-- `accept`. The first reading is that of the receipts. -/
def accept (loads : Loads) (b : BrokerReads) (source : BrokerSequences) (plain : Bytes) (generation : Nat)
    (clock : Nat → ℚ) : Except GuteFault (Option ReadCompletion) × BrokerReads :=
  if b.closed ∨ b.receipts.active source = false then (.ok none, b)
  else
    match b.receipts.accept source plain generation (clock 0) with
    | (.error e, receipts) => (.error e, { b with receipts := receipts })
    | (.ok (some receipt), receipts) =>
      let b := { b with receipts := receipts }
      match b.pending.get? receipt.ticket.sequence with
      | none => (.ok none, b)
      | some pending =>
        if pending.deadline ≤ clock 1 then (.ok none, b)
        else
          let pending := { pending with transportResult := some receipt.result }
          let b := { b with pending := b.pending.set receipt.ticket.sequence pending }
          if receipt.accepted then (.ok none, b)
          else
            match b.finish pending .transportRejected with
            | (completion, b) => (.ok (some completion), b)
    | (.ok none, receipts) =>
      let b := { b with receipts := receipts }
      match answered loads plain generation b.session (fun i => clock (i + 1)) b.pending.values with
      | none => (.ok none, b)
      | some (pending, error, value) =>
        match b.finish pending .response (some error) value with
        | (completion, b) => (.ok (some completion), b)

/-- `poll`: what has run out of time ends, and its receipt with it. -/
def poll (b : BrokerReads) (clock : Nat → ℚ) : List ReadCompletion × BrokerReads :=
  match finishAll .timeout (b.pending.values.filter fun pending => decide (pending.deadline ≤ clock 0)) b with
  | (results, b) => (results, { b with receipts := b.receipts.poll (clock 1) })

/-- `cancel`. -/
def cancel (b : BrokerReads) (ticket : ReceiptTicket) : Option ReadCompletion × BrokerReads :=
  match b.pending.get? ticket.sequence with
  | none => (none, b)
  | some pending =>
    if pending.request.ticket ≠ ticket then (none, b)
    else
      match b.finish pending .cancelled with
      | (completion, b) => (some completion, b)

/-- `close`: every read that waits is cancelled. -/
def close (b : BrokerReads) : List ReadCompletion × BrokerReads :=
  match finishAll .cancelled b.pending.values b with
  | (results, b) => (results, { b with receipts := b.receipts.close, session := 0, closed := true })

end BrokerReads

/-! ## Runs -/

/-- What can happen to the reads and to the sequences they share. -/
inductive ReadsCall where
  | register (device : Nat) (path : String) (timeout : ℚ)
  | accept (plain : Bytes) (generation : Nat)
  | poll
  | cancel (ticket : ReceiptTicket)
  | close
  /-- Somebody else's sequences. -/
  | reserve (count : Nat)
  /-- The namespace is retired. -/
  | retire

/-- A call, and what came of it: the request that was registered, the sequences
that were given to somebody else, and the reads that have ended. -/
structure ReadsEvent where
  clock : Nat → ℚ
  call : ReadsCall
  registered : Option ReadRequest := none
  reserved : List Nat := []
  completions : List ReadCompletion := []

/-- Reads with their sequences and what has been done with them. -/
structure ReadsRun where
  reads : BrokerReads
  source : BrokerSequences
  log : List ReadsEvent := []

namespace ReadsRun

/-- A call on the reads and their sequences. -/
def perform (loads : Loads) (clock : Nat → ℚ) (call : ReadsCall) (b : BrokerReads) (source : BrokerSequences) :
    ReadsEvent × BrokerReads × BrokerSequences :=
  match call with
  | .register device path timeout =>
    match b.register source device path timeout clock with
    | (.error _, b, source) => ({ clock := clock, call := call }, b, source)
    | (.ok request, b, source) => ({ clock := clock, call := call, registered := some request }, b, source)
  | .accept plain generation =>
    match b.accept loads source plain generation clock with
    | (.error _, b) => ({ clock := clock, call := call }, b, source)
    | (.ok read, b) => ({ clock := clock, call := call, completions := read.toList }, b, source)
  | .poll =>
    match b.poll clock with
    | (completions, b) => ({ clock := clock, call := call, completions := completions }, b, source)
  | .cancel ticket =>
    match b.cancel ticket with
    | (completion, b) => ({ clock := clock, call := call, completions := completion.toList }, b, source)
  | .close =>
    match b.close with
    | (completions, b) => ({ clock := clock, call := call, completions := completions }, b, source)
  | .reserve count =>
    match source.reserve count with
    | (.error _, source) => ({ clock := clock, call := call }, b, source)
    | (.ok ids, source) => ({ clock := clock, call := call, reserved := ids }, b, source)
  | .retire => ({ clock := clock, call := call }, b, source.close)

/-- One call; what it tells is logged. -/
def step (loads : Loads) (clock : Nat → ℚ) (call : ReadsCall) (r : ReadsRun) : ReadsRun :=
  match perform loads clock call r.reads r.source with
  | (event, reads, source) => ⟨reads, source, r.log ++ [event]⟩

/-- The calls, from reads that have just been made. -/
def run (loads : Loads) (b : BrokerReads) (source : BrokerSequences) (calls : List ((Nat → ℚ) × ReadsCall)) : ReadsRun :=
  calls.foldl (fun r call => r.step loads call.1 call.2) ⟨b, source, []⟩

end ReadsRun

end CamGuard.Account
