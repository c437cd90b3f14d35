/-
One account's session (`broker_account.py`) with its heartbeat
(`broker_heartbeat.py`, `broker_heartbeat_reply.py`): eight reads and one
heartbeat on one sequence namespace, and a retirement that ends them all.

The gestures and media routes of the account are other parts of it; what it asks
of them (`AccountJobs`) is given with each call.
-/
import CamGuard.Account.Budget
import CamGuard.Account.Reads

namespace CamGuard.Account

open CamGuard.Crypto

/-! ## Heartbeat -/

inductive HeartbeatStatus where
  | response
  | timeout
  | cancelled
  deriving DecidableEq, Repr

structure HeartbeatCompletion where
  ticket : ReceiptTicket
  status : HeartbeatStatus
  intervalHint : Option Nat := none
  deriving DecidableEq, Repr

inductive HeartbeatFault where
  | closed
  | identity
  | pending
  | deadline
  | address
  | sequences (e : SequenceFault)
  | gute (e : GuteFault)
  deriving DecidableEq, Repr

/-- The address a heartbeat reports: what `inet_aton` gives for the local
address, if it is one, and the port. -/
structure LocalAddress where
  ip : Option Bytes
  port : Nat
  deriving DecidableEq, Repr

/-- `build_heartbeat`. -/
def buildHeartbeat (node : CertifiedNode) (sequence : Nat) (address : LocalAddress) (noise : Nat) :
    Except HeartbeatFault Bytes :=
  match address.ip with
  | none => .error .address
  | some ip =>
    if 2 ^ 16 ≤ address.port then .error .address
    else
      let frame := newHeader 0xA0 48 node.sessionId sequence (randomizedFlags noise 2 2)
      let frame := frame.put 0 [0x7E]
      let frame := frame.put 0x18 (Bytes.ofNat 2 2 ++ Bytes.ofNat 2 address.port ++ ip)
      let frame := frame.put 0x21 [1]
      (finishMode2 (frame.put 0x2C (Bytes.ofNat 4 1)) node.sessionKey).mapError .gute

/-- `match_heartbeat_reply`: the interval hint of a reply. -/
def matchHeartbeatReply (plain : Bytes) (ticket : ReceiptTicket) (generation session : Nat) : Option (Option Nat) :=
  if generation ≠ ticket.generation ∨ ticket.kind ≠ 0xA0 ∨ plain.length < 40 ∨ 4096 < plain.length ∨
      (plain.at_ 0 ≠ 0x7E ∧ plain.at_ 0 ≠ 0x7F) ∨ plain.at_ 1 ≠ 0xA1 ∨ plain.field 2 2 ≠ plain.length ∨
      plain.field 8 4 ≠ session ∨ plain.field 4 16 ≠ ticket.sequence then none
  else
    let flags := plain.field 4 20
    if (flags >>> 16) &&& 3 ≠ 2 ∨ flags.testBit 21 = false ∨ flags.testBit 20 then none
    else
      let hint := plain.at_ 0x21
      some (if 10 ≤ hint ∧ hint ≤ 60 then some hint else none)

structure BrokerHeartbeat where
  session : Nat
  generation : Nat
  pending : Option (ReceiptTicket × ℚ) := none
  intervalHint : Nat := 50
  closed : Bool := false

namespace BrokerHeartbeat

def cadenceSeconds (b : BrokerHeartbeat) : Nat :=
  if b.intervalHint = 35 ∨ b.intervalHint = 40 then b.intervalHint else 50

/-- `prepare`, with a timeout of two seconds. -/
def prepare (b : BrokerHeartbeat) (source : BrokerSequences) (node : CertifiedNode) (address : LocalAddress)
    (noise : Nat) (now : ℚ) : Except HeartbeatFault Bytes × BrokerHeartbeat × BrokerSequences :=
  if b.closed ∨ source.matchesIdentity b.session b.generation = false then (.error .closed, b, source)
  else if node.sessionId ≠ b.session then (.error .identity, b, source)
  else if b.pending.isSome then (.error .pending, b, source)
  else
    match source.allocate with
    | (.error e, source) => (.error (.sequences e), b, source)
    | (.ok sequence, source) =>
      match buildHeartbeat node sequence address noise with
      | .error e => (.error e, b, source)
      | .ok wire => (.ok wire, { b with pending := some (⟨b.generation, sequence, 0xA0⟩, now + 2) }, source)

def accept (b : BrokerHeartbeat) (source : BrokerSequences) (plain : Bytes) (generation : Nat) (now : ℚ) :
    Option HeartbeatCompletion × BrokerHeartbeat :=
  match b.pending with
  | none => (none, b)
  | some (ticket, deadline) =>
    if b.closed ∨ source.matchesIdentity b.session b.generation = false ∨ deadline ≤ now then (none, b)
    else
      match matchHeartbeatReply plain ticket generation b.session with
      | none => (none, b)
      | some hint => (some ⟨ticket, .response, hint⟩, { b with
          pending := none
          intervalHint := hint.getD b.intervalHint })

def poll (b : BrokerHeartbeat) (now : ℚ) : Option HeartbeatCompletion × BrokerHeartbeat :=
  match b.pending with
  | none => (none, b)
  | some (ticket, deadline) =>
    if now < deadline then (none, b) else (some ⟨ticket, .timeout, none⟩, { b with pending := none })

def close (b : BrokerHeartbeat) : Option HeartbeatCompletion × BrokerHeartbeat :=
  match b.pending with
  | none => (none, { b with closed := true })
  | some (ticket, _) => (some ⟨ticket, .cancelled, none⟩, { b with closed := true, pending := none })

end BrokerHeartbeat

/-! ## The account -/

inductive Retirement where
  | closed
  | transport
  | lifetime
  | heartbeatTimeout
  | inputBudget
  | drained
  | drainTimeout
  | prepare
  deriving DecidableEq, Repr

/-- `AccountEvents`. -/
structure AccountEvents where
  reads : List ReadCompletion := []
  heartbeats : List HeartbeatCompletion := []
  outgoing : List Bytes := []
  retired : Option Retirement := none

/-- What the account asks of its gestures and routes: a gesture that is not
over, one whose release is not confirmed, a route that is not over, one whose
release is uncertain, and a route that fails on a frame. -/
structure AccountJobs where
  motionPending : Bool := false
  motionUnconfirmed : Bool := false
  mediaPending : Bool := false
  mediaUncertain : Bool := false
  mediaFails : Bool := false

inductive AccountFault where
  | notAccepting
  | lifetime
  | read (e : ReadFault)
  | model (e : ModelFault)
  | gute (e : GuteFault)
  | media
  deriving DecidableEq, Repr

structure BrokerAccount where
  input : TrafficBudget
  source : BrokerSequences
  reads : BrokerReads
  heartbeat : BrokerHeartbeat
  node : Option CertifiedNode
  generation : Nat
  address : LocalAddress
  /-- The end of a finite account. -/
  deadline : Option ℚ
  nextHeartbeat : ℚ
  drainDeadline : Option ℚ := none
  reason : Option Retirement := none

namespace BrokerAccount

/-- `BrokerAccount(…)`. -/
def new (node : CertifiedNode) (nextSequence generation : Nat) (address : LocalAddress) (policy : AccountPolicy)
    (now : ℚ) : Option BrokerAccount :=
  match TrafficBudget.new 512 (1024 * 1024) policy now 1, BrokerSequences.new node.sessionId generation nextSequence with
  | .ok input, .ok source =>
    match BrokerReads.new source node.sessionId generation with
    | .error _ => none
    | .ok reads => some {
        input := input
        source := source
        reads := reads
        heartbeat := {
          session := node.sessionId
          generation := generation }
        node := some node
        generation := generation
        address := address
        deadline := if policy = .finite then some (now + 120) else none
        nextHeartbeat := now + 50 }
  | _, _ => none

/-- Whether the account's lifetime is over. -/
def expired (a : BrokerAccount) (now : ℚ) : Bool := a.deadline.any fun deadline => decide (deadline ≤ now)

/-- `state = "active"`. -/
def active (a : BrokerAccount) : Bool := a.reason.isNone && a.drainDeadline.isNone

structure SubmittedRead where
  request : ReadRequest
  wire : Bytes

/-- What `secrets` gives for a request. -/
structure SubmitDraws where
  message : Nat
  noise : Nat

/-- `submit_read`. -/
def submitRead [Rounding] (a : BrokerAccount) (jobs : AccountJobs) (draws : SubmitDraws) (device : Nat) (path : String)
    (timeout now : ℚ) : Except AccountFault SubmittedRead × BrokerAccount :=
  if a.active = false ∨ a.expired now ∨ jobs.mediaUncertain ∨ jobs.motionUnconfirmed then (.error .notAccepting, a)
  else if a.deadline.any fun deadline => decide (Rounding.round (deadline - now) < timeout) then (.error .lifetime, a)
  else
    match a.reads.register a.source device path timeout fun _ => now with
    | (.error e, reads, source) => (.error (.read e), { a with reads := reads, source := source })
    | (.ok request, reads, source) =>
      let a := { a with reads := reads, source := source }
      match a.node with
      | none => (.error .notAccepting, a)
      | some node =>
        match buildModelRead node device path request.ticket.sequence draws.message draws.noise with
        | .error e => (.error (.model e), { a with reads := (a.reads.cancel request.ticket).2 })
        | .ok wire => (.ok ⟨request, wire⟩, a)

/-- `retire`. -/
def retire (a : BrokerAccount) (reason : Retirement) : AccountEvents × BrokerAccount :=
  match a.reason with
  | some reason => ({ retired := some reason }, a)
  | none =>
    match a.reads.close, a.heartbeat.close with
    | (completions, reads), (ending, heartbeat) =>
      ({ reads := completions
         heartbeats := ending.toList
         retired := some reason },
        { a with
          reason := some reason
          source := a.source.close
          reads := reads
          heartbeat := heartbeat
          node := none })

/-- `cancel_read`. -/
def cancelRead (a : BrokerAccount) (ticket : ReceiptTicket) : BrokerAccount :=
  { a with reads := (a.reads.cancel ticket).2 }

/-- A retirement after some reads have ended. -/
def retireWith (a : BrokerAccount) (reads : List ReadCompletion) (reason : Retirement) : AccountEvents × BrokerAccount :=
  match a.retire reason with
  | (tail, a) => ({ tail with reads := reads ++ tail.reads }, a)

/-- `_expire`. -/
def expire (a : BrokerAccount) (jobs : AccountJobs) (now : ℚ) : AccountEvents × BrokerAccount :=
  match a.reason with
  | some reason => ({ retired := some reason }, a)
  | none =>
    if jobs.mediaUncertain ∨ jobs.motionUnconfirmed then a.retire .transport
    else if a.expired now then a.retire .lifetime
    else
      match a.reads.poll fun _ => now with
      | (completions, reads) =>
        let a := { a with reads := reads }
        match a.heartbeat.poll now with
        | (some late, heartbeat) =>
          match retireWith { a with heartbeat := heartbeat } completions .heartbeatTimeout with
          | (events, a) => ({ events with heartbeats := [late] }, a)
        | (none, heartbeat) =>
          let a := { a with heartbeat := heartbeat }
          match a.drainDeadline with
          | none => ({ reads := completions }, a)
          | some drainDeadline =>
            let empty := a.reads.pending.size == 0 && a.heartbeat.pending.isNone && !jobs.motionPending &&
              !jobs.mediaPending
            if empty ∨ drainDeadline ≤ now then retireWith a completions (if empty then .drained else .drainTimeout)
            else ({ reads := completions }, a)

/-- `tick`. -/
def tick (a : BrokerAccount) (jobs : AccountJobs) (noise : Nat) (now : ℚ) : AccountEvents × BrokerAccount :=
  match a.expire jobs now with
  | (events, a) =>
    match a.active, a.node with
    | true, some node =>
      if a.heartbeat.pending.isSome ∨ now < a.nextHeartbeat then (events, a)
      else
        match a.heartbeat.prepare a.source node a.address noise now with
        | (.error _, heartbeat, source) =>
          retireWith { a with heartbeat := heartbeat, source := source } events.reads .prepare
        | (.ok wire, heartbeat, source) =>
          ({ reads := events.reads, outgoing := [wire] }, { a with heartbeat := heartbeat, source := source })
    | _, _ => (events, a)

/-- `receive`; a frame whose checksum cannot be formed fails, and what has ended
before it is lost. -/
def receive (loads : Loads) (a : BrokerAccount) (jobs : AccountJobs) (plain : Bytes) (peer : String × Nat)
    (generation : Nat) (now : ℚ) : Except AccountFault AccountEvents × BrokerAccount :=
  match a.expire jobs now with
  | (events, a) =>
    match a.node with
    | none => (.ok events, a)
    | some node =>
      if 4096 < plain.length then
        match retireWith a events.reads .inputBudget with
        | (events, a) => (.ok events, a)
      else
        match a.input.charge now plain.length with
        | (.error _, input) =>
          match retireWith { a with input := input } events.reads .inputBudget with
          | (events, a) => (.ok events, a)
        | (.ok (), input) =>
          let a := { a with input := input }
          if peer ≠ node.address ∨ generation ≠ a.generation then (.ok events, a)
          else if jobs.mediaFails then (.error .media, a)
          else
            match a.reads.accept loads a.source plain generation fun _ => now with
            | (.error e, reads) => (.error (.gute e), { a with reads := reads })
            | (.ok read, reads) =>
              match a.heartbeat.accept a.source plain generation now with
              | (ending, heartbeat) =>
                (.ok {
                  reads := events.reads ++ read.toList
                  heartbeats := ending.toList },
                { a with
                  reads := reads
                  heartbeat := heartbeat
                  nextHeartbeat := if ending.isSome then now + heartbeat.cadenceSeconds else a.nextHeartbeat })

/-- `drain`. -/
def drain (a : BrokerAccount) (jobs : AccountJobs) (now : ℚ) : AccountEvents × BrokerAccount :=
  expire (if a.active then { a with drainDeadline := some (now + 2) } else a) jobs now

end BrokerAccount

end CamGuard.Account
