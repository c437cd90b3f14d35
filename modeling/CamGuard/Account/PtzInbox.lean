/-
Admission of PTZ gestures (`ptz_inbox.py`): one slot between the callers, who
submit, cancel, abandon and take, and the worker, who claims and finishes.

Every operation is one section under the lock and reads one time. A claimed
gesture keeps the slot until its result is known, and a result that leaves the
camera moving closes the inbox.
-/
import CamGuard.Account.PtzScheduler

namespace CamGuard.Account

/-- `MotionTicket`. -/
structure MotionTicket where
  generation : Nat
  serial : Nat
  deriving DecidableEq, Repr

/-- `_Slot`. -/
structure MotionSlot where
  ticket : MotionTicket
  spec : PtzSpec
  deadline : ℚ
  claimed : Bool := false
  cancelled : Bool := false
  abandoned : Bool := false
  result : Option ScheduledPtzResult := none

/-- The `ValueError`s of the inbox. -/
inductive MotionFault where
  | generation
  | gesture
  | unavailable
  deriving DecidableEq, Repr

/-- Their texts. -/
def MotionFault.reason : MotionFault → String
  | .generation => "invalid motion generation"
  | .gesture => "invalid reviewed gesture"
  | .unavailable => "motion admission unavailable"

/-- The camera is known to stand still. -/
def ScheduledPtzResult.safe (r : ScheduledPtzResult) : Bool := !r.startAttempted || r.releaseDeliveryConfirmed

/-- What `submit` asks of a gesture; a direction is one of `DIRECTIONS`. -/
def PtzSpec.valid (spec : PtzSpec) : Bool :=
  decide (0 < spec.access ∧ spec.access < 2 ^ 64 ∧ 0 < spec.device ∧ spec.device < 2 ^ 64 ∧
    spec.direction ∈ spec.reviewedDirections ∧ 1 / 10 ≤ spec.duration ∧ spec.duration ≤ 1 / 2)

namespace MotionSlot

/-- `_cancel`: what was not claimed ends at once. -/
def cancel (s : MotionSlot) : MotionSlot :=
  let s := { s with cancelled := true }
  if s.claimed = false ∧ s.result.isNone then
    { s with result := some ⟨"cancelled", false, 0, false, false⟩ }
  else s

end MotionSlot

/-- `PtzInbox`: one gesture at a time. -/
structure PtzInbox where
  generation : Nat
  serial : Nat := 0
  closed : Bool := false
  slot : Option MotionSlot := none

namespace PtzInbox

/-- `PtzInbox(…)`. -/
def new (generation : Nat) : Except MotionFault PtzInbox :=
  if 0 < generation ∧ generation < 2 ^ 64 then .ok { generation := generation } else .error .generation

/-- `submit`. -/
def submit (i : PtzInbox) (spec : PtzSpec) (now : ℚ) : Except MotionFault MotionTicket × PtzInbox :=
  if spec.valid = false then (.error .gesture, i)
  else if i.closed ∨ i.slot.isSome ∨ 2 ^ 64 ≤ i.serial then (.error .unavailable, i)
  else
    let ticket : MotionTicket := ⟨i.generation, i.serial⟩
    (.ok ticket, { i with
      serial := i.serial + 1
      slot := some { ticket := ticket, spec := spec, deadline := now + 1 } })

/-- `claim`: the gesture in the slot, if its time has not run out. -/
def claim (i : PtzInbox) (now : ℚ) : Option (MotionTicket × PtzSpec) × PtzInbox :=
  match i.slot with
  | none => (none, i)
  | some slot =>
    if slot.claimed ∨ slot.result.isSome then (none, i)
    else if i.closed ∨ slot.deadline ≤ now then (none, { i with slot := some slot.cancel })
    else (some (slot.ticket, slot.spec), { i with slot := some { slot with claimed := true } })

/-- `cancel`. -/
def cancel (i : PtzInbox) (ticket : MotionTicket) : Bool × PtzInbox :=
  match i.slot with
  | none => (false, i)
  | some slot =>
    if slot.ticket ≠ ticket ∨ slot.result.isSome then (false, i) else (true, { i with slot := some slot.cancel })

/-- `should_cancel`. -/
def shouldCancel (i : PtzInbox) (ticket : MotionTicket) : Bool :=
  i.closed || match i.slot with
    | none => true
    | some slot => decide (slot.ticket ≠ ticket) || slot.cancelled

/-- `abandon`: the caller is gone; a claimed gesture stays until its end is
known. -/
def abandon (i : PtzInbox) (ticket : MotionTicket) : PtzInbox :=
  match i.slot with
  | none => i
  | some slot =>
    if slot.ticket ≠ ticket then i
    else
      let slot := MotionSlot.cancel { slot with abandoned := true }
      { i with slot := if slot.result.any ScheduledPtzResult.safe then none else some slot }

/-- `finish`: one result, for the gesture that is claimed. -/
def finish (i : PtzInbox) (ticket : MotionTicket) (result : ScheduledPtzResult) : Bool × PtzInbox :=
  match i.slot with
  | none => (false, i)
  | some slot =>
    if slot.ticket ≠ ticket ∨ slot.claimed = false ∨ slot.result.isSome then (false, i)
    else
      let slot := { slot with result := some result }
      if result.startAttempted ∧ result.releaseDeliveryConfirmed = false then
        (true, { i with slot := some slot, closed := true })
      else if slot.abandoned then (true, { i with slot := none })
      else (true, { i with slot := some slot })

/-- `take`: a result is handed out once, and the slot is free. -/
def take (i : PtzInbox) (ticket : MotionTicket) : Option ScheduledPtzResult × PtzInbox :=
  match i.slot with
  | none => (none, i)
  | some slot =>
    if slot.ticket ≠ ticket then (none, i)
    else
      match slot.result with
      | none => (none, i)
      | some result => (some result, { i with slot := none })

/-- `close`: the gesture in the slot is cancelled. -/
def close (i : PtzInbox) : PtzInbox := { i with closed := true, slot := i.slot.map MotionSlot.cancel }

/-! ## Runs -/

/-- A call of a caller's or of the scheduler's. -/
inductive MotionCall where
  /-- The callers. -/
  | submit (spec : PtzSpec)
  | cancel (ticket : MotionTicket)
  | abandon (ticket : MotionTicket)
  | take (ticket : MotionTicket)
  /-- The worker. -/
  | claim
  | finish (ticket : MotionTicket) (result : ScheduledPtzResult)
  | close

/-- What can be seen of a run. -/
inductive MotionEvent where
  | submitted (ticket : MotionTicket)
  | claimed (ticket : MotionTicket)
  /-- The worker's result was accepted. -/
  | finished (ticket : MotionTicket) (result : ScheduledPtzResult)
  | abandoned (ticket : MotionTicket)
  /-- A take has given a result. -/
  | taken (ticket : MotionTicket) (result : ScheduledPtzResult)
  deriving DecidableEq

/-- One call, and what it tells. -/
def step (now : ℚ) (call : MotionCall) (i : PtzInbox) : Option MotionEvent × PtzInbox :=
  match call with
  | .submit spec =>
    match i.submit spec now with
    | (.error _, i) => (none, i)
    | (.ok ticket, i) => (some (.submitted ticket), i)
  | .cancel ticket => (none, (i.cancel ticket).2)
  | .abandon ticket => (some (.abandoned ticket), i.abandon ticket)
  | .take ticket =>
    match i.take ticket with
    | (none, i) => (none, i)
    | (some result, i) => (some (.taken ticket result), i)
  | .claim =>
    match i.claim now with
    | (none, i) => (none, i)
    | (some (ticket, _), i) => (some (.claimed ticket), i)
  | .finish ticket result =>
    match i.finish ticket result with
    | (false, i) => (none, i)
    | (true, i) => (some (.finished ticket result), i)
  | .close => (none, i.close)

end PtzInbox

/-- A run of the inbox: its state, and what has been seen. -/
structure MotionRun where
  inbox : PtzInbox
  log : List PtzInbox.MotionEvent := []

namespace MotionRun

/-- One call; what it tells is logged. -/
def step (now : ℚ) (call : PtzInbox.MotionCall) (r : MotionRun) : MotionRun :=
  match r.inbox.step now call with
  | (event, inbox) => ⟨inbox, r.log ++ event.toList⟩

/-- The calls, on an inbox that has just been made. -/
def run (i : PtzInbox) (calls : List (ℚ × PtzInbox.MotionCall)) : MotionRun := Machine.run step ⟨i, []⟩ calls

end MotionRun

end CamGuard.Account
