/-
The guard's weekly schedule (`guard_plan.py`, `smart_protection_schedule.py`), which a
camera keeps as a plan with a mask of weekdays, and the two ways it is set: on a session
of its own (`set_camera_smart_protection_schedule`) and on the account that a media
session already owns (`shared_guard.py`, `shared_control_write.py`).

What a camera or a session answers during a call is given beforehand; times are texts
`HH:MM` in the source and pairs here.
-/
import CamGuard.Account.ControlWrite
import CamGuard.Account.ModelWrites
import CamGuard.Lib.JsonValue

namespace CamGuard.Account

deriving instance DecidableEq for WeeklySchedule

attribute [ext] WeeklySchedule

/-! ## The plan -/

/-- The keys of `WEEKDAY_BITS`, in its order. -/
def WEEKDAYS : List Weekday := [.sun, .mon, .tue, .wed, .thu, .fri, .sat]

/-- `_clock` of `smart_protection_schedule.py`. -/
def nativeClock (time : DayTime) : Json := .dict [("hour", .int time.hour), ("min", .int time.minute)]

def nativeMask (weekdays : List Weekday) : Nat := weekdays.foldl (fun mask day => mask ||| day.bit) 0

def nativeSmartProtectionSchedule (schedule : WeeklySchedule) : Json :=
  .dict [("start", nativeClock schedule.start), ("end", nativeClock schedule.finish),
    ("weekdayEn", .int (nativeMask schedule.weekdays))]

/-- `_clock` of `guard_plan.py`. -/
def planClock (value : Json) : Option DayTime :=
  match value.getInt? "hour", value.getInt? "min" with
  | some hour, some minute =>
    if h : (0 ≤ hour ∧ hour ≤ 23) ∧ 0 ≤ minute ∧ minute ≤ 59 then
      some ⟨hour.toNat, minute.toNat, by omega, by omega⟩
    else none
  | _, _ => none

/-- The weekdays of a mask, Sunday first. -/
def planWeekdays (mask : Nat) : List Weekday := WEEKDAYS.filter fun day => mask &&& day.bit ≠ 0

theorem nodup_filter_weekdays (keep : Weekday → Bool) : (WEEKDAYS.filter keep).Nodup :=
  List.Nodup.filter keep (by decide)

theorem planWeekdays_nodup (mask : Nat) : (planWeekdays mask).Nodup := nodup_filter_weekdays _

theorem planWeekdays_ne {mask : Int} (h : 1 ≤ mask ∧ mask ≤ 0x7F) : planWeekdays mask.toNat ≠ [] := by
  have hall : ∀ n < 127, planWeekdays (n + 1) ≠ [] := by decide +kernel
  have hmask := hall (mask.toNat - 1) (by omega)
  rwa [Nat.sub_add_cancel (by omega)] at hmask

def parseGuardPlan (value : Json) : Option WeeklySchedule :=
  match (value.get? "start").bind planClock, (value.get? "end").bind planClock, value.getInt? "weekdayEn" with
  | some start, some finish, some mask =>
    if h : 1 ≤ mask ∧ mask ≤ 0x7F then
      some ⟨start, finish, planWeekdays mask.toNat, planWeekdays_ne h, planWeekdays_nodup _⟩
    else none
  | _, _, _ => none

/-- Has it the keys of a plan? -/
def completePlan (value : Json) : Bool :=
  (value.get? "start").isSome && (value.get? "end").isSome && (value.get? "weekdayEn").isSome

/-- The keys a plan may be nested under, in the order they are tried. -/
def PLAN_KEYS : List String := ["plan", "setVal", "guardParm", "ProWritable"]

theorem sizeOf_get? {value inner : Json} {key : String} (h : value.get? key = some inner) :
    sizeOf inner < sizeOf value := by
  unfold Json.get? at h
  split at h
  · obtain ⟨entry, hfind, rfl⟩ := Option.map_eq_some_iff.mp h
    have hmem := List.sizeOf_lt_of_mem (List.mem_of_find?_eq_some hfind)
    obtain ⟨name, inner⟩ := entry
    simp only [Json.dict.sizeOf_spec, Prod.mk.sizeOf_spec] at hmem ⊢
    omega
  · cases h

def extractSmartProtectionSchedule (value : Json) : Option WeeklySchedule :=
  if completePlan value then parseGuardPlan value
  else PLAN_KEYS.findSome? fun key =>
    match _h : value.get? key with
    | some inner => extractSmartProtectionSchedule inner
    | none => none
termination_by sizeOf value
decreasing_by exact sizeOf_get? _h

/-! ## On a session of its own -/

/-- Why a call ends: a `P2PProbeError`, or an `OSError` or `ValueError`. -/
inductive ScheduleFault where
  | probe (reason : String)
  | other
  deriving DecidableEq, Repr

structure ModelReadResult where
  transportAcknowledged : Bool
  errorCode : Option Nat
  value : Json

structure ModelWriteResult where
  transportAcknowledged : Bool
  errorCode : Option Nat
  deriving DecidableEq, Repr

/-- What a call of `set_camera_smart_protection_schedule` meets. -/
structure LegacyExchange where
  /-- `open_camera_session`: the device it ends at. -/
  opened : Except ScheduleFault Nat
  preflight : Except ScheduleFault ModelReadResult
  write : Except ScheduleFault ModelWriteResult
  /-- The readback of each attempt; none after the deadline. -/
  readback : Nat → Option (Except ScheduleFault ModelReadResult)

/-- `P2PSmartProtectionScheduleWrite`, but for the device and the schedule. -/
structure ScheduleWrite where
  previousSchedule : WeeklySchedule
  changed : Bool
  transportAcknowledged : Bool
  errorCode : Option Nat
  verified : Bool
  deriving DecidableEq

/-- The attempts at a readback from `attempt` on: is the schedule confirmed? -/
def confirmLegacy (e : LegacyExchange) (schedule : WeeklySchedule) : Nat → Nat → Except ScheduleFault Bool
  | 0, _ => .ok false
  | left + 1, attempt =>
    match e.readback attempt with
    | none => .ok false
    | some (.error fault) => .error fault
    | some (.ok readback) =>
      if readback.errorCode = some 0 ∧ extractSmartProtectionSchedule readback.value = some schedule then .ok true
      else confirmLegacy e schedule left (attempt + 1)

/-- The body of the call: its outcome, and the plans written. -/
def changeSchedule (e : LegacyExchange) (device : Nat) (schedule : WeeklySchedule) :
    Except ScheduleFault ScheduleWrite × List Json :=
  match e.opened with
  | .error fault => (.error fault, [])
  | .ok target =>
    if target ≠ device then (.error (.probe "smart-protection session device identity mismatch"), [])
    else
      match e.preflight with
      | .error fault => (.error fault, [])
      | .ok preflight =>
        match preflight.errorCode, extractSmartProtectionSchedule preflight.value with
        | some 0, some previous =>
          if previous = schedule then (.ok ⟨previous, false, false, some 0, true⟩, [])
          else
            let sent := [nativeSmartProtectionSchedule schedule]
            match e.write with
            | .error fault => (.error fault, sent)
            | .ok write =>
              if write.errorCode ≠ some 0 then (.error (.probe "camera rejected the smart-protection schedule"), sent)
              else
                match confirmLegacy e schedule 5 0 with
                | .error fault => (.error fault, sent)
                | .ok false => (.error (.probe "camera did not confirm the smart-protection schedule"), sent)
                | .ok true => (.ok ⟨previous, true, write.transportAcknowledged, write.errorCode, true⟩, sent)
        | _, _ => (.error (.probe "smart-protection schedule preflight returned no supported state"), [])

/-- The error a call raises: anything but a `P2PProbeError` is replaced by one. -/
def ScheduleFault.reason : ScheduleFault → String
  | .probe reason => reason
  | .other => "P2P smart-protection schedule change failed"

def setCameraSmartProtectionSchedule (e : LegacyExchange) (device : Nat) (schedule : WeeklySchedule) :
    Except String ScheduleWrite × List Json :=
  ((changeSchedule e device schedule).1.mapError ScheduleFault.reason, (changeSchedule e device schedule).2)

/-! ## On the account of a media session -/

/-- A `ControlNotReady` or a `ControlOperationError`. -/
inductive SharedFault where
  | notReady (reason : String)
  | operation (reason : String)
  deriving DecidableEq, Repr

/-- A control's value and, where it has one, the number the camera keeps for it. -/
structure SharedState (ν : Type) where
  value : ν
  native : Option Int := none

/-- What a read on the account's session meets. -/
structure SharedRead where
  session : Except SharedFault (Option Nat)
  submitted : Bool
  /-- A status and a completion; none when it timed out. -/
  outcome : Option (String × Option ModelReadResult)

/-- `read` of `smart_protection_schedule`. -/
def readSchedule (r : SharedRead) : Except SharedFault (Option (SharedState WeeklySchedule)) :=
  match r.session with
  | .error fault => .error fault
  | .ok none => .ok none
  | .ok (some _) =>
    if !r.submitted then .error (.notReady "native shared-control session is not accepting reads")
    else
      match r.outcome with
      | none => .error (.operation "native state read timed out")
      | some (status, completion) =>
        match completion with
        | none => .error (.operation "native state read was not confirmed")
        | some completion =>
          if status ≠ "response" ∨ completion.errorCode ≠ some 0 then
            .error (.operation "native state read was not confirmed")
          else
            match extractSmartProtectionSchedule completion.value with
            | none => .error (.operation "native state read returned an unsupported state")
            | some schedule => .ok (some ⟨schedule, none⟩)

/-- One look at the control after the write. -/
structure SharedAttempt (ν : Type) where
  late : Bool
  session : Except SharedFault (Option Nat)
  current : Except SharedFault (Option (SharedState ν))

/-- What a call of `apply` meets: the sessions it finds, the state it reads before, the
write, and the looks after it. -/
structure SharedCall (ν : Type) where
  session : Except SharedFault (Option Nat)
  previous : Except SharedFault (Option (SharedState ν))
  atSubmission : Except SharedFault (Option Nat)
  submitted : Bool
  result : Option ControlWriteResult
  afterwards : Except SharedFault (Option Nat)
  attempt : Nat → SharedAttempt ν

/-- `ControlResult`, but for what is the same in every one of `apply`. -/
structure SharedChange (ν : Type) where
  value : ν
  previousValue : ν
  changed : Bool
  transportAcknowledged : Bool

section

variable {ν : Type} [DecidableEq ν]

/-- `_matches`. -/
def stateMatches (result : Option (SharedState ν)) (value : ν) (raw : Option Int) : Bool :=
  match result with
  | none => false
  | some state => match raw with
    | none => state.value = value
    | some raw => state.native = some raw

/-- The looks from `attempt` on: the last state read. -/
def settle (call : SharedCall ν) (session : Nat) (value : ν) (raw : Option Int) (current : Option (SharedState ν)) :
    Nat → Nat → Except SharedFault (Option (SharedState ν))
  | 0, _ => .ok current
  | left + 1, attempt =>
    if (call.attempt attempt).late then .ok current
    else
      match (call.attempt attempt).session with
      | .error fault => .error fault
      | .ok now =>
        if now ≠ some session then .ok current
        else
          match (call.attempt attempt).current with
          | .error fault => .error fault
          | .ok current =>
            if stateMatches current value raw then .ok current
            else settle call session value raw current left (attempt + 1)

/-- `apply`, and whether anything was submitted. -/
def applyControl (call : SharedCall ν) (value : ν) (raw : Option Int) :
    Except SharedFault (Option (SharedChange ν)) × Bool :=
  match call.session with
  | .error fault => (.error fault, false)
  | .ok none => (.ok none, false)
  | .ok (some session) =>
    match call.previous with
    | .error fault => (.error fault, false)
    | .ok none => (.error (.notReady "native control preflight unavailable"), false)
    | .ok (some previous) =>
      if raw.isSome ∧ previous.native = none then (.error (.notReady "native control preflight unavailable"), false)
      else if stateMatches (some previous) value raw then (.ok (some ⟨value, previous.value, false, false⟩), false)
      else
        match call.atSubmission with
        | .error fault => (.error fault, false)
        | .ok now =>
          if now ≠ some session then
            (.error (.notReady "native control owner changed before submission"), false)
          else if !call.submitted then
            (.error (.notReady "native session is not accepting control changes"), false)
          else
            match call.result with
            | none => (.error (.operation "native control write unconfirmed; command was not repeated"), true)
            | some result =>
              if result.status ≠ "response" ∨ result.errorCode ≠ some 0 then
                (.error (.operation "native control write unconfirmed; command was not repeated"), true)
              else
                match call.afterwards with
                | .error fault => (.error fault, true)
                | .ok now =>
                  if now ≠ some session then
                    (.error (.operation "native control owner changed; command was not repeated"), true)
                  else
                    match settle call session value raw none 5 0 with
                    | .error fault => (.error fault, true)
                    | .ok current =>
                      if stateMatches current value raw then
                        (.ok (some ⟨value, previous.value, true, result.transportAcknowledged⟩), true)
                      else (.error (.operation "camera did not confirm the requested control value"), true)

end

theorem canonical_ne {weekdays : List Weekday} (h : weekdays ≠ []) : (WEEKDAYS.filter (· ∈ weekdays)) ≠ [] := by
  obtain ⟨day, hday⟩ := List.exists_mem_of_ne_nil _ h
  refine List.ne_nil_of_mem (List.mem_filter.mpr ⟨?_, decide_eq_true hday⟩)
  cases day <;> decide

/-- `canonical`. -/
def WeeklySchedule.canonical (schedule : WeeklySchedule) : WeeklySchedule :=
  ⟨schedule.start, schedule.finish, WEEKDAYS.filter (· ∈ schedule.weekdays), canonical_ne schedule.weekdays_ne,
    nodup_filter_weekdays _⟩

/-- `write_schedule`, and the plans written. -/
def writeSchedule (call : SharedCall WeeklySchedule) (schedule : WeeklySchedule) :
    Except SharedFault (Option (SharedChange WeeklySchedule)) × List Json :=
  let outcome := applyControl call schedule.canonical none
  (outcome.1, if outcome.2 then [nativeSmartProtectionSchedule schedule.canonical] else [])

end CamGuard.Account
