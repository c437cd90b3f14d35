/-
What is read back of a guard schedule is the schedule in canonical order, Sunday first
(`extract_nested`). The account's path compares with that; the path of a session of its
own compares with the order of the request, so it recognises a schedule, in force or just
written, exactly when the request already was in canonical order (`read_back_iff`).
-/
import Mathlib.Data.List.Sort
import Mathlib.Data.Nat.Bitwise
import CamGuard.Account.GuardSchedule

namespace CamGuard.Account

/-! ## Masks -/

def Weekday.index : Weekday → Nat
  | .sun => 0
  | .mon => 1
  | .tue => 2
  | .wed => 3
  | .thu => 4
  | .fri => 5
  | .sat => 6

theorem Weekday.bit_eq (day : Weekday) : day.bit = 2 ^ day.index := by cases day <;> rfl

theorem Weekday.index_lt (day : Weekday) : day.index < 7 := by cases day <;> decide

theorem Weekday.index_inj {a b : Weekday} (h : a.index = b.index) : a = b := by
  cases a <;> cases b <;> first | rfl | cases h

theorem testBit_bit (day : Weekday) (i : Nat) : day.bit.testBit i = decide (day.index = i) := by
  rw [day.bit_eq, Nat.testBit_two_pow]

theorem testBit_foldl (weekdays : List Weekday) (mask i : Nat) :
    (weekdays.foldl (fun mask day => mask ||| day.bit) mask).testBit i =
      (mask.testBit i || weekdays.any fun day => day.index = i) := by
  induction weekdays generalizing mask with
  | nil => simp
  | cons day weekdays ih => rw [List.foldl_cons, ih, Nat.testBit_or, testBit_bit, List.any_cons, Bool.or_assoc]

theorem testBit_nativeMask (weekdays : List Weekday) (i : Nat) :
    (nativeMask weekdays).testBit i = weekdays.any fun day => day.index = i := by
  rw [nativeMask, testBit_foldl, Nat.zero_testBit, Bool.false_or]

theorem mask_bit {mask : Nat} {day : Weekday} : mask &&& day.bit ≠ 0 ↔ mask.testBit day.index = true := by
  rw [day.bit_eq, Nat.and_two_pow]
  cases mask.testBit day.index <;> simp

/-- The mask has the bits of its weekdays. -/
theorem nativeMask_bit {weekdays : List Weekday} {day : Weekday} :
    nativeMask weekdays &&& day.bit ≠ 0 ↔ day ∈ weekdays := by
  rw [mask_bit, testBit_nativeMask, List.any_eq_true]
  constructor
  · rintro ⟨other, hmem, heq⟩
    rwa [← Weekday.index_inj (of_decide_eq_true heq)]
  · intro hmem
    exact ⟨day, hmem, decide_eq_true rfl⟩

theorem planWeekdays_nativeMask (weekdays : List Weekday) :
    planWeekdays (nativeMask weekdays) = WEEKDAYS.filter (· ∈ weekdays) := by
  unfold planWeekdays
  exact List.filter_congr fun day _ => decide_eq_decide.mpr nativeMask_bit

theorem nativeMask_range {weekdays : List Weekday} (h : weekdays ≠ []) :
    1 ≤ nativeMask weekdays ∧ nativeMask weekdays ≤ 0x7F := by
  constructor
  · obtain ⟨day, hday⟩ := List.exists_mem_of_ne_nil _ h
    have hbit := nativeMask_bit.mpr hday
    rcases Nat.eq_zero_or_pos (nativeMask weekdays) with hzero | hpos
    · rw [hzero] at hbit
      exact absurd (Nat.zero_and _) hbit
    · exact hpos
  · have hlt : nativeMask weekdays < 2 ^ 7 := by
      refine Nat.lt_pow_two_of_testBit _ fun i hi => ?_
      rw [testBit_nativeMask, List.any_eq_false]
      intro day _
      have := day.index_lt
      simp only [decide_eq_true_eq]
      omega
    omega

/-! ## The plan read back -/

theorem planClock_nativeClock (time : DayTime) : planClock (nativeClock time) = some time := by
  obtain ⟨hour, minute, hhour, hminute⟩ := time
  have hrange : (0 ≤ (hour : Int) ∧ (hour : Int) ≤ 23) ∧ 0 ≤ (minute : Int) ∧ (minute : Int) ≤ 59 := by omega
  have hgetHour : (nativeClock ⟨hour, minute, hhour, hminute⟩).getInt? "hour" = some (hour : Int) := rfl
  have hgetMinute : (nativeClock ⟨hour, minute, hhour, hminute⟩).getInt? "min" = some (minute : Int) := rfl
  rw [planClock, hgetHour, hgetMinute]
  dsimp only
  rw [dif_pos hrange]
  rfl

theorem parse_native (schedule : WeeklySchedule) :
    parseGuardPlan (nativeSmartProtectionSchedule schedule) = some schedule.canonical := by
  have hstart : ((nativeSmartProtectionSchedule schedule).get? "start").bind planClock = some schedule.start :=
    planClock_nativeClock schedule.start
  have hfinish : ((nativeSmartProtectionSchedule schedule).get? "end").bind planClock = some schedule.finish :=
    planClock_nativeClock schedule.finish
  have hmask : (nativeSmartProtectionSchedule schedule).getInt? "weekdayEn" = some (nativeMask schedule.weekdays : Int) :=
    rfl
  have hrange := nativeMask_range schedule.weekdays_ne
  rw [parseGuardPlan, hstart, hfinish, hmask]
  dsimp only
  rw [dif_pos (by omega)]
  exact congrArg some (WeeklySchedule.ext rfl rfl (planWeekdays_nativeMask schedule.weekdays))

/-- A plan as it is, or inside objects under the keys that are looked up. -/
inductive Nested (plan : Json) : Json → Prop where
  | here : Nested plan plan
  | under {inner : Json} {entries : List (String × Json)} (earlier later : List String) (key : String) :
      PLAN_KEYS = earlier ++ key :: later → (Json.dict entries).get? key = some inner →
      (∀ other ∈ earlier, (Json.dict entries).get? other = none) → completePlan (.dict entries) = false →
      Nested plan inner → Nested plan (.dict entries)

theorem extract_complete {value : Json} (h : completePlan value = true) :
    extractSmartProtectionSchedule value = parseGuardPlan value := by
  rw [extractSmartProtectionSchedule, if_pos h]

theorem extract_plain {value : Json} (h : completePlan value = false) :
    extractSmartProtectionSchedule value =
      PLAN_KEYS.findSome? fun key => (value.get? key).bind extractSmartProtectionSchedule := by
  rw [extractSmartProtectionSchedule, if_neg (by simp [h])]
  congr 1
  funext key
  split
  · rename_i inner hget
    rw [hget, Option.bind_some]
  · rename_i hget
    rw [hget, Option.bind_none]

theorem extract_nested {schedule : WeeklySchedule} {value : Json}
    (h : Nested (nativeSmartProtectionSchedule schedule) value) :
    extractSmartProtectionSchedule value = some schedule.canonical := by
  induction h with
  | here => rw [extract_complete rfl, parse_native]
  | under earlier later key hkeys hget hearlier hplain _ ih =>
    rw [extract_plain hplain, hkeys, List.findSome?_append, List.findSome?_cons, hget, Option.bind_some, ih,
      List.findSome?_eq_none_iff.mpr, Option.none_or]
    intro other hother
    rw [hearlier other hother, Option.bind_none]

/-! ## Canonical order -/

/-- Sunday first. -/
def WeeklySchedule.SundayFirst (schedule : WeeklySchedule) : Prop :=
  schedule.weekdays.Pairwise fun a b => a.index < b.index

instance (schedule : WeeklySchedule) : Decidable schedule.SundayFirst :=
  inferInstanceAs (Decidable (schedule.weekdays.Pairwise _))

theorem pairwise_weekdays : WEEKDAYS.Pairwise fun a b => a.index < b.index := by decide

theorem mem_weekdays (day : Weekday) : day ∈ WEEKDAYS := by cases day <;> decide

theorem canonical_iff {schedule : WeeklySchedule} : schedule.canonical = schedule ↔ schedule.SundayFirst := by
  have hsorted : (WEEKDAYS.filter (· ∈ schedule.weekdays)).Pairwise fun a b => a.index < b.index :=
    pairwise_weekdays.filter _
  constructor
  · intro hsame
    have hdays : WEEKDAYS.filter (· ∈ schedule.weekdays) = schedule.weekdays := congrArg WeeklySchedule.weekdays hsame
    rwa [hdays] at hsorted
  · intro hfirst
    refine WeeklySchedule.ext rfl rfl ?_
    have hperm : (WEEKDAYS.filter (· ∈ schedule.weekdays)).Perm schedule.weekdays := by
      refine (List.perm_ext_iff_of_nodup (nodup_filter_weekdays _) schedule.weekdays_nodup).mpr fun day => ?_
      simp [mem_weekdays]
    refine hperm.eq_of_pairwise ?_ hsorted hfirst
    intro a b _ _ hab hba
    omega

theorem canonical_canonical (schedule : WeeklySchedule) : schedule.canonical.canonical = schedule.canonical :=
  canonical_iff.mpr (pairwise_weekdays.filter (· ∈ schedule.weekdays))

/-! ## A camera that keeps what is written -/

/-- What a camera answers a read with before a write, how it shows a plan it was given,
and for how many reads after the write it still shows what it had. -/
structure GuardCamera where
  held : Json
  shown : Json → Json
  nested : ∀ plan, Nested plan (shown plan)
  delay : Nat

namespace GuardCamera

def answer (value : Json) : ModelReadResult := ⟨true, some 0, value⟩

/-- What it answers to look `attempt` after `plan` was written. -/
def after (camera : GuardCamera) (plan : Json) (attempt : Nat) : Json :=
  if attempt < camera.delay then camera.held else camera.shown plan

/-- A call on a session of its own with this camera. -/
def legacy (camera : GuardCamera) (device : Nat) (schedule : WeeklySchedule) : LegacyExchange where
  opened := .ok device
  preflight := .ok (answer camera.held)
  write := .ok ⟨true, some 0⟩
  readback attempt := some (.ok (answer (camera.after (nativeSmartProtectionSchedule schedule) attempt)))

/-- A read on the account's session. -/
def read (session : Nat) (value : Json) : Except SharedFault (Option (SharedState WeeklySchedule)) :=
  readSchedule ⟨.ok (some session), true, some ("response", some (answer value))⟩

/-- A call on the account's session with this camera. -/
def shared (camera : GuardCamera) (session : Nat) (schedule : WeeklySchedule) : SharedCall WeeklySchedule where
  session := .ok (some session)
  previous := read session camera.held
  atSubmission := .ok (some session)
  submitted := true
  result := some ⟨"response", some 0, true⟩
  afterwards := .ok (some session)
  attempt n := ⟨false, .ok (some session), read session (camera.after (nativeSmartProtectionSchedule schedule.canonical) n)⟩

end GuardCamera

inductive ScheduleVerdict where
  | unchanged
  | verified
  | failed
  deriving DecidableEq, Repr

def legacyVerdict (outcome : Except String ScheduleWrite) : ScheduleVerdict :=
  match outcome with
  | .ok write => if write.changed then .verified else .unchanged
  | .error _ => .failed

def sharedVerdict (outcome : Except SharedFault (Option (SharedChange WeeklySchedule))) : ScheduleVerdict :=
  match outcome with
  | .ok (some change) => if change.changed then .verified else .unchanged
  | _ => .failed

/-! ## Both paths, on such a camera -/

section

variable {camera : GuardCamera} {schedule previous : WeeklySchedule}

theorem extract_after (attempt : Nat) :
    extractSmartProtectionSchedule (camera.after (nativeSmartProtectionSchedule schedule) attempt) =
      if attempt < camera.delay then extractSmartProtectionSchedule camera.held else some schedule.canonical := by
  unfold GuardCamera.after
  split
  · rfl
  · exact extract_nested (camera.nested _)

/-- The readbacks confirm a schedule if the camera settles within those left. -/
theorem confirmLegacy_eq (hsame : schedule.canonical = schedule) (device : Nat)
    (hheld : extractSmartProtectionSchedule camera.held = some previous) (hother : previous ≠ schedule) {left attempt : Nat}
    (hattempt : attempt ≤ camera.delay) :
    confirmLegacy (camera.legacy device schedule) schedule left attempt = .ok (decide (camera.delay < attempt + left)) := by
  induction left generalizing attempt with
  | zero => simp [confirmLegacy, hattempt]
  | succ left ih =>
    unfold confirmLegacy
    simp only [GuardCamera.legacy, GuardCamera.answer, true_and, extract_after, hsame, hheld]
    by_cases hearly : attempt < camera.delay
    · rw [if_pos hearly, if_neg (by simpa using hother)]
      rw [show attempt + (left + 1) = attempt + 1 + left by omega]
      exact ih hearly
    · rw [if_neg hearly, if_pos rfl, decide_eq_true (by omega)]

/-- A read on the account's session gives what can be extracted. -/
theorem read_eq {value : Json} (session : Nat) (h : extractSmartProtectionSchedule value = some schedule) :
    GuardCamera.read session value = .ok (some ⟨schedule, none⟩) := by
  simp [GuardCamera.read, readSchedule, GuardCamera.answer, h]

theorem read_unsupported {value : Json} (session : Nat) (h : extractSmartProtectionSchedule value = none) :
    GuardCamera.read session value = .error (.operation "native state read returned an unsupported state") := by
  simp [GuardCamera.read, readSchedule, GuardCamera.answer, h]

/-- So do the looks of the account's path. -/
theorem settle_eq (session : Nat) (hheld : extractSmartProtectionSchedule camera.held = some previous)
    (hother : previous ≠ schedule.canonical) (left : Nat) {attempt : Nat} (hattempt : attempt ≤ camera.delay)
    {current : Option (SharedState WeeklySchedule)} (hcurrent : stateMatches current schedule.canonical none = false) :
    ∃ last, settle (camera.shared session schedule) session schedule.canonical none current left attempt = .ok last ∧
      stateMatches last schedule.canonical none = decide (camera.delay < attempt + left) := by
  induction left generalizing attempt current with
  | zero =>
    refine ⟨current, rfl, ?_⟩
    rw [hcurrent, decide_eq_false (by omega)]
  | succ left ih =>
    have hread : ((camera.shared session schedule).attempt attempt).current =
        .ok (some ⟨if attempt < camera.delay then previous else schedule.canonical, none⟩) := by
      refine read_eq session ?_
      rw [extract_after, canonical_canonical, hheld]
      split
      · rfl
      · rfl
    have hlate : ((camera.shared session schedule).attempt attempt).late = false := rfl
    have howner : ((camera.shared session schedule).attempt attempt).session = .ok (some session) := rfl
    unfold settle
    simp only [hlate, howner, hread, Bool.false_eq_true, if_false, ne_eq, not_true_eq_false]
    by_cases hearly : attempt < camera.delay
    · have hold : stateMatches (some ⟨previous, none⟩) schedule.canonical none = false := decide_eq_false hother
      rw [if_pos hearly, hold, show attempt + (left + 1) = attempt + 1 + left by omega]
      exact ih hearly hold
    · have hnew : stateMatches (some ⟨schedule.canonical, none⟩) schedule.canonical none = true := decide_eq_true rfl
      rw [if_neg hearly, hnew]
      exact ⟨_, rfl, hnew.trans (decide_eq_true (by omega)).symm⟩

theorem apply_unchanged {call : SharedCall WeeklySchedule} {session : Nat} {state : SharedState WeeklySchedule}
    (hsession : call.session = .ok (some session)) (hprevious : call.previous = .ok (some state))
    (hmatch : stateMatches (some state) schedule none = true) :
    applyControl call schedule none = (.ok (some ⟨schedule, state.value, false, false⟩), false) := by
  unfold applyControl
  simp only [hsession, hprevious, hmatch, Option.isSome_none, Bool.false_eq_true, false_and, if_false, if_true]

/-- A write on the camera, up to the last look. -/
theorem apply_written (session : Nat) (hheld : extractSmartProtectionSchedule camera.held = some previous)
    (hother : previous ≠ schedule.canonical) {last : Option (SharedState WeeklySchedule)}
    (hsettle : settle (camera.shared session schedule) session schedule.canonical none none 5 0 = .ok last) :
    applyControl (camera.shared session schedule) schedule.canonical none =
      if stateMatches last schedule.canonical none then (.ok (some ⟨schedule.canonical, previous, true, true⟩), true)
      else (.error (.operation "camera did not confirm the requested control value"), true) := by
  have hprevious : (camera.shared session schedule).previous = .ok (some ⟨previous, none⟩) := read_eq session hheld
  have hmatch : stateMatches (some ⟨previous, none⟩) schedule.canonical none = false := decide_eq_false hother
  have hsession : (camera.shared session schedule).session = .ok (some session) := rfl
  have hsubmission : (camera.shared session schedule).atSubmission = .ok (some session) := rfl
  have hsubmitted : (camera.shared session schedule).submitted = true := rfl
  have hresult : (camera.shared session schedule).result = some ⟨"response", some 0, true⟩ := rfl
  have hafterwards : (camera.shared session schedule).afterwards = .ok (some session) := rfl
  unfold applyControl
  simp only [hsession, hprevious, hmatch, hsubmission, hsubmitted, hresult, hafterwards, hsettle, Option.isSome_none,
    Bool.false_eq_true, false_and, if_false, ne_eq, not_true_eq_false, Bool.not_true, or_self]

/-- What becomes of a request for `target`, and the plans written for it. -/
def changeOf (camera : GuardCamera) (target : WeeklySchedule) : ScheduleVerdict × List Json :=
  match extractSmartProtectionSchedule camera.held with
  | none => (.failed, [])
  | some previous =>
    if previous = target then (.unchanged, [])
    else (if camera.delay < 5 then .verified else .failed, [nativeSmartProtectionSchedule target])

/-- The account's path asks for the canonical schedule. -/
theorem shared_change (camera : GuardCamera) (session : Nat) (schedule : WeeklySchedule) :
    (sharedVerdict (writeSchedule (camera.shared session schedule) schedule).1,
      (writeSchedule (camera.shared session schedule) schedule).2) = changeOf camera schedule.canonical := by
  have hsession : (camera.shared session schedule).session = .ok (some session) := rfl
  unfold changeOf writeSchedule
  cases hheld : extractSmartProtectionSchedule camera.held with
  | none =>
    have hprevious : (camera.shared session schedule).previous = _ := read_unsupported session hheld
    unfold applyControl
    simp only [hsession, hprevious]
    rfl
  | some previous =>
    have hprevious : (camera.shared session schedule).previous = .ok (some ⟨previous, none⟩) := read_eq session hheld
    dsimp only
    by_cases hsame : previous = schedule.canonical
    · rw [apply_unchanged hsession hprevious (decide_eq_true hsame), if_pos hsame]
      rfl
    · have hnone : stateMatches none schedule.canonical none = false := rfl
      obtain ⟨last, hsettle, hlast⟩ := settle_eq session hheld hsame 5 (Nat.zero_le _) hnone
      rw [apply_written session hheld hsame hsettle, hlast, if_neg hsame, Nat.zero_add]
      by_cases hdelay : camera.delay < 5
      · rw [decide_eq_true hdelay, if_pos rfl, if_pos hdelay]
        rfl
      · rw [decide_eq_false hdelay, if_neg Bool.false_ne_true, if_neg hdelay]
        rfl

/-- A session of its own on such a camera, where the order is canonical. -/
theorem legacy_outcome (hsame : schedule.canonical = schedule) (camera : GuardCamera) (device : Nat) :
    setCameraSmartProtectionSchedule (camera.legacy device schedule) device schedule =
      match extractSmartProtectionSchedule camera.held with
      | none => (.error "smart-protection schedule preflight returned no supported state", [])
      | some previous =>
        if previous = schedule then (.ok ⟨previous, false, false, some 0, true⟩, [])
        else if camera.delay < 5 then
          (.ok ⟨previous, true, true, some 0, true⟩, [nativeSmartProtectionSchedule schedule])
        else (.error "camera did not confirm the smart-protection schedule", [nativeSmartProtectionSchedule schedule]) := by
  unfold setCameraSmartProtectionSchedule changeSchedule
  cases hheld : extractSmartProtectionSchedule camera.held with
  | none =>
    simp only [GuardCamera.legacy, GuardCamera.answer, hheld, ne_eq, not_true_eq_false, if_false]
    rfl
  | some previous =>
    have hopened : (camera.legacy device schedule).opened = .ok device := rfl
    have hpreflight : (camera.legacy device schedule).preflight = .ok ⟨true, some 0, camera.held⟩ := rfl
    have hwrite : (camera.legacy device schedule).write = .ok ⟨true, some 0⟩ := rfl
    simp only [hopened, hpreflight, hwrite, hheld, ne_eq, not_true_eq_false, if_false]
    by_cases hheldSame : previous = schedule
    · rw [if_pos hheldSame, if_pos hheldSame]
      rfl
    · rw [confirmLegacy_eq hsame device hheld hheldSame (Nat.zero_le _), if_neg hheldSame, if_neg hheldSame, Nat.zero_add]
      by_cases hdelay : camera.delay < 5
      · rw [decide_eq_true hdelay, if_pos hdelay]
        rfl
      · rw [decide_eq_false hdelay, if_neg hdelay]
        rfl

/-- In another order nothing read back is ever the schedule. -/
theorem confirmLegacy_never (horder : schedule.canonical ≠ schedule) (device : Nat)
    (hheld : extractSmartProtectionSchedule camera.held ≠ some schedule) (left attempt : Nat) :
    confirmLegacy (camera.legacy device schedule) schedule left attempt = .ok false := by
  induction left generalizing attempt with
  | zero => rfl
  | succ left ih =>
    unfold confirmLegacy
    simp only [GuardCamera.legacy, GuardCamera.answer, true_and, extract_after]
    rw [if_neg]
    · exact ih (attempt + 1)
    · split
      · exact hheld
      · exact fun heq => horder (Option.some.inj heq)

/-- So a schedule in force is written again, and the write is not confirmed. -/
theorem legacy_fails (horder : schedule.canonical ≠ schedule) (device : Nat)
    (hheld : Nested (nativeSmartProtectionSchedule schedule) camera.held) :
    setCameraSmartProtectionSchedule (camera.legacy device schedule) device schedule =
      (.error "camera did not confirm the smart-protection schedule", [nativeSmartProtectionSchedule schedule]) := by
  have hextract := extract_nested hheld
  have hother : extractSmartProtectionSchedule camera.held ≠ some schedule := by
    rw [hextract]
    exact fun heq => horder (Option.some.inj heq)
  have hopened : (camera.legacy device schedule).opened = .ok device := rfl
  have hpreflight : (camera.legacy device schedule).preflight = .ok ⟨true, some 0, camera.held⟩ := rfl
  have hwrite : (camera.legacy device schedule).write = .ok ⟨true, some 0⟩ := rfl
  unfold setCameraSmartProtectionSchedule changeSchedule
  simp only [hopened, hpreflight, hwrite, hextract, ne_eq, not_true_eq_false, if_false]
  rw [if_neg horder, confirmLegacy_never horder device hother]
  rfl

theorem legacy_change (hsame : schedule.canonical = schedule) (camera : GuardCamera) (device : Nat) :
    (legacyVerdict (setCameraSmartProtectionSchedule (camera.legacy device schedule) device schedule).1,
      (setCameraSmartProtectionSchedule (camera.legacy device schedule) device schedule).2) = changeOf camera schedule := by
  rw [legacy_outcome hsame]
  unfold changeOf
  cases extractSmartProtectionSchedule camera.held with
  | none => rfl
  | some previous =>
    dsimp only
    split
    · rfl
    · split
      · rfl
      · rfl

end

/-! ## What is recognised -/

/-- The read-back of a schedule: what was written is recognised, in force or just
written, and both paths judge alike. -/
structure Recognised (schedule : WeeklySchedule) : Prop where
  extracted : ∀ value, Nested (nativeSmartProtectionSchedule schedule) value →
    extractSmartProtectionSchedule value = some schedule
  inForce : ∀ (camera : GuardCamera) (device : Nat), Nested (nativeSmartProtectionSchedule schedule) camera.held →
    setCameraSmartProtectionSchedule (camera.legacy device schedule) device schedule =
      (.ok ⟨schedule, false, false, some 0, true⟩, [])
  verified : ∀ (camera : GuardCamera) (device : Nat) (previous : WeeklySchedule),
    extractSmartProtectionSchedule camera.held = some previous → previous ≠ schedule → camera.delay < 5 →
    setCameraSmartProtectionSchedule (camera.legacy device schedule) device schedule =
      (.ok ⟨previous, true, true, some 0, true⟩, [nativeSmartProtectionSchedule schedule])
  agree : ∀ (camera : GuardCamera) (device session : Nat),
    (legacyVerdict (setCameraSmartProtectionSchedule (camera.legacy device schedule) device schedule).1,
      (setCameraSmartProtectionSchedule (camera.legacy device schedule) device schedule).2) =
    (sharedVerdict (writeSchedule (camera.shared session schedule) schedule).1,
      (writeSchedule (camera.shared session schedule) schedule).2)

theorem recognised_of_canonical {schedule : WeeklySchedule} (hsame : schedule.canonical = schedule) :
    Recognised schedule where
  extracted value hvalue := by rw [extract_nested hvalue, hsame]
  inForce camera device hheld := by
    rw [legacy_outcome hsame, extract_nested hheld, hsame]
    dsimp only
    rw [if_pos rfl]
  verified camera device previous hheld hother hdelay := by
    rw [legacy_outcome hsame, hheld]
    dsimp only
    rw [if_neg hother, if_pos hdelay]
  agree camera device session := by
    rw [legacy_change hsame, shared_change, hsame]

/-- A schedule is recognised exactly if its weekdays are in Sunday-first order. -/
theorem read_back_iff (schedule : WeeklySchedule) : Recognised schedule ↔ schedule.SundayFirst := by
  rw [← canonical_iff]
  constructor
  · intro h
    have hread := h.extracted _ .here
    rw [extract_nested .here] at hread
    exact Option.some.inj hread
  · exact recognised_of_canonical

/-- From eight to six on Monday and Sunday, in that order. -/
def mondayFirst : WeeklySchedule where
  start := ⟨8, 0, by decide, by decide⟩
  finish := ⟨18, 0, by decide, by decide⟩
  weekdays := [.mon, .sun]
  weekdays_ne := by decide
  weekdays_nodup := by decide

/-- A camera that has that plan already. -/
def mondayCamera : GuardCamera := ⟨nativeSmartProtectionSchedule mondayFirst, id, fun _ => .here, 0⟩

/-- It is written again and not confirmed, while the account's path finds it in force. -/
theorem monday_first_unrecognised :
    ¬Recognised mondayFirst ∧
      setCameraSmartProtectionSchedule (mondayCamera.legacy 1 mondayFirst) 1 mondayFirst =
        (.error "camera did not confirm the smart-protection schedule", [nativeSmartProtectionSchedule mondayFirst]) ∧
      sharedVerdict (writeSchedule (mondayCamera.shared 1 mondayFirst) mondayFirst).1 = .unchanged := by
  have horder : mondayFirst.canonical ≠ mondayFirst := by decide
  refine ⟨?_, legacy_fails horder 1 .here, ?_⟩
  · intro h
    have hread := h.extracted _ .here
    rw [extract_nested .here] at hread
    exact horder (Option.some.inj hread)
  · have hshared := congrArg Prod.fst (shared_change mondayCamera 1 mondayFirst)
    have hheld : extractSmartProtectionSchedule mondayCamera.held = some mondayFirst.canonical := extract_nested .here
    unfold changeOf at hshared
    rw [hheld] at hshared
    dsimp only at hshared
    rwa [if_pos rfl] at hshared

end CamGuard.Account
