/-
Who owns the recording children. A child whose exit was not confirmed is the one
in the table of its camera, so there is one; what is born is born under the gate;
and every death is counted once, which an account of each camera says: its events
are a word of the automaton `Account`, whose state is the table's.

Everything an operation does to the children is made of five moves (`poll`, a
retired child forgotten, a death booked, a birth, an exit); `Evolves` is what any
sequence of them keeps.
-/
import CamGuard.Recording.Recorder
import Mathlib.Data.List.Induction
import Mathlib.Tactic.Common

namespace CamGuard.Recording

/-! ## Accounts -/

/-- A camera in the eyes of its log: no child, a child that runs, or a dead child
that was not counted yet. -/
inductive Account where
  | idle
  | running (pid : Nat)
  | owed (pid : Nat)
  deriving DecidableEq, Repr

namespace Account

/-- The account after an event it allows. -/
def step : Account → RecorderEvent → Option Account
  | _, .cleared _ => some .idle
  | .idle, .born _ pid => some (.running pid)
  | .running pid, .died _ p => if p = pid then some (.owed pid) else none
  | .running pid, .booked _ p false => if p = pid then some .idle else none
  | .owed pid, .booked _ p _ => if p = pid then some .idle else none
  | _, _ => none

/-- The account after events all of which it allows. -/
def run (a : Account) (events : List RecorderEvent) : Option Account := events.foldlM step a

theorem run_cons (a : Account) (e : RecorderEvent) (events : List RecorderEvent) :
    a.run (e :: events) = (a.step e).bind fun a => a.run events := rfl

theorem run_append (a : Account) (before after : List RecorderEvent) :
    a.run (before ++ after) = (a.run before).bind fun a => a.run after := List.foldlM_append

/-- From idle to a birth with no other birth in between: nothing, but for
forgetting. -/
theorem run_idle {events : List RecorderEvent} {camera : String} {pid : Nat} {after : List RecorderEvent} {a : Account}
    (h : Account.run .idle (events ++ .born camera pid :: after) = some a)
    (hborn : ∀ camera pid, .born camera pid ∉ events) (hclear : ∀ camera, .cleared camera ∉ events) : events = [] := by
  cases events with
  | nil => rfl
  | cons e events =>
    cases e with
    | born camera pid => exact absurd List.mem_cons_self (hborn camera pid)
    | cleared camera => exact absurd List.mem_cons_self (hclear camera)
    | died camera pid => cases h
    | booked camera pid healthy => cases healthy <;> cases h

/-- **A death is counted once before the next birth**, unless it was forgotten. -/
theorem run_died {a b : Account} {events after : List RecorderEvent} {camera camera' : String} {pid next : Nat}
    (h : a.run (.died camera pid :: (events ++ .born camera' next :: after)) = some b)
    (hborn : ∀ camera pid, .born camera pid ∉ events) (hclear : ∀ camera, .cleared camera ∉ events) :
    ∃ camera healthy, events = [.booked camera pid healthy] := by
  rw [run_cons] at h
  obtain ⟨owed, howed, h⟩ := Option.bind_eq_some_iff.mp h
  obtain rfl : owed = .owed pid := by
    cases a with
    | idle => cases howed
    | owed other => cases howed
    | running other =>
      simp only [step] at howed
      split at howed
      · next heq =>
        cases howed
        rw [heq]
      · cases howed
  cases events with
  | nil => cases h
  | cons e events =>
    cases e with
    | born camera pid => exact absurd List.mem_cons_self (hborn camera pid)
    | cleared camera => exact absurd List.mem_cons_self (hclear camera)
    | died camera pid => cases h
    | booked camera p healthy =>
      rw [List.cons_append, run_cons] at h
      obtain ⟨counted, hcounted, hnext⟩ := Option.bind_eq_some_iff.mp h
      simp only [step] at hcounted
      split at hcounted
      · next heq =>
        cases hcounted
        subst heq
        have hrest := run_idle hnext (fun camera pid hmem => hborn camera pid (List.mem_cons_of_mem _ hmem))
          fun camera hmem => hclear camera (List.mem_cons_of_mem _ hmem)
        exact ⟨camera, healthy, by rw [hrest]⟩
      · cases hcounted

end Account

/-- The events of one camera. -/
def eventsOf (camera : String) (log : List RecorderEvent) : List RecorderEvent := log.filter fun e => e.camera = camera

/-- The failure counter that a log gives. -/
def counter (camera : String) (log : List RecorderEvent) : Nat :=
  (eventsOf camera log).foldl (fun count e =>
    match e with
    | .booked _ _ healthy => if healthy then 0 else count + 1
    | .cleared _ => 0
    | _ => count) 0

theorem eventsOf_self (camera : String) (log : List RecorderEvent) (e : RecorderEvent) (h : e.camera = camera) :
    eventsOf camera (log ++ [e]) = eventsOf camera log ++ [e] := by
  simp [eventsOf, h]

theorem eventsOf_other (camera : String) (log : List RecorderEvent) (e : RecorderEvent) (h : e.camera ≠ camera) :
    eventsOf camera (log ++ [e]) = eventsOf camera log := by
  simp [eventsOf, h]

/-- What an event does to the counter of its camera. -/
def RecorderEvent.counts (count : Nat) : RecorderEvent → Nat
  | .booked _ _ healthy => if healthy then 0 else count + 1
  | .cleared _ => 0
  | _ => count

theorem counter_self (camera : String) (log : List RecorderEvent) (e : RecorderEvent) (h : e.camera = camera) :
    counter camera (log ++ [e]) = e.counts (counter camera log) := by
  rw [counter, eventsOf_self camera log e h, List.foldl_append]
  cases e <;> rfl

theorem counter_other (camera : String) (log : List RecorderEvent) (e : RecorderEvent) (h : e.camera ≠ camera) :
    counter camera (log ++ [e]) = counter camera log := by
  rw [counter, eventsOf_other camera log e h]
  rfl

namespace Recorder

/-- A camera in the eyes of the table. -/
def account (r : Recorder) (camera : String) : Account :=
  match r.procs.get? camera with
  | none => .idle
  | some pid => if (r.child pid).alive then .running pid else .owed pid

structure Inv (r : Recorder) : Prop where
  table : ∀ camera pid, r.procs.get? camera = some pid → pid < r.born ∧ (r.child pid).camera = camera
  owned : ∀ pid < r.born, (r.child pid).confirmed = false → r.procs.get? (r.child pid).camera = some pid
  alive : ∀ pid < r.born, (r.child pid).alive = true → (r.child pid).confirmed = false
  account : ∀ camera, Account.run .idle (eventsOf camera r.log) = some (r.account camera)
  counter : ∀ camera, (r.fails.get? camera).getD 0 = counter camera r.log

variable {r : Recorder}

/-! ## The five moves -/

theorem poll_dead {pid : Nat} (h : (r.child pid).alive = false) : r.poll pid = (true, r.reap pid) := by
  rw [poll, h, if_neg Bool.false_ne_true, reap]
  cases hchild : r.child pid
  rw [hchild] at h
  cases h
  rfl

theorem poll_alive {pid : Nat} (h : (r.child pid).alive = true) : r.poll pid = (false, r) := by
  rw [poll, h, if_pos rfl]

theorem reap_self (pid : Nat) : (r.reap pid).child pid = { r.child pid with alive := false, confirmed := true } :=
  Function.update_self ..

theorem reap_other {pid other : Nat} (h : other ≠ pid) : (r.reap pid).child other = r.child other :=
  Function.update_of_ne h ..

theorem reap_camera (pid other : Nat) : ((r.reap pid).child other).camera = (r.child other).camera := by
  by_cases h : other = pid
  · rw [h, reap_self]
  · rw [reap_other h]

theorem birth_self (camera : String) (now : ℚ) : (r.birth camera now).child r.born = ⟨camera, true, false⟩ :=
  Function.update_self ..

theorem birth_other {pid : Nat} (h : pid < r.born) (camera : String) (now : ℚ) :
    (r.birth camera now).child pid = r.child pid := Function.update_of_ne (Nat.ne_of_lt h) ..

/-- Reaping a dead child confirms its exit and nothing else. -/
theorem Inv.reap (h : Inv r) {pid : Nat} (hdead : (r.child pid).alive = false) : Inv (r.reap pid) := by
  have halive : ∀ other, ((r.reap pid).child other).alive = (r.child other).alive := by
    intro other
    by_cases heq : other = pid
    · rw [heq, reap_self, hdead]
    · rw [reap_other heq]
  refine ⟨fun camera p hp => ?_, fun p hp hopen => ?_, fun p hp hlive => ?_, fun camera => ?_, h.counter⟩
  · rw [reap_camera]
    exact h.table camera p hp
  · by_cases heq : p = pid
    · rw [heq, reap_self] at hopen
      cases hopen
    · rw [reap_other heq] at hopen ⊢
      exact h.owned p hp hopen
  · rw [halive] at hlive
    by_cases heq : p = pid
    · rw [heq, hdead] at hlive
      cases hlive
    · rw [reap_other heq]
      exact h.alive p hp hlive
  · have hsame : (r.reap pid).account camera = r.account camera := by
      simp only [Recorder.account, halive]
      rfl
    rw [hsame]
    exact h.account camera

/-- A child that is in the table ends and leaves it, with one event. -/
theorem Inv.ended (h : Inv r) {camera : String} {pid : Nat} (hpid : r.procs.get? camera = some pid) {r' : Recorder}
    {e : RecorderEvent} (hcamera : e.camera = camera) (hstep : (r.account camera).step e = some .idle)
    (hchild : r'.child = (r.reap pid).child) (hborn : r'.born = r.born) (hprocs : r'.procs = r.procs.erase camera)
    (hlog : r'.log = r.log ++ [e])
    (hfails : ∀ other, (r'.fails.get? other).getD 0 =
      if other = camera then e.counts ((r.fails.get? camera).getD 0) else (r.fails.get? other).getD 0) : Inv r' := by
  have hget (other : String) : r'.procs.get? other = if other = camera then none else r.procs.get? other := by
    rw [hprocs, Dict.get?_erase]
  have hne {p : Nat} (hp : p ≠ pid) : r'.child p = r.child p := by
    rw [hchild, reap_other hp]
  refine ⟨fun other p hp => ?_, fun p hp hopen => ?_, fun p hp hlive => ?_, fun other => ?_, fun other => ?_⟩
  · rw [hget] at hp
    split at hp
    · cases hp
    · rw [hborn, hchild, reap_camera]
      exact h.table other p hp
  · have hp' : p ≠ pid := by
      rintro rfl
      rw [hchild, reap_self] at hopen
      cases hopen
    rw [hborn] at hp
    rw [hne hp'] at hopen ⊢
    have howned := h.owned p hp hopen
    rw [hget, if_neg]
    · exact howned
    · intro heq
      rw [heq, hpid] at howned
      exact hp' (Option.some.inj howned).symm
  · rw [hborn] at hp
    by_cases heq : p = pid
    · rw [heq, hchild, reap_self] at hlive
      cases hlive
    · rw [hne heq] at hlive ⊢
      exact h.alive p hp hlive
  · have hlast := h.account other
    rw [hlog]
    by_cases heq : camera = other
    · subst heq
      rw [eventsOf_self camera _ e hcamera, Account.run_append, hlast, Option.bind_some, Account.run_cons, hstep]
      rw [Recorder.account, hget, if_pos rfl]
      rfl
    · rw [eventsOf_other other _ e (by rw [hcamera]; exact heq), hlast]
      have hsame : r'.account other = r.account other := by
        rw [Recorder.account, Recorder.account, hget, if_neg (Ne.symm heq)]
        cases hother : r.procs.get? other with
        | none => rfl
        | some p =>
          have hp : p ≠ pid := by
            rintro rfl
            exact heq ((h.table camera p hpid).2.symm.trans (h.table other p hother).2)
          simp only [hne hp]
      rw [hsame]
  · rw [hfails, hlog]
    by_cases heq : other = camera
    · rw [if_pos heq, heq, counter_self camera _ e hcamera, h.counter]
    · rw [if_neg heq, counter_other other _ e (by rw [hcamera]; exact Ne.symm heq), h.counter]

theorem Inv.retired (h : Inv r) {camera : String} {pid : Nat} (hpid : r.procs.get? camera = some pid) :
    Inv ((r.reap pid).forget camera) := by
  refine h.ended hpid rfl ?_ rfl rfl rfl rfl fun other => ?_
  · cases r.account camera <;> rfl
  · rw [forget, Dict.get?_erase]
    split <;> rfl

theorem Inv.booked (h : Inv r) {camera : String} {pid : Nat} (hpid : r.procs.get? camera = some pid) {healthy : Bool}
    (hdead : (r.child pid).alive = false ∨ healthy = false) (now : ℚ) : Inv ((r.reap pid).book camera pid healthy now).2 := by
  refine h.ended hpid rfl ?_ rfl rfl rfl rfl fun other => ?_
  · rw [Recorder.account, hpid]
    simp only
    cases halive : (r.child pid).alive with
    | false => simp [Account.step]
    | true =>
      rw [halive] at hdead
      obtain rfl := hdead.resolve_left Bool.noConfusion
      simp [Account.step]
  · simp only [book, Dict.get?_set]
    by_cases heq : other = camera
    · rw [if_pos heq, if_pos heq]
      rfl
    · rw [if_neg heq, if_neg heq]
      rfl

/-- Forgetting a camera without a child. -/
theorem Inv.forgotten (h : Inv r) {camera : String} (hnone : r.procs.get? camera = none) : Inv (r.forget camera) := by
  have hget (other : String) : (r.forget camera).procs.get? other = r.procs.get? other := by
    rw [forget, Dict.get?_erase]
    split
    · next heq => rw [heq, hnone]
    · rfl
  have hlog : (r.forget camera).log = r.log ++ [.cleared camera] := rfl
  refine ⟨fun other p hp => ?_, fun p hp hopen => ?_, h.alive, fun other => ?_, fun other => ?_⟩
  · rw [hget] at hp
    exact h.table other p hp
  · rw [hget]
    exact h.owned p hp hopen
  · have hsame : (r.forget camera).account other = r.account other := by
      rw [Recorder.account, Recorder.account, hget]
      rfl
    rw [hsame, hlog]
    by_cases heq : camera = other
    · subst heq
      rw [eventsOf_self camera _ (.cleared camera) rfl, Account.run_append, h.account, Option.bind_some, Recorder.account, hnone]
      rfl
    · rw [eventsOf_other other _ (.cleared camera) heq]
      exact h.account other
  · rw [hlog]
    by_cases heq : other = camera
    · subst heq
      rw [counter_self other _ (.cleared other) rfl, forget, Dict.get?_erase, if_pos rfl]
      rfl
    · rw [counter_other other _ (.cleared camera) (Ne.symm heq), ← h.counter, forget, Dict.get?_erase, if_neg heq]

theorem Inv.birth (h : Inv r) {camera : String} (hnone : r.procs.get? camera = none) (now : ℚ) :
    Inv (r.birth camera now) := by
  have hget (other : String) : (r.birth camera now).procs.get? other = if other = camera then some r.born else r.procs.get? other :=
    Dict.get?_set ..
  have hold {p : Nat} (hp : p < r.born) : (r.birth camera now).child p = r.child p := birth_other hp camera now
  have hnew : (r.birth camera now).child r.born = ⟨camera, true, false⟩ := birth_self camera now
  have hlog : (r.birth camera now).log = r.log ++ [.born camera r.born] := rfl
  have hcases {p : Nat} (hp : p < (r.birth camera now).born) : p < r.born ∨ p = r.born := Nat.lt_succ_iff_lt_or_eq.mp hp
  refine ⟨fun other p hp => ?_, fun p hp hopen => ?_, fun p hp hlive => ?_, fun other => ?_, fun other => ?_⟩
  · rw [hget] at hp
    split at hp
    · next heq =>
      cases hp
      rw [hnew, heq]
      exact ⟨Nat.lt_succ_self _, rfl⟩
    · obtain ⟨hlt, hcamera⟩ := h.table other p hp
      rw [hold hlt]
      exact ⟨Nat.lt_succ_of_lt hlt, hcamera⟩
  · rcases hcases hp with hlt | rfl
    · rw [hold hlt] at hopen ⊢
      have howned := h.owned p hlt hopen
      rw [hget, if_neg]
      · exact howned
      · intro heq
        rw [heq, hnone] at howned
        cases howned
    · rw [hnew, hget, if_pos rfl]
  · rcases hcases hp with hlt | rfl
    · rw [hold hlt] at hlive ⊢
      exact h.alive p hlt hlive
    · rw [hnew]
  · rw [hlog]
    by_cases heq : camera = other
    · subst heq
      rw [eventsOf_self camera _ (.born camera r.born) rfl, Account.run_append, h.account, Option.bind_some, Recorder.account, hnone, Recorder.account,
        hget, if_pos rfl]
      simp only [hnew]
      rfl
    · rw [eventsOf_other other _ (.born camera r.born) heq, h.account, Recorder.account, Recorder.account, hget, if_neg (Ne.symm heq)]
      cases hother : r.procs.get? other with
      | none => rfl
      | some p => simp only [hold (h.table other p hother).1]
  · rw [hlog]
    by_cases heq : camera = other
    · rw [counter_self other _ (.born camera r.born) heq]
      exact h.counter other
    · rw [counter_other other _ (.born camera r.born) heq]
      exact h.counter other

theorem Inv.exit (h : Inv r) (pid : Nat) : Inv (r.exit pid) := by
  by_cases hlive : pid < r.born ∧ (r.child pid).alive = true
  swap
  · rw [Recorder.exit, if_neg hlive]
    exact h
  have hpid := h.owned pid hlive.1 (h.alive pid hlive.1 hlive.2)
  have hexit : r.exit pid = { r with
      child := Function.update r.child pid { r.child pid with alive := false }
      log := r.log ++ [.died (r.child pid).camera pid] } := by
    rw [Recorder.exit, if_pos hlive]
  have hself : (r.exit pid).child pid = { r.child pid with alive := false } := by
    rw [hexit]
    exact Function.update_self ..
  have hother {p : Nat} (hp : p ≠ pid) : (r.exit pid).child p = r.child p := by
    rw [hexit]
    exact Function.update_of_ne hp ..
  have hborn : (r.exit pid).born = r.born := by rw [hexit]
  have hprocs : (r.exit pid).procs = r.procs := by rw [hexit]
  have hlog : (r.exit pid).log = r.log ++ [.died (r.child pid).camera pid] := by rw [hexit]
  have hfails : (r.exit pid).fails = r.fails := by rw [hexit]
  have hcamera (p : Nat) : ((r.exit pid).child p).camera = (r.child p).camera ∧
      ((r.exit pid).child p).confirmed = (r.child p).confirmed := by
    by_cases heq : p = pid
    · rw [heq, hself]
      exact ⟨rfl, rfl⟩
    · rw [hother heq]
      exact ⟨rfl, rfl⟩
  refine ⟨fun camera p hp => ?_, fun p hp hp' => ?_, fun p hp hp' => ?_, fun camera => ?_, fun camera => ?_⟩
  · rw [hprocs] at hp
    rw [(hcamera p).1, hborn]
    exact h.table camera p hp
  · rw [hborn] at hp
    rw [(hcamera p).2] at hp'
    rw [(hcamera p).1, hprocs]
    exact h.owned p hp hp'
  · rw [hborn] at hp
    rw [(hcamera p).2]
    by_cases heq : p = pid
    · rw [heq, hself] at hp'
      cases hp'
    · rw [hother heq] at hp'
      exact h.alive p hp hp'
  · rw [hlog]
    by_cases heq : (r.child pid).camera = camera
    · subst heq
      rw [eventsOf_self (r.child pid).camera _ (.died (r.child pid).camera pid) rfl, Account.run_append, h.account, Option.bind_some, Recorder.account, hpid, Recorder.account,
        hprocs, hpid]
      simp only [hself, hlive.2, if_true]
      simp [Account.run, Account.step]
    · rw [eventsOf_other camera _ (.died (r.child pid).camera pid) heq, h.account, Recorder.account, Recorder.account, hprocs]
      cases hget : r.procs.get? camera with
      | none => rfl
      | some p =>
        have hp : p ≠ pid := by
          rintro rfl
          exact heq (h.table camera p hget).2
        simp only [hother hp]
  · rw [hlog, hfails]
    by_cases heq : (r.child pid).camera = camera
    · rw [counter_self camera _ (.died (r.child pid).camera pid) heq]
      exact h.counter camera
    · rw [counter_other camera _ (.died (r.child pid).camera pid) heq]
      exact h.counter camera

/-! ## What moves keep -/

/-- From one recorder to a later one: the invariant holds there, the flags are as
they were, children were born for the cameras of `spawns` only, and cameras of
`clears` only were forgotten. -/
structure Evolves (spawns clears : String → Prop) (r r' : Recorder) : Prop where
  inv : Inv r'
  paused : r'.paused = r.paused
  held : r'.held = r.held
  cameras : r'.cameras = r.cameras
  born : r.born ≤ r'.born
  camera : ∀ pid < r.born, (r'.child pid).camera = (r.child pid).camera
  births : ∀ pid, r.born ≤ pid → pid < r'.born → spawns (r'.child pid).camera
  log : ∃ events, r'.log = r.log ++ events ∧ ∀ camera, .cleared camera ∈ events → clears camera

namespace Evolves

variable {spawns clears : String → Prop} {r₁ r₂ r₃ : Recorder}

theorem refl (h : Inv r) : Evolves spawns clears r r :=
  ⟨h, rfl, rfl, rfl, Nat.le_refl _, fun _ _ => rfl, fun _ hle hlt => absurd hlt (Nat.not_lt.mpr hle), [],
    (List.append_nil _).symm, fun _ hmem => absurd hmem List.not_mem_nil⟩

theorem trans (h : Evolves spawns clears r₁ r₂) (h' : Evolves spawns clears r₂ r₃) : Evolves spawns clears r₁ r₃ := by
  obtain ⟨first, hfirst, hclears⟩ := h.log
  obtain ⟨second, hsecond, hclears'⟩ := h'.log
  refine ⟨h'.inv, h'.paused.trans h.paused, h'.held.trans h.held, h'.cameras.trans h.cameras, Nat.le_trans h.born h'.born,
    fun pid hpid => ?_, fun pid hle hlt => ?_, first ++ second, ?_, fun camera hmem => ?_⟩
  · rw [h'.camera pid (Nat.lt_of_lt_of_le hpid h.born), h.camera pid hpid]
  · by_cases hmid : pid < r₂.born
    · rw [h'.camera pid hmid]
      exact h.births pid hle hmid
    · exact h'.births pid (Nat.not_lt.mp hmid) hlt
  · rw [hsecond, hfirst, List.append_assoc]
  · rcases List.mem_append.mp hmem with hmem | hmem
    · exact hclears camera hmem
    · exact hclears' camera hmem

/-- Moves that give birth to no child. -/
theorem quiet {r' : Recorder} (hinv : Inv r') (hpaused : r'.paused = r.paused) (hheld : r'.held = r.held)
    (hcameras : r'.cameras = r.cameras) (hborn : r'.born = r.born)
    (hcamera : ∀ pid, (r'.child pid).camera = (r.child pid).camera)
    (hlog : ∃ events, r'.log = r.log ++ events ∧ ∀ camera, .cleared camera ∈ events → clears camera) :
    Evolves spawns clears r r' :=
  ⟨hinv, hpaused, hheld, hcameras, Nat.le_of_eq hborn.symm, fun pid _ => hcamera pid,
    fun _ hle hlt => absurd hlt (by rw [hborn]; exact Nat.not_lt.mpr hle), hlog⟩

theorem reap (h : Inv r) {pid : Nat} (hdead : (r.child pid).alive = false) : Evolves spawns clears r (r.reap pid) :=
  quiet (h.reap hdead) rfl rfl rfl rfl (reap_camera pid)
    ⟨[], (List.append_nil _).symm, fun _ hmem => absurd hmem List.not_mem_nil⟩

theorem poll (h : Inv r) (pid : Nat) : Evolves spawns clears r (r.poll pid).2 := by
  cases halive : (r.child pid).alive with
  | true =>
    rw [poll_alive halive]
    exact refl h
  | false =>
    rw [poll_dead halive]
    exact reap h halive

theorem retired (h : Inv r) {camera : String} {pid : Nat} (hpid : r.procs.get? camera = some pid) (hclears : clears camera) :
    Evolves spawns clears r ((r.reap pid).forget camera) := by
  refine quiet (h.retired hpid) rfl rfl rfl rfl (reap_camera pid) ⟨[.cleared camera], rfl, fun other hmem => ?_⟩
  cases List.mem_singleton.mp hmem
  exact hclears

theorem forgotten (h : Inv r) {camera : String} (hnone : r.procs.get? camera = none) (hclears : clears camera) :
    Evolves spawns clears r (r.forget camera) := by
  refine quiet (h.forgotten hnone) rfl rfl rfl rfl (fun _ => rfl) ⟨[.cleared camera], rfl, fun other hmem => ?_⟩
  cases List.mem_singleton.mp hmem
  exact hclears

theorem booked (h : Inv r) {camera : String} {pid : Nat} (hpid : r.procs.get? camera = some pid) {healthy : Bool}
    (hdead : (r.child pid).alive = false ∨ healthy = false) (now : ℚ) :
    Evolves spawns clears r ((r.reap pid).book camera pid healthy now).2 := by
  refine quiet (h.booked hpid hdead now) rfl rfl rfl rfl (reap_camera pid)
    ⟨[.booked camera pid healthy], rfl, fun other hmem => ?_⟩
  cases List.mem_singleton.mp hmem

theorem birth (h : Inv r) {camera : String} (hnone : r.procs.get? camera = none) (now : ℚ) (hspawns : spawns camera) :
    Evolves spawns clears r (r.birth camera now) := by
  refine ⟨h.birth hnone now, rfl, rfl, rfl, Nat.le_succ _, fun pid hpid => ?_, fun pid hle hlt => ?_,
    [.born camera r.born], rfl, fun other hmem => ?_⟩
  · rw [birth_other hpid]
  · obtain rfl : pid = r.born := Nat.le_antisymm (Nat.lt_succ_iff.mp hlt) hle
    rw [birth_self]
    exact hspawns
  · cases List.mem_singleton.mp hmem

end Evolves

/-! ## The sections under the lock -/

section

variable {spawns clears : String → Prop} (env : Env)

/-- `retire_process` ends the child, or leaves everything alone and raises. -/
theorem retireProcess_cases (r : Recorder) (confirms : Bool) (pid : Nat) :
    r.retireProcess confirms pid = (true, r.reap pid) ∨ r.retireProcess confirms pid = (false, r) := by
  cases halive : (r.child pid).alive with
  | false =>
    left
    rw [retireProcess, poll_dead halive]
    rfl
  | true =>
    rw [retireProcess, poll_alive halive]
    cases confirms with
    | true => exact .inl rfl
    | false => exact .inr rfl

theorem retireLocked_evolves (h : Inv r) {camera : String} (hclears : clears camera) :
    Evolves spawns clears r (r.retireLocked env camera).2 ∧
      ((r.retireLocked env camera).1 = true → (r.retireLocked env camera).2.procs.get? camera = none) := by
  have hgone : ∀ r' : Recorder, (r'.forget camera).procs.get? camera = none := by
    intro r'
    rw [forget, Dict.get?_erase, if_pos rfl]
  rw [retireLocked]
  cases hpid : r.procs.get? camera with
  | none => exact ⟨.forgotten h hpid hclears, fun _ => hgone r⟩
  | some pid =>
    simp only
    rcases r.retireProcess_cases (env.confirms camera) pid with hout | hout
    · rw [hout]
      exact ⟨.retired h hpid hclears, fun _ => hgone _⟩
    · rw [hout]
      exact ⟨.refl h, fun hok => Bool.noConfusion hok⟩

/-- The loop over the table: what it went through without a fault is gone. -/
theorem terminateEach_evolves (hclears : ∀ camera, clears camera) (entries : List (String × Nat)) (h : Inv r)
    (hentries : ∀ e ∈ entries, r.procs.get? e.1 = some e.2) (hnodup : (entries.map Prod.fst).Nodup) :
    Evolves spawns clears r (terminateEach env entries r).2 ∧
      (∀ camera, (terminateEach env entries r).2.procs.get? camera = r.procs.get? camera ∨
        (terminateEach env entries r).2.procs.get? camera = none) ∧
      ((terminateEach env entries r).1 = true →
        ∀ e ∈ entries, (terminateEach env entries r).2.procs.get? e.1 = none) := by
  induction entries generalizing r with
  | nil => exact ⟨.refl h, fun _ => .inl rfl, fun _ _ hmem => absurd hmem List.not_mem_nil⟩
  | cons entry rest ih =>
    obtain ⟨camera, pid⟩ := entry
    have hpid : r.procs.get? camera = some pid := hentries (camera, pid) List.mem_cons_self
    rw [List.map_cons, List.nodup_cons] at hnodup
    simp only [terminateEach]
    rcases r.retireProcess_cases (env.confirms camera) pid with hout | hout
    · simp only [hout, if_true, Bool.true_and]
      have hget (other : String) : ((r.reap pid).forget camera).procs.get? other =
          if other = camera then none else r.procs.get? other := Dict.get?_erase ..
      obtain ⟨hevolves, hothers, hgone⟩ := ih (h.retired hpid) (fun e he => by
        rw [hget, if_neg]
        · exact hentries e (List.mem_cons_of_mem _ he)
        · intro heq
          exact hnodup.1 (List.mem_map.mpr ⟨e, he, heq⟩)) hnodup.2
      refine ⟨(Evolves.retired h hpid (hclears camera)).trans hevolves, fun other => ?_, fun hok e he => ?_⟩
      · rcases hothers other with hother | hother
        · rw [hother, hget]
          split
          · exact .inr rfl
          · exact .inl rfl
        · exact .inr hother
      · rcases List.mem_cons.mp he with rfl | he
        · rcases hothers camera with hother | hother
          · rw [hother, hget, if_pos rfl]
          · exact hother
        · exact hgone hok e he
    · simp only [hout, Bool.false_eq_true, if_false, Bool.false_and]
      obtain ⟨hevolves, hothers, -⟩ := ih h (fun e he => hentries e (List.mem_cons_of_mem _ he)) hnodup.2
      exact ⟨hevolves, hothers, fun hok => hok.elim⟩

theorem forgetAll_evolves (hclears : ∀ camera, clears camera) (pending : List String) (h : Inv r)
    (hpending : ∀ camera ∈ pending, r.procs.get? camera = none) :
    Evolves spawns clears r (pending.foldl forget r) ∧
      ∀ camera, r.procs.get? camera = none → (pending.foldl forget r).procs.get? camera = none := by
  induction pending generalizing r with
  | nil => exact ⟨.refl h, fun _ hnone => hnone⟩
  | cons camera rest ih =>
    have hnone := hpending camera List.mem_cons_self
    have hget (other : String) (hother : r.procs.get? other = none) : (r.forget camera).procs.get? other = none := by
      rw [forget, Dict.get?_erase]
      split
      · rfl
      · exact hother
    obtain ⟨hevolves, hgone⟩ := ih (h.forgotten hnone) fun other hmem => hget other (hpending other (List.mem_cons_of_mem _ hmem))
    exact ⟨(Evolves.forgotten h hnone (hclears camera)).trans hevolves, fun other hother => hgone other (hget other hother)⟩

/-- **Once every exit was confirmed the table is empty.** -/
theorem terminateAll_evolves (hclears : ∀ camera, clears camera) (h : Inv r) :
    Evolves spawns clears r (r.terminateAllLocked env).2 ∧
      ((r.terminateAllLocked env).1 = true → ∀ camera, (r.terminateAllLocked env).2.procs.get? camera = none) := by
  obtain ⟨hevolves, hothers, hgone⟩ := terminateEach_evolves env hclears r.procs.entries h
    (fun e he => Dict.get?_eq_some.mpr he) r.procs.nodup
  simp only [terminateAllLocked]
  set out := terminateEach env r.procs.entries r with hout
  obtain ⟨hforgets, hstay⟩ := forgetAll_evolves hclears
    ((out.2.fails.keys ++ out.2.retryAt.keys ++ out.2.spawnedAt.keys).filter fun camera => !out.2.procs.contains camera)
    hevolves.inv fun camera hmem => by
      have hfree := (List.mem_filter.mp hmem).2
      rw [Dict.contains, Bool.not_eq_true', Option.isSome_eq_false_iff, Option.isNone_iff_eq_none] at hfree
      exact hfree
  refine ⟨hevolves.trans hforgets, fun hok camera => hstay camera ?_⟩
  rcases hothers camera with hsame | hnone
  · cases hpid : r.procs.get? camera with
    | none => rw [hsame, hpid]
    | some pid => exact hgone hok (camera, pid) (Dict.get?_eq_some.mp hpid)
  · exact hnone

theorem watchdogOne_evolves (h : Inv r) {camera : String} {pid : Nat} (hpid : r.procs.get? camera = some pid) :
    Evolves spawns clears r (r.watchdogOne env (camera, pid)).2 ∧
      ∀ other, other ≠ camera → (r.watchdogOne env (camera, pid)).2.procs.get? other = r.procs.get? other := by
  rw [watchdogOne]
  cases halive : (r.child pid).alive with
  | false =>
    simp only [poll_dead halive, if_true]
    exact ⟨.reap h halive, fun _ _ => rfl⟩
  | true =>
    simp only [poll_alive halive, Bool.false_eq_true, if_false]
    split
    · exact ⟨.refl h, fun _ _ => rfl⟩
    split
    · exact ⟨.refl h, fun _ _ => rfl⟩
    split
    · exact ⟨.refl h, fun _ _ => rfl⟩
    · refine ⟨.booked h hpid (.inr rfl) _, fun other hother => ?_⟩
      rw [book, Dict.get?_erase, if_neg hother]
      rfl

theorem watchdog_evolves (entries : List (String × Nat)) (h : Inv r)
    (hentries : ∀ e ∈ entries, r.procs.get? e.1 = some e.2) (hnodup : (entries.map Prod.fst).Nodup) :
    Evolves spawns clears r (forEach (watchdogOne env) entries r).2 := by
  induction entries generalizing r with
  | nil => exact .refl h
  | cons entry rest ih =>
    obtain ⟨camera, pid⟩ := entry
    rw [List.map_cons, List.nodup_cons] at hnodup
    obtain ⟨hevolves, hothers⟩ := watchdogOne_evolves env h (hentries (camera, pid) List.mem_cons_self)
    simp only [forEach]
    split
    swap
    · exact hevolves
    refine hevolves.trans (ih hevolves.inv (fun e he => ?_) hnodup.2)
    rw [hothers e.1 fun heq => hnodup.1 (List.mem_map.mpr ⟨e, he, heq⟩)]
    exact hentries e (List.mem_cons_of_mem _ he)

theorem forEach_evolves {body : Recorder → String → Bool × Recorder} (cameras : List String) (h : Inv r)
    (hbody : ∀ camera ∈ cameras, ∀ r', Evolves spawns clears r r' → Evolves spawns clears r' (body r' camera).2) :
    Evolves spawns clears r (forEach body cameras r).2 := by
  have hloop : ∀ r', Evolves spawns clears r r' → Evolves spawns clears r (forEach body cameras r').2 := by
    induction cameras with
    | nil => exact fun r' h' => h'
    | cons camera rest ih =>
      intro r' h'
      have hfirst := h'.trans (hbody camera List.mem_cons_self r' h')
      simp only [forEach]
      split
      · exact ih (fun other hmem => hbody other (List.mem_cons_of_mem _ hmem)) _ hfirst
      · exact hfirst
  exact hloop r (.refl h)

/-- The policy permits the camera, or the owned ingress admits it. -/
def Admitted (env : Env) (camera : String) : Prop :=
  ∃ selection, env.policy camera = some selection ∧ (selection.permitsLegacyRtsp = true ∨
    ∃ bindings binding, env.ownedIngress = some bindings ∧ bindings camera = some binding ∧
      binding.matches camera selection = true)

theorem spawnHub_evolves (h : Inv r) {camera : String} (hspawns : spawns camera) :
    Evolves spawns clears r (r.spawnHubLocked env camera).2 := by
  rw [spawnHubLocked]
  cases hpid : r.procs.get? camera with
  | some pid =>
    cases halive : (r.child pid).alive with
    | true =>
      simp only [poll_alive halive, if_true]
      exact .refl h
    | false =>
      simp only [poll_dead halive, Bool.true_eq_false, if_false]
      exact .booked h hpid (.inl halive) _
  | none =>
    simp only
    split
    · exact .refl h
    split
    · exact .refl h
    · exact .birth h hpid _ hspawns

/-- What is born is born with the gate open. -/
theorem spawnLocked_evolves (h : Inv r) {camera : String}
    (hspawns : r.paused = false → r.held.contains camera = false → Admitted env camera → spawns camera) :
    Evolves spawns clears r (r.spawnLocked env camera).2 := by
  rw [spawnLocked]
  split
  · exact .refl h
  next hgate =>
  rw [not_or, Bool.not_eq_true, Bool.not_eq_true] at hgate
  split
  · exact .refl h
  next selection hpolicy =>
  split
  next hlegacy => exact spawnHub_evolves env h (hspawns hgate.1 hgate.2 ⟨selection, hpolicy, .inl hlegacy⟩)
  next =>
    split
    · exact .refl h
    next bindings hbindings =>
    split
    · exact .refl h
    next binding hbinding =>
    split
    next hmatches =>
      exact spawnHub_evolves env h
        (hspawns hgate.1 hgate.2 ⟨selection, hpolicy, .inr ⟨bindings, binding, hbindings, hbinding, hmatches⟩⟩)
    next => exact .refl h

theorem spawnEach_evolves (cameras : List String) (h : Inv r)
    (hspawns : ∀ camera, r.paused = false → r.held.contains camera = false → Admitted env camera → spawns camera) :
    Evolves spawns clears r (forEach (spawnLocked env) cameras r).2 := by
  refine forEach_evolves cameras h fun camera _ r' h' => spawnLocked_evolves env h'.inv ?_
  rw [h'.paused, h'.held]
  exact hspawns camera

end

/-! ## Runs -/

theorem run_snoc (calls : List (Env × RecorderOp)) (call : Env × RecorderOp) :
    run (calls ++ [call]) = ((run calls).step call.1 call.2).2 := by
  rw [run, run, List.foldl_append]
  rfl

/-- The gate in front of a birth. -/
def Open (env : Env) (r : Recorder) (camera : String) : Prop :=
  r.paused = false ∧ r.held.contains camera = false ∧ Admitted env camera

/-- The operations that forget a camera: it was removed or suspended, or the
recorder was paused or stopped. -/
def Clears (r : Recorder) (op : RecorderOp) (camera : String) : Prop :=
  match op with
  | .start cameras => camera ∉ usable cameras
  | .pause | .stop => True
  | .resume => r.paused = true
  | .suspend suspended => camera = suspended
  | _ => False

/-- What one operation does: as `Evolves`, but for the flags. -/
structure Steps (spawns clears : String → Prop) (r r' : Recorder) : Prop where
  inv : Inv r'
  born : r.born ≤ r'.born
  births : ∀ pid, r.born ≤ pid → pid < r'.born → spawns (r'.child pid).camera
  log : ∃ events, r'.log = r.log ++ events ∧ ∀ camera, .cleared camera ∈ events → clears camera

theorem Evolves.steps {spawns clears : String → Prop} {r₁ r₂ r' : Recorder} (h : Evolves spawns clears r₁ r₂)
    (hborn : r.born = r₁.born) (hlog : r.log = r₁.log) (hinv : Inv r') (hborn' : r'.born = r₂.born)
    (hchild' : r'.child = r₂.child) (hlog' : r'.log = r₂.log) : Steps spawns clears r r' := by
  refine ⟨hinv, by rw [hborn, hborn']; exact h.born, ?_, by rw [hlog, hlog']; exact h.log⟩
  rw [hborn, hborn', hchild']
  exact h.births

/-- Flags do not matter to the invariant. -/
theorem Inv.flags (h : Inv r) {r' : Recorder} (hchild : r'.child = r.child) (hborn : r'.born = r.born)
    (hprocs : r'.procs = r.procs) (hfails : r'.fails = r.fails) (hlog : r'.log = r.log) : Inv r' := by
  have hsame (camera : String) : r'.account camera = r.account camera := by
    rw [Recorder.account, Recorder.account, hprocs, hchild]
  refine ⟨?_, ?_, ?_, fun camera => ?_, ?_⟩
  · rw [hprocs, hborn, hchild]
    exact h.table
  · rw [hprocs, hborn, hchild]
    exact h.owned
  · rw [hborn, hchild]
    exact h.alive
  · rw [hsame, hlog]
    exact h.account camera
  · rw [hfails, hlog]
    exact h.counter

theorem start_steps (env : Env) (h : Inv r) (cameras : List Camera) :
    Steps (Open env r) (Clears r (.start cameras)) r (r.start env cameras).2 := by
  simp only [start]
  split
  · exact (Evolves.refl h).steps rfl rfl h rfl rfl rfl
  have h₁ : Inv { r with cameras := usable cameras } := h.flags rfl rfl rfl rfl rfl
  have hretired : Evolves (Open env r) (Clears r (.start cameras)) { r with cameras := usable cameras }
      (forEach (retireLocked env) (r.procs.keys.filter fun camera => camera ∉ usable cameras)
        { r with cameras := usable cameras }).2 := by
    refine forEach_evolves _ h₁ fun camera hmem r' h' => (retireLocked_evolves env h'.inv ?_).1
    show camera ∉ usable cameras
    simpa using (List.mem_filter.mp hmem).2
  split
  · exact hretired.steps rfl rfl hretired.inv rfl rfl rfl
  · have hspawned := hretired.trans (spawnEach_evolves env (usable cameras) hretired.inv
      fun camera hpaused hheld hadmitted => by
        rw [hretired.paused] at hpaused
        rw [hretired.held] at hheld
        exact ⟨hpaused, hheld, hadmitted⟩)
    exact hspawned.steps rfl rfl hspawned.inv rfl rfl rfl

theorem pause_steps (env : Env) (h : Inv r) :
    Steps (Open env r) (Clears r .pause) r (r.pause env).2 ∧
      ((r.pause env).1 = true → ∀ camera, (r.pause env).2.procs.get? camera = none) := by
  simp only [pause]
  split
  next hidle =>
    refine ⟨(Evolves.refl h).steps rfl rfl h rfl rfl rfl, fun _ camera => ?_⟩
    have hnil : r.procs.entries = [] := List.eq_nil_of_length_eq_zero hidle.2
    rw [Dict.get?, hnil]
    rfl
  next =>
    have h₁ : Inv { r with paused := true } := h.flags rfl rfl rfl rfl rfl
    obtain ⟨hevolves, hempty⟩ := terminateAll_evolves env (fun _ => trivial : ∀ camera, Clears r .pause camera) h₁
    exact ⟨hevolves.steps rfl rfl hevolves.inv rfl rfl rfl, hempty⟩

theorem resume_steps (env : Env) (h : Inv r) : Steps (Open env r) (Clears r .resume) r (r.resume env).2 := by
  simp only [resume]
  split
  next hpaused =>
    obtain ⟨hevolves, -⟩ := terminateAll_evolves env (fun _ => hpaused.1 : ∀ camera, Clears r .resume camera) h
    split
    · exact hevolves.steps rfl rfl (hevolves.inv.flags rfl rfl rfl rfl rfl) rfl rfl rfl
    · exact hevolves.steps rfl rfl hevolves.inv rfl rfl rfl
  next => exact (Evolves.refl h).steps rfl rfl (h.flags rfl rfl rfl rfl rfl) rfl rfl rfl

theorem suspend_steps (env : Env) (h : Inv r) (camera : String) :
    Steps (Open env r) (Clears r (.suspend camera)) r (r.suspend env camera).2 ∧
      ((r.suspend env camera).1 = true → (r.suspend env camera).2.procs.get? camera = none) := by
  have hsame : Steps (Open env r) (Clears r (.suspend camera)) r r := (Evolves.refl h).steps rfl rfl h rfl rfl rfl
  simp only [suspend]
  split
  · exact ⟨hsame, fun hok => Bool.noConfusion hok⟩
  split
  · exact ⟨hsame, fun hok => Bool.noConfusion hok⟩
  have h₁ : Inv { r with held := r.held.set camera false } := h.flags rfl rfl rfl rfl rfl
  have hclears : Clears r (.suspend camera) camera := rfl
  have hretires : Evolves (Open env r) (Clears r (.suspend camera)) { r with held := r.held.set camera false } _ ∧ _ :=
    retireLocked_evolves env h₁ hclears
  obtain ⟨hevolves, hgone⟩ := hretires
  split
  next hok => exact ⟨hevolves.steps rfl rfl (hevolves.inv.flags rfl rfl rfl rfl rfl) rfl rfl rfl, fun _ => hgone hok⟩
  next => exact ⟨hevolves.steps rfl rfl hevolves.inv rfl rfl rfl, fun hok => Bool.noConfusion hok⟩

theorem supervise_evolves (env : Env) {clears : String → Prop} (h : Inv r) : Evolves (Open env r) clears r (r.supervise env) := by
  have hdogs : Evolves (Open env r) clears r (r.watchdogLocked env).2 :=
    watchdog_evolves env r.procs.entries h (fun e he => Dict.get?_eq_some.mpr he) r.procs.nodup
  simp only [supervise]
  split
  swap
  · exact hdogs
  refine hdogs.trans (spawnEach_evolves env _ hdogs.inv fun camera hpaused hheld hadmitted => ?_)
  rw [hdogs.paused] at hpaused
  rw [hdogs.held] at hheld
  exact ⟨hpaused, hheld, hadmitted⟩

theorem step_steps (env : Env) (h : Inv r) (op : RecorderOp) :
    Steps (Open env r) (Clears r op) r (r.step env op).2 := by
  have hsame {r' : Recorder} (h' : Evolves (Open env r) (Clears r op) r r') : Steps (Open env r) (Clears r op) r r' :=
    h'.steps rfl rfl h'.inv rfl rfl rfl
  cases op with
  | start cameras => exact start_steps env h cameras
  | pause => exact (pause_steps env h).1
  | resume => exact resume_steps env h
  | stop =>
    exact hsame (terminateAll_evolves env (fun _ => trivial : ∀ camera, Clears r .stop camera) h).1
  | supervise => exact hsame (supervise_evolves env h)
  | maintain =>
    simp only [step, maintain]
    split
    · exact hsame (.refl h)
    · exact hsame (supervise_evolves env h)
  | suspend camera => exact (suspend_steps env h camera).1
  | resumeIngress camera =>
    simp only [step, resumeIngress]
    split
    · exact hsame (.refl h)
    split
    · exact hsame (.refl h)
    split
    · exact hsame (.refl h)
    · exact (Evolves.refl h).steps rfl rfl (h.flags rfl rfl rfl rfl rfl) rfl rfl rfl
  | isRecording camera =>
    simp only [step, isRecording]
    split
    · exact hsame (.refl h)
    next pid _ => exact hsame (.poll h pid)
  | exit pid =>
    have hborn : (r.exit pid).born = r.born := by
      rw [exit]
      split <;> rfl
    refine ⟨h.exit pid, Nat.le_of_eq hborn.symm, fun p hle hlt => ?_, ?_⟩
    · rw [step, hborn] at hlt
      exact absurd hlt (Nat.not_lt.mpr hle)
    · rw [step, exit]
      split
      · exact ⟨_, rfl, fun camera hmem => by cases List.mem_singleton.mp hmem⟩
      · exact ⟨[], (List.append_nil _).symm, fun _ hmem => absurd hmem List.not_mem_nil⟩

theorem inv_start : Inv {} :=
  ⟨fun _ _ h => (nomatch h), fun _ h => absurd h (Nat.not_lt_zero _), fun _ h => absurd h (Nat.not_lt_zero _),
    fun _ => rfl, fun _ => rfl⟩

theorem inv_run (calls : List (Env × RecorderOp)) : Inv (run calls) := by
  induction calls using List.reverseRecOn with
  | nil => exact inv_start
  | append_singleton calls call ih =>
    rw [run_snoc]
    exact (step_steps call.1 ih call.2).inv

/-- Without an entry in the table a camera has no live child. -/
theorem Inv.no_live (h : Inv r) {camera : String} (hnone : r.procs.get? camera = none) {pid : Nat} (hpid : pid < r.born)
    (hcamera : (r.child pid).camera = camera) : (r.child pid).alive = false := by
  cases halive : (r.child pid).alive with
  | false => rfl
  | true =>
    have howned := h.owned pid hpid (h.alive pid hpid halive)
    rw [hcamera, hnone] at howned
    cases howned

/-- The cameras that an operation leaves without a live child when it returns. -/
def Covers : RecorderOp → String → Prop
  | .pause, _ | .stop, _ => True
  | .suspend suspended, camera => camera = suspended
  | _, _ => False

theorem covers_none (env : Env) (h : Inv r) {op : RecorderOp} (hok : (r.step env op).1 = true) {camera : String}
    (hcovers : Covers op camera) : (r.step env op).2.procs.get? camera = none := by
  cases op with
  | pause => exact (pause_steps env h).2 hok camera
  | stop =>
    have hterminated : Evolves (fun _ => True) (fun _ => True) r (r.terminateAllLocked env).2 ∧ _ :=
      terminateAll_evolves env (fun _ => trivial) h
    exact hterminated.2 hok camera
  | suspend suspended =>
    have hsame : camera = suspended := hcovers
    rw [hsame]
    exact (suspend_steps env h suspended).2 hok
  | start cameras => exact absurd hcovers id
  | resume => exact absurd hcovers id
  | supervise => exact absurd hcovers id
  | maintain => exact absurd hcovers id
  | resumeIngress other => exact absurd hcovers id
  | isRecording other => exact absurd hcovers id
  | exit pid => exact absurd hcovers id

/-- Between a death and the next birth of a camera: its death was counted, once and
alone, or the camera was forgotten. -/
def CountedOnce (camera : String) (log : List RecorderEvent) : Prop :=
  ∀ (before : List RecorderEvent) pid (between : List RecorderEvent) next (after : List RecorderEvent),
    eventsOf camera log = before ++ .died camera pid :: (between ++ .born camera next :: after) →
    (∀ other, .born camera other ∉ between) →
    .cleared camera ∈ between ∨ ∃ healthy, between = [.booked camera pid healthy]

theorem Inv.countedOnce (h : Inv r) (camera : String) : CountedOnce camera r.log := by
  intro before pid between next after hsplit hborn
  by_cases hclear : .cleared camera ∈ between
  · exact .inl hclear
  · have hcamera : ∀ e ∈ between, e.camera = camera := by
      intro e he
      have hmem : e ∈ eventsOf camera r.log := by
        rw [hsplit]
        simp [he]
      simpa using (List.mem_filter.mp hmem).2
    have hrun := h.account camera
    rw [hsplit, Account.run_append] at hrun
    obtain ⟨start, -, hrun⟩ := Option.bind_eq_some_iff.mp hrun
    obtain ⟨other, healthy, hbetween⟩ := Account.run_died hrun
      (fun other p hmem => by
        cases hcamera _ hmem
        exact hborn p hmem)
      (fun other hmem => by
        cases hcamera _ hmem
        exact hclear hmem)
    subst hbetween
    cases hcamera _ List.mem_cons_self
    exact .inr ⟨healthy, rfl⟩

/-! ## When `pause` and `resume` raise -/

/-- Every child in the table that still runs is confirmed in time. -/
def Settles (env : Env) (r : Recorder) : Prop :=
  ∀ camera pid, r.procs.get? camera = some pid → (r.child pid).alive = true → env.confirms camera = true

theorem retireProcess_ok (r : Recorder) (confirms : Bool) (pid : Nat) :
    (r.retireProcess confirms pid).1 = true ↔ ((r.child pid).alive = true → confirms = true) := by
  cases halive : (r.child pid).alive with
  | false =>
    rw [retireProcess, poll_dead halive]
    simp
  | true =>
    rw [retireProcess, poll_alive halive]
    cases confirms <;> simp

theorem terminateEach_ok (env : Env) (entries : List (String × Nat)) (h : Inv r)
    (hentries : ∀ e ∈ entries, r.procs.get? e.1 = some e.2) (hnodup : (entries.map Prod.fst).Nodup) :
    (terminateEach env entries r).1 = true ↔ ∀ e ∈ entries, (r.child e.2).alive = true → env.confirms e.1 = true := by
  induction entries generalizing r with
  | nil => exact ⟨fun _ _ hmem => absurd hmem List.not_mem_nil, fun _ => rfl⟩
  | cons entry rest ih =>
    obtain ⟨camera, pid⟩ := entry
    have hpid : r.procs.get? camera = some pid := hentries (camera, pid) List.mem_cons_self
    have hrest : ∀ e ∈ rest, r.procs.get? e.1 = some e.2 := fun e he => hentries e (List.mem_cons_of_mem _ he)
    rw [List.map_cons, List.nodup_cons] at hnodup
    have hfirst := r.retireProcess_ok (env.confirms camera) pid
    simp only [terminateEach, List.forall_mem_cons, Bool.and_eq_true]
    rcases r.retireProcess_cases (env.confirms camera) pid with hout | hout
    · rw [hout] at hfirst ⊢
      have hother {e : String × Nat} (he : e ∈ rest) : e.1 ≠ camera := fun heq => hnodup.1 (List.mem_map.mpr ⟨e, he, heq⟩)
      have hpids {e : String × Nat} (he : e ∈ rest) : e.2 ≠ pid := by
        intro heq
        have hcamera := (h.table e.1 e.2 (hrest e he)).2
        rw [heq, (h.table camera pid hpid).2] at hcamera
        exact hother he hcamera.symm
      have hchild {e : String × Nat} (he : e ∈ rest) : ((r.reap pid).forget camera).child e.2 = r.child e.2 :=
        reap_other (hpids he)
      have hnext := ih (h.retired hpid) (fun e he => by
        rw [show ((r.reap pid).forget camera).procs = r.procs.erase camera from rfl, Dict.get?_erase, if_neg (hother he)]
        exact hrest e he) hnodup.2
      simp only [if_true] at hnext ⊢
      rw [hnext, ← hfirst]
      simp only [true_and]
      exact forall₂_congr fun e he => by rw [hchild he]
    · rw [hout] at hfirst ⊢
      rw [← hfirst]
      simp

theorem terminateAll_ok (env : Env) (h : Inv r) : (r.terminateAllLocked env).1 = true ↔ Settles env r := by
  have hloop := terminateEach_ok env r.procs.entries h (fun e he => Dict.get?_eq_some.mpr he) r.procs.nodup
  simp only [terminateAllLocked]
  rw [hloop]
  constructor
  · intro hall camera pid hpid
    exact hall (camera, pid) (Dict.get?_eq_some.mp hpid)
  · intro hall e he
    exact hall e.1 e.2 (Dict.get?_eq_some.mpr he)

theorem pause_ok (env : Env) (h : Inv r) : (r.pause env).1 = true ↔ Settles env r := by
  rw [pause]
  split
  next hidle =>
    refine ⟨fun _ camera pid hpid => ?_, fun _ => rfl⟩
    have hnil : r.procs.entries = [] := List.eq_nil_of_length_eq_zero hidle.2
    have hmem := Dict.get?_eq_some.mp hpid
    rw [hnil] at hmem
    cases hmem
  next =>
    have h₁ : Inv { r with paused := true } := h.flags rfl rfl rfl rfl rfl
    exact terminateAll_ok env h₁

/-- `resume` terminates what a failed `pause` left, and nothing else. -/
theorem resume_ok (env : Env) (h : Inv r) : (r.resume env).1 = true ↔ (r.paused = true → Settles env r) := by
  rw [resume]
  split
  next hpaused =>
    have hall := terminateAll_ok env h
    simp only
    split
    next hok => exact ⟨fun _ _ => hall.mp hok, fun _ => rfl⟩
    next hok => exact ⟨fun hfalse => Bool.noConfusion hfalse, fun hsettles => absurd (hall.mpr (hsettles hpaused.1)) hok⟩
  next hidle =>
    refine ⟨fun _ hpaused camera pid hpid => ?_, fun _ => rfl⟩
    have hnil : r.procs.entries = [] := by
      refine List.eq_nil_of_length_eq_zero ?_
      by_contra hsize
      exact hidle ⟨hpaused, hsize⟩
    have hmem := Dict.get?_eq_some.mp hpid
    rw [hnil] at hmem
    cases hmem

end Recorder

end CamGuard.Recording
