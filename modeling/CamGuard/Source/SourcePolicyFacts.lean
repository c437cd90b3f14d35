/-
A camera's source intent is a linear history. One inversion (`step_effect`) says
what an accepted transaction did to the tables; from it a row's revision counts
its changes, so two changes with one expected revision cannot both be accepted,
and a checkpoint that is spent is one whose row stood still since it was saved.

A removed camera keeps its row and its checkpoint: both count again when the same
camera is registered again.
-/
import CamGuard.Source.SourcePolicy
import Mathlib.Data.List.Induction
import Mathlib.Tactic.Common

namespace CamGuard.Source

/-! ## Rows -/

theorem Mode.ofText?_text (mode : Mode) : Mode.ofText? mode.text = some mode := by cases mode <;> decide

theorem Phase.ofText?_text (phase : Phase) : Phase.ofText? phase.text = some phase := by cases phase <;> decide

theorem selection_row {s : Selection} (h : 1 ≤ s.revision ∧ s.revision ≤ MAX_REVISION) : selection (some s.row) = s := by
  simp [selection, PolicyRow.read?, Selection.row, Mode.ofText?_text, Phase.ofText?_text, h]

/-- A row that says nothing. -/
def PolicyRow.Malformed (row : PolicyRow) : Prop := row.read? = none

theorem selection_malformed {row : PolicyRow} (h : row.Malformed) :
    selection (some row) = { phase := .blocked, revision := -1 } := by
  rw [PolicyRow.Malformed] at h
  rw [selection, h]
  rfl

/-! ## Operations -/

inductive PolicyOp where
  | beginChange (cameraId mode : String) (expected : Int)
  | activate (cameraId : String) (expected : Int)
  | block (cameraId : String) (expected : Int)
  | save (items : List CleanRestart)
  | discard (cameraId : String)
  | consume (item : CleanRestart)
  /-- The registry adds a camera. -/
  | register (cameraId : String)
  /-- The registry removes a camera. -/
  | remove (cameraId : String)
  deriving DecidableEq

namespace PolicyOp

/-- The camera and the expected revision of a change. -/
def target : PolicyOp → Option (String × Int)
  | .beginChange cameraId _ expected | .activate cameraId expected | .block cameraId expected => some (cameraId, expected)
  | .consume item => some (item.cameraId, item.revision)
  | _ => none

/-- How each change moves the phase. -/
def Moves : PolicyOp → Phase → Phase → Prop
  | .beginChange .., old, new => old = .active ∧ new = .transition
  | .activate .., old, new => old = .transition ∧ new = .active
  | .block .., old, new => (old = .active ∨ old = .transition) ∧ new = .blocked
  | .consume _, old, new => old = .blocked ∧ new = .transition
  | _, _, _ => False

end PolicyOp

namespace PolicyDb

def step (db : PolicyDb) : PolicyOp → Except PolicyFault PolicyDb
  | .beginChange cameraId mode expected => (db.beginChange cameraId mode expected).map Prod.snd
  | .activate cameraId expected => (db.activate cameraId expected).map Prod.snd
  | .block cameraId expected => (db.block cameraId expected).map Prod.snd
  | .save items => db.save items
  | .discard cameraId => db.discard cameraId
  | .consume item => (db.consume item).map Prod.snd
  | .register cameraId => .ok { db with cameras := Function.update db.cameras cameraId true }
  | .remove cameraId => .ok { db with cameras := Function.update db.cameras cameraId false }

def accepts (db : PolicyDb) (op : PolicyOp) : Bool :=
  match db.step op with
  | .ok _ => true
  | .error _ => false

/-- A transaction that is refused is rolled back. -/
def next (db : PolicyDb) (op : PolicyOp) : PolicyDb :=
  match db.step op with
  | .ok db' => db'
  | .error _ => db

def exec (db : PolicyDb) (ops : List PolicyOp) : PolicyDb := ops.foldl next db

theorem exec_append (db : PolicyDb) (ops more : List PolicyOp) : db.exec (ops ++ more) = (db.exec ops).exec more :=
  List.foldl_append

theorem exec_snoc (db : PolicyDb) (ops : List PolicyOp) (op : PolicyOp) :
    db.exec (ops ++ [op]) = (db.exec ops).next op := by
  rw [exec_append]
  rfl

theorem next_refused {db : PolicyDb} {op : PolicyOp} (h : db.accepts op = false) : db.next op = db := by
  rw [accepts] at h
  rw [next]
  split at h
  · cases h
  · rfl

theorem accepts_iff {db : PolicyDb} {op : PolicyOp} : db.accepts op = true ↔ db.step op = .ok (db.next op) := by
  rw [accepts, next]
  cases db.step op with
  | ok db' => exact ⟨fun _ => rfl, fun _ => rfl⟩
  | error fault => exact ⟨fun h => (nomatch h), fun h => (nomatch h)⟩

/-! ## What an accepted transaction did -/

/-- A change of one row. -/
structure Changes (db : PolicyDb) (op : PolicyOp) (cameraId : String) (result : Selection) (db' : PolicyDb) : Prop where
  target : op.target = some (cameraId, (db.readFor cameraId).revision)
  moves : op.Moves (db.readFor cameraId).phase result.phase
  revision : result.revision = (db.readFor cameraId).revision + 1
  bound : 1 ≤ result.revision ∧ result.revision ≤ MAX_REVISION
  policy : db'.policy = Function.update db.policy cameraId (some result.row)
  cameras : db'.cameras = db.cameras
  registered : db.cameras cameraId = true

/-- **What an accepted transaction did.** -/
inductive Effect (db : PolicyDb) (op : PolicyOp) (db' : PolicyDb) : Prop where
  | changed (cameraId : String) (result : Selection) (h : Changes db op cameraId result db')
      (hrestart : db'.restart = db.restart) (hop : ∀ item, op ≠ .consume item) (hdiscard : ∀ id, op ≠ .discard id)
  | consumed (item : CleanRestart) (result : Selection) (h : Changes db op item.cameraId result db')
      (hop : op = .consume item) (hrow : db.restart item.cameraId = some ⟨item.revision, item.domain, 1⟩)
      (hold : db.readFor item.cameraId = ⟨.native, .blocked, item.revision⟩)
      (hrestart : db'.restart = Function.update db.restart item.cameraId none)
  | saved (items : List CleanRestart) (hop : op = .save items) (hpolicy : db'.policy = db.policy)
      (hcameras : db'.cameras = db.cameras) (hrestart : db'.restart = (db.store items).restart)
      (hitems : ∀ item ∈ items, db.readFor item.cameraId = ⟨.native, .blocked, item.revision⟩)
      (hnodup : (items.map CleanRestart.cameraId).Nodup)
  | discarded (cameraId : String) (hop : op = .discard cameraId) (hpolicy : db'.policy = db.policy)
      (hcameras : db'.cameras = db.cameras) (hrestart : db'.restart = Function.update db.restart cameraId none)
  | registry (hpolicy : db'.policy = db.policy) (hrestart : db'.restart = db.restart)
      (hop : (∃ id, op = .register id) ∨ ∃ id, op = .remove id)

variable {db db' : PolicyDb} {op : PolicyOp}

theorem change_ok {cameraId : String} {expected : Int} {phase : Phase} {mode : Option Mode} {result : Selection}
    (h : db.change cameraId expected phase mode = .ok (result, db')) :
    db.cameras cameraId = true ∧ (db.readFor cameraId).revision = expected ∧
      (db.readFor cameraId).phase ∈ required phase ∧ result.phase = phase ∧ result.revision = expected + 1 ∧
      (1 ≤ result.revision ∧ result.revision ≤ MAX_REVISION) ∧
      db' = { db with policy := Function.update db.policy cameraId (some result.row) } := by
  simp only [change] at h
  split at h
  · cases h
  split at h
  · cases h
  next hbound =>
  split at h
  · cases h
  next hcamera =>
  split at h
  · cases h
  next hold =>
  cases h
  rw [not_or, not_not, not_not] at hold
  rw [not_not] at hbound
  refine ⟨by simpa using hcamera, hold.1, hold.2, rfl, rfl, ⟨?_, ?_⟩, rfl⟩
  · show 1 ≤ expected + 1
    omega
  · show expected + 1 ≤ MAX_REVISION
    omega

theorem effect_change {cameraId : String} {expected : Int} {phase : Phase} {mode : Option Mode}
    (h : (db.change cameraId expected phase mode).map Prod.snd = .ok db')
    (htarget : op.target = some (cameraId, expected)) (hmoves : ∀ old ∈ required phase, op.Moves old phase)
    (hop : ∀ item, op ≠ .consume item) (hdiscard : ∀ id, op ≠ .discard id) : Effect db op db' := by
  cases hchange : db.change cameraId expected phase mode with
  | error fault =>
    rw [hchange] at h
    cases h
  | ok out =>
    obtain ⟨result, db₁⟩ := out
    rw [hchange] at h
    cases h
    obtain ⟨hcamera, hrevision, hphase, hnew, hnext, hbound, rfl⟩ := change_ok hchange
    refine .changed cameraId result ⟨?_, ?_, ?_, hbound, rfl, rfl, hcamera⟩ rfl hop hdiscard
    · rw [hrevision]
      exact htarget
    · rw [hnew]
      exact hmoves _ hphase
    · rw [hnext, hrevision]

theorem current_reads {item : CleanRestart} (hvalid : item.valid = true) (h : db.current item = true) :
    db.policy item.cameraId = some (Selection.row ⟨.native, .blocked, item.revision⟩) ∧
      db.readFor item.cameraId = ⟨.native, .blocked, item.revision⟩ ∧ db.cameras item.cameraId = true ∧
      1 ≤ item.revision ∧ item.revision < MAX_REVISION := by
  simp only [CleanRestart.valid, Bool.and_eq_true, decide_eq_true_eq] at hvalid
  obtain ⟨⟨⟨-, hlow, hhigh⟩, -⟩, -⟩ := hvalid
  rw [current] at h
  split at h
  · cases h
  next row hrow =>
  simp only [Bool.and_eq_true, decide_eq_true_eq] at h
  obtain ⟨⟨hmode, hphase, hrevision⟩, hcamera⟩ := h
  have hwritten : row = Selection.row ⟨.native, .blocked, item.revision⟩ := by
    cases row
    cases hmode
    cases hphase
    cases hrevision
    rfl
  refine ⟨by rw [hrow, hwritten], ?_, hcamera, hlow, hhigh⟩
  rw [readFor, hrow, hwritten]
  exact selection_row ⟨hlow, Int.le_of_lt hhigh⟩

theorem effect_consume {item : CleanRestart} (h : (db.consume item).map Prod.snd = .ok db') :
    Effect db (.consume item) db' := by
  simp only [consume] at h
  split at h
  · cases h
  next hvalid =>
  split at h
  · cases h
  next row hrow =>
  split at h
  · cases h
  next hchecks =>
  cases h
  simp only [not_or, not_not, Bool.not_eq_false] at hchecks hvalid
  obtain ⟨hversion, hrevision, hdomain, hcurrent⟩ := hchecks
  obtain ⟨hpolicy, hreads, hcamera, hlow, hhigh⟩ := current_reads hvalid hcurrent
  refine .consumed item ⟨.native, .transition, item.revision + 1⟩ ⟨?_, ?_, ?_, ⟨?_, ?_⟩, ?_, rfl, hcamera⟩ rfl ?_ hreads rfl
  · rw [hreads]
    rfl
  · rw [hreads]
    exact ⟨rfl, rfl⟩
  · rw [hreads]
  · show 1 ≤ item.revision + 1
    omega
  · show item.revision + 1 ≤ MAX_REVISION
    omega
  · simp only [hpolicy, Option.map_some]
    rfl
  · cases row
    cases hversion
    cases hrevision
    cases hdomain
    exact hrow

theorem effect_save {items : List CleanRestart} (h : db.save items = .ok db') : Effect db (.save items) db' := by
  simp only [save] at h
  split at h
  · next hnil =>
    cases h
    subst hnil
    exact .saved [] rfl rfl rfl rfl (fun _ hmem => absurd hmem List.not_mem_nil) List.nodup_nil
  split at h
  · cases h
  next hnodup =>
  split at h
  · cases h
  next hvalid =>
  split at h
  · cases h
  next hcurrent =>
  cases h
  simp only [Bool.not_eq_false, List.all_eq_true] at hvalid hcurrent
  exact .saved items rfl rfl rfl rfl (fun item hmem => (current_reads (hvalid item hmem) (hcurrent item hmem)).2.1)
    (not_not.mp hnodup)

theorem step_effect (h : db.step op = .ok db') : Effect db op db' := by
  cases op with
  | beginChange cameraId mode expected =>
    simp only [step, beginChange] at h
    split at h
    · cases h
    · exact effect_change h rfl (fun old hold => ⟨by simpa [required] using hold, rfl⟩) (fun _ => nofun) (fun _ => nofun)
  | activate cameraId expected =>
    exact effect_change h rfl (fun old hold => ⟨by simpa [required] using hold, rfl⟩) (fun _ => nofun) (fun _ => nofun)
  | block cameraId expected =>
    exact effect_change h rfl (fun old hold => ⟨by simpa [required] using hold, rfl⟩) (fun _ => nofun) (fun _ => nofun)
  | save items => exact effect_save h
  | discard cameraId =>
    simp only [step, discard] at h
    split at h
    · cases h
    · cases h
      exact .discarded cameraId rfl rfl rfl rfl
  | consume item => exact effect_consume h
  | register cameraId =>
    cases h
    exact .registry rfl rfl (.inl ⟨cameraId, rfl⟩)
  | remove cameraId =>
    cases h
    exact .registry rfl rfl (.inr ⟨cameraId, rfl⟩)

/-! ## One row -/

theorem next_policy (db : PolicyDb) (op : PolicyOp) (cameraId : String) :
    (db.next op).policy cameraId = db.policy cameraId ∨
      db.accepts op = true ∧ ∃ result, Changes db op cameraId result (db.next op) := by
  cases haccepts : db.accepts op with
  | false =>
    rw [next_refused haccepts]
    exact .inl rfl
  | true =>
    have hother : ∀ {id : String} {result : Selection}, Changes db op id result (db.next op) →
        (db.next op).policy cameraId = db.policy cameraId ∨ ∃ result, Changes db op cameraId result (db.next op) := by
      intro id result h
      by_cases hid : cameraId = id
      · subst hid
        exact .inr ⟨result, h⟩
      · left
        rw [h.policy, Function.update_of_ne hid]
    have hchange : (db.next op).policy cameraId = db.policy cameraId ∨
        ∃ result, Changes db op cameraId result (db.next op) := by
      cases step_effect (accepts_iff.mp haccepts) with
      | changed id result h => exact hother h
      | consumed item result h => exact hother h
      | saved items _ hpolicy => exact .inl (by rw [hpolicy])
      | discarded id _ hpolicy => exact .inl (by rw [hpolicy])
      | registry hpolicy => exact .inl (by rw [hpolicy])
    exact hchange.imp_right fun h => ⟨rfl, h⟩

theorem Changes.reads {cameraId : String} {result : Selection} (h : Changes db op cameraId result db') :
    db'.readFor cameraId = result := by
  rw [readFor, h.policy, Function.update_self]
  exact selection_row h.bound

theorem accepted_changes {cameraId : String} {expected : Int} (h : db.accepts op = true)
    (htarget : op.target = some (cameraId, expected)) :
    (db.readFor cameraId).revision = expected ∧ ∃ result, Changes db op cameraId result (db.next op) := by
  have hsame : ∀ {id : String} {result : Selection}, Changes db op id result (db.next op) →
      (db.readFor cameraId).revision = expected ∧ ∃ result, Changes db op cameraId result (db.next op) := by
    intro id result hc
    have heq := hc.target.symm.trans htarget
    cases heq
    exact ⟨rfl, result, hc⟩
  cases step_effect (accepts_iff.mp h) with
  | changed id result hc => exact hsame hc
  | consumed item result hc => exact hsame hc
  | saved items hop =>
    subst hop
    cases htarget
  | discarded id hop =>
    subst hop
    cases htarget
  | registry _ _ hop =>
    rcases hop with ⟨id, rfl⟩ | ⟨id, rfl⟩ <;> cases htarget

/-- A revision does not go back, and where it stands still so does the row. -/
theorem revision_next (db : PolicyDb) (op : PolicyOp) (cameraId : String) :
    (db.readFor cameraId).revision ≤ ((db.next op).readFor cameraId).revision ∧
      (((db.next op).readFor cameraId).revision ≤ (db.readFor cameraId).revision →
        (db.next op).policy cameraId = db.policy cameraId) := by
  rcases db.next_policy op cameraId with hsame | ⟨-, result, h⟩
  · exact ⟨Int.le_of_eq (by rw [readFor, readFor, hsame]), fun _ => hsame⟩
  · have hreads := h.reads
    have hrevision := h.revision
    rw [hreads, hrevision]
    exact ⟨by omega, fun hle => by omega⟩

theorem revision_exec (db : PolicyDb) (ops : List PolicyOp) (cameraId : String) :
    (db.readFor cameraId).revision ≤ ((db.exec ops).readFor cameraId).revision ∧
      (((db.exec ops).readFor cameraId).revision ≤ (db.readFor cameraId).revision →
        (db.exec ops).policy cameraId = db.policy cameraId) := by
  induction ops using List.reverseRecOn with
  | nil => exact ⟨Int.le_refl _, fun _ => rfl⟩
  | append_singleton ops op ih =>
    rw [exec_snoc]
    obtain ⟨hle, hstill⟩ := (db.exec ops).revision_next op cameraId
    exact ⟨Int.le_trans ih.1 hle, fun hback => by rw [hstill (by omega), ih.2 (by omega)]⟩

/-- A malformed row is never changed: no change expects its revision. -/
theorem malformed_next {cameraId : String} {row : PolicyRow} (hrow : db.policy cameraId = some row)
    (hbad : row.Malformed) (op : PolicyOp) : (db.next op).policy cameraId = some row := by
  rcases db.next_policy op cameraId with hsame | ⟨-, result, h⟩
  · rw [hsame, hrow]
  · have hbound := h.bound.1
    have hreads : db.readFor cameraId = { phase := .blocked, revision := -1 } := by
      rw [readFor, hrow]
      exact selection_malformed hbad
    rw [h.revision, hreads] at hbound
    exact absurd hbound (by decide)

/-! ## Checkpoints -/

theorem store_snoc (db : PolicyDb) (items : List CleanRestart) (item : CleanRestart) :
    (db.store (items ++ [item])).restart =
      Function.update (db.store items).restart item.cameraId (some ⟨item.revision, item.domain, 1⟩) := by
  simp only [store, List.foldl_append, List.foldl_cons, List.foldl_nil]

theorem store_get (db : PolicyDb) (items : List CleanRestart) (cameraId : String) :
    (db.store items).restart cameraId = db.restart cameraId ∨
      ∃ item ∈ items, item.cameraId = cameraId ∧
        (db.store items).restart cameraId = some ⟨item.revision, item.domain, 1⟩ := by
  induction items using List.reverseRecOn with
  | nil => exact .inl rfl
  | append_singleton items item ih =>
    rw [store_snoc]
    by_cases hid : cameraId = item.cameraId
    · subst hid
      exact .inr ⟨item, by simp, rfl, Function.update_self ..⟩
    · rw [Function.update_of_ne hid]
      exact ih.imp_right fun ⟨other, hmem, h⟩ => ⟨other, List.mem_append_left _ hmem, h⟩

/-- An operation that takes no checkpoint of the camera away. -/
def Keeps (db : PolicyDb) (op : PolicyOp) (cameraId : String) : Prop :=
  db.accepts op = true → op ≠ .discard cameraId ∧ ∀ item, op = .consume item → item.cameraId ≠ cameraId

/-- What an operation does to the checkpoint of a camera. -/
theorem next_restart (db : PolicyDb) (op : PolicyOp) (cameraId : String) {row : CheckpointRow}
    (h : (db.next op).restart cameraId = some row) :
    (db.restart cameraId = some row ∧ db.Keeps op cameraId) ∨
      ∃ items, op = .save items ∧ db.accepts op = true ∧ ∃ item ∈ items, item.cameraId = cameraId ∧
        row = ⟨item.revision, item.domain, 1⟩ ∧ db.readFor cameraId = ⟨.native, .blocked, item.revision⟩ := by
  cases haccepts : db.accepts op with
  | false =>
    rw [next_refused haccepts] at h
    exact .inl ⟨h, fun hacc => by rw [haccepts] at hacc; cases hacc⟩
  | true =>
    cases step_effect (accepts_iff.mp haccepts) with
    | changed id result _ hrestart hop hdiscard =>
      rw [hrestart] at h
      exact .inl ⟨h, fun _ => ⟨hdiscard cameraId, fun item hitem => absurd hitem (hop item)⟩⟩
    | consumed item result _ hop _ _ hrestart =>
      rw [hrestart] at h
      by_cases hid : cameraId = item.cameraId
      · rw [hid, Function.update_self] at h
        cases h
      · rw [Function.update_of_ne hid] at h
        subst hop
        refine .inl ⟨h, fun _ => ⟨nofun, fun other hother => ?_⟩⟩
        cases hother
        exact Ne.symm hid
    | saved items hop _ _ hrestart hitems =>
      subst hop
      rw [hrestart] at h
      rcases db.store_get items cameraId with hsame | ⟨item, hmem, hid, hrow⟩
      · rw [hsame] at h
        exact .inl ⟨h, fun _ => ⟨nofun, fun _ hother => (nomatch hother)⟩⟩
      · rw [hrow] at h
        cases h
        subst hid
        exact .inr ⟨items, rfl, rfl, item, hmem, rfl, rfl, hitems item hmem⟩
    | discarded id hop _ _ hrestart =>
      rw [hrestart] at h
      by_cases hid : cameraId = id
      · rw [hid, Function.update_self] at h
        cases h
      · rw [Function.update_of_ne hid] at h
        subst hop
        refine .inl ⟨h, fun _ => ⟨fun hdiscard => hid ?_, fun _ hother => (nomatch hother)⟩⟩
        cases hdiscard
        rfl
    | registry _ hrestart hop =>
      rw [hrestart] at h
      refine .inl ⟨h, fun _ => ?_⟩
      rcases hop with ⟨id, rfl⟩ | ⟨id, rfl⟩
      · exact ⟨nofun, fun _ hother => (nomatch hother)⟩
      · exact ⟨nofun, fun _ hother => (nomatch hother)⟩

/-- The checkpoint was saved by an accepted `save` of the run, and nothing took it
away since. -/
structure SavedBy (start : PolicyDb) (ops pre : List PolicyOp) (items : List CleanRestart) (mid : List PolicyOp)
    (item : CleanRestart) : Prop where
  split : ops = pre ++ .save items :: mid
  accepted : (start.exec pre).accepts (.save items) = true
  mem : item ∈ items
  current : (start.exec pre).readFor item.cameraId = ⟨.native, .blocked, item.revision⟩
  kept : ∀ before op after, mid = before ++ op :: after →
    (start.exec (pre ++ .save items :: before)).Keeps op item.cameraId

theorem SavedBy.snoc {start : PolicyDb} {ops pre mid : List PolicyOp} {items : List CleanRestart} {item : CleanRestart}
    (h : SavedBy start ops pre items mid item) {op : PolicyOp} (hop : (start.exec ops).Keeps op item.cameraId) :
    SavedBy start (ops ++ [op]) pre items (mid ++ [op]) item := by
  refine ⟨by rw [h.split, List.append_assoc, List.cons_append], h.accepted, h.mem, h.current, fun before o after hsplit => ?_⟩
  rcases List.eq_nil_or_concat after with rfl | ⟨rest, last, rfl⟩
  · obtain ⟨rfl, hlast⟩ := List.append_inj' hsplit rfl
    cases hlast
    rw [← h.split]
    exact hop
  · rw [List.concat_eq_append, ← List.cons_append, ← List.append_assoc] at hsplit
    exact h.kept before o rest (List.append_inj' hsplit rfl).1

/-- From an empty table, every checkpoint in it was saved and kept. -/
theorem restart_saved {start : PolicyDb} (hempty : ∀ id, start.restart id = none) (ops : List PolicyOp) {cameraId : String}
    {row : CheckpointRow} (h : (start.exec ops).restart cameraId = some row) :
    ∃ pre items mid, SavedBy start ops pre items mid ⟨cameraId, row.revision, row.domain⟩ := by
  induction ops using List.reverseRecOn with
  | nil =>
    rw [show start.exec [] = start from rfl, hempty] at h
    cases h
  | append_singleton ops op ih =>
    rw [exec_snoc] at h
    rcases (start.exec ops).next_restart op cameraId h with ⟨hwas, hkeeps⟩ | ⟨items, rfl, haccepts, item, hmem, rfl, rfl, hreads⟩
    · obtain ⟨pre, items, mid, hsaved⟩ := ih hwas
      exact ⟨pre, items, mid ++ [op], hsaved.snoc hkeeps⟩
    · exact ⟨ops, items, [], rfl, haccepts, hmem, hreads, fun before _ _ hsplit => by simp at hsplit⟩

/-- An accepted `consume` spends a checkpoint that was saved, while its row stood
still. -/
theorem consumed_saved {start : PolicyDb} (hempty : ∀ id, start.restart id = none) (ops : List PolicyOp)
    {item : CleanRestart} (h : (start.exec ops).accepts (.consume item) = true) :
    (start.exec ops).cameras item.cameraId = true ∧
      (start.exec ops).readFor item.cameraId = ⟨.native, .blocked, item.revision⟩ ∧
      ∃ pre items mid, SavedBy start ops pre items mid item ∧
        ∀ before after, mid = before ++ after →
          (start.exec (pre ++ .save items :: before)).readFor item.cameraId = ⟨.native, .blocked, item.revision⟩ := by
  cases step_effect (accepts_iff.mp h) with
  | changed id result _ _ hop => exact absurd rfl (hop item)
  | saved items hop => cases hop
  | discarded id hop => cases hop
  | registry _ _ hop => rcases hop with ⟨id, hop⟩ | ⟨id, hop⟩ <;> cases hop
  | consumed other result hchanges hop hrow hold =>
    cases hop
    obtain ⟨pre, items, mid, hsaved⟩ := restart_saved hempty ops hrow
    refine ⟨hchanges.registered, hold, pre, items, mid, hsaved, fun before after hsplit => ?_⟩
    have hpre := hsaved.current
    -- the revision is the same at both ends, so it is the same in between
    have hrest : ops = pre ++ (.save items :: before) ++ after := by
      rw [hsaved.split, hsplit, List.append_assoc, List.cons_append]
    have hfirst := (start.exec pre).revision_exec (.save items :: before) item.cameraId
    have hsecond := (start.exec (pre ++ .save items :: before)).revision_exec after item.cameraId
    rw [← exec_append] at hfirst
    rw [← exec_append, ← hrest] at hsecond
    rw [hpre] at hfirst
    rw [hold] at hsecond
    have hpolicy := hfirst.2 hsecond.1
    rw [readFor, hpolicy]
    exact hpre

/-! ## Runs -/

/-- Tables from which runs start: any cameras, any rows, no checkpoint. -/
def opening (cameras : String → Bool) (policy : String → Option PolicyRow) : PolicyDb := { cameras, policy }

/-- One change in every place: the row stays, or its accepted change raises the
revision by one and moves the phase as that change may. -/
def Advances (db : PolicyDb) (op : PolicyOp) (cameraId : String) : Prop :=
  (db.next op).policy cameraId = db.policy cameraId ∨
    db.accepts op = true ∧ op.target = some (cameraId, (db.readFor cameraId).revision) ∧
      ((db.next op).readFor cameraId).revision = (db.readFor cameraId).revision + 1 ∧
      op.Moves (db.readFor cameraId).phase ((db.next op).readFor cameraId).phase

theorem advances (db : PolicyDb) (op : PolicyOp) (cameraId : String) : db.Advances op cameraId := by
  rcases db.next_policy op cameraId with hsame | ⟨haccepts, result, h⟩
  · exact .inl hsame
  · refine .inr ⟨haccepts, h.target, ?_, ?_⟩
    · rw [h.reads]
      exact h.revision
    · rw [h.reads]
      exact h.moves

/-- Of two changes with one expected revision, the later is refused. -/
theorem later_refused (db : PolicyDb) {op later : PolicyOp} (between : List PolicyOp) {cameraId : String} {expected : Int}
    (hop : op.target = some (cameraId, expected)) (hlater : later.target = some (cameraId, expected))
    (haccepts : db.accepts op = true) : ((db.next op).exec between).accepts later = false := by
  obtain ⟨hrevision, result, h⟩ := accepted_changes haccepts hop
  have hmoved := ((db.next op).revision_exec between cameraId).1
  rw [h.reads, h.revision, hrevision] at hmoved
  cases hboth : ((db.next op).exec between).accepts later with
  | false => rfl
  | true =>
    have hback := (accepted_changes hboth hlater).1
    omega

/-- A native row that is blocked leaves that phase by `consume` alone. -/
theorem leaves_blocked {db : PolicyDb} {op : PolicyOp} {cameraId : String} (hblocked : (db.readFor cameraId).phase = .blocked)
    (hleft : ((db.next op).readFor cameraId).phase ≠ .blocked) :
    ∃ item, op = .consume item ∧ db.accepts op = true ∧ item.cameraId = cameraId ∧
      item.revision = (db.readFor cameraId).revision := by
  rcases db.advances op cameraId with hsame | ⟨haccepts, htarget, -, hmoves⟩
  · rw [readFor, hsame] at hleft
    exact absurd hblocked hleft
  · rw [hblocked] at hmoves
    cases op with
    | consume item =>
      have hpair := Option.some.inj htarget
      exact ⟨item, rfl, haccepts, congrArg Prod.fst hpair, congrArg Prod.snd hpair⟩
    | beginChange => exact absurd hmoves.1 (by decide)
    | activate => exact absurd hmoves.1 (by decide)
    | block => rcases hmoves.1 with h | h <;> exact absurd h (by decide)
    | save => exact absurd hmoves id
    | discard => exact absurd hmoves id
    | register => exact absurd hmoves id
    | remove => exact absurd hmoves id

/-- **Source policy is a linear history.** After any operations of any callers:
every row stays or advances by one along its phases; of two changes with the same
expected revision at most one is accepted and the other leaves the tables alone; a
blocked native row goes on only through `consume` of a checkpoint saved for that
camera, revision and domain; a checkpoint is spent once, while the camera is
registered, with no discard, no other spending and no change of the row since it
was saved; and a malformed row permits nothing and stays. -/
theorem linear_history (cameras : String → Bool) (policy : String → Option PolicyRow) (ops : List PolicyOp) :
    let db := (opening cameras policy).exec ops
    (∀ op cameraId, db.Advances op cameraId) ∧
    (∀ op between later cameraId expected, op.target = some (cameraId, expected) →
      later.target = some (cameraId, expected) → db.accepts op = true →
      ((db.next op).exec between).accepts later = false ∧
        ((db.next op).exec between).next later = (db.next op).exec between) ∧
    (∀ op cameraId, (db.readFor cameraId).mode = .native → (db.readFor cameraId).phase = .blocked →
      ((db.next op).readFor cameraId).phase ≠ .blocked →
      ∃ item, op = .consume item ∧ item.cameraId = cameraId ∧ item.revision = (db.readFor cameraId).revision ∧
        ∃ pre items mid, SavedBy (opening cameras policy) ops pre items mid item) ∧
    (∀ item, db.accepts (.consume item) = true → db.cameras item.cameraId = true ∧
      ∃ pre items mid, SavedBy (opening cameras policy) ops pre items mid item ∧
        ∀ before after, mid = before ++ after →
          ((opening cameras policy).exec (pre ++ .save items :: before)).readFor item.cameraId =
            ⟨.native, .blocked, item.revision⟩) ∧
    ∀ cameraId row, db.policy cameraId = some row → row.Malformed →
      (db.readFor cameraId).permitsLegacyRtsp = false ∧ ∀ op, (db.next op).policy cameraId = some row := by
  intro db
  have hconsumed (item : CleanRestart) (h : db.accepts (.consume item) = true) :=
    consumed_saved (fun _ => rfl) ops h
  refine ⟨db.advances, fun op between later cameraId expected hop hlater haccepts => ?_,
    fun op cameraId _ hblocked hleft => ?_, fun item h => ?_, fun cameraId row hrow hbad => ⟨?_, malformed_next hrow hbad⟩⟩
  · have hrefused := db.later_refused between hop hlater haccepts
    exact ⟨hrefused, next_refused hrefused⟩
  · obtain ⟨item, rfl, haccepts, hid, hrevision⟩ := leaves_blocked hblocked hleft
    obtain ⟨-, -, pre, items, mid, hsaved, -⟩ := hconsumed item haccepts
    exact ⟨item, rfl, hid, hrevision, pre, items, mid, hsaved⟩
  · obtain ⟨hcamera, -, hrest⟩ := hconsumed item h
    exact ⟨hcamera, hrest⟩
  · rw [readFor, hrow, selection_malformed hbad]
    rfl

/-- A checkpoint saved before its camera was removed is spent after the same
camera was registered again. -/
theorem removal_keeps_checkpoint :
    let id := "cam_0123456789abcdef01234567"
    let item : CleanRestart := ⟨id, 3, "yoosee/domain"⟩
    let pre : List PolicyOp := [.register id, .beginChange id "native" 0, .activate id 1, .block id 2]
    let start := opening (fun _ => false) (fun _ => none)
    (start.exec pre).accepts (.save [item]) = true ∧
      (start.exec (pre ++ (.save [item] :: [.remove id] : List PolicyOp))).accepts (.consume item) = false ∧
      (start.exec (pre ++ (.save [item] :: [.remove id, .register id] : List PolicyOp))).accepts (.consume item) = true := by
  decide +kernel

end PolicyDb

end CamGuard.Source
