/-
The durable intent of a camera's source (`source_policy.py`) and the one-use
checkpoints of a clean native retirement (`native_restart.py`): two tables beside
the table of cameras, and six operations, each one serialised transaction. A
transaction that is refused changes nothing.

A row is what the database holds, which is any text and any number: `selection`
reads it, and reads what it cannot accept as blocked.
-/
import CamGuard.CameraIdentity
import Mathlib.Algebra.Group.Int.Defs
import Mathlib.Algebra.Group.Nat.Defs
import Mathlib.Data.List.Nodup
import Mathlib.Logic.Function.Basic

namespace CamGuard.Source

/-- The source's mode. -/
inductive Mode where
  | legacyRtsp
  | ownedRtsp
  | native
  deriving DecidableEq, Repr

/-- The phase of a change. -/
inductive Phase where
  | active
  | transition
  | blocked
  deriving DecidableEq, Repr

def Mode.text : Mode → String
  | .legacyRtsp => "legacy_rtsp"
  | .ownedRtsp => "owned_rtsp"
  | .native => "native"

def Phase.text : Phase → String
  | .active => "active"
  | .transition => "transition"
  | .blocked => "blocked"

/-- `MODES`. -/
def Mode.ofText? (text : String) : Option Mode :=
  [Mode.legacyRtsp, .ownedRtsp, .native].find? fun mode => mode.text = text

/-- `PHASES`. -/
def Phase.ofText? (text : String) : Option Phase :=
  [Phase.active, .transition, .blocked].find? fun phase => phase.text = text

def MAX_REVISION : Int := 2 ^ 63 - 1

/-- A row of the source policy. -/
structure Selection where
  mode : Mode := .legacyRtsp
  phase : Phase := .active
  revision : Int := 0
  deriving DecidableEq, Repr

def Selection.permitsLegacyRtsp (s : Selection) : Bool := s.mode = .legacyRtsp ∧ s.phase = .active

/-- What a cell of an INTEGER column reads as. The column turns every whole number
it can hold into an integer, so what else is there equals no integer. -/
inductive Cell where
  | int (n : Int)
  | other
  deriving DecidableEq, Repr

/-- A row of `media_source_policy`. -/
structure PolicyRow where
  mode : String
  phase : String
  revision : Cell
  deriving DecidableEq, Repr

/-- The row of a selection. -/
def Selection.row (s : Selection) : PolicyRow := ⟨s.mode.text, s.phase.text, .int s.revision⟩

/-- What a row says, if it says anything. -/
def PolicyRow.read? (row : PolicyRow) : Option Selection := do
  let mode ← Mode.ofText? row.mode
  let phase ← Phase.ofText? row.phase
  match row.revision with
  | .int n => if 1 ≤ n ∧ n ≤ MAX_REVISION then some ⟨mode, phase, n⟩ else none
  | .other => none

/-- `_selection`. -/
def selection (row : Option PolicyRow) : Selection :=
  match row with
  | none => {}
  | some row => row.read?.getD { phase := .blocked, revision := -1 }

/-- A row of `media_native_restart`. -/
structure CheckpointRow where
  revision : Int
  domain : String
  version : Int
  deriving DecidableEq, Repr

/-- `CleanRestart`. -/
structure CleanRestart where
  cameraId : String
  revision : Int
  domain : String
  deriving DecidableEq, Repr

/-- How an operation is refused: a `ValueError` with its text, or a
`SourcePolicyConflict`. -/
inductive PolicyFault where
  | identity
  | revision
  | mode
  | configured
  | changed
  | checkpoint
  | batch
  | generation
  | cameraIdentity
  | required
  deriving DecidableEq, Repr

def PolicyFault.reason : PolicyFault → String
  | .identity => "public camera ID required"
  | .revision => "valid source revision required"
  | .mode => "supported source mode required"
  | .configured => "configured camera required"
  | .changed => "source policy revision or phase changed"
  | .checkpoint => "valid native checkpoint identity/revision/domain required"
  | .batch => "bounded unique checkpoint batch required"
  | .generation => "native retirement generation changed"
  | .cameraIdentity => "opaque camera identity required"
  | .required => "current clean native retirement required"

/-- The three tables. -/
structure PolicyDb where
  cameras : String → Bool := fun _ => false
  policy : String → Option PolicyRow := fun _ => none
  restart : String → Option CheckpointRow := fun _ => none

namespace PolicyDb

/-- `read_for`, of one camera. -/
def readFor (db : PolicyDb) (cameraId : String) : Selection := selection (db.policy cameraId)

/-- The phases a change to `phase` may start from. -/
def required : Phase → List Phase
  | .transition => [.active]
  | .active => [.transition]
  | .blocked => [.active, .transition]

/-- `_change`. -/
def change (db : PolicyDb) (cameraId : String) (expected : Int) (phase : Phase) (mode : Option Mode) :
    Except PolicyFault (Selection × PolicyDb) :=
  if validCameraId cameraId = false then .error .identity
  else if ¬ (0 ≤ expected ∧ expected < MAX_REVISION) then .error .revision
  else if db.cameras cameraId = false then .error .configured
  else
    let old := selection (db.policy cameraId)
    if old.revision ≠ expected ∨ old.phase ∉ required phase then .error .changed
    else
      let result : Selection := ⟨mode.getD old.mode, phase, expected + 1⟩
      .ok (result, { db with policy := Function.update db.policy cameraId (some result.row) })

def beginChange (db : PolicyDb) (cameraId mode : String) (expectedRevision : Int) :
    Except PolicyFault (Selection × PolicyDb) :=
  match Mode.ofText? mode with
  | none => .error .mode
  | some mode => db.change cameraId expectedRevision .transition (some mode)

/-- `activate`. -/
def activate (db : PolicyDb) (cameraId : String) (expectedRevision : Int) : Except PolicyFault (Selection × PolicyDb) :=
  db.change cameraId expectedRevision .active none

/-- `block`. -/
def block (db : PolicyDb) (cameraId : String) (expectedRevision : Int) : Except PolicyFault (Selection × PolicyDb) :=
  db.change cameraId expectedRevision .blocked none

end PolicyDb

/-- `_validate` of `native_restart.py`. -/
def CleanRestart.valid (item : CleanRestart) : Bool :=
  validCameraId item.cameraId && decide (1 ≤ item.revision ∧ item.revision < MAX_REVISION) &&
    decide (1 ≤ item.domain.toList.length ∧ item.domain.toList.length ≤ 128) &&
    item.domain.toList.all fun c => decide (33 ≤ c.toNat ∧ c.toNat ≤ 126)

namespace PolicyDb

/-- `_current`. -/
def current (db : PolicyDb) (item : CleanRestart) : Bool :=
  match db.policy item.cameraId with
  | none => false
  | some row => decide (row.mode = "native" ∧ row.phase = "blocked" ∧ row.revision = .int item.revision) &&
      db.cameras item.cameraId

/-- The write of `save`. -/
def store (db : PolicyDb) (items : List CleanRestart) : PolicyDb :=
  { db with restart := items.foldl (fun restart item =>
      Function.update restart item.cameraId (some ⟨item.revision, item.domain, 1⟩)) db.restart }

def save (db : PolicyDb) (items : List CleanRestart) : Except PolicyFault PolicyDb :=
  if items = [] then .ok db
  else if ¬ (items.map CleanRestart.cameraId).Nodup then .error .batch
  else if items.all CleanRestart.valid = false then .error .checkpoint
  else if items.all db.current = false then .error .generation
  else .ok (db.store items)

def discard (db : PolicyDb) (cameraId : String) : Except PolicyFault PolicyDb :=
  if validCameraId cameraId = false then .error .cameraIdentity
  else .ok { db with restart := Function.update db.restart cameraId none }

def consume (db : PolicyDb) (item : CleanRestart) : Except PolicyFault (Selection × PolicyDb) :=
  if item.valid = false then .error .checkpoint
  else
    match db.restart item.cameraId with
    | none => .error .required
    | some row =>
      if row.version ≠ 1 ∨ row.revision ≠ item.revision ∨ row.domain ≠ item.domain ∨ db.current item = false then
        .error .required
      else
        let selected : Selection := ⟨.native, .transition, item.revision + 1⟩
        .ok (selected, { db with
          policy := Function.update db.policy item.cameraId
            ((db.policy item.cameraId).map fun row => { row with phase := "transition", revision := .int selected.revision })
          restart := Function.update db.restart item.cameraId none })

end PolicyDb

end CamGuard.Source
