/-
The capability evidence of the cameras (`capability_snapshot_store.py`): one row a
camera, which every call reads or writes in one statement.

The columns of a batch are written together and cleared together, so a row has all of
them or none. The identity and the evidence are what their texts decode to. A time that
is no finite number is `none`.
-/
import CamGuard.CameraIdentity
import CamGuard.Lib.Dict
import Mathlib.Algebra.Order.Field.Rat

namespace CamGuard.Db

def RULE_REVISION : Nat := 6

inductive EvidenceState where
  | supported
  | unsupported
  | unknown
  deriving DecidableEq, Repr

structure CapabilityIdentity where
  deviceId : String
  productId : String
  model : String
  revision : Int
  firmware : String
  sdk : String
  hardware : String
  deriving DecidableEq

structure PropertyEvidence where
  feature : String
  state : EvidenceState
  deriving DecidableEq

structure CapabilitySnapshot where
  cameraId : String
  identity : CapabilityIdentity
  collectedAt : Option ℚ
  evidence : List PropertyEvidence

/-- The columns of a batch. -/
structure StoredEvidence where
  identity : CapabilityIdentity
  evidence : List (String × EvidenceState)
  collectedAt : ℚ
  expiresAt : ℚ
  revision : Nat

structure SnapshotRow where
  generation : Int
  stored : Option StoredEvidence := none

/-- `[a-z][a-z0-9_]{0,63}`. -/
def validFeature (feature : String) : Bool :=
  match feature.toList with
  | [] => false
  | first :: rest => decide ('a' ≤ first ∧ first ≤ 'z') && decide (rest.length ≤ 63) &&
      rest.all fun c => decide ('a' ≤ c ∧ c ≤ 'z') || c.isDigit || decide (c = '_')

/-- The loop of `_validated_evidence`. -/
def collectEvidence (evidence : List (String × EvidenceState)) : List PropertyEvidence → Option (List (String × EvidenceState))
  | [] => some evidence
  | item :: rest =>
    if validFeature item.feature = false ∨ evidence.any fun e => decide (e.1 = item.feature) then none
    else collectEvidence (evidence ++ [(item.feature, item.state)]) rest

/-- `_time`. -/
def validTime (value : Option ℚ) : Option ℚ := value.filter fun t => decide (0 < t)

/-- `_validated_evidence`, with the other columns of the batch; `none` where it raises. -/
def validatedEvidence (snapshot : CapabilitySnapshot) (generation : Int) (expiresAt : Option ℚ) : Option StoredEvidence :=
  if validCameraId snapshot.cameraId = false ∨ generation ≤ 0 then none
  else
    match validTime snapshot.collectedAt, validTime expiresAt with
    | some collectedAt, some expiresAt =>
      if expiresAt ≤ collectedAt then none
      else (collectEvidence [] snapshot.evidence).map fun evidence => {
        identity := snapshot.identity
        evidence := evidence
        collectedAt := collectedAt
        expiresAt := expiresAt
        revision := RULE_REVISION }
    | _, _ => none

abbrev SnapshotStore := Dict String SnapshotRow

/-- What a call returns, or that it raises. -/
inductive SnapshotAnswer where
  | raised
  | ticket (generation : Int)
  | observed (generation : Option Int)
  | stored (done : Bool)
  | resolved (state : EvidenceState)
  deriving DecidableEq

namespace SnapshotStore

variable (s : SnapshotStore)

/-- `begin`. -/
def begin_ (camera : String) : SnapshotAnswer × SnapshotStore :=
  if validCameraId camera = false then (.raised, s)
  else
    let generation := match s.get? camera with
      | none => 1
      | some row => row.generation + 1
    (.ticket generation, s.set camera { generation := generation })

/-- An `UPDATE` of the rows that `change` has a new row for. -/
def update (camera : String) (change : SnapshotRow → Option SnapshotRow) : SnapshotAnswer × SnapshotStore :=
  match (s.get? camera).bind change with
  | none => (.stored false, s)
  | some row => (.stored true, s.set camera row)

/-- `save`. -/
def save (snapshot : CapabilitySnapshot) (generation : Int) (expiresAt : Option ℚ) : SnapshotAnswer × SnapshotStore :=
  match validatedEvidence snapshot generation expiresAt with
  | none => (.raised, s)
  | some stored => s.update snapshot.cameraId fun row =>
      if row.generation = generation ∧ row.stored.isNone then some { row with stored := some stored } else none

/-- `refresh_generation`. -/
def refreshGeneration (camera : String) : SnapshotAnswer :=
  if validCameraId camera = false then .raised
  else .observed (((s.get? camera).filter fun row => row.stored.any fun old => decide (old.revision = RULE_REVISION)).map
    SnapshotRow.generation)

/-- `observed_generation`. -/
def observedGeneration (camera : String) : SnapshotAnswer :=
  if validCameraId camera = false then .raised
  else .observed (some (((s.get? camera).map SnapshotRow.generation).getD 0))

/-- `publish_observation`. -/
def publishObservation (snapshot : CapabilitySnapshot) (generation : Int) (expiresAt : Option ℚ) :
    SnapshotAnswer × SnapshotStore :=
  if generation < 0 then (.raised, s)
  else
    match validatedEvidence snapshot (generation + 1) expiresAt with
    | none => (.raised, s)
    | some stored =>
      if generation = 0 then
        match s.get? snapshot.cameraId with
        | some _ => (.stored false, s)
        | none => (.stored true, s.set snapshot.cameraId ⟨1, some stored⟩)
      else s.update snapshot.cameraId fun row =>
        if row.generation = generation ∧ row.stored.all (fun old => decide (old.collectedAt ≤ stored.collectedAt)) then
          some ⟨row.generation + 1, some stored⟩
        else none

/-- `replace_current`. -/
def replaceCurrent (snapshot : CapabilitySnapshot) (generation : Int) (expiresAt : Option ℚ) :
    SnapshotAnswer × SnapshotStore :=
  match validatedEvidence snapshot generation expiresAt with
  | none => (.raised, s)
  | some stored => s.update snapshot.cameraId fun row =>
      if row.generation = generation ∧ row.stored.any (fun old =>
          decide (old.revision = RULE_REVISION) && decide (old.collectedAt ≤ stored.collectedAt)) then
        some ⟨row.generation + 1, some stored⟩
      else none

/-- `_load`. -/
def load (camera : String) (identity : CapabilityIdentity) (now : Option ℚ) : Option (List (String × EvidenceState)) :=
  (validTime now).bind fun now =>
    (((s.get? camera).bind SnapshotRow.stored).filter fun stored => decide (stored.identity = identity) &&
      decide (stored.collectedAt ≤ now) && decide (now < stored.expiresAt) && decide (stored.revision = RULE_REVISION)).map
      StoredEvidence.evidence

/-- `resolve`. -/
def resolve (camera : String) (identity : CapabilityIdentity) (feature : String) (now : Option ℚ) : EvidenceState :=
  match s.load camera identity now with
  | none => .unknown
  | some values => ((values.find? fun e => decide (e.1 = feature)).map Prod.snd).getD .unknown

end SnapshotStore

/-! ## Runs -/

/-- What a collector asks of the store. -/
inductive SnapshotCall where
  | begin_ (camera : String)
  | save (snapshot : CapabilitySnapshot) (generation : Int) (expiresAt : Option ℚ)
  | refreshGeneration (camera : String)
  | observedGeneration (camera : String)
  | publishObservation (snapshot : CapabilitySnapshot) (generation : Int) (expiresAt : Option ℚ)
  | replaceCurrent (snapshot : CapabilitySnapshot) (generation : Int) (expiresAt : Option ℚ)
  | resolve (camera : String) (identity : CapabilityIdentity) (feature : String) (now : Option ℚ)

/-- The snapshot that a call publishes, with its expiry. -/
def SnapshotCall.published : SnapshotCall → Option (CapabilitySnapshot × Option ℚ)
  | .save snapshot _ expiresAt => some (snapshot, expiresAt)
  | .publishObservation snapshot _ expiresAt => some (snapshot, expiresAt)
  | .replaceCurrent snapshot _ expiresAt => some (snapshot, expiresAt)
  | _ => none

namespace SnapshotStore

def step (s : SnapshotStore) : SnapshotCall → SnapshotAnswer × SnapshotStore
  | .begin_ camera => s.begin_ camera
  | .save snapshot generation expiresAt => s.save snapshot generation expiresAt
  | .refreshGeneration camera => (s.refreshGeneration camera, s)
  | .observedGeneration camera => (s.observedGeneration camera, s)
  | .publishObservation snapshot generation expiresAt => s.publishObservation snapshot generation expiresAt
  | .replaceCurrent snapshot generation expiresAt => s.replaceCurrent snapshot generation expiresAt
  | .resolve camera identity feature now => (.resolved (s.resolve camera identity feature now), s)

/-- The store after the calls of all collectors. -/
def run (table : SnapshotStore) (calls : List SnapshotCall) : SnapshotStore := calls.foldl (fun s call => (s.step call).2) table

/-- What a call after these returns. -/
def answer (table : SnapshotStore) (before : List SnapshotCall) (call : SnapshotCall) : SnapshotAnswer :=
  ((run table before).step call).1

/-- A call after these has changed the evidence of the camera: a `begin`, or a publication
that succeeds. -/
def Changed (table : SnapshotStore) (camera : String) (before : List SnapshotCall) (call : SnapshotCall) : Prop :=
  (call = .begin_ camera ∧ answer table before call ≠ .raised) ∨
    answer table before call = .stored true ∧ ∃ snapshot expiresAt, call.published = some (snapshot, expiresAt) ∧
      snapshot.cameraId = camera

end SnapshotStore

end CamGuard.Db
