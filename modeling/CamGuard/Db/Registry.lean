/-
The camera registry (`registry.py`) under concurrent callers. Every statement is a
transaction of its own; `upsert_camera` reads the row in one connection and writes the
whole row in another, and `reconcile` looks for the camera before that in one of its own,
so something else can come between.

A row is the camera that it decodes to (`_row_to_camera`), without its timestamps: a
password is encrypted under a fresh nonce each time it is written, and what is written
decodes to what was given. The arguments of `upsert_camera` are taken as they are behind
its first lines, with the MAC in lower case and the derived ID.
-/
import CamGuard.CameraIdentity
import CamGuard.Lib.Dict
import CamGuard.Lib.Json

namespace CamGuard.Db

def DEFAULT_USERNAME : String := "admin"
def DEFAULT_RTSP_PORT : Int := 554

/-- A public camera ID. -/
structure CameraId where
  value : String
  valid : validCameraId value = true
  deriving DecidableEq

@[ext] structure Camera where
  mac : String := ""
  name : String := ""
  username : String := DEFAULT_USERNAME
  password : String := ""
  streamPath : String := ""
  rtspPort : Int := DEFAULT_RTSP_PORT
  lastIp : String := ""
  vendor : String := ""
  capabilities : Json := .dict []

/-- The arguments of `upsert_camera`. -/
structure Upsert where
  mac : String := ""
  derivedId : CameraId
  name : Option String := none
  username : Option String := none
  password : Option String := none
  streamPath : Option String := none
  rtspPort : Option Int := none
  lastIp : Option String := none
  vendor : Option String := none
  capabilities : Option Json := none

/-- The fields that are provided, in a camera. -/
def Upsert.edit (u : Upsert) (camera : Camera) : Camera where
  mac := if u.mac = "" then camera.mac else u.mac
  name := u.name.getD camera.name
  username := u.username.getD camera.username
  password := u.password.getD camera.password
  streamPath := u.streamPath.getD camera.streamPath
  rtspPort := u.rtspPort.getD camera.rtspPort
  lastIp := u.lastIp.getD camera.lastIp
  vendor := u.vendor.getD camera.vendor
  capabilities := u.capabilities.getD camera.capabilities

/-- The table, with its index on the MAC: no two rows have one, unless it is empty. -/
structure Registry where
  rows : Dict CameraId Camera
  unique : ∀ a b x y, rows.get? a = some x → rows.get? b = some y → x.mac = y.mac → x.mac ≠ "" → a = b

namespace Registry

def getCameraById (r : Registry) (id : CameraId) : Option Camera := r.rows.get? id

def getCamera (r : Registry) (mac : String) : Option (CameraId × Camera) :=
  if mac = "" then none else r.rows.entries.find? fun e => e.2.mac = mac

/-- The row that `upsert_camera` finds. -/
def existing (r : Registry) (u : Upsert) : Option (CameraId × Camera) :=
  match r.getCameraById u.derivedId with
  | some camera => some (u.derivedId, camera)
  | none => r.getCamera u.mac

/-- The row that it will write. -/
def prepared (u : Upsert) : Option (CameraId × Camera) → CameraId × Camera
  | none => (u.derivedId, u.edit { mac := u.mac })
  | some (id, camera) => (id, u.edit camera)

/-- Another row has this MAC. -/
def taken (r : Registry) (id : CameraId) (mac : String) : Bool :=
  decide (mac ≠ "") && r.rows.entries.any fun e => decide (e.1 ≠ id) && decide (e.2.mac = mac)

theorem not_taken {r : Registry} {id : CameraId} {mac : String} (h : r.taken id mac = false) {other : CameraId} {camera : Camera}
    (hother : r.rows.get? other = some camera) (hmac : camera.mac = mac) (hne : mac ≠ "") : other = id := by
  by_contra hdiff
  rw [taken, Bool.and_eq_false_iff, decide_eq_false_iff_not, not_not, List.any_eq_false] at h
  rcases h with h | h
  · exact hne h
  · exact h _ (Dict.get?_eq_some.mp hother) (by simp [hdiff, hmac])

/-- A row is written. -/
def put (r : Registry) (id : CameraId) (camera : Camera) (h : r.taken id camera.mac = false) : Registry where
  rows := r.rows.set id camera
  unique a b x y ha hb hmac hne := by
    rw [Dict.get?_set] at ha hb
    split at ha <;> split at hb
    next heq heq' => exact heq.trans heq'.symm
    next heq _ =>
      cases ha
      exact heq.trans (not_taken h hb hmac.symm hne).symm
    next _ heq =>
      cases hb
      exact (not_taken h ha hmac (hmac ▸ hne)).trans heq.symm
    next => exact r.unique a b x y ha hb hmac hne

/-- The `INSERT` with its `ON CONFLICT`; it fails on the index of the MAC. -/
def write (r : Registry) (id : CameraId) (camera : Camera) : Registry :=
  if h : r.taken id camera.mac = false then r.put id camera h else r

/-- `delete_camera_by_id`. -/
def deleteCameraById (r : Registry) (id : CameraId) : Registry where
  rows := r.rows.erase id
  unique a b x y ha hb hmac hne := by
    rw [Dict.get?_erase] at ha hb
    split at ha
    · cases ha
    split at hb
    · cases hb
    exact r.unique a b x y ha hb hmac hne

/-- A row's own MAC is not another's. -/
theorem own_mac {r : Registry} {id : CameraId} {camera : Camera} (h : r.rows.get? id = some camera) : r.taken id camera.mac = false := by
  by_contra htaken
  rw [Bool.not_eq_false, taken, Bool.and_eq_true, decide_eq_true_eq, List.any_eq_true] at htaken
  obtain ⟨hne, ⟨other, row⟩, hmem, hother⟩ := htaken
  rw [Bool.and_eq_true, decide_eq_true_eq, decide_eq_true_eq] at hother
  exact hother.1 (r.unique other id row camera (Dict.get?_eq_some.mpr hmem) h hother.2 (hother.2 ▸ hne))

/-- `refresh_address`, for the camera with this ID as it was seen. -/
def refreshAddress (r : Registry) (id : CameraId) (seen : Camera) (ip : String) : Registry :=
  match h : r.rows.get? id with
  | some camera =>
    if camera.mac = seen.mac ∧ camera.lastIp = seen.lastIp then
      r.put id { camera with lastIp := ip } (show r.taken id camera.mac = false from own_mac h)
    else r
  | none => r

end Registry

/-! ## Operations and their steps -/

inductive Op where
  | upsert (u : Upsert)
  | delete (id : CameraId)
  | refresh (id : CameraId) (seen : Camera) (ip : String)
  /-- What `reconcile` does for one host, which ARP knows by no other MAC. -/
  | reconcile (mac : String) (derivedId : CameraId) (address : String)

/-- The `upsert_camera` of `reconcile`. -/
def readdress (mac : String) (derivedId : CameraId) (address : String) : Upsert where
  mac := mac
  derivedId := derivedId
  lastIp := some address

/-- How many transactions an operation makes, at most. -/
def Op.steps : Op → Nat
  | .upsert _ => 2
  | .reconcile .. => 3
  | _ => 1

/-- Where an operation is. -/
inductive Progress where
  | ready (op : Op)
  /-- `reconcile` has found the camera. -/
  | found (u : Upsert)
  /-- The row is read, and the new one is not written yet. -/
  | writing (id : CameraId) (camera : Camera)
  | done

/-- The next transaction of an operation. -/
def advance (r : Registry) : Progress → Registry × Progress
  | .ready (.upsert u) | .found u =>
    let (id, camera) := Registry.prepared u (r.existing u)
    (r, .writing id camera)
  | .ready (.delete id) => (r.deleteCameraById id, .done)
  | .ready (.refresh id seen ip) => (r.refreshAddress id seen ip, .done)
  | .ready (.reconcile mac derivedId address) =>
    -- a host that is not registered is offered to the user
    if (r.getCamera mac).isNone then (r, .done) else (r, .found (readdress mac derivedId address))
  | .writing id camera => (r.write id camera, .done)
  | .done => (r, .done)

/-- `upsert_camera` alone. -/
def Registry.upsertCamera (r : Registry) (u : Upsert) : Registry :=
  let (id, camera) := prepared u (r.existing u)
  r.write id camera

/-- An operation alone. -/
def exec (r : Registry) : Op → Registry
  | .upsert u => r.upsertCamera u
  | .delete id => r.deleteCameraById id
  | .refresh id seen ip => r.refreshAddress id seen ip
  | .reconcile mac derivedId address =>
    if (r.getCamera mac).isNone then r else r.upsertCamera (readdress mac derivedId address)

/-- Two operations at work. -/
structure Race where
  registry : Registry
  first : Progress
  second : Progress

/-- The first operation goes on, or the second does. -/
def Race.step (s : Race) : Bool → Race
  | true =>
    let (registry, first) := advance s.registry s.first
    { s with registry := registry, first := first }
  | false =>
    let (registry, second) := advance s.registry s.second
    { s with registry := registry, second := second }

def race (r : Registry) (a b : Op) (schedule : List Bool) : Registry :=
  (schedule.foldl Race.step ⟨r, .ready a, .ready b⟩).registry

/-- The same rows. -/
def Registry.Same (r r' : Registry) : Prop := ∀ id, r.rows.get? id = r'.rows.get? id

/-- An interleaving ends as one of the two serial orders. -/
def Serialisable (r : Registry) (a b : Op) (schedule : List Bool) : Prop :=
  (race r a b schedule).Same (exec (exec r a) b) ∨ (race r a b schedule).Same (exec (exec r b) a)

end CamGuard.Db
