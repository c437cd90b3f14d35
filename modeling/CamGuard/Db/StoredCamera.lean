/-
The columns of the camera table (`registry.py`): a row is decoded when it is read, with
the password decrypted under the current key, and `upsert_camera` writes the whole row
again. What is written decodes to what was given (`decode_encode`), but what is stored need
not decode: a password under another key reads as none, and is stored as none, so an edit
that does not mention it erases it (`upsert_keeps_iff`).

Fernet, on texts in UTF-8, and the JSON codec are parameters.
-/
import CamGuard.Db.Registry
import CamGuard.Lib.JsonValue

namespace CamGuard.Db

/-! ## The codecs -/

/-- What `decrypt(token).decode("utf-8")` gives: a text, `InvalidToken` or a
`UnicodeDecodeError`. -/
inductive Decrypted where
  | text (plain : String)
  | invalidToken
  | undecodable
  deriving DecidableEq, Repr

/-- Fernet with keys in `κ`; what a token draws (its time and IV) is a number. -/
structure Fernet (κ : Type) where
  encrypt : κ → Nat → String → Bytes
  decrypt : κ → Bytes → Decrypted

/-- A token decrypts under its key and under no other, and is not empty. -/
structure Fernet.Lawful {κ : Type} (fernet : Fernet κ) : Prop where
  decrypt_encrypt : ∀ key noise plain, fernet.decrypt key (fernet.encrypt key noise plain) = .text plain
  decrypt_other : ∀ key other noise plain, key ≠ other →
    fernet.decrypt key (fernet.encrypt other noise plain) = .invalidToken
  encrypt_ne : ∀ key noise plain, fernet.encrypt key noise plain ≠ []

/-- `json.loads` of a text, none where it raises, and `json.dumps`. -/
structure JsonText where
  loads : String → Option Json
  dumps : Json → String

/-! ## Rows -/

structure StoredCamera where
  mac : String
  name : String
  username : String
  passwordEnc : Option Bytes
  streamPath : String
  rtspPort : Int
  lastIp : String
  vendor : String
  capabilities : String
  createdAt : String
  updatedAt : String
  deriving DecidableEq

/-- The error of a call. -/
inductive StoredFault where
  | unicode
  | integrity
  deriving DecidableEq, Repr

section

variable {κ : Type} (fernet : Fernet κ) (json : JsonText)

/-- `_encrypt`, of a password that may be empty. -/
def encryptPassword (key : κ) (noise : Nat) (password : String) : Option Bytes :=
  if password = "" then none else some (fernet.encrypt key noise password)

/-- `_decrypt`. -/
def decryptPassword (key : κ) (token : Option Bytes) : Except StoredFault String :=
  match token with
  | none => .ok ""
  | some [] => .ok ""
  | some token =>
    match fernet.decrypt key token with
    | .text plain => .ok plain
    | .invalidToken => .ok ""
    | .undecodable => .error .unicode

/-- `_load_caps`. -/
def loadCaps (raw : String) : Json :=
  if raw = "" then .dict []
  else
    match json.loads raw with
    | some (.dict entries) => .dict entries
    | _ => .dict []

/-- The text of a camera's capabilities. -/
def dumpCaps (capabilities : Json) : String := if capabilities.truthy then json.dumps capabilities else ""

/-- `_row_to_camera`, without the timestamps. -/
def rowToCamera (key : κ) (row : StoredCamera) : Except StoredFault Camera :=
  match decryptPassword fernet key row.passwordEnc with
  | .error fault => .error fault
  | .ok password => .ok {
    mac := row.mac
    name := row.name
    username := row.username
    password := password
    streamPath := row.streamPath
    rtspPort := row.rtspPort
    lastIp := row.lastIp
    vendor := row.vendor
    capabilities := loadCaps json row.capabilities }

/-- The row that `upsert_camera` writes. -/
def cameraToRow (key : κ) (noise : Nat) (createdAt updatedAt : String) (camera : Camera) : StoredCamera where
  mac := camera.mac
  name := camera.name
  username := camera.username
  passwordEnc := encryptPassword fernet key noise camera.password
  streamPath := camera.streamPath
  rtspPort := camera.rtspPort
  lastIp := camera.lastIp
  vendor := camera.vendor
  capabilities := dumpCaps json camera.capabilities
  createdAt := createdAt
  updatedAt := updatedAt

abbrev CameraTable := Dict CameraId StoredCamera

namespace CameraTable

/-- The row with a MAC, which the index makes the only one. -/
def withMac (t : CameraTable) (mac : String) : Option (CameraId × StoredCamera) :=
  if mac = "" then none else t.entries.find? fun e => e.2.mac = mac

/-- The row that `upsert_camera` finds. -/
def existing (t : CameraTable) (u : Upsert) : Option (CameraId × StoredCamera) :=
  match t.get? u.derivedId with
  | some row => some (u.derivedId, row)
  | none => t.withMac u.mac

/-- Another row has this MAC. -/
def taken (t : CameraTable) (id : CameraId) (mac : String) : Bool :=
  decide (mac ≠ "") && t.entries.any fun e => decide (e.1 ≠ id) && decide (e.2.mac = mac)

/-- The `INSERT` with its `ON CONFLICT`, which leaves `created_at` as it is. -/
def insert (t : CameraTable) (id : CameraId) (row : StoredCamera) : Except StoredFault Unit × CameraTable :=
  if t.taken id row.mac then (.error .integrity, t)
  else
    let createdAt := ((t.get? id).map StoredCamera.createdAt).getD row.createdAt
    (.ok (), t.set id { row with createdAt := createdAt })

/-- `upsert_camera` at `now`. -/
def upsertCamera (key : κ) (noise : Nat) (now : String) (t : CameraTable) (u : Upsert) :
    Except StoredFault Camera × CameraTable :=
  let found : Except StoredFault (CameraId × String × Camera) :=
    match t.existing u with
    | none => .ok (u.derivedId, now, { mac := u.mac })
    | some (id, row) => (rowToCamera fernet json key row).map fun camera => (id, row.createdAt, camera)
  match found with
  | .error fault => (.error fault, t)
  | .ok (id, createdAt, camera) =>
    match t.insert id (cameraToRow fernet json key noise createdAt now (u.edit camera)) with
    | (.error fault, t) => (.error fault, t)
    | (.ok (), t) => (.ok (u.edit camera), t)

end CameraTable

end

end CamGuard.Db
