/-
What an edit of the camera table keeps. The row an edit reaches is rewritten as it decodes;
an edit that gives no password keeps the credential exactly if its password, unless empty,
was stored under the key that is current, and a column of capabilities that it does not
give exactly if the codec gives its text back (`upsert_keeps_iff`).
-/
import CamGuard.Db.StoredCamera

namespace CamGuard.Db

section

variable {κ : Type} {fernet : Fernet κ} {json : JsonText} {key : κ} {t : CameraTable} {u : Upsert} {id : CameraId}
variable {row : StoredCamera} {noise : Nat} {now : String}

theorem encryptPassword_empty : encryptPassword fernet key noise "" = none := if_pos rfl

theorem encryptPassword_some {password : String} (h : password ≠ "") :
    encryptPassword fernet key noise password = some (fernet.encrypt key noise password) := if_neg h

theorem decryptPassword_encrypt (hfernet : fernet.Lawful) (written : κ) (plain : String) :
    decryptPassword fernet key (some (fernet.encrypt written noise plain)) =
      match fernet.decrypt key (fernet.encrypt written noise plain) with
      | .text plain => .ok plain
      | .invalidToken => .ok ""
      | .undecodable => .error .unicode := by
  have hne := hfernet.encrypt_ne written noise plain
  unfold decryptPassword
  split
  · rename_i heq
    cases heq
  · rename_i heq
    exact absurd (Option.some.inj heq) hne
  · rename_i heq
    cases heq
    rfl

theorem decryptPassword_own (hfernet : fernet.Lawful) (plain : String) :
    decryptPassword fernet key (some (fernet.encrypt key noise plain)) = .ok plain := by
  rw [decryptPassword_encrypt hfernet, hfernet.decrypt_encrypt]

/-- A password under another key reads as none. -/
theorem decryptPassword_other (hfernet : fernet.Lawful) {written : κ} (h : key ≠ written) (plain : String) :
    decryptPassword fernet key (some (fernet.encrypt written noise plain)) = .ok "" := by
  rw [decryptPassword_encrypt hfernet, hfernet.decrypt_other key written noise plain h]

/-- What is written decodes to what was given. -/
theorem decode_encode (hfernet : fernet.Lawful) {camera : Camera} (hcaps : loadCaps json (dumpCaps json camera.capabilities) = camera.capabilities)
    (createdAt updatedAt : String) :
    rowToCamera fernet json key (cameraToRow fernet json key noise createdAt updatedAt camera) = .ok camera := by
  have hpassword : decryptPassword fernet key (encryptPassword fernet key noise camera.password) = .ok camera.password := by
    by_cases hempty : camera.password = ""
    · rw [hempty, encryptPassword_empty]
      rfl
    · rw [encryptPassword_some hempty, decryptPassword_own hfernet]
  unfold rowToCamera cameraToRow
  rw [hpassword]
  dsimp only
  rw [hcaps]

/-! ## What an edit reaches -/

namespace CameraTable

theorem existing_row (h : t.existing u = some (id, row)) : t.get? id = some row := by
  unfold existing at h
  split at h
  · rename_i hget
    cases h
    exact hget
  · unfold withMac at h
    split at h
    · cases h
    · exact Dict.get?_eq_some.mpr (List.mem_of_find?_eq_some h)

theorem existing_none (h : t.existing u = none) : t.get? u.derivedId = none := by
  unfold existing at h
  split at h
  · cases h
  · rename_i hget
    exact hget

/-- The MAC of the row after an edit. -/
def macAfter (u : Upsert) (row : StoredCamera) : String := if u.mac = "" then row.mac else u.mac

/-- The edit rewrites this row: it finds it, can decode it, and its MAC is free. -/
def Reaches (fernet : Fernet κ) (key : κ) (t : CameraTable) (u : Upsert) (id : CameraId) (row : StoredCamera) : Prop :=
  t.existing u = some (id, row) ∧ decryptPassword fernet key row.passwordEnc ≠ .error .unicode ∧
    t.taken id (macAfter u row) = false

theorem get?_insert_other {other : CameraId} (h : id ≠ other) (row : StoredCamera) :
    (t.insert other row).2.get? id = t.get? id := by
  unfold insert
  split
  · rfl
  · exact (Dict.get?_set ..).trans (if_neg h)

theorem insert_free (h : t.taken id row.mac = false) {before : StoredCamera} (hget : t.get? id = some before) :
    t.insert id row = (.ok (), t.set id { row with createdAt := before.createdAt }) := by
  unfold insert
  rw [h, hget, if_neg Bool.false_ne_true]
  rfl

theorem insert_taken (h : t.taken id row.mac = true) : t.insert id row = (.error .integrity, t) := if_pos h

theorem upsert_new (h : t.existing u = none) :
    (upsertCamera fernet json key noise now t u).2 =
      (t.insert u.derivedId (cameraToRow fernet json key noise now now (u.edit { mac := u.mac }))).2 := by
  unfold upsertCamera
  rw [h]
  dsimp only
  split
  · rename_i heq
    rw [heq]
  · rename_i heq
    rw [heq]

theorem upsert_found (h : t.existing u = some (id, row)) {camera : Camera}
    (hcamera : rowToCamera fernet json key row = .ok camera) :
    (upsertCamera fernet json key noise now t u).2 =
      (t.insert id (cameraToRow fernet json key noise row.createdAt now (u.edit camera))).2 := by
  unfold upsertCamera
  rw [h]
  dsimp only
  rw [hcamera]
  dsimp only [Except.map]
  split
  · rename_i heq
    rw [heq]
  · rename_i heq
    rw [heq]

theorem upsert_undecodable (h : t.existing u = some (id, row)) {fault : StoredFault}
    (hcamera : rowToCamera fernet json key row = .error fault) :
    upsertCamera fernet json key noise now t u = (.error fault, t) := by
  unfold upsertCamera
  rw [h]
  dsimp only
  rw [hcamera]
  rfl

theorem rowToCamera_error (h : decryptPassword fernet key row.passwordEnc = .error .unicode) :
    rowToCamera fernet json key row = .error .unicode := by
  rw [rowToCamera, h]

theorem rowToCamera_ok {password : String} (h : decryptPassword fernet key row.passwordEnc = .ok password) :
    rowToCamera fernet json key row = .ok ⟨row.mac, row.name, row.username, password, row.streamPath, row.rtspPort,
      row.lastIp, row.vendor, loadCaps json row.capabilities⟩ := by
  rw [rowToCamera, h]

/-- `_decrypt` raises nothing else. -/
theorem decryptPassword_error {token : Option Bytes} {fault : StoredFault}
    (h : decryptPassword fernet key token = .error fault) : fault = .unicode := by
  unfold decryptPassword at h
  split at h
  · cases h
  · cases h
  · split at h
    · cases h
    · cases h
    · cases h
      rfl

/-- A row that an edit does not reach is as it was. -/
theorem upsert_other (hrow : t.get? id = some row) (h : ¬Reaches fernet key t u id row) :
    (upsertCamera fernet json key noise now t u).2.get? id = some row := by
  cases hfound : t.existing u with
  | none =>
    have hne : id ≠ u.derivedId := by
      rintro rfl
      have hnew := existing_none hfound
      rw [hrow] at hnew
      cases hnew
    rw [upsert_new hfound]
    exact (get?_insert_other hne _).trans hrow
  | some found =>
    obtain ⟨other, before⟩ := found
    cases hpassword : decryptPassword fernet key before.passwordEnc with
    | error fault =>
      obtain rfl := decryptPassword_error hpassword
      rw [upsert_undecodable hfound (rowToCamera_error hpassword)]
      exact hrow
    | ok password =>
      rw [upsert_found hfound (rowToCamera_ok hpassword)]
      by_cases hid : id = other
      · subst hid
        have hsame := existing_row hfound
        rw [hrow] at hsame
        cases hsame
        cases htaken : t.taken id (macAfter u row) with
        | true =>
          rw [insert_taken htaken]
          exact hrow
        | false => exact absurd ⟨hfound, by simp [hpassword], htaken⟩ h
      · exact (get?_insert_other hid _).trans hrow

/-- A row that an edit reaches is written as it decodes. -/
theorem upsert_reached (json : JsonText) (noise : Nat) (now : String) (h : Reaches fernet key t u id row) :
    ∃ password, decryptPassword fernet key row.passwordEnc = .ok password ∧
      (upsertCamera fernet json key noise now t u).2.get? id =
        some (cameraToRow fernet json key noise row.createdAt now (u.edit ⟨row.mac, row.name, row.username, password,
          row.streamPath, row.rtspPort, row.lastIp, row.vendor, loadCaps json row.capabilities⟩)) := by
  obtain ⟨hfound, hdecodes, hfree⟩ := h
  cases hpassword : decryptPassword fernet key row.passwordEnc with
  | error fault =>
    obtain rfl := decryptPassword_error hpassword
    exact absurd hpassword hdecodes
  | ok password =>
    refine ⟨password, rfl, ?_⟩
    rw [upsert_found hfound (rowToCamera_ok hpassword), insert_free hfree (existing_row hfound)]
    exact (Dict.get?_set ..).trans (if_pos rfl)

end CameraTable

/-! ## What an edit keeps -/

/-- The plaintext of a stored credential under a key: none stored is the empty one. -/
def Fernet.plaintext (fernet : Fernet κ) (key : κ) : Option Bytes → Option String
  | none => some ""
  | some token =>
    match fernet.decrypt key token with
    | .text plain => some plain
    | _ => none

/-- The credential, and every column that is not given. -/
structure Keeps (fernet : Fernet κ) (u : Upsert) (before after : StoredCamera) : Prop where
  credential : ∀ written noise plain, before.passwordEnc = some (fernet.encrypt written noise plain) →
    fernet.plaintext written after.passwordEnc = some plain
  unset : before.passwordEnc = none → after.passwordEnc = none
  mac : u.mac = "" → after.mac = before.mac
  name : u.name = none → after.name = before.name
  username : u.username = none → after.username = before.username
  streamPath : u.streamPath = none → after.streamPath = before.streamPath
  rtspPort : u.rtspPort = none → after.rtspPort = before.rtspPort
  lastIp : u.lastIp = none → after.lastIp = before.lastIp
  vendor : u.vendor = none → after.vendor = before.vendor
  capabilities : u.capabilities = none → after.capabilities = before.capabilities

theorem Keeps.self (hfernet : fernet.Lawful) (row : StoredCamera) : Keeps fernet u row row := by
  refine ⟨fun written noise plain htoken => ?_, fun h => h, fun _ => rfl, fun _ => rfl, fun _ => rfl, fun _ => rfl,
    fun _ => rfl, fun _ => rfl, fun _ => rfl, fun _ => rfl⟩
  rw [htoken, Fernet.plaintext, hfernet.decrypt_encrypt]

/-- The password of a row, unless it is empty, was stored under this key. -/
def CurrentKey (fernet : Fernet κ) (key : κ) (row : StoredCamera) : Prop :=
  ∀ written noise plain, row.passwordEnc = some (fernet.encrypt written noise plain) → plain ≠ "" → written = key

/-- The codec gives the text of a row's capabilities back. -/
def Restored (json : JsonText) (row : StoredCamera) : Prop := dumpCaps json (loadCaps json row.capabilities) = row.capabilities

theorem plaintext_encryptPassword (hfernet : fernet.Lawful) (password : String) :
    fernet.plaintext key (encryptPassword fernet key noise password) = some password := by
  by_cases hempty : password = ""
  · rw [hempty, encryptPassword_empty]
    rfl
  · rw [encryptPassword_some hempty, Fernet.plaintext, hfernet.decrypt_encrypt]

/-- The row an edit without a password writes keeps the credential if it was decrypted. -/
theorem keeps_reached (hfernet : fernet.Lawful) (hpassword : u.password = none) {password : String}
    (hdecrypt : decryptPassword fernet key row.passwordEnc = .ok password) (hcurrent : CurrentKey fernet key row)
    (hcaps : u.capabilities = none → Restored json row) (createdAt : String) :
    Keeps fernet u row (cameraToRow fernet json key noise createdAt now (u.edit ⟨row.mac, row.name, row.username, password,
      row.streamPath, row.rtspPort, row.lastIp, row.vendor, loadCaps json row.capabilities⟩)) where
  credential written drawn plain htoken := by
    have hsame : password = plain := by
      rw [htoken] at hdecrypt
      by_cases hkey : key = written
      · subst hkey
        rw [decryptPassword_own hfernet] at hdecrypt
        exact (Except.ok.inj hdecrypt).symm
      · rw [decryptPassword_other hfernet hkey] at hdecrypt
        by_contra hne
        refine hkey (hcurrent written drawn plain htoken fun hempty => hne ?_).symm
        rw [← Except.ok.inj hdecrypt, hempty]
    simp only [cameraToRow, Upsert.edit, hpassword, Option.getD_none]
    by_cases hempty : plain = ""
    · rw [hsame, hempty, encryptPassword_empty]
      rfl
    · rw [hcurrent written drawn plain htoken hempty, hsame, plaintext_encryptPassword hfernet]
  unset hnone := by
    rw [hnone] at hdecrypt
    simp only [cameraToRow, Upsert.edit, hpassword, Option.getD_none]
    rw [← Except.ok.inj hdecrypt, encryptPassword_empty]
  mac h := by simp [cameraToRow, Upsert.edit, h]
  name h := by simp [cameraToRow, Upsert.edit, h]
  username h := by simp [cameraToRow, Upsert.edit, h]
  streamPath h := by simp [cameraToRow, Upsert.edit, h]
  rtspPort h := by simp [cameraToRow, Upsert.edit, h]
  lastIp h := by simp [cameraToRow, Upsert.edit, h]
  vendor h := by simp [cameraToRow, Upsert.edit, h]
  capabilities h := by
    simp only [cameraToRow, Upsert.edit, h, Option.getD_none]
    exact hcaps h

/-- A password under another key is erased. -/
theorem current_of_keeps (hfernet : fernet.Lawful) (hpassword : u.password = none) {password createdAt : String}
    (hdecrypt : decryptPassword fernet key row.passwordEnc = .ok password)
    (h : Keeps fernet u row (cameraToRow fernet json key noise createdAt now (u.edit ⟨row.mac, row.name, row.username,
      password, row.streamPath, row.rtspPort, row.lastIp, row.vendor, loadCaps json row.capabilities⟩))) :
    CurrentKey fernet key row := by
  intro written drawn plain htoken hne
  by_contra hkey
  have hkept := h.credential written drawn plain htoken
  rw [htoken, decryptPassword_other hfernet (Ne.symm hkey)] at hdecrypt
  simp only [cameraToRow, Upsert.edit, hpassword, Option.getD_none] at hkept
  rw [← Except.ok.inj hdecrypt, encryptPassword_empty] at hkept
  exact hne (Option.some.inj hkept).symm

/-- An edit without a password keeps a row exactly if it does not reach it, or its password
is under the current key and the text of its capabilities, unless given, is restored. -/
theorem upsert_keeps_iff (hfernet : fernet.Lawful) (hpassword : u.password = none) (hrow : t.get? id = some row) :
    (∃ after, (CameraTable.upsertCamera fernet json key noise now t u).2.get? id = some after ∧ Keeps fernet u row after) ↔
      (CameraTable.Reaches fernet key t u id row →
        CurrentKey fernet key row ∧ (u.capabilities = none → Restored json row)) := by
  by_cases hreaches : CameraTable.Reaches fernet key t u id row
  · obtain ⟨password, hdecrypt, hafter⟩ := CameraTable.upsert_reached json noise now hreaches
    rw [hafter]
    constructor
    · rintro ⟨after, heq, hkeeps⟩ -
      cases heq
      refine ⟨current_of_keeps hfernet hpassword hdecrypt hkeeps, fun hcaps => ?_⟩
      have hsame := hkeeps.capabilities hcaps
      simp only [cameraToRow, Upsert.edit, hcaps, Option.getD_none] at hsame
      exact hsame
    · intro h
      obtain ⟨hcurrent, hcaps⟩ := h hreaches
      exact ⟨_, rfl, keeps_reached hfernet hpassword hdecrypt hcurrent hcaps row.createdAt⟩
  · exact iff_of_true ⟨row, CameraTable.upsert_other hrow hreaches, Keeps.self hfernet row⟩ fun h => absurd h hreaches

end

/-! ## A camera whose key has changed -/

/-- Characters in four bytes each. -/
def sampleChars : Bytes → List Char
  | a :: b :: c :: d :: rest => Char.ofNat (Bytes.toNat [a, b, c, d]) :: sampleChars rest
  | _ => []

def sampleTag (key : Bool) : UInt8 := if key then 1 else 0

/-- Tokens that name their key, an old or a new one. -/
def sampleFernet : Fernet Bool where
  encrypt key _ plain := 0x80 :: sampleTag key :: plain.toList.flatMap fun c => Bytes.ofNat 4 c.toNat
  decrypt key token :=
    if token.take 2 = [0x80, sampleTag key] then .text (String.ofList (sampleChars (token.drop 2))) else .invalidToken

theorem sampleChars_flatMap (chars : List Char) : sampleChars (chars.flatMap fun c => Bytes.ofNat 4 c.toNat) = chars := by
  induction chars with
  | nil => rfl
  | cons c chars ih =>
    have hrange : c.toNat < 256 ^ 4 := by
      have hsize := c.val.toNat_lt
      exact hsize
    have hread : Bytes.toNat (Bytes.ofNat 4 c.toNat) = c.toNat := by
      rw [Bytes.toNat_ofNat, Nat.mod_eq_of_lt hrange]
    rw [List.flatMap_cons]
    change Char.ofNat (Bytes.toNat (Bytes.ofNat 4 c.toNat)) :: sampleChars (chars.flatMap _) = _
    rw [hread, ih, Char.ofNat_toNat]

theorem sampleTag_inj {a b : Bool} (h : sampleTag a = sampleTag b) : a = b := by
  cases a <;> cases b <;> first | rfl | cases h

theorem sampleFernet_lawful : sampleFernet.Lawful where
  decrypt_encrypt key noise plain := by
    have htoken : (sampleFernet.encrypt key noise plain).drop 2 = plain.toList.flatMap fun c => Bytes.ofNat 4 c.toNat := rfl
    change (if _ then Decrypted.text (String.ofList (sampleChars ((sampleFernet.encrypt key noise plain).drop 2))) else _) = _
    rw [htoken, sampleChars_flatMap, String.ofList_toList]
    exact if_pos rfl
  decrypt_other key other noise plain hne := by
    refine if_neg fun htag => hne (sampleTag_inj ?_)
    exact (List.cons.inj (List.cons.inj htag).2).1.symm
  encrypt_ne key noise plain := List.cons_ne_nil _ _

def sampleId : CameraId := ⟨"cam_0123456789abcdef01234567", by decide +kernel⟩

/-- A camera with the password `secret`, stored under the old key. -/
def sampleRow : StoredCamera where
  mac := "00:11:22:33:44:55"
  name := "Door"
  username := "admin"
  passwordEnc := some (sampleFernet.encrypt false 0 "secret")
  streamPath := "/onvif1"
  rtspPort := 554
  lastIp := "192.168.1.20"
  vendor := ""
  capabilities := ""
  createdAt := "2026-01-01T00:00:00+00:00"
  updatedAt := "2026-01-01T00:00:00+00:00"

def sampleTable : CameraTable := (∅ : CameraTable).set sampleId sampleRow

/-- A scan finds it at another address. -/
def sampleScan : Upsert := { mac := "00:11:22:33:44:55", derivedId := sampleId, lastIp := some "192.168.1.21" }

def sampleJson : JsonText := ⟨fun _ => none, fun _ => ""⟩

/-- Under the old key its password is kept. -/
theorem upsert_keeps_sample : ∃ after,
    (CameraTable.upsertCamera sampleFernet sampleJson false 1 "2026-02-01T00:00:00+00:00" sampleTable sampleScan).2.get?
      sampleId = some after ∧ Keeps sampleFernet sampleScan sampleRow after := by
  refine (upsert_keeps_iff sampleFernet_lawful rfl rfl).mpr fun _ => ⟨fun written drawn plain htoken _ => ?_, fun _ => rfl⟩
  exact (sampleTag_inj (List.cons.inj (List.cons.inj (Option.some.inj htoken)).2).1).symm

/-- Under the new one the scan erases it. -/
theorem scan_erases_password : ¬∃ after,
    (CameraTable.upsertCamera sampleFernet sampleJson true 1 "2026-02-01T00:00:00+00:00" sampleTable sampleScan).2.get?
      sampleId = some after ∧ Keeps sampleFernet sampleScan sampleRow after := by
  rintro ⟨after, hafter, hkeeps⟩
  have herased : (CameraTable.upsertCamera sampleFernet sampleJson true 1 "2026-02-01T00:00:00+00:00" sampleTable
      sampleScan).2.get? sampleId = some { sampleRow with
        passwordEnc := none
        lastIp := "192.168.1.21"
        updatedAt := "2026-02-01T00:00:00+00:00" } := by
    decide +kernel
  rw [herased] at hafter
  have hkept := hkeeps.credential false 0 "secret" rfl
  rw [← Option.some.inj hafter] at hkept
  exact absurd (Option.some.inj hkept) (by decide)

end CamGuard.Db
