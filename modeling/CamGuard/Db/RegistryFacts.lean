/-
When an overlap of two operations on one camera is as good as a serial order.

Nothing is written before one of them takes its last turn (`quiet_turns`), and that turn
ends it as if it were alone (`last_turn`). If the other one has read the row by then, it
writes what it has read (`overlap`), and what the first one did is lost, unless there was
nothing to lose (`Absorbed`). If it is a scan that has only found the camera, it goes on
with an upsert whatever has become of the camera (`Steady`).
-/
import CamGuard.Db.Registry
import Mathlib.Data.List.Induction
import Mathlib.Tactic.Common

namespace CamGuard.Db

namespace Registry

variable {r : Registry} {id : CameraId} {camera row : Camera} {u : Upsert}

/-! ## Rows -/

theorem get?_put {h : r.taken id camera.mac = false} (j : CameraId) :
    (r.put id camera h).rows.get? j = if j = id then some camera else r.rows.get? j := Dict.get?_set ..

theorem get?_delete (j : CameraId) : (r.deleteCameraById id).rows.get? j = if j = id then none else r.rows.get? j := Dict.get?_erase ..

theorem write_free (h : r.taken id camera.mac = false) : r.write id camera = r.put id camera h := dif_pos h

theorem write_taken (h : r.taken id camera.mac = true) : r.write id camera = r := dif_neg (by rw [h]; decide)

theorem taken_iff {mac : String} : r.taken id mac = true ↔
    mac ≠ "" ∧ ∃ other camera, r.rows.get? other = some camera ∧ other ≠ id ∧ camera.mac = mac := by
  simp only [taken, Bool.and_eq_true, decide_eq_true_eq, List.any_eq_true, Prod.exists, Dict.get?_eq_some]

theorem taken_congr {r' : Registry} {mac : String} (h : ∀ j, j ≠ id → r'.rows.get? j = r.rows.get? j) :
    r'.taken id mac = r.taken id mac := by
  rw [Bool.eq_iff_iff, taken_iff, taken_iff]
  refine and_congr_right fun _ => exists_congr fun other => exists_congr fun camera => ?_
  constructor
  · rintro ⟨hget, hne, hmac⟩
    exact ⟨(h other hne).symm.trans hget, hne, hmac⟩
  · rintro ⟨hget, hne, hmac⟩
    exact ⟨(h other hne).trans hget, hne, hmac⟩

theorem getCamera_some {mac : String} (h : r.rows.get? id = some camera) (hmac : camera.mac = mac) (hne : mac ≠ "") :
    r.getCamera mac = some (id, camera) := by
  rw [getCamera, if_neg hne]
  cases hfind : r.rows.entries.find? fun e => e.2.mac = mac with
  | none =>
    have hnot := List.find?_eq_none.mp hfind _ (Dict.get?_eq_some.mp h)
    exact absurd (decide_eq_true hmac) hnot
  | some e =>
    obtain ⟨other, found⟩ := e
    have hfound : found.mac = mac := by simpa using List.find?_some hfind
    have hget : r.rows.get? other = some found := Dict.get?_eq_some.mpr (List.mem_of_find?_eq_some hfind)
    have heq : other = id := r.unique other id found camera hget h (hfound.trans hmac.symm) (hfound ▸ hne)
    subst heq
    rw [h] at hget
    cases hget
    rfl

theorem getCamera_found {mac : String} (h : r.getCamera mac = some (id, camera)) :
    mac ≠ "" ∧ r.rows.get? id = some camera ∧ camera.mac = mac := by
  rw [getCamera] at h
  split at h
  · cases h
  next hne => exact ⟨hne, Dict.get?_eq_some.mpr (List.mem_of_find?_eq_some h), by simpa using List.find?_some h⟩

theorem getCamera_none {mac : String} (h : ∀ other camera, r.rows.get? other = some camera → camera.mac = mac → mac = "") :
    r.getCamera mac = none := by
  cases hget : r.getCamera mac with
  | none => rfl
  | some found =>
    obtain ⟨hne, hfound, hmac⟩ := getCamera_found hget
    exact absurd (h _ _ hfound hmac) hne

/-! ## What an upsert finds -/

/-- An upsert on the camera with this ID: it names it, or it has its MAC. -/
theorem existing_cases (h : r.existing u = some (id, row)) :
    r.rows.get? id = some row ∧
      (u.derivedId = id ∨ u.derivedId ≠ id ∧ r.rows.get? u.derivedId = none ∧ u.mac ≠ "" ∧ row.mac = u.mac) := by
  rw [existing, getCameraById] at h
  split at h
  next camera hget =>
    cases h
    exact ⟨hget, .inl rfl⟩
  next hnone =>
    obtain ⟨hne, hget, hmac⟩ := getCamera_found h
    refine ⟨hget, .inr ⟨fun heq => ?_, hnone, hne, hmac⟩⟩
    rw [heq, hget] at hnone
    cases hnone

/-- The MAC of what it writes is another's only if it provides that MAC. -/
theorem taken_edit (hrow : r.taken id row.mac = false) : r.taken id (u.edit row).mac = r.taken id u.mac := by
  rw [Upsert.edit]
  split
  next hempty =>
    rw [hrow, hempty]
    rfl
  · rfl

/-! ## One row more or less -/

/-- The registry but for one row. -/
def At (r : Registry) (id : CameraId) (row : Option Camera) (r' : Registry) : Prop :=
  ∀ j, r'.rows.get? j = if j = id then row else r.rows.get? j

theorem At.get? {o : Option Camera} {r' : Registry} (h : At r id o r') : r'.rows.get? id = o := (h id).trans (if_pos rfl)

theorem At.others {o : Option Camera} {r' : Registry} (h : At r id o r') {j : CameraId} (hne : j ≠ id) :
    r'.rows.get? j = r.rows.get? j := (h j).trans (if_neg hne)

theorem At.taken {o : Option Camera} {r' : Registry} (h : At r id o r') (mac : String) : r'.taken id mac = r.taken id mac :=
  taken_congr fun _ hne => h.others hne

theorem at_self (h : r.rows.get? id = some row) : At r id (some row) r := by
  intro j
  split
  next heq =>
    rw [heq]
    exact h
  · rfl

theorem at_delete (r : Registry) (id : CameraId) : At r id none (r.deleteCameraById id) := fun _ => get?_delete _

theorem At.write {o : Option Camera} {r' : Registry} (h : At r id o r') (hfree : r.taken id camera.mac = false) :
    At r id (some camera) (r'.write id camera) := by
  intro j
  rw [write_free ((h.taken _).trans hfree), get?_put]
  split
  · rfl
  next hne => exact h.others hne

theorem At.delete {o : Option Camera} {r' : Registry} (h : At r id o r') : At r id none (r'.deleteCameraById id) := by
  intro j
  rw [get?_delete]
  split
  · rfl
  next hne => exact h.others hne

theorem At.same_iff {o o' : Option Camera} {r' r'' : Registry} (h : At r id o r') (h' : At r id o' r'') : r'.Same r'' ↔ o = o' := by
  constructor
  · intro hsame
    rw [← h.get?, ← h'.get?]
    exact hsame id
  · rintro rfl j
    rw [h j, h' j]

/-! ## An upsert behind another operation -/

theorem exec_upsert (r : Registry) (u : Upsert) : exec r (.upsert u) = r.upsertCamera u := rfl

theorem exec_delete (r : Registry) (id : CameraId) : exec r (.delete id) = r.deleteCameraById id := rfl

theorem exec_refresh (r : Registry) (id : CameraId) (seen : Camera) (ip : String) :
    exec r (.refresh id seen ip) = r.refreshAddress id seen ip := rfl

theorem At.upsert {o : Option Camera} {r' : Registry} (h : At r id o r') (hfind : r'.existing u = some (id, camera))
    (hfree : r.taken id u.mac = false) : At r id (some (u.edit camera)) (exec r' (.upsert u)) := by
  obtain ⟨hget, -⟩ := existing_cases hfind
  have hown : r.taken id camera.mac = false := (h.taken _).symm.trans (own_mac hget)
  rw [exec_upsert, upsertCamera, hfind]
  exact h.write ((taken_edit hown).trans hfree)

theorem upsert_taken {r' : Registry} (hfind : r'.existing u = some (id, camera)) (htaken : r'.taken id u.mac = true) :
    exec r' (.upsert u) = r' := by
  obtain ⟨hget, -⟩ := existing_cases hfind
  rw [exec_upsert, upsertCamera, hfind]
  exact write_taken ((taken_edit (own_mac hget)).trans htaken)

/-- A camera that has kept its ID or its MAC is found again. -/
theorem At.existing {r' : Registry} (h : At r id (some camera) r') (hbefore : r.existing u = some (id, row))
    (hstill : u.derivedId = id ∨ camera.mac = row.mac) : r'.existing u = some (id, camera) := by
  obtain ⟨-, hid | ⟨hne, hnone, hmac, hrow⟩⟩ := existing_cases hbefore
  · rw [Registry.existing, getCameraById, hid, h.get?]
  · rw [Registry.existing, getCameraById, h.others hne, hnone]
    exact getCamera_some h.get? ((hstill.resolve_left hne).trans hrow) hmac

theorem At.found {r' : Registry} (h : At r id (some camera) r') {mac : String} (hfound : r.getCamera mac = some (id, row))
    (hkept : camera.mac = row.mac) : r'.getCamera mac = some (id, camera) := by
  obtain ⟨hne, -, hmac⟩ := getCamera_found hfound
  exact getCamera_some h.get? (hkept.trans hmac) hne

/-- A MAC does not find a camera that is gone or has another one now. -/
theorem At.missed {r' : Registry} {o : Option Camera} (h : At r id o r') {mac : String} (hfound : r.getCamera mac = some (id, row))
    (hmoved : ∀ camera ∈ o, camera.mac ≠ row.mac) : r'.getCamera mac = none := by
  obtain ⟨hne, hget, hmac⟩ := getCamera_found hfound
  refine getCamera_none fun other camera hother hcamera => ?_
  by_cases heq : other = id
  · rw [heq, h.get?] at hother
    exact absurd (hcamera.trans hmac.symm) (hmoved camera hother)
  · rw [h.others heq] at hother
    exact absurd (r.unique other id camera row hother hget (hcamera.trans hmac.symm) (hcamera ▸ hne)) heq

theorem upsert_afresh {r' : Registry} (hid : r'.rows.get? u.derivedId = none) (hmac : r'.getCamera u.mac = none) :
    (exec r' (.upsert u)).rows.get? u.derivedId ≠ none := by
  have hexisting : r'.existing u = none := by
    rw [Registry.existing, getCameraById, hid]
    exact hmac
  have hfree : r'.taken u.derivedId (u.edit { mac := u.mac }).mac = false := by
    rw [show (u.edit { mac := u.mac }).mac = u.mac from ite_self _]
    by_contra htaken
    obtain ⟨hne, other, found, hother, -, hfound⟩ := taken_iff.mp (Bool.not_eq_false _ ▸ htaken)
    rw [getCamera_some hother hfound hne] at hmac
    cases hmac
  rw [exec_upsert, upsertCamera, hexisting]
  simp only [prepared]
  rw [write_free hfree, get?_put, if_pos rfl]
  exact nofun

/-- One that was known by its MAC alone and has another one now is registered again. -/
theorem At.lost {r' : Registry} (h : At r id (some camera) r') (hbefore : r.existing u = some (id, row)) (hid : u.derivedId ≠ id)
    (hmoved : camera.mac ≠ row.mac) :
    (exec r' (.upsert u)).rows.get? u.derivedId ≠ none ∧ r.rows.get? u.derivedId = none := by
  obtain ⟨hget, hnamed | ⟨-, hnone, hmac, hrow⟩⟩ := existing_cases hbefore
  · exact absurd hnamed hid
  have hnobody : ∀ other found, r'.rows.get? other = some found → found.mac = u.mac → u.mac = "" := by
    intro other found hother hfound
    by_cases heq : other = id
    · rw [heq, h.get?] at hother
      cases hother
      exact absurd (hfound.trans hrow.symm) hmoved
    · rw [h.others heq] at hother
      exact absurd (r.unique other id found row hother hget (hfound.trans hrow.symm) (hfound ▸ hmac)) heq
  exact ⟨upsert_afresh ((h.others hid).trans hnone) (getCamera_none hnobody), hnone⟩

end Registry

/-! ## Fields -/

namespace Upsert

variable {f l : Upsert} {row : Camera}

/-- What one upsert provides and the next one does not is in the row already. -/
structure Settles (f l : Upsert) (row : Camera) : Prop where
  mac : l.mac = "" → f.mac = "" ∨ f.mac = row.mac
  name : l.name = none → ∀ v ∈ f.name, v = row.name
  username : l.username = none → ∀ v ∈ f.username, v = row.username
  password : l.password = none → ∀ v ∈ f.password, v = row.password
  streamPath : l.streamPath = none → ∀ v ∈ f.streamPath, v = row.streamPath
  rtspPort : l.rtspPort = none → ∀ v ∈ f.rtspPort, v = row.rtspPort
  lastIp : l.lastIp = none → ∀ v ∈ f.lastIp, v = row.lastIp
  vendor : l.vendor = none → ∀ v ∈ f.vendor, v = row.vendor
  capabilities : l.capabilities = none → ∀ v ∈ f.capabilities, v = row.capabilities

/-- What an upsert does not provide is as in a camera that was never edited. -/
structure Fresh (l : Upsert) (row : Camera) : Prop where
  mac : l.mac = "" → row.mac = ""
  name : l.name = none → row.name = ""
  username : l.username = none → row.username = DEFAULT_USERNAME
  password : l.password = none → row.password = ""
  streamPath : l.streamPath = none → row.streamPath = ""
  rtspPort : l.rtspPort = none → row.rtspPort = DEFAULT_RTSP_PORT
  lastIp : l.lastIp = none → row.lastIp = ""
  vendor : l.vendor = none → row.vendor = ""
  capabilities : l.capabilities = none → row.capabilities = .dict []

theorem getD_iff {α : Type} {l : Option α} {v w : α} : l.getD v = l.getD w ↔ (l = none → v = w) := by
  cases l with
  | none => simp
  | some x => simp

theorem getD_getD_iff {α : Type} {f l : Option α} {v : α} : l.getD (f.getD v) = l.getD v ↔ (l = none → ∀ x ∈ f, x = v) := by
  cases f with
  | none => simp
  | some x => simp [getD_iff]

theorem getD_absorbs {α : Type} {f l : Option α} {v : α} (h : f.getD (l.getD v) = l.getD v) : l = none → ∀ x ∈ f, x = v := by
  rintro rfl x hx
  rw [Option.mem_def] at hx
  rw [hx] at h
  exact h

theorem edit_mac_iff : (f.edit row).mac = row.mac ↔ f.mac = "" ∨ f.mac = row.mac := by
  by_cases hempty : f.mac = "" <;> simp [edit, hempty]

/-- **When the second of two edits hides the first.** -/
theorem edit_edit_iff : l.edit (f.edit row) = l.edit row ↔ f.Settles l row := by
  have hmac : (l.edit (f.edit row)).mac = (l.edit row).mac ↔ (l.mac = "" → f.mac = "" ∨ f.mac = row.mac) := by
    by_cases hl : l.mac = "" <;> by_cases hf : f.mac = "" <;> simp [edit, hl, hf]
  rw [Camera.ext_iff, hmac]
  simp only [edit, getD_getD_iff]
  constructor
  · rintro ⟨h₁, h₂, h₃, h₄, h₅, h₆, h₇, h₈, h₉⟩
    exact ⟨h₁, h₂, h₃, h₄, h₅, h₆, h₇, h₈, h₉⟩
  · rintro ⟨h₁, h₂, h₃, h₄, h₅, h₆, h₇, h₈, h₉⟩
    exact ⟨h₁, h₂, h₃, h₄, h₅, h₆, h₇, h₈, h₉⟩

/-- An edit that changes nothing behind another one was settled before it. -/
theorem settles_of_absorbed (h : f.edit (l.edit row) = l.edit row) : f.Settles l row := by
  rw [Camera.ext_iff] at h
  obtain ⟨hmac, hname, husername, hpassword, hpath, hport, hip, hvendor, hcaps⟩ := h
  refine ⟨fun hl => ?_, getD_absorbs hname, getD_absorbs husername, getD_absorbs hpassword, getD_absorbs hpath, getD_absorbs hport,
    getD_absorbs hip, getD_absorbs hvendor, getD_absorbs hcaps⟩
  by_cases hf : f.mac = ""
  · exact .inl hf
  · simp only [edit, hl, if_neg hf, if_true] at hmac
    exact .inr hmac

theorem edit_fresh_iff : l.edit row = l.edit { mac := l.mac } ↔ l.Fresh row := by
  have hmac : (l.edit row).mac = (l.edit { mac := l.mac }).mac ↔ (l.mac = "" → row.mac = "") := by
    by_cases hl : l.mac = "" <;> simp [edit, hl]
  rw [Camera.ext_iff, hmac]
  simp only [edit, getD_iff]
  constructor
  · rintro ⟨h₁, h₂, h₃, h₄, h₅, h₆, h₇, h₈, h₉⟩
    exact ⟨h₁, h₂, h₃, h₄, h₅, h₆, h₇, h₈, h₉⟩
  · rintro ⟨h₁, h₂, h₃, h₄, h₅, h₆, h₇, h₈, h₉⟩
    exact ⟨h₁, h₂, h₃, h₄, h₅, h₆, h₇, h₈, h₉⟩

end Upsert

/-! ## Overlaps -/

/-- An upsert that reads before another operation, and writes behind it. -/
def overlap (r : Registry) (other : Op) (l : Upsert) : Registry :=
  let (id, camera) := Registry.prepared l (r.existing l)
  (exec r other).write id camera

/-- When the first of two operations loses nothing to the other one, which has read the
row as it was before. -/
def Absorbed (r : Registry) (id : CameraId) (row : Camera) : Op → Op → Prop
  | .upsert f, .upsert l =>
    r.taken id f.mac = true ∨ r.taken id l.mac = true ∨
      f.Settles l row ∧ (l.derivedId = id ∨ f.mac = "" ∨ f.mac = row.mac)
  | .delete _, .upsert l => r.taken id l.mac = true ∨ l.derivedId = id ∧ l.Fresh row
  | .refresh _ seen ip, .upsert l =>
    r.taken id l.mac = true ∨ ¬ (row.mac = seen.mac ∧ row.lastIp = seen.lastIp) ∨ ip = row.lastIp ∨ l.lastIp ≠ none ∨
      (l.mac ≠ "" ∧ l.mac ≠ row.mac)
  | .reconcile _ _ address, .upsert l =>
    r.taken id l.mac = true ∨ (l.mac ≠ "" ∧ l.mac ≠ row.mac) ∨ l.lastIp ≠ none ∨ address = row.lastIp
  | .upsert f, .reconcile mac derivedId address =>
    r.taken id f.mac = true ∨ (f.mac = "" ∨ f.mac = row.mac) ∧ f.Settles (readdress mac derivedId address) row
  | .delete _, .reconcile .. => False
  | .refresh .., .reconcile .. | .reconcile .., .reconcile .. => True
  -- these read nothing
  | _, .delete _ | _, .refresh .. => True

/-- When an operation leaves the camera where a scan that has found it finds it again. -/
def Steady (r : Registry) (id : CameraId) (row : Camera) : Op → Prop
  | .upsert f => r.taken id f.mac = true ∨ f.mac = "" ∨ f.mac = row.mac
  | .delete _ => False
  | .refresh .. | .reconcile .. => True

section Overlap

open Registry

variable {r : Registry} {id : CameraId} {row : Camera} {f l : Upsert}

theorem existing_row (hrow : r.rows.get? id = some row) {u : Upsert} {camera : Camera} (h : r.existing u = some (id, camera)) :
    row = camera := Option.some.inj (hrow.symm.trans (existing_cases h).1)

/-- An upsert whose MAC is another's has named the camera. -/
theorem named_of_taken (hl : r.existing l = some (id, row)) (htaken : r.taken id l.mac = true) : l.derivedId = id := by
  obtain ⟨hget, hid | ⟨-, -, -, hmac⟩⟩ := existing_cases hl
  · exact hid
  · rw [← hmac, own_mac hget] at htaken
    cases htaken

/-- **Two upserts.** -/
theorem overlap_upsert_iff (hf : r.existing f = some (id, row)) (hl : r.existing l = some (id, row)) :
    (overlap r (.upsert f) l).Same (exec (exec r (.upsert f)) (.upsert l)) ∨
      (overlap r (.upsert f) l).Same (exec (exec r (.upsert l)) (.upsert f)) ↔ Absorbed r id row (.upsert f) (.upsert l) := by
  obtain ⟨hget, -⟩ := existing_cases hl
  have hself := at_self hget
  have hoverlap : overlap r (.upsert f) l = (exec r (.upsert f)).write id (l.edit row) := by rw [overlap, hl]; rfl
  have hedit (u : Upsert) : r.taken id (u.edit row).mac = r.taken id u.mac := taken_edit (own_mac hget)
  rw [Absorbed]
  by_cases hftaken : r.taken id f.mac = true
  · refine iff_of_true (.inl fun j => ?_) (.inl hftaken)
    rw [hoverlap, upsert_taken hf hftaken, exec_upsert, upsertCamera, hl]
    rfl
  rw [Bool.not_eq_true] at hftaken
  have hfirst := hself.upsert hf hftaken
  by_cases hltaken : r.taken id l.mac = true
  · refine iff_of_true (.inl fun j => ?_) (.inr (.inl hltaken))
    have hfound := hfirst.existing hl (.inl (named_of_taken hl hltaken))
    rw [hoverlap, write_taken, upsert_taken hfound ((hfirst.taken _).trans hltaken)]
    rw [hfirst.taken, hedit]
    exact hltaken
  rw [Bool.not_eq_true] at hltaken
  have hlast := hself.upsert hl hltaken
  have hfinal : At r id (some (l.edit row)) (overlap r (.upsert f) l) := by
    rw [hoverlap]
    exact hfirst.write ((hedit l).trans hltaken)
  simp only [hftaken, hltaken, Bool.false_eq_true, false_or]
  constructor
  · rintro (hsame | hsame)
    · by_cases hstill : l.derivedId = id ∨ (f.edit row).mac = row.mac
      · have hserial := hfirst.upsert (hfirst.existing hl hstill) hltaken
        have heq := Option.some.inj ((hfinal.same_iff hserial).mp hsame)
        exact ⟨Upsert.edit_edit_iff.mp heq.symm, hstill.imp_right Upsert.edit_mac_iff.mp⟩
      · rw [not_or] at hstill
        obtain ⟨hnew, hnone⟩ := hfirst.lost hl hstill.1 hstill.2
        exact absurd ((hsame _).symm.trans ((hfinal.others hstill.1).trans hnone)) hnew
    · by_cases hstill : f.derivedId = id ∨ (l.edit row).mac = row.mac
      · have hserial := hlast.upsert (hlast.existing hf hstill) hftaken
        have heq := Option.some.inj ((hfinal.same_iff hserial).mp hsame)
        refine ⟨Upsert.settles_of_absorbed heq.symm, ?_⟩
        obtain ⟨-, hid | ⟨-, -, hmac, hrow⟩⟩ := existing_cases hl
        · exact .inl hid
        · -- the last one has the MAC of the row, and so has the first
          right
          by_cases hempty : f.mac = ""
          · exact .inl hempty
          · right
            have hmacs := congrArg Camera.mac heq
            simp only [Upsert.edit, if_neg hmac, if_neg hempty] at hmacs
            rw [hrow, hmacs]
      · rw [not_or] at hstill
        obtain ⟨hnew, hnone⟩ := hlast.lost hf hstill.1 hstill.2
        exact absurd ((hsame _).symm.trans ((hfinal.others hstill.1).trans hnone)) hnew
  · rintro ⟨hsettles, hstill⟩
    left
    have hserial := hfirst.upsert (hfirst.existing hl (hstill.imp_right Upsert.edit_mac_iff.mpr)) hltaken
    rw [hfinal.same_iff hserial, Upsert.edit_edit_iff.mpr hsettles]

/-- **An upsert and a deletion.** -/
theorem overlap_delete_iff (hl : r.existing l = some (id, row)) :
    (overlap r (.delete id) l).Same (exec (exec r (.delete id)) (.upsert l)) ∨
      (overlap r (.delete id) l).Same (exec (exec r (.upsert l)) (.delete id)) ↔ Absorbed r id row (.delete id) (.upsert l) := by
  obtain ⟨hget, hfound⟩ := existing_cases hl
  have hdelete := at_delete r id
  have hedit : r.taken id (l.edit row).mac = r.taken id l.mac := taken_edit (own_mac hget)
  have hoverlap : overlap r (.delete id) l = (r.deleteCameraById id).write id (l.edit row) := by rw [overlap, hl]; rfl
  rw [Absorbed]
  by_cases hltaken : r.taken id l.mac = true
  · refine iff_of_true (.inr fun j => ?_) (.inl hltaken)
    rw [hoverlap, write_taken, upsert_taken hl hltaken]
    · rfl
    · rw [hdelete.taken, hedit]
      exact hltaken
  rw [Bool.not_eq_true] at hltaken
  have hfinal : At r id (some (l.edit row)) (overlap r (.delete id) l) := by
    rw [hoverlap]
    exact hdelete.write (hedit.trans hltaken)
  -- nobody has the MAC any more
  have hnobody : ∀ other found, (r.deleteCameraById id).rows.get? other = some found → found.mac = l.mac → l.mac = "" := by
    intro other found hother hmac
    by_contra hne
    rw [get?_delete] at hother
    split at hother
    · cases hother
    next hdiff => exact hdiff (not_taken hltaken hother hmac hne)
  have hgone : r.rows.get? l.derivedId = none ∨ l.derivedId = id := hfound.symm.imp_left fun h => h.2.1
  have hexisting : (r.deleteCameraById id).existing l = none := by
    have hnone : (r.deleteCameraById id).rows.get? l.derivedId = none := by
      rw [get?_delete]
      split
      · rfl
      next hdiff => exact hgone.resolve_right hdiff
    rw [Registry.existing, getCameraById, hnone]
    exact getCamera_none hnobody
  have hexec : exec (r.deleteCameraById id) (.upsert l) = (r.deleteCameraById id).write l.derivedId (l.edit { mac := l.mac }) := by
    rw [exec_upsert, upsertCamera, hexisting]
    rfl
  have hmac : (l.edit { mac := l.mac }).mac = l.mac := ite_self _
  simp only [hltaken, Bool.false_eq_true, false_or]
  constructor
  · rintro (hsame | hsame)
    · by_cases hid : l.derivedId = id
      · refine ⟨hid, ?_⟩
        have hserial : At r id (some (l.edit { mac := l.mac })) (exec (r.deleteCameraById id) (.upsert l)) := by
          rw [hexec, hid]
          exact hdelete.write (by rw [hmac]; exact hltaken)
        exact Upsert.edit_fresh_iff.mp (Option.some.inj ((hfinal.same_iff hserial).mp hsame))
      · -- the camera comes back under another ID
        have hrow : (exec (r.deleteCameraById id) (.upsert l)).rows.get? id = none := by
          rw [hexec, Registry.write]
          split
          · rw [get?_put, if_neg (Ne.symm hid)]
            exact hdelete.get?
          · exact hdelete.get?
        have hthere := (hsame id).symm.trans hfinal.get?
        rw [exec_delete, hrow] at hthere
        cases hthere
    · have hthere := (hsame id).symm.trans hfinal.get?
      rw [exec_delete, (at_delete _ id).get?] at hthere
      cases hthere
  · rintro ⟨hid, hfresh⟩
    left
    have hserial : At r id (some (l.edit { mac := l.mac })) (exec (exec r (.delete id)) (.upsert l)) := by
      rw [exec_delete, hexec, hid]
      exact hdelete.write (by rw [hmac]; exact hltaken)
    rw [hfinal.same_iff hserial, Upsert.edit_fresh_iff.mpr hfresh]

theorem refresh_eq {camera : Camera} (hget : r.rows.get? id = some camera) (seen : Camera) (ip : String) :
    r.refreshAddress id seen ip =
      if camera.mac = seen.mac ∧ camera.lastIp = seen.lastIp then
        r.put id { camera with lastIp := ip } (show r.taken id camera.mac = false from own_mac hget)
      else r := by
  unfold refreshAddress
  split
  next found hfound =>
    rw [hget] at hfound
    cases hfound
    rfl
  next hnone =>
    rw [hget] at hnone
    cases hnone

theorem refresh_at {r' : Registry} {camera : Camera} (h : At r id (some camera) r') (seen : Camera) (ip : String) :
    At r id (some (if camera.mac = seen.mac ∧ camera.lastIp = seen.lastIp then { camera with lastIp := ip } else camera))
      (r'.refreshAddress id seen ip) := by
  rw [refresh_eq h.get?]
  split
  · intro j
    rw [get?_put]
    split
    · rfl
    next hne => exact h.others hne
  · exact h

theorem refresh_mac (seen : Camera) (ip : String) (camera : Camera) :
    (if camera.mac = seen.mac ∧ camera.lastIp = seen.lastIp then { camera with lastIp := ip } else camera).mac = camera.mac := by
  split <;> rfl

theorem edit_address_iff (ip : String) : l.edit row = l.edit { row with lastIp := ip } ↔ ip = row.lastIp ∨ l.lastIp ≠ none := by
  have haddress : l.lastIp.getD row.lastIp = l.lastIp.getD ip ↔ ip = row.lastIp ∨ l.lastIp ≠ none := by
    rw [Upsert.getD_iff]
    constructor
    · intro h
      by_cases hnone : l.lastIp = none
      · exact .inl (h hnone).symm
      · exact .inr hnone
    · rintro (h | h) hnone
      · exact h.symm
      · exact absurd hnone h
  rw [← haddress, Camera.ext_iff]
  exact ⟨fun h => h.2.2.2.2.2.2.1, fun h => ⟨rfl, rfl, rfl, rfl, rfl, rfl, h, rfl, rfl⟩⟩

/-- **An upsert and a new address.** -/
theorem overlap_refresh_iff (hl : r.existing l = some (id, row)) (seen : Camera) (ip : String) :
    (overlap r (.refresh id seen ip) l).Same (exec (exec r (.refresh id seen ip)) (.upsert l)) ∨
      (overlap r (.refresh id seen ip) l).Same (exec (exec r (.upsert l)) (.refresh id seen ip)) ↔
      Absorbed r id row (.refresh id seen ip) (.upsert l) := by
  obtain ⟨hget, -⟩ := existing_cases hl
  have hself := at_self hget
  have hrefresh := refresh_at hself seen ip
  generalize hmoved : (if row.mac = seen.mac ∧ row.lastIp = seen.lastIp then { row with lastIp := ip } else row) = moved at hrefresh
  have hmac : moved.mac = row.mac := hmoved ▸ refresh_mac seen ip row
  have hfound := hrefresh.existing hl (.inr hmac)
  have hedit : r.taken id (l.edit row).mac = r.taken id l.mac := taken_edit (own_mac hget)
  have hoverlap : overlap r (.refresh id seen ip) l = (r.refreshAddress id seen ip).write id (l.edit row) := by rw [overlap, hl]; rfl
  rw [Absorbed]
  by_cases hltaken : r.taken id l.mac = true
  · refine iff_of_true (.inl fun j => ?_) (.inl hltaken)
    rw [hoverlap, write_taken, exec_refresh, upsert_taken hfound ((hrefresh.taken _).trans hltaken)]
    rw [hrefresh.taken, hedit]
    exact hltaken
  rw [Bool.not_eq_true] at hltaken
  have hfinal : At r id (some (l.edit row)) (overlap r (.refresh id seen ip) l) := by
    rw [hoverlap]
    exact hrefresh.write (hedit.trans hltaken)
  have hbehind := hrefresh.upsert hfound hltaken
  have hahead := refresh_at (hself.upsert hl hltaken) seen ip
  rw [exec_refresh, exec_refresh, hfinal.same_iff hbehind, hfinal.same_iff hahead]
  simp only [hltaken, Bool.false_eq_true, false_or, Option.some.injEq]
  by_cases hseen : row.mac = seen.mac ∧ row.lastIp = seen.lastIp
  swap
  · rw [if_neg hseen] at hmoved
    exact iff_of_true (.inl (by rw [hmoved])) (.inl hseen)
  rw [if_pos hseen] at hmoved
  rw [← hmoved, edit_address_iff]
  have hkeeps : ¬ (ip = row.lastIp ∨ l.lastIp ≠ none) →
      (l.edit row = (if (l.edit row).mac = seen.mac ∧ (l.edit row).lastIp = seen.lastIp then { l.edit row with lastIp := ip }
        else l.edit row) ↔ l.mac ≠ "" ∧ l.mac ≠ row.mac) := by
    intro hnot
    rw [not_or, not_not] at hnot
    obtain ⟨hip, hnone⟩ := hnot
    have hlast : (l.edit row).lastIp = row.lastIp := by rw [Upsert.edit, hnone]; rfl
    have hmacs : (l.edit row).mac = seen.mac ↔ ¬ (l.mac ≠ "" ∧ l.mac ≠ row.mac) := by
      rw [← hseen.1, Upsert.edit]
      by_cases hempty : l.mac = "" <;> simp [hempty]
    constructor
    · intro heq
      by_contra hsame
      rw [if_pos ⟨hmacs.mpr hsame, hlast.trans hseen.2⟩] at heq
      exact hip ((congrArg Camera.lastIp heq).symm.trans hlast)
    · intro hother
      rw [if_neg fun hmatch => hmacs.mp hmatch.1 hother]
  by_cases hhides : ip = row.lastIp ∨ l.lastIp ≠ none
  · exact iff_of_true (.inl hhides) (.inr (hhides.elim .inl fun h => .inr (.inl h)))
  · rw [hkeeps hhides]
    constructor
    · rintro (h | h)
      · exact absurd h hhides
      · exact .inr (.inr (.inr h))
    · rintro (h | h | h | h)
      · exact absurd hseen h
      · exact absurd (.inl h) hhides
      · exact absurd (.inr h) hhides
      · exact .inr h

/-- An operation on this camera: what it looks for is found there. -/
def OnCamera (r : Registry) (id : CameraId) : Op → Prop
  | .upsert u => ∃ camera, r.existing u = some (id, camera)
  | .delete other => other = id
  | .refresh other _ _ => other = id
  | .reconcile mac derivedId address => ∃ camera, r.getCamera mac = some (id, camera) ∧
      r.existing (readdress mac derivedId address) = some (id, camera)

/-! ## Scans -/

variable {mac address : String} {derivedId : CameraId}

theorem exec_reconcile (r : Registry) (mac : String) (derivedId : CameraId) (address : String) :
    exec r (.reconcile mac derivedId address) =
      if (r.getCamera mac).isNone then r else exec r (.upsert (readdress mac derivedId address)) := rfl

theorem exec_found (hfound : r.getCamera mac = some (id, row)) :
    exec r (.reconcile mac derivedId address) = exec r (.upsert (readdress mac derivedId address)) := by
  rw [exec_reconcile, hfound]
  rfl

theorem exec_missed (hmissed : r.getCamera mac = none) : exec r (.reconcile mac derivedId address) = r := by
  rw [exec_reconcile, hmissed]
  rfl

/-- A scan provides the MAC by which it has found the camera. -/
theorem readdress_free (hfound : r.getCamera mac = some (id, row)) : r.taken id (readdress mac derivedId address).mac = false := by
  obtain ⟨-, hget, hmac⟩ := getCamera_found hfound
  rw [show (readdress mac derivedId address).mac = row.mac from hmac.symm]
  exact own_mac hget

theorem readdress_mac (hfound : r.getCamera mac = some (id, row)) (camera : Camera) :
    ((readdress mac derivedId address).edit camera).mac = row.mac := by
  obtain ⟨hne, -, hmac⟩ := getCamera_found hfound
  rw [hmac]
  exact if_neg hne

theorem at_reconcile (hfound : r.getCamera mac = some (id, row))
    (hexisting : r.existing (readdress mac derivedId address) = some (id, row)) :
    At r id (some ((readdress mac derivedId address).edit row)) (exec r (.reconcile mac derivedId address)) := by
  rw [exec_found hfound]
  exact (at_self (existing_cases hexisting).1).upsert hexisting (readdress_free hfound)

/-- **A scan, and an upsert that writes last.** -/
theorem overlap_reconcile_iff (hfound : r.getCamera mac = some (id, row))
    (hexisting : r.existing (readdress mac derivedId address) = some (id, row)) (hl : r.existing l = some (id, row)) :
    (overlap r (.reconcile mac derivedId address) l).Same (exec (exec r (.reconcile mac derivedId address)) (.upsert l)) ∨
      (overlap r (.reconcile mac derivedId address) l).Same (exec (exec r (.upsert l)) (.reconcile mac derivedId address)) ↔
      Absorbed r id row (.reconcile mac derivedId address) (.upsert l) := by
  obtain ⟨hget, -⟩ := existing_cases hl
  have hscan := at_reconcile hfound hexisting
  have hmac : ((readdress mac derivedId address).edit row).mac = row.mac := readdress_mac hfound row
  have hagain := hscan.existing hl (.inr hmac)
  have hedit : r.taken id (l.edit row).mac = r.taken id l.mac := taken_edit (own_mac hget)
  have hoverlap : overlap r (.reconcile mac derivedId address) l =
      (exec r (.reconcile mac derivedId address)).write id (l.edit row) := by rw [overlap, hl]; rfl
  rw [Absorbed]
  by_cases hltaken : r.taken id l.mac = true
  · refine iff_of_true (.inl fun j => ?_) (.inl hltaken)
    rw [hoverlap, write_taken, upsert_taken hagain ((hscan.taken _).trans hltaken)]
    rw [hscan.taken, hedit]
    exact hltaken
  rw [Bool.not_eq_true] at hltaken
  have hfinal : At r id (some (l.edit row)) (overlap r (.reconcile mac derivedId address) l) := by
    rw [hoverlap]
    exact hscan.write (hedit.trans hltaken)
  have hlast := (at_self hget).upsert hl hltaken
  simp only [hltaken, Bool.false_eq_true, false_or]
  by_cases hmoved : l.mac ≠ "" ∧ l.mac ≠ row.mac
  · refine iff_of_true (.inr ?_) (.inl hmoved)
    have hgone : (exec r (.upsert l)).getCamera mac = none := by
      refine hlast.missed hfound fun camera hcamera => ?_
      cases hcamera
      rw [Upsert.edit, if_neg hmoved.1]
      exact hmoved.2
    rw [exec_missed hgone, hfinal.same_iff hlast]
  have hkept : (l.edit row).mac = row.mac := Upsert.edit_mac_iff.mpr (by tauto)
  rw [or_iff_right hmoved]
  -- the two are upserts of a camera that keeps its MAC
  have hupserts := overlap_upsert_iff hexisting hl
  have hfirst : exec r (.reconcile mac derivedId address) = exec r (.upsert (readdress mac derivedId address)) := exec_found hfound
  have hsecond : exec (exec r (.upsert l)) (.reconcile mac derivedId address) =
      exec (exec r (.upsert l)) (.upsert (readdress mac derivedId address)) := exec_found (hlast.found hfound hkept)
  rw [hoverlap, hsecond, hfirst]
  rw [show overlap r (.upsert (readdress mac derivedId address)) l =
    (exec r (.upsert (readdress mac derivedId address))).write id (l.edit row) by rw [overlap, hl]; rfl] at hupserts
  rw [hupserts, Absorbed, readdress_free hfound, hltaken]
  have hown : (readdress mac derivedId address).mac = row.mac := (getCamera_found hfound).2.2.symm
  simp only [Bool.false_eq_true, false_or, hown, or_true, and_true]
  constructor
  · intro h
    by_cases hnone : l.lastIp = none
    · exact .inr (h.lastIp hnone address rfl)
    · exact .inl hnone
  · intro h
    refine ⟨fun _ => .inr hown, nofun, nofun, nofun, nofun, nofun, fun hnone v hv => ?_, nofun, nofun⟩
    cases hv
    exact h.resolve_left fun hsome => hsome hnone

/-- **An upsert, and a scan that writes last.** -/
theorem overlap_scan_upsert_iff (hf : r.existing f = some (id, row)) (hfound : r.getCamera mac = some (id, row))
    (hexisting : r.existing (readdress mac derivedId address) = some (id, row)) :
    (overlap r (.upsert f) (readdress mac derivedId address)).Same (exec (exec r (.upsert f)) (.reconcile mac derivedId address)) ∨
      (overlap r (.upsert f) (readdress mac derivedId address)).Same (exec (exec r (.reconcile mac derivedId address)) (.upsert f)) ↔
      Absorbed r id row (.upsert f) (.reconcile mac derivedId address) := by
  obtain ⟨hget, -⟩ := existing_cases hf
  have hself := at_self hget
  have hfree : r.taken id (readdress mac derivedId address).mac = false := readdress_free hfound
  have hupserts := overlap_upsert_iff hf hexisting
  rw [Absorbed, exec_found hfound]
  by_cases hftaken : r.taken id f.mac = true
  · rw [upsert_taken hf hftaken, exec_found hfound]
    rw [upsert_taken hf hftaken] at hupserts
    exact iff_of_true (hupserts.mpr (.inl hftaken)) (.inl hftaken)
  rw [Bool.not_eq_true] at hftaken
  have hfirst := hself.upsert hf hftaken
  simp only [hftaken, Bool.false_eq_true, false_or]
  by_cases hkept : f.mac = "" ∨ f.mac = row.mac
  · rw [exec_found (hfirst.found hfound (Upsert.edit_mac_iff.mpr hkept)), hupserts, Absorbed, hftaken, hfree]
    simp only [Bool.false_eq_true, false_or, hkept, or_true, and_true, true_and]
  -- the first one gives the camera another MAC, and the scan writes the old one
  refine iff_of_false ?_ fun h => hkept h.1
  have hmoved : (f.edit row).mac ≠ row.mac := fun h => hkept (Upsert.edit_mac_iff.mp h)
  have hscan := at_reconcile hfound hexisting
  rw [exec_found hfound] at hscan
  have hmac : ((readdress mac derivedId address).edit row).mac = row.mac := readdress_mac hfound row
  have hfinal : At r id (some ((readdress mac derivedId address).edit row)) (overlap r (.upsert f) (readdress mac derivedId address)) := by
    rw [overlap, hexisting]
    exact hfirst.write ((taken_edit (own_mac hget)).trans hfree)
  rintro (hsame | hsame)
  · rw [exec_missed (hfirst.missed hfound fun camera hcamera => by cases hcamera; exact hmoved), hfinal.same_iff hfirst] at hsame
    rw [← Option.some.inj hsame] at hmoved
    exact hmoved hmac
  · have hserial := hscan.upsert (hscan.existing hf (.inr hmac)) hftaken
    have heq := congrArg Camera.mac (Option.some.inj ((hfinal.same_iff hserial).mp hsame))
    rw [hmac] at heq
    rw [← hmac] at hkept
    exact hkept (Upsert.edit_mac_iff.mp (heq.symm.trans hmac.symm))

/-- **Any operation, and a scan that writes last.** -/
theorem overlap_scan_iff {other : Op} (hother : OnCamera r id other) (hfound : r.getCamera mac = some (id, row))
    (hexisting : r.existing (readdress mac derivedId address) = some (id, row)) :
    (overlap r other (readdress mac derivedId address)).Same (exec (exec r other) (.reconcile mac derivedId address)) ∨
      (overlap r other (readdress mac derivedId address)).Same (exec (exec r (.reconcile mac derivedId address)) other) ↔
      Absorbed r id row other (.reconcile mac derivedId address) := by
  obtain ⟨hget, -⟩ := existing_cases hexisting
  have hfree : r.taken id (readdress mac derivedId address).mac = false := readdress_free hfound
  cases other with
  | upsert f =>
    obtain ⟨camera, hf⟩ := hother
    obtain rfl : row = camera := existing_row hget hf
    exact overlap_scan_upsert_iff hf hfound hexisting
  | delete other =>
    obtain rfl : id = other := hother.symm
    have hdelete := at_delete r id
    have hfinal : At r id (some ((readdress mac derivedId address).edit row)) (overlap r (.delete id) (readdress mac derivedId address)) := by
      rw [overlap, hexisting]
      exact hdelete.write ((taken_edit (own_mac hget)).trans hfree)
    refine iff_of_false ?_ not_false
    rintro (hsame | hsame)
    · rw [exec_delete, exec_missed (hdelete.missed hfound fun _ h => by cases h), hfinal.same_iff hdelete] at hsame
      cases hsame
    · rw [exec_delete, hfinal.same_iff ((at_reconcile hfound hexisting).delete)] at hsame
      cases hsame
  | refresh other seen ip =>
    obtain rfl : id = other := hother.symm
    have hrefresh := refresh_at (at_self hget) seen ip
    rw [← exec_refresh] at hrefresh
    rw [exec_found (hrefresh.found hfound (refresh_mac seen ip row)), exec_found hfound, overlap_refresh_iff hexisting seen ip]
    exact iff_of_true (.inr (.inr (.inr (.inl nofun)))) trivial
  | reconcile mac' derivedId' address' =>
    obtain ⟨camera, hfound', hexisting'⟩ := hother
    obtain rfl : row = camera := existing_row hget hexisting'
    have hfirst := at_reconcile hfound' hexisting'
    rw [exec_found (hfirst.found hfound (readdress_mac hfound' row)), exec_found hfound, overlap_reconcile_iff hfound' hexisting' hexisting]
    exact iff_of_true (.inr (.inr (.inl nofun))) trivial

/-- **Any operation between the two readings of a scan.** -/
theorem steady_iff {other : Op} (hother : OnCamera r id other) (hfound : r.getCamera mac = some (id, row))
    (hexisting : r.existing (readdress mac derivedId address) = some (id, row)) :
    (exec (exec r other) (.upsert (readdress mac derivedId address))).Same (exec (exec r other) (.reconcile mac derivedId address)) ∨
      (exec (exec r other) (.upsert (readdress mac derivedId address))).Same (exec (exec r (.reconcile mac derivedId address)) other) ↔
      Steady r id row other := by
  obtain ⟨hget, hnamed⟩ := existing_cases hexisting
  have hself := at_self hget
  have hscan := at_reconcile hfound hexisting
  have hmac : ((readdress mac derivedId address).edit row).mac = row.mac := readdress_mac hfound row
  -- a camera that is found again is found by the scan alone, too
  have hagain (hstill : ∃ camera, (exec r other).getCamera mac = some (id, camera)) :
      (exec (exec r other) (.upsert (readdress mac derivedId address))).Same (exec (exec r other) (.reconcile mac derivedId address)) := by
    obtain ⟨camera, hcamera⟩ := hstill
    rw [exec_found hcamera]
    exact fun _ => rfl
  cases other with
  | upsert f =>
    obtain ⟨camera, hf⟩ := hother
    obtain rfl : row = camera := existing_row hget hf
    by_cases hftaken : r.taken id f.mac = true
    · exact iff_of_true (.inl (hagain ⟨row, (upsert_taken hf hftaken).symm ▸ hfound⟩)) (.inl hftaken)
    rw [Bool.not_eq_true] at hftaken
    have hfirst := hself.upsert hf hftaken
    by_cases hkept : f.mac = "" ∨ f.mac = row.mac
    · exact iff_of_true (.inl (hagain ⟨_, hfirst.found hfound (Upsert.edit_mac_iff.mpr hkept)⟩)) (.inr hkept)
    have hmoved : (f.edit row).mac ≠ row.mac := fun h => hkept (Upsert.edit_mac_iff.mp h)
    -- the scan gives the camera its old MAC back, or registers another one
    have hdiffers (camera : Camera) {r' : Registry} (hat : At r id (some camera) r') (hother : camera.mac ≠ row.mac) :
        ¬ (exec (exec r (.upsert f)) (.upsert (readdress mac derivedId address))).Same r' := by
      intro hsame
      by_cases hid : derivedId = id
      · have hfinal := hfirst.upsert (hfirst.existing hexisting (.inl hid)) (readdress_free hfound)
        have heq := congrArg Camera.mac (Option.some.inj ((hfinal.same_iff hat).mp hsame))
        rw [readdress_mac hfound] at heq
        exact hother heq.symm
      · obtain ⟨hnew, hnone⟩ := hfirst.lost hexisting hid hmoved
        exact hnew ((hsame _).trans ((hat.others hid).trans hnone))
    refine iff_of_false ?_ fun h => h.elim (fun h => by rw [hftaken] at h; cases h) hkept
    rintro (hsame | hsame)
    · rw [exec_missed (hfirst.missed hfound fun camera hcamera => by cases hcamera; exact hmoved)] at hsame
      exact hdiffers _ hfirst hmoved hsame
    · have hserial := hscan.upsert (hscan.existing hf (.inr hmac)) hftaken
      refine hdiffers _ hserial (fun h => hkept ?_) hsame
      rw [← hmac] at h ⊢
      exact Upsert.edit_mac_iff.mp h
  | delete other =>
    obtain rfl : id = other := hother.symm
    have hdelete := at_delete r id
    have hmissed : (r.deleteCameraById id).getCamera mac = none := hdelete.missed hfound fun _ h => by cases h
    have hgone {r' : Registry} (hat : At r id none r') : r'.rows.get? derivedId = none := by
      by_cases hid : derivedId = id
      · rw [hid, hat.get?]
      · exact (hat.others hid).trans (hnamed.resolve_left hid).2.1
    have hnew := upsert_afresh (u := readdress mac derivedId address) (hgone hdelete) hmissed
    refine iff_of_false ?_ not_false
    rintro (hsame | hsame)
    · rw [exec_delete, exec_missed hmissed] at hsame
      exact hnew ((hsame _).trans (hgone hdelete))
    · exact hnew ((hsame _).trans (hgone hscan.delete))
  | refresh other seen ip =>
    obtain rfl : id = other := hother.symm
    have hrefresh := refresh_at hself seen ip
    exact iff_of_true (.inl (hagain ⟨_, hrefresh.found hfound (refresh_mac seen ip row)⟩)) trivial
  | reconcile mac' derivedId' address' =>
    obtain ⟨camera, hfound', hexisting'⟩ := hother
    obtain rfl : row = camera := existing_row hget hexisting'
    have hfirst := at_reconcile hfound' hexisting'
    exact iff_of_true (.inl (hagain ⟨_, hfirst.found hfound (readdress_mac hfound' row)⟩)) trivial

/-- **Any operation, and an upsert that writes last.** -/
theorem overlap_iff {other : Op} (hother : OnCamera r id other) (hl : r.existing l = some (id, row)) :
    (overlap r other l).Same (exec (exec r other) (.upsert l)) ∨ (overlap r other l).Same (exec (exec r (.upsert l)) other) ↔
      Absorbed r id row other (.upsert l) := by
  obtain ⟨hget, -⟩ := existing_cases hl
  cases other with
  | upsert f =>
    obtain ⟨camera, hf⟩ := hother
    obtain rfl : row = camera := existing_row hget hf
    exact overlap_upsert_iff hf hl
  | delete other =>
    obtain rfl : id = other := hother.symm
    exact overlap_delete_iff hl
  | refresh other seen ip =>
    obtain rfl : id = other := hother.symm
    exact overlap_refresh_iff hl seen ip
  | reconcile mac derivedId address =>
    obtain ⟨camera, hfound, hexisting⟩ := hother
    obtain rfl : row = camera := existing_row hget hexisting
    exact overlap_reconcile_iff hfound hexisting hl

end Overlap

/-! ## Interleavings -/

/-- How many transactions are left of an operation, at most. -/
def Progress.left : Progress → Nat
  | .ready op => op.steps
  | .found _ => 2
  | .writing .. => 1
  | .done => 0

/-- A scan that looks for a camera finds it. -/
def Progress.Finds (r : Registry) : Progress → Prop
  | .ready (.reconcile mac _ _) => (r.getCamera mac).isSome
  | _ => True

/-- An operation after so many turns, while nothing is written. -/
def Progress.turns (r : Registry) : Progress → Nat → Progress
  | p, 0 => p
  | p, n + 1 => turns r (advance r p).2 n

/-- The registry after so many turns of one operation. -/
def Progress.rest (r : Registry) : Progress → Nat → Registry
  | _, 0 => r
  | p, n + 1 => rest (advance r p).1 (advance r p).2 n

section Interleavings

variable {r : Registry} {p q : Progress} {a b : Op}

theorem advance_early (hfinds : p.Finds r) (hleft : 1 < p.left) :
    (advance r p).1 = r ∧ (advance r p).2.left + 1 = p.left ∧ (advance r p).2.Finds r := by
  cases p with
  | ready op =>
    cases op with
    | upsert u => exact ⟨rfl, rfl, trivial⟩
    | reconcile mac derivedId address =>
      obtain ⟨found, hfound⟩ := Option.isSome_iff_exists.mp hfinds
      rw [show advance r (.ready (.reconcile mac derivedId address)) = (r, .found (readdress mac derivedId address)) by
        rw [advance, hfound]; rfl]
      exact ⟨rfl, rfl, trivial⟩
    | delete _ | refresh _ _ _ => exact absurd hleft (lt_irrefl 1)
  | found u => exact ⟨rfl, rfl, trivial⟩
  | writing id camera => exact absurd hleft (lt_irrefl 1)
  | done => exact absurd hleft (Nat.not_lt_zero 1)

theorem step_true (r : Registry) (p q : Progress) : Race.step ⟨r, p, q⟩ true = ⟨(advance r p).1, (advance r p).2, q⟩ := rfl

theorem step_false (r : Registry) (p q : Progress) : Race.step ⟨r, p, q⟩ false = ⟨(advance r q).1, p, (advance r q).2⟩ := rfl

theorem quiet_turns (schedule : List Bool) (hp : p.Finds r) (hq : q.Finds r) (htrue : schedule.count true < p.left)
    (hfalse : schedule.count false < q.left) :
    schedule.foldl Race.step ⟨r, p, q⟩ = ⟨r, p.turns r (schedule.count true), q.turns r (schedule.count false)⟩ := by
  induction schedule generalizing p q with
  | nil => rfl
  | cons who schedule ih =>
    cases who with
    | true =>
      rw [List.count_cons_self] at htrue
      rw [List.count_cons_of_ne (by decide)] at hfalse
      obtain ⟨hquiet, hleft, hfinds⟩ := advance_early hp (by omega)
      rw [List.foldl_cons, List.count_cons_self, List.count_cons_of_ne (by decide)]
      rw [step_true, hquiet]
      exact ih hfinds hq (by omega) hfalse
    | false =>
      rw [List.count_cons_self] at hfalse
      rw [List.count_cons_of_ne (by decide)] at htrue
      obtain ⟨hquiet, hleft, hfinds⟩ := advance_early hq (by omega)
      rw [List.foldl_cons, List.count_cons_self, List.count_cons_of_ne (by decide)]
      rw [step_false, hquiet]
      exact ih hp hfinds htrue (by omega)

/-- What an operation has read before its last turn is the row that it would read alone. -/
theorem last_turn (hfinds : (Progress.ready a).Finds r) :
    advance r ((Progress.ready a).turns r (a.steps - 1)) = (exec r a, .done) := by
  cases a with
  | upsert u => rfl
  | delete id => rfl
  | refresh id seen ip => rfl
  | reconcile mac derivedId address =>
    obtain ⟨found, hfound⟩ := Option.isSome_iff_exists.mp hfinds
    simp only [Op.steps, Progress.turns, advance, exec, hfound, Option.isNone_some, Bool.false_eq_true, if_false]
    rfl

theorem foldl_rest (n : Nat) (r : Registry) (p q : Progress) :
    ((List.replicate n false).foldl Race.step ⟨r, p, q⟩).registry = q.rest r n := by
  induction n generalizing r q with
  | zero => rfl
  | succ n ih => exact ih _ _

theorem rest_ready (r : Registry) (b : Op) : (Progress.ready b).rest r b.steps = exec r b := by
  cases b with
  | upsert u => rfl
  | delete id => rfl
  | refresh id seen ip => rfl
  | reconcile mac derivedId address =>
    have hlook : advance r (.ready (.reconcile mac derivedId address)) =
        if (r.getCamera mac).isNone then (r, .done) else (r, .found (readdress mac derivedId address)) := rfl
    rw [Op.steps, Progress.rest, hlook, exec_reconcile]
    split <;> rfl

/-- The other operation goes on behind the first one's last turn. -/
theorem race_behind (ha : (Progress.ready a).Finds r) (hb : (Progress.ready b).Finds r) {before : List Bool} {n : Nat}
    (htrue : before.count true + 1 = a.steps) (hfalse : before.count false + (n + 1) = b.steps) :
    race r a b (before ++ true :: List.replicate (n + 1) false) =
      ((Progress.ready b).turns r (before.count false)).rest (exec r a) (n + 1) := by
  have hquiet := quiet_turns before ha hb (by rw [Progress.left]; omega) (by rw [Progress.left]; omega)
  have hlast := last_turn ha
  rw [← htrue, Nat.add_sub_cancel] at hlast
  rw [race, List.foldl_append, hquiet, List.foldl_cons, step_true, hlast]
  exact foldl_rest ..

theorem race_swap (r : Registry) (a b : Op) (schedule : List Bool) : race r a b (schedule.map not) = race r b a schedule := by
  have hswap : ∀ (schedule : List Bool) (s : Race), (schedule.map not).foldl Race.step s =
      (fun s : Race => ⟨s.registry, s.second, s.first⟩) (schedule.foldl Race.step ⟨s.registry, s.second, s.first⟩) := by
    intro schedule
    induction schedule with
    | nil => exact fun _ => rfl
    | cons who schedule ih =>
      intro s
      rw [List.map_cons, List.foldl_cons, List.foldl_cons, ih]
      cases who <;> rfl
  rw [race, hswap]
  rfl

theorem OnCamera.finds {id : CameraId} (h : OnCamera r id a) : (Progress.ready a).Finds r := by
  cases a with
  | reconcile mac derivedId address =>
    obtain ⟨camera, hfound, -⟩ := h
    exact Option.isSome_iff_exists.mpr ⟨_, hfound⟩
  | upsert _ | delete _ | refresh _ _ _ => trivial

end Interleavings

/-- All turns of both operations are taken, and no more. -/
def Complete (a b : Op) (schedule : List Bool) : Prop := schedule.count true = a.steps ∧ schedule.count false = b.steps

/-- How many turns of one operation a schedule ends with. -/
def lastTurns (schedule : List Bool) (who : Bool) : Nat := (schedule.reverse.takeWhile (· == who)).length

/-- When the operation that writes first loses nothing to the other one, of which so many
turns come behind: all of them; or only the last one, so that it has read the row before;
or, of a scan, all but the first one. -/
def Unharmed (r : Registry) (id : CameraId) (row : Camera) (f l : Op) (turns : Nat) : Prop :=
  turns = l.steps ∨ if turns = 1 then Absorbed r id row f l else Steady r id row f

/-- When an interleaving of two operations loses nothing. -/
def LosesNothing (r : Registry) (id : CameraId) (row : Camera) (a b : Op) (schedule : List Bool) : Prop :=
  match schedule.getLast? with
  | some true => Unharmed r id row b a (lastTurns schedule true)
  | some false => Unharmed r id row a b (lastTurns schedule false)
  | none => True

theorem ends_with {schedule : List Bool} {who : Bool} (h : (!who) ∈ schedule) :
    ∃ before n, schedule = before ++ (!who) :: List.replicate n who := by
  induction schedule using List.reverseRecOn with
  | nil => cases h
  | append_singleton schedule last ih =>
    by_cases hlast : last = !who
    · exact ⟨schedule, 0, by rw [hlast, List.replicate_zero]⟩
    have hwho : last = who := by simpa using hlast
    obtain ⟨before, n, heq⟩ := ih (by simpa [Ne.symm hlast] using h)
    refine ⟨before, n + 1, ?_⟩
    rw [heq, hwho, List.replicate_succ', List.append_assoc, List.cons_append]

/-- A schedule of two operations ends with turns of one of them. -/
theorem schedule_cases {schedule : List Bool} (htrue : 0 < schedule.count true) (hfalse : 0 < schedule.count false) :
    ∃ who before n, schedule = before ++ (!who) :: List.replicate (n + 1) who := by
  rcases List.eq_nil_or_concat schedule with rfl | ⟨rest, who, rfl⟩
  · cases htrue
  rw [List.concat_eq_append] at htrue hfalse ⊢
  have hother : (!who) ∈ rest := by
    have hmem : (!who) ∈ rest ++ [who] := by
      cases who with
      | true => exact List.count_pos_iff.mp hfalse
      | false => exact List.count_pos_iff.mp htrue
    simpa using hmem
  obtain ⟨before, n, rfl⟩ := ends_with hother
  refine ⟨who, before, n, ?_⟩
  rw [List.replicate_succ', List.append_assoc, List.cons_append]

theorem count_map_not (schedule : List Bool) (who : Bool) : (schedule.map not).count who = schedule.count (!who) := by
  induction schedule with
  | nil => rfl
  | cons b schedule ih =>
    rw [List.map_cons, List.count_cons, List.count_cons, ih]
    cases b <;> cases who <;> rfl

theorem lastTurns_replicate (before : List Bool) (who : Bool) (n : Nat) :
    lastTurns (before ++ (!who) :: List.replicate n who) who = n := by
  rw [lastTurns, List.reverse_append, List.reverse_cons, List.reverse_replicate, List.append_assoc,
    List.takeWhile_append_of_pos (by simp), List.length_append, List.length_replicate]
  simp

theorem getLast?_replicate (before : List Bool) (who other : Bool) (n : Nat) :
    (before ++ other :: List.replicate (n + 1) who).getLast? = some who := by
  rw [List.replicate_succ', ← List.cons_append, ← List.append_assoc, List.getLast?_concat]

/-- **When the second operation writes last.** -/
theorem serialisable_behind {r : Registry} {id : CameraId} {row : Camera} (hrow : r.rows.get? id = some row) {a b : Op}
    (ha : OnCamera r id a) (hb : OnCamera r id b) {before : List Bool} {n : Nat} (htrue : before.count true + 1 = a.steps)
    (hfalse : before.count false + (n + 1) = b.steps) :
    Serialisable r a b (before ++ true :: List.replicate (n + 1) false) ↔ Unharmed r id row a b (n + 1) := by
  have hrace := race_behind ha.finds hb.finds htrue hfalse
  rw [Serialisable, hrace, Unharmed]
  by_cases hserial : n + 1 = b.steps
  · have hnone : before.count false = 0 := by omega
    refine iff_of_true (.inl ?_) (.inl hserial)
    rw [hnone, hserial, Progress.turns, rest_ready]
    exact fun _ => rfl
  rw [or_iff_right hserial]
  cases b with
  | upsert l =>
    have hn : n = 0 := by rw [Op.steps] at hserial hfalse; omega
    subst hn
    obtain ⟨camera, hl⟩ := hb
    obtain rfl : row = camera := existing_row hrow hl
    rw [show before.count false = 1 by rw [Op.steps] at hfalse; omega, if_pos rfl]
    exact overlap_iff ha hl
  | reconcile mac derivedId address =>
    obtain ⟨camera, hfound, hexisting⟩ := hb
    obtain rfl : row = camera := existing_row hrow hexisting
    have hlook : advance r (.ready (.reconcile mac derivedId address)) = (r, .found (readdress mac derivedId address)) := by
      rw [advance, hfound]
      rfl
    rcases (by rw [Op.steps] at hserial hfalse; omega : n = 0 ∨ n = 1) with rfl | rfl
    · rw [show before.count false = 2 by rw [Op.steps] at hfalse; omega, if_pos rfl, Progress.turns, hlook]
      exact overlap_scan_iff ha hfound hexisting
    · rw [show before.count false = 1 by rw [Op.steps] at hfalse; omega, if_neg (by decide), Progress.turns, hlook]
      exact steady_iff ha hfound hexisting
  | delete other =>
    have hsteps : (Op.delete other).steps = 1 := rfl
    omega
  | refresh other seen ip =>
    have hsteps : (Op.refresh other seen ip).steps = 1 := rfl
    omega

/-- **No update is lost exactly when** the operation that writes first loses nothing to the
turns of the other one that come behind. -/
theorem serialisable_iff {r : Registry} {id : CameraId} {row : Camera} (hrow : r.rows.get? id = some row) {a b : Op}
    (ha : OnCamera r id a) (hb : OnCamera r id b) {schedule : List Bool} (hschedule : Complete a b schedule) :
    Serialisable r a b schedule ↔ LosesNothing r id row a b schedule := by
  have hsteps (op : Op) : 0 < op.steps := by cases op <;> exact Nat.succ_pos _
  obtain ⟨htrue, hfalse⟩ := hschedule
  obtain ⟨who, before, n, rfl⟩ := schedule_cases (htrue ▸ hsteps a) (hfalse ▸ hsteps b)
  rw [LosesNothing, getLast?_replicate]
  rw [List.count_append, List.count_cons] at htrue hfalse
  cases who with
  | false =>
    simp only [lastTurns_replicate]
    refine serialisable_behind hrow ha hb ?_ ?_
    · simpa [List.count_replicate] using htrue
    · simpa [List.count_replicate] using hfalse
  | true =>
    simp only [lastTurns_replicate]
    -- the two operations change places
    have hbehind : Serialisable r b a (before.map not ++ true :: List.replicate (n + 1) false) ↔ Unharmed r id row b a (n + 1) := by
      refine serialisable_behind hrow hb ha ?_ ?_
      · rw [count_map_not]
        simpa [List.count_replicate] using hfalse
      · rw [count_map_not]
        simpa [List.count_replicate] using htrue
    rw [← hbehind, Serialisable, Serialisable, or_comm, ← race_swap]
    simp

/-- A camera at the porch, with its credentials. -/
def porchId : CameraId := ⟨"cam_000000000000000000000000", by decide⟩

def porchCamera : Camera := { mac := "00:00:5e:00:53:01", password := "secret", lastIp := "192.0.2.7" }

def porchRegistry : Registry := Registry.put ⟨∅, nofun⟩ porchId porchCamera rfl

/-- An edit of the name, and one of the path. -/
def rename : Upsert := { derivedId := porchId, name := some "Porch" }

def repath : Upsert := { derivedId := porchId, streamPath := some "/live" }

/-- A scan that finds the camera, reads it behind the edit and writes before it. -/
theorem serialisable_iff_scan :
    let scan := Op.reconcile "00:00:5e:00:53:01" porchId "192.0.2.7"
    Serialisable porchRegistry scan (.upsert rename) [true, false, true, true, false] := by
  intro scan
  have hrow : porchRegistry.rows.get? porchId = some porchCamera := rfl
  have hscan : OnCamera porchRegistry porchId scan := ⟨porchCamera, rfl, rfl⟩
  have hrename : OnCamera porchRegistry porchId (.upsert rename) := ⟨porchCamera, rfl⟩
  -- the scan has found the address that is there
  exact (serialisable_iff hrow hscan hrename ⟨rfl, rfl⟩).mpr (.inr (.inr (.inr (.inr rfl))))

/-- Of two edits of different fields one is lost, and a deleted camera comes back with its
credentials. -/
theorem updates_lost :
    ¬ Serialisable porchRegistry (.upsert rename) (.upsert repath) [true, false, true, false] ∧
      ((race porchRegistry (.upsert rename) (.delete porchId) [true, false, true]).rows.get? porchId).map Camera.password =
        some "secret" := by
  have hrace : ((race porchRegistry (.upsert rename) (.upsert repath) [true, false, true, false]).rows.get? porchId).map Camera.name =
      some "" := by decide
  have hfirst : ((exec (exec porchRegistry (.upsert rename)) (.upsert repath)).rows.get? porchId).map Camera.name = some "Porch" := by
    decide
  have hsecond : ((exec (exec porchRegistry (.upsert repath)) (.upsert rename)).rows.get? porchId).map Camera.name = some "Porch" := by
    decide
  refine ⟨?_, by decide⟩
  rintro (hsame | hsame)
  · rw [hsame, hfirst] at hrace
    exact absurd hrace (by decide)
  · rw [hsame, hsecond] at hrace
    exact absurd hrace (by decide)

end CamGuard.Db
