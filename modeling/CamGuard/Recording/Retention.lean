/-
Retention (`retention.py`): one pass of `purge` over the recordings index and the
disk. What the disk does is the pass's `PurgeEnv`; the events say which files it
has touched.

A pass is exact (`Exact`) if it purges each expired recording whose segment it
could remove, and no other. It is so exactly if no playback copy of such a
recording fails to go (`purge_exact_iff`): that failure alone ends the pass.

Left out: the empty directories, which are pruned once the index is written.
-/
import Mathlib.Data.Finset.Basic

namespace CamGuard.Recording

structure RecordingRow where
  id : Nat
  path : String
  startedAt : String
  deriving DecidableEq, Repr

/-- The table `recordings`. -/
structure RecordingsIndex where
  rows : List RecordingRow
  ids : (rows.map RecordingRow.id).Nodup
  paths : (rows.map RecordingRow.path).Nodup

namespace RecordingsIndex

/-- `DELETE FROM recordings WHERE id = ?`, for each of these. -/
def delete (purgedIds : List Nat) (index : RecordingsIndex) : RecordingsIndex where
  rows := index.rows.filter fun row => row.id ∉ purgedIds
  ids := index.ids.sublist (List.filter_sublist.map _)
  paths := index.paths.sublist (List.filter_sublist.map _)

end RecordingsIndex

/-- The segments and the playback copies that there are. -/
structure Disk where
  segments : Finset String
  cache : Finset String

/-- What the outside decides in a pass. -/
structure PurgeEnv where
  cutoff : String
  /-- `playback.cache_path`, while the segment is there. -/
  cachePath : String → String
  /-- To unlink the segment raises `OSError`. -/
  segmentFails : String → Bool
  /-- To unlink its playback copy does. -/
  cacheFails : String → Bool

inductive PurgeEvent where
  /-- The segment is removed, or was gone. -/
  | unlinked (path : String)
  | kept (path : String)
  | uncached (path : String) (cache : String)
  deriving DecidableEq, Repr

/-- What a pass has done; `returned` is false where an exception left it. -/
structure PurgePass where
  returned : Bool
  disk : Disk
  purgedIds : List Nat
  events : List PurgeEvent

/-- The segment that an event is about. -/
def PurgeEvent.path : PurgeEvent → String
  | unlinked path => path
  | kept path => path
  | uncached path _ => path

def RecordingRow.expired (env : PurgeEnv) (row : RecordingRow) : Bool := row.startedAt < env.cutoff

/-- The loop of `purge`. -/
def purgeEach (env : PurgeEnv) : List RecordingRow → Disk → PurgePass
  | [], disk => ⟨true, disk, [], []⟩
  | row :: rows, disk =>
    if env.segmentFails row.path then
      let rest := purgeEach env rows disk
      { rest with events := .kept row.path :: rest.events }
    else
      let disk := { disk with segments := disk.segments.erase row.path }
      if env.cacheFails row.path then ⟨false, disk, [], [.unlinked row.path]⟩
      else
        let cache := env.cachePath row.path
        let rest := purgeEach env rows { disk with cache := disk.cache.erase cache }
        { rest with
          purgedIds := row.id :: rest.purgedIds
          events := .unlinked row.path :: .uncached row.path cache :: rest.events }

/-- `purge`. -/
def purge (env : PurgeEnv) (retentionDays : Int) (index : RecordingsIndex) (disk : Disk) :
    PurgePass × RecordingsIndex :=
  if retentionDays ≤ 0 then (⟨true, disk, [], []⟩, index)
  else
    let pass := purgeEach env (index.rows.filter fun row => row.expired env) disk
    (pass, if pass.returned then index.delete pass.purgedIds else index)

variable {env : PurgeEnv} {rows : List RecordingRow} {disk : Disk}

/-! ## The loop -/

theorem purgeEach_nil : purgeEach env [] disk = ⟨true, disk, [], []⟩ := rfl

theorem purgeEach_cons {row : RecordingRow} : purgeEach env (row :: rows) disk =
    if env.segmentFails row.path then
      let rest := purgeEach env rows disk
      { rest with events := .kept row.path :: rest.events }
    else
      let disk := { disk with segments := disk.segments.erase row.path }
      if env.cacheFails row.path then ⟨false, disk, [], [.unlinked row.path]⟩
      else
        let cache := env.cachePath row.path
        let rest := purgeEach env rows { disk with cache := disk.cache.erase cache }
        { rest with
          purgedIds := row.id :: rest.purgedIds
          events := .unlinked row.path :: .uncached row.path cache :: rest.events } := rfl

/-- Only the playback copy of a segment that was removed ends the loop. -/
theorem purgeEach_returned : (purgeEach env rows disk).returned = true ↔
    ∀ row ∈ rows, env.segmentFails row.path = false → env.cacheFails row.path = false := by
  induction rows generalizing disk with
  | nil => simp [purgeEach_nil]
  | cons row rows ih =>
    rw [purgeEach_cons, List.forall_mem_cons]
    split
    · rename_i hsegment
      rw [hsegment]
      exact ih.trans (iff_and_self.mpr fun _ h => by cases h)
    rename_i hsegment
    dsimp only
    split
    · rename_i hcache
      refine iff_of_false Bool.noConfusion fun h => ?_
      rw [h.1 (by simpa using hsegment)] at hcache
      cases hcache
    · rename_i hcache
      exact ih.trans (iff_and_self.mpr fun _ _ => by simpa using hcache)

theorem unlinked_of_returned (h : (purgeEach env rows disk).returned = true) {row : RecordingRow}
    (hrow : row ∈ rows) (hsegment : env.segmentFails row.path = false) :
    .unlinked row.path ∈ (purgeEach env rows disk).events := by
  induction rows generalizing disk with
  | nil => cases hrow
  | cons first rows ih =>
    rw [purgeEach_cons] at h ⊢
    rcases List.mem_cons.mp hrow with rfl | hrest
    · rw [if_neg (by simp [hsegment])]
      dsimp only
      split
      · exact List.mem_singleton_self _
      · exact List.mem_cons_self
    · split at h
      · rename_i hfails
        rw [if_pos hfails]
        exact List.mem_cons_of_mem _ (ih h hrest)
      rename_i hfails
      rw [if_neg hfails]
      dsimp only at h ⊢
      split at h
      · cases h
      · rename_i hcache
        rw [if_neg hcache]
        exact List.mem_cons_of_mem _ (List.mem_cons_of_mem _ (ih h hrest))

theorem of_unlinked {path : String} (h : .unlinked path ∈ (purgeEach env rows disk).events) :
    (∃ row ∈ rows, row.path = path) ∧ env.segmentFails path = false := by
  induction rows generalizing disk with
  | nil => cases h
  | cons row rows ih =>
    rw [purgeEach_cons] at h
    split at h
    · rcases List.mem_cons.mp h with heq | hrest
      · cases heq
      · obtain ⟨⟨other, hmem, hpath⟩, hfails⟩ := ih hrest
        exact ⟨⟨other, List.mem_cons_of_mem _ hmem, hpath⟩, hfails⟩
    rename_i hsegment
    have hfirst : (∃ other ∈ row :: rows, other.path = row.path) ∧ env.segmentFails row.path = false :=
      ⟨⟨row, List.mem_cons_self, rfl⟩, by simpa using hsegment⟩
    dsimp only at h
    split at h
    · cases List.mem_singleton.mp h
      exact hfirst
    · rcases List.mem_cons.mp h with heq | h
      · cases heq
        exact hfirst
      rcases List.mem_cons.mp h with heq | hrest
      · cases heq
      · obtain ⟨⟨other, hmem, hpath⟩, hfails⟩ := ih hrest
        exact ⟨⟨other, List.mem_cons_of_mem _ hmem, hpath⟩, hfails⟩

theorem mem_purgedIds {id : Nat} : id ∈ (purgeEach env rows disk).purgedIds →
    ∃ row ∈ rows, row.id = id ∧ env.segmentFails row.path = false := by
  induction rows generalizing disk with
  | nil => exact fun h => by cases h
  | cons row rows ih =>
    intro h
    rw [purgeEach_cons] at h
    split at h
    · obtain ⟨other, hmem, hid⟩ := ih h
      exact ⟨other, List.mem_cons_of_mem _ hmem, hid⟩
    rename_i hsegment
    dsimp only at h
    split at h
    · cases h
    · rcases List.mem_cons.mp h with rfl | hrest
      · exact ⟨row, List.mem_cons_self, rfl, by simpa using hsegment⟩
      · obtain ⟨other, hmem, hid⟩ := ih hrest
        exact ⟨other, List.mem_cons_of_mem _ hmem, hid⟩

theorem purgedIds_of_returned (h : (purgeEach env rows disk).returned = true) {row : RecordingRow}
    (hrow : row ∈ rows) (hsegment : env.segmentFails row.path = false) :
    row.id ∈ (purgeEach env rows disk).purgedIds := by
  induction rows generalizing disk with
  | nil => cases hrow
  | cons first rows ih =>
    rw [purgeEach_cons] at h ⊢
    rcases List.mem_cons.mp hrow with rfl | hrest
    · rw [if_neg (by simp [hsegment])] at h ⊢
      dsimp only at h ⊢
      split at h
      · cases h
      · rename_i hcache
        rw [if_neg hcache]
        exact List.mem_cons_self
    · split at h
      · rename_i hfails
        rw [if_pos hfails]
        exact ih h hrest
      rename_i hfails
      rw [if_neg hfails]
      dsimp only at h ⊢
      split at h
      · cases h
      · rename_i hcache
        rw [if_neg hcache]
        exact List.mem_cons_of_mem _ (ih h hrest)

/-- A segment is there afterwards exactly if it was, and was not removed. -/
theorem mem_segments {path : String} : path ∈ (purgeEach env rows disk).disk.segments ↔
    path ∈ disk.segments ∧ .unlinked path ∉ (purgeEach env rows disk).events := by
  induction rows generalizing disk with
  | nil => simp [purgeEach_nil]
  | cons row rows ih =>
    rw [purgeEach_cons]
    split
    · simp only [ih, List.mem_cons, reduceCtorEq, false_or]
    dsimp only
    split
    · simp only [Finset.mem_erase, List.mem_singleton, PurgeEvent.unlinked.injEq]
      exact and_comm
    · simp only [ih, Finset.mem_erase, List.mem_cons, PurgeEvent.unlinked.injEq, reduceCtorEq, false_or, not_or]
      exact ⟨fun h => ⟨h.1.2, h.1.1, h.2⟩, fun h => ⟨⟨h.2.1, h.1⟩, h.2.2⟩⟩

theorem unlinked_of_not_returned (h : (purgeEach env rows disk).returned = false) :
    ∃ row ∈ rows, .unlinked row.path ∈ (purgeEach env rows disk).events := by
  induction rows generalizing disk with
  | nil => cases h
  | cons row rows ih =>
    rw [purgeEach_cons] at h ⊢
    split at h
    · rename_i hfails
      rw [if_pos hfails]
      obtain ⟨other, hmem, hunlinked⟩ := ih h
      exact ⟨other, List.mem_cons_of_mem _ hmem, List.mem_cons_of_mem _ hunlinked⟩
    rename_i hfails
    rw [if_neg hfails]
    refine ⟨row, List.mem_cons_self, ?_⟩
    dsimp only
    split
    · exact List.mem_singleton_self _
    · exact List.mem_cons_self

theorem path_of_mem {event : PurgeEvent} (h : event ∈ (purgeEach env rows disk).events) :
    ∃ row ∈ rows, row.path = event.path := by
  induction rows generalizing disk with
  | nil => cases h
  | cons row rows ih =>
    have later : (∃ other ∈ rows, other.path = event.path) → ∃ other ∈ row :: rows, other.path = event.path := by
      rintro ⟨other, hmem, hpath⟩
      exact ⟨other, List.mem_cons_of_mem _ hmem, hpath⟩
    rw [purgeEach_cons] at h
    split at h
    · rcases List.mem_cons.mp h with rfl | hrest
      · exact ⟨row, List.mem_cons_self, rfl⟩
      · exact later (ih hrest)
    dsimp only at h
    split at h
    · cases List.mem_singleton.mp h
      exact ⟨row, List.mem_cons_self, rfl⟩
    · rcases List.mem_cons.mp h with rfl | h
      · exact ⟨row, List.mem_cons_self, rfl⟩
      rcases List.mem_cons.mp h with rfl | hrest
      · exact ⟨row, List.mem_cons_self, rfl⟩
      · exact later (ih hrest)

theorem cachePath_of_gone {cache : String} (h : cache ∈ disk.cache)
    (hgone : cache ∉ (purgeEach env rows disk).disk.cache) : ∃ row ∈ rows, env.cachePath row.path = cache := by
  induction rows generalizing disk with
  | nil => exact absurd h hgone
  | cons row rows ih =>
    have later : (∃ other ∈ rows, env.cachePath other.path = cache) →
        ∃ other ∈ row :: rows, env.cachePath other.path = cache := by
      rintro ⟨other, hmem, hcache⟩
      exact ⟨other, List.mem_cons_of_mem _ hmem, hcache⟩
    rw [purgeEach_cons] at hgone
    split at hgone
    · exact later (ih h hgone)
    dsimp only at hgone
    split at hgone
    · exact absurd h hgone
    by_cases heq : cache = env.cachePath row.path
    · exact ⟨row, List.mem_cons_self, heq.symm⟩
    · exact later (ih (Finset.mem_erase.mpr ⟨heq, h⟩) hgone)

/-! ## A pass -/

namespace RecordingsIndex

variable {index : RecordingsIndex} {row other : RecordingRow}

theorem mem_delete {purgedIds : List Nat} :
    row ∈ (index.delete purgedIds).rows ↔ row ∈ index.rows ∧ row.id ∉ purgedIds := by
  simp [delete]

theorem eq_of_id (hrow : row ∈ index.rows) (hother : other ∈ index.rows) (h : row.id = other.id) : row = other :=
  List.inj_on_of_nodup_map index.ids hrow hother h

theorem eq_of_path (hrow : row ∈ index.rows) (hother : other ∈ index.rows) (h : row.path = other.path) :
    row = other :=
  List.inj_on_of_nodup_map index.paths hrow hother h

end RecordingsIndex

/-- What holds whatever fails: recordings from the cutoff on are left alone, and a
row that goes is an expired one without a segment. -/
structure Spared (env : PurgeEnv) (index : RecordingsIndex) (disk : Disk) (pass : PurgePass)
    (after : RecordingsIndex) : Prop where
  /-- No file of a recording from the cutoff on is touched. -/
  untouched : ∀ row ∈ index.rows, row.expired env = false →
    (∀ event ∈ pass.events, event.path ≠ row.path) ∧ (row.path ∈ pass.disk.segments ↔ row.path ∈ disk.segments)
  copies : ∀ cache ∈ disk.cache, cache ∉ pass.disk.cache →
    ∃ row ∈ index.rows, row.expired env = true ∧ env.cachePath row.path = cache
  only : ∀ row ∈ after.rows, row ∈ index.rows
  gone : ∀ row ∈ index.rows, row ∉ after.rows →
    row.expired env = true ∧ PurgeEvent.unlinked row.path ∈ pass.events ∧ row.path ∉ pass.disk.segments

/-- The rows that go are the expired ones whose segment was removed, and that is
each of those whose segment could be. -/
structure Exact (env : PurgeEnv) (index : RecordingsIndex) (pass : PurgePass) (after : RecordingsIndex) : Prop where
  rows : ∀ row ∈ index.rows, row ∉ after.rows ↔ row.expired env = true ∧ PurgeEvent.unlinked row.path ∈ pass.events
  fair : ∀ row ∈ index.rows, row.expired env = true → env.segmentFails row.path = false → row ∉ after.rows

variable {retentionDays : Int} {index : RecordingsIndex}

theorem mem_expired {row : RecordingRow} :
    row ∈ index.rows.filter (fun row => row.expired env) ↔ row ∈ index.rows ∧ row.expired env = true :=
  List.mem_filter

/-- A pass that returns is without the rows whose segments could be removed. -/
theorem removed_iff (h : (purgeEach env (index.rows.filter fun row => row.expired env) disk).returned = true)
    {row : RecordingRow} (hrow : row ∈ index.rows) :
    row ∉ (index.delete (purgeEach env (index.rows.filter fun row => row.expired env) disk).purgedIds).rows ↔
      row.expired env = true ∧ env.segmentFails row.path = false := by
  rw [RecordingsIndex.mem_delete, not_and, not_not]
  constructor
  · intro hpurged
    obtain ⟨other, hother, hid, hsegment⟩ := mem_purgedIds (hpurged hrow)
    obtain ⟨hmem, hexpired⟩ := mem_expired.mp hother
    cases RecordingsIndex.eq_of_id hmem hrow hid
    exact ⟨hexpired, hsegment⟩
  · exact fun hgoes _ => purgedIds_of_returned h (mem_expired.mpr ⟨hrow, hgoes.1⟩) hgoes.2

theorem purge_spared (hdays : 0 < retentionDays) (env : PurgeEnv) (index : RecordingsIndex) (disk : Disk) :
    Spared env index disk (purge env retentionDays index disk).1 (purge env retentionDays index disk).2 := by
  rw [purge, if_neg hdays.not_ge]
  dsimp only
  refine ⟨fun row hrow hkept => ?_, fun cache hcache hgone => ?_, fun row hrow => ?_, fun row hrow hgone => ?_⟩
  · have huntouched : ∀ event ∈ (purgeEach env (index.rows.filter fun row => row.expired env) disk).events,
        event.path ≠ row.path := by
      intro event hevent heq
      obtain ⟨other, hother, hpath⟩ := path_of_mem hevent
      obtain ⟨hmem, hexpired⟩ := mem_expired.mp hother
      cases RecordingsIndex.eq_of_path hmem hrow (hpath.trans heq)
      rw [hkept] at hexpired
      cases hexpired
    exact ⟨huntouched, mem_segments.trans (and_iff_left fun h => huntouched _ h rfl)⟩
  · obtain ⟨row, hrow, hpath⟩ := cachePath_of_gone hcache hgone
    obtain ⟨hmem, hexpired⟩ := mem_expired.mp hrow
    exact ⟨row, hmem, hexpired, hpath⟩
  · split at hrow
    · exact (RecordingsIndex.mem_delete.mp hrow).1
    · exact hrow
  · split at hgone
    · rename_i hreturned
      obtain ⟨hexpired, hsegment⟩ := (removed_iff hreturned hrow).mp hgone
      have hunlinked := unlinked_of_returned hreturned (mem_expired.mpr ⟨hrow, hexpired⟩) hsegment
      exact ⟨hexpired, hunlinked, fun hthere => (mem_segments.mp hthere).2 hunlinked⟩
    · exact absurd hrow hgone

/-- With a retention window, whatever fails: a pass is exact if and only if no expired
recording loses its segment and keeps its playback copy. -/
theorem purge_exact_iff (hdays : 0 < retentionDays) (env : PurgeEnv) (index : RecordingsIndex) (disk : Disk) :
    Spared env index disk (purge env retentionDays index disk).1 (purge env retentionDays index disk).2 ∧
      (Exact env index (purge env retentionDays index disk).1 (purge env retentionDays index disk).2 ↔
        ∀ row ∈ index.rows, row.expired env = true → env.segmentFails row.path = false →
          env.cacheFails row.path = false) := by
  refine ⟨purge_spared hdays env index disk, ?_⟩
  rw [purge, if_neg hdays.not_ge]
  dsimp only
  cases hreturned : (purgeEach env (index.rows.filter fun row => row.expired env) disk).returned with
  | true =>
    refine iff_of_true ⟨fun row hrow => ?_, fun row hrow hexpired hsegment => ?_⟩
      fun row hrow hexpired => purgeEach_returned.mp hreturned row (mem_expired.mpr ⟨hrow, hexpired⟩)
    · rw [if_pos rfl, removed_iff hreturned hrow]
      refine and_congr_right fun hexpired => ⟨fun hsegment => ?_, fun hunlinked => (of_unlinked hunlinked).2⟩
      exact unlinked_of_returned hreturned (mem_expired.mpr ⟨hrow, hexpired⟩) hsegment
    · rw [if_pos rfl]
      exact (removed_iff hreturned hrow).mpr ⟨hexpired, hsegment⟩
  | false =>
    refine iff_of_false (fun hexact => ?_) fun hcalm => ?_
    · obtain ⟨row, hrow, hunlinked⟩ := unlinked_of_not_returned hreturned
      obtain ⟨hmem, hexpired⟩ := mem_expired.mp hrow
      exact (hexact.rows row hmem).mpr ⟨hexpired, hunlinked⟩ hmem
    · have hreturns :=
        (@purgeEach_returned env (index.rows.filter fun row => row.expired env) disk).mpr fun row hrow =>
        hcalm row (mem_expired.mp hrow).1 (mem_expired.mp hrow).2
      rw [hreturned] at hreturns
      cases hreturns

/-! ## A playback copy that cannot be removed -/

/-- Two recordings of a camera. -/
def twoSegments : RecordingsIndex where
  rows := [⟨1, "a.mp4", "2024-01-01T00:00:00"⟩, ⟨2, "b.mp4", "2024-01-01T00:05:00"⟩]
  ids := by decide
  paths := by decide

/-- A week later; the first one's copy is being played. -/
def playing : PurgeEnv where
  cutoff := "2024-01-08T00:00:00+00:00"
  cachePath := fun path => "cache/" ++ path
  segmentFails := fun _ => false
  cacheFails := fun path => path = "a.mp4"

def filled : Disk := ⟨{"a.mp4", "b.mp4"}, {"cache/a.mp4"}⟩

/-- With no playback copy in use both recordings go. -/
theorem purge_exact_calm :
    Exact { playing with cacheFails := fun _ => false } twoSegments
      (purge { playing with cacheFails := fun _ => false } 7 twoSegments filled).1
      (purge { playing with cacheFails := fun _ => false } 7 twoSegments filled).2 :=
  (purge_exact_iff (by decide : (0 : Int) < 7) _ twoSegments filled).2.mpr fun _ _ _ _ => rfl

/-- The segment of the first is removed but its row stays, and the second is left. -/
theorem playing_stops_purge :
    (purge playing 7 twoSegments filled).1.returned = false ∧
      "a.mp4" ∉ (purge playing 7 twoSegments filled).1.disk.segments ∧
      "b.mp4" ∈ (purge playing 7 twoSegments filled).1.disk.segments ∧
      (purge playing 7 twoSegments filled).2.rows = twoSegments.rows ∧
      ¬Exact playing twoSegments (purge playing 7 twoSegments filled).1 (purge playing 7 twoSegments filled).2 := by
  have hrows : (purge playing 7 twoSegments filled).2.rows = twoSegments.rows := by decide +kernel
  refine ⟨by decide +kernel, by decide +kernel, by decide +kernel, hrows, fun hexact => ?_⟩
  have hmem : RecordingRow.mk 2 "b.mp4" "2024-01-01T00:05:00" ∈ twoSegments.rows := by decide
  refine hexact.fair _ hmem (by decide +kernel) rfl ?_
  rw [hrows]
  exact hmem

end CamGuard.Recording
