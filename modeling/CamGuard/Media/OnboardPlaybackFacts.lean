/-
A V4 listing is complete or refused. A camera cuts its recordings into fragments, each
with a base time of its own (`V4Listing`); each fragment's payload parses to its page
(`parse_payload`), and the pages merge to the recordings in their order, whatever order
they come in (`merge_pages`). What merges at all is a full set of fragments of one listing
(`merge_ok`).
-/
import Mathlib.Data.List.Nodup
import Mathlib.Data.List.Perm.Subperm
import CamGuard.Media.OnboardPlayback

namespace CamGuard.Media

/-! ## What a camera sends -/

/-- A recording as the camera lists it. -/
structure Recording where
  startMs : Nat
  durationMs : Nat
  flags : Nat
  positive : 0 < durationMs
  duration_lt : durationMs < 256 ^ 4
  flags_lt : flags < 256 ^ 4
  ends : startMs + durationMs < 2 ^ 63

namespace Recording

/-- An item, its start counted from the base time. -/
def item (baseTimeMs : Nat) (r : Recording) : Bytes :=
  Bytes.ofNat 4 (r.startMs - baseTimeMs) ++ (Bytes.ofNat 4 r.durationMs ++ Bytes.ofNat 4 r.flags)

/-- What the parser makes of it. -/
def file (r : Recording) : ModernPlaybackFile :=
  ⟨r.startMs, r.startMs + r.durationMs, r.durationMs, toString (r.flags &&& 1)⟩

@[simp] theorem length_item (baseTimeMs : Nat) (r : Recording) : (r.item baseTimeMs).length = 12 := by simp [item]

theorem length_items (baseTimeMs : Nat) (recordings : List Recording) :
    (recordings.flatMap (item baseTimeMs)).length = 12 * recordings.length := by
  induction recordings with
  | nil => rfl
  | cons r recordings ih =>
    rw [List.flatMap_cons, List.length_append, ih, length_item, List.length_cons]
    omega

end Recording

/-- A fragment of a page: its base time and the recordings it carries. -/
structure RecordingFragment where
  baseTimeMs : Nat
  recordings : List Recording
  /-- The bytes 15 to 23 of the header. -/
  reserved : Bytes
  base_lt : baseTimeMs < 256 ^ 8
  offsets : ∀ r ∈ recordings, baseTimeMs ≤ r.startMs ∧ r.startMs - baseTimeMs < 256 ^ 4
  count : recordings.length ≤ MAX_RESPONSE_ITEMS
  reserved_length : reserved.length = 9

/-- A well-formed v4 page, in its fragments. -/
structure V4Listing where
  fragments : List RecordingFragment
  pageIndex : Nat
  totalPages : Nat
  count : 1 ≤ fragments.length ∧ fragments.length ≤ 64
  total : (fragments.flatMap RecordingFragment.recordings).length ≤ 1000
  page_lt : pageIndex < 256 ^ 2
  total_lt : totalPages < 256 ^ 2

namespace V4Listing

variable (l : V4Listing)

def recordings : List Recording := l.fragments.flatMap RecordingFragment.recordings

/-- The header of the fragment with an index. -/
def header (index : Nat) (f : RecordingFragment) : Bytes :=
  [4, UInt8.ofNat l.fragments.length, UInt8.ofNat index] ++ (Bytes.ofNat 2 l.totalPages ++ (Bytes.ofNat 2 l.pageIndex ++
    (Bytes.ofNat 8 f.baseTimeMs ++ (f.reserved ++ Bytes.ofNat 2 f.recordings.length))))

/-- Its payload. -/
def payload (index : Nat) (f : RecordingFragment) : Bytes :=
  l.header index f ++ f.recordings.flatMap (Recording.item f.baseTimeMs)

/-- Its page. -/
def page (index : Nat) (f : RecordingFragment) : ModernPlaybackPage :=
  ⟨l.pageIndex, l.totalPages, none, f.recordings.map Recording.file, some index, some l.fragments.length⟩

def payloads : List Bytes := l.fragments.mapIdx l.payload

def pages : List ModernPlaybackPage := l.fragments.mapIdx l.page

end V4Listing

/-! ## Parsing -/

theorem parseV4Item_item {pre post : Bytes} {index : Nat} (hpre : pre.length = 26 + index * 12) {baseTimeMs : Nat}
    {r : Recording} (hoffset : baseTimeMs ≤ r.startMs ∧ r.startMs - baseTimeMs < 256 ^ 4) :
    parseV4Item (pre ++ r.item baseTimeMs ++ post) baseTimeMs index = .ok r.file := by
  have hsplit : pre ++ r.item baseTimeMs ++ post = pre ++ (Bytes.ofNat 4 (r.startMs - baseTimeMs) ++
      (Bytes.ofNat 4 r.durationMs ++ (Bytes.ofNat 4 r.flags ++ post))) := by
    simp only [Recording.item, List.append_assoc]
  have hstart : Bytes.field 4 (26 + index * 12) (pre ++ r.item baseTimeMs ++ post) = r.startMs - baseTimeMs := by
    rw [hsplit, Bytes.field_middle hpre hoffset.2]
  have hduration : Bytes.field 4 (26 + index * 12 + 4) (pre ++ r.item baseTimeMs ++ post) = r.durationMs := by
    rw [hsplit, ← List.append_assoc pre, Bytes.field_middle (by simp [hpre]) r.duration_lt]
  have hflags : Bytes.field 4 (26 + index * 12 + 8) (pre ++ r.item baseTimeMs ++ post) = r.flags := by
    rw [hsplit, ← List.append_assoc pre, ← List.append_assoc (pre ++ _), Bytes.field_middle (by simp [hpre]) r.flags_lt]
  have hends := r.ends
  have hpositive := r.positive
  unfold parseV4Item
  simp only [PLAYBACK_V4_RESPONSE_HEADER_SIZE, PLAYBACK_V4_ITEM_SIZE, hstart, hduration, hflags,
    Nat.add_sub_cancel' hoffset.1]
  rw [if_neg (by omega)]
  rfl

theorem parseV4Items_items {pre : Bytes} (hpre : pre.length = 26) {baseTimeMs : Nat} (before recordings : List Recording)
    (hoffsets : ∀ r ∈ recordings, baseTimeMs ≤ r.startMs ∧ r.startMs - baseTimeMs < 256 ^ 4) :
    parseV4Items (pre ++ (before ++ recordings).flatMap (Recording.item baseTimeMs)) baseTimeMs
      (List.range' before.length recordings.length) = .ok (recordings.map Recording.file) := by
  induction recordings generalizing before with
  | nil => rfl
  | cons r recordings ih =>
    rw [List.forall_mem_cons] at hoffsets
    have hitem : parseV4Item (pre ++ (before ++ r :: recordings).flatMap (Recording.item baseTimeMs)) baseTimeMs
        before.length = .ok r.file := by
      have hlen : (pre ++ before.flatMap (Recording.item baseTimeMs)).length = 26 + before.length * 12 := by
        rw [List.length_append, hpre, Recording.length_items, Nat.mul_comm]
      rw [List.flatMap_append, List.flatMap_cons, ← List.append_assoc, ← List.append_assoc]
      exact parseV4Item_item hlen hoffsets.1
    have hrest := ih (before ++ [r]) hoffsets.2
    rw [List.length_append, List.append_assoc, List.singleton_append] at hrest
    rw [List.length_cons, List.range'_succ, parseV4Items, hitem]
    dsimp only
    rw [show before.length + 1 = before.length + [r].length from rfl, hrest]
    rfl

namespace V4Listing

variable {l : V4Listing}

/-- The fields of a header. -/
structure Headed (l : V4Listing) (index : Nat) (f : RecordingFragment) (header : Bytes) : Prop where
  length : header.length = 26
  version : header.at_ 0 = 4
  count : header.at_ 1 = l.fragments.length
  index : header.at_ 2 = index
  totalPages : header.field 2 3 = l.totalPages
  pageIndex : header.field 2 5 = l.pageIndex
  base : header.field 8 7 = f.baseTimeMs
  items : header.field 2 24 = f.recordings.length

theorem headed {index : Nat} (hindex : index < l.fragments.length) (f : RecordingFragment) :
    l.Headed index f (l.header index f) := by
  have hcount := l.count.2
  have hitems := f.count
  unfold MAX_RESPONSE_ITEMS at hitems
  have hreserved := f.reserved_length
  refine ⟨by simp [header, hreserved], rfl, ?_, ?_, Bytes.field_middle rfl l.total_lt, ?_, ?_, ?_⟩
  · change (UInt8.ofNat l.fragments.length).toNat = _
    rw [UInt8.toNat_ofNat']
    omega
  · change (UInt8.ofNat index).toNat = _
    rw [UInt8.toNat_ofNat']
    omega
  · rw [header, ← List.append_assoc, Bytes.field_middle (by simp) l.page_lt]
  · rw [header, ← List.append_assoc, ← List.append_assoc, Bytes.field_middle (by simp) f.base_lt]
  · have hlast : l.header index f = [4, UInt8.ofNat l.fragments.length, UInt8.ofNat index] ++
        Bytes.ofNat 2 l.totalPages ++ Bytes.ofNat 2 l.pageIndex ++ Bytes.ofNat 8 f.baseTimeMs ++ f.reserved ++
        (Bytes.ofNat 2 f.recordings.length ++ []) := by
      simp [header]
    rw [hlast, Bytes.field_middle (by simp [hreserved]) (by omega)]

theorem parse_payload {index : Nat} (hindex : index < l.fragments.length) (f : RecordingFragment) :
    parseModernPlaybackListV4Response (l.payload index f) = .ok (l.page index f) := by
  have hhead := headed hindex f
  have hlength : (l.payload index f).length = 26 + f.recordings.length * 12 := by
    rw [payload, List.length_append, hhead.length, Recording.length_items, Nat.mul_comm]
  have hat (i : Nat) (hi : i < 26) : (l.payload index f).at_ i = (l.header index f).at_ i :=
    Bytes.at_append_left (by rw [hhead.length]; exact hi)
  have hfield (n off : Nat) (h : off + n ≤ 26) : (l.payload index f).field n off = (l.header index f).field n off :=
    Bytes.field_append_left (by rw [hhead.length]; exact h)
  have hitems : parseV4Items (l.payload index f) f.baseTimeMs (List.range f.recordings.length) =
      .ok (f.recordings.map Recording.file) := by
    rw [List.range_eq_range']
    exact parseV4Items_items hhead.length [] f.recordings f.offsets
  have hcount := f.count
  unfold parseModernPlaybackListV4Response
  simp only [PLAYBACK_V4_RESPONSE_HEADER_SIZE, PLAYBACK_V4_ITEM_SIZE, PLAYBACK_PROTOCOL_V4, hlength,
    hat 0 (by decide), hat 1 (by decide), hat 2 (by decide), hfield 2 3 (by decide), hfield 2 5 (by decide),
    hfield 8 7 (by decide), hfield 2 24 (by decide), hhead.version, hhead.count, hhead.index, hhead.totalPages,
    hhead.pageIndex, hhead.base, hhead.items, hitems]
  rw [if_neg (by omega), if_neg (by omega), if_neg (by omega), if_neg (by simp)]
  rfl

end V4Listing

/-! ## Merging -/

/-- Pages of one listing of `n` fragments, as `first` is one. -/
structure Agrees (first : ModernPlaybackPage) (n : Nat) (p : ModernPlaybackPage) : Prop where
  count : p.fragmentCount = some n
  pageIndex : p.pageIndex = first.pageIndex
  totalPages : p.totalPages = first.totalPages

/-- The pages are indexed exactly if they agree and their indices are distinct and new. -/
theorem indexFragments_ok {first : ModernPlaybackPage} {n : Nat} {pages : List ModernPlaybackPage}
    {indexed result : Dict Nat ModernPlaybackPage} (h : indexFragments first n pages indexed = .ok result) :
    (∀ p ∈ pages, Agrees first n p) ∧ (∃ indices : List Nat, pages.map ModernPlaybackPage.fragmentIndex = indices.map some ∧
      indices.Nodup ∧ ∀ i ∈ indices, indexed.get? i = none) ∧
      ∀ i p, result.get? i = some p ↔ indexed.get? i = some p ∨ p ∈ pages ∧ p.fragmentIndex = some i := by
  induction pages generalizing indexed with
  | nil =>
    cases h
    exact ⟨by simp, ⟨[], rfl, List.nodup_nil, by simp⟩, by simp⟩
  | cons page pages ih =>
    unfold indexFragments at h
    split at h
    · cases h
    · next index hindex =>
      split at h
      · cases h
      · next hfits =>
        simp only [not_or, not_not] at hfits
        obtain ⟨hcount, hnew, hpage, htotal⟩ := hfits
        have hfree : indexed.get? index = none := by
          simpa [Dict.contains] using hnew
        obtain ⟨hagree, ⟨indices, hindices, hnodup, hnone⟩, hget⟩ := ih h
        refine ⟨List.forall_mem_cons.mpr ⟨⟨hcount, hpage, htotal⟩, hagree⟩, ⟨index :: indices, ?_, ?_, ?_⟩, ?_⟩
        · rw [List.map_cons, List.map_cons, hindex, hindices]
        · refine List.nodup_cons.mpr ⟨fun hmem => ?_, hnodup⟩
          have hset := hnone index hmem
          rw [Dict.get?_set, if_pos rfl] at hset
          cases hset
        · refine List.forall_mem_cons.mpr ⟨hfree, fun i hi => ?_⟩
          have hset := hnone i hi
          rw [Dict.get?_set] at hset
          split at hset
          · cases hset
          · exact hset
        · intro i p
          rw [hget, Dict.get?_set]
          by_cases hi : i = index
          · subst hi
            rw [if_pos rfl, hfree]
            constructor
            · rintro (heq | ⟨hmem, hp⟩)
              · cases heq
                exact .inr ⟨List.mem_cons_self, hindex⟩
              · exact .inr ⟨List.mem_cons_of_mem _ hmem, hp⟩
            · rintro (heq | ⟨hmem, hp⟩)
              · cases heq
              · rcases List.mem_cons.mp hmem with rfl | hmem
                · exact .inl rfl
                · exact .inr ⟨hmem, hp⟩
          · rw [if_neg hi]
            refine or_congr_right (and_congr_left fun hp => ?_)
            have hother : p ≠ page := by
              rintro rfl
              rw [hindex] at hp
              exact hi (Option.some.inj hp).symm
            rw [List.mem_cons, or_iff_right hother]

theorem indexFragments_agreed {first : ModernPlaybackPage} {n : Nat} {pages : List ModernPlaybackPage}
    (hagree : ∀ p ∈ pages, Agrees first n p) {indices : List Nat}
    (hindices : pages.map ModernPlaybackPage.fragmentIndex = indices.map some) (hnodup : indices.Nodup)
    {indexed : Dict Nat ModernPlaybackPage} (hnew : ∀ i ∈ indices, indexed.get? i = none) :
    ∃ result, indexFragments first n pages indexed = .ok result := by
  induction pages generalizing indices indexed with
  | nil => exact ⟨indexed, rfl⟩
  | cons page pages ih =>
    cases indices with
    | nil => cases hindices
    | cons index indices =>
      rw [List.map_cons, List.map_cons, List.cons.injEq] at hindices
      rw [List.nodup_cons] at hnodup
      rw [List.forall_mem_cons] at hagree hnew
      unfold indexFragments
      rw [hindices.1]
      dsimp only
      rw [if_neg]
      · refine ih hagree.2 hindices.2 hnodup.2 fun i hi => ?_
        rw [Dict.get?_set, if_neg]
        · exact hnew.2 i hi
        · rintro rfl
          exact hnodup.1 hi
      · simp [hagree.1.count, hagree.1.pageIndex, hagree.1.totalPages, Dict.contains, hnew.1]

/-- What is merged is a full set of fragments of one listing. -/
theorem merge_ok {pages : List ModernPlaybackPage} {result : ModernPlaybackPage}
    (h : mergeModernPlaybackV4Fragments pages = .ok result) :
    ∃ n, (∀ p ∈ pages, Agrees result n p) ∧
      (pages.map ModernPlaybackPage.fragmentIndex).Perm ((List.range n).map some) := by
  cases pages with
  | nil => cases h
  | cons first rest =>
    unfold mergeModernPlaybackV4Fragments at h
    dsimp only at h
    split at h
    · cases h
    · next n hn =>
      split at h
      · cases h
      · next hlength =>
        split at h
        · cases h
        · next indexed hindexed =>
          split at h
          · cases h
          · next hgaps =>
            rw [not_not] at hgaps
            split at h
            · cases h
            · cases h
              obtain ⟨hagree, ⟨indices, hindices, hnodup, -⟩, hget⟩ := indexFragments_ok hindexed
              refine ⟨n, fun p hp => ⟨(hagree p hp).count, (hagree p hp).pageIndex, (hagree p hp).totalPages⟩, ?_⟩
              have hcount : indices.length = n := by
                have hmap := congrArg List.length hindices
                rw [List.length_map, List.length_map] at hmap
                omega
              have hsub : List.range n ⊆ indices := by
                intro i hi
                obtain ⟨p, hp⟩ := Option.isSome_iff_exists.mp (hgaps.2 i hi)
                rcases (hget i p).mp hp with hnone | ⟨hmem, hindex⟩
                · cases hnone
                · have hmapped : some i ∈ indices.map some := by
                    rw [← hindices, ← hindex]
                    exact List.mem_map_of_mem hmem
                  simpa using hmapped
              rw [hindices]
              refine List.Perm.map some (List.Perm.symm ?_)
              exact (List.subperm_of_subset List.nodup_range hsub).perm_of_length_le (by simp [hcount])

namespace V4Listing

variable {l : V4Listing}

theorem mem_pages {p : ModernPlaybackPage} :
    p ∈ l.pages ↔ ∃ (i : Nat) (hi : i < l.fragments.length), p = l.page i (l.fragments.get ⟨i, hi⟩) := by
  rw [pages, List.mem_mapIdx]
  exact exists_congr fun i => exists_congr fun hi => eq_comm

theorem indices_pages : l.pages.map ModernPlaybackPage.fragmentIndex = (List.range l.fragments.length).map some := by
  refine List.ext_getElem (by simp [pages]) fun i hi hi' => ?_
  simp [pages, page]

/-- **The pages merge to the recordings in their order**, whatever order they come in. -/
theorem merge_pages {order : List ModernPlaybackPage} (h : order.Perm l.pages) :
    mergeModernPlaybackV4Fragments order = .ok ⟨l.pageIndex, l.totalPages, none, l.recordings.map Recording.file,
      some (l.fragments.length - 1), some l.fragments.length⟩ := by
  obtain ⟨hpos, hmax⟩ := l.count
  have hlength : order.length = l.fragments.length := by simp [h.length_eq, pages]
  have hpage : ∀ p ∈ order, ∃ (i : Nat) (hi : i < l.fragments.length), p = l.page i (l.fragments.get ⟨i, hi⟩) :=
    fun p hp => mem_pages.mp (h.mem_iff.mp hp)
  cases order with
  | nil =>
    simp at hlength
    omega
  | cons first rest =>
    obtain ⟨i₀, hi₀, hfirst⟩ := hpage first List.mem_cons_self
    have hagree : ∀ p ∈ first :: rest, Agrees first l.fragments.length p := by
      intro p hp
      obtain ⟨i, hi, rfl⟩ := hpage p hp
      rw [hfirst]
      exact ⟨rfl, rfl, rfl⟩
    have hperm := h.map ModernPlaybackPage.fragmentIndex
    rw [indices_pages] at hperm
    obtain ⟨indices, hindices, hnodup⟩ : ∃ indices : List Nat,
        (first :: rest).map ModernPlaybackPage.fragmentIndex = indices.map some ∧ indices.Nodup := by
      have hmap : (first :: rest).map ModernPlaybackPage.fragmentIndex =
          ((first :: rest).map fun p => p.fragmentIndex.getD 0).map some := by
        rw [List.map_map]
        refine List.map_congr_left fun p hp => ?_
        obtain ⟨i, hi, rfl⟩ := hpage p hp
        rfl
      refine ⟨_, hmap, List.Nodup.of_map some ?_⟩
      rw [← hmap, hperm.nodup_iff]
      exact List.nodup_range.map (Option.some_injective _)
    obtain ⟨indexed, hindexed⟩ : ∃ indexed, indexFragments first l.fragments.length (first :: rest) ∅ = .ok indexed :=
      indexFragments_agreed hagree hindices hnodup fun _ _ => rfl
    obtain ⟨-, -, hget⟩ := indexFragments_ok hindexed
    have hfound (i : Nat) (hi : i < l.fragments.length) : indexed.get? i = some (l.page i (l.fragments.get ⟨i, hi⟩)) :=
      (hget i _).mpr (.inr ⟨h.mem_iff.mpr (mem_pages.mpr ⟨i, hi, rfl⟩), rfl⟩)
    have hkeys : ∀ i ∈ indexed.keys, i < l.fragments.length := by
      intro i hi
      obtain ⟨p, hp⟩ := Dict.mem_keys.mp hi
      rcases (hget i p).mp hp with hnone | ⟨hmem, hindex⟩
      · cases hnone
      · obtain ⟨j, hj, rfl⟩ := hpage p hmem
        cases hindex
        exact hj
    have hitems : ((List.range l.fragments.length).flatMap fun index =>
        ((indexed.get? index).map ModernPlaybackPage.items).getD []) = l.recordings.map Recording.file := by
      rw [recordings, List.map_flatMap, List.flatMap_def, List.flatMap_def]
      congr 1
      refine List.ext_getElem (by simp) fun i hi hi' => ?_
      rw [List.length_map, List.length_range] at hi
      simp [hfound i hi, page]
    unfold mergeModernPlaybackV4Fragments
    dsimp only
    rw [show first.fragmentCount = some l.fragments.length from hfirst ▸ rfl]
    dsimp only
    rw [if_neg (by omega), hindexed]
    dsimp only
    rw [if_neg, hitems, if_neg]
    · rw [hfirst]
      rfl
    · have htotal := l.total
      rw [List.length_map, recordings]
      omega
    · rw [not_not]
      refine ⟨hkeys, fun i hi => ?_⟩
      rw [Dict.contains, hfound i (List.mem_range.mp hi)]
      rfl

end V4Listing

/-- **A listing is complete or refused.** The payloads of a listing parse to its pages, which
merge, in any order, to its recordings in theirs, with their start, end and duration; and
pages of any kind merge only if they agree on the number of fragments and of the page, and
have each index below that number once. -/
theorem listing_complete_or_refused :
    (∀ l : V4Listing, l.payloads.map parseModernPlaybackListV4Response = l.pages.map .ok ∧
      ∀ order : List ModernPlaybackPage, order.Perm l.pages →
        mergeModernPlaybackV4Fragments order = .ok ⟨l.pageIndex, l.totalPages, none, l.recordings.map Recording.file,
          some (l.fragments.length - 1), some l.fragments.length⟩) ∧
    ∀ pages result, mergeModernPlaybackV4Fragments pages = .ok result →
      ∃ n, (∀ p ∈ pages, Agrees result n p) ∧
        (pages.map ModernPlaybackPage.fragmentIndex).Perm ((List.range n).map some) := by
  refine ⟨fun l => ⟨?_, fun order => V4Listing.merge_pages⟩, fun pages result => merge_ok⟩
  refine List.ext_getElem (by simp [V4Listing.payloads, V4Listing.pages]) fun i hi hi' => ?_
  have hindex : i < l.fragments.length := by simpa [V4Listing.payloads] using hi
  simp only [V4Listing.payloads, V4Listing.pages, List.getElem_map, List.getElem_mapIdx]
  exact V4Listing.parse_payload hindex _

end CamGuard.Media
