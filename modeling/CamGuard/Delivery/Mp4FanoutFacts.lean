/-
Every reader of the fan-out gets a contiguous stream (`fanout_contiguous`).

The ring is always the end of the numbered fragments (`numbered`), so a cursor
that is not before it reads exactly the fragment it names. A run keeps, beside
the hub, what was published and what each reader took.
-/
import CamGuard.Delivery.Mp4Fanout
import Mathlib.Data.List.Induction

namespace CamGuard.Delivery

open Mp4Fanout

/-! ## Numbered fragments -/

/-- The fragments with their numbers. -/
def numbered (published : List Mp4Chunk) : List (Nat × Mp4Chunk) := published.mapIdx fun i c => (i, c)

@[simp] theorem length_numbered (published : List Mp4Chunk) : (numbered published).length = published.length := by
  simp [numbered]

theorem numbered_snoc (published : List Mp4Chunk) (c : Mp4Chunk) :
    numbered (published ++ [c]) = numbered published ++ [(published.length, c)] := by
  simp [numbered]

theorem getElem?_suffix {α : Type} {xs ys : List α} (h : xs <:+ ys) (i : Nat) :
    xs[i]? = ys[ys.length - xs.length + i]? := by
  obtain ⟨zs, rfl⟩ := h
  rw [List.getElem?_append_right (by simp), List.length_append]
  congr 1
  omega

theorem ring_getElem? {ring : List (Nat × Mp4Chunk)} {published : List Mp4Chunk} (h : ring <:+ numbered published)
    (i : Nat) :
    ring[i]? = published[published.length - ring.length + i]?.map fun c => (published.length - ring.length + i, c) := by
  rw [getElem?_suffix h, length_numbered, numbered, List.getElem?_mapIdx]

theorem ring_head? {ring : List (Nat × Mp4Chunk)} {published : List Mp4Chunk} (h : ring <:+ numbered published)
    (hne : ring ≠ []) : ring.head?.map Prod.fst = some (published.length - ring.length) := by
  have hpos := List.length_pos_iff.mpr hne
  have hle := h.length_le
  rw [length_numbered] at hle
  rw [List.head?_eq_getElem?, ring_getElem? h 0, List.getElem?_eq_getElem (by omega)]
  simp

theorem mem_ring_iff {ring : List (Nat × Mp4Chunk)} {published : List Mp4Chunk} (h : ring <:+ numbered published)
    (f : Nat × Mp4Chunk) :
    f ∈ ring ↔ published[f.1]? = some f.2 ∧ published.length - ring.length ≤ f.1 := by
  have hle := h.length_le
  rw [length_numbered] at hle
  rw [List.mem_iff_getElem?]
  constructor
  · rintro ⟨i, hi⟩
    rw [ring_getElem? h, Option.map_eq_some_iff] at hi
    obtain ⟨c, hc, rfl⟩ := hi
    exact ⟨hc, by simp⟩
  · rintro ⟨hc, hfirst⟩
    refine ⟨f.1 - (published.length - ring.length), ?_⟩
    have hplace : published.length - ring.length + (f.1 - (published.length - ring.length)) = f.1 := by omega
    rw [ring_getElem? h, hplace, hc]
    rfl

/-! ## Eviction -/

/-- The bytes of the fragments in the ring. -/
def ringSize (ring : List (Nat × Mp4Chunk)) : Nat := (ring.map fun f => f.2.data.length).sum

theorem ringSize_append (xs ys : List (Nat × Mp4Chunk)) : ringSize (xs ++ ys) = ringSize xs + ringSize ys := by
  simp [ringSize]

/-- **Eviction** takes fragments off the front, keeps the counter right and
leaves room. -/
theorem evict_spec (size : Nat) (ring : List (Nat × Mp4Chunk)) (bytes : Int) :
    (evict size ring bytes).1 <:+ ring ∧
      (evict size ring bytes).2 - ringSize (evict size ring bytes).1 = bytes - ringSize ring ∧
      ((evict size ring bytes).1 = [] ∨
        ((evict size ring bytes).1.length < MAX_CHUNKS ∧ (evict size ring bytes).2 + size ≤ MP4_MAX_BYTES)) := by
  induction ring generalizing bytes with
  | nil => exact ⟨List.suffix_rfl, rfl, .inl rfl⟩
  | cons removed rest ih =>
    rw [evict]
    split
    · obtain ⟨hsuffix, hbytes, hroom⟩ := ih (bytes - removed.2.data.length)
      refine ⟨hsuffix.trans (List.suffix_cons _ _), ?_, hroom⟩
      rw [hbytes, ringSize, ringSize, List.map_cons, List.sum_cons]
      push_cast
      ring
    next hfits =>
      rw [not_or] at hfits
      refine ⟨List.suffix_rfl, rfl, .inr ⟨?_, ?_⟩⟩
      · rw [List.length_cons]
        omega
      · simpa using hfits.2

/-! ## Runs -/

inductive FanoutOp where
  | publish (chunk : Mp4Chunk)
  | subscribe
  | take (reader : Nat)
  | closeReader (reader : Nat)
  | close

/-- A hub with its history: the initialization and the fragments published, and
for each reader the number of the newest fragment when it subscribed, what it
took, and whether it missed a fragment. -/
structure FanoutRun where
  hub : Mp4Fanout := {}
  first : Option Mp4Chunk := none
  published : List Mp4Chunk := []
  start : Nat → Nat := fun _ => 0
  taken : Nat → List Mp4Chunk := fun _ => []
  missed : Nat → Bool := fun _ => false
  broken : Bool := false

namespace FanoutRun

/-- The number of the next fragment for a reader: the initialization is not
counted. -/
def next (r : FanoutRun) (i : Nat) : Nat := r.start i + ((r.taken i).length - 1)

/-- A fragment that a registered reader has not taken left the ring. -/
def loses (r : FanoutRun) (hub : Mp4Fanout) (i : Nat) : Bool :=
  (r.hub.subscriptions[i]?.any fun s => s.registered) &&
    r.hub.fragments.any fun f => decide (f ∉ hub.fragments ∧ r.next i ≤ f.1)

def step (r : FanoutRun) : FanoutOp → FanoutRun
  | .publish chunk =>
    match r.hub.publish chunk with
    | (.error _, hub) => { r with hub := hub, broken := true }
    | (.ok (), hub) =>
      if chunk.initialization then { r with hub := hub, first := some chunk }
      else { r with
        hub := hub
        published := r.published ++ [chunk]
        missed := fun i => r.missed i || r.loses hub i }
  | .subscribe =>
    match r.hub.subscribe with
    | (.error _, hub) => { r with hub := hub }
    | (.ok i, hub) => { r with hub := hub, start := Function.update r.start i (r.published.length - 1) }
  | .take i =>
    match r.hub.subscriptions[i]? with
    | none => r
    | some s =>
      let hub := { r.hub with subscriptions := r.hub.subscriptions.set i (r.hub.take s).2 }
      match (r.hub.take s).1 with
      | .ok (some chunk) => { r with hub := hub, taken := Function.update r.taken i (r.taken i ++ [chunk]) }
      | _ => { r with hub := hub }
  | .closeReader i =>
    match r.hub.subscriptions[i]? with
    | none => r
    | some s => { r with hub := { r.hub with subscriptions := r.hub.subscriptions.set i s.close } }
  | .close => { r with hub := r.hub.close }

def run (ops : List FanoutOp) : FanoutRun := ops.foldl step {}

/-- One reader: what it took ends where its cursor stands, its cursor is not
before the ring while it is registered, and it failed as slow only if it missed
something. -/
structure ReaderInv (r : FanoutRun) (i : Nat) (s : Subscription) : Prop where
  cursor : r.next i = s.sequence
  bounds : r.start i ≤ s.sequence ∧ s.sequence ≤ r.published.length
  pending : s.initializationPending = true → r.taken i = []
  taken : s.initializationPending = false →
    ∃ c, r.first = some c ∧ r.taken i = c :: (r.published.drop (r.start i)).take (s.sequence - r.start i)
  ring : s.registered = true → s.error = none ∧ r.hub.closed = false ∧ r.hub.fragments ≠ [] ∧
    r.published.length - r.hub.fragments.length ≤ s.sequence
  failed : s.registered = false → s.error.isSome
  missed : r.missed i = true ↔ s.error = some .slow

/-- The size of the initialization the hub holds. -/
def firstSize (hub : Mp4Fanout) : Nat := (hub.initialization.map fun c => c.data.length).getD 0

structure Inv (r : FanoutRun) : Prop where
  number : r.hub.sequence = r.published.length
  ring : r.hub.fragments <:+ numbered r.published
  first : r.hub.closed = false → r.hub.initialization = r.first
  present : r.hub.fragments ≠ [] → r.hub.initialization.isSome
  bytes : r.hub.bytes = firstSize r.hub + ringSize r.hub.fragments
  budget : r.hub.bytes ≤ MP4_MAX_BYTES ∧ r.hub.fragments.length ≤ MAX_CHUNKS ∧ r.hub.readerCount ≤ MAX_READERS
  readers : ∀ (i : Nat) (s : Subscription), r.hub.subscriptions[i]? = some s → ReaderInv r i s
  others : ∀ i : Nat, r.hub.subscriptions.length ≤ i → r.taken i = [] ∧ r.missed i = false
  broken : r.broken = true → r.hub.closed = true
  kept : r.hub.closed = false → r.published ≠ [] → r.hub.fragments ≠ []

/-! ## One call -/

variable {r : FanoutRun}

/-- The readers of a closed hub are done with. -/
def endReader (s : Subscription) : Subscription :=
  if s.registered then { s with error := some .closed, registered := false } else s

theorem endReader_registered (s : Subscription) : (endReader s).registered = false := by
  rw [endReader]
  split
  · rfl
  next h => simpa using h

theorem Inv.closed (h : Inv r) (broken : Bool) : Inv { r with hub := r.hub.close, broken := broken } := by
  refine ⟨h.number, List.nil_suffix, fun hopen => Bool.noConfusion hopen, fun hne => absurd rfl hne, rfl,
    ⟨Int.natCast_nonneg _, Nat.zero_le _, ?_⟩, fun i s hs => ?_, fun i hi => h.others i (by simpa [close] using hi), fun _ => rfl,
    fun hopen => Bool.noConfusion hopen⟩
  · have hnone : (r.hub.close.subscriptions.filter fun s => s.registered) = [] := by
      rw [List.filter_eq_nil_iff]
      intro s hs
      obtain ⟨t, -, rfl⟩ := List.mem_map.mp hs
      exact fun hreg => absurd (endReader_registered t) (by rw [endReader]; simp [hreg])
    simp [readerCount, hnone]
  · simp only [close, List.getElem?_map, Option.map_eq_some_iff] at hs
    obtain ⟨t, ht, rfl⟩ := hs
    have hinv := h.readers i t ht
    show ReaderInv _ i (endReader t)
    by_cases hreg : t.registered = true
    · have hfields : endReader t = { t with error := some .closed, registered := false } := if_pos hreg
      rw [hfields]
      refine ⟨hinv.cursor, hinv.bounds, hinv.pending, hinv.taken, fun h => Bool.noConfusion h, fun _ => rfl, ?_⟩
      have hnot : ¬ r.missed i = true := by
        rw [hinv.missed, (hinv.ring hreg).1]
        decide
      exact ⟨fun hm => absurd hm hnot, fun he => by cases he⟩
    · have hfields : endReader t = t := if_neg hreg
      rw [hfields]
      exact ⟨hinv.cursor, hinv.bounds, hinv.pending, hinv.taken, fun h => absurd h hreg, hinv.failed, hinv.missed⟩

/-- An initialization that is accepted is the first, and nobody reads yet. -/
theorem Inv.initialize (h : Inv r) {chunk : Mp4Chunk} (hopen : r.hub.closed = false)
    (hnone : r.hub.initialization = none) (hsize : chunk.data.length ≤ MAX_INIT_BYTES) :
    Inv { r with
      hub := { r.hub with initialization := some chunk, bytes := chunk.data.length }
      first := some chunk } := by
  have hempty : r.hub.fragments = [] := by
    by_contra hne
    have hsome := h.present hne
    rw [hnone] at hsome
    cases hsome
  have hfirst : r.first = none := (h.first hopen).symm.trans hnone
  refine ⟨h.number, h.ring, fun _ => rfl, fun _ => rfl, ?_, ⟨?_, h.budget.2⟩, fun i s hs => ?_, h.others, h.broken, h.kept⟩
  · simp [firstSize, hempty, ringSize]
  · have hle : MAX_INIT_BYTES ≤ MP4_MAX_BYTES := by decide
    exact Int.ofNat_le.mpr (hsize.trans hle)
  · have hinv := h.readers i s hs
    refine ⟨hinv.cursor, hinv.bounds, hinv.pending, fun hp => ?_, fun hreg => ?_, hinv.failed, hinv.missed⟩
    · obtain ⟨c, hc, -⟩ := hinv.taken hp
      rw [hfirst] at hc
      cases hc
    · exact absurd hempty (hinv.ring hreg).2.2.1

/-- The ring after a fragment is still the end of what was published. -/
theorem ring_append (h : Inv r) (chunk : Mp4Chunk) :
    (r.hub.append chunk).fragments <:+ numbered (r.published ++ [chunk]) := by
  obtain ⟨front, hfront⟩ := (evict_spec chunk.data.length r.hub.fragments r.hub.bytes).1.trans h.ring
  refine ⟨front, ?_⟩
  rw [numbered_snoc, ← hfront, ← h.number, List.append_assoc]
  rfl

/-- **A reader misses a fragment exactly when its cursor is before the ring.** -/
theorem loses_iff (h : Inv r) {chunk : Mp4Chunk} {i : Nat} {s : Subscription}
    (hs : r.hub.subscriptions[i]? = some s) (hreg : s.registered = true) :
    r.loses (r.hub.append chunk) i = true ↔
      s.sequence < r.published.length + 1 - (r.hub.append chunk).fragments.length := by
  have hinv := h.readers i s hs
  have hring := ring_append h chunk
  have hpos : 0 < (r.hub.append chunk).fragments.length := by simp [append]
  have hlen : (r.published ++ [chunk]).length = r.published.length + 1 := by simp
  simp only [loses, hs, Option.any_some, hreg, Bool.true_and, List.any_eq_true, decide_eq_true_eq]
  rw [hinv.cursor]
  constructor
  · rintro ⟨f, hold, hnew, hnext⟩
    obtain ⟨hf, -⟩ := (mem_ring_iff h.ring f).mp hold
    rw [mem_ring_iff hring, hlen, not_and] at hnew
    have hlt : f.1 < r.published.length := (List.getElem?_eq_some_iff.mp hf).1
    have := hnew (by rw [List.getElem?_append_left hlt]; exact hf)
    omega
  · intro hbefore
    have hlt : s.sequence < r.published.length := by omega
    have hf : r.published[s.sequence]? = some r.published[s.sequence] := List.getElem?_eq_getElem hlt
    refine ⟨(s.sequence, r.published[s.sequence]), (mem_ring_iff h.ring _).mpr ⟨hf, (hinv.ring hreg).2.2.2⟩, ?_,
      Nat.le_refl _⟩
    rw [mem_ring_iff hring, hlen]
    simp only [not_and]
    omega

theorem failSlow_fields (first : Nat) (s : Subscription) :
    (failSlow first s).sequence = s.sequence ∧ (failSlow first s).initializationPending = s.initializationPending := by
  rw [failSlow]
  split <;> exact ⟨rfl, rfl⟩

theorem take_drop_snoc {published : List Mp4Chunk} {start sequence : Nat} (chunk : Mp4Chunk)
    (h : start ≤ sequence ∧ sequence ≤ published.length) :
    ((published ++ [chunk]).drop start).take (sequence - start) = (published.drop start).take (sequence - start) := by
  rw [List.drop_append_of_le_length (by omega), List.take_append_of_le_length (by rw [List.length_drop]; omega)]

theorem Inv.fragment (h : Inv r) {chunk first : Mp4Chunk} (hopen : r.hub.closed = false)
    (hfirst : r.hub.initialization = some first) (hsize : chunk.data.length + first.data.length ≤ MP4_MAX_BYTES) :
    Inv { r with
      hub := r.hub.append chunk
      published := r.published ++ [chunk]
      missed := fun i => r.missed i || r.loses (r.hub.append chunk) i } := by
  obtain ⟨hsuffix, hcount, hroom⟩ := evict_spec chunk.data.length r.hub.fragments r.hub.bytes
  have hring := ring_append h chunk
  have hlen : (r.published ++ [chunk]).length = r.published.length + 1 := by simp
  have hne : (r.hub.append chunk).fragments ≠ [] := by simp [append]
  have hhead := ring_head? hring hne
  have hbytes := h.bytes
  have hinit : firstSize r.hub = first.data.length := by rw [firstSize, hfirst]; rfl
  have hsum : ringSize (r.hub.append chunk).fragments =
      ringSize (evict chunk.data.length r.hub.fragments r.hub.bytes).1 + chunk.data.length := by
    rw [append, ringSize_append]
    simp [ringSize]
  have hsubs : (r.hub.append chunk).subscriptions =
      r.hub.subscriptions.map (failSlow (r.published.length + 1 - (r.hub.append chunk).fragments.length)) := by
    have hfirstOf : ((r.hub.append chunk).fragments.head?.map Prod.fst).getD r.hub.sequence =
        r.published.length + 1 - (r.hub.append chunk).fragments.length := by
      rw [hhead, hlen]
      rfl
    rw [← hfirstOf]
    rfl
  refine ⟨?_, hring, fun _ => h.first hopen, fun _ => ?_, ?_, ⟨?_, ?_, ?_⟩, fun i s hs => ?_, fun i hi => ?_, h.broken,
    fun _ _ => hne⟩
  · rw [hlen, ← h.number]
    rfl
  · show r.hub.initialization.isSome
    rw [hfirst]
    rfl
  · show (evict chunk.data.length r.hub.fragments r.hub.bytes).2 + (chunk.data.length : Int) =
      firstSize r.hub + ringSize (r.hub.append chunk).fragments
    rw [hsum]
    push_cast
    omega
  · show (evict chunk.data.length r.hub.fragments r.hub.bytes).2 + (chunk.data.length : Int) ≤ MP4_MAX_BYTES
    rcases hroom with hnil | ⟨-, hfits⟩
    · rw [hnil] at hcount
      simp only [ringSize, List.map_nil, List.sum_nil] at hcount
      rw [ringSize] at hbytes
      omega
    · exact hfits
  · show ((evict chunk.data.length r.hub.fragments r.hub.bytes).1 ++ [(r.hub.sequence, chunk)]).length ≤ MAX_CHUNKS
    rw [List.length_append, List.length_singleton]
    rcases hroom with hnil | ⟨hshort, -⟩
    · rw [hnil]
      decide
    · omega
  · have hle := h.budget.2.2
    simp only [readerCount, hsubs, ← List.countP_eq_length_filter, List.countP_map] at hle ⊢
    refine (List.countP_mono_left fun s _ hreg => ?_).trans hle
    simp only [Function.comp_apply, failSlow] at hreg
    split at hreg
    · cases hreg
    · exact hreg
  · simp only [hsubs, List.getElem?_map, Option.map_eq_some_iff] at hs
    obtain ⟨t, ht, rfl⟩ := hs
    have hinv := h.readers i t ht
    obtain ⟨hsequence, hpending⟩ := failSlow_fields (r.published.length + 1 - (r.hub.append chunk).fragments.length) t
    refine ⟨hinv.cursor.trans hsequence.symm, ?_, ?_, ?_, ?_, ?_, ?_⟩
    · rw [hsequence, hlen]
      exact ⟨hinv.bounds.1, Nat.le_succ_of_le hinv.bounds.2⟩
    · rw [hpending]
      exact hinv.pending
    · rw [hpending, hsequence, take_drop_snoc chunk hinv.bounds]
      exact hinv.taken
    · intro hreg
      rw [failSlow] at hreg ⊢
      split at hreg
      · cases hreg
      next hkept =>
        rw [if_neg hkept]
        rw [not_and] at hkept
        have hahead := hkept hreg
        refine ⟨(hinv.ring hreg).1, hopen, hne, ?_⟩
        rw [hlen]
        exact Nat.le_of_not_lt hahead
    · intro hreg
      rw [failSlow] at hreg ⊢
      split at hreg
      next hslow => rw [if_pos hslow]; rfl
      next hkept => rw [if_neg hkept]; exact hinv.failed hreg
    · by_cases hreg : t.registered = true
      · have herror := (hinv.ring hreg).1
        have hmissed : r.missed i = false := by
          rw [Bool.eq_false_iff, ne_eq, hinv.missed, herror]
          decide
        simp only [hmissed, Bool.false_or]
        rw [loses_iff h ht hreg, failSlow]
        split
        next hslow => exact ⟨fun _ => rfl, fun _ => hslow.2⟩
        next hkept =>
          rw [herror]
          rw [not_and] at hkept
          exact ⟨fun hlt => absurd hlt (hkept hreg), fun he => by cases he⟩
      · have hloses : r.loses (r.hub.append chunk) i = false := by
          simp [loses, ht, hreg]
        have hkept : failSlow (r.published.length + 1 - (r.hub.append chunk).fragments.length) t = t :=
          if_neg fun hslow => hreg hslow.1
        simp only [hloses, Bool.or_false, hkept]
        exact hinv.missed
  · rw [hsubs, List.length_map] at hi
    obtain ⟨htaken, hmissed⟩ := h.others i hi
    refine ⟨htaken, ?_⟩
    simp only [hmissed, Bool.false_or, loses]
    rw [List.getElem?_eq_none hi]
    rfl

theorem Inv.joined (h : Inv r) {newest : Nat × Mp4Chunk} (hopen : r.hub.closed = false)
    (hnewest : r.hub.fragments.getLast? = some newest) (hroom : r.hub.readerCount < MAX_READERS) :
    Inv { r with
      hub := { r.hub with subscriptions := r.hub.subscriptions ++ [⟨newest.1, true, none, true⟩] }
      start := Function.update r.start r.hub.subscriptions.length (r.published.length - 1) } := by
  have hne : r.hub.fragments ≠ [] := by
    intro hnil
    rw [hnil] at hnewest
    cases hnewest
  have hpos := List.length_pos_iff.mpr hne
  have hle := h.ring.length_le
  rw [length_numbered] at hle
  have hnumber : newest.1 = r.published.length - 1 := by
    rw [List.getLast?_eq_getElem?, ring_getElem? h.ring, Option.map_eq_some_iff] at hnewest
    obtain ⟨c, -, rfl⟩ := hnewest
    simp only
    omega
  obtain ⟨htaken, hmissed⟩ := h.others r.hub.subscriptions.length (Nat.le_refl _)
  refine ⟨h.number, h.ring, h.first, h.present, h.bytes, ⟨h.budget.1, h.budget.2.1, ?_⟩, fun i s hs => ?_, fun i hi => ?_,
    h.broken, h.kept⟩
  · simp only [readerCount, List.filter_append, List.length_append] at hroom ⊢
    simp only [List.filter_cons, List.filter_nil, if_true, List.length_singleton]
    omega
  · by_cases hi : i < r.hub.subscriptions.length
    · rw [List.getElem?_append_left hi] at hs
      have hinv := h.readers i s hs
      have hstart : Function.update r.start r.hub.subscriptions.length (r.published.length - 1) i = r.start i :=
        Function.update_of_ne (Nat.ne_of_lt hi) _ _
      refine ⟨?_, ?_, hinv.pending, ?_, hinv.ring, hinv.failed, hinv.missed⟩
      · simp only [next, hstart]
        exact hinv.cursor
      · simp only [hstart]
        exact hinv.bounds
      · simp only [hstart]
        exact hinv.taken
    · rw [List.getElem?_append_right (by omega)] at hs
      obtain ⟨hlt, hs⟩ := List.getElem?_eq_some_iff.mp hs
      have hi' : i = r.hub.subscriptions.length := by
        rw [List.length_singleton] at hlt
        omega
      subst hi'
      rw [List.getElem_singleton] at hs
      subst hs
      refine ⟨?_, ?_, fun _ => htaken, fun hp => Bool.noConfusion hp, fun _ => ⟨rfl, hopen, hne, ?_⟩,
        fun hreg => Bool.noConfusion hreg, ?_⟩
      · simp only [next, Function.update_self, htaken, hnumber]
        rfl
      · simp only [Function.update_self, hnumber]
        exact ⟨Nat.le_refl _, Nat.sub_le _ _⟩
      · simp only [hnumber]
        omega
      · simp only [hmissed]
        exact ⟨fun hm => Bool.noConfusion hm, fun he => by cases he⟩
  · rw [List.length_append] at hi
    exact h.others i (by omega)

theorem Inv.set (h : Inv r) {i : Nat} {s : Subscription} (hs : r.hub.subscriptions[i]? = some s) (s' : Subscription)
    (hreg : s'.registered = true → s.registered = true) (taken : List Mp4Chunk)
    (hreader : ReaderInv { r with
      hub := { r.hub with subscriptions := r.hub.subscriptions.set i s' }
      taken := Function.update r.taken i taken } i s') :
    Inv { r with
      hub := { r.hub with subscriptions := r.hub.subscriptions.set i s' }
      taken := Function.update r.taken i taken } := by
  obtain ⟨hlt, hget⟩ := List.getElem?_eq_some_iff.mp hs
  refine ⟨h.number, h.ring, h.first, h.present, h.bytes, ⟨h.budget.1, h.budget.2.1, ?_⟩, fun j t ht => ?_, fun j hj => ?_,
    h.broken, h.kept⟩
  · have hle := h.budget.2.2
    simp only [readerCount, ← List.countP_eq_length_filter] at hle ⊢
    rw [List.countP_set hlt, hget]
    have hcount : (if s.registered = true then 1 else 0) ≤ List.countP (fun s => s.registered) r.hub.subscriptions := by
      split
      next hyes => exact List.countP_pos_iff.mpr ⟨s, List.mem_of_getElem? hs, hyes⟩
      · exact Nat.zero_le _
    have hmono : (if s'.registered = true then 1 else 0) ≤ if s.registered = true then 1 else 0 := by
      split
      next hyes => rw [if_pos (hreg hyes)]
      · exact Nat.zero_le _
    omega
  · by_cases hji : j = i
    · subst hji
      simp only [List.getElem?_set_self hlt, Option.some.injEq] at ht
      subst ht
      exact hreader
    · simp only [List.getElem?_set_ne (Ne.symm hji)] at ht
      have hinv := h.readers j t ht
      have hother : Function.update r.taken i taken j = r.taken j := Function.update_of_ne hji _ _
      refine ⟨?_, hinv.bounds, ?_, ?_, hinv.ring, hinv.failed, hinv.missed⟩
      · simp only [next, hother]
        exact hinv.cursor
      · simp only [hother]
        exact hinv.pending
      · simp only [hother]
        exact hinv.taken
  · simp only [List.length_set] at hj
    have hother : Function.update r.taken i taken j = r.taken j := Function.update_of_ne (by omega) _ _
    simp only [hother]
    exact h.others j hj

theorem ringIndex_eq (h : Inv r) {i : Nat} {s : Subscription} (hs : r.hub.subscriptions[i]? = some s)
    (hreg : s.registered = true) :
    r.hub.ringIndex s = some ((s.sequence - (r.published.length - r.hub.fragments.length) : Nat) : Int) := by
  obtain ⟨-, -, hne, hahead⟩ := (h.readers i s hs).ring hreg
  have hhead := ring_head? h.ring hne
  rw [Option.map_eq_some_iff] at hhead
  obtain ⟨first, hfirst, hnumber⟩ := hhead
  rw [ringIndex, hfirst, Option.map_some, hnumber]
  congr 1
  omega

theorem ringAt_cursor (h : Inv r) {sequence : Nat} (hahead : r.published.length - r.hub.fragments.length ≤ sequence)
    (hlt : sequence < r.published.length) :
    ringAt r.hub.fragments ((sequence - (r.published.length - r.hub.fragments.length) : Nat) : Int) =
      some (sequence, r.published[sequence]) := by
  have hplace : r.published.length - r.hub.fragments.length +
      (sequence - (r.published.length - r.hub.fragments.length)) = sequence := by omega
  rw [ringAt, if_pos (Int.natCast_nonneg _), Int.toNat_natCast, ring_getElem? h.ring, hplace,
    List.getElem?_eq_getElem hlt]
  rfl

/-- **What `take` can do**: raise, have nothing yet, hand out the
initialization, or hand out the fragment the cursor names. -/
theorem take_cases (h : Inv r) {i : Nat} {s : Subscription} (hs : r.hub.subscriptions[i]? = some s) :
    (∃ e, r.hub.take s = (.error (.ended e), s)) ∨ r.hub.take s = (.ok none, s) ∨
      (s.registered = true ∧ s.initializationPending = true ∧ ∃ c, r.first = some c ∧
        r.hub.take s = (.ok (some c), { s with initializationPending := false })) ∨
      (s.registered = true ∧ s.initializationPending = false ∧ ∃ c, r.published[s.sequence]? = some c ∧
        r.hub.take s = (.ok (some c), { s with sequence := s.sequence + 1 })) := by
  have hinv := h.readers i s hs
  have hle := h.ring.length_le
  rw [length_numbered] at hle
  simp only [take]
  split
  next e herror => exact .inl ⟨e, rfl⟩
  next herror =>
  split
  · exact .inl ⟨_, rfl⟩
  next hlive =>
  have hreg : s.registered = true := by
    rw [not_or] at hlive
    simpa using hlive.1
  obtain ⟨-, hopen, hne, hahead⟩ := hinv.ring hreg
  split
  next hpending =>
    obtain ⟨c, hc⟩ := Option.isSome_iff_exists.mp (h.present hne)
    refine .inr (.inr (.inl ⟨hreg, hpending, c, (h.first hopen).symm.trans hc, ?_⟩))
    rw [hc]
  next hpending =>
    rw [ringIndex_eq h hs hreg]
    simp only
    split
    · exact .inr (.inl rfl)
    next hinside =>
      have hlt : s.sequence < r.published.length := by omega
      rw [ringAt_cursor h hahead hlt]
      exact .inr (.inr (.inr ⟨hreg, by simpa using hpending, _, List.getElem?_eq_getElem hlt, rfl⟩))

theorem Inv.take (h : Inv r) (i : Nat) : Inv (r.step (.take i)) := by
  simp only [step]
  cases hs : r.hub.subscriptions[i]? with
  | none => exact h
  | some s =>
    have hinv := h.readers i s hs
    have hstay : Inv { r with
        hub := { r.hub with subscriptions := r.hub.subscriptions.set i s }
        taken := Function.update r.taken i (r.taken i) } := by
      refine h.set hs s id _ ?_
      rw [Function.update_eq_self]
      exact ⟨hinv.cursor, hinv.bounds, hinv.pending, hinv.taken, hinv.ring, hinv.failed, hinv.missed⟩
    rw [Function.update_eq_self] at hstay
    rcases take_cases h hs with ⟨e, htake⟩ | htake | ⟨hreg, hpending, c, hc, htake⟩ | ⟨hreg, hpending, c, hc, htake⟩
    · simp only [htake]
      exact hstay
    · simp only [htake]
      exact hstay
    · have hnil := hinv.pending hpending
      have hstart : s.sequence = r.start i := by
        have hcursor := hinv.cursor
        simp only [next, hnil, List.length_nil] at hcursor
        omega
      simp only [htake, hnil, List.nil_append]
      refine h.set hs { s with initializationPending := false } (fun h => h) _ ⟨?_, hinv.bounds, fun hp => Bool.noConfusion hp, fun _ => ⟨c, hc, ?_⟩, hinv.ring,
        hinv.failed, hinv.missed⟩
      · simp only [next, Function.update_self, List.length_singleton]
        omega
      · simp only [Function.update_self, hstart, Nat.sub_self, List.take_zero]
    · obtain ⟨first, hfirst, htaken⟩ := hinv.taken hpending
      obtain ⟨hlt, hc⟩ := List.getElem?_eq_some_iff.mp hc
      have hbounds := hinv.bounds
      have hone : (r.published.drop (r.start i)).take (s.sequence + 1 - r.start i) =
          (r.published.drop (r.start i)).take (s.sequence - r.start i) ++ [c] := by
        have hsucc : s.sequence + 1 - r.start i = s.sequence - r.start i + 1 := by omega
        have hplace : r.start i + (s.sequence - r.start i) = s.sequence := by omega
        rw [hsucc, List.take_add_one, List.getElem?_drop, hplace, List.getElem?_eq_getElem hlt, hc]
        rfl
      have hlength : (r.taken i).length = s.sequence - r.start i + 1 := by
        rw [htaken, List.length_cons, List.length_take, List.length_drop]
        omega
      simp only [htake]
      refine h.set hs { s with sequence := s.sequence + 1 } (fun h => h) _ ⟨?_, ⟨by simp only; omega, hlt⟩, fun hp => ?_, fun _ => ⟨first, hfirst, ?_⟩,
        fun hreg => ?_, hinv.failed, hinv.missed⟩
      · simp only [next, Function.update_self, List.length_append, List.length_singleton, hlength]
        omega
      · rw [hpending] at hp
        cases hp
      · simp only [Function.update_self, htaken, hone, List.cons_append]
      · obtain ⟨herror, hopen, hne, hahead⟩ := hinv.ring hreg
        exact ⟨herror, hopen, hne, Nat.le_succ_of_le hahead⟩

theorem Inv.closeReader (h : Inv r) (i : Nat) : Inv (r.step (.closeReader i)) := by
  simp only [step]
  cases hs : r.hub.subscriptions[i]? with
  | none => exact h
  | some s =>
    have hinv := h.readers i s hs
    have hset := h.set hs s.close (fun hreg => Bool.noConfusion hreg) (r.taken i)
    rw [Function.update_eq_self] at hset
    refine hset ⟨hinv.cursor, hinv.bounds, hinv.pending, hinv.taken, fun hreg => Bool.noConfusion hreg, fun _ => rfl, ?_⟩
    have hsame : s.close.error = some .slow ↔ s.error = some .slow := by
      cases herror : s.error with
      | none => simp [Subscription.close, herror]
      | some e => simp [Subscription.close, herror]
    exact hinv.missed.trans hsame.symm

/-- **Every call keeps the invariant.** -/
theorem Inv.step (h : Inv r) (op : FanoutOp) : Inv (r.step op) := by
  cases op with
  | publish chunk =>
    simp only [FanoutRun.step, publish]
    split
    next hpublish =>
      split at hpublish
      next hclosed =>
        cases hpublish
        exact ⟨h.number, h.ring, h.first, h.present, h.bytes, h.budget,
          fun i s hs => ⟨(h.readers i s hs).cursor, (h.readers i s hs).bounds, (h.readers i s hs).pending,
            (h.readers i s hs).taken, (h.readers i s hs).ring, (h.readers i s hs).failed, (h.readers i s hs).missed⟩,
          h.others, fun _ => hclosed, h.kept⟩
      split at hpublish
      · cases hpublish; exact h.closed true
      split at hpublish
      · split at hpublish
        · cases hpublish; exact h.closed true
        · cases hpublish
      split at hpublish
      · cases hpublish; exact h.closed true
      split at hpublish
      · cases hpublish; exact h.closed true
      · cases hpublish
    next hpublish =>
      split at hpublish
      · cases hpublish
      next hopen =>
      split at hpublish
      · cases hpublish
      split at hpublish
      next hkind =>
        split at hpublish
        · cases hpublish
        next hfit =>
          cases hpublish
          rw [not_or] at hfit
          rw [if_pos hkind]
          exact h.initialize (by simpa using hopen) (by simpa using hfit.1) (by omega)
      next hkind =>
      split at hpublish
      · cases hpublish
      next first hfirst =>
      split at hpublish
      · cases hpublish
      next hfit =>
        cases hpublish
        rw [if_neg hkind]
        exact h.fragment (by simpa using hopen) hfirst (by omega)
  | subscribe =>
    simp only [FanoutRun.step, subscribe]
    split
    next hsubscribe =>
      split at hsubscribe
      · split at hsubscribe
        · cases hsubscribe; exact h
        · cases hsubscribe
      · cases hsubscribe; exact h
    next hsubscribe =>
      split at hsubscribe
      next newest hopen hnewest =>
        split at hsubscribe
        · cases hsubscribe
        next hroom =>
          cases hsubscribe
          exact h.joined hopen hnewest (by omega)
      · cases hsubscribe
  | take i => exact h.take i
  | closeReader i => exact h.closeReader i
  | close => exact h.closed r.broken

theorem inv_run (ops : List FanoutOp) : Inv (run ops) := by
  have hstart : Inv {} :=
    ⟨rfl, List.suffix_rfl, fun _ => rfl, fun hne => absurd rfl hne, rfl,
      ⟨Int.natCast_nonneg _, Nat.zero_le _, Nat.zero_le _⟩, fun i s hs => absurd hs (by simp), fun _ _ => ⟨rfl, rfl⟩,
      fun hb => Bool.noConfusion hb, fun _ hne => absurd rfl hne⟩
  have hrun : ∀ (ops : List FanoutOp) (r : FanoutRun), Inv r → Inv (ops.foldl FanoutRun.step r) := by
    intro ops
    induction ops with
    | nil => exact fun r hr => hr
    | cons op ops ih => exact fun r hr => ih _ (hr.step op)
  exact hrun ops _ hstart

/-- A registered reader takes what comes next for it, nothing while it has all. -/
theorem take_next (h : Inv r) {i : Nat} {s : Subscription} (hs : r.hub.subscriptions[i]? = some s)
    (hreg : s.registered = true) :
    (r.hub.take s).1 = .ok ((r.first.toList ++ r.published.drop (r.start i))[(r.taken i).length]?) := by
  have hinv := h.readers i s hs
  obtain ⟨herror, hopen, hne, hahead⟩ := hinv.ring hreg
  have hle := h.ring.length_le
  rw [length_numbered] at hle
  obtain ⟨hstart, hend⟩ := hinv.bounds
  rw [take, herror]
  dsimp only
  rw [if_neg (by simp [hreg, hopen])]
  split
  next hpending =>
    obtain ⟨c, hc⟩ := Option.isSome_iff_exists.mp (h.present hne)
    rw [hinv.pending hpending, ← h.first hopen, hc]
    rfl
  next hpending =>
    obtain ⟨c, hc, htaken⟩ := hinv.taken (by simpa using hpending)
    have hlength : (r.taken i).length = s.sequence - r.start i + 1 := by
      rw [htaken, List.length_cons, List.length_take, List.length_drop]
      omega
    have hdue : (r.first.toList ++ r.published.drop (r.start i))[(r.taken i).length]? = r.published[s.sequence]? := by
      have hplace : r.start i + (s.sequence - r.start i) = s.sequence := by omega
      rw [hc, hlength, Option.toList_some, List.singleton_append, List.getElem?_cons_succ, List.getElem?_drop, hplace]
    rw [hdue, ringIndex_eq h hs hreg]
    dsimp only
    split
    next hall =>
      rw [List.getElem?_eq_none (by omega)]
    next hinside =>
      have hlt : s.sequence < r.published.length := by omega
      rw [ringAt_cursor h hahead hlt, List.getElem?_eq_getElem hlt]

theorem subscribe_joins (h : Inv r) (hopen : r.hub.closed = false) (hpublished : r.published ≠ [])
    (hroom : r.hub.readerCount < MAX_READERS) : r.hub.subscribe.1 = .ok r.hub.subscriptions.length := by
  have hnewest := List.getLast?_eq_some_getLast (h.kept hopen hpublished)
  rw [subscribe, hopen, hnewest]
  dsimp only
  rw [if_neg (not_le.mpr hroom)]

/-- **Every reader gets a contiguous stream.** What a reader took is the
initialization and the fragments from the newest one at its subscription on, as
far as it goes; it is failed as slow exactly if a fragment it had not taken left
the ring while it was registered; a registered reader's `take` hands it the next of its
stream, and never uses a negative or missing index; while the hub is open, has a fragment
and room, a reader can join; the ring, its counter and the readers stay within their
limits; and after a failed publish every reader's `take` raises. -/
theorem fanout_contiguous (ops : List FanoutOp) :
    (∀ i, (run ops).taken i <+: (run ops).first.toList ++ (run ops).published.drop ((run ops).start i)) ∧
    (∀ (i : Nat) (s : Subscription), (run ops).hub.subscriptions[i]? = some s →
      ((run ops).missed i = true ↔ s.error = some .slow) ∧
      (s.registered = true → ∃ n : Nat, (run ops).hub.ringIndex s = some (n : Int)) ∧
      (s.registered = true → ((run ops).hub.take s).1 =
        .ok (((run ops).first.toList ++ (run ops).published.drop ((run ops).start i))[((run ops).taken i).length]?)) ∧
      ((run ops).hub.take s).1 ≠ .error .index ∧
      ((run ops).broken = true → ∃ e, ((run ops).hub.take s).1 = .error (.ended e) ∧
        (e = .slow → (run ops).missed i = true))) ∧
    ((run ops).hub.closed = false → (run ops).published ≠ [] → (run ops).hub.readerCount < MAX_READERS →
      (run ops).hub.subscribe.1 = .ok (run ops).hub.subscriptions.length) ∧
    (run ops).hub.fragments.length ≤ MAX_CHUNKS ∧
    (run ops).hub.bytes = firstSize (run ops).hub + ringSize (run ops).hub.fragments ∧
    (run ops).hub.bytes ≤ MP4_MAX_BYTES ∧ (run ops).hub.readerCount ≤ MAX_READERS := by
  have h := inv_run ops
  refine ⟨fun i => ?_, fun i s hs => ⟨(h.readers i s hs).missed, fun hreg => ⟨_, ringIndex_eq h hs hreg⟩,
    fun hreg => take_next h hs hreg, ?_, fun hbroken => ?_⟩, subscribe_joins h, h.budget.2.1, h.bytes, h.budget.1, h.budget.2.2⟩
  · cases hs : (run ops).hub.subscriptions[i]? with
    | none =>
      rw [List.getElem?_eq_none_iff] at hs
      rw [(h.others i hs).1]
      exact List.nil_prefix
    | some s =>
      have hinv := h.readers i s hs
      cases hpending : s.initializationPending with
      | true =>
        rw [hinv.pending hpending]
        exact List.nil_prefix
      | false =>
        obtain ⟨c, hc, htaken⟩ := hinv.taken hpending
        rw [htaken, hc]
        exact List.cons_prefix_cons.mpr ⟨rfl, List.take_prefix _ _⟩
  · rcases take_cases h hs with ⟨e, htake⟩ | htake | ⟨-, -, c, -, htake⟩ | ⟨-, -, c, -, htake⟩ <;> rw [htake] <;> simp
  · have hinv := h.readers i s hs
    have hreg : s.registered = false := by
      by_contra hyes
      have hopen := (hinv.ring (by simpa using hyes)).2.1
      rw [h.broken hbroken] at hopen
      cases hopen
    obtain ⟨e, he⟩ := Option.isSome_iff_exists.mp (hinv.failed hreg)
    refine ⟨e, by simp only [Mp4Fanout.take, he], fun hslow => hinv.missed.mpr ?_⟩
    rw [he, hslow]

end FanoutRun

end CamGuard.Delivery
