/-
Fragmented MP4 loses nothing (`mp4_framing`).

A feed that does not fail cuts the boxes a scan of the stream finds
(`parse_scan`), and pairs them as `Pairing.add` does, which knows neither feeds
nor takes. So what was taken and what is queued are a function of the bytes fed.
-/
import CamGuard.Delivery.FragmentedMp4
import CamGuard.Lib.Framing

namespace CamGuard.Delivery

open Framing FragmentedMp4

/-! ## Boxes -/

/-- A complete box of a type. -/
def IsBox (kind box : Bytes) : Prop := 8 ≤ box.length ∧ boxSize box = box.length ∧ boxKind box = kind

/-- What the header at the front of the stream says. -/
def boxView (b : Bytes) : Verdict Bytes Unit :=
  if b.length < 8 then .wait
  else if boxSize b < 8 ∨ MP4_MAX_BYTES < boxSize b then .bad ()
  else if b.length < boxSize b then .wait
  else .record (b.take (boxSize b)) (boxSize b)

theorem boxSize_append {b : Bytes} (c : Bytes) (h : 8 ≤ b.length) : boxSize (b ++ c) = boxSize b := by
  rw [boxSize, boxSize, List.take_append_of_le_length (by omega)]

theorem boxSize_take {b : Bytes} {n : Nat} (h : 8 ≤ n) : boxSize (b.take n) = boxSize b := by
  rw [boxSize, boxSize, List.take_take, Nat.min_eq_left (by omega)]

theorem boxKind_take {b : Bytes} {n : Nat} (h : 8 ≤ n) : boxKind (b.take n) = boxKind b := Bytes.slice_take (by omega)

theorem boxView_record {b r : Bytes} {n : Nat} (h : boxView b = .record r n) :
    8 ≤ b.length ∧ n = boxSize b ∧ 8 ≤ n ∧ n ≤ MP4_MAX_BYTES ∧ n ≤ b.length ∧ r = b.take n := by
  simp only [boxView] at h
  split at h
  · cases h
  split at h
  · cases h
  split at h
  · cases h
  · cases h
    exact ⟨by omega, rfl, by omega, by omega, by omega, rfl⟩

theorem boxView_wait {b : Bytes} (h : boxView b = .wait) (hhead : 8 ≤ b.length) : b.length < boxSize b := by
  rw [boxView, if_neg (not_lt.mpr hhead)] at h
  split at h
  · cases h
  split at h
  next hmore => exact hmore
  · cases h

/-- The rule boxes are cut by. -/
def boxRule : Rule UInt8 Bytes Unit where
  view := boxView
  view_nil := rfl
  size_pos h := by have := boxView_record h; omega
  size_le h := (boxView_record h).2.2.2.2.1
  stable {b} c h := by
    simp only [boxView] at h ⊢
    split at h
    · exact absurd rfl h
    next hlen =>
    rw [boxSize_append c (by omega), if_neg hlen, if_neg (by simp only [List.length_append]; omega)]
    split at h
    next hbad => rw [if_pos hbad, if_pos hbad]
    next hgood =>
    rw [if_neg hgood, if_neg hgood]
    split at h
    · exact absurd rfl h
    next hall =>
      rw [if_neg hall, if_neg (by simp only [List.length_append]; omega), List.take_append_of_le_length (by omega)]
  local_ {b r n} h := by
    obtain ⟨hlen, hsize, hn, hmax, hle, rfl⟩ := boxView_record h
    have htake : (b.take n).length = n := by simp [hle]
    simp only [boxView, boxSize_take hn, htake, ← hsize]
    rw [if_neg (by omega), if_neg (by omega), if_neg (by omega), List.take_take, Nat.min_self]

/-- A record of the rule is its own box. -/
theorem isBox_of_encodes {r w : Bytes} (h : boxRule.Encodes r w) : r = w ∧ IsBox (boxKind w) w := by
  obtain ⟨hlen, hsize, hn, hmax, hle, hr⟩ := boxView_record h
  rw [List.take_length] at hr
  exact ⟨hr, hlen, hsize.symm, rfl⟩

/-- What a scan cuts are boxes, and with the rest they are the stream. -/
theorem boxes_of_scan {b rest : Bytes} (h : (boxRule.scan b).2 = .ok rest) :
    (∀ box ∈ (boxRule.scan b).1, IsBox (boxKind box) box) ∧ b = (boxRule.scan b).1.flatten ++ rest := by
  obtain ⟨ws, hall, heq⟩ := Rule.scan_ok_inv h
  have hsame : ∀ {rs us : List Bytes}, List.Forall₂ boxRule.Encodes rs us →
      rs = us ∧ ∀ box ∈ rs, IsBox (boxKind box) box := by
    intro rs us hrs
    induction hrs with
    | nil => exact ⟨rfl, fun box hbox => absurd hbox (List.not_mem_nil)⟩
    | cons hw _ ih =>
      obtain ⟨rfl, hbox⟩ := isBox_of_encodes hw
      obtain ⟨rfl, hrest⟩ := ih
      exact ⟨rfl, List.forall_mem_cons.mpr ⟨hbox, hrest⟩⟩
  obtain ⟨hws, hboxes⟩ := hsame hall
  exact ⟨hboxes, by rw [hws]; exact heq⟩

/-! ## Pairs -/

/-- One initialization: `ftyp` and `moov`. -/
def IsInitialization (c : Mp4Chunk) : Prop :=
  c.initialization = true ∧ ∃ ftyp moov, IsBox FTYP ftyp ∧ IsBox MOOV moov ∧ c.data = ftyp ++ moov

/-- One fragment: `moof` and `mdat`. -/
def IsMedia (c : Mp4Chunk) : Prop :=
  c.initialization = false ∧ ∃ moof mdat, IsBox MOOF moof ∧ IsBox MDAT mdat ∧ c.data = moof ++ mdat

/-- An initialization and then fragments. -/
def Presents (chunks : List Mp4Chunk) : Prop :=
  ∃ first media, chunks = first :: media ∧ IsInitialization first ∧ ∀ c ∈ media, IsMedia c

theorem Presents.snoc {chunks : List Mp4Chunk} {c : Mp4Chunk} (h : Presents chunks) (hc : IsMedia c) :
    Presents (chunks ++ [c]) := by
  obtain ⟨first, media, rfl, hfirst, hmedia⟩ := h
  refine ⟨first, media ++ [c], rfl, hfirst, fun x hx => ?_⟩
  rcases List.mem_append.mp hx with hx | hx
  · exact hmedia x hx
  · rw [List.mem_singleton.mp hx]; exact hc

/-- The chunks of all boxes so far, and the box that waits for its pair. -/
structure Pairing where
  chunks : List Mp4Chunk := []
  pair : Bytes := []
  expected : Bytes := FTYP

namespace Pairing

def add (p : Pairing) (box : Bytes) : Option Pairing :=
  if boxKind box ≠ p.expected then none
  else if boxKind box = FTYP ∨ boxKind box = MOOF then
    some { p with pair := box, expected := if boxKind box = FTYP then MOOV else MDAT }
  else some ⟨p.chunks ++ [⟨decide (boxKind box = MOOV), p.pair ++ box⟩], [], MOOF⟩

def bytes (p : Pairing) : Bytes := p.chunks.flatMap Mp4Chunk.data ++ p.pair

/-- What is expected tells what is there. -/
def Wf (p : Pairing) : Prop :=
  (p.expected = FTYP ∧ p.pair = [] ∧ p.chunks = []) ∨ (p.expected = MOOV ∧ IsBox FTYP p.pair ∧ p.chunks = []) ∨
    (p.expected = MOOF ∧ p.pair = [] ∧ Presents p.chunks) ∨ (p.expected = MDAT ∧ IsBox MOOF p.pair ∧ Presents p.chunks)

variable {p p' : Pairing}

/-- A box keeps the order and is not lost. -/
theorem add_wf {box : Bytes} (hp : p.Wf) (hbox : IsBox (boxKind box) box) (h : p.add box = some p') :
    p'.Wf ∧ p'.bytes = p.bytes ++ box := by
  simp only [add] at h
  split at h
  · cases h
  next hkind =>
  rw [not_not] at hkind
  rw [hkind] at h hbox
  rcases hp with ⟨he, hpair, hchunks⟩ | ⟨he, hpair, hchunks⟩ | ⟨he, hpair, hchunks⟩ | ⟨he, hpair, hchunks⟩
  · rw [he, if_pos (.inl rfl), if_pos rfl] at h
    cases h
    rw [he] at hbox
    exact ⟨.inr (.inl ⟨rfl, hbox, hchunks⟩), by simp [bytes, hpair]⟩
  · rw [he, if_neg (by decide)] at h
    cases h
    rw [he] at hbox
    refine ⟨.inr (.inr (.inl ⟨rfl, rfl, ?_⟩)), by simp [bytes]⟩
    exact ⟨_, [], by rw [hchunks]; rfl, ⟨rfl, _, _, hpair, hbox, rfl⟩, fun c hc => absurd hc (List.not_mem_nil)⟩
  · rw [he, if_pos (.inr rfl), if_neg (by decide)] at h
    cases h
    rw [he] at hbox
    exact ⟨.inr (.inr (.inr ⟨rfl, hbox, hchunks⟩)), by simp [bytes, hpair]⟩
  · rw [he, if_neg (by decide)] at h
    cases h
    rw [he] at hbox
    refine ⟨.inr (.inr (.inl ⟨rfl, rfl, ?_⟩)), by simp [bytes]⟩
    exact Presents.snoc hchunks ⟨rfl, _, _, hpair, hbox, rfl⟩

theorem addAll_wf {boxes : List Bytes} (hp : p.Wf) (hboxes : ∀ box ∈ boxes, IsBox (boxKind box) box)
    (h : boxes.foldlM add p = some p') : p'.Wf ∧ p'.bytes = p.bytes ++ boxes.flatten := by
  induction boxes generalizing p with
  | nil => cases h; exact ⟨hp, by simp⟩
  | cons box boxes ih =>
    rw [List.foldlM_cons] at h
    obtain ⟨q, hq, hrest⟩ := Option.bind_eq_some_iff.mp h
    obtain ⟨hbox, hboxes⟩ := List.forall_mem_cons.mp hboxes
    obtain ⟨hwf, hbytes⟩ := add_wf hp hbox hq
    obtain ⟨hwf', hbytes'⟩ := ih hwf hboxes hrest
    exact ⟨hwf', by rw [hbytes', hbytes, List.flatten_cons, List.append_assoc]⟩

/-- The chunks made so far are an initialization and fragments. -/
theorem Wf.presents (h : p.Wf) : p.chunks = [] ∨ Presents p.chunks := by
  rcases h with ⟨-, -, h⟩ | ⟨-, -, h⟩ | ⟨-, -, h⟩ | ⟨-, -, h⟩
  · exact .inl h
  · exact .inl h
  · exact .inr h
  · exact .inr h

end Pairing

/-! ## A feed -/

/-- The parts of the output that pairing is about, with what was taken before. -/
def FragmentedMp4.pairing (f : FragmentedMp4) (taken : List Mp4Chunk) : Pairing := ⟨taken ++ f.chunks, f.pair, f.expected⟩

/-- The bytes of the queued chunks. -/
def queueSize (chunks : List Mp4Chunk) : Nat := (chunks.map fun c => c.data.length).sum

/-- The counter is right and the queue is short. -/
structure Counted (f : FragmentedMp4) : Prop where
  bytes : f.queuedBytes = queueSize f.chunks
  chunks : f.chunks.length ≤ MAX_CHUNKS

/-- **The loop that does not fail** cuts the boxes a scan finds, and pairs them. -/
theorem parse_scan {fuel boxes : Nat} {f f' : FragmentedMp4} (h : parse fuel boxes f = (.ok (), f'))
    (hfuel : f.buffer.length ≤ fuel) (hf : Counted f) (taken : List Mp4Chunk) :
    (boxRule.scan f.buffer).2 = .ok f'.buffer ∧
      (boxRule.scan f.buffer).1.foldlM Pairing.add (f.pairing taken) = some (f'.pairing taken) ∧ Counted f' ∧
      f'.closed = f.closed := by
  induction fuel generalizing boxes f with
  | zero =>
    have hnil : f.buffer = [] := List.length_eq_zero_iff.mp (by omega)
    cases h
    rw [hnil, Rule.scan_wait boxRule.view_nil]
    exact ⟨rfl, rfl, hf, rfl⟩
  | succ fuel ih =>
    simp only [parse] at h
    split at h
    next hshort =>
      have hv : boxRule.view f.buffer = .wait := if_pos hshort
      cases h
      rw [Rule.scan_wait hv]
      exact ⟨rfl, rfl, hf, rfl⟩
    next hhead =>
    split at h
    · cases h
    next hsize =>
    split at h
    · cases h
    next hkind =>
    rw [not_not] at hkind
    split at h
    next hmore =>
      have hv : boxRule.view f.buffer = .wait := by
        show boxView f.buffer = .wait
        rw [boxView, if_neg hhead, if_neg hsize, if_pos hmore]
      cases h
      rw [Rule.scan_wait hv]
      exact ⟨rfl, rfl, hf, rfl⟩
    next hall =>
    split at h
    · cases h
    have hv : boxRule.view f.buffer = .record (f.buffer.take (boxSize f.buffer)) (boxSize f.buffer) := by
      show boxView f.buffer = _
      rw [boxView, if_neg hhead, if_neg hsize, if_neg hall]
    have hrest : (f.buffer.drop (boxSize f.buffer)).length ≤ fuel := by
      rw [List.length_drop]
      omega
    have hbox : boxKind (f.buffer.take (boxSize f.buffer)) = boxKind f.buffer := boxKind_take (by omega)
    rw [Rule.scan_record hv]
    simp only [List.foldlM_cons]
    split at h
    next hfirst =>
      have hadd : (f.pairing taken).add (f.buffer.take (boxSize f.buffer)) =
          some ⟨taken ++ f.chunks, f.buffer.take (boxSize f.buffer),
            if boxKind f.buffer = FTYP then MOOV else MDAT⟩ := by
        simp only [Pairing.add, hbox, FragmentedMp4.pairing, hkind, ne_eq, not_true_eq_false, if_false]
        rw [hkind] at hfirst
        rw [if_pos hfirst]
      rw [hadd, Option.bind_eq_bind, Option.bind_some]
      exact ih h hrest ⟨hf.bytes, hf.chunks⟩
    next hfirst =>
    split at h
    · cases h
    next hroom =>
      have hadd : (f.pairing taken).add (f.buffer.take (boxSize f.buffer)) =
          some ⟨taken ++ (f.chunks ++ [⟨decide (boxKind f.buffer = MOOV), f.pair ++ f.buffer.take (boxSize f.buffer)⟩]),
            [], MOOF⟩ := by
        simp only [Pairing.add, hbox, FragmentedMp4.pairing, hkind, ne_eq, not_true_eq_false, if_false]
        rw [hkind] at hfirst
        rw [if_neg hfirst, List.append_assoc]
      rw [hadd, Option.bind_eq_bind, Option.bind_some]
      refine ih h hrest ⟨?_, ?_⟩
      · simp only [hf.bytes, queueSize, List.map_append, List.map_cons, List.map_nil, List.sum_append, List.sum_singleton]
        push_cast
        rfl
      · simp only [List.length_append, List.length_singleton]
        omega

/-! ## Runs -/

inductive Mp4Op where
  | feed (data : Bytes)
  | take

/-- An output with its history: the bytes fed, the chunks taken, and whether a
feed failed. -/
structure Mp4Run where
  output : FragmentedMp4 := {}
  fed : Bytes := []
  taken : List Mp4Chunk := []
  failed : Bool := false

namespace Mp4Run

def step (r : Mp4Run) : Mp4Op → Mp4Run
  | .feed data =>
    match r.output.feed data with
    | (.error _, f) => { r with output := f, fed := r.fed ++ data, failed := true }
    | (.ok (), f) => { r with output := f, fed := r.fed ++ data }
  | .take =>
    match r.output.take with
    | (none, f) => { r with output := f }
    | (some chunk, f) => { r with output := f, taken := r.taken ++ [chunk] }

def run (ops : List Mp4Op) : Mp4Run := ops.foldl step {}

/-- The output is closed and holds nothing. -/
def Emptied (f : FragmentedMp4) : Prop :=
  f.closed = true ∧ f.buffer = [] ∧ f.pair = [] ∧ f.chunks = [] ∧ f.bufferedBytes = 0

theorem emptied_close (f : FragmentedMp4) : Emptied f.close := ⟨rfl, rfl, rfl, rfl, rfl⟩

/-- What was taken and what is held is what a scan of the bytes fed gives. -/
structure Framed (r : Mp4Run) : Prop where
  scan : r.failed = false → (boxRule.scan r.fed).2 = .ok r.output.buffer ∧
    (boxRule.scan r.fed).1.foldlM Pairing.add {} = some (r.output.pairing r.taken) ∧ r.output.closed = false
  counted : Counted r.output
  budget : r.output.bufferedBytes ≤ MP4_MAX_BYTES
  emptied : r.failed = true → Emptied r.output

theorem conserved {f : FragmentedMp4} {fed : Bytes} {taken : List Mp4Chunk}
    (hscan : (boxRule.scan fed).2 = .ok f.buffer)
    (hpairs : (boxRule.scan fed).1.foldlM Pairing.add {} = some (f.pairing taken)) :
    (taken ++ f.chunks).flatMap Mp4Chunk.data ++ f.pair ++ f.buffer = fed ∧
      (taken ++ f.chunks = [] ∨ Presents (taken ++ f.chunks)) := by
  obtain ⟨hboxes, hfed⟩ := boxes_of_scan hscan
  obtain ⟨hwf, hbytes⟩ := Pairing.addAll_wf (.inl ⟨rfl, rfl, rfl⟩) hboxes hpairs
  refine ⟨?_, hwf.presents⟩
  have hall : (taken ++ f.chunks).flatMap Mp4Chunk.data ++ f.pair = (boxRule.scan fed).1.flatten := hbytes
  rw [hall]
  exact hfed.symm

theorem length_flatMap_data (chunks : List Mp4Chunk) : (chunks.flatMap Mp4Chunk.data).length = queueSize chunks := by
  rw [List.length_flatMap, queueSize]

theorem length_fed {f : FragmentedMp4} {fed : Bytes} {taken : List Mp4Chunk} (hcounted : Counted f)
    (h : (taken ++ f.chunks).flatMap Mp4Chunk.data ++ f.pair ++ f.buffer = fed) :
    (fed.length : Int) = queueSize taken + f.bufferedBytes := by
  rw [← h, bufferedBytes, hcounted.bytes]
  simp only [List.flatMap_append, List.length_append, length_flatMap_data]
  push_cast
  ring

theorem framed_feed {r : Mp4Run} (h : Framed r) (data : Bytes) : Framed (r.step (.feed data)) := by
  simp only [step, feed]
  split
  next hfeed =>
    split at hfeed
    next hclosed =>
      cases hfeed
      refine ⟨fun hok => Bool.noConfusion hok, h.counted, h.budget, fun _ => ?_⟩
      cases hfailed : r.failed with
      | true => exact h.emptied hfailed
      | false =>
        rw [(h.scan hfailed).2.2] at hclosed
        cases hclosed
    split at hfeed
    · cases hfeed
      exact ⟨fun hok => Bool.noConfusion hok, ⟨rfl, Nat.zero_le _⟩, Int.natCast_nonneg _, fun _ => emptied_close _⟩
    split at hfeed
    · cases hfeed
      exact ⟨fun hok => Bool.noConfusion hok, ⟨rfl, Nat.zero_le _⟩, Int.natCast_nonneg _, fun _ => emptied_close _⟩
    · cases hfeed
  next f' hfeed =>
    split at hfeed
    · cases hfeed
    next hopen =>
    split at hfeed
    · cases hfeed
    next hroom =>
    split at hfeed
    · cases hfeed
    next hparse =>
      cases hfeed
      have hok : r.failed = false := by
        by_contra hfailed
        exact hopen (h.emptied (by simpa using hfailed)).1
      obtain ⟨hscan, hpairs, hclosed⟩ := h.scan hok
      obtain ⟨hscan', hpairs', hcounted, hstill⟩ := parse_scan hparse (Nat.le_refl _)
        ⟨h.counted.bytes, h.counted.chunks⟩ r.taken
      have hwhole := boxRule.scan_append_ok data hscan
      have hframed : (boxRule.scan (r.fed ++ data)).2 = .ok f'.buffer ∧
          (boxRule.scan (r.fed ++ data)).1.foldlM Pairing.add {} = some (f'.pairing r.taken) ∧ f'.closed = false := by
        rw [hwhole]
        refine ⟨hscan', ?_, hstill.trans hclosed⟩
        rw [List.foldlM_append, hpairs]
        exact hpairs'
      refine ⟨fun _ => hframed, hcounted, ?_, fun hfailed => ?_⟩
      · have hbefore := length_fed h.counted (conserved hscan hpairs).1
        have hafter := length_fed hcounted (conserved hframed.1 hframed.2.1).1
        rw [List.length_append] at hafter
        push_cast at hafter
        simp only
        omega
      · rw [hok] at hfailed
        cases hfailed

theorem framed_take {r : Mp4Run} (h : Framed r) : Framed (r.step .take) := by
  simp only [step, FragmentedMp4.take]
  cases hchunks : r.output.chunks with
  | nil => exact h
  | cons chunk chunks =>
    have hsize : queueSize r.output.chunks = chunk.data.length + queueSize chunks := by
      rw [hchunks, queueSize, List.map_cons, List.sum_cons, queueSize]
    have hbytes := h.counted.bytes
    have hcount := h.counted.chunks
    rw [hsize] at hbytes
    rw [hchunks, List.length_cons] at hcount
    refine ⟨fun hok => ?_, ⟨?_, ?_⟩, ?_, fun hfailed => ?_⟩
    · obtain ⟨hscan, hpairs, hopen⟩ := h.scan hok
      refine ⟨hscan, ?_, hopen⟩
      rw [hpairs]
      simp only [pairing, hchunks, List.append_assoc, List.singleton_append]
    · simp only [hbytes]
      push_cast
      ring
    · simp only
      omega
    · have hbudget := h.budget
      simp only [bufferedBytes] at hbudget ⊢
      omega
    · rw [(h.emptied hfailed).2.2.2.1] at hchunks
      cases hchunks

theorem framed_run (ops : List Mp4Op) : Framed (run ops) := by
  have hstart : Framed {} :=
    ⟨fun _ => ⟨by rw [Rule.scan_wait boxRule.view_nil], by rw [Rule.scan_wait boxRule.view_nil]; rfl, rfl⟩,
      ⟨rfl, Nat.zero_le _⟩, Int.natCast_nonneg _, fun h => Bool.noConfusion h⟩
  have hrun : ∀ (ops : List Mp4Op) (r : Mp4Run), Framed r → Framed (ops.foldl step r) := by
    intro ops
    induction ops with
    | nil => exact fun r hr => hr
    | cons op ops ih =>
      intro r hr
      cases op with
      | feed data => exact ih _ (framed_feed hr data)
      | take => exact ih _ (framed_take hr)
  exact hrun ops _ hstart

/-- **Framing loses nothing.** As long as no feed failed, the bytes fed are the
chunks taken, the chunks queued, the box that waits for its pair and the unread
rest; every box that is complete was cut, and they are paired in order; the chunks are
an initialization and then fragments, and the same bytes give the same chunks, however
they were cut and whenever chunks were taken. The budget holds in every state, and a
feed that failed left nothing behind. -/
theorem mp4_framing (ops : List Mp4Op) :
    ((run ops).failed = false →
      ((run ops).taken ++ (run ops).output.chunks).flatMap Mp4Chunk.data ++ (run ops).output.pair ++
          (run ops).output.buffer = (run ops).fed ∧
        (boxRule.scan (run ops).fed).2 = .ok (run ops).output.buffer ∧
        (boxRule.scan (run ops).fed).1.foldlM Pairing.add {} = some ((run ops).output.pairing (run ops).taken) ∧
        (8 ≤ (run ops).output.buffer.length → (run ops).output.buffer.length < boxSize (run ops).output.buffer) ∧
        ((run ops).taken ++ (run ops).output.chunks = [] ∨ Presents ((run ops).taken ++ (run ops).output.chunks)) ∧
        ∀ ops' : List Mp4Op, (run ops').failed = false → (run ops').fed = (run ops).fed →
          (run ops').taken ++ (run ops').output.chunks = (run ops).taken ++ (run ops).output.chunks) ∧
    (run ops).output.bufferedBytes = (run ops).output.buffer.length + (run ops).output.pair.length +
      queueSize (run ops).output.chunks ∧
    (run ops).output.bufferedBytes ≤ MP4_MAX_BYTES ∧ (run ops).output.chunks.length ≤ MAX_CHUNKS ∧
    ((run ops).failed = true → Emptied (run ops).output) := by
  have h := framed_run ops
  refine ⟨fun hok => ?_, by rw [bufferedBytes, h.counted.bytes], h.budget, h.counted.chunks, h.emptied⟩
  obtain ⟨hscan, hpairs, -⟩ := h.scan hok
  obtain ⟨hbytes, hpresents⟩ := conserved hscan hpairs
  refine ⟨hbytes, hscan, hpairs, boxView_wait (Rule.view_rest boxRule hscan), hpresents, fun ops' hok' hfed => ?_⟩
  obtain ⟨-, hpairs', -⟩ := (framed_run ops').scan hok'
  rw [hfed, hpairs, Option.some.injEq] at hpairs'
  exact (congrArg Pairing.chunks hpairs').symm

end Mp4Run

end CamGuard.Delivery
