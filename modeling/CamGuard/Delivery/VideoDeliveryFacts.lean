/-
A decoder never gets a frame whose reference was dropped (`epochs_unbroken`).

A call of `consume` can do four things (`consume_cases`): leave the queue alone,
empty it and close the gate, start an epoch, or continue one. Each frame is
followed from the record it came from, so an epoch is a stretch of the records
with video, from a restart on.
-/
import CamGuard.Delivery.VideoDelivery
import Mathlib.Data.List.Induction
import Mathlib.Data.List.Range

namespace CamGuard.Delivery

open CamGuard.Media (V1EncodingHeader V1Record)

/-! ## The gate -/

/-- An IDR access unit that brings VPS, SPS and PPS, in this order and before
any slice. -/
def ConfiguredIdr (payload : Bytes) : Prop :=
  ∃ units before after, inspectAccessUnit payload = .ok units ∧ units = before ++ after ∧
    (parameterSets before).map Nal.kind = [32, 33, 34] ∧ (∀ nal ∈ before, 32 ≤ nal.kind) ∧
    pictures units ≠ [] ∧ ∀ nal ∈ pictures units, nal.kind = 19 ∨ nal.kind = 20

theorem complete_split {units : List Nal} (h : completeConfiguration units = true) :
    ∃ before after, units = before ++ after ∧ (parameterSets before).map Nal.kind = [32, 33, 34] ∧
      ∀ nal ∈ before, 32 ≤ nal.kind := by
  simp only [completeConfiguration] at h
  split at h
  · cases h
  next last hlast =>
    rw [Bool.and_eq_true, decide_eq_true_eq, List.all_eq_true] at h
    obtain ⟨hkinds, hbefore⟩ := h
    refine ⟨units.take (units.idxOf last + 1), units.drop (units.idxOf last + 1), (List.take_append_drop _ _).symm, ?_,
      fun nal hnal => by simpa using hbefore nal hnal⟩
    -- The last parameter set is the only one of its kind, so a part that holds it holds all.
    have hmem : last ∈ units := List.mem_of_mem_filter (List.mem_of_getLast? hlast)
    have hparts : parameterSets (units.take (units.idxOf last + 1)) ++ parameterSets (units.drop (units.idxOf last + 1)) =
        parameterSets units := by
      rw [parameterSets, parameterSets, ← List.filter_append, List.take_append_drop]
      rfl
    have hkind : last.kind = 34 := by
      have hmap : ((parameterSets units).map Nal.kind).getLast? = some last.kind := by
        rw [List.getLast?_map, hlast]
        rfl
      rw [hkinds] at hmap
      simpa using hmap.symm
    have hin : last ∈ parameterSets (units.take (units.idxOf last + 1)) := by
      rw [parameterSets, List.mem_filter]
      refine ⟨?_, by simp [hkind]⟩
      have hlt : units.idxOf last < units.length := List.idxOf_lt_length_of_mem hmem
      rw [List.mem_take_iff_getElem]
      exact ⟨units.idxOf last, by omega, List.getElem_idxOf hlt⟩
    have hin' : 34 ∈ (parameterSets (units.take (units.idxOf last + 1))).map Nal.kind :=
      List.mem_map.mpr ⟨last, hin, hkind⟩
    have hsum : (parameterSets (units.take (units.idxOf last + 1))).map Nal.kind ++
        (parameterSets (units.drop (units.idxOf last + 1))).map Nal.kind = [32, 33, 34] := by
      rw [← List.map_append, hparts, hkinds]
    generalize (parameterSets (units.take (units.idxOf last + 1))).map Nal.kind = front at hin' hsum ⊢
    generalize (parameterSets (units.drop (units.idxOf last + 1))).map Nal.kind = back at hsum
    match front, hin', hsum with
    | [a], hin', hsum => simp at hin' hsum; omega
    | [a, b], hin', hsum => simp at hin' hsum; omega
    | [a, b, c], _, hsum => simp at hsum ⊢; omega
    | _ :: _ :: _ :: _ :: _, _, hsum => simp at hsum

namespace HevcRecovery

/-- A unit with pictures: dropped, the start of an epoch, or the next of one. -/
theorem judge_cases (sha256 : Bytes → Bytes) (g : HevcRecovery) (units : List Nal) (timestamp : Nat) :
    ((g.judge sha256 units timestamp).1.emit = false ∧ (g.judge sha256 units timestamp).2.epoch = g.epoch) ∨
    (completeConfiguration units = true ∧ isIdr units = true ∧ ∃ reason configuration,
      g.judge sha256 units timestamp = (⟨true, true, g.epoch + 1, reason⟩,
        ⟨false, g.epoch + 1, some timestamp, configuration⟩)) ∨
    (g.waiting = false ∧ ∃ reason configuration,
      g.judge sha256 units timestamp = (⟨true, false, g.epoch, reason⟩, ⟨false, g.epoch, some timestamp, configuration⟩)) := by
  simp only [judge]
  by_cases hconfig : parameterSets units ≠ [] ∧ (completeConfiguration units = false ∨ isIdr units = false)
  · rw [if_pos hconfig]
    exact .inl ⟨rfl, rfl⟩
  rw [if_neg hconfig]
  generalize (if completeConfiguration units = true then
    some ((parameterSets units).map fun nal => sha256 nal.data) else none) = config
  generalize hwait : (g.waiting || (config.isSome && g.configuration.isSome && decide (config ≠ g.configuration))) = waiting
  cases waiting with
  | true =>
    by_cases hready : isIdr units = true ∧ completeConfiguration units = true
    · rw [if_neg (fun h => h.2 hready)]
      exact .inr (.inl ⟨hready.2, hready.1, _, _, rfl⟩)
    · rw [if_pos ⟨rfl, hready⟩]
      exact .inl ⟨rfl, rfl⟩
  | false =>
    rw [if_neg (fun h => Bool.noConfusion h.1)]
    exact .inr (.inr ⟨(Bool.or_eq_false_iff.mp hwait).1, _, _, rfl⟩)

/-- **What the gate decides**: nothing goes through, an epoch starts at a
configured IDR, or the epoch goes on and time does not go back. -/
theorem inspect_cases (sha256 : Bytes → Bytes) (g : HevcRecovery) (payload : Bytes) (timestamp : Nat) :
    ((g.inspect sha256 payload timestamp).1.emit = false ∧ (g.inspect sha256 payload timestamp).2.epoch = g.epoch) ∨
    (ConfiguredIdr payload ∧ ∃ reason configuration,
      g.inspect sha256 payload timestamp = (⟨true, true, g.epoch + 1, reason⟩,
        ⟨false, g.epoch + 1, some timestamp, configuration⟩)) ∨
    (g.waiting = false ∧ (∀ last ∈ g.lastTimestamp, last ≤ timestamp) ∧ ∃ reason configuration,
      g.inspect sha256 payload timestamp = (⟨true, false, g.epoch, reason⟩,
        ⟨false, g.epoch, some timestamp, configuration⟩)) := by
  simp only [inspect]
  split
  · exact .inl ⟨rfl, rfl⟩
  split
  · exact .inl ⟨rfl, rfl⟩
  next units hunits =>
  split
  · exact .inl ⟨rfl, rfl⟩
  next hpicture =>
  have hidr : completeConfiguration units = true → isIdr units = true → ConfiguredIdr payload := by
    intro hcomplete hidr
    obtain ⟨before, after, hsplit, hkinds, hbefore⟩ := complete_split hcomplete
    refine ⟨units, before, after, hunits, hsplit, hkinds, hbefore, hpicture, fun nal hnal => ?_⟩
    simpa using List.all_eq_true.mp hidr nal hnal
  cases hback : g.lastTimestamp.any fun last => decide (timestamp < last) with
  | true =>
    rw [if_pos rfl]
    rcases g.discontinuity.judge_cases sha256 units timestamp with hdrop | ⟨hc, hi, hout⟩ | ⟨hwas, -⟩
    · exact .inl hdrop
    · exact .inr (.inl ⟨hidr hc hi, hout⟩)
    · cases hwas
  | false =>
    rw [if_neg Bool.false_ne_true]
    rcases g.judge_cases sha256 units timestamp with hdrop | ⟨hc, hi, hout⟩ | ⟨hwas, hout⟩
    · exact .inl hdrop
    · exact .inr (.inl ⟨hidr hc hi, hout⟩)
    · refine .inr (.inr ⟨hwas, fun last hlast => ?_, hout⟩)
      rw [Option.mem_def] at hlast
      rw [hlast, Option.any_some, decide_eq_false_iff_not] at hback
      omega

end HevcRecovery

/-! ## One call -/

namespace VideoDelivery

/-- The queue is empty and the gate waits. -/
structure Idles (v v' : VideoDelivery) : Prop where
  frames : v'.frames = []
  bytes : v'.bytes = 0
  waiting : v'.gate.waiting = true
  epoch : v'.gate.epoch = v.gate.epoch
  closed : v'.closed = v.closed

/-- Nothing happened to the queue and the gate. -/
structure Stays (v v' : VideoDelivery) : Prop where
  frames : v'.frames = v.frames
  bytes : v'.bytes = v.bytes
  gate : v'.gate = v.gate
  closed : v'.closed = v.closed

/-- A frame came in, and the gate is open behind it. -/
structure Emits (record : V1Record) (v v' : VideoDelivery) (frame : VideoFrame) (kept : List VideoFrame) : Prop where
  frames : v'.frames = kept ++ [frame]
  payload : frame.payload = record.video
  timestamp : frame.timestamp = record.videoTimestamp
  epoch : frame.epoch = v'.gate.epoch
  waiting : v'.gate.waiting = false
  last : v'.gate.lastTimestamp = some record.videoTimestamp
  closed : v'.closed = v.closed

/-- Without a picture size there is nothing to decode. -/
def Sized (v : VideoDelivery) : Prop := v.dimensions = none ∨ v.encoding = none → v.gate.waiting = true ∧ v.frames = [] ∧ v.bytes = 0

/-- **What `consume` can do to the queue.** -/
inductive Consumes (record : V1Record) (v v' : VideoDelivery) : Prop where
  | stay (h : Stays v v') (hvideo : record.video = [])
  | idle (h : Idles v v')
  | restart (frame : VideoFrame) (h : Emits record v v' frame []) (hvideo : record.video ≠ [])
      (hframe : frame.restartDecoder = true ∧ ConfiguredIdr record.video)
      (hepoch : v'.gate.epoch = v.gate.epoch + 1)
      (hbytes : v'.bytes = record.video.length ∧ record.video.length ≤ VIDEO_MAX_BYTES)
  | next (frame : VideoFrame) (h : Emits record v v' frame v.frames) (hvideo : record.video ≠ [])
      (hframe : frame.restartDecoder = false) (hopen : v.gate.waiting = false)
      (hepoch : v'.gate.epoch = v.gate.epoch)
      (htime : ∀ last ∈ v.gate.lastTimestamp, last ≤ record.videoTimestamp)
      (hbytes : v'.bytes = v.bytes + record.video.length ∧ v.frames.length < MAX_FRAMES ∧
        v.bytes + record.video.length ≤ VIDEO_MAX_BYTES)

theorem idles_reset (v : VideoDelivery) : Idles v v.reset := ⟨rfl, rfl, rfl, rfl, rfl⟩

theorem queue_cases (sha256 : Bytes → Bytes) {v : VideoDelivery} {record : V1Record} (hvideo : record.video ≠ [])
    (dimensions : Nat × Nat) (encoding : V1EncodingHeader) :
    Consumes record v (v.queue sha256 record.video record.videoTimestamp dimensions encoding) := by
  simp only [queue]
  split
  · exact .idle (idles_reset v)
  next hsize =>
  by_cases hfull : MAX_FRAMES ≤ v.frames.length ∨ (VIDEO_MAX_BYTES : Int) < v.bytes + record.video.length
  · rw [if_pos hfull]
    rcases v.reset.gate.inspect_cases sha256 record.video record.videoTimestamp with
      ⟨hdrop, hepoch⟩ | ⟨hidr, reason, configuration, hout⟩ | ⟨hwas, -⟩
    · rw [if_pos hdrop]
      exact .idle ⟨rfl, rfl, rfl, hepoch, rfl⟩
    · rw [hout]
      exact .restart _ ⟨rfl, rfl, rfl, rfl, rfl, rfl, rfl⟩ hvideo ⟨rfl, hidr⟩ rfl ⟨Int.zero_add _, by omega⟩
    · cases hwas
  · rw [if_neg hfull]
    rcases v.gate.inspect_cases sha256 record.video record.videoTimestamp with
      ⟨hdrop, hepoch⟩ | ⟨hidr, reason, configuration, hout⟩ | ⟨hwas, htime, reason, configuration, hout⟩
    · rw [if_pos hdrop]
      exact .idle ⟨rfl, rfl, rfl, hepoch, rfl⟩
    · rw [hout]
      exact .restart _ ⟨rfl, rfl, rfl, rfl, rfl, rfl, rfl⟩ hvideo ⟨rfl, hidr⟩ rfl ⟨Int.zero_add _, by omega⟩
    · rw [hout]
      rw [not_or] at hfull
      exact .next _ ⟨rfl, rfl, rfl, rfl, rfl, rfl, rfl⟩ hvideo rfl hwas rfl htime ⟨rfl, by omega, by omega⟩

variable {record : V1Record} {v v₁ v' : VideoDelivery}

theorem Consumes.of_stays (h : Stays v v₁) (h' : Consumes record v₁ v') : Consumes record v v' := by
  cases h' with
  | stay hstay hvideo =>
    exact .stay ⟨hstay.frames.trans h.frames, hstay.bytes.trans h.bytes, hstay.gate.trans h.gate,
      hstay.closed.trans h.closed⟩ hvideo
  | idle hidle =>
    exact .idle ⟨hidle.frames, hidle.bytes, hidle.waiting, by rw [hidle.epoch, h.gate], hidle.closed.trans h.closed⟩
  | restart frame hemits hvideo hframe hepoch hbytes =>
    exact .restart frame ⟨hemits.frames, hemits.payload, hemits.timestamp, hemits.epoch, hemits.waiting, hemits.last,
      hemits.closed.trans h.closed⟩ hvideo hframe (by rw [hepoch, h.gate]) hbytes
  | next frame hemits hvideo hframe hopen hepoch htime hbytes =>
    rw [h.frames] at hemits hbytes
    rw [h.gate] at hopen hepoch htime
    rw [h.bytes] at hbytes
    exact .next frame ⟨hemits.frames, hemits.payload, hemits.timestamp, hemits.epoch, hemits.waiting, hemits.last,
      hemits.closed.trans h.closed⟩ hvideo hframe hopen hepoch htime hbytes

theorem Consumes.of_idles (h : Idles v v₁) (h' : Consumes record v₁ v') : Consumes record v v' := by
  cases h' with
  | stay hstay hvideo =>
    exact .idle ⟨hstay.frames.trans h.frames, hstay.bytes.trans h.bytes, by rw [hstay.gate]; exact h.waiting,
      by rw [hstay.gate]; exact h.epoch, hstay.closed.trans h.closed⟩
  | idle hidle =>
    exact .idle ⟨hidle.frames, hidle.bytes, hidle.waiting, hidle.epoch.trans h.epoch, hidle.closed.trans h.closed⟩
  | restart frame hemits hvideo hframe hepoch hbytes =>
    exact .restart frame ⟨hemits.frames, hemits.payload, hemits.timestamp, hemits.epoch, hemits.waiting, hemits.last,
      hemits.closed.trans h.closed⟩ hvideo hframe (by rw [hepoch, h.epoch]) hbytes
  | next frame hemits hvideo hframe hopen =>
    rw [h.waiting] at hopen
    cases hopen

theorem sized_queue (sha256 : Bytes → Bytes) (video : Bytes) (timestamp : Nat) (dimensions : Nat × Nat)
    (encoding : V1EncodingHeader) (hdimensions : v.dimensions = some dimensions) (hencoding : v.encoding = some encoding) : Sized (v.queue sha256 video timestamp dimensions encoding) := by
  have hkeeps : (v.queue sha256 video timestamp dimensions encoding).dimensions = v.dimensions ∧
      (v.queue sha256 video timestamp dimensions encoding).encoding = v.encoding := by
    simp only [queue, reset]
    split
    · exact ⟨rfl, rfl⟩
    · split <;> split <;> first | exact ⟨rfl, rfl⟩ | (split <;> exact ⟨rfl, rfl⟩)
  intro hnone
  rw [hkeeps.1, hkeeps.2, hdimensions, hencoding] at hnone
  rcases hnone with h | h <;> cases h

/-- What an encoding header does before the picture is looked at. -/
theorem noteEncoding_cases (v : VideoDelivery) (header : V1EncodingHeader) :
    ((v.noteEncoding header).2 = false ∧ Idles v (v.noteEncoding header).1) ∨
      ((v.noteEncoding header).2 = true ∧ (v.noteEncoding header).1.encoding.isSome ∧
        (v.noteEncoding header).1.dimensions.isSome ∧
        (Stays v (v.noteEncoding header).1 ∨ Idles v (v.noteEncoding header).1)) := by
  simp only [noteEncoding]
  split
  · exact .inl ⟨rfl, rfl, rfl, rfl, rfl, rfl⟩
  · refine .inr ⟨rfl, rfl, rfl, ?_⟩
    split
    · exact .inr ⟨rfl, rfl, rfl, rfl, rfl⟩
    · exact .inl ⟨rfl, rfl, rfl, rfl⟩

theorem Idles.sized (h : Idles v v') : Sized v' := fun _ => ⟨h.waiting, h.frames, h.bytes⟩

theorem sized_of_some (hd : v.dimensions.isSome) (he : v.encoding.isSome) : Sized v := by
  rintro (hnone | hnone)
  · rw [hnone] at hd
    cases hd
  · rw [hnone] at he
    cases he

/-- The picture of a record, once its header was noted. -/
theorem picture_cases (sha256 : Bytes → Bytes) (hsized : Sized v) (hvideo : record.video ≠ []) :
    let v' := match v.dimensions, v.encoding with
      | some dimensions, some encoding => v.queue sha256 record.video record.videoTimestamp dimensions encoding
      | _, _ => v
    Consumes record v v' ∧ Sized v' := by
  simp only
  split
  next dimensions encoding hdimensions hencoding =>
    exact ⟨queue_cases sha256 hvideo dimensions encoding,
      sized_queue sha256 _ _ dimensions encoding hdimensions hencoding⟩
  next hnone =>
    have hmissing : v.dimensions = none ∨ v.encoding = none := by
      cases hd : v.dimensions with
      | none => exact .inl rfl
      | some dimensions =>
        cases he : v.encoding with
        | none => exact .inr rfl
        | some encoding => exact absurd he (hnone dimensions encoding hd)
    obtain ⟨hwaiting, hframes, hbytes⟩ := hsized hmissing
    exact ⟨.idle ⟨hframes, hbytes, hwaiting, rfl, rfl⟩, hsized⟩

/-- **`consume` does one of the four things.** -/
theorem consume_cases (sha256 : Bytes → Bytes) (hsized : Sized v) (hopen : v.closed = false) (record : V1Record) :
    Consumes record v (v.consume sha256 record) ∧ Sized (v.consume sha256 record) := by
  simp only [consume, hopen, Bool.false_eq_true, if_false]
  cases hencoding : record.encoding with
  | none =>
    simp only [Bool.true_eq_false, false_or]
    split
    next hvideo => exact ⟨.stay ⟨rfl, rfl, rfl, rfl⟩ hvideo, hsized⟩
    next hvideo => exact picture_cases sha256 hsized hvideo
  | some header =>
    simp only
    rcases noteEncoding_cases v header with ⟨hstop, hidles⟩ | ⟨hgo, hsome, hdims, hnoted⟩
    · rw [if_pos (.inl hstop)]
      exact ⟨.idle hidles, hidles.sized⟩
    · have hsized₁ := sized_of_some hdims hsome
      by_cases hvideo : record.video = []
      · rw [if_pos (.inr hvideo)]
        rcases hnoted with hstays | hidles
        · exact ⟨.stay hstays hvideo, hsized₁⟩
        · exact ⟨.idle hidles, hsized₁⟩
      · rw [if_neg (by rw [hgo]; simp [hvideo])]
        obtain ⟨hpicture, hsized₂⟩ := picture_cases sha256 hsized₁ hvideo
        rcases hnoted with hstays | hidles
        · exact ⟨hpicture.of_stays hstays, hsized₂⟩
        · exact ⟨hpicture.of_idles hidles, hsized₂⟩

end VideoDelivery

/-! ## Runs -/

inductive VideoOp where
  | consume (record : V1Record)
  | take
  | resynchronize
  | close

/-- A delivery with its history: the records with video that were consumed, the
number of the record behind each queued frame, and what was taken with the
number of its record. -/
structure VideoRun where
  video : VideoDelivery := {}
  seen : List V1Record := []
  numbers : List Nat := []
  taken : List (Nat × VideoFrame) := []

namespace VideoRun

/-- The numbers of the frames in a queue of `length`, after a record: with video,
its frame is the last one, if there is any. -/
def renumber (numbers : List Nat) (record : V1Record) (number length : Nat) : List Nat :=
  if record.video ≠ [] ∧ 0 < length then numbers.take (length - 1) ++ [number] else numbers.take length

def step (sha256 : Bytes → Bytes) (r : VideoRun) : VideoOp → VideoRun
  | .consume record => { r with
      video := r.video.consume sha256 record
      seen := if record.video = [] then r.seen else r.seen ++ [record]
      numbers := renumber r.numbers record r.seen.length (r.video.consume sha256 record).frames.length }
  | .take =>
    match r.video.take with
    | (none, v) => { r with video := v }
    | (some frame, v) => { r with
        video := v
        numbers := r.numbers.tail
        taken := r.taken ++ [(r.numbers.headD 0, frame)] }
  | .resynchronize => { r with video := r.video.resynchronize, numbers := [] }
  | .close => { r with video := r.video.close, numbers := [] }

def run (sha256 : Bytes → Bytes) (ops : List VideoOp) : VideoRun := ops.foldl (step sha256) {}

/-- The frames of one epoch. -/
def ofEpoch (epoch : Nat) (frames : List (Nat × VideoFrame)) : List (Nat × VideoFrame) :=
  frames.filter fun x => x.2.epoch = epoch

/-- A stretch of the records from a configured IDR on: one frame for each record,
a restart at the first and only there, and time that does not go back. -/
structure Unbroken (seen : List V1Record) (frames : List (Nat × VideoFrame)) : Prop where
  consecutive : ∃ first, frames.map Prod.fst = List.range' first frames.length
  source : ∀ x ∈ frames, ∃ record, seen[x.1]? = some record ∧ x.2.payload = record.video ∧
    x.2.timestamp = record.videoTimestamp
  restart : ∀ x ∈ frames.head?, x.2.restartDecoder = true ∧ ConfiguredIdr x.2.payload
  dependent : ∀ x ∈ frames.tail, x.2.restartDecoder = false
  time : frames.Pairwise fun x y => x.2.timestamp ≤ y.2.timestamp

namespace Unbroken

variable {seen : List V1Record} {frames : List (Nat × VideoFrame)}

theorem nil : Unbroken seen [] :=
  ⟨⟨0, rfl⟩, fun _ h => absurd h List.not_mem_nil, fun _ h => (nomatch h), fun _ h => absurd h List.not_mem_nil, .nil⟩

theorem more (h : Unbroken seen frames) (records : List V1Record) : Unbroken (seen ++ records) frames := by
  refine ⟨h.consecutive, fun x hx => ?_, h.restart, h.dependent, h.time⟩
  obtain ⟨record, hrecord, hframe⟩ := h.source x hx
  have hlt := (List.getElem?_eq_some_iff.mp hrecord).1
  exact ⟨record, by rw [List.getElem?_append_left hlt]; exact hrecord, hframe⟩

theorem front {back : List (Nat × VideoFrame)} (h : Unbroken seen (frames ++ back)) : Unbroken seen frames := by
  obtain ⟨first, hfirst⟩ := h.consecutive
  refine ⟨⟨first, ?_⟩, fun x hx => h.source x (List.mem_append_left _ hx), fun x hx => ?_, fun x hx => ?_,
    (List.pairwise_append.mp h.time).1⟩
  · rw [List.length_append, ← List.range'_append_1, List.map_append] at hfirst
    exact (List.append_inj hfirst (by simp)).1
  · exact h.restart x (by rw [List.head?_append, Option.mem_def.mp hx]; rfl)
  · refine h.dependent x ?_
    cases frames with
    | nil => exact absurd hx List.not_mem_nil
    | cons y ys => exact List.mem_append_left _ hx

theorem single {x : Nat × VideoFrame} {record : V1Record} (hrecord : seen[x.1]? = some record)
    (hpayload : x.2.payload = record.video) (htime : x.2.timestamp = record.videoTimestamp)
    (hrestart : x.2.restartDecoder = true ∧ ConfiguredIdr x.2.payload) : Unbroken seen [x] :=
  ⟨⟨x.1, rfl⟩, fun y hy => by rw [List.mem_singleton.mp hy]; exact ⟨record, hrecord, hpayload, htime⟩,
    fun y hy => by cases hy; exact hrestart, fun _ h => absurd h List.not_mem_nil, List.pairwise_singleton _ _⟩

/-- One more frame of an epoch: the next record, and not an earlier time. -/
theorem snoc {x last : Nat × VideoFrame} {record : V1Record} (h : Unbroken seen frames)
    (hlast : frames.getLast? = some last) (hnext : x.1 = last.1 + 1) (hrecord : seen[x.1]? = some record)
    (hpayload : x.2.payload = record.video) (htime : x.2.timestamp = record.videoTimestamp)
    (hdependent : x.2.restartDecoder = false) (hlater : last.2.timestamp ≤ x.2.timestamp) :
    Unbroken seen (frames ++ [x]) := by
  obtain ⟨front, hfront⟩ : ∃ front, frames = front ++ [last] := by
    obtain ⟨front, hfront⟩ := List.getLast?_eq_some_iff.mp hlast
    exact ⟨front, hfront⟩
  obtain ⟨first, hfirst⟩ := h.consecutive
  refine ⟨⟨first, ?_⟩, fun y hy => ?_, fun y hy => ?_, fun y hy => ?_, ?_⟩
  · have hend : last.1 = first + front.length := by
      rw [hfront, List.map_append, List.length_append, ← List.range'_append_1] at hfirst
      have hsplit := (List.append_inj hfirst (by simp)).2
      simpa using hsplit
    rw [List.map_append, hfirst, List.length_append, ← List.range'_append_1]
    simp [hnext, hend, hfront]
    omega
  · rcases List.mem_append.mp hy with hy | hy
    · exact h.source y hy
    · rw [List.mem_singleton.mp hy]
      exact ⟨record, hrecord, hpayload, htime⟩
  · refine h.restart y ?_
    rw [hfront] at hy ⊢
    cases front <;> exact hy
  · rw [hfront] at hy
    have htail : (front ++ [last] ++ [x]).tail = (front ++ [last]).tail ++ [x] := by cases front <;> rfl
    rw [htail] at hy
    rcases List.mem_append.mp hy with hy | hy
    · exact h.dependent y (by rw [hfront]; exact hy)
    · rw [List.mem_singleton.mp hy]
      exact hdependent
  · rw [List.pairwise_append]
    refine ⟨h.time, List.pairwise_singleton _ _, fun y hy z hz => ?_⟩
    rw [List.mem_singleton.mp hz]
    refine le_trans ?_ hlater
    have htimes := h.time
    rw [hfront, List.pairwise_append] at htimes
    rw [hfront] at hy
    rcases List.mem_append.mp hy with hy | hy
    · exact htimes.2.2 y hy last List.mem_cons_self
    · rw [List.mem_singleton.mp hy]

end Unbroken

/-- The bytes of the queued frames. -/
def queueBytes (frames : List VideoFrame) : Nat := (frames.map fun f => f.payload.length).sum

/-- The queue with the numbers of its records. -/
def entries (r : VideoRun) : List (Nat × VideoFrame) := r.numbers.zip r.video.frames

/-- The current epoch: what was taken of it and what is queued. -/
def current (r : VideoRun) : List (Nat × VideoFrame) := ofEpoch r.video.gate.epoch r.taken ++ r.entries

structure Inv (r : VideoRun) : Prop where
  sized : r.video.Sized
  lengths : r.numbers.length = r.video.frames.length
  bytes : r.video.bytes = queueBytes r.video.frames
  budget : r.video.bytes ≤ VIDEO_MAX_BYTES ∧ r.video.frames.length ≤ MAX_FRAMES
  waits : r.video.gate.waiting = true → r.video.frames = []
  closed : r.video.closed = true → r.video.gate.waiting = true
  epochs : ∀ f ∈ r.video.frames, f.epoch = r.video.gate.epoch
  past : ∀ epoch < r.video.gate.epoch, Unbroken r.seen (ofEpoch epoch r.taken)
  now : Unbroken r.seen r.current
  last : r.video.gate.waiting = false → ∃ x, r.current.getLast? = some x ∧ x.1 + 1 = r.seen.length ∧
    r.video.gate.lastTimestamp = some x.2.timestamp
  order : (r.taken.map fun x => x.2.epoch).Pairwise (· ≤ ·)
  bound : ∀ x ∈ r.taken, x.2.epoch ≤ r.video.gate.epoch

variable {r : VideoRun}

theorem ofEpoch_of_lt (h : Inv r) {epoch : Nat} (hlt : r.video.gate.epoch < epoch) : ofEpoch epoch r.taken = [] := by
  rw [ofEpoch, List.filter_eq_nil_iff]
  intro x hx
  have := h.bound x hx
  simp only [decide_eq_true_eq]
  omega

/-- The queue is emptied: what was taken stays unbroken. -/
theorem Inv.idle (h : Inv r) {v : VideoDelivery} (hidle : VideoDelivery.Idles r.video v) (records : List V1Record) (numbers : List Nat)
    (hnumbers : numbers = []) : Inv { r with video := v, seen := r.seen ++ records, numbers := numbers } := by
  subst hnumbers
  refine ⟨hidle.sized, by rw [hidle.frames]; rfl, by rw [hidle.bytes, hidle.frames]; rfl, ⟨?_, ?_⟩, fun _ => hidle.frames,
    fun _ => hidle.waiting, ?_, ?_, ?_, ?_, h.order, ?_⟩
  · rw [hidle.bytes]
    exact Int.natCast_nonneg _
  · rw [hidle.frames]
    exact Nat.zero_le _
  · rw [hidle.frames]
    exact fun f hf => absurd hf List.not_mem_nil
  · rw [hidle.epoch]
    exact fun epoch hlt => (h.past epoch hlt).more records
  · have hfront := h.now.front.more records
    simp only [current, entries, hidle.epoch, List.zip_nil_left, List.append_nil]
    exact hfront
  · intro hopen
    rw [hidle.waiting] at hopen
    cases hopen
  · rw [hidle.epoch]
    exact h.bound

/-- An epoch starts: the one before it is what was taken of it. -/
theorem Inv.restart (h : Inv r) {v : VideoDelivery} {record : V1Record} {frame : VideoFrame} (hsized : v.Sized)
    (hemits : VideoDelivery.Emits record r.video v frame []) (hopen : r.video.closed = false)
    (hframe : frame.restartDecoder = true ∧ ConfiguredIdr record.video) (hepoch : v.gate.epoch = r.video.gate.epoch + 1)
    (hbytes : v.bytes = record.video.length ∧ record.video.length ≤ VIDEO_MAX_BYTES) :
    Inv { r with video := v, seen := r.seen ++ [record], numbers := [r.seen.length] } := by
  have hframes : v.frames = [frame] := hemits.frames
  have hcurrent : current { r with video := v, seen := r.seen ++ [record], numbers := [r.seen.length] } =
      [(r.seen.length, frame)] := by
    simp only [current, entries, hframes, hepoch, List.zip_cons_cons, List.zip_nil_left]
    rw [ofEpoch_of_lt h (Nat.lt_succ_self _), List.nil_append]
  refine ⟨hsized, by rw [hframes]; rfl, ?_, ⟨?_, ?_⟩, ?_, ?_, ?_, ?_, ?_, ?_, h.order, ?_⟩
  · rw [hbytes.1, hframes, queueBytes, List.map_singleton, List.sum_singleton, hemits.payload]
  · rw [hbytes.1]
    exact Int.ofNat_le.mpr hbytes.2
  · rw [hframes]
    show 1 ≤ MAX_FRAMES
    decide
  · intro hwaiting
    rw [hemits.waiting] at hwaiting
    cases hwaiting
  · intro hclosed
    rw [hemits.closed, hopen] at hclosed
    cases hclosed
  · intro f hf
    rw [hframes] at hf
    rw [List.mem_singleton.mp hf]
    exact hemits.epoch
  · intro epoch hlt
    rw [hepoch] at hlt
    rcases Nat.lt_succ_iff_lt_or_eq.mp hlt with hlt | rfl
    · exact (h.past epoch hlt).more _
    · exact h.now.front.more _
  · rw [hcurrent]
    exact .single List.getElem?_concat_length hemits.payload hemits.timestamp
      ⟨hframe.1, by rw [hemits.payload]; exact hframe.2⟩
  · intro _
    rw [hcurrent]
    exact ⟨(r.seen.length, frame), rfl, by simp, by rw [hemits.last, hemits.timestamp]⟩
  · intro x hx
    rw [hepoch]
    exact Nat.le_succ_of_le (h.bound x hx)

theorem Inv.next (h : Inv r) {v : VideoDelivery} {record : V1Record} {frame : VideoFrame} (hsized : v.Sized)
    (hemits : VideoDelivery.Emits record r.video v frame r.video.frames) (hopen : r.video.closed = false)
    (hframe : frame.restartDecoder = false) (hwas : r.video.gate.waiting = false)
    (hepoch : v.gate.epoch = r.video.gate.epoch)
    (htime : ∀ last ∈ r.video.gate.lastTimestamp, last ≤ record.videoTimestamp)
    (hbytes : v.bytes = r.video.bytes + record.video.length ∧ r.video.frames.length < MAX_FRAMES ∧
      r.video.bytes + record.video.length ≤ VIDEO_MAX_BYTES) :
    Inv { r with video := v, seen := r.seen ++ [record], numbers := r.numbers ++ [r.seen.length] } := by
  have hcurrent : current { r with video := v, seen := r.seen ++ [record], numbers := r.numbers ++ [r.seen.length] } =
      r.current ++ [(r.seen.length, frame)] := by
    simp only [current, entries, hemits.frames, hepoch]
    rw [List.zip_append h.lengths, ← List.append_assoc]
    rfl
  obtain ⟨x, hx, hnumber, hstamp⟩ := h.last hwas
  refine ⟨hsized, ?_, ?_, ⟨?_, ?_⟩, ?_, ?_, ?_, ?_, ?_, ?_, h.order, ?_⟩
  · rw [hemits.frames, List.length_append, List.length_append, h.lengths]
    rfl
  · rw [hbytes.1, h.bytes, hemits.frames, queueBytes, queueBytes, List.map_append, List.sum_append, List.map_singleton,
      List.sum_singleton, hemits.payload]
    push_cast
    rfl
  · rw [hbytes.1]
    exact hbytes.2.2
  · rw [hemits.frames, List.length_append, List.length_singleton]
    exact hbytes.2.1
  · intro hwaiting
    rw [hemits.waiting] at hwaiting
    cases hwaiting
  · intro hclosed
    rw [hemits.closed, hopen] at hclosed
    cases hclosed
  · intro f hf
    rw [hemits.frames] at hf
    rcases List.mem_append.mp hf with hf | hf
    · rw [h.epochs f hf, hepoch]
    · rw [List.mem_singleton.mp hf]
      exact hemits.epoch
  · rw [hepoch]
    exact fun epoch hlt => (h.past epoch hlt).more _
  · rw [hcurrent]
    refine (h.now.more [record]).snoc hx hnumber.symm List.getElem?_concat_length hemits.payload hemits.timestamp hframe ?_
    rw [hemits.timestamp]
    exact htime _ hstamp
  · intro _
    rw [hcurrent]
    exact ⟨(r.seen.length, frame), by simp, by simp, by rw [hemits.last, hemits.timestamp]⟩
  · rw [hepoch]
    exact h.bound

/-- Records without video leave the record numbers alone. -/
theorem Inv.stay (h : Inv r) {v : VideoDelivery} (hsized : v.Sized) (hstays : VideoDelivery.Stays r.video v) :
    Inv { r with video := v } := by
  have hcurrent : current { r with video := v } = r.current := by
    simp only [current, entries, hstays.frames, hstays.gate]
  refine ⟨hsized, ?_, ?_, ?_, ?_, ?_, ?_, ?_, ?_, ?_, h.order, ?_⟩
  · rw [hstays.frames]
    exact h.lengths
  · rw [hstays.bytes, hstays.frames]
    exact h.bytes
  · rw [hstays.bytes, hstays.frames]
    exact h.budget
  · rw [hstays.gate, hstays.frames]
    exact h.waits
  · rw [hstays.closed, hstays.gate]
    exact h.closed
  · rw [hstays.gate, hstays.frames]
    exact h.epochs
  · rw [hstays.gate]
    exact h.past
  · rw [hcurrent]
    exact h.now
  · rw [hcurrent, hstays.gate]
    exact h.last
  · rw [hstays.gate]
    exact h.bound

/-! ### The operations -/

theorem seen_append (seen : List V1Record) (record : V1Record) :
    ∃ records, (if record.video = [] then seen else seen ++ [record]) = seen ++ records := by
  split
  · exact ⟨[], (List.append_nil _).symm⟩
  · exact ⟨[record], rfl⟩

theorem renumber_zero (numbers : List Nat) (record : V1Record) (number : Nat) : renumber numbers record number 0 = [] := by
  simp [renumber]

theorem Inv.consume (sha256 : Bytes → Bytes) (h : Inv r) (record : V1Record) : Inv (r.step sha256 (.consume record)) := by
  obtain ⟨records, hseen⟩ := seen_append r.seen record
  simp only [step]
  cases hclosed : r.video.closed with
  | true =>
    -- a closed delivery looks at nothing: only the history grows
    have hsame : r.video.consume sha256 record = r.video := by rw [VideoDelivery.consume, hclosed, if_pos rfl]
    have hwaits := h.closed hclosed
    have hnone := h.waits hwaits
    have hbytes : r.video.bytes = 0 := by rw [h.bytes, hnone]; rfl
    rw [hsame, hseen]
    exact h.idle ⟨hnone, hbytes, hwaits, rfl, rfl⟩ records _ (by rw [hnone]; exact renumber_zero _ _ _)
  | false =>
    obtain ⟨hconsumes, hsized⟩ := VideoDelivery.consume_cases sha256 h.sized hclosed record
    generalize r.video.consume sha256 record = v at hconsumes hsized ⊢
    cases hconsumes with
    | stay hstays hvideo =>
      have hnumbers : renumber r.numbers record r.seen.length v.frames.length = r.numbers := by
        rw [renumber, if_neg (fun hc => hc.1 hvideo), hstays.frames, ← h.lengths, List.take_length]
      rw [hnumbers, if_pos hvideo]
      exact h.stay hsized hstays
    | idle hidles =>
      rw [hseen]
      exact h.idle hidles records _ (by rw [hidles.frames]; exact renumber_zero _ _ _)
    | restart frame hemits hvideo hframe hepoch hbytes =>
      have hnumbers : renumber r.numbers record r.seen.length v.frames.length = [r.seen.length] := by
        rw [renumber, hemits.frames, if_pos ⟨hvideo, Nat.zero_lt_one⟩]
        rfl
      rw [hnumbers, if_neg hvideo]
      exact h.restart hsized hemits hclosed hframe hepoch hbytes
    | next frame hemits hvideo hframe hopen hepoch htime hbytes =>
      have hlength : v.frames.length = r.numbers.length + 1 := by
        rw [hemits.frames, List.length_append, h.lengths]
        rfl
      have hnumbers : renumber r.numbers record r.seen.length v.frames.length = r.numbers ++ [r.seen.length] := by
        rw [renumber, hlength, if_pos ⟨hvideo, Nat.succ_pos _⟩, Nat.add_sub_cancel, List.take_length]
      rw [hnumbers, if_neg hvideo]
      exact h.next hsized hemits hclosed hframe hopen hepoch htime hbytes

/-- A frame moves from the queue to the consumer; the epoch as a whole is the same. -/
theorem Inv.take (sha256 : Bytes → Bytes) (h : Inv r) : Inv (r.step sha256 .take) := by
  simp only [step, VideoDelivery.take]
  cases hframes : r.video.frames with
  | nil => exact h
  | cons frame frames =>
    obtain ⟨number, numbers, hnumbers⟩ : ∃ number numbers, r.numbers = number :: numbers := by
      refine List.exists_cons_of_ne_nil fun hnil => ?_
      have hlengths := h.lengths
      rw [hnil, hframes] at hlengths
      cases hlengths
    have hepoch : frame.epoch = r.video.gate.epoch := h.epochs frame (by rw [hframes]; exact List.mem_cons_self)
    have hopen : r.video.gate.waiting = false := by
      cases hwaiting : r.video.gate.waiting with
      | false => rfl
      | true =>
        have hnone := h.waits hwaiting
        rw [hframes] at hnone
        cases hnone
    have hlengths := h.lengths
    have hbytes := h.bytes
    have hbudget := h.budget
    have hnow := h.now
    have hlast := h.last hopen
    rw [hnumbers, hframes] at hlengths
    rw [hframes, queueBytes, List.map_cons, List.sum_cons] at hbytes
    rw [hframes] at hbudget
    -- the head of the queue is now the end of what was taken
    have hcurrent : ofEpoch r.video.gate.epoch (r.taken ++ [(number, frame)]) ++ numbers.zip frames = r.current := by
      simp only [current, entries, hnumbers, hframes, ofEpoch, List.filter_append, List.filter_singleton, hepoch]
      simp
    rw [← hcurrent] at hnow hlast
    simp only [hnumbers, List.tail_cons, List.headD_cons]
    refine ⟨fun hnone => ?_, Nat.succ.inj hlengths, ?_, ⟨?_, ?_⟩, ?_, ?_, ?_, ?_, hnow, fun _ => hlast, ?_, ?_⟩
    · have hsized := (h.sized hnone).2.1
      rw [hframes] at hsized
      cases hsized
    · rw [hbytes, queueBytes]
      push_cast
      exact add_sub_cancel_left _ _
    · have hpos : (0 : Int) ≤ frame.payload.length := Int.natCast_nonneg _
      have := hbudget.1
      show r.video.bytes - frame.payload.length ≤ VIDEO_MAX_BYTES
      omega
    · have := hbudget.2
      rw [List.length_cons] at this
      exact Nat.le_of_succ_le this
    · intro hwaiting
      rw [hopen] at hwaiting
      cases hwaiting
    · exact h.closed
    · intro f hf
      exact h.epochs f (by rw [hframes]; exact List.mem_cons_of_mem _ hf)
    · intro epoch hlt
      have hother : ofEpoch epoch (r.taken ++ [(number, frame)]) = ofEpoch epoch r.taken := by
        have hne : r.video.gate.epoch ≠ epoch := Nat.ne_of_gt hlt
        simp [ofEpoch, hepoch, hne]
      rw [hother]
      exact h.past epoch hlt
    · rw [List.map_append, List.pairwise_append]
      refine ⟨h.order, List.pairwise_singleton _ _, fun x hx y hy => ?_⟩
      obtain ⟨entry, hentry, rfl⟩ := List.mem_map.mp hx
      rw [List.mem_singleton.mp hy]
      show entry.2.epoch ≤ frame.epoch
      rw [hepoch]
      exact h.bound entry hentry
    · intro x hx
      rcases List.mem_append.mp hx with hx | hx
      · exact h.bound x hx
      · rw [List.mem_singleton.mp hx]
        exact Nat.le_of_eq hepoch

theorem Inv.resynchronize (sha256 : Bytes → Bytes) (h : Inv r) : Inv (r.step sha256 .resynchronize) := by
  have hidle := h.idle (VideoDelivery.idles_reset r.video) [] [] rfl
  rw [List.append_nil] at hidle
  exact hidle

theorem Inv.close (sha256 : Bytes → Bytes) (h : Inv r) : Inv (r.step sha256 .close) := by
  have hidle := h.resynchronize sha256
  exact { hidle with
    sized := fun _ => ⟨rfl, rfl, rfl⟩
    closed := fun _ => rfl }

theorem inv_step (sha256 : Bytes → Bytes) (h : Inv r) (op : VideoOp) : Inv (r.step sha256 op) := by
  cases op with
  | consume record => exact h.consume sha256 record
  | take => exact h.take sha256
  | resynchronize => exact h.resynchronize sha256
  | close => exact h.close sha256

theorem inv_start : Inv {} :=
  ⟨fun _ => ⟨rfl, rfl, rfl⟩, rfl, rfl, ⟨by decide, by decide⟩, fun _ => rfl, fun h => (nomatch h),
    fun _ h => absurd h List.not_mem_nil, fun _ h => absurd h (Nat.not_lt_zero _), .nil, fun h => (nomatch h), .nil,
    fun _ h => absurd h List.not_mem_nil⟩

theorem run_snoc (sha256 : Bytes → Bytes) (ops : List VideoOp) (op : VideoOp) :
    run sha256 (ops ++ [op]) = (run sha256 ops).step sha256 op := by
  rw [run, run, List.foldl_append]
  rfl

theorem inv_run (sha256 : Bytes → Bytes) (ops : List VideoOp) : Inv (run sha256 ops) := by
  induction ops using List.reverseRecOn with
  | nil => exact inv_start
  | append_singleton ops op ih =>
    rw [run_snoc]
    exact inv_step sha256 ih op

theorem closed_step (sha256 : Bytes → Bytes) (h : r.video.closed = true) (op : VideoOp) :
    (r.step sha256 op).video.closed = true := by
  cases op with
  | consume record =>
    simp only [step, VideoDelivery.consume, h, if_true]
  | take =>
    simp only [step, VideoDelivery.take]
    cases r.video.frames <;> exact h
  | resynchronize => exact h
  | close => rfl

theorem closed_run (sha256 : Bytes → Bytes) (ops later : List VideoOp) :
    (run sha256 (ops ++ [.close] ++ later)).video.closed = true := by
  induction later using List.reverseRecOn with
  | nil =>
    rw [List.append_nil, run_snoc]
    rfl
  | append_singleton later op ih =>
    rw [← List.append_assoc, run_snoc]
    exact closed_step sha256 ih op

theorem Inv.taken_unbroken (h : Inv r) (epoch : Nat) : Unbroken r.seen (ofEpoch epoch r.taken) := by
  rcases Nat.lt_trichotomy epoch r.video.gate.epoch with hlt | rfl | hlt
  · exact h.past epoch hlt
  · exact h.now.front
  · rw [ofEpoch_of_lt h hlt]
    exact .nil

/-- **A decoder never gets a frame whose reference was dropped.** In every order
of calls, the frames taken of an epoch are a stretch of the consumed records, one
after the other, from a configured IDR that restarts the decoder; epochs do not
go back; the queue keeps its two bounds and its byte count; and a closed delivery
hands out nothing. -/
theorem epochs_unbroken (sha256 : Bytes → Bytes) (ops : List VideoOp) :
    (∀ epoch, Unbroken (run sha256 ops).seen (ofEpoch epoch (run sha256 ops).taken)) ∧
    ((run sha256 ops).taken.map fun x => x.2.epoch).Pairwise (· ≤ ·) ∧
    (run sha256 ops).video.frames.length ≤ 64 ∧
    (run sha256 ops).video.bytes = queueBytes (run sha256 ops).video.frames ∧
    (run sha256 ops).video.bytes ≤ (2 * 1024 * 1024 : Nat) ∧
    ∀ later, (run sha256 (ops ++ [.close] ++ later)).video.take.1 = none := by
  have h := inv_run sha256 ops
  refine ⟨h.taken_unbroken, h.order, h.budget.2, h.bytes, h.budget.1, fun later => ?_⟩
  have hafter := inv_run sha256 (ops ++ [.close] ++ later)
  have hnone := hafter.waits (hafter.closed (closed_run sha256 ops later))
  rw [VideoDelivery.take, hnone]

end VideoRun

end CamGuard.Delivery
