/-
Interleaved fragment streams are kept apart. A frame is parsed exactly if it is the wire
form of a fragment (`parseRtc_iff`). What is open of an id is read off the
fragments of that id alone (`stream`); as long as nothing has failed the assembly holds
exactly what is open (`Follows`), so that a fragment is refused for the reasons there are
(`Refused`) and an end gives the payloads since its begin (`take_spec`); and what is
closed holds nothing and stays closed.
-/
import CamGuard.Media.RtcAssembly
import Mathlib.Data.List.Induction

namespace CamGuard.Media

/-! ## A fragment on the wire -/

theorem signed32_bounds {v : Nat} (h : v < 2 ^ 32) :
    (signed32 v % 2 ^ 32).toNat = v ∧ -2 ^ 31 ≤ signed32 v ∧ signed32 v < 2 ^ 31 := by
  rw [signed32]
  split
  · omega
  · omega

theorem signed32_mod {i : Int} (hlow : -2 ^ 31 ≤ i) (hhigh : i < 2 ^ 31) : signed32 (i % 2 ^ 32).toNat = i := by
  rw [signed32]
  split
  · omega
  · omega

/-- What a frame has room for. -/
structure RTCFragment.Fits (f : RTCFragment) : Prop where
  kind : f.kind ∈ [0xF0, 0xF1, 0xF2, 0xF3]
  low : -2 ^ 31 ≤ f.fragmentId
  high : f.fragmentId < 2 ^ 31
  metadata : f.metadata.length = 8
  payload : f.payload.length ≤ 0x8400 - 40

/-- A fragment in its frame: the kind, two bytes that nothing reads, the length from
there on, the id, eight bytes that are kept, and the payload. -/
def RTCFragment.wire (f : RTCFragment) (unread : Bytes) : Bytes :=
  Bytes.ofNat 2 f.kind ++ (unread ++ (Bytes.ofNat 4 (f.payload.length + 12) ++
    (Bytes.ofNat 4 (f.fragmentId % 2 ^ 32).toNat ++ (f.metadata ++ f.payload))))

theorem RTCFragment.length_wire {f : RTCFragment} {unread : Bytes} (hunread : unread.length = 2) (hmetadata : f.metadata.length = 8) :
    (f.wire unread).length = f.payload.length + 20 := by
  simp only [RTCFragment.wire, List.length_append, Bytes.length_ofNat, hunread, hmetadata]
  omega

theorem parseRtc_wire {f : RTCFragment} (hf : f.Fits) {unread : Bytes} (hunread : unread.length = 2) :
    parseRtcFragment (f.wire unread) = .ok f := by
  have hlength := RTCFragment.length_wire hunread hf.metadata
  have hpayload := hf.payload
  have hsmall : f.kind < 256 ^ 2 := by
    have hkind := hf.kind
    simp only [List.mem_cons, List.not_mem_nil, or_false] at hkind
    omega
  have hident : (f.fragmentId % 2 ^ 32).toNat < 256 ^ 4 := by omega
  have hkind : (f.wire unread).field 2 0 = f.kind := by
    rw [RTCFragment.wire, Bytes.field_ofNat, Nat.mod_eq_of_lt hsmall]
  have hcount : (f.wire unread).field 4 4 = f.payload.length + 12 := by
    rw [RTCFragment.wire, ← List.append_assoc]
    exact Bytes.field_middle (by simp [hunread]) (by omega)
  have hid : (f.wire unread).field 4 8 = (f.fragmentId % 2 ^ 32).toNat := by
    rw [RTCFragment.wire, ← List.append_assoc, ← List.append_assoc]
    exact Bytes.field_middle (by simp [hunread]) hident
  have hmetadata : (f.wire unread).slice 12 8 = f.metadata := by
    rw [RTCFragment.wire, ← List.append_assoc, ← List.append_assoc, ← List.append_assoc]
    exact Bytes.slice_middle (by simp [hunread]) hf.metadata
  have hrest : (f.wire unread).drop 20 = f.payload := by
    rw [RTCFragment.wire, ← List.append_assoc, ← List.append_assoc, ← List.append_assoc, ← List.append_assoc]
    exact List.drop_left' (by simp [hunread, hf.metadata])
  rw [parseRtcFragment, if_neg (by omega)]
  dsimp only
  rw [hkind, hcount, hlength, if_neg (not_not_intro hf.kind), if_neg (by omega), hid, hmetadata, hrest,
    signed32_mod hf.low hf.high]

theorem wire_parseRtc {frame : Bytes} {f : RTCFragment} (h : parseRtcFragment frame = .ok f) :
    f.Fits ∧ frame = f.wire (frame.slice 2 2) := by
  rw [parseRtcFragment] at h
  split at h
  · cases h
  next hsize =>
  rw [not_not] at hsize
  dsimp only at h
  split at h
  · cases h
  next hkind =>
  rw [not_not] at hkind
  split at h
  · cases h
  next hcount =>
  rw [not_not] at hcount
  cases h
  obtain ⟨hback, hlow, hhigh⟩ := signed32_bounds (v := frame.field 4 8) Bytes.field_lt
  refine ⟨⟨hkind, hlow, hhigh, Bytes.slice_length (by omega), by simp only [List.length_drop]; omega⟩, ?_⟩
  have hrest : (frame.drop 20).length + 12 = frame.field 4 4 := by
    rw [hcount, List.length_drop]
    omega
  have hslices : frame = frame.slice 0 2 ++ (frame.slice 2 2 ++ (frame.slice 4 4 ++ (frame.slice 8 4 ++
      (frame.slice 12 8 ++ frame.drop 20)))) := by
    have hfront : frame = frame.slice 0 20 ++ frame.drop 20 := (List.take_append_drop 20 frame).symm
    rw [← List.append_assoc, Bytes.slice_append_slice rfl, ← List.append_assoc, Bytes.slice_append_slice rfl,
      ← List.append_assoc, Bytes.slice_append_slice rfl, ← List.append_assoc, Bytes.slice_append_slice rfl]
    exact hfront
  rw [RTCFragment.wire]
  dsimp only
  rw [hrest, hback, Bytes.ofNat_field (by omega), Bytes.ofNat_field (by omega), Bytes.ofNat_field (by omega)]
  exact hslices

/-- **What is a fragment.** -/
theorem parseRtc_iff (frame : Bytes) (f : RTCFragment) :
    parseRtcFragment frame = .ok f ↔ f.Fits ∧ ∃ unread, unread.length = 2 ∧ frame = f.wire unread := by
  constructor
  · intro h
    obtain ⟨hf, hframe⟩ := wire_parseRtc h
    have hlength := congrArg List.length hframe
    simp only [RTCFragment.wire, List.length_append, Bytes.length_ofNat, hf.metadata] at hlength
    exact ⟨hf, _, Bytes.slice_length (by omega), hframe⟩
  · rintro ⟨hf, unread, hunread, rfl⟩
    exact parseRtc_wire hf hunread

/-! ## What is open -/

/-- The payloads of an id since its begin, after one more fragment. -/
def goOn (id : Int) (payloads : Option (List Bytes)) (f : RTCFragment) : Option (List Bytes) :=
  if f.fragmentId ≠ id then payloads
  else if f.kind = 0xF0 then some [f.payload]
  else if f.kind = 0xF1 then payloads.map fun ps => ps ++ [f.payload]
  else none

/-- The payloads of an id since its begin, none where it is not open. -/
def stream (id : Int) (fragments : List RTCFragment) : Option (List Bytes) := fragments.foldl (goOn id) none

theorem stream_append (id : Int) (fragments : List RTCFragment) (f : RTCFragment) :
    stream id (fragments ++ [f]) = goOn id (stream id fragments) f := by
  simp [stream]

/-- **Other ids have no part in it.** -/
theorem stream_filter (id : Int) (fragments : List RTCFragment) :
    stream id fragments = stream id (fragments.filter fun f => f.fragmentId = id) := by
  induction fragments using List.reverseRecOn with
  | nil => rfl
  | append_singleton fragments f ih =>
    rw [stream_append, List.filter_append]
    by_cases hid : f.fragmentId = id
    · rw [List.filter_cons_of_pos (by simpa using hid), List.filter_nil, stream_append, ih]
    · rw [List.filter_cons_of_neg (by simpa using hid), List.filter_nil, List.append_nil, ← ih, goOn, if_pos hid]

/-! ## What is held -/

namespace RTCFragmentAssembly

/-- The assembly holds what is open, and no more than it may. -/
structure Follows (a : RTCFragmentAssembly) (fragments : List RTCFragment) : Prop where
  streams : ∀ id, a.pending.get? id = (stream id fragments).map fun ps => (ps.flatten, ps.length)
  size : a.size = a.pending.total fun entry => entry.1.length
  size_le : a.size ≤ 256 * 1024
  pending_le : a.pending.size ≤ 4

/-- Why a fragment is refused. -/
inductive Refused (a : RTCFragmentAssembly) (fragments : List RTCFragment) (f : RTCFragment) : Prop where
  | pending (hkind : f.kind = 0xF0) (hopen : (stream f.fragmentId fragments).isSome)
  | fifth (hkind : f.kind = 0xF0) (hfull : 4 ≤ a.pending.size)
  | unmatched (hkind : f.kind ≠ 0xF0) (hclosed : stream f.fragmentId fragments = none)
  | records (hkind : f.kind = 0xF1 ∨ f.kind = 0xF2) {payloads : List Bytes}
      (hopen : stream f.fragmentId fragments = some payloads) (hmany : 256 ≤ payloads.length)
  | bytes (hkind : f.kind ≠ 0xF3) (hlarge : 256 * 1024 < a.size + f.payload.length)

theorem Follows.empty : Follows {} [] := ⟨fun _ => rfl, rfl, by decide, by decide⟩

variable {a : RTCFragmentAssembly} {fragments : List RTCFragment} {f : RTCFragment}

/-- A fragment's own id is followed, and the others are as they were. -/
theorem Follows.streams_of (h : a.Follows fragments) {pending : Dict Int (Bytes × Nat)}
    (hself : pending.get? f.fragmentId =
      (goOn f.fragmentId (stream f.fragmentId fragments) f).map fun ps => (ps.flatten, ps.length))
    (hother : ∀ id, id ≠ f.fragmentId → pending.get? id = a.pending.get? id) (id : Int) :
    pending.get? id = (stream id (fragments ++ [f])).map fun ps => (ps.flatten, ps.length) := by
  rw [stream_append]
  by_cases hid : id = f.fragmentId
  · rw [hid]
    exact hself
  · rw [hother id hid, h.streams id, goOn, if_pos (Ne.symm hid)]

/-- The payloads a fragment goes on with. -/
structure GoesOn (a : RTCFragmentAssembly) (fragments : List RTCFragment) (f : RTCFragment) (payloads : List Bytes) :
    Prop where
  buffered : a.buffered f = .ok (payloads.flatten, payloads.length)
  begins : f.kind = 0xF0 → payloads = [] ∧ stream f.fragmentId fragments = none ∧ a.pending.size < 4
  continues : f.kind ≠ 0xF0 → stream f.fragmentId fragments = some payloads

/-- A fragment finds the payloads it goes on with, or is refused. -/
theorem buffered_cases (h : a.Follows fragments) (f : RTCFragment) :
    (Refused a fragments f ∧ ∃ fault, a.buffered f = .error fault) ∨ ∃ payloads, GoesOn a fragments f payloads := by
  have hstream := h.streams f.fragmentId
  by_cases hkind : f.kind = 0xF0
  · cases hopen : stream f.fragmentId fragments with
    | some payloads =>
      refine .inl ⟨.pending hkind (by rw [hopen]; rfl), .begins, ?_⟩
      rw [hopen] at hstream
      simp [buffered, hkind, Dict.contains, hstream]
    | none =>
      rw [hopen] at hstream
      by_cases hfull : 4 ≤ a.pending.size
      · refine .inl ⟨.fifth hkind hfull, .begins, ?_⟩
        simp [buffered, hkind, hfull]
      · refine .inr ⟨[], ?_, fun _ => ⟨rfl, hopen, not_le.mp hfull⟩, fun hne => absurd hkind hne⟩
        simp [buffered, hkind, hfull, Dict.contains, hstream]
  · cases hopen : stream f.fragmentId fragments with
    | none =>
      refine .inl ⟨.unmatched hkind hopen, .unmatched, ?_⟩
      rw [hopen] at hstream
      simp [buffered, hkind, hstream]
    | some payloads =>
      refine .inr ⟨payloads, ?_, fun heq => absurd heq hkind, fun _ => hopen⟩
      rw [hopen] at hstream
      simp [buffered, hkind, hstream]

theorem GoesOn.refused_iff {payloads : List Bytes} (h : GoesOn a fragments f payloads)
    (hkind : f.kind ∈ [0xF0, 0xF1, 0xF2, 0xF3]) :
    Refused a fragments f ↔
      f.kind ≠ 0xF3 ∧ (256 < payloads.length + 1 ∨ 256 * 1024 < a.size + f.payload.length) := by
  constructor
  · rintro (⟨hbegin, hopen⟩ | ⟨hbegin, hfull⟩ | ⟨hcontinue, hclosed⟩ | ⟨hcontinue, hopen, hmany⟩ | ⟨hnot, hlarge⟩)
    · rw [(h.begins hbegin).2.1] at hopen
      cases hopen
    · exact absurd (h.begins hbegin).2.2 (not_lt.mpr hfull)
    · rw [h.continues hcontinue] at hclosed
      cases hclosed
    · rw [h.continues (by omega)] at hopen
      cases hopen
      exact ⟨by omega, .inl (by omega)⟩
    · exact ⟨hnot, .inr hlarge⟩
  · rintro ⟨hnot, hmany | hlarge⟩
    · have hcontinue : f.kind ≠ 0xF0 := by
        intro hbegin
        rw [(h.begins hbegin).1] at hmany
        simp at hmany
      refine .records ?_ (h.continues hcontinue) (by omega)
      simp only [List.mem_cons, List.not_mem_nil, or_false] at hkind
      omega
    · exact .bytes hnot hlarge

theorem GoesOn.drop {payloads : List Bytes} (h : GoesOn a fragments f payloads) (hfollows : a.Follows fragments)
    (hkind : f.kind = 0xF2 ∨ f.kind = 0xF3) :
    Follows { a with size := a.size - payloads.flatten.length, pending := a.pending.erase f.fragmentId } (fragments ++ [f]) := by
  have hopen := h.continues (by omega)
  have hget := hfollows.streams f.fragmentId
  rw [hopen] at hget
  have htotal := Dict.total_erase hget fun entry => entry.1.length
  have hsize := hfollows.size
  have hle := hfollows.size_le
  refine ⟨hfollows.streams_of ?_ fun id hid => ?_, ?_, ?_, ?_⟩
  · have hgone : goOn f.fragmentId (stream f.fragmentId fragments) f = none := by
      rw [goOn, if_neg (by simp), if_neg (by omega), if_neg (by omega)]
    rw [hgone, Dict.get?_erase, if_pos rfl]
    rfl
  · rw [Dict.get?_erase, if_neg hid]
  · dsimp only at htotal ⊢
    omega
  · dsimp only
    omega
  · exact (Dict.size_erase_le _ _).trans hfollows.pending_le

theorem GoesOn.keep {payloads : List Bytes} (h : GoesOn a fragments f payloads) (hfollows : a.Follows fragments)
    (hkind : f.kind = 0xF0 ∨ f.kind = 0xF1) (hsmall : a.size + f.payload.length ≤ 256 * 1024) :
    Follows { a with
      size := a.size + f.payload.length
      pending := a.pending.set f.fragmentId (payloads.flatten ++ f.payload, payloads.length + 1) } (fragments ++ [f]) := by
  have hsize := hfollows.size
  have hget := hfollows.streams f.fragmentId
  have hgo : goOn f.fragmentId (stream f.fragmentId fragments) f = some (payloads ++ [f.payload]) := by
    rcases hkind with hkind | hkind
    · rw [(h.begins hkind).1]
      simp [goOn, hkind]
    · rw [h.continues (by omega)]
      simp [goOn, hkind]
  have hcounts : (a.pending.set f.fragmentId (payloads.flatten ++ f.payload, payloads.length + 1)).size ≤ 4 ∧
      ((a.pending.set f.fragmentId (payloads.flatten ++ f.payload, payloads.length + 1)).total fun entry =>
        entry.1.length) = (a.pending.total fun entry => entry.1.length) + f.payload.length := by
    rcases hkind with hkind | hkind
    · obtain ⟨rfl, hnone, hroom⟩ := h.begins hkind
      rw [hnone] at hget
      rw [Dict.size_set_of_none hget, Dict.total_set_of_none hget]
      exact ⟨hroom, by simp⟩
    · rw [h.continues (by omega)] at hget
      have htotal := Dict.total_set_of_some hget (payloads.flatten ++ f.payload, payloads.length + 1) fun entry =>
        entry.1.length
      rw [Dict.size_set_of_some hget]
      refine ⟨hfollows.pending_le, ?_⟩
      dsimp only at htotal
      rw [List.length_append] at htotal
      omega
  refine ⟨hfollows.streams_of ?_ fun id hid => ?_, ?_, hsmall, hcounts.1⟩
  · rw [hgo, Dict.get?_set, if_pos rfl]
    simp
  · rw [Dict.get?_set, if_neg hid]
  · dsimp only
    rw [hcounts.2, hsize, Nat.cast_add]

/-- **What comes of a fragment**: it is refused for one of the reasons there are, or what is
held follows, and an end gives the payloads since the begin. -/
theorem take_spec (h : a.Follows fragments) (hkind : f.kind ∈ [0xF0, 0xF1, 0xF2, 0xF3]) :
    (Refused a fragments f ∧ ∃ fault, a.take f = .error fault) ∨
      (¬Refused a fragments f ∧ ∃ a', a.take f =
          .ok (if f.kind = 0xF2 then (stream f.fragmentId fragments).map fun ps => ps.flatten ++ f.payload else none, a') ∧
        a'.closed = a.closed ∧ Follows a' (fragments ++ [f])) := by
  rcases buffered_cases h f with ⟨hrefused, fault, hbuffered⟩ | ⟨payloads, hgo⟩
  · exact .inl ⟨hrefused, fault, by rw [take, hbuffered]⟩
  · have hiff := hgo.refused_iff hkind
    by_cases habort : f.kind = 0xF3
    · refine .inr ⟨fun hrefused => (hiff.mp hrefused).1 habort, _, ?_, ?_, hgo.drop h (.inr habort)⟩
      · simp [take, hgo.buffered, habort]
      · rfl
    · by_cases hlimit : 256 < payloads.length + 1 ∨ 256 * 1024 < a.size + f.payload.length
      · refine .inl ⟨hiff.mpr ⟨habort, hlimit⟩, .limit, ?_⟩
        simp only [take, hgo.buffered]
        rw [if_neg habort, if_pos hlimit]
      · have hnot : ¬Refused a fragments f := fun hrefused => hlimit (hiff.mp hrefused).2
        by_cases hend : f.kind = 0xF2
        · refine .inr ⟨hnot, _, ?_, ?_, hgo.drop h (.inl hend)⟩
          · simp only [take, hgo.buffered]
            rw [if_neg habort, if_neg hlimit, if_pos hend, if_pos hend, hgo.continues (by omega)]
            simp
          · rfl
        · refine .inr ⟨hnot, _, ?_, ?_, hgo.keep h ?_ (by omega)⟩
          · simp only [take, hgo.buffered]
            rw [if_neg habort, if_neg hlimit, if_neg hend, if_neg hend]
          · rfl
          · simp only [List.mem_cons, List.not_mem_nil, or_false] at hkind
            omega

/-! ## Frames and calls -/

/-- Why a frame is refused: it is no fragment, or one that is. -/
def Fails (a : RTCFragmentAssembly) (fragments : List RTCFragment) (frame : Bytes) : Prop :=
  ∀ f, parseRtcFragment frame = .ok f → Refused a fragments f

/-- What an assembly makes of a fragment that it does not refuse. -/
structure Takes (fragments : List RTCFragment) (f : RTCFragment) (out : Except RtcFault (Option Bytes)) : Prop where
  ends : f.kind = 0xF2 → ∃ payloads, stream f.fragmentId fragments = some payloads ∧
    out = .ok (some (payloads ++ [f.payload]).flatten)
  goes : f.kind ≠ 0xF2 → out = .ok none

theorem Takes.ne_error {out : Except RtcFault (Option Bytes)} (h : Takes fragments f out) (fault : RtcFault) :
    out ≠ .error fault := by
  by_cases hend : f.kind = 0xF2
  · obtain ⟨payloads, -, hout⟩ := h.ends hend
    rw [hout]
    simp
  · rw [h.goes hend]
    simp

theorem feed_spec (hopen : a.closed = false) (h : a.Follows fragments) (frame : Bytes) :
    (Fails a fragments frame ∧ ∃ fault, a.feed frame = (.error fault, a.close)) ∨
      (¬Fails a fragments frame ∧ ∃ f, parseRtcFragment frame = .ok f ∧ Takes fragments f (a.feed frame).1 ∧
        (a.feed frame).2.closed = false ∧ (a.feed frame).2.Follows (fragments ++ [f])) := by
  unfold feed
  rw [if_neg (by simp [hopen])]
  cases hparse : parseRtcFragment frame with
  | error fault =>
    refine .inl ⟨fun f hf => ?_, fault, rfl⟩
    rw [hparse] at hf
    cases hf
  | ok f =>
    rcases take_spec h (wire_parseRtc hparse).1.kind with ⟨hrefused, fault, htake⟩ | ⟨hnot, a', htake, hclosed, hfollows⟩
    · refine .inl ⟨fun f' hf' => ?_, fault, by simp [htake]⟩
      rw [hparse] at hf'
      cases hf'
      exact hrefused
    · refine .inr ⟨fun hfails => hnot (hfails f hparse), f, rfl, ?_, ?_, ?_⟩
      · dsimp only
        rw [htake]
        refine ⟨fun hend => ?_, fun hgoes => by rw [if_neg hgoes]⟩
        cases hstream : stream f.fragmentId fragments with
        | none => exact absurd (.unmatched (by omega) hstream) hnot
        | some payloads =>
          refine ⟨payloads, rfl, ?_⟩
          rw [if_pos hend]
          simp
      · dsimp only
        rw [htake]
        exact hclosed.trans hopen
      · dsimp only
        rw [htake]
        exact hfollows

/-- The fragments that were fed. -/
def fragmentsOf (calls : List RtcCall) : List RTCFragment :=
  calls.filterMap fun call =>
    match call with
    | .feed frame => (parseRtcFragment frame).toOption
    | _ => none

/-- A call that ends the assembly. -/
def Ends (a : RTCFragmentAssembly) : RtcCall → Prop
  | .feed frame => ∃ fault, (a.feed frame).1 = .error fault
  | .close => True
  | .finish => True

/-- Until it is closed an assembly follows what was fed, and then it holds nothing. -/
structure Kept (a : RTCFragmentAssembly) (calls : List RtcCall) : Prop where
  follows : a.closed = false → a.Follows (fragmentsOf calls)
  empty : a.closed = true → a = ({} : RTCFragmentAssembly).close

theorem kept_close (calls : List RtcCall) : ({} : RTCFragmentAssembly).close.Kept calls :=
  ⟨fun hopen => (by cases hopen), fun _ => rfl⟩

theorem feed_closed (hclosed : a.closed = true) (frame : Bytes) : a.feed frame = (.error .closed, a) := if_pos hclosed

theorem finish_closes (a : RTCFragmentAssembly) : a.finish.2.closed = true := by
  unfold finish
  split
  · assumption
  · split
    · rfl
    · rfl

theorem run_append (calls : List RtcCall) (call : RtcCall) : run (calls ++ [call]) = (run calls).step call := by
  simp [run]

/-- A call closes the assembly exactly if it was closed or the call ends it. -/
theorem step_kept {calls : List RtcCall} (h : a.Kept calls) (call : RtcCall) :
    (a.step call).Kept (calls ++ [call]) ∧ ((a.step call).closed = true ↔ a.closed = true ∨ Ends a call) := by
  cases call with
  | feed frame =>
    dsimp only [step]
    cases hclosed : a.closed with
    | true =>
      have hfeed := feed_closed hclosed frame
      rw [hfeed]
      refine ⟨⟨fun hopen => ?_, h.empty⟩, iff_of_true hclosed (.inl rfl)⟩
      rw [hclosed] at hopen
      cases hopen
    | false =>
      rcases feed_spec hclosed (h.follows hclosed) frame with ⟨-, fault, hfeed⟩ | ⟨-, f, hparse, htakes, hopen, hfollows⟩
      · rw [hfeed]
        exact ⟨kept_close _, iff_of_true rfl (.inr ⟨fault, by rw [hfeed]⟩)⟩
      · refine ⟨⟨fun _ => ?_, fun hshut => ?_⟩, iff_of_false (by rw [hopen]; simp) ?_⟩
        · have hmore : fragmentsOf (calls ++ [.feed frame]) = fragmentsOf calls ++ [f] := by
            simp [fragmentsOf, hparse, Except.toOption]
          rw [hmore]
          exact hfollows
        · rw [hopen] at hshut
          cases hshut
        · rintro (hshut | ⟨fault, hfault⟩)
          · cases hshut
          · exact htakes.ne_error fault hfault
  | close => exact ⟨kept_close _, iff_of_true rfl (.inr trivial)⟩
  | finish =>
    have hcloses := finish_closes a
    refine ⟨⟨fun hopen => ?_, fun _ => ?_⟩, iff_of_true hcloses (.inr trivial)⟩
    · rw [show (a.step .finish).closed = true from hcloses] at hopen
      cases hopen
    · dsimp only [step, finish]
      split
      · next hclosed => exact h.empty hclosed
      · split
        · rfl
        · rfl

theorem run_kept (calls : List RtcCall) : (run calls).Kept calls := by
  induction calls using List.reverseRecOn with
  | nil => exact ⟨fun _ => Follows.empty, fun h => by cases h⟩
  | append_singleton calls call ih =>
    rw [run_append]
    exact (step_kept ih call).1

/-- An assembly is closed exactly if some call has ended it. -/
theorem closed_iff (calls : List RtcCall) :
    (run calls).closed = true ↔ ∃ before call after, calls = before ++ call :: after ∧ Ends (run before) call := by
  induction calls using List.reverseRecOn with
  | nil =>
    refine iff_of_false (by simp [run]) ?_
    rintro ⟨before, call, after, hsplit, -⟩
    simp at hsplit
  | append_singleton calls call ih =>
    rw [run_append, (step_kept (run_kept calls) call).2, ih]
    constructor
    · rintro (⟨before, earlier, after, rfl, hends⟩ | hends)
      · exact ⟨before, earlier, after ++ [call], by simp, hends⟩
      · exact ⟨calls, call, [], rfl, hends⟩
    · rintro ⟨before, earlier, after, hsplit, hends⟩
      rcases List.eq_nil_or_concat' after with rfl | ⟨after, last, rfl⟩
      · obtain ⟨rfl, hlast⟩ := List.append_inj' hsplit rfl
        cases hlast
        exact .inr hends
      · have hfront : calls = before ++ earlier :: after := by
          rw [← List.cons_append, ← List.append_assoc] at hsplit
          exact (List.append_inj' hsplit rfl).1
        exact .inl ⟨before, earlier, after, hfront, hends⟩

/-- **Interleaved streams are kept apart.** Until a call ends the assembly, it holds for each
id the payloads since its begin, whatever came in between for the others, within its
limits; a frame fails for the reasons there are, an end gives the payloads since the begin,
and nothing else gives any. A failed feed, `close` and `finish` end it, and then nothing
is held and every feed fails. A frame is parsed exactly if it is a fragment on the wire. -/
theorem rtc_streams_apart (calls : List RtcCall) :
    (∀ frame f, parseRtcFragment frame = .ok f ↔ f.Fits ∧ ∃ unread, unread.length = 2 ∧ frame = f.wire unread) ∧
    ((run calls).closed = false →
      (run calls).Follows (fragmentsOf calls) ∧
      (∀ id, stream id (fragmentsOf calls) = stream id ((fragmentsOf calls).filter fun f => f.fragmentId = id)) ∧
      ∀ frame, ((∃ fault, ((run calls).feed frame).1 = .error fault) ↔ Fails (run calls) (fragmentsOf calls) frame) ∧
        ∀ f, parseRtcFragment frame = .ok f → ¬Fails (run calls) (fragmentsOf calls) frame →
          Takes (fragmentsOf calls) f ((run calls).feed frame).1) ∧
    ((run calls).closed = true ↔ ∃ before call after, calls = before ++ call :: after ∧ Ends (run before) call) ∧
    ((run calls).closed = true → (run calls).pending = ∅ ∧ (run calls).size = 0 ∧
      ∀ frame, (run calls).feed frame = (.error .closed, run calls)) := by
  have hkept := run_kept calls
  refine ⟨parseRtc_iff, fun hopen => ⟨hkept.follows hopen, fun id => stream_filter id _, fun frame => ?_⟩, closed_iff calls,
    fun hclosed => ?_⟩
  · rcases feed_spec hopen (hkept.follows hopen) frame with ⟨hfails, fault, hfeed⟩ | ⟨hnot, f, hparse, htakes, -, -⟩
    · refine ⟨iff_of_true ⟨fault, by rw [hfeed]⟩ hfails, fun f _ hnot => absurd hfails hnot⟩
    · refine ⟨iff_of_false ?_ hnot, fun f' hparse' _ => ?_⟩
      · rintro ⟨fault, hfault⟩
        exact htakes.ne_error fault hfault
      · rw [hparse] at hparse'
        cases hparse'
        exact htakes
  · have hempty := hkept.empty hclosed
    refine ⟨?_, ?_, fun frame => feed_closed hclosed frame⟩
    · rw [hempty]
      rfl
    · rw [hempty]
      rfl

end RTCFragmentAssembly

end CamGuard.Media
