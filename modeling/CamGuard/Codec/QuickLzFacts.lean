/-
The QuickLZ decoder follows the expansion of tokens (`Tracks`): its table holds the last
positions of every bucket, all of them three bytes or more before the end of the output.
From this come its bounds, and that it decodes what is packed.
-/
import CamGuard.Codec.QuickLz

namespace CamGuard.QuickLz

/-- What the decoder raises for a block that is wrong: neither an index out of range nor
one of the two guards for its own table. -/
def QuickLzFault.Declared (fault : QuickLzFault) : Prop :=
  fault ≠ .index ∧ fault ≠ .hashUpdate ∧ ∀ reference, fault ≠ .history (some reference)

theorem byteAt_eq {b : Bytes} {i : Nat} (h : i < b.length) : byteAt b i = .ok (b.getD i 0) := by
  unfold byteAt
  rw [List.getElem?_eq_getElem h, List.getD_eq_getElem?_getD, List.getElem?_eq_getElem h]
  rfl

theorem unpack_eq {n off : Nat} {b : Bytes} (h : off + n ≤ b.length) : unpack n off b = .ok (b.field n off) := if_pos h

theorem hashAt_eq {output : Bytes} {position : Nat} (h : position + 3 ≤ output.length) :
    hashAt output position = .ok (Expansion.bucketAt output position) := by
  unfold hashAt
  rw [byteAt_eq (by omega), byteAt_eq (by omega), byteAt_eq (by omega)]
  rfl

theorem bucketAt_append {output : Bytes} {position : Nat} (h : position + 3 ≤ output.length) (more : Bytes) :
    Expansion.bucketAt (output ++ more) position = Expansion.bucketAt output position := by
  simp only [Expansion.bucketAt, List.getD_eq_getElem?_getD]
  rw [List.getElem?_append_left (by omega), List.getElem?_append_left (by omega), List.getElem?_append_left (by omega)]

/-! ## The table -/

/-- The decoder holds what the expansion says. -/
structure Tracks (d : Decoder) (e : Expansion) : Prop where
  output : d.output = e.output
  next : d.next = e.next
  next_le : e.next ≤ e.output.length
  held : ∀ position ∈ e.hashed, position + 3 ≤ e.output.length
  positions : ∀ bucket slot, d.positions bucket slot = Lz.lastAt HASH_SLOTS slot.val (e.bucket bucket)
  counts : ∀ bucket, (d.counts bucket).toNat = (e.bucket bucket).length % 256

variable {d : Decoder} {e : Expansion}

theorem Tracks.grow (h : Tracks d e) (cursor : Nat) (more : Bytes) :
    Tracks { d with cursor := cursor, output := d.output ++ more } { e with output := e.output ++ more } := by
  have hbucket : ∀ bucket, Expansion.bucket { e with output := e.output ++ more } bucket = e.bucket bucket := by
    intro bucket
    refine List.filter_congr fun position hmem => ?_
    rw [bucketAt_append (h.held position hmem)]
  refine ⟨by rw [h.output], h.next, ?_, fun position hmem => ?_, fun bucket slot => ?_, fun bucket => ?_⟩
  · rw [List.length_append]
    exact Nat.le_add_right_of_le h.next_le
  · rw [List.length_append]
    exact Nat.le_add_right_of_le (h.held position hmem)
  · rw [hbucket]
    exact h.positions bucket slot
  · rw [hbucket]
    exact h.counts bucket

theorem Tracks.hashNext (h : Tracks d e) (hroom : e.next + 3 ≤ e.output.length) :
    ∃ d', d.hashNext = .ok d' ∧ d'.cursor = d.cursor ∧ d'.control = d.control ∧
      Tracks d' { e with hashed := e.hashed ++ [e.next], next := e.next + 1 } := by
  have hhash : hashAt d.output d.next = .ok (Expansion.bucketAt e.output e.next) := by
    rw [h.output, h.next]
    exact hashAt_eq hroom
  have hbucket : ∀ bucket, Expansion.bucket { e with hashed := e.hashed ++ [e.next], next := e.next + 1 } bucket =
      if Expansion.bucketAt e.output e.next = bucket then e.bucket bucket ++ [e.next] else e.bucket bucket := by
    intro bucket
    simp only [Expansion.bucket, List.filter_append, List.filter_cons, List.filter_nil]
    split <;> simp_all
  unfold Decoder.hashNext
  rw [hhash]
  refine ⟨_, rfl, rfl, rfl, h.output, congrArg (· + 1) h.next, by simp only; omega, fun position hmem => ?_, fun bucket slot => ?_,
    fun bucket => ?_⟩
  · rcases List.mem_append.mp hmem with hmem | hmem
    · exact h.held position hmem
    · rw [List.mem_singleton.mp hmem]
      exact hroom
  · have hcount := h.counts bucket
    rw [hbucket]
    simp only [Function.update_apply]
    by_cases hsame : Expansion.bucketAt e.output e.next = bucket
    · subst hsame
      have hslot : (d.counts (Expansion.bucketAt e.output e.next)).toNat % HASH_SLOTS =
          (e.bucket (Expansion.bucketAt e.output e.next)).length % HASH_SLOTS := by
        rw [hcount]
        simp only [HASH_SLOTS]
        omega
      rw [if_pos rfl, if_pos rfl, Lz.lastAt_snoc, Function.update_apply, h.next, ← hslot]
      by_cases hslots : (d.counts (Expansion.bucketAt e.output e.next)).toNat % HASH_SLOTS = slot.val
      · rw [if_pos (Fin.ext hslots.symm), if_pos hslots]
      · rw [if_neg (fun heq => hslots (congrArg Fin.val heq).symm), if_neg hslots]
        exact h.positions _ slot
    · rw [if_neg (fun heq => hsame heq.symm), if_neg hsame]
      exact h.positions bucket slot
  · have hcount := h.counts bucket
    rw [hbucket]
    simp only [Function.update_apply]
    by_cases hsame : Expansion.bucketAt e.output e.next = bucket
    · subst hsame
      rw [if_pos rfl, if_pos rfl, List.length_append, List.length_singleton, UInt8.toNat_add, hcount]
      show (_ % 256 + 1) % 256 = _
      omega
    · rw [if_neg (fun heq => hsame heq.symm), if_neg hsame]
      exact hcount

theorem Tracks.hashLoop {n : Nat} (h : Tracks d e) (hroom : e.next + n + 2 ≤ e.output.length ∨ n = 0) :
    ∃ d', d.hashLoop n = .ok d' ∧ d'.cursor = d.cursor ∧ d'.control = d.control ∧
      Tracks d' { e with hashed := e.hashed ++ List.range' e.next n, next := e.next + n } := by
  induction n generalizing d e with
  | zero =>
    refine ⟨d, rfl, rfl, rfl, ?_⟩
    rw [List.range'_zero, List.append_nil]
    exact h
  | succ n ih =>
    obtain ⟨d₁, hnext, hcursor, hcontrol, h₁⟩ := h.hashNext (by omega)
    obtain ⟨d₂, hloop, hcursor', hcontrol', h₂⟩ := ih h₁ (by simp only; omega)
    refine ⟨d₂, ?_, hcursor'.trans hcursor, hcontrol'.trans hcontrol, ?_⟩
    · rw [Decoder.hashLoop, hnext]
      exact hloop
    · simp only [List.append_assoc, List.singleton_append, Nat.add_assoc, Nat.add_comm 1 n] at h₂
      exact h₂

/-- **`update_hashes` finds the bytes it hashes.** -/
theorem Tracks.updateHashes (h : Tracks d e) (stop : Nat) (hstop : stop + 2 ≤ e.output.length) (hnext : e.next ≤ stop) :
    ∃ d', d.updateHashes stop = .ok d' ∧ d'.cursor = d.cursor ∧ d'.control = d.control ∧ Tracks d' (e.advance stop) := by
  obtain ⟨d', hloop, hcursor, hcontrol, h'⟩ := h.hashLoop (n := stop - e.next) (by omega)
  refine ⟨d', ?_, hcursor, hcontrol, ?_⟩
  · unfold Decoder.updateHashes
    rw [if_neg (by rw [h.output]; omega), h.next]
    exact hloop
  · rw [show e.next + (stop - e.next) = max e.next stop by omega] at h'
    exact h'

theorem advance_of_le {stop : Nat} (h : stop ≤ e.next) : e.advance stop = e := by
  rw [Expansion.advance, Nat.sub_eq_zero_of_le h, List.range'_zero, List.append_nil, Nat.max_eq_left h]

/-! ## One token -/

variable {block : Block}

/-- **A literal** is appended, and what has three bytes now is hashed. -/
theorem Tracks.literal (h : Tracks d e) {x : UInt8} (hin : d.cursor < block.compressedLength)
    (hx : block.source[d.cursor]? = some x) :
    ∃ d' e', d.literal block = .ok d' ∧ Token.expand e (.literal x) = some e' ∧ Tracks d' e' ∧
      d'.cursor = d.cursor + 1 ∧ d'.control = d.control := by
  have hgrow := h.grow (d.cursor + 1) [x]
  have hbyte : byteAt block.source d.cursor = .ok x := by
    unfold byteAt
    rw [hx]
  unfold Decoder.literal
  rw [if_neg (not_le.mpr hin), hbyte]
  have hlength : (d.output ++ [x]).length = (e.output ++ [x]).length := by rw [h.output]
  have hnext := h.next_le
  by_cases hroom : d.next + 3 ≤ (d.output ++ [x]).length
  · have hroom' := hroom
    rw [hlength, h.next] at hroom'
    obtain ⟨d', hupdate, hcursor, hcontrol, h'⟩ := hgrow.updateHashes ((e.output ++ [x]).length - 2)
      (by simp only; omega) (by simp only; omega)
    refine ⟨d', _, ?_, rfl, h', hcursor, hcontrol⟩
    rw [← hlength] at hupdate
    simp only [bind, Except.bind]
    rw [if_pos hroom]
    exact hupdate
  · refine ⟨{ d with cursor := d.cursor + 1, output := d.output ++ [x] }, _, ?_, rfl, ?_, rfl, rfl⟩
    · simp only [bind, Except.bind]
      rw [if_neg hroom]
    · rw [hlength, h.next] at hroom
      rw [advance_of_le (by simp only; omega)]
      exact hgrow

/-- **A reference** finds its position, which has three bytes behind it, and copies from
there; or its slot is empty, or the match does not fit. -/
theorem Tracks.reference (h : Tracks d e) {token length cursor : Nat} (hroom : d.cursor + 2 ≤ block.compressedLength)
    (htoken : unpack 2 d.cursor block.source = .ok token) (hmatch : d.matchLength block token = .ok (length, cursor))
    (hthree : 3 ≤ length) :
    (Lz.lastAt HASH_SLOTS (token % HASH_SLOTS) (e.bucket (bucketOf (token >>> 5))) = none ∧
      d.reference block = .error (.history none)) ∨
    ∃ position, Lz.lastAt HASH_SLOTS (token % HASH_SLOTS) (e.bucket (bucketOf (token >>> 5))) = some position ∧
      ((block.outputLength < e.output.length + length ∧ d.reference block = .error .exceeds) ∨
        (e.output.length + length ≤ block.outputLength ∧ ∃ d', d.reference block = .ok d' ∧
          Tracks d' { ({ e with output := e.output ++ Lz.cycle (e.output.drop position) length }.advance
            (e.output.length + 1)) with next := (e.output ++ Lz.cycle (e.output.drop position) length).length } ∧
          d'.cursor = cursor ∧ d'.control = d.control)) := by
  have hslot := h.positions (bucketOf (token >>> 5)) ⟨token % HASH_SLOTS, Nat.mod_lt _ (by decide)⟩
  unfold Decoder.reference
  rw [if_neg (not_lt.mpr hroom), htoken]
  simp only [bind, Except.bind, hmatch, hslot]
  cases hlast : Lz.lastAt HASH_SLOTS (token % HASH_SLOTS) (e.bucket (bucketOf (token >>> 5))) with
  | none => exact .inl ⟨rfl, rfl⟩
  | some position =>
    refine .inr ⟨position, rfl, ?_⟩
    have hheld := h.held position (List.mem_filter.mp (Lz.lastAt_mem hlast)).1
    simp only [h.output]
    rw [if_neg (by omega)]
    by_cases hexceeds : block.outputLength < e.output.length + length
    · exact .inl ⟨hexceeds, if_pos hexceeds⟩
    · refine .inr ⟨not_lt.mp hexceeds, ?_⟩
      rw [if_neg hexceeds, Lz.copy_eq (by omega)]
      have hgrow := h.grow cursor (Lz.cycle (e.output.drop position) length)
      have hnext := h.next_le
      obtain ⟨d', hupdate, hcursor, hcontrol, h'⟩ := hgrow.updateHashes (e.output.length + 1)
        (by simp only [List.length_append, Lz.length_cycle]; omega) (by simp only; omega)
      rw [h.output] at hupdate
      rw [← h.next] at hnext
      simp only [if_pos hnext, hupdate]
      exact ⟨_, rfl, ⟨h'.output, rfl, le_refl _, h'.held, h'.positions, h'.counts⟩, hcursor, hcontrol⟩

theorem Tracks.refill (h : Tracks d e) (hsize : block.compressedLength = block.source.length) :
    (∃ fault, d.refill block = .error fault ∧ fault.Declared) ∨
      ∃ d', d.refill block = .ok d' ∧ Tracks d' e := by
  unfold Decoder.refill
  split
  · exact .inr ⟨d, rfl, h⟩
  split
  · exact .inl ⟨_, rfl, by simp [QuickLzFault.Declared]⟩
  next hroom =>
  rw [unpack_eq (by omega)]
  simp only [bind, Except.bind]
  split
  · exact .inl ⟨_, rfl, by simp [QuickLzFault.Declared]⟩
  · exact .inr ⟨_, rfl, h.output, h.next, h.next_le, h.held, h.positions, h.counts⟩

theorem matchLength_cases (d : Decoder) (hsize : block.compressedLength = block.source.length) (token : Nat) :
    (∃ fault, d.matchLength block token = .error fault ∧ fault.Declared) ∨
      ∃ length cursor, ∃ long : Bool, d.matchLength block token = .ok (length, cursor) ∧ 3 ≤ length ∧
        length ≤ if long then 255 else 9 := by
  unfold Decoder.matchLength
  simp only
  split
  · exact .inr ⟨_, _, false, rfl, by omega, by simp only [Bool.false_eq_true, if_false]; omega⟩
  split
  · exact .inl ⟨_, rfl, by simp [QuickLzFault.Declared]⟩
  rw [byteAt_eq (by omega)]
  simp only [bind, Except.bind]
  split
  · exact .inl ⟨_, rfl, by simp [QuickLzFault.Declared]⟩
  next hthree =>
    have hbyte := (block.source.getD (d.cursor + 2) 0).toNat_lt
    exact .inr ⟨_, _, true, rfl, not_lt.mp hthree, Nat.le_of_lt_succ hbyte⟩

/-- **What one turn does**: it raises what it declares, or it expands some token that fits. -/
theorem Tracks.decodeToken (h : Tracks d e) (hsize : block.compressedLength = block.source.length)
    (hlt : e.output.length < block.outputLength) :
    (∃ fault, d.decodeToken block = .error fault ∧ fault.Declared) ∨
      ∃ token d' e', d.decodeToken block = .ok d' ∧ Token.expand e token = some e' ∧ Tracks d' e' ∧
        e.output.length < e'.output.length ∧ e'.output.length ≤ block.outputLength := by
  unfold Decoder.decodeToken
  rcases h.refill hsize with ⟨fault, herror, hdeclared⟩ | ⟨d₁, hrefill, h₁⟩
  · rw [herror]
    exact .inl ⟨fault, rfl, hdeclared⟩
  rw [hrefill]
  simp only [bind, Except.bind]
  split
  · by_cases hroom : block.compressedLength < d₁.cursor + 2
    · have hfault : d₁.reference block = .error .referenceTruncated := by
        unfold Decoder.reference
        rw [if_pos hroom]
      rw [hfault]
      exact .inl ⟨_, rfl, by simp [QuickLzFault.Declared]⟩
    rw [not_lt] at hroom
    have htoken : unpack 2 d₁.cursor block.source = .ok (block.source.field 2 d₁.cursor) := unpack_eq (by omega)
    generalize block.source.field 2 d₁.cursor = token at htoken
    rcases matchLength_cases d₁ hsize token with
      ⟨fault, herror, hdeclared⟩ | ⟨length, cursor, long, hmatch, hthree, hle⟩
    · have hfault : d₁.reference block = .error fault := by
        unfold Decoder.reference
        rw [if_neg (not_lt.mpr hroom), htoken]
        simp only [bind, Except.bind, herror]
      rw [hfault]
      exact .inl ⟨fault, rfl, hdeclared⟩
    rcases h₁.reference hroom htoken hmatch hthree with
      ⟨-, herror⟩ | ⟨position, hlast, ⟨-, herror⟩ | ⟨hfits, d', hok, h', -⟩⟩
    · rw [herror]
      exact .inl ⟨_, rfl, by simp [QuickLzFault.Declared]⟩
    · rw [herror]
      exact .inl ⟨_, rfl, by simp [QuickLzFault.Declared]⟩
    · rw [hok]
      refine .inr ⟨.reference (bucketOf (token >>> 5)) ⟨token % HASH_SLOTS, Nat.mod_lt _ (by decide)⟩ length long hthree hle,
        _, _, rfl, ?_, ⟨h'.output, h'.next, h'.next_le, h'.held, h'.positions, h'.counts⟩, ?_, ?_⟩
      · simp only [Token.expand, hlast, Option.map_some]
      · simp only [Expansion.advance, List.length_append, Lz.length_cycle]
        omega
      · simp only [Expansion.advance, List.length_append, Lz.length_cycle]
        exact hfits
  · by_cases hroom : block.compressedLength ≤ d₁.cursor
    · have hfault : d₁.literal block = .error .literalTruncated := by
        unfold Decoder.literal
        rw [if_pos hroom]
      rw [hfault]
      exact .inl ⟨_, rfl, by simp [QuickLzFault.Declared]⟩
    rw [not_le] at hroom
    obtain ⟨d', e', hok, hexpand, h', -⟩ := h₁.literal hroom (List.getElem?_eq_getElem (by omega))
    rw [hok]
    refine .inr ⟨_, _, e', rfl, hexpand, ⟨h'.output, h'.next, h'.next_le, h'.held, h'.positions, h'.counts⟩, ?_⟩
    cases hexpand
    simp only [Expansion.advance, List.length_append, List.length_singleton]
    omega

/-- **The loop ends** with the whole output, or with a declared fault. -/
theorem Tracks.decodeLoop (block : Block) {n : Nat} (h : Tracks d e) (hsize : block.compressedLength = block.source.length)
    (hle : e.output.length ≤ block.outputLength) (hfuel : block.outputLength ≤ e.output.length + n) :
    (∃ fault, d.decodeLoop block n = .error fault ∧ fault.Declared) ∨
      ∃ (tokens : List Token) (d' : Decoder) (e' : Expansion), d.decodeLoop block n = .ok d' ∧ tokens.foldlM Token.expand e = some e' ∧ Tracks d' e' ∧
        e'.output.length = block.outputLength := by
  induction n generalizing d e with
  | zero => exact .inr ⟨[], d, e, rfl, rfl, h, by omega⟩
  | succ n ih =>
    unfold Decoder.decodeLoop
    rw [h.output]
    by_cases hdone : block.outputLength ≤ e.output.length
    · rw [if_pos hdone]
      exact .inr ⟨[], d, e, rfl, rfl, h, by omega⟩
    rw [if_neg hdone]
    rcases h.decodeToken hsize (not_le.mp hdone) with
      ⟨fault, herror, hdeclared⟩ | ⟨token, d₁, e₁, hok, hexpand, h₁, hmore, hfits⟩
    · rw [herror]
      exact .inl ⟨fault, rfl, hdeclared⟩
    rw [hok]
    rcases ih h₁ hfits (by omega) with herror | ⟨tokens, d', e', hloop, hrest, h', hlength⟩
    · exact .inl herror
    · refine .inr ⟨token :: tokens, d', e', hloop, ?_, h', hlength⟩
      rw [List.foldlM_cons, hexpand]
      exact hrest

theorem tracks_start (cursor : Nat) : Tracks { cursor := cursor } {} where
  output := rfl
  next := rfl
  next_le := Nat.zero_le _
  held := by simp
  positions := fun _ _ => rfl
  counts := fun _ => rfl

/-! ## Blocks -/

theorem blockSizes_cases (source : Bytes) :
    (∃ fault, blockSizes source = .error fault ∧ fault.Declared) ∨
      ∃ headerLength outputLength, blockSizes source = .ok (headerLength, source.length, outputLength) ∧
        0 < source.length ∧ 0 < outputLength ∧ outputLength ≤ MAX_OUTPUT := by
  unfold blockSizes
  split
  · exact .inl ⟨_, rfl, by simp [QuickLzFault.Declared]⟩
  next hthree =>
  rw [byteAt_eq (by omega)]
  simp only [bind, Except.bind]
  have hsizes : ∀ headerLength compressedLength outputLength : Nat,
      (∃ fault, (if compressedLength ≠ source.length then .error .compressedLength
        else if outputLength = 0 ∨ MAX_OUTPUT < outputLength then .error .outputLength
        else .ok (headerLength, compressedLength, outputLength) : Except QuickLzFault (Nat × Nat × Nat)) = .error fault ∧
          fault.Declared) ∨
      ∃ headerLength' outputLength', (if compressedLength ≠ source.length then .error .compressedLength
        else if outputLength = 0 ∨ MAX_OUTPUT < outputLength then .error .outputLength
        else .ok (headerLength, compressedLength, outputLength) : Except QuickLzFault (Nat × Nat × Nat)) =
          .ok (headerLength', source.length, outputLength') ∧
          0 < source.length ∧ 0 < outputLength' ∧ outputLength' ≤ MAX_OUTPUT := by
    intro headerLength compressedLength outputLength
    split
    · exact .inl ⟨_, rfl, by simp [QuickLzFault.Declared]⟩
    next hsame =>
    split
    · exact .inl ⟨_, rfl, by simp [QuickLzFault.Declared]⟩
    next hlimit =>
    rw [not_not] at hsame
    exact .inr ⟨headerLength, outputLength, by rw [hsame], by omega, by omega, by omega⟩
  cases (source.getD 0 0).toNat.testBit 1 with
  | true =>
    simp only [if_true]
    split
    · exact .inl ⟨_, rfl, by simp [QuickLzFault.Declared]⟩
    next hnine =>
    rw [unpack_eq (by omega), unpack_eq (by omega)]
    exact hsizes 9 _ _
  | false =>
    simp only [Bool.false_eq_true, if_false, show ¬ (3 : Nat) = 9 by decide]
    split
    · exact .inl ⟨_, rfl, by simp [QuickLzFault.Declared]⟩
    rw [byteAt_eq (by omega), byteAt_eq (by omega)]
    exact hsizes 3 _ _

/-- **Whatever the bytes**, the decoder ends with the output that was asked for, or raises
what it declares. -/
theorem decompressLevel2_cases (source : Bytes) (expectedLength : Int) :
    (∃ fault, decompressLevel2 source expectedLength = .error fault ∧ fault.Declared) ∨
      ∃ output, decompressLevel2 source expectedLength = .ok output ∧ (output.length : Int) = expectedLength ∧
        1 ≤ output.length ∧ output.length ≤ MAX_OUTPUT := by
  unfold decompressLevel2
  rcases blockSizes_cases source with ⟨fault, herror, hdeclared⟩ | ⟨headerLength, outputLength, hsizes, hpos, hone, hmax⟩
  · rw [herror]
    exact .inl ⟨fault, rfl, hdeclared⟩
  rw [hsizes]
  simp only [bind, Except.bind]
  by_cases hexpected : expectedLength ≠ outputLength
  · rw [if_pos hexpected]
    exact .inl ⟨_, rfl, by simp [QuickLzFault.Declared]⟩
  rw [if_neg hexpected, byteAt_eq hpos]
  rw [not_not] at hexpected
  simp only
  split
  · exact .inl ⟨_, rfl, by simp [QuickLzFault.Declared]⟩
  split
  · split
    · exact .inl ⟨_, rfl, by simp [QuickLzFault.Declared]⟩
    next hlength =>
    rw [not_not] at hlength
    exact .inr ⟨_, rfl, by rw [hlength, hexpected], by rw [hlength]; exact hone, by rw [hlength]; exact hmax⟩
  rcases (tracks_start headerLength).decodeLoop ⟨source, source.length, outputLength⟩ (n := outputLength) rfl
      (Nat.zero_le _) (by simp) with ⟨fault, herror, hdeclared⟩ | ⟨tokens, d', e', hok, -, h', hlength⟩
  · rw [herror]
    exact .inl ⟨fault, rfl, hdeclared⟩
  rw [hok]
  simp only
  split
  · exact .inl ⟨_, rfl, by simp [QuickLzFault.Declared]⟩
  · simp only [] at hlength
    rw [← h'.output] at hlength
    exact .inr ⟨_, rfl, by rw [hlength, hexpected], by rw [hlength]; exact hone, by rw [hlength]; exact hmax⟩

/-! ## What is packed -/

theorem drop_field {source bytes : Bytes} {cursor n v : Nat} (hn : 0 < n)
    (h : source.drop cursor = Bytes.ofNat n v ++ bytes) (hv : v < 256 ^ n) :
    unpack n cursor source = .ok v ∧ source.drop (cursor + n) = bytes ∧ cursor + n ≤ source.length := by
  have hlength := congrArg List.length h
  rw [List.length_drop, List.length_append, Bytes.length_ofNat] at hlength
  have hroom : cursor + n ≤ source.length := by omega
  refine ⟨?_, ?_, hroom⟩
  · rw [unpack_eq hroom, Bytes.field, Bytes.slice, h, List.take_left' (Bytes.length_ofNat n v), Bytes.toNat_ofNat,
      Nat.mod_eq_of_lt hv]
  · rw [← List.drop_drop, h, List.drop_left' (Bytes.length_ofNat n v)]

theorem drop_cons {source bytes : Bytes} {cursor : Nat} {x : UInt8} (h : source.drop cursor = x :: bytes) :
    source[cursor]? = some x ∧ source.drop (cursor + 1) = bytes ∧ cursor < source.length := by
  have hget : source[cursor]? = some x := by
    have hhead := congrArg (fun l : Bytes => l[0]?) h
    simpa using hhead
  refine ⟨hget, ?_, (List.getElem?_eq_some_iff.mp hget).1⟩
  rw [← List.drop_drop, h]
  rfl

theorem token_fields {bucket slot encodedLength : Nat} (hbucket : bucket < HASH_VALUES) (hslot : slot < HASH_SLOTS)
    (hlength : encodedLength < 8) :
    slot + 4 * encodedLength + 32 * bucket < 256 ^ 2 ∧ (slot + 4 * encodedLength + 32 * bucket) % HASH_SLOTS = slot ∧
      (slot + 4 * encodedLength + 32 * bucket) >>> 2 % 8 = encodedLength ∧
      (slot + 4 * encodedLength + 32 * bucket) >>> 5 % HASH_VALUES = bucket := by
  simp only [Nat.shiftRight_eq_div_pow, HASH_VALUES, HASH_SLOTS] at *
  omega

/-- **A packed token is expanded.** -/
theorem Tracks.encoded (h : Tracks d e) (hsize : block.compressedLength = block.source.length) {token : Token}
    {e' : Expansion} (hexpand : Token.expand e token = some e') (hfits : e'.output.length ≤ block.outputLength)
    (hcontrol : d.control ≠ 1) (hbit : d.control.testBit 0 = token.isReference) {rest : Bytes}
    (hsource : block.source.drop d.cursor = token.encode ++ rest) :
    ∃ d', d.decodeToken block = .ok d' ∧ Tracks d' e' ∧ d'.control = d.control >>> 1 ∧ block.source.drop d'.cursor = rest := by
  have hrefill : d.refill block = .ok d := by
    unfold Decoder.refill
    rw [if_pos hcontrol]
  unfold Decoder.decodeToken
  rw [hrefill]
  simp only [bind, Except.bind, hbit]
  cases token with
  | literal x =>
    obtain ⟨hx, hrest, hin⟩ := drop_cons hsource
    obtain ⟨d', e'', hok, hexpand', h', hcursor, hcontrol'⟩ := h.literal (by omega) hx
    rw [hexpand] at hexpand'
    cases hexpand'
    simp only [Token.isReference, Bool.false_eq_true, if_false, hok]
    refine ⟨_, rfl, ⟨h'.output, h'.next, h'.next_le, h'.held, h'.positions, h'.counts⟩, by rw [hcontrol'], ?_⟩
    simp only [hcursor]
    exact hrest
  | reference bucket slot length long hthree hle =>
    have hencoded : (if long then 0 else length - 2) < 8 := by
      cases long with
      | true => exact Nat.zero_lt_succ 7
      | false =>
        simp only [Bool.false_eq_true, if_false] at hle ⊢
        omega
    obtain ⟨hv, hslot, hmiddle, hbucket⟩ := token_fields bucket.isLt slot.isLt hencoded
    simp only [Token.encode, List.append_assoc] at hsource
    obtain ⟨htoken, hbehind, hroom⟩ := drop_field (by decide) hsource hv
    have hmatch : ∃ cursor, d.matchLength block (slot.val + 4 * (if long then 0 else length - 2) + 32 * bucket.val) =
        .ok (length, cursor) ∧ block.source.drop cursor = rest := by
      unfold Decoder.matchLength
      simp only [hmiddle]
      cases long with
      | true =>
        simp only [if_true, List.singleton_append] at hbehind hle ⊢
        obtain ⟨hx, hrest, hin⟩ := drop_cons hbehind
        have hbyte : byteAt block.source (d.cursor + 2) = .ok (UInt8.ofNat length) := by
          unfold byteAt
          rw [hx]
        have hvalue : (UInt8.ofNat length).toNat = length := by
          rw [UInt8.toNat_ofNat']
          omega
        rw [if_neg (by simp), if_neg (by omega), hbyte]
        simp only [bind, Except.bind, hvalue]
        rw [if_neg (by omega)]
        exact ⟨_, rfl, hrest⟩
      | false =>
        simp only [Bool.false_eq_true, if_false, List.nil_append] at hbehind ⊢
        rw [if_pos (by omega), Nat.sub_add_cancel (by omega)]
        exact ⟨_, rfl, hbehind⟩
    obtain ⟨cursor, hmatch, hrest⟩ := hmatch
    have hfound : bucketOf ((slot.val + 4 * (if long then 0 else length - 2) + 32 * bucket.val) >>> 5) = bucket :=
      Fin.ext hbucket
    obtain ⟨position, hlast, houtput⟩ := Option.map_eq_some_iff.mp hexpand
    rcases h.reference (by omega) htoken hmatch hthree with
      ⟨hnone, -⟩ | ⟨position', hlast', ⟨hexceeds, -⟩ | ⟨-, d', hok, h', hcursor, hcontrol'⟩⟩
    · rw [hfound, hslot, hlast] at hnone
      cases hnone
    · subst houtput
      simp only [Expansion.advance, List.length_append, Lz.length_cycle] at hfits
      omega
    · rw [hfound, hslot, hlast] at hlast'
      cases hlast'
      subst houtput
      simp only [Token.isReference, if_true, hok]
      refine ⟨_, rfl, ⟨h'.output, h'.next, h'.next_le, h'.held, h'.positions, h'.counts⟩, by rw [hcontrol'], ?_⟩
      simp only [hcursor]
      exact hrest

/-- Tokens as the decoder finds them: behind a control word that is used up, or behind one
whose bits say what they are. -/
inductive Packed : Nat → List Token → Bytes → Prop
  | done (control : Nat) : Packed control [] []
  | word {control : Nat} {token : Token} {rest : List Token} {bytes : Bytes} (hlt : control < 2 ^ 32)
      (hsentinel : control.testBit 31 = true) (h : Packed control (token :: rest) bytes) :
      Packed 1 (token :: rest) (Bytes.ofNat 4 control ++ bytes)
  | token {control : Nat} {token : Token} {rest : List Token} {bytes : Bytes} (hcontrol : control ≠ 1)
      (hbit : control.testBit 0 = token.isReference) (h : Packed (control >>> 1) rest bytes) :
      Packed control (token :: rest) (token.encode ++ bytes)

theorem controlBits_lt (tokens : List Token) : controlBits tokens < 2 ^ tokens.length := by
  induction tokens with
  | nil => decide
  | cons token rest ih =>
    rw [controlBits, List.length_cons, Nat.pow_succ']
    have hbit : token.isReference.toNat ≤ 1 := Bool.toNat_le _
    omega

/-- A group behind what is left of its control word, and what follows it. -/
theorem packed_group {group rest : List Token} {k : Nat} {bytes : Bytes} (hle : group.length ≤ k)
    (hlast : rest ≠ [] → group.length = k) (h : Packed 1 rest bytes) :
    Packed (2 ^ k + controlBits group) (group ++ rest) (group.flatMap Token.encode ++ bytes) := by
  induction group generalizing k with
  | nil =>
    by_cases hrest : rest = []
    · subst hrest
      cases h
      exact .done _
    · rw [← hlast hrest]
      exact h
  | cons token group ih =>
    obtain ⟨k, rfl⟩ : ∃ j, k = j + 1 := ⟨k - 1, by rw [List.length_cons] at hle; omega⟩
    rw [List.length_cons] at hle hlast
    have hpos := Nat.two_pow_pos k
    have hshift : (2 ^ (k + 1) + controlBits (token :: group)) >>> 1 = 2 ^ k + controlBits group := by
      rw [controlBits, Nat.shiftRight_eq_div_pow, Nat.pow_succ']
      have hbit : token.isReference.toNat ≤ 1 := Bool.toNat_le _
      omega
    rw [List.cons_append, List.flatMap_cons, List.append_assoc]
    refine .token ?_ ?_ ?_
    · rw [controlBits, Nat.pow_succ']
      omega
    · rw [controlBits, Nat.pow_succ', Nat.testBit_zero]
      cases token.isReference <;> simp [Nat.add_mod, Nat.mul_mod_right]
    · rw [hshift]
      exact ih (by omega) fun hrest => by have := hlast hrest; omega

theorem packed_groups {n : Nat} {tokens : List Token} (h : tokens.length ≤ n) : Packed 1 tokens (packGroups n tokens) := by
  induction n generalizing tokens with
  | zero =>
    obtain rfl := List.length_eq_zero_iff.mp (Nat.le_zero.mp h)
    exact .done 1
  | succ n ih =>
    cases tokens with
    | nil => exact .done 1
    | cons token rest =>
      have hdrop : ((token :: rest).drop 31).length ≤ n := by
        rw [List.length_drop]
        rw [List.length_cons] at h ⊢
        omega
      have hrest := ih hdrop
      have hlt := controlBits_lt ((token :: rest).take 31)
      have hlength : ((token :: rest).take 31).length ≤ 31 := by
        rw [List.length_take]
        exact Nat.min_le_left ..
      have hbits : controlBits ((token :: rest).take 31) < 2 ^ 31 :=
        lt_of_lt_of_le hlt (Nat.pow_le_pow_right (by decide) hlength)
      have hgroup := packed_group hlength (fun hne => ?_) hrest
      · rw [List.take_append_drop] at hgroup
        change Packed 1 (token :: rest) (_ ++ _ ++ packGroups n ((token :: rest).drop 31))
        rw [List.append_assoc]
        refine .word (by omega) ?_ hgroup
        rw [Nat.testBit_eq_decide_div_mod_eq, decide_eq_true_eq]
        omega
      · rw [ne_eq, List.drop_eq_nil_iff] at hne
        rw [List.length_take]
        omega

theorem expand_grows {token : Token} {e' : Expansion} (h : Token.expand e token = some e') :
    e.output.length < e'.output.length := by
  cases token with
  | literal x =>
    cases h
    simp only [Expansion.advance, List.length_append, List.length_singleton]
    omega
  | reference bucket slot length long hthree hle =>
    obtain ⟨position, -, rfl⟩ := Option.map_eq_some_iff.mp h
    simp only [Expansion.advance, List.length_append, Lz.length_cycle]
    omega

theorem expand_le {tokens : List Token} {e' : Expansion} (h : tokens.foldlM Token.expand e = some e') :
    e.output.length ≤ e'.output.length := by
  induction tokens generalizing e with
  | nil =>
    cases h
    exact le_refl _
  | cons token rest ih =>
    rw [List.foldlM_cons] at h
    obtain ⟨e₁, hfirst, hrest⟩ := Option.bind_eq_some_iff.mp h
    exact le_trans (le_of_lt (expand_grows hfirst)) (ih hrest)

theorem decodeToken_word (hsize : block.compressedLength = block.source.length) {control : Nat} {bytes : Bytes}
    (hcontrol : d.control = 1) (hsource : block.source.drop d.cursor = Bytes.ofNat 4 control ++ bytes)
    (hlt : control < 2 ^ 32) (hsentinel : control.testBit 31 = true) :
    d.decodeToken block = { d with control := control, cursor := d.cursor + 4 }.decodeToken block ∧
      block.source.drop (d.cursor + 4) = bytes := by
  obtain ⟨hword, hrest, hroom⟩ := drop_field (by decide) hsource (show control < 256 ^ 4 from hlt)
  have hone : control ≠ 1 := by
    intro hone
    rw [hone] at hsentinel
    exact absurd hsentinel (by decide)
  have hrefill : d.refill block = .ok { d with control := control, cursor := d.cursor + 4 } := by
    unfold Decoder.refill
    rw [if_neg (not_not.mpr hcontrol), if_neg (by omega), hword]
    simp only [bind, Except.bind, hsentinel, Bool.true_eq_false, if_false]
  have hkeep : { d with control := control, cursor := d.cursor + 4 }.refill block =
      .ok { d with control := control, cursor := d.cursor + 4 } := by
    unfold Decoder.refill
    rw [if_pos hone]
  refine ⟨?_, hrest⟩
  unfold Decoder.decodeToken
  rw [hrefill, hkeep]

/-- **A run of the loop over packed tokens** gives their expansion. -/
theorem Tracks.packed (block : Block) {control : Nat} {tokens : List Token} {bytes trailing : Bytes} (hpacked : Packed control tokens bytes)
    (hsize : block.compressedLength = block.source.length) (h : Tracks d e) (hcontrol : d.control = control)
    (hsource : block.source.drop d.cursor = bytes ++ trailing) {e' : Expansion}
    (hexpand : tokens.foldlM Token.expand e = some e') (hlength : e'.output.length = block.outputLength) {n : Nat}
    (hfuel : block.outputLength ≤ e.output.length + n) :
    ∃ d', d.decodeLoop block n = .ok d' ∧ d'.output = e'.output ∧ block.source.drop d'.cursor = trailing := by
  induction hpacked generalizing d e n with
  | done control =>
    cases hexpand
    refine ⟨d, ?_, h.output, hsource⟩
    cases n with
    | zero => rfl
    | succ n =>
      unfold Decoder.decodeLoop
      rw [if_pos (by rw [h.output]; exact le_of_eq hlength.symm)]
  | @word control token rest bytes hlt hsentinel _ ih =>
    rw [List.append_assoc] at hsource
    obtain ⟨hword, hrest⟩ := decodeToken_word hsize hcontrol hsource hlt hsentinel
    have hd : Tracks { d with control := control, cursor := d.cursor + 4 } e :=
      ⟨h.output, h.next, h.next_le, h.held, h.positions, h.counts⟩
    obtain ⟨d', hloop, houtput⟩ := ih hd rfl hrest hexpand hfuel
    rw [List.foldlM_cons] at hexpand
    obtain ⟨e₁, hfirst, hothers⟩ := Option.bind_eq_some_iff.mp hexpand
    have hgrows := expand_grows hfirst
    have hle := expand_le hothers
    obtain ⟨n, rfl⟩ : ∃ m, n = m + 1 := ⟨n - 1, by omega⟩
    refine ⟨d', ?_, houtput⟩
    unfold Decoder.decodeLoop at hloop ⊢
    rw [if_neg (by rw [hd.output]; omega)] at hloop
    rw [if_neg (by rw [h.output]; omega), hword]
    exact hloop
  | @token control token rest bytes hcontrol' hbit _ ih =>
    rw [List.foldlM_cons] at hexpand
    obtain ⟨e₁, hfirst, hothers⟩ := Option.bind_eq_some_iff.mp hexpand
    have hgrows := expand_grows hfirst
    have hle := expand_le hothers
    rw [List.append_assoc] at hsource
    subst hcontrol
    obtain ⟨d₁, hok, h₁, hshift, hrest⟩ := h.encoded hsize hfirst (by omega) hcontrol' hbit hsource
    obtain ⟨n, rfl⟩ : ∃ m, n = m + 1 := ⟨n - 1, by omega⟩
    obtain ⟨d', hloop, houtput⟩ := ih h₁ hshift hrest hothers (by omega : block.outputLength ≤ e₁.output.length + n)
    refine ⟨d', ?_, houtput⟩
    unfold Decoder.decodeLoop
    rw [if_neg (by rw [h.output]; omega), hok]
    exact hloop

theorem length_encode (token : Token) : token.encode.length ≤ 3 := by
  cases token with
  | literal x => exact Nat.le_add_left 1 2
  | reference bucket slot length long hthree hle =>
    rw [Token.encode, List.length_append, Bytes.length_ofNat]
    cases long <;> simp

theorem length_pack (tokens : List Token) : (pack tokens).length ≤ 7 * tokens.length := by
  have hflat : ∀ group : List Token, (group.flatMap Token.encode).length ≤ 3 * group.length := by
    intro group
    induction group with
    | nil => exact Nat.le_refl 0
    | cons token rest ih =>
      rw [List.flatMap_cons, List.length_append, List.length_cons]
      have hfirst := length_encode token
      omega
  have hgroups : ∀ n (tokens : List Token), (packGroups n tokens).length ≤ 7 * tokens.length := by
    intro n
    induction n with
    | zero => exact fun _ => Nat.zero_le _
    | succ n ih =>
      intro tokens
      cases tokens with
      | nil => exact Nat.le_refl 0
      | cons token rest =>
        change (_ ++ _ ++ packGroups n ((token :: rest).drop 31)).length ≤ _
        rw [List.length_append, List.length_append, Bytes.length_ofNat]
        have hfirst := hflat ((token :: rest).take 31)
        have hrest := ih ((token :: rest).drop 31)
        rw [List.length_take, List.length_cons] at hfirst
        rw [List.length_drop, List.length_cons] at hrest
        rw [List.length_cons]
        omega
  exact hgroups _ tokens

theorem length_expand {tokens : List Token} {e' : Expansion} (h : tokens.foldlM Token.expand e = some e') :
    e.output.length + tokens.length ≤ e'.output.length := by
  induction tokens generalizing e with
  | nil =>
    cases h
    exact le_refl _
  | cons token rest ih =>
    rw [List.foldlM_cons] at h
    obtain ⟨e₁, hfirst, hrest⟩ := Option.bind_eq_some_iff.mp h
    have hgrows := expand_grows hfirst
    have hle := ih hrest
    rw [List.length_cons]
    omega

theorem header_flags (long : Bool) (upper : Nat) :
    let flags := (UInt8.ofNat (16 * upper + 8 + 2 * long.toNat + 1)).toNat
    flags.testBit 0 = true ∧ flags.testBit 1 = long ∧ flags >>> 2 % 4 = 2 := by
  simp only [UInt8.toNat_ofNat', Nat.testBit_eq_decide_div_mod_eq, Nat.shiftRight_eq_div_pow]
  have hlong : long.toNat ≤ 1 := Bool.toNat_le _
  refine ⟨?_, ?_, by omega⟩
  · rw [decide_eq_true_eq]
    omega
  · rw [show (16 * upper + 8 + 2 * long.toNat + 1) % 2 ^ 8 / 2 ^ 1 % 2 = long.toNat by omega]
    cases long <;> rfl

theorem blockSizes_long {flags : UInt8} {body : Bytes} {outputLength : Nat} (hflags : flags.toNat.testBit 1 = true)
    (hpos : 0 < outputLength) (hmax : outputLength ≤ MAX_OUTPUT) (hlength : 9 + body.length < 256 ^ 4) :
    blockSizes (flags :: (Bytes.ofNat 4 (9 + body.length) ++ Bytes.ofNat 4 outputLength) ++ body) =
      .ok (9, 9 + body.length, outputLength) := by
  have hmax' : outputLength < 256 ^ 4 := lt_of_le_of_lt hmax (by decide)
  rw [List.cons_append, List.append_assoc]
  generalize hsource : flags :: (Bytes.ofNat 4 (9 + body.length) ++ (Bytes.ofNat 4 outputLength ++ body)) = source
  have hall : source.length = 9 + body.length := by
    rw [← hsource]
    simp only [List.length_cons, List.length_append, Bytes.length_ofNat]
    omega
  obtain ⟨hfirst, hrest, -⟩ := drop_field (n := 4) (by decide) (show source.drop 1 = _ by rw [← hsource]; rfl) hlength
  obtain ⟨hsecond, -⟩ := drop_field (n := 4) (by decide) hrest hmax'
  have hflag : byteAt source 0 = .ok flags := by rw [← hsource]; rfl
  unfold blockSizes
  rw [if_neg (by omega), hflag]
  simp only [bind, Except.bind, hflags, if_true, hfirst, hsecond]
  rw [if_neg (by omega), if_neg (by omega), if_neg (by omega)]

theorem blockSizes_short {flags : UInt8} {body : Bytes} {outputLength : Nat} (hflags : flags.toNat.testBit 1 = false)
    (hpos : 0 < outputLength) (hmax : outputLength < 256) (hlength : 3 + body.length < 256) :
    blockSizes (flags :: (Bytes.ofNat 1 (3 + body.length) ++ Bytes.ofNat 1 outputLength) ++ body) =
      .ok (3, 3 + body.length, outputLength) := by
  rw [List.cons_append, List.append_assoc]
  generalize hsource : flags :: (Bytes.ofNat 1 (3 + body.length) ++ (Bytes.ofNat 1 outputLength ++ body)) = source
  have hall : source.length = 3 + body.length := by
    rw [← hsource]
    simp only [List.length_cons, List.length_append, Bytes.length_ofNat]
    omega
  have hflag : byteAt source 0 = .ok flags := by rw [← hsource]; rfl
  have hfirst : byteAt source 1 = .ok (UInt8.ofNat (3 + body.length)) := by rw [← hsource]; rfl
  have hsecond : byteAt source 2 = .ok (UInt8.ofNat outputLength) := by rw [← hsource]; rfl
  unfold blockSizes
  rw [if_neg (by omega), hflag]
  simp only [bind, Except.bind, hflags, Bool.false_eq_true, if_false, show ¬ (3 : Nat) = 9 by decide, hfirst, hsecond,
    UInt8.toNat_ofNat']
  rw [Nat.mod_eq_of_lt hlength, Nat.mod_eq_of_lt hmax, if_neg (by omega), if_neg (by omega),
    if_neg (by simp only [MAX_OUTPUT]; omega)]

theorem trailing_zeros {trailing : Bytes} (h : ∀ x ∈ trailing, x = 0) :
    (trailing.any fun x => decide (x ≠ 0)) = false := by
  rw [List.any_eq_false]
  intro x hx hne
  exact of_decide_eq_true hne (h x hx)

/-- **A block is decoded.** -/
theorem decompress_block {long : Bool} (upper : Nat) {tokens : List Token} {trailing : Bytes} {e' : Expansion}
    (hexpand : expand tokens = some e') (hpos : 0 < e'.output.length) (hmax : e'.output.length ≤ MAX_OUTPUT)
    (hshort : long = false → 3 + (pack tokens ++ trailing).length < 256 ∧ e'.output.length < 256)
    (hfour : trailing.length ≤ 4) (hzero : ∀ x ∈ trailing, x = 0) :
    decompressLevel2 (packBlock long upper tokens trailing e'.output.length) e'.output.length = .ok e'.output := by
  obtain ⟨hcompressed, hform, hlevel⟩ := header_flags long upper
  have hbody : (pack tokens ++ trailing).length < 256 ^ 4 - 9 := by
    have htokens := length_expand hexpand
    have hpack := length_pack tokens
    simp only [MAX_OUTPUT] at hmax
    rw [List.length_append]
    omega
  unfold packBlock header
  simp only
  generalize hflags : UInt8.ofNat (16 * upper + 8 + 2 * long.toNat + 1) = flags at hcompressed hform hlevel
  have hsizes : ∃ headerLength, ∀ source, source = flags :: (Bytes.ofNat (if long then 4 else 1)
        ((if long then 9 else 3) + (pack tokens ++ trailing).length) ++
          Bytes.ofNat (if long then 4 else 1) e'.output.length) ++ (pack tokens ++ trailing) →
      blockSizes source = .ok (headerLength, source.length, e'.output.length) ∧
        source.drop headerLength = pack tokens ++ trailing := by
    cases long with
    | true =>
      refine ⟨9, fun source hsource => ?_⟩
      have hheader : (flags :: (Bytes.ofNat 4 (9 + (pack tokens ++ trailing).length) ++
          Bytes.ofNat 4 e'.output.length)).length = 9 := by simp
      have hlength : source.length = 9 + (pack tokens ++ trailing).length := by
        rw [hsource, List.length_append]
        exact congrArg (· + _) hheader
      rw [hlength, hsource]
      exact ⟨blockSizes_long hform hpos hmax (by omega), List.drop_left' hheader⟩
    | false =>
      obtain ⟨hfits, hbyte⟩ := hshort rfl
      refine ⟨3, fun source hsource => ?_⟩
      have hheader : (flags :: (Bytes.ofNat 1 (3 + (pack tokens ++ trailing).length) ++
          Bytes.ofNat 1 e'.output.length)).length = 3 := by simp
      have hlength : source.length = 3 + (pack tokens ++ trailing).length := by
        rw [hsource, List.length_append]
        exact congrArg (· + _) hheader
      rw [hlength, hsource]
      exact ⟨blockSizes_short hform hpos hbyte hfits, List.drop_left' hheader⟩
  obtain ⟨headerLength, hsizes⟩ := hsizes
  generalize hsource : flags :: (Bytes.ofNat (if long then 4 else 1)
        ((if long then 9 else 3) + (pack tokens ++ trailing).length) ++
          Bytes.ofNat (if long then 4 else 1) e'.output.length) ++ (pack tokens ++ trailing) = source
  obtain ⟨hsizes, hdrop⟩ := hsizes source hsource.symm
  have hflag : byteAt source 0 = .ok flags := by rw [← hsource]; rfl
  obtain ⟨d', hloop, houtput, htrailing⟩ := Tracks.packed ⟨source, source.length, e'.output.length⟩
    (packed_groups (le_refl tokens.length)) rfl (tracks_start headerLength) rfl hdrop hexpand rfl
    (n := e'.output.length) (by simp)
  unfold decompressLevel2
  rw [hsizes]
  simp only [bind, Except.bind, hflag]
  rw [if_neg (by simp), if_neg (by rw [hlevel]; simp), if_neg (by rw [hcompressed]; simp), hloop]
  simp only [List.take_length]
  rw [show source.drop d'.cursor = trailing from htrailing, trailing_zeros hzero, if_neg (by simp; omega), houtput]

/-- **The level 2 decoder is safe and right**: on any bytes it ends with the output that was
asked for or with a declared fault, so that no index is out of range and its two guards
never fire; and it decodes every block of packed tokens to their expansion. -/
theorem decompressLevel2_decodes :
    (∀ (source : Bytes) (expectedLength : Int),
      (∃ fault, decompressLevel2 source expectedLength = .error fault ∧ fault.Declared) ∨
        ∃ output, decompressLevel2 source expectedLength = .ok output ∧ (output.length : Int) = expectedLength ∧
          1 ≤ output.length ∧ output.length ≤ MAX_OUTPUT) ∧
    ∀ (long : Bool) (upper : Nat) (tokens : List Token) (trailing : Bytes) (e : Expansion),
      expand tokens = some e → 0 < e.output.length → e.output.length ≤ MAX_OUTPUT →
      (long = false → 3 + (pack tokens ++ trailing).length < 256 ∧ e.output.length < 256) →
      trailing.length ≤ 4 → (∀ x ∈ trailing, x = 0) →
      decompressLevel2 (packBlock long upper tokens trailing e.output.length) e.output.length = .ok e.output :=
  ⟨decompressLevel2_cases, fun _ upper _ _ _ hexpand hpos hmax hshort hfour hzero =>
    decompress_block upper hexpand hpos hmax hshort hfour hzero⟩

/-- "abca" and a match of seven bytes that reaches into itself. -/
def overlapping : List Token :=
  [.literal 97, .literal 98, .literal 99, .literal 97,
    .reference (prefixBucket 97 98 99) ⟨0, by decide⟩ 7 false (by decide) (by decide)]

/-- The theorem decodes it, in a short block with two zeros behind. -/
theorem decompressLevel2_decodes_overlapping :
    decompressLevel2 (packBlock false 4 overlapping [0, 0] 11) 11 = .ok [97, 98, 99, 97, 97, 98, 99, 97, 97, 98, 99] :=
  decompressLevel2_decodes.2 false 4 overlapping [0, 0]
    { output := [97, 98, 99, 97, 97, 98, 99, 97, 97, 98, 99], hashed := [0, 1, 2, 3, 4], next := 11 }
    (by decide +kernel) (by decide) (by decide) (by decide +kernel) (by decide) (by simp)

end CamGuard.QuickLz
