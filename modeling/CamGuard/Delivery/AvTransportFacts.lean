/-
The transport stream is read back. `carry` says which packets a payload becomes; each
of them is what the demultiplexer reads off the bytes that `_packets` writes, and
gathered they are the payload again. The rest is bookkeeping over calls: counters
that go on, tables once, and one unit for each access unit that was accepted.
-/
import CamGuard.Delivery.AvTransport
import CamGuard.Lib.MpegTs
import Mathlib.Data.List.Induction
import Mathlib.Tactic.FinCases
import Mathlib.Tactic.NormNum

namespace CamGuard.Delivery

open CamGuard.Framing CamGuard.MpegTs

/-! ## One packet -/

/-- The identifiers of this stream. -/
def PIDS : List Nat := [0, PMT_PID, VIDEO_PID, AUDIO_PID]

theorem pid_bytes {pid : Nat} (hpid : pid ∈ PIDS) (first : Bool) :
    let high := (UInt8.ofNat ((if first then 0x40 else 0) ||| (pid >>> 8))).toNat
    let low := (UInt8.ofNat (pid &&& 255)).toNat
    high / 128 = 0 ∧ high % 32 * 256 + low = pid ∧ decide (high / 64 % 2 = 1) = first := by
  fin_cases hpid <;> cases first <;> decide

theorem control_full {continuity : Nat} (h : continuity < 16) :
    (UInt8.ofNat (0x10 ||| continuity)).toNat = 16 + continuity := by
  interval_cases continuity <;> rfl

theorem control_short {continuity : Nat} (h : continuity < 16) :
    (UInt8.ofNat (0x30 ||| continuity)).toNat = 48 + continuity := by
  interval_cases continuity <;> rfl

/-- The clock reference: 33 bits, six that are set, nine that are not. -/
theorem pcr_value {pcr : Nat} (h : pcr < 2 ^ 33) :
    Bytes.toNatBE (Bytes.ofNatBE 6 ((pcr <<< 15) ||| (0x3F <<< 9))) / 2 ^ 15 = pcr := by
  have hor : (pcr <<< 15) ||| (0x3F <<< 9) = pcr * 2 ^ 15 + 0x3F * 2 ^ 9 := by
    rw [Nat.shiftLeft_eq 0x3F, ← Nat.shiftLeft_add_eq_or_of_lt (by norm_num), Nat.shiftLeft_eq]
  rw [Bytes.toNatBE_ofNatBE, hor, Nat.mod_eq_of_lt (by norm_num; omega)]
  omega

namespace AvTransport

/-- What follows the length of an adaptation field. -/
def filling (first : Bool) (pcr : Option Nat) (length : Nat) : Bytes :=
  if length ≠ 0 then
    match first, pcr with
    | true, some pcr => 0x10 :: Bytes.ofNatBE 6 ((pcr <<< 15) ||| (0x3F <<< 9)) ++ List.replicate (length - 7) 0xFF
    | _, _ => 0 :: List.replicate (length - 1) 0xFF
  else []

theorem adaptation_short {first : Bool} {pcr : Option Nat} {part : Bytes} (h : part.length < 184) :
    adaptation first pcr part = UInt8.ofNat (183 - part.length) :: filling first pcr (183 - part.length) := by
  rw [adaptation, if_pos h]
  rfl

theorem adaptation_full {first : Bool} {pcr : Option Nat} {part : Bytes} (h : ¬ part.length < 184) :
    adaptation first pcr part = [] := by
  rw [adaptation, if_neg h]

theorem filling_pcr (pcr : Nat) {length : Nat} (h : length ≠ 0) : filling true (some pcr) length =
    (0x10 : UInt8) :: (Bytes.ofNatBE 6 ((pcr <<< 15) ||| (0x3F <<< 9)) ++ List.replicate (length - 7) (0xFF : UInt8)) :=
  if_pos h

theorem filling_plain {first : Bool} {pcr : Option Nat} (hboth : (first && pcr.isSome) = false) {length : Nat}
    (h : length ≠ 0) : filling first pcr length = 0 :: List.replicate (length - 1) 0xFF := by
  cases first with
  | false => exact if_pos h
  | true =>
    cases pcr with
    | none => exact if_pos h
    | some pcr => cases hboth

theorem length_filling {first : Bool} {pcr : Option Nat} {length : Nat}
    (h : (first && pcr.isSome) = true → 7 ≤ length) : (filling first pcr length).length = length := by
  by_cases hzero : length = 0
  · subst hzero
    rfl
  cases hboth : first && pcr.isSome with
  | false =>
    rw [filling_plain hboth hzero, List.length_cons, List.length_replicate]
    omega
  | true =>
    have hseven := h hboth
    rw [Bool.and_eq_true, Option.isSome_iff_exists] at hboth
    obtain ⟨rfl, pcr, rfl⟩ := hboth
    rw [filling_pcr pcr hzero, List.length_cons, List.length_append, Bytes.length_ofNatBE, List.length_replicate]
    omega

/-- The clock reference is read where it was written. -/
theorem readPcr_filling {first : Bool} {pcr : Option Nat} {length : Nat}
    (h : (first && pcr.isSome) = true → 7 ≤ length) (hpcr : ∀ p ∈ pcr, p < 2 ^ 33) (rest : Bytes) :
    readPcr length (filling first pcr length ++ rest) = some (if first then pcr else none) := by
  cases hboth : first && pcr.isSome with
  | true =>
    have hseven := h hboth
    rw [Bool.and_eq_true, Option.isSome_iff_exists] at hboth
    obtain ⟨rfl, pcr, rfl⟩ := hboth
    have hzero : length ≠ 0 := by omega
    have hflag : Bytes.at_ (filling true (some pcr) length ++ rest) 0 = 16 := by
      rw [filling_pcr pcr hzero]
      rfl
    have hslice : Bytes.slice (filling true (some pcr) length ++ rest) 1 6 =
        Bytes.ofNatBE 6 ((pcr <<< 15) ||| (0x3F <<< 9)) := by
      rw [filling_pcr pcr hzero, List.cons_append, List.append_assoc]
      exact Bytes.slice_middle (rfl : List.length [(0x10 : UInt8)] = 1) (Bytes.length_ofNatBE ..)
    rw [readPcr, hflag, if_neg (by omega), if_neg (by omega), hslice, pcr_value (hpcr pcr rfl)]
    rfl
  | false =>
    have hnone : (if first then pcr else none) = none := by
      cases first with
      | false => rfl
      | true =>
        cases pcr with
        | none => rfl
        | some pcr => cases hboth
    rw [hnone, readPcr, if_pos]
    by_cases hzero : length = 0
    · exact .inl hzero
    · have hflag : Bytes.at_ (filling first pcr length ++ rest) 0 = 0 := by
        rw [filling_plain hboth hzero]
        rfl
      rw [hflag]
      exact .inr rfl

/-- **A packet is read back.** -/
theorem packet_reads {pid : Nat} (hpid : pid ∈ PIDS) {first : Bool} {pcr : Option Nat} (hpcr : ∀ p ∈ pcr, p < 2 ^ 33)
    {continuity : Nat} (hcontinuity : continuity < 16) {part : Bytes} (hsome : part ≠ [])
    (hroom : part.length ≤ capacity first pcr) :
    (packet pid first pcr continuity part).length = PACKET ∧
      readPacket (packet pid first pcr continuity part) =
        some ⟨pid, first, continuity, if first then pcr else none, part⟩ := by
  obtain ⟨herror, hnumber, hstart⟩ := pid_bytes hpid first
  have hpos : 0 < part.length := List.length_pos_iff.mpr hsome
  have hle : part.length ≤ 184 := by
    rw [capacity] at hroom
    split at hroom <;> omega
  by_cases hshort : part.length < 184
  · have hseven : (first && pcr.isSome) = true → 7 ≤ 183 - part.length := by
      intro hboth
      rw [capacity, if_pos hboth] at hroom
      omega
    set length := 183 - part.length with hlength
    have hfill := length_filling hseven
    have hwire : packet pid first pcr continuity part =
        [0x47, UInt8.ofNat ((if first then 0x40 else 0) ||| (pid >>> 8)), UInt8.ofNat (pid &&& 255),
          UInt8.ofNat (0x30 ||| continuity), UInt8.ofNat length] ++ (filling first pcr length ++ part) := by
      rw [packet, if_pos hshort, adaptation_short hshort, List.append_assoc]
      rfl
    have hsize : (UInt8.ofNat length).toNat = length := by
      rw [UInt8.toNat_ofNat']
      omega
    refine ⟨?_, ?_⟩
    · rw [hwire, List.length_append, List.length_append, hfill]
      show 5 + (length + part.length) = 188
      omega
    · have hdrop : (packet pid first pcr continuity part).drop (5 + length) = part := by
        rw [hwire, ← List.append_assoc]
        exact List.drop_left' (by rw [List.length_append, hfill]; rfl)
      have hfield : (packet pid first pcr continuity part).drop 5 = filling first pcr length ++ part := by
        rw [hwire]
        rfl
      have hat₄ : (packet pid first pcr continuity part).at_ 4 = length := by
        rw [hwire]
        exact hsize
      have hat₃ : (packet pid first pcr continuity part).at_ 3 = 48 + continuity := by
        rw [hwire]
        exact control_short hcontinuity
      have hat₁ : (packet pid first pcr continuity part).at_ 1 =
          (UInt8.ofNat ((if first then 0x40 else 0) ||| (pid >>> 8))).toNat := rfl
      have hat₂ : (packet pid first pcr continuity part).at_ 2 = (UInt8.ofNat (pid &&& 255)).toNat := rfl
      have hat₀ : (packet pid first pcr continuity part).at_ 0 = 0x47 := rfl
      simp only [readPacket, hat₀, hat₁, hat₂, hat₃, hat₄, hfield, hdrop, herror, hnumber, hstart,
        readPcr_filling hseven hpcr part]
      rw [if_neg (by omega), if_neg (by omega), if_pos (by omega), if_neg (by omega), Option.map_some]
      congr 2
      omega
  · have hfull : part.length = 184 := by omega
    have hnopcr : (if first then pcr else none) = none := by
      cases first with
      | false => rfl
      | true =>
        cases pcr with
        | none => rfl
        | some pcr =>
          have hcap : part.length ≤ 176 := hroom
          omega
    have hwire : packet pid first pcr continuity part =
        [0x47, UInt8.ofNat ((if first then 0x40 else 0) ||| (pid >>> 8)), UInt8.ofNat (pid &&& 255),
          UInt8.ofNat (0x10 ||| continuity)] ++ part := by
      rw [packet, if_neg hshort, adaptation_full hshort, List.append_nil]
    refine ⟨?_, ?_⟩
    · rw [hwire, List.length_append, hfull]
      rfl
    · have hdrop : (packet pid first pcr continuity part).drop 4 = part := by
        rw [hwire]
        rfl
      have hat₃ : (packet pid first pcr continuity part).at_ 3 = 16 + continuity := by
        rw [hwire]
        exact control_full hcontinuity
      have hat₁ : (packet pid first pcr continuity part).at_ 1 =
          (UInt8.ofNat ((if first then 0x40 else 0) ||| (pid >>> 8))).toNat := rfl
      have hat₂ : (packet pid first pcr continuity part).at_ 2 = (UInt8.ofNat (pid &&& 255)).toNat := rfl
      have hat₀ : (packet pid first pcr continuity part).at_ 0 = 0x47 := rfl
      simp only [readPacket, hat₀, hat₁, hat₂, hat₃, hdrop, herror, hnumber, hstart, hnopcr]
      rw [if_neg (by omega), if_pos (by omega)]
      congr 2
      omega

/-! ## One payload -/

/-- The packets that a payload becomes. -/
def carry (pid : Nat) (pcr : Option Nat) : Nat → Bool → Nat → Bytes → List Packet
  | 0, _, _, _ => []
  | fuel + 1, first, continuity, payload =>
    if payload = [] then []
    else ⟨pid, first, continuity, if first then pcr else none, payload.take (capacity first pcr)⟩ ::
      carry pid pcr fuel false ((continuity + 1) % 16) (payload.drop (capacity first pcr))

theorem capacity_pos (first : Bool) (pcr : Option Nat) : 0 < capacity first pcr := by
  rw [capacity]
  split <;> decide

theorem wrap (n : Nat) : (n + 1) &&& 15 = (n + 1) % 16 := Nat.and_two_pow_sub_one_eq_mod (n + 1) 4

/-- **The loop writes the packets of its payload**, and its counter goes on. -/
theorem loop_encodes {pid : Nat} (hpid : pid ∈ PIDS) {pcr : Option Nat} (hpcr : ∀ p ∈ pcr, p < 2 ^ 33) (fuel : Nat)
    (first : Bool) {continuity : Nat → Nat} (hcontinuity : continuity pid < 16) (payload : Bytes) :
    List.Forall₂ rule.Encodes (carry pid pcr fuel first (continuity pid) payload)
        (packetsLoop pid pcr fuel first continuity payload).1 ∧
      (packetsLoop pid pcr fuel first continuity payload).2 = Function.update continuity pid
        ((continuity pid + (carry pid pcr fuel first (continuity pid) payload).length) % 16) := by
  induction fuel generalizing first continuity payload with
  | zero => exact ⟨.nil, by simp [packetsLoop, carry, Nat.mod_eq_of_lt hcontinuity]⟩
  | succ fuel ih =>
    rw [packetsLoop, carry]
    split
    · exact ⟨.nil, by simp [Nat.mod_eq_of_lt hcontinuity]⟩
    next hsome =>
      have hpart : payload.take (capacity first pcr) ≠ [] := by
        intro hnil
        have hlen := congrArg List.length hnil
        have := capacity_pos first pcr
        have := List.length_pos_iff.mpr hsome
        rw [List.length_take, List.length_nil] at hlen
        omega
      obtain ⟨hlen, hread⟩ := packet_reads hpid hpcr hcontinuity hpart (List.length_take_le ..)
      have hself : Function.update continuity pid ((continuity pid + 1) &&& 15) pid = (continuity pid + 1) % 16 := by
        rw [Function.update_self, wrap]
      have hnext : Function.update continuity pid ((continuity pid + 1) &&& 15) pid < 16 := by
        rw [hself]
        exact Nat.mod_lt _ (by decide)
      obtain ⟨hrest, hcounter⟩ := ih false hnext (payload.drop (capacity first pcr))
      rw [hself] at hrest hcounter
      refine ⟨.cons (encodes_of_read hlen hread) hrest, ?_⟩
      simp only [hcounter, Function.update_idem, List.length_cons]
      congr 1
      omega

/-- The counters of the packets of a payload. -/
theorem carry_continuity (pid : Nat) (pcr : Option Nat) (fuel : Nat) (first : Bool) {continuity : Nat}
    (hcontinuity : continuity < 16) (payload : Bytes) :
    (carry pid pcr fuel first continuity payload).map Packet.continuity =
      (List.range (carry pid pcr fuel first continuity payload).length).map fun i => (continuity + i) % 16 := by
  induction fuel generalizing first continuity payload with
  | zero => rfl
  | succ fuel ih =>
    rw [carry]
    split
    · rfl
    · rw [List.map_cons, ih false (Nat.mod_lt _ (by decide)), List.length_cons, List.range_succ_eq_map, List.map_cons, List.map_map]
      congr 1
      · rw [Nat.add_zero, Nat.mod_eq_of_lt hcontinuity]
      · refine List.map_congr_left fun i _ => ?_
        simp only [Function.comp_apply]
        omega

theorem carry_pid {pid : Nat} {pcr : Option Nat} {fuel : Nat} {first : Bool} {continuity : Nat} {payload : Bytes}
    {p : Packet} (hp : p ∈ carry pid pcr fuel first continuity payload) : p.pid = pid := by
  induction fuel generalizing first continuity payload with
  | zero => cases hp
  | succ fuel ih =>
    rw [carry] at hp
    split at hp
    · cases hp
    · rcases List.mem_cons.mp hp with rfl | hp
      · rfl
      · exact ih hp

/-- The packets behind the first go on with its unit. -/
theorem gather_rest (pid : Nat) (pcr : Option Nat) {fuel : Nat} (continuity : Nat) {payload : Bytes}
    (hfuel : payload.length ≤ fuel) (before : List Gathered) (unit : Gathered) :
    (carry pid pcr fuel false continuity payload).foldlM gather (before ++ [unit]) =
      some (before ++ [⟨unit.pcr, unit.bytes ++ payload⟩]) := by
  induction fuel generalizing continuity payload unit with
  | zero =>
    obtain rfl : payload = [] := List.eq_nil_of_length_eq_zero (Nat.le_zero.mp hfuel)
    rw [carry, List.append_nil]
    rfl
  | succ fuel ih =>
    rw [carry]
    split
    next hnil =>
      subst hnil
      rw [List.append_nil]
      rfl
    next hsome =>
      have hpos := List.length_pos_iff.mpr hsome
      have hcapacity := capacity_pos false pcr
      have hgather : gather (before ++ [unit]) ⟨pid, false, continuity, if false then pcr else none, payload.take (capacity false pcr)⟩ =
          some (before ++ [⟨unit.pcr, unit.bytes ++ payload.take (capacity false pcr)⟩]) := by
        simp [gather]
      rw [List.foldlM_cons, hgather, Option.bind_eq_bind, Option.bind_some,
        ih ((continuity + 1) % 16) (by rw [List.length_drop]; omega)]
      simp only [List.append_assoc, List.take_append_drop]

/-- **Gathered, the packets are the payload again.** -/
theorem gather_carry (pid : Nat) (pcr : Option Nat) (continuity : Nat) {payload : Bytes} (hsome : payload ≠ [])
    (before : List Gathered) :
    (carry pid pcr payload.length true continuity payload).foldlM gather before = some (before ++ [⟨pcr, payload⟩]) := by
  obtain ⟨n, hn⟩ : ∃ n, payload.length = n + 1 := Nat.exists_eq_succ_of_ne_zero (by simpa using hsome)
  have hcapacity := capacity_pos true pcr
  rw [hn, carry, if_neg hsome, List.foldlM_cons]
  have hgather : gather before ⟨pid, true, continuity, if true then pcr else none, payload.take (capacity true pcr)⟩ =
      some (before ++ [⟨pcr, payload.take (capacity true pcr)⟩]) := rfl
  rw [hgather, Option.bind_eq_bind, Option.bind_some, gather_rest pid pcr _ (by rw [List.length_drop]; omega),
    List.take_append_drop]

/-! ## One access unit -/

theorem low_bit (y : Nat) : (y &&& 254) ||| 1 = y % 256 / 2 * 2 + 1 := by
  have hbyte : ∀ z < 256, (z &&& 254) ||| 1 = z / 2 * 2 + 1 := by decide +kernel
  have hmask : y &&& 254 = y % 256 &&& 254 := by
    rw [← Nat.and_two_pow_sub_one_eq_mod y 8, Nat.and_assoc]
    rfl
  rw [hmask, hbyte _ (Nat.mod_lt _ (by decide))]

theorem top_bits {y : Nat} (h : y < 16) : 0x21 ||| (y &&& 14) = 33 + y / 2 * 2 := by
  interval_cases y <;> rfl

/-- **The five bytes of a time are read back.** -/
theorem ptsField_reads {value : Nat} (h : value < 2 ^ 33) (rest : Bytes) :
    readPts (ptsField value ++ rest) = value ∧ (ptsField value ++ rest).at_ 0 / 16 = 2 ∧
      (ptsField value ++ rest).at_ 0 % 2 = 1 ∧ (ptsField value ++ rest).at_ 2 % 2 = 1 ∧
      (ptsField value ++ rest).at_ 4 % 2 = 1 := by
  have hshift (k : Nat) : value >>> k = value / 2 ^ k := Nat.shiftRight_eq_div_pow value k
  have hand (y : Nat) : y &&& 255 = y % 256 := Nat.and_two_pow_sub_one_eq_mod y 8
  have h₀ : (ptsField value ++ rest).at_ 0 = 33 + value / 2 ^ 29 / 2 * 2 := by
    show (UInt8.ofNat (0x21 ||| ((value >>> 29) &&& 14))).toNat = _
    rw [hshift, top_bits (by omega), UInt8.toNat_ofNat']
    omega
  have h₁ : (ptsField value ++ rest).at_ 1 = value / 2 ^ 22 % 256 := by
    show (UInt8.ofNat ((value >>> 22) &&& 255)).toNat = _
    rw [hshift, hand, UInt8.toNat_ofNat']
    omega
  have h₂ : (ptsField value ++ rest).at_ 2 = value / 2 ^ 14 % 256 / 2 * 2 + 1 := by
    show (UInt8.ofNat (((value >>> 14) &&& 254) ||| 1)).toNat = _
    rw [hshift, low_bit, UInt8.toNat_ofNat']
    omega
  have h₃ : (ptsField value ++ rest).at_ 3 = value / 2 ^ 7 % 256 := by
    show (UInt8.ofNat ((value >>> 7) &&& 255)).toNat = _
    rw [hshift, hand, UInt8.toNat_ofNat']
    omega
  have h₄ : (ptsField value ++ rest).at_ 4 = value * 2 % 256 / 2 * 2 + 1 := by
    show (UInt8.ofNat (((value <<< 1) &&& 254) ||| 1)).toNat = _
    rw [Nat.shiftLeft_eq, low_bit, UInt8.toNat_ofNat']
    omega
  refine ⟨?_, ?_, ?_, ?_, ?_⟩
  · rw [readPts, h₀, h₁, h₂, h₃, h₄]
    omega
  · rw [h₀]
    omega
  · rw [h₀]
    omega
  · rw [h₂]
    omega
  · rw [h₄]
    omega

/-- The stream of an access unit. -/
def streamId (video : Bool) : Nat := if video then 0xE0 else 0xC0

/-- **An elementary packet is read back.** -/
theorem pesBytes_reads {payload : Bytes} {pts : Nat} {video : Bool} (hpts : pts < 2 ^ 33)
    (hlen : video = false → payload.length ≤ 65527) :
    readPes (pesBytes payload pts video) = some ⟨streamId video, pts, payload⟩ := by
  obtain ⟨hvalue, hmark₀, hodd₀, hodd₂, hodd₄⟩ := ptsField_reads hpts payload
  set b := pesBytes payload pts video with hb
  have hlength : b.length = payload.length + 14 := by
    rw [hb, pesBytes]
    simp only [List.length_append, Bytes.length_ofNatBE, List.length_cons, List.length_nil, ptsField]
    omega
  have htake : b.take 3 = [0, 0, 1] := rfl
  have hid : b.at_ 3 = streamId video := by
    cases video <;> rfl
  have h₆ : b.at_ 6 = 0x80 := rfl
  have h₇ : b.at_ 7 = 0x80 := rfl
  have h₈ : b.at_ 8 = 5 := rfl
  have h₉ : b.at_ 9 = (ptsField pts ++ payload).at_ 0 := rfl
  have h₁₁ : b.at_ 11 = (ptsField pts ++ payload).at_ 2 := rfl
  have h₁₃ : b.at_ 13 = (ptsField pts ++ payload).at_ 4 := rfl
  have hfield : b.drop 9 = ptsField pts ++ payload := rfl
  have hdrop : b.drop 14 = payload := rfl
  have hsize : b.at_ 4 * 256 + b.at_ 5 = if video then 0 else payload.length + 8 := by
    have h₄ : b.at_ 4 = (UInt8.ofNat ((if video then 0 else payload.length + 8) / 256)).toNat := rfl
    have h₅ : b.at_ 5 = (UInt8.ofNat (if video then 0 else payload.length + 8)).toNat := rfl
    rw [h₄, h₅, UInt8.toNat_ofNat', UInt8.toNat_ofNat']
    cases video with
    | true => simp only [if_true, Nat.zero_div, Nat.zero_mod, Nat.zero_mul]
    | false =>
      have := hlen rfl
      simp only [Bool.false_eq_true, if_false]
      omega
  have hshape : ¬ (b.length < 14 ∨ b.take 3 ≠ [0, 0, 1]) := by
    rw [hlength, htake]
    rintro (h | h)
    · omega
    · exact h rfl
  have hflags : ¬ (b.at_ 6 / 64 ≠ 2 ∨ b.at_ 7 / 64 ≠ 2 ∨ b.at_ 8 ≠ 5) := by
    rw [h₆, h₇, h₈]
    decide
  have hmarks : ¬ (b.at_ 9 / 16 ≠ 2 ∨ b.at_ 9 % 2 ≠ 1 ∨ b.at_ 11 % 2 ≠ 1 ∨ b.at_ 13 % 2 ≠ 1) := by
    rw [h₉, h₁₁, h₁₃, hmark₀, hodd₀, hodd₂, hodd₄]
    decide
  have hsized : ¬ (b.at_ 4 * 256 + b.at_ 5 ≠ 0 ∧ b.at_ 4 * 256 + b.at_ 5 ≠ b.length - 6) := by
    rw [hsize, hlength]
    cases video with
    | true => exact fun h => h.1 rfl
    | false =>
      simp only [Bool.false_eq_true, if_false]
      omega
  rw [readPes, if_neg hshape, if_neg hflags, if_neg hmarks]
  simp only
  rw [if_neg hsized, hid, hfield, hvalue, hdrop]

/-! ## The stream so far -/

/-- The bytes written are these packets, and the counters are where they left them. -/
structure Written (t : AvTransport) (ps : List Packet) (out : Bytes) : Prop where
  encodes : ∃ ws, out = ws.flatten ∧ List.Forall₂ rule.Encodes ps ws
  counts : ∀ pid, (ofPid pid ps).map Packet.continuity = (List.range (ofPid pid ps).length).map (fun i => i % 16) ∧
    t.continuity pid = (ofPid pid ps).length % 16

theorem ofPid_append (pid : Nat) (ps qs : List Packet) : ofPid pid (ps ++ qs) = ofPid pid ps ++ ofPid pid qs :=
  List.filter_append ..

theorem ofPid_self {pid : Nat} {ps : List Packet} (h : ∀ p ∈ ps, p.pid = pid) : ofPid pid ps = ps :=
  List.filter_eq_self.mpr fun p hp => by simpa using h p hp

theorem ofPid_other {pid other : Nat} (hne : other ≠ pid) {ps : List Packet} (h : ∀ p ∈ ps, p.pid = pid) :
    ofPid other ps = [] := by
  refine List.filter_eq_nil_iff.mpr fun p hp => ?_
  rw [h p hp]
  simpa using hne.symm

/-- **One more payload**: its packets come after the others, and every counter goes on. -/
theorem Written.packets {t : AvTransport} {ps : List Packet} {out : Bytes} (h : Written t ps out) {pid : Nat}
    (hpid : pid ∈ PIDS) {pcr : Option Nat} (hpcr : ∀ p ∈ pcr, p < 2 ^ 33) (payload : Bytes) :
    Written (t.packets pid payload pcr).2 (ps ++ carry pid pcr payload.length true (t.continuity pid) payload)
      (out ++ (t.packets pid payload pcr).1) := by
  obtain ⟨ws, hout, hencodes⟩ := h.encodes
  have hlt : t.continuity pid < 16 := by
    rw [(h.counts pid).2]
    exact Nat.mod_lt _ (by decide)
  obtain ⟨hmore, hcounter⟩ := loop_encodes hpid hpcr payload.length true hlt payload
  set qs := carry pid pcr payload.length true (t.continuity pid) payload with hqs
  have hpids : ∀ p ∈ qs, p.pid = pid := fun p hp => carry_pid hp
  have hcounts : qs.map Packet.continuity = (List.range qs.length).map fun i => (t.continuity pid + i) % 16 :=
    carry_continuity pid pcr payload.length true hlt payload
  refine ⟨⟨ws ++ (packetsLoop pid pcr payload.length true t.continuity payload).1, ?_, List.rel_append hencodes hmore⟩, fun other => ?_⟩
  · rw [List.flatten_append, ← hout]
    rfl
  · obtain ⟨hbefore, hlast⟩ := h.counts other
    have hstate : (t.packets pid payload pcr).2.continuity = Function.update t.continuity pid ((t.continuity pid + qs.length) % 16) :=
      hcounter
    rw [hstate, ofPid_append]
    by_cases heq : other = pid
    · subst heq
      rw [ofPid_self hpids, Function.update_self, List.length_append]
      refine ⟨?_, by rw [hlast]; omega⟩
      rw [List.map_append, hbefore, hcounts, List.range_add, List.map_append, List.map_map]
      congr 1
      refine List.map_congr_left fun i _ => ?_
      rw [hlast, Function.comp_apply]
      omega
    · rw [ofPid_other heq hpids, List.append_nil, Function.update_of_ne heq]
      exact ⟨hbefore, hlast⟩

/-- A payload that one packet holds. -/
theorem carry_single {pid : Nat} {pcr : Option Nat} {continuity : Nat} {payload : Bytes} (hsome : payload ≠ [])
    (hroom : payload.length ≤ capacity true pcr) :
    carry pid pcr payload.length true continuity payload = [⟨pid, true, continuity, pcr, payload⟩] := by
  obtain ⟨n, hn⟩ : ∃ n, payload.length = n + 1 := Nat.exists_eq_succ_of_ne_zero (by simpa using hsome)
  rw [hn, carry, if_neg hsome, List.take_of_length_le hroom, List.drop_eq_nil_of_le hroom]
  cases n with
  | zero => rfl
  | succ n => rfl

theorem carry_pcr {pid : Nat} {pcr : Option Nat} {fuel : Nat} {first : Bool} {continuity : Nat} {payload : Bytes}
    {p : Packet} (hp : p ∈ carry pid pcr fuel first continuity payload) (hsome : p.pcr.isSome = true) :
    pcr.isSome = true ∧ p.start = true := by
  induction fuel generalizing first continuity payload with
  | zero => cases hp
  | succ fuel ih =>
    rw [carry] at hp
    split at hp
    · cases hp
    · rcases List.mem_cons.mp hp with rfl | hp
      · cases first with
        | true => exact ⟨hsome, rfl⟩
        | false => cases hsome
      · exact ih hp

end AvTransport

/-! ## Runs -/

/-- A call of `video` or of `audio`. -/
structure AvCall where
  video : Bool
  payload : Bytes
  timestampUs : Int
  deriving DecidableEq, Repr

/-- A transport with what it has put out, and the calls it has accepted. -/
structure AvRun where
  transport : AvTransport
  output : Bytes := []
  accepted : List AvCall := []

namespace AvRun

open AvTransport

def step (r : AvRun) (call : AvCall) : AvRun :=
  match r.transport.pes call.payload call.timestampUs call.video with
  | none => r
  | some (out, t) => ⟨t, r.output ++ out, r.accepted ++ [call]⟩

def run (origin : Nat) (calls : List AvCall) : AvRun := calls.foldl step ⟨{ origin }, [], []⟩

/-- Ninety ticks of the clock for a thousand microseconds, in 33 bits. -/
def time (origin : Nat) (timestampUs : Int) : Nat := ((timestampUs - origin) * 9 / 100 % 2 ^ 33).toNat

def pidOf (video : Bool) : Nat := if video then VIDEO_PID else AUDIO_PID

/-- The unit of an accepted call. -/
def unitOf (origin : Nat) (call : AvCall) : Gathered :=
  ⟨if call.video then some (time origin call.timestampUs) else none,
    pesBytes call.payload (time origin call.timestampUs) call.video⟩

/-- The packet of a table. -/
def table (pid : Nat) (section_ : Bytes) : Packet := ⟨pid, true, 0, none, 0 :: section_ ++ crc32 section_⟩

theorem pts_eq {t : AvTransport} {timestampUs : Int} (h : (t.origin : Int) ≤ timestampUs) :
    t.pts timestampUs = time t.origin timestampUs := by
  have hmask (n : Nat) : n &&& ((1 <<< 33) - 1) = n % 2 ^ 33 := Nat.and_two_pow_sub_one_eq_mod n 33
  obtain ⟨n, hn⟩ := Int.eq_ofNat_of_zero_le (Int.sub_nonneg_of_le h)
  have hdiff : timestampUs.toNat - t.origin = n := by omega
  rw [AvTransport.pts, hmask, time, hdiff, hn]
  norm_cast

theorem time_lt (origin : Nat) (timestampUs : Int) : time origin timestampUs < 2 ^ 33 := by
  rw [time]
  omega

/-- What `_pes` puts before the packets of a unit. -/
def begun (t : AvTransport) : Bytes × AvTransport :=
  if t.started then ([], t) else (t.tables.1, { t.tables.2 with started := true })

theorem pes_eq {t : AvTransport} {payload : Bytes} {timestampUs : Int} {video : Bool}
    (h : t.accepts payload timestampUs video = true) :
    let packets := (begun t).2.packets (pidOf video) (pesBytes payload (time t.origin timestampUs) video)
      (if video then some (time t.origin timestampUs) else none)
    t.pes payload timestampUs video = some ((begun t).1 ++ packets.1, packets.2) := by
  have htime : (t.origin : Int) ≤ timestampUs := by
    rw [AvTransport.accepts, Bool.and_eq_true, decide_eq_true_eq, decide_eq_true_eq] at h
    exact h.2.1
  have hgo : ¬ t.accepts payload timestampUs video = false := by
    rw [h]
    exact Bool.noConfusion
  rw [AvTransport.pes, if_neg hgo, pts_eq htime, begun]
  cases t.started with
  | true => simp only [if_true, pidOf]
  | false => simp only [Bool.false_eq_true, if_false, pidOf]

/-- A stream that has its tables, and a unit for each accepted call. -/
structure Begun (origin : Nat) (r : AvRun) (ps : List Packet) : Prop where
  origin_eq : r.transport.origin = origin
  started : r.transport.started = true
  written : Written r.transport ps r.output
  tables : ∃ rest, ps = [table 0 pat, table PMT_PID pmt] ++ rest ∧ ∀ p ∈ rest, p.pid = VIDEO_PID ∨ p.pid = AUDIO_PID
  clock : ∀ p ∈ ps, p.pcr.isSome = true → p.pid = VIDEO_PID ∧ p.start = true
  units : ∀ video, units (ofPid (pidOf video) ps) = some ((r.accepted.filter fun c => c.video = video).map (unitOf origin))

/-- Nothing yet, or a stream with its tables. -/
def Inv (origin : Nat) (r : AvRun) (ps : List Packet) : Prop :=
  r.accepted = [] ∧ ps = [] ∧ r.output = [] ∧ r.transport = { origin } ∨ r.accepted ≠ [] ∧ Begun origin r ps

/-- The tables come first, in a stream that has nothing yet. -/
theorem written_tables (origin : Nat) : Written (AvTransport.tables { origin }).2 [table 0 pat, table PMT_PID pmt]
    (AvTransport.tables { origin }).1 := by
  have hnone : ∀ p ∈ (none : Option Nat), p < 2 ^ 33 := fun _ hp => nomatch hp
  have hnew : Written { origin } [] [] := ⟨⟨[], rfl, .nil⟩, fun _ => ⟨rfl, rfl⟩⟩
  have hpat : 0 :: pat ++ crc32 pat ≠ [] := List.cons_ne_nil _ _
  have hpmt : 0 :: pmt ++ crc32 pmt ≠ [] := List.cons_ne_nil _ _
  have hfirst := hnew.packets (by decide : 0 ∈ PIDS) hnone (0 :: pat ++ crc32 pat)
  rw [carry_single hpat (by decide +kernel), List.nil_append, List.nil_append] at hfirst
  have hcounter := (hfirst.counts PMT_PID).2
  have hsecond := hfirst.packets (by decide : PMT_PID ∈ PIDS) hnone (0 :: pmt ++ crc32 pmt)
  rw [carry_single hpmt (by decide +kernel), hcounter] at hsecond
  exact hsecond

theorem pidOf_mem (video : Bool) : pidOf video ∈ PIDS := by cases video <;> decide

theorem pidOf_inj {video other : Bool} (h : pidOf video = pidOf other) : video = other := by
  cases video <;> cases other <;> first | rfl | cases h

/-- One accepted access unit, behind a stream that has its tables. -/
theorem Begun.unit {origin : Nat} {r : AvRun} {ps : List Packet} (h : Begun origin r ps) (call : AvCall) :
    let pts := time origin call.timestampUs
    let pcr := if call.video then some pts else none
    let packets := r.transport.packets (pidOf call.video) (pesBytes call.payload pts call.video) pcr
    ∃ ps', Begun origin ⟨packets.2, r.output ++ packets.1, r.accepted ++ [call]⟩ ps' := by
  intro pts pcr packets
  have hpcr : ∀ p ∈ pcr, p < 2 ^ 33 := by
    intro p hp
    cases hvideo : call.video with
    | false =>
      simp only [pcr, hvideo] at hp
      cases hp
    | true =>
      simp only [pcr, hvideo, if_true] at hp
      cases hp
      exact time_lt origin call.timestampUs
  have hsome : pesBytes call.payload pts call.video ≠ [] := List.cons_ne_nil _ _
  set qs := carry (pidOf call.video) pcr (pesBytes call.payload pts call.video).length true
    (r.transport.continuity (pidOf call.video)) (pesBytes call.payload pts call.video) with hqs
  have hpids : ∀ p ∈ qs, p.pid = pidOf call.video := fun p hp => carry_pid hp
  refine ⟨ps ++ qs, h.origin_eq, h.started,
    h.written.packets (pidOf_mem call.video) hpcr (pesBytes call.payload pts call.video), ?_, ?_, fun video => ?_⟩
  · obtain ⟨rest, hps, hrest⟩ := h.tables
    refine ⟨rest ++ qs, by rw [hps, List.append_assoc], fun p hp => ?_⟩
    rcases List.mem_append.mp hp with hp | hp
    · exact hrest p hp
    · rw [hpids p hp]
      cases call.video with
      | true => exact .inl rfl
      | false => exact .inr rfl
  · intro p hp hclk
    rcases List.mem_append.mp hp with hp | hp
    · exact h.clock p hp hclk
    · obtain ⟨hhas, hstart⟩ := carry_pcr hp hclk
      refine ⟨?_, hstart⟩
      rw [hpids p hp]
      cases hvideo : call.video with
      | true => rfl
      | false =>
        simp only [pcr, hvideo] at hhas
        cases hhas
  · rw [ofPid_append]
    by_cases heq : video = call.video
    · subst heq
      have hbefore := h.units call.video
      rw [ofPid_self hpids, MpegTs.units, List.foldlM_append]
      rw [MpegTs.units] at hbefore
      rw [hbefore, Option.bind_eq_bind, Option.bind_some, gather_carry _ _ _ hsome]
      simp only [List.filter_append, List.map_append]
      simp [unitOf, pcr, pts]
    · have hne : pidOf video ≠ pidOf call.video := fun h => heq (pidOf_inj h)
      rw [ofPid_other hne hpids, List.append_nil, h.units video, List.filter_append]
      simp [Ne.symm heq]

/-- Before the packets of a unit, the tables are there. -/
theorem Inv.begun {origin : Nat} {r : AvRun} {ps : List Packet} (h : Inv origin r ps) :
    ∃ ps', Begun origin ⟨(begun r.transport).2, r.output ++ (AvRun.begun r.transport).1, r.accepted⟩ ps' := by
  rcases h with ⟨haccepted, -, hout, hnew⟩ | ⟨-, h⟩
  · have hbegun : AvRun.begun { origin } =
        ((AvTransport.tables { origin }).1, { (AvTransport.tables { origin }).2 with started := true }) := rfl
    have hwritten := written_tables origin
    rw [haccepted, hout, hnew, hbegun, List.nil_append]
    refine ⟨[table 0 pat, table PMT_PID pmt], rfl, rfl, ⟨hwritten.encodes, hwritten.counts⟩, ⟨[], rfl, nofun⟩, ?_, ?_⟩
    · intro p hp hclk
      rcases List.mem_cons.mp hp with rfl | hp
      · cases hclk
      · rw [List.mem_singleton.mp hp] at hclk
        cases hclk
    · intro video
      cases video with
      | true => rfl
      | false => rfl
  · have hbegun : AvRun.begun r.transport = ([], r.transport) := by rw [AvRun.begun, if_pos h.started]
    rw [hbegun, List.append_nil]
    exact ⟨ps, h⟩

theorem Inv.origin_eq {origin : Nat} {r : AvRun} {ps : List Packet} (h : Inv origin r ps) : r.transport.origin = origin := by
  rcases h with ⟨-, -, -, hnew⟩ | ⟨-, h⟩
  · rw [hnew]
  · exact h.origin_eq

theorem Inv.step {origin : Nat} {r : AvRun} {ps : List Packet} (h : Inv origin r ps) (call : AvCall) :
    ∃ ps', Inv origin (r.step call) ps' := by
  rw [AvRun.step]
  cases haccepts : r.transport.accepts call.payload call.timestampUs call.video with
  | false =>
    rw [AvTransport.pes, if_pos haccepts]
    exact ⟨ps, h⟩
  | true =>
    have horigin := h.origin_eq
    obtain ⟨qs, hbegun⟩ := h.begun
    obtain ⟨ps', hunit⟩ := hbegun.unit call
    refine ⟨ps', .inr ?_⟩
    rw [pes_eq haccepts, horigin]
    simp only [← List.append_assoc]
    exact ⟨by simp, hunit⟩

theorem Inv.run {origin : Nat} {r : AvRun} {ps : List Packet} (h : Inv origin r ps) (calls : List AvCall) :
    ∃ ps', Inv origin (calls.foldl AvRun.step r) ps' := by
  induction calls generalizing r ps with
  | nil => exact ⟨ps, h⟩
  | cons call calls ih =>
    obtain ⟨ps', h'⟩ := h.step call
    exact ih h'

theorem run_inv (origin : Nat) (calls : List AvCall) : ∃ ps, Inv origin (run origin calls) ps :=
  Inv.run (.inl ⟨rfl, rfl, rfl, rfl⟩ : Inv origin ⟨{ origin }, [], []⟩ []) calls

/-- What a transport of this origin accepts. -/
def takes (origin : Nat) (call : AvCall) : Bool :=
  AvTransport.accepts { origin } call.payload call.timestampUs call.video

theorem accepts_eq {origin : Nat} {t : AvTransport} (h : t.origin = origin) (call : AvCall) :
    t.accepts call.payload call.timestampUs call.video = takes origin call := by
  rw [takes, AvTransport.accepts, AvTransport.accepts, h]

/-- A call that is not accepted raises, and nothing has changed. -/
theorem step_refused {origin : Nat} {r : AvRun} (h : r.transport.origin = origin) {call : AvCall}
    (hrefused : takes origin call = false) :
    r.transport.pes call.payload call.timestampUs call.video = none ∧ r.step call = r := by
  have hnone : r.transport.pes call.payload call.timestampUs call.video = none := by
    rw [AvTransport.pes, if_pos ((accepts_eq h call).trans hrefused)]
  exact ⟨hnone, by rw [AvRun.step, hnone]⟩

theorem run_append (origin : Nat) (calls : List AvCall) (call : AvCall) :
    run origin (calls ++ [call]) = (run origin calls).step call := by
  rw [run, List.foldl_append]
  rfl

theorem run_accepted (origin : Nat) (calls : List AvCall) : (run origin calls).accepted = calls.filter (takes origin) := by
  induction calls using List.reverseRecOn with
  | nil => rfl
  | append_singleton calls call ih =>
    obtain ⟨ps, hinv⟩ := run_inv origin calls
    rw [run_append, List.filter_append]
    cases htakes : takes origin call with
    | false =>
      rw [(step_refused hinv.origin_eq htakes).2, ih]
      simp [htakes]
    | true =>
      rw [AvRun.step, pes_eq ((accepts_eq hinv.origin_eq call).trans htakes)]
      simp [ih, htakes]

/-- The elementary packet of an accepted call reads as its stream, its time and its payload. -/
theorem readPes_unitOf {origin : Nat} {call : AvCall} (h : takes origin call = true) :
    readPes (unitOf origin call).bytes = some ⟨streamId call.video, time origin call.timestampUs, call.payload⟩ := by
  refine pesBytes_reads (time_lt origin call.timestampUs) fun hvideo => ?_
  rw [takes, AvTransport.accepts, Bool.and_eq_true, decide_eq_true_eq, hvideo] at h
  exact h.1.2

theorem Inv.written {origin : Nat} {r : AvRun} {ps : List Packet} (h : Inv origin r ps) : Written r.transport ps r.output := by
  rcases h with ⟨-, rfl, hout, hnew⟩ | ⟨-, h⟩
  · rw [hout, hnew]
    exact ⟨⟨[], rfl, .nil⟩, fun _ => ⟨rfl, rfl⟩⟩
  · exact h.written

theorem Inv.clock {origin : Nat} {r : AvRun} {ps : List Packet} (h : Inv origin r ps) :
    ∀ p ∈ ps, p.pcr.isSome = true → p.pid = VIDEO_PID ∧ p.start = true := by
  rcases h with ⟨-, rfl, -, -⟩ | ⟨-, h⟩
  · exact nofun
  · exact h.clock

theorem Inv.units {origin : Nat} {r : AvRun} {ps : List Packet} (h : Inv origin r ps) (video : Bool) :
    MpegTs.units (ofPid (pidOf video) ps) = some ((r.accepted.filter fun c => c.video = video).map (unitOf origin)) := by
  rcases h with ⟨haccepted, rfl, -, -⟩ | ⟨-, h⟩
  · rw [haccepted]
    rfl
  · exact h.units video

/-- **The stream is demultiplexed again.** Whatever is called: the output is packets of
188 bytes that the demultiplexer reads to the end; the counters of each identifier go
on modulo 16; the tables stand once, in front; each stream gives back the payloads that
were accepted, at their times, and a video unit's clock is its time; and a call that
is refused changes nothing. -/
theorem transport_demuxes (origin : Nat) (calls : List AvCall) :
    let r := run origin calls
    let accepted := calls.filter (takes origin)
    (∃ (ps : List Packet) (ws : List Bytes), r.output = ws.flatten ∧ (∀ w ∈ ws, w.length = PACKET ∧ w.at_ 0 = 0x47) ∧
      rule.scan r.output = (ps, .ok []) ∧
      (∀ pid, (ofPid pid ps).map Packet.continuity = (List.range (ofPid pid ps).length).map (· % 16)) ∧
      (accepted = [] ∧ ps = [] ∨ accepted ≠ [] ∧ ∃ rest, ps = [table 0 pat, table PMT_PID pmt] ++ rest ∧
        (∀ p ∈ rest, p.pid = VIDEO_PID ∨ p.pid = AUDIO_PID)) ∧
      (∀ video, ∃ us, units (ofPid (pidOf video) ps) = some us ∧
        us.map (fun u => (u.pcr, readPes u.bytes)) = (accepted.filter fun c => c.video = video).map fun c =>
          (if video then some (time origin c.timestampUs) else none,
            some ⟨streamId video, time origin c.timestampUs, c.payload⟩)) ∧
      ∀ p ∈ ps, p.pcr.isSome = true → p.pid = VIDEO_PID ∧ p.start = true) ∧
    sectionOk (table 0 pat).payload = true ∧ sectionOk (table PMT_PID pmt).payload = true ∧
    ∀ call, takes origin call = false →
      r.transport.pes call.payload call.timestampUs call.video = none ∧ run origin (calls ++ [call]) = r := by
  intro r accepted
  obtain ⟨ps, hinv⟩ := run_inv origin calls
  have haccepted : r.accepted = accepted := run_accepted origin calls
  obtain ⟨ws, hout, hencodes⟩ := hinv.written.encodes
  have hscan : rule.scan r.output = (ps, .ok []) := by
    have hall := Rule.scan_flatten hencodes []
    rw [List.append_nil, ← hout] at hall
    have hnil : rule.scan [] = ([], .ok []) := Rule.scan_wait rule.view_nil
    rw [hall, hnil, List.append_nil]
  refine ⟨⟨ps, ws, hout, sync_of_encoded hencodes, hscan, fun pid => (hinv.written.counts pid).1, ?_, fun video => ?_, hinv.clock⟩,
    by decide +kernel, by decide +kernel, fun call hrefused => ?_⟩
  · rw [← haccepted]
    rcases hinv with ⟨hnone, hps, -⟩ | ⟨hsome, h⟩
    · exact .inl ⟨hnone, hps⟩
    · exact .inr ⟨hsome, h.tables⟩
  · refine ⟨_, hinv.units video, ?_⟩
    rw [List.map_map, ← haccepted]
    refine List.map_congr_left fun c hc => ?_
    rw [List.mem_filter, decide_eq_true_eq, run_accepted, List.mem_filter] at hc
    obtain ⟨⟨-, htakes⟩, rfl⟩ := hc
    rw [Function.comp_apply, readPes_unitOf htakes]
    rfl
  · obtain ⟨hnone, hsame⟩ := step_refused hinv.origin_eq hrefused
    exact ⟨hnone, by rw [run_append, hsame]⟩

end AvRun

end CamGuard.Delivery
