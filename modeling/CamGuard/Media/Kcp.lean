/-
KCP segments: the header layout, `parse_kcp_segments`, and the three builders
(`build_kcp_push`, `build_kcp_ack`, `build_window_report`).

Builder and parser are written in different places of the source, so the
module ends with the fact that they agree: a frame built from segments parses
to those segments (`parseKcpSegments_frame`).
-/
import CamGuard.Media.Mtp
import Mathlib.Algebra.BigOperators.Group.List.Basic

namespace CamGuard.Media

def KCP_PUSH : Nat := 0x51
def KCP_ACK : Nat := 0x52
def KCP_WASK : Nat := 0x53
def KCP_WINS : Nat := 0x54
/-- `KCP_HEADER.size`. -/
def KCP_HEADER_SIZE : Nat := 24

/-- `KcpSegment`. -/
structure KcpSegment where
  conv : Nat
  command : Nat
  fragment : Nat
  window : Nat
  timestamp : Nat
  sequence : Nat
  unacknowledged : Nat
  body : Bytes
  deriving DecidableEq, Repr

namespace KcpSegment

/-- `KCP_HEADER.pack(…) + body`. -/
def pack (s : KcpSegment) : Bytes :=
  Bytes.ofNat 4 s.conv ++ Bytes.ofNat 1 s.command ++ Bytes.ofNat 1 s.fragment ++ Bytes.ofNat 2 s.window ++
    Bytes.ofNat 4 s.timestamp ++ Bytes.ofNat 4 s.sequence ++ Bytes.ofNat 4 s.unacknowledged ++
    Bytes.ofNat 4 s.body.length ++ s.body

/-- `KCP_HEADER.unpack_from`, with the body behind it. -/
def unpack (unread : Bytes) : KcpSegment where
  conv := unread.field 4 0
  command := unread.field 1 4
  fragment := unread.field 1 5
  window := unread.field 2 6
  timestamp := unread.field 4 8
  sequence := unread.field 4 12
  unacknowledged := unread.field 4 16
  body := unread.slice KCP_HEADER_SIZE (unread.field 4 20)

/-- The values the header's fields can carry. -/
def Fits (s : KcpSegment) : Prop :=
  s.conv < 2 ^ 32 ∧ s.command < 2 ^ 8 ∧ s.fragment < 2 ^ 8 ∧ s.window < 2 ^ 16 ∧ s.timestamp < 2 ^ 32 ∧
    s.sequence < 2 ^ 32 ∧ s.unacknowledged < 2 ^ 32 ∧ s.body.length < 2 ^ 32

instance (s : KcpSegment) : Decidable s.Fits := inferInstanceAs (Decidable (_ ∧ _))

end KcpSegment

/-- The errors of `parse_kcp_segments`. -/
inductive KcpParseFault where
  | frame
  | header
  | payload
  | empty
  deriving DecidableEq, Repr

def KcpParseFault.reason : KcpParseFault → String
  | .frame => "not a valid c0/10 MTP frame"
  | .header => "truncated KCP header"
  | .payload => "truncated KCP payload"
  | .empty => "empty KCP frame"

/-- The loop of `parse_kcp_segments`, on the bytes from `cursor` on. A segment
takes at least its header, so the length of the frame bounds the turns. -/
def kcpSegments : Nat → Bytes → Except KcpParseFault (List KcpSegment)
  | 0, _ => .ok []
  | fuel + 1, unread =>
    if unread = [] then .ok []
    else if unread.length < KCP_HEADER_SIZE then .error .header
    else
      let size := KCP_HEADER_SIZE + unread.field 4 20
      if unread.length < size then .error .payload
      else
        match kcpSegments fuel (unread.drop size) with
        | .ok segments => .ok (KcpSegment.unpack unread :: segments)
        | .error e => .error e

/-- `parse_kcp_segments`. -/
def parseKcpSegments (frame : Bytes) : Except KcpParseFault (List KcpSegment) :=
  if ¬ verifyMtpFrame frame ∨ frame.slice 0 2 ≠ [0xC0, 0x10] then .error .frame
  else
    match kcpSegments frame.length (frame.drop MTP_PREFIX_SIZE) with
    | .ok [] => .error .empty
    | .ok segments => .ok segments
    | .error e => .error e

/-- Why a builder refuses. -/
inductive KcpBuildFault where
  | window
  | report
  | frame (e : MtpBuildFault)
  deriving DecidableEq, Repr

def KcpBuildFault.reason : KcpBuildFault → String
  | .window => "invalid KCP receive window"
  | .report => "invalid KCP window report"
  | .frame e => e.reason

/-- `build_mtp_frame(0x10, …)` of one packed segment. -/
def kcpFrame (s : KcpSegment) : Except KcpBuildFault Bytes := (buildMtpFrame 0x10 s.pack).mapError .frame

/-- `build_kcp_push`, with the timestamp given. -/
def buildKcpPush (conv sequence : Nat) (body : Bytes) (timestamp : Nat) (unacknowledged : Nat := 0)
    (window : Nat := 0x100) : Except KcpBuildFault Bytes :=
  if 0xFFFF < window then .error .window
  else kcpFrame {
    conv := conv % 2 ^ 32
    command := KCP_PUSH
    fragment := 0
    window := window
    timestamp := timestamp % 2 ^ 32
    sequence := sequence % 2 ^ 32
    unacknowledged := unacknowledged % 2 ^ 32
    body := body }

/-- `build_kcp_ack`. The window is an integer: the caller computes it by
subtraction. -/
def buildKcpAck (conv sequence timestamp unacknowledged : Nat) (window : Int) : Except KcpBuildFault Bytes :=
  if window < 0 ∨ 0xFFFF < window then .error .window
  else kcpFrame {
    conv := conv % 2 ^ 32
    command := KCP_ACK
    fragment := 0
    window := window.toNat
    timestamp := timestamp % 2 ^ 32
    sequence := sequence % 2 ^ 32
    unacknowledged := unacknowledged % 2 ^ 32
    body := [] }

/-- `build_window_report`. -/
def buildWindowReport (conv unacknowledged : Nat) (window : Int) : Except KcpBuildFault Bytes :=
  if 0xFFFFFFFF < conv ∨ 0xFFFFFFFF < unacknowledged ∨ window < 0 ∨ 0xFFFF < window then .error .report
  else kcpFrame {
    conv := conv
    command := KCP_WINS
    fragment := 0
    window := window.toNat
    timestamp := 0
    sequence := 0
    unacknowledged := unacknowledged
    body := [] }

/-! ## Builder and parser agree -/

namespace KcpSegment

theorem length_pack (s : KcpSegment) : s.pack.length = KCP_HEADER_SIZE + s.body.length := by
  simp only [pack, KCP_HEADER_SIZE, List.length_append, Bytes.length_ofNat]

theorem field_length_pack {s : KcpSegment} (hs : s.Fits) (rest : Bytes) :
    (s.pack ++ rest).field 4 20 = s.body.length := by
  obtain ⟨-, -, -, -, -, -, -, hbody⟩ := hs
  rw [Bytes.field_append_left (by rw [length_pack, KCP_HEADER_SIZE]; omega)]
  simp (disch := simp) only [pack, Bytes.field_append_left, Bytes.field_append_right]
  simpa using Nat.mod_eq_of_lt hbody

theorem unpack_pack {s : KcpSegment} (hs : s.Fits) (rest : Bytes) : unpack (s.pack ++ rest) = s := by
  have hlen := field_length_pack hs rest
  have hbody : (s.pack ++ rest).slice KCP_HEADER_SIZE s.body.length = s.body := by
    rw [Bytes.slice_append_left (by rw [length_pack]), pack, Bytes.slice_append_right (by simp [KCP_HEADER_SIZE])]
    simpa [KCP_HEADER_SIZE] using Bytes.slice_zero_length s.body
  obtain ⟨hconv, hcmd, hfrag, hwin, hts, hseq, huna, -⟩ := hs
  have hsize := length_pack s
  simp only [KCP_HEADER_SIZE] at hsize
  have f0 : (s.pack ++ rest).field 4 0 = s.conv := by
    rw [Bytes.field_append_left (by omega)]
    simp (disch := simp) only [pack, Bytes.field_append_left]
    simpa using Nat.mod_eq_of_lt hconv
  have f4 : (s.pack ++ rest).field 1 4 = s.command := by
    rw [Bytes.field_append_left (by omega)]
    simp (disch := simp) only [pack, Bytes.field_append_left, Bytes.field_append_right]
    simpa using Nat.mod_eq_of_lt hcmd
  have f5 : (s.pack ++ rest).field 1 5 = s.fragment := by
    rw [Bytes.field_append_left (by omega)]
    simp (disch := simp) only [pack, Bytes.field_append_left, Bytes.field_append_right]
    simpa using Nat.mod_eq_of_lt hfrag
  have f6 : (s.pack ++ rest).field 2 6 = s.window := by
    rw [Bytes.field_append_left (by omega)]
    simp (disch := simp) only [pack, Bytes.field_append_left, Bytes.field_append_right]
    simpa using Nat.mod_eq_of_lt hwin
  have f8 : (s.pack ++ rest).field 4 8 = s.timestamp := by
    rw [Bytes.field_append_left (by omega)]
    simp (disch := simp) only [pack, Bytes.field_append_left, Bytes.field_append_right]
    simpa using Nat.mod_eq_of_lt hts
  have f12 : (s.pack ++ rest).field 4 12 = s.sequence := by
    rw [Bytes.field_append_left (by omega)]
    simp (disch := simp) only [pack, Bytes.field_append_left, Bytes.field_append_right]
    simpa using Nat.mod_eq_of_lt hseq
  have f16 : (s.pack ++ rest).field 4 16 = s.unacknowledged := by
    rw [Bytes.field_append_left (by omega)]
    simp (disch := simp) only [pack, Bytes.field_append_left, Bytes.field_append_right]
    simpa using Nat.mod_eq_of_lt huna
  simp only [unpack, f0, f4, f5, f6, f8, f12, f16, hlen, hbody]

theorem fits_unpack (unread : Bytes) : (unpack unread).Fits := by
  refine ⟨Bytes.field_lt, Bytes.field_lt, Bytes.field_lt, Bytes.field_lt, Bytes.field_lt, Bytes.field_lt,
    Bytes.field_lt, ?_⟩
  have hlen : (unread.slice KCP_HEADER_SIZE (unread.field 4 20)).length ≤ unread.field 4 20 := List.length_take_le ..
  exact lt_of_le_of_lt hlen Bytes.field_lt

theorem pack_unpack {unread : Bytes} (h : KCP_HEADER_SIZE + unread.field 4 20 ≤ unread.length) :
    (unpack unread).pack = unread.take (KCP_HEADER_SIZE + unread.field 4 20) := by
  simp only [KCP_HEADER_SIZE] at h
  have hbody : (unread.slice KCP_HEADER_SIZE (unread.field 4 20)).length = unread.field 4 20 :=
    Bytes.slice_length (by simpa only [KCP_HEADER_SIZE] using h)
  simp only [pack, unpack, hbody]
  simp (disch := omega) only [Bytes.ofNat_field, Bytes.slice_append_slice, KCP_HEADER_SIZE]
  rfl

end KcpSegment

/-- Packed segments are read back, given a turn of the loop for each. -/
theorem kcpSegments_pack {segments : List KcpSegment} (hfit : ∀ s ∈ segments, s.Fits) (fuel : Nat)
    (hfuel : segments.length ≤ fuel) : kcpSegments fuel (segments.map KcpSegment.pack).flatten = .ok segments := by
  induction segments generalizing fuel with
  | nil =>
    cases fuel with
    | zero => rfl
    | succ fuel => rfl
  | cons s segments ih =>
    obtain ⟨fuel, rfl⟩ : ∃ k, fuel = k + 1 := ⟨fuel - 1, by simp at hfuel; omega⟩
    have hs : s.Fits := hfit s (by simp)
    rw [List.map_cons, List.flatten_cons]
    set rest := (segments.map KcpSegment.pack).flatten
    have hsize : (s.pack ++ rest).length = KCP_HEADER_SIZE + s.body.length + rest.length := by
      rw [List.length_append, s.length_pack]
    have hne : s.pack ++ rest ≠ [] := by
      rw [← List.length_pos_iff, hsize, KCP_HEADER_SIZE]
      omega
    have hdrop : (s.pack ++ rest).drop (KCP_HEADER_SIZE + s.body.length) = rest := List.drop_left' s.length_pack
    have htail := ih (fun t ht => hfit t (by simp [ht])) fuel (by simp at hfuel; omega)
    simp only [kcpSegments, KcpSegment.field_length_pack hs, hdrop, htail, KcpSegment.unpack_pack hs]
    rw [if_neg hne, if_neg (by omega), if_neg (by omega)]

theorem pack_kcpSegments {fuel : Nat} {unread : Bytes} {segments : List KcpSegment} (hfuel : unread.length ≤ fuel)
    (h : kcpSegments fuel unread = .ok segments) :
    (segments.map KcpSegment.pack).flatten = unread ∧ ∀ s ∈ segments, s.Fits := by
  induction fuel generalizing unread segments with
  | zero =>
    obtain rfl : unread = [] := List.length_eq_zero_iff.mp (by omega)
    cases h
    exact ⟨rfl, by simp⟩
  | succ fuel ih =>
    unfold kcpSegments at h
    split at h
    next hnil =>
      cases h
      exact ⟨hnil.symm, by simp⟩
    split at h
    · cases h
    simp only at h
    split at h
    · cases h
    next hshort hsize =>
      split at h
      next rest hrest =>
        cases h
        have hdrop : (unread.drop (KCP_HEADER_SIZE + unread.field 4 20)).length ≤ fuel := by
          rw [List.length_drop]
          simp only [KCP_HEADER_SIZE] at hshort ⊢
          omega
        obtain ⟨hbytes, hfits⟩ := ih hdrop hrest
        refine ⟨?_, List.forall_mem_cons.mpr ⟨KcpSegment.fits_unpack unread, hfits⟩⟩
        rw [List.map_cons, List.flatten_cons, hbytes, KcpSegment.pack_unpack (by omega), List.take_append_drop]
      · cases h

/-- **The segments of a frame, packed again, are its payload.** -/
theorem parseKcpSegments_pack {frame : Bytes} {segments : List KcpSegment} (h : parseKcpSegments frame = .ok segments) :
    segments ≠ [] ∧ (segments.map KcpSegment.pack).flatten = frame.drop MTP_PREFIX_SIZE ∧ ∀ s ∈ segments, s.Fits := by
  unfold parseKcpSegments at h
  split at h
  · cases h
  split at h
  · cases h
  next hsome hparse =>
    cases h
    exact ⟨fun hnil => hsome (by rw [hnil]), pack_kcpSegments (by rw [List.length_drop]; omega) hparse⟩
  · cases h

/-- **A frame built from segments parses to those segments.** -/
theorem parseKcpSegments_frame {segments : List KcpSegment} {frame : Bytes} (hne : segments ≠ [])
    (hfit : ∀ s ∈ segments, s.Fits)
    (h : buildMtpFrame 0x10 (segments.map KcpSegment.pack).flatten = .ok frame) :
    parseKcpSegments frame = .ok segments := by
  obtain ⟨hverify, hlead, hpayload, hlen⟩ := buildMtpFrame_ok h
  have hcount : segments.length ≤ (segments.map KcpSegment.pack).flatten.length := by
    rw [List.length_flatten, List.map_map]
    have : ∀ s ∈ segments.map (List.length ∘ KcpSegment.pack), 1 ≤ s := by
      intro k hk
      obtain ⟨s, -, rfl⟩ := List.mem_map.mp hk
      simp only [Function.comp_apply, s.length_pack, KCP_HEADER_SIZE]
      omega
    simpa using List.length_le_sum_of_one_le _ this
  have hparse := kcpSegments_pack hfit frame.length (by omega)
  unfold parseKcpSegments
  rw [if_neg (by simp [hverify, hlead]), hpayload, hparse]
  cases segments with
  | nil => exact absurd rfl hne
  | cons s segments => rfl

theorem parseKcpSegments_length {frame : Bytes} {segments : List KcpSegment}
    (h : parseKcpSegments frame = .ok segments) : frame.length ≤ MTP_MAX_FRAME_SIZE := by
  unfold parseKcpSegments at h
  split at h
  · cases h
  · next hframe =>
    have hverify : verifyMtpFrame frame = true := by
      by_contra hv
      exact hframe (.inl hv)
    rw [← (verifyMtpFrame_length hverify).2]
    exact mtpFrameLength_le frame

theorem kcpFrame_ok {s : KcpSegment} (hs : s.Fits)
    (hsize : s.body.length ≤ MTP_MAX_FRAME_SIZE - MTP_PREFIX_SIZE - KCP_HEADER_SIZE) :
    ∃ frame, kcpFrame s = .ok frame ∧ parseKcpSegments frame = .ok [s] := by
  have hlen := s.length_pack
  simp only [MTP_MAX_FRAME_SIZE, MTP_PREFIX_SIZE, KCP_HEADER_SIZE] at hsize hlen
  obtain ⟨frame, hframe⟩ := buildMtpFrame_of_fits (show 0x10 ≤ 0xFF by decide) (show 24 ≤ s.pack.length by omega)
    (by simp only [MTP_MAX_FRAME_SIZE, MTP_PREFIX_SIZE]; omega)
  refine ⟨frame, by rw [kcpFrame, hframe]; rfl, ?_⟩
  exact parseKcpSegments_frame (by simp) (by simpa using hs) (by simpa using hframe)

end CamGuard.Media
