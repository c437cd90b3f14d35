/-
The MTP and KCP codecs agree across the UDP frame and the TCP envelopes
(`codec_round_trip`): segments are read back from the frame that was built of them
and packed again give its payload, both inbound envelopes of a payload come to one
canonical frame, and a segment of another conversation is refused in either.
-/
import CamGuard.Media.TcpRelay

namespace CamGuard.Media

/-- The segments of a frame, packed one after another. -/
def kcpPayload (segments : List KcpSegment) : Bytes := (segments.map KcpSegment.pack).flatten

theorem kcpPayload_ge {segments : List KcpSegment} (h : segments ≠ []) : 24 ≤ (kcpPayload segments).length := by
  cases segments with
  | nil => exact absurd rfl h
  | cons s segments =>
    simp only [kcpPayload, List.map_cons, List.flatten_cons, List.length_append, s.length_pack, KCP_HEADER_SIZE]
    omega

/-! ## Frames -/

theorem frame_of_segments {segments : List KcpSegment} (hne : segments ≠ []) (hfit : ∀ s ∈ segments, s.Fits)
    (hmax : MTP_PREFIX_SIZE + (kcpPayload segments).length ≤ MTP_MAX_FRAME_SIZE) :
    ∃ frame, buildMtpFrame 0x10 (kcpPayload segments) = .ok frame ∧ verifyMtpFrame frame = true ∧
      parseKcpSegments frame = .ok segments := by
  obtain ⟨frame, hframe⟩ := buildMtpFrame_of_fits (show 0x10 ≤ 0xFF by decide) (kcpPayload_ge hne) hmax
  exact ⟨frame, hframe, (buildMtpFrame_ok hframe).1, parseKcpSegments_frame hne hfit hframe⟩

theorem fits_of_mod {conv command timestamp sequence unacknowledged window : Nat} {body : Bytes}
    (hcommand : command < 2 ^ 8) (hwindow : window < 2 ^ 16) (hbody : body.length < 2 ^ 32) :
    (⟨conv % 2 ^ 32, command, 0, window, timestamp % 2 ^ 32, sequence % 2 ^ 32, unacknowledged % 2 ^ 32, body⟩ :
      KcpSegment).Fits :=
  ⟨Nat.mod_lt _ (by decide), hcommand, Nat.two_pow_pos 8, hwindow, Nat.mod_lt _ (by decide), Nat.mod_lt _ (by decide),
    Nat.mod_lt _ (by decide), hbody⟩

theorem parse_kcpFrame {s : KcpSegment} {frame : Bytes} (h : kcpFrame s = .ok frame)
    (hfit : s.body.length < 2 ^ 32 → s.Fits) : parseKcpSegments frame = .ok [s] := by
  unfold kcpFrame at h
  cases hbuild : buildMtpFrame 0x10 s.pack with
  | error e =>
    rw [hbuild] at h
    cases h
  | ok built =>
    rw [hbuild] at h
    cases h
    obtain ⟨hverify, -, -, hlen⟩ := buildMtpFrame_ok hbuild
    have hmax := mtpFrameLength_le frame
    rw [(verifyMtpFrame_length hverify).2, hlen, s.length_pack] at hmax
    simp only [MTP_PREFIX_SIZE, KCP_HEADER_SIZE, MTP_MAX_FRAME_SIZE] at hmax
    exact parseKcpSegments_frame (by simp) (by simpa using hfit (by omega)) (by simpa using hbuild)

/-! ## Envelopes -/

theorem at_one_of_built {subtype : Nat} {payload frame : Bytes} (h : buildMtpFrame subtype payload = .ok frame) :
    frame.at_ 1 = subtype % 256 := by
  obtain ⟨-, hlead, -, -⟩ := buildMtpFrame_ok h
  rw [Bytes.at_eq_field, ← Nat.zero_add 1, ← Bytes.field_slice (show 1 + 1 ≤ 2 by omega), hlead]
  simp [Bytes.field, Bytes.slice, Bytes.toNat]

theorem validateConversation_ok {frame : Bytes} {segments : List KcpSegment} {conversation : Nat}
    (hparse : parseKcpSegments frame = .ok segments) (hconv : conversation < 2 ^ 32)
    (hsame : ∀ s ∈ segments, s.conv = conversation) : validateConversation frame conversation = .ok () := by
  unfold validateConversation
  rw [if_neg (by omega), hparse]
  have hnone : (segments.any fun segment => decide (segment.conv ≠ conversation)) = false := by
    simp only [List.any_eq_false, decide_eq_true_eq, not_not]
    exact hsame
  simp only [hnone, Bool.false_eq_true, if_false]

/-- An envelope of a mapped kind, within the limit, comes to the canonical frame. -/
theorem unwrap_built {kind : Nat} {body frame payload : Bytes} {segments : List KcpSegment} {conversation : Nat}
    (hkind : kind = 0x10 ∨ kind = 0x50) (hbuild : buildMtpFrame kind body = .ok frame)
    (hlimit : MTP_PREFIX_SIZE + body.length ≤ TCP_RECORD_LIMIT)
    (hbody : frame.drop (relayOffset frame) = payload) (hpayload : payload = kcpPayload segments)
    (hne : segments ≠ []) (hfit : ∀ s ∈ segments, s.Fits) (hsame : ∀ s ∈ segments, s.conv = conversation) :
    ∃ canonical, buildMtpFrame 0x10 payload = .ok canonical ∧ unwrapTcpRelayKcp frame conversation = .ok canonical := by
  obtain ⟨hverify, hlead, -, hlen⟩ := buildMtpFrame_ok hbuild
  have hconv : conversation < 2 ^ 32 := by
    obtain ⟨s, hs⟩ := List.exists_mem_of_ne_nil segments hne
    rw [← hsame s hs]
    exact (hfit s hs).1
  have hsize : payload.length ≤ body.length := by
    rw [← hbody, List.length_drop, hlen, relayOffset, MTP_PREFIX_SIZE]
    split <;> omega
  have hmax : MTP_PREFIX_SIZE + (kcpPayload segments).length ≤ MTP_MAX_FRAME_SIZE := by
    rw [← hpayload]
    simp only [MTP_PREFIX_SIZE, MTP_MAX_FRAME_SIZE, TCP_RECORD_LIMIT] at hlimit ⊢
    omega
  obtain ⟨canonical, hcanonical, -, hparse⟩ := frame_of_segments hne hfit hmax
  rw [← hpayload] at hcanonical
  refine ⟨canonical, hcanonical, ?_⟩
  unfold unwrapTcpRelayKcp
  have hadmitted : ¬ (TCP_RECORD_LIMIT < frame.length ∨ frame.slice 0 2 ∉ [[0xC0, 0x10], [0xC0, 0x50]] ∨
      verifyMtpFrame frame = false) := by
    rw [hlen, hlead, hverify]
    rcases hkind with rfl | rfl
    · simp
      omega
    · simp
      omega
  rw [if_neg hadmitted, hbody, hcanonical]
  simp only [validateConversation_ok hparse hconv hsame]

theorem unwrap_other {frame : Bytes} {segments : List KcpSegment} {conversation : Nat}
    (hpayload : frame.drop (relayOffset frame) = kcpPayload segments) (hfit : ∀ s ∈ segments, s.Fits)
    (hother : ∃ s ∈ segments, s.conv ≠ conversation) : ∃ e, unwrapTcpRelayKcp frame conversation = .error e := by
  obtain ⟨s, hs, hconv⟩ := hother
  unfold unwrapTcpRelayKcp
  split
  · exact ⟨_, rfl⟩
  split
  · exact ⟨_, rfl⟩
  next normalized hbuild =>
    rw [hpayload] at hbuild
    have hparse := parseKcpSegments_frame (List.ne_nil_of_mem hs) hfit hbuild
    have hany : (segments.any fun segment => decide (segment.conv ≠ conversation)) = true := by
      simp only [List.any_eq_true, decide_eq_true_eq]
      exact ⟨s, hs, hconv⟩
    have hrefused : ∃ e, validateConversation normalized conversation = .error e := by
      unfold validateConversation
      split
      · exact ⟨_, rfl⟩
      · simp only [hparse, hany, if_true]
        exact ⟨_, rfl⟩
    obtain ⟨e, he⟩ := hrefused
    exact ⟨e, by rw [he]⟩

/-! ## Result -/

/-- **Segments, frames and envelopes agree.** Segments whose packing fits a frame
are read back from it, and what is read from any frame packs to its payload, so that
equal segments come from equal payloads. Both inbound envelopes of a payload of one
conversation come to its canonical frame; an envelope with a segment of another
conversation is refused. What the builders of a PUSH and an ACK make is read back
as one segment. -/
theorem codec_round_trip :
    (∀ segments : List KcpSegment, segments ≠ [] → (∀ s ∈ segments, s.Fits) →
      MTP_PREFIX_SIZE + (kcpPayload segments).length ≤ MTP_MAX_FRAME_SIZE →
      ∃ frame, buildMtpFrame 0x10 (kcpPayload segments) = .ok frame ∧ verifyMtpFrame frame = true ∧
        parseKcpSegments frame = .ok segments) ∧
    (∀ frame segments, parseKcpSegments frame = .ok segments →
      kcpPayload segments = frame.drop MTP_PREFIX_SIZE) ∧
    (∀ frame frame' segments, parseKcpSegments frame = .ok segments → parseKcpSegments frame' = .ok segments →
      frame.drop MTP_PREFIX_SIZE = frame'.drop MTP_PREFIX_SIZE) ∧
    (∀ (segments : List KcpSegment) (conversation : Nat) (route : Bytes), segments ≠ [] → (∀ s ∈ segments, s.Fits) →
      (∀ s ∈ segments, s.conv = conversation) → route.length = 8 →
      (MTP_PREFIX_SIZE + (route ++ kcpPayload segments).length ≤ TCP_RECORD_LIMIT →
        ∃ envelope canonical, buildMtpFrame 0x50 (route ++ kcpPayload segments) = .ok envelope ∧
          buildMtpFrame 0x10 (kcpPayload segments) = .ok canonical ∧
          unwrapTcpRelayKcp envelope conversation = .ok canonical) ∧
      (MTP_PREFIX_SIZE + (kcpPayload segments).length ≤ TCP_RECORD_LIMIT →
        ∃ canonical, buildMtpFrame 0x10 (kcpPayload segments) = .ok canonical ∧
          unwrapTcpRelayKcp canonical conversation = .ok canonical)) ∧
    (∀ (frame : Bytes) (segments : List KcpSegment) (conversation : Nat),
      frame.drop (relayOffset frame) = kcpPayload segments → (∀ s ∈ segments, s.Fits) →
      (∃ s ∈ segments, s.conv ≠ conversation) → ∃ e, unwrapTcpRelayKcp frame conversation = .error e) ∧
    (∀ (conv sequence : Nat) (body : Bytes) (timestamp unacknowledged window : Nat),
      (window ≤ 0xFFFF → MTP_PREFIX_SIZE + KCP_HEADER_SIZE + body.length ≤ MTP_MAX_FRAME_SIZE →
        ∃ frame, buildKcpPush conv sequence body timestamp unacknowledged window = .ok frame) ∧
      ∀ frame, buildKcpPush conv sequence body timestamp unacknowledged window = .ok frame →
        parseKcpSegments frame = .ok [⟨conv % 2 ^ 32, KCP_PUSH, 0, window, timestamp % 2 ^ 32, sequence % 2 ^ 32,
          unacknowledged % 2 ^ 32, body⟩]) ∧
    ∀ (conv sequence timestamp unacknowledged : Nat) (window : Int),
      (0 ≤ window ∧ window ≤ 0xFFFF → ∃ frame, buildKcpAck conv sequence timestamp unacknowledged window = .ok frame) ∧
      ∀ frame, buildKcpAck conv sequence timestamp unacknowledged window = .ok frame →
        parseKcpSegments frame = .ok [⟨conv % 2 ^ 32, KCP_ACK, 0, window.toNat, timestamp % 2 ^ 32, sequence % 2 ^ 32,
          unacknowledged % 2 ^ 32, []⟩] := by
  refine ⟨fun segments => frame_of_segments, fun frame segments h => (parseKcpSegments_pack h).2.1,
    fun frame frame' segments h h' => ?_, fun segments conversation route hne hfit hsame hroute => ⟨fun hlimit => ?_,
    fun hlimit => ?_⟩, fun frame segments conversation => unwrap_other,
    fun conv sequence body timestamp unacknowledged window => ⟨fun hwindow hsize => ?_, fun frame h => ?_⟩,
    fun conv sequence timestamp unacknowledged window => ⟨fun hwindow => ?_, fun frame h => ?_⟩⟩
  · rw [← (parseKcpSegments_pack h).2.1, ← (parseKcpSegments_pack h').2.1]
  · have hmin : 24 ≤ (route ++ kcpPayload segments).length := by
      have hge := kcpPayload_ge hne
      rw [List.length_append]
      omega
    obtain ⟨envelope, henvelope⟩ := buildMtpFrame_of_fits (show 0x50 ≤ 0xFF by decide) hmin
      (le_trans hlimit (by decide))
    have hdrop : envelope.drop (relayOffset envelope) = kcpPayload segments := by
      have hoffset : relayOffset envelope = MTP_PREFIX_SIZE + route.length := by
        rw [relayOffset, if_pos (at_one_of_built henvelope), hroute]
        rfl
      rw [hoffset, ← List.drop_drop, (buildMtpFrame_ok henvelope).2.2.1, List.drop_left]
    obtain ⟨canonical, hcanonical, hunwrap⟩ := unwrap_built (.inr rfl) henvelope hlimit hdrop rfl hne hfit hsame
    exact ⟨envelope, canonical, henvelope, hcanonical, hunwrap⟩
  · obtain ⟨canonical, hcanonical⟩ := buildMtpFrame_of_fits (show 0x10 ≤ 0xFF by decide) (kcpPayload_ge hne)
      (le_trans hlimit (by decide))
    have hdrop : canonical.drop (relayOffset canonical) = kcpPayload segments := by
      have hother : canonical.at_ 1 ≠ 0x50 := by
        rw [at_one_of_built hcanonical]
        decide
      rw [relayOffset, if_neg hother]
      exact (buildMtpFrame_ok hcanonical).2.2.1
    obtain ⟨canonical', hcanonical', hunwrap⟩ := unwrap_built (.inl rfl) hcanonical hlimit hdrop rfl hne hfit hsame
    rw [hcanonical] at hcanonical'
    cases hcanonical'
    exact ⟨canonical, hcanonical, hunwrap⟩
  · unfold buildKcpPush
    rw [if_neg (by omega)]
    have hbody : body.length ≤ MTP_MAX_FRAME_SIZE - MTP_PREFIX_SIZE - KCP_HEADER_SIZE := by omega
    have hsmall : body.length < 2 ^ 32 := by
      simp only [MTP_MAX_FRAME_SIZE] at hsize
      omega
    obtain ⟨frame, hframe, -⟩ := kcpFrame_ok (s := ⟨conv % 2 ^ 32, KCP_PUSH, 0, window, timestamp % 2 ^ 32,
      sequence % 2 ^ 32, unacknowledged % 2 ^ 32, body⟩) (fits_of_mod (by decide) (by omega) hsmall) hbody
    exact ⟨frame, hframe⟩
  · unfold buildKcpPush at h
    split at h
    · cases h
    · exact parse_kcpFrame h (fits_of_mod (by decide) (by omega))
  · unfold buildKcpAck
    rw [if_neg (by omega)]
    obtain ⟨frame, hframe, -⟩ := kcpFrame_ok (s := ⟨conv % 2 ^ 32, KCP_ACK, 0, window.toNat, timestamp % 2 ^ 32,
      sequence % 2 ^ 32, unacknowledged % 2 ^ 32, []⟩) (fits_of_mod (by decide) (by omega) (by decide)) (Nat.zero_le _)
    exact ⟨frame, hframe⟩
  · unfold buildKcpAck at h
    split at h
    · cases h
    · exact parse_kcpFrame h (fits_of_mod (by decide) (by omega))

end CamGuard.Media
