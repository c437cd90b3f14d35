/-
The credit a receiver announces is one it honours.

The announced limit is `next + window`, with a window that shrinks by every
pending segment and every part of the message under assembly; admission goes
by the distance from the head, a slot kept free for the head, and the bytes.
What ties them is the start of the message under assembly, `next - parts`: no
announcement is ever past that start plus 128, the start never moves back, and
so the positions a peer can have sent fit the 128 slots from the start on.

A fragment that arrives again after the receiver has moved on by more than
`2^31` is taken for one from the future and turned away: the last theorem
leads a receiver that far.
-/
import CamGuard.Media.Credit
import Mathlib.Algebra.Order.BigOperators.Group.List

namespace CamGuard.Media

variable {cfg : KcpConfig} {stream : KcpStream cfg.maxSegments}

/-! ## Room in the buffer -/

/-- The parts held are a proper beginning of one message. -/
theorem Place.parts_within {messages : List (List Bytes)} {delivered : List Bytes} {n : Nat} {parts : List Bytes}
    {remaining : Option Nat} (h : Place messages delivered n parts remaining) :
    parts = [] ∨ ∃ m ∈ messages, parts.length < m.length ∧ ∀ body ∈ parts, body ∈ m := by
  obtain ⟨done, rest, todo, -, -, ⟨hnil, -⟩ | ⟨-, -, hrest, rfl⟩⟩ := h
  · exact .inl hnil
  · have := List.length_pos_iff.mpr hrest
    refine .inr ⟨parts ++ rest, by simp, ?_, ?_⟩
    · rw [List.length_append]
      omega
    · intro body hbody
      exact List.mem_append_left rest hbody

theorem Assembly.parts_lt {k : KcpReceiver} {delivered : List Bytes} {acked : List Nat} {n : Nat}
    (h : Assembly cfg stream k delivered acked n) : k.parts.length < cfg.maxSegments := by
  have := cfg.segments_range
  rcases h.place.parts_within with hnil | ⟨m, hm, hlt, -⟩
  · rw [hnil, List.length_nil]
    omega
  · have := (stream.fragmented m hm).2
    omega

/-- The pending segments are among the positions one can name. -/
theorem Assembly.size_le {k : KcpReceiver} {delivered : List Bytes} {acked : List Nat} {n : Nat}
    (h : Assembly cfg stream k delivered acked n) {positions : List Nat}
    (hpos : ∀ i ∈ acked, n ≤ i → (∃ seg, k.pending.get? (cfg.number i) = some seg) → i ∈ positions) :
    k.pending.size ≤ positions.length := by
  have hlen : (positions.map cfg.number).length = positions.length := List.length_map ..
  rw [← hlen]
  refine Dict.size_le_of_keys fun key hkey => ?_
  obtain ⟨seg, hseg⟩ := Dict.mem_keys.mp hkey
  obtain ⟨i, hi, hlo, -, rfl, -⟩ := h.held _ _ hseg
  exact List.mem_map_of_mem (hpos i hi hlo ⟨seg, hseg⟩)

/-- With every acknowledged position within 128 of the start of the message
under assembly, there is room for the head, and for one more segment ahead of
it that is not pending yet. -/
theorem Assembly.room {k : KcpReceiver} {delivered : List Bytes} {acked : List Nat} {n : Nat}
    (h : Assembly cfg stream k delivered acked n) (hend : k.pending.get? k.nextSequence = none)
    (hlimit : ∀ i ∈ acked, i < n - k.parts.length + 128) :
    k.pending.size + k.parts.length < 128 ∧
      ∀ i, n < i → i < n - k.parts.length + 128 → k.pending.get? (cfg.number i) = none →
        k.pending.size + k.parts.length + 1 < 128 := by
  have hparts := h.parts_le
  -- The positions after the head, up to the limit.
  set ahead := List.range' (n + 1) (n - k.parts.length + 128 - (n + 1)) with hahead
  have hmem : ∀ i ∈ acked, n ≤ i → (∃ seg, k.pending.get? (cfg.number i) = some seg) → i ∈ ahead := by
    intro i hi hlo hseg
    have hne : i ≠ n := by
      rintro rfl
      obtain ⟨seg, hseg⟩ := hseg
      rw [← h.next_eq, hend] at hseg
      cases hseg
    have := hlimit i hi
    rw [hahead, List.mem_range'_1]
    omega
  have hlen : ahead.length = n - k.parts.length + 128 - (n + 1) := List.length_range'
  constructor
  · have hsize := h.size_le hmem
    have := h.parts_lt
    have := cfg.segments_range
    omega
  · intro i hlo hhi hnone
    have hin : i ∈ ahead := by
      rw [hahead, List.mem_range'_1]
      omega
    have hsize : k.pending.size ≤ (ahead.erase i).length := by
      refine h.size_le fun j hj hjlo hseg => ?_
      have hne : j ≠ i := by
        rintro rfl
        obtain ⟨seg, hseg⟩ := hseg
        rw [hnone] at hseg
        cases hseg
      exact (List.mem_erase_of_ne hne).mpr (hmem j hj hjlo hseg)
    rw [List.length_erase_of_mem hin, hlen] at hsize
    omega

/-- Every body fits one MTP frame. -/
def KcpStream.Fits (stream : KcpStream cfg.maxSegments) : Prop :=
  ∀ m ∈ stream.messages, ∀ body ∈ m, body.length ≤ KCP_MAX_BODY

theorem KcpStream.Fits.body_le (hfits : stream.Fits) {i : Nat} {f : Nat × Bytes}
    (h : stream.fragments[i]? = some f) : f.2.length ≤ KCP_MAX_BODY := by
  obtain ⟨m, hm, hf⟩ := List.mem_flatMap.mp (List.mem_of_getElem? h)
  exact hfits m hm f.2 (mem_fragmentsOf hf).2

theorem sum_length_le {bodies : List Bytes} {c : Nat} (h : ∀ body ∈ bodies, body.length ≤ c) :
    (bodies.map List.length).sum ≤ bodies.length * c := by
  have := List.sum_le_card_nsmul (bodies.map List.length) c (by simpa using h)
  simpa using this

/-- The bytes held are at most a full body for each slot taken. -/
theorem Assembly.bytes_le {k : KcpReceiver} {delivered : List Bytes} {acked : List Nat} {n : Nat}
    (h : Assembly cfg stream k delivered acked n) (hfits : stream.Fits) :
    k.bufferedBytes ≤ ((k.pending.size + k.parts.length) * KCP_MAX_BODY : Nat) := by
  have hpending : k.pending.total (·.body.length) ≤ k.pending.size * KCP_MAX_BODY := by
    have hbodies : ∀ body ∈ k.pending.values.map KcpSegment.body, body.length ≤ KCP_MAX_BODY := by
      intro body hbody
      obtain ⟨seg, hseg, rfl⟩ := List.mem_map.mp hbody
      obtain ⟨⟨key, seg'⟩, hentry, rfl⟩ := List.mem_map.mp hseg
      obtain ⟨i, -, -, -, -, hfrag⟩ := h.held key seg' (Dict.get?_eq_some.mpr hentry)
      exact hfits.body_le hfrag
    simpa [Dict.total, Dict.values, Dict.size, List.map_map, Function.comp_def] using sum_length_le hbodies
  have hparts : (k.parts.map List.length).sum ≤ k.parts.length * KCP_MAX_BODY := by
    refine sum_length_le fun body hbody => ?_
    rcases h.place.parts_within with hnil | ⟨m, hm, -, hsub⟩
    · rw [hnil] at hbody
      cases hbody
    · exact hfits m hm body (hsub body hbody)
  rw [h.bytes, Nat.add_mul]
  exact Int.ofNat_le.mpr (Nat.add_le_add hpending hparts)

/-! ## The answers -/

theorem KcpConfig.conv_lt (cfg : KcpConfig) : cfg.conv < 2 ^ 32 := Nat.lt_succ_of_le cfg.conv_le

theorem position_self (cfg : KcpConfig) (n : Nat) : cfg.position n (cfg.number n) = n := by
  have : Serial.distance (cfg.number n) (cfg.number n) = 0 := by simp [Serial.distance]
  rw [KcpConfig.position, this, Nat.sub_zero]

/-- An answer that carries the receiver's number and window. -/
def answer (cfg : KcpConfig) (command n w timestamp sequence : Nat) : KcpSegment where
  conv := cfg.conv
  command := command
  fragment := 0
  window := w
  timestamp := timestamp
  sequence := sequence
  unacknowledged := cfg.number n
  body := []

/-- It can be built, and it reads back: it allows `w` positions from `n` on. -/
theorem answer_ok (cfg : KcpConfig) {command n w timestamp sequence : Nat} (hcommand : command < 2 ^ 8)
    (hw : w < 2 ^ 16) (hts : timestamp < 2 ^ 32) (hseq : sequence < 2 ^ 32) :
    ∃ frame, kcpFrame (answer cfg command n w timestamp sequence) = .ok frame ∧
      parseKcpSegments frame = .ok [answer cfg command n w timestamp sequence] ∧
      grantOf cfg n frame = some (n + w) := by
  have hfits : (answer cfg command n w timestamp sequence).Fits :=
    ⟨cfg.conv_lt, hcommand, by simp [answer], hw, hts, hseq, Serial.number_lt _ _, by simp [answer]⟩
  obtain ⟨frame, hframe, hparse⟩ := kcpFrame_ok hfits (by simp [answer])
  refine ⟨frame, hframe, hparse, ?_⟩
  simp only [grantOf, hparse]
  rw [answer, position_self]

/-- The window of an open receiver allows nothing past the start of the
message under assembly plus 128. -/
theorem Assembly.window {k : KcpReceiver} {delivered : List Bytes} {acked : List Nat} {n : Nat}
    (h : Assembly cfg stream k delivered acked n) :
    ∃ w : Nat, k.availableWindow = w ∧ w ≤ 128 ∧ n + w ≤ n - k.parts.length + 128 := by
  have := h.slots
  have := h.parts_le
  have := cfg.segments_range
  refine ⟨cfg.maxSegments - k.pending.size - k.parts.length, ?_, by omega, by omega⟩
  simp only [KcpReceiver.availableWindow, h.opened, h.config_eq, Bool.false_eq_true, if_false]
  omega

theorem buildKcpAck_eq (cfg : KcpConfig) {n w : Nat} (hw : w ≤ 0xFFFF) (sequence timestamp : Nat) :
    buildKcpAck cfg.conv sequence timestamp (cfg.number n) w =
      kcpFrame (answer cfg KCP_ACK n w (timestamp % 2 ^ 32) (sequence % 2 ^ 32)) := by
  have hconv : cfg.conv % 2 ^ 32 = cfg.conv := Nat.mod_eq_of_lt cfg.conv_lt
  have huna : cfg.number n % 2 ^ 32 = cfg.number n := Nat.mod_eq_of_lt (Serial.number_lt _ _)
  rw [buildKcpAck, if_neg (by omega), hconv, huna, Int.toNat_natCast]
  rfl

theorem buildWindowReport_eq {n w : Nat} (hw : w ≤ 0xFFFF) :
    buildWindowReport cfg.conv (cfg.number n) w = kcpFrame (answer cfg KCP_WINS n w 0 0) := by
  have hconv := cfg.conv_lt
  have huna : cfg.number n < 2 ^ 32 := Serial.number_lt _ _
  rw [buildWindowReport, if_neg (by omega), Int.toNat_natCast]
  rfl

/-! ## One segment -/

/-! ## The loop over a frame -/

section

variable {k k' k'' : KcpReceiver} {turn : KcpClock × KcpSegment} {rest : List (KcpClock × KcpSegment)}
  {batch more : MediaReceiveBatch} {e : MediaFault}

theorem receiveSegments_error (h : (receiveOne k turn.1 turn.2).1 = .error e) (rest : List (KcpClock × KcpSegment)) :
    (receiveSegments k (turn :: rest)).1 = .error e := by
  rw [receiveSegments]
  cases hone : receiveOne k turn.1 turn.2 with
  | mk outcome k' =>
    rw [hone] at h
    rw [show outcome = .error e from h]

theorem receiveSegments_error_of_ok (hone : receiveOne k turn.1 turn.2 = (.ok batch, k'))
    (hmore : (receiveSegments k' rest).1 = .error e) : (receiveSegments k (turn :: rest)).1 = .error e := by
  rw [receiveSegments, hone]
  simp only
  cases hrest : receiveSegments k' rest with
  | mk outcome k'' =>
    rw [hrest] at hmore
    rw [show outcome = .error e from hmore]

theorem receiveSegments_of_ok (hone : receiveOne k turn.1 turn.2 = (.ok batch, k'))
    (hmore : receiveSegments k' rest = (.ok more, k'')) :
    receiveSegments k (turn :: rest) = (.ok {
      acknowledgements := batch.acknowledgements ++ more.acknowledgements
      messages := batch.messages ++ more.messages }, k'') := by
  rw [receiveSegments, hone]
  simp only [hmore]

end

namespace CreditNet

/-- The invariant of the net. -/
structure Inv (cfg : KcpConfig) (stream : KcpStream cfg.maxSegments) (s : CreditNet) (delivered : List Bytes)
    (n : Nat) : Prop where
  assembly : Assembly cfg stream s.media.receiver delivered s.arrived n
  settled : s.media.receiver.pending.get? s.media.receiver.nextSequence = none
  rejected : s.media.receiver.windowRejected = 0
  sent_valid : ∀ i ∈ s.sent, i < stream.fragments.length ∧ i < n - s.media.receiver.parts.length + 128
  arrived_sent : ∀ i ∈ s.arrived, i ∈ s.sent
  grants_le : ∀ g ∈ s.grants, g ≤ n - s.media.receiver.parts.length + 128

/-- The budgets `KcpReceiver` has by default. -/
def DefaultBudgets (cfg : KcpConfig) : Prop :=
  cfg.maxSegments = DEFAULT_RECEIVE_SEGMENTS ∧ cfg.maxBytes = 256 * 1024

variable {s : CreditNet} {delivered : List Bytes} {n : Nat}

/-- A fragment the peer was allowed to send is acknowledged. -/
theorem Inv.accept_push (hdefault : DefaultBudgets cfg) (hfits : stream.Fits) (h : s.Inv cfg stream delivered n)
    {i : Nat} {seg : KcpSegment} (clock : KcpClock) (hi : i ∈ s.sent) (hseg : Carries cfg stream i seg)
    (hrecent : n ≤ i + 2 ^ 31) :
    ∃ messages k' n', s.media.receiver.accept clock seg =
        (.ok { acknowledge := true, unacknowledged := k'.nextSequence, messages := messages }, k') ∧
      Assembly cfg stream k' (delivered ++ messages) (i :: s.arrived) n' ∧
      k'.pending.get? k'.nextSequence = none ∧
      n - s.media.receiver.parts.length ≤ n' - k'.parts.length ∧ k'.windowRejected = 0 := by
  obtain ⟨hsegments, hbytes⟩ := hdefault
  have hparts := h.assembly.parts_le
  have hsent := (h.sent_valid i hi).2
  have hbody := hfits.body_le hseg.fragment_eq
  obtain ⟨hroom, hroomAhead⟩ := h.assembly.room h.settled fun j hj => (h.sent_valid j (h.arrived_sent j hj)).2
  have hheld := h.assembly.bytes_le hfits
  have hout := accept_spec clock h.assembly h.settled hseg hrecent (by omega)
  generalize s.media.receiver.accept clock seg = r at hout
  simp only [DEFAULT_RECEIVE_SEGMENTS] at hsegments
  cases hout with
  | oversize hbig =>
    simp only at hbody
    omega
  | budget hnew hlo hhi hfull =>
    exfalso
    rcases hfull with ⟨-, hslots⟩ | hmany
    · omega
    · rw [hbytes] at hmany
      simp only [KCP_MAX_BODY, MTP_MAX_FRAME_SIZE, MTP_PREFIX_SIZE, KCP_HEADER_SIZE] at hbody hheld
      omega
  | future hfar =>
    exfalso
    rcases hfar with hfar | ⟨hlo, hnone, hfull⟩
    · omega
    · have := hroomAhead i hlo hsent (hseg.sequence_eq ▸ hnone)
      omega
  | acknowledged messages k' n' h' hend hstart hrej =>
    exact ⟨messages, k', n', rfl, h', hend, hstart, hrej.trans h.rejected⟩

/-- What one segment leads to: one answer, one grant, and the net after it. -/
def Turn (cfg : KcpConfig) (stream : KcpStream cfg.maxSegments) (s : CreditNet) (item : KcpClock × CreditItem) :
    Prop :=
  ∃ frame messages k', receiveOne s.media.receiver item.1 (item.2.segment cfg stream) =
      (.ok { acknowledgements := [frame], messages := messages }, k') ∧ Answers cfg item.2 frame ∧
    (s.take cfg stream item).media = { s.media with receiver := k' } ∧
    ∃ delivered n, (s.take cfg stream item).Inv cfg stream delivered n

theorem isProbe_push (i window timestamp una conv : Nat) :
    ((CreditItem.push i window timestamp una).segment cfg stream).isProbe conv = false := by
  simp [KcpSegment.isProbe, CreditItem.segment, KCP_PUSH, KCP_WASK]

theorem take_eq (item : KcpClock × CreditItem) {frame : Bytes} {messages : List Bytes} {k' : KcpReceiver}
    (hone : receiveOne s.media.receiver item.1 (item.2.segment cfg stream) =
      (.ok { acknowledgements := [frame], messages := messages }, k')) {n g : Nat}
    (hn : Serial.contiguous (item.2.positions ++ s.arrived) = n) (hg : grantOf cfg n frame = some g) :
    s.take cfg stream item = { s with
      media := { s.media with receiver := k' }
      arrived := item.2.positions ++ s.arrived
      grants := g :: s.grants } := by
  simp only [take, hone, hn, List.filterMap_cons, hg, List.filterMap_nil, List.cons_append, List.nil_append]

theorem Inv.push_turn (hdefault : DefaultBudgets cfg) (hfits : stream.Fits) (h : s.Inv cfg stream delivered n)
    {clock : KcpClock} {i window timestamp una : Nat} (hi : i ∈ s.sent) (hrecent : n ≤ i + 2 ^ 31)
    (hfresh : ¬ s.media.receiver.Expired clock.expire) :
    s.Turn cfg stream (clock, .push i window timestamp una) := by
  have hcarries : Carries cfg stream i ((CreditItem.push i window timestamp una).segment cfg stream) :=
    KcpTrace.Arrival.carries (a := ⟨i, window, timestamp, una, clock⟩) (h.sent_valid i hi).1
  obtain ⟨messages, k', n', haccept, h', hend, hstart, hrej⟩ :=
    h.accept_push hdefault hfits clock hi hcarries hrecent
  obtain ⟨w, hwindow, hw, hg⟩ := h'.window
  obtain ⟨frame, hframe, hparse, hgrant⟩ := answer_ok cfg (show KCP_ACK < 2 ^ 8 by decide) (show w < 2 ^ 16 by omega)
    (Nat.mod_lt timestamp (by decide)) (Nat.mod_lt (cfg.number i) (by decide))
  have hack : buildKcpAck cfg.conv (cfg.number i) timestamp k'.nextSequence k'.availableWindow = .ok frame := by
    rw [hwindow, h'.next_eq, buildKcpAck_eq cfg (by omega), hframe]
  have hone : receiveOne s.media.receiver clock ((CreditItem.push i window timestamp una).segment cfg stream) =
      (.ok { acknowledgements := [frame], messages := messages }, k') := by
    have hreceive : s.media.receiver.receive clock ((CreditItem.push i window timestamp una).segment cfg stream) =
        (.ok { acknowledge := true, unacknowledged := k'.nextSequence, messages := messages }, k') := by
      simp only [KcpReceiver.receive, KcpReceiver.expire, h.assembly.opened, hfresh, Bool.false_eq_true, if_false,
        haccept]
    rw [receiveOne, isProbe_push, if_neg (by decide), hreceive]
    simp only [if_true]
    have hack' : buildKcpAck ((CreditItem.push i window timestamp una).segment cfg stream).conv
        ((CreditItem.push i window timestamp una).segment cfg stream).sequence
        ((CreditItem.push i window timestamp una).segment cfg stream).timestamp
        k'.nextSequence k'.availableWindow = .ok frame := hack
    rw [hack']
  have htake := take_eq (clock, .push i window timestamp una) hone (h'.contiguous_eq hend) hgrant
  refine ⟨frame, messages, k', hone, ⟨_, hparse, rfl, rfl, ?_, rfl⟩, by rw [htake], delivered ++ messages, n', ?_⟩
  · exact Nat.mod_eq_of_lt (Serial.number_lt _ _)
  · rw [htake]
    refine ⟨h', hend, hrej, ?_, ?_, ?_⟩
    · intro j hj
      have := h.sent_valid j hj
      exact ⟨this.1, by simp only; omega⟩
    · intro j hj
      rcases List.mem_cons.mp hj with rfl | hj
      · exact hi
      · exact h.arrived_sent j hj
    · intro g' hg'
      rcases List.mem_cons.mp hg' with rfl | hg'
      · exact hg
      · have := h.grants_le g' hg'
        simp only
        omega

theorem Inv.probe_turn (h : s.Inv cfg stream delivered n) (clock : KcpClock)
    (window timestamp sequence una : Nat) :
    s.Turn cfg stream (clock, .probe window timestamp sequence una) := by
  obtain ⟨w, hwindow, hw, hg⟩ := h.assembly.window
  obtain ⟨frame, hframe, hparse, hgrant⟩ := answer_ok cfg (show KCP_WINS < 2 ^ 8 by decide) (show w < 2 ^ 16 by omega)
    (show 0 < 2 ^ 32 by decide) (show 0 < 2 ^ 32 by decide)
  have hreport : buildWindowReport cfg.conv s.media.receiver.nextSequence s.media.receiver.availableWindow =
      .ok frame := by
    rw [hwindow, h.assembly.next_eq, buildWindowReport_eq (by omega), hframe]
  have hone : receiveOne s.media.receiver clock ((CreditItem.probe window timestamp sequence una).segment cfg stream) =
      (.ok { acknowledgements := [frame], messages := [] }, s.media.receiver) := by
    have hprobe : ((CreditItem.probe window timestamp sequence una).segment cfg stream).isProbe
        s.media.receiver.config.conv = true := by
      simp [KcpSegment.isProbe, CreditItem.segment, h.assembly.config_eq]
    have hreport' : buildWindowReport ((CreditItem.probe window timestamp sequence una).segment cfg stream).conv
        s.media.receiver.nextSequence s.media.receiver.availableWindow = .ok frame := hreport
    rw [receiveOne, hprobe, if_pos rfl, hreport']
  have htake := take_eq (clock, .probe window timestamp sequence una) hone
    (h.assembly.contiguous_eq h.settled) hgrant
  refine ⟨frame, [], s.media.receiver, hone, ⟨_, hparse, rfl, rfl⟩, by rw [htake], delivered, n, ?_⟩
  rw [htake]
  refine ⟨h.assembly, h.settled, h.rejected, h.sent_valid, h.arrived_sent, ?_⟩
  intro g' hg'
  rcases List.mem_cons.mp hg' with rfl | hg'
  · exact hg
  · exact h.grants_le g' hg'

/-- The peer may repeat what it has sent while the receiver has not gone more
than half the circle past it. -/
def Recent (consumed position : Nat) : Prop := consumed ≤ position + 2 ^ 31

theorem Inv.turn (hdefault : DefaultBudgets cfg) (hfits : stream.Fits) (h : s.Inv cfg stream delivered n)
    {item : KcpClock × CreditItem} (hallow : s.Allows Recent item.2)
    (hfresh : ∀ facts, (receiveOne s.media.receiver item.1 (item.2.segment cfg stream)).1 ≠
      .error (.kcp (.expired facts))) : s.Turn cfg stream item := by
  obtain ⟨clock, item⟩ := item
  cases item with
  | push i window timestamp una =>
    obtain ⟨hi, hrecent⟩ := hallow
    rw [consumed, h.assembly.contiguous_eq h.settled] at hrecent
    refine h.push_turn hdefault hfits hi hrecent fun hexp => ?_
    refine hfresh s.media.receiver.facts ?_
    simp only [receiveOne, isProbe_push, KcpReceiver.receive, KcpReceiver.expire, h.assembly.opened, hexp,
      Bool.false_eq_true, if_false, if_true]
  | probe window timestamp sequence una => exact h.probe_turn clock window timestamp sequence una

/-! ## One frame -/

def segments (cfg : KcpConfig) (stream : KcpStream cfg.maxSegments) (items : List (KcpClock × CreditItem)) :
    List (KcpClock × KcpSegment) := items.map fun item => (item.1, item.2.segment cfg stream)

theorem Inv.turns (hdefault : DefaultBudgets cfg) (hfits : stream.Fits) (items : List (KcpClock × CreditItem)) :
    ∀ {s : CreditNet} {delivered : List Bytes} {n : Nat}, s.Inv cfg stream delivered n →
      AllowsAll cfg stream Recent s items →
      (∀ facts, (receiveSegments s.media.receiver (segments cfg stream items)).1 ≠ .error (.kcp (.expired facts))) →
      ∃ batch k', receiveSegments s.media.receiver (segments cfg stream items) = (.ok batch, k') ∧
        List.Forall₂ (Answers cfg) (items.map Prod.snd) batch.acknowledgements ∧
        (s.takeAll cfg stream items).media = { s.media with receiver := k' } ∧
        ∃ delivered n, (s.takeAll cfg stream items).Inv cfg stream delivered n := by
  induction items with
  | nil =>
    intro s delivered n h _ _
    exact ⟨{}, s.media.receiver, rfl, .nil, rfl, delivered, n, h⟩
  | cons item items ih =>
    intro s delivered n h hallow hfresh
    obtain ⟨hone, hrest⟩ := hallow
    have hturn : s.Turn cfg stream item := by
      refine h.turn hdefault hfits hone fun facts hexp => hfresh facts ?_
      rw [segments, List.map_cons]
      exact receiveSegments_error hexp _
    obtain ⟨frame, messages, k', hcall, hanswer, hmedia, delivered', n', h'⟩ := hturn
    have hk' : (s.take cfg stream item).media.receiver = k' := by rw [hmedia]
    have hfresh' : ∀ facts, (receiveSegments (s.take cfg stream item).media.receiver (segments cfg stream items)).1 ≠
        .error (.kcp (.expired facts)) := by
      intro facts hexp
      refine hfresh facts ?_
      rw [hk'] at hexp
      rw [segments, List.map_cons]
      exact receiveSegments_error_of_ok hcall hexp
    obtain ⟨batch, k'', hmore, hall, hmedia', hinv⟩ := ih h' hrest hfresh'
    rw [hk'] at hmore
    refine ⟨_, k'', receiveSegments_of_ok hcall hmore, ?_, ?_, hinv⟩
    · exact .cons hanswer hall
    · rw [takeAll, List.foldl_cons]
      rw [takeAll, hmedia] at hmedia'
      exact hmedia'

theorem Frame.segments_timed (f : Frame cfg stream) :
    (f.items.map (CreditItem.segment cfg stream)).mapIdx (fun j segment => (f.clocks j, segment)) =
      segments cfg stream f.timed := by
  refine List.ext_getElem? fun j => ?_
  simp [segments, Frame.timed, Function.comp_def]

/-- The call a frame leads to is the loop over its segments. -/
theorem Inv.call_eq (h : s.Inv cfg stream delivered n) {f : Frame cfg stream} (hf : f.Admitted Recent s) :
    f.call s = ((receiveSegments s.media.receiver (segments cfg stream f.timed)).1,
      { s.media with receiver := (receiveSegments s.media.receiver (segments cfg stream f.timed)).2 }) := by
  have hlen := parseKcpSegments_length f.parses
  have hexpire : s.media.receiver.expire f.now = .ok () := by
    unfold KcpReceiver.expire
    rw [h.assembly.opened, if_neg (by decide)]
    split
    · next hexp =>
      refine absurd ?_ (hf.2 s.media.receiver.facts)
      simp only [Frame.call, MediaReceiver.receive, KcpReceiver.expire, h.assembly.opened, hexp, Bool.false_eq_true,
        if_false, if_true]
    · rfl
  rw [Frame.call, MediaReceiver.receive, hexpire]
  simp only [f.parses, f.segments_timed]
  rw [if_neg (by simp; omega)]

theorem Inv.frame (hdefault : DefaultBudgets cfg) (hfits : stream.Fits) (h : s.Inv cfg stream delivered n)
    {f : Frame cfg stream} (hf : f.Admitted Recent s) :
    (∃ batch, (f.call s).1 = .ok batch ∧ List.Forall₂ (Answers cfg) f.items batch.acknowledgements) ∧
      ∃ delivered n, ({ s.takeAll cfg stream f.timed with media := (f.call s).2 } : CreditNet).Inv cfg stream
        delivered n := by
  have hcall := h.call_eq hf
  have hfresh : ∀ facts, (receiveSegments s.media.receiver (segments cfg stream f.timed)).1 ≠
      .error (.kcp (.expired facts)) := by
    intro facts hexp
    refine hf.2 facts ?_
    rw [hcall]
    exact hexp
  obtain ⟨batch, k', hsegments, hall, hmedia, hinv⟩ := Inv.turns hdefault hfits f.timed h hf.1 hfresh
  have hitems : f.timed.map Prod.snd = f.items := by
    refine List.ext_getElem? fun j => ?_
    simp [Frame.timed, Function.comp_def]
  rw [hitems] at hall
  rw [hcall, hsegments]
  refine ⟨⟨batch, rfl, hall⟩, ?_⟩
  rw [← hmedia]
  exact hinv

/-! ## Whole runs -/

theorem Reachable.inv (hdefault : DefaultBudgets cfg) (hfits : stream.Fits) {peer : Peer}
    (h : Reachable cfg stream peer Recent s) : ∃ delivered n, s.Inv cfg stream delivered n := by
  induction h with
  | new =>
    refine ⟨[], 0, Assembly.new cfg stream, rfl, rfl, by simp [CreditNet.new], by simp [CreditNet.new], ?_⟩
    simp [CreditNet.new, KcpReceiver.new]
  | send _ hi hg ih =>
    obtain ⟨delivered, n, h⟩ := ih
    obtain ⟨g, hg, hlt⟩ := hg
    refine ⟨delivered, n, h.assembly, h.settled, h.rejected, ?_, ?_, h.grants_le⟩
    · intro j hj
      rcases List.mem_cons.mp hj with rfl | hj
      · have := h.grants_le g hg
        exact ⟨hi, by simp only; omega⟩
      · exact h.sent_valid j hj
    · exact fun j hj => List.mem_cons_of_mem _ (h.arrived_sent j hj)
  | deliver _ hf ih =>
    obtain ⟨delivered, n, h⟩ := ih
    exact (h.frame hdefault hfits hf).2

/-- **The announced credit is honoured.** With the default budgets, whatever
the peer sends within some announcement and in whatever order it arrives, a
fragment that the receiver has not left more than `2^31` behind is consumed or
pending, every segment of every frame is answered, no segment has ever been
turned away and no call fails. -/
theorem credit_honoured {cfg : KcpConfig} {stream : KcpStream cfg.maxSegments} {peer : Peer} {s : CreditNet}
    (hdefault : DefaultBudgets cfg) (hfits : stream.Fits) (h : Reachable cfg stream peer Recent s) :
    s.media.receiver.closed = false ∧ s.media.receiver.windowRejected = 0 ∧
    (∀ i ∈ s.arrived, i < s.consumed ∨ ∃ seg, s.media.receiver.pending.get? (cfg.number i) = some seg ∧
      stream.fragments[i]? = some (seg.fragment, seg.body)) ∧
    ∀ f : Frame cfg stream, f.Admitted Recent s →
      ∃ batch, (f.call s).1 = .ok batch ∧ List.Forall₂ (Answers cfg) f.items batch.acknowledgements := by
  obtain ⟨delivered, n, hinv⟩ := h.inv hdefault hfits
  refine ⟨hinv.assembly.opened, hinv.rejected, ?_, ?_⟩
  · intro i hi
    rw [consumed, hinv.assembly.contiguous_eq hinv.settled]
    exact KcpTrace.kept_fragment hinv.assembly hi
  · intro f hf
    exact (hinv.frame hdefault hfits hf).1

/-! ## A repetition from too far back -/

theorem plain_conv : 7 ≤ KCP_MASK := by decide

def plainConfig : KcpConfig := .ofConv 7 plain_conv

/-- `count` empty messages, one fragment each. -/
def emptyStream (count : Nat) : KcpStream plainConfig.maxSegments where
  messages := List.replicate count [[]]
  fragmented := by
    intro m hm
    obtain rfl := List.eq_of_mem_replicate hm
    exact ⟨by simp, by decide⟩

theorem fragments_emptyStream (count : Nat) : (emptyStream count).fragments = List.replicate count (0, []) := by
  change (List.replicate count [[]]).flatMap fragmentsOf = _
  induction count with
  | zero => rfl
  | succ count ih => rw [List.replicate_succ, List.flatMap_cons, ih]; rfl

theorem fits_emptyStream (count : Nat) : (emptyStream count).Fits := by
  intro m hm body hbody
  obtain rfl := List.eq_of_mem_replicate hm
  obtain rfl : body = [] := by simpa using hbody
  exact Nat.zero_le _

/-- A receiver that has consumed `n` segments and holds none. -/
def idle (n : Nat) : KcpReceiver := { KcpReceiver.new plainConfig with nextSequence := plainConfig.number n }

def zeroClock : KcpClock := ⟨0, 0, 0⟩

theorem segment_emptyStream {count i : Nat} (hi : i < count) (window timestamp una : Nat) :
    (CreditItem.push i window timestamp una).segment plainConfig (emptyStream count) =
      { conv := 7
        command := KCP_PUSH
        fragment := 0
        window := window
        timestamp := timestamp
        sequence := plainConfig.number i
        unacknowledged := una
        body := [] } := by
  simp only [CreditItem.segment, fragments_emptyStream, List.getD_eq_getElem?_getD, List.getElem?_replicate, hi,
    if_true, Option.getD_some]
  rfl

theorem accept_idle {seg : KcpSegment} {n : Nat} (hconv : seg.conv = 7) (hcommand : seg.command = KCP_PUSH)
    (hfragment : seg.fragment = 0) (hseq : seg.sequence = plainConfig.number n) (hbody : seg.body = []) :
    (idle n).receive zeroClock seg =
      (.ok { acknowledge := true, unacknowledged := plainConfig.number (n + 1), messages := [[]] }, idle (n + 1)) := by
  have hmask : ¬ KCP_MASK < plainConfig.number n := by
    have : plainConfig.number n < 2 ^ 32 := Serial.number_lt _ _
    simp only [KCP_MASK]
    omega
  have hdistance : Serial.distance (plainConfig.number n) (plainConfig.number n) = 0 := by simp [Serial.distance]
  have hnext : (plainConfig.number n + 1) % 2 ^ 32 = plainConfig.number (n + 1) := Serial.number_succ _ _
  have hclear : ((∅ : Dict Nat KcpSegment).set (plainConfig.number n) seg).erase (plainConfig.number n) = ∅ := by
    apply Dict.ext
    simp only [Dict.erase, Dict.set_of_none (Dict.get?_empty (plainConfig.number n)) seg]
    simp [EmptyCollection.emptyCollection, Dict.empty]
  have hsize : ((∅ : Dict Nat KcpSegment).set (plainConfig.number n) seg).size = 1 := Dict.size_set_of_none rfl seg
  have hget : ((∅ : Dict Nat KcpSegment).set (plainConfig.number n) seg).get? (plainConfig.number n) = some seg := by
    rw [Dict.get?_set, if_pos rfl]
  have hexpire : (idle n).expire zeroClock.expire = .ok () := by
    simp [KcpReceiver.expire, idle, KcpReceiver.new, KcpReceiver.Expired]
  rw [KcpReceiver.receive, hexpire]
  simp only [KcpReceiver.accept, idle, KcpReceiver.new, hconv, hcommand, hfragment, hseq, hbody, hdistance,
    KcpReceiver.assemble, KcpReceiver.drain, hsize, hget, hclear, hnext, Dict.get?_empty]
  have hlimits : plainConfig.conv = 7 ∧ plainConfig.maxSegments = 128 ∧ plainConfig.maxBytes = 262144 :=
    ⟨rfl, rfl, rfl⟩
  simp [hlimits, hmask, Except.map]

theorem single_frame {count i : Nat} (hi : i < count) :
    ∃ f : Frame plainConfig (emptyStream count), f.clocks = (fun _ => zeroClock) ∧
      f.items = [.push i 0 0 0] := by
  have hfits : ((CreditItem.push i 0 0 0).segment plainConfig (emptyStream count)).Fits := by
    rw [segment_emptyStream hi]
    simp only [KcpSegment.Fits, List.length_nil]
    exact ⟨by decide, by decide, by decide, by decide, by decide, Serial.number_lt _ _, by decide, by decide⟩
  obtain ⟨wire, -, hparse⟩ := kcpFrame_ok hfits (by rw [segment_emptyStream hi]; exact Nat.zero_le _)
  exact ⟨⟨0, fun _ => zeroClock, wire, [.push i 0 0 0], hparse⟩, rfl, rfl⟩

/-- The call such a frame leads to, on an idle receiver. -/
theorem call_single {count i n : Nat} {f : Frame plainConfig (emptyStream count)} {peer : Peer} {s : CreditNet}
    (hclocks : f.clocks = fun _ => zeroClock) (hitems : f.items = [.push i 0 0 0])
    (hs : s.media = ⟨peer, idle n⟩) :
    f.call s = ((receiveSegments (idle n)
        [(zeroClock, (CreditItem.push i 0 0 0).segment plainConfig (emptyStream count))]).1,
      ⟨peer, (receiveSegments (idle n)
        [(zeroClock, (CreditItem.push i 0 0 0).segment plainConfig (emptyStream count))]).2⟩) := by
  have hlen := parseKcpSegments_length f.parses
  have hexpire : (idle n).expire f.now = .ok () := by
    simp [KcpReceiver.expire, idle, KcpReceiver.new, KcpReceiver.Expired]
  rw [Frame.call, hs, MediaReceiver.receive]
  simp only [hexpire, f.parses]
  rw [if_neg (by simp; omega), hitems, hclocks]
  rfl

theorem receiveOne_idle {count n : Nat} (hn : n < count) :
    ∃ frame, receiveOne (idle n) zeroClock ((CreditItem.push n 0 0 0).segment plainConfig (emptyStream count)) =
        (.ok { acknowledgements := [frame], messages := [[]] }, idle (n + 1)) ∧
      grantOf plainConfig (n + 1) frame = some (n + 1 + 128) := by
  have hwindow : (idle (n + 1)).availableWindow = (128 : Nat) := rfl
  obtain ⟨frame, hframe, -, hgrant⟩ := answer_ok plainConfig (n := n + 1) (show KCP_ACK < 2 ^ 8 by decide)
    (show 128 < 2 ^ 16 by decide) (Nat.mod_lt 0 (by decide)) (Nat.mod_lt (plainConfig.number n) (by decide))
  refine ⟨frame, ?_, hgrant⟩
  rw [receiveOne, isProbe_push, if_neg (by decide), segment_emptyStream hn, accept_idle rfl rfl rfl rfl rfl]
  have hack := (buildKcpAck_eq plainConfig (n := n + 1) (show 128 ≤ 0xFFFF by decide) (plainConfig.number n) 0).trans
    hframe
  have hconv : plainConfig.conv = 7 := rfl
  rw [hconv] at hack
  simp only [if_true, hwindow, hack]

theorem reach_idle (peer : Peer) (recent : Nat → Nat → Prop) (hrecent : ∀ k, recent k k) (count : Nat) :
    ∀ k ≤ count, ∃ s, Reachable plainConfig (emptyStream count) peer recent s ∧ s.media = ⟨peer, idle k⟩ ∧
      (∀ i, i ∈ s.arrived ↔ i < k) ∧ (∀ i < k, i ∈ s.sent) ∧ ∃ g ∈ s.grants, k < g := by
  intro k
  induction k with
  | zero =>
    intro _
    refine ⟨.new peer plainConfig, .new, rfl, ?_, ?_, 128, ?_, by decide⟩
    · simp [CreditNet.new]
    · simp
    · simp [CreditNet.new]
  | succ k ih =>
    intro hk
    obtain ⟨s, hreach, hmedia, harrived, hsent, g, hg, hlt⟩ := ih (by omega)
    have hreach' := hreach.send (i := k) (by rw [fragments_emptyStream, List.length_replicate]; omega) ⟨g, hg, hlt⟩
    obtain ⟨f, hclocks, hitems⟩ := single_frame (show k < count by omega)
    have hcall := call_single (s := { s with sent := k :: s.sent }) hclocks hitems hmedia
    obtain ⟨frame, hone, hgrant⟩ := receiveOne_idle (show k < count by omega)
    have hsegments : receiveSegments (idle k)
        [(zeroClock, (CreditItem.push k 0 0 0).segment plainConfig (emptyStream count))] =
        (.ok { acknowledgements := [frame], messages := [[]] }, idle (k + 1)) := by
      simp only [receiveSegments, hone, List.append_nil]
    rw [hsegments] at hcall
    have htimed : f.timed = [(zeroClock, .push k 0 0 0)] := by
      rw [Frame.timed, hitems, hclocks]
      rfl
    have hconsumed : s.consumed = k :=
      Serial.contiguous_eq (fun i hi => (harrived i).mpr hi) (by rw [harrived]; omega)
    have hadmit : f.Admitted recent { s with sent := k :: s.sent } := by
      refine ⟨?_, fun facts => ?_⟩
      · rw [htimed]
        refine ⟨⟨List.mem_cons_self, ?_⟩, trivial⟩
        change recent s.consumed k
        rw [hconsumed]
        exact hrecent k
      · rw [hcall]
        simp
    have harrived' : ∀ i, i ∈ k :: s.arrived ↔ i < k + 1 := by
      intro i
      rw [List.mem_cons, harrived]
      omega
    have hcount : Serial.contiguous (k :: s.arrived) = k + 1 :=
      Serial.contiguous_eq (fun i hi => (harrived' i).mpr hi) (by rw [harrived']; omega)
    have htake : take plainConfig (emptyStream count) { s with sent := k :: s.sent } (zeroClock, .push k 0 0 0) = _ :=
      take_eq (zeroClock, .push k 0 0 0) (by rw [hmedia]; exact hone) hcount hgrant
    refine ⟨_, hreach'.deliver hadmit, by rw [hcall], ?_, ?_, ?_⟩
    · simp only [htimed, takeAll, List.foldl_cons, List.foldl_nil, htake]
      exact harrived'
    · simp only [htimed, takeAll, List.foldl_cons, List.foldl_nil, htake]
      intro i hi
      by_cases hik : i = k
      · rw [hik]
        exact List.mem_cons_self
      · exact List.mem_cons_of_mem k (hsent i (by omega))
    · simp only [htimed, takeAll, List.foldl_cons, List.foldl_nil, htake]
      exact ⟨k + 1 + 128, List.mem_cons_self, by omega⟩

/-- Three messages delivered, and nothing turned away. -/
theorem credit_honoured_three :
    ∃ s, Reachable plainConfig (emptyStream 3) ("camera", 1) Recent s ∧
      s.media.receiver.nextSequence = 3 ∧ s.media.receiver.windowRejected = 0 := by
  obtain ⟨s, hreach, hmedia, -⟩ := reach_idle ("camera", 1) Recent
    (fun k => show k ≤ k + 2 ^ 31 by omega) 3 3 (Nat.le_refl _)
  refine ⟨s, hreach, by rw [hmedia]; rfl, ?_⟩
  exact (credit_honoured ⟨rfl, rfl⟩ (fits_emptyStream 3) hreach).2.1

/-- The first fragment of a long stream, arriving once more after `2^31 + 1`
have been consumed: it is turned away and not acknowledged. -/
theorem credit_far_repetition :
    DefaultBudgets plainConfig ∧ (emptyStream (2 ^ 31 + 1)).Fits ∧
    ∃ s, Reachable plainConfig (emptyStream (2 ^ 31 + 1)) ("camera", 1) (fun _ _ => True) s ∧
      ∃ f : Frame plainConfig (emptyStream (2 ^ 31 + 1)), f.items = [.push 0 0 0 0] ∧
        f.Admitted (fun _ _ => True) s ∧ 0 < s.consumed ∧ (f.call s).1 = .ok {} ∧
        (f.call s).2.receiver.windowRejected = 1 := by
  refine ⟨⟨rfl, rfl⟩, fits_emptyStream _, ?_⟩
  obtain ⟨s, hreach, hmedia, harrived, hsent, -⟩ := reach_idle ("camera", 1) (fun _ _ => True)
    (fun _ => trivial) (2 ^ 31 + 1) (2 ^ 31 + 1) (Nat.le_refl _)
  obtain ⟨f, hclocks, hitems⟩ := single_frame (show 0 < 2 ^ 31 + 1 by decide)
  have hcall := call_single hclocks hitems hmedia
  have hconsumed : s.consumed = 2 ^ 31 + 1 :=
    Serial.contiguous_eq (fun i hi => (harrived i).mpr hi) (by rw [harrived]; omega)
  have hone : receiveOne (idle (2 ^ 31 + 1)) zeroClock
      ((CreditItem.push 0 0 0 0).segment plainConfig (emptyStream (2 ^ 31 + 1))) =
      (.ok {}, ((idle (2 ^ 31 + 1)).rejectFuture (plainConfig.number 0)).2) := by
    rw [receiveOne, isProbe_push, if_neg (by decide), segment_emptyStream (by decide)]
    rfl
  have hsegments : receiveSegments (idle (2 ^ 31 + 1))
      [(zeroClock, (CreditItem.push 0 0 0 0).segment plainConfig (emptyStream (2 ^ 31 + 1)))] =
      (.ok {}, ((idle (2 ^ 31 + 1)).rejectFuture (plainConfig.number 0)).2) := by
    simp only [receiveSegments, hone, List.append_nil]
  rw [hsegments] at hcall
  refine ⟨s, hreach, f, hitems, ⟨?_, fun facts => ?_⟩, by omega, by rw [hcall], by rw [hcall]; rfl⟩
  · have htimed : f.timed = [(zeroClock, .push 0 0 0 0)] := by
      rw [Frame.timed, hitems, hclocks]
      rfl
    rw [htimed]
    exact ⟨⟨hsent 0 (by decide), trivial⟩, trivial⟩
  · rw [hcall]
    simp

end CreditNet

end CamGuard.Media
