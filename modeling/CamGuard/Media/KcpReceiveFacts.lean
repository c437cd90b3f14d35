/-
KCP delivery is exactly once and in order.

`Assembly` ties a receiver to the stream it is receiving: the place it stands
at, and that every pending segment is one of the stream's, ahead of that place
and inside the window. It is kept by the reading loop (`drain_spec`) and by a
whole call (`accept_spec`); a call that fails closes the receiver and delivers
nothing. The run theorem at the end follows by induction over the arrivals.
-/
import CamGuard.Media.KcpStream

namespace CamGuard.Media

variable {cfg : KcpConfig} {stream : KcpStream cfg.maxSegments}

/-- The number of position `i` on the wire. -/
def KcpConfig.number (cfg : KcpConfig) (i : Nat) : Nat := Serial.number cfg.initialSequence i

theorem KcpConfig.number_inj {i j n : Nat} (hi : n ≤ i) (hi' : i < n + cfg.maxSegments) (hj : n ≤ j)
    (hj' : j < n + cfg.maxSegments) (h : cfg.number i = cfg.number j) : i = j := by
  have := cfg.segments_range
  exact Serial.number_inj hi (by omega) hj (by omega) h

/-- A receiver in the middle of a stream. `acked` are the positions it has
acknowledged or is about to, `n` the first it has not consumed. -/
structure Assembly (cfg : KcpConfig) (stream : KcpStream cfg.maxSegments) (k : KcpReceiver)
    (delivered : List Bytes) (acked : List Nat) (n : Nat) : Prop where
  config_eq : k.config = cfg
  opened : k.closed = false
  next_eq : k.nextSequence = cfg.number n
  place : Place stream.messages delivered n k.parts k.remaining
  held : ∀ seq seg, k.pending.get? seq = some seg → ∃ i ∈ acked, n ≤ i ∧ i < n + cfg.maxSegments ∧
    seq = cfg.number i ∧ stream.fragments[i]? = some (seg.fragment, seg.body)
  kept : ∀ i ∈ acked, i < n ∨ (n ≤ i ∧ i < n + cfg.maxSegments ∧ ∃ seg, k.pending.get? (cfg.number i) = some seg)
  counted : ∀ i < n, i ∈ acked
  bytes : k.bufferedBytes = k.pending.total (·.body.length) + (k.parts.map List.length).sum
  slots : k.pending.size + k.parts.length ≤ cfg.maxSegments

namespace Assembly

variable {k : KcpReceiver} {delivered : List Bytes} {acked : List Nat} {n : Nat}

theorem new (cfg : KcpConfig) (stream : KcpStream cfg.maxSegments) :
    Assembly cfg stream (.new cfg) [] [] 0 where
  config_eq := rfl
  opened := rfl
  next_eq := by
    have hlt : cfg.initialSequence < 2 ^ 32 := Nat.lt_succ_of_le cfg.initial_le
    exact (Serial.number_zero hlt).symm
  place := Place.start
  held := by rintro seq seg ⟨⟩
  kept := by simp
  counted := by simp
  bytes := rfl
  slots := by simp [KcpReceiver.new]

theorem parts_le (h : Assembly cfg stream k delivered acked n) : k.parts.length ≤ n := by
  obtain ⟨done, -, -, hn, -⟩ := h.place.whole_messages
  omega

theorem head (h : Assembly cfg stream k delivered acked n) {current : KcpSegment}
    (hp : k.pending.get? k.nextSequence = some current) :
    n ∈ acked ∧ stream.fragments[n]? = some (current.fragment, current.body) := by
  obtain ⟨i, hi, hlo, hhi, hseq, hfrag⟩ := h.held _ _ hp
  rw [h.next_eq] at hseq
  obtain rfl := cfg.number_inj (Nat.le_refl n) (by omega) hlo hhi hseq
  exact ⟨hi, hfrag⟩

theorem held_erase (h : Assembly cfg stream k delivered acked n) :
    ∀ seq seg, (k.pending.erase k.nextSequence).get? seq = some seg → ∃ i ∈ acked, n + 1 ≤ i ∧
      i < n + 1 + cfg.maxSegments ∧ seq = cfg.number i ∧ stream.fragments[i]? = some (seg.fragment, seg.body) := by
  intro seq seg hget
  rw [Dict.get?_erase] at hget
  split at hget
  · cases hget
  · next hne =>
    obtain ⟨i, hi, hlo, hhi, hseq, hfrag⟩ := h.held _ _ hget
    have hin : i ≠ n := by
      rintro rfl
      exact hne (hseq.trans h.next_eq.symm)
    exact ⟨i, hi, by omega, by omega, hseq, hfrag⟩

theorem kept_erase (h : Assembly cfg stream k delivered acked n) :
    ∀ i ∈ acked, i < n + 1 ∨ (n + 1 ≤ i ∧ i < n + 1 + cfg.maxSegments ∧
      ∃ seg, (k.pending.erase k.nextSequence).get? (cfg.number i) = some seg) := by
  intro i hi
  rcases h.kept i hi with hlt | ⟨hlo, hhi, seg, hseg⟩
  · exact .inl (by omega)
  · by_cases hin : i = n
    · exact .inl (by omega)
    · refine .inr ⟨by omega, by omega, seg, ?_⟩
      have hne : cfg.number i ≠ k.nextSequence := by
        rw [h.next_eq]
        intro heq
        have := cfg.segments_range
        exact hin (cfg.number_inj hlo hhi (Nat.le_refl n) (by omega) heq)
      rw [Dict.get?_erase, if_neg hne, hseg]

theorem take_part (h : Assembly cfg stream k delivered acked n) {current : KcpSegment}
    (hp : k.pending.get? k.nextSequence = some current) (hfrag : current.fragment ≠ 0) :
    Assembly cfg stream { k with
      pending := k.pending.erase k.nextSequence
      parts := k.parts ++ [current.body]
      remaining := some (current.fragment - 1)
      nextSequence := (k.nextSequence + 1) % 2 ^ 32 } delivered acked (n + 1) where
  config_eq := h.config_eq
  opened := h.opened
  next_eq := by
    rw [h.next_eq]
    exact Serial.number_succ _ _
  place := (h.place.advance (fun m hm => (stream.fragmented m hm).1) (h.head hp).2).2.2 hfrag
  held := h.held_erase
  kept := h.kept_erase
  counted := by
    intro i hi
    by_cases hin : i = n
    · rw [hin]
      exact (h.head hp).1
    · exact h.counted i (by omega)
  bytes := by
    have htotal := Dict.total_erase hp fun seg => seg.body.length
    rw [h.bytes, ← htotal]
    simp only [List.map_append, List.map_cons, List.map_nil, List.sum_append, List.sum_cons, List.sum_nil]
    push_cast
    omega
  slots := by
    have hsize := Dict.size_erase hp
    have := h.slots
    simp only [List.length_append, List.length_cons, List.length_nil]
    omega

theorem take_last (h : Assembly cfg stream k delivered acked n) {current : KcpSegment}
    (hp : k.pending.get? k.nextSequence = some current) (hfrag : current.fragment = 0) :
    Assembly cfg stream { k with
      pending := k.pending.erase k.nextSequence
      parts := []
      remaining := none
      nextSequence := (k.nextSequence + 1) % 2 ^ 32
      bufferedBytes := k.bufferedBytes - ((k.parts ++ [current.body]).flatten.length : Nat) }
      (delivered ++ [(k.parts ++ [current.body]).flatten]) acked (n + 1) where
  config_eq := h.config_eq
  opened := h.opened
  next_eq := by
    rw [h.next_eq]
    exact Serial.number_succ _ _
  place := (h.place.advance (fun m hm => (stream.fragmented m hm).1) (h.head hp).2).2.1 hfrag
  held := h.held_erase
  kept := h.kept_erase
  counted := by
    intro i hi
    by_cases hin : i = n
    · rw [hin]
      exact (h.head hp).1
    · exact h.counted i (by omega)
  bytes := by
    have htotal := Dict.total_erase hp fun seg => seg.body.length
    rw [h.bytes, ← htotal]
    simp only [List.length_flatten, List.map_append, List.map_cons, List.map_nil, List.sum_append, List.sum_cons,
      List.sum_nil]
    push_cast
    omega
  slots := by
    have hsize := Dict.size_erase hp
    have := h.slots
    simp only [List.length_nil]
    omega

theorem chain_ok (h : Assembly cfg stream k delivered acked n) {current : KcpSegment}
    (hp : k.pending.get? k.nextSequence = some current) :
    ¬ (k.remaining.isSome ∧ k.remaining ≠ some current.fragment) := by
  obtain ⟨hchain, -⟩ := h.place.advance (fun m hm => (stream.fragmented m hm).1) (h.head hp).2
  rcases hchain with hnone | hsome
  · simp [hnone]
  · simp [hsome]

/-- **The reading loop** ends with the head missing, having delivered the
messages it completed; it never fails on a stream's own segments. -/
theorem drain_spec {fuel : Nat} (h : Assembly cfg stream k delivered acked n) (hfuel : k.pending.size ≤ fuel) :
    ∃ messages k' n', k.drain fuel = (.ok messages, k') ∧
      Assembly cfg stream k' (delivered ++ messages) acked n' ∧ k'.pending.get? k'.nextSequence = none ∧
      n - k.parts.length ≤ n' - k'.parts.length ∧ k'.windowRejected = k.windowRejected := by
  -- On `fuel`: a turn takes the head away, and what is pending still fits.
  induction fuel generalizing k delivered n with
  | zero =>
    have hempty : k.pending.get? k.nextSequence = none := by
      rw [Dict.get?_eq_none]
      intro hmem
      have hpos := List.length_pos_of_mem hmem
      simp only [Dict.keys, List.length_map] at hpos
      simp only [Dict.size] at hfuel
      omega
    exact ⟨[], k, n, rfl, by simpa using h, hempty, Nat.le_refl _, rfl⟩
  | succ fuel ih =>
    cases hp : k.pending.get? k.nextSequence with
    | none => exact ⟨[], k, n, by simp only [KcpReceiver.drain, hp], by simpa using h, hp, Nat.le_refl _, rfl⟩
    | some current =>
      have hsize := Dict.size_erase hp
      have hparts := h.parts_le
      by_cases hfrag : current.fragment = 0
      · obtain ⟨messages, k', n', hdrain, hk', hend, hstart, hrej⟩ :=
          ih (h.take_last hp hfrag) (by simp only; omega)
        refine ⟨(k.parts ++ [current.body]).flatten :: messages, k', n', ?_, by simpa using hk', hend, ?_, hrej⟩
        · simp only [KcpReceiver.drain, hp]
          rw [if_neg (h.chain_ok hp), if_pos hfrag, hdrain]
          rfl
        · simp only [List.length_nil] at hstart
          omega
      · obtain ⟨messages, k', n', hdrain, hk', hend, hstart, hrej⟩ :=
          ih (h.take_part hp hfrag) (by simp only; omega)
        refine ⟨messages, k', n', ?_, hk', hend, ?_, hrej⟩
        · simp only [KcpReceiver.drain, hp]
          rw [if_neg (h.chain_ok hp), if_neg hfrag, hdrain]
        · simp only [List.length_append, List.length_cons, List.length_nil] at hstart
          omega

theorem congr {k' : KcpReceiver} (h : Assembly cfg stream k delivered acked n) (hconfig : k'.config = k.config)
    (hclosed : k'.closed = k.closed) (hnext : k'.nextSequence = k.nextSequence) (hpending : k'.pending = k.pending)
    (hparts : k'.parts = k.parts) (hremaining : k'.remaining = k.remaining)
    (hbytes : k'.bufferedBytes = k.bufferedBytes) : Assembly cfg stream k' delivered acked n where
  config_eq := hconfig.trans h.config_eq
  opened := hclosed.trans h.opened
  next_eq := hnext.trans h.next_eq
  place := by rw [hparts, hremaining]; exact h.place
  held := by rw [hpending]; exact h.held
  kept := by rw [hpending]; exact h.kept
  counted := h.counted
  bytes := by rw [hbytes, hpending, hparts]; exact h.bytes
  slots := by rw [hpending, hparts]; exact h.slots

theorem assemble_spec (h : Assembly cfg stream k delivered acked n) (clock : KcpClock) :
    ∃ messages k' n', k.assemble clock =
        (.ok { acknowledge := true, unacknowledged := k'.nextSequence, messages := messages }, k') ∧
      Assembly cfg stream k' (delivered ++ messages) acked n' ∧ k'.pending.get? k'.nextSequence = none ∧
      n - k.parts.length ≤ n' - k'.parts.length ∧ k'.windowRejected = k.windowRejected := by
  obtain ⟨messages, k', n', hdrain, hk', hend, hstart, hrej⟩ := h.drain_spec (Nat.le_refl _)
  let since := if k'.pending.size = 0 ∧ k'.parts = [] then none
    else if messages ≠ [] then some clock.restart else k'.since
  refine ⟨messages, { k' with since := since }, n', ?_, ?_, hend, hstart, hrej⟩
  · simp only [KcpReceiver.assemble, hdrain, since]
  · exact hk'.congr rfl rfl rfl rfl rfl rfl rfl

theorem again (h : Assembly cfg stream k delivered acked n) {i : Nat} (hi : i < n ∨ (n ≤ i ∧
    i < n + cfg.maxSegments ∧ ∃ seg, k.pending.get? (cfg.number i) = some seg)) :
    Assembly cfg stream k delivered (i :: acked) n where
  config_eq := h.config_eq
  opened := h.opened
  next_eq := h.next_eq
  place := h.place
  held := by
    intro seq seg hget
    obtain ⟨j, hj, hrest⟩ := h.held seq seg hget
    exact ⟨j, List.mem_cons_of_mem i hj, hrest⟩
  kept := by
    intro j hj
    rcases List.mem_cons.mp hj with rfl | hj
    · exact hi
    · exact h.kept j hj
  counted := fun j hj => List.mem_cons_of_mem i (h.counted j hj)
  bytes := h.bytes
  slots := h.slots

/-- A segment of the stream that is ahead, inside the window and not pending
can be kept while a slot is free. -/
theorem keep (h : Assembly cfg stream k delivered acked n) {i : Nat} {seg : KcpSegment} (since : Option ℚ)
    (hlo : n ≤ i) (hhi : i < n + cfg.maxSegments) (hnew : k.pending.get? (cfg.number i) = none)
    (hfrag : stream.fragments[i]? = some (seg.fragment, seg.body))
    (hslot : k.pending.size + k.parts.length < cfg.maxSegments) :
    Assembly cfg stream { k with
      since := since
      pending := k.pending.set (cfg.number i) seg
      bufferedBytes := k.bufferedBytes + (seg.body.length : Nat) } delivered (i :: acked) n where
  config_eq := h.config_eq
  opened := h.opened
  next_eq := h.next_eq
  place := h.place
  held := by
    intro seq s hget
    rw [Dict.get?_set] at hget
    split at hget
    · next heq =>
      cases hget
      exact ⟨i, List.mem_cons_self, hlo, hhi, heq, hfrag⟩
    · obtain ⟨j, hj, hrest⟩ := h.held seq s hget
      exact ⟨j, List.mem_cons_of_mem i hj, hrest⟩
  kept := by
    intro j hj
    simp only [Dict.get?_set]
    rcases List.mem_cons.mp hj with rfl | hj
    · exact .inr ⟨hlo, hhi, seg, by simp⟩
    · rcases h.kept j hj with hlt | ⟨hjlo, hjhi, s, hs⟩
      · exact .inl hlt
      · refine .inr ⟨hjlo, hjhi, ?_⟩
        by_cases heq : cfg.number j = cfg.number i
        · exact ⟨seg, by rw [if_pos heq]⟩
        · exact ⟨s, by rw [if_neg heq, hs]⟩
  counted := fun j hj => List.mem_cons_of_mem i (h.counted j hj)
  bytes := by
    rw [Dict.total_set_of_none hnew, h.bytes]
    push_cast
    omega
  slots := by
    rw [Dict.size_set_of_none hnew]
    simp only
    omega

theorem next_notMem (h : Assembly cfg stream k delivered acked n)
    (hend : k.pending.get? k.nextSequence = none) : n ∉ acked := by
  intro hmem
  rcases h.kept n hmem with hlt | ⟨-, -, seg, hseg⟩
  · omega
  · rw [← h.next_eq, hend] at hseg
    cases hseg

theorem contiguous_eq (h : Assembly cfg stream k delivered acked n)
    (hend : k.pending.get? k.nextSequence = none) : Serial.contiguous acked = n :=
  Serial.contiguous_eq h.counted (h.next_notMem hend)

end Assembly

/-! ## One call -/

/-- `seg` is the PUSH of the stream's fragment at position `i`. -/
structure Carries (cfg : KcpConfig) (stream : KcpStream cfg.maxSegments) (i : Nat) (seg : KcpSegment) : Prop where
  conv_eq : seg.conv = cfg.conv
  command_eq : seg.command = KCP_PUSH
  sequence_eq : seg.sequence = cfg.number i
  fragment_eq : stream.fragments[i]? = some (seg.fragment, seg.body)

/-- What a call does with the segment at position `i`, the receiver being at
`n`: it fails and closes, it turns a segment away, or it acknowledges it. -/
inductive Outcome (cfg : KcpConfig) (stream : KcpStream cfg.maxSegments) (k : KcpReceiver)
    (delivered : List Bytes) (acked : List Nat) (n i : Nat) (seg : KcpSegment) :
    Except KcpFault ReceiveResult × KcpReceiver → Prop where
  | oversize (h : KCP_MAX_BODY < seg.body.length) : Outcome cfg stream k delivered acked n i seg (.error .segment, k.close)
  | budget (hnew : k.pending.get? seg.sequence = none) (hlo : n ≤ i) (hhi : i < n + cfg.maxSegments)
      (h : (i = n ∧ cfg.maxSegments ≤ k.pending.size + k.parts.length) ∨
        cfg.maxBytes < k.bufferedBytes + seg.body.length) :
      Outcome cfg stream k delivered acked n i seg (.error .budget, k.close)
  | future (h : n + cfg.maxSegments ≤ i ∨
        (n < i ∧ k.pending.get? seg.sequence = none ∧ cfg.maxSegments ≤ k.pending.size + k.parts.length + 1)) :
      Outcome cfg stream k delivered acked n i seg
        (.ok { acknowledge := false, unacknowledged := k.nextSequence }, (k.rejectFuture seg.sequence).2)
  | acknowledged (messages : List Bytes) (k' : KcpReceiver) (n' : Nat)
      (h : Assembly cfg stream k' (delivered ++ messages) (i :: acked) n')
      (hend : k'.pending.get? k'.nextSequence = none)
      (hstart : n - k.parts.length ≤ n' - k'.parts.length) (hrej : k'.windowRejected = k.windowRejected) :
      Outcome cfg stream k delivered acked n i seg
        (.ok { acknowledge := true, unacknowledged := k'.nextSequence, messages := messages }, k')

/-- **One call, on a segment of the stream within half the circle.** -/
theorem accept_spec {k : KcpReceiver} {delivered : List Bytes} {acked : List Nat} {n i : Nat} {seg : KcpSegment}
    (clock : KcpClock) (h : Assembly cfg stream k delivered acked n)
    (hend : k.pending.get? k.nextSequence = none) (hseg : Carries cfg stream i seg)
    (hback : n ≤ i + 2 ^ 31) (hahead : i < n + 2 ^ 31) :
    Outcome cfg stream k delivered acked n i seg (k.accept clock seg) := by
  obtain rfl := h.config_eq
  have hrange := k.config.segments_range
  have hmask : ¬ KCP_MASK < seg.sequence := by
    have : seg.sequence < 2 ^ 32 := by
      rw [hseg.sequence_eq]
      exact Serial.number_lt _ _
    simp only [KCP_MASK]
    omega
  have hcounter := KcpStream.counter_lt hseg.fragment_eq
  unfold KcpReceiver.accept
  rw [if_neg (by rw [hseg.conv_eq, hseg.command_eq]; simp)]
  split
  · next hbad => exact .oversize (by simp only at hcounter; omega)
  next hbad =>
  by_cases hin : i < n
  · -- Behind: consumed already.
    have hdist : 0x80000000 ≤ Serial.distance seg.sequence k.nextSequence := by
      rw [hseg.sequence_eq, h.next_eq]
      exact Serial.distance_behind hin hback
    dsimp only
    rw [if_pos hdist]
    exact .acknowledged [] k n (by simpa using h.again (.inl hin)) hend (Nat.le_refl _) rfl
  · have hdist : Serial.distance seg.sequence k.nextSequence = i - n := by
      rw [hseg.sequence_eq, h.next_eq]
      exact Serial.distance_ahead (by omega) hahead
    simp only [hdist]
    rw [if_neg (by omega)]
    split
    · next hfar => exact .future (.inl (by omega))
    next hfar =>
    have hlo : n ≤ i := by omega
    have hhi : i < n + k.config.maxSegments := by omega
    cases hp : k.pending.get? seg.sequence with
    | some previous =>
      -- A duplicate of a pending segment: same position, so same contents.
      obtain ⟨j, -, hjlo, hjhi, hjseq, hjfrag⟩ := h.held _ _ hp
      rw [hseg.sequence_eq] at hjseq
      obtain rfl := k.config.number_inj hlo hhi hjlo hjhi hjseq
      rw [hseg.fragment_eq, Option.some.injEq, Prod.mk.injEq] at hjfrag
      simp only
      rw [if_neg (by simp [hjfrag.1, hjfrag.2])]
      rw [hseg.sequence_eq] at hp
      exact .acknowledged [] k n
        (by simpa using h.again (.inr ⟨hlo, hhi, previous, hp⟩)) hend (Nat.le_refl _) rfl
    | none =>
      simp only
      split
      · next hfull => exact .future (.inr ⟨by omega, hp, hfull.2⟩)
      next hfull =>
      split
      · next hbudget =>
        refine .budget hp hlo hhi ?_
        rcases hbudget with hslots | hbytes
        · exact .inl ⟨by omega, hslots⟩
        · exact .inr hbytes
      next hbudget =>
      have hkeep := h.keep (some (k.since.getD clock.start)) hlo hhi (hseg.sequence_eq ▸ hp)
        hseg.fragment_eq (by omega)
      obtain ⟨messages, k', n', hcall, hk', hend', hstart, hrej⟩ := hkeep.assemble_spec clock
      rw [← hseg.sequence_eq] at hcall
      rw [hcall]
      exact .acknowledged messages k' n' hk' hend' hstart hrej

/-! ## Whole runs -/

/-- A segment of the stream arriving: its position, the header fields that
play no part, and the clock. -/
structure Arrival where
  position : Nat
  window : Nat := 0
  timestamp : Nat := 0
  unacknowledged : Nat := 0
  clock : KcpClock

def Arrival.segment (a : Arrival) (cfg : KcpConfig) (stream : KcpStream cfg.maxSegments) : KcpSegment :=
  let fragment := stream.fragments.getD a.position (0, [])
  { conv := cfg.conv
    command := KCP_PUSH
    fragment := fragment.1
    window := a.window
    timestamp := a.timestamp
    sequence := cfg.number a.position
    unacknowledged := a.unacknowledged
    body := fragment.2 }

/-- A receiver, what it has returned so far, and the positions it has
acknowledged. -/
structure KcpTrace where
  receiver : KcpReceiver
  delivered : List Bytes := []
  acknowledged : List Nat := []

namespace KcpTrace

def new (cfg : KcpConfig) : KcpTrace := { receiver := .new cfg }

/-- One call of `receive`. -/
def arrive (cfg : KcpConfig) (stream : KcpStream cfg.maxSegments) (t : KcpTrace) (a : Arrival) : KcpTrace :=
  match t.receiver.receive a.clock (a.segment cfg stream) with
  | (.ok result, k) => {
      receiver := k
      delivered := t.delivered ++ result.messages
      acknowledged := if result.acknowledge then a.position :: t.acknowledged else t.acknowledged }
  | (.error _, k) => { t with receiver := k }

/-- The positions consumed from the first on. -/
def consumed (t : KcpTrace) : Nat := Serial.contiguous t.acknowledged

/-- A position of the stream, within `2^31` of the receiver's own, that comes
before the assembly is too old. -/
def Admits (cfg : KcpConfig) (stream : KcpStream cfg.maxSegments) (t : KcpTrace) (a : Arrival) : Prop :=
  a.position < stream.fragments.length ∧ t.consumed ≤ a.position + 2 ^ 31 ∧ a.position < t.consumed + 2 ^ 31 ∧
    ¬ t.receiver.Expired a.clock.expire

instance (cfg : KcpConfig) (stream : KcpStream cfg.maxSegments) (t : KcpTrace) (a : Arrival) :
    Decidable (t.Admits cfg stream a) := inferInstanceAs (Decidable (_ ∧ _))

/-- Any sequence of calls: any order, any loss, any repetition. -/
inductive Reachable (cfg : KcpConfig) (stream : KcpStream cfg.maxSegments) : KcpTrace → Prop where
  | new : Reachable cfg stream (new cfg)
  | arrive {t : KcpTrace} {a : Arrival} (h : Reachable cfg stream t) (ha : t.Admits cfg stream a) :
      Reachable cfg stream (t.arrive cfg stream a)

/-- The invariant of runs. A closed receiver keeps its place and holds nothing. -/
inductive Sound (cfg : KcpConfig) (stream : KcpStream cfg.maxSegments) (t : KcpTrace) : Prop where
  | opened (n : Nat) (h : Assembly cfg stream t.receiver t.delivered t.acknowledged n)
      (hend : t.receiver.pending.get? t.receiver.nextSequence = none)
  | closed (k : KcpReceiver) (n : Nat) (h : Assembly cfg stream k t.delivered t.acknowledged n)
      (hend : k.pending.get? k.nextSequence = none) (hclosed : t.receiver = k.close)

theorem Arrival.carries {a : Arrival} (h : a.position < stream.fragments.length) :
    Carries cfg stream a.position (a.segment cfg stream) where
  conv_eq := rfl
  command_eq := rfl
  sequence_eq := rfl
  fragment_eq := by
    simp only [Arrival.segment, List.getD_eq_getElem?_getD, List.getElem?_eq_getElem h, Option.getD_some]

theorem Sound.arrive {t : KcpTrace} {a : Arrival} (h : t.Sound cfg stream) (ha : t.Admits cfg stream a) :
    (t.arrive cfg stream a).Sound cfg stream := by
  obtain ⟨hpos, hback, hahead, hfresh⟩ := ha
  rcases h with ⟨n, h, hend⟩ | ⟨k, n, h, hend, hclosed⟩
  · rw [consumed, h.contiguous_eq hend] at hback hahead
    have hcall : t.receiver.receive a.clock (a.segment cfg stream) =
        t.receiver.accept a.clock (a.segment cfg stream) := by
      simp only [KcpReceiver.receive, KcpReceiver.expire, h.opened, hfresh, Bool.false_eq_true, if_false]
    have hout := accept_spec a.clock h hend (Arrival.carries hpos) hback hahead
    unfold KcpTrace.arrive
    rw [hcall]
    generalize t.receiver.accept a.clock (a.segment cfg stream) = r at hout
    cases hout with
    | oversize => exact .closed t.receiver n h hend rfl
    | budget => exact .closed t.receiver n h hend rfl
    | future =>
      have hk : Assembly cfg stream (t.receiver.rejectFuture (a.segment cfg stream).sequence).2 t.delivered
          t.acknowledged n := h.congr rfl rfl rfl rfl rfl rfl rfl
      exact .opened n (by simpa using hk) hend
    | acknowledged messages k' n' h' hend' => exact .opened n' h' hend'
  · have hcall : t.receiver.receive a.clock (a.segment cfg stream) = (.error .closed, t.receiver) := by
      simp only [KcpReceiver.receive, KcpReceiver.expire, hclosed, KcpReceiver.close, if_true]
    unfold KcpTrace.arrive
    rw [hcall]
    exact .closed k n h hend hclosed

theorem Reachable.sound {t : KcpTrace} (h : Reachable cfg stream t) : t.Sound cfg stream := by
  induction h with
  | new => exact .opened 0 (Assembly.new cfg stream) rfl
  | arrive _ ha ih => exact ih.arrive ha

/-- The pending segment under an acknowledged position's number is that
position's own. -/
theorem kept_fragment {k : KcpReceiver} {delivered : List Bytes} {acked : List Nat} {n i : Nat}
    (h : Assembly cfg stream k delivered acked n) (hi : i ∈ acked) :
    i < n ∨ ∃ seg, k.pending.get? (cfg.number i) = some seg ∧
      stream.fragments[i]? = some (seg.fragment, seg.body) := by
  rcases h.kept i hi with hlt | ⟨hlo, hhi, seg, hseg⟩
  · exact .inl hlt
  · obtain ⟨j, -, hjlo, hjhi, hnum, hfrag⟩ := h.held _ _ hseg
    obtain rfl := cfg.number_inj hlo hhi hjlo hjhi hnum
    exact .inr ⟨seg, hseg, hfrag⟩

/-- **Exactly once, in order.** After any run of calls on a stream's segments,
what was returned is the first messages of the stream, whole; what was consumed
after them begins the next message and is, until a call fails, what the receiver
has assembled; its number counts both; every acknowledged segment is consumed or,
until a call fails, pending as it was sent; the byte counter is exact; and the
window it would announce is one it has. -/
theorem kcp_exactly_once {cfg : KcpConfig} {stream : KcpStream cfg.maxSegments} {t : KcpTrace}
    (h : Reachable cfg stream t) :
    t.delivered <+: stream.bodies ∧
    (∃ done part, done <+: stream.messages ∧ t.delivered = done.map List.flatten ∧
      t.consumed = (done.map List.length).sum + part.length ∧
      (part = [] ∨ ∃ rest, rest ≠ [] ∧ done ++ [part ++ rest] <+: stream.messages) ∧
      (t.receiver.closed = false → t.receiver.parts = part)) ∧
    t.receiver.nextSequence = (cfg.initialSequence + t.consumed) % 2 ^ 32 ∧
    (t.receiver.closed = false → ∀ i ∈ t.acknowledged, i < t.consumed ∨
      ∃ seg, t.receiver.pending.get? (cfg.number i) = some seg ∧
        stream.fragments[i]? = some (seg.fragment, seg.body)) ∧
    t.receiver.bufferedBytes =
      t.receiver.pending.total (·.body.length) + (t.receiver.parts.map List.length).sum ∧
    0 ≤ t.receiver.availableWindow ∧ t.receiver.availableWindow ≤ cfg.maxSegments := by
  rcases h.sound with ⟨n, h, hend⟩ | ⟨k, n, h, hend, hclosed⟩
  · have hn : t.consumed = n := h.contiguous_eq hend
    obtain ⟨done, hdone, hdel, hcount, hpart⟩ := h.place.whole_messages
    refine ⟨?_, ⟨done, t.receiver.parts, hdone, hdel, hn.trans hcount, hpart, fun _ => rfl⟩, ?_, ?_, h.bytes, ?_⟩
    · rw [hdel]
      exact hdone.map _
    · rw [hn]
      exact h.next_eq
    · intro _ i hi
      rw [hn]
      exact kept_fragment h hi
    · have := h.slots
      simp only [KcpReceiver.availableWindow, h.opened, h.config_eq, Bool.false_eq_true, if_false]
      omega
  · have hn : t.consumed = n := h.contiguous_eq hend
    have hshut : ¬ t.receiver.closed = false := by
      rw [hclosed]
      exact Bool.noConfusion
    obtain ⟨done, hdone, hdel, hcount, hpart⟩ := h.place.whole_messages
    refine ⟨?_, ⟨done, k.parts, hdone, hdel, hn.trans hcount, hpart, fun hopen => absurd hopen hshut⟩, ?_,
      fun hopen => absurd hopen hshut, ?_, ?_⟩
    · rw [hdel]
      exact hdone.map _
    · rw [hn, hclosed]
      exact h.next_eq
    · rw [hclosed]
      rfl
    · have := cfg.segments_range
      simp only [KcpReceiver.availableWindow, eq_true_of_ne_false hshut, if_true]
      omega

/-- Two messages numbered across the wrap: the first in two fragments. -/
def wrapConfig : KcpConfig := { KcpConfig.ofConv 7 (by decide) with
  initialSequence := 0xFFFFFFFF
  initial_le := by decide }

def wrapStream : KcpStream wrapConfig.maxSegments := ⟨[[[1], [2]], [[3]]], by decide⟩

def wrapArrival (position : Nat) : Arrival := { position := position, clock := ⟨0, 0, 0⟩ }

/-- The fragments in the order 2, 1, 1, 0, 2. -/
theorem kcp_exactly_once_reordered :
    let t := [2, 1, 1, 0, 2].foldl (fun t i => arrive wrapConfig wrapStream t (wrapArrival i)) (new wrapConfig)
    t.delivered = [[1, 2], [3]] ∧ t.receiver.nextSequence = 2 ∧ t.delivered <+: wrapStream.bodies :=
  ⟨by decide +kernel, by decide +kernel, (kcp_exactly_once
    (.arrive (.arrive (.arrive (.arrive (.arrive .new (by decide +kernel)) (by decide +kernel)) (by decide +kernel))
      (by decide +kernel)) (by decide +kernel))).1⟩

/-- One message of two fragments, and room for one byte. -/
def tightConfig : KcpConfig := { KcpConfig.ofConv 7 (by decide) with
  maxBytes := 1
  bytes_range := by decide }

def tightStream : KcpStream tightConfig.maxSegments := ⟨[[[1], [2]]], by decide⟩

/-- The second fragment, and then the first. -/
def tightRun : KcpTrace :=
  [1, 0].foldl (fun t i => arrive tightConfig tightStream t (wrapArrival i)) (new tightConfig)

/-- The second is acknowledged; the first passes the budget, and the receiver closes
and keeps nothing. -/
theorem acknowledged_dropped : Reachable tightConfig tightStream tightRun ∧ tightRun.receiver.closed = true ∧
    ¬ ∀ i ∈ tightRun.acknowledged, i < tightRun.consumed ∨
      ∃ seg, tightRun.receiver.pending.get? (tightConfig.number i) = some seg := by
  refine ⟨.arrive (.arrive .new (by decide +kernel)) (by decide +kernel), by decide +kernel, fun hall => ?_⟩
  have hnone : tightRun.receiver.pending.get? (tightConfig.number 1) = none := by decide +kernel
  rcases hall 1 (by decide +kernel) with hlt | ⟨seg, hseg⟩
  · revert hlt
    decide +kernel
  · rw [hnone] at hseg
    cases hseg

end KcpTrace

end CamGuard.Media
