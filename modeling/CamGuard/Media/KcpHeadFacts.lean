/-
The slot kept for the missing head. A future segment never takes the last slot, but
the head itself does: taken into the last free slot, and short of the end of its
message, it stays among the parts, and the next head finds no slot (`Wedges`). From
then on the receiver takes nothing any more, so a head is turned away exactly when
such a step has been made (`head_accepted_iff`). Nothing is assumed about what has
arrived before.
-/
import CamGuard.Media.KcpReceive
import Mathlib.Data.List.Induction

namespace CamGuard.Media

namespace KcpReceiver

/-- The slots that are taken: by segments ahead of the head, and by the parts of the
message. -/
def slots (k : KcpReceiver) : Nat := k.pending.size + k.parts.length

/-- A segment that `receive` does not turn away for its form. -/
structure WellFormed (cfg : KcpConfig) (segment : KcpSegment) : Prop where
  sequence_le : segment.sequence ≤ KCP_MASK
  fragment_lt : segment.fragment < cfg.maxSegments
  body_le : segment.body.length ≤ KCP_MAX_BODY

/-- The segment the receiver waits for: it continues the chain of the current message,
and its body fits. -/
structure IsHead (k : KcpReceiver) (segment : KcpSegment) : Prop where
  conv_eq : segment.conv = k.config.conv
  command_eq : segment.command = KCP_PUSH
  formed : WellFormed k.config segment
  sequence_eq : segment.sequence = k.nextSequence
  continues : k.remaining = none ∨ k.remaining = some segment.fragment
  fits : k.bufferedBytes + segment.body.length ≤ k.config.maxBytes

/-- The segments held from `sequence` on continue one another's chains. -/
def chained : Nat → Dict Nat KcpSegment → Option Nat → Nat → Bool
  | 0, _, _, _ => true
  | fuel + 1, pending, remaining, sequence =>
    match pending.get? sequence with
    | none => true
    | some current =>
      decide (¬ (remaining.isSome ∧ remaining ≠ some current.fragment)) &&
        chained fuel (pending.erase sequence) (if current.fragment = 0 then none else some (current.fragment - 1))
          ((sequence + 1) % 2 ^ 32)

/-- With `segment` in its place, the segments held continue one another's chains. -/
def Follows (k : KcpReceiver) (segment : KcpSegment) : Prop :=
  chained (k.pending.size + 1) (k.pending.set segment.sequence segment) k.remaining k.nextSequence = true

instance (k : KcpReceiver) (segment : KcpSegment) : Decidable (k.Follows segment) :=
  inferInstanceAs (Decidable (_ = true))

/-- The rest of the segment's message is held. -/
def Finishes (k : KcpReceiver) (segment : KcpSegment) : Prop :=
  ∀ j, 1 ≤ j → j ≤ segment.fragment → (k.pending.get? ((k.nextSequence + j) % 2 ^ 32)).isSome = true

/-- The head comes to the last free slot, and the rest of its message is not held. -/
structure Wedges (k : KcpReceiver) (segment : KcpSegment) : Prop where
  conv_eq : segment.conv = k.config.conv
  command_eq : segment.command = KCP_PUSH
  sequence_eq : segment.sequence = k.nextSequence
  last : k.slots + 1 = k.config.maxSegments
  unfinished : ¬ k.Finishes segment

/-- The call succeeds, acknowledges the segment and leaves the session open. -/
def Accepts (k : KcpReceiver) (clock : KcpClock) (segment : KcpSegment) : Prop :=
  ∃ result, (k.receive clock segment).1 = .ok result ∧ result.acknowledge = true ∧
    (k.receive clock segment).2.closed = false

/-- A new receiver after the calls. -/
def run (cfg : KcpConfig) (items : List (KcpClock × KcpSegment)) : KcpReceiver :=
  items.foldl (fun k item => (k.receive item.1 item.2).2) (new cfg)

theorem run_snoc (cfg : KcpConfig) (items : List (KcpClock × KcpSegment)) (item : KcpClock × KcpSegment) :
    run cfg (items ++ [item]) = ((run cfg items).receive item.1 item.2).2 := by
  rw [run, run, List.foldl_append, List.foldl_cons, List.foldl_nil]

/-- Some head of the run came to the last free slot, with the rest of its message not held. -/
def Wedged (cfg : KcpConfig) (items : List (KcpClock × KcpSegment)) : Prop :=
  ∃ before item after, items = before ++ item :: after ∧ (run cfg before).Wedges item.2

theorem wedged_snoc (cfg : KcpConfig) (items : List (KcpClock × KcpSegment)) (item : KcpClock × KcpSegment) :
    Wedged cfg (items ++ [item]) ↔ Wedged cfg items ∨ (run cfg items).Wedges item.2 := by
  constructor
  · rintro ⟨before, other, after, heq, hwedges⟩
    rcases List.eq_nil_or_concat after with rfl | ⟨after, last, rfl⟩
    · obtain ⟨rfl, hitem⟩ := List.append_inj' heq rfl
      cases hitem
      exact .inr hwedges
    · rw [List.concat_eq_append, ← List.cons_append, ← List.append_assoc] at heq
      obtain ⟨rfl, -⟩ := List.append_inj' heq rfl
      exact .inl ⟨before, other, after, rfl, hwedges⟩
  · rintro (⟨before, other, after, rfl, hwedges⟩ | hwedges)
    · exact ⟨before, other, after ++ [item], by simp, hwedges⟩
    · exact ⟨items, item, [], rfl, hwedges⟩

/-! ## The loop -/

section

variable {k k' : KcpReceiver} {current : KcpSegment} {messages : List Bytes} {fuel : Nat}

/-- The receiver behind a turn that ends no message. -/
def takePart (k : KcpReceiver) (current : KcpSegment) : KcpReceiver :=
  { k with
    pending := k.pending.erase k.nextSequence
    parts := k.parts ++ [current.body]
    remaining := some (current.fragment - 1)
    nextSequence := (k.nextSequence + 1) % 2 ^ 32 }

/-- The receiver behind a turn that ends a message. -/
def takeLast (k : KcpReceiver) (current : KcpSegment) : KcpReceiver :=
  { k with
    pending := k.pending.erase k.nextSequence
    parts := []
    remaining := none
    nextSequence := (k.nextSequence + 1) % 2 ^ 32
    bufferedBytes := k.bufferedBytes - ((k.parts ++ [current.body]).flatten.length : Nat) }

theorem drain_none (hp : k.pending.get? k.nextSequence = none) (fuel : Nat) : k.drain fuel = (.ok [], k) := by
  cases fuel with
  | zero => rfl
  | succ fuel => simp only [drain, hp]

theorem drain_broken (hp : k.pending.get? k.nextSequence = some current)
    (hchain : k.remaining.isSome ∧ k.remaining ≠ some current.fragment) :
    k.drain (fuel + 1) = (.error .chain, close { k with pending := k.pending.erase k.nextSequence }) := by
  simp only [drain, hp]
  rw [if_pos hchain]

theorem drain_last (hp : k.pending.get? k.nextSequence = some current)
    (hchain : ¬ (k.remaining.isSome ∧ k.remaining ≠ some current.fragment)) (hlast : current.fragment = 0) :
    k.drain (fuel + 1) = (((k.takeLast current).drain fuel).1.map ((k.parts ++ [current.body]).flatten :: ·),
      ((k.takeLast current).drain fuel).2) := by
  simp only [drain, hp]
  rw [if_neg hchain, if_pos hlast]
  rfl

theorem drain_part (hp : k.pending.get? k.nextSequence = some current)
    (hchain : ¬ (k.remaining.isSome ∧ k.remaining ≠ some current.fragment)) (hpart : current.fragment ≠ 0) :
    k.drain (fuel + 1) = (k.takePart current).drain fuel := by
  simp only [drain, hp]
  rw [if_neg hchain, if_neg hpart]
  rfl

/-- The loop succeeds exactly if every segment it takes continues the chain; otherwise
it closes. -/
theorem drain_chained (fuel : Nat) (k : KcpReceiver) :
    (chained fuel k.pending k.remaining k.nextSequence = true ∧ ∃ messages, (k.drain fuel).1 = .ok messages) ∨
    (chained fuel k.pending k.remaining k.nextSequence = false ∧ (k.drain fuel).1 = .error .chain ∧
      (k.drain fuel).2.closed = true) := by
  induction fuel generalizing k with
  | zero => exact .inl ⟨rfl, [], rfl⟩
  | succ fuel ih =>
    cases hp : k.pending.get? k.nextSequence with
    | none => exact .inl ⟨by simp only [chained, hp], [], by rw [drain_none hp]⟩
    | some current =>
      simp only [chained, hp]
      by_cases hchain : k.remaining.isSome ∧ k.remaining ≠ some current.fragment
      · rw [drain_broken hp hchain, decide_eq_false (not_not.mpr hchain), Bool.false_and]
        exact .inr ⟨rfl, rfl, rfl⟩
      rw [decide_eq_true hchain, Bool.true_and]
      by_cases hlast : current.fragment = 0
      · rw [drain_last hp hchain hlast, if_pos hlast]
        rcases ih (k.takeLast current) with ⟨hchained, messages, hok⟩ | ⟨hchained, herror, hclosed⟩
        · exact .inl ⟨hchained, _, by rw [hok]; rfl⟩
        · exact .inr ⟨hchained, by rw [herror]; rfl, hclosed⟩
      · rw [drain_part hp hchain hlast, if_neg hlast]
        exact ih (k.takePart current)

theorem size_pos (hp : k.pending.get? k.nextSequence = some current) : 0 < k.pending.size := by
  have := Dict.size_erase hp
  omega

/-- What the loop leaves: the head is missing; and the slots are all still taken if no
message has ended, and not all of them otherwise. -/
structure Drained (k : KcpReceiver) (messages : List Bytes) (k' : KcpReceiver) : Prop where
  config : k'.config = k.config
  opened : k'.closed = k.closed
  missing : k'.pending.get? k'.nextSequence = none
  next_lt : k.nextSequence < 2 ^ 32 → k'.nextSequence < 2 ^ 32
  same : messages = [] → k'.slots = k.slots
  fewer : messages ≠ [] → k'.slots < k.slots

theorem drained (hfuel : k.pending.size ≤ fuel) (h : k.drain fuel = (.ok messages, k')) : Drained k messages k' := by
  induction fuel generalizing k messages with
  | zero =>
    cases hp : k.pending.get? k.nextSequence with
    | none =>
      rw [drain_none hp] at h
      cases h
      exact ⟨rfl, rfl, hp, id, fun _ => rfl, fun hne => absurd rfl hne⟩
    | some current =>
      have := size_pos hp
      omega
  | succ fuel ih =>
    cases hp : k.pending.get? k.nextSequence with
    | none =>
      rw [drain_none hp] at h
      cases h
      exact ⟨rfl, rfl, hp, id, fun _ => rfl, fun hne => absurd rfl hne⟩
    | some current =>
      have hsize := Dict.size_erase hp
      by_cases hchain : k.remaining.isSome ∧ k.remaining ≠ some current.fragment
      · rw [drain_broken hp hchain] at h
        cases h
      by_cases hlast : current.fragment = 0
      · rw [drain_last hp hchain hlast] at h
        cases hrest : (k.takeLast current).drain fuel with
        | mk outcome rest =>
          rw [hrest] at h
          cases outcome with
          | error e => cases h
          | ok more =>
            cases h
            have hd := ih (k := k.takeLast current) (by simp only [takeLast]; omega) hrest
            have hslots : (k.takeLast current).slots < k.slots := by
              simp only [slots, takeLast, List.length_nil]
              omega
            refine ⟨hd.config, hd.opened, hd.missing, fun _ => hd.next_lt (Nat.mod_lt _ (by decide)), by simp, fun _ => ?_⟩
            by_cases hmore : more = []
            · rw [hd.same hmore]
              exact hslots
            · exact Nat.lt_trans (hd.fewer hmore) hslots
      · rw [drain_part hp hchain hlast] at h
        have hd := ih (k := k.takePart current) (by simp only [takePart]; omega) h
        have hslots : (k.takePart current).slots = k.slots := by
          simp only [slots, takePart, List.length_append, List.length_singleton]
          omega
        refine ⟨hd.config, hd.opened, hd.missing, fun _ => hd.next_lt (Nat.mod_lt _ (by decide)), ?_, ?_⟩
        · rw [← hslots]
          exact hd.same
        · rw [← hslots]
          exact hd.fewer

/-- The numbers behind the head are not the head's. -/
theorem ahead_ne {sequence j : Nat} (hpos : 1 ≤ j) (hj : j < 2 ^ 32) :
    (sequence + j) % 2 ^ 32 ≠ sequence := by
  omega

/-- The loop ends a message exactly if the rest of the head's message is held. -/
theorem drain_finishes (hfuel : k.pending.size ≤ fuel) (h : k.drain fuel = (.ok messages, k'))
    (hp : k.pending.get? k.nextSequence = some current) (hfragment : current.fragment < 2 ^ 32) :
    messages ≠ [] ↔ k.Finishes current := by
  -- On `fuel`; one turn takes the head away, and the fragment counter goes down by one.
  induction fuel generalizing k current messages with
  | zero =>
    have := size_pos hp
    omega
  | succ fuel ih =>
    have hsize := Dict.size_erase hp
    by_cases hchain : k.remaining.isSome ∧ k.remaining ≠ some current.fragment
    · rw [drain_broken hp hchain] at h
      cases h
    by_cases hlast : current.fragment = 0
    · rw [drain_last hp hchain hlast] at h
      have hne : messages ≠ [] := by
        cases hrest : ((k.takeLast current).drain fuel).1 with
        | error e => simp [hrest, Except.map] at h
        | ok more =>
          simp only [hrest, Except.map, Prod.mk.injEq, Except.ok.injEq] at h
          rw [← h.1]
          exact List.cons_ne_nil _ _
      refine iff_of_true hne fun j hpos hle => ?_
      omega
    rw [drain_part hp hchain hlast] at h
    have hheld : ∀ j, 1 ≤ j → j < 2 ^ 32 → ((k.takePart current).pending.get? ((k.nextSequence + j) % 2 ^ 32)) =
        k.pending.get? ((k.nextSequence + j) % 2 ^ 32) := by
      intro j hpos hj
      simp only [takePart]
      rw [Dict.get?_erase, if_neg (ahead_ne hpos hj)]
    cases hp' : (k.takePart current).pending.get? (k.takePart current).nextSequence with
    | none =>
      rw [drain_none hp'] at h
      cases h
      refine iff_of_false (fun hne => hne rfl) fun hfinishes => ?_
      have hone := hfinishes 1 (Nat.le_refl 1) (by omega)
      rw [← hheld 1 (Nat.le_refl 1) (by decide)] at hone
      rw [show (k.nextSequence + 1) % 2 ^ 32 = (k.takePart current).nextSequence from rfl, hp'] at hone
      cases hone
    | some follower =>
      have hfuel' : (k.takePart current).pending.size ≤ fuel := by
        simp only [takePart]
        omega
      have hcounter : follower.fragment = current.fragment - 1 := by
        by_contra hne
        have hpos := size_pos hp'
        obtain ⟨rest, rfl⟩ : ∃ rest, fuel = rest + 1 := ⟨fuel - 1, by omega⟩
        rw [drain_broken hp' ⟨rfl, fun heq => hne (Option.some.inj heq).symm⟩] at h
        cases h
      rw [ih hfuel' h hp' (by omega)]
      have hshift : ∀ j, ((k.takePart current).nextSequence + j) % 2 ^ 32 = (k.nextSequence + (j + 1)) % 2 ^ 32 := by
        intro j
        simp only [takePart]
        omega
      constructor
      · intro hrest j hpos hle
        by_cases hone : j = 1
        · rw [hone, ← hheld 1 (Nat.le_refl 1) (by decide)]
          rw [show (k.nextSequence + 1) % 2 ^ 32 = (k.takePart current).nextSequence from rfl, hp']
          rfl
        · have hj := hrest (j - 1) (by omega) (by omega)
          rw [hshift, show j - 1 + 1 = j by omega, hheld j hpos (by omega)] at hj
          exact hj
      · intro hall j hpos hle
        rw [hshift, hheld (j + 1) (by omega) (by omega)]
        exact hall (j + 1) (by omega) (by omega)

end

/-! ## One call -/

/-- The receiver with a segment it keeps. -/
def keeping (k : KcpReceiver) (clock : KcpClock) (segment : KcpSegment) : KcpReceiver :=
  { k with
    since := some (k.since.getD clock.start)
    pending := k.pending.set segment.sequence segment
    bufferedBytes := k.bufferedBytes + segment.body.length }

/-- What a call does: it fails and closes, it leaves all slots as they are, or it keeps
the segment and the loop succeeds. -/
inductive Received (k : KcpReceiver) (clock : KcpClock) (segment : KcpSegment) (k' : KcpReceiver) : Prop
  | fails (hclosed : k'.closed = true)
  | same (hconfig : k'.config = k.config) (hopened : k'.closed = k.closed) (hnext : k'.nextSequence = k.nextSequence)
      (hpending : k'.pending = k.pending) (hparts : k'.parts = k.parts)
      (hother : k.pending.get? k.nextSequence = none →
        ¬ (segment.conv = k.config.conv ∧ segment.command = KCP_PUSH ∧ segment.sequence = k.nextSequence))
  | keeps (messages : List Bytes) (hconv : segment.conv = k.config.conv) (hcommand : segment.command = KCP_PUSH)
      (hformed : WellFormed k.config segment) (hnew : k.pending.get? segment.sequence = none)
      (hslot : k.slots < k.config.maxSegments)
      (hahead : Serial.distance segment.sequence k.nextSequence = 0 ∨ k.slots + 1 < k.config.maxSegments)
      (hdrain : ∃ kept, (k.keeping clock segment).drain (k.keeping clock segment).pending.size = (.ok messages, kept) ∧
        k'.config = kept.config ∧ k'.closed = kept.closed ∧ k'.nextSequence = kept.nextSequence ∧
        k'.pending = kept.pending ∧ k'.parts = kept.parts)

theorem distance_self (sequence : Nat) : Serial.distance sequence sequence = 0 := by
  simp [Serial.distance]

theorem assemble_received {k : KcpReceiver} (clock : KcpClock) :
    (∃ messages kept, k.drain k.pending.size = (.ok messages, kept) ∧
      (k.assemble clock).1 = .ok { acknowledge := true, unacknowledged := kept.nextSequence, messages := messages } ∧
      (k.assemble clock).2.config = kept.config ∧ (k.assemble clock).2.closed = kept.closed ∧
      (k.assemble clock).2.nextSequence = kept.nextSequence ∧ (k.assemble clock).2.pending = kept.pending ∧
      (k.assemble clock).2.parts = kept.parts) ∨
    ((k.drain k.pending.size).1 = .error .chain ∧ (k.assemble clock).1 = .error .chain ∧
      (k.assemble clock).2.closed = true) := by
  rw [assemble]
  cases hdrain : k.drain k.pending.size with
  | mk outcome kept =>
    have hchained := k.drain_chained k.pending.size
    rw [hdrain] at hchained
    rcases hchained with ⟨-, messages, hok⟩ | ⟨-, herror, hclosed⟩
    · simp only at hok
      rw [hok]
      exact .inl ⟨messages, kept, rfl, rfl, rfl, rfl, rfl, rfl, rfl⟩
    · simp only at herror hclosed
      rw [herror]
      exact .inr ⟨rfl, rfl, hclosed⟩

theorem accept_received (k : KcpReceiver) (clock : KcpClock) (segment : KcpSegment) :
    Received k clock segment (k.accept clock segment).2 := by
  rw [accept]
  split
  next hother =>
    refine .same rfl rfl rfl rfl rfl fun _ hhead => ?_
    rcases hother with hconv | hcommand
    · exact hconv hhead.1
    · exact hcommand hhead.2.1
  next hours =>
  rw [not_or, not_not, not_not] at hours
  split
  · exact .fails rfl
  next hbad =>
  have hformed : WellFormed k.config segment := ⟨by omega, by omega, by omega⟩
  have hrange := k.config.segments_range
  have haway (h : Serial.distance segment.sequence k.nextSequence ≠ 0) :
      ¬ (segment.conv = k.config.conv ∧ segment.command = KCP_PUSH ∧ segment.sequence = k.nextSequence) := by
    rintro ⟨-, -, heq⟩
    rw [heq, distance_self] at h
    exact h rfl
  simp only
  split
  · exact .same rfl rfl rfl rfl rfl fun _ => haway (by omega)
  split
  · exact .same rfl rfl rfl rfl rfl fun _ => haway (by omega)
  cases hp : k.pending.get? segment.sequence with
  | some previous =>
    simp only
    split
    · exact .fails rfl
    · refine .same rfl rfl rfl rfl rfl fun hmissing hhead => ?_
      rw [hhead.2.2, hmissing] at hp
      cases hp
  | none =>
    simp only
    split
    next hfull => exact .same rfl rfl rfl rfl rfl fun _ => haway hfull.1
    next hroom =>
    split
    · exact .fails rfl
    next hbudget =>
      rcases (k.keeping clock segment).assemble_received clock with
        ⟨messages, kept, hdrain, -, hconfig, hclosed, hnext, hpending, hparts⟩ | ⟨-, -, hclosed⟩
      · refine .keeps messages hours.1 hours.2 hformed hp ?_ ?_
          ⟨kept, hdrain, hconfig, hclosed, hnext, hpending, hparts⟩
        · rw [slots]
          omega
        · rw [slots]
          omega
      · exact .fails hclosed

theorem receive_received {k : KcpReceiver} (hopen : k.closed = false) (clock : KcpClock) (segment : KcpSegment) :
    Received k clock segment (k.receive clock segment).2 := by
  rw [receive, expire, if_neg (by rw [hopen]; decide)]
  by_cases hexpired : k.Expired clock.expire
  · rw [if_pos hexpired]
    exact .fails rfl
  · rw [if_neg hexpired]
    exact k.accept_received clock segment

theorem receive_closed {k : KcpReceiver} (hclosed : k.closed = true) (clock : KcpClock) (segment : KcpSegment) :
    (k.receive clock segment).2 = k := by
  rw [receive, expire, if_pos hclosed]

/-- The head that is kept ends a message exactly if the rest of its message is held. -/
theorem keeping_finishes {k kept : KcpReceiver} {clock : KcpClock} {segment : KcpSegment} {messages : List Bytes}
    (hformed : WellFormed k.config segment) (hhead : segment.sequence = k.nextSequence)
    (hdrain : (k.keeping clock segment).drain (k.keeping clock segment).pending.size = (.ok messages, kept)) :
    messages ≠ [] ↔ k.Finishes segment := by
  have hrange := k.config.segments_range
  have hfragment := hformed.fragment_lt
  have hp : (k.keeping clock segment).pending.get? (k.keeping clock segment).nextSequence = some segment := by
    simp only [keeping]
    rw [Dict.get?_set, if_pos hhead.symm]
  rw [drain_finishes (Nat.le_refl _) hdrain hp (by omega)]
  have hheld : ∀ j, 1 ≤ j → j ≤ segment.fragment →
      (k.keeping clock segment).pending.get? ((k.nextSequence + j) % 2 ^ 32) = k.pending.get? ((k.nextSequence + j) % 2 ^ 32) := by
    intro j hpos hle
    simp only [keeping]
    rw [Dict.get?_set, hhead, if_neg (ahead_ne hpos (by omega))]
  constructor
  · intro h j hpos hle
    rw [← hheld j hpos hle]
    exact h j hpos hle
  · intro h j hpos hle
    rw [show (k.keeping clock segment).nextSequence = k.nextSequence from rfl, hheld j hpos hle]
    exact h j hpos hle

/-- What becomes of the head, in one call. -/
theorem IsHead.accepts_iff {k : KcpReceiver} {segment : KcpSegment} (hhead : k.IsHead segment) (hopen : k.closed = false)
    (hmissing : k.pending.get? k.nextSequence = none) (clock : KcpClock) :
    k.Accepts clock segment ↔ k.slots < k.config.maxSegments ∧ ¬ k.Expired clock.expire ∧ k.Follows segment := by
  have hrange := k.config.segments_range
  have hformed := hhead.formed
  have hnew : k.pending.get? segment.sequence = none := by
    rw [hhead.sequence_eq]
    exact hmissing
  have hfits := hhead.fits
  rw [Accepts, receive, expire, if_neg (by rw [hopen]; decide)]
  by_cases hexpired : k.Expired clock.expire
  · rw [if_pos hexpired]
    refine iff_of_false ?_ fun h => h.2.1 hexpired
    rintro ⟨result, hok, -⟩
    cases hok
  rw [if_neg hexpired]
  simp only
  have haccept : k.accept clock segment =
      if k.config.maxSegments ≤ k.slots then (.error .budget, k.close)
      else (k.keeping clock segment).assemble clock := by
    have hbad : ¬ (KCP_MASK < segment.sequence ∨ k.config.maxSegments ≤ segment.fragment ∨
        KCP_MAX_BODY < segment.body.length) := by
      have := hformed.sequence_le
      have := hformed.fragment_lt
      have := hformed.body_le
      omega
    rw [accept, if_neg (by rw [hhead.conv_eq, hhead.command_eq]; simp), if_neg hbad]
    simp only [hnew]
    have hdistance : Serial.distance segment.sequence k.nextSequence = 0 := by rw [hhead.sequence_eq, distance_self]
    rw [hdistance, if_neg (by decide), if_neg (by omega), if_neg (by simp)]
    by_cases hslot : k.config.maxSegments ≤ k.slots
    · rw [if_pos hslot, if_pos (.inl hslot)]
    · rw [if_neg hslot, if_neg (by rw [slots] at hslot; omega)]
      rfl
  rw [haccept]
  by_cases hslot : k.config.maxSegments ≤ k.slots
  · rw [if_pos hslot]
    refine iff_of_false ?_ fun h => by omega
    rintro ⟨result, hok, -⟩
    cases hok
  rw [if_neg hslot]
  have hsize : (k.keeping clock segment).pending.size = k.pending.size + 1 := by
    simp only [keeping]
    rw [Dict.size_set_of_none hnew]
  have hchained := (k.keeping clock segment).drain_chained (k.keeping clock segment).pending.size
  have hfollows : (chained (k.keeping clock segment).pending.size (k.keeping clock segment).pending
      (k.keeping clock segment).remaining (k.keeping clock segment).nextSequence = true) ↔ k.Follows segment := by
    rw [hsize]
    rfl
  rcases (k.keeping clock segment).assemble_received clock with
    ⟨messages, kept, hdrain, hok, -, hclosed, -⟩ | ⟨hdrain, herror, -⟩
  · rw [hdrain] at hchained
    have hd := drained (Nat.le_refl _) hdrain
    refine iff_of_true ⟨_, hok, rfl, ?_⟩ ⟨by omega, hexpired, ?_⟩
    · rw [hclosed, hd.opened]
      exact hopen
    · rcases hchained with ⟨hyes, -⟩ | ⟨-, hno, -⟩
      · exact hfollows.mp hyes
      · cases hno
  · rw [hdrain] at hchained
    refine iff_of_false ?_ fun h => ?_
    · rintro ⟨result, hok, -⟩
      rw [herror] at hok
      cases hok
    · rcases hchained with ⟨-, messages, hyes⟩ | ⟨hno, -, -⟩
      · cases hyes
      · rw [hfollows.mpr h.2.2] at hno
        cases hno

/-! ## Whole runs -/

/-- What holds of a receiver that is open: the head is missing, and all slots are taken
exactly if a head has wedged it. -/
structure Sound (cfg : KcpConfig) (items : List (KcpClock × KcpSegment)) (k : KcpReceiver) : Prop where
  config : k.config = cfg
  missing : k.pending.get? k.nextSequence = none
  next_lt : k.nextSequence < 2 ^ 32
  slots_le : k.slots ≤ cfg.maxSegments
  full : k.slots = cfg.maxSegments ↔ Wedged cfg items

theorem sound_new (cfg : KcpConfig) : Sound cfg [] (new cfg) where
  config := rfl
  missing := rfl
  next_lt := Nat.lt_succ_of_le cfg.initial_le
  slots_le := Nat.zero_le _
  full := by
    have hrange := cfg.segments_range
    refine iff_of_false ?_ ?_
    · simp only [slots, new, Dict.size_empty, List.length_nil]
      omega
    · rintro ⟨before, item, after, heq, -⟩
      simp at heq

/-- **A call keeps it, or it closes.** -/
theorem Sound.receive {cfg : KcpConfig} {items : List (KcpClock × KcpSegment)} (h : Sound cfg items (run cfg items))
    (hopen : (run cfg items).closed = false) (clock : KcpClock) (segment : KcpSegment) :
    (run cfg (items ++ [(clock, segment)])).closed = true ∨
      Sound cfg (items ++ [(clock, segment)]) (run cfg (items ++ [(clock, segment)])) := by
  have hsnoc := wedged_snoc cfg items (clock, segment)
  rw [run_snoc]
  generalize run cfg items = k at h hopen hsnoc
  obtain ⟨rfl, hmissing, hlt, hle, hfull⟩ := h
  cases receive_received hopen clock segment with
  | fails hclosed => exact .inl hclosed
  | same hconfig hopened hnext hpending hparts hother =>
    have hslots : (k.receive clock segment).2.slots = k.slots := by rw [slots, hpending, hparts, slots]
    refine .inr ⟨hconfig, by rw [hpending, hnext]; exact hmissing, by rw [hnext]; exact hlt, by rw [hslots]; exact hle, ?_⟩
    rw [hslots, hsnoc, hfull]
    exact (or_iff_left fun hw => hother hmissing ⟨hw.conv_eq, hw.command_eq, hw.sequence_eq⟩).symm
  | keeps messages hconv hcommand hformed hnew hslot hahead hdrain =>
    obtain ⟨kept, hdrain, hconfig, hclosed, hnext, hpending, hparts⟩ := hdrain
    have hd := drained (Nat.le_refl _) hdrain
    have hkeeping : (k.keeping clock segment).slots = k.slots + 1 := by
      simp only [slots, keeping]
      rw [Dict.size_set_of_none hnew]
      omega
    have hslots : (k.receive clock segment).2.slots = kept.slots := by rw [slots, hpending, hparts, slots]
    have hbound : kept.slots ≤ k.slots + 1 := by
      by_cases hnil : messages = []
      · rw [hd.same hnil, hkeeping]
      · have := hd.fewer hnil
        omega
    refine .inr ⟨hconfig.trans hd.config, by rw [hpending, hnext]; exact hd.missing, by rw [hnext]; exact hd.next_lt hlt,
      by rw [hslots]; omega, ?_⟩
    have hbefore : ¬ Wedged k.config items := fun hw => by
      have := hfull.mpr hw
      omega
    rw [hslots, hsnoc, or_iff_right hbefore]
    constructor
    · intro hall
      -- the slots are all taken: the segment came to the last one, and no message has ended
      have hlast : k.slots + 1 = k.config.maxSegments := by omega
      have hnil : messages = [] := by
        by_contra hne
        have := hd.fewer hne
        omega
      have hhead : segment.sequence = k.nextSequence := by
        have hzero := hahead.resolve_right (by omega)
        have := hformed.sequence_le
        simp only [Serial.distance, KCP_MASK] at *
        omega
      refine ⟨hconv, hcommand, hhead, hlast, fun hfinishes => ?_⟩
      exact (keeping_finishes hformed hhead hdrain).mpr hfinishes hnil
    · intro hw
      have hnil : messages = [] := by
        by_contra hne
        exact hw.unfinished ((keeping_finishes hformed hw.sequence_eq hdrain).mp hne)
      rw [hd.same hnil, hkeeping]
      exact hw.last

theorem sound_run (cfg : KcpConfig) (items : List (KcpClock × KcpSegment)) :
    (run cfg items).closed = true ∨ Sound cfg items (run cfg items) := by
  induction items using List.reverseRecOn with
  | nil => exact .inr (sound_new cfg)
  | append_singleton items item ih =>
    by_cases hclosed : (run cfg items).closed = true
    · left
      rw [run_snoc, receive_closed hclosed]
      exact hclosed
    · exact (ih.resolve_left hclosed).receive (Bool.not_eq_true _ ▸ hclosed) item.1 item.2

/-- **The head is accepted exactly if no head has wedged the receiver**, the age of the
assembly is below its limit, and what is held behind the head continues its chain. -/
theorem head_accepted_iff (cfg : KcpConfig) (items : List (KcpClock × KcpSegment)) (hopen : (run cfg items).closed = false)
    (clock : KcpClock) {segment : KcpSegment} (hhead : (run cfg items).IsHead segment) :
    (run cfg items).Accepts clock segment ↔
      ¬ Wedged cfg items ∧ ¬ (run cfg items).Expired clock.expire ∧ (run cfg items).Follows segment := by
  have hsound := (sound_run cfg items).resolve_left (by rw [hopen]; decide)
  have hle := hsound.slots_le
  rw [hhead.accepts_iff hopen hsound.missing clock, ← hsound.full, hsound.config]
  exact and_congr_left' ⟨fun h => by omega, fun h => by omega⟩

/-- A conversation of three slots. -/
def threeSlots : KcpConfig := { KcpConfig.ofConv 9 (by decide) with
  maxSegments := 3
  segments_range := by decide }

def push (sequence fragment : Nat) : KcpSegment := ⟨9, KCP_PUSH, fragment, 0, 0, sequence, 0, []⟩

/-- Two messages: of three segments, and of one. The second comes behind the first
segment, the middle one takes the last slot, and the third is turned away. -/
def wedgingItems : List (KcpClock × KcpSegment) := [(⟨0, 0, 0⟩, push 0 2), (⟨0, 0, 0⟩, push 3 0), (⟨0, 0, 0⟩, push 1 1)]

/-- Behind the first segment and the message held ahead, the head takes the last slot. -/
theorem head_accepted_iff_last_slot :
    (run threeSlots (wedgingItems.take 2)).parts = [[]] ∧ (run threeSlots (wedgingItems.take 2)).pending.size = 1 ∧
      (run threeSlots (wedgingItems.take 2)).Accepts ⟨0, 0, 0⟩ (push 1 1) := by
  have hopen : (run threeSlots (wedgingItems.take 2)).closed = false := by decide +kernel
  have hhead : (run threeSlots (wedgingItems.take 2)).IsHead (push 1 1) :=
    ⟨by decide +kernel, rfl, ⟨by decide, by decide +kernel, by decide⟩, by decide +kernel, .inr (by decide +kernel), by decide +kernel⟩
  have hsound := (sound_run threeSlots (wedgingItems.take 2)).resolve_left (by rw [hopen]; decide)
  refine ⟨by decide +kernel, by decide +kernel, (head_accepted_iff threeSlots _ hopen ⟨0, 0, 0⟩ hhead).mpr ⟨?_, ?_, ?_⟩⟩
  · -- two of the three slots are taken
    rw [← hsound.full]
    decide +kernel
  · decide +kernel
  · decide +kernel

theorem head_refused : 2 ≤ threeSlots.maxSegments ∧ (∀ item ∈ wedgingItems, WellFormed threeSlots item.2) ∧
    (run threeSlots wedgingItems).closed = false ∧ (run threeSlots wedgingItems).IsHead (push 2 0) ∧
    ((run threeSlots wedgingItems).receive ⟨0, 0, 0⟩ (push 2 0)).1 = .error .budget ∧
    ((run threeSlots wedgingItems).receive ⟨0, 0, 0⟩ (push 2 0)).2.closed = true := by
  refine ⟨by decide, ?_, by decide +kernel, ⟨by decide +kernel, rfl, ⟨by decide, by decide +kernel, by decide⟩,
    by decide +kernel, by decide +kernel, by decide +kernel⟩, by decide +kernel, by decide +kernel⟩
  intro item hitem
  simp only [wedgingItems, List.mem_cons, List.not_mem_nil, or_false] at hitem
  rcases hitem with rfl | rfl | rfl <;> exact ⟨by decide, by decide, by decide⟩

end KcpReceiver

end CamGuard.Media
