/-
Reads that end once: what each operation does to the two tables of a
`BrokerReads` (`Ends`), and from it that in every run of calls a request has one
ending, with the frame that caused it.

The receipts are a part of the reads (`Tabled`), so a free read slot always has
a receipt to go with it.
-/
import CamGuard.Account.Reads
import CamGuard.Lib.Trace

namespace CamGuard.Account

open CamGuard.Crypto

/-! ## Sequences -/

theorem reserve_next (source : BrokerSequences) (count : Nat) : source.next ≤ (source.reserve count).2.next := by
  unfold BrokerSequences.reserve
  split
  · exact le_refl _
  split
  · exact le_refl _
  split
  · exact le_refl _
  · exact Nat.le_add_right ..

/-- What is given out lies between the old mark and the new one. -/
theorem reserve_ids {source source' : BrokerSequences} {count : Nat} {ids : List Nat}
    (h : source.reserve count = (.ok ids, source')) :
    ids.Nodup ∧ (∀ id ∈ ids, source.next ≤ id ∧ id < source'.next) ∧ source.next ≤ source'.next := by
  unfold BrokerSequences.reserve at h
  split at h
  · cases h
  split at h
  · cases h
  split at h
  · cases h
  · cases h
    refine ⟨List.nodup_range', fun id hid => ?_, Nat.le_add_right ..⟩
    obtain ⟨i, hi, rfl⟩ := List.mem_range'.mp hid
    simp only
    omega

theorem allocate_cases (source : BrokerSequences) :
    (∃ e, source.allocate = (.error e, source)) ∨
      ∃ source' : BrokerSequences, source.allocate = (.ok source.next, source') ∧ source'.next = source.next + 1 := by
  unfold BrokerSequences.allocate BrokerSequences.reserve
  rw [if_neg (by decide)]
  by_cases hclosed : source.closed
  · rw [if_pos hclosed]
    exact .inl ⟨_, rfl⟩
  · rw [if_neg hclosed]
    by_cases hfull : 2 ^ 32 < source.next + 1
    · rw [dif_pos hfull]
      exact .inl ⟨_, rfl⟩
    · rw [dif_neg hfull]
      exact .inr ⟨_, rfl, rfl⟩

/-! ## Receipts -/

/-- The frame is the transport receipt of a sequence. -/
structure IsReceipt (family session sequence : Nat) (plain : Bytes) : Prop where
  length : plain.length = 32
  lead : plain.at_ 0 = 0x7E ∨ plain.at_ 0 = 0x7F
  family : plain.at_ 1 = family
  size : plain.field 2 2 = 32
  session : plain.field 8 4 = session
  sequence : plain.field 4 12 = sequence
  checksum : guteMode1XorChecksum plain = .ok (plain.field 4 16)
  mode : (plain.field 4 20 >>> 16) &&& 3 = 2
  acknowledges : (plain.field 4 20).testBit 20 = true
  plainly : (plain.field 4 20).testBit 21 = false

namespace BrokerTransactions

variable {t : BrokerTransactions} {source : BrokerSequences} {plain : Bytes} {generation : Nat} {now : ℚ}

/-- What is accepted is the receipt of something pending. -/
theorem accept_some {receipt : TransportReceipt} {t' : BrokerTransactions}
    (h : t.accept source plain generation now = (.ok (some receipt), t')) :
    ∃ deadline, t.pending.get? (plain.field 4 12) = some (receipt.ticket, deadline) ∧ now < deadline ∧
      IsReceipt receipt.ticket.kind t.session (plain.field 4 12) plain ∧ receipt.result = plain.field 2 26 ∧
      t' = { t with pending := t.pending.erase (plain.field 4 12) } := by
  unfold BrokerTransactions.accept at h
  split at h
  · cases h
  next hframe =>
  split at h
  · cases h
  next checksum hchecksum =>
  simp only at h
  split at h
  · cases h
  next hflags =>
  split at h
  · cases h
  next ticket deadline hpending =>
  split at h
  · cases h
  next hticket =>
  cases h
  simp only [not_or, not_and, ne_eq, Decidable.not_not, not_le, Bool.not_eq_true, Bool.not_eq_false] at hframe hflags hticket
  obtain ⟨-, -, hlength, hlead, hsize, hsession⟩ := hframe
  obtain ⟨hsum, hmode, hack, hplain⟩ := hflags
  refine ⟨deadline, hpending, hticket.2, ?_, rfl, rfl⟩
  exact {
    length := hlength
    lead := by
      by_cases hlow : plain.at_ 0 = 0x7E
      · exact .inl hlow
      · exact .inr (hlead hlow)
    family := hticket.1
    size := hsize
    session := hsession
    sequence := rfl
    checksum := by rw [hchecksum, hsum]
    mode := hmode
    acknowledges := hack
    plainly := hplain }

theorem accept_other {out : Except GuteFault (Option TransportReceipt)} {t' : BrokerTransactions}
    (h : t.accept source plain generation now = (out, t')) (hout : ∀ receipt, out ≠ .ok (some receipt)) : t' = t := by
  unfold BrokerTransactions.accept at h
  split at h
  · cases h
    rfl
  split at h
  · cases h
    rfl
  simp only at h
  split at h
  · cases h
    rfl
  split at h
  · cases h
    rfl
  split at h
  · cases h
    rfl
  · cases h
    exact absurd rfl (hout _)

/-- The receipt of what is pending is accepted in time. -/
theorem accept_receipt (ticket : ReceiptTicket) {deadline : ℚ} (hactive : t.active source = true)
    (hgeneration : generation = t.generation) (h : IsReceipt ticket.kind t.session ticket.sequence plain)
    (hpending : t.pending.get? ticket.sequence = some (ticket, deadline)) (hnow : now < deadline) :
    t.accept source plain generation now =
      (.ok (some ⟨ticket, plain.field 2 26⟩), { t with pending := t.pending.erase ticket.sequence }) := by
  have hlead : ¬(plain.at_ 0 ≠ 0x7E ∧ plain.at_ 0 ≠ 0x7F) := by
    rcases h.lead with hlead | hlead <;> simp [hlead]
  unfold BrokerTransactions.accept
  rw [if_neg (by simp [hactive, hgeneration, h.length, hlead, h.size, h.session]), h.checksum]
  simp only
  rw [if_neg (by simp [h.mode, h.acknowledges, h.plainly])]
  simp only [h.sequence, hpending]
  rw [if_neg (by simp [h.family, hnow])]

theorem accept_none {family session sequence : Nat} (h : IsReceipt family session sequence plain)
    (hpending : t.pending.get? sequence = none) : t.accept source plain generation now = (.ok none, t) := by
  unfold BrokerTransactions.accept
  split
  · rfl
  rw [h.checksum]
  simp only [h.sequence, hpending, ite_self]

end BrokerTransactions

namespace BrokerReads

/-! ## Tables -/

/-- The request waits. -/
def Holds (b : BrokerReads) (request : ReadRequest) : Prop :=
  ∃ p, b.pending.get? request.ticket.sequence = some p ∧ p.request = request

/-- Every entry is under its own sequence, and a receipt is that of a read. -/
structure Tabled (b : BrokerReads) : Prop where
  sequence : ∀ s p, b.pending.get? s = some p → p.request.ticket.sequence = s
  receipts : ∀ s x, b.receipts.pending.get? s = some x → ∃ p, b.pending.get? s = some p ∧ p.request.ticket = x.1

/-- What an operation does: the reads of `cs` end, the others stay. -/
structure Ends (b b' : BrokerReads) (cs : List ReadCompletion) : Prop where
  tabled : b'.Tabled
  kept : ∀ s p', b'.pending.get? s = some p' →
    ∃ p, b.pending.get? s = some p ∧ p'.request = p.request ∧ p'.deadline = p.deadline
  ended : ∀ s p, b.pending.get? s = some p → (∃ p', b'.pending.get? s = some p') ∨ ∃ c ∈ cs, c.request = p.request
  held : ∀ c ∈ cs, b.Holds c.request ∧ b'.pending.get? c.request.ticket.sequence = none
  nodup : (cs.map ReadCompletion.request).Nodup
  size : b'.pending.size ≤ b.pending.size

variable {b b' b'' : BrokerReads} {cs cs' : List ReadCompletion}

theorem Ends.refl (h : b.Tabled) : Ends b b [] :=
  ⟨h, fun _ p hp => ⟨p, hp, rfl, rfl⟩, fun _ p hp => .inl ⟨p, hp⟩, by simp, by simp, le_refl _⟩

theorem Ends.holds (h : Ends b b' cs) {request : ReadRequest} (hold : b'.Holds request) : b.Holds request := by
  obtain ⟨p', hp', rfl⟩ := hold
  obtain ⟨p, hp, hrequest, -⟩ := h.kept _ p' hp'
  exact ⟨p, hp, hrequest.symm⟩

theorem Ends.trans (h : Ends b b' cs) (h' : Ends b' b'' cs') : Ends b b'' (cs ++ cs') where
  tabled := h'.tabled
  kept := by
    intro s p'' hp''
    obtain ⟨p', hp', hrequest', hdeadline'⟩ := h'.kept s p'' hp''
    obtain ⟨p, hp, hrequest, hdeadline⟩ := h.kept s p' hp'
    exact ⟨p, hp, hrequest'.trans hrequest, hdeadline'.trans hdeadline⟩
  ended := by
    intro s p hp
    rcases h.ended s p hp with ⟨p', hp'⟩ | ⟨c, hc, hrequest⟩
    · obtain ⟨q, hq, hsame, -⟩ := h.kept s p' hp'
      rw [hp] at hq
      cases hq
      rcases h'.ended s p' hp' with hstays | ⟨c, hc, hrequest⟩
      · exact .inl hstays
      · exact .inr ⟨c, List.mem_append_right _ hc, hrequest.trans hsame⟩
    · exact .inr ⟨c, List.mem_append_left _ hc, hrequest⟩
  held := by
    intro c hc
    rcases List.mem_append.mp hc with hc | hc
    · obtain ⟨hheld, hnone⟩ := h.held c hc
      refine ⟨hheld, ?_⟩
      cases hsome : b''.pending.get? c.request.ticket.sequence with
      | none => rfl
      | some p'' =>
        obtain ⟨p', hp', -⟩ := h'.kept _ p'' hsome
        rw [hnone] at hp'
        cases hp'
    · obtain ⟨hheld, hnone⟩ := h'.held c hc
      exact ⟨h.holds hheld, hnone⟩
  nodup := by
    rw [List.map_append, List.nodup_append]
    refine ⟨h.nodup, h'.nodup, ?_⟩
    rintro r hr r' hr' rfl
    obtain ⟨c, hc, rfl⟩ := List.mem_map.mp hr
    obtain ⟨c', hc', heq⟩ := List.mem_map.mp hr'
    obtain ⟨p', hp', -⟩ := (h'.held c' hc').1
    rw [heq, (h.held c hc).2] at hp'
    cases hp'
  size := le_trans h'.size h.size

theorem Tabled.fewer (h : b.Tabled) {receipts : BrokerTransactions}
    (hfewer : ∀ s x, receipts.pending.get? s = some x → b.receipts.pending.get? s = some x) {session : Nat}
    {closed : Bool} : Ends b { b with receipts := receipts, session := session, closed := closed } [] where
  tabled := ⟨h.sequence, fun s x hx => h.receipts s x (hfewer s x hx)⟩
  kept := fun _ p hp => ⟨p, hp, rfl, rfl⟩
  ended := fun _ p hp => .inl ⟨p, hp⟩
  held := by simp
  nodup := by simp
  size := le_refl _

/-- A read whose receipt has come stays the same read. -/
theorem Tabled.noted (h : b.Tabled) {p q : PendingRead} (hp : b.pending.get? p.request.ticket.sequence = some p)
    (hrequest : q.request = p.request) (hdeadline : q.deadline = p.deadline) :
    Ends b { b with pending := b.pending.set p.request.ticket.sequence q } [] where
  tabled := {
    sequence := fun s p' hp' => by
      simp only [Dict.get?_set] at hp'
      split at hp'
      · next hs =>
        cases hp'
        rw [hrequest, hs]
      · exact h.sequence s p' hp'
    receipts := fun s x hx => by
      obtain ⟨p', hp', hticket⟩ := h.receipts s x hx
      simp only [Dict.get?_set]
      by_cases hs : s = p.request.ticket.sequence
      · rw [if_pos hs]
        rw [hs, hp] at hp'
        cases hp'
        exact ⟨q, rfl, by rw [hrequest]; exact hticket⟩
      · rw [if_neg hs]
        exact ⟨p', hp', hticket⟩ }
  kept := fun s p' hp' => by
    simp only [Dict.get?_set] at hp'
    split at hp'
    · next hs =>
      cases hp'
      exact ⟨p, by rw [hs]; exact hp, hrequest, hdeadline⟩
    · exact ⟨p', hp', rfl, rfl⟩
  ended := fun s p' hp' => by
    simp only [Dict.get?_set]
    split
    · exact .inl ⟨q, rfl⟩
    · exact .inl ⟨p', hp'⟩
  held := by simp
  nodup := by simp
  size := by
    simp only
    rw [Dict.size_set_of_some hp]

theorem receipts_cancel (t : BrokerTransactions) (ticket : ReceiptTicket) {s : Nat} {x : ReceiptTicket × ℚ}
    (h : (t.cancel ticket).pending.get? s = some x) :
    t.pending.get? s = some x ∧ (s = ticket.sequence → x.1 ≠ ticket) := by
  unfold BrokerTransactions.cancel at h
  split at h
  · next hnone =>
    refine ⟨h, fun hs => ?_⟩
    rw [hs, hnone] at h
    cases h
  · next held _ hheld =>
    split at h
    · simp only [Dict.get?_erase] at h
      split at h
      · cases h
      · next hs => exact ⟨h, fun hs' => absurd hs' hs⟩
    · next hother =>
      refine ⟨h, fun hs => ?_⟩
      rw [hs, hheld] at h
      cases h
      exact hother

/-- **A read that is finished ends, alone.** -/
theorem finish_ends (h : b.Tabled) {p : PendingRead} (hp : b.pending.get? p.request.ticket.sequence = some p)
    (status : ReadStatus) (errorCode : Option Nat) (value : Json) :
    Ends b (b.finish p status errorCode value).2 [(b.finish p status errorCode value).1] where
  tabled := {
    sequence := fun s p' hp' => by
      simp only [finish, Dict.get?_erase] at hp'
      split at hp'
      · cases hp'
      · exact h.sequence s p' hp'
    receipts := fun s x hx => by
      obtain ⟨hx, hother⟩ := receipts_cancel b.receipts p.request.ticket hx
      obtain ⟨p', hp', hticket⟩ := h.receipts s x hx
      simp only [finish, Dict.get?_erase]
      by_cases hs : s = p.request.ticket.sequence
      · rw [hs, hp] at hp'
        cases hp'
        exact absurd hticket.symm (hother hs)
      · rw [if_neg hs]
        exact ⟨p', hp', hticket⟩ }
  kept := fun s p' hp' => by
    simp only [finish, Dict.get?_erase] at hp'
    split at hp'
    · cases hp'
    · exact ⟨p', hp', rfl, rfl⟩
  ended := fun s p' hp' => by
    simp only [finish, Dict.get?_erase]
    by_cases hs : s = p.request.ticket.sequence
    · rw [hs, hp] at hp'
      cases hp'
      exact .inr ⟨_, List.mem_singleton_self _, rfl⟩
    · rw [if_neg hs]
      exact .inl ⟨p', hp'⟩
  held := by
    intro c hc
    rw [List.mem_singleton.mp hc]
    exact ⟨⟨p, hp, rfl⟩, by simp [finish, Dict.get?_erase]⟩
  nodup := by simp
  size := Dict.size_erase_le ..

/-- Several reads end, each with the same status. -/
theorem finishAll_ends (h : b.Tabled) (status : ReadStatus) {ps : List PendingRead}
    (hps : ∀ p ∈ ps, b.pending.get? p.request.ticket.sequence = some p)
    (hnodup : (ps.map fun p => p.request.ticket.sequence).Nodup) :
    Ends b (finishAll status ps b).2 (finishAll status ps b).1 ∧ (∀ c ∈ (finishAll status ps b).1, c.status = status) ∧
      ∀ p ∈ ps, (finishAll status ps b).2.pending.get? p.request.ticket.sequence = none := by
  induction ps generalizing b with
  | nil => exact ⟨.refl h, by simp [finishAll], by simp⟩
  | cons p rest ih =>
    have hfirst := finish_ends h (hps p List.mem_cons_self) status none .null
    rw [List.map_cons, List.nodup_cons] at hnodup
    have hrest : ∀ q ∈ rest, (b.finish p status).2.pending.get? q.request.ticket.sequence = some q := by
      intro q hq
      have hother : q.request.ticket.sequence ≠ p.request.ticket.sequence := by
        intro heq
        exact hnodup.1 (List.mem_map.mpr ⟨q, hq, heq⟩)
      simp only [finish, Dict.get?_erase, if_neg hother]
      exact hps q (List.mem_cons_of_mem _ hq)
    obtain ⟨hends, hstatus, hnone⟩ := ih hfirst.tabled hrest hnodup.2
    have hall := hfirst.trans hends
    refine ⟨hall, ?_, ?_⟩
    · intro c hc
      rcases List.mem_cons.mp hc with rfl | hc
      · rfl
      · exact hstatus c hc
    · intro q hq
      rcases List.mem_cons.mp hq with rfl | hq
      · exact (hall.held _ List.mem_cons_self).2
      · exact hnone q hq

/-- The values of the table, each under its sequence. -/
theorem Tabled.values (h : b.Tabled) :
    (∀ p ∈ b.pending.values, b.pending.get? p.request.ticket.sequence = some p) ∧
      (b.pending.values.map fun p => p.request.ticket.sequence).Nodup := by
  have hentry : ∀ e ∈ b.pending.entries, e.2.request.ticket.sequence = e.1 := fun e he =>
    h.sequence e.1 e.2 (Dict.get?_eq_some.mpr he)
  constructor
  · intro p hp
    obtain ⟨e, he, rfl⟩ := List.mem_map.mp hp
    rw [hentry e he]
    exact Dict.get?_eq_some.mpr he
  · have hkeys : b.pending.values.map (fun p => p.request.ticket.sequence) = b.pending.keys := by
      rw [Dict.values, Dict.keys, List.map_map]
      exact List.map_congr_left hentry
    rw [hkeys]
    exact b.pending.nodup

/-! ## Operations -/

theorem matchModelReply_shows {loads : Loads} {plain : Bytes} {ticket : ReceiptTicket} {generation session device : Nat}
    {reply : Nat × Json} (h : matchModelReply loads plain ticket generation session device = some reply) :
    generation = ticket.generation ∧ plain.field 8 4 = session ∧ plain.field 8 0x18 = device ∧
      plain.field 4 0x10 = ticket.sequence % 2 ^ 32 := by
  unfold matchModelReply at h
  split at h
  · cases h
  next hframe =>
  simp only [not_or, ne_eq, Decidable.not_not] at hframe
  split at h
  · cases h
  next error value hparse =>
  unfold parseModelReadResponse at hparse
  split at hparse
  · cases hparse
  simp only at hparse
  split at hparse
  · cases hparse
  next hhead =>
  split at hparse
  · cases hparse
  next hdevice =>
  simp only [not_or, ne_eq, Decidable.not_not] at hhead hdevice
  exact ⟨hframe.1, hframe.2.2.2.2.1, hdevice, hhead.2.2.2.2⟩

/-- The read that a frame answers, at the reading made for it. -/
theorem answered_shows {loads : Loads} {plain : Bytes} {generation session : Nat} {clock : Nat → ℚ} {ps : List PendingRead}
    {p : PendingRead} {error : Nat} {value : Json}
    (h : answered loads plain generation session clock ps = some (p, error, value)) :
    p ∈ ps ∧ (∃ i < ps.length, clock i < p.deadline) ∧ generation = p.request.ticket.generation ∧
      plain.field 8 4 = session ∧ plain.field 8 0x18 = p.request.device ∧
      plain.field 4 0x10 = p.request.ticket.sequence % 2 ^ 32 := by
  induction ps generalizing clock with
  | nil => cases h
  | cons first rest ih =>
    have hlater : answered loads plain generation session (fun i => clock (i + 1)) rest = some (p, error, value) →
        p ∈ first :: rest ∧ (∃ i < (first :: rest).length, clock i < p.deadline) ∧
          generation = p.request.ticket.generation ∧ plain.field 8 4 = session ∧
          plain.field 8 0x18 = p.request.device ∧ plain.field 4 0x10 = p.request.ticket.sequence % 2 ^ 32 := by
      intro hrest
      obtain ⟨hmem, ⟨i, hi, hearly⟩, hshows⟩ := ih hrest
      exact ⟨List.mem_cons_of_mem _ hmem, ⟨i + 1, Nat.succ_lt_succ hi, hearly⟩, hshows⟩
    unfold answered at h
    split at h
    · exact hlater h
    next hearly =>
    split at h
    · next hmatch =>
      cases h
      exact ⟨List.mem_cons_self, ⟨0, Nat.succ_pos _, not_le.mp hearly⟩, matchModelReply_shows hmatch⟩
    · exact hlater h

/-- How a frame ends the read `p`: it is the answer to the read, or the receipt of its
sequence with an error, and it came before the deadline. -/
inductive Caused (b : BrokerReads) (plain : Bytes) (clock : Nat → ℚ) (p : PendingRead) (status : ReadStatus) : Prop where
  | response (ends : status = .response) (session : plain.field 8 4 = b.session)
    (device : plain.field 8 0x18 = p.request.device)
    (sequence : plain.field 4 0x10 = p.request.ticket.sequence % 2 ^ 32)
    (early : ∃ i ≤ b.pending.size, clock i < p.deadline)
  | rejected (ends : status = .transportRejected)
    (receipt : IsReceipt p.request.ticket.kind b.receipts.session p.request.ticket.sequence plain)
    (negative : plain.field 2 26 ≠ 0) (early : clock 1 < p.deadline)

/-- **A frame ends at most one read**, before its deadline. -/
theorem accept_ends (loads : Loads) (h : b.Tabled) (source : BrokerSequences) (plain : Bytes) (generation : Nat)
    (clock : Nat → ℚ) :
    (∃ e b', b.accept loads source plain generation clock = (.error e, b') ∧ Ends b b' []) ∨
      ∃ c b', b.accept loads source plain generation clock = (.ok c, b') ∧ Ends b b' c.toList ∧
        ∀ c', c = some c' → b.closed = false ∧ ∃ p, b.pending.get? c'.request.ticket.sequence = some p ∧
          p.request = c'.request ∧ Caused b plain clock p c'.status := by
  unfold BrokerReads.accept
  split
  · exact .inr ⟨none, b, rfl, .refl h, by simp⟩
  next hopen =>
  have hopen : b.closed = false := by
    by_contra hclosed
    exact hopen (.inl (by simpa using hclosed))
  cases haccept : b.receipts.accept source plain generation (clock 0) with
  | mk out receipts =>
    cases out with
    | error e =>
      obtain rfl := BrokerTransactions.accept_other haccept (fun receipt heq => by cases heq)
      exact .inl ⟨e, _, rfl, .refl h⟩
    | ok receipt =>
      cases receipt with
      | some receipt =>
        obtain ⟨deadline, hpending, -, hreceipt, hresult, rfl⟩ := BrokerTransactions.accept_some haccept
        have hreceipts : Ends b { b with
            receipts := { b.receipts with pending := b.receipts.pending.erase (plain.field 4 12) } } [] := by
          refine h.fewer fun s x hx => ?_
          simp only [Dict.get?_erase] at hx
          split at hx
          · cases hx
          · exact hx
        simp only
        split
        · exact .inr ⟨none, _, rfl, hreceipts, by simp⟩
        next p hp =>
        split
        · exact .inr ⟨none, _, rfl, hreceipts, by simp⟩
        next hearly =>
        -- The receipt is of the sequence of its read.
        obtain ⟨q, hq, hticket⟩ := h.receipts _ _ hpending
        have hsequence : receipt.ticket.sequence = plain.field 4 12 := by
          rw [← h.sequence _ q hq, hticket]
        have hown : p.request.ticket.sequence = receipt.ticket.sequence := h.sequence _ p hp
        have hsame : q = p := by
          rw [← hsequence, hp] at hq
          exact (Option.some.inj hq).symm
        have hnoted := hreceipts.tabled.noted (p := p) (q := { p with transportResult := some receipt.result })
          (by rw [hown]; exact hp) rfl rfl
        rw [hown] at hnoted
        split
        · exact .inr ⟨none, _, rfl, hreceipts.trans hnoted, by simp⟩
        next hrejected =>
        have hset : (b.pending.set receipt.ticket.sequence { p with transportResult := some receipt.result }).get?
            p.request.ticket.sequence = some { p with transportResult := some receipt.result } := by
          rw [Dict.get?_set, if_pos hown]
        have hfinish := finish_ends hnoted.tabled (p := { p with transportResult := some receipt.result }) hset
          .transportRejected none .null
        refine .inr ⟨some _, _, rfl, (hreceipts.trans hnoted).trans hfinish, fun c' hc' => ?_⟩
        cases hc'
        refine ⟨hopen, p, ?_, rfl, .rejected rfl ?_ ?_ (not_le.mp hearly)⟩
        · simp only [finish]
          rw [hown]
          exact hp
        · rw [← hsame, hticket, hsequence]
          exact hreceipt
        · rw [← hresult]
          simpa [TransportReceipt.accepted] using hrejected
      | none =>
        obtain rfl := BrokerTransactions.accept_other haccept (fun receipt heq => by cases heq)
        simp only
        split
        · exact .inr ⟨none, _, rfl, .refl h, by simp⟩
        next p error value hanswered =>
        obtain ⟨hmem, ⟨i, hi, hearly⟩, -, hsession, hdevice, hsequence⟩ := answered_shows hanswered
        have hp := h.values.1 p hmem
        have hi : i + 1 ≤ b.pending.size := hi.trans_eq (List.length_map ..)
        refine .inr ⟨some _, _, rfl, finish_ends h hp .., fun c' hc' => ?_⟩
        cases hc'
        exact ⟨hopen, p, hp, rfl, .response rfl hsession hdevice hsequence ⟨i + 1, hi, hearly⟩⟩

theorem receipts_poll (t : BrokerTransactions) (now : ℚ) {s : Nat} {x : ReceiptTicket × ℚ}
    (h : (t.poll now).pending.get? s = some x) : t.pending.get? s = some x := by
  have hfold : ∀ (l : List (Nat × ReceiptTicket × ℚ)) (d : Dict Nat (ReceiptTicket × ℚ)),
      (l.foldl (fun d e => d.erase e.1) d).get? s = some x → d.get? s = some x := by
    intro l
    induction l with
    | nil => exact fun d hd => hd
    | cons e l ih =>
      intro d hd
      have hd := ih _ hd
      rw [Dict.get?_erase] at hd
      split at hd
      · cases hd
      · exact hd
  exact hfold _ _ h

theorem poll_ends (h : b.Tabled) (clock : Nat → ℚ) :
    Ends b (b.poll clock).2 (b.poll clock).1 ∧ ∀ c ∈ (b.poll clock).1, c.status = .timeout := by
  obtain ⟨hvalues, hnodup⟩ := h.values
  have hsub : (b.pending.values.filter fun pending => decide (pending.deadline ≤ clock 0)).Sublist b.pending.values :=
    List.filter_sublist
  obtain ⟨hends, hstatus, -⟩ := finishAll_ends h .timeout (fun p hp => hvalues p (hsub.subset hp))
    (hnodup.sublist (hsub.map _))
  have hpoll : Ends b (b.poll clock).2 ((b.poll clock).1 ++ []) :=
    hends.trans (hends.tabled.fewer fun s x hx => receipts_poll _ (clock 1) hx)
  rw [List.append_nil] at hpoll
  exact ⟨hpoll, hstatus⟩

theorem cancel_ends (h : b.Tabled) (ticket : ReceiptTicket) :
    Ends b (b.cancel ticket).2 (b.cancel ticket).1.toList ∧ ∀ c ∈ (b.cancel ticket).1, c.status = .cancelled := by
  unfold cancel
  split
  · exact ⟨.refl h, by simp⟩
  next p hp =>
  split
  · exact ⟨.refl h, by simp⟩
  next hticket =>
  have hticket : p.request.ticket = ticket := by simpa using hticket
  subst hticket
  exact ⟨finish_ends h hp .cancelled none .null, fun c hc => by cases hc; rfl⟩

theorem close_ends (h : b.Tabled) :
    Ends b b.close.2 b.close.1 ∧ (∀ c ∈ b.close.1, c.status = .cancelled) ∧ ∀ s, b.close.2.pending.get? s = none := by
  obtain ⟨hvalues, hnodup⟩ := h.values
  obtain ⟨hends, hstatus, hnone⟩ := finishAll_ends h .cancelled hvalues hnodup
  have hempty : ∀ s x, ((finishAll .cancelled b.pending.values b).2.receipts.close).pending.get? s = some x →
      (finishAll .cancelled b.pending.values b).2.receipts.pending.get? s = some x := fun s x hx => by
    rw [BrokerTransactions.close, Dict.get?_empty] at hx
    cases hx
  have hclose : Ends b b.close.2 (b.close.1 ++ []) := hends.trans (hends.tabled.fewer hempty)
  rw [List.append_nil] at hclose
  refine ⟨hclose, hstatus, fun s => ?_⟩
  cases hs : b.close.2.pending.get? s with
  | none => rfl
  | some p' =>
    obtain ⟨p, hp, -⟩ := hends.kept s p' hs
    have hmem : p ∈ b.pending.values := List.mem_map.mpr ⟨(s, p), Dict.get?_eq_some.mp hp, rfl⟩
    have hgone := hnone p hmem
    rw [h.sequence s p hp] at hgone
    exact absurd hs (by rw [show b.close.2.pending.get? s = none from hgone]; simp)

/-- What only `close` changes: the identity that frames are compared with. -/
def identity (b : BrokerReads) : Nat × Bool × Nat × Nat × Bool :=
  (b.session, b.closed, b.receipts.session, b.receipts.generation, b.receipts.closed)

theorem closed_eq (h : b'.identity = b.identity) : b'.closed = b.closed := congrArg (fun i => i.2.1) h

theorem sessions_eq (h : b'.identity = b.identity) :
    b'.session = b.session ∧ b'.receipts.session = b.receipts.session :=
  ⟨congrArg Prod.fst h, congrArg (fun i => i.2.2.1) h⟩

theorem receipts_cancel_identity (t : BrokerTransactions) (ticket : ReceiptTicket) :
    (t.cancel ticket).session = t.session ∧ (t.cancel ticket).generation = t.generation ∧
      (t.cancel ticket).closed = t.closed := by
  unfold BrokerTransactions.cancel
  split
  · exact ⟨rfl, rfl, rfl⟩
  split <;> exact ⟨rfl, rfl, rfl⟩

theorem finish_identity (b : BrokerReads) (p : PendingRead) (status : ReadStatus) (errorCode : Option Nat) (value : Json) :
    (b.finish p status errorCode value).2.identity = b.identity := by
  obtain ⟨hsession, hgeneration, hclosed⟩ := receipts_cancel_identity b.receipts p.request.ticket
  simp only [identity, finish, hsession, hgeneration, hclosed]

theorem finishAll_identity (status : ReadStatus) (ps : List PendingRead) :
    (finishAll status ps b).2.identity = b.identity := by
  induction ps generalizing b with
  | nil => rfl
  | cons p rest ih => exact ih.trans (b.finish_identity p status none .null)

theorem receipts_accept_identity (t : BrokerTransactions) (source : BrokerSequences) (plain : Bytes) (generation : Nat)
    (now : ℚ) : (t.accept source plain generation now).2.session = t.session ∧
      (t.accept source plain generation now).2.generation = t.generation ∧
      (t.accept source plain generation now).2.closed = t.closed := by
  unfold BrokerTransactions.accept
  split
  · exact ⟨rfl, rfl, rfl⟩
  split
  · exact ⟨rfl, rfl, rfl⟩
  simp only
  split
  · exact ⟨rfl, rfl, rfl⟩
  split
  · exact ⟨rfl, rfl, rfl⟩
  split <;> exact ⟨rfl, rfl, rfl⟩

theorem accept_identity (loads : Loads) (source : BrokerSequences) (plain : Bytes) (generation : Nat) (clock : Nat → ℚ) :
    (b.accept loads source plain generation clock).2.identity = b.identity := by
  have hreceipts : ∀ out receipts pending, b.receipts.accept source plain generation (clock 0) = (out, receipts) →
      identity { b with receipts := receipts, pending := pending } = b.identity := by
    intro out receipts pending heq
    obtain ⟨hsession, hgeneration, hclosed⟩ := receipts_accept_identity b.receipts source plain generation (clock 0)
    rw [heq] at hsession hgeneration hclosed
    simp only at hsession hgeneration hclosed
    simp only [identity, hsession, hgeneration, hclosed]
  unfold BrokerReads.accept
  split
  · rfl
  split
  · next heq => exact hreceipts _ _ _ heq
  · next heq =>
    simp only
    split
    · exact hreceipts _ _ _ heq
    split
    · exact hreceipts _ _ _ heq
    split
    · exact hreceipts _ _ _ heq
    · exact (finish_identity _ _ .transportRejected none .null).trans (hreceipts _ _ _ heq)
  · next heq =>
    simp only
    split
    · exact hreceipts _ _ _ heq
    · next error value _ =>
      exact (finish_identity _ _ .response (some error) value).trans (hreceipts _ _ _ heq)

theorem poll_identity (b : BrokerReads) (clock : Nat → ℚ) : (b.poll clock).2.identity = b.identity :=
  finishAll_identity (b := b) .timeout (b.pending.values.filter fun pending => decide (pending.deadline ≤ clock 0))

theorem cancel_identity (b : BrokerReads) (ticket : ReceiptTicket) : (b.cancel ticket).2.identity = b.identity := by
  unfold cancel
  split
  · rfl
  split
  · rfl
  · exact b.finish_identity _ .cancelled none .null

/-- **A free read slot is a free receipt slot.** -/
theorem Tabled.receipts_size (h : b.Tabled) : b.receipts.pending.size ≤ b.pending.size := by
  have hkeys : ∀ s ∈ b.receipts.pending.keys, s ∈ b.pending.keys := by
    intro s hs
    obtain ⟨x, hx⟩ := Dict.mem_keys.mp hs
    obtain ⟨p, hp, -⟩ := h.receipts s x hx
    exact Dict.mem_keys.mpr ⟨p, hp⟩
  have hsize := Dict.size_le_of_keys hkeys
  rwa [Dict.keys, List.length_map] at hsize

/-- What a new request leaves. -/
structure Registered (b : BrokerReads) (source : BrokerSequences) (request : ReadRequest) (deadline : ℚ) (b' : BrokerReads)
    (source' : BrokerSequences) : Prop where
  tabled : b'.Tabled
  kind : request.ticket.kind = 0xB7
  sequence : request.ticket.sequence = source.next
  next : source'.next = source.next + 1
  pending : ∀ s, b'.pending.get? s = if s = source.next then some ⟨request, deadline, none⟩ else b.pending.get? s
  room : b.pending.size < MAX_PENDING
  identity : b'.identity = b.identity
  closed : b.closed = false

/-- A registration is refused and leaves the tables, or it adds one read. -/
theorem register_cases [Rounding] (h : b.Tabled) (source : BrokerSequences) (device : Nat) (path : String) (timeout : ℚ)
    (clock : Nat → ℚ) :
    (∃ e, b.register source device path timeout clock = (.error e, b, source) ∧ e ≠ .transaction .capacity) ∨
      ∃ request b' source', b.register source device path timeout clock = (.ok request, b', source') ∧
        request.device = device ∧ Registered b source request (Rounding.round (clock 0 + timeout)) b' source' := by
  unfold BrokerReads.register
  split
  · exact .inl ⟨_, rfl, by simp⟩
  next hopen =>
  split
  · exact .inl ⟨_, rfl, by simp⟩
  split
  · exact .inl ⟨_, rfl, by simp⟩
  next hroom =>
  simp only [not_or, Bool.not_eq_true, Bool.not_eq_false] at hopen
  unfold BrokerTransactions.register
  rw [if_neg (by rw [hopen.2]; simp)]
  by_cases hbounds : 255 < 0xB7 ∨ timeout ≤ 0 ∨ MAX_TIMEOUT < timeout
  · rw [if_pos hbounds]
    exact .inl ⟨_, rfl, by simp⟩
  rw [if_neg hbounds, if_neg (by have := h.receipts_size; omega)]
  rcases allocate_cases source with ⟨e, he⟩ | ⟨source', hsource, hnext⟩
  · rw [he]
    exact .inl ⟨_, rfl, by simp⟩
  · rw [hsource]
    refine .inr ⟨_, _, _, rfl, rfl, ?_⟩
    refine {
      tabled := ⟨fun s p hp => ?_, fun s x hx => ?_⟩
      kind := rfl
      sequence := rfl
      next := hnext
      pending := fun s => Dict.get?_set ..
      room := not_le.mp hroom
      identity := rfl
      closed := hopen.1 }
    · simp only [Dict.get?_set] at hp
      split at hp
      · next hs =>
        cases hp
        exact hs.symm
      · exact h.sequence s p hp
    · simp only [Dict.get?_set] at hx ⊢
      by_cases hs : s = source.next
      · rw [if_pos hs] at hx ⊢
        cases hx
        exact ⟨_, rfl, rfl⟩
      · rw [if_neg hs] at hx ⊢
        exact h.receipts s x hx

end BrokerReads

/-! ## Runs -/

/-- The answer to the read with sequence 5, decrypted, without a value. -/
def deviceAnswer : Bytes :=
  ([0x7E, 0xB8] : Bytes) ++ Bytes.ofNat 2 38 ++ Bytes.ofNat 8 7 ++ Bytes.ofNat 4 0 ++ Bytes.ofNat 4 5 ++
    Bytes.ofNat 4 ((2 <<< 16) ||| (1 <<< 21)) ++ Bytes.ofNat 8 9 ++ Bytes.zeros 6

/-- The receipt of the read with sequence 9, decrypted, with error 1. -/
def rejectingReceipt : Bytes :=
  ([0x7E, 0xB7] : Bytes) ++ Bytes.ofNat 2 32 ++ Bytes.ofNat 8 7 ++ Bytes.ofNat 4 9 ++ Bytes.ofNat 4 3389296 ++
    Bytes.ofNat 4 ((2 <<< 16) ||| (1 <<< 20)) ++ Bytes.ofNat 2 0 ++ Bytes.ofNat 2 1 ++ Bytes.zeros 4

namespace ReadsRun

/-- The requests that were registered. -/
def registered (log : List ReadsEvent) : List ReadRequest := log.flatMap fun e => e.registered.toList

/-- The reads that have ended. -/
def endings (log : List ReadsEvent) : List ReadCompletion := log.flatMap ReadsEvent.completions

/-- The sequences that were given out, to a request or to somebody else. -/
def given (log : List ReadsEvent) : List Nat :=
  log.flatMap fun e => (e.registered.toList.map fun request => request.ticket.sequence) ++ e.reserved

theorem registered_snoc (log : List ReadsEvent) (e : ReadsEvent) :
    registered (log ++ [e]) = registered log ++ e.registered.toList := by
  simp [registered]

theorem endings_snoc (log : List ReadsEvent) (e : ReadsEvent) : endings (log ++ [e]) = endings log ++ e.completions := by
  simp [endings]

theorem given_snoc (log : List ReadsEvent) (e : ReadsEvent) :
    given (log ++ [e]) = given log ++ ((e.registered.toList.map fun request => request.ticket.sequence) ++ e.reserved) := by
  simp [given]

/-- A registered request has a sequence that was given out. -/
theorem registered_given {log : List ReadsEvent} {request : ReadRequest} (h : request ∈ registered log) :
    request.ticket.sequence ∈ given log := by
  obtain ⟨e, he, hrequest⟩ := List.mem_flatMap.mp h
  exact List.mem_flatMap.mpr ⟨e, he, List.mem_append_left _ (List.mem_map.mpr ⟨request, hrequest, rfl⟩)⟩

section

variable [Rounding]

/-- The request was registered with this deadline. -/
def Due (log : List ReadsEvent) (request : ReadRequest) (deadline : ℚ) : Prop :=
  ∃ e ∈ log, e.registered = some request ∧ ∃ path timeout, e.call = .register request.device path timeout ∧
    deadline = Rounding.round (e.clock 0 + timeout)

/-- Why a read has ended as it has: an answer and a rejection are those of a
frame for this read, the one an answer and the other a receipt with an error, and it
came before the deadline. The readings of the call are one for the receipt and one
for each pending read, or for the read of the receipt. -/
structure Ended (session : Nat) (before : List ReadsEvent) (e : ReadsEvent) (c : ReadCompletion) : Prop where
  response : c.status = .response → ∃ plain generation, e.call = .accept plain generation ∧ plain.field 8 4 = session ∧
    plain.field 8 0x18 = c.request.device ∧ plain.field 4 0x10 = c.request.ticket.sequence ∧
    ∃ deadline, Due before c.request deadline ∧ ∃ i ≤ MAX_PENDING, e.clock i < deadline
  rejected : c.status = .transportRejected → ∃ plain generation, e.call = .accept plain generation ∧
    IsReceipt 0xB7 session c.request.ticket.sequence plain ∧ plain.field 2 26 ≠ 0 ∧
    ∃ deadline, Due before c.request deadline ∧ e.clock 1 < deadline

/-- A call that registers nothing. -/
structure Settled (b : BrokerReads) (source : BrokerSequences) (e : ReadsEvent) (b' : BrokerReads)
    (source' : BrokerSequences) : Prop where
  registered : e.registered = none
  ends : BrokerReads.Ends b b' e.completions
  reserved : e.reserved.Nodup ∧ ∀ id ∈ e.reserved, source.next ≤ id ∧ id < source'.next
  next : source.next ≤ source'.next
  identity : (b'.identity = b.identity ∧ e.call ≠ .close) ∨
    (b'.closed = true ∧ ∀ s, b'.pending.get? s = none)
  cause : (∀ c ∈ e.completions, c.status = .timeout ∨ c.status = .cancelled) ∨
    ∃ plain generation, e.call = .accept plain generation ∧ ∀ c ∈ e.completions,
      b.closed = false ∧ ∃ p, b.pending.get? c.request.ticket.sequence = some p ∧ p.request = c.request ∧
        BrokerReads.Caused b plain e.clock p c.status

/-- **What a call does**: it registers one request, or it ends reads. -/
theorem perform_cases (loads : Loads) (clock : Nat → ℚ) (call : ReadsCall) {b : BrokerReads} (h : b.Tabled)
    (source : BrokerSequences) :
    (∃ request path timeout b' source', call = .register request.device path timeout ∧
      perform loads clock call b source = (⟨clock, call, some request, [], []⟩, b', source') ∧
        BrokerReads.Registered b source request (Rounding.round (clock 0 + timeout)) b' source') ∨
      ∃ e b' source', perform loads clock call b source = (e, b', source') ∧ e.clock = clock ∧ e.call = call ∧
        Settled b source e b' source' := by
  cases call with
  | register device path timeout =>
    simp only [perform]
    rcases BrokerReads.register_cases h source device path timeout clock with
      ⟨e, he, -⟩ | ⟨request, b', source', hok, hdevice, hregistered⟩
    · rw [he]
      exact .inr ⟨_, _, _, rfl, rfl, rfl, rfl, .refl h, ⟨.nil, by simp⟩, le_refl _, .inl ⟨rfl, by simp⟩, .inl (by simp)⟩
    · rw [hok]
      exact .inl ⟨request, path, timeout, b', source', by rw [hdevice], rfl, hregistered⟩
  | accept plain generation =>
    simp only [perform]
    have hidentity := BrokerReads.accept_identity (b := b) loads source plain generation clock
    rcases BrokerReads.accept_ends loads h source plain generation clock with
      ⟨e, b', he, hends⟩ | ⟨c, b', hok, hends, hcaused⟩
    · rw [he] at hidentity ⊢
      exact .inr ⟨_, _, _, rfl, rfl, rfl, rfl, hends, ⟨.nil, by simp⟩, le_refl _, .inl ⟨hidentity, by simp⟩,
        .inl (by simp)⟩
    · rw [hok] at hidentity ⊢
      exact .inr ⟨_, _, _, rfl, rfl, rfl, rfl, hends, ⟨.nil, by simp⟩, le_refl _, .inl ⟨hidentity, by simp⟩,
        .inr ⟨plain, generation, rfl, fun c' hc' => hcaused c' (Option.mem_toList.mp hc')⟩⟩
  | poll =>
    obtain ⟨hends, hstatus⟩ := BrokerReads.poll_ends h clock
    exact .inr ⟨_, _, _, rfl, rfl, rfl, rfl, hends, ⟨.nil, by simp⟩, le_refl _, .inl ⟨b.poll_identity clock, by simp⟩,
      .inl fun c hc => .inl (hstatus c hc)⟩
  | cancel ticket =>
    obtain ⟨hends, hstatus⟩ := BrokerReads.cancel_ends h ticket
    exact .inr ⟨_, _, _, rfl, rfl, rfl, rfl, hends, ⟨.nil, by simp⟩, le_refl _, .inl ⟨b.cancel_identity ticket, by simp⟩,
      .inl fun c hc => .inr (hstatus c (Option.mem_toList.mp hc))⟩
  | close =>
    obtain ⟨hends, hstatus, hnone⟩ := BrokerReads.close_ends h
    exact .inr ⟨_, _, _, rfl, rfl, rfl, rfl, hends, ⟨.nil, by simp⟩, le_refl _, .inr ⟨rfl, hnone⟩,
      .inl fun c hc => .inr (hstatus c hc)⟩
  | reserve count =>
    simp only [perform]
    have hnext := reserve_next source count
    cases hreserve : source.reserve count with
    | mk out source' =>
      rw [hreserve] at hnext
      cases out with
      | error e =>
        exact .inr ⟨_, _, _, rfl, rfl, rfl, rfl, .refl h, ⟨.nil, by simp⟩, hnext, .inl ⟨rfl, by simp⟩, .inl (by simp)⟩
      | ok ids =>
        obtain ⟨hnodup, hids, -⟩ := reserve_ids hreserve
        exact .inr ⟨_, _, _, rfl, rfl, rfl, rfl, .refl h, ⟨hnodup, hids⟩, hnext, .inl ⟨rfl, by simp⟩, .inl (by simp)⟩
  | retire =>
    exact .inr ⟨_, _, _, rfl, rfl, rfl, rfl, .refl h, ⟨.nil, by simp⟩, le_refl _, .inl ⟨rfl, by simp⟩,
      .inl (by simp)⟩

/-- What holds in every run of reads made for `session`. -/
structure Counted (session : Nat) (r : ReadsRun) : Prop where
  tabled : r.reads.Tabled
  size : r.reads.pending.size ≤ MAX_PENDING
  due : ∀ s p, r.reads.pending.get? s = some p → Due r.log p.request p.deadline
  settled : ∀ request ∈ registered r.log,
    r.reads.Holds request ∨ request ∈ (endings r.log).map ReadCompletion.request
  ended : ∀ c ∈ endings r.log, c.request ∈ registered r.log ∧ ¬ r.reads.Holds c.request
  once : ((endings r.log).map ReadCompletion.request).Nodup
  given : (given r.log).Nodup
  below : ∀ s ∈ ReadsRun.given r.log, s < r.source.next
  kind : ∀ request ∈ registered r.log, request.ticket.kind = 0xB7
  identity : r.reads.closed = false → r.reads.session = session ∧ r.reads.receipts.session = session
  closed : r.reads.closed = true → ∀ s, r.reads.pending.get? s = none
  close : (∃ e ∈ r.log, e.call = .close) → r.reads.closed = true
  causes : Justified (fun before e => ∀ c ∈ e.completions, Ended session before e c) r.log

theorem Due.snoc {log : List ReadsEvent} {request : ReadRequest} {deadline : ℚ} (h : Due log request deadline)
    (e : ReadsEvent) : Due (log ++ [e]) request deadline := by
  obtain ⟨first, hfirst, hregistered⟩ := h
  exact ⟨first, List.mem_append_left _ hfirst, hregistered⟩

theorem Due.registered {log : List ReadsEvent} {request : ReadRequest} {deadline : ℚ} (h : Due log request deadline) :
    request ∈ registered log := by
  obtain ⟨e, he, hregistered, -⟩ := h
  exact List.mem_flatMap.mpr ⟨e, he, by rw [hregistered]; simp⟩

variable {session : Nat} {r : ReadsRun}

theorem Counted.register (h : Counted session r) {e : ReadsEvent} {request : ReadRequest} {path : String} {timeout : ℚ}
    {b' : BrokerReads} {source' : BrokerSequences} (he : e = ⟨e.clock, e.call, some request, [], []⟩)
    (hcall : e.call = .register request.device path timeout)
    (hregistered : BrokerReads.Registered r.reads r.source request (Rounding.round (e.clock 0 + timeout)) b' source') :
    Counted session ⟨b', source', r.log ++ [e]⟩ := by
  have hrequest : e.registered = some request := by rw [he]
  have hcompletions : e.completions = [] := by rw [he]
  have hreserved : e.reserved = [] := by rw [he]
  have hnew : ∀ s ∈ ReadsRun.given r.log, s ≠ r.source.next := fun s hs => (h.below s hs).ne
  have hfresh : ∀ request', r.reads.Holds request' → request'.ticket.sequence ≠ r.source.next := by
    rintro request' ⟨p, hp, rfl⟩
    exact hnew _ (registered_given (h.due _ p hp).registered)
  have hnone : r.reads.pending.get? r.source.next = none := by
    cases hsome : r.reads.pending.get? r.source.next with
    | none => rfl
    | some p =>
      have hown := h.tabled.sequence _ p hsome
      exact absurd hown (hfresh p.request ⟨p, by rw [hown]; exact hsome, rfl⟩)
  have hholds : ∀ request', request' ≠ request → (BrokerReads.Holds b' request' ↔ r.reads.Holds request') := by
    intro request' hne
    constructor
    · rintro ⟨p, hp, rfl⟩
      rw [hregistered.pending] at hp
      split at hp
      · cases hp
        exact absurd rfl hne
      · exact ⟨p, hp, rfl⟩
    · intro hold
      obtain ⟨p, hp, hp'⟩ := hold
      exact ⟨p, by rw [hregistered.pending, if_neg (hfresh request' ⟨p, hp, hp'⟩)]; exact hp, hp'⟩
  have hnot : request ∉ registered r.log := fun hmem => hnew _ (registered_given hmem) hregistered.sequence
  exact {
    tabled := hregistered.tabled
    size := by
      have hkeys : ∀ s ∈ b'.pending.keys, s ∈ r.source.next :: r.reads.pending.keys := by
        intro s hs
        obtain ⟨p, hp⟩ := Dict.mem_keys.mp hs
        rw [hregistered.pending] at hp
        split at hp
        · next hs => exact hs ▸ List.mem_cons_self
        · exact List.mem_cons_of_mem _ (Dict.mem_keys.mpr ⟨p, hp⟩)
      have hsize := Dict.size_le_of_keys hkeys
      rw [List.length_cons, Dict.keys, List.length_map] at hsize
      exact le_trans hsize hregistered.room
    due := fun s p hp => by
      rw [hregistered.pending] at hp
      split at hp
      · cases hp
        exact ⟨e, by simp, hrequest, path, timeout, hcall, rfl⟩
      · exact (h.due s p hp).snoc e
    settled := fun request' hmem => by
      simp only [registered_snoc, endings_snoc, hrequest, hcompletions, List.append_nil, Option.toList_some,
        List.mem_append, List.mem_singleton] at hmem ⊢
      by_cases hne : request' = request
      · subst hne
        exact .inl ⟨_, by rw [hregistered.pending, if_pos hregistered.sequence], rfl⟩
      · rw [hholds request' hne]
        exact h.settled request' (hmem.resolve_right hne)
    ended := fun c hc => by
      simp only [registered_snoc, endings_snoc, hrequest, hcompletions, List.append_nil, Option.toList_some,
        List.mem_append, List.mem_singleton] at hc ⊢
      obtain ⟨hmem, hgone⟩ := h.ended c hc
      have hne : c.request ≠ request := fun heq => hnot (heq ▸ hmem)
      exact ⟨.inl hmem, by rw [hholds c.request hne]; exact hgone⟩
    once := by
      simp only [endings_snoc, hcompletions, List.append_nil]
      exact h.once
    given := by
      simp only [given_snoc, hrequest, hreserved, List.append_nil, Option.toList_some, List.map_singleton,
        hregistered.sequence]
      rw [List.nodup_append]
      exact ⟨h.given, by simp, fun s hs s' hs' => by rw [List.mem_singleton.mp hs']; exact hnew s hs⟩
    below := fun s hs => by
      simp only [given_snoc, hrequest, hreserved, List.append_nil, Option.toList_some, List.map_singleton,
        hregistered.sequence, List.mem_append, List.mem_singleton] at hs
      rw [hregistered.next]
      rcases hs with hs | hs
      · have := h.below s hs
        omega
      · omega
    kind := fun request' hmem => by
      simp only [registered_snoc, hrequest, Option.toList_some, List.mem_append, List.mem_singleton] at hmem
      rcases hmem with hmem | rfl
      · exact h.kind request' hmem
      · exact hregistered.kind
    identity := fun _ => by
      obtain ⟨hsession, hreceipts⟩ := BrokerReads.sessions_eq hregistered.identity
      rw [hsession, hreceipts]
      exact h.identity hregistered.closed
    closed := fun hclosed => by
      rw [show b'.closed = false from (BrokerReads.closed_eq hregistered.identity).trans hregistered.closed] at hclosed
      cases hclosed
    close := by
      rintro ⟨first, hfirst, hclose⟩
      rcases List.mem_append.mp hfirst with hfirst | hfirst
      · have hwas := h.close ⟨first, hfirst, hclose⟩
        rw [hregistered.closed] at hwas
        cases hwas
      · rw [List.mem_singleton.mp hfirst, hcall] at hclose
        cases hclose
    causes := h.causes.snoc (by rw [hcompletions]; simp) }

/-- What ends was registered. -/
theorem Counted.registered_of_ends (h : Counted session r) {b' : BrokerReads} {cs : List ReadCompletion}
    (hends : BrokerReads.Ends r.reads b' cs) {c : ReadCompletion} (hc : c ∈ cs) : c.request ∈ registered r.log := by
  obtain ⟨p, hp, hrequest⟩ := (hends.held c hc).1
  rw [← hrequest]
  exact (h.due _ p hp).registered

/-- Why it ends. -/
theorem Counted.cause (h : Counted session r) {e : ReadsEvent} {b' : BrokerReads} {source' : BrokerSequences}
    (hsettled : Settled r.reads r.source e b' source') {c : ReadCompletion} (hc : c ∈ e.completions) :
    Ended session r.log e c := by
  have hmem := h.registered_of_ends hsettled.ends hc
  rcases hsettled.cause with hstatus | ⟨plain, generation, hcall, hcaused⟩
  · constructor <;> intro hthis <;> rcases hstatus c hc with hother | hother <;> rw [hother] at hthis <;> cases hthis
  obtain ⟨hopen, p, hp, hrequest, hcause⟩ := hcaused c hc
  obtain ⟨hsession, hreceipts⟩ := h.identity hopen
  have hbelow : c.request.ticket.sequence < 2 ^ 32 :=
    lt_of_lt_of_le (h.below _ (registered_given hmem)) r.source.next_le
  have hdue : Due r.log c.request p.deadline := by
    rw [← hrequest]
    exact h.due _ p hp
  cases hcause with
  | response hends hthis hdevice hsequence hearly =>
    obtain ⟨i, hi, hearly⟩ := hearly
    rw [hrequest] at hdevice hsequence
    rw [Nat.mod_eq_of_lt hbelow] at hsequence
    refine ⟨fun _ => ⟨plain, generation, hcall, hthis.trans hsession, hdevice, hsequence, p.deadline, hdue, i,
      le_trans hi h.size, hearly⟩, fun hother => ?_⟩
    rw [hends] at hother
    cases hother
  | rejected hends hreceipt hnegative hearly =>
    rw [hrequest, h.kind _ hmem, hreceipts] at hreceipt
    refine ⟨fun hother => ?_, fun _ => ⟨plain, generation, hcall, hreceipt, hnegative, p.deadline, hdue, hearly⟩⟩
    rw [hends] at hother
    cases hother

theorem Counted.settle (h : Counted session r) {e : ReadsEvent} {b' : BrokerReads} {source' : BrokerSequences}
    (hsettled : Settled r.reads r.source e b' source') : Counted session ⟨b', source', r.log ++ [e]⟩ := by
  have hends := hsettled.ends
  have hgone : ∀ c ∈ e.completions, ¬ b'.Holds c.request := by
    rintro c hc ⟨p, hp, -⟩
    rw [(hends.held c hc).2] at hp
    cases hp
  exact {
    tabled := hends.tabled
    size := le_trans hends.size h.size
    due := fun s p' hp' => by
      obtain ⟨p, hp, hrequest, hdeadline⟩ := hends.kept s p' hp'
      rw [hrequest, hdeadline]
      exact (h.due s p hp).snoc e
    settled := fun request hmem => by
      simp only [registered_snoc, endings_snoc, hsettled.registered, Option.toList_none, List.append_nil,
        List.map_append, List.mem_append] at hmem ⊢
      rcases h.settled request hmem with ⟨p, hp, rfl⟩ | hended
      · rcases hends.ended _ p hp with ⟨p', hp'⟩ | ⟨c, hc, hrequest⟩
        · obtain ⟨q, hq, hsame, -⟩ := hends.kept _ p' hp'
          rw [hp] at hq
          cases hq
          exact .inl ⟨p', hp', hsame⟩
        · exact .inr (.inr (List.mem_map.mpr ⟨c, hc, hrequest⟩))
      · exact .inr (.inl hended)
    ended := fun c hc => by
      simp only [registered_snoc, endings_snoc, hsettled.registered, Option.toList_none, List.append_nil,
        List.mem_append] at hc ⊢
      rcases hc with hc | hc
      · obtain ⟨hmem, hnot⟩ := h.ended c hc
        exact ⟨hmem, fun hold => hnot (hends.holds hold)⟩
      · exact ⟨h.registered_of_ends hends hc, hgone c hc⟩
    once := by
      simp only [endings_snoc, List.map_append]
      rw [List.nodup_append]
      refine ⟨h.once, hends.nodup, ?_⟩
      rintro request hmem request' hmem' rfl
      obtain ⟨c, hc, rfl⟩ := List.mem_map.mp hmem
      obtain ⟨c', hc', hsame⟩ := List.mem_map.mp hmem'
      exact (h.ended c hc).2 (hsame ▸ (hends.held c' hc').1)
    given := by
      simp only [given_snoc, hsettled.registered, Option.toList_none, List.map_nil, List.nil_append]
      rw [List.nodup_append]
      refine ⟨h.given, hsettled.reserved.1, fun s hs s' hs' => ?_⟩
      have hold := h.below s hs
      have hnew := (hsettled.reserved.2 s' hs').1
      omega
    below := fun s hs => by
      simp only [given_snoc, hsettled.registered, Option.toList_none, List.map_nil, List.nil_append,
        List.mem_append] at hs
      rcases hs with hs | hs
      · exact lt_of_lt_of_le (h.below s hs) hsettled.next
      · exact (hsettled.reserved.2 s hs).2
    kind := by
      simp only [registered_snoc, hsettled.registered, Option.toList_none, List.append_nil]
      exact h.kind
    identity := fun hopen => by
      rcases hsettled.identity with ⟨hsame, -⟩ | ⟨hclosed, -⟩
      · obtain ⟨hsession, hreceipts⟩ := BrokerReads.sessions_eq hsame
        rw [hsession, hreceipts]
        exact h.identity ((BrokerReads.closed_eq hsame).symm.trans hopen)
      · rw [hclosed] at hopen
        cases hopen
    closed := fun hclosed s => by
      rcases hsettled.identity with ⟨hsame, -⟩ | ⟨-, hempty⟩
      · cases hs : b'.pending.get? s with
        | none => rfl
        | some p' =>
          obtain ⟨p, hp, -⟩ := hends.kept s p' hs
          rw [h.closed ((BrokerReads.closed_eq hsame).symm.trans hclosed) s] at hp
          cases hp
      · exact hempty s
    close := by
      rintro ⟨first, hfirst, hclose⟩
      rcases hsettled.identity with ⟨hsame, hnot⟩ | ⟨hclosed, -⟩
      · rcases List.mem_append.mp hfirst with hfirst | hfirst
        · exact (BrokerReads.closed_eq hsame).trans (h.close ⟨first, hfirst, hclose⟩)
        · rw [List.mem_singleton.mp hfirst] at hclose
          exact absurd hclose hnot
      · exact hclosed
    causes := h.causes.snoc fun c hc => h.cause hsettled hc }

theorem Counted.step (h : Counted session r) (loads : Loads) (clock : Nat → ℚ) (call : ReadsCall) :
    Counted session (r.step loads clock call) := by
  rcases perform_cases loads clock call h.tabled r.source with
    ⟨request, path, timeout, b', source', hcall, hperform, hregistered⟩ | ⟨e, b', source', hperform, -, -, hsettled⟩
  · simp only [ReadsRun.step, hperform]
    exact h.register rfl hcall hregistered
  · simp only [ReadsRun.step, hperform]
    exact h.settle hsettled

theorem Counted.new {b : BrokerReads} {source : BrokerSequences} {generation : Nat}
    (h : BrokerReads.new source session generation = .ok b) : Counted session ⟨b, source, []⟩ := by
  unfold BrokerReads.new at h
  split at h
  · cases h
  · cases h
    exact {
      tabled := ⟨fun s p hp => (by cases hp), fun s x hx => (by cases hx)⟩
      size := Nat.zero_le _
      due := fun s p hp => by cases hp
      settled := fun request hmem => by cases hmem
      ended := fun c hc => by cases hc
      once := .nil
      given := .nil
      below := fun s hs => by cases hs
      kind := fun request hmem => by cases hmem
      identity := fun _ => ⟨rfl, rfl⟩
      closed := fun hclosed => by cases hclosed
      close := fun ⟨_, hmem, _⟩ => by cases hmem
      causes := justified_nil _ }

theorem Counted.run (loads : Loads) {b : BrokerReads} {source : BrokerSequences} {generation : Nat}
    (h : BrokerReads.new source session generation = .ok b) (calls : List ((Nat → ℚ) × ReadsCall)) :
    Counted session (run loads b source calls) := by
  unfold ReadsRun.run
  have hnew := Counted.new h
  generalize (⟨b, source, []⟩ : ReadsRun) = r at hnew
  induction calls generalizing r with
  | nil => exact hnew
  | cons call calls ih => exact ih _ (hnew.step loads call.1 call.2)

/-- **Broker reads complete exactly once.** In every run of calls, at whatever
readings of the clock, on reads that have just been made: at most eight wait and every receipt
is that of a read that waits, so that a registration never fails for want of a
receipt; a registered request ends at most once, and exactly once when `close`
has been called; an answer and a rejection end the read that they are for, the
answer before the deadline; and no sequence is given out twice. -/
theorem broker_reads_once (loads : Loads) {b : BrokerReads} {source : BrokerSequences} {session generation : Nat}
    (h : BrokerReads.new source session generation = .ok b) (calls : List ((Nat → ℚ) × ReadsCall)) :
    let r := run loads b source calls
    r.reads.pending.size ≤ 8 ∧
    (∀ s ∈ r.reads.receipts.pending.keys, s ∈ r.reads.pending.keys) ∧
    (∀ device path timeout clock,
      (r.reads.register r.source device path timeout clock).1 ≠ .error (.transaction .capacity)) ∧
    (∀ request ∈ registered r.log, ((endings r.log).map ReadCompletion.request).count request ≤ 1) ∧
    ((∃ e ∈ r.log, e.call = .close) → ∀ request ∈ registered r.log,
      ((endings r.log).map ReadCompletion.request).count request = 1) ∧
    Justified (fun before e => ∀ c ∈ e.completions, Ended session before e c) r.log ∧
    (given r.log).Nodup := by
  have hcounted := Counted.run loads h calls
  refine ⟨hcounted.size, fun s hs => ?_, fun device path timeout clock => ?_, fun request _ => ?_, fun hclose request hmem => ?_,
    hcounted.causes, hcounted.given⟩
  · obtain ⟨x, hx⟩ := Dict.mem_keys.mp hs
    obtain ⟨p, hp, -⟩ := hcounted.tabled.receipts s x hx
    exact Dict.mem_keys.mpr ⟨p, hp⟩
  · rcases BrokerReads.register_cases hcounted.tabled (run loads b source calls).source device path timeout clock with
      ⟨e, he, hcapacity⟩ | ⟨request, b', source', hok, -⟩
    · rw [he]
      simpa using hcapacity
    · rw [hok]
      simp
  · exact List.nodup_iff_count_le_one.mp hcounted.once request
  · rcases hcounted.settled request hmem with ⟨p, hp, -⟩ | hended
    · rw [hcounted.closed (hcounted.close hclose)] at hp
      cases hp
    · exact List.count_eq_one_of_mem hcounted.once hended

end

/-- Three reads, somebody else's sequences, an answer that comes twice, a receipt with
an error, the end. -/
def threeReads : List ((Nat → ℚ) × ReadsCall) :=
  [(fun _ => 0, .register 9 "ProReadonly.devInfo" 2), (fun _ => 0, .reserve 3),
    (fun _ => 1, .register 9 "ProReadonly.devInfo" 2), (fun _ => 1, .register 9 "ProReadonly.devInfo" 2),
    (fun i => 1 + i / 4, .accept deviceAnswer 1), (fun _ => 1, .accept deviceAnswer 1),
    (fun i => 2 + i / 4, .accept rejectingReceipt 1), (fun _ => 3, .close)]

/-- The theorem applies to this run, in which one read is answered, one rejected and
one cancelled. -/
theorem broker_reads_once_answered : ∃ b source,
    BrokerSequences.new 7 1 5 = .ok source ∧ BrokerReads.new source 7 1 = .ok b ∧
    ((endings (run (fun _ => none) b source threeReads).log).map fun c => (c.request.ticket.sequence, c.status)) =
      [(5, .response), (9, .transportRejected), (10, .cancelled)] ∧
    (given (run (fun _ => none) b source threeReads).log).Nodup := by
  have h : (match BrokerSequences.new 7 1 5 with
    | .ok source => match BrokerReads.new source 7 1 with
      | .ok b => decide (((endings (run (fun _ => none) b source threeReads).log).map fun c =>
          (c.request.ticket.sequence, c.status)) = [(5, .response), (9, .transportRejected), (10, .cancelled)])
      | .error _ => false
    | .error _ => false) = true := by decide +kernel
  split at h
  · next source hsource =>
    split at h
    · next b hb =>
      have honce := broker_reads_once (fun _ => none) hb threeReads
      exact ⟨b, source, hsource, hb, of_decide_eq_true h, honce.2.2.2.2.2.2⟩
    · cases h
  · cases h

end ReadsRun

end CamGuard.Account
