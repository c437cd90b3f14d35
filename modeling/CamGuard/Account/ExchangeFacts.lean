/-
One-shot exchanges never repeat their request and end once, by their own
answer (`one_shot_exchanges`).

What a job does depends on its own spec and answer only through the frame that
answers it, so the facts are about jobs without them (`Exchange.bare`): one
inversion of `observe` (`observe_cases`), what holds of a job from its opening
on (`Sound`), and what the log says of it (`Tracked`).
-/
import CamGuard.Account.Exchange
import CamGuard.Account.ReadsFacts

namespace CamGuard.Account

open CamGuard.Crypto

variable {t : BrokerTransactions} {source source' : BrokerSequences} {plain : Bytes} {generation : Nat} {now : ℚ}

/-! ## Sequences -/

/-- Sequences were given out, or none: the account is the same. -/
structure DrawnFrom (source source' : BrokerSequences) : Prop where
  next : source.next ≤ source'.next
  same : ∀ session generation, source'.matchesIdentity session generation = source.matchesIdentity session generation

theorem DrawnFrom.refl (source : BrokerSequences) : DrawnFrom source source := ⟨le_refl _, fun _ _ => rfl⟩

theorem DrawnFrom.trans {source'' : BrokerSequences} (h : DrawnFrom source source') (h' : DrawnFrom source' source'') :
    DrawnFrom source source'' :=
  ⟨le_trans h.next h'.next, fun session generation => (h'.same session generation).trans (h.same session generation)⟩

theorem reserve_drawn (source : BrokerSequences) (count : Nat) : DrawnFrom source (source.reserve count).2 := by
  refine ⟨reserve_next source count, fun session generation => ?_⟩
  unfold BrokerSequences.reserve
  split
  · rfl
  split
  · rfl
  split <;> rfl

theorem allocate_eq_reserve (source : BrokerSequences) : source.allocate.2 = (source.reserve 1).2 := by
  unfold BrokerSequences.allocate
  split
  · next heq => rw [heq]
  · next heq => rw [heq]

theorem allocate_drawn (source : BrokerSequences) : DrawnFrom source source.allocate.2 := by
  rw [allocate_eq_reserve]
  exact reserve_drawn source 1

/-- A sequence that is given out is the next one. -/
theorem allocate_ok {sequence : Nat} (h : source.allocate = (.ok sequence, source')) :
    sequence = source.next ∧ source'.next = source.next + 1 := by
  rcases allocate_cases source with ⟨e, herror⟩ | ⟨source'', hok, hnext⟩
  · rw [herror] at h
    cases h
  · rw [hok] at h
    cases h
    exact ⟨rfl, hnext⟩

/-! ## Jobs without spec and answer -/

namespace Exchange

variable {K A : Type}

def bare (job : Exchange K A) : Exchange Unit Unit where
  receipts := job.receipts
  sequence := job.sequence
  key := ()
  wire := job.wire
  node := job.node
  generation := job.generation
  deadline := job.deadline
  sent := job.sent
  ack := job.ack
  result := job.result.map fun r => ⟨r.status, none, r.transportAcknowledged, r.sent⟩

theorem bare_cancel (job : Exchange K A) : job.cancel.bare = job.bare.cancel := by
  have hresult : job.bare.result.isNone = job.result.isNone := by simp [bare]
  unfold cancel
  rw [hresult]
  split
  · rfl
  · rfl

theorem bare_nextPacket (source : BrokerSequences) (now : ℚ) (job : Exchange K A) :
    (job.nextPacket source now).1 = (job.bare.nextPacket source now).1 ∧
      (job.nextPacket source now).2.bare = (job.bare.nextPacket source now).2 := by
  have hresult : job.bare.result.isSome = job.result.isSome := by simp [bare]
  have hreceipts : job.bare.receipts = job.receipts := rfl
  have hdeadline : job.bare.deadline = job.deadline := rfl
  have hsent : job.bare.sent = job.sent := rfl
  unfold nextPacket
  rw [hresult, hreceipts, hdeadline, hsent]
  split
  · exact ⟨rfl, rfl⟩
  split
  · exact ⟨rfl, bare_cancel job⟩
  split
  · exact ⟨rfl, rfl⟩
  split
  · exact ⟨rfl, rfl⟩
  · exact ⟨rfl, rfl⟩

end Exchange

/-- The answer without what it says. -/
def ExchangeAnswer.bare {A : Type} (a : ExchangeAnswer A) : ExchangeAnswer Unit := ⟨a.status, none, a.packets⟩

/-- A kind, for a job that keeps `key`. -/
def ExchangeKind.bare {K A : Type} (kind : ExchangeKind K A) (key : K) : ExchangeKind Unit Unit where
  family := kind.family
  looksAt := kind.looksAt
  answered := fun node sequence _ noise plain =>
    (kind.answered node sequence key noise plain).map (Option.map ExchangeAnswer.bare)

theorem Exchange.bare_observe {K A : Type} (kind : ExchangeKind K A) (source : BrokerSequences) (plain : Bytes)
    (peer : String × Nat) (generation noise : Nat) (clock : Nat → ℚ) (job : Exchange K A) :
    (job.observe kind source plain peer generation noise clock).1 =
        (job.bare.observe (kind.bare job.key) source plain peer generation noise clock).1 ∧
      (job.observe kind source plain peer generation noise clock).2.bare =
        (job.bare.observe (kind.bare job.key) source plain peer generation noise clock).2 := by
  have hnode : job.bare.node = job.node := rfl
  have hsent : job.bare.sent = job.sent := rfl
  have hgeneration : job.bare.generation = job.generation := rfl
  have hdeadline : job.bare.deadline = job.deadline := rfl
  have hreceipts : job.bare.receipts = job.receipts := rfl
  have hlooks : (kind.bare job.key).looksAt = kind.looksAt := rfl
  have hanswered : ∀ node, (kind.bare job.key).answered node job.bare.sequence job.bare.key noise plain =
      (kind.answered node job.sequence job.key noise plain).map (Option.map ExchangeAnswer.bare) := fun _ => rfl
  unfold Exchange.observe
  rw [hnode, hsent, hgeneration, hdeadline, hreceipts, hlooks]
  split
  · exact ⟨rfl, rfl⟩
  next node _ =>
  split
  · exact ⟨rfl, rfl⟩
  split
  · exact ⟨rfl, rfl⟩
  next receipt receipts _ =>
    refine ⟨rfl, ?_⟩
    simp only
    split
    · rfl
    · rfl
  · dsimp only
    rw [hanswered node]
    cases kind.answered node job.sequence job.key noise plain with
    | error e => exact ⟨rfl, rfl⟩
    | ok answer =>
      cases answer with
      | none => exact ⟨rfl, rfl⟩
      | some answer => exact ⟨rfl, rfl⟩

/-! ## What one call does -/

/-- What the kinds of exchanges have in common: an answer is no receipt, comes
from the session and carries the identifier `own`, which stands at `offset`. -/
structure ExchangeKind.Lawful (kind : ExchangeKind Unit Unit) (sequence offset own : Nat) : Prop where
  answers : ∀ node noise plain a, kind.answered node sequence () noise plain = .ok (some a) →
    kind.looksAt node plain = true →
      plain.field 8 4 = node.sessionId ∧ plain.field 4 offset = own ∧ (plain.field 4 20).testBit 20 = false ∧
        (a.status = .response ∨ a.status = .rejected ∨ a.status = .invalidResponse)
  looks : ∀ (node : CertifiedNode) plain, IsReceipt kind.family node.sessionId sequence plain →
    kind.looksAt node plain = true

namespace Exchange

/-- The ticket of the job's request. -/
def ticket (family : Nat) (job : Exchange Unit Unit) : ReceiptTicket := ⟨job.generation, job.sequence, family⟩

/-- What holds of a job from its opening on; its receipt is waited for until `expires`. -/
structure Sound (family : Nat) (opening : OneShotOpening) (expires : ℚ) (job : Exchange Unit Unit) : Prop where
  generation : job.generation = opening.generation
  deadline : job.deadline = opening.deadline
  node : job.result = none → job.node = some opening.node
  ended : ∀ r, job.result = some r → job.node = none
  receipts : job.result = none → job.receipts.session = opening.node.sessionId ∧
    job.receipts.generation = opening.generation ∧ job.receipts.closed = false
  pending : ∀ s x, job.receipts.pending.get? s = some x → s = job.sequence ∧ x = (job.ticket family, expires)
  waits : job.result = none → job.ack = false →
    job.receipts.pending.get? job.sequence = some (job.ticket family, expires)
  acked : job.ack = true → job.receipts.pending.get? job.sequence = none
  asked : job.ack = true → job.sent = true

/-- A frame that the job takes notice of. -/
structure Heeds (opening : OneShotOpening) (source : BrokerSequences) (job : Exchange Unit Unit) (peer : String × Nat)
    (generation : Nat) (clock : Nat → ℚ) : Prop where
  waits : job.result = none
  sent : job.sent = true
  peer : peer = opening.node.address
  generation : generation = opening.generation
  early : clock 0 < opening.deadline
  living : source.matchesIdentity opening.node.sessionId opening.generation = true

/-- What an observation does. -/
inductive Observed (kind : ExchangeKind Unit Unit) (opening : OneShotOpening) (expires : ℚ) (source : BrokerSequences)
    (plain : Bytes) (peer : String × Nat) (generation noise : Nat) (clock : Nat → ℚ) (job : Exchange Unit Unit) :
    Except ExchangeFault (List Bytes) × Exchange Unit Unit → Prop
  | ignored (out : Except ExchangeFault (List Bytes)) (silent : ∀ packets, out = .ok packets → packets = []) :
    Observed kind opening expires source plain peer generation noise clock job (out, job)
  | acknowledged (heeds : job.Heeds opening source peer generation clock)
    (receipt : IsReceipt kind.family opening.node.sessionId job.sequence plain) (fresh : job.ack = false)
    (timely : clock 1 < expires) (positive : plain.field 2 26 = 0) :
    Observed kind opening expires source plain peer generation noise clock job (.ok [],
      { job with
        receipts := { job.receipts with pending := job.receipts.pending.erase job.sequence }
        ack := true })
  | refused (heeds : job.Heeds opening source peer generation clock)
    (receipt : IsReceipt kind.family opening.node.sessionId job.sequence plain) (fresh : job.ack = false)
    (timely : clock 1 < expires) (negative : plain.field 2 26 ≠ 0) :
    Observed kind opening expires source plain peer generation noise clock job
      (.ok [], job.finish .transportRejected none)
  | answered (answer : ExchangeAnswer Unit) (heeds : job.Heeds opening source peer generation clock)
    (looks : kind.looksAt opening.node plain = true)
    (answered : kind.answered opening.node job.sequence () noise plain = .ok (some answer)) :
    Observed kind opening expires source plain peer generation noise clock job (.ok answer.packets,
      job.finish answer.status answer.value)

variable {kind : ExchangeKind Unit Unit} {opening : OneShotOpening} {expires : ℚ} {clock : Nat → ℚ}
  {job : Exchange Unit Unit} {peer : String × Nat} {noise : Nat}

theorem Sound.active (h : job.Sound kind.family opening expires) (hresult : job.result = none)
    (source : BrokerSequences) :
    job.receipts.active source = source.matchesIdentity opening.node.sessionId opening.generation := by
  obtain ⟨hsession, hgeneration, hclosed⟩ := h.receipts hresult
  simp [BrokerTransactions.active, hsession, hgeneration, hclosed]

theorem Sound.unended (h : job.Sound kind.family opening expires) {node : CertifiedNode}
    (hnode : job.node = some node) :
    job.result = none ∧ node = opening.node := by
  cases hresult : job.result with
  | none =>
    have hsame := h.node hresult
    rw [hnode] at hsame
    cases hsame
    exact ⟨rfl, rfl⟩
  | some r =>
    have hnone := h.ended r hresult
    rw [hnode] at hnone
    cases hnone

theorem observe_cases (h : job.Sound kind.family opening expires) (source : BrokerSequences) (plain : Bytes)
    (peer : String × Nat) (generation noise : Nat) (clock : Nat → ℚ) :
    Observed kind opening expires source plain peer generation noise clock job
      (job.observe kind source plain peer generation noise clock) := by
  unfold observe
  split
  · refine .ignored _ fun packets heq => ?_
    cases heq
    rfl
  next node hnode =>
  obtain ⟨hresult, rfl⟩ := h.unended hnode
  simp only
  split
  · refine .ignored _ fun packets heq => ?_
    cases heq
    rfl
  next hheeds =>
  simp only [not_or, ne_eq, Decidable.not_not, not_le, Bool.not_eq_false] at hheeds
  obtain ⟨hsent, hgeneration, hpeer, hearly, hactive, hlooks⟩ := hheeds
  rw [h.active hresult] at hactive
  have heeds : job.Heeds opening source peer generation clock :=
    ⟨hresult, hsent, hpeer, hgeneration.trans h.generation, by rw [← h.deadline]; exact hearly, hactive⟩
  cases haccept : job.receipts.accept source plain generation (clock 1) with
  | mk out receipts =>
    cases out with
    | error e =>
      have hsame := BrokerTransactions.accept_other haccept fun _ heq => by cases heq
      subst hsame
      refine .ignored _ fun packets heq => ?_
      cases heq
    | ok receipt =>
      cases receipt with
      | none =>
        have hsame := BrokerTransactions.accept_other haccept fun _ heq => by cases heq
        subst hsame
        simp only
        cases hanswered : kind.answered opening.node job.sequence job.key noise plain with
        | error e =>
          refine .ignored _ fun packets heq => ?_
          cases heq
        | ok answer =>
          cases answer with
          | none =>
            refine .ignored _ fun packets heq => ?_
            cases heq
            rfl
          | some answer => exact .answered answer heeds hlooks hanswered
      | some receipt =>
        obtain ⟨deadline, hpending, hdeadline, hreceipt, hfield, rfl⟩ := BrokerTransactions.accept_some haccept
        obtain ⟨hsequence, hticket⟩ := h.pending _ _ hpending
        have htimely : clock 1 < expires := lt_of_lt_of_eq hdeadline (congrArg Prod.snd hticket)
        have hfamily : receipt.ticket.kind = kind.family := congrArg (fun x => x.1.kind) hticket
        rw [hfamily, hsequence, (h.receipts hresult).1] at hreceipt
        have hfresh : job.ack = false := by
          cases hack : job.ack with
          | false => rfl
          | true =>
            have hnone := h.acked hack
            rw [← hsequence, hpending] at hnone
            cases hnone
        rw [hsequence]
        by_cases hpositive : plain.field 2 26 = 0
        · have haccepted : receipt.accepted = true := by simp [TransportReceipt.accepted, hfield, hpositive]
          simp only [haccepted, if_true]
          exact .acknowledged heeds hreceipt hfresh htimely hpositive
        · have haccepted : receipt.accepted = false := by simp [TransportReceipt.accepted, hfield, hpositive]
          simp only [haccepted, Bool.false_eq_true, if_false]
          have hsame : ({ job with
              receipts := { job.receipts with pending := job.receipts.pending.erase job.sequence }
              ack := false } : Exchange Unit Unit).finish .transportRejected none =
              job.finish .transportRejected none := by
            rw [← hfresh]
            rfl
          rw [hsame]
          exact .refused heeds hreceipt hfresh htimely hpositive

/-- What asking for a packet does. -/
inductive Offered (opening : OneShotOpening) (source : BrokerSequences) (now : ℚ) (job : Exchange Unit Unit) :
    Option Bytes × Exchange Unit Unit → Prop
  | quiet : Offered opening source now job (none, job)
  | cancelled (waits : job.result = none)
    (gone : source.matchesIdentity opening.node.sessionId opening.generation = false) :
    Offered opening source now job (none, job.finish .cancelled none)
  | expired (waits : job.result = none) (late : opening.deadline ≤ now) :
    Offered opening source now job (none, job.finish .timeout none)
  | asked (waits : job.result = none) (unsent : job.sent = false) :
    Offered opening source now job (some job.wire, { job with sent := true })

theorem nextPacket_cases (h : job.Sound kind.family opening expires) (source : BrokerSequences) (now : ℚ) :
    Offered opening source now job (job.nextPacket source now) := by
  unfold nextPacket
  split
  · exact .quiet
  next hresult =>
  have hwaits : job.result = none := by simpa using hresult
  rw [h.active hwaits]
  split
  · next hgone =>
    have hcancel : job.cancel = job.finish .cancelled none := by simp [cancel, hwaits]
    rw [hcancel]
    exact .cancelled hwaits hgone
  split
  · next hlate => exact .expired hwaits (by rw [← h.deadline]; exact hlate)
  split
  · exact .quiet
  · next hsent => exact .asked hwaits (by simpa using hsent)

theorem cancel_cases (job : Exchange Unit Unit) :
    job.cancel = job ∨ job.result = none ∧ job.cancel = job.finish .cancelled none := by
  unfold cancel
  cases hresult : job.result with
  | none => exact .inr ⟨rfl, rfl⟩
  | some r => exact .inl rfl

/-! ## What holds from the opening on -/

theorem Sound.finish (h : job.Sound kind.family opening expires) (status : ExchangeStatus) (value : Option Unit) :
    (job.finish status value).Sound kind.family opening expires where
  generation := h.generation
  deadline := h.deadline
  node := by simp [Exchange.finish]
  ended := by simp [Exchange.finish]
  receipts := by simp [Exchange.finish]
  pending := by simp [Exchange.finish, BrokerTransactions.close]
  waits := by simp [Exchange.finish]
  acked := by simp [Exchange.finish, BrokerTransactions.close]
  asked := h.asked

theorem Sound.asked_for (h : job.Sound kind.family opening expires) :
    ({ job with sent := true } : Exchange Unit Unit).Sound kind.family opening expires :=
  { h with asked := fun _ => rfl }

theorem Sound.acknowledge (h : job.Sound kind.family opening expires) (hsent : job.sent = true) :
    ({ job with
        receipts := { job.receipts with pending := job.receipts.pending.erase job.sequence }
        ack := true } : Exchange Unit Unit).Sound kind.family opening expires where
  generation := h.generation
  deadline := h.deadline
  node := h.node
  ended := h.ended
  receipts := h.receipts
  pending := by
    intro s x hx
    rw [Dict.get?_erase] at hx
    split at hx
    · cases hx
    · exact h.pending s x hx
  waits := fun _ hack => by cases hack
  acked := fun _ => by rw [Dict.get?_erase, if_pos rfl]
  asked := fun _ => hsent

theorem Sound.observe (h : job.Sound kind.family opening expires)
    {out : Except ExchangeFault (List Bytes) × Exchange Unit Unit}
    (ho : Observed kind opening expires source plain peer generation noise clock job out) :
    out.2.Sound kind.family opening expires := by
  cases ho with
  | ignored => exact h
  | acknowledged heeds => exact h.acknowledge heeds.sent
  | refused => exact h.finish _ _
  | answered => exact h.finish _ _

theorem Sound.nextPacket (h : job.Sound kind.family opening expires) {out : Option Bytes × Exchange Unit Unit}
    (ho : Offered opening source now job out) : out.2.Sound kind.family opening expires := by
  cases ho with
  | quiet => exact h
  | cancelled => exact h.finish _ _
  | expired => exact h.finish _ _
  | asked => exact h.asked_for

theorem Sound.cancel (h : job.Sound kind.family opening expires) : job.cancel.Sound kind.family opening expires := by
  rcases cancel_cases job with heq | ⟨-, heq⟩
  · rw [heq]
    exact h
  · rw [heq]
    exact h.finish _ _

/-- **A positive receipt is noted, and nothing else comes of it.** -/
theorem observe_positive (noise : Nat) {sequence offset own : Nat} (hkind : kind.Lawful sequence offset own)
    (hsequence : job.sequence = sequence) (h : job.Sound kind.family opening expires)
    (heeds : job.Heeds opening source peer generation clock) (htimely : clock 1 < expires)
    (hreceipt : IsReceipt kind.family opening.node.sessionId job.sequence plain) (hpositive : plain.field 2 26 = 0) :
    (job.observe kind source plain peer generation noise clock).2.ack = true ∧
      (job.observe kind source plain peer generation noise clock).2.result = none := by
  have hlooks := hkind.looks opening.node plain (by rw [← hsequence]; exact hreceipt)
  have hactive : job.receipts.active source = true := by
    rw [h.active heeds.waits]
    exact heeds.living
  obtain ⟨hsession, hgeneration, -⟩ := h.receipts heeds.waits
  unfold Exchange.observe
  rw [h.node heeds.waits]
  simp only
  rw [if_neg (by
    simp [heeds.sent, heeds.generation, h.generation, heeds.peer, h.deadline, heeds.early, hactive, hlooks])]
  cases hack : job.ack with
  | false =>
    have hpending := h.waits heeds.waits hack
    rw [BrokerTransactions.accept_receipt (job.ticket kind.family) hactive (by rw [heeds.generation, hgeneration])
      (by rw [hsession]; exact hreceipt) hpending htimely]
    simp [TransportReceipt.accepted, hpositive, heeds.waits]
  | true =>
    rw [BrokerTransactions.accept_none hreceipt (h.acked hack)]
    cases hanswered : kind.answered opening.node job.sequence job.key noise plain with
    | error e => exact ⟨rfl, heeds.waits⟩
    | ok answer =>
      cases answer with
      | none => exact ⟨rfl, heeds.waits⟩
      | some answer =>
        rw [hsequence] at hanswered
        have hplain := (hkind.answers _ _ _ _ hanswered hlooks).2.2.1
        rw [hreceipt.acknowledges] at hplain
        cases hplain

end Exchange

/-! ## The three kinds -/

/-- What an answer shows of its frame. -/
structure Shows (node : CertifiedNode) (offset own : Nat) (plain : Bytes) (status : ExchangeStatus) : Prop where
  session : plain.field 8 4 = node.sessionId
  own : plain.field 4 offset = own
  plainly : (plain.field 4 20).testBit 20 = false
  status : status = .response ∨ status = .rejected ∨ status = .invalidResponse

theorem parseWhiteLightResponse_shows {loads : TryLoads} {plain : Bytes} {expected request : Nat} {value : Json}
    (h : parseWhiteLightResponse loads plain expected = .ok (some (request, value))) : request = plain.field 4 0x38 := by
  unfold parseWhiteLightResponse at h
  split at h
  · cases h
  simp only at h
  split at h
  · cases h
  next hlength =>
  split at h
  · cases h
  split at h
  · cases h
  · cases h
  next value' _ =>
  simp only [Except.ok.injEq] at h
  split at h
  · cases h
    exact field_payload plain (by omega)
  · cases h

namespace LampExchangeJob

theorem evaluate_status (spec : LampSpec) (value : Json) :
    (evaluate spec value).status = .response ∨ (evaluate spec value).status = .rejected ∨
      (evaluate spec value).status = .invalidResponse := by
  unfold evaluate
  split
  · split
    · exact .inr (.inr rfl)
    split
    · exact .inr (.inr rfl)
    · dsimp only
      split
      · exact .inl rfl
      · exact .inr (.inl rfl)
  · split
    · exact .inr (.inr rfl)
    · exact .inl rfl

theorem answered_shows {loads : TryLoads} {node : CertifiedNode} {sequence noise : Nat} {key : LampKey} {plain : Bytes}
    {a : ExchangeAnswer LampAnswer} (h : answered loads node sequence key noise plain = .ok (some a)) :
    Shows node 0x38 sequence plain a.status := by
  unfold answered at h
  split at h
  · cases h
  simp only at h
  split at h
  · cases h
  next hframe =>
  split at h
  · cases h
  · cases h
  · cases h
  next request value hparse =>
  split at h
  · cases h
  next hrequest =>
  split at h
  · cases h
  · cases h
    simp only [not_or, ne_eq, Decidable.not_not, Bool.not_eq_true] at hframe hrequest
    exact {
      session := hframe.1
      own := by rw [← parseWhiteLightResponse_shows hparse, hrequest]
      plainly := hframe.2.2.1
      status := evaluate_status key.spec value }

end LampExchangeJob

theorem ControlWriteJob.answered_shows {node : CertifiedNode} {sequence noise : Nat} {key : ControlKey} {plain : Bytes}
    {a : ExchangeAnswer Nat} (h : answered node sequence key noise plain = .ok (some a)) :
    Shows node 0x30 key.messageId plain a.status := by
  unfold answered at h
  split at h
  · cases h
  simp only at h
  split at h
  · cases h
  next hframe =>
  split at h
  · cases h
  next code hparse =>
  unfold parseModelWriteResponse at hparse
  split at hparse
  · cases hparse
  next hown =>
  cases h
  simp only [not_or, ne_eq, Decidable.not_not, Bool.not_eq_true] at hframe hown
  exact {
    session := hframe.1
    own := hown.2.2
    plainly := hframe.2.2
    status := .inl rfl }

namespace CatalogReadJob

theorem evaluate_status {loads : TryLoads} {system : Bool} {expanded : Bytes} {a : ExchangeAnswer AlarmVoiceCatalog}
    (h : evaluate loads system expanded = .ok a) : a.status = .response ∨ a.status = .invalidResponse := by
  unfold evaluate at h
  split at h
  · cases h
    exact .inr rfl
  split at h
  · cases h
    exact .inr rfl
  split at h
  · cases h
  · cases h
    exact .inr rfl
  · cases h
    exact .inr rfl
  split at h
  · cases h
    exact .inl rfl
  · cases h
    exact .inr rfl

theorem answered_shows {loads : TryLoads} {node : CertifiedNode} {sequence noise : Nat} {key : CatalogKey} {plain : Bytes}
    {a : ExchangeAnswer AlarmVoiceCatalog} (h : answered loads node sequence key noise plain = .ok (some a))
    (hlooks : looksAt node plain = true) : Shows node 16 sequence plain a.status := by
  unfold answered at h
  split at h
  · cases h
  next hframe =>
  simp only [not_or, ne_eq, Decidable.not_not, Bool.not_eq_true] at hframe
  simp only [looksAt, decide_eq_true_eq] at hlooks
  have hstatus : a.status = .response ∨ a.status = .rejected ∨ a.status = .invalidResponse := by
    split at h
    · cases h
      exact .inr (.inr rfl)
    · cases h
      exact .inr (.inr rfl)
    · next expanded _ =>
      cases hevaluate : evaluate loads key.system expanded with
      | error e =>
        rw [hevaluate] at h
        cases h
      | ok answer =>
        rw [hevaluate] at h
        cases h
        rcases evaluate_status hevaluate with hresponse | hinvalid
        · exact .inl hresponse
        · exact .inr (.inr hinvalid)
  exact {
    session := hlooks.2.2.1
    own := hframe.2.2
    plainly := hframe.1
    status := hstatus }

end CatalogReadJob

/-- What answers a job without spec and answer, answers the job. -/
theorem ExchangeKind.bare_answered {K A : Type} {kind : ExchangeKind K A} {key : K} {node : CertifiedNode}
    {sequence noise : Nat} {plain : Bytes} {a : ExchangeAnswer Unit}
    (h : (kind.bare key).answered node sequence () noise plain = .ok (some a)) :
    ∃ answer, kind.answered node sequence key noise plain = .ok (some answer) ∧ a.status = answer.status := by
  simp only [ExchangeKind.bare] at h
  cases hanswered : kind.answered node sequence key noise plain with
  | error e =>
    rw [hanswered] at h
    cases h
  | ok answer =>
    rw [hanswered] at h
    cases answer with
    | none => cases h
    | some answer =>
      cases h
      exact ⟨answer, rfl, rfl⟩

/-- A kind whose answers show what they have to is lawful. -/
theorem ExchangeKind.lawful {K A : Type} {kind : ExchangeKind K A} {key : K} {sequence offset own : Nat}
    (hshows : ∀ node noise plain a, kind.answered node sequence key noise plain = .ok (some a) →
      kind.looksAt node plain = true → Shows node offset own plain a.status)
    (hlooks : ∀ (node : CertifiedNode) plain, IsReceipt kind.family node.sessionId sequence plain →
      kind.looksAt node plain = true) : (kind.bare key).Lawful sequence offset own where
  answers := by
    intro node noise plain a h hlook
    obtain ⟨answer, hanswered, hstatus⟩ := bare_answered h
    have hshown := hshows node noise plain answer hanswered hlook
    exact ⟨hshown.session, hshown.own, hshown.plainly, by rw [hstatus]; exact hshown.status⟩
  looks := hlooks

namespace OneShot

/-- The job without spec and answer. -/
def bare : OneShot → Exchange Unit Unit
  | .lamp job => job.bare
  | .control job => job.bare
  | .catalog job => job.bare

/-- Its kind. -/
def kind (loads : TryLoads) : OneShot → ExchangeKind Unit Unit
  | .lamp job => (LampExchangeJob.kind loads).bare job.key
  | .control job => ControlWriteJob.kind.bare job.key
  | .catalog job => (CatalogReadJob.kind loads).bare job.key

/-- The family of its request. -/
def family : OneShot → Nat
  | .lamp _ => 0xB9
  | .control _ => 0xD2
  | .catalog _ => 0xC0

/-- Where its identifier stands in an answer. -/
def correlationOffset : OneShot → Nat
  | .lamp _ => 0x38
  | .control _ => 0x30
  | .catalog _ => 16

/-- The identifier that an answer carries. -/
def correlation : OneShot → Nat
  | .lamp job => job.sequence
  | .control job => job.key.messageId
  | .catalog job => job.sequence

theorem lawful (loads : TryLoads) (job : OneShot) :
    (job.kind loads).Lawful job.sequence job.correlationOffset job.correlation := by
  cases job with
  | lamp job =>
    exact ExchangeKind.lawful (fun _ _ _ _ h _ => LampExchangeJob.answered_shows h) fun _ _ _ => rfl
  | control job =>
    refine ExchangeKind.lawful (fun node noise plain a h _ => ?_) fun _ _ _ => rfl
    exact @ControlWriteJob.answered_shows node job.sequence noise job.key plain a h
  | catalog job =>
    refine ExchangeKind.lawful (fun node noise plain a h hlooks => ?_) fun node plain h => ?_
    · exact @CatalogReadJob.answered_shows loads node job.sequence noise job.key plain a h hlooks
    · simp [CatalogReadJob.kind, CatalogReadJob.looksAt, h.length, h.session, h.mode]

end OneShot

/-! ## Moves -/

namespace Exchange

/-- Why a job ends, with the packets that go out. -/
inductive Ends (kind : ExchangeKind Unit Unit) (opening : OneShotOpening) (expires : ℚ) (source : BrokerSequences)
    (clock : Nat → ℚ) (job : Exchange Unit Unit) : OneShotCall → List Bytes → ExchangeStatus → Prop
  | answered (j : Nat) (plain : Bytes) (peer : String × Nat) (generation noise : Nat) (answer : ExchangeAnswer Unit)
    (heeds : job.Heeds opening source peer generation clock) (looks : kind.looksAt opening.node plain = true)
    (answered : kind.answered opening.node job.sequence () noise plain = .ok (some answer)) :
    Ends kind opening expires source clock job (.observe j plain peer generation noise) answer.packets answer.status
  | refused (j : Nat) (plain : Bytes) (peer : String × Nat) (generation noise : Nat)
    (heeds : job.Heeds opening source peer generation clock)
    (timely : clock 1 < expires) (receipt : IsReceipt kind.family opening.node.sessionId job.sequence plain)
    (negative : plain.field 2 26 ≠ 0) :
    Ends kind opening expires source clock job (.observe j plain peer generation noise) [] .transportRejected
  | timeout (j : Nat) (late : opening.deadline ≤ clock 0) :
    Ends kind opening expires source clock job (.nextPacket j) [] .timeout
  | gone (j : Nat) (gone : source.matchesIdentity opening.node.sessionId opening.generation = false) :
    Ends kind opening expires source clock job (.nextPacket j) [] .cancelled
  | cancelled (j : Nat) : Ends kind opening expires source clock job (.cancel j) [] .cancelled

/-- A positive receipt for the job that it takes notice of. -/
def Positive (family : Nat) (opening : OneShotOpening) (expires : ℚ) (source : BrokerSequences) (clock : Nat → ℚ)
    (job : Exchange Unit Unit) (call : OneShotCall) : Prop :=
  ∃ j plain peer generation noise, call = .observe j plain peer generation noise ∧
    job.Heeds opening source peer generation clock ∧ clock 1 < expires ∧
    IsReceipt family opening.node.sessionId job.sequence plain ∧ plain.field 2 26 = 0

/-- What a call that is about a job does to it. -/
inductive Moved (kind : ExchangeKind Unit Unit) (opening : OneShotOpening) (expires : ℚ) (source : BrokerSequences)
    (clock : Nat → ℚ) (job : Exchange Unit Unit) : OneShotCall → List Bytes → Exchange Unit Unit → Prop
  | stays (call : OneShotCall) (silent : Positive kind.family opening expires source clock job call → job.ack = true) :
    Moved kind opening expires source clock job call [] job
  | noted (call : OneShotCall) (positive : Positive kind.family opening expires source clock job call)
    (receipts : BrokerTransactions) : Moved kind opening expires source clock job call []
      { job with
        receipts := receipts
        ack := true }
  | asked (j : Nat) (waits : job.result = none) (unsent : job.sent = false) :
    Moved kind opening expires source clock job (.nextPacket j) [job.wire] { job with sent := true }
  | ended (call : OneShotCall) (packets : List Bytes) (status : ExchangeStatus) (value : Option Unit)
    (waits : job.result = none) (why : Ends kind opening expires source clock job call packets status) :
    Moved kind opening expires source clock job call packets (job.finish status value)

variable {kind : ExchangeKind Unit Unit} {opening : OneShotOpening} {expires : ℚ} {clock : Nat → ℚ}
  {job : Exchange Unit Unit}

/-- The packets of an observation. -/
def given : Except ExchangeFault (List Bytes) → List Bytes
  | .ok packets => packets
  | .error _ => []

theorem moved_observe {sequence offset own : Nat} (hkind : kind.Lawful sequence offset own)
    (hsequence : job.sequence = sequence) (h : job.Sound kind.family opening expires) (source : BrokerSequences)
    (j : Nat) (plain : Bytes) (peer : String × Nat) (generation noise : Nat) (clock : Nat → ℚ) :
    Moved kind opening expires source clock job (.observe j plain peer generation noise)
      (given (job.observe kind source plain peer generation noise clock).1)
      (job.observe kind source plain peer generation noise clock).2 := by
  have hpositive : ∀ {out : Except ExchangeFault (List Bytes)},
      job.observe kind source plain peer generation noise clock = (out, job) →
        Positive kind.family opening expires source clock job (.observe j plain peer generation noise) →
          job.ack = true := by
    intro out hout hpositive
    obtain ⟨i, plain', peer', generation', noise', hcall, heeds, htimely, hreceipt, hzero⟩ := hpositive
    cases hcall
    have hack := (observe_positive noise hkind hsequence h heeds htimely hreceipt hzero).1
    rw [hout] at hack
    exact hack
  have hobserved := observe_cases h source plain peer generation noise clock
  cases hout : job.observe kind source plain peer generation noise clock with
  | mk out job' =>
    rw [hout] at hobserved
    cases hobserved with
    | ignored _ silent =>
      have hnone : given out = [] := by
        cases out with
        | error e => rfl
        | ok packets => exact silent packets rfl
      rw [hnone]
      exact .stays _ (hpositive hout)
    | acknowledged heeds receipt fresh timely positive =>
      exact .noted _ ⟨j, plain, peer, generation, noise, rfl, heeds, timely, receipt, positive⟩ _
    | refused heeds receipt fresh timely negative =>
      exact .ended _ _ _ _ heeds.waits (.refused j plain peer generation noise heeds timely receipt negative)
    | answered answer heeds looks answered =>
      exact .ended _ _ _ _ heeds.waits (.answered j plain peer generation noise answer heeds looks answered)

theorem not_positive {call : OneShotCall} (h : ∀ j plain peer generation noise, call ≠ .observe j plain peer generation noise)
    (hpositive : Positive kind.family opening expires source clock job call) : job.ack = true := by
  obtain ⟨j, plain, peer, generation, noise, hcall, -⟩ := hpositive
  exact absurd hcall (h j plain peer generation noise)

theorem moved_nextPacket (h : job.Sound kind.family opening expires) (source : BrokerSequences) (j : Nat)
    (clock : Nat → ℚ) :
    Moved kind opening expires source clock job (.nextPacket j) (job.nextPacket source (clock 0)).1.toList
      (job.nextPacket source (clock 0)).2 := by
  have hoffered := nextPacket_cases h source (clock 0)
  cases hout : job.nextPacket source (clock 0) with
  | mk packet job' =>
    rw [hout] at hoffered
    cases hoffered with
    | quiet => exact .stays _ (not_positive (by simp))
    | cancelled waits gone => exact .ended _ _ _ _ waits (.gone j gone)
    | expired waits late => exact .ended _ _ _ _ waits (.timeout j late)
    | asked waits unsent => exact .asked j waits unsent

theorem moved_cancel (source : BrokerSequences) (j : Nat) (clock : Nat → ℚ) :
    Moved kind opening expires source clock job (.cancel j) [] job.cancel := by
  rcases cancel_cases job with heq | ⟨hwaits, heq⟩
  · rw [heq]
    exact .stays _ (not_positive (by simp))
  · rw [heq]
    exact .ended _ _ _ _ hwaits (.cancelled j)

end Exchange

/-! ## A job of an account -/

namespace OneShot

/-- What a job is stays. -/
structure Alike (job job' : OneShot) : Prop where
  family : job'.family = job.family
  offset : job'.correlationOffset = job.correlationOffset
  correlation : job'.correlation = job.correlation
  sequence : job'.sequence = job.sequence
  sequences : job'.sequences = job.sequences

/-- What a call does to a job. -/
structure Acted (loads : TryLoads) (source : BrokerSequences) (clock : Nat → ℚ) (opening : OneShotOpening) (expires : ℚ)
    (call : OneShotCall) (job : OneShot) (packets : List Bytes) (job' : OneShot) : Prop where
  alike : job.Alike job'
  moved : job.bare.Moved (job.kind loads) opening expires source clock call packets job'.bare
  sound : job'.bare.Sound job.family opening expires
  /-- A job that has ended stays as it is. -/
  final : ∀ r, job.bare.result = some r → job' = job ∧ packets = []

theorem Alike.refl (job : OneShot) : Alike job job := ⟨rfl, rfl, rfl, rfl, rfl⟩

theorem Alike.trans {job job' job'' : OneShot} (h : Alike job job') (h' : Alike job' job'') : Alike job job'' where
  family := h'.family.trans h.family
  offset := h'.offset.trans h.offset
  correlation := h'.correlation.trans h.correlation
  sequence := h'.sequence.trans h.sequence
  sequences := h'.sequences.trans h.sequences

variable {opening : OneShotOpening} {job : OneShot}

theorem kind_family (loads : TryLoads) (job : OneShot) : (job.kind loads).family = job.family := by
  cases job with
  | lamp job => rfl
  | control job => rfl
  | catalog job => rfl

theorem bare_sequence (job : OneShot) : job.bare.sequence = job.sequence := by
  cases job with
  | lamp job => rfl
  | control job => rfl
  | catalog job => rfl

end OneShot

namespace Exchange

variable {K A : Type}

theorem nextPacket_key (source : BrokerSequences) (now : ℚ) (job : Exchange K A) :
    (job.nextPacket source now).2.key = job.key ∧ (job.nextPacket source now).2.sequence = job.sequence := by
  unfold Exchange.nextPacket
  split
  · exact ⟨rfl, rfl⟩
  split
  · unfold Exchange.cancel
    split
    · exact ⟨rfl, rfl⟩
    · exact ⟨rfl, rfl⟩
  split
  · exact ⟨rfl, rfl⟩
  split
  · exact ⟨rfl, rfl⟩
  · exact ⟨rfl, rfl⟩

theorem cancel_key (job : Exchange K A) : job.cancel.key = job.key ∧ job.cancel.sequence = job.sequence := by
  unfold Exchange.cancel
  split
  · exact ⟨rfl, rfl⟩
  · exact ⟨rfl, rfl⟩

theorem observe_key (kind : ExchangeKind K A) (source : BrokerSequences) (plain : Bytes) (peer : String × Nat)
    (generation noise : Nat) (clock : Nat → ℚ) (job : Exchange K A) :
    (job.observe kind source plain peer generation noise clock).2.key = job.key ∧
      (job.observe kind source plain peer generation noise clock).2.sequence = job.sequence := by
  unfold Exchange.observe
  split
  · exact ⟨rfl, rfl⟩
  split
  · exact ⟨rfl, rfl⟩
  split
  · exact ⟨rfl, rfl⟩
  · dsimp only
    split
    · exact ⟨rfl, rfl⟩
    · exact ⟨rfl, rfl⟩
  · dsimp only
    split
    · exact ⟨rfl, rfl⟩
    · exact ⟨rfl, rfl⟩
    · exact ⟨rfl, rfl⟩

theorem nextPacket_final {job : Exchange K A} {r : ExchangeResult A} (h : job.result = some r) (source : BrokerSequences)
    (now : ℚ) : job.nextPacket source now = (none, job) := by
  unfold Exchange.nextPacket
  rw [if_pos (by simp [h])]

theorem cancel_final {job : Exchange K A} {r : ExchangeResult A} (h : job.result = some r) : job.cancel = job := by
  unfold Exchange.cancel
  rw [if_neg (by simp [h])]

theorem observe_final {job : Exchange K A} (hnode : job.node = none) (kind : ExchangeKind K A) (source : BrokerSequences)
    (plain : Bytes) (peer : String × Nat) (generation noise : Nat) (clock : Nat → ℚ) :
    job.observe kind source plain peer generation noise clock = (.ok [], job) := by
  unfold Exchange.observe
  rw [hnode]

/-- The result of a job, without its value. -/
theorem bare_result {job : Exchange K A} {r : ExchangeResult Unit} (h : job.bare.result = some r) :
    ∃ result, job.result = some result ∧ result.status = r.status ∧ result.transportAcknowledged = r.transportAcknowledged := by
  simp only [Exchange.bare, Option.map_eq_some_iff] at h
  obtain ⟨result, hresult, rfl⟩ := h
  exact ⟨result, hresult, rfl, rfl⟩

end Exchange

namespace OneShot

variable {loads : TryLoads} {opening : OneShotOpening} {expires : ℚ} {job : OneShot}

theorem alike_lamp {a b : LampExchangeJob} (h : b.key = a.key ∧ b.sequence = a.sequence) : Alike (.lamp a) (.lamp b) where
  family := rfl
  offset := rfl
  correlation := h.2
  sequence := h.2
  sequences := by simp only [sequences, h.1, h.2]

theorem alike_control {a b : ControlWriteJob} (h : b.key = a.key ∧ b.sequence = a.sequence) :
    Alike (.control a) (.control b) where
  family := rfl
  offset := rfl
  correlation := by simp only [correlation, h.1]
  sequence := h.2
  sequences := by simp only [sequences, h.2]

theorem alike_catalog {a b : CatalogReadJob} (h : b.key = a.key ∧ b.sequence = a.sequence) :
    Alike (.catalog a) (.catalog b) where
  family := rfl
  offset := rfl
  correlation := h.2
  sequence := h.2
  sequences := by simp only [sequences, h.2]

theorem acted_nextPacket (loads : TryLoads) (h : job.bare.Sound job.family opening expires)
    (source : BrokerSequences) (j : Nat) (clock : Nat → ℚ) :
    Acted loads source clock opening expires (.nextPacket j) job (job.nextPacket source (clock 0)).1.toList
      (job.nextPacket source (clock 0)).2 := by
  have hsound : job.bare.Sound (job.kind loads).family opening expires := by
    rw [kind_family]
    exact h
  have hbare : (job.nextPacket source (clock 0)).1 = (job.bare.nextPacket source (clock 0)).1 ∧
      (job.nextPacket source (clock 0)).2.bare = (job.bare.nextPacket source (clock 0)).2 := by
    cases job with
    | lamp job => exact job.bare_nextPacket source (clock 0)
    | control job => exact job.bare_nextPacket source (clock 0)
    | catalog job => exact job.bare_nextPacket source (clock 0)
  refine ⟨?_, ?_, ?_, fun r hr => ?_⟩
  · cases job with
    | lamp job => exact alike_lamp (job.nextPacket_key source (clock 0))
    | control job => exact alike_control (job.nextPacket_key source (clock 0))
    | catalog job => exact alike_catalog (job.nextPacket_key source (clock 0))
  · rw [hbare.1, hbare.2]
    exact Exchange.moved_nextPacket hsound source j clock
  · rw [hbare.2, ← kind_family loads]
    exact hsound.nextPacket (Exchange.nextPacket_cases hsound source (clock 0))
  · cases job with
    | lamp job =>
      obtain ⟨result, hresult, -⟩ := Exchange.bare_result hr
      simp only [OneShot.nextPacket, Exchange.nextPacket_final hresult]
      exact ⟨rfl, rfl⟩
    | control job =>
      obtain ⟨result, hresult, -⟩ := Exchange.bare_result hr
      simp only [OneShot.nextPacket, Exchange.nextPacket_final hresult]
      exact ⟨rfl, rfl⟩
    | catalog job =>
      obtain ⟨result, hresult, -⟩ := Exchange.bare_result hr
      simp only [OneShot.nextPacket, Exchange.nextPacket_final hresult]
      exact ⟨rfl, rfl⟩

theorem acted_observe (loads : TryLoads) (h : job.bare.Sound job.family opening expires) (source : BrokerSequences)
    (j : Nat) (plain : Bytes) (peer : String × Nat) (generation noise : Nat) (clock : Nat → ℚ) :
    Acted loads source clock opening expires (.observe j plain peer generation noise) job
      (Exchange.given (job.observe loads source plain peer generation noise clock).1)
      (job.observe loads source plain peer generation noise clock).2 := by
  have hsound : job.bare.Sound (job.kind loads).family opening expires := by
    rw [kind_family]
    exact h
  have hbare : (job.observe loads source plain peer generation noise clock).1 =
        (job.bare.observe (job.kind loads) source plain peer generation noise clock).1 ∧
      (job.observe loads source plain peer generation noise clock).2.bare =
        (job.bare.observe (job.kind loads) source plain peer generation noise clock).2 := by
    cases job with
    | lamp job => exact job.bare_observe _ source plain peer generation noise clock
    | control job => exact job.bare_observe _ source plain peer generation noise clock
    | catalog job => exact job.bare_observe _ source plain peer generation noise clock
  refine ⟨?_, ?_, ?_, fun r hr => ?_⟩
  · cases job with
    | lamp job => exact alike_lamp (job.observe_key _ source plain peer generation noise clock)
    | control job => exact alike_control (job.observe_key _ source plain peer generation noise clock)
    | catalog job => exact alike_catalog (job.observe_key _ source plain peer generation noise clock)
  · rw [hbare.1, hbare.2]
    exact Exchange.moved_observe (job.lawful loads) job.bare_sequence hsound source j plain peer generation noise clock
  · rw [hbare.2, ← kind_family loads]
    exact hsound.observe (Exchange.observe_cases hsound source plain peer generation noise clock)
  · have hnode := h.ended r hr
    cases job with
    | lamp job =>
      have hnone : job.node = none := hnode
      simp only [OneShot.observe, Exchange.observe_final hnone]
      exact ⟨rfl, rfl⟩
    | control job =>
      have hnone : job.node = none := hnode
      simp only [OneShot.observe, Exchange.observe_final hnone]
      exact ⟨rfl, rfl⟩
    | catalog job =>
      have hnone : job.node = none := hnode
      simp only [OneShot.observe, Exchange.observe_final hnone]
      exact ⟨rfl, rfl⟩

theorem acted_cancel (loads : TryLoads) (h : job.bare.Sound job.family opening expires) (source : BrokerSequences)
    (j : Nat) (clock : Nat → ℚ) : Acted loads source clock opening expires (.cancel j) job [] job.cancel := by
  have hsound : job.bare.Sound (job.kind loads).family opening expires := by
    rw [kind_family]
    exact h
  have hbare : job.cancel.bare = job.bare.cancel := by
    cases job with
    | lamp job => exact job.bare_cancel
    | control job => exact job.bare_cancel
    | catalog job => exact job.bare_cancel
  refine ⟨?_, ?_, ?_, fun r hr => ?_⟩
  · cases job with
    | lamp job => exact alike_lamp job.cancel_key
    | control job => exact alike_control job.cancel_key
    | catalog job => exact alike_catalog job.cancel_key
  · rw [hbare]
    exact Exchange.moved_cancel source j clock
  · rw [hbare, ← kind_family loads]
    exact hsound.cancel
  · cases job with
    | lamp job =>
      obtain ⟨result, hresult, -⟩ := Exchange.bare_result hr
      exact ⟨congrArg OneShot.lamp (Exchange.cancel_final hresult), rfl⟩
    | control job =>
      obtain ⟨result, hresult, -⟩ := Exchange.bare_result hr
      exact ⟨congrArg OneShot.control (Exchange.cancel_final hresult), rfl⟩
    | catalog job =>
      obtain ⟨result, hresult, -⟩ := Exchange.bare_result hr
      exact ⟨congrArg OneShot.catalog (Exchange.cancel_final hresult), rfl⟩

/-- The result of a job, from the job without its value. -/
theorem result_some {result : OneShotResult} (h : job.result = some result) :
    ∃ r, job.bare.result = some r ∧ result.status = r.status.text ∧
      result.transportAcknowledged = r.transportAcknowledged := by
  cases job with
  | lamp job =>
    simp only [OneShot.result, LampExchangeJob.readResult, Option.map_map, Option.map_eq_some_iff] at h
    obtain ⟨r, hr, rfl⟩ := h
    exact ⟨_, by simp [bare, Exchange.bare, hr]; rfl, rfl, rfl⟩
  | control job =>
    simp only [OneShot.result, ControlWriteJob.writeResult, Option.map_map, Option.map_eq_some_iff] at h
    obtain ⟨r, hr, rfl⟩ := h
    exact ⟨_, by simp [bare, Exchange.bare, hr]; rfl, rfl, rfl⟩
  | catalog job =>
    simp only [OneShot.result, CatalogReadJob.readResult, Option.map_map, Option.map_eq_some_iff] at h
    obtain ⟨r, hr, rfl⟩ := h
    exact ⟨_, by simp [bare, Exchange.bare, hr]; rfl, rfl, rfl⟩

theorem result_none (h : job.result = none) : job.bare.result = none := by
  cases job with
  | lamp job => simpa [OneShot.result, LampExchangeJob.readResult, bare, Exchange.bare] using h
  | control job => simpa [OneShot.result, ControlWriteJob.writeResult, bare, Exchange.bare] using h
  | catalog job => simpa [OneShot.result, CatalogReadJob.readResult, bare, Exchange.bare] using h

theorem result_eq_none (h : job.bare.result = none) : job.result = none := by
  cases hresult : job.result with
  | none => rfl
  | some result =>
    obtain ⟨r, hr, -⟩ := result_some hresult
    rw [h] at hr
    cases hr

/-! ### Preparing -/

/-- A job that has just been prepared. -/
structure Prepared (opening : OneShotOpening) (expires : ℚ) (source source' : BrokerSequences) (job : OneShot) :
    Prop where
  sound : job.bare.Sound job.family opening expires
  waits : job.bare.result = none
  unsent : job.bare.sent = false
  unacked : job.bare.ack = false
  living : source.matchesIdentity opening.node.sessionId opening.generation = true
  fresh : ∀ s ∈ job.sequences, source.next ≤ s ∧ s < source'.next
  nodup : job.sequences.Nodup

end OneShot

/-- What registering a request gives. -/
theorem register_ok [Rounding] {family : Nat} {bounds : ExchangeFault} {node : CertifiedNode} {generation : Nat}
    {deadline : ℚ} {clock : Nat → ℚ} {receipts : BrokerTransactions} {ticket : ReceiptTicket}
    (h : Exchange.register family bounds node source generation deadline clock = (.ok (receipts, ticket), source')) :
    source.matchesIdentity node.sessionId generation = true ∧ ticket = ⟨generation, source.next, family⟩ ∧
      receipts = {
        session := node.sessionId
        generation := generation
        pending := (∅ : Dict Nat (ReceiptTicket × ℚ)).set source.next
          (ticket, Rounding.round (clock 2 + Rounding.round (deadline - clock 1))) } ∧
      source'.next = source.next + 1 ∧ DrawnFrom source source' := by
  unfold Exchange.register at h
  split at h
  · cases h
  split at h
  · cases h
  next hmatches =>
  unfold BrokerTransactions.register at h
  split at h
  · cases h
  next heq =>
  split at heq
  · cases heq
  split at heq
  · cases heq
  split at heq
  · cases heq
  split at heq
  · cases heq
  next sequence source'' hallocate =>
  cases heq
  cases h
  obtain ⟨rfl, hnext⟩ := allocate_ok hallocate
  have hdrawn := allocate_drawn source
  rw [hallocate] at hdrawn
  exact ⟨by simpa using hmatches, rfl, rfl, hnext, hdrawn⟩

theorem register_drawn [Rounding] (family : Nat) (bounds : ExchangeFault) (node : CertifiedNode)
    (source : BrokerSequences) (generation : Nat) (deadline : ℚ) (clock : Nat → ℚ) :
    DrawnFrom source (Exchange.register family bounds node source generation deadline clock).2 := by
  have hregister : ∀ (t : BrokerTransactions) (timeout now : ℚ),
      DrawnFrom source (t.register source family timeout now).2.2 := by
    intro t timeout now
    unfold BrokerTransactions.register
    split
    · exact .refl source
    split
    · exact .refl source
    split
    · exact .refl source
    have hdrawn := allocate_drawn source
    split
    · next heq =>
      rw [heq] at hdrawn
      exact hdrawn
    · next heq =>
      rw [heq] at hdrawn
      exact hdrawn
  unfold Exchange.register
  split
  · exact .refl source
  split
  · exact .refl source
  have hdrawn := hregister { session := node.sessionId, generation := generation }
    (Rounding.round (deadline - clock 1)) (clock 2)
  split
  · next heq =>
    rw [heq] at hdrawn
    exact hdrawn
  · next heq =>
    rw [heq] at hdrawn
    exact hdrawn

/-- A job whose request has just been registered. -/
theorem sound_new [Rounding] {family : Nat} {bounds : ExchangeFault} {opening : OneShotOpening} {clock : Nat → ℚ}
    {receipts : BrokerTransactions} {ticket : ReceiptTicket}
    (h : Exchange.register family bounds opening.node source opening.generation opening.deadline clock =
      (.ok (receipts, ticket), source')) (wire : Bytes) :
    ({ receipts := receipts
       sequence := ticket.sequence
       key := ()
       wire := wire
       node := some opening.node
       generation := opening.generation
       deadline := opening.deadline } : Exchange Unit Unit).Sound family opening
      (Rounding.round (clock 2 + Rounding.round (opening.deadline - clock 1))) := by
  obtain ⟨-, rfl, rfl, -⟩ := register_ok h
  exact {
    generation := rfl
    deadline := rfl
    node := fun _ => rfl
    ended := fun _ hr => by cases hr
    receipts := fun _ => ⟨rfl, rfl, rfl⟩
    pending := fun s x hx => by
      simp only [Dict.get?_set] at hx
      split at hx
      · next hs =>
        cases hx
        exact ⟨hs, rfl⟩
      · simp at hx
    waits := fun _ _ => by
      simp only [Dict.get?_set, if_true]
      rfl
    acked := fun hack => by cases hack
    asked := fun hack => by cases hack }

section

variable [Rounding] {opening : OneShotOpening} {message noise : Nat} {clock : Nat → ℚ}

theorem LampExchangeJob.new_drawn (opening : OneShotOpening) (spec : LampSpec) (message noise : Nat)
    (source : BrokerSequences) (clock : Nat → ℚ) :
    DrawnFrom source (new opening.node source spec opening.generation opening.deadline message noise clock).2 := by
  have hdrawn := register_drawn 0xB9 .lampBounds opening.node source opening.generation opening.deadline
    fun i => clock (i - 1)
  unfold new
  split
  · exact .refl source
  split
  · next heq =>
    rw [heq] at hdrawn
    exact hdrawn
  next source' heq =>
  rw [heq] at hdrawn
  have hallocate := hdrawn.trans (allocate_drawn source')
  split
  · next hallocated =>
    rw [hallocated] at hallocate
    exact hallocate
  next hallocated =>
  rw [hallocated] at hallocate
  split
  · exact hallocate
  · exact hallocate

theorem ControlWriteJob.new_drawn (opening : OneShotOpening) (spec : ControlWriteSpec) (message noise : Nat)
    (source : BrokerSequences) (clock : Nat → ℚ) :
    DrawnFrom source (new opening.node source spec opening.generation opening.deadline message noise clock).2 := by
  have hdrawn := register_drawn 0xD2 .controlBounds opening.node source opening.generation opening.deadline clock
  unfold new
  split
  · next heq =>
    rw [heq] at hdrawn
    exact hdrawn
  next heq =>
  rw [heq] at hdrawn
  split
  · exact hdrawn
  · exact hdrawn

theorem CatalogReadJob.new_drawn (opening : OneShotOpening) (spec : CatalogReadSpec) (noise : Nat)
    (source : BrokerSequences) (clock : Nat → ℚ) :
    DrawnFrom source (new opening.node source spec opening.generation opening.deadline noise clock).2 := by
  have hdrawn := register_drawn 0xC0 .catalogBounds opening.node source opening.generation opening.deadline clock
  unfold new
  split
  · next heq =>
    rw [heq] at hdrawn
    exact hdrawn
  next heq =>
  rw [heq] at hdrawn
  split
  · exact hdrawn
  · exact hdrawn

theorem LampExchangeJob.new_ok {spec : LampSpec} {job : LampExchangeJob}
    (h : new opening.node source spec opening.generation opening.deadline message noise clock = (.ok job, source')) :
    OneShot.Prepared opening (Rounding.round (clock 1 + Rounding.round (opening.deadline - clock 0))) source source'
      (.lamp job) := by
  unfold new at h
  split at h
  · cases h
  split at h
  · cases h
  next receipts ticket source₁ hregister =>
  split at h
  · cases h
  next receiptSequence source₂ hallocate =>
  split at h
  · cases h
  next wire _ =>
  cases h
  obtain ⟨hliving, rfl, -, hnext, -⟩ := register_ok hregister
  obtain ⟨rfl, hnext'⟩ := allocate_ok hallocate
  exact {
    sound := sound_new hregister wire
    waits := rfl
    unsent := rfl
    unacked := rfl
    living := hliving
    fresh := by
      intro s hs
      simp only [OneShot.sequences, List.mem_cons, List.not_mem_nil, or_false] at hs
      omega
    nodup := by
      simp only [OneShot.sequences, List.nodup_cons, List.mem_singleton, List.not_mem_nil, not_false_eq_true,
        List.nodup_nil, and_true]
      omega }

/-- A job that has registered its request and drawn no other sequence. -/
theorem OneShot.Prepared.registered {job : OneShot} {bounds : ExchangeFault} {receipts : BrokerTransactions}
    {ticket : ReceiptTicket} {wire : Bytes}
    (h : Exchange.register job.family bounds opening.node source opening.generation opening.deadline clock =
      (.ok (receipts, ticket), source'))
    (hbare : job.bare = {
      receipts := receipts
      sequence := ticket.sequence
      key := ()
      wire := wire
      node := some opening.node
      generation := opening.generation
      deadline := opening.deadline })
    (hsequences : job.sequences = [ticket.sequence]) :
    OneShot.Prepared opening (Rounding.round (clock 2 + Rounding.round (opening.deadline - clock 1))) source source'
      job := by
  obtain ⟨hliving, rfl, -, hnext, -⟩ := register_ok h
  exact {
    sound := by
      rw [hbare]
      exact sound_new h wire
    waits := by rw [hbare]
    unsent := by rw [hbare]
    unacked := by rw [hbare]
    living := hliving
    fresh := by
      intro s hs
      rw [hsequences, List.mem_singleton] at hs
      subst hs
      dsimp only
      omega
    nodup := by
      rw [hsequences]
      exact List.nodup_singleton _ }

theorem ControlWriteJob.new_ok {spec : ControlWriteSpec} {job : ControlWriteJob}
    (h : new opening.node source spec opening.generation opening.deadline message noise clock = (.ok job, source')) :
    OneShot.Prepared opening (Rounding.round (clock 2 + Rounding.round (opening.deadline - clock 1))) source source'
      (.control job) := by
  unfold new at h
  split at h
  · cases h
  next receipts ticket source₁ hregister =>
  split at h
  · cases h
  cases h
  exact .registered hregister rfl rfl

theorem CatalogReadJob.new_ok {spec : CatalogReadSpec} {job : CatalogReadJob}
    (h : new opening.node source spec opening.generation opening.deadline noise clock = (.ok job, source')) :
    OneShot.Prepared opening (Rounding.round (clock 2 + Rounding.round (opening.deadline - clock 1))) source source'
      (.catalog job) := by
  unfold new at h
  split at h
  · cases h
  next receipts ticket source₁ hregister =>
  split at h
  · cases h
  cases h
  exact .registered hregister rfl rfl

namespace OneShot

/-- Where a job cannot be prepared, sequences may have been used up. -/
theorem prepare_drawn (opening : OneShotOpening) (message noise : Nat) (source : BrokerSequences)
    (clock : Nat → ℚ) : DrawnFrom source (prepare opening message noise source clock).2 := by
  unfold prepare
  split
  · next spec _ =>
    have hnew := LampExchangeJob.new_drawn opening spec message noise source clock
    split
    · next heq =>
      rw [heq] at hnew
      exact hnew
    · next heq =>
      rw [heq] at hnew
      exact hnew
  · next spec _ =>
    have hnew := ControlWriteJob.new_drawn opening spec message noise source clock
    split
    · next heq =>
      rw [heq] at hnew
      exact hnew
    · next heq =>
      rw [heq] at hnew
      exact hnew
  · next spec _ =>
    have hnew := CatalogReadJob.new_drawn opening spec noise source clock
    split
    · next heq =>
      rw [heq] at hnew
      exact hnew
    · next heq =>
      rw [heq] at hnew
      exact hnew

theorem prepare_ok {job : OneShot} (h : prepare opening message noise source clock = (.ok job, source')) :
    Prepared opening (opening.expires clock) source source' job := by
  unfold prepare at h
  unfold OneShotOpening.expires
  split at h
  · split at h
    · cases h
    next hnew =>
    cases h
    exact LampExchangeJob.new_ok hnew
  · split at h
    · cases h
    next hnew =>
    cases h
    exact ControlWriteJob.new_ok hnew
  · split at h
    · cases h
    next hnew =>
    cases h
    exact CatalogReadJob.new_ok hnew

end OneShot

end

/-! ## Runs -/

/-- The job that a call is about. -/
def OneShotCall.about : OneShotCall → Option Nat
  | .prepare .. => none
  | .nextPacket j => some j
  | .observe j .. => some j
  | .cancel j => some j
  | .reserve _ => none
  | .retire => none

namespace OneShotEvent

/-- The requests of a job that an event gave out. -/
def requests (j : Nat) (e : OneShotEvent) : List Bytes :=
  match e.call with
  | .nextPacket i => if i = j then e.packets else []
  | _ => []

/-- The packets that an event gave out for a job. -/
def packetsFor (j : Nat) (e : OneShotEvent) : List Bytes := if e.call.about = some j then e.packets else []

end OneShotEvent

namespace OneShotRun

/-- The requests of a job. -/
def requests (j : Nat) (log : List OneShotEvent) : List Bytes := log.flatMap (OneShotEvent.requests j)

/-- The account has ended. -/
def Retired (log : List OneShotEvent) : Prop := ∃ e ∈ log, e.call = .retire

/-- After `log` a job takes notice of a frame: its request is out, its deadline
lies ahead, the frame comes from its node and in its generation, and the account
lives. -/
structure Hears (log : List OneShotEvent) (j : Nat) (opening : OneShotOpening) (clock : Nat → ℚ) (call : OneShotCall)
    (plain : Bytes) : Prop where
  call : ∃ noise, call = .observe j plain opening.node.address opening.generation noise
  requested : requests j log ≠ []
  early : clock 0 < opening.deadline
  living : ¬Retired log

/-! ### The log -/

theorem requests_snoc (j : Nat) (log : List OneShotEvent) (e : OneShotEvent) :
    requests j (log ++ [e]) = requests j log ++ e.requests j := by simp [requests]

theorem requests_other {j : Nat} {e : OneShotEvent} (h : e.call.about ≠ some j) : e.requests j = [] := by
  obtain ⟨clock, call, packets, reserved⟩ := e
  cases call with
  | nextPacket i =>
    have hne : i ≠ j := fun heq => h (by rw [heq]; rfl)
    simp [OneShotEvent.requests, hne]
  | _ => rfl

theorem requests_silent (j : Nat) (clock : Nat → ℚ) (call : OneShotCall) (reserved : List Nat) :
    OneShotEvent.requests j ⟨clock, call, [], reserved⟩ = [] := by
  cases call with
  | nextPacket i => simp [OneShotEvent.requests]
  | _ => rfl

theorem retired_snoc (log : List OneShotEvent) (e : OneShotEvent) :
    Retired (log ++ [e]) ↔ Retired log ∨ e.call = .retire := by
  simp [Retired, or_and_right, exists_or]

theorem Hears.about {log : List OneShotEvent} {j : Nat} {opening : OneShotOpening} {clock : Nat → ℚ}
    {call : OneShotCall} {plain : Bytes} (h : Hears log j opening clock call plain) : call.about = some j := by
  obtain ⟨noise, hcall⟩ := h.call
  rw [hcall]
  rfl

theorem matches_close (source : BrokerSequences) (session generation : Nat) :
    source.close.matchesIdentity session generation = false := rfl

/-! ### Moves and the log -/

/-- What a call about the job asks for. -/
theorem moved_requests {kind : ExchangeKind Unit Unit} {opening : OneShotOpening} {expires : ℚ} {clock : Nat → ℚ}
    {job job' : Exchange Unit Unit} {call : OneShotCall} {packets : List Bytes}
    (h : job.Moved kind opening expires source clock call packets job') (habout : call.about = some j) :
    (OneShotEvent.requests j ⟨clock, call, packets, []⟩ = [] ∧ job'.sent = job.sent) ∨
      (job.sent = false ∧ job'.sent = true ∧ (OneShotEvent.requests j ⟨clock, call, packets, []⟩).length = 1) := by
  cases h with
  | stays => exact .inl ⟨requests_silent j clock call [], rfl⟩
  | noted => exact .inl ⟨requests_silent j clock call [], rfl⟩
  | asked i waits unsent =>
    cases habout
    exact .inr ⟨unsent, rfl, by simp [OneShotEvent.requests]⟩
  | ended _ _ status value waits why =>
    refine .inl ⟨?_, rfl⟩
    cases why with
    | answered => rfl
    | refused => rfl
    | timeout => exact requests_silent j clock _ []
    | gone => exact requests_silent j clock _ []
    | cancelled => rfl

/-- While it lasts, a receipt is noted when a positive one was heard. -/
theorem moved_acked {kind : ExchangeKind Unit Unit} {opening : OneShotOpening} {expires : ℚ} {clock : Nat → ℚ}
    {job job' : Exchange Unit Unit} {call : OneShotCall} {packets : List Bytes}
    (h : job.Moved kind opening expires source clock call packets job') (hwaits : job'.result = none) :
    job.result = none ∧
      (job'.ack = true ↔ job.ack = true ∨ job.Positive kind.family opening expires source clock call) := by
  cases h with
  | stays _ silent => exact ⟨hwaits, .inl, fun hor => hor.elim id silent⟩
  | noted _ positive receipts => exact ⟨hwaits, fun _ => .inr positive, fun _ => rfl⟩
  | asked i waits unsent =>
    refine ⟨waits, .inl, fun hor => hor.elim id ?_⟩
    rintro ⟨_, _, _, _, _, hcall, -⟩
    cases hcall
  | ended => cases hwaits

/-- How a job came to its result. -/
theorem moved_ended {kind : ExchangeKind Unit Unit} {opening : OneShotOpening} {expires : ℚ} {clock : Nat → ℚ}
    {job job' : Exchange Unit Unit} {call : OneShotCall} {packets : List Bytes} {ended : ExchangeResult Unit}
    (h : job.Moved kind opening expires source clock call packets job') (hwaits : job.result = none)
    (hended : job'.result = some ended) :
    ∃ status, job.Ends kind opening expires source clock call packets status ∧ ended.status = status ∧
      ended.transportAcknowledged = job.ack := by
  cases h with
  | stays =>
    rw [hwaits] at hended
    cases hended
  | noted =>
    simp only [hwaits] at hended
    cases hended
  | asked =>
    simp only [hwaits] at hended
    cases hended
  | ended _ _ status value waits why =>
    cases hended
    exact ⟨status, why, rfl, rfl⟩

/-! ### Sequences -/

/-- The sequences of the jobs and those of others. -/
def sequences (r : OneShotRun) : List Nat :=
  r.jobs.flatMap (fun held => held.job.sequences) ++ r.log.flatMap OneShotEvent.reserved

/-- A job's sequences stay. -/
theorem sequences_modify {jobs : List HeldOneShot} {i : Nat} {held : HeldOneShot} {job : OneShot}
    (hheld : jobs[i]? = some held) (h : job.sequences = held.job.sequences) :
    (jobs.modify i fun held => { held with job := job }).flatMap (fun held => held.job.sequences) =
      jobs.flatMap fun held => held.job.sequences := by
  rw [List.flatMap_def, List.flatMap_def]
  congr 1
  refine List.ext_getElem? fun k => ?_
  rw [List.getElem?_map, List.getElem?_map, List.getElem?_modify]
  by_cases hk : i = k
  · subst hk
    simp [hheld, h]
  · simp [hk]

/-! ### The invariant -/

variable [Rounding]

/-- A positive receipt of the job's request was heard, and had not expired when it was
tried. -/
def Acknowledged (log : List OneShotEvent) (j : Nat) (held : HeldOneShot) : Prop :=
  ∃ before e after plain, log = before ++ e :: after ∧ Hears before j held.opening e.clock e.call plain ∧
    e.clock 1 < held.expires ∧ IsReceipt held.job.family held.opening.node.sessionId held.job.sequence plain ∧
    plain.field 2 26 = 0

/-- What holds of a job and of the log. -/
structure Tracked (source : BrokerSequences) (log : List OneShotEvent) (j : Nat) (held : HeldOneShot) : Prop where
  sound : held.job.bare.Sound held.job.family held.opening held.expires
  asked : (requests j log).length = if held.job.bare.sent then 1 else 0
  acked : held.job.bare.result = none → (held.job.bare.ack = true ↔ Acknowledged log j held)
  living : source.matchesIdentity held.opening.node.sessionId held.opening.generation = true ↔ ¬Retired log

structure Kept (r : OneShotRun) : Prop where
  tracked : ∀ (j : Nat) (held : HeldOneShot), r.jobs[j]? = some held → Tracked r.source r.log j held
  unknown : ∀ j : Nat, r.jobs[j]? = none → requests j r.log = []
  retired : Retired r.log → ∀ session generation, r.source.matchesIdentity session generation = false
  below : ∀ s ∈ r.sequences, s < r.source.next
  nodup : r.sequences.Nodup

/-- What a call does to an account. -/
inductive Stepped (loads : TryLoads) (clock : Nat → ℚ) (r : OneShotRun) : OneShotCall → OneShotRun → Prop
  | prepared (opening : OneShotOpening) (message noise : Nat) (job : OneShot) (source : BrokerSequences)
    (prepared : OneShot.Prepared opening (opening.expires clock) r.source source job)
    (drawn : DrawnFrom r.source source) :
    Stepped loads clock r (.prepare opening message noise)
      ⟨source, r.jobs ++ [⟨opening, clock, job⟩], r.log ++ [⟨clock, .prepare opening message noise, [], []⟩]⟩
  | acted (call : OneShotCall) (j : Nat) (held : HeldOneShot) (packets : List Bytes) (job : OneShot)
    (about : call.about = some j) (known : r.jobs[j]? = some held)
    (acted : held.job.Acted loads r.source clock held.opening held.expires call packets job) :
    Stepped loads clock r call ⟨r.source, r.jobs.modify j (fun held => { held with job := job }),
      r.log ++ [⟨clock, call, packets, []⟩]⟩
  | idle (call : OneShotCall) (source : BrokerSequences) (reserved : List Nat)
    (about : ∀ j : Nat, call.about = some j → r.jobs[j]? = none) (same : call.about.isSome → source = r.source)
    (drawn : call ≠ .retire → DrawnFrom r.source source) (retired : call = .retire → source = r.source.close)
    (nodup : reserved.Nodup) (fresh : ∀ s ∈ reserved, r.source.next ≤ s ∧ s < source.next) :
    Stepped loads clock r call ⟨source, r.jobs, r.log ++ [⟨clock, call, [], reserved⟩]⟩

theorem step_cases (loads : TryLoads) (clock : Nat → ℚ) (call : OneShotCall) {r : OneShotRun}
    (h : ∀ (j : Nat) (held : HeldOneShot), r.jobs[j]? = some held →
      held.job.bare.Sound held.job.family held.opening held.expires) :
    Stepped loads clock r call (step loads clock call r) := by
  have hunknown : ∀ {call : OneShotCall} {j : Nat}, call.about = some j → r.jobs[j]? = none →
      Stepped loads clock r call (note { clock := clock, call := call } r) := by
    intro call j habout hnone
    refine .idle call r.source [] (fun i hi => ?_) (fun _ => rfl) (fun _ => .refl r.source) (fun hretire => ?_) ?_ ?_
    · rw [habout] at hi
      cases hi
      exact hnone
    · rw [hretire] at habout
      cases habout
    · exact List.nodup_nil
    · simp
  cases call with
  | prepare opening message noise =>
    have hdrawn := OneShot.prepare_drawn opening message noise r.source clock
    simp only [step]
    split
    · next heq =>
      rw [heq] at hdrawn
      refine .idle _ _ [] (by simp [OneShotCall.about]) (by simp [OneShotCall.about]) (fun _ => hdrawn) (by simp) ?_ ?_
      · exact List.nodup_nil
      · simp
    · next job source heq =>
      rw [heq] at hdrawn
      exact .prepared opening message noise job source (OneShot.prepare_ok heq) hdrawn
  | nextPacket j =>
    simp only [step]
    split
    · next hnone => exact hunknown rfl hnone
    · next held hheld =>
      exact .acted _ j held _ _ rfl hheld (OneShot.acted_nextPacket loads (h j held hheld) r.source j clock)
  | observe j plain peer generation noise =>
    simp only [step]
    split
    · next hnone => exact hunknown rfl hnone
    · next held hheld =>
      have hacted := OneShot.acted_observe loads (h j held hheld) r.source j plain peer generation noise clock
      split
      · next heq =>
        rw [heq] at hacted
        exact .acted _ j held _ _ rfl hheld hacted
      · next heq =>
        rw [heq] at hacted
        exact .acted _ j held _ _ rfl hheld hacted
  | cancel j =>
    simp only [step]
    split
    · next hnone => exact hunknown rfl hnone
    · next held hheld =>
      exact .acted _ j held _ _ rfl hheld (OneShot.acted_cancel loads (h j held hheld) r.source j clock)
  | reserve count =>
    have hdrawn := reserve_drawn r.source count
    simp only [step]
    split
    · next heq =>
      rw [heq] at hdrawn
      refine .idle _ _ [] (by simp [OneShotCall.about]) (by simp [OneShotCall.about]) (fun _ => hdrawn) (by simp) ?_ ?_
      · exact List.nodup_nil
      · simp
    · next ids source heq =>
      rw [heq] at hdrawn
      obtain ⟨hnodup, hids, -⟩ := reserve_ids heq
      exact .idle _ _ ids (by simp [OneShotCall.about]) (by simp [OneShotCall.about]) (fun _ => hdrawn) (by simp) hnodup hids
  | retire =>
    refine .idle _ _ [] (by simp [OneShotCall.about]) (by simp [OneShotCall.about]) (by simp) (fun _ => rfl) ?_ ?_
    · exact List.nodup_nil
    · simp

/-! ### Receipts and requests of a run -/

/-- What one more event adds to what was heard. -/
theorem acknowledged_snoc {log : List OneShotEvent} {e : OneShotEvent} {j : Nat} {held : HeldOneShot} :
    Acknowledged (log ++ [e]) j held ↔ Acknowledged log j held ∨
      ∃ plain, Hears log j held.opening e.clock e.call plain ∧ e.clock 1 < held.expires ∧
        IsReceipt held.job.family held.opening.node.sessionId held.job.sequence plain ∧ plain.field 2 26 = 0 := by
  constructor
  · rintro ⟨before, e', after, plain, hsplit, hheard⟩
    rcases List.eq_nil_or_concat after with rfl | ⟨after', last, rfl⟩
    · obtain ⟨rfl, hlast⟩ := List.append_inj' hsplit rfl
      cases hlast
      exact .inr ⟨plain, hheard⟩
    · rw [List.concat_eq_append, ← List.cons_append, ← List.append_assoc] at hsplit
      exact .inl ⟨before, e', after', plain, (List.append_inj' hsplit rfl).1, hheard⟩
  · rintro (⟨before, e', after, plain, rfl, hheard⟩ | ⟨plain, hheard⟩)
    · exact ⟨before, e', after ++ [e], plain, by simp, hheard⟩
    · exact ⟨log, e, [], plain, rfl, hheard⟩

theorem Acknowledged.alike {log : List OneShotEvent} {j : Nat} {opening : OneShotOpening} {clock : Nat → ℚ}
    {job job' : OneShot} (h : job.Alike job') :
    Acknowledged log j ⟨opening, clock, job'⟩ ↔ Acknowledged log j ⟨opening, clock, job⟩ := by
  simp only [Acknowledged, HeldOneShot.expires, h.family, h.sequence]

variable {source source' : BrokerSequences} {log : List OneShotEvent} {j : Nat} {held : HeldOneShot}

theorem Tracked.sent_iff (h : Tracked source log j held) : held.job.bare.sent = true ↔ requests j log ≠ [] := by
  have hasked := h.asked
  rw [← List.length_pos_iff_ne_nil, hasked]
  cases held.job.bare.sent with
  | false => simp
  | true => simp

/-- A job takes notice of what it hears. -/
theorem Tracked.heeds_iff (h : Tracked source log j held) (hwaits : held.job.bare.result = none) {peer : String × Nat}
    {generation noise : Nat} {clock : Nat → ℚ} {plain : Bytes} :
    held.job.bare.Heeds held.opening source peer generation clock ↔
      Hears log j held.opening clock (.observe j plain peer generation noise) plain := by
  constructor
  · intro heeds
    exact {
      call := ⟨noise, by rw [heeds.peer, heeds.generation]⟩
      requested := h.sent_iff.mp heeds.sent
      early := heeds.early
      living := h.living.mp heeds.living }
  · intro hears
    obtain ⟨noise', hcall⟩ := hears.call
    cases hcall
    exact {
      waits := hwaits
      sent := h.sent_iff.mpr hears.requested
      peer := rfl
      generation := rfl
      early := hears.early
      living := h.living.mpr hears.living }

/-- A positive receipt is one that is heard. -/
theorem Tracked.positive_iff (h : Tracked source log j held) (hwaits : held.job.bare.result = none) {clock : Nat → ℚ}
    {call : OneShotCall} (habout : call.about = some j) :
    held.job.bare.Positive held.job.family held.opening held.expires source clock call ↔
      ∃ plain, Hears log j held.opening clock call plain ∧ clock 1 < held.expires ∧
        IsReceipt held.job.family held.opening.node.sessionId held.job.sequence plain ∧ plain.field 2 26 = 0 := by
  constructor
  · rintro ⟨i, plain, peer, generation, noise, rfl, heeds, htimely, hreceipt, hzero⟩
    cases habout
    rw [OneShot.bare_sequence] at hreceipt
    exact ⟨plain, (h.heeds_iff hwaits).mp heeds, htimely, hreceipt, hzero⟩
  · rintro ⟨plain, hears, htimely, hreceipt, hzero⟩
    obtain ⟨noise, rfl⟩ := hears.call
    refine ⟨j, plain, _, _, noise, rfl, (h.heeds_iff hwaits).mpr hears, htimely, ?_, hzero⟩
    rw [OneShot.bare_sequence]
    exact hreceipt

/-- An event that is about another job, or about none. -/
theorem Tracked.other (h : Tracked source log j held) {e : OneShotEvent} (habout : e.call.about ≠ some j)
    (hliving : source'.matchesIdentity held.opening.node.sessionId held.opening.generation = true ↔
      ¬Retired (log ++ [e])) : Tracked source' (log ++ [e]) j held where
  sound := h.sound
  asked := by
    rw [requests_snoc, requests_other habout, List.append_nil]
    exact h.asked
  acked := by
    intro hwaits
    rw [acknowledged_snoc, h.acked hwaits]
    constructor
    · exact .inl
    · rintro (hheard | ⟨plain, hears, -⟩)
      · exact hheard
      · exact absurd hears.about habout
  living := hliving

/-- A call about the job. -/
theorem Tracked.acted (h : Tracked source log j held) {loads : TryLoads} {clock : Nat → ℚ} {call : OneShotCall}
    {packets : List Bytes} {job : OneShot} (habout : call.about = some j)
    (hacted : held.job.Acted loads source clock held.opening held.expires call packets job) :
    Tracked source (log ++ [⟨clock, call, packets, []⟩]) j ⟨held.opening, held.clock, job⟩ where
  sound := by
    have hsound := hacted.sound
    rw [← hacted.alike.family] at hsound
    exact hsound
  asked := by
    rw [requests_snoc, List.length_append, h.asked]
    rcases moved_requests hacted.moved habout with ⟨hnone, hsame⟩ | ⟨hunsent, hsent, hone⟩
    · rw [hnone, hsame]
      rfl
    · rw [hunsent, hsent, hone]
      rfl
  acked := by
    intro hwaits'
    rw [acknowledged_snoc]
    simp only [hacted.alike.family, hacted.alike.sequence]
    rw [Acknowledged.alike hacted.alike]
    obtain ⟨hwaits, hack⟩ := moved_acked hacted.moved hwaits'
    rw [OneShot.kind_family] at hack
    rw [hack, h.acked hwaits, h.positive_iff hwaits habout]
    exact Iff.rfl
  living := by
    rw [retired_snoc, h.living]
    have hne : call ≠ .retire := fun heq => by rw [heq] at habout; cases habout
    simp [hne]

/-- A call is logged. -/
theorem step_log (loads : TryLoads) (clock : Nat → ℚ) (call : OneShotCall) (r : OneShotRun) :
    ∃ e, (step loads clock call r).log = r.log ++ [e] ∧ e.call = call := by
  cases call with
  | prepare opening message noise =>
    simp only [step]
    split
    · exact ⟨_, rfl, rfl⟩
    · exact ⟨_, rfl, rfl⟩
  | nextPacket j =>
    simp only [step]
    split
    · exact ⟨_, rfl, rfl⟩
    · exact ⟨_, rfl, rfl⟩
  | observe j plain peer generation noise =>
    simp only [step]
    split
    · exact ⟨_, rfl, rfl⟩
    split
    · exact ⟨_, rfl, rfl⟩
    · exact ⟨_, rfl, rfl⟩
  | cancel j =>
    simp only [step]
    split
    · exact ⟨_, rfl, rfl⟩
    · exact ⟨_, rfl, rfl⟩
  | reserve count =>
    simp only [step]
    split
    · exact ⟨_, rfl, rfl⟩
    · exact ⟨_, rfl, rfl⟩
  | retire => exact ⟨_, rfl, rfl⟩

/-! ### The account -/

/-- Nothing was heard for a job that has not asked. -/
theorem not_acknowledged (h : requests j log = []) : ¬Acknowledged log j held := by
  rintro ⟨before, e, after, plain, rfl, hears, -⟩
  refine hears.requested ?_
  rw [requests, List.flatMap_append, List.append_eq_nil_iff] at h
  exact h.1

theorem OneShot.Prepared.tracked {opening : OneShotOpening} {clock : Nat → ℚ} {job : OneShot}
    (h : OneShot.Prepared opening (opening.expires clock) source source' job) (hnone : requests j log = [])
    (hliving : source'.matchesIdentity opening.node.sessionId opening.generation = true ↔ ¬Retired log) :
    Tracked source' log j ⟨opening, clock, job⟩ where
  sound := h.sound
  asked := by
    rw [hnone, h.unsent]
    rfl
  acked := by
    intro _
    constructor
    · intro hack
      rw [h.unacked] at hack
      cases hack
    · intro hheard
      exact absurd hheard (not_acknowledged hnone)
  living := hliving

variable {r r' : OneShotRun} {loads : TryLoads} {clock : Nat → ℚ} {call : OneShotCall}

theorem Kept.retired_stepped (h : Kept r) (hs : Stepped loads clock r call r') :
    Retired r'.log → ∀ session generation, r'.source.matchesIdentity session generation = false := by
  intro hretired session generation
  cases hs with
  | prepared opening message noise job source prepared drawn =>
    rw [retired_snoc] at hretired
    rw [drawn.same]
    exact h.retired (hretired.resolve_right (by simp)) session generation
  | acted _ j held packets job about =>
    rw [retired_snoc] at hretired
    refine h.retired (hretired.resolve_right fun heq => ?_) session generation
    simp only at heq
    rw [heq] at about
    cases about
  | idle _ source reserved about same drawn retired =>
    rw [retired_snoc] at hretired
    by_cases hcall : call = .retire
    · rw [retired hcall]
      exact matches_close r.source session generation
    · rw [(drawn hcall).same]
      exact h.retired (hretired.resolve_right hcall) session generation

/-- The account lives as before, if the call does not end it. -/
theorem Kept.living (h : Kept r) (hs : Stepped loads clock r call r') {session generation : Nat}
    (hliving : r.source.matchesIdentity session generation = true ↔ ¬Retired r.log) :
    r'.source.matchesIdentity session generation = true ↔ ¬Retired r'.log := by
  constructor
  · intro hmatches hretired
    rw [h.retired_stepped hs hretired] at hmatches
    cases hmatches
  · intro hlives
    cases hs with
    | prepared opening message noise job source prepared drawn =>
      rw [retired_snoc, not_or] at hlives
      rw [drawn.same]
      exact hliving.mpr hlives.1
    | acted =>
      rw [retired_snoc, not_or] at hlives
      exact hliving.mpr hlives.1
    | idle _ source reserved about same drawn retired =>
      rw [retired_snoc, not_or] at hlives
      rw [(drawn hlives.2).same]
      exact hliving.mpr hlives.1

theorem Kept.tracked_stepped (h : Kept r) (hs : Stepped loads clock r call r') (j : Nat) (held : HeldOneShot)
    (hheld : r'.jobs[j]? = some held) : Tracked r'.source r'.log j held := by
  have hlives : ∀ {session generation : Nat},
      (r.source.matchesIdentity session generation = true ↔ ¬Retired r.log) →
        (r'.source.matchesIdentity session generation = true ↔ ¬Retired r'.log) := h.living hs
  cases hs with
  | prepared opening message noise job source prepared drawn =>
    rw [List.getElem?_append] at hheld
    split at hheld
    · have htracked := h.tracked j held hheld
      exact htracked.other (by simp [OneShotCall.about]) (hlives htracked.living)
    · next hlength =>
      have hnone := h.unknown j (List.getElem?_eq_none (Nat.le_of_not_lt hlength))
      rw [List.getElem?_singleton] at hheld
      split at hheld
      · cases hheld
        refine OneShot.Prepared.tracked prepared ?_ (hlives ?_)
        · rw [requests_snoc, hnone, requests_silent]
          rfl
        · rw [prepared.living]
          refine ⟨fun _ hretired => ?_, fun _ => rfl⟩
          have hmatches := h.retired hretired opening.node.sessionId opening.generation
          rw [prepared.living] at hmatches
          cases hmatches
      · cases hheld
  | acted _ i held' packets job about known acted =>
    rw [List.getElem?_modify] at hheld
    split at hheld
    · next heq =>
      subst heq
      rw [known] at hheld
      cases hheld
      exact (h.tracked i held' known).acted about acted
    · next hne =>
      have hheld' : r.jobs[j]? = some held := by simpa using hheld
      have htracked := h.tracked j held hheld'
      exact htracked.other (by rw [about]; simpa using hne) (hlives htracked.living)
  | idle _ source reserved about =>
    have htracked := h.tracked j held hheld
    refine htracked.other (fun heq => ?_) (hlives htracked.living)
    rw [about j heq] at hheld
    cases hheld

theorem Kept.unknown_stepped (h : Kept r) (hs : Stepped loads clock r call r') (j : Nat) (hnone : r'.jobs[j]? = none) :
    requests j r'.log = [] := by
  cases hs with
  | prepared opening message noise job source =>
    rw [List.getElem?_eq_none_iff, List.length_append] at hnone
    rw [requests_snoc, requests_silent, h.unknown j (List.getElem?_eq_none (by omega))]
    rfl
  | acted _ i held packets job about known =>
    rw [List.getElem?_modify] at hnone
    have hnone' : r.jobs[j]? = none := by simpa using hnone
    rw [requests_snoc, h.unknown j hnone', requests_other]
    · rfl
    · intro heq
      rw [about] at heq
      cases heq
      rw [known] at hnone'
      cases hnone'
  | idle _ source reserved =>
    rw [requests_snoc, requests_silent, h.unknown j hnone]
    rfl

/-- The sequences that a call gives out. -/
theorem sequences_stepped (hs : Stepped loads clock r call r') :
    ∃ fresh : List Nat, r'.sequences.Perm (r.sequences ++ fresh) ∧ fresh.Nodup ∧ r.source.next ≤ r'.source.next ∧
      ∀ s ∈ fresh, r.source.next ≤ s ∧ s < r'.source.next := by
  cases hs with
  | prepared opening message noise job source prepared drawn =>
    refine ⟨job.sequences, ?_, prepared.nodup, drawn.next, prepared.fresh⟩
    simp only [sequences, List.flatMap_append, List.flatMap_singleton, List.append_nil, List.append_assoc]
    exact List.Perm.append_left _ List.perm_append_comm
  | acted _ i held packets job about known acted =>
    refine ⟨[], ?_, List.nodup_nil, le_refl _, by simp⟩
    simp only [sequences, List.flatMap_append, List.flatMap_singleton, List.append_nil]
    rw [sequences_modify known acted.alike.sequences]
  | idle _ source reserved about same drawn retired nodup fresh =>
    refine ⟨reserved, ?_, nodup, ?_, fresh⟩
    · simp only [sequences, List.flatMap_append, List.flatMap_singleton, List.append_assoc]
      exact List.Perm.refl _
    · by_cases hcall : call = .retire
      · rw [retired hcall]
        exact le_refl _
      · exact (drawn hcall).next

theorem Kept.step (h : Kept r) (loads : TryLoads) (clock : Nat → ℚ) (call : OneShotCall) :
    Kept (step loads clock call r) := by
  have hs := step_cases loads clock call fun j held hheld => (h.tracked j held hheld).sound
  obtain ⟨fresh, hperm, hnodup, hnext, hfresh⟩ := sequences_stepped hs
  exact {
    tracked := h.tracked_stepped hs
    unknown := h.unknown_stepped hs
    retired := h.retired_stepped hs
    below := by
      intro s hs'
      rcases List.mem_append.mp (hperm.mem_iff.mp hs') with hold | hnew
      · exact lt_of_lt_of_le (h.below s hold) hnext
      · exact (hfresh s hnew).2
    nodup := by
      rw [hperm.nodup_iff, List.nodup_append]
      refine ⟨h.nodup, hnodup, fun s hold s' hnew heq => ?_⟩
      have hlow := h.below s hold
      have hhigh := (hfresh s' hnew).1
      omega }

theorem Kept.new (source : BrokerSequences) : Kept ⟨source, [], []⟩ where
  tracked := by simp
  unknown := fun _ _ => rfl
  retired := by
    rintro ⟨e, he, -⟩
    cases he
  below := by simp [sequences]
  nodup := by simp [sequences]

theorem kept_run (loads : TryLoads) (source : BrokerSequences) (calls : List ((Nat → ℚ) × OneShotCall)) :
    Kept (run loads source calls) :=
  Machine.run_keeps (fun clock call _ h => h.step loads clock call) (Kept.new source)

theorem run_append (loads : TryLoads) (source : BrokerSequences) (calls more : List ((Nat → ℚ) × OneShotCall)) :
    run loads source (calls ++ more) = Machine.run (OneShotRun.step loads) (run loads source calls) more :=
  Machine.run_append ..

theorem run_snoc (loads : TryLoads) (source : BrokerSequences) (calls : List ((Nat → ℚ) × OneShotCall)) (clock : Nat → ℚ)
    (call : OneShotCall) :
    run loads source (calls ++ [(clock, call)]) = (run loads source calls).step loads clock call :=
  run_append loads source calls [(clock, call)]

/-! ### Endings -/

/-- Why a job that was without a result got one, on a call after `log`. -/
structure Ended (log : List OneShotEvent) (j : Nat) (held : HeldOneShot) (clock : Nat → ℚ) (call : OneShotCall)
    (result : OneShotResult) : Prop where
  /-- An answer is a frame that was heard, of the job's session and with its identifier. -/
  answered : result.status = "response" ∨ result.status = "rejected" ∨ result.status = "invalid_response" →
    ∃ plain, Hears log j held.opening clock call plain ∧ plain.field 8 4 = held.opening.node.sessionId ∧
      plain.field 4 held.job.correlationOffset = held.job.correlation
  refused : result.status = "transport_rejected" →
    ∃ plain, Hears log j held.opening clock call plain ∧ clock 1 < held.expires ∧
      IsReceipt held.job.family held.opening.node.sessionId held.job.sequence plain ∧ plain.field 2 26 ≠ 0
  timeout : result.status = "timeout" → call = .nextPacket j ∧ held.opening.deadline ≤ clock 0
  cancelled : result.status = "cancelled" → call = .cancel j ∨ call = .nextPacket j ∧ Retired log
  acknowledged : result.transportAcknowledged = true ↔ Acknowledged log j held

theorem Tracked.ended (h : Tracked source log j held) {status : ExchangeStatus} {packets : List Bytes}
    (hlaw : held.job.bare.result = none) (habout : call.about = some j)
    (hwhy : held.job.bare.Ends (held.job.kind loads) held.opening held.expires source clock call packets status)
    {result : OneShotResult} (hstatus : result.status = status.text) (hack : result.transportAcknowledged = held.job.bare.ack) :
    Ended log j held clock call result := by
  have hacknowledged : result.transportAcknowledged = true ↔ Acknowledged log j held := by
    rw [hack]
    exact h.acked hlaw
  cases hwhy with
  | answered i plain peer generation noise answer heeds looks answered =>
    cases habout
    rw [OneShot.bare_sequence] at answered
    obtain ⟨hsession, hown, -, hkinds⟩ := (held.job.lawful loads).answers _ _ _ _ answered looks
    refine ⟨fun _ => ⟨plain, (h.heeds_iff hlaw).mp heeds, hsession, hown⟩, ?_, ?_, ?_, hacknowledged⟩
    all_goals
      intro heq
      rw [hstatus] at heq
      rcases hkinds with hkind | hkind | hkind <;> rw [hkind] at heq <;> simp [ExchangeStatus.text] at heq
  | refused i plain peer generation noise heeds timely receipt negative =>
    cases habout
    rw [OneShot.bare_sequence, OneShot.kind_family] at receipt
    refine ⟨?_, fun _ => ⟨plain, (h.heeds_iff hlaw).mp heeds, timely, receipt, negative⟩, ?_, ?_, hacknowledged⟩
    all_goals
      intro heq
      rw [hstatus] at heq
      simp [ExchangeStatus.text] at heq
  | timeout i late =>
    cases habout
    refine ⟨?_, ?_, fun _ => ⟨rfl, late⟩, ?_, hacknowledged⟩
    all_goals
      intro heq
      rw [hstatus] at heq
      simp [ExchangeStatus.text] at heq
  | gone i gone =>
    cases habout
    have hretired : Retired log := by
      by_contra hlives
      rw [h.living.mpr hlives] at gone
      cases gone
    refine ⟨?_, ?_, ?_, fun _ => .inr ⟨rfl, hretired⟩, hacknowledged⟩
    all_goals
      intro heq
      rw [hstatus] at heq
      simp [ExchangeStatus.text] at heq
  | cancelled i =>
    cases habout
    refine ⟨?_, ?_, ?_, fun _ => .inl rfl, hacknowledged⟩
    all_goals
      intro heq
      rw [hstatus] at heq
      simp [ExchangeStatus.text] at heq

/-- What a job looks like after one more call. -/
theorem Kept.job_step (h : Kept r) (loads : TryLoads) (clock : Nat → ℚ) (call : OneShotCall) {j : Nat}
    {held : HeldOneShot} (hheld : r.jobs[j]? = some held) :
    (OneShotRun.step loads clock call r).jobs[j]? = some held ∧ call.about ≠ some j ∨
      ∃ packets job, call.about = some j ∧
        held.job.Acted loads r.source clock held.opening held.expires call packets job ∧
        (OneShotRun.step loads clock call r).jobs[j]? = some ⟨held.opening, held.clock, job⟩ ∧
          (OneShotRun.step loads clock call r).log = r.log ++ [⟨clock, call, packets, []⟩] := by
  have hs := step_cases loads clock call fun i held hi => (h.tracked i held hi).sound
  generalize OneShotRun.step loads clock call r = r' at hs
  cases hs with
  | prepared opening message noise job source =>
    refine .inl ⟨?_, by simp [OneShotCall.about]⟩
    obtain ⟨hlength, -⟩ := List.getElem?_eq_some_iff.mp hheld
    rw [List.getElem?_append_left hlength]
    exact hheld
  | acted _ i held' packets job about known acted =>
    by_cases hi : i = j
    · subst hi
      rw [hheld] at known
      cases known
      refine .inr ⟨packets, job, about, acted, ?_, rfl⟩
      simp [hheld]
    · refine .inl ⟨?_, by rw [about]; simpa using hi⟩
      simp [hi, hheld]
  | idle _ source reserved about =>
    refine .inl ⟨hheld, fun heq => ?_⟩
    rw [about j heq] at hheld
    cases hheld

/-- A job that has ended stays as it is, and nothing goes out for it. -/
theorem Kept.ended_run (loads : TryLoads) {j : Nat} {held : HeldOneShot} {ended : ExchangeResult Unit}
    (hended : held.job.bare.result = some ended) (more : List ((Nat → ℚ) × OneShotCall)) :
    ∀ {r : OneShotRun}, Kept r → r.jobs[j]? = some held →
      (Machine.run (OneShotRun.step loads) r more).jobs[j]? = some held ∧
        ∃ events, (Machine.run (OneShotRun.step loads) r more).log = r.log ++ events ∧
          ∀ e ∈ events, e.packetsFor j = [] := by
  induction more with
  | nil => exact fun {r} _ hheld => ⟨hheld, [], (List.append_nil r.log).symm, by simp⟩
  | cons first more ih =>
    intro r h hheld
    obtain ⟨clock, call⟩ := first
    have hnext : (OneShotRun.step loads clock call r).jobs[j]? = some held ∧
        ∃ e, (OneShotRun.step loads clock call r).log = r.log ++ [e] ∧ e.packetsFor j = [] := by
      rcases h.job_step loads clock call hheld with ⟨hsame, habout⟩ | ⟨packets, job, habout, hacted, hjob, hlog⟩
      · obtain ⟨e, hlog, hcall⟩ := step_log loads clock call r
        refine ⟨hsame, e, hlog, ?_⟩
        rw [OneShotEvent.packetsFor, hcall, if_neg habout]
      · obtain ⟨rfl, rfl⟩ := hacted.final ended hended
        exact ⟨hjob, _, hlog, by simp [OneShotEvent.packetsFor]⟩
    obtain ⟨hsame, e, hlog, hquiet⟩ := hnext
    obtain ⟨hlast, events, hevents, hquiets⟩ := ih (h.step loads clock call) hsame
    refine ⟨hlast, e :: events, ?_, ?_⟩
    · have hrun : Machine.run (OneShotRun.step loads) r ((clock, call) :: more) =
          Machine.run (OneShotRun.step loads) (OneShotRun.step loads clock call r) more := rfl
      rw [hrun, hevents, hlog, List.append_assoc, List.singleton_append]
    · intro e' he'
      rcases List.mem_cons.mp he' with rfl | he'
      · exact hquiet
      · exact hquiets e' he'

/-- A job stays the job it was prepared as. -/
theorem Kept.alike_run (loads : TryLoads) {j : Nat} (more : List ((Nat → ℚ) × OneShotCall)) :
    ∀ {r : OneShotRun} {held : HeldOneShot}, Kept r → r.jobs[j]? = some held →
      ∃ held', (Machine.run (OneShotRun.step loads) r more).jobs[j]? = some held' ∧ held'.opening = held.opening ∧
        held'.clock = held.clock ∧ held.job.Alike held'.job := by
  induction more with
  | nil => exact fun {r held} _ hheld => ⟨held, hheld, rfl, rfl, .refl held.job⟩
  | cons first more ih =>
    intro r held h hheld
    obtain ⟨clock, call⟩ := first
    rcases h.job_step loads clock call hheld with ⟨hsame, -⟩ | ⟨packets, job, -, hacted, hjob, -⟩
    · exact ih (h.step loads clock call) hsame
    · obtain ⟨held', hheld', hopening, hclock, halike⟩ := ih (h.step loads clock call) hjob
      exact ⟨held', hheld', hopening, hclock, hacted.alike.trans halike⟩

/-- The account's identity stays until it ends. -/
theorem identity_run (loads : TryLoads) (source : BrokerSequences) (calls : List ((Nat → ℚ) × OneShotCall))
    (hlives : ¬Retired (run loads source calls).log) (session generation : Nat) :
    (run loads source calls).source.matchesIdentity session generation = source.matchesIdentity session generation := by
  induction calls using List.reverseRecOn with
  | nil => rfl
  | append_singleton calls last ih =>
    obtain ⟨clock, call⟩ := last
    have hkept := kept_run loads source calls
    have hs := step_cases loads clock call fun j held hheld => (hkept.tracked j held hheld).sound
    rw [run_snoc] at hlives ⊢
    generalize OneShotRun.step loads clock call (run loads source calls) = r' at hs hlives
    cases hs with
    | prepared opening message noise job source' prepared drawn =>
      rw [retired_snoc, not_or] at hlives
      exact (drawn.same session generation).trans (ih hlives.1)
    | acted =>
      rw [retired_snoc, not_or] at hlives
      exact ih hlives.1
    | idle _ source' reserved about same drawn =>
      rw [retired_snoc, not_or] at hlives
      exact ((drawn hlives.2).same session generation).trans (ih hlives.1)

/-- A positive receipt ends nothing. -/
theorem Kept.positive_stays (h : Kept r) (loads : TryLoads) (clock : Nat → ℚ) {j : Nat} {held held' : HeldOneShot}
    (hheld : r.jobs[j]? = some held) {plain : Bytes} {peer : String × Nat} {generation noise : Nat}
    (hreceipt : IsReceipt held.job.family held.opening.node.sessionId held.job.sequence plain)
    (hpositive : plain.field 2 26 = 0)
    (hheld' : (OneShotRun.step loads clock (.observe j plain peer generation noise) r).jobs[j]? = some held') :
    held'.job.bare.result = held.job.bare.result := by
  rcases h.job_step loads clock (.observe j plain peer generation noise) hheld with
    ⟨hsame, -⟩ | ⟨packets, job, -, hacted, hjob, -⟩
  · rw [hheld'] at hsame
    cases hsame
    rfl
  · rw [hheld'] at hjob
    cases hjob
    have hmoved := hacted.moved
    generalize job.bare = after at hmoved
    cases hmoved with
    | stays => rfl
    | noted => rfl
    | ended _ _ status value waits why =>
      cases why with
      | answered _ _ _ _ _ answer heeds looks answered =>
        rw [OneShot.bare_sequence] at answered
        have hplain := ((held.job.lawful loads).answers _ _ _ _ answered looks).2.2.1
        rw [hreceipt.acknowledges] at hplain
        cases hplain
      | refused _ _ _ _ _ heeds timely receipt negative => exact absurd hpositive negative

/-- What holds of every run of an account's jobs. -/
structure Disciplined (loads : TryLoads) (source : BrokerSequences) (calls : List ((Nat → ℚ) × OneShotCall)) :
    Prop where
  /-- A request is given out at most once. -/
  once : ∀ j, (requests j (run loads source calls).log).length ≤ 1
  /-- A job stays the job it was prepared as. -/
  same : ∀ more (j : Nat) (held : HeldOneShot), (run loads source calls).jobs[j]? = some held →
    ∃ held', (run loads source (calls ++ more)).jobs[j]? = some held' ∧ held'.opening = held.opening ∧
      held'.clock = held.clock ∧ held.job.Alike held'.job
  /-- A result stays, and nothing goes out for the job any more. -/
  final : ∀ more (j : Nat) (held : HeldOneShot) result, (run loads source calls).jobs[j]? = some held →
    held.job.result = some result →
      (run loads source (calls ++ more)).jobs[j]? = some held ∧
        ∃ events, (run loads source (calls ++ more)).log = (run loads source calls).log ++ events ∧
          ∀ e ∈ events, e.packetsFor j = []
  /-- A result has its cause. -/
  ended : ∀ clock call (j : Nat) (held held' : HeldOneShot) result, (run loads source calls).jobs[j]? = some held →
    held.job.result = none → (run loads source (calls ++ [(clock, call)])).jobs[j]? = some held' →
      held'.job.result = some result → Ended (run loads source calls).log j held clock call result
  /-- A positive receipt of its request ends no job. -/
  positive : ∀ clock (j : Nat) (held held' : HeldOneShot) plain peer generation noise,
    (run loads source calls).jobs[j]? = some held →
      IsReceipt held.job.family held.opening.node.sessionId held.job.sequence plain → plain.field 2 26 = 0 →
        (run loads source (calls ++ [(clock, .observe j plain peer generation noise)])).jobs[j]? = some held' →
          held.job.result = none → held'.job.result = none
  /-- Nothing that is done with a job touches the account's sequences. -/
  untouched : ∀ clock call, call.about.isSome →
    (run loads source (calls ++ [(clock, call)])).source = (run loads source calls).source
  /-- They live until the account ends. -/
  living : ¬Retired (run loads source calls).log → ∀ session generation,
    (run loads source calls).source.matchesIdentity session generation = source.matchesIdentity session generation
  /-- No two jobs share one, nor does somebody else. -/
  distinct : (run loads source calls).sequences.Nodup

end OneShotRun

/-- Where nothing is rounded and the clock does not go back, a receipt does not expire
before its job's deadline. -/
theorem OneShotOpening.deadline_le_expires (opening : OneShotOpening) {clock : Nat → ℚ} (h : Monotone clock) :
    opening.deadline ≤ opening.expires clock := by
  have hchecked : clock 0 ≤ clock 1 := h (Nat.zero_le 1)
  have htimed : clock 1 ≤ clock 2 := h (Nat.le_succ 1)
  unfold OneShotOpening.expires
  split
  all_goals
    simp only [Rounding.round_exact]
    linarith

/-- A positive receipt that is heard and tried before the deadline is then noted. -/
theorem OneShotRun.Hears.acknowledged {before after : List OneShotEvent} {e : OneShotEvent} {j : Nat}
    {held : HeldOneShot} (hears : Hears before j held.opening e.clock e.call plain) (hclock : Monotone held.clock)
    (htried : e.clock 1 < held.opening.deadline)
    (hreceipt : IsReceipt held.job.family held.opening.node.sessionId held.job.sequence plain)
    (hpositive : plain.field 2 26 = 0) : Acknowledged (before ++ e :: after) j held :=
  ⟨before, e, after, plain, rfl, hears, htried.trans_le (held.opening.deadline_le_expires hclock), hreceipt, hpositive⟩

open OneShotRun in
/-- **One-shot exchanges never repeat a request and end once, by their own
answer**, whatever is observed and in whatever order, and whatever the clock reads. -/
theorem one_shot_exchanges [Rounding] (loads : TryLoads) (source : BrokerSequences)
    (calls : List ((Nat → ℚ) × OneShotCall)) : Disciplined loads source calls := by
  have h := kept_run loads source calls
  refine ⟨fun j => ?_, fun more j held hheld => ?_, fun more j held result hheld hresult => ?_, ?_, ?_, ?_, ?_, h.nodup⟩
  · cases hheld : (run loads source calls).jobs[j]? with
    | none => simp [h.unknown j hheld]
    | some held =>
      rw [(h.tracked j held hheld).asked]
      split
      · exact le_refl 1
      · exact Nat.zero_le 1
  · rw [run_append]
    exact Kept.alike_run loads more h hheld
  · obtain ⟨ended, hended, -⟩ := OneShot.result_some hresult
    rw [run_append]
    exact Kept.ended_run loads hended more h hheld
  · intro clock call j held held' result hheld hnone hheld' hresult
    obtain ⟨ended, hended, hstatus, hack⟩ := OneShot.result_some hresult
    have hwaits := OneShot.result_none hnone
    rw [run_snoc] at hheld'
    rcases h.job_step loads clock call hheld with ⟨hsame, -⟩ | ⟨packets, job, habout, hacted, hjob, -⟩
    · rw [hheld'] at hsame
      cases hsame
      rw [hwaits] at hended
      cases hended
    · rw [hheld'] at hjob
      cases hjob
      obtain ⟨status, hwhy, rfl, hsent⟩ := moved_ended hacted.moved hwaits hended
      exact (h.tracked j held hheld).ended hwaits habout hwhy hstatus (hack.trans hsent)
  · intro clock j held held' plain peer generation noise hheld hreceipt hpositive hheld' hnone
    rw [run_snoc] at hheld'
    refine OneShot.result_eq_none ?_
    rw [h.positive_stays loads clock hheld hreceipt hpositive hheld']
    exact OneShot.result_none hnone
  · intro clock call habout
    rw [run_snoc]
    have hs := step_cases loads clock call fun j held hheld => (h.tracked j held hheld).sound
    generalize OneShotRun.step loads clock call (run loads source calls) = r' at hs
    cases hs with
    | prepared => cases habout
    | acted => rfl
    | idle _ source' reserved about same => exact same habout
  · exact fun hlives => identity_run loads source calls hlives

end CamGuard.Account
