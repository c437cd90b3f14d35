/-
The slot of the control writes: while a claimed write is unfinished nothing else
is admitted, and the slot is free again once the caller has left and the owner
has finished, unless the caller cancels after the owner has finished
(`slot_kept_iff`). `cancel` frees the slot of an unclaimed ticket only, and a
`finish` that came first has found nothing to free.
-/
import CamGuard.Account.ControlWrite

namespace CamGuard.Account

namespace ControlWriteInbox

variable {Spec : Type}

/-! ## Tickets after an update -/

@[simp, grind =] theorem setCompletion_slot (i : ControlWriteInbox Spec) (id : Nat) (c : Completion ControlWriteResult) :
    (i.setCompletion id c).slot = i.slot := rfl

@[simp, grind =] theorem setCompletion_closed (i : ControlWriteInbox Spec) (id : Nat) (c : Completion ControlWriteResult) :
    (i.setCompletion id c).closed = i.closed := rfl

@[simp, grind =] theorem setCompletion_length (i : ControlWriteInbox Spec) (id : Nat) (c : Completion ControlWriteResult) :
    (i.setCompletion id c).tickets.length = i.tickets.length := List.length_modify ..

@[simp, grind =] theorem setClaimed_slot (i : ControlWriteInbox Spec) (id : Nat) : (i.setClaimed id).slot = i.slot := rfl

@[simp, grind =] theorem setClaimed_closed (i : ControlWriteInbox Spec) (id : Nat) : (i.setClaimed id).closed = i.closed := rfl

@[simp, grind =] theorem setClaimed_length (i : ControlWriteInbox Spec) (id : Nat) :
    (i.setClaimed id).tickets.length = i.tickets.length := List.length_modify ..

@[simp, grind =] theorem claimed_setCompletion (i : ControlWriteInbox Spec) (id other : Nat) (c : Completion ControlWriteResult) :
    (i.setCompletion id c).claimed other = i.claimed other := by
  unfold claimed setCompletion
  rw [List.getElem?_modify]
  cases i.tickets[other]? with
  | none => rfl
  | some ticket => by_cases h : id = other <;> simp [h]

@[simp, grind =] theorem completion_setClaimed (i : ControlWriteInbox Spec) (id other : Nat) :
    (i.setClaimed id).completion other = i.completion other := by
  unfold completion setClaimed
  rw [List.getElem?_modify]
  cases i.tickets[other]? with
  | none => rfl
  | some ticket => by_cases h : id = other <;> simp [h]

@[grind =] theorem completion_setCompletion {i : ControlWriteInbox Spec} {id : Nat} (hid : id < i.tickets.length) (other : Nat)
    (c : Completion ControlWriteResult) :
    (i.setCompletion id c).completion other = if other = id then c else i.completion other := by
  unfold completion setCompletion
  rw [List.getElem?_modify]
  by_cases h : other = id
  · subst h
    simp [List.getElem?_eq_getElem hid]
  · rw [if_neg h]
    cases i.tickets[other]? <;> simp [Ne.symm h]

@[grind =] theorem claimed_setClaimed {i : ControlWriteInbox Spec} {id : Nat} (hid : id < i.tickets.length) (other : Nat) :
    (i.setClaimed id).claimed other = if other = id then true else i.claimed other := by
  unfold claimed setClaimed
  rw [List.getElem?_modify]
  by_cases h : other = id
  · subst h
    simp [List.getElem?_eq_getElem hid]
  · rw [if_neg h]
    cases i.tickets[other]? <;> simp [Ne.symm h]

@[grind =] theorem claimed_with (i : ControlWriteInbox Spec) (slot : Option Nat) (closed : Bool) (id : Nat) :
    claimed ⟨i.generation, i.tickets, slot, closed⟩ id = i.claimed id := rfl

@[grind =] theorem completion_with (i : ControlWriteInbox Spec) (slot : Option Nat) (closed : Bool) (id : Nat) :
    completion ⟨i.generation, i.tickets, slot, closed⟩ id = i.completion id := rfl

/-- What is known of a place after a ticket was added. -/
theorem claimed_append (i : ControlWriteInbox Spec) {ticket : ControlWriteTicket Spec} (h : ticket.claimed = false)
    (slot : Option Nat) (id : Nat) :
    claimed { i with tickets := i.tickets ++ [ticket], slot := slot } id = i.claimed id := by
  unfold claimed
  rcases lt_trichotomy id i.tickets.length with hid | hid | hid
  · rw [List.getElem?_append_left hid]
  · subst hid
    simp [h]
  · rw [List.getElem?_eq_none (by simp; omega), List.getElem?_eq_none (by omega)]

theorem completion_append (i : ControlWriteInbox Spec) {ticket : ControlWriteTicket Spec}
    (h : ticket.completion = .pending) (slot : Option Nat) (id : Nat) :
    completion { i with tickets := i.tickets ++ [ticket], slot := slot } id = i.completion id := by
  unfold completion
  rcases lt_trichotomy id i.tickets.length with hid | hid | hid
  · rw [List.getElem?_append_left hid]
  · subst hid
    simp [h]
  · rw [List.getElem?_eq_none (by simp; omega), List.getElem?_eq_none (by omega)]

theorem lt_of_claimed {i : ControlWriteInbox Spec} {id : Nat} (h : i.claimed id = true) : id < i.tickets.length := by
  by_contra hid
  simp [claimed, List.getElem?_eq_none (Nat.le_of_not_lt hid)] at h

/-! ## Moves -/

/-- What a move does. -/
inductive Moves (i : ControlWriteInbox Spec) : Option WriteEvent → ControlWriteInbox Spec → Prop
  | stay : Moves i none i
  | submit (ticket : ControlWriteTicket Spec) (hopen : i.closed = false) (hslot : i.slot = none)
      (hclaimed : ticket.claimed = false) (hcompletion : ticket.completion = .pending) :
    Moves i (some (.submitted i.tickets.length))
      { i with tickets := i.tickets ++ [ticket], slot := some i.tickets.length }
  | take {id : Nat} {result : ControlWriteResult} (hslot : i.slot = some id)
      (hresult : i.completion id = .result result) : Moves i (some (.taken id result)) { i with slot := none }
  /-- `cancel` and `finish` of a ticket that has left. -/
  | stale {id : Nat} {event : WriteEvent} (hslot : i.slot ≠ some id) (hid : id < i.tickets.length)
      (hevent : event = .cancelled id ∨ event = .finished id) : Moves i (some event) i
  | drop {id : Nat} (hslot : i.slot = some id) (hclaimed : i.claimed id = false) :
    Moves i (some (.cancelled id)) { i.setCompletion id (i.completion id).cancel with slot := none }
  | cancel {id : Nat} (hslot : i.slot = some id) (hclaimed : i.claimed id = true) :
    Moves i (some (.cancelled id)) (i.setCompletion id (i.completion id).cancel)
  | lapse {id : Nat} (closed : Bool) (result : ControlWriteResult) (hslot : i.slot = some id)
      (hpending : i.completion id = .pending) (hclaimed : closed = false → i.claimed id = false)
      (hclosed : i.closed = true → closed = true) :
    Moves i none (setCompletion { i with closed := closed } id (.result result))
  | claim {id : Nat} (hopen : i.closed = false) (hslot : i.slot = some id) (hid : id < i.tickets.length)
      (hclaimed : i.claimed id = false) (hpending : i.completion id = .pending) :
    Moves i (some (.claimed id)) (i.setClaimed id)
  | finish {id : Nat} (result : ControlWriteResult) (hslot : i.slot = some id) (hpending : i.completion id = .pending) :
    Moves i (some (.finished id)) (i.setCompletion id (.result result))
  | free {id : Nat} (hslot : i.slot = some id) (hcancelled : i.completion id = .cancelled) :
    Moves i (some (.finished id)) { i with slot := none }
  | moot {id : Nat} {result : ControlWriteResult} (hslot : i.slot = some id)
      (hresult : i.completion id = .result result) : Moves i (some (.finished id)) i
  | close : Moves i none { i with closed := true }

theorem moves_claim (i : ControlWriteInbox Spec) (now : ℚ) : Moves i (move now .claim i).1 (move now .claim i).2 := by
  unfold move claim
  cases hslot : i.slot with
  | none => exact .stay
  | some id =>
    cases hticket : i.tickets[id]? with
    | none =>
      simp only [Option.bind_some, hticket, Option.map_none]
      exact .stay
    | some ticket =>
      simp only [Option.bind_some, hticket, Option.map_some]
      have hclaimed : i.claimed id = ticket.claimed := by simp [claimed, hticket]
      have hcompletion : i.completion id = ticket.completion := by simp [completion, hticket]
      by_cases hbusy : i.closed = true ∨ ticket.claimed = true ∨ ticket.completion.done = true
      · rw [if_pos hbusy]
        exact .stay
      rw [if_neg hbusy]
      simp only [not_or, Bool.not_eq_true] at hbusy
      obtain ⟨hopen, hunclaimed, hdone⟩ := hbusy
      have hpending : i.completion id = .pending := by
        rw [hcompletion]
        cases h : ticket.completion <;> simp_all [Completion.done]
      by_cases hlate : ticket.deadline ≤ now
      · rw [if_pos hlate]
        have hlapse := Moves.lapse i.closed ⟨"timeout", none, false⟩ hslot hpending
          (fun _ => hclaimed.trans hunclaimed) fun h => h
        exact hlapse
      · rw [if_neg hlate]
        exact .claim hopen hslot (List.getElem?_eq_some_iff.mp hticket).1 (hclaimed.trans hunclaimed) hpending

theorem moves_cancel (i : ControlWriteInbox Spec) (now : ℚ) (id : Nat) :
    Moves i (move now (.cancel id) i).1 (move now (.cancel id) i).2 := by
  unfold move cancel
  by_cases hid : id < i.tickets.length
  · simp only [if_pos hid]
    by_cases hslot : i.slot = some id
    · rw [if_pos hslot, claimed_setCompletion]
      by_cases hclaimed : i.claimed id = false
      · rw [if_pos hclaimed]
        exact .drop hslot hclaimed
      · rw [if_neg hclaimed]
        exact .cancel hslot (by simpa using hclaimed)
    · rw [if_neg hslot]
      exact .stale hslot hid (.inl rfl)
  · simp only [if_neg hid]
    exact .stay

theorem moves_finish (i : ControlWriteInbox Spec) (now : ℚ) {id : Nat} (result : ControlWriteResult)
    (hid : id < i.tickets.length) :
    Moves i (move now (.finish id result) i).1 (move now (.finish id result) i).2 := by
  unfold move finish
  simp only
  by_cases hslot : i.slot = some id
  · rw [if_pos hslot]
    cases hcompletion : i.completion id with
    | pending => exact .finish result hslot hcompletion
    | cancelled => exact .free hslot hcompletion
    | result r => exact .moot hslot hcompletion
  · rw [if_neg hslot]
    exact .stale hslot hid (.inr rfl)

theorem moves_close (i : ControlWriteInbox Spec) (now : ℚ) : Moves i (move now .close i).1 (move now .close i).2 := by
  unfold move close
  simp only
  split
  · exact .close
  · next id hslot =>
    split
    · exact .close
    · next hdone =>
      have hpending : i.completion id = .pending := by
        change ¬ (i.completion id).done = true at hdone
        cases h : i.completion id <;> simp_all [Completion.done]
      exact .lapse true _ hslot hpending nofun fun _ => rfl

/-- **Every operation is one of the moves.** -/
theorem move_moves (i : ControlWriteInbox Spec) (now : ℚ) (m : Move Spec)
    (hfinish : ∀ id result, m = .finish id result → id < i.tickets.length) :
    Moves i (move now m i).1 (move now m i).2 := by
  cases m with
  | submit spec =>
    unfold move submit
    simp only
    by_cases hbusy : i.closed = true ∨ i.slot.isSome = true
    · rw [if_pos hbusy]
      exact .stay
    · rw [if_neg hbusy]
      simp only [not_or, Bool.not_eq_true, Option.isSome_eq_false_iff, Option.isNone_iff_eq_none] at hbusy
      exact .submit _ hbusy.1 hbusy.2 rfl rfl
  | take id =>
    unfold move take
    simp only
    by_cases hslot : i.slot = some id
    · rw [if_pos hslot]
      cases hcompletion : i.completion id with
      | pending => exact .stay
      | cancelled => exact .stay
      | result r => exact .take hslot hcompletion
    · rw [if_neg hslot]
      exact .stay
  | cancel id => exact moves_cancel i now id
  | claim => exact moves_claim i now
  | finish id result => exact moves_finish i now result (hfinish id result rfl)
  | close => exact moves_close i now

/-- The event of a move that is the owner's. -/
theorem move_event {i : ControlWriteInbox Spec} {now : ℚ} {m : Move Spec} {id : Nat}
    (h : (i.move now m).1 = some (.finished id)) : ∃ result, m = .finish id result := by
  cases m with
  | finish other result =>
    cases h
    exact ⟨result, rfl⟩
  | submit spec => grind -linarith [move]
  | take id => grind -linarith [move]
  | cancel id => grind -linarith [move]
  | claim => grind -linarith [move]
  | close => cases h

theorem Moves.unclaimed {i i' : ControlWriteInbox Spec} {id : Nat} (h : Moves i (some (.claimed id)) i') :
    i.claimed id = false := by
  cases h with
  | claim hopen hslot hid hclaimed hpending => exact hclaimed
  | stale hslot hid hevent => simp at hevent

theorem claim_event {i : ControlWriteInbox Spec} {now : ℚ} {id : Nat} (h : (i.claim now).1.map Prod.fst = some id) :
    (i.move now .claim).1 = some (.claimed id) := by
  unfold move
  cases hclaim : i.claim now with
  | mk claim i' =>
    cases claim with
    | none => simp [hclaim] at h
    | some found => simpa [hclaim] using h

theorem move_cancelled {i : ControlWriteInbox Spec} {now : ℚ} {m : Move Spec} {id : Nat}
    (h : (i.move now m).1 = some (.cancelled id)) : m = .cancel id := by
  cases m with
  | cancel other => grind -linarith [move]
  | finish other result => cases h
  | submit spec => grind -linarith [move]
  | take other => grind -linarith [move]
  | claim => grind -linarith [move]
  | close => cases h

/-! ## What is kept -/

/-- What holds of an inbox and of what has been executed on it. -/
structure Kept (i : ControlWriteInbox Spec) (log : List WriteEvent) : Prop where
  bounded : ∀ {id}, i.slot = some id → id < i.tickets.length
  submitted : ∀ id, .submitted id ∈ log ↔ id < i.tickets.length
  claimed : ∀ id, .claimed id ∈ log ↔ i.claimed id = true
  /-- Only what was claimed is finished. -/
  finished : ∀ {id}, .finished id ∈ log → i.claimed id = true ∧ (i.completion id).done = true
  /-- A claimed write keeps the slot until it is finished. -/
  fenced : ∀ {id}, i.claimed id = true → .finished id ∉ log → i.closed = true ∨ i.slot = some id
  left : ∀ {id}, i.claimed id = true → i.slot ≠ some id → (i.completion id).done = true
  /-- The owner has not seen a cancelled ticket that is still there. -/
  unseen : ∀ {id}, i.slot = some id → i.completion id = .cancelled → .finished id ∉ log
  result : ∀ {id r}, i.closed = false → i.claimed id = true → i.completion id = .result r → .finished id ∈ log
  cancelled : ∀ {id}, .cancelled id ∈ log →
    id < i.tickets.length ∧ (i.slot = some id → i.claimed id = true ∧ (i.completion id).done = true)
  taken : ∀ {id r}, .taken id r ∈ log → id < i.tickets.length ∧ i.slot ≠ some id

section

variable {i : ControlWriteInbox Spec} {log : List WriteEvent} {id : Nat}

theorem Kept.submit (h : Kept i log) {ticket : ControlWriteTicket Spec} (hopen : i.closed = false) (hslot : i.slot = none)
    (hclaimed : ticket.claimed = false) (hcompletion : ticket.completion = .pending) :
    Kept { i with tickets := i.tickets ++ [ticket], slot := some i.tickets.length }
      (log ++ [.submitted i.tickets.length]) := by
  obtain ⟨hbounded, hsubmitted, hclaims, hfinished, hfenced, hleft, hunseen, hresults, hcancels, htaken⟩ := h
  -- The new place says what an empty one says.
  have hclaimedAt := claimed_append i hclaimed (some i.tickets.length)
  have hcompletionAt := completion_append i hcompletion (some i.tickets.length)
  have hfresh : i.claimed i.tickets.length ≠ true := fun h => Nat.lt_irrefl _ (lt_of_claimed h)
  constructor <;> grind -linarith

/-- What has a result leaves the slot. -/
theorem Kept.take (h : Kept i log) {result : ControlWriteResult} (hslot : i.slot = some id)
    (hresult : i.completion id = .result result) : Kept { i with slot := none } (log ++ [.taken id result]) := by
  obtain ⟨hbounded, hsubmitted, hclaims, hfinished, hfenced, hleft, hunseen, hresults, hcancels, htaken⟩ := h
  constructor <;> grind -linarith [Completion.done]

theorem Kept.stale (h : Kept i log) {event : WriteEvent} (hslot : i.slot ≠ some id) (hid : id < i.tickets.length)
    (hevent : event = .cancelled id ∨ event = .finished id)
    (howner : event = .finished id → i.claimed id = true) : Kept i (log ++ [event]) := by
  obtain ⟨hbounded, hsubmitted, hclaims, hfinished, hfenced, hleft, hunseen, hresults, hcancels, htaken⟩ := h
  constructor <;> grind -linarith

theorem Kept.drop (h : Kept i log) (hslot : i.slot = some id) (hclaimed : i.claimed id = false) :
    Kept { i.setCompletion id (i.completion id).cancel with slot := none } (log ++ [.cancelled id]) := by
  obtain ⟨hbounded, hsubmitted, hclaims, hfinished, hfenced, hleft, hunseen, hresults, hcancels, htaken⟩ := h
  constructor <;> grind -linarith

/-- `Future.cancel` only counts while there is no result. -/
theorem Kept.cancel (h : Kept i log) (hslot : i.slot = some id) (hclaimed : i.claimed id = true) :
    Kept (i.setCompletion id (i.completion id).cancel) (log ++ [.cancelled id]) := by
  obtain ⟨hbounded, hsubmitted, hclaims, hfinished, hfenced, hleft, hunseen, hresults, hcancels, htaken⟩ := h
  have hcancel : (i.completion id).cancel = i.completion id ∨
      i.completion id = .pending ∧ (i.completion id).cancel = .cancelled := by
    cases i.completion id <;> simp [Completion.cancel]
  have hdone : (i.completion id).cancel.done = true := by
    cases i.completion id <;> rfl
  constructor <;> grind -linarith [Completion.done]

theorem Kept.lapse (h : Kept i log) (closed : Bool) (result : ControlWriteResult) (hslot : i.slot = some id)
    (hpending : i.completion id = .pending) (hclaimed : closed = false → i.claimed id = false)
    (hclosed : i.closed = true → closed = true) :
    Kept (setCompletion { i with closed := closed } id (.result result)) log := by
  obtain ⟨hbounded, hsubmitted, hclaims, hfinished, hfenced, hleft, hunseen, hresults, hcancels, htaken⟩ := h
  constructor <;> grind -linarith [Completion.done]

theorem Kept.claim (h : Kept i log) (hslot : i.slot = some id) (hid : id < i.tickets.length)
    (hpending : i.completion id = .pending) : Kept (i.setClaimed id) (log ++ [.claimed id]) := by
  obtain ⟨hbounded, hsubmitted, hclaims, hfinished, hfenced, hleft, hunseen, hresults, hcancels, htaken⟩ := h
  constructor <;> grind -linarith

theorem Kept.finish (h : Kept i log) (result : ControlWriteResult) (hslot : i.slot = some id)
    (hpending : i.completion id = .pending) (hclaimed : i.claimed id = true) :
    Kept (i.setCompletion id (.result result)) (log ++ [.finished id]) := by
  obtain ⟨hbounded, hsubmitted, hclaims, hfinished, hfenced, hleft, hunseen, hresults, hcancels, htaken⟩ := h
  constructor <;> grind -linarith [Completion.done]

theorem Kept.free (h : Kept i log) (hslot : i.slot = some id) (hcancelled : i.completion id = .cancelled)
    (hclaimed : i.claimed id = true) : Kept { i with slot := none } (log ++ [.finished id]) := by
  obtain ⟨hbounded, hsubmitted, hclaims, hfinished, hfenced, hleft, hunseen, hresults, hcancels, htaken⟩ := h
  constructor <;> grind -linarith [Completion.done]

theorem Kept.moot (h : Kept i log) {result : ControlWriteResult} (hresult : i.completion id = .result result)
    (hclaimed : i.claimed id = true) : Kept i (log ++ [.finished id]) := by
  obtain ⟨hbounded, hsubmitted, hclaims, hfinished, hfenced, hleft, hunseen, hresults, hcancels, htaken⟩ := h
  constructor <;> grind -linarith [Completion.done]

end

/-- A move keeps it; what the owner finishes it has claimed, and not finished
yet. -/
theorem Kept.moves {i i' : ControlWriteInbox Spec} {log : List WriteEvent} {event : Option WriteEvent} (h : Kept i log)
    (hmove : Moves i event i')
    (howner : ∀ id, event = some (.finished id) → i.claimed id = true ∧ .finished id ∉ log) :
    Kept i' (log ++ event.toList) := by
  cases hmove with
  | stay => simpa using h
  | submit ticket hopen hslot hclaimed hcompletion => exact h.submit hopen hslot hclaimed hcompletion
  | take hslot hresult => exact h.take hslot hresult
  | stale hslot hid hevent => exact h.stale hslot hid hevent fun hfinished => (howner _ (hfinished ▸ rfl)).1
  | drop hslot hclaimed => exact h.drop hslot hclaimed
  | cancel hslot hclaimed => exact h.cancel hslot hclaimed
  | lapse closed result hslot hpending hclaimed hclosed =>
    simpa using h.lapse closed result hslot hpending hclaimed hclosed
  | claim hopen hslot hid hclaimed hpending => exact h.claim hslot hid hpending
  | finish result hslot hpending => exact h.finish result hslot hpending (howner _ rfl).1
  | free hslot hcancelled => exact h.free hslot hcancelled (howner _ rfl).1
  | moot hslot hresult => exact h.moot hresult (howner _ rfl).1
  | close =>
    rw [Option.toList_none, List.append_nil]
    exact { h with fenced := fun _ _ => .inl rfl, result := nofun }

end ControlWriteInbox

namespace ControlWritePump

variable {Spec Job : Type} {jobs : ControlWriteJobs Job}

/-! ## The owner -/

/-- The ticket the owner works on. -/
def owned (p : ControlWritePump Spec Job) : Option Nat :=
  match p.phase with
  | .prepare id _ => some id
  | _ => p.ticket

/-- A ticket comes with its job, and no job is there while one is prepared. -/
structure Paired (p : ControlWritePump Spec Job) : Prop where
  ticket : p.job = none → p.ticket = none
  prepare : ∀ {id ticket}, p.phase = .prepare id ticket → p.job = none

/-- What a call of the owner does with its ticket. -/
inductive Hands (p : ControlWritePump Spec Job) (now : ℚ) :
    Option (ControlWriteInbox.Move Spec) → ControlWritePump Spec Job → Prop
  | keep {m : Option (ControlWriteInbox.Move Spec)} {p' : ControlWritePump Spec Job}
      (hclaim : m ≠ some .claim) (hfinish : ∀ id result, m ≠ some (.finish id result))
      (howned : p'.owned = p.owned ∨ p'.owned = none) : Hands p now m p'
  | claim {p' : ControlWritePump Spec Job} (hfree : p.owned = none)
      (howned : p'.owned = (p.inbox.claim now).1.map Prod.fst) : Hands p now (some .claim) p'
  | finish {p' : ControlWritePump Spec Job} {id : Nat} (result : ControlWriteResult) (howned : p.owned = some id)
      (hfree : p'.owned = none) : Hands p now (some (.finish id result)) p'

theorem poll_hands {p : ControlWritePump Spec Job} (h : Paired p) (prepared : Option Job) (now : ℚ) :
    (p.poll jobs prepared now).2.inbox = p.inbox ∧ Paired (p.poll jobs prepared now).2 ∧
      Hands p now (p.poll jobs prepared now).1.move (p.poll jobs prepared now).2 := by
  have hquiet {p' : ControlWritePump Spec Job} (howned : p'.owned = p.owned) : Hands p now none p' :=
    .keep nofun nofun (.inl howned)
  unfold poll
  cases hphase : p.phase with
  | idle =>
    simp only
    split
    · refine ⟨?_, ⟨?_, nofun⟩, hquiet ?_⟩
      · split <;> rfl
      · split <;> simp_all [cancelJob]
      · split <;> simp [owned, cancelJob, hphase]
    · exact ⟨rfl, ⟨h.ticket, nofun⟩, hquiet (by simp [owned, hphase])⟩
  | publish =>
    simp only
    split
    · next hticket => exact ⟨rfl, ⟨fun _ => rfl, nofun⟩, .finish _ (by simp [owned, hphase, hticket]) rfl⟩
    · exact ⟨rfl, ⟨h.ticket, nofun⟩, hquiet (by simp [owned, hphase])⟩
  | claim =>
    simp only
    by_cases hjob : p.job = none
    · have hticket := h.ticket hjob
      rw [if_pos (by simp [hjob])]
      split
      · next hclaim =>
        exact ⟨rfl, ⟨h.ticket, nofun⟩, .claim (by simp [owned, hphase, hticket]) (by simp [owned, hclaim, hticket])⟩
      · next hclaim =>
        exact ⟨rfl, ⟨h.ticket, fun _ => hjob⟩, .claim (by simp [owned, hphase, hticket]) (by simp [owned, hclaim])⟩
    · rw [if_neg (by simpa using hjob)]
      exact ⟨rfl, ⟨h.ticket, nofun⟩, hquiet (by simp [owned, hphase])⟩
  | prepare id ticket =>
    have hticket := h.ticket (h.prepare hphase)
    cases prepared with
    | none => exact ⟨rfl, ⟨h.ticket, nofun⟩, .finish _ (by simp [owned, hphase]) hticket⟩
    | some job => exact ⟨rfl, ⟨nofun, nofun⟩, hquiet (by simp [owned, hphase])⟩
  | confirm id =>
    refine ⟨?_, ⟨?_, nofun⟩, hquiet ?_⟩
    · simp only
      split <;> rfl
    · have hticket := h.ticket
      simp only
      split <;> simp_all [cancelJob]
    · simp only
      split <;> simp [owned, cancelJob, hphase]
  | send =>
    simp only
    split
    · exact ⟨rfl, ⟨h.ticket, nofun⟩, hquiet (by simp [owned, hphase])⟩
    · exact ⟨rfl, ⟨nofun, nofun⟩, hquiet (by simp [owned, hphase])⟩

theorem call_hands (jobs : ControlWriteJobs Job) {p : ControlWritePump Spec Job} (h : Paired p) (c : WriteCall Spec Job) (now : ℚ) :
    (p.call jobs now c).2.inbox = p.inbox ∧ Paired (p.call jobs now c).2 ∧
      Hands p now (p.call jobs now c).1.move (p.call jobs now c).2 := by
  unfold call
  split
  · exact ⟨rfl, h, .keep nofun nofun (.inl rfl)⟩
  · exact ⟨rfl, h, .keep nofun nofun (.inl rfl)⟩
  · exact ⟨rfl, h, .keep nofun nofun (.inl rfl)⟩
  · exact poll_hands h _ now
  · next hphase => 
    refine ⟨rfl, ⟨?_, ?_⟩, .keep nofun nofun (.inl rfl)⟩
    · simpa using h.ticket
    · simp [hphase]
  · exact ⟨rfl, ⟨fun _ => rfl, fun _ => rfl⟩, .keep nofun nofun (.inr (by simp [owned, cancelJob, *]))⟩
  · exact ⟨rfl, h, .keep nofun nofun (.inl rfl)⟩

end ControlWritePump

namespace WriteRun

variable {Spec Job : Type} {jobs : ControlWriteJobs Job}

open ControlWriteInbox ControlWritePump

/-- What holds in every run. -/
structure Kept (r : WriteRun Spec Job) : Prop where
  inbox : r.pump.inbox.Kept r.log
  paired : Paired r.pump
  owned : ∀ {id}, r.pump.owned = some id → .claimed id ∈ r.log ∧ .finished id ∉ r.log

theorem kept_new (generation : Nat) :
    Kept (⟨{ inbox := { generation := generation } }, []⟩ : WriteRun Spec Job) where
  inbox := by constructor <;> simp [ControlWriteInbox.claimed]
  paired := ⟨fun _ => rfl, nofun⟩
  owned := nofun

/-- What the owner has in hand after other events is still its own. -/
theorem owned_append {log : List WriteEvent} {id : Nat} (h : .claimed id ∈ log ∧ .finished id ∉ log)
    {event : Option WriteEvent} (hevent : event ≠ some (.finished id)) :
    .claimed id ∈ log ++ event.toList ∧ .finished id ∉ log ++ event.toList := by
  refine ⟨List.mem_append_left _ h.1, ?_⟩
  rw [List.mem_append, Option.mem_toList]
  rintro (hmem | hmem)
  · exact h.2 hmem
  · exact hevent hmem

/-- The move of a `cancel` that is one. -/
theorem call_cancel {p : ControlWritePump Spec Job} {now : ℚ} {c : WriteCall Spec Job} {id : Nat}
    (h : (p.call jobs now c).1.move = some (.cancel id)) : c = .cancel id := by
  cases c with
  | cancel other => simpa [call] using h
  | poll prepared => grind -linarith [call, poll]
  | submit spec => cases h
  | take other => cases h
  | observe plain peer generation => cases hphase : p.phase <;> simp [call, hphase] at h
  | close => cases hphase : p.phase <;> simp [call, hphase] at h

/-- **A step is at most one move of the inbox**: what it finishes the owner has in
hand, and what it cancels a caller cancels. -/
theorem step_moves (jobs : ControlWriteJobs Job) {r : WriteRun Spec Job} (h : r.Kept) (now : ℚ) (c : WriteCall Spec Job) :
    ∃ event, Moves r.pump.inbox event (step jobs now c r).pump.inbox ∧
      (step jobs now c r).log = r.log ++ event.toList ∧
      (∀ id, event = some (.finished id) → r.pump.owned = some id) ∧
      (∀ id, event = some (.cancelled id) → c = .cancel id) ∧
      ∀ id, (step jobs now c r).pump.owned = some id →
        event ≠ some (.finished id) ∧ (r.pump.owned = some id ∨ event = some (.claimed id)) := by
  obtain ⟨hinbox, -, hhands⟩ := call_hands jobs h.paired c now
  have hcancel {id : Nat} (hm : (r.pump.call jobs now c).1.move = some (.cancel id)) : c = .cancel id :=
    call_cancel hm
  unfold step
  cases hcall : r.pump.call jobs now c with
  | mk outcome pump =>
    rw [hcall] at hinbox hhands hcancel
    simp only at hinbox hhands hcancel ⊢
    cases hm : outcome.move with
    | none =>
      rw [hm] at hhands
      refine ⟨none, ?_, by simp, nofun, nofun, fun id howned => ⟨nofun, .inl ?_⟩⟩
      · simp only [hinbox]
        exact .stay
      · cases hhands with
        | keep hclaim hfinish hnext => grind -linarith
    | some m =>
      rw [hm] at hhands
      simp only [hinbox]
      have howner (id : Nat) (result : ControlWriteResult) (hfinish : m = .finish id result) :
          r.pump.owned = some id := by
        subst hfinish
        cases hhands with
        | keep hclaim hfinish hnext => exact absurd rfl (hfinish id result)
        | finish result howned hfree => exact howned
      have hbound (id : Nat) (result : ControlWriteResult) (hfinish : m = .finish id result) :
          id < r.pump.inbox.tickets.length :=
        lt_of_claimed ((h.inbox.claimed id).mp (h.owned (howner id result hfinish)).1)
      refine ⟨_, move_moves _ now m hbound, rfl, ?_, ?_, ?_⟩
      · intro id hevent
        obtain ⟨result, hfinish⟩ := move_event hevent
        exact howner id result hfinish
      · intro id hevent
        rw [move_cancelled hevent] at hm
        exact hcancel hm
      · intro id howned
        change pump.owned = some id at howned
        cases hhands with
        | keep hclaim hfinish hnext =>
          refine ⟨fun hevent => ?_, .inl (by simp_all)⟩
          obtain ⟨result, rfl⟩ := move_event hevent
          exact hfinish id result rfl
        | claim hfree hnext =>
          rw [claim_event (hnext.symm.trans howned)]
          exact ⟨nofun, .inr rfl⟩
        | finish result _ hfree =>
          rw [hfree] at howned
          cases howned

theorem step_paired {r : WriteRun Spec Job} (h : Paired r.pump) (now : ℚ) (c : WriteCall Spec Job) :
    Paired (step jobs now c r).pump := by
  obtain ⟨-, hpaired, -⟩ := call_hands jobs h c now
  unfold step
  split
  next hcall =>
    rw [hcall] at hpaired
    split
    · exact hpaired
    · exact ⟨hpaired.ticket, hpaired.prepare⟩

theorem step_kept {r : WriteRun Spec Job} (h : r.Kept) (now : ℚ) (c : WriteCall Spec Job) :
    (step jobs now c r).Kept := by
  obtain ⟨event, hmoves, hlog, hfinishes, -, howns⟩ := step_moves jobs h now c
  have hinbox : (step jobs now c r).pump.inbox.Kept (step jobs now c r).log := by
    rw [hlog]
    refine h.inbox.moves hmoves fun id hevent => ?_
    obtain ⟨hclaimed, hunfinished⟩ := h.owned (hfinishes id hevent)
    exact ⟨(h.inbox.claimed id).mp hclaimed, hunfinished⟩
  refine ⟨hinbox, step_paired h.paired now c, fun {id} howned => ?_⟩
  rw [hlog]
  obtain ⟨hother, hold | hnew⟩ := howns id howned
  · exact owned_append (h.owned hold) hother
  · subst hnew
    -- What is claimed now was not claimed before, so the owner has not finished it.
    have hunclaimed := hmoves.unclaimed
    have hunfinished : .finished id ∉ r.log := by
      intro hfinished
      rw [(h.inbox.finished hfinished).1] at hunclaimed
      cases hunclaimed
    simp [hunfinished]

theorem run_kept (jobs : ControlWriteJobs Job) (generation : Nat) (calls : List (ℚ × WriteCall Spec Job)) :
    (run jobs generation calls).Kept := by
  have hstep (now : ℚ) (c : WriteCall Spec Job) (r : WriteRun Spec Job) (h : r.Kept) : (step jobs now c r).Kept :=
    step_kept h now c
  exact Machine.run_keeps hstep (kept_new generation)

/-! ## The slot -/

/-- The caller has left, and the owner, if it had claimed the ticket, has
finished. -/
def Released (log : List WriteEvent) (id : Nat) : Prop :=
  (.cancelled id ∈ log ∨ ∃ result, .taken id result ∈ log) ∧ (.claimed id ∈ log → .finished id ∈ log)

/-- What the slot is to be in a state. -/
structure SlotKept (r : WriteRun Spec Job) : Prop where
  /-- While a claimed write is unfinished no other is admitted. -/
  fenced : ∀ id, .claimed id ∈ r.log → .finished id ∉ r.log →
    ∀ spec now, (r.pump.inbox.submit spec now).1 = .error .unavailable
  /-- A ticket that both sides are done with has left the slot. -/
  freed : r.pump.inbox.closed = false → ∀ id, Released r.log id → r.pump.inbox.slot ≠ some id
  /-- So the next write is accepted. -/
  admits : r.pump.inbox.closed = false → (∀ id, .submitted id ∈ r.log → Released r.log id) →
    ∀ spec now, ∃ id, (r.pump.inbox.submit spec now).1 = .ok id

/-- A `cancel` of this ticket now finds a claimed ticket that has its result and
was not taken. -/
def Late (i : ControlWriteInbox Spec) (id : Nat) : Prop :=
  i.closed = false ∧ i.slot = some id ∧ i.claimed id = true ∧ ∃ result, i.completion id = .result result

/-- No `cancel` of the calls comes too late. -/
def CancelsInTime (jobs : ControlWriteJobs Job) (generation : Nat) (calls : List (ℚ × WriteCall Spec Job)) : Prop :=
  ∀ before now id after, calls = before ++ (now, .cancel id) :: after →
    ¬ Late (run jobs generation before).pump.inbox id

/-- What no late `cancel` leaves in the slot: a ticket whose caller is gone and
whose owner knows it. -/
def Prompt (i : ControlWriteInbox Spec) (log : List WriteEvent) : Prop :=
  i.closed = false → ∀ id, .cancelled id ∈ log → i.slot = some id → i.completion id = .cancelled

theorem Prompt.moves {i i' : ControlWriteInbox Spec} {log : List WriteEvent} {event : Option WriteEvent}
    (h : Prompt i log) (hkept : i.Kept log) (hmove : Moves i event i')
    (hfit : ∀ id, event = some (.cancelled id) → ¬ Late i id) : Prompt i' (log ++ event.toList) := by
  intro hopen id hcancelled hslot
  cases hmove with
  | stay => exact h hopen id (by simpa using hcancelled) hslot
  | submit ticket hopen hempty hclaimed hcompletion =>
    have hbound := (hkept.cancelled (by simpa using hcancelled)).1
    cases hslot
    exact absurd hbound (Nat.lt_irrefl _)
  | take hslot hresult => cases hslot
  | stale hslot hid hevent => grind -linarith [Prompt]
  | drop hslot hclaimed => cases hslot
  | @cancel other hslot hclaimed =>
    have hbound := hkept.bounded hslot
    have hlate := hfit other rfl
    cases hcompletion : i.completion other <;> grind -linarith [Prompt, Late, Completion.cancel]
  | lapse closed result hslot hpending hclaimed hclosed => 
    have hbound := hkept.bounded hslot
    have hcancels := @hkept.cancelled
    grind -linarith [Prompt]
  | claim hopen hslot hid hclaimed hpending => grind -linarith [Prompt]
  | finish result hslot hpending => grind -linarith [Prompt]
  | free hslot hcancelled => cases hslot
  | moot hslot hresult => grind -linarith [Prompt]
  | close => cases hopen

theorem step_prompt {r : WriteRun Spec Job} (h : r.Kept) (hprompt : Prompt r.pump.inbox r.log) (now : ℚ)
    {c : WriteCall Spec Job} (hfit : ∀ id, c = .cancel id → ¬ Late r.pump.inbox id) :
    Prompt (step jobs now c r).pump.inbox (step jobs now c r).log := by
  obtain ⟨event, hmoves, hlog, -, hcancels, -⟩ := step_moves jobs h now c
  rw [hlog]
  exact hprompt.moves h.inbox hmoves fun id hevent => hfit id (hcancels id hevent)

theorem run_prompt {generation : Nat} {calls : List (ℚ × WriteCall Spec Job)}
    (h : CancelsInTime jobs generation calls) :
    Prompt (run jobs generation calls).pump.inbox (run jobs generation calls).log := by
  have hstep (now : ℚ) (c : WriteCall Spec Job) (r : WriteRun Spec Job)
      (hr : r.Kept ∧ Prompt r.pump.inbox r.log) (hfit : ∀ id, c = .cancel id → ¬ Late r.pump.inbox id) :
      (step jobs now c r).Kept ∧ Prompt (step jobs now c r).pump.inbox (step jobs now c r).log :=
    ⟨step_kept hr.1 now c, step_prompt hr.1 hr.2 now hfit⟩
  refine (Machine.run_keeps_of hstep ?_ ⟨kept_new generation, fun _ _ hcancelled => by cases hcancelled⟩).2
  rintro before now c after hsplit id rfl
  exact h before now id after hsplit

/-- A claimed write that is not finished fences the slot. -/
theorem Kept.submit_fenced {r : WriteRun Spec Job} (h : r.Kept) {id : Nat} (hclaimed : .claimed id ∈ r.log)
    (hunfinished : .finished id ∉ r.log) (spec : Spec) (now : ℚ) :
    (r.pump.inbox.submit spec now).1 = .error .unavailable := by
  have hbusy : r.pump.inbox.closed = true ∨ r.pump.inbox.slot.isSome = true := by
    rcases h.inbox.fenced ((h.inbox.claimed id).mp hclaimed) hunfinished with hclosed | hslot
    · exact .inl hclosed
    · exact .inr (by simp [hslot])
  rw [submit, if_pos hbusy]

theorem Kept.released_left {r : WriteRun Spec Job} (h : r.Kept) (hprompt : Prompt r.pump.inbox r.log)
    (hopen : r.pump.inbox.closed = false) {id : Nat} (hreleased : Released r.log id) :
    r.pump.inbox.slot ≠ some id := by
  intro hslot
  obtain ⟨hcancelled | ⟨result, htaken⟩, hfinishes⟩ := hreleased
  · have hclaimed := ((h.inbox.cancelled hcancelled).2 hslot).1
    have hunfinished := h.inbox.unseen hslot (hprompt hopen id hcancelled hslot)
    exact hunfinished (hfinishes ((h.inbox.claimed id).mpr hclaimed))
  · exact (h.inbox.taken htaken).2 hslot

theorem Kept.slotKept {r : WriteRun Spec Job} (h : r.Kept) (hprompt : Prompt r.pump.inbox r.log) : SlotKept r where
  fenced := fun _ hclaimed hunfinished spec now => h.submit_fenced hclaimed hunfinished spec now
  freed := fun hopen _ hreleased => h.released_left hprompt hopen hreleased
  admits := by
    intro hopen hall spec now
    have hslot : r.pump.inbox.slot = none := by
      cases hslot : r.pump.inbox.slot with
      | none => rfl
      | some id =>
        have hreleased := hall id ((h.inbox.submitted id).mpr (h.inbox.bounded hslot))
        exact absurd hslot (h.released_left hprompt hopen hreleased)
    exact ⟨r.pump.inbox.tickets.length, by simp [submit, hopen, hslot]⟩

/-- A late `cancel` leaves a ticket in the slot that both sides are done with. -/
theorem late_leaks (jobs : ControlWriteJobs Job) {r : WriteRun Spec Job} (h : r.Kept) {id : Nat} (hlate : Late r.pump.inbox id) (now : ℚ) :
    ¬ SlotKept (step jobs now (.cancel id) r) := by
  obtain ⟨hopen, hslot, hclaimed, result, hresult⟩ := hlate
  have hbound := lt_of_claimed hclaimed
  have hstep : step jobs now (.cancel id) r =
      ⟨{ r.pump with inbox := r.pump.inbox.setCompletion id (.result result) }, r.log ++ [.cancelled id]⟩ := by
    simp [step, call, move, cancel, hbound, hslot, hclaimed, hresult, Completion.cancel]
  have hreleased : Released (r.log ++ [.cancelled id]) id :=
    ⟨.inl (by simp), fun _ => List.mem_append_left _ (h.inbox.result hopen hclaimed hresult)⟩
  intro hkept
  rw [hstep] at hkept
  exact hkept.freed hopen id hreleased hslot

/-- **In every state of a run the slot is as it should be if and only if no
`cancel` of the run comes after the owner's result, untaken.** -/
theorem slot_kept_iff (jobs : ControlWriteJobs Job) (generation : Nat) (calls : List (ℚ × WriteCall Spec Job)) :
    (∀ before after, calls = before ++ after → SlotKept (run jobs generation before)) ↔
      CancelsInTime jobs generation calls := by
  constructor
  · intro hslots before now id after hsplit hlate
    refine late_leaks jobs (run_kept jobs generation before) hlate now ?_
    have hkept := hslots (before ++ [(now, .cancel id)]) after (by simp [hsplit])
    unfold run at hkept ⊢
    rw [Machine.run_append] at hkept
    exact hkept
  · intro htime before after hsplit
    refine (run_kept jobs generation before).slotKept (run_prompt ?_)
    intro start now id rest hstart
    exact htime start now id (rest ++ after) (by simp [hsplit, hstart])

/-- A write is claimed just before its deadline and the owner, busy for a while,
cannot prepare it; between the caller's last `take` and its `cancel` it says so.
Nobody has the ticket any more, and no other write is admitted. -/
theorem cancel_after_finish_leaks :
    let jobs : ControlWriteJobs Unit := ⟨fun _ => none, id, fun _ job => (none, job), fun _ _ _ _ job => job⟩
    let calls : List (ℚ × WriteCall Nat Unit) := [(0, .submit 40), (1 / 200, .take 0), (19 / 10, .poll none),
      (19 / 10, .poll none), (249 / 100, .take 0), (2495 / 1000, .poll none), (5 / 2, .cancel 0)]
    ¬ SlotKept (run jobs 1 calls) ∧ ((run jobs 1 calls).pump.inbox.submit 60 3).1 = .error .unavailable := by
  refine ⟨fun hkept => ?_, by decide +kernel⟩
  exact hkept.freed (by decide +kernel) 0 ⟨.inl (by decide +kernel), fun _ => by decide +kernel⟩ (by decide +kernel)

end WriteRun

end CamGuard.Account
