/-
Facts about a paired AV session: what it returns does not depend on how its two
conversations interleave, nothing is returned before both sides agreed, and a
failure is the end of it (`paired_channels`).

Each conversation is first read alone: the control messages (`controlsFit`), the
base messages as a session that was accepted reads them (`readAll`) and as one
that was not queues them (`queueFits`). Queueing asks for less than reading
(`queueFits_of_readAll`), so whether a session fails is a property of the two
sequences, and the time of ACCEPT only moves the failure.
-/
import CamGuard.Media.AvReceive

namespace CamGuard.Media

/-! ## The two sequences alone -/

/-- The control messages fit a session: ACCEPT first, then ACCEPT or commands. -/
def controlsFit (callId : Nat) : Bool → List Bytes → Bool
  | _, [] => true
  | accepted, m :: rest =>
    if accepted && AvReceiver.isCommand m then controlsFit callId accepted rest
    else AvReceiver.checkControl callId m 2 && controlsFit callId true rest

/-- A base message before ACCEPT; the first one has to be START. -/
def queues (callId : Nat) (first : Bool) (m : Bytes) : Bool :=
  decide (4 ≤ m.length ∧ m.field 2 2 = m.length) &&
    if first ∨ m.at_ 0 = 3 then AvReceiver.checkControl callId m 6
    else decide (m.at_ 0 = 4 ∧ (m.at_ 1 = 1 ∨ m.at_ 1 = 2))

/-- Base messages before ACCEPT. -/
def queueFits (callId : Nat) : Bool → List Bytes → Bool
  | _, [] => true
  | first, m :: rest => queues callId first m && queueFits callId false rest

/-- The encoding after some records, unless one of them is out of place. -/
def noteEncodings : List V1Record → Option V1EncodingHeader → Option (Option V1EncodingHeader)
  | [], known => some known
  | record :: records, known =>
    match record.encoding with
    | some encoding =>
      if known.any fun known => decide (known ≠ encoding) then none else noteEncodings records (some encoding)
    | none => if known.isNone then none else noteEncodings records known

/-- What an accepted session knows of its base conversation. -/
structure BaseStream where
  started : Bool := false
  encoding : Option V1EncodingHeader := none
  parser : V1Receiver := {}

namespace BaseStream

/-- One base message of an accepted session. -/
def read (callId : Nat) (cookie : Bytes) (b : BaseStream) (m : Bytes) : Option (List V1Record × BaseStream) :=
  if m.length < 4 ∨ m.field 2 2 ≠ m.length then none
  else if m.at_ 0 = 3 then
    if AvReceiver.checkControl callId m 6 = false then none else some ([], { b with started := true })
  else if m.at_ 0 ≠ 4 ∨ (m.at_ 1 ≠ 1 ∧ m.at_ 1 ≠ 2) ∨ b.started = false then none
  else
    match decryptMediaTlv m cookie with
    | .error _ => none
    | .ok payload =>
      match b.parser.feed payload with
      | (.error _, _) => none
      | (.ok records, parser) =>
        (noteEncodings records b.encoding).map fun encoding =>
          (records, { b with encoding := encoding, parser := parser })

/-- The base messages of an accepted session, and what they return. -/
def readAll (callId : Nat) (cookie : Bytes) : BaseStream → List Bytes → Option (List V1Record × BaseStream)
  | b, [] => some ([], b)
  | b, m :: rest =>
    match b.read callId cookie m with
    | none => none
    | some (records, b) => (readAll callId cookie b rest).map fun r => (records ++ r.1, r.2)

end BaseStream

open BaseStream AvReceiver

section Streams

variable {callId : Nat} {cookie : Bytes}

theorem controlsFit_append {accepted : Bool} {ms ns : List Bytes} :
    controlsFit callId accepted (ms ++ ns) =
      (controlsFit callId accepted ms && controlsFit callId (accepted || !ms.isEmpty) ns) := by
  induction ms generalizing accepted with
  | nil => simp [controlsFit]
  | cons m ms ih =>
    simp only [List.cons_append, controlsFit]
    split
    next h =>
      have haccepted : accepted = true := by
        simp only [Bool.and_eq_true] at h
        exact h.1
      rw [ih, haccepted]
      rfl
    next h =>
      rw [ih, Bool.and_assoc]
      simp

theorem queueFits_append {first : Bool} {ms ns : List Bytes} :
    queueFits callId first (ms ++ ns) =
      (queueFits callId first ms && queueFits callId (first && ms.isEmpty) ns) := by
  induction ms generalizing first with
  | nil => simp [queueFits]
  | cons m ms ih =>
    simp only [List.cons_append, queueFits]
    rw [ih, Bool.and_assoc]
    simp

theorem readAll_append {b : BaseStream} {ms ns : List Bytes} :
    readAll callId cookie b (ms ++ ns) =
      (readAll callId cookie b ms).bind fun r =>
        (readAll callId cookie r.2 ns).map fun q => (r.1 ++ q.1, q.2) := by
  induction ms generalizing b with
  | nil => simp [readAll]
  | cons m ms ih =>
    simp only [List.cons_append, readAll]
    cases b.read callId cookie m with
    | none => rfl
    | some r =>
      simp only [ih]
      cases readAll callId cookie r.2 ms with
      | none => rfl
      | some q => cases h : readAll callId cookie q.2 ns <;> simp [h, List.append_assoc]

/-- What an accepted session reads, one that is not accepted queues; and it
knows of START after any message. -/
theorem queues_of_read {b b' : BaseStream} {m : Bytes} {records : List V1Record}
    (h : b.read callId cookie m = some (records, b')) :
    queues callId (!b.started) m = true ∧ b'.started = true := by
  simp only [BaseStream.read] at h
  split at h
  · cases h
  next henv =>
  have hwf : 4 ≤ m.length ∧ m.field 2 2 = m.length := by
    simp only [not_or, not_lt, not_not] at henv
    exact henv
  split at h
  next hthree =>
    split at h
    · cases h
    next hcheck =>
      cases h
      refine ⟨?_, rfl⟩
      simp only [queues, hthree, or_true, if_true, hwf, and_self, decide_true, Bool.true_and]
      simpa using hcheck
  next hthree =>
    split at h
    · cases h
    next hmedia =>
      have hstarted : b.started = true := by simp_all
      have hstay : b'.started = b.started := by
        split at h
        · cases h
        split at h
        · cases h
        · simp only [Option.map_eq_some_iff, Prod.mk.injEq] at h
          obtain ⟨-, -, -, rfl⟩ := h
          rfl
      refine ⟨?_, by rw [hstay, hstarted]⟩
      have hkind : m.at_ 0 = 4 ∧ (m.at_ 1 = 1 ∨ m.at_ 1 = 2) := by
        simp only [not_or, not_and_or, not_not] at hmedia
        exact ⟨hmedia.1, hmedia.2.1⟩
      simp [queues, hwf, hstarted, hkind]

theorem queueFits_of_readAll {b : BaseStream} {ms : List Bytes} (h : (readAll callId cookie b ms).isSome) :
    queueFits callId (!b.started) ms = true := by
  induction ms generalizing b with
  | nil => rfl
  | cons m ms ih =>
    simp only [readAll] at h
    split at h
    · cases h
    next records b' hread =>
      obtain ⟨hqueues, hstarted⟩ := queues_of_read hread
      have hrest := ih (b := b') (by simpa using h)
      rw [hstarted] at hrest
      simp only [queueFits, hqueues, Bool.true_and]
      exact hrest

theorem start_of_readAll {ms : List Bytes} {records : List V1Record} {b : BaseStream}
    (h : readAll callId cookie {} ms = some (records, b)) (hne : records ≠ []) :
    ∃ m ∈ ms, checkControl callId m 6 = true := by
  cases ms with
  | nil => simp only [readAll, Option.some.injEq, Prod.mk.injEq] at h; exact absurd h.1.symm hne
  | cons m ms =>
    have hfits := queueFits_of_readAll (b := {}) (by rw [h]; rfl)
    simp only [queueFits, queues, Bool.not_false, true_or, if_true, Bool.and_eq_true] at hfits
    exact ⟨m, List.mem_cons_self, hfits.1.2⟩

theorem noteEncodings_append {rs qs : List V1Record} {known : Option V1EncodingHeader} :
    noteEncodings (rs ++ qs) known = (noteEncodings rs known).bind (noteEncodings qs) := by
  induction rs generalizing known with
  | nil => rfl
  | cons r rs ih =>
    simp only [List.cons_append, noteEncodings]
    split
    · split
      · rfl
      · exact ih
    · split
      · rfl
      · exact ih

/-- The encoding a session knows is the one of the records it returned. -/
theorem noteEncodings_of_readAll {ms : List Bytes} {records : List V1Record} {b b' : BaseStream}
    (h : readAll callId cookie b ms = some (records, b')) :
    noteEncodings records b.encoding = some b'.encoding := by
  induction ms generalizing b records with
  | nil => simp only [readAll, Option.some.injEq, Prod.mk.injEq] at h; rw [← h.1, ← h.2]; rfl
  | cons m ms ih =>
    simp only [readAll] at h
    split at h
    · cases h
    next first b₁ hread =>
      simp only [Option.map_eq_some_iff, Prod.mk.injEq] at h
      obtain ⟨⟨rest, b₂⟩, hrest, rfl, rfl⟩ := h
      have hfirst : noteEncodings first b.encoding = some b₁.encoding := by
        simp only [BaseStream.read] at hread
        split at hread
        · cases hread
        split at hread
        · split at hread
          · cases hread
          · cases hread; rfl
        split at hread
        · cases hread
        split at hread
        · cases hread
        split at hread
        · cases hread
        · simp only [Option.map_eq_some_iff, Prod.mk.injEq] at hread
          obtain ⟨encoding, hnote, rfl, rfl⟩ := hread
          exact hnote
      rw [noteEncodings_append, hfirst]
      exact ih hrest

/-- The encoding known at the end is the one known before and the one of every
header among the records. -/
theorem encodings_of_note {rs : List V1Record} {known last : Option V1EncodingHeader}
    (h : noteEncodings rs known = some last) :
    (∀ k ∈ known, last = some k) ∧ ∀ r ∈ rs, ∀ e ∈ r.encoding, last = some e := by
  induction rs generalizing known with
  | nil =>
    simp only [noteEncodings, Option.some.injEq] at h
    subst h
    exact ⟨fun k hk => hk, fun r hr => absurd hr (List.not_mem_nil)⟩
  | cons r rs ih =>
    simp only [noteEncodings] at h
    split at h
    next encoding henc =>
      split at h
      · cases h
      next hsame =>
        obtain ⟨hknown, hrest⟩ := ih h
        have hlast : last = some encoding := hknown encoding rfl
        refine ⟨fun k hk => ?_, fun q hq e he => ?_⟩
        · rw [Option.mem_def] at hk
          subst hk
          simp only [Option.any_some, decide_eq_true_eq, not_not] at hsame
          rw [hlast, hsame]
        · rcases List.mem_cons.mp hq with rfl | hq
          · rw [Option.mem_def, henc] at he
            rw [hlast, he]
          · exact hrest q hq e he
    next henc =>
      split at h
      · cases h
      · obtain ⟨hknown, hrest⟩ := ih h
        refine ⟨hknown, fun q hq e he => ?_⟩
        rcases List.mem_cons.mp hq with rfl | hq
        · rw [Option.mem_def, henc] at he
          cases he
        · exact hrest q hq e he

theorem headed_of_note {pre post : List V1Record} {r : V1Record} {known last : Option V1EncodingHeader}
    (h : noteEncodings (pre ++ r :: post) known = some last) (hr : r.encoding = none) :
    known.isSome ∨ ∃ q ∈ pre, q.encoding.isSome := by
  induction pre generalizing known with
  | nil =>
    left
    simp only [List.nil_append, noteEncodings, hr] at h
    split at h
    · cases h
    next hknown => simpa [Option.isSome_iff_ne_none] using hknown
  | cons q pre ih =>
    simp only [List.cons_append, noteEncodings] at h
    split at h
    next encoding henc => exact .inr ⟨q, List.mem_cons_self, by rw [henc]; rfl⟩
    next henc =>
      split at h
      · cases h
      · rcases ih h with hknown | ⟨q', hq', hsome⟩
        · exact .inl hknown
        · exact .inr ⟨q', List.mem_cons_of_mem _ hq', hsome⟩

/-- A session that gets these messages does not fail for what they say. -/
def Fits (callId : Nat) (cookie : Bytes) (cs ms : List Bytes) : Prop :=
  controlsFit callId false cs = true ∧
    if cs = [] then queueFits callId true ms = true else (readAll callId cookie {} ms).isSome

theorem Fits.queue {cs ms : List Bytes} (h : Fits callId cookie cs ms) : queueFits callId true ms = true := by
  obtain ⟨-, hms⟩ := h
  split at hms
  · exact hms
  · exact queueFits_of_readAll (b := {}) hms

/-- A session that gets only the beginning of what fits does not overflow either. -/
theorem Fits.of_prefix {cs ds ms ns : List Bytes} (h : Fits callId cookie ds ns) (hcs : cs <+: ds)
    (hms : ms <+: ns) : Fits callId cookie cs ms := by
  obtain ⟨ds, rfl⟩ := hcs
  obtain ⟨ns, rfl⟩ := hms
  have hqueue := h.queue
  obtain ⟨hcontrols, hbase⟩ := h
  rw [controlsFit_append, Bool.and_eq_true] at hcontrols
  refine ⟨hcontrols.1, ?_⟩
  split
  next hnil =>
    rw [queueFits_append, Bool.and_eq_true] at hqueue
    exact hqueue.1
  next hnil =>
    rw [if_neg (by simp [hnil]), readAll_append] at hbase
    cases hread : readAll callId cookie {} ms with
    | none => simp [hread] at hbase
    | some r => rfl

/-- Records of the beginning of a sequence are the beginning of its records. -/
theorem records_comparable {ms ns all : List Bytes} {rs qs : List V1Record} {b b' : BaseStream}
    (hms : ms <+: all) (hns : ns <+: all) (hrs : readAll callId cookie {} ms = some (rs, b))
    (hqs : readAll callId cookie {} ns = some (qs, b')) : rs <+: qs ∨ qs <+: rs := by
  have key : ∀ {xs ys : List Bytes} {us vs : List V1Record} {c c' : BaseStream}, xs <+: ys →
      readAll callId cookie {} xs = some (us, c) → readAll callId cookie {} ys = some (vs, c') → us <+: vs := by
    rintro xs _ us vs c c' ⟨ys, rfl⟩ hus hvs
    rw [readAll_append, hus, Option.bind_some, Option.map_eq_some_iff] at hvs
    obtain ⟨⟨more, _⟩, -, hvs⟩ := hvs
    simp only [Prod.mk.injEq] at hvs
    exact ⟨more, hvs.1⟩
  rcases List.prefix_or_prefix_of_prefix hms hns with hle | hle
  · exact .inl (key hle hrs hqs)
  · exact .inr (key hle hqs hrs)

end Streams

/-! ## What a session does with them -/

/-- The part of a session that the base messages decide. -/
def AvReceiver.base (a : AvReceiver) : BaseStream := ⟨a.started, a.encoding, a.parser⟩

/-- The part they leave alone once the session is accepted. -/
structure Keeps (a a' : AvReceiver) : Prop where
  control : a'.control = a.control
  callId : a'.callId = a.callId
  cookie : a'.cookie = a.cookie
  accepted : a'.accepted = a.accepted
  pending : a'.pending = a.pending

namespace Keeps

variable {a a' a'' : AvReceiver}

theorem refl (a : AvReceiver) : Keeps a a := ⟨rfl, rfl, rfl, rfl, rfl⟩

theorem trans (h : Keeps a a') (h' : Keeps a' a'') : Keeps a a'' :=
  ⟨h'.control.trans h.control, h'.callId.trans h.callId, h'.cookie.trans h.cookie, h'.accepted.trans h.accepted,
    h'.pending.trans h.pending⟩

end Keeps

theorem ReceiveLifecycle.poll_cases {l l' : ReceiveLifecycle} {clock : PollClock} {r : Except AvFault Unit}
    (h : l.poll clock = (r, l')) : (r = .ok () ∧ l' = l) ∨ ∃ e, r = .error e ∧ e.OfContent = false := by
  simp only [ReceiveLifecycle.poll] at h
  split at h
  · cases h; exact .inr ⟨_, rfl, rfl⟩
  split at h
  · cases h; exact .inr ⟨_, rfl, rfl⟩
  split at h
  · split at h
    · cases h; exact .inr ⟨_, rfl, rfl⟩
    · cases h; exact .inl ⟨rfl, rfl⟩
  split at h
  · cases h; exact .inr ⟨_, rfl, rfl⟩
  · cases h; exact .inl ⟨rfl, rfl⟩

theorem ReceiveLifecycle.activate_error {l l' : ReceiveLifecycle} {clock : PollClock} {e : AvFault}
    (h : l.activate clock = (.error e, l')) : e.OfContent = false := by
  simp only [ReceiveLifecycle.activate] at h
  split at h
  next hpoll =>
    cases h
    rcases ReceiveLifecycle.poll_cases hpoll with ⟨hok, -⟩ | ⟨e, he, hkind⟩
    · cases hok
    · cases he; exact hkind
  next hpoll =>
    split at h
    · cases h; rfl
    · cases h

theorem PendingAv.poll_cases {p p' : PendingAv} {now : ℚ} {r : Except AvFault Unit} (h : p.poll now = (r, p')) :
    (r = .ok () ∧ p' = p) ∨ r = .error .pendingDeadline := by
  simp only [PendingAv.poll] at h
  split at h
  · cases h; exact .inr rfl
  · cases h; exact .inl ⟨rfl, rfl⟩

theorem PendingAv.append_cases {p p' : PendingAv} {now start : ℚ} {m : Bytes} {r : Except AvFault Unit}
    (h : p.append now start m = (r, p')) :
    (r = .ok () ∧ p'.messages = p.messages ++ [m] ∧ p'.bufferedBytes = p.bufferedBytes + m.length) ∨
      ∃ e, r = .error e ∧ e.OfContent = false := by
  simp only [PendingAv.append] at h
  split at h
  next hpoll =>
    cases h
    rcases PendingAv.poll_cases hpoll with ⟨hok, -⟩ | he
    · cases hok
    · exact .inr ⟨_, he, rfl⟩
  next hpoll =>
    rcases PendingAv.poll_cases hpoll with ⟨-, rfl⟩ | he
    · split at h
      · cases h; exact .inr ⟨_, rfl, rfl⟩
      · cases h; exact .inl ⟨rfl, rfl, rfl⟩
    · cases he

theorem PendingAv.take_cases {p p' : PendingAv} {now : ℚ} {r : Except AvFault (List Bytes)}
    (h : p.take now = (r, p')) : (r = .ok p.messages ∧ p' = {}) ∨ r = .error .pendingDeadline := by
  simp only [PendingAv.take] at h
  split at h
  next hpoll =>
    cases h
    rcases PendingAv.poll_cases hpoll with ⟨hok, -⟩ | he
    · cases hok
    · cases he; exact .inr rfl
  next hpoll =>
    rcases PendingAv.poll_cases hpoll with ⟨-, rfl⟩ | he
    · cases h; exact .inl ⟨rfl, rfl⟩
    · cases he

namespace AvReceiver

variable {a a' : AvReceiver}

theorem noteRecords_ok {clock : Nat → PollClock} {i : Nat} {records : List V1Record}
    (h : noteRecords clock i records a = (.ok (), a')) :
    noteEncodings records a.encoding = some a'.encoding ∧ Keeps a a' ∧ a'.parser = a.parser ∧
      a'.started = a.started := by
  induction records generalizing i a with
  | nil => cases h; exact ⟨rfl, .refl _, rfl, rfl⟩
  | cons record records ih =>
    simp only [noteRecords] at h
    split at h
    next encoding henc =>
      simp only [noteEncodings, henc]
      split at h
      · cases h
      next hsame =>
        rw [if_neg hsame]
        split at h
        · split at h
          · cases h
          · obtain ⟨hnote, hkeeps, hrest⟩ := ih h
            exact ⟨hnote, ⟨hkeeps.control, hkeeps.callId, hkeeps.cookie, hkeeps.accepted, hkeeps.pending⟩, hrest⟩
        · obtain ⟨hnote, hkeeps, hrest⟩ := ih h
          exact ⟨hnote, ⟨hkeeps.control, hkeeps.callId, hkeeps.cookie, hkeeps.accepted, hkeeps.pending⟩, hrest⟩
    next henc =>
      simp only [noteEncodings, henc]
      split at h
      · cases h
      next hknown =>
        rw [if_neg hknown]
        exact ih h

theorem noteRecords_error {clock : Nat → PollClock} {i : Nat} {records : List V1Record} {e : AvFault}
    (h : noteRecords clock i records a = (.error e, a')) (he : e.OfContent = true) :
    noteEncodings records a.encoding = none := by
  induction records generalizing i a with
  | nil => cases h
  | cons record records ih =>
    simp only [noteRecords] at h
    split at h
    next encoding henc =>
      simp only [noteEncodings, henc]
      split at h
      next hother => rw [if_pos hother]
      next hsame =>
        rw [if_neg hsame]
        split at h
        · split at h
          next hactivate =>
            cases h
            rw [ReceiveLifecycle.activate_error hactivate] at he
            cases he
          next => exact ih h
        · exact ih h
    next henc =>
      simp only [noteEncodings, henc]
      split at h
      next hunknown => rw [if_pos hunknown]
      next hknown =>
        rw [if_neg hknown]
        exact ih h

theorem message_accepted {clock : MessageClock} {m : Bytes} (hcontrol : a.control.isSome)
    (haccepted : a.accepted = true) :
    a.message clock m =
      if m.length < 4 ∨ m.field 2 2 ≠ m.length then (.error .envelope, a)
      else if m.at_ 0 = 3 then
        if checkControl a.callId m 6 = false then (.error .control, a) else (.ok [], { a with started := true })
      else if m.at_ 0 ≠ 4 ∨ (m.at_ 1 ≠ 1 ∧ m.at_ 1 ≠ 2) ∨ a.base.started = false then (.error .acceptance, a)
      else
        match decryptMediaTlv m a.cookie with
        | .error e => (.error (.tlv e), a)
        | .ok payload =>
          match a.base.parser.feed payload with
          | (.error e, parser) => (.error (.parser e), { a with parser := parser })
          | (.ok records, parser) =>
            match noteRecords clock.activate 0 records { a with parser := parser } with
            | (.error e, a) => (.error e, a)
            | (.ok (), a) => (.ok records, a) := by
  obtain ⟨control, hsome⟩ := Option.isSome_iff_exists.mp hcontrol
  simp only [AvReceiver.message, haccepted, hsome, Bool.true_eq_false, and_false, if_false, Option.isNone_some,
    Bool.false_eq_true, false_or]
  rfl

/-- **An accepted session reads a base message** as its sequence alone says. -/
theorem message_read {clock : MessageClock} {m : Bytes} {records : List V1Record} (hcontrol : a.control.isSome)
    (haccepted : a.accepted = true) (h : a.message clock m = (.ok records, a')) :
    a.base.read a.callId a.cookie m = some (records, a'.base) ∧ Keeps a a' := by
  rw [message_accepted hcontrol haccepted] at h
  simp only [BaseStream.read]
  split at h
  · cases h
  next henv =>
  rw [if_neg henv]
  split at h
  next hthree =>
    rw [if_pos hthree]
    split at h
    · cases h
    next hcheck =>
      cases h
      exact ⟨by rw [if_neg hcheck]; rfl, ⟨rfl, rfl, rfl, rfl, rfl⟩⟩
  next hthree =>
    rw [if_neg hthree]
    split at h
    · cases h
    next hmedia =>
      rw [if_neg hmedia]
      split at h
      · cases h
      next payload hplain =>
      split at h
      · cases h
      next records' parser hfeed =>
      split at h
      · cases h
      next a'' hnote =>
        cases h
        obtain ⟨hencoding, hkeeps, hparser, hstarted⟩ := noteRecords_ok hnote
        refine ⟨?_, hkeeps.control, hkeeps.callId, hkeeps.cookie, hkeeps.accepted, hkeeps.pending⟩
        have hbase : a'.base = { a.base with encoding := a'.encoding, parser := parser } := by
          rw [AvReceiver.base, hparser, hstarted]
          rfl
        rw [hbase]
        exact congrArg _ hencoding

theorem message_refused {clock : MessageClock} {m : Bytes} {e : AvFault} (hcontrol : a.control.isSome)
    (haccepted : a.accepted = true) (h : a.message clock m = (.error e, a')) (he : e.OfContent = true) :
    a.base.read a.callId a.cookie m = none := by
  rw [message_accepted hcontrol haccepted] at h
  simp only [BaseStream.read]
  split at h
  next henv => rw [if_pos henv]
  next henv =>
  rw [if_neg henv]
  split at h
  next hthree =>
    rw [if_pos hthree]
    split at h
    next hcheck => rw [if_pos hcheck]
    · cases h
  next hthree =>
    rw [if_neg hthree]
    split at h
    next hmedia => rw [if_pos hmedia]
    next hmedia =>
      rw [if_neg hmedia]
      split at h
      · rfl
      split at h
      · rfl
      split at h
      next hnote =>
        cases h
        exact congrArg _ (noteRecords_error hnote he)
      · cases h

/-- Its queue counts no bytes exactly when it holds no message. -/
def Queue (a : AvReceiver) : Prop := a.pending.bufferedBytes = 0 ↔ a.pending.messages = []

/-- What a session that waits for ACCEPT does with base messages: it queues
them and does nothing else. -/
structure Waits (a a' : AvReceiver) (ms : List Bytes) : Prop where
  control : a'.control = a.control
  callId : a'.callId = a.callId
  cookie : a'.cookie = a.cookie
  accepted : a'.accepted = a.accepted
  base : a'.base = a.base
  messages : a'.pending.messages = a.pending.messages ++ ms
  queue : a'.Queue

/-- **A session that is not accepted queues a base message.** -/
theorem message_queued {clock : MessageClock} {m : Bytes} {records : List V1Record} (hcontrol : a.control.isSome)
    (haccepted : a.accepted = false) (hqueue : a.Queue) (h : a.message clock m = (.ok records, a')) :
    records = [] ∧ queues a.callId a.pending.messages.isEmpty m = true ∧ Waits a a' [m] := by
  simp only [AvReceiver.message, haccepted, hcontrol, and_self, if_true] at h
  rw [Queue] at hqueue
  split at h
  · cases h
  next henv =>
  have hwf : 4 ≤ m.length ∧ m.field 2 2 = m.length := by
    simp only [not_or, not_lt, not_not] at henv
    exact henv
  split at h
  · cases h
  next hcheck =>
  split at h
  · cases h
  next hkind =>
  split at h
  · cases h
  next pending happend =>
    cases h
    rcases PendingAv.append_cases happend with ⟨-, hmessages, hbytes⟩ | ⟨e, he, -⟩
    · refine ⟨rfl, ?_, ⟨rfl, rfl, rfl, haccepted.symm, rfl, hmessages, ?_⟩⟩
      · simp only [queues, hwf, and_self, decide_true, Bool.true_and, List.isEmpty_iff, ← hqueue]
        split
        next hfirst =>
          rw [not_and] at hcheck
          simpa using hcheck hfirst
        next hfirst =>
          rw [not_and] at hkind
          have := hkind hfirst
          simp only [not_or, not_and_or, not_not] at this
          exact decide_eq_true this
      · simp only [Queue, hmessages, hbytes]
        constructor
        · intro hzero; omega
        · intro hnil; simp at hnil
    · cases he

theorem message_unfit {clock : MessageClock} {m : Bytes} {e : AvFault} (hcontrol : a.control.isSome)
    (haccepted : a.accepted = false) (hqueue : a.Queue) (h : a.message clock m = (.error e, a'))
    (he : e.OfContent = true) : queues a.callId a.pending.messages.isEmpty m = false := by
  simp only [AvReceiver.message, haccepted, hcontrol, and_self, if_true] at h
  rw [Queue] at hqueue
  split at h
  next henv =>
    have : ¬ (4 ≤ m.length ∧ m.field 2 2 = m.length) := by
      rintro ⟨hlen, hfield⟩
      rcases henv with henv | henv
      · omega
      · exact henv hfield
    simp [queues, this]
  next henv =>
  split at h
  next hcheck =>
    simp only [queues, List.isEmpty_iff, ← hqueue, if_pos hcheck.1, hcheck.2, Bool.and_false]
  next hcheck =>
  split at h
  next hkind =>
    have : ¬ (m.at_ 0 = 4 ∧ (m.at_ 1 = 1 ∨ m.at_ 1 = 2)) := by
      rintro ⟨hfour, hdata⟩
      rcases hkind.2 with hother | ⟨hone, htwo⟩
      · exact hother hfour
      · exact hdata.elim hone htwo
    simp only [queues, List.isEmpty_iff, ← hqueue, if_neg hkind.1, decide_eq_false this, Bool.and_false]
  next hkind =>
  split at h
  next happend =>
    cases h
    rcases PendingAv.append_cases happend with ⟨hok, -⟩ | ⟨e, hfault, hnot⟩
    · cases hok
    · cases hfault
      rw [hnot] at he
      cases he
  · cases h

theorem messages_read {ms : List (MessageClock × Bytes)} {records : List V1Record} (hcontrol : a.control.isSome)
    (haccepted : a.accepted = true) (h : a.messages ms = (.ok records, a')) :
    readAll a.callId a.cookie a.base (ms.map Prod.snd) = some (records, a'.base) ∧ Keeps a a' := by
  induction ms generalizing a records with
  | nil => cases h; exact ⟨rfl, .refl _⟩
  | cons m ms ih =>
    simp only [AvReceiver.messages] at h
    split at h
    · cases h
    next first a₁ hfirst =>
    split at h
    · cases h
    next more a₂ hmore =>
      cases h
      obtain ⟨hread, hkeeps⟩ := message_read hcontrol haccepted hfirst
      obtain ⟨hrest, hkeeps'⟩ := ih (by rw [hkeeps.control]; exact hcontrol) (by rw [hkeeps.accepted]; exact haccepted)
        hmore
      refine ⟨?_, hkeeps.trans hkeeps'⟩
      rw [hkeeps.callId, hkeeps.cookie] at hrest
      simp only [List.map_cons, readAll, hread, hrest, Option.map_some]

theorem messages_refused {ms : List (MessageClock × Bytes)} {e : AvFault} (hcontrol : a.control.isSome)
    (haccepted : a.accepted = true) (h : a.messages ms = (.error e, a')) (he : e.OfContent = true) :
    readAll a.callId a.cookie a.base (ms.map Prod.snd) = none := by
  induction ms generalizing a with
  | nil => cases h
  | cons m ms ih =>
    simp only [AvReceiver.messages] at h
    split at h
    next hfirst =>
      cases h
      simp only [List.map_cons, readAll, message_refused hcontrol haccepted hfirst he]
    next first a₁ hfirst =>
    split at h
    next hmore =>
      cases h
      obtain ⟨hread, hkeeps⟩ := message_read hcontrol haccepted hfirst
      have hrest := ih (by rw [hkeeps.control]; exact hcontrol) (by rw [hkeeps.accepted]; exact haccepted) hmore
      rw [hkeeps.callId, hkeeps.cookie] at hrest
      simp only [List.map_cons, readAll, hread, hrest, Option.map_none]
    · cases h

theorem isEmpty_snoc {α : Type} (xs : List α) (x : α) : (xs ++ [x]).isEmpty = false := by simp

theorem messages_queued {ms : List (MessageClock × Bytes)} {records : List V1Record} (hcontrol : a.control.isSome)
    (haccepted : a.accepted = false) (hqueue : a.Queue) (h : a.messages ms = (.ok records, a')) :
    records = [] ∧ queueFits a.callId a.pending.messages.isEmpty (ms.map Prod.snd) = true ∧
      Waits a a' (ms.map Prod.snd) := by
  induction ms generalizing a records with
  | nil => cases h; exact ⟨rfl, rfl, ⟨rfl, rfl, rfl, rfl, rfl, by simp, hqueue⟩⟩
  | cons m ms ih =>
    simp only [AvReceiver.messages] at h
    split at h
    · cases h
    next first a₁ hfirst =>
    split at h
    · cases h
    next more a₂ hmore =>
      cases h
      obtain ⟨rfl, hfits, hwaits⟩ := message_queued hcontrol haccepted hqueue hfirst
      obtain ⟨rfl, hrest, hwaits'⟩ := ih (by rw [hwaits.control]; exact hcontrol)
        (by rw [hwaits.accepted]; exact haccepted) hwaits.queue hmore
      rw [hwaits.callId, hwaits.messages, isEmpty_snoc] at hrest
      refine ⟨rfl, by simp only [List.map_cons, queueFits, hfits, hrest, Bool.and_self], ?_⟩
      exact ⟨hwaits'.control.trans hwaits.control, hwaits'.callId.trans hwaits.callId,
        hwaits'.cookie.trans hwaits.cookie, hwaits'.accepted.trans hwaits.accepted, hwaits'.base.trans hwaits.base,
        by rw [hwaits'.messages, hwaits.messages, List.append_assoc]; rfl, hwaits'.queue⟩

theorem messages_unfit {ms : List (MessageClock × Bytes)} {e : AvFault} (hcontrol : a.control.isSome)
    (haccepted : a.accepted = false) (hqueue : a.Queue) (h : a.messages ms = (.error e, a'))
    (he : e.OfContent = true) : queueFits a.callId a.pending.messages.isEmpty (ms.map Prod.snd) = false := by
  induction ms generalizing a with
  | nil => cases h
  | cons m ms ih =>
    simp only [AvReceiver.messages] at h
    split at h
    next hfirst =>
      cases h
      simp only [List.map_cons, queueFits, message_unfit hcontrol haccepted hqueue hfirst he, Bool.false_and]
    next first a₁ hfirst =>
    split at h
    next hmore =>
      cases h
      obtain ⟨-, -, hwaits⟩ := message_queued hcontrol haccepted hqueue hfirst
      have hrest := ih (by rw [hwaits.control]; exact hcontrol) (by rw [hwaits.accepted]; exact haccepted)
        hwaits.queue hmore
      rw [hwaits.callId, hwaits.messages, isEmpty_snoc] at hrest
      simp only [List.map_cons, queueFits, hrest, Bool.and_false]
    · cases h

theorem controls_ok {ms : List Bytes} {unhandled : Nat} (h : a.controls ms = (.ok unhandled, a')) :
    controlsFit a.callId a.accepted ms = true ∧ a' = { a with accepted := a.accepted || !ms.isEmpty } := by
  induction ms generalizing a unhandled with
  | nil => cases h; simp [controlsFit]
  | cons m ms ih =>
    simp only [AvReceiver.controls] at h
    split at h
    next hcommand =>
      split at h
      · cases h
      next hrest =>
        cases h
        obtain ⟨hfit, rfl⟩ := ih hrest
        have haccepted : a.accepted = true := (Bool.and_eq_true _ _ ▸ hcommand).1
        refine ⟨?_, by simp only [haccepted, Bool.true_or]⟩
        rw [controlsFit, if_pos hcommand]
        exact hfit
    next hcommand =>
      split at h
      · cases h
      next hcheck =>
        obtain ⟨hfit, rfl⟩ := ih h
        simp only [Bool.not_eq_false] at hcheck
        simp only [controlsFit, if_neg hcommand, hcheck, Bool.true_and, Bool.true_or, List.isEmpty_cons,
          Bool.not_false, Bool.or_true, and_true]
        exact hfit

theorem controls_error {ms : List Bytes} {e : AvFault} (h : a.controls ms = (.error e, a')) :
    controlsFit a.callId a.accepted ms = false := by
  induction ms generalizing a with
  | nil => cases h
  | cons m ms ih =>
    simp only [AvReceiver.controls] at h
    split at h
    next hcommand =>
      split at h
      next hrest =>
        cases h
        simp only [controlsFit, if_pos hcommand, ih hrest]
      · cases h
    next hcommand =>
      split at h
      next hcheck => simp only [controlsFit, if_neg hcommand, hcheck, Bool.false_and]
      next hcheck =>
        have hrest := ih h
        simp only [controlsFit, if_neg hcommand]
        rw [hrest, Bool.and_false]

theorem poll_cases {clock : AvPollClock} {r : Except AvFault Unit} (h : a.poll clock = (r, a')) :
    (r = .ok () ∧ a' = a) ∨ ∃ e, r = .error e ∧ e.OfContent = false := by
  simp only [AvReceiver.poll] at h
  split at h
  next hpoll =>
    cases h
    rcases ReceiveLifecycle.poll_cases hpoll with ⟨hok, -⟩ | he
    · cases hok
    · exact .inr he
  next hpoll =>
  rcases ReceiveLifecycle.poll_cases hpoll with ⟨-, rfl⟩ | ⟨e, he, -⟩
  swap
  · cases he
  split at h
  next hpending =>
    cases h
    rcases PendingAv.poll_cases hpending with ⟨hok, -⟩ | he
    · cases hok
    · exact .inr ⟨_, he, rfl⟩
  next hpending =>
  rcases PendingAv.poll_cases hpending with ⟨-, rfl⟩ | he
  swap
  · cases he
  split at h
  · cases h; exact .inl ⟨rfl, rfl⟩
  · split at h
    · cases h; exact .inr ⟨_, rfl, rfl⟩
    · cases h; exact .inl ⟨rfl, rfl⟩

/-! ## The messages of a call -/

/-- The messages that the control conversation delivers. -/
def controlMessages (a : AvReceiver) (c : AvCall) : List Bytes :=
  match a.control with
  | none => []
  | some m =>
    match m.receive c.control c.controlSegments c.wire c.peer with
    | (.error _, _) => []
    | (.ok batch, _) => batch.messages

/-- The messages that the base conversation delivers. -/
def baseMessages (a : AvReceiver) (c : AvCall) : List Bytes :=
  match a.transport.receive c.transport c.wire c.peer with
  | (.error _, _) => []
  | (.ok batch, _) => batch.messages

/-- The messages a call of `receive` gets: of control, and of the base
conversation if the call comes that far. -/
def delivered (a : AvReceiver) (c : AvCall) : List Bytes × List Bytes :=
  match a.poll c.poll with
  | (.error _, _) => ([], [])
  | (.ok (), a) =>
    match a.receiveControl c with
    | (.error _, _) => (a.controlMessages c, [])
    | (.ok _, _) => (a.controlMessages c, a.baseMessages c)

theorem receiveControl_ok {c : AvCall} {r : List Bytes × Nat} (hcontrol : a.control.isSome)
    (h : a.receiveControl c = (.ok r, a')) :
    controlsFit a.callId a.accepted (a.controlMessages c) = true ∧
      ∃ m, a' = { a with control := some m, accepted := a.accepted || !(a.controlMessages c).isEmpty } := by
  obtain ⟨m, hsome⟩ := Option.isSome_iff_exists.mp hcontrol
  obtain ⟨⟨answer, m'⟩, hreceive⟩ : ∃ x, m.receive c.control c.controlSegments c.wire c.peer = x := ⟨_, rfl⟩
  simp only [AvReceiver.receiveControl, hsome, hreceive] at h
  simp only [controlMessages, hsome, hreceive]
  cases answer with
  | error fault => cases h
  | ok batch =>
    simp only at h ⊢
    split at h
    · cases h
    next hcontrols =>
      cases h
      obtain ⟨hfit, rfl⟩ := controls_ok hcontrols
      exact ⟨hfit, _, rfl⟩

theorem receiveControl_error {c : AvCall} {e : AvFault} (hcontrol : a.control.isSome)
    (h : a.receiveControl c = (.error e, a')) (he : e.OfContent = true) :
    controlsFit a.callId a.accepted (a.controlMessages c) = false := by
  obtain ⟨m, hsome⟩ := Option.isSome_iff_exists.mp hcontrol
  obtain ⟨⟨answer, m'⟩, hreceive⟩ : ∃ x, m.receive c.control c.controlSegments c.wire c.peer = x := ⟨_, rfl⟩
  simp only [AvReceiver.receiveControl, hsome, hreceive] at h
  simp only [controlMessages, hsome, hreceive]
  cases answer with
  | error fault =>
    cases h
    cases he
  | ok batch =>
    simp only at h ⊢
    split at h
    next hcontrols =>
      cases h
      have hfit := controls_error hcontrols
      exact hfit
    · cases h

theorem transport_error {l l' : ReceiveLifecycle} {clock : LifecycleClock} {wire : Bytes} {peer : Peer} {e : AvFault}
    (h : l.receive clock wire peer = (.error e, l')) : e.OfContent = false := by
  simp only [ReceiveLifecycle.receive] at h
  split at h
  next hpoll =>
    cases h
    rcases ReceiveLifecycle.poll_cases hpoll with ⟨hok, -⟩ | ⟨e, he, hkind⟩
    · cases hok
    · cases he; exact hkind
  next =>
    split at h
    · cases h; rfl
    · cases h

@[simp] theorem mapIdx_snd {α β : Type} (f : Nat → α) (ms : List β) :
    (ms.mapIdx fun i m => (f i, m)).map Prod.snd = ms := by
  apply List.ext_getElem
  · simp
  · intro i h h'
    simp

/-! ## A call -/

/-- The state of a session that has not failed, after control messages `cs` and
base messages `ms`, having returned `records`. -/
structure Live (callId : Nat) (cookie : Bytes) (a : AvReceiver) (cs ms : List Bytes) (records : List V1Record) :
    Prop where
  control : a.control.isSome
  call_eq : a.callId = callId
  cookie_eq : a.cookie = cookie
  fit : controlsFit callId false cs = true
  accepted : a.accepted = !cs.isEmpty
  read : a.accepted = true → a.pending.messages = [] ∧ readAll callId cookie {} ms = some (records, a.base)
  wait : a.accepted = false → a.pending.messages = ms ∧ queueFits callId true ms = true ∧ records = [] ∧
    a.base = {} ∧ a.Queue

/-- An accepted session in the middle of a call: the base messages `ms` were all
read but for those in the queue. -/
structure Opened (callId : Nat) (cookie : Bytes) (a : AvReceiver) (ms : List Bytes) (records : List V1Record) :
    Prop where
  control : a.control.isSome
  call_eq : a.callId = callId
  cookie_eq : a.cookie = cookie
  accepted : a.accepted = true
  read : ∃ old, ms = old ++ a.pending.messages ∧ readAll callId cookie {} old = some (records, a.base)

section Call

variable {callId : Nat} {cookie : Bytes} {cs ms : List Bytes} {records : List V1Record} {c : AvCall}

theorem Opened.messages_ok {ns : List (MessageClock × Bytes)} {more : List V1Record}
    (hopen : Opened callId cookie a ms records) (hnil : a.pending.messages = [])
    (h : a.messages ns = (.ok more, a')) :
    Opened callId cookie a' (ms ++ ns.map Prod.snd) (records ++ more) ∧ a'.pending.messages = [] := by
  obtain ⟨old, hms, hold⟩ := hopen.read
  rw [hnil, List.append_nil] at hms
  subst hms
  obtain ⟨hread, hkeeps⟩ := messages_read hopen.control hopen.accepted h
  rw [hopen.call_eq, hopen.cookie_eq] at hread
  have hnil' : a'.pending.messages = [] := by rw [hkeeps.pending, hnil]
  refine ⟨⟨by rw [hkeeps.control]; exact hopen.control, hkeeps.callId.trans hopen.call_eq,
    hkeeps.cookie.trans hopen.cookie_eq, hkeeps.accepted.trans hopen.accepted, _, by rw [hnil', List.append_nil], ?_⟩,
    hnil'⟩
  rw [readAll_append, hold, Option.bind_some, hread]
  rfl

theorem Opened.messages_error {ns : List (MessageClock × Bytes)} {e : AvFault}
    (hopen : Opened callId cookie a ms records) (hnil : a.pending.messages = [])
    (h : a.messages ns = (.error e, a')) (he : e.OfContent = true) :
    readAll callId cookie {} (ms ++ ns.map Prod.snd) = none := by
  obtain ⟨old, hms, hold⟩ := hopen.read
  rw [hnil, List.append_nil] at hms
  subst hms
  have hread := messages_refused hopen.control hopen.accepted h he
  rw [hopen.call_eq, hopen.cookie_eq] at hread
  rw [readAll_append, hold, Option.bind_some, hread]
  rfl

/-- The queue of an accepted session is taken, and its messages are read. -/
theorem Opened.pending_cases {r : Except AvFault (List V1Record)} (hopen : Opened callId cookie a ms records)
    (h : a.receivePending c = (r, a')) :
    r = .error .pendingDeadline ∨
      ∃ (fresh : AvReceiver) (old : List Bytes) (queued : List (MessageClock × Bytes)),
        Opened callId cookie fresh old records ∧ fresh.pending.messages = [] ∧ ms = old ++ queued.map Prod.snd ∧
          fresh.messages queued = (r, a') := by
  obtain ⟨old, hms, hold⟩ := hopen.read
  simp only [AvReceiver.receivePending, hopen.accepted, if_true] at h
  split at h
  next htake =>
    cases h
    rcases PendingAv.take_cases htake with ⟨hmessages, -⟩ | he
    · cases hmessages
    · cases he; exact .inl rfl
  next pending htake =>
    rcases PendingAv.take_cases htake with ⟨hmessages, rfl⟩ | he
    · cases hmessages
      exact .inr ⟨{ a with pending := {}, accepted := true }, old, _,
        ⟨hopen.control, hopen.call_eq, hopen.cookie_eq, rfl, old, (List.append_nil old).symm, hold⟩, rfl,
        by rw [mapIdx_snd, ← hms], h⟩
    · cases he

/-- ACCEPT is known: what was read is read, what was queued still is. -/
theorem Live.opened (hlive : Live callId cookie a cs ms records) {m : MediaReceiver} {l : ReceiveLifecycle}
    {accepted : Bool} (haccepted : accepted = true) :
    Opened callId cookie { a with control := some m, accepted := accepted, transport := l } ms records := by
  refine ⟨rfl, hlive.call_eq, hlive.cookie_eq, haccepted, ?_⟩
  cases hbefore : a.accepted with
  | true =>
    obtain ⟨hnil, hread⟩ := hlive.read hbefore
    exact ⟨ms, by rw [hnil, List.append_nil], hread⟩
  | false =>
    obtain ⟨hms, -, hrecords, hbase, -⟩ := hlive.wait hbefore
    refine ⟨[], by rw [hms, List.nil_append], ?_⟩
    have hfresh : AvReceiver.base { a with control := some m, accepted := accepted, transport := l } = {} := hbase
    rw [hfresh, hrecords]
    rfl

theorem Live.accepts (hlive : Live callId cookie a cs ms records) (ns : List Bytes) :
    (a.accepted || !ns.isEmpty) = !(cs ++ ns).isEmpty := by
  rw [hlive.accepted]
  cases cs <;> cases ns <;> rfl

theorem Live.fits_controls (hlive : Live callId cookie a cs ms records) (ns : List Bytes) :
    controlsFit callId false (cs ++ ns) = controlsFit callId a.accepted ns := by
  rw [controlsFit_append, hlive.fit, hlive.accepted, Bool.true_and, Bool.false_or]

/-- **A call that does not fail** takes the messages it was delivered. -/
theorem Live.handle_ok {batch : AvReceiveBatch} (hlive : Live callId cookie a cs ms records)
    (h : a.handle c = (.ok batch, a')) :
    Live callId cookie a' (cs ++ (a.delivered c).1) (ms ++ (a.delivered c).2) (records ++ batch.records) := by
  simp only [AvReceiver.handle] at h
  split at h
  · cases h
  next a₀ hpoll =>
  rcases AvReceiver.poll_cases hpoll with ⟨-, rfl⟩ | ⟨e, he, -⟩
  swap
  · cases he
  split at h
  · cases h
  next acknowledgements unhandled a₁ hcontrols =>
  split at h
  · cases h
  next arrived transport htransport =>
  obtain ⟨hfit, m, rfl⟩ := receiveControl_ok hlive.control hcontrols
  have hbatch : a₀.baseMessages c = arrived.messages := by simp only [baseMessages, htransport]
  have hdelivered : a₀.delivered c = (a₀.controlMessages c, arrived.messages) := by
    simp only [delivered, hpoll, hcontrols, hbatch]
  rw [hdelivered]
  rw [hlive.call_eq] at hfit
  have hfits : controlsFit callId false (cs ++ a₀.controlMessages c) = true := by
    rw [hlive.fits_controls, hfit]
  have haccepts := hlive.accepts (a₀.controlMessages c)
  split at h
  · cases h
  next queued a₂ hpending =>
  split at h
  · cases h
  next more a₃ hmessages =>
  cases h
  cases haccepted : a₀.accepted || !(a₀.controlMessages c).isEmpty with
  | true =>
    have hopen := hlive.opened (m := m) (l := transport) haccepted
    rcases hopen.pending_cases hpending with he | ⟨fresh, old, held, hfresh, hnil, rfl, hheld⟩
    · cases he
    obtain ⟨hopen₂, hnil₂⟩ := hfresh.messages_ok hnil hheld
    obtain ⟨hopen₃, hnil₃⟩ := hopen₂.messages_ok hnil₂ hmessages
    obtain ⟨whole, hwhole, hread⟩ := hopen₃.read
    rw [hnil₃, List.append_nil, mapIdx_snd] at hwhole
    rw [haccepted] at haccepts
    refine ⟨hopen₃.control, hopen₃.call_eq, hopen₃.cookie_eq, hfits, hopen₃.accepted.trans haccepts, fun _ => ?_,
      fun hnot => absurd (hopen₃.accepted.symm.trans hnot) (by decide)⟩
    rw [hwhole, ← List.append_assoc]
    exact ⟨hnil₃, hread⟩
  | false =>
    obtain ⟨hbefore, hnone⟩ := Bool.or_eq_false_iff.mp haccepted
    obtain ⟨hms, hqueue, hrecords, hbase, hcount⟩ := hlive.wait hbefore
    simp only [AvReceiver.receivePending, haccepted, Bool.false_eq_true, if_false] at hpending
    cases hpending
    have hcount' : AvReceiver.Queue { a₀ with control := some m, accepted := false, transport := transport } := hcount
    obtain ⟨rfl, hmore, hwaits⟩ := messages_queued rfl rfl hcount' hmessages
    rw [mapIdx_snd] at hmore hwaits
    rw [haccepted] at haccepts
    refine ⟨by rw [hwaits.control]; rfl, hwaits.callId.trans hlive.call_eq, hwaits.cookie.trans hlive.cookie_eq, hfits,
      hwaits.accepted.trans haccepts, fun hyes => ?_, fun _ => ⟨?_, ?_, ?_, hwaits.base.trans hbase, hwaits.queue⟩⟩
    · exact absurd (hwaits.accepted.symm.trans hyes) Bool.false_ne_true
    · rw [hwaits.messages]
      exact congrArg (· ++ arrived.messages) hms
    · rw [queueFits_append, hqueue, Bool.true_and, Bool.true_and, ← hms, ← hlive.call_eq]
      exact hmore
    · rw [hrecords]
      rfl

/-- **A call that fails for what it was delivered** got messages no session
takes. -/
theorem Live.handle_error {e : AvFault} (hlive : Live callId cookie a cs ms records)
    (h : a.handle c = (.error e, a')) (he : e.OfContent = true) :
    ¬ Fits callId cookie (cs ++ (a.delivered c).1) (ms ++ (a.delivered c).2) := by
  simp only [AvReceiver.handle] at h
  split at h
  next a₀ hpoll =>
    cases h
    rcases AvReceiver.poll_cases hpoll with ⟨hok, -⟩ | ⟨e, hfault, hnot⟩
    · cases hok
    · cases hfault
      rw [hnot] at he
      cases he
  next a₀ hpoll =>
  rcases AvReceiver.poll_cases hpoll with ⟨-, rfl⟩ | ⟨e, hfault, -⟩
  swap
  · cases hfault
  rintro ⟨hfits, hbase⟩
  split at h
  next hcontrols =>
    cases h
    have hdelivered : (a₀.delivered c).1 = a₀.controlMessages c := by simp only [delivered, hpoll, hcontrols]
    have hunfit := receiveControl_error hlive.control hcontrols he
    rw [hdelivered, hlive.fits_controls, ← hlive.call_eq, hunfit] at hfits
    cases hfits
  next acknowledgements unhandled a₁ hcontrols =>
  obtain ⟨hfit, m, rfl⟩ := receiveControl_ok hlive.control hcontrols
  split at h
  next htransport =>
    cases h
    rw [transport_error htransport] at he
    cases he
  next arrived transport htransport =>
  have hbatch : a₀.baseMessages c = arrived.messages := by simp only [baseMessages, htransport]
  have hdelivered : a₀.delivered c = (a₀.controlMessages c, arrived.messages) := by
    simp only [delivered, hpoll, hcontrols, hbatch]
  rw [hdelivered] at hbase
  simp only at hbase
  have haccepts := hlive.accepts (a₀.controlMessages c)
  cases haccepted : a₀.accepted || !(a₀.controlMessages c).isEmpty with
  | true =>
    have hne : ¬ (cs ++ a₀.controlMessages c = []) := by
      rw [haccepted] at haccepts
      intro hnil
      rw [hnil] at haccepts
      cases haccepts
    rw [if_neg hne] at hbase
    have hopen := hlive.opened (m := m) (l := transport) haccepted
    split at h
    next hpending =>
      cases h
      rcases hopen.pending_cases hpending with hfault | ⟨fresh, old, held, hfresh, hnil, rfl, hheld⟩
      · cases hfault; cases he
      · rw [readAll_append, hfresh.messages_error hnil hheld he] at hbase
        cases hbase
    next queued a₂ hpending =>
      rcases hopen.pending_cases hpending with hfault | ⟨fresh, old, held, hfresh, hnil, rfl, hheld⟩
      · cases hfault
      obtain ⟨hopen₂, hnil₂⟩ := hfresh.messages_ok hnil hheld
      split at h
      next hmessages =>
        cases h
        have hunread := hopen₂.messages_error hnil₂ hmessages he
        rw [mapIdx_snd] at hunread
        rw [hunread] at hbase
        cases hbase
      · cases h
  | false =>
    have hnil : cs ++ a₀.controlMessages c = [] := by
      rw [haccepted] at haccepts
      simpa using haccepts.symm
    rw [if_pos hnil] at hbase
    obtain ⟨hbefore, hnone⟩ := Bool.or_eq_false_iff.mp haccepted
    obtain ⟨hms, hqueue, hrecords, -, hcount⟩ := hlive.wait hbefore
    simp only [AvReceiver.receivePending, haccepted, Bool.false_eq_true, if_false] at h
    split at h
    next hmessages =>
      cases h
      have hcount' : AvReceiver.Queue { a₀ with control := some m, accepted := false, transport := transport } := hcount
      have hunfit := messages_unfit rfl rfl hcount' hmessages he
      rw [mapIdx_snd] at hunfit
      rw [queueFits_append, hqueue, Bool.true_and, Bool.true_and, ← hms, ← hlive.call_eq] at hbase
      exact absurd (hunfit.symm.trans hbase) (by decide)
    · cases h

end Call

/-! ## After a failure -/

/-- Nothing is left in a KCP receiver, and it takes nothing. -/
def KcpEmptied (k : KcpReceiver) : Prop :=
  k.closed = true ∧ k.pending = ∅ ∧ k.parts = [] ∧ k.bufferedBytes = 0

/-- Nothing is left in any buffer of a session. -/
structure Emptied (a : AvReceiver) : Prop where
  base : KcpEmptied a.transport.media.receiver
  control : ∀ m ∈ a.control, KcpEmptied m.receiver
  parser : a.parser.buffer = []
  pending : a.pending.messages = []
  bytes : a.bufferedBytes = 0

theorem emptied_close (a : AvReceiver) : Emptied a.close where
  base := ⟨rfl, rfl, rfl, rfl⟩
  control m hm := by
    rw [AvReceiver.close, Option.mem_def, Option.map_eq_some_iff] at hm
    obtain ⟨m, -, rfl⟩ := hm
    exact ⟨rfl, rfl, rfl, rfl⟩
  parser := rfl
  pending := rfl
  bytes := by
    cases hcontrol : a.control <;>
      simp [bufferedBytes, AvReceiver.close, ReceiveLifecycle.close, KcpReceiver.close, V1Receiver.close,
        PendingAv.clear, hcontrol]

theorem poll_emptied {clock : AvPollClock} {e : AvFault} (h : a.poll clock = (.error e, a')) : Emptied a' := by
  simp only [AvReceiver.poll] at h
  split at h
  · cases h; exact emptied_close _
  split at h
  · cases h; exact emptied_close _
  split at h
  · cases h
  split at h
  · cases h; exact emptied_close _
  · cases h

theorem receive_emptied {c : AvCall} {e : AvFault} (h : a.receive c = (.error e, a')) : Emptied a' := by
  simp only [AvReceiver.receive] at h
  split at h
  · cases h; exact emptied_close _
  · cases h

theorem Emptied.poll_fails (h : Emptied a) (clock : AvPollClock) :
    ∃ a', a.poll clock = (.error (.media (.kcp .closed)), a') := by
  simp [AvReceiver.poll, ReceiveLifecycle.poll, KcpReceiver.expire, h.base.1]

theorem Emptied.receive_fails (h : Emptied a) (c : AvCall) :
    ∃ a', a.receive c = (.error (.media (.kcp .closed)), a') := by
  obtain ⟨a', hpoll⟩ := h.poll_fails c.poll
  simp only [AvReceiver.receive, AvReceiver.handle, hpoll]
  exact ⟨_, rfl⟩

theorem Emptied.delivered_nil (h : Emptied a) (c : AvCall) : a.delivered c = ([], []) := by
  obtain ⟨a', hpoll⟩ := h.poll_fails c.poll
  simp only [delivered, hpoll]

end AvReceiver

/-! ## Sessions -/

inductive AvOp where
  | receive (c : AvCall)
  | poll (clock : AvPollClock)
  | close

/-- A session and its history: the messages each conversation delivered, the
records returned, and the first failure. -/
structure AvSession where
  receiver : AvReceiver
  controls : List Bytes := []
  messages : List Bytes := []
  records : List V1Record := []
  fault : Option AvFault := none

namespace AvSession

def step (s : AvSession) : AvOp → AvSession
  | .receive c =>
    let s' : AvSession := { s with
      controls := s.controls ++ (s.receiver.delivered c).1
      messages := s.messages ++ (s.receiver.delivered c).2 }
    match s.receiver.receive c with
    | (.error e, a) => { s' with receiver := a, fault := s.fault.or (some e) }
    | (.ok batch, a) => { s' with receiver := a, records := s.records ++ batch.records }
  | .poll clock =>
    match s.receiver.poll clock with
    | (.error e, a) => { s with receiver := a, fault := s.fault.or (some e) }
    | (.ok (), a) => { s with receiver := a }
  | .close => { s with receiver := s.receiver.close }

/-- The session after some calls on a new receiver. -/
def run (a : AvReceiver) (ops : List AvOp) : AvSession := ops.foldl step { receiver := a }

/-- What the history of a session says of the two sequences. -/
structure Told (callId : Nat) (cookie : Bytes) (s : AvSession) : Prop where
  read : ∃ old b, old <+: s.messages ∧ readAll callId cookie {} old = some (s.records, b)
  accepted : s.records ≠ [] → ∃ m ∈ s.controls, checkControl callId m 2 = true
  fine : s.fault = none → Fits callId cookie s.controls s.messages ∧
    (s.controls = [] → s.records = []) ∧
    (s.controls ≠ [] → ∃ b, readAll callId cookie {} s.messages = some (s.records, b))
  bad : ∀ e ∈ s.fault, e.OfContent = true → ¬ Fits callId cookie s.controls s.messages
  state : (s.fault = none ∧ Live callId cookie s.receiver s.controls s.messages s.records) ∨ Emptied s.receiver
  ended : s.fault ≠ none → Emptied s.receiver

variable {callId : Nat} {cookie : Bytes} {s : AvSession}

theorem told_of_live (hfault : s.fault = none)
    (hlive : Live callId cookie s.receiver s.controls s.messages s.records) : Told callId cookie s := by
  have haccept : s.receiver.accepted = true ↔ s.controls ≠ [] := by
    rw [hlive.accepted]
    simp
  refine ⟨?_, fun hne => ?_, fun _ => ⟨⟨hlive.fit, ?_⟩, fun hnil => ?_, fun hne => ?_⟩, ?_, .inl ⟨hfault, hlive⟩,
    fun h => absurd hfault h⟩
  · cases haccepted : s.receiver.accepted with
    | true => exact ⟨_, _, List.prefix_rfl, (hlive.read haccepted).2⟩
    | false => exact ⟨[], {}, List.nil_prefix, by rw [(hlive.wait haccepted).2.2.1]; rfl⟩
  · have haccepted : s.receiver.accepted = true := by
      by_contra hnot
      exact hne (hlive.wait (by simpa using hnot)).2.2.1
    have hfit := hlive.fit
    obtain ⟨m, rest, hcons⟩ := List.exists_cons_of_ne_nil (haccept.mp haccepted)
    rw [hcons] at hfit ⊢
    simp only [controlsFit, Bool.false_and, Bool.false_eq_true, if_false, Bool.and_eq_true] at hfit
    exact ⟨m, List.mem_cons_self, hfit.1⟩
  · split
    next hnil =>
      have haccepted : s.receiver.accepted = false := by rw [hlive.accepted, hnil]; rfl
      exact (hlive.wait haccepted).2.1
    next hne => rw [(hlive.read (haccept.mpr hne)).2]; rfl
  · have haccepted : s.receiver.accepted = false := by rw [hlive.accepted, hnil]; rfl
    exact (hlive.wait haccepted).2.2.1
  · exact ⟨_, (hlive.read (haccept.mpr hne)).2⟩
  · rw [hfault]
    intro e he
    cases he

/-- A failure keeps the history true: it is to blame on the messages only if no
session takes them. -/
theorem Told.fail {a : AvReceiver} {e : AvFault} (h : Told callId cookie s) (cs ms : List Bytes) (ha : Emptied a)
    (hbad : s.fault = none → e.OfContent = true → ¬ Fits callId cookie (s.controls ++ cs) (s.messages ++ ms)) :
    Told callId cookie { s with
      receiver := a
      controls := s.controls ++ cs
      messages := s.messages ++ ms
      fault := s.fault.or (some e) } := by
  obtain ⟨old, b, hold, hread⟩ := h.read
  refine ⟨⟨old, b, hold.trans (List.prefix_append _ _), hread⟩, fun hne => ?_, fun hnone => ?_, fun e' he' hcontent => ?_,
    .inr ha, fun _ => ha⟩
  · obtain ⟨m, hm, hcheck⟩ := h.accepted hne
    exact ⟨m, List.mem_append_left _ hm, hcheck⟩
  · cases hfault : s.fault <;> simp [hfault] at hnone
  · cases hfault : s.fault with
    | none =>
      simp only [hfault, Option.none_or, Option.mem_some_iff] at he'
      subst he'
      exact hbad hfault hcontent
    | some first =>
      simp only [hfault, Option.some_or, Option.mem_some_iff] at he'
      subst he'
      intro hfits
      exact h.bad first hfault hcontent (hfits.of_prefix (List.prefix_append _ _) (List.prefix_append _ _))

theorem Told.close (h : Told callId cookie s) : Told callId cookie { s with receiver := s.receiver.close } :=
  ⟨h.read, h.accepted, h.fine, h.bad, .inr (emptied_close _), fun _ => emptied_close _⟩

theorem Told.fail_now {a : AvReceiver} {e : AvFault} (h : Told callId cookie s) (ha : Emptied a)
    (he : e.OfContent = false) : Told callId cookie { s with receiver := a, fault := s.fault.or (some e) } := by
  have hfail := h.fail [] [] ha fun _ hcontent => absurd (he.symm.trans hcontent) Bool.false_ne_true
  simpa using hfail

/-- **One call keeps the history true.** -/
theorem Told.step (h : Told callId cookie s) (op : AvOp) : Told callId cookie (s.step op) := by
  cases op with
  | receive c =>
    simp only [AvSession.step]
    rcases h.state with ⟨hfault, hlive⟩ | hempty
    · cases hout : s.receiver.receive c with
      | mk r a =>
        cases r with
        | error e =>
          refine h.fail _ _ (receive_emptied hout) fun _ hcontent => ?_
          simp only [AvReceiver.receive] at hout
          split at hout
          next hhandle =>
            cases hout
            exact hlive.handle_error hhandle hcontent
          · cases hout
        | ok batch =>
          simp only [AvReceiver.receive] at hout
          split at hout
          · cases hout
          next hhandle =>
            cases hout
            exact told_of_live hfault (hlive.handle_ok hhandle)
    · obtain ⟨a, hfails⟩ := hempty.receive_fails c
      rw [hfails, hempty.delivered_nil]
      simp only [List.append_nil]
      exact h.fail_now (receive_emptied hfails) rfl
  | poll clock =>
    simp only [AvSession.step]
    rcases h.state with ⟨hfault, hlive⟩ | hempty
    · cases hout : s.receiver.poll clock with
      | mk r a =>
        rcases AvReceiver.poll_cases hout with ⟨rfl, rfl⟩ | ⟨e, rfl, hkind⟩
        · exact h
        · exact h.fail_now (poll_emptied hout) hkind
    · obtain ⟨a, hfails⟩ := hempty.poll_fails clock
      rw [hfails]
      exact h.fail_now (poll_emptied hfails) rfl
  | close => exact h.close

/-- A new receiver of a pair has taken nothing, and its base conversation is a link. -/
theorem live_new {peer : Peer} {conv control : Nat} {policy : MediaPolicy} {now : ℚ} {a : AvReceiver}
    (hnew : AvReceiver.new peer conv callId cookie (some control) policy now = .ok a) :
    Live callId cookie a [] [] [] ∧ conv ≤ 0xFFFFFF := by
  simp only [AvReceiver.new] at hnew
  split at hnew
  · cases hnew
  split at hnew
  · cases hnew
  split at hnew
  · cases hnew
  next hpaired =>
  split at hnew
  · split at hnew
    · cases hnew
      refine ⟨⟨rfl, rfl, rfl, rfl, rfl, fun h => absurd h Bool.false_ne_true,
        fun _ => ⟨rfl, rfl, rfl, rfl, ⟨fun _ => rfl, fun _ => rfl⟩⟩⟩, ?_⟩
      simp only [Option.any_some, decide_eq_true_eq, not_or, not_lt] at hpaired
      exact hpaired.2.1
    · cases hnew
  · cases hnew

/-- **Every run keeps it true.** -/
theorem told_run {peer : Peer} {conv control : Nat} {policy : MediaPolicy} {now : ℚ} {a : AvReceiver}
    (hnew : AvReceiver.new peer conv callId cookie (some control) policy now = .ok a) (ops : List AvOp) :
    Told callId cookie (run a ops) := by
  have hstart : Told callId cookie { receiver := a } := told_of_live rfl (live_new hnew).1
  have hrun : ∀ (ops : List AvOp) (s : AvSession), Told callId cookie s → Told callId cookie (ops.foldl AvSession.step s) := by
    intro ops
    induction ops with
    | nil => exact fun s hs => hs
    | cons op ops ih => exact fun s hs => ih _ (hs.step op)
  exact hrun ops _ hstart

/-- The session was one interleaving of the two sequences, up to its failure if
it failed; and that was no deadline, no budget and nothing below the messages. -/
def Takes (s : AvSession) (cs ms : List Bytes) : Prop :=
  s.controls <+: cs ∧ s.messages <+: ms ∧ (s.fault = none → s.controls = cs ∧ s.messages = ms) ∧
    ∀ e ∈ s.fault, e.OfContent = true

/-- A session that took both sequences to their end fits them. -/
theorem Told.fault_iff {cs ms : List Bytes} (h : Told callId cookie s) (htakes : s.Takes cs ms) :
    s.fault = none ↔ Fits callId cookie cs ms := by
  obtain ⟨hcs, hms, hwhole, hcontent⟩ := htakes
  constructor
  · intro hnone
    obtain ⟨rfl, rfl⟩ := hwhole hnone
    exact (h.fine hnone).1
  · intro hfits
    cases hfault : s.fault with
    | none => rfl
    | some e => exact absurd (hfits.of_prefix hcs hms) (h.bad e hfault (hcontent e hfault))

/-- Without a failure the records are those of the base sequence. -/
theorem Told.records_eq {t : AvSession} (h : Told callId cookie s) (h' : Told callId cookie t)
    (hfault : s.fault = none) (hfault' : t.fault = none) (hcs : s.controls = t.controls) (hms : s.messages = t.messages) :
    s.records = t.records := by
  obtain ⟨-, hnil, hcons⟩ := h.fine hfault
  obtain ⟨-, hnil', hcons'⟩ := h'.fine hfault'
  by_cases hempty : s.controls = []
  · rw [hnil hempty, hnil' (hcs ▸ hempty)]
  · obtain ⟨b, hread⟩ := hcons hempty
    obtain ⟨b', hread'⟩ := hcons' (hcs ▸ hempty)
    rw [hms, hread', Option.some.injEq, Prod.mk.injEq] at hread
    exact hread.1.symm

/-- **Two channels, one session.** In every run of a paired session, records
come only behind ACCEPT on control and START on the base conversation, audio and
video only behind an encoding header, and every header is the same; after a
failure every buffer is empty and every call fails. Two interleavings of the
same two sequences fail together, return the same records if they do not fail,
and records that agree as far as they go if they do. -/
theorem paired_channels {peer : Peer} {conv control callId : Nat} {cookie : Bytes} {policy : MediaPolicy} {now : ℚ}
    {a : AvReceiver} (hnew : AvReceiver.new peer conv callId cookie (some control) policy now = .ok a) :
    (∀ ops : List AvOp,
      ((run a ops).records ≠ [] → (∃ m ∈ (run a ops).controls, checkControl callId m 2 = true) ∧
        ∃ m ∈ (run a ops).messages, checkControl callId m 6 = true) ∧
      (∀ (pre : List V1Record) (r : V1Record) (post : List V1Record), (run a ops).records = pre ++ r :: post →
        r.encoding = none → ∃ q ∈ pre, q.encoding.isSome) ∧
      (∀ r ∈ (run a ops).records, ∀ q ∈ (run a ops).records, ∀ e ∈ r.encoding, ∀ f ∈ q.encoding, e = f) ∧
      ((run a ops).fault ≠ none → Emptied (run a ops).receiver ∧
        (∀ c : AvCall, ∃ e, ((run a ops).receiver.receive c).1 = .error e) ∧
        ∀ clock : AvPollClock, ∃ e, ((run a ops).receiver.poll clock).1 = .error e)) ∧
    ∀ (ops ops' : List AvOp) (cs ms : List Bytes), (run a ops).Takes cs ms → (run a ops').Takes cs ms →
      ((run a ops).fault = none ↔ (run a ops').fault = none) ∧
      ((run a ops).fault = none → (run a ops).records = (run a ops').records) ∧
      ((run a ops).records <+: (run a ops').records ∨ (run a ops').records <+: (run a ops).records) := by
  refine ⟨fun ops => ?_, fun ops ops' cs ms htakes htakes' => ?_⟩
  · have htold := told_run hnew ops
    obtain ⟨old, b, hold, hread⟩ := htold.read
    have hnote := noteEncodings_of_readAll hread
    refine ⟨fun hne => ⟨htold.accepted hne, ?_⟩, fun pre r post hsplit hr => ?_, fun r hr q hq e he f hf => ?_,
      fun hfault => ?_⟩
    · obtain ⟨m, hm, hcheck⟩ := start_of_readAll hread hne
      exact ⟨m, hold.subset hm, hcheck⟩
    · rw [hsplit] at hnote
      rcases headed_of_note hnote hr with hknown | hq
      · cases hknown
      · exact hq
    · obtain ⟨-, hall⟩ := encodings_of_note hnote
      have hsame := (hall r hr e he).symm.trans (hall q hq f hf)
      exact Option.some.inj hsame
    · have hempty := htold.ended hfault
      refine ⟨hempty, fun c => ?_, fun clock => ?_⟩
      · obtain ⟨a', hfails⟩ := hempty.receive_fails c
        exact ⟨_, by rw [hfails]⟩
      · obtain ⟨a', hfails⟩ := hempty.poll_fails clock
        exact ⟨_, by rw [hfails]⟩
  · have htold := told_run hnew ops
    have htold' := told_run hnew ops'
    have hiff : (run a ops).fault = none ↔ (run a ops').fault = none :=
      (htold.fault_iff htakes).trans (htold'.fault_iff htakes').symm
    refine ⟨hiff, fun hfault => ?_, ?_⟩
    · obtain ⟨hcs, hms⟩ := htakes.2.2.1 hfault
      obtain ⟨hcs', hms'⟩ := htakes'.2.2.1 (hiff.mp hfault)
      exact htold.records_eq htold' hfault (hiff.mp hfault) (hcs.trans hcs'.symm) (hms.trans hms'.symm)
    · obtain ⟨old, b, hold, hread⟩ := htold.read
      obtain ⟨old', b', hold', hread'⟩ := htold'.read
      exact records_comparable (hold.trans htakes.2.1) (hold'.trans htakes'.2.1) hread hread'

/-! ## Two interleavings of one exchange -/

/-- A datagram with one message, at time zero. -/
def datagram (conv sequence : Nat) (m : Bytes) : AvOp :=
  .receive {
    wire := match buildKcpPush conv sequence m 0 with
      | .ok wire => wire
      | .error _ => []
    peer := ("camera", 1)
    poll := ⟨⟨0, 0⟩, 0, 0⟩
    control := 0
    controlSegments := fun _ => ⟨0, 0, 0⟩
    transport := ⟨⟨0, 0⟩, 0, fun _ => ⟨0, 0, 0⟩, 0⟩
    take := 0
    queued := fun _ => ⟨0, 0, fun _ => ⟨0, 0⟩⟩
    messages := fun _ => ⟨0, 0, fun _ => ⟨0, 0⟩⟩ }

/-- A control message of call 7. -/
def controlMessage (action : Nat) : Bytes := [3, 0, 0x4c, 0] ++ Bytes.ofNat 4 7 ++ Bytes.ofNat 4 action ++ Bytes.zeros 64

/-- A media message; less than a block of it is in the clear. -/
def mediaMessage (body : Bytes) : Bytes := [4, 1] ++ Bytes.ofNat 2 (4 + body.length) ++ body

/-- START and an encoding header in four pieces. -/
def openingMessages : List Bytes :=
  [controlMessage 6, mediaMessage [0xff, 0xff, 0xff, 0x88, 0, 1, 0], mediaMessage [0, 0, 0, 0, 0, 0, 0],
    mediaMessage [0, 0, 0, 0, 0, 0, 0], mediaMessage [0, 0, 0, 0, 0, 0, 0]]

/-- They arrive after ACCEPT, or before it. -/
def acceptFirst (ms : List Bytes) : List AvOp :=
  datagram 0x80000001 0 (controlMessage 2) :: ms.mapIdx fun i m => datagram 1 i m

def acceptLast (ms : List Bytes) : List AvOp :=
  (ms.mapIdx fun i m => datagram 1 i m) ++ [datagram 0x80000001 0 (controlMessage 2)]

instance (s : AvSession) (cs ms : List Bytes) : Decidable (s.Takes cs ms) :=
  inferInstanceAs (Decidable (_ ∧ _ ∧ (_ → _) ∧ ∀ e ∈ s.fault, e.OfContent = true))

/-- Both orders of a good exchange return its encoding header. -/
theorem paired_channels_opening : ∃ a : AvReceiver,
    AvReceiver.new ("camera", 1) 1 7 (Bytes.zeros 8) (some 0x80000001) .finite 0 = .ok a ∧
      (run a (acceptFirst openingMessages)).records ≠ [] ∧
      (run a (acceptFirst openingMessages)).records = (run a (acceptLast openingMessages)).records := by
  have h : (match AvReceiver.new ("camera", 1) 1 7 (Bytes.zeros 8) (some 0x80000001) .finite 0 with
      | .ok a => decide ((run a (acceptFirst openingMessages)).Takes [controlMessage 2] openingMessages ∧
          (run a (acceptLast openingMessages)).Takes [controlMessage 2] openingMessages ∧
          (run a (acceptFirst openingMessages)).fault = none ∧ (run a (acceptFirst openingMessages)).records ≠ [])
      | .error _ => false) = true := by decide +kernel
  split at h
  next a hnew =>
    obtain ⟨hfirst, hlast, hfault, hne⟩ := of_decide_eq_true h
    exact ⟨a, hnew, hne, ((paired_channels hnew).2 _ _ _ _ hfirst hlast).2.1 hfault⟩
  next => cases h

/-- When what follows is no record, both orders fail, but only one of them has
returned the encoding header before. -/
theorem returned_records_differ : ∃ (a : AvReceiver) (ops ops' : List AvOp) (cs ms : List Bytes),
    AvReceiver.new ("camera", 1) 1 7 (Bytes.zeros 8) (some 0x80000001) .finite 0 = .ok a ∧
      (run a ops).Takes cs ms ∧ (run a ops').Takes cs ms ∧ (run a ops).records ≠ (run a ops').records := by
  have h : (match AvReceiver.new ("camera", 1) 1 7 (Bytes.zeros 8) (some 0x80000001) .finite 0 with
      | .ok a =>
        let ms := openingMessages ++ List.replicate 4 (mediaMessage (Bytes.zeros 7))
        decide ((run a (acceptFirst ms)).Takes [controlMessage 2] ms ∧ (run a (acceptLast ms)).Takes [controlMessage 2] ms ∧
          (run a (acceptFirst ms)).records ≠ (run a (acceptLast ms)).records)
      | .error _ => false) = true := by decide +kernel
  split at h
  next a hnew => exact ⟨a, _, _, _, _, hnew, of_decide_eq_true h⟩
  next => cases h

end AvSession

end CamGuard.Media
