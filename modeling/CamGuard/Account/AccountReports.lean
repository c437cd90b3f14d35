/-
What an account tells of its reads: every read that was accepted ends once, and its
ending is returned by some call, unless an exception has kept it from the caller
(`AccountActuators.Drops`).
-/
import CamGuard.Account.ActuatorsFacts
import CamGuard.Account.BrokerAccountFacts
import CamGuard.Account.PtzSchedulerFacts

namespace CamGuard.Account

open CamGuard.Crypto

/-! ## Conditions on the state before a call -/

/-- `_expire` retires the account: something is uncertain, its time is over, the heartbeat
is late, or it drains and nothing is left to wait for. -/
def BrokerAccount.expires (a : BrokerAccount) (jobs : AccountJobs) (now : ℚ) : Bool :=
  jobs.mediaUncertain || jobs.motionUnconfirmed || a.expired now ||
    a.heartbeat.pending.any (fun held => decide (held.2 ≤ now)) ||
    a.drainDeadline.any fun deadline => decide (deadline ≤ now) ||
      (!(a.reads.pending.values.any fun read => decide (now < read.deadline)) && a.heartbeat.pending.isNone &&
        !jobs.motionPending && !jobs.mediaPending)

/-- A frame of a receipt's length and header that announces an authentication or a time
stamp, for which it has no room: `modern_encrypted_data_len` raises. -/
def BrokerReads.chokesOn (b : BrokerReads) (source : BrokerSequences) (plain : Bytes) (generation : Nat) : Bool :=
  !b.closed && b.receipts.active source && generation == b.receipts.generation && plain.length == 32 &&
    (plain.at_ 0 == 0x7E || plain.at_ 0 == 0x7F) && plain.field 2 2 == 32 && plain.field 8 4 == b.receipts.session &&
    ((plain.field 4 0x14).testBit 22 || (plain.field 4 0x14).testBit 24)

/-- A frame that the account reads, and that a route or the receipts raise on. -/
def BrokerAccount.failsOn (a : BrokerAccount) (jobs : AccountJobs) (plain : Bytes) (peer : String × Nat)
    (generation : Nat) (now : ℚ) : Bool :=
  decide (plain.length ≤ 4096) && (a.input.charge now plain.length).1.isOk &&
    (a.node.any fun node => decide (peer = node.address)) && generation == a.generation &&
    (jobs.mediaFails || a.reads.chokesOn a.source plain generation)

/-- **The calls that drop endings**: a gesture asked for after an unconfirmed one while
reads wait, and a frame that fails after a read has timed out. -/
def AccountActuators.Drops (w : AccountActuators) (now : ℚ) : AccountCall → Prop
  | .preparePtz media _ _ _ => w.admitsPtz media now = true ∧ w.motionUnconfirmed = true ∧
      ∃ read, read ∈ w.account.reads.pending.values
  | .receive media plain peer generation => w.account.reason = none ∧ w.account.expires (w.jobs media) now = false ∧
      w.account.failsOn (w.jobs media) plain peer generation now = true ∧
      ∃ read ∈ w.account.reads.pending.values, read.deadline ≤ now
  | _ => False

/-! ## Endings -/

namespace BrokerReads

variable {b : BrokerReads}

theorem mem_values {p : PendingRead} : p ∈ b.pending.values ↔ ∃ s, b.pending.get? s = some p := by
  simp only [Dict.values, List.mem_map, Dict.get?_eq_some]
  constructor
  · rintro ⟨e, he, rfl⟩
    exact ⟨e.1, he⟩
  · rintro ⟨s, hs⟩
    exact ⟨(s, p), hs, rfl⟩

theorem finishAll_pending (status : ReadStatus) (ps : List PendingRead) (b : BrokerReads) (s : Nat) :
    (finishAll status ps b).2.pending.get? s =
      if s ∈ ps.map (fun p => p.request.ticket.sequence) then none else b.pending.get? s := by
  induction ps generalizing b with
  | nil => simp [finishAll]
  | cons p rest ih =>
    have hrest := ih (b.finish p status).2
    simp only [finish, Dict.get?_erase] at hrest
    simp only [finishAll, finish, List.map_cons, List.mem_cons]
    rw [hrest]
    by_cases hs : s = p.request.ticket.sequence <;> simp [hs]

/-- `poll` leaves the reads whose deadline is still to come. -/
theorem poll_pending (h : b.Tabled) (now : ℚ) (s : Nat) (p : PendingRead) :
    (b.poll fun _ => now).2.pending.get? s = some p ↔ b.pending.get? s = some p ∧ now < p.deadline := by
  have hpending := finishAll_pending .timeout (b.pending.values.filter fun p => decide (p.deadline ≤ now)) b s
  rw [show (b.poll fun _ => now).2.pending = (finishAll .timeout (b.pending.values.filter fun p => decide (p.deadline ≤ now)) b).2.pending
    from rfl, hpending]
  have hmem : b.pending.get? s = some p →
      (s ∈ (b.pending.values.filter fun p => decide (p.deadline ≤ now)).map (fun p => p.request.ticket.sequence) ↔
        p.deadline ≤ now) := by
    intro hp
    constructor
    · intro hs
      obtain ⟨q, hq, hseq⟩ := List.mem_map.mp hs
      obtain ⟨hvalue, hlate⟩ := List.mem_filter.mp hq
      have hget := h.values.1 q hvalue
      rw [hseq, hp] at hget
      cases hget
      exact of_decide_eq_true hlate
    · intro hlate
      exact List.mem_map.mpr ⟨p, List.mem_filter.mpr ⟨mem_values.mpr ⟨s, hp⟩, decide_eq_true hlate⟩, h.sequence s p hp⟩
  constructor
  · intro hsome
    split at hsome
    · cases hsome
    next hs => exact ⟨hsome, not_le.mp fun hlate => hs ((hmem hsome).mpr hlate)⟩
  · rintro ⟨hp, hlater⟩
    rw [if_neg (fun hs => absurd ((hmem hp).mp hs) (not_le.mpr hlater)), hp]

theorem size_eq_zero {d : Dict Nat PendingRead} : d.size = 0 ↔ ∀ s, d.get? s = none := by
  constructor
  · intro hsize s
    rw [Dict.get?_eq_none, Dict.keys, List.length_eq_zero_iff.mp hsize]
    simp
  · intro hnone
    by_contra hsize
    obtain ⟨e, he⟩ := List.exists_mem_of_length_pos (Nat.pos_of_ne_zero hsize)
    have hget : d.get? e.1 = some e.2 := Dict.get?_eq_some.mpr he
    rw [hnone] at hget
    cases hget

end BrokerReads

namespace BrokerAccount

variable {a a' a'' : BrokerAccount} {cs cs' : List ReadCompletion}

/-- What a call does to an account: the reads of `cs` end, and all that wait when it
retires. -/
structure Closes (a a' : BrokerAccount) (cs : List ReadCompletion) : Prop where
  ends : BrokerReads.Ends a.reads a'.reads cs
  next : a.source.next ≤ a'.source.next
  on : a'.reason = none → a.reason = none ∧ a'.node = a.node
  gone : a'.reason ≠ none → (a.reason ≠ none ∧ a'.node = a.node) ∨
    (a'.node = none ∧ ∀ s, a'.reads.pending.get? s = none)

theorem Closes.refl (h : a.reads.Tabled) : Closes a a [] :=
  ⟨.refl h, le_refl _, fun hnone => ⟨hnone, rfl⟩, fun hsome => .inl ⟨hsome, rfl⟩⟩

theorem Closes.trans (h : Closes a a' cs) (h' : Closes a' a'' cs') : Closes a a'' (cs ++ cs') where
  ends := h.ends.trans h'.ends
  next := le_trans h.next h'.next
  on := by
    intro hnone
    obtain ⟨hnone', hnode'⟩ := h'.on hnone
    obtain ⟨hfirst, hnode⟩ := h.on hnone'
    exact ⟨hfirst, hnode'.trans hnode⟩
  gone := by
    intro hsome
    rcases h'.gone hsome with ⟨hsome', hnode'⟩ | hempty
    · rcases h.gone hsome' with ⟨hsome, hnode⟩ | ⟨hnode, hempty⟩
      · exact .inl ⟨hsome, hnode'.trans hnode⟩
      · refine .inr ⟨hnode'.trans hnode, fun s => ?_⟩
        cases hs : a''.reads.pending.get? s with
        | none => rfl
        | some p'' =>
          obtain ⟨p', hp', -⟩ := h'.ends.kept s p'' hs
          rw [hempty s] at hp'
          cases hp'
    · exact .inr hempty

theorem Closes.same (h : a.reads.Tabled) (hreads : a'.reads = a.reads) (hnext : a.source.next ≤ a'.source.next)
    (hreason : a'.reason = a.reason) (hnode : a'.node = a.node) : Closes a a' [] where
  ends := by
    rw [hreads]
    exact .refl h
  next := hnext
  on := fun hnone => ⟨hreason ▸ hnone, hnode⟩
  gone := fun hsome => .inl ⟨hreason ▸ hsome, hnode⟩

theorem retire_closes (h : a.reads.Tabled) (reason : Retirement) :
    Closes a (a.retire reason).2 (a.retire reason).1.reads := by
  have hends := retire_ends h reason
  cases hreason : a.reason with
  | some old =>
    have heq : a.retire reason = ({ retired := some old }, a) := by
      unfold retire
      rw [hreason]
    rw [heq]
    exact .refl h
  | none =>
    have hempty := retire_empty h hreason reason
    unfold retire at hends hempty ⊢
    simp only [hreason] at hends hempty ⊢
    exact ⟨hends, le_refl _, fun hnone => (by cases hnone), fun _ => .inr ⟨rfl, hempty⟩⟩

theorem retireWith_closes (h : Closes a a' cs) (reason : Retirement) :
    Closes a (a'.retireWith cs reason).2 (a'.retireWith cs reason).1.reads :=
  h.trans (retire_closes h.ends.tabled reason)

theorem expire_closes (h : a.reads.Tabled) (jobs : AccountJobs) (now : ℚ) :
    Closes a (a.expire jobs now).2 (a.expire jobs now).1.reads := by
  have hpoll : ∀ heartbeat, Closes a { a with reads := (a.reads.poll fun _ => now).2, heartbeat := heartbeat } (a.reads.poll fun _ => now).1 :=
    fun heartbeat => ⟨(BrokerReads.poll_ends h fun _ => now).1, le_refl _, fun hnone => ⟨hnone, rfl⟩, fun hsome => .inl ⟨hsome, rfl⟩⟩
  unfold expire
  split
  · exact .refl h
  split
  · exact retire_closes h .transport
  split
  · exact retire_closes h .lifetime
  simp only
  split
  · next late heartbeat _ => exact retireWith_closes (hpoll heartbeat) .heartbeatTimeout
  next heartbeat _ =>
  split
  · exact hpoll heartbeat
  split
  · exact retireWith_closes (hpoll heartbeat) _
  · exact hpoll heartbeat

theorem heartbeat_prepare_next (b : BrokerHeartbeat) (source : BrokerSequences) (node : CertifiedNode)
    (address : LocalAddress) (noise : Nat) (now : ℚ) : source.next ≤ (b.prepare source node address noise now).2.2.next := by
  have hallocate : source.next ≤ source.allocate.2.next := by
    have hreserve := reserve_next source 1
    unfold BrokerSequences.allocate
    split <;> next heq => rwa [heq] at hreserve
  unfold BrokerHeartbeat.prepare
  split
  · exact le_refl _
  split
  · exact le_refl _
  split
  · exact le_refl _
  split
  · next heq => rwa [heq] at hallocate
  next heq =>
  rw [heq] at hallocate
  split <;> exact hallocate

theorem tick_closes (h : a.reads.Tabled) (jobs : AccountJobs) (noise : Nat) (now : ℚ) :
    Closes a (a.tick jobs noise now).2 (a.tick jobs noise now).1.reads := by
  have hexpire := expire_closes h jobs now
  unfold tick
  simp only
  split
  · next node _ hnode =>
    split
    · exact hexpire
    have hnext := heartbeat_prepare_next (a.expire jobs now).2.heartbeat (a.expire jobs now).2.source node
      (a.expire jobs now).2.address noise now
    have hprepare : ∀ heartbeat source, (a.expire jobs now).2.source.next ≤ source.next →
        Closes a { (a.expire jobs now).2 with heartbeat := heartbeat, source := source } (a.expire jobs now).1.reads := by
      intro heartbeat source hle
      have hsame : Closes (a.expire jobs now).2 { (a.expire jobs now).2 with heartbeat := heartbeat, source := source } [] :=
        .same hexpire.ends.tabled rfl hle rfl rfl
      exact List.append_nil (a.expire jobs now).1.reads ▸ hexpire.trans hsame
    split
    · next e heartbeat source heq =>
      rw [heq] at hnext
      exact retireWith_closes (hprepare heartbeat source hnext) .prepare
    · next wire heartbeat source heq =>
      rw [heq] at hnext
      exact hprepare heartbeat source hnext
  · exact hexpire

theorem drain_closes (h : a.reads.Tabled) (jobs : AccountJobs) (now : ℚ) :
    Closes a (a.drain jobs now).2 (a.drain jobs now).1.reads := by
  unfold drain
  split
  · have hexpire := expire_closes (a := { a with drainDeadline := some (now + 2) }) h jobs now
    exact ⟨hexpire.ends, hexpire.next, hexpire.on, hexpire.gone⟩
  · exact expire_closes h jobs now

/-! ## Frames that fail -/

/-- For a frame of a receipt's length, the checksum cannot be formed when its flags
announce a part that it has no room for. -/
theorem checksum_fails {plain : Bytes} (hlength : plain.length = 32) (hfield : plain.field 2 2 = 32) :
    (∃ e, guteMode1XorChecksum plain = .error e) ↔
      ((plain.field 4 0x14).testBit 22 || (plain.field 4 0x14).testBit 24) = true := by
  unfold guteMode1XorChecksum modernEncryptedDataLen
  simp only [hlength, hfield]
  cases (plain.field 4 0x14).testBit 22 <;> cases (plain.field 4 0x14).testBit 24 <;> simp

theorem accept_fails {b : BrokerReads} (loads : Loads) (source : BrokerSequences) (plain : Bytes) (generation : Nat)
    (now : ℚ) : (∃ e, (b.accept loads source plain generation fun _ => now).1 = .error e) ↔
      b.chokesOn source plain generation = true := by
  unfold BrokerReads.accept
  by_cases hopen : b.closed ∨ b.receipts.active source = false
  · rw [if_pos hopen]
    rcases hopen with hopen | hopen <;> simp [BrokerReads.chokesOn, hopen]
  rw [if_neg hopen]
  simp only [not_or, Bool.not_eq_true, Bool.not_eq_false] at hopen
  have hreceipt : (∃ e, (b.receipts.accept source plain generation now).1 = .error e) ↔
      b.chokesOn source plain generation = true := by
    unfold BrokerTransactions.accept
    split
    · next hother =>
      simp only [hopen.2, false_or, Bool.true_eq_false] at hother
      simp only [BrokerReads.chokesOn, hopen.1, hopen.2, Bool.and_eq_true, Bool.or_eq_true, beq_iff_eq]
      grind
    next hheader =>
    simp only [not_or, not_not, not_and_or] at hheader
    obtain ⟨-, hgeneration, hlength, hlead, hfield, hsession⟩ := hheader
    have hchecksum := checksum_fails hlength hfield
    have hchokes : b.chokesOn source plain generation =
        ((plain.field 4 0x14).testBit 22 || (plain.field 4 0x14).testBit 24) := by
      rcases hlead with hlead | hlead <;>
        simp [BrokerReads.chokesOn, hopen.1, hopen.2, hgeneration, hlength, hlead, hfield, hsession]
    rw [hchokes, ← hchecksum]
    split
    · next e he => simp [he]
    next checksum hok =>
    simp only [hok, reduceCtorEq, exists_false, iff_false, not_exists]
    intro e
    split
    · simp
    split
    · simp
    split <;> simp
  rw [← hreceipt]
  split
  · next heq => simp [heq]
  · next heq =>
    simp only [heq, reduceCtorEq, exists_false, iff_false, not_exists]
    intro e
    split
    · simp
    split
    · simp
    split <;> simp
  · next heq =>
    simp only [heq, reduceCtorEq, exists_false, iff_false, not_exists]
    intro e
    split <;> simp

/-- Nothing of the reads is left to wait for after a `poll`. -/
theorem poll_empty (h : a.reads.Tabled) (now : ℚ) :
    ((a.reads.poll fun _ => now).2.pending.size == 0) = !(a.reads.pending.values.any fun read => decide (now < read.deadline)) := by
  rw [Bool.eq_iff_iff, beq_iff_eq, BrokerReads.size_eq_zero, Bool.not_eq_true', List.any_eq_false]
  constructor
  · intro hnone read hread hlater
    obtain ⟨s, hs⟩ := BrokerReads.mem_values.mp hread
    have hget := (BrokerReads.poll_pending h now s read).mpr ⟨hs, of_decide_eq_true hlater⟩
    rw [hnone s] at hget
    cases hget
  · intro hnone s
    cases hs : (a.reads.poll fun _ => now).2.pending.get? s with
    | none => rfl
    | some read =>
      obtain ⟨hread, hlater⟩ := (BrokerReads.poll_pending h now s read).mp hs
      exact absurd (decide_eq_true hlater) (hnone read (BrokerReads.mem_values.mpr ⟨s, hread⟩))

theorem heartbeat_poll_none {b : BrokerHeartbeat} {now : ℚ} (h : b.pending.any (fun held => decide (held.2 ≤ now)) = false) :
    b.poll now = (none, b) := by
  unfold BrokerHeartbeat.poll
  split
  · rfl
  next ticket deadline hpending =>
  rw [hpending, Option.any_some, decide_eq_false_iff_not, not_le] at h
  rw [if_pos h]

theorem heartbeat_poll_some {b : BrokerHeartbeat} {now : ℚ} (h : b.pending.any (fun held => decide (held.2 ≤ now)) = true) :
    ∃ late heartbeat, b.poll now = (some late, heartbeat) := by
  unfold BrokerHeartbeat.poll
  split
  · next hpending => simp [hpending] at h
  next ticket deadline hpending =>
  rw [hpending, Option.any_some, decide_eq_true_eq] at h
  rw [if_neg (not_lt.mpr h)]
  exact ⟨_, _, rfl⟩

/-- An account that does not expire goes on, without the reads that are late. -/
theorem expire_on (h : a.reads.Tabled) {jobs : AccountJobs} {now : ℚ} (hreason : a.reason = none)
    (hexpires : a.expires jobs now = false) :
    a.expire jobs now = ({ reads := (a.reads.poll fun _ => now).1 }, { a with reads := (a.reads.poll fun _ => now).2 }) := by
  simp only [expires, Bool.or_eq_false_iff] at hexpires
  obtain ⟨⟨⟨⟨hmedia, hmotion⟩, hexpired⟩, hheartbeat⟩, hdrain⟩ := hexpires
  have hempty := poll_empty h now
  unfold expire
  simp only [hreason, hmedia, hmotion, hexpired, heartbeat_poll_none hheartbeat]
  rw [if_neg (by simp), if_neg (by simp)]
  split
  · rfl
  next deadline hdeadline =>
  rw [hdeadline, Option.any_some, Bool.or_eq_false_iff, decide_eq_false_iff_not] at hdrain
  rw [hempty, if_neg (by simp [hdrain.1, hdrain.2])]

theorem retire_over (a : BrokerAccount) (reason : Retirement) : (a.retire reason).2.reason ≠ none := by
  unfold retire
  split
  · next hreason => simp [hreason]
  · simp

theorem expire_over (h : a.reads.Tabled) {jobs : AccountJobs} {now : ℚ} (hexpires : a.expires jobs now = true) :
    (a.expire jobs now).2.reason ≠ none := by
  have hempty := poll_empty h now
  unfold expire
  split
  · next hreason => simp [hreason]
  split
  · exact retire_over a .transport
  next hjobs =>
  split
  · exact retire_over a .lifetime
  next hexpired =>
  simp only
  split
  · exact retire_over _ .heartbeatTimeout
  next heartbeat hpoll =>
  have hheartbeat : a.heartbeat.pending.any (fun held => decide (held.2 ≤ now)) = false := by
    by_contra hlate
    obtain ⟨late, heartbeat', heq⟩ := heartbeat_poll_some (Bool.not_eq_false _ ▸ hlate)
    rw [hpoll] at heq
    cases heq
  rw [heartbeat_poll_none hheartbeat] at hpoll
  cases hpoll
  simp only [not_or, Bool.not_eq_true] at hjobs hexpired
  simp only [expires, hjobs.1, hjobs.2, hexpired, hheartbeat, Bool.false_or] at hexpires
  split
  · next hdrain => simp [hdrain] at hexpires
  next deadline hdrain =>
  rw [hdrain, Option.any_some, Bool.or_eq_true, decide_eq_true_eq] at hexpires
  rw [if_pos]
  · exact retire_over _ _
  · rw [hempty]
    exact hexpires.symm

/-- A frame that `receive` gets to read, and raises on. -/
def Fails (a : BrokerAccount) (jobs : AccountJobs) (plain : Bytes) (peer : String × Nat) (generation : Nat) (now : ℚ) :
    Prop :=
  a.reason = none ∧ a.expires jobs now = false ∧ a.failsOn jobs plain peer generation now = true

/-- An account that is over does not read the frame. -/
theorem receive_over (loads : Loads) {jobs : AccountJobs} {plain : Bytes} {peer : String × Nat} {generation : Nat} {now : ℚ}
    (hnode : (a.expire jobs now).2.node = none) :
    a.receive loads jobs plain peer generation now = (.ok (a.expire jobs now).1, (a.expire jobs now).2) := by
  unfold receive
  simp only [hnode]

theorem chokesOn_poll (b : BrokerReads) (source : BrokerSequences) (plain : Bytes) (generation : Nat) (now : ℚ) :
    (b.poll fun _ => now).2.chokesOn source plain generation = b.chokesOn source plain generation := by
  have hidentity := BrokerReads.poll_identity b fun _ => now
  simp only [BrokerReads.identity, Prod.mk.injEq] at hidentity
  obtain ⟨-, hclosed, hsession, hgeneration, hreceipts⟩ := hidentity
  simp only [BrokerReads.chokesOn, BrokerTransactions.active, hclosed, hsession, hgeneration, hreceipts]

/-- **A frame**: what it ends is returned, unless the call raises. -/
theorem receive_closes (loads : Loads) (h : a.reads.Tabled) (hnode : a.reason ≠ none → a.node = none) (jobs : AccountJobs)
    (plain : Bytes) (peer : String × Nat) (generation : Nat) (now : ℚ) :
    (∃ events a', a.receive loads jobs plain peer generation now = (.ok events, a') ∧ Closes a a' events.reads ∧
      ¬ Fails a jobs plain peer generation now) ∨
    ∃ e a', a.receive loads jobs plain peer generation now = (.error e, a') ∧
      Closes a a' (a.expire jobs now).1.reads ∧ Fails a jobs plain peer generation now := by
  have hexpire := expire_closes h jobs now
  by_cases hover : (a.expire jobs now).2.reason ≠ none
  · have hnone : (a.expire jobs now).2.node = none := by
      rcases hexpire.gone hover with ⟨hsome, hsame⟩ | ⟨hnone, -⟩
      · exact hsame.trans (hnode hsome)
      · exact hnone
    refine .inl ⟨_, _, receive_over loads hnone, hexpire, fun hfails => ?_⟩
    rw [expire_on h hfails.1 hfails.2.1] at hover
    exact hover hfails.1
  have hreason := (hexpire.on (not_not.mp hover)).1
  have hexpires : a.expires jobs now = false := by
    by_contra hsome
    exact hover (expire_over h (Bool.not_eq_false _ ▸ hsome))
  have heq := expire_on h hreason hexpires
  have htabled := (BrokerReads.poll_ends h fun _ => now).1.tabled
  have hstep : ∀ {a' : BrokerAccount} {cs}, BrokerReads.Ends (a.reads.poll fun _ => now).2 a'.reads cs → a'.source = a.source →
      a'.reason = none → a'.node = a.node → Closes a a' ((a.reads.poll fun _ => now).1 ++ cs) :=
    fun hends hsource hnone hnode => ⟨(BrokerReads.poll_ends h fun _ => now).1.trans hends, hsource ▸ le_refl _,
      fun _ => ⟨hreason, hnode⟩, fun hsome => absurd hnone hsome⟩
  have hkept : ∀ {a' : BrokerAccount}, a'.reads = (a.reads.poll fun _ => now).2 → a'.source = a.source → a'.reason = none →
      a'.node = a.node → Closes a a' (a.reads.poll fun _ => now).1 := by
    intro a' hreads hsource hnone hnode
    have hends : BrokerReads.Ends (a.reads.poll fun _ => now).2 a'.reads [] := by
      rw [hreads]
      exact .refl htabled
    exact List.append_nil (a.reads.poll fun _ => now).1 ▸ hstep hends hsource hnone hnode
  unfold receive
  simp only [heq, Fails, hreason, hexpires, failsOn, true_and]
  cases hnode : a.node with
  | none => exact .inl ⟨_, _, rfl, hkept rfl rfl rfl hnode.symm, by simp⟩
  | some node =>
    simp only [Option.any_some]
    by_cases hlong : 4096 < plain.length
    · rw [if_pos hlong]
      refine .inl ⟨_, _, rfl, retireWith_closes ?_ .inputBudget, by simp [not_le.mpr hlong]⟩
      exact hkept rfl rfl rfl hnode.symm
    rw [if_neg hlong]
    obtain ⟨charged, hcharge⟩ : ∃ charged, a.input.charge now plain.length = charged := ⟨_, rfl⟩
    rw [hcharge]
    obtain ⟨result, input⟩ := charged
    cases result with
    | error e =>
      refine .inl ⟨_, _, rfl, retireWith_closes ?_ .inputBudget, by simp [Except.isOk, Except.toBool]⟩
      exact hkept rfl rfl rfl hnode.symm
    | ok charge =>
      simp only
      by_cases hforeign : peer ≠ node.address ∨ generation ≠ a.generation
      · rw [if_pos hforeign]
        refine .inl ⟨_, _, rfl, hkept rfl rfl rfl hnode.symm, ?_⟩
        rcases hforeign with hforeign | hforeign <;> simp [hforeign]
      rw [if_neg hforeign]
      simp only [not_or, not_not] at hforeign
      have hown : (decide (plain.length ≤ 4096) && Except.isOk (Except.ok (ε := TrafficFault) charge) &&
          decide (peer = node.address) && generation == a.generation) = true := by
        simp [not_lt.mp hlong, hforeign.1, hforeign.2, Except.isOk, Except.toBool]
      rw [hown, Bool.true_and]
      by_cases hmedia : jobs.mediaFails = true
      · rw [if_pos hmedia]
        exact .inr ⟨_, _, rfl, hkept rfl rfl rfl hnode.symm, by simp [hmedia]⟩
      rw [if_neg hmedia]
      have hfails := accept_fails (b := (a.reads.poll fun _ => now).2) loads a.source plain generation now
      rw [chokesOn_poll] at hfails
      rw [Bool.not_eq_true] at hmedia
      rw [hmedia, Bool.false_or]
      rcases BrokerReads.accept_ends loads htabled a.source plain generation fun _ => now with
        ⟨e, b', haccept, hends⟩ | ⟨c, b', haccept, hends, -⟩
      · rw [haccept] at hfails ⊢
        refine .inr ⟨_, _, rfl, ?_, hfails.mp ⟨e, rfl⟩⟩
        exact List.append_nil (a.reads.poll fun _ => now).1 ▸ hstep hends rfl rfl hnode.symm
      · rw [haccept] at hfails ⊢
        refine .inl ⟨_, _, rfl, hstep hends rfl rfl hnode.symm, fun hchokes => ?_⟩
        obtain ⟨e, he⟩ := hfails.mpr hchokes
        cases he

/-! ## Submissions -/

/-- A request that is taken back leaves the reads as they were. -/
theorem registered_cancel {b b' : BrokerReads} {source source' : BrokerSequences} {request : ReadRequest} {deadline : ℚ}
    (h : BrokerReads.Registered b source request deadline b' source') (hfresh : b.pending.get? source.next = none) :
    BrokerReads.Ends b (b'.cancel request.ticket).2 [] := by
  have hget : ∀ s, (b'.cancel request.ticket).2.pending.get? s = b.pending.get? s := by
    intro s
    unfold BrokerReads.cancel
    rw [h.pending, if_pos h.sequence]
    simp only [ne_eq, not_true_eq_false, if_false, BrokerReads.finish, Dict.get?_erase, h.pending, h.sequence]
    by_cases hs : s = source.next
    · rw [if_pos hs, hs, hfresh]
    · rw [if_neg hs, if_neg hs]
  have hkeys : ∀ s ∈ (b'.cancel request.ticket).2.pending.keys, s ∈ b.pending.keys := by
    intro s hs
    obtain ⟨p, hp⟩ := Dict.mem_keys.mp hs
    exact Dict.mem_keys.mpr ⟨p, hget s ▸ hp⟩
  have hsize := Dict.size_le_of_keys hkeys
  rw [Dict.keys, List.length_map] at hsize
  exact {
    tabled := (BrokerReads.cancel_ends h.tabled request.ticket).1.tabled
    kept := fun s p hp => ⟨p, hget s ▸ hp, rfl, rfl⟩
    ended := fun s p hp => .inl ⟨p, (hget s).trans hp⟩
    held := by simp
    nodup := by simp
    size := hsize }

/-- **A submission** registers a request, or leaves the account as it was for its reads. -/
theorem submitRead_closes (h : a.reads.Tabled) (hholder : a.reason = none → a.node.isSome)
    (hfresh : a.reads.pending.get? a.source.next = none) (jobs : AccountJobs) (draws : SubmitDraws) (device : Nat)
    (path : String) (timeout now : ℚ) :
    (∃ read reads source, a.submitRead jobs draws device path timeout now =
        (.ok read, { a with reads := reads, source := source }) ∧ a.reason = none ∧
      BrokerReads.Registered a.reads a.source read.request (now + timeout) reads source) ∨
    ∃ e a', a.submitRead jobs draws device path timeout now = (.error e, a') ∧ Closes a a' [] := by
  unfold submitRead
  split
  · exact .inr ⟨_, _, rfl, .refl h⟩
  next hactive =>
  have hreason : a.reason = none := by
    simp only [not_or, active, Bool.and_eq_false_iff] at hactive
    simpa using hactive.1.1
  obtain ⟨node, hnode⟩ := Option.isSome_iff_exists.mp (hholder hreason)
  split
  · exact .inr ⟨_, _, rfl, .refl h⟩
  rcases BrokerReads.register_cases h a.source device path timeout fun _ => now with
    ⟨e, heq, -⟩ | ⟨request, reads, source, heq, -, hregistered⟩
  · rw [heq]
    exact .inr ⟨_, _, rfl, .refl h⟩
  · rw [heq]
    simp only [hnode]
    split
    · refine .inr ⟨_, _, rfl, registered_cancel hregistered hfresh, ?_, fun _ => ⟨hreason, hnode.symm⟩,
        fun hsome => absurd hreason hsome⟩
      rw [hregistered.next]
      exact Nat.le_succ _
    next wire _ => exact .inl ⟨⟨request, wire⟩, reads, source, by simp only, hreason, hregistered⟩

end BrokerAccount

/-! ## One step -/

namespace AccountActuators

open BrokerAccount

theorem ptz_new_next (node : CertifiedNode) (source : BrokerSequences) (output : AccountOutputBudget) (generation : Nat)
    (spec : PtzSpec) (draws : PtzDraws) (now : ℚ) :
    source.next ≤ (PtzScheduler.new node source output generation spec draws now).2.2.next := by
  have hreserve := reserve_next source 3
  have hcommands : source.next ≤ (reservePtzCommands node source generation spec draws).2.next := by
    unfold reservePtzCommands
    split
    · exact le_refl _
    split
    · next heq => rwa [heq] at hreserve
    next heq =>
    rw [heq] at hreserve
    split
    · split
      · exact hreserve
      split <;> exact hreserve
    · exact hreserve
  unfold PtzScheduler.new
  split
  · exact le_refl _
  split
  · exact le_refl _
  split <;> next heq => rwa [heq] at hcommands

theorem siren_new_next (node : CertifiedNode) (source : BrokerSequences) (output : AccountOutputBudget)
    (spec : SirenPulseSpec) (generation : Nat) (draws : SirenDraws) (admitUntil : Option ℚ) (now : ℚ) :
    source.next ≤ (SirenPulseJob.new node source output spec generation draws admitUntil now).2.2.next := by
  have hreserve := reserve_next source 5
  unfold SirenPulseJob.new
  simp only
  split
  · exact le_refl _
  split
  · exact le_refl _
  split
  · next heq => rwa [heq] at hreserve
  next heq =>
  rw [heq] at hreserve
  split <;> exact hreserve

@[simp] theorem become_account (w : AccountActuators) (account : BrokerAccount) : (w.become account).account = account := by
  unfold become
  simp only
  split <;> rfl

/-- What a call does to the account, and what it tells. -/
inductive Tells (a : BrokerAccount) (e : AccountEvent) (a' : BrokerAccount) : Prop
  | closes (haccepted : e.accepted = none) (h : Closes a a' (e.reported ++ e.lost))
  | accepts (request : ReadRequest) (deadline : ℚ) (haccepted : e.accepted = some request) (hreported : e.reported = [])
      (hlost : e.lost = []) (hreason : a.reason = none) (hsame : a'.reason = none) (hnode : a'.node = a.node)
      (h : BrokerReads.Registered a.reads a.source request deadline a'.reads a'.source)

/-- What the account keeps of its reads. -/
structure Sound (a : BrokerAccount) : Prop where
  tabled : a.reads.Tabled
  holder : a.reason = none → a.node.isSome
  gone : a.reason ≠ none → a.node = none ∧ ∀ s, a.reads.pending.get? s = none
  below : ∀ s p, a.reads.pending.get? s = some p → s < a.source.next

theorem Sound.fresh {a : BrokerAccount} (h : Sound a) : a.reads.pending.get? a.source.next = none := by
  cases hsome : a.reads.pending.get? a.source.next with
  | none => rfl
  | some p => exact absurd (h.below _ p hsome) (lt_irrefl _)

theorem Sound.tells {a a' : BrokerAccount} {e : AccountEvent} (h : Sound a) (htells : Tells a e a') : Sound a' := by
  cases htells with
  | closes _ hcloses =>
    refine ⟨hcloses.ends.tabled, fun hnone => ?_, fun hsome => ?_, fun s p' hp' => ?_⟩
    · obtain ⟨hfirst, hnode⟩ := hcloses.on hnone
      rw [hnode]
      exact h.holder hfirst
    · rcases hcloses.gone hsome with ⟨hfirst, hnode⟩ | hempty
      · obtain ⟨hgone, hempty⟩ := h.gone hfirst
        refine ⟨hnode.trans hgone, fun s => ?_⟩
        cases hs : a'.reads.pending.get? s with
        | none => rfl
        | some p' =>
          obtain ⟨p, hp, -⟩ := hcloses.ends.kept s p' hs
          rw [hempty s] at hp
          cases hp
      · exact hempty
    · obtain ⟨p, hp, -⟩ := hcloses.ends.kept s p' hp'
      exact lt_of_lt_of_le (h.below s p hp) hcloses.next
  | accepts request deadline _ _ _ hreason hsame hnode hregistered =>
    refine ⟨hregistered.tabled, fun _ => ?_, fun hsome => absurd hsame hsome, fun s p hp => ?_⟩
    · rw [hnode]
      exact h.holder hreason
    · rw [hregistered.pending] at hp
      rw [hregistered.next]
      split at hp
      · omega
      · have hlt := h.below s p hp
        omega

/-- **What one call tells.** -/
theorem step_tells (loads : Loads) (now : ℚ) (call : AccountCall) {w : AccountActuators} (h : Sound w.account) :
    Tells w.account (w.step loads now call).1 (w.step loads now call).2.account := by
  have hstay : ∀ {a' : BrokerAccount}, a'.reads = w.account.reads → w.account.source.next ≤ a'.source.next →
      a'.reason = w.account.reason → a'.node = w.account.node → Closes w.account a' [] :=
    fun hreads hnext hreason hnode => .same h.tabled hreads hnext hreason hnode
  cases call with
  | preparePtz media output spec draws =>
    rw [step]
    unfold preparePtz
    by_cases hadmits : w.admitsPtz media now = false
    · rw [if_pos hadmits]
      exact .closes rfl (.refl h.tabled)
    rw [if_neg hadmits]
    by_cases hunconfirmed : w.motionUnconfirmed = true
    · rw [if_pos hunconfirmed]
      refine .closes rfl ?_
      simp only [List.nil_append, become_account]
      exact retire_closes h.tabled .transport
    rw [if_neg hunconfirmed]
    cases hnode : w.account.node with
    | none => exact .closes rfl (.refl h.tabled)
    | some node =>
      have hnext := ptz_new_next node w.account.source (w.outputs output) w.account.generation spec draws now
      obtain ⟨made, hmade⟩ : ∃ made, PtzScheduler.new node w.account.source (w.outputs output) w.account.generation spec
        draws now = made := ⟨_, rfl⟩
      simp only [hmade] at hnext ⊢
      obtain ⟨result, budget, source⟩ := made
      cases result with
      | error e => exact .closes rfl (hstay rfl hnext rfl rfl)
      | ok job => exact .closes rfl (hstay rfl hnext rfl rfl)
  | prepareSirenPulse media output spec draws admitUntil =>
    rw [step]
    unfold prepareSirenPulse
    cases hnode : w.account.node with
    | none => exact .closes rfl (.refl h.tabled)
    | some node =>
      by_cases hadmits : w.admitsSiren media spec now = false
      · simp only [if_pos hadmits]
        exact .closes rfl (.refl h.tabled)
      simp only [if_neg hadmits]
      have hnext := siren_new_next node w.account.source (w.outputs output) spec w.account.generation draws admitUntil now
      obtain ⟨made, hmade⟩ : ∃ made, SirenPulseJob.new node w.account.source (w.outputs output) spec w.account.generation
        draws admitUntil now = made := ⟨_, rfl⟩
      simp only [hmade] at hnext ⊢
      obtain ⟨result, budget, source⟩ := made
      cases result with
      | error e => exact .closes rfl (hstay rfl hnext rfl rfl)
      | ok job => exact .closes rfl (hstay rfl hnext rfl rfl)
  | motion id call =>
    rw [step]
    unfold stepMotion
    split <;> exact .closes rfl (.refl h.tabled)
  | pulse id call =>
    rw [step]
    unfold stepPulse
    split <;> exact .closes rfl (.refl h.tabled)
  | submitRead media draws device path timeout =>
    rw [step]
    rcases submitRead_closes h.tabled h.holder h.fresh (w.jobs media) draws device path timeout now with
      ⟨read, reads, source, heq, hreason, hregistered⟩ | ⟨e, a', heq, hcloses⟩
    · rw [heq]
      simp only [become_account]
      exact .accepts read.request _ rfl rfl rfl hreason hreason rfl hregistered
    · rw [heq]
      simp only [become_account]
      exact .closes rfl hcloses
  | cancelRead ticket =>
    refine .closes rfl ?_
    simp only [step, List.append_nil, become_account]
    exact ⟨(BrokerReads.cancel_ends h.tabled ticket).1, le_refl _, fun hnone => ⟨hnone, rfl⟩, fun hsome => .inl ⟨hsome, rfl⟩⟩
  | tick media noise =>
    refine .closes rfl ?_
    simp only [step, List.append_nil, become_account]
    exact tick_closes h.tabled _ noise now
  | receive media plain peer generation =>
    rw [step]
    rcases receive_closes loads h.tabled (fun hsome => (h.gone hsome).1) (w.jobs media) plain peer generation now with
      ⟨events, a', heq, hcloses, -⟩ | ⟨e, a', heq, hcloses, -⟩
    · rw [heq]
      refine .closes rfl ?_
      simp only [List.append_nil, become_account]
      exact hcloses
    · rw [heq]
      refine .closes rfl ?_
      simp only [List.nil_append, become_account]
      exact hcloses
  | drain media =>
    refine .closes rfl ?_
    simp only [step, drain, List.append_nil, become_account]
    exact drain_closes h.tabled _ now
  | retire reason =>
    refine .closes rfl ?_
    simp only [step, List.append_nil, become_account]
    exact retire_closes h.tabled reason
  | reserve count => exact .closes rfl (hstay rfl (reserve_next w.account.source count) rfl rfl)
  | output id op => exact .closes rfl (.refl h.tabled)

/-- A retirement ends a read exactly if one waits. -/
theorem retire_reads {a : BrokerAccount} (h : a.reads.Tabled) (hreason : a.reason = none) (reason : Retirement) :
    (a.retire reason).1.reads ≠ [] ↔ ∃ read, read ∈ a.reads.pending.values := by
  have hends := retire_ends h reason
  have hempty := retire_empty h hreason reason
  constructor
  · intro hsome
    obtain ⟨c, hc⟩ := List.exists_mem_of_ne_nil _ hsome
    obtain ⟨p, hp, -⟩ := (hends.held c hc).1
    exact ⟨p, BrokerReads.mem_values.mpr ⟨_, hp⟩⟩
  · rintro ⟨read, hread⟩ hnone
    obtain ⟨s, hs⟩ := BrokerReads.mem_values.mp hread
    rcases hends.ended s read hs with ⟨p', hp'⟩ | ⟨c, hc, -⟩
    · rw [hempty s] at hp'
      cases hp'
    · rw [hnone] at hc
      cases hc

/-- A `poll` ends a read exactly if one is late. -/
theorem poll_reads {b : BrokerReads} (h : b.Tabled) (now : ℚ) :
    (b.poll fun _ => now).1 ≠ [] ↔ ∃ read ∈ b.pending.values, read.deadline ≤ now := by
  have hends := (BrokerReads.poll_ends h fun _ => now).1
  constructor
  · intro hsome
    obtain ⟨c, hc⟩ := List.exists_mem_of_ne_nil _ hsome
    obtain ⟨⟨p, hp, -⟩, hgone⟩ := hends.held c hc
    refine ⟨p, BrokerReads.mem_values.mpr ⟨_, hp⟩, not_lt.mp fun hlater => ?_⟩
    rw [(BrokerReads.poll_pending h now _ p).mpr ⟨hp, hlater⟩] at hgone
    cases hgone
  · rintro ⟨read, hread, hlate⟩ hnone
    obtain ⟨s, hs⟩ := BrokerReads.mem_values.mp hread
    rcases hends.ended s read hs with ⟨p', hp'⟩ | ⟨c, hc, -⟩
    · obtain ⟨hp, hlater⟩ := (BrokerReads.poll_pending h now s p').mp hp'
      rw [hs] at hp
      cases hp
      exact absurd hlate (not_le.mpr hlater)
    · rw [hnone] at hc
      cases hc

/-- **A call keeps endings from the caller exactly if it `Drops`.** -/
theorem step_lost (loads : Loads) (now : ℚ) (call : AccountCall) {w : AccountActuators} (h : Sound w.account) :
    (w.step loads now call).1.lost ≠ [] ↔ w.Drops now call := by
  cases call with
  | preparePtz media output spec draws =>
    rw [step, Drops]
    unfold preparePtz
    by_cases hadmits : w.admitsPtz media now = false
    · simp [hadmits]
    rw [if_neg hadmits]
    have hreason : w.account.reason = none := by
      simp only [admitsPtz, active, Bool.not_eq_false, Bool.and_eq_true, Option.isNone_iff_eq_none] at hadmits
      exact hadmits.1.1.1.1.1
    rw [Bool.not_eq_false] at hadmits
    by_cases hunconfirmed : w.motionUnconfirmed = true
    · rw [if_pos hunconfirmed]
      simp only [hadmits, hunconfirmed, true_and]
      exact retire_reads h.tabled hreason .transport
    rw [if_neg hunconfirmed]
    simp only [hunconfirmed, Bool.false_eq_true, false_and, and_false, iff_false, not_not]
    split
    · rfl
    next heq =>
      split at heq
      · cases heq
      split at heq <;> cases heq
    · rfl
  | receive media plain peer generation =>
    rw [step, Drops]
    rcases receive_closes loads h.tabled (fun hsome => (h.gone hsome).1) (w.jobs media) plain peer generation now with
      ⟨events, a', heq, -, hfails⟩ | ⟨e, a', heq, -, hreason, hexpires, hfails⟩
    · rw [heq]
      simp only [ne_eq, not_true_eq_false, false_iff]
      exact fun hdrops => hfails ⟨hdrops.1, hdrops.2.1, hdrops.2.2.1⟩
    · rw [heq]
      simp only [hreason, hexpires, hfails, true_and, expire_on h.tabled hreason hexpires]
      exact poll_reads h.tabled now
  | prepareSirenPulse media output spec draws admitUntil =>
    simp only [Drops, iff_false, not_not]
    rw [step]
    split <;> rfl
  | submitRead media draws device path timeout =>
    simp only [Drops, iff_false, not_not]
    rw [step]
    split <;> rfl
  | motion id call => simp [step, Drops]
  | pulse id call => simp [step, Drops]
  | cancelRead ticket => simp [step, Drops]
  | tick media noise => simp [step, Drops]
  | drain media => simp [step, Drops]
  | retire reason => simp [step, Drops]
  | reserve count => simp [step, Drops]
  | output id op => simp [step, Drops]

end AccountActuators

/-! ## Whole runs -/

namespace ActuatorRun

open BrokerAccount AccountActuators

/-- The requests that were accepted. -/
def accepted (log : List AccountEvent) : List ReadRequest := log.flatMap fun e => e.accepted.toList

/-- The endings that were returned. -/
def reported (log : List AccountEvent) : List ReadCompletion := log.flatMap AccountEvent.reported

/-- The endings that an exception has kept from the caller. -/
def lost (log : List AccountEvent) : List ReadCompletion := log.flatMap AccountEvent.lost

/-- All endings, in order. -/
def endings (log : List AccountEvent) : List ReadCompletion := log.flatMap fun e => e.reported ++ e.lost

theorem endings_perm (log : List AccountEvent) : (endings log).Perm (reported log ++ lost log) := by
  induction log with
  | nil => exact .refl _
  | cons e rest ih =>
    simp only [endings, reported, lost, List.flatMap_cons] at ih ⊢
    have hrest := ih.append_left (e.reported ++ e.lost)
    refine hrest.trans ?_
    simp only [List.append_assoc]
    refine List.Perm.append_left _ ?_
    rw [← List.append_assoc, ← List.append_assoc]
    exact List.Perm.append_right _ List.perm_append_comm

/-- Every accepted request waits or has ended, once. -/
structure Told (a : BrokerAccount) (log : List AccountEvent) : Prop where
  sound : Sound a
  given : ∀ s p, a.reads.pending.get? s = some p → p.request ∈ accepted log
  below : ∀ request ∈ accepted log, request.ticket.sequence < a.source.next
  settled : ∀ request ∈ accepted log, a.reads.Holds request ∨ request ∈ (endings log).map ReadCompletion.request
  ended : ∀ c ∈ endings log, c.request ∈ accepted log ∧ ¬ a.reads.Holds c.request
  once : ((endings log).map ReadCompletion.request).Nodup

theorem accepted_snoc (log : List AccountEvent) (e : AccountEvent) :
    accepted (log ++ [e]) = accepted log ++ e.accepted.toList := by
  rw [accepted, List.flatMap_append, List.flatMap_singleton]
  rfl

theorem endings_snoc (log : List AccountEvent) (e : AccountEvent) :
    endings (log ++ [e]) = endings log ++ (e.reported ++ e.lost) := by
  rw [endings, List.flatMap_append, List.flatMap_singleton]
  rfl

variable {a a' : BrokerAccount} {log : List AccountEvent} {e : AccountEvent}

theorem Told.closes (h : Told a log) (haccepted : e.accepted = none) (hcloses : Closes a a' (e.reported ++ e.lost)) :
    Told a' (log ++ [e]) := by
  have hends := hcloses.ends
  have hold : accepted (log ++ [e]) = accepted log := by
    rw [accepted_snoc, haccepted, Option.toList_none, List.append_nil]
  refine ⟨h.sound.tells (.closes haccepted hcloses), fun s p' hp' => ?_, fun request hmem => ?_, fun request hmem => ?_,
    fun c hc => ?_, ?_⟩
  · obtain ⟨p, hp, hrequest, -⟩ := hends.kept s p' hp'
    rw [hrequest, hold]
    exact h.given s p hp
  · exact lt_of_lt_of_le (h.below request (hold ▸ hmem)) hcloses.next
  · rw [endings_snoc, List.map_append, List.mem_append]
    rcases h.settled request (hold ▸ hmem) with ⟨p, hp, rfl⟩ | hended
    · rcases hends.ended _ p hp with ⟨p', hp'⟩ | ⟨c, hc, hrequest⟩
      · obtain ⟨q, hq, hsame, -⟩ := hends.kept _ p' hp'
        rw [hp] at hq
        cases hq
        exact .inl ⟨p', hp', hsame⟩
      · exact .inr (.inr (List.mem_map.mpr ⟨c, hc, hrequest⟩))
    · exact .inr (.inl hended)
  · rw [hold]
    rcases List.mem_append.mp (endings_snoc log e ▸ hc) with hc | hc
    · obtain ⟨hmem, hgone⟩ := h.ended c hc
      exact ⟨hmem, fun hholds => hgone (hends.holds hholds)⟩
    · obtain ⟨⟨p, hp, hrequest⟩, hnone⟩ := hends.held c hc
      refine ⟨hrequest ▸ h.given _ p hp, ?_⟩
      rintro ⟨p', hp', -⟩
      rw [hnone] at hp'
      cases hp'
  · rw [endings_snoc, List.map_append, List.nodup_append]
    refine ⟨h.once, hends.nodup, ?_⟩
    rintro request hmem request' hmem' rfl
    obtain ⟨c, hc, rfl⟩ := List.mem_map.mp hmem
    obtain ⟨c', hc', hsame⟩ := List.mem_map.mp hmem'
    exact (h.ended c hc).2 (hsame ▸ (hends.held c' hc').1)

theorem Told.accepts (h : Told a log) {request : ReadRequest} {deadline : ℚ} (haccepted : e.accepted = some request)
    (hreported : e.reported = []) (hlost : e.lost = []) (hreason : a.reason = none) (hsame : a'.reason = none)
    (hnode : a'.node = a.node)
    (hregistered : BrokerReads.Registered a.reads a.source request deadline a'.reads a'.source) :
    Told a' (log ++ [e]) := by
  have hnew : accepted (log ++ [e]) = accepted log ++ [request] := by
    rw [accepted_snoc, haccepted, Option.toList_some]
  have hsame' : endings (log ++ [e]) = endings log := by
    rw [endings_snoc, hreported, hlost, List.append_nil, List.append_nil]
  have hfresh : request ∉ accepted log := by
    intro hmem
    have hlt := h.below request hmem
    rw [hregistered.sequence] at hlt
    exact lt_irrefl _ hlt
  have hholds : ∀ request' ∈ accepted log, (a'.reads.Holds request' ↔ a.reads.Holds request') := by
    intro request' hmem
    have hne : request'.ticket.sequence ≠ a.source.next := (h.below request' hmem).ne
    simp only [BrokerReads.Holds, hregistered.pending, if_neg hne]
  refine ⟨h.sound.tells (.accepts request deadline haccepted hreported hlost hreason hsame hnode hregistered),
    fun s p hp => ?_, fun request' hmem => ?_, fun request' hmem => ?_, fun c hc => ?_, ?_⟩
  · rw [hnew, List.mem_append, List.mem_singleton]
    rw [hregistered.pending] at hp
    split at hp
    · cases hp
      exact .inr rfl
    · exact .inl (h.given s p hp)
  · rw [hregistered.next]
    rcases List.mem_append.mp (hnew ▸ hmem) with hmem | hmem
    · have hlt := h.below request' hmem
      omega
    · rw [List.mem_singleton.mp hmem, hregistered.sequence]
      omega
  · rw [hsame']
    rcases List.mem_append.mp (hnew ▸ hmem) with hmem | hmem
    · rw [hholds request' hmem]
      exact h.settled request' hmem
    · rw [List.mem_singleton.mp hmem]
      exact .inl ⟨_, by rw [hregistered.pending, if_pos hregistered.sequence], rfl⟩
  · obtain ⟨hmem, hgone⟩ := h.ended c (hsame' ▸ hc)
    rw [hnew]
    exact ⟨List.mem_append_left _ hmem, fun hold => hgone ((hholds _ hmem).mp hold)⟩
  · rw [hsame']
    exact h.once

theorem Told.step {r : ActuatorRun} (h : Told r.world.account r.log) (loads : Loads) (now : ℚ) (call : AccountCall) :
    Told (r.step loads now call).world.account (r.step loads now call).log := by
  unfold ActuatorRun.step
  have htells := step_tells loads now call h.sound
  cases htells with
  | closes haccepted hcloses => exact h.closes haccepted hcloses
  | accepts request deadline haccepted hreported hlost hreason hsame hnode hregistered =>
    exact h.accepts haccepted hreported hlost hreason hsame hnode hregistered

theorem told_new {node : CertifiedNode} {nextSequence generation : Nat} {address : LocalAddress} {policy : AccountPolicy}
    {now : ℚ} {account : BrokerAccount} (h : BrokerAccount.new node nextSequence generation address policy now = some account) :
    Told account [] := by
  unfold BrokerAccount.new at h
  split at h
  next input source _ _ =>
    split at h
    · cases h
    next reads hreads =>
    have hreads : reads.Tabled ∧ ∀ s p, reads.pending.get? s ≠ some p := by
      unfold BrokerReads.new at hreads
      split at hreads
      · cases hreads
      · cases hreads
        exact ⟨⟨by simp, by simp⟩, by simp⟩
    obtain ⟨htabled, hempty⟩ := hreads
    cases h
    refine ⟨⟨htabled, fun _ => rfl, fun hsome => absurd rfl hsome, fun s p hp => absurd hp (hempty s p)⟩,
      fun s p hp => absurd hp (hempty s p), ?_, ?_, ?_, ?_⟩ <;> simp [accepted, endings]
  · cases h

theorem told_run (loads : Loads) {account : BrokerAccount} (h : Told account []) (outputs : Nat → AccountOutputBudget)
    (calls : List (ℚ × AccountCall)) :
    Told (run loads account outputs calls).world.account (run loads account outputs calls).log := by
  induction calls using List.reverseRecOn with
  | nil => exact h
  | append_singleton calls call ih =>
    rw [run_snoc]
    exact ih.step loads call.1 call.2

theorem lost_run (loads : Loads) {account : BrokerAccount} (h : Told account []) (outputs : Nat → AccountOutputBudget)
    (calls : List (ℚ × AccountCall)) :
    lost (run loads account outputs calls).log = [] ↔ ∀ before now call after,
      calls = before ++ (now, call) :: after → ¬ (run loads account outputs before).world.Drops now call := by
  induction calls using List.reverseRecOn with
  | nil => simp [lost, run, Machine.run]
  | append_singleton calls last ih =>
    have hlost := step_lost loads last.1 last.2 (told_run loads h outputs calls).sound
    have hsnoc : lost (run loads account outputs (calls ++ [last])).log =
        lost (run loads account outputs calls).log ++
          ((run loads account outputs calls).world.step loads last.1 last.2).1.lost := by
      rw [run_snoc, ActuatorRun.step, lost, List.flatMap_append, List.flatMap_singleton]
      rfl
    rw [hsnoc, List.append_eq_nil_iff, ih]
    constructor
    · rintro ⟨hbefore, hlast⟩ before now call after heq
      rcases List.eq_nil_or_concat after with rfl | ⟨rest, final, rfl⟩
      · obtain ⟨rfl, hsame⟩ := List.append_inj' heq rfl
        obtain rfl := List.singleton_inj.mp hsame
        exact hlost.not.mp (not_not.mpr hlast)
      · rw [List.concat_eq_append, ← List.cons_append, ← List.append_assoc] at heq
        exact hbefore before now call rest (List.append_inj' heq rfl).1
    · intro hall
      refine ⟨fun before now call after heq => hall before now call (after ++ [last]) (by rw [heq]; simp), ?_⟩
      by_contra hsome
      exact hall calls last.1 last.2 [] rfl (hlost.mp hsome)

/-- **Every accepted read is reported, once, exactly if no call drops endings**: in every
run on a new account that ends retired. -/
theorem every_ending_reported_iff (loads : Loads) {node : CertifiedNode} {nextSequence generation : Nat}
    {address : LocalAddress} {policy : AccountPolicy} {start : ℚ} {account : BrokerAccount}
    (hnew : BrokerAccount.new node nextSequence generation address policy start = some account)
    (outputs : Nat → AccountOutputBudget) {calls : List (ℚ × AccountCall)}
    (hretired : (run loads account outputs calls).world.account.reason ≠ none) :
    let r := run loads account outputs calls
    ((∀ request ∈ accepted r.log, ((reported r.log).map ReadCompletion.request).count request = 1) ∧ lost r.log = []) ↔
      ∀ before now call after, calls = before ++ (now, call) :: after →
        ¬ (run loads account outputs before).world.Drops now call := by
  intro r
  have htold := told_run loads (told_new hnew) outputs calls
  have hlost := lost_run loads (told_new hnew) outputs calls
  rw [← hlost]
  refine ⟨fun h => h.2, fun hnone => ⟨fun request hmem => ?_, hnone⟩⟩
  have hperm := (endings_perm r.log).map ReadCompletion.request
  rw [hnone, List.append_nil] at hperm
  rw [← hperm.count_eq]
  refine List.count_eq_one_of_mem htold.once ?_
  rcases htold.settled request hmem with ⟨p, hp, -⟩ | hended
  · rw [(htold.sound.gone hretired).2] at hp
    cases hp
  · exact hended

/-! ## A gesture after an unconfirmed one -/

def gestureSpec : PtzSpec := ⟨5, 9, .left, [.left, .right], 1 / 5⟩

def gestureDraws : PtzDraws := PtzRun.exampleDraws

/-- A read, and a gesture to the left whose RELEASE nobody confirms. -/
def unreleasedCalls : List (ℚ × AccountCall) :=
  [(0, .submitRead {} ⟨1, 0⟩ 9 "ProReadonly.devInfo" 10), (0, .preparePtz {} 0 gestureSpec gestureDraws),
    (0, .motion 0 .nextPacket), (1, .motion 0 .nextPacket), (4, .motion 0 .nextPacket)]

/-- What becomes of an account with one camera in these calls. -/
def gestureRun (calls : List (ℚ × AccountCall)) : Option ActuatorRun :=
  match BrokerAccount.new ⟨("203.0.113.7", 19000), 7, List.replicate 32 0x11⟩ 5 1 ⟨some [192, 168, 1, 2], 40000⟩ .finite 0,
    AccountOutputBudget.new none none .finite 0 1 with
  | some account, .ok output => some (run (fun _ => none) account (fun _ => output) calls)
  | _, _ => none

/-- The next gesture is refused, and the ending of the read goes with the refusal. -/
theorem ending_dropped : ∃ account output,
    BrokerAccount.new ⟨("203.0.113.7", 19000), 7, List.replicate 32 0x11⟩ 5 1 ⟨some [192, 168, 1, 2], 40000⟩ .finite 0 =
      some account ∧
    AccountOutputBudget.new none none .finite 0 1 = .ok output ∧
    let calls := unreleasedCalls ++ [(5, .preparePtz {} 0 gestureSpec gestureDraws), (5, .tick {} 0)]
    let r := run (fun _ => none) account (fun _ => output) calls
    Clocked 0 calls ∧ r.world.account.reason = some .transport ∧ (accepted r.log).length = 1 ∧
      ∀ request ∈ accepted r.log, ((reported r.log).map ReadCompletion.request).count request = 0 := by
  have h : ((gestureRun (unreleasedCalls ++ [(5, .preparePtz {} 0 gestureSpec gestureDraws), (5, .tick {} 0)])).any
      fun r => decide (Clocked 0 (unreleasedCalls ++ [(5, .preparePtz {} 0 gestureSpec gestureDraws), (5, .tick {} 0)]) ∧
        r.world.account.reason = some .transport ∧ (accepted r.log).length = 1 ∧
        ∀ request ∈ accepted r.log, ((reported r.log).map ReadCompletion.request).count request = 0)) = true := by
    decide +kernel
  unfold gestureRun at h
  split at h
  · next account output haccount houtput =>
    rw [Option.any_some, decide_eq_true_eq] at h
    exact ⟨account, output, haccount, houtput, h⟩
  · cases h

/-- The theorem applies to the run in which the account is retired instead. -/
theorem every_ending_reported_iff_retired : ∃ account output,
    BrokerAccount.new ⟨("203.0.113.7", 19000), 7, List.replicate 32 0x11⟩ 5 1 ⟨some [192, 168, 1, 2], 40000⟩ .finite 0 =
      some account ∧
    AccountOutputBudget.new none none .finite 0 1 = .ok output ∧
    let calls := unreleasedCalls ++ [(5, .retire .closed), (5, .tick {} 0)]
    let r := run (fun _ => none) account (fun _ => output) calls
    (accepted r.log).length = 1 ∧
      (((∀ request ∈ accepted r.log, ((reported r.log).map ReadCompletion.request).count request = 1) ∧ lost r.log = []) ↔
        ∀ before now call after, calls = before ++ (now, call) :: after →
          ¬ (run (fun _ => none) account (fun _ => output) before).world.Drops now call) := by
  have h : ((gestureRun (unreleasedCalls ++ [(5, .retire .closed), (5, .tick {} 0)])).any fun r =>
      decide ((accepted r.log).length = 1 ∧ r.world.account.reason ≠ none)) = true := by decide +kernel
  unfold gestureRun at h
  split at h
  · next account output haccount houtput =>
    rw [Option.any_some, decide_eq_true_eq] at h
    exact ⟨account, output, haccount, houtput, h.1,
      every_ending_reported_iff (fun _ => none) haccount (fun _ => output) h.2⟩
  · cases h

end ActuatorRun

end CamGuard.Account
