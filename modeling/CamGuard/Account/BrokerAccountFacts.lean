/-
What an operation of the account does to its reads, which is to end some of them
(`BrokerReads.Ends`), and when it ends the account.

While the account is not over it keeps the node and the identity it was made
with (`Live`), so that a request is refused only for its own sake.
-/
import CamGuard.Account.BrokerAccount
import CamGuard.Account.ReadsFacts

namespace CamGuard.Account

open CamGuard.Crypto

theorem BrokerReads.cancel_gone {b : BrokerReads} (h : b.Tabled) (request : ReadRequest) :
    ¬ (b.cancel request.ticket).2.Holds request := by
  rintro ⟨p, hp, hrequest⟩
  obtain ⟨hends, -⟩ := BrokerReads.cancel_ends h request.ticket
  obtain ⟨q, hq, hsame, -⟩ := hends.kept _ p hp
  unfold BrokerReads.cancel at hp
  rw [hq] at hp
  have hticket : ¬ q.request.ticket ≠ request.ticket := by
    rw [← hsame, hrequest]
    simp
  simp only [if_neg hticket, BrokerReads.finish, Dict.get?_erase] at hp
  rw [if_pos (by rw [← hsame, hrequest])] at hp
  cases hp

namespace BrokerAccount

variable {a : BrokerAccount} {jobs : AccountJobs} {now : ℚ}

/-! ## Reads -/

theorem retire_ends (h : a.reads.Tabled) (reason : Retirement) :
    BrokerReads.Ends a.reads (a.retire reason).2.reads (a.retire reason).1.reads := by
  unfold retire
  split
  · exact .refl h
  · exact (BrokerReads.close_ends h).1

theorem retire_empty (h : a.reads.Tabled) (hreason : a.reason = none) (reason : Retirement) (s : Nat) :
    (a.retire reason).2.reads.pending.get? s = none := by
  unfold retire
  rw [hreason]
  exact (BrokerReads.close_ends h).2.2 s

theorem retireWith_ends {b : BrokerReads} {cs : List ReadCompletion} (h : BrokerReads.Ends b a.reads cs)
    (reason : Retirement) : BrokerReads.Ends b (a.retireWith cs reason).2.reads (a.retireWith cs reason).1.reads :=
  h.trans (retire_ends h.tabled reason)

theorem expire_ends (h : a.reads.Tabled) (jobs : AccountJobs) (now : ℚ) :
    BrokerReads.Ends a.reads (a.expire jobs now).2.reads (a.expire jobs now).1.reads := by
  have hpoll := (BrokerReads.poll_ends h fun _ => now).1
  unfold expire
  split
  · exact .refl h
  split
  · exact retire_ends h .transport
  split
  · exact retire_ends h .lifetime
  simp only
  split
  · next late heartbeat _ =>
    exact retireWith_ends (a := { a with reads := (a.reads.poll fun _ => now).2, heartbeat := heartbeat }) hpoll .heartbeatTimeout
  split
  · exact hpoll
  split
  · exact retireWith_ends hpoll _
  · exact hpoll

theorem tick_ends (h : a.reads.Tabled) (jobs : AccountJobs) (noise : Nat) (now : ℚ) :
    BrokerReads.Ends a.reads (a.tick jobs noise now).2.reads (a.tick jobs noise now).1.reads := by
  have hexpire := expire_ends h jobs now
  unfold tick
  simp only
  split
  · split
    · exact hexpire
    split
    · next e heartbeat source _ =>
      exact retireWith_ends (a := { (a.expire jobs now).2 with heartbeat := heartbeat, source := source }) hexpire .prepare
    · exact hexpire
  · exact hexpire

theorem drain_ends (h : a.reads.Tabled) (jobs : AccountJobs) (now : ℚ) :
    BrokerReads.Ends a.reads (a.drain jobs now).2.reads (a.drain jobs now).1.reads := by
  unfold drain
  split
  · exact expire_ends (a := { a with drainDeadline := some (now + 2) }) h jobs now
  · exact expire_ends h jobs now

/-- A frame ends reads; when it fails, what has ended is not told. -/
theorem receive_ends (loads : Loads) (h : a.reads.Tabled) (jobs : AccountJobs) (plain : Bytes) (peer : String × Nat)
    (generation : Nat) (now : ℚ) :
    (∃ events a', a.receive loads jobs plain peer generation now = (.ok events, a') ∧
      BrokerReads.Ends a.reads a'.reads events.reads) ∨
      ∃ e a' cs, a.receive loads jobs plain peer generation now = (.error e, a') ∧ BrokerReads.Ends a.reads a'.reads cs := by
  have hexpire := expire_ends h jobs now
  unfold receive
  simp only
  split
  · exact .inl ⟨_, _, rfl, hexpire⟩
  split
  · exact .inl ⟨_, _, rfl, retireWith_ends hexpire .inputBudget⟩
  split
  · next e input _ =>
    exact .inl ⟨_, _, rfl, retireWith_ends (a := { (a.expire jobs now).2 with input := input }) hexpire .inputBudget⟩
  split
  · exact .inl ⟨_, _, rfl, hexpire⟩
  split
  · exact .inr ⟨_, _, _, rfl, hexpire⟩
  rcases BrokerReads.accept_ends loads hexpire.tabled (a.expire jobs now).2.source plain generation fun _ => now with
    ⟨e, b', heq, hends⟩ | ⟨c, b', heq, hends, -⟩
  · rw [heq]
    exact .inr ⟨_, _, _, rfl, hexpire.trans hends⟩
  · rw [heq]
    exact .inl ⟨_, _, rfl, hexpire.trans hends⟩

/-- **A submission**: it registers one request, or it fails and the reads are as
they were, unless the account goes on and is to be retired. -/
theorem submitRead_cases [Rounding] (h : a.reads.Tabled) (jobs : AccountJobs) (draws : SubmitDraws) (device : Nat) (path : String)
    (timeout now : ℚ) :
    (∃ read reads source, a.submitRead jobs draws device path timeout now =
        (.ok read, { a with reads := reads, source := source }) ∧
      BrokerReads.Registered a.reads a.source read.request (Rounding.round (now + timeout)) reads source) ∨
    ∃ e reads source, a.submitRead jobs draws device path timeout now =
        (.error e, { a with reads := reads, source := source }) ∧
      reads.Tabled ∧ (reads = a.reads ∨ a.reason = none) ∧ e ≠ .read (.transaction .capacity) ∧
      (e = .read .capacity → MAX_PENDING ≤ a.reads.pending.size) := by
  unfold submitRead
  split
  · exact .inr ⟨_, a.reads, a.source, rfl, h, .inl rfl, by simp, by simp⟩
  next hactive =>
  have hreason : a.reason = none := by
    simp only [not_or, active, Bool.and_eq_false_iff] at hactive
    simpa using hactive.1.1
  split
  · exact .inr ⟨_, a.reads, a.source, rfl, h, .inl rfl, by simp, by simp⟩
  rcases BrokerReads.register_cases h a.source device path timeout fun _ => now with
    ⟨e, heq, hcapacity⟩ | ⟨request, reads, source, heq, -, hregistered⟩
  · rw [heq]
    refine .inr ⟨_, a.reads, a.source, rfl, h, .inl rfl, by simpa using hcapacity, fun hfull => ?_⟩
    cases hfull
    unfold BrokerReads.register at heq
    split at heq
    · cases heq
    split at heq
    · cases heq
    split at heq
    · next hroom => exact hroom
    split at heq <;> cases heq
  · rw [heq]
    simp only
    split
    · exact .inr ⟨_, reads, source, rfl, hregistered.tabled, .inr hreason, by simp, by simp⟩
    split
    · have hcancel := (BrokerReads.cancel_ends hregistered.tabled request.ticket).1
      exact .inr ⟨_, (reads.cancel request.ticket).2, source, rfl, hcancel.tabled, .inr hreason, by simp, by simp⟩
    · exact .inl ⟨_, reads, source, rfl, hregistered⟩

/-! ## The end of the account -/

/-- While it is not over, a continuous account has its node and its identity. -/
structure Live (node : CertifiedNode) (address : LocalAddress) (a : BrokerAccount) : Prop where
  holder : a.node = some node
  local_ : a.address = address
  deadline : a.deadline = none
  drain : a.drainDeadline = none
  source : a.source.matchesIdentity node.sessionId a.generation = true
  reads : a.reads.identity = (node.sessionId, false, node.sessionId, a.generation, false)
  heartbeat : a.heartbeat.closed = false ∧ a.heartbeat.session = node.sessionId ∧ a.heartbeat.generation = a.generation

/-- The account goes on, or it is over and has no node. -/
def Standing (node : CertifiedNode) (address : LocalAddress) (a : BrokerAccount) : Prop :=
  (a.reason = none ∧ Live node address a) ∨ (a.reason ≠ none ∧ a.node = none)

/-- An operation lets the account go on, or ends it and says so; and what it
does not end with is `prepare`. -/
inductive Passes (node : CertifiedNode) (address : LocalAddress) (a : BrokerAccount) (events : AccountEvents)
    (a' : BrokerAccount) : Prop
  | on : a'.reason = none → events.retired = none → Live node address a' → Passes node address a events a'
  | ended : a'.reason ≠ none → a'.node = none → events.retired.isSome →
      (a'.reason = some .prepare → a.reason = some .prepare) → Passes node address a events a'

variable {node : CertifiedNode} {address : LocalAddress}

theorem Passes.standing {events : AccountEvents} {a' : BrokerAccount} (h : Passes node address a events a') :
    Standing node address a' := by
  cases h with
  | on hnone _ hlive => exact .inl ⟨hnone, hlive⟩
  | ended hsome hnode => exact .inr ⟨hsome, hnode⟩

theorem retire_passes (h : a.reason ≠ none → a.node = none) {reason : Retirement} (hreason : reason ≠ .prepare) :
    Passes node address a (a.retire reason).1 (a.retire reason).2 := by
  unfold retire
  split
  · next old hold =>
    have hsome : a.reason ≠ none := by simp [hold]
    exact .ended hsome (h hsome) rfl id
  · refine .ended (by simp) rfl rfl fun heq => ?_
    cases heq
    exact absurd rfl hreason

theorem retireWith_passes (h : a.reason ≠ none → a.node = none) {reads : List ReadCompletion} {reason : Retirement}
    (hreason : reason ≠ .prepare) :
    Passes node address a (a.retireWith reads reason).1 (a.retireWith reads reason).2 := by
  have hpasses : Passes node address a _ _ := retire_passes h hreason
  cases hpasses with
  | on hnone hretired hlive => exact .on hnone hretired hlive
  | ended hsome hnode hretired hprepare => exact .ended hsome hnode hretired hprepare

theorem heartbeat_poll (b : BrokerHeartbeat) (now : ℚ) : (b.poll now).2.closed = b.closed ∧
    (b.poll now).2.session = b.session ∧ (b.poll now).2.generation = b.generation := by
  unfold BrokerHeartbeat.poll
  split
  · exact ⟨rfl, rfl, rfl⟩
  split <;> exact ⟨rfl, rfl, rfl⟩

theorem expire_passes (h : Standing node address a) (jobs : AccountJobs) (now : ℚ) :
    Passes node address a (a.expire jobs now).1 (a.expire jobs now).2 := by
  unfold expire
  rcases h with ⟨hreason, hlive⟩ | ⟨hreason, hnode⟩
  · have hnever : a.reason ≠ none → a.node = none := fun hsome => absurd hreason hsome
    split
    · next old hold =>
      rw [hreason] at hold
      cases hold
    split
    · exact retire_passes hnever (by decide)
    split
    · exact retire_passes hnever (by decide)
    simp only
    obtain ⟨hclosed, hsession, hgeneration⟩ := heartbeat_poll a.heartbeat now
    split
    · next late heartbeat _ =>
      have hpasses : ∀ b : BrokerAccount, b = { a with reads := (a.reads.poll fun _ => now).2, heartbeat := heartbeat } →
          Passes node address b (b.retireWith (a.reads.poll fun _ => now).1 .heartbeatTimeout).1
            (b.retireWith (a.reads.poll fun _ => now).1 .heartbeatTimeout).2 := fun b hb =>
        retireWith_passes (fun hsome => absurd (hb ▸ hreason) hsome) (by decide)
      have hpasses := hpasses _ rfl
      cases hpasses with
      | on hnone hretired hlive => exact .on hnone hretired hlive
      | ended hsome hnode hretired hprepare => exact .ended hsome hnode hretired hprepare
    · next heartbeat heq =>
      rw [heq] at hclosed hsession hgeneration
      split
      · refine .on hreason rfl { hlive with
          reads := (a.reads.poll_identity fun _ => now).trans hlive.reads
          heartbeat := ?_ }
        exact ⟨hclosed.trans hlive.heartbeat.1, hsession.trans hlive.heartbeat.2.1,
          hgeneration.trans hlive.heartbeat.2.2⟩
      · next drainDeadline hdrain =>
        rw [show a.drainDeadline = none from hlive.drain] at hdrain
        cases hdrain
  · split
    · exact .ended hreason hnode rfl id
    · next hnone => exact absurd hnone hreason

/-- A namespace that is open and not exhausted gives a sequence. -/
theorem allocate_ok {source : BrokerSequences} (hclosed : source.closed = false) (hnext : source.next < 2 ^ 32) :
    ∃ source' : BrokerSequences, source.allocate = (.ok source.next, source') ∧
      ∀ session generation, source'.matchesIdentity session generation = source.matchesIdentity session generation := by
  unfold BrokerSequences.allocate BrokerSequences.reserve
  rw [if_neg (by decide), if_neg (by simp [hclosed]), dif_neg (by omega)]
  exact ⟨_, rfl, fun _ _ => rfl⟩

theorem matchesIdentity_open {source : BrokerSequences} {session generation : Nat}
    (h : source.matchesIdentity session generation = true) : source.closed = false := by
  simp only [BrokerSequences.matchesIdentity, Bool.and_eq_true, Bool.not_eq_true'] at h
  exact h.1.1

/-- What a socket gives for its own address. -/
def ValidAddress (address : LocalAddress) : Prop :=
  ∃ ip, address.ip = some ip ∧ ip.length = 4 ∧ address.port < 2 ^ 16

theorem buildHeartbeat_ok {node : CertifiedNode} (hkey : node.sessionKey.length = 32) (haddress : ValidAddress address)
    (sequence noise : Nat) : ∃ wire, buildHeartbeat node sequence address noise = .ok wire := by
  obtain ⟨ip, hip, hlength, hport⟩ := haddress
  have hlead : Framed ((newHeader 0xA0 48 node.sessionId sequence (randomizedFlags noise 2 2)).put 0 [0x7E]) 48 :=
    framed_lead (by decide) (by decide) (lt_trans (randomizedFlags_lt noise 2 2) (by decide))
      (randomizedFlags_mode noise 2)
  have hbody := hlead.put (p := 0x18) (v := Bytes.ofNat 2 2 ++ Bytes.ofNat 2 address.port ++ ip) (le_refl _)
    (by simp only [List.length_append, Bytes.length_ofNat, hlength]; decide)
  have hflag := hbody.put (p := 0x21) (v := [1]) (by decide) (by decide)
  have htail := hflag.put (p := 0x2C) (v := Bytes.ofNat 4 1) (by decide) (by decide)
  obtain ⟨wire, hwire, -⟩ := htail.finish hkey
  refine ⟨wire, ?_⟩
  simp only [buildHeartbeat, hip]
  rw [if_neg (by omega), hwire]
  rfl

/-- **A live account can send its heartbeat.** -/
theorem prepare_ok (hlive : Live node address a) (hkey : node.sessionKey.length = 32) (haddress : ValidAddress address)
    (hnext : a.source.next < 2 ^ 32) (hpending : a.heartbeat.pending = none) (noise : Nat) (now : ℚ) :
    ∃ wire pending source, a.heartbeat.prepare a.source node a.address noise now =
        (.ok wire, { a.heartbeat with pending := pending }, source) ∧
      source.matchesIdentity node.sessionId a.generation = true := by
  obtain ⟨hclosed, hsession, hgeneration⟩ := hlive.heartbeat
  obtain ⟨source', hsource, hidentity⟩ := allocate_ok (matchesIdentity_open hlive.source) hnext
  obtain ⟨wire, hwire⟩ := buildHeartbeat_ok hkey haddress a.source.next noise
  refine ⟨wire, some (⟨a.heartbeat.generation, a.source.next, 0xA0⟩, now + 2), source', ?_,
    (hidentity ..).trans hlive.source⟩
  unfold BrokerHeartbeat.prepare
  rw [if_neg (by rw [hclosed, hsession, hgeneration, hlive.source]; simp), if_neg (by rw [hsession]; simp),
    if_neg (by rw [hpending]; simp), hsource, hlive.local_]
  simp only [hwire]

theorem tick_passes (h : Standing node address a) (hkey : node.sessionKey.length = 32)
    (haddress : ValidAddress address) (hnext : (a.expire jobs now).2.source.next < 2 ^ 32) (noise : Nat) :
    Passes node address a (a.tick jobs noise now).1 (a.tick jobs noise now).2 := by
  have hexpire := expire_passes h jobs now
  unfold tick
  simp only
  split
  · next holder hactive hholder =>
    split
    · exact hexpire
    next hdue =>
    cases hexpire with
    | ended hsome =>
      simp only [active, Bool.and_eq_true] at hactive
      exact absurd (by simpa using hactive.1) hsome
    | on hnone hretired hlive =>
      have hholder : holder = node := by
        have hsame := hlive.holder
        rw [hholder] at hsame
        exact Option.some.inj hsame
      subst hholder
      have hpending : (a.expire jobs now).2.heartbeat.pending = none := by
        by_contra hsome
        exact hdue (.inl (Option.isSome_iff_ne_none.mpr hsome))
      obtain ⟨wire, pending, source, heq, hsource⟩ := prepare_ok hlive hkey haddress hnext hpending noise now
      rw [heq]
      exact .on hnone rfl { hlive with source := hsource }
  · exact hexpire

theorem heartbeat_accept (b : BrokerHeartbeat) (source : BrokerSequences) (plain : Bytes) (generation : Nat) (now : ℚ) :
    (b.accept source plain generation now).2.closed = b.closed ∧
      (b.accept source plain generation now).2.session = b.session ∧
      (b.accept source plain generation now).2.generation = b.generation := by
  unfold BrokerHeartbeat.accept
  split
  · exact ⟨rfl, rfl, rfl⟩
  split
  · exact ⟨rfl, rfl, rfl⟩
  split <;> exact ⟨rfl, rfl, rfl⟩

/-- A frame lets the account go on, or ends it; a frame that fails ends nothing. -/
theorem receive_passes (loads : Loads) (h : Standing node address a) (jobs : AccountJobs) (plain : Bytes)
    (peer : String × Nat) (generation : Nat) (now : ℚ) :
    (∃ events a', a.receive loads jobs plain peer generation now = (.ok events, a') ∧ Passes node address a events a') ∨
      ∃ e a', a.receive loads jobs plain peer generation now = (.error e, a') ∧ a'.reason = none ∧ Live node address a' := by
  have hexpire := expire_passes h jobs now
  unfold receive
  simp only
  split
  · exact .inl ⟨_, _, rfl, hexpire⟩
  next holder hholder =>
  cases hexpire with
  | ended _ hnode =>
    rw [hholder] at hnode
    cases hnode
  | on hnone hretired hlive =>
    have hnever : (a.expire jobs now).2.reason ≠ none → (a.expire jobs now).2.node = none := fun hsome =>
      absurd hnone hsome
    have hinput : ∀ input, Live node address { (a.expire jobs now).2 with input := input } := fun input => { hlive with }
    -- An account that has gone on until here ends with its own reason.
    have hends : ∀ {b : BrokerAccount} {reads : List ReadCompletion}, b.reason = none →
        Passes node address a (b.retireWith reads .inputBudget).1 (b.retireWith reads .inputBudget).2 := by
      intro b reads hb
      have hpasses : Passes node address b (b.retireWith reads .inputBudget).1 (b.retireWith reads .inputBudget).2 :=
        retireWith_passes (fun hsome => absurd hb hsome) (by decide)
      cases hpasses with
      | on hnone hretired hlive => exact .on hnone hretired hlive
      | ended hsome hnode hretired hprepare =>
        refine .ended hsome hnode hretired fun heq => ?_
        rw [hprepare heq] at hb
        cases hb
    split
    · exact .inl ⟨_, _, rfl, hends hnone⟩
    split
    · exact .inl ⟨_, _, rfl, hends hnone⟩
    next input _ =>
    split
    · exact .inl ⟨_, _, rfl, .on hnone hretired (hinput input)⟩
    split
    · exact .inr ⟨_, _, rfl, hnone, hinput input⟩
    have hreads := BrokerReads.accept_identity (b := (a.expire jobs now).2.reads) loads (a.expire jobs now).2.source plain
      generation fun _ => now
    split
    · next heq =>
      rw [heq] at hreads
      exact .inr ⟨_, _, rfl, hnone, { hlive with reads := hreads.trans hlive.reads }⟩
    · next read reads heq =>
      rw [heq] at hreads
      obtain ⟨hclosed, hsession, hgeneration⟩ := heartbeat_accept (a.expire jobs now).2.heartbeat
        (a.expire jobs now).2.source plain generation now
      refine .inl ⟨_, _, rfl, .on hnone rfl { hlive with
        reads := hreads.trans hlive.reads
        heartbeat := ?_ }⟩
      exact ⟨hclosed.trans hlive.heartbeat.1, hsession.trans hlive.heartbeat.2.1,
        hgeneration.trans hlive.heartbeat.2.2⟩

/-- **A live account takes a valid read**, as long as there is room for it. -/
theorem submitRead_ok [Rounding] (hreason : a.reason = none) (hlive : Live node address a) (htabled : a.reads.Tabled)
    (hroom : a.reads.pending.size < MAX_PENDING) (hkey : node.sessionKey.length = 32) (hnext : a.source.next < 2 ^ 32)
    (hjobs : jobs.mediaUncertain = false ∧ jobs.motionUnconfirmed = false) {device : Nat} {path : String}
    (hdevice : 0 < device ∧ device < 2 ^ 64) (hpath : path ∈ MODEL_READ_PATHS) {timeout : ℚ}
    (htimeout : 0 < timeout ∧ timeout ≤ MAX_TIMEOUT) (draws : SubmitDraws) (now : ℚ) :
    ∃ read a', a.submitRead jobs draws device path timeout now = (.ok read, a') ∧ a'.reason = none ∧
      Live node address a' := by
  have hidentity := hlive.reads
  simp only [BrokerReads.identity, Prod.mk.injEq] at hidentity
  obtain ⟨-, hclosed, hsession, hgeneration, hreceipts⟩ := hidentity
  have hactive : a.reads.receipts.active a.source = true := by
    rw [BrokerTransactions.active, hreceipts, hsession, hgeneration, hlive.source]
    rfl
  obtain ⟨source', hsource, hsame⟩ := allocate_ok (matchesIdentity_open hlive.source) hnext
  have hregister : ∃ request reads, a.reads.register a.source device path timeout (fun _ => now) =
      (.ok request, reads, source') ∧ reads.identity = a.reads.identity := by
    unfold BrokerReads.register BrokerTransactions.register
    rw [if_neg (by rw [hclosed, hactive]; simp), if_neg (by simp only [not_or, not_not]; exact ⟨by omega, by omega, hpath⟩),
      if_neg (by omega), if_neg (by rw [hactive]; simp),
      if_neg (by simp only [not_or, not_lt, not_le]; exact ⟨by decide, htimeout⟩),
      if_neg (by have := htabled.receipts_size; omega), hsource]
    exact ⟨_, _, rfl, rfl⟩
  obtain ⟨request, reads, heq, hreads⟩ := hregister
  obtain ⟨wire, hwire, -⟩ := buildModelRead_ok node hkey device hpath request.ticket.sequence draws.message draws.noise
  refine ⟨⟨request, wire⟩, { a with reads := reads, source := source' }, ?_, hreason, { hlive with
    reads := hreads.trans hlive.reads
    source := (hsame ..).trans hlive.source }⟩
  unfold submitRead
  rw [if_neg (by simp [active, expired, hreason, hlive.drain, hlive.deadline, hjobs.1, hjobs.2]),
    if_neg (by simp [hlive.deadline]), heq]
  simp only [hlive.holder, hwire]

/-- A read with more time than a read may have is refused. -/
theorem submitRead_late [Rounding] (a : BrokerAccount) (jobs : AccountJobs) (draws : SubmitDraws) (device : Nat)
    (path : String) {timeout : ℚ} (now : ℚ) (hlate : MAX_TIMEOUT < timeout) :
    ∃ e a', a.submitRead jobs draws device path timeout now = (.error e, a') ∧ a'.reason = a.reason := by
  have hregister : ∃ e, a.reads.register a.source device path timeout (fun _ => now) = (.error e, a.reads, a.source) := by
    unfold BrokerReads.register BrokerTransactions.register
    split
    · exact ⟨_, rfl⟩
    next hopen =>
    split
    · exact ⟨_, rfl⟩
    split
    · exact ⟨_, rfl⟩
    rw [if_neg fun hactive => hopen (.inr hactive), if_pos (.inr (.inr hlate))]
    exact ⟨_, rfl⟩
  obtain ⟨e, heq⟩ := hregister
  unfold submitRead
  split
  · exact ⟨_, _, rfl, rfl⟩
  split
  · exact ⟨_, _, rfl, rfl⟩
  rw [heq]
  exact ⟨_, _, rfl, rfl⟩

end BrokerAccount

end CamGuard.Account
