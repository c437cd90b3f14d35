/-
The order of an AV handshake, from what its senders account for (`Kept`) and what its
receiver was delivered (`Live`): START follows ACCEPT and the receipt of an INIT, CLOSE
follows readiness and ends everything else, and what was raised or closed is the end,
but for a `begin_finish` that comes too early.
-/
import CamGuard.Lib.Trace
import CamGuard.Media.AvControlSendFacts
import CamGuard.Media.AvHandshake

namespace CamGuard.Media

open AvReceiver

/-! ## INIT -/

namespace InitSender

variable {init init' : InitSender} {peer : Peer} {conv : Nat} {ms ms' : List Sent}

/-- How many sequences it has used. -/
def count : InitSender → Nat
  | .once r => min 1 r.attempts
  | .repeated q => q.count

def Kept (peer : Peer) (conv : Nat) (ms : List Sent) : InitSender → Prop
  | .once r => r.conv = conv ∧ r.sequence = 0 ∧ r.Kept peer .init ms ∧ ∀ n, n ≠ 0 → under (conv, n) ms = []
  | .repeated q => q.Kept peer conv ms

theorem Kept.used (h : Kept peer conv ms init) (n : Nat) : under (conv, n) ms ≠ [] ↔ n < init.count := by
  cases init with
  | repeated q => exact AvInitRequests.Kept.used h n
  | once r =>
    obtain ⟨hconv, hsequence, hkept, hothers⟩ := h
    by_cases hn : n = 0
    · have hcount := hkept.count
      rw [hconv, hsequence] at hcount
      rw [hn, ← List.length_pos_iff, hcount, count]
      omega
    · rw [hothers n hn, count]
      simp only [ne_eq, not_true_eq_false, false_iff]
      omega

theorem Kept.count_le (h : Kept peer conv ms init) : init.count ≤ if init.isRepeated then 25 else 1 := by
  cases init with
  | repeated q => exact AvInitRequests.Kept.count h
  | once r => exact Nat.min_le_left ..

theorem Kept.frame (h : Kept peer conv ms init) (hsame : ∀ n, under (conv, n) ms' = under (conv, n) ms) : Kept peer conv ms' init := by
  cases init with
  | repeated q => exact AvInitRequests.Kept.frame h hsame
  | once r =>
    obtain ⟨hconv, hsequence, hkept, hothers⟩ := h
    refine ⟨hconv, hsequence, hkept.frame ?_, fun n hn => ?_⟩
    · rw [hconv]
      exact hsame _
    · rw [hsame]
      exact hothers n hn

theorem poll_cases {clock : Nat → ℚ} {result : Except SenderFault Unit} (h : init.poll clock = (result, init')) :
    (result = .ok () ∧ init' = init) ∨ ∃ e, result = .error e ∧ e.isConfig = false := by
  cases init with
  | once r =>
    cases h
    rcases ReliableAvControl.poll_cases rfl with ⟨hok, hsame, -⟩ | herror
    · exact .inl ⟨hok, by rw [hsame]⟩
    · exact .inr herror
  | repeated q =>
    cases h
    rcases AvInitRequests.poll_cases rfl with ⟨hok, hsame⟩ | herror
    · exact .inl ⟨hok, by rw [hsame]⟩
    · exact .inr herror

/-- **INIT is due.** -/
theorem Kept.due (h : Kept peer conv ms init) {clock : RequestsClock} {result : Except SenderFault (Option Sent)}
    (hdue : init.due clock = (result, init')) :
    AvInitRequests.DueMove peer conv ms result fun ms' => Kept peer conv ms' init' ∧ init'.acknowledged = init.acknowledged ∧
      init'.isRepeated = init.isRepeated := by
  cases init with
  | repeated q =>
    cases hdue
    cases AvInitRequests.Kept.due h (rfl : q.due clock = _) with
    | fails e he hkind => exact .fails e he hkind
    | refuses e he hkept => exact .refuses e he ⟨hkept.1, hkept.2, rfl⟩
    | quiet he hkept => exact .quiet he ⟨hkept.1, hkept.2, rfl⟩
    | sends m hm r r' hsender hconv hsends hkept => exact .sends m hm r r' hsender hconv hsends ⟨hkept.1, hkept.2, rfl⟩
  | once r =>
    obtain ⟨hconv, hsequence, hkept, hothers⟩ := h
    cases hdue
    rcases ReliableAvControl.due_cases rfl with ⟨e, he, hkind⟩ | ⟨hnone, hsame⟩ | ⟨m, hm, hsends⟩
    · exact .fails e he hkind
    · refine .quiet hnone ?_
      rw [hsame]
      exact ⟨⟨hconv, hsequence, hkept, hothers⟩, rfl, rfl⟩
    · have hkey := hkept.key hsends
      have hnext := hsends.next
      refine .sends m hm r _ hkept hconv hsends ⟨⟨?_, ?_, hkept.sends hsends, fun n hn => ?_⟩, ?_, rfl⟩
      · rw [hnext]
        exact hconv
      · rw [hnext]
        exact hsequence
      · rw [under_append_other]
        · exact hothers n hn
        · rw [hkey, hsequence]
          intro hsome
          exact hn (Prod.mk.inj (Option.some.inj hsome)).2.symm
      · rw [acknowledged, hnext]
        rfl

theorem Kept.receiveAck (h : Kept peer conv ms init) {clock : AckClock} {wire : Bytes} {from_ : Peer} {received : Bool}
    (hack : init.receiveAck clock wire from_ = (.ok received, init')) :
    Kept peer conv ms init' ∧ init'.isRepeated = init.isRepeated ∧
      (init'.acknowledged = true → init.acknowledged = true ∨
        ∃ r : ReliableAvControl, r.Kept peer .init ms ∧ r.acks wire from_ = true) := by
  cases init with
  | repeated q =>
    rw [InitSender.receiveAck] at hack
    cases hq : q.receiveAck clock wire from_ with
    | mk result q' =>
      rw [hq] at hack
      cases hack
      obtain ⟨hkept, hacked⟩ := AvInitRequests.Kept.receiveAck h hq
      refine ⟨hkept, rfl, fun hyes => (hacked hyes).imp_right ?_⟩
      rintro ⟨r, hr, hracks⟩
      exact ⟨r, (AvInitRequests.Kept.each h r hr).2.2, hracks⟩
  | once r =>
    obtain ⟨hconv, hsequence, hkept, hothers⟩ := h
    rw [InitSender.receiveAck] at hack
    cases hr : r.receiveAck (clock.poll 0) wire from_ with
    | mk result r' =>
      rw [hr] at hack
      cases hack
      rcases ReliableAvControl.receiveAck_cases hr with ⟨e, he, -⟩ | ⟨-, hnoted⟩
      · cases he
      subst hnoted
      refine ⟨⟨?_, ?_, hkept.noted wire from_, hothers⟩, rfl, fun hyes => ?_⟩
      · rw [ReliableAvControl.noted]
        split <;> exact hconv
      · rw [ReliableAvControl.noted]
        split <;> exact hsequence
      · by_cases hracks : r.acks wire from_ = true
        · exact .inr ⟨r, hkept, hracks⟩
        · left
          rw [acknowledged, ReliableAvControl.noted, if_neg hracks] at hyes
          exact hyes

theorem Kept.stopRepeating (h : Kept peer conv ms init) : Kept peer conv ms init.stopRepeating := by
  cases init with
  | once r => exact h
  | repeated q => exact AvInitRequests.Kept.stopRepeating h

theorem stopRepeating_same (init : InitSender) :
    init.stopRepeating.acknowledged = init.acknowledged ∧ init.stopRepeating.isRepeated = init.isRepeated := by
  cases init with
  | once r => exact ⟨rfl, rfl⟩
  | repeated q =>
    refine ⟨?_, rfl⟩
    rw [stopRepeating, AvInitRequests.stopRepeating]
    split <;> rfl

end InitSender

/-! ## The log -/

/-- What was sent. -/
def sents (log : List HandshakeEntry) : List Sent :=
  log.filterMap fun
    | .sent m => some m
    | _ => none

/-- The messages of the control conversation. -/
def controlsOf (log : List HandshakeEntry) : List Bytes :=
  log.flatMap fun
    | .received _ _ controls _ => controls
    | _ => []

/-- The messages of the base conversation. -/
def basesOf (log : List HandshakeEntry) : List Bytes :=
  log.flatMap fun
    | .received _ _ _ base => base
    | _ => []

/-- What ends a handshake: `close`, and a `ReceiveError`, unless it only says that it is
too early for CLOSE. -/
def HandshakeEntry.Ends : HandshakeEntry → Prop
  | .closed => True
  | .raised e => e ≠ .refused ∧ e.isReceiveError = true
  | _ => False

/-- The peer has acknowledged an INIT that was sent before. -/
def Acknowledged (c : HandshakeConfig) (log : List HandshakeEntry) : Prop :=
  ∃ earlier wire controls base later, log = earlier ++ .received wire c.peer controls base :: later ∧
    ∃ segments, parseKcpSegments wire = .ok segments ∧ ∃ segment ∈ segments, segment.command = KCP_ACK ∧ segment.body = [] ∧
      ∃ m ∈ sents earlier, m.action = some AvAction.init.code ∧ m.key = some (segment.conv, segment.sequence) ∧
        m.segment.map KcpSegment.timestamp = some segment.timestamp

/-- An ACCEPT of this call has come. -/
def Accepted (c : HandshakeConfig) (log : List HandshakeEntry) : Prop :=
  ∃ message ∈ controlsOf log, checkControl c.callId message 2 = true

/-- The peer's START of this call has come. -/
def PeerStarted (c : HandshakeConfig) (log : List HandshakeEntry) : Prop :=
  ∃ message ∈ basesOf log, checkControl c.callId message 6 = true

/-- When something may be sent. -/
structure Ordered (c : HandshakeConfig) (before : List HandshakeEntry) (m : Sent) : Prop where
  start : m.action = some AvAction.start.code →
    Acknowledged c before ∧ Accepted c before ∧ (c.repeatInit = false → PeerStarted c before)
  close : m.action = some AvAction.close.code → .finishing true ∈ before
  finishing : (∃ ready, .finishing ready ∈ before) → m.action = some AvAction.close.code
  lives : ∀ e ∈ before, ¬ e.Ends

/-- The conversation of INIT. -/
def HandshakeConfig.initConv (c : HandshakeConfig) : Nat := c.linkId ||| 0x80000000

/-- What is sent: an INIT, the START or the CLOSE. -/
def Shaped (c : HandshakeConfig) (m : Sent) : Prop :=
  (m.action = some AvAction.init.code ∧ ∃ n, m.key = some (c.initConv, n)) ∨
    (m.action = some AvAction.start.code ∧ m.key = some (c.linkId, 0)) ∨
    (m.action = some AvAction.close.code ∧ m.key = some (c.linkId, 1))

/-- What the log says at any time. -/
structure Recorded (c : HandshakeConfig) (log : List HandshakeEntry) : Prop where
  ordered : Justified (fun before e => ∀ m, e = .sent m → Ordered c before m) log
  spaced : ∀ key, Spaced (under key (sents log))
  shaped : ∀ m ∈ sents log, Shaped c m
  used : ∃ k, k ≤ (if c.repeatInit then 25 else 1) ∧ ∀ n, under (c.initConv, n) (sents log) ≠ [] ↔ n < k

variable {c : HandshakeConfig} {log : List HandshakeEntry} {e : HandshakeEntry} {m : Sent}

theorem sents_quiet (h : ∀ m, e ≠ .sent m) : sents (log ++ [e]) = sents log := by
  cases e with
  | sent m => exact absurd rfl (h m)
  | _ => simp [sents]

theorem sents_sent : sents (log ++ [.sent m]) = sents log ++ [m] := by simp [sents]

theorem Recorded.quiet (h : Recorded c log) (hquiet : ∀ m, e ≠ .sent m) : Recorded c (log ++ [e]) := by
  refine ⟨h.ordered.snoc fun m heq => absurd heq (hquiet m), ?_, ?_, ?_⟩ <;> rw [sents_quiet hquiet]
  · exact h.spaced
  · exact h.shaped
  · exact h.used

theorem Acknowledged.append (h : Acknowledged c log) (more : List HandshakeEntry) : Acknowledged c (log ++ more) := by
  obtain ⟨earlier, wire, controls, base, later, rfl, hack⟩ := h
  exact ⟨earlier, wire, controls, base, later ++ more, by rw [List.append_assoc, List.cons_append], hack⟩

/-- **A datagram that acknowledges an INIT.** -/
theorem acknowledged_of_acks {r : ReliableAvControl} (hkept : r.Kept c.peer .init (sents log)) {wire : Bytes} {from_ : Peer}
    (hacks : r.acks wire from_ = true) (controls base : List Bytes) :
    Acknowledged c (log ++ [.received wire from_ controls base]) := by
  rw [ReliableAvControl.acks, Bool.and_eq_true, Bool.and_eq_true, decide_eq_true_eq] at hacks
  obtain ⟨⟨-, hattempts, hpeer, -⟩, hparse⟩ := hacks
  rw [hkept.peer] at hpeer
  subst hpeer
  split at hparse
  · cases hparse
  next segments hsegments =>
  obtain ⟨segment, hmem, hack⟩ := List.any_eq_true.mp hparse
  rw [ReliableAvControl.acknowledges, decide_eq_true_eq] at hack
  obtain ⟨hcommand, hconv, hsequence, hstamp, -, hbody⟩ := hack
  -- something was sent under its key
  have hsome : under (r.conv, r.sequence) (sents log) ≠ [] := by
    rw [← List.length_pos_iff, hkept.count]
    omega
  obtain ⟨m, hm⟩ := List.exists_mem_of_ne_nil _ hsome
  obtain ⟨hcode, hms⟩ := hkept.codes m hm
  obtain ⟨hsent, hkey⟩ := mem_under.mp hm
  refine ⟨log, wire, controls, base, [], rfl, segments, hsegments, segment, hmem, hcommand, hbody, m, hsent, hcode, ?_, ?_⟩
  · rw [hconv, hsequence]
    exact hkey
  · rw [hstamp]
    exact hms

/-! ## The receiver -/

section Receiver

variable {callId : Nat} {cookie : Bytes} {a : AvReceiver} {cs bs : List Bytes} {records : List V1Record}

theorem AvReceiver.Live.accept (h : Live callId cookie a cs bs records) (haccepted : a.accepted = true) :
    ∃ message ∈ cs, checkControl callId message 2 = true := by
  have hfit := h.fit
  rw [h.accepted] at haccepted
  cases cs with
  | nil => cases haccepted
  | cons message rest =>
    rw [controlsFit, Bool.false_and, if_neg Bool.false_ne_true, Bool.and_eq_true] at hfit
    exact ⟨message, List.mem_cons_self, hfit.1⟩

theorem AvReceiver.Live.start (h : Live callId cookie a cs bs records) (hstarted : a.started = true) :
    ∃ message ∈ bs, checkControl callId message 6 = true := by
  cases haccepted : a.accepted with
  | false =>
    have hbase := (h.wait haccepted).2.2.2.1
    have hfalse : a.base.started = false := by rw [hbase]
    rw [AvReceiver.base, hstarted] at hfalse
    cases hfalse
  | true =>
    have hread := (h.read haccepted).2
    cases bs with
    | nil =>
      rw [BaseStream.readAll, Option.some.injEq, Prod.mk.injEq] at hread
      have hfalse : a.base.started = false := by rw [← hread.2]
      rw [AvReceiver.base, hstarted] at hfalse
      cases hfalse
    | cons message rest =>
      have hfits := queueFits_of_readAll (b := {}) (by rw [hread]; rfl)
      simp only [queueFits, queues, Bool.not_false, true_or, if_true, Bool.and_eq_true] at hfits
      exact ⟨message, List.mem_cons_self, hfits.1.2⟩

end Receiver

/-! ## Open handshakes -/

namespace AvHandshake

variable {h h' : AvHandshake}

/-- A sender that is made once, and its transmissions. -/
def SenderKept (peer : Peer) (action : AvAction) (key : Nat × Nat) (ms : List Sent) : Option ReliableAvControl → Prop
  | none => under key ms = []
  | some r => (r.conv, r.sequence) = key ∧ r.Kept peer action ms

theorem SenderKept.frame {peer : Peer} {action : AvAction} {key : Nat × Nat} {ms ms' : List Sent} {sender : Option ReliableAvControl}
    (hkept : SenderKept peer action key ms sender) (hsame : under key ms' = under key ms) : SenderKept peer action key ms' sender := by
  cases sender with
  | none => exact hsame.trans hkept
  | some r =>
    refine ⟨hkept.1, hkept.2.frame ?_⟩
    rw [hkept.1]
    exact hsame

/-- The handshake is open, and the log is all there was. -/
structure Open (c : HandshakeConfig) (h : AvHandshake) (log : List HandshakeEntry) : Prop where
  opened : h.closed = false
  peer : h.peer = c.peer
  link : h.linkId = c.linkId
  repeated : h.init.isRepeated = c.repeatInit
  lives : ∀ e ∈ log, ¬ e.Ends
  init : h.init.Kept c.peer c.initConv (sents log)
  acknowledged : h.init.acknowledged = true → Acknowledged c log
  start : SenderKept c.peer .start (c.linkId, 0) (sents log) h.start
  finish : SenderKept c.peer .close (c.linkId, 1) (sents log) h.finish
  finishing : (∃ ready, .finishing ready ∈ log) → h.finish.isSome = true
  ready : h.finish.isSome = true → .finishing true ∈ log
  live : ∃ records, Live c.callId c.cookie h.receiver (controlsOf log) (basesOf log) records

theorem Open.used (ho : Open c h log) :
    ∃ k, k ≤ (if c.repeatInit then 25 else 1) ∧ ∀ n, under (c.initConv, n) (sents log) ≠ [] ↔ n < k := by
  refine ⟨h.init.count, ?_, ho.init.used⟩
  rw [← ho.repeated]
  exact ho.init.count_le

/-- An entry that only says that a call was refused. -/
theorem Open.refused (ho : Open c h log) {fault : HandshakeFault} (hfault : ¬ (HandshakeEntry.raised fault).Ends) :
    Open c h (log ++ [.raised fault]) := by
  have hsents : sents (log ++ [.raised fault]) = sents log := sents_quiet nofun
  have hcontrols : controlsOf (log ++ [.raised fault]) = controlsOf log := by simp [controlsOf]
  have hbases : basesOf (log ++ [.raised fault]) = basesOf log := by simp [basesOf]
  refine ⟨ho.opened, ho.peer, ho.link, ho.repeated, fun e he => ?_, ?_, fun hack => (ho.acknowledged hack).append _, ?_, ?_, fun hmem => ?_,
    fun hsome => List.mem_append_left _ (ho.ready hsome), ?_⟩
  · rw [List.mem_append, List.mem_singleton] at he
    rcases he with he | rfl
    · exact ho.lives e he
    · exact hfault
  · rw [hsents]
    exact ho.init
  · rw [hsents]
    exact ho.start
  · rw [hsents]
    exact ho.finish
  · obtain ⟨ready, hmem⟩ := hmem
    refine ho.finishing ⟨ready, ?_⟩
    simpa using hmem
  · rw [hcontrols, hbases]
    exact ho.live

/-- **`poll`**: it leaves the handshake as it is, or it closes it. -/
theorem poll_cases {clock : HandshakePoll} {result : Except HandshakeFault Unit} (hpoll : h.poll clock = (result, h')) :
    (result = .ok () ∧ h' = h ∧ h.closed = false) ∨ ∃ e, result = .error e ∧ h'.closed = true := by
  have hsender {now : ℚ} {sender sender' : Option ReliableAvControl} {result : Except SenderFault Unit}
      (hsender : pollSender now sender = (result, sender')) : (result = .ok () ∧ sender' = sender) ∨ ∃ e, result = .error e := by
    cases sender with
    | none =>
      cases hsender
      exact .inl ⟨rfl, rfl⟩
    | some r =>
      cases hsender
      rcases ReliableAvControl.poll_cases rfl with ⟨hok, hsame, -⟩ | ⟨e, he, -⟩
      · exact .inl ⟨hok, by rw [hsame]⟩
      · exact .inr ⟨e, he⟩
  rw [poll] at hpoll
  split at hpoll
  · cases hpoll
    exact .inr ⟨_, rfl, rfl⟩
  next hopen =>
  split at hpoll
  · cases hpoll
    exact .inr ⟨_, rfl, rfl⟩
  split at hpoll
  · cases hpoll
    exact .inr ⟨_, rfl, rfl⟩
  next init hinit =>
  obtain ⟨-, rfl⟩ := (InitSender.poll_cases hinit).resolve_right (by rintro ⟨e, he, -⟩; cases he)
  simp only at hpoll
  split at hpoll
  · cases hpoll
    exact .inr ⟨_, rfl, rfl⟩
  next start hstart =>
  obtain ⟨-, rfl⟩ := (hsender hstart).resolve_right (by rintro ⟨e, he⟩; cases he)
  split at hpoll
  · cases hpoll
    exact .inr ⟨_, rfl, rfl⟩
  next finish hfinish =>
  obtain ⟨-, rfl⟩ := (hsender hfinish).resolve_right (by rintro ⟨e, he⟩; cases he)
  split at hpoll
  · cases hpoll
    exact .inr ⟨_, rfl, rfl⟩
  next receiver hreceiver =>
    cases hpoll
    obtain ⟨-, rfl⟩ := (AvReceiver.poll_cases hreceiver).resolve_right (by rintro ⟨e, he, -⟩; cases he)
    exact .inl ⟨rfl, rfl, by simpa using hopen⟩

/-! ## What is due -/

theorem initConv_ne (hlink : c.linkId ≤ 0xFFFFFF) : c.initConv ≠ c.linkId := by
  have hle : 0x80000000 ≤ c.initConv := Nat.right_le_or
  omega

theorem Open.sent {init : InitSender} {start finish : Option ReliableAvControl} (ho : Open c h log)
    (hinit : init.Kept c.peer c.initConv (sents log ++ [m])) (hacknowledged : init.acknowledged = h.init.acknowledged)
    (hrepeated : init.isRepeated = h.init.isRepeated) (hstart : SenderKept c.peer .start (c.linkId, 0) (sents log ++ [m]) start)
    (hfinish : SenderKept c.peer .close (c.linkId, 1) (sents log ++ [m]) finish) (hsome : finish.isSome = h.finish.isSome) :
    Open c { h with init := init, start := start, finish := finish } (log ++ [.sent m]) := by
  have hcontrols : controlsOf (log ++ [.sent m]) = controlsOf log := by simp [controlsOf]
  have hbases : basesOf (log ++ [.sent m]) = basesOf log := by simp [basesOf]
  refine ⟨ho.opened, ho.peer, ho.link, hrepeated.trans ho.repeated, fun e he => ?_, ?_, fun hack => ?_, ?_, ?_, fun hmem => ?_,
    fun hyes => ?_, ?_⟩
  · rw [List.mem_append, List.mem_singleton] at he
    rcases he with he | rfl
    · exact ho.lives e he
    · exact id
  · rw [sents_sent]
    exact hinit
  · exact (ho.acknowledged (hacknowledged.symm.trans hack)).append _
  · rw [sents_sent]
    exact hstart
  · rw [sents_sent]
    exact hfinish
  · obtain ⟨ready, hmem⟩ := hmem
    rw [hsome]
    refine ho.finishing ⟨ready, ?_⟩
    simpa using hmem
  · exact List.mem_append_left _ (ho.ready (hsome.symm.trans hyes))
  · rw [hcontrols, hbases]
    exact ho.live

/-- **The log behind a transmission.** -/
theorem Open.recorded {r r' : ReliableAvControl} {action : AvAction} (ho : Open c h (log ++ [.sent m])) (hr : Recorded c log)
    (hkept : r.Kept c.peer action (sents log)) (hsends : ReliableAvControl.Sends r r' m) (hshaped : Shaped c m)
    (hordered : Ordered c log m) : Recorded c (log ++ [.sent m]) := by
  refine ⟨hr.ordered.snoc fun m' heq => ?_, ?_, fun m' hm' => ?_, ho.used⟩
  · cases heq
    exact hordered
  · rw [sents_sent]
    exact hkept.spaced hsends hr.spaced
  · rw [sents_sent, List.mem_append, List.mem_singleton] at hm'
    rcases hm' with hm' | rfl
    · exact hr.shaped m' hm'
    · exact hshaped

/-- How `due` goes on an open handshake. -/
inductive DueCase (c : HandshakeConfig) (log : List HandshakeEntry) (result : Except HandshakeFault (Option Sent)) (h' : AvHandshake) :
    Prop where
  | fails (e : HandshakeFault) (error : result = .error e) (closed : h'.closed = true)
  | refuses (e : HandshakeFault) (error : result = .error e) (lives : ¬ (HandshakeEntry.raised e).Ends) (opened : Open c h' log)
  | quiet (silent : result = .ok none) (opened : Open c h' log)
  | sends (m : Sent) (some_ : result = .ok (some m)) (opened : Open c h' (log ++ [.sent m])) (recorded : Recorded c (log ++ [.sent m]))

theorem senderFault_cases {e : SenderFault} (h : AvHandshake) (he : e.isConfig = false) : (h.senderFault e).2.closed = true := by
  cases e with
  | config e => cases he
  | _ => rfl

theorem Open.due_finish {r r' : ReliableAvControl} (ho : Open c h log) (hr : Recorded c log) (hlink : c.linkId ≤ 0xFFFFFF)
    (hfinish : h.finish = some r) (hsends : ReliableAvControl.Sends r r' m) :
    Open c { h with finish := some r' } (log ++ [.sent m]) ∧ Recorded c (log ++ [.sent m]) := by
  have hfin := ho.finish
  rw [hfinish] at hfin
  obtain ⟨hkey, hkept⟩ := hfin
  have hsent := hkept.key hsends
  rw [hkey] at hsent
  have hopen : Open c { h with finish := some r' } (log ++ [.sent m]) := by
    refine ho.sent (ho.init.frame fun n => under_append_other ?_) rfl rfl (ho.start.frame (under_append_other ?_)) ⟨?_, hkept.sends hsends⟩
      (by rw [hfinish]; rfl)
    · rw [hsent]
      intro heq
      exact initConv_ne hlink (Prod.mk.inj (Option.some.inj heq)).1.symm
    · rw [hsent]
      intro heq
      cases (Prod.mk.inj (Option.some.inj heq)).2
    · rw [hsends.next]
      exact hkey
  refine ⟨hopen, hopen.recorded hr hkept hsends (.inr (.inr ⟨hkept.code hsends, hsent⟩)) ⟨fun hcode => ?_, fun _ => ?_, fun _ => ?_, ho.lives⟩⟩
  · rw [hkept.code hsends] at hcode
    cases hcode
  · exact ho.ready (by rw [hfinish]; rfl)
  · exact hkept.code hsends

theorem Open.due_init {r r' : ReliableAvControl} {init : InitSender} (ho : Open c h log) (hr : Recorded c log)
    (hlink : c.linkId ≤ 0xFFFFFF) (hnone : h.finish = none) (hkept : r.Kept c.peer .init (sents log)) (hconv : r.conv = c.initConv)
    (hsends : ReliableAvControl.Sends r r' m)
    (hinit : init.Kept c.peer c.initConv (sents log ++ [m]) ∧ init.acknowledged = h.init.acknowledged ∧ init.isRepeated = h.init.isRepeated) :
    Open c { h with init := init } (log ++ [.sent m]) ∧ Recorded c (log ++ [.sent m]) := by
  have hsent := hkept.key hsends
  rw [hconv] at hsent
  have hother (n : Nat) : m.key ≠ some (c.linkId, n) := by
    rw [hsent]
    intro heq
    exact initConv_ne hlink (Prod.mk.inj (Option.some.inj heq)).1
  have hopen : Open c { h with init := init } (log ++ [.sent m]) :=
    ho.sent hinit.1 hinit.2.1 hinit.2.2 (ho.start.frame (under_append_other (hother 0)))
      (ho.finish.frame (under_append_other (hother 1))) rfl
  have hcode := hkept.code hsends
  refine ⟨hopen, hopen.recorded hr hkept hsends (.inl ⟨hcode, _, hsent⟩) ⟨fun hstart => ?_, fun hclose => ?_, fun hfinishing => ?_, ho.lives⟩⟩
  · rw [hcode] at hstart
    cases hstart
  · rw [hcode] at hclose
    cases hclose
  · have hsome := ho.finishing hfinishing
    rw [hnone] at hsome
    cases hsome

theorem Open.due_start {r r' : ReliableAvControl} (ho : Open c h log) (hr : Recorded c log) (hlink : c.linkId ≤ 0xFFFFFF)
    (hnone : h.finish = none) (hacknowledged : h.init.acknowledged = true) (haccepted : h.receiver.accepted = true)
    (hstarted : h.receiver.started = true ∨ h.init.isRepeated = true) (hkey : (r.conv, r.sequence) = (c.linkId, 0))
    (hkept : r.Kept c.peer .start (sents log)) (hsends : ReliableAvControl.Sends r r' m) :
    Open c { h with start := some r' } (log ++ [.sent m]) ∧ Recorded c (log ++ [.sent m]) := by
  have hsent := hkept.key hsends
  rw [hkey] at hsent
  have hopen : Open c { h with start := some r' } (log ++ [.sent m]) := by
    refine ho.sent (ho.init.frame fun n => under_append_other ?_) rfl rfl ⟨?_, hkept.sends hsends⟩
      (ho.finish.frame (under_append_other ?_)) rfl
    · rw [hsent]
      intro heq
      exact initConv_ne hlink (Prod.mk.inj (Option.some.inj heq)).1.symm
    · rw [hsends.next]
      exact hkey
    · rw [hsent]
      intro heq
      cases (Prod.mk.inj (Option.some.inj heq)).2
  have hcode := hkept.code hsends
  obtain ⟨records, hlive⟩ := ho.live
  refine ⟨hopen, hopen.recorded hr hkept hsends (.inr (.inl ⟨hcode, hsent⟩)) ⟨fun _ => ?_, fun hclose => ?_, fun hfinishing => ?_, ho.lives⟩⟩
  · refine ⟨ho.acknowledged hacknowledged, hlive.accept haccepted, fun honce => hlive.start (hstarted.resolve_right fun hrepeated => ?_)⟩
    rw [ho.repeated, honce] at hrepeated
    cases hrepeated
  · rw [hcode] at hclose
    cases hclose
  · have hsome := ho.finishing hfinishing
    rw [hnone] at hsome
    cases hsome

theorem Open.dueStart (ho : Open c h log) (hr : Recorded c log) (hlink : c.linkId ≤ 0xFFFFFF) (hnone : h.finish = none)
    (hacknowledged : h.init.acknowledged = true) (haccepted : h.receiver.accepted = true)
    (hstarted : h.receiver.started = true ∨ h.init.isRepeated = true) {clock : HandshakeDue}
    {result : Except HandshakeFault (Option Sent)} (hdue : h.dueStart clock = (result, h')) : DueCase c log result h' := by
  have hstart := ho.start
  unfold AvHandshake.dueStart at hdue
  cases hsender : h.start with
  | some r =>
    rw [hsender] at hstart
    simp only [hsender] at hdue
    split at hdue
    next e r' hr' =>
      cases hdue
      rcases ReliableAvControl.due_cases hr' with ⟨e', he, hkind⟩ | ⟨hquiet, -⟩ | ⟨m, hm, -⟩
      · cases he
        exact .fails _ rfl (senderFault_cases _ hkind)
      · cases hquiet
      · cases hm
    next sent r' hr' =>
      cases hdue
      rcases ReliableAvControl.due_cases hr' with ⟨e', he, -⟩ | ⟨hquiet, hsame⟩ | ⟨m, hm, hsends⟩
      · cases he
      · cases hquiet
        refine .quiet rfl ?_
        rw [hsame, ← hsender]
        exact ho
      · cases hm
        obtain ⟨hopen, hrecorded⟩ := ho.due_start hr hlink hnone hacknowledged haccepted hstarted hstart.1 hstart.2 hsends
        exact .sends m rfl hopen hrecorded
  | none =>
    rw [hsender] at hstart
    simp only [hsender] at hdue
    split at hdue
    next e hnew =>
      cases hdue
      exact .refuses _ rfl (fun hends => Bool.false_ne_true hends.2) ho
    next r hnew =>
      rw [ho.peer, ho.link] at hnew
      obtain ⟨-, hconv, hsequence, -, hwaiting, hattempts, hlast, -⟩ := ReliableAvControl.new_ok hnew
      rw [if_neg (by decide)] at hconv
      have hkey : (r.conv, r.sequence) = (c.linkId, 0) := by rw [hconv, hsequence]
      have hkept : r.Kept c.peer .start (sents log) := ReliableAvControl.kept_new hnew (by rw [hkey]; exact hstart)
      split at hdue
      next e r' hr' =>
        cases hdue
        rcases ReliableAvControl.due_new hr' hwaiting hattempts hlast with ⟨e', he, hkind⟩ | ⟨m, hm, -⟩
        · cases he
          exact .fails _ rfl (senderFault_cases _ hkind)
        · cases hm
      next sent r' hr' =>
        cases hdue
        rcases ReliableAvControl.due_new hr' hwaiting hattempts hlast with ⟨e', he, -⟩ | ⟨m, hm, hsends⟩
        · cases he
        · cases hm
          obtain ⟨hopen, hrecorded⟩ := ho.due_start hr hlink hnone hacknowledged haccepted hstarted hkey hkept hsends
          exact .sends m rfl hopen hrecorded

theorem Open.with_init {init : InitSender} (ho : Open c h log) (hinit : init.Kept c.peer c.initConv (sents log) ∧
    init.acknowledged = h.init.acknowledged ∧ init.isRepeated = h.init.isRepeated) : Open c { h with init := init } log :=
  ⟨ho.opened, ho.peer, ho.link, hinit.2.2.trans ho.repeated, ho.lives, hinit.1,
    fun hack => ho.acknowledged (hinit.2.1.symm.trans hack), ho.start, ho.finish, ho.finishing, ho.ready, ho.live⟩

/-- **What is due** is in order, or the handshake is over. -/
theorem Open.due (ho : Open c h log) (hr : Recorded c log) (hlink : c.linkId ≤ 0xFFFFFF) {clock : HandshakeDue}
    {result : Except HandshakeFault (Option Sent)} (hdue : h.due clock = (result, h')) : DueCase c log result h' := by
  rw [AvHandshake.due] at hdue
  split at hdue
  next e h₁ hpoll =>
    cases hdue
    rcases poll_cases hpoll with ⟨hok, -⟩ | ⟨e, he, hclosed⟩
    · cases hok
    · cases he
      exact .fails _ rfl hclosed
  next h₁ hpoll =>
  obtain ⟨-, heq, -⟩ := (poll_cases hpoll).resolve_right (by rintro ⟨e, he, -⟩; cases he)
  rw [heq] at hdue
  split at hdue
  next r hfinish =>
    split at hdue
    next e r' hr' =>
      cases hdue
      rcases ReliableAvControl.due_cases hr' with ⟨e', he, hkind⟩ | ⟨hquiet, -⟩ | ⟨m, hm, -⟩
      · cases he
        exact .fails _ rfl (senderFault_cases _ hkind)
      · cases hquiet
      · cases hm
    next sent r' hr' =>
      cases hdue
      rcases ReliableAvControl.due_cases hr' with ⟨e', he, -⟩ | ⟨hquiet, hsame⟩ | ⟨m, hm, hsends⟩
      · cases he
      · cases hquiet
        refine .quiet rfl ?_
        rw [hsame, ← hfinish]
        exact ho
      · cases hm
        obtain ⟨hopen, hrecorded⟩ := ho.due_finish hr hlink hfinish hsends
        exact .sends m rfl hopen hrecorded
  next hnone =>
    split at hdue
    next hwaits =>
      split at hdue
      next e init hinit =>
        cases hdue
        cases ho.init.due hinit with
        | fails e' he hkind =>
          cases he
          exact .fails _ rfl (senderFault_cases _ hkind)
        | refuses e' he hkept =>
          cases he
          exact .refuses _ rfl (fun hends => Bool.false_ne_true hends.2) (ho.with_init hkept)
        | quiet he => cases he
        | sends m he => cases he
      next sent init hinit =>
        cases hdue
        cases ho.init.due hinit with
        | fails e' he => cases he
        | refuses e' he => cases he
        | quiet he hkept =>
          cases he
          exact .quiet rfl (ho.with_init hkept)
        | sends m he r r' hkept hconv hsends hinit' =>
          cases he
          obtain ⟨hopen, hrecorded⟩ := ho.due_init hr hlink hnone hkept hconv hsends hinit'
          exact .sends m rfl hopen hrecorded
    next hgoes =>
      rw [not_or, Bool.not_eq_false] at hgoes
      split at hdue
      next hstart => exact ho.dueStart hr hlink hnone hgoes.1 hstart.1 hstart.2 hdue
      · cases hdue
        exact .quiet rfl ho

/-! ## What is received -/

theorem SenderKept.acks {peer : Peer} {action : AvAction} {key : Nat × Nat} {ms : List Sent}
    {sender sender' : Option ReliableAvControl} (hkept : SenderKept peer action key ms sender) {now : ℚ} {wire : Bytes} {from_ : Peer}
    {received : Bool} (hack : ackSender now wire from_ sender = (.ok received, sender')) :
    SenderKept peer action key ms sender' ∧ sender'.isSome = sender.isSome := by
  cases sender with
  | none =>
    cases hack
    exact ⟨hkept, rfl⟩
  | some r =>
    rw [ackSender] at hack
    cases hr : r.receiveAck now wire from_ with
    | mk result r' =>
      rw [hr] at hack
      cases hack
      rcases ReliableAvControl.receiveAck_cases hr with ⟨e, he, -⟩ | ⟨-, hnoted⟩
      · cases he
      subst hnoted
      refine ⟨⟨?_, hkept.2.noted wire from_⟩, rfl⟩
      rw [ReliableAvControl.noted]
      split <;> exact hkept.1

/-- **A datagram is taken**, or the handshake is over. -/
theorem Open.handle (ho : Open c h log) {call : HandshakeReceive} {result : Except HandshakeFault AvReceiveBatch}
    (hhandle : h.handle call = (result, h')) :
    (∃ e, result = .error e ∧ h'.closed = true) ∨ ∃ batch, result = .ok batch ∧
      Open c h' (log ++ [.received call.call.wire call.call.peer (h.receiver.delivered call.call).1 (h.receiver.delivered call.call).2]) := by
  rw [AvHandshake.handle] at hhandle
  split at hhandle
  · cases hhandle
    exact .inl ⟨_, rfl, rfl⟩
  next init hinit =>
  simp only at hhandle
  split at hhandle
  · cases hhandle
    exact .inl ⟨_, rfl, rfl⟩
  next start hstart =>
  split at hhandle
  · cases hhandle
    exact .inl ⟨_, rfl, rfl⟩
  next finish hfinish =>
  split at hhandle
  · cases hhandle
    exact .inl ⟨_, rfl, rfl⟩
  next batch receiver hreceiver =>
  cases hhandle
  refine .inr ⟨batch, rfl, ?_⟩
  obtain ⟨hinitKept, hrepeated, hacked⟩ := ho.init.receiveAck hinit
  obtain ⟨hstartKept, -⟩ := ho.start.acks hstart
  obtain ⟨hfinishKept, hsome⟩ := ho.finish.acks hfinish
  obtain ⟨records, hlive⟩ := ho.live
  generalize hentry : HandshakeEntry.received call.call.wire call.call.peer (h.receiver.delivered call.call).1
    (h.receiver.delivered call.call).2 = entry
  have hsents : sents (log ++ [entry]) = sents log := sents_quiet (by subst hentry; exact nofun)
  have hlive' : ∃ records, Live c.callId c.cookie receiver (controlsOf (log ++ [entry])) (basesOf (log ++ [entry])) records := by
    rw [AvReceiver.receive] at hreceiver
    split at hreceiver
    · cases hreceiver
    next hhandled =>
      cases hreceiver
      have hcontrols : controlsOf (log ++ [entry]) = controlsOf log ++ (h.receiver.delivered call.call).1 := by
        subst hentry
        simp [controlsOf]
      have hbases : basesOf (log ++ [entry]) = basesOf log ++ (h.receiver.delivered call.call).2 := by
        subst hentry
        simp [basesOf]
      rw [hcontrols, hbases]
      exact ⟨_, hlive.handle_ok hhandled⟩
  have hopen : Open c { h with init := init, start := start, finish := finish, receiver := receiver } (log ++ [entry]) := by
    refine ⟨ho.opened, ho.peer, ho.link, hrepeated.trans ho.repeated, fun e he => ?_, ?_, fun hack => ?_, ?_, ?_, fun hmem => ?_,
      fun hyes => List.mem_append_left _ (ho.ready (hsome.symm.trans hyes)), hlive'⟩
    · rw [List.mem_append, List.mem_singleton] at he
      rcases he with he | rfl
      · exact ho.lives e he
      · subst hentry
        exact id
    · rw [hsents]
      exact hinitKept
    · rcases hacked hack with hbefore | ⟨r, hkept, hacks⟩
      · exact (ho.acknowledged hbefore).append _
      · subst hentry
        exact acknowledged_of_acks hkept hacks _ _
    · rw [hsents]
      exact hstartKept
    · rw [hsents]
      exact hfinishKept
    · obtain ⟨ready, hmem⟩ := hmem
      rw [hsome]
      refine ho.finishing ⟨ready, ?_⟩
      subst hentry
      simpa using hmem
  split
  · exact hopen.with_init ⟨hopen.init.stopRepeating, InitSender.stopRepeating_same init⟩
  · exact hopen

/-- **`begin_finish`** is for a handshake that is ready. -/
theorem Open.beginFinish (ho : Open c h log) {clock : HandshakePoll} {created : ℚ} {result : Except HandshakeFault Unit}
    (hbegin : h.beginFinish clock created = (result, h')) :
    (∃ e, result = .error e ∧ (h'.closed = true ∨ ¬ (HandshakeEntry.raised e).Ends ∧ Open c h' log)) ∨
      result = .ok () ∧ Open c h' (log ++ [.finishing h.ready]) := by
  have hlog (ready : Bool) : sents (log ++ [.finishing ready]) = sents log ∧
      controlsOf (log ++ [.finishing ready]) = controlsOf log ∧ basesOf (log ++ [.finishing ready]) = basesOf log := by
    simp [sents, controlsOf, basesOf]
  -- the entry, with the sender of CLOSE that is there now
  have hopen (ready : Bool) {finish : Option ReliableAvControl}
      (hfinish : SenderKept c.peer .close (c.linkId, 1) (sents log) finish) (hsome : finish.isSome = true)
      (hready : .finishing true ∈ log ++ [.finishing ready]) :
      Open c { h with finish := finish } (log ++ [.finishing ready]) := by
    obtain ⟨hsents, hcontrols, hbases⟩ := hlog ready
    refine ⟨ho.opened, ho.peer, ho.link, ho.repeated, fun e he => ?_, ?_, fun hack => (ho.acknowledged hack).append _, ?_, ?_,
      fun _ => hsome, fun _ => hready, ?_⟩
    · rw [List.mem_append, List.mem_singleton] at he
      rcases he with he | rfl
      · exact ho.lives e he
      · exact id
    · rw [hsents]
      exact ho.init
    · rw [hsents]
      exact ho.start
    · rw [hsents]
      exact hfinish
    · rw [hcontrols, hbases]
      exact ho.live
  rw [AvHandshake.beginFinish] at hbegin
  split at hbegin
  next e h₁ hpoll =>
    cases hbegin
    rcases poll_cases hpoll with ⟨hok, -⟩ | ⟨e, he, hclosed⟩
    · cases hok
    · cases he
      exact .inl ⟨_, rfl, .inl hclosed⟩
  next h₁ hpoll =>
  obtain ⟨-, heq, -⟩ := (poll_cases hpoll).resolve_right (by rintro ⟨e, he, -⟩; cases he)
  rw [heq] at hbegin
  split at hbegin
  next hsome =>
    cases hbegin
    exact .inr ⟨rfl, hopen h.ready ho.finish hsome (List.mem_append_left _ (ho.ready hsome))⟩
  next hnone =>
  split at hbegin
  · cases hbegin
    exact .inl ⟨_, rfl, .inr ⟨fun hends => hends.1 rfl, ho⟩⟩
  next hready =>
  rw [Bool.not_eq_false] at hready
  split at hbegin
  · cases hbegin
    exact .inl ⟨_, rfl, .inr ⟨fun hends => Bool.false_ne_true hends.2, ho⟩⟩
  next r hnew =>
    cases hbegin
    rw [ho.peer, ho.link] at hnew
    obtain ⟨-, hconv, hsequence, -⟩ := ReliableAvControl.new_ok hnew
    rw [if_neg (by decide)] at hconv
    have hkey : (r.conv, r.sequence) = (c.linkId, 1) := by rw [hconv, hsequence]
    have hunused : under (c.linkId, 1) (sents log) = [] := by
      have hfinish := ho.finish
      rw [Bool.not_eq_true, Option.isSome_eq_false_iff, Option.isNone_iff_eq_none] at hnone
      rw [hnone] at hfinish
      exact hfinish
    refine .inr ⟨rfl, hopen h.ready ⟨hkey, ReliableAvControl.kept_new hnew (by rw [hkey]; exact hunused)⟩ rfl ?_⟩
    rw [hready]
    simp

/-- **A new handshake** is open, with nothing sent. -/
theorem open_new (hnew : new c = .ok h) : Open c h [] ∧ c.linkId ≤ 0xFFFFFF := by
  rw [new] at hnew
  split at hnew
  · cases hnew
  next init hinit =>
  split at hnew
  · cases hnew
  next receiver hreceiver =>
  cases hnew
  obtain ⟨hlive, hlink⟩ := AvSession.live_new hreceiver
  have hkept : init.Kept c.peer c.initConv (sents []) ∧ init.acknowledged = false ∧ init.isRepeated = c.repeatInit := by
    rw [newInit] at hinit
    split at hinit
    next hrepeat =>
      cases hinit
      exact ⟨⟨rfl, rfl, rfl, by simp, .nil, Nat.zero_le _, fun n => by simp [under, sents]⟩, rfl, hrepeat.symm⟩
    next honce =>
      split at hinit
      · cases hinit
      next r hr =>
        cases hinit
        obtain ⟨-, hconv, hsequence, -, hwaiting, -⟩ := ReliableAvControl.new_ok hr
        rw [if_pos rfl] at hconv
        rw [Bool.not_eq_true] at honce
        exact ⟨⟨hconv, hsequence, ReliableAvControl.kept_new hr rfl, fun _ _ => rfl⟩, hwaiting, honce.symm⟩
  refine ⟨⟨rfl, rfl, rfl, hkept.2.2, by simp, hkept.1, fun hack => ?_, rfl, rfl, ?_, by simp, _, hlive⟩, hlink⟩
  · rw [hkept.2.1] at hack
    cases hack
  · rintro ⟨ready, hmem⟩
    cases hmem

end AvHandshake

/-! ## Runs -/

namespace HandshakeRun

open AvHandshake

variable {s : HandshakeRun}

structure Inv (c : HandshakeConfig) (s : HandshakeRun) : Prop where
  recorded : Recorded c s.log
  state : s.handshake.closed = true ∨ Open c s.handshake s.log

theorem Inv.raises {h' : AvHandshake} (h : Inv c s) {fault : HandshakeFault}
    (hends : h'.closed = true ∨ ¬ (HandshakeEntry.raised fault).Ends ∧ Open c h' s.log) : Inv c ⟨h', s.log ++ [.raised fault]⟩ := by
  refine ⟨h.recorded.quiet nofun, ?_⟩
  rcases hends with hclosed | ⟨hlives, hopen⟩
  · exact .inl hclosed
  · exact .inr (hopen.refused hlives)

theorem poll_closed {h : AvHandshake} (hclosed : h.closed = true) (clock : HandshakePoll) :
    h.poll clock = (.error .closed, h.close) := by
  rw [AvHandshake.poll, if_pos hclosed]

/-- **A step of a handshake.** -/
theorem Inv.step (h : Inv c s) (hlink : c.linkId ≤ 0xFFFFFF) (call : HandshakeCall) : Inv c (s.step call) := by
  rcases h.state with hclosed | hopen
  · cases call with
    | due clock =>
      rw [HandshakeRun.step, AvHandshake.due, poll_closed hclosed]
      exact h.raises (.inl rfl)
    | receive call =>
      rw [HandshakeRun.step, AvHandshake.receive, poll_closed hclosed]
      exact h.raises (.inl rfl)
    | poll clock =>
      rw [HandshakeRun.step, poll_closed hclosed]
      exact h.raises (.inl rfl)
    | beginFinish clock created =>
      rw [HandshakeRun.step, AvHandshake.beginFinish, poll_closed hclosed]
      exact h.raises (.inl rfl)
    | close => exact ⟨h.recorded.quiet nofun, .inl rfl⟩
  · cases call with
    | due clock =>
      rw [HandshakeRun.step]
      cases hdue : s.handshake.due clock with
      | mk result h' =>
        cases hopen.due h.recorded hlink hdue with
        | fails e he hclosed =>
          rw [he]
          exact h.raises (.inl hclosed)
        | refuses e he hlives hopen' =>
          rw [he]
          exact h.raises (.inr ⟨hlives, hopen'⟩)
        | quiet he hopen' =>
          rw [he]
          exact ⟨h.recorded, .inr hopen'⟩
        | sends m he hopen' hrecorded =>
          rw [he]
          exact ⟨hrecorded, .inr hopen'⟩
    | receive call =>
      rw [HandshakeRun.step, AvHandshake.receive]
      cases hpoll : s.handshake.poll call.poll with
      | mk result h' =>
        rcases AvHandshake.poll_cases hpoll with ⟨rfl, rfl, -⟩ | ⟨e, rfl, hclosed⟩
        swap
        · exact h.raises (.inl hclosed)
        simp only
        by_cases hattempts : s.handshake.init.attempts = 0
        · rw [if_pos hattempts]
          simp only [if_pos hattempts]
          exact h
        rw [if_neg hattempts]
        cases hhandle : s.handshake.handle call with
        | mk result h' =>
          rcases hopen.handle hhandle with ⟨e, rfl, hclosed⟩ | ⟨batch, rfl, hopen'⟩
          · exact h.raises (.inl hclosed)
          · simp only [if_neg hattempts]
            exact ⟨h.recorded.quiet nofun, .inr hopen'⟩
    | poll clock =>
      rw [HandshakeRun.step]
      cases hpoll : s.handshake.poll clock with
      | mk result h' =>
        rcases AvHandshake.poll_cases hpoll with ⟨rfl, rfl, -⟩ | ⟨e, rfl, hclosed⟩
        · exact h
        · exact h.raises (.inl hclosed)
    | beginFinish clock created =>
      rw [HandshakeRun.step]
      cases hbegin : s.handshake.beginFinish clock created with
      | mk result h' =>
        rcases hopen.beginFinish hbegin with ⟨e, rfl, hends⟩ | ⟨rfl, hopen'⟩
        · exact h.raises hends
        · exact ⟨h.recorded.quiet nofun, .inr hopen'⟩
    | close => exact ⟨h.recorded.quiet nofun, .inl rfl⟩

theorem inv_run {h : AvHandshake} (hnew : AvHandshake.new c = .ok h) (calls : List HandshakeCall) : Inv c (run h calls) := by
  obtain ⟨hopen, hlink⟩ := open_new hnew
  induction calls using List.reverseRecOn with
  | nil => exact ⟨⟨justified_nil _, fun _ => spaced_nil, nofun, hopen.used⟩, .inr hopen⟩
  | append_singleton calls call ih =>
    rw [run, List.foldl_append]
    exact ih.step hlink call

/-- **The order of an AV handshake**, in every run. A START follows the receipt of an INIT
and an ACCEPT of the call, and without repeated INIT the peer's START too; a CLOSE
follows a `begin_finish` that found the handshake ready, and then nothing else is sent;
and nothing is sent behind `close` or a `ReceiveError`, unless `begin_finish` said that
it is too early. What is sent under one conversation and sequence is `Spaced`, and the
sequences of INIT are the first ones. -/
theorem handshake_ordered {h : AvHandshake} (hnew : AvHandshake.new c = .ok h) (calls : List HandshakeCall) :
    let log := (run h calls).log
    Justified (fun before e => ∀ m, e = .sent m → Ordered c before m) log ∧
      (∀ m ∈ sents log, Shaped c m) ∧ (∀ key, Spaced (under key (sents log))) ∧
      ∃ k, k ≤ (if c.repeatInit then 25 else 1) ∧
        ∀ n, (∃ m ∈ sents log, m.action = some AvAction.init.code ∧ m.key = some (c.initConv, n)) ↔ n < k := by
  intro log
  have hrecorded : Recorded c log := (inv_run hnew calls).recorded
  obtain ⟨k, hk, hused⟩ := hrecorded.used
  refine ⟨hrecorded.ordered, hrecorded.shaped, hrecorded.spaced, k, hk, fun n => ?_⟩
  rw [← hused n]
  constructor
  · rintro ⟨m, hm, -, hkey⟩
    exact List.ne_nil_of_mem (mem_under.mpr ⟨hm, hkey⟩)
  · intro hne
    obtain ⟨m, hm⟩ := List.exists_mem_of_ne_nil _ hne
    obtain ⟨hsent, hkey⟩ := mem_under.mp hm
    refine ⟨m, hsent, ?_, hkey⟩
    have hlink := (open_new hnew).2
    rcases hrecorded.shaped m hsent with ⟨hcode, -⟩ | ⟨-, hother⟩ | ⟨-, hother⟩
    · exact hcode
    · rw [hkey] at hother
      exact absurd (Prod.mk.inj (Option.some.inj hother)).1 (initConv_ne hlink)
    · rw [hkey] at hother
      exact absurd (Prod.mk.inj (Option.some.inj hother)).1 (initConv_ne hlink)

/-- A call in which the clock stands still. -/
def stillPoll (t : ℚ) : HandshakePoll := ⟨t, fun _ => t, t, t, ⟨⟨t, t⟩, t, t⟩⟩

def stillDue (t : ℚ) : HandshakeDue :=
  ⟨stillPoll t, ⟨t, t⟩, ⟨fun _ => t, fun _ => ⟨t, t⟩, t, t, ⟨t, t⟩⟩, t, ⟨t, t⟩⟩

def stillReceive (t : ℚ) (wire : Bytes) (peer : Peer) : HandshakeReceive :=
  ⟨stillPoll t, ⟨fun _ => t, fun _ => t⟩, t, t,
    ⟨wire, peer, ⟨⟨t, t⟩, t, t⟩, t, fun _ => ⟨t, t, t⟩, ⟨⟨t, t⟩, t, fun _ => ⟨t, t, t⟩, t⟩, t, fun _ => ⟨t, t, fun _ => ⟨t, t⟩⟩,
      fun _ => ⟨t, t, fun _ => ⟨t, t⟩⟩⟩⟩

/-- A handshake over UDP. -/
def udpConfig : HandshakeConfig :=
  ⟨("192.0.2.1", 40000), 0x010203, 77, List.replicate 8 1, none, true, .finite, 0, 0, 0⟩

/-- INIT, its receipt, ACCEPT, and START. -/
def udpCalls : List HandshakeCall :=
  [.due (stillDue 0),
    .receive (stillReceive (1 / 10) ((buildKcpAck udpConfig.initConv 0 0 0 128).toOption.getD []) udpConfig.peer),
    .receive (stillReceive (2 / 10) ((buildKcpPush udpConfig.initConv 0 (buildAvControl 77 2) 5 0 128).toOption.getD []) udpConfig.peer),
    .due (stillDue (3 / 10))]

theorem handshake_ordered_start : ∃ h, AvHandshake.new udpConfig = .ok h ∧
    (sents (run h udpCalls).log).map Sent.action = [some AvAction.init.code, some AvAction.start.code] ∧
    Justified (fun before e => ∀ m, e = .sent m → Ordered udpConfig before m) (run h udpCalls).log := by
  have hsent : ((AvHandshake.new udpConfig).toOption.map fun h => (sents (run h udpCalls).log).map Sent.action) =
      some [some AvAction.init.code, some AvAction.start.code] := by decide +kernel
  cases hnew : AvHandshake.new udpConfig with
  | error e =>
    rw [hnew] at hsent
    cases hsent
  | ok h =>
    rw [hnew] at hsent
    exact ⟨h, rfl, Option.some.inj hsent, (handshake_ordered hnew udpCalls).1⟩

/-- Something is sent behind a call that was refused, and nothing else happens. -/
def sendsBehindRefused : List HandshakeEntry → Bool
  | [.raised .refused, .sent _] => true
  | _ => false

/-- A `begin_finish` that comes too early raises, and INIT is sent behind it. -/
theorem sent_behind_refused : ∃ h m, AvHandshake.new udpConfig = .ok h ∧ HandshakeFault.refused.isReceiveError = true ∧
    (run h [.beginFinish (stillPoll 0) 0, .due (stillDue 0)]).log = [.raised .refused, .sent m] := by
  have hlog : ((AvHandshake.new udpConfig).toOption.any fun h =>
      sendsBehindRefused (run h [.beginFinish (stillPoll 0) 0, .due (stillDue 0)]).log) = true := by decide +kernel
  cases hnew : AvHandshake.new udpConfig with
  | error e =>
    rw [hnew] at hlog
    cases hlog
  | ok h =>
    rw [hnew, Except.toOption, Option.any_some, sendsBehindRefused.eq_def] at hlog
    split at hlog
    next m hentries => exact ⟨h, m, rfl, rfl, hentries⟩
    · cases hlog

end HandshakeRun

end CamGuard.Media
