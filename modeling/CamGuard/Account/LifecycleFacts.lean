/-
The generations of an account in every interleaving (`account_lifecycle`): one
run at a time, an end that is idle only with a verified summary, tickets that
stay with their generation, and a drain or a stop that reaches the worker.

The invariant (`Inv`) says where the one run is that has not ended (`Running`);
each function keeps it by a lemma of its own name.
-/
import CamGuard.Account.Lifecycle
import CamGuard.Lib.Trace

namespace CamGuard.Account

/-! ## Workers -/

namespace AccountReadWorker

/-- The inboxes are of the worker's generation. -/
def Own (w : AccountReadWorker) : Prop := ∀ i ∈ w.inboxes, i.generation = w.generation

/-- A stop has reached the worker. -/
def Stopped (w : AccountReadWorker) : Prop := w.stopSet = true ∧ ∀ i ∈ w.inboxes, i.closed = true

/-- A drain has reached the worker. -/
def Drained (w : AccountReadWorker) : Prop := w.drainSet = true ∧ ∀ i ∈ w.inboxes, i.closed = true

theorem own_new (generation : Nat) (stateReads motion : Bool) : (new generation stateReads motion).Own := by
  intro i hi
  obtain ⟨kind, -, rfl⟩ := List.mem_map.mp hi
  rfl

theorem own_closeInboxes {w : AccountReadWorker} (h : w.Own) : w.closeInboxes.Own := by
  intro i hi
  obtain ⟨j, hj, rfl⟩ := List.mem_map.mp hi
  split
  · exact h j hj
  · exact h j hj

theorem own_closeMailbox {w : AccountReadWorker} (h : w.Own) : w.closeMailbox.Own := by
  intro i hi
  obtain ⟨j, hj, rfl⟩ := List.mem_map.mp hi
  split
  · exact h j hj
  · exact h j hj

theorem own_setInbox {w : AccountReadWorker} {inbox : Inbox} (h : w.Own) (hinbox : inbox.generation = w.generation) :
    (w.setInbox inbox).Own := by
  intro i hi
  obtain ⟨j, hj, rfl⟩ := List.mem_map.mp hi
  split
  · exact hinbox
  · exact h j hj

theorem inbox_generation {w : AccountReadWorker} (h : w.Own) {kind : InboxKind} {inbox : Inbox}
    (hinbox : w.inbox kind = some inbox) : inbox.generation = w.generation :=
  h inbox (List.mem_of_find?_eq_some hinbox)

/-- With the mailbox and the other inboxes closed, all are. -/
theorem closed_all (w : AccountReadWorker) : ∀ i ∈ w.closeMailbox.closeInboxes.inboxes, i.closed = true := by
  intro i hi
  obtain ⟨j, hj, rfl⟩ := List.mem_map.mp hi
  obtain ⟨k, hk, rfl⟩ := List.mem_map.mp hj
  by_cases hkind : k.kind = .mailbox
  · rw [if_pos hkind]
    have hclosed : (k.close).kind = .mailbox := hkind
    rw [if_pos hclosed]
    rfl
  · rw [if_neg hkind, if_neg hkind]
    rfl

theorem stopped_stop (w : AccountReadWorker) : w.closeMailbox.stop.Stopped := ⟨rfl, closed_all w⟩

theorem drained_drain (w : AccountReadWorker) : w.closeMailbox.drain.Drained := ⟨rfl, closed_all w⟩

theorem stopped_drain {w : AccountReadWorker} (h : w.Stopped) : w.closeMailbox.drain.Stopped := ⟨h.1, closed_all w⟩

end AccountReadWorker

namespace Inbox

theorem submit_some {i inbox : Inbox} {room : Bool} {ticket : InboxTicket} (h : i.submit room = (some ticket, inbox)) :
    ticket.generation = i.generation ∧ inbox.generation = i.generation := by
  unfold Inbox.submit at h
  split at h
  · cases h
  · cases h
    exact ⟨rfl, rfl⟩

end Inbox

/-! ## Summaries -/

/-- What a summary has to prove: nothing of the session is left, and no motor or
siren may still be on. -/
structure WorkerSummary.Proves (s : WorkerSummary) (leases : Bool) : Prop where
  socket : s.socketCloseFailed = false
  certain : s.leaseCleanupUncertain = false
  channels : ∀ channel ∈ s.mediaChannels,
    (∃ media, channel.media = some media ∧ (media.opened = true → media.brokerRelease = true)) ∧
      (∀ tcp, channel.tcp = some tcp → tcp.socketCloseFailed = false ∧ (tcp.closeAcknowledged = true ∨ leases = true)) ∧
      ∀ udp, channel.udp = some udp → udp.detached = true
  media : ∀ media, s.media = some media → media.opened = true → media.brokerRelease = true
  tcp : ∀ tcp, s.tcp = some tcp → tcp.socketCloseFailed = false ∧ (tcp.closeAcknowledged = true ∨ leases = true)
  motion : ∀ motion, s.motion = some motion → motion.startAttempted = true → motion.releaseDeliveryConfirmed = true
  siren : ∀ siren, s.siren = some siren → siren.startAttempted = true → siren.offConfirmed = true

theorem implies_iff (a : Bool) (p : Prop) : (a = false ∨ p) ↔ (a = true → p) := by
  cases a with
  | false => simp
  | true => simp

theorem WorkerSummary.verified_iff (s : WorkerSummary) (leases : Bool) : s.verified leases = true ↔ s.Proves leases := by
  simp only [WorkerSummary.verified, mediaChannelsClosed, Bool.and_eq_true, List.all_eq_true, Option.all_eq_true,
    Option.any_eq_true, Bool.not_eq_true', Bool.or_eq_true, Bool.not_not, implies_iff]
  constructor
  · rintro ⟨⟨⟨⟨⟨⟨hsocket, hcertain⟩, hchannels⟩, hmedia⟩, htcp⟩, hmotion⟩, hsiren⟩
    exact ⟨hsocket, hcertain, fun channel hc => ⟨(hchannels channel hc).1.1, (hchannels channel hc).1.2,
      (hchannels channel hc).2⟩, hmedia, htcp, hmotion, hsiren⟩
  · intro h
    exact ⟨⟨⟨⟨⟨⟨h.socket, h.certain⟩, fun channel hc => ⟨⟨(h.channels channel hc).1, (h.channels channel hc).2.1⟩,
      (h.channels channel hc).2.2⟩⟩, h.media⟩, h.tcp⟩, h.motion⟩, h.siren⟩

namespace LifecycleSystem

/-! ## Logs -/

/-- An entry since the claim of a generation. -/
def Since (log : List LifecycleEntry) (generation : Nat) (entry : LifecycleEntry) : Prop :=
  ∃ before after, log = before ++ .claimed generation :: after ∧ entry ∈ after

theorem since_snoc (log : List LifecycleEntry) (last : LifecycleEntry) (generation : Nat) (entry : LifecycleEntry) :
    Since (log ++ [last]) generation entry ↔
      Since log generation entry ∨ (.claimed generation ∈ log ∧ last = entry) := by
  constructor
  · rintro ⟨before, after, hsplit, hentry⟩
    rcases List.eq_nil_or_concat after with rfl | ⟨after', last', rfl⟩
    · cases hentry
    · rw [List.concat_eq_append, ← List.cons_append, ← List.append_assoc] at hsplit
      obtain ⟨hlog, hlast⟩ := List.append_inj' hsplit rfl
      cases hlast
      rw [List.concat_eq_append, List.mem_append, List.mem_singleton] at hentry
      rcases hentry with hentry | rfl
      · exact .inl ⟨before, after', hlog, hentry⟩
      · exact .inr ⟨by rw [hlog]; simp, rfl⟩
  · rintro (⟨before, after, rfl, hentry⟩ | ⟨hclaimed, rfl⟩)
    · exact ⟨before, after ++ [last], by simp, by simp [hentry]⟩
    · obtain ⟨before, after, rfl⟩ := List.append_of_mem hclaimed
      exact ⟨before, after ++ [last], by simp, by simp⟩

theorem since_other {log : List LifecycleEntry} {last : LifecycleEntry} {generation : Nat} {entry : LifecycleEntry}
    (h : last ≠ entry) : Since (log ++ [last]) generation entry ↔ Since log generation entry := by
  rw [since_snoc]
  exact or_iff_left fun hlast => h hlast.2

/-- What an entry says is so, given what was before it. -/
def Right (before : List LifecycleEntry) : LifecycleEntry → Prop
  | .claimed generation => ∀ earlier, .claimed earlier ∈ before → earlier < generation
  | .started generation worker =>
    worker.generation = generation ∧ (Since before generation .stop → worker.Stopped) ∧
      (Since before generation .drain → worker.Drained ∨ worker.Stopped)
  | .cleaned generation worker => worker.generation = generation ∧ worker.stopSet = true
  | .settled _ leases summary state =>
    (state = .idle ∧ ∃ proof, summary = some proof ∧ proof.Proves leases) ∨
      (state = .blocked ∧ ∀ proof, summary = some proof → ¬ proof.Proves leases)
  | _ => True

/-- A worker has given out a ticket, or was passed it. -/
def Sent (log : List LifecycleEntry) (ticket : InboxTicket) (worker : Nat) : Prop :=
  .issued ticket worker ∈ log ∨ ∃ call, .forwarded call ticket worker ∈ log

/-! ## The invariant -/

/-- The generations of the workers there were. -/
def generations (s : LifecycleSystem) : List Nat := s.workers.map AccountReadWorker.generation

/-- What holds whatever the runs are doing. -/
structure Base (s : LifecycleSystem) : Prop where
  own : ∀ worker ∈ s.workers, worker.Own
  rising : s.generations.Pairwise (· < ·)
  bounded : ∀ generation ∈ s.generations, generation ≤ s.life.generation
  reached : ∀ w, s.life.worker = some w → s.generations[w]? = some s.life.generation
  tickets : ∀ ticket w, Sent s.log ticket w → s.generations[w]? = some ticket.generation
  right : Justified Right s.log
  runs : (s.runs.map Run.generation).Pairwise (· < ·)
  latest : ∀ generation ∈ s.runs.map Run.generation, generation ≤ s.life.generation
  claims : ∀ generation, .claimed generation ∈ s.log → generation ≤ s.life.generation

/-- Where the worker of a run is. -/
def Placed (s : LifecycleSystem) (r : Run) : RunPhase → Prop
  | .connect => r.worker = none ∧ s.life.worker = none
  | .leases _ => r.worker = none ∧ s.life.worker = none
  | .build => r.worker = none ∧ s.life.worker = none
  | .route => s.life.worker = none
  | .reads => s.life.worker = none
  | .publish => s.life.worker = none
  | .start => s.life.worker = r.worker ∧ ∀ w worker, r.worker = some w → s.workers[w]? = some worker →
      (s.life.stop = true → worker.Stopped) ∧ (s.life.drain = true → worker.Drained ∨ worker.Stopped)
  | .work => s.life.worker = r.worker
  | .cleanup => s.life.worker = none
  | .settle => True
  | .ended => True

/-- The lifecycle is this run's. -/
structure Owner (s : LifecycleSystem) (r : Run) : Prop where
  current : r.generation = s.life.generation
  stoppable : s.life.stoppable = true
  claimed : .claimed r.generation ∈ s.log
  stop : s.life.stop = true ↔ Since s.log r.generation .stop
  drain : s.life.drain = true ↔ Since s.log r.generation .drain
  active : s.life.state = .active → s.life.stop = false ∧ s.life.drain = false
  fresh : r.worker = none → ∀ generation ∈ s.generations, generation < r.generation
  worker : ∀ w, r.worker = some w → s.generations[w]? = some r.generation

structure Running (s : LifecycleSystem) (r : Run) : Prop extends Owner s r where
  placed : s.Placed r r.phase

structure Inv (s : LifecycleSystem) : Prop extends Base s where
  last : ∀ i r, s.runs[i]? = some r → r.phase ≠ .ended → i + 1 = s.runs.length
  running : ∀ r ∈ s.runs, r.phase ≠ .ended → s.Running r
  quiet : (∀ r ∈ s.runs, r.phase = .ended) → s.life.state = .idle ∨ s.life.state = .blocked

variable {s : LifecycleSystem}

/-! ## Workers in their places -/

theorem generations_modify (workers : List AccountReadWorker) (w : Nat) {f : AccountReadWorker → AccountReadWorker}
    (hf : ∀ worker, (f worker).generation = worker.generation) :
    (workers.modify w f).map AccountReadWorker.generation = workers.map AccountReadWorker.generation := by
  apply List.ext_getElem?
  intro j
  rw [List.getElem?_map, List.getElem?_map, List.getElem?_modify]
  split
  · cases workers[j]? with
    | none => rfl
    | some worker => simp [hf]
  · simp

theorem mem_modify {workers : List AccountReadWorker} {w : Nat} {f : AccountReadWorker → AccountReadWorker}
    {worker : AccountReadWorker} (h : worker ∈ workers.modify w f) :
    worker ∈ workers ∨ ∃ old, workers[w]? = some old ∧ worker = f old := by
  obtain ⟨j, hj⟩ := List.mem_iff_getElem?.mp h
  by_cases hw : w = j
  · subst hw
    rw [List.getElem?_modify_eq] at hj
    cases hold : workers[w]? with
    | none => simp [hold] at hj
    | some old =>
      rw [hold] at hj
      cases hj
      exact .inr ⟨old, rfl, rfl⟩
  · rw [List.getElem?_modify_ne f workers hw] at hj
    exact .inl (List.mem_iff_getElem?.mpr ⟨j, hj⟩)

/-- The worker in a place is of the generation that is known of the place. -/
theorem generation_of_place {w generation : Nat} {worker : AccountReadWorker}
    (h : s.generations[w]? = some generation) (hworker : s.workers[w]? = some worker) :
    worker.generation = generation := by
  simpa [generations, hworker] using h

/-! ## Entries -/

theorem Base.note (h : s.Base) {entry : LifecycleEntry} (hright : Right s.log entry)
    (hclaim : ∀ generation, entry = .claimed generation → generation ≤ s.life.generation)
    (hsent : ∀ ticket w, Sent [entry] ticket w → s.generations[w]? = some ticket.generation) :
    (note entry s).Base where
  own := h.own
  rising := h.rising
  bounded := h.bounded
  reached := h.reached
  tickets := by
    rintro ticket w (hissued | ⟨call, hforwarded⟩)
    · rcases List.mem_append.mp hissued with hold | hnew
      · exact h.tickets ticket w (.inl hold)
      · exact hsent ticket w (.inl hnew)
    · rcases List.mem_append.mp hforwarded with hold | hnew
      · exact h.tickets ticket w (.inr ⟨call, hold⟩)
      · exact hsent ticket w (.inr ⟨call, hnew⟩)
  right := h.right.snoc hright
  runs := h.runs
  latest := h.latest
  claims := by
    intro generation hmem
    rcases List.mem_append.mp hmem with hold | hnew
    · exact h.claims generation hold
    · exact hclaim generation (List.mem_singleton.mp hnew).symm

/-- Workers are in another state, and nothing else is. -/
theorem Base.modify (h : s.Base) (w : Nat) {f : AccountReadWorker → AccountReadWorker}
    (hf : ∀ worker, (f worker).generation = worker.generation)
    (hown : ∀ worker, s.workers[w]? = some worker → worker.Own → (f worker).Own) :
    Base { s with workers := s.workers.modify w f } where
  own := by
    intro worker hmem
    rcases mem_modify hmem with hold | ⟨old, hplace, rfl⟩
    · exact h.own worker hold
    · exact hown old hplace (h.own old (List.mem_of_getElem? hplace))
  rising := by simpa only [generations, generations_modify _ _ hf] using h.rising
  bounded := by simpa only [generations, generations_modify _ _ hf] using h.bounded
  reached := by simpa only [generations, generations_modify _ _ hf] using h.reached
  tickets := by simpa only [generations, generations_modify _ _ hf] using h.tickets
  right := h.right
  runs := h.runs
  latest := h.latest
  claims := h.claims

/-- The lifecycle is in another state, of the same generation. -/
theorem Base.life (h : s.Base) (life : AccountReadLifecycle) (hgeneration : life.generation = s.life.generation)
    (hworker : ∀ w, life.worker = some w → s.generations[w]? = some s.life.generation) :
    Base { s with life := life } where
  own := h.own
  rising := h.rising
  bounded := by simpa only [generations, hgeneration] using h.bounded
  reached := by simpa only [generations, hgeneration] using hworker
  tickets := h.tickets
  right := h.right
  runs := h.runs
  latest := by simpa only [hgeneration] using h.latest
  claims := by simpa only [hgeneration] using h.claims

/-- The owner is so with more entries, but for those that it counts. -/
theorem Owner.note {r : Run} (h : s.Owner r) {entry : LifecycleEntry} (hstop : entry ≠ .stop)
    (hdrain : entry ≠ .drain) : (note entry s).Owner r where
  current := h.current
  stoppable := h.stoppable
  claimed := List.mem_append_left _ h.claimed
  stop := h.stop.trans (since_other hstop).symm
  drain := h.drain.trans (since_other hdrain).symm
  active := h.active
  fresh := h.fresh
  worker := h.worker

theorem Owner.modify {r : Run} (h : s.Owner r) (w : Nat) {f : AccountReadWorker → AccountReadWorker}
    (hf : ∀ worker, (f worker).generation = worker.generation) :
    Owner { s with workers := s.workers.modify w f } r where
  current := h.current
  stoppable := h.stoppable
  claimed := h.claimed
  stop := h.stop
  drain := h.drain
  active := h.active
  fresh := by simpa only [generations, generations_modify _ _ hf] using h.fresh
  worker := by simpa only [generations, generations_modify _ _ hf] using h.worker

/-! ## Tickets -/

/-- A ticket that a worker's inbox has given out. -/
theorem Base.issue (h : s.Base) {w : Nat} {worker : AccountReadWorker} {kind : InboxKind} {inbox inbox' : Inbox}
    {room : Bool} {ticket : InboxTicket} (hworker : s.workers[w]? = some worker)
    (hinbox : worker.inbox kind = some inbox) (hsubmit : inbox.submit room = (some ticket, inbox')) :
    (LifecycleSystem.note (.issued ticket w)
      { s with workers := s.workers.modify w (AccountReadWorker.setInbox inbox') }).Base := by
  have hown : worker.Own := h.own worker (List.mem_of_getElem? hworker)
  have hgeneration := AccountReadWorker.inbox_generation hown hinbox
  obtain ⟨hticket, hnext⟩ := Inbox.submit_some hsubmit
  have hkeeps : ∀ old : AccountReadWorker, (old.setInbox inbox').generation = old.generation := fun _ => rfl
  have hbase : Base { s with workers := s.workers.modify w (AccountReadWorker.setInbox inbox') } := by
    refine h.modify w hkeeps fun old hold hown' => ?_
    rw [hworker] at hold
    cases hold
    exact AccountReadWorker.own_setInbox hown (hnext.trans hgeneration)
  refine hbase.note trivial (fun generation heq => by cases heq) fun ticket' w' hsent => ?_
  have hsame : ticket' = ticket ∧ w' = w := by simpa [Sent] using hsent
  obtain ⟨rfl, rfl⟩ := hsame
  have hplace : s.generations[w']? = some worker.generation := by simp [generations, hworker]
  rw [hticket, hgeneration]
  simpa only [generations, generations_modify _ _ hkeeps] using hplace

theorem reach_some {kind : InboxKind} {w : Nat} {inbox : Inbox} (h : s.reach kind = some (w, inbox)) :
    s.life.worker = some w ∧ ∃ worker, s.workers[w]? = some worker ∧ worker.inbox kind = some inbox := by
  simp only [reach, Option.bind_eq_some_iff, Option.map_eq_some_iff, Prod.mk.injEq] at h
  obtain ⟨w', hw, worker, hworker, inbox', hinbox, rfl, rfl⟩ := h
  exact ⟨hw, worker, hworker, hinbox⟩

/-- Nothing is accepted but in the active state, from the worker that there is. -/
theorem submitTo_ok {call : SubmitCall} {room : Bool} {ticket : InboxTicket} {s' : LifecycleSystem}
    (h : s.submitTo call room = (.ok ticket, s')) :
    s.life.state = .active ∧ ∃ w worker inbox inbox', s.life.worker = some w ∧ s.workers[w]? = some worker ∧
      worker.inbox call.kind = some inbox ∧ inbox.submit room = (some ticket, inbox') ∧
      s' = LifecycleSystem.note (.issued ticket w)
        { s with workers := s.workers.modify w (AccountReadWorker.setInbox inbox') } := by
  unfold submitTo at h
  split at h
  · cases h
  rename_i hactive
  split at h
  · cases h
  rename_i w inbox hreach
  split at h
  · cases h
  rename_i ticket' inbox' hsubmit
  cases h
  obtain ⟨hw, worker, hworker, hinbox⟩ := reach_some hreach
  exact ⟨not_not.mp hactive, w, worker, inbox, inbox', hw, hworker, hinbox, hsubmit, rfl⟩

theorem submitTo_error {call : SubmitCall} {room : Bool} {e : LifecycleFault} {s' : LifecycleSystem}
    (h : s.submitTo call room = (.error e, s')) : s' = s := by
  unfold submitTo at h
  split at h
  · cases h
    rfl
  split at h
  · cases h
    rfl
  split at h
  · cases h
    rfl
  · cases h

theorem submit_cases (call : SubmitCall) (room : Bool) (s : LifecycleSystem) :
    s.submit call room = s.submitTo call room ∨ ∃ e, s.submit call room = (.error e, s) := by
  unfold submit
  split
  · split
    · exact .inr ⟨_, rfl⟩
    · split
      · exact .inr ⟨_, rfl⟩
      · exact .inl rfl
  · exact .inl rfl

/-- The runs and what is known of them are as they were. -/
theorem Inv.of (h : s.Inv) {s' : LifecycleSystem} (hbase : s'.Base) (hruns : s'.runs = s.runs)
    (hrunning : ∀ r ∈ s.runs, r.phase ≠ .ended → s.Running r → s'.Running r)
    (hquiet : s.life.state = .idle ∨ s.life.state = .blocked → s'.life.state = .idle ∨ s'.life.state = .blocked) :
    s'.Inv where
  toBase := hbase
  last := by
    rw [hruns]
    exact h.last
  running := by
    rw [hruns]
    exact fun r hr hlive => hrunning r hr hlive (h.running r hr hlive)
  quiet := by
    rw [hruns]
    exact fun hended => hquiet (h.quiet hended)

theorem submit_inv (call : SubmitCall) (room : Bool) (h : s.Inv) : (s.submit call room).2.Inv := by
  rcases submit_cases call room s with heq | ⟨e, heq⟩
  · rw [heq]
    cases hto : s.submitTo call room with
    | mk out s' =>
      cases out with
      | error e =>
        rw [submitTo_error hto]
        exact h
      | ok ticket =>
        obtain ⟨hactive, w, worker, inbox, inbox', -, hworker, hinbox, hsubmit, rfl⟩ := submitTo_ok hto
        refine h.of (h.issue hworker hinbox hsubmit) rfl (fun r _ _ hr => ?_) id
        have howner : Owner { s with workers := s.workers.modify w (AccountReadWorker.setInbox inbox') } r :=
          hr.toOwner.modify w fun _ => rfl
        refine ⟨howner.note (fun heq => by cases heq) (fun heq => by cases heq), ?_⟩
        -- The run is active, so nothing was asked of its worker.
        obtain ⟨hstop, hdrain⟩ := hr.active hactive
        have hplaced := hr.placed
        cases hphase : r.phase with
        | start =>
          rw [hphase] at hplaced
          refine ⟨hplaced.1, fun _ _ _ _ => ⟨fun hset => ?_, fun hset => ?_⟩⟩
          · cases hstop.symm.trans hset
          · cases hdrain.symm.trans hset
        | _ =>
          rw [hphase] at hplaced
          exact hplaced
  · rw [heq]
    exact h

theorem address_inv (call : TicketCall) (ticket : InboxTicket) (h : s.Inv) : (s.address call ticket).Inv := by
  unfold address
  split
  · exact h
  rename_i hgeneration
  split
  · exact h
  rename_i w inbox hreach
  obtain ⟨hw, -⟩ := reach_some hreach
  refine h.of (h.note trivial (fun generation heq => by cases heq) ?_) rfl (fun r _ _ hr => ?_) id
  · intro ticket' w' hsent
    have hsame : ticket' = ticket ∧ w' = w := by simpa [Sent, eq_comm] using hsent
    obtain ⟨rfl, rfl⟩ := hsame
    rw [not_not.mp hgeneration]
    exact h.reached w' hw
  · refine ⟨hr.toOwner.note (fun heq => by cases heq) (fun heq => by cases heq), ?_⟩
    have hplaced := hr.placed
    cases hphase : r.phase with
    | _ =>
      rw [hphase] at hplaced
      exact hplaced

/-! ## Drain and stop -/

/-- With no run in progress there is nothing that an entry has to reach. -/
theorem Inv.note_quiet (h : s.Inv) {entry : LifecycleEntry} (hbase : (LifecycleSystem.note entry s).Base)
    (hstoppable : s.life.stoppable = false) : (LifecycleSystem.note entry s).Inv := by
  refine h.of hbase rfl (fun r _ _ hr => ?_) id
  rw [hr.stoppable] at hstoppable
  cases hstoppable

/-- The worker that was published is told too. -/
theorem tell_inv (h : s.Inv) (hstoppable : s.life.stoppable = true) {entry : LifecycleEntry}
    (hentry : entry = .drain ∨ entry = .stop) (life : AccountReadLifecycle)
    (hgeneration : life.generation = s.life.generation) (hworker : life.worker = s.life.worker)
    (hstate : life.state = .draining) (hstop : life.stop = true ↔ s.life.stop = true ∨ entry = .stop)
    (hdrain : life.drain = true ↔ s.life.drain = true ∨ entry = .drain)
    {f : AccountReadWorker → AccountReadWorker} (hf : ∀ worker, (f worker).generation = worker.generation)
    (hown : ∀ worker : AccountReadWorker, worker.Own → (f worker).Own)
    (htold : ∀ worker : AccountReadWorker, (s.life.stop = true → worker.Stopped) →
      (s.life.drain = true → worker.Drained ∨ worker.Stopped) →
      (life.stop = true → (f worker).Stopped) ∧ (life.drain = true → (f worker).Drained ∨ (f worker).Stopped)) :
    (LifecycleSystem.note entry { s with
      life := life
      workers := s.life.worker.elim s.workers fun w => s.workers.modify w f }).Inv := by
  have hgens : (s.life.worker.elim s.workers fun w => s.workers.modify w f).map AccountReadWorker.generation =
      s.generations := by
    cases s.life.worker with
    | none => rfl
    | some w => exact generations_modify _ _ hf
  have hbase : Base { s with
      life := life
      workers := s.life.worker.elim s.workers fun w => s.workers.modify w f } := by
    have hlife : ∀ w, life.worker = some w → s.generations[w]? = some s.life.generation := by
      rw [hworker]
      exact h.reached
    cases hw : s.life.worker with
    | none => exact h.toBase.life life hgeneration hlife
    | some w =>
      refine (h.modify w hf fun worker _ => hown worker).life life hgeneration ?_
      simpa only [generations, generations_modify _ _ hf] using hlife
  have hnoted : (LifecycleSystem.note entry { s with
      life := life
      workers := s.life.worker.elim s.workers fun w => s.workers.modify w f }).Base := by
    rcases hentry with rfl | rfl
    · exact hbase.note trivial (fun generation heq => by cases heq) fun ticket w hsent => by simp [Sent] at hsent
    · exact hbase.note trivial (fun generation heq => by cases heq) fun ticket w hsent => by simp [Sent] at hsent
  refine h.of hnoted rfl (fun r _ _ hr => ?_) fun hquiet => ?_
  · refine ⟨⟨hr.current.trans hgeneration.symm, ?_, List.mem_append_left _ hr.claimed, ?_, ?_, ?_, ?_, ?_⟩, ?_⟩
    · simp [LifecycleSystem.note, AccountReadLifecycle.stoppable, hstate]
    · refine hstop.trans ((since_snoc s.log entry r.generation .stop).trans ?_).symm
      rw [← hr.stop, and_iff_right hr.claimed]
    · refine hdrain.trans ((since_snoc s.log entry r.generation .drain).trans ?_).symm
      rw [← hr.drain, and_iff_right hr.claimed]
    · intro hactive
      cases hstate.symm.trans hactive
    · exact fun hnone generation hmem => hr.fresh hnone generation (by rwa [← hgens])
    · exact fun w hw => (congrArg (·[w]?) hgens).trans (hr.worker w hw)
    · have hplaced := hr.placed
      cases hphase : r.phase with
      | start =>
        rw [hphase] at hplaced
        refine ⟨hworker.trans hplaced.1, fun w worker hw hplace => ?_⟩
        have hlife : s.life.worker = some w := hplaced.1.trans hw
        simp only [LifecycleSystem.note, hlife, Option.elim_some, List.getElem?_modify_eq,
          Option.map_eq_map, Option.map_eq_some_iff] at hplace
        obtain ⟨old, hold, rfl⟩ := hplace
        exact htold old (hplaced.2 w old hw hold).1 (hplaced.2 w old hw hold).2
      | connect =>
        rw [hphase] at hplaced
        exact ⟨hplaced.1, hworker.trans hplaced.2⟩
      | leases connection =>
        rw [hphase] at hplaced
        exact ⟨hplaced.1, hworker.trans hplaced.2⟩
      | build =>
        rw [hphase] at hplaced
        exact ⟨hplaced.1, hworker.trans hplaced.2⟩
      | settle => trivial
      | ended => trivial
      | _ =>
        rw [hphase] at hplaced
        exact hworker.trans hplaced
  · rcases hquiet with hidle | hblocked
    · simp [AccountReadLifecycle.stoppable, hidle] at hstoppable
    · simp [AccountReadLifecycle.stoppable, hblocked] at hstoppable

theorem drain_inv (h : s.Inv) : (LifecycleSystem.note .drain s.drain).Inv := by
  unfold LifecycleSystem.drain
  split
  · rename_i hstoppable
    exact h.note_quiet (h.note trivial (fun generation heq => by cases heq) fun ticket w hsent => by simp [Sent] at hsent)
      hstoppable
  · rename_i hstoppable
    refine tell_inv h (by simpa using hstoppable) (.inl rfl) { s.life with state := .draining, drain := true } rfl rfl rfl
      (by simp) (by simp) (f := fun worker => worker.closeMailbox.drain) (fun _ => rfl) (fun worker hown => ?_) fun worker hstop _ => ?_
    · exact AccountReadWorker.own_closeInboxes (AccountReadWorker.own_closeMailbox hown)
    · exact ⟨fun hset => AccountReadWorker.stopped_drain (hstop hset),
        fun _ => .inl (AccountReadWorker.drained_drain worker)⟩

theorem stop_inv (h : s.Inv) : (LifecycleSystem.note .stop s.stop).Inv := by
  unfold LifecycleSystem.stop
  split
  · rename_i hstoppable
    exact h.note_quiet (h.note trivial (fun generation heq => by cases heq) fun ticket w hsent => by simp [Sent] at hsent)
      hstoppable
  · rename_i hstoppable
    refine tell_inv h (by simpa using hstoppable) (.inr rfl) { s.life with state := .draining, stop := true } rfl rfl rfl
      (by simp) (by simp) (f := fun worker => worker.closeMailbox.stop) (fun _ => rfl) (fun worker hown => ?_) fun worker _ _ => ?_
    · exact AccountReadWorker.own_closeInboxes (AccountReadWorker.own_closeMailbox hown)
    · exact ⟨fun _ => AccountReadWorker.stopped_stop worker, fun _ => .inr (AccountReadWorker.stopped_stop worker)⟩

/-! ## A new run -/

theorem claim_error {l l' : AccountReadLifecycle} {e : LifecycleFault} (h : l.claim = (.error e, l')) :
    l' = l ∨ (l.state = .idle ∧ l' = { l with state := .blocked }) := by
  unfold AccountReadLifecycle.claim at h
  split at h
  · cases h
    exact .inl rfl
  rename_i hidle
  split at h
  · cases h
    exact .inr ⟨not_not.mp hidle, rfl⟩
  · cases h

theorem claim_ok {l l' : AccountReadLifecycle} {generation : Nat} (h : l.claim = (.ok generation, l')) :
    l.state = .idle ∧ generation = l.generation + 1 ∧ l' = { l with
      generation := l.generation + 1
      state := .connecting
      worker := none
      drain := false
      stop := false } := by
  unfold AccountReadLifecycle.claim at h
  split at h
  · cases h
  rename_i hidle
  split at h
  · cases h
  · cases h
    exact ⟨not_not.mp hidle, rfl, rfl⟩

/-- There is no run in progress where a drain does nothing. -/
theorem Inv.ended (h : s.Inv) (hstoppable : s.life.stoppable = false) : ∀ r ∈ s.runs, r.phase = .ended := by
  intro r hr
  by_contra hlive
  rw [(h.running r hr hlive).stoppable] at hstoppable
  cases hstoppable

theorem claim_inv (plan : RunPlan) (now : ℚ) (h : s.Inv) : (s.claim plan now).2.Inv := by
  unfold LifecycleSystem.claim
  split
  · exact h
  split
  · rename_i e life hclaim
    rcases claim_error hclaim with rfl | ⟨hidle, rfl⟩
    · exact h
    · refine h.of (h.life _ rfl h.reached) rfl (fun r hr hlive _ => ?_) fun _ => .inr rfl
      exact absurd (h.ended (by simp [AccountReadLifecycle.stoppable, hidle]) r hr) hlive
  · rename_i generation life hclaim
    obtain ⟨hidle, rfl, rfl⟩ := claim_ok hclaim
    have hended := h.ended (by simp [AccountReadLifecycle.stoppable, hidle])
    have hbase : Base { s with
        life := { s.life with
          generation := s.life.generation + 1
          state := .connecting
          worker := none
          drain := false
          stop := false }
        runs := s.runs ++ [{ generation := s.life.generation + 1, plan := plan }] } := by
      refine ⟨h.own, h.rising, fun g hg => (h.bounded g hg).trans (Nat.le_succ _), fun w hw => (by cases hw), h.tickets,
        h.right, ?_, ?_, fun g hg => (h.claims g hg).trans (Nat.le_succ _)⟩
      · rw [List.map_append, List.pairwise_append]
        refine ⟨h.runs, List.pairwise_singleton .., fun a ha b hb => ?_⟩
        rw [List.map_singleton, List.mem_singleton] at hb
        subst hb
        exact Nat.lt_succ_of_le (h.latest a ha)
      · intro g hg
        rw [List.map_append, List.mem_append, List.map_singleton, List.mem_singleton] at hg
        rcases hg with hold | rfl
        · exact (h.latest g hold).trans (Nat.le_succ _)
        · exact Nat.le_refl _
    have hnew : ∀ entry, Since s.log (s.life.generation + 1) entry → False := by
      rintro entry ⟨before, after, hsplit, -⟩
      have hmem : LifecycleEntry.claimed (s.life.generation + 1) ∈ s.log := by rw [hsplit]; simp
      exact absurd (h.claims _ hmem) (Nat.not_succ_le_self _)
    refine ⟨hbase.note (fun earlier hmem => Nat.lt_succ_of_le (h.claims earlier hmem)) (fun g heq => ?_)
      (fun ticket w hsent => by simp [Sent] at hsent), ?_, ?_, fun hall => ?_⟩
    · cases heq
      exact Nat.le_refl _
    · intro i r hr hlive
      by_cases hi : i < s.runs.length
      · have hold : s.runs[i]? = some r := (List.getElem?_append_left hi).symm.trans hr
        exact absurd (hended r (List.mem_of_getElem? hold)) hlive
      · have hlt := (List.getElem?_eq_some_iff.mp hr).1
        simp only [LifecycleSystem.note, List.length_append, List.length_singleton] at hlt ⊢
        omega
    · intro r hr hlive
      rcases List.mem_append.mp hr with hold | hnewest
      · exact absurd (hended r hold) hlive
      rw [List.mem_singleton] at hnewest
      subst hnewest
      refine ⟨⟨rfl, rfl, List.mem_append_right _ (List.mem_singleton_self _), ?_, ?_, fun hactive => (by cases hactive),
        fun _ g hg => Nat.lt_succ_of_le (h.bounded g hg), fun w hw => (by cases hw)⟩, ⟨rfl, rfl⟩⟩
      · refine ⟨fun hset => (by cases hset), fun hsince => ?_⟩
        exact absurd ((since_other (fun heq => by cases heq)).mp hsince) (hnew .stop)
      · refine ⟨fun hset => (by cases hset), fun hsince => ?_⟩
        exact absurd ((since_other (fun heq => by cases heq)).mp hsince) (hnew .drain)
    · have hphase := hall _ (List.mem_append_right _ (List.mem_singleton_self _))
      cases hphase

/-! ## The phases of a run -/

theorem Inv.setRun (h : s.Inv) {i : Nat} {r r' : Run} (hr : s.runs[i]? = some r) (hlive : r.phase ≠ .ended)
    {s' : LifecycleSystem} (hruns : s'.runs = s.runs) (hbase : s'.Base) (hgeneration : r'.generation = r.generation)
    (hrunning : r'.phase ≠ .ended → s'.Running r')
    (hended : r'.phase = .ended → s'.life.state = .idle ∨ s'.life.state = .blocked) :
    (LifecycleSystem.setRun i r' s').Inv := by
  have hlast := h.last i r hr hlive
  have hi : i < s.runs.length := by omega
  -- Only the last run is in progress.
  have hothers : ∀ j other, s.runs[j]? = some other → j ≠ i → other.phase = .ended := by
    intro j other hother hne
    by_contra hlive'
    have := h.last j other hother hlive'
    omega
  have hmap : (s'.runs.set i r').map Run.generation = s.runs.map Run.generation := by
    obtain ⟨hlt, hget⟩ := List.getElem?_eq_some_iff.mp hr
    have hlt' : i < (s.runs.map Run.generation).length := by simpa using hlt
    have hsame : (s.runs.map Run.generation)[i] = r'.generation := by
      rw [List.getElem_map, hget, hgeneration]
    rw [hruns, List.map_set, ← hsame, List.set_getElem_self]
  have hcases : ∀ j other, (s'.runs.set i r')[j]? = some other → (j = i ∧ other = r') ∨ other.phase = .ended := by
    intro j other hother
    rw [hruns] at hother
    by_cases hj : j = i
    · subst hj
      rw [List.getElem?_set_self hi] at hother
      cases hother
      exact .inl ⟨rfl, rfl⟩
    · rw [List.getElem?_set_ne (Ne.symm hj)] at hother
      exact .inr (hothers j other hother hj)
  refine ⟨⟨hbase.own, hbase.rising, hbase.bounded, hbase.reached, hbase.tickets, hbase.right, ?_, ?_, hbase.claims⟩,
    ?_, ?_, ?_⟩
  · exact hmap ▸ hruns ▸ hbase.runs
  · have hlatest := hbase.latest
    rw [hruns] at hlatest
    exact hmap ▸ hlatest
  · intro j other hother hlive'
    rcases hcases j other hother with ⟨rfl, rfl⟩ | hphase
    · simpa only [LifecycleSystem.setRun, List.length_set, hruns] using hlast
    · exact absurd hphase hlive'
  · intro other hmem hlive'
    obtain ⟨j, hother⟩ := List.mem_iff_getElem?.mp hmem
    rcases hcases j other hother with ⟨rfl, rfl⟩ | hphase
    · have hrun := hrunning hlive'
      exact ⟨⟨hrun.current, hrun.stoppable, hrun.claimed, hrun.stop, hrun.drain, hrun.active, hrun.fresh, hrun.worker⟩,
        by cases hphase : other.phase with
          | _ =>
            have hplaced := hrun.placed
            rw [hphase] at hplaced
            exact hplaced⟩
    · exact absurd hphase hlive'
  · intro hall
    refine hended (hall r' ?_)
    exact List.mem_iff_getElem?.mpr ⟨i, by rw [LifecycleSystem.setRun, hruns, List.getElem?_set_self hi]⟩

theorem Owner.go {r r' : Run} (h : s.Owner r) (hgeneration : r'.generation = r.generation)
    (hworker : r'.worker = r.worker) : s.Owner r' := by
  obtain ⟨current, stoppable, claimed, stop, drain, active, fresh, worker⟩ := h
  rw [← hgeneration] at current claimed stop drain fresh worker
  rw [← hworker] at fresh worker
  exact ⟨current, stoppable, claimed, stop, drain, active, fresh, worker⟩

theorem Inv.go (h : s.Inv) {i : Nat} {r : Run} (hr : s.runs[i]? = some r) {phase : RunPhase} (hphase : r.phase = phase)
    (hlive : phase ≠ .ended) (r' : Run) (hgeneration : r'.generation = r.generation) (hworker : r'.worker = r.worker)
    (hlive' : r'.phase ≠ .ended) (hplaced : s.Placed r phase → s.Placed r' r'.phase) :
    (LifecycleSystem.setRun i r' s).Inv := by
  subst hphase
  have hrun := h.running r (List.mem_of_getElem? hr) hlive
  exact h.setRun hr hlive rfl h.toBase hgeneration
    (fun _ => ⟨hrun.toOwner.go hgeneration hworker, hplaced hrun.placed⟩) fun hended => absurd hended hlive'

theorem build_inv (h : s.Inv) {i : Nat} {r : Run} (hr : s.runs[i]? = some r) (hphase : r.phase = .build) :
    (setRun i { r with worker := some s.workers.length, phase := if r.plan.hasMedia then .route else .reads }
      { s with workers := s.workers ++
        [AccountReadWorker.new r.generation s.life.stateReads s.life.motionEnabled] }).Inv := by
  have hlive : r.phase ≠ .ended := fun heq => by cases hphase.symm.trans heq
  have hrun := h.running r (List.mem_of_getElem? hr) hlive
  have hplaced := hrun.placed
  rw [hphase] at hplaced
  have hgens : ∀ worker : AccountReadWorker, generations { s with workers := s.workers ++ [worker] } =
      s.generations ++ [worker.generation] := by
    intro worker
    simp [generations]
  have hlength : s.generations.length = s.workers.length := List.length_map ..
  have hold : ∀ {w generation : Nat}, s.generations[w]? = some generation →
      (s.generations ++ [r.generation])[w]? = some generation := by
    intro w generation hw
    rw [List.getElem?_append_left (List.getElem?_eq_some_iff.mp hw).1, hw]
  have hfresh := hrun.fresh hplaced.1
  refine h.setRun hr hlive rfl ?_ rfl (fun _ => ?_) fun hended => ?_
  · refine ⟨?_, ?_, ?_, ?_, ?_, h.right, h.runs, h.latest, h.claims⟩
    · intro worker hmem
      rcases List.mem_append.mp hmem with hmem | hmem
      · exact h.own worker hmem
      · rw [List.mem_singleton] at hmem
        subst hmem
        exact AccountReadWorker.own_new _ _ _
    · rw [hgens, List.pairwise_append]
      refine ⟨h.rising, List.pairwise_singleton .., fun a ha b hb => ?_⟩
      rw [List.mem_singleton] at hb
      subst hb
      exact hfresh a ha
    · rw [hgens]
      intro generation hmem
      rcases List.mem_append.mp hmem with hmem | hmem
      · exact h.bounded generation hmem
      · rw [List.mem_singleton] at hmem
        subst hmem
        exact hrun.current.le
    · intro w hw
      rw [hgens]
      exact hold (h.reached w hw)
    · intro ticket w hsent
      rw [hgens]
      exact hold (h.tickets ticket w hsent)
  · refine ⟨⟨hrun.current, hrun.stoppable, hrun.claimed, hrun.stop, hrun.drain, hrun.active, fun hnone => (by cases hnone),
      fun w hw => ?_⟩, ?_⟩
    · cases hw
      rw [hgens, ← hlength]
      exact List.getElem?_concat_length ..
    · dsimp only
      split
      · exact hplaced.2
      · exact hplaced.2
  · dsimp only at hended
    split at hended
    · cases hended
    · cases hended

/-- The initial reads get tickets of the worker's mailbox. -/
theorem issueReads_keeps (w : Nat) (specs : List ReadSpec) (h : s.Base) :
    (issueReads w specs s).Base ∧ (issueReads w specs s).runs = s.runs ∧ (issueReads w specs s).life = s.life ∧
      ∀ r, s.Owner r → (issueReads w specs s).Owner r := by
  induction specs generalizing s with
  | nil => exact ⟨h, rfl, rfl, fun _ hr => hr⟩
  | cons spec specs ih =>
    unfold issueReads
    split
    · exact ih h
    rename_i inbox hinbox
    obtain ⟨worker, hworker, hinbox⟩ := Option.bind_eq_some_iff.mp hinbox
    split
    · exact ih h
    rename_i ticket inbox' hsubmit
    obtain ⟨hbase, hruns, hlife, howner⟩ := ih (h.issue hworker hinbox hsubmit)
    refine ⟨hbase, hruns, hlife, fun r hr => howner r ?_⟩
    have hmodify : Owner { s with workers := s.workers.modify w (AccountReadWorker.setInbox inbox') } r :=
      hr.modify w fun _ => rfl
    exact hmodify.note (fun heq => by cases heq) fun heq => by cases heq

theorem reads_inv (h : s.Inv) {i w : Nat} {r : Run} (hr : s.runs[i]? = some r) (hphase : r.phase = .reads)
    (specs : List ReadSpec) : (setRun i { r with phase := .publish } (issueReads w specs s)).Inv := by
  have hlive : r.phase ≠ .ended := fun heq => by cases hphase.symm.trans heq
  have hrun := h.running r (List.mem_of_getElem? hr) hlive
  have hplaced := hrun.placed
  rw [hphase] at hplaced
  obtain ⟨hbase, hruns, hlife, howner⟩ := issueReads_keeps w specs h.toBase
  refine h.setRun hr hlive hruns hbase rfl (fun _ => ⟨(howner r hrun.toOwner).go rfl rfl, ?_⟩) fun hended => by cases hended
  exact (congrArg AccountReadLifecycle.worker hlife).trans hplaced

/-- A worker is published, and told what was asked for before. -/
theorem tell_published (h : s.Inv) {i w : Nat} {r : Run} (hr : s.runs[i]? = some r) (hlive : r.phase ≠ .ended)
    (hw : r.worker = some w) {f : AccountReadWorker → AccountReadWorker}
    (hf : ∀ worker, (f worker).generation = worker.generation)
    (hown : ∀ worker : AccountReadWorker, worker.Own → (f worker).Own)
    (htold : ∀ worker : AccountReadWorker, (s.life.stop = true → (f worker).Stopped) ∧
      (s.life.drain = true → (f worker).Drained ∨ (f worker).Stopped)) :
    (setRun i { r with phase := .start } { s with
      life := { s.life with worker := some w }
      workers := s.workers.modify w f }).Inv := by
  have hrun := h.running r (List.mem_of_getElem? hr) hlive
  have hbase := h.modify w hf fun worker _ => hown worker
  have howner := hrun.toOwner.modify w hf
  refine h.setRun hr hlive rfl (hbase.life { s.life with worker := some w } rfl fun w' heq => ?_) rfl
    (fun _ => ⟨?_, hw.symm, ?_⟩) fun hended => by cases hended
  · cases heq
    exact (howner.worker w hw).trans (congrArg some hrun.current)
  · exact ⟨howner.current, howner.stoppable, howner.claimed, howner.stop, howner.drain, howner.active, howner.fresh,
      howner.worker⟩
  · intro w' worker heq hworker
    cases hw.symm.trans heq
    rw [List.getElem?_modify_eq] at hworker
    obtain ⟨old, -, rfl⟩ := Option.map_eq_some_iff.mp hworker
    exact htold old

theorem publish_inv (h : s.Inv) {i w : Nat} {r : Run} (hr : s.runs[i]? = some r) (hlive : r.phase ≠ .ended)
    (hw : r.worker = some w) : (setRun i { r with phase := .start } (s.publish w)).Inv := by
  have hrun := h.running r (List.mem_of_getElem? hr) hlive
  unfold LifecycleSystem.publish
  dsimp only
  split
  · refine tell_published h hr hlive hw (fun _ => rfl) (fun worker hown => ?_) fun worker => ?_
    · exact AccountReadWorker.own_closeInboxes (AccountReadWorker.own_closeMailbox hown)
    · exact ⟨fun _ => AccountReadWorker.stopped_stop worker, fun _ => .inr (AccountReadWorker.stopped_stop worker)⟩
  rename_i hstop
  split
  · refine tell_published h hr hlive hw (fun _ => rfl) (fun worker hown => ?_) fun worker => ?_
    · exact AccountReadWorker.own_closeInboxes (AccountReadWorker.own_closeMailbox hown)
    · exact ⟨fun hset => absurd hset hstop, fun _ => .inl (AccountReadWorker.drained_drain worker)⟩
  rename_i hdrain
  refine h.setRun hr hlive rfl (h.life _ rfl fun w' heq => ?_) rfl
    (fun _ => ⟨?_, hw.symm, fun _ _ _ _ => ⟨fun hset => absurd hset hstop, fun hset => absurd hset hdrain⟩⟩)
    fun hended => by cases hended
  · cases heq
    exact (hrun.worker w hw).trans (congrArg some hrun.current)
  · exact ⟨hrun.current, rfl, hrun.claimed, hrun.stop, hrun.drain,
      fun _ => ⟨by simpa using hstop, by simpa using hdrain⟩, hrun.fresh, hrun.worker⟩

theorem start_inv (h : s.Inv) {i w : Nat} {r : Run} {worker : AccountReadWorker} (hr : s.runs[i]? = some r)
    (hphase : r.phase = .start) (hw : r.worker = some w) (hworker : s.workers[w]? = some worker) :
    (setRun i { r with phase := .work } (note (.started r.generation worker) s)).Inv := by
  have hlive : r.phase ≠ .ended := fun heq => by cases hphase.symm.trans heq
  have hrun := h.running r (List.mem_of_getElem? hr) hlive
  have hplaced := hrun.placed
  rw [hphase] at hplaced
  obtain ⟨hstop, hdrain⟩ := hplaced.2 w worker hw hworker
  have hright : Right s.log (.started r.generation worker) :=
    ⟨generation_of_place (hrun.worker w hw) hworker, fun hsince => hstop (hrun.stop.mpr hsince),
      fun hsince => hdrain (hrun.drain.mpr hsince)⟩
  have hbase := h.note hright (fun generation heq => by cases heq) fun ticket w hsent => by simp [Sent] at hsent
  have howner : (LifecycleSystem.note (.started r.generation worker) s).Owner r :=
    hrun.toOwner.note (fun heq => by cases heq) fun heq => by cases heq
  exact h.setRun hr hlive rfl hbase rfl (fun _ => ⟨howner.go rfl rfl, hplaced.1⟩) fun hended => by cases hended

/-- A connection that was not handed over is closed. -/
theorem clean_keeps (h : s.Base) {r : Run} (howner : s.Owner r) : (s.clean r).Base ∧ (s.clean r).Owner r ∧
    (s.clean r).runs = s.runs := by
  unfold clean
  split
  · exact ⟨h, howner, rfl⟩
  rename_i w hw
  have hkeeps : ∀ worker : AccountReadWorker, worker.stop.generation = worker.generation := fun _ => rfl
  have hbase := h.modify w hkeeps fun worker _ hown => AccountReadWorker.own_closeInboxes hown
  have hmodify := howner.modify w hkeeps
  dsimp only
  split
  · exact ⟨hbase, hmodify, rfl⟩
  rename_i worker hworker
  have hgeneration := generation_of_place (hmodify.worker w hw) hworker
  rw [List.getElem?_modify_eq] at hworker
  obtain ⟨old, -, rfl⟩ := Option.map_eq_some_iff.mp hworker
  refine ⟨hbase.note ⟨hgeneration, rfl⟩ (fun generation heq => by cases heq) fun ticket w hsent => ?_,
    hmodify.note (fun heq => by cases heq) (fun heq => by cases heq), rfl⟩
  simp [Sent] at hsent

theorem clean_inv (h : s.Inv) {i : Nat} {r : Run} (hr : s.runs[i]? = some r) (hlive : r.phase ≠ .ended) :
    (setRun i { r with phase := .settle } (s.clean r)).Inv := by
  have hrun := h.running r (List.mem_of_getElem? hr) hlive
  obtain ⟨hbase, howner, hruns⟩ := clean_keeps h.toBase hrun.toOwner
  exact h.setRun hr hlive hruns hbase rfl (fun _ => ⟨howner.go rfl rfl, trivial⟩) fun hended => by cases hended

/-- The state in which a run leaves the lifecycle. -/
theorem settle_state (s : LifecycleSystem) (r : Run) :
    ((s.settle r).life.state = .idle ∧ ∃ proof, r.summary = some proof ∧ proof.Proves r.leases) ∨
      ((s.settle r).life.state = .blocked ∧ ∀ proof, r.summary = some proof → ¬ proof.Proves r.leases) := by
  unfold settle
  dsimp only [LifecycleSystem.note]
  cases hverified : r.summary.any fun summary => summary.verified r.leases with
  | true =>
    obtain ⟨proof, hsummary, hproof⟩ := Option.any_eq_true _ _ |>.mp hverified
    exact .inl ⟨rfl, proof, hsummary, (proof.verified_iff r.leases).mp hproof⟩
  | false =>
    refine .inr ⟨rfl, fun proof hsummary hproves => ?_⟩
    rw [hsummary, Option.any_some, (proof.verified_iff r.leases).mpr hproves] at hverified
    cases hverified

theorem settle_inv (h : s.Inv) {i : Nat} {r : Run} (hr : s.runs[i]? = some r) (hlive : r.phase ≠ .ended) :
    (setRun i { r with phase := .ended } (s.settle r)).Inv := by
  have hbase : (s.settle r).Base := by
    have hlife := h.toBase.life { s.life with state := (s.settle r).life.state } rfl h.reached
    have hright : Right s.log (.settled r.generation r.leases r.summary (s.settle r).life.state) := settle_state s r
    exact hlife.note hright (fun generation heq => by cases heq) fun ticket w hsent => by simp [Sent] at hsent
  refine h.setRun hr hlive rfl hbase rfl (fun hlive' => absurd rfl hlive') fun _ => ?_
  exact (settle_state s r).imp And.left And.left

theorem advance_inv (i : Nat) (input : RunInput) (h : s.Inv) : (s.advance i input).Inv := by
  unfold advance
  split
  · exact h
  rename_i r hr
  split
  -- `connect`
  · rename_i connection hphase
    split
    · exact h.go hr hphase (by simp) _ rfl rfl (by simp) fun hnone => hnone
    · exact h.go hr hphase (by simp) _ rfl rfl (by simp) fun hnone => hnone
  · rename_i hphase
    exact h.go hr hphase (by simp) _ rfl rfl (by simp) fun _ => trivial
  -- `leases`
  · rename_i connection inbox hphase
    split
    · exact h.go hr hphase (by simp) _ rfl rfl (by simp) fun hnone => hnone
    · exact h.go hr hphase (by simp) _ rfl rfl (by simp) fun hnone => hnone.2
  · rename_i connection hphase
    exact h.go hr hphase (by simp) _ rfl rfl (by simp) fun hnone => hnone.2
  -- `build`
  · rename_i hphase
    exact build_inv h hr hphase
  · rename_i hphase
    exact h.go hr hphase (by simp) _ rfl rfl (by simp) fun hnone => hnone.2
  -- `route`
  · rename_i hphase
    exact h.go hr hphase (by simp) _ rfl rfl (by simp) fun hnone => hnone
  · rename_i hphase
    exact h.go hr hphase (by simp) _ rfl rfl (by simp) fun hnone => hnone
  -- `reads`
  · rename_i hphase
    split
    · exact h
    · exact reads_inv h hr hphase _
  · rename_i hphase
    exact h.go hr hphase (by simp) _ rfl rfl (by simp) fun hnone => hnone
  -- `publish`
  · rename_i hphase
    split
    · exact h
    · rename_i w hw
      exact publish_inv h hr (by simp [hphase]) hw
  -- `start`
  · rename_i hphase
    split
    · exact h
    · rename_i worker hbind
      obtain ⟨w, hw, hworker⟩ := Option.bind_eq_some_iff.mp hbind
      exact start_inv h hr hphase hw hworker
  -- `work`
  · rename_i summary hphase
    exact h.go hr hphase (by simp) _ rfl rfl (by simp) fun _ => trivial
  · rename_i hphase
    exact h.go hr hphase (by simp) _ rfl rfl (by simp) fun _ => trivial
  -- `cleanup` and `settle`
  · rename_i hphase
    exact clean_inv h hr (by simp [hphase])
  · rename_i hphase
    exact clean_inv h hr (by simp [hphase])
  · rename_i hphase
    exact settle_inv h hr (by simp [hphase])
  · exact h

/-! ## Runs of calls -/

theorem step_inv (now : ℚ) (call : LifecycleCall) (s : LifecycleSystem) (h : s.Inv) : (step now call s).Inv := by
  cases call with
  | run plan => exact claim_inv plan now h
  | advance i input => exact advance_inv i input h
  | submit call room => exact submit_inv call room h
  | ticket call ticket => exact address_inv call ticket h
  | drain => exact drain_inv h
  | stop => exact stop_inv h

theorem inv_new (policy : AccountPolicy) (grants : List PtzGrant) (stateReads : Bool) :
    Inv { life := { policy := policy, grants := grants, stateReads := stateReads } } where
  own := fun _ hmem => by cases hmem
  rising := List.Pairwise.nil
  bounded := fun _ hmem => by cases hmem
  reached := fun _ heq => by cases heq
  tickets := fun _ _ hsent => by simp [Sent] at hsent
  right := justified_nil Right
  runs := List.Pairwise.nil
  latest := fun _ hmem => by cases hmem
  claims := fun _ hmem => by cases hmem
  last := fun _ _ hr => by cases hr
  running := fun _ hmem => by cases hmem
  quiet := fun _ => .inl rfl

theorem run_inv (policy : AccountPolicy) (grants : List PtzGrant) (stateReads : Bool)
    (calls : List (ℚ × LifecycleCall)) : (run policy grants stateReads calls).Inv :=
  Machine.run_keeps step_inv (inv_new policy grants stateReads)

/-! ## What a step does to the runs and to the state -/

theorem issueReads_same (w : Nat) (specs : List ReadSpec) (s : LifecycleSystem) :
    (issueReads w specs s).runs = s.runs ∧ (issueReads w specs s).life = s.life := by
  induction specs generalizing s with
  | nil => exact ⟨rfl, rfl⟩
  | cons spec specs ih =>
    unfold issueReads
    split
    · exact ih s
    split
    · exact ih s
    · exact ih _

theorem clean_same (r : Run) (s : LifecycleSystem) : (s.clean r).runs = s.runs ∧ (s.clean r).life = s.life := by
  unfold clean
  split
  · exact ⟨rfl, rfl⟩
  dsimp only
  split
  · exact ⟨rfl, rfl⟩
  · exact ⟨rfl, rfl⟩

/-- A run goes on in the same state, or becomes active. -/
def Goes (s : LifecycleSystem) (i : Nat) (s' : LifecycleSystem) : Prop :=
  ∃ r' : Run, r'.phase ≠ .ended ∧ s'.runs = s.runs.set i r' ∧ (s'.life.state = s.life.state ∨ s'.life.state = .active)

theorem goes_setRun {i : Nat} {r' : Run} {s' : LifecycleSystem} (hlive : r'.phase ≠ .ended) (hruns : s'.runs = s.runs)
    (hstate : s'.life.state = s.life.state ∨ s'.life.state = .active) :
    s.Goes i (LifecycleSystem.setRun i r' s') :=
  ⟨r', hlive, by rw [LifecycleSystem.setRun, hruns], hstate⟩

theorem advance_cases (i : Nat) (input : RunInput) (s : LifecycleSystem) :
    s.advance i input = s ∨
      (∃ r, s.runs[i]? = some r ∧ r.phase ≠ .ended) ∧
        (s.Goes i (s.advance i input) ∨
          ∃ r, s.advance i input = setRun i { r with phase := .ended } (s.settle r)) := by
  unfold advance
  split
  · exact .inl rfl
  rename_i r hr
  split
  · rename_i hphase
    refine .inr ⟨⟨r, hr, by simp [hphase]⟩, .inl ?_⟩
    split
    · exact goes_setRun (by simp) rfl (.inl rfl)
    · exact goes_setRun (by simp) rfl (.inl rfl)
  · rename_i hphase
    exact .inr ⟨⟨r, hr, by simp [hphase]⟩, .inl (goes_setRun (by simp) rfl (.inl rfl))⟩
  · rename_i hphase
    refine .inr ⟨⟨r, hr, by simp [hphase]⟩, .inl ?_⟩
    split
    · exact goes_setRun (by simp) rfl (.inl rfl)
    · exact goes_setRun (by simp) rfl (.inl rfl)
  · rename_i hphase
    exact .inr ⟨⟨r, hr, by simp [hphase]⟩, .inl (goes_setRun (by simp) rfl (.inl rfl))⟩
  · rename_i hphase
    refine .inr ⟨⟨r, hr, by simp [hphase]⟩, .inl (goes_setRun ?_ rfl (.inl rfl))⟩
    dsimp only
    split
    · simp
    · simp
  · rename_i hphase
    exact .inr ⟨⟨r, hr, by simp [hphase]⟩, .inl (goes_setRun (by simp) rfl (.inl rfl))⟩
  · rename_i hphase
    exact .inr ⟨⟨r, hr, by simp [hphase]⟩, .inl (goes_setRun (by simp) rfl (.inl rfl))⟩
  · rename_i hphase
    exact .inr ⟨⟨r, hr, by simp [hphase]⟩, .inl (goes_setRun (by simp) rfl (.inl rfl))⟩
  · rename_i hphase
    split
    · exact .inl rfl
    · rename_i w _
      obtain ⟨hruns, hlife⟩ := issueReads_same w r.plan.initialReads s
      refine .inr ⟨⟨r, hr, by simp [hphase]⟩, .inl (goes_setRun (by simp) hruns (.inl ?_))⟩
      exact congrArg AccountReadLifecycle.state hlife
  · rename_i hphase
    exact .inr ⟨⟨r, hr, by simp [hphase]⟩, .inl (goes_setRun (by simp) rfl (.inl rfl))⟩
  · rename_i hphase
    split
    · exact .inl rfl
    · refine .inr ⟨⟨r, hr, by simp [hphase]⟩, .inl ?_⟩
      unfold LifecycleSystem.publish
      dsimp only
      split
      · exact goes_setRun (by simp) rfl (.inl rfl)
      split
      · exact goes_setRun (by simp) rfl (.inl rfl)
      · exact goes_setRun (by simp) rfl (.inr rfl)
  · rename_i hphase
    split
    · exact .inl rfl
    · exact .inr ⟨⟨r, hr, by simp [hphase]⟩, .inl (goes_setRun (by simp) rfl (.inl rfl))⟩
  · rename_i hphase
    exact .inr ⟨⟨r, hr, by simp [hphase]⟩, .inl (goes_setRun (by simp) rfl (.inl rfl))⟩
  · rename_i hphase
    exact .inr ⟨⟨r, hr, by simp [hphase]⟩, .inl (goes_setRun (by simp) rfl (.inl rfl))⟩
  · rename_i hphase
    obtain ⟨hruns, hlife⟩ := clean_same r s
    refine .inr ⟨⟨r, hr, by simp [hphase]⟩, .inl (goes_setRun (by simp) hruns (.inl ?_))⟩
    exact congrArg AccountReadLifecycle.state hlife
  · rename_i hphase
    obtain ⟨hruns, hlife⟩ := clean_same r s
    refine .inr ⟨⟨r, hr, by simp [hphase]⟩, .inl (goes_setRun (by simp) hruns (.inl ?_))⟩
    exact congrArg AccountReadLifecycle.state hlife
  · rename_i hphase
    exact .inr ⟨⟨r, hr, by simp [hphase]⟩, .inr ⟨r, rfl⟩⟩
  · exact .inl rfl

/-- The other calls leave the runs as they are, but for a run that is new. -/
theorem claim_runs (plan : RunPlan) (now : ℚ) (s : LifecycleSystem) :
    (s.claim plan now).2.runs = s.runs ∨ ∃ r, (s.claim plan now).2.runs = s.runs ++ [r] := by
  unfold LifecycleSystem.claim
  split
  · exact .inl rfl
  split
  · exact .inl rfl
  · exact .inr ⟨_, rfl⟩

theorem submit_same (call : SubmitCall) (room : Bool) (s : LifecycleSystem) :
    (s.submit call room).2.runs = s.runs ∧ (s.submit call room).2.life = s.life := by
  rcases submit_cases call room s with heq | ⟨e, heq⟩
  · rw [heq]
    cases hto : s.submitTo call room with
    | mk out s' =>
      cases out with
      | error e =>
        rw [submitTo_error hto]
        exact ⟨rfl, rfl⟩
      | ok ticket =>
        obtain ⟨-, w, worker, inbox, inbox', -, -, -, -, rfl⟩ := submitTo_ok hto
        exact ⟨rfl, rfl⟩
  · rw [heq]
    exact ⟨rfl, rfl⟩

theorem address_same (call : TicketCall) (ticket : InboxTicket) (s : LifecycleSystem) :
    (s.address call ticket).runs = s.runs ∧ (s.address call ticket).life = s.life := by
  unfold address
  split
  · exact ⟨rfl, rfl⟩
  split
  · exact ⟨rfl, rfl⟩
  · exact ⟨rfl, rfl⟩

theorem drain_same (s : LifecycleSystem) : s.drain.runs = s.runs ∧
    (s.drain.life = s.life ∨ s.drain.life.state = .draining) := by
  unfold LifecycleSystem.drain
  split
  · exact ⟨rfl, .inl rfl⟩
  · exact ⟨rfl, .inr rfl⟩

theorem stop_same (s : LifecycleSystem) : s.stop.runs = s.runs ∧
    (s.stop.life = s.life ∨ s.stop.life.state = .draining) := by
  unfold LifecycleSystem.stop
  split
  · exact ⟨rfl, .inl rfl⟩
  · exact ⟨rfl, .inr rfl⟩

/-- A step leaves the runs that there are as they are, lets one go on or ends
one. -/
theorem step_runs (now : ℚ) (call : LifecycleCall) (s : LifecycleSystem) :
    (∃ runs, (step now call s).runs = s.runs ++ runs) ∨
      ∃ i, s.Goes i (step now call s) ∨
        ∃ r, step now call s = setRun i { r with phase := .ended } (s.settle r) := by
  have hsame : ∀ s' : LifecycleSystem, s'.runs = s.runs → ∃ runs, s'.runs = s.runs ++ runs :=
    fun s' hruns => ⟨[], by rw [hruns, List.append_nil]⟩
  cases call with
  | run plan =>
    rcases claim_runs plan now s with hruns | ⟨r, hruns⟩
    · exact .inl (hsame _ hruns)
    · exact .inl ⟨_, hruns⟩
  | advance i input =>
    rcases advance_cases i input s with heq | ⟨-, hgoes⟩
    · exact .inl (hsame _ (congrArg LifecycleSystem.runs heq))
    · exact .inr ⟨i, hgoes⟩
  | submit call room => exact .inl (hsame _ (submit_same call room s).1)
  | ticket call ticket => exact .inl (hsame _ (address_same call ticket s).1)
  | drain => exact .inl (hsame _ (drain_same s).1)
  | stop => exact .inl (hsame _ (stop_same s).1)

/-- The state is idle after a step only if it was, or if a run has settled. -/
theorem step_idle (now : ℚ) (call : LifecycleCall) (s : LifecycleSystem) (h : (step now call s).life.state = .idle) :
    s.life.state = .idle ∨ ∃ i r, step now call s = setRun i { r with phase := .ended } (s.settle r) := by
  cases call with
  | run plan =>
    left
    by_contra hidle
    have hclaim : (s.claim plan now).2.life.state = s.life.state := by
      unfold LifecycleSystem.claim
      split
      · rfl
      split
      · rename_i e life hclaim
        rcases claim_error hclaim with rfl | ⟨hwas, -⟩
        · rfl
        · exact absurd hwas hidle
      · rename_i generation life hclaim
        exact absurd (claim_ok hclaim).1 hidle
    exact hidle (hclaim.symm.trans h)
  | advance i input =>
    rcases advance_cases i input s with heq | ⟨-, ⟨r', -, -, hstate | hactive⟩ | ⟨r, heq⟩⟩
    · exact .inl ((congrArg (fun s => s.life.state) heq).symm.trans h)
    · exact .inl (hstate.symm.trans h)
    · cases hactive.symm.trans h
    · exact .inr ⟨i, r, heq⟩
  | submit call room => exact .inl ((congrArg AccountReadLifecycle.state (submit_same call room s).2).symm.trans h)
  | ticket call ticket => exact .inl ((congrArg AccountReadLifecycle.state (address_same call ticket s).2).symm.trans h)
  | drain =>
    rcases (drain_same s).2 with hlife | hdraining
    · exact .inl ((congrArg AccountReadLifecycle.state hlife).symm.trans h)
    · cases hdraining.symm.trans h
  | stop =>
    rcases (stop_same s).2 with hlife | hdraining
    · exact .inl ((congrArg AccountReadLifecycle.state hlife).symm.trans h)
    · cases hdraining.symm.trans h

/-- A blocked lifecycle stays so, and no run comes. -/
theorem blocked_step (now : ℚ) (call : LifecycleCall) (h : s.Inv) (hblocked : s.life.state = .blocked) :
    (step now call s).life.state = .blocked ∧ (step now call s).runs = s.runs := by
  have hstoppable : s.life.stoppable = false := by simp [AccountReadLifecycle.stoppable, hblocked]
  have hended := h.ended hstoppable
  cases call with
  | run plan =>
    simp only [step, LifecycleSystem.claim]
    split
    · exact ⟨hblocked, rfl⟩
    split
    · rename_i e life hclaim
      rcases claim_error hclaim with rfl | ⟨hidle, -⟩
      · exact ⟨hblocked, rfl⟩
      · cases hblocked.symm.trans hidle
    · rename_i generation life hclaim
      cases hblocked.symm.trans (claim_ok hclaim).1
  | advance i input =>
    rcases advance_cases i input s with heq | ⟨⟨r, hr, hlive⟩, -⟩
    · rw [step, heq]
      exact ⟨hblocked, rfl⟩
    · exact absurd (hended r (List.mem_of_getElem? hr)) hlive
  | submit call room =>
    obtain ⟨hruns, hlife⟩ := submit_same call room s
    exact ⟨(congrArg AccountReadLifecycle.state hlife).trans hblocked, hruns⟩
  | ticket call ticket =>
    obtain ⟨hruns, hlife⟩ := address_same call ticket s
    exact ⟨(congrArg AccountReadLifecycle.state hlife).trans hblocked, hruns⟩
  | drain =>
    rw [step, LifecycleSystem.drain, if_pos hstoppable]
    exact ⟨hblocked, rfl⟩
  | stop =>
    rw [step, LifecycleSystem.stop, if_pos hstoppable]
    exact ⟨hblocked, rfl⟩

/-- What a blocked lifecycle stays. -/
def BlockedWith (runs : List Run) (s : LifecycleSystem) : Prop := s.Inv ∧ s.life.state = .blocked ∧ s.runs = runs

theorem blocked_run (calls : List (ℚ × LifecycleCall)) (h : s.Inv) (hblocked : s.life.state = .blocked) :
    (Machine.run step s calls).life.state = .blocked ∧ (Machine.run step s calls).runs = s.runs := by
  have hkeeps : ∀ now call s', BlockedWith s.runs s' → BlockedWith s.runs (step now call s') := by
    rintro now call s' ⟨hinv, hstate, hruns⟩
    obtain ⟨hstate', hruns'⟩ := blocked_step now call hinv hstate
    exact ⟨step_inv now call s' hinv, hstate', hruns'.trans hruns⟩
  have hrun : BlockedWith s.runs (Machine.run step s calls) := Machine.run_keeps hkeeps ⟨h, hblocked, rfl⟩
  exact hrun.2

/-! ## The lifecycle -/

/-- How a run may leave the lifecycle. -/
def LeftBy (r : Run) (state : LifecycleState) : Prop :=
  (state = .idle ∧ ∃ proof, r.summary = some proof ∧ proof.Proves r.leases) ∨
    (state = .blocked ∧ ∀ proof, r.summary = some proof → ¬ proof.Proves r.leases)

/-- What is promised of an account's owner. -/
structure Sound (s : LifecycleSystem) : Prop where
  single : ∀ (i j : Nat) (a b : Run), s.runs[i]? = some a → s.runs[j]? = some b → a.phase ≠ .ended → b.phase ≠ .ended → i = j
  rising : (s.runs.map Run.generation).Pairwise (· < ·)
  /-- The state is idle again only by a run that has proof. -/
  returns : ∀ now call, (step now call s).life.state = .idle → s.life.state ≠ .idle →
    ∃ i r, step now call s = setRun i { r with phase := .ended } (s.settle r) ∧
      ∃ proof, r.summary = some proof ∧ proof.Proves r.leases
  ends : ∀ (now : ℚ) (call : LifecycleCall) (i : Nat) (r r' : Run), s.runs[i]? = some r → (step now call s).runs[i]? = some r' → r.phase ≠ .ended →
    r'.phase = .ended → LeftBy r' (step now call s).life.state
  blocked : s.life.state = .blocked → ∀ calls,
    (Machine.run step s calls).life.state = .blocked ∧ (Machine.run step s calls).runs = s.runs
  accepted : ∀ call room ticket s', s.submit call room = (.ok ticket, s') → s.life.state = .active
  issued : ∀ ticket w, .issued ticket w ∈ s.log → s.generations[w]? = some ticket.generation
  forwarded : ∀ call ticket w, .forwarded call ticket w ∈ s.log → s.generations[w]? = some ticket.generation
  /-- A ticket comes back to the worker that gave it out. -/
  same : ∀ call ticket w w', .issued ticket w ∈ s.log → .forwarded call ticket w' ∈ s.log → w = w'
  told : ∀ (before : List LifecycleEntry) generation worker (after : List LifecycleEntry), s.log = before ++ .started generation worker :: after →
    worker.generation = generation ∧ (Since before generation .stop → worker.Stopped) ∧
      (Since before generation .drain → worker.Drained ∨ worker.Stopped)
  /-- A worker that only closes the connection is stopped anyway. -/
  cleaned : ∀ generation worker, .cleaned generation worker ∈ s.log →
    worker.generation = generation ∧ worker.stopSet = true

/-- Of two places with one generation there is one. -/
theorem place_unique (h : s.Base) {w w' generation : Nat} (hw : s.generations[w]? = some generation)
    (hw' : s.generations[w']? = some generation) : w = w' := by
  obtain ⟨hlt, hget⟩ := List.getElem?_eq_some_iff.mp hw
  obtain ⟨hlt', hget'⟩ := List.getElem?_eq_some_iff.mp hw'
  have hrising := List.pairwise_iff_getElem.mp h.rising
  rcases Nat.lt_trichotomy w w' with hless | heq | hmore
  · have := hrising w w' hlt hlt' hless
    omega
  · exact heq
  · have := hrising w' w hlt' hlt hmore
    omega

/-- A step in which a run ends is one that settles it. -/
theorem ends_settled (now : ℚ) (call : LifecycleCall) {i : Nat} {r r' : Run} (hr : s.runs[i]? = some r)
    (hr' : (step now call s).runs[i]? = some r') (hlive : r.phase ≠ .ended) (hended : r'.phase = .ended) :
    LeftBy r' (step now call s).life.state := by
  rcases step_runs now call s with ⟨runs, hruns⟩ | ⟨j, ⟨next, hnext, hruns, -⟩ | ⟨last, heq⟩⟩
  · rw [hruns, List.getElem?_append_left (List.getElem?_eq_some_iff.mp hr).1, hr] at hr'
    cases hr'
    exact absurd hended hlive
  · rw [hruns, List.getElem?_set] at hr'
    split at hr'
    · split at hr'
      · cases hr'
        exact absurd hended hnext
      · cases hr'
    · rw [hr] at hr'
      cases hr'
      exact absurd hended hlive
  · have hset : (step now call s).runs = s.runs.set j { last with phase := .ended } :=
      congrArg LifecycleSystem.runs heq
    have hstate : (step now call s).life.state = (s.settle last).life.state := congrArg (fun s => s.life.state) heq
    rw [hset, List.getElem?_set] at hr'
    split at hr'
    · split at hr'
      · cases hr'
        rw [hstate]
        exact settle_state s last
      · cases hr'
    · rw [hr] at hr'
      cases hr'
      exact absurd hended hlive

/-- **The owner of an account**, whatever its runs, the callers and the workers
do. -/
theorem account_lifecycle (policy : AccountPolicy) (grants : List PtzGrant) (stateReads : Bool)
    (calls : List (ℚ × LifecycleCall)) : (run policy grants stateReads calls).Sound := by
  have h := run_inv policy grants stateReads calls
  generalize run policy grants stateReads calls = s at h
  refine ⟨fun i j a b ha hb hlive hlive' => ?_, h.runs, fun now call hidle hwas => ?_,
    fun now call i r r' hr hr' hlive hended => ends_settled now call hr hr' hlive hended,
    fun hblocked calls => blocked_run calls h hblocked, fun call room ticket s' hsubmit => ?_,
    fun ticket w hissued => h.tickets ticket w (.inl hissued),
    fun call ticket w hforwarded => h.tickets ticket w (.inr ⟨call, hforwarded⟩),
    fun call ticket w w' hissued hforwarded => ?_, fun before generation worker after hsplit => h.right _ _ _ hsplit,
    fun generation worker hcleaned => ?_⟩
  · have hi := h.last i a ha hlive
    have hj := h.last j b hb hlive'
    omega
  · rcases step_idle now call s hidle with hstate | ⟨i, r, heq⟩
    · exact absurd hstate hwas
    · refine ⟨i, r, heq, ?_⟩
      have hstate : (s.settle r).life.state = .idle := (congrArg (fun s => s.life.state) heq).symm.trans hidle
      rcases settle_state s r with ⟨-, hproof⟩ | ⟨hblocked, -⟩
      · exact hproof
      · cases hstate.symm.trans hblocked
  · rcases submit_cases call room s with heq | ⟨e, heq⟩
    · exact (submitTo_ok (heq.symm.trans hsubmit)).1
    · cases heq.symm.trans hsubmit
  · exact place_unique h.toBase (h.tickets ticket w (.inl hissued)) (h.tickets ticket w' (.inr ⟨call, hforwarded⟩))
  · obtain ⟨before, after, hsplit⟩ := List.append_of_mem hcleaned
    exact h.right _ _ _ hsplit

end LifecycleSystem

end CamGuard.Account
