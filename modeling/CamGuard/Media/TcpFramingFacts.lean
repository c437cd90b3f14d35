/-
What the TCP framer delivers. The loop of `feed` is a scan by `recordRule`
with a limit on the records of one feed (`cut_of_scan`, `scan_of_cut`), so
the framer inherits the chunk laws of `Framing`.

`framer_chunk_independent`: valid records come back in order from any
chunking within the limits; whatever is accepted to the end is exactly what
was fed; the buffer stays below one record; a failure is final.
-/
import CamGuard.Media.TcpFraming

namespace CamGuard.Media.MtpTcpFramer

open Framing

/-! ## One feed -/

theorem cut_succ (turns : Nat) (unread : Bytes) (records : List Bytes) :
    cut (turns + 1) unread records =
      match recordView unread with
      | .wait => .ok (records, unread)
      | .bad .checksum => if MAX_RECORDS_PER_FEED ≤ records.length then .error .batch else .error .checksum
      | .bad e => .error e
      | .record r n =>
        if MAX_RECORDS_PER_FEED ≤ records.length then .error .batch
        else cut turns (unread.drop n) (records ++ [r]) := by
  simp only [cut, recordView]
  split
  · rfl
  rename_i h4
  rw [Bytes.at_take (show 0 < 4 by decide), Bytes.at_take (show 1 < 4 by decide),
    mtpFrameLength_take (Nat.le_refl 4)]
  split
  · rfl
  split
  · rfl
  split
  · rfl
  by_cases hver : verifyMtpFrame (unread.take (mtpFrameLength unread)) = true
  · simp only [hver, if_true]
  · simp only [hver]
    rfl

theorem cut_of_scan {turns : Nat} {unread rest : Bytes} (records : List Bytes) (hturns : unread.length < turns)
    (hok : (recordRule.scan unread).2 = .ok rest)
    (hfit : records.length + (recordRule.scan unread).1.length ≤ MAX_RECORDS_PER_FEED) :
    cut turns unread records = .ok (records ++ (recordRule.scan unread).1, rest) := by
  induction turns generalizing unread records with
  | zero => omega
  | succ turns ih =>
    rw [cut_succ]
    cases hv : recordView unread with
    | wait =>
      rw [Rule.scan_wait (R := recordRule) hv] at hok ⊢
      cases hok
      simp
    | bad e => rw [Rule.scan_bad (R := recordRule) hv] at hok; cases hok
    | record r n =>
      have hlen : (unread.drop n).length < turns := by
        have hpos := recordRule.size_pos hv
        have hle := recordRule.size_le hv
        simp only [List.length_drop]
        omega
      rw [Rule.scan_record (R := recordRule) hv] at hok hfit ⊢
      simp only [List.length_cons] at hfit
      have hroom : ¬ MAX_RECORDS_PER_FEED ≤ records.length := by omega
      simp only [hroom, if_false]
      rw [ih _ hlen hok (by simp only [List.length_append, List.length_singleton]; omega)]
      simp

theorem scan_of_cut {turns : Nat} {unread rest : Bytes} {records out : List Bytes} (hturns : unread.length < turns)
    (h : cut turns unread records = .ok (out, rest)) :
    (recordRule.scan unread).2 = .ok rest ∧ out = records ++ (recordRule.scan unread).1 := by
  induction turns generalizing unread records with
  | zero => omega
  | succ turns ih =>
    rw [cut_succ] at h
    cases hv : recordView unread with
    | wait =>
      rw [hv] at h
      cases h
      rw [Rule.scan_wait (R := recordRule) hv]
      simp
    | bad e =>
      rw [hv] at h
      cases e <;> simp only at h <;> (try split at h) <;> cases h
    | record r n =>
      rw [hv] at h
      simp only at h
      split at h
      · cases h
      · have hlen : (unread.drop n).length < turns := by
          have hpos := recordRule.size_pos hv
          have hle := recordRule.size_le hv
          simp only [List.length_drop]
          omega
        obtain ⟨hok, hout⟩ := ih hlen h
        rw [Rule.scan_record (R := recordRule) hv]
        exact ⟨hok, by simpa using hout⟩

theorem feed_ok {f : MtpTcpFramer} {data : Bytes} {records : List Bytes} (h : (f.feed data).1 = .ok records) :
    (recordRule.scan (f.buffer ++ data)).1 = records ∧
      (recordRule.scan (f.buffer ++ data)).2 = .ok (f.feed data).2.buffer := by
  simp only [feed] at h ⊢
  split at h
  · cases h
  rename_i hopen
  split at h
  · cases h
  rename_i hread
  rw [if_neg hopen, if_neg hread]
  cases hc : cut ((f.buffer ++ data).length + 1) (f.buffer ++ data) [] with
  | error e => rw [hc] at h; cases h
  | ok out =>
    rw [hc] at h
    cases h
    obtain ⟨hok, hout⟩ := scan_of_cut (Nat.lt_succ_self _) hc
    exact ⟨by simpa using hout.symm, hok⟩

theorem feed_of_scan {f : MtpTcpFramer} {data rest : Bytes} (hopen : f.closed = false)
    (hread : data.length ≤ MAX_READ_BYTES) (hok : (recordRule.scan (f.buffer ++ data)).2 = .ok rest)
    (hfit : (recordRule.scan (f.buffer ++ data)).1.length ≤ MAX_RECORDS_PER_FEED) :
    f.feed data = (.ok (recordRule.scan (f.buffer ++ data)).1, { f with buffer := rest }) := by
  have hc := cut_of_scan [] (Nat.lt_succ_self (f.buffer ++ data).length) hok (by simpa using hfit)
  simp only [feed, hopen, Bool.false_eq_true, if_false, show ¬ MAX_READ_BYTES < data.length by omega, hc]
  simp

theorem call_error {f : MtpTcpFramer} {c : Call} {e : FrameFault} (h : (f.call c).1 = .error e) :
    (f.call c).2.closed = true := by
  cases c with
  | feed data =>
    simp only [call, feed] at h ⊢
    split at h
    · rename_i hclosed
      rw [if_pos hclosed]
      exact hclosed
    rename_i hopen
    rw [if_neg hopen]
    split at h
    · rename_i hread
      rw [if_pos hread]
      rfl
    rename_i hread
    rw [if_neg hread]
    cases hc : cut ((f.buffer ++ data).length + 1) (f.buffer ++ data) [] with
    | error e => rfl
    | ok out => rw [hc] at h; cases h
  | finish =>
    simp only [call, finish] at h ⊢
    split at h
    · rename_i hclosed
      rw [if_pos hclosed]
      exact hclosed
    rename_i hopen
    rw [if_neg hopen]
    split at h
    · rename_i hbuf
      rw [if_pos hbuf]
      rfl
    · cases h

theorem call_closed {f : MtpTcpFramer} (c : Call) (h : f.closed = true) : f.call c = (.error .closed, f) := by
  cases c <;> simp [call, feed, finish, h]

/-! ## Whole connections -/

theorem run_closed {f : MtpTcpFramer} (h : f.closed = true) (calls : List Call) :
    ∀ o ∈ (f.run calls).1, o = .error .closed := by
  induction calls with
  | nil => simp [run]
  | cons c cs ih =>
    intro o ho
    simp only [run, call_closed c h, List.mem_cons] at ho
    rcases ho with rfl | ho
    · rfl
    · exact ih o ho

theorem forall₂_encodes {records ws : List Bytes} :
    List.Forall₂ recordRule.Encodes records ws ↔ records = ws ∧ ∀ r ∈ records, ValidRecord r := by
  constructor
  · intro h
    induction h with
    | nil => simp
    | cons hw _ ih =>
      obtain ⟨rfl, hv⟩ := recordRule_encodes.mp hw
      obtain ⟨rfl, hvs⟩ := ih
      simpa using ⟨hv, hvs⟩
  · rintro ⟨rfl, hv⟩
    exact List.forall₂_same.mpr fun r hr => recordRule_encodes.mpr ⟨rfl, hv r hr⟩

/-- No feed of `chunks`, after `before` was fed, completes more records than a
batch may hold. -/
def WithinBatch (records before chunks : List Bytes) : Prop :=
  ∀ done c rest, chunks = done ++ c :: rest →
    Rule.completed records ((before ++ done).flatten.length + c.length) ≤
      Rule.completed records (before ++ done).flatten.length + MAX_RECORDS_PER_FEED

/-- Feeding on, from a framer that holds the rest of what was fed before. -/
theorem run_feeds {records : List Bytes} (hv : ∀ r ∈ records, ValidRecord r) {chunks : List Bytes} :
    ∀ (before : List Bytes) {f : MtpTcpFramer}, f.closed = false →
      (recordRule.scan before.flatten).2 = .ok f.buffer → (before ++ chunks).flatten <+: records.flatten →
      (∀ c ∈ chunks, c.length ≤ MAX_READ_BYTES) → WithinBatch records before chunks →
      ∃ outs : List (List Bytes), (f.run (chunks.map .feed)).1 = outs.map .ok ∧ (f.run (chunks.map .feed)).2.closed = false ∧
        (recordRule.scan (before ++ chunks).flatten).1 = (recordRule.scan before.flatten).1 ++ outs.flatten ∧
        (recordRule.scan (before ++ chunks).flatten).2 = .ok (f.run (chunks.map .feed)).2.buffer := by
  induction chunks with
  | nil =>
    intro before f hopen hbuf _ _ _
    exact ⟨[], rfl, hopen, by simp, by simpa [run] using hbuf⟩
  | cons c cs ih =>
    intro before f hopen hbuf hpre hread hbatch
    -- What `c` adds to the scan of what came before.
    have happ := recordRule.scan_append_ok c hbuf
    have hstep : (before ++ c :: cs).flatten = (before.flatten ++ c) ++ cs.flatten := by simp
    have hpre' : before.flatten ++ c <+: records.flatten :=
      (List.prefix_append _ cs.flatten).trans (hstep ▸ hpre)
    obtain ⟨hold, -⟩ := Rule.scan_of_prefix (forall₂_encodes.mpr ⟨rfl, hv⟩) ((List.prefix_append before.flatten c).trans hpre')
    obtain ⟨hnew, mid, hmid⟩ := Rule.scan_of_prefix (forall₂_encodes.mpr ⟨rfl, hv⟩) hpre'
    have hfit : (recordRule.scan (f.buffer ++ c)).1.length ≤ MAX_RECORDS_PER_FEED := by
      have hb := hbatch [] c cs rfl
      have hle := Rule.completed_le_length records before.flatten.length
      have hle' := Rule.completed_le_length records (before.flatten ++ c).length
      have hlen := congrArg List.length hnew
      rw [happ, List.length_append, hold, List.length_take, List.length_take] at hlen
      simp only [List.append_nil, List.length_append] at hb hle' hlen
      omega
    have hmid' : (recordRule.scan (f.buffer ++ c)).2 = .ok mid := by rw [happ] at hmid; exact hmid
    have hfeed := feed_of_scan hopen (hread c (by simp)) hmid' hfit
    obtain ⟨outs, hrun, hopen', hrecs, hrest⟩ := ih (before ++ [c]) (f := { f with buffer := mid })
      hopen (by simpa using hmid) (by simpa using hpre) (fun c' hc' => hread c' (by simp [hc']))
      (fun done c' rest hsplit => by simpa using hbatch (c :: done) c' rest (by simp [hsplit]))
    refine ⟨(recordRule.scan (f.buffer ++ c)).1 :: outs, ?_, ?_, ?_, ?_⟩
    · simp only [List.map_cons, run, call, hfeed, hrun]
    · simp only [List.map_cons, run, call, hfeed, hopen']
    · have hcat : (before ++ [c]).flatten = before.flatten ++ c := by simp
      rw [hcat, happ] at hrecs
      simpa using hrecs
    · simp only [List.map_cons, run, call, hfeed]
      simpa using hrest

theorem run_append (f : MtpTcpFramer) (cs ds : List Call) :
    f.run (cs ++ ds) = ((f.run cs).1 ++ ((f.run cs).2.run ds).1, ((f.run cs).2.run ds).2) := by
  induction cs generalizing f with
  | nil => rfl
  | cons c cs ih => simp [run, ih]

/-- A connection that is accepted to its end is what was emitted, and what was
emitted is valid. -/
theorem run_accepted {chunks : List Bytes} : ∀ {f : MtpTcpFramer} {outs : List (List Bytes)},
    (f.run (chunks.map .feed ++ [.finish])).1 = outs.map .ok →
      f.buffer ++ chunks.flatten = outs.flatten.flatten ∧ ∀ r ∈ outs.flatten, ValidRecord r := by
  induction chunks with
  | nil =>
    intro f outs h
    simp only [List.map_nil, List.nil_append, run, call, finish] at h
    split at h
    · cases outs <;> simp at h
    split at h
    · cases outs <;> simp at h
    · rename_i hbuf
      obtain ⟨o, rfl⟩ : ∃ o, outs = [o] := by
        cases outs with
        | nil => simp at h
        | cons o outs => cases outs with
          | nil => exact ⟨o, rfl⟩
          | cons => simp at h
      simp only [List.map_cons, List.map_nil, List.cons.injEq, Except.ok.injEq, and_true] at h
      subst h
      simpa using hbuf
  | cons c cs ih =>
    intro f outs h
    cases outs with
    | nil => simp [run] at h
    | cons o outs =>
      simp only [List.map_cons, List.cons_append, run, call, List.cons.injEq] at h
      obtain ⟨hfeed, hrun⟩ := h
      obtain ⟨hscan, hrest⟩ := feed_ok hfeed
      obtain ⟨hcat, hvalid⟩ := ih hrun
      obtain ⟨ws, henc, hsplit⟩ := Rule.scan_ok_inv hrest
      rw [hscan] at henc
      obtain ⟨rfl, hvo⟩ := forall₂_encodes.mp henc
      refine ⟨?_, fun r hr => ?_⟩
      · rw [List.flatten_cons, ← List.append_assoc, hsplit, List.append_assoc, hcat, List.flatten_cons,
          List.flatten_append]
      · rw [List.flatten_cons, List.mem_append] at hr
        exact hr.elim (hvo r) (hvalid r)

/-- **The framer is chunk-independent and lossless.** Valid records come back
in order from every chunking that keeps to the read and batch limits, and the
end of the stream is accepted; a connection accepted to its end is exactly
the records emitted, all of them valid; after a feed that succeeded less than
one record is held; and after a failure every call fails. -/
theorem framer_chunk_independent :
    (∀ records chunks : List Bytes, (∀ r ∈ records, ValidRecord r) → chunks.flatten = records.flatten →
      (∀ c ∈ chunks, c.length ≤ MAX_READ_BYTES) → WithinBatch records [] chunks →
      ∃ outs : List (List Bytes),
        (run {} (chunks.map .feed ++ [.finish])).1 = outs.map .ok ∧ outs.flatten = records) ∧
    (∀ (chunks : List Bytes) (outs : List (List Bytes)),
      (run {} (chunks.map .feed ++ [.finish])).1 = outs.map .ok →
      chunks.flatten = outs.flatten.flatten ∧ ∀ r ∈ outs.flatten, ValidRecord r) ∧
    (∀ (calls : List Call) (data : Bytes) (records : List Bytes),
      ((run {} calls).2.feed data).1 = .ok records →
      ((run {} calls).2.feed data).2.buffer.length < 1500) ∧
    (∀ (before : List Call) (c : Call) (e : FrameFault) (after : List Call),
      ((run {} before).2.call c).1 = .error e →
      ∀ o ∈ (((run {} before).2.call c).2.run after).1, ∃ e', o = .error e') := by
  refine ⟨?_, ?_, ?_, ?_⟩
  · intro records chunks hv hcat hread hbatch
    have hnil : recordRule.scan [] = ([], .ok []) := Rule.scan_wait recordRule.view_nil
    obtain ⟨outs, hrun, hopen, hrecs, hrest⟩ := run_feeds hv [] (f := {}) rfl (by simp [hnil])
      (by simp [hcat]) hread hbatch
    have hall := Rule.scan_flatten (forall₂_encodes.mpr ⟨rfl, hv⟩) []
    simp only [List.append_nil, List.nil_append, List.flatten_nil, hcat, hnil] at hall hrecs hrest
    rw [hall] at hrecs hrest
    refine ⟨outs ++ [[]], ?_, by simpa using hrecs.symm⟩
    have hbuf : (run {} (chunks.map .feed)).2.buffer = [] := by simpa using hrest.symm
    rw [run_append, hrun]
    simp [run, call, finish, hopen, hbuf]
  · intro chunks outs h
    simpa using run_accepted h
  · intro calls data records h
    exact recordView_wait (recordRule.view_rest (feed_ok h).2)
  · intro before c e after h o ho
    exact ⟨_, run_closed (call_error h) after o ho⟩

/-- The smallest record: a KCP kind over twenty-four zero bytes. -/
def smallestRecord : Bytes := [0xC0, 0x10, 6, 3, 6, 3] ++ Bytes.zeros 24

/-- The first record cut inside its length field, the second inside its body. -/
theorem framer_chunk_independent_two_records :
    ValidRecord smallestRecord ∧ ∃ outs : List (List Bytes),
      (run {} ([smallestRecord.take 3, smallestRecord.drop 3 ++ smallestRecord.take 9,
        smallestRecord.drop 9].map .feed ++ [.finish])).1 = outs.map .ok ∧
      outs.flatten = [smallestRecord, smallestRecord] := by
  have hv : ValidRecord smallestRecord := by decide
  refine ⟨hv, framer_chunk_independent.1 [smallestRecord, smallestRecord] _ (by simpa using hv) (by decide)
    (by decide) ?_⟩
  intro done c rest _
  have h := Rule.completed_le_length [smallestRecord, smallestRecord] (([] ++ done).flatten.length + c.length)
  simp only [List.length_cons, List.length_nil] at h
  simp only [MAX_RECORDS_PER_FEED]
  omega

end CamGuard.Media.MtpTcpFramer
