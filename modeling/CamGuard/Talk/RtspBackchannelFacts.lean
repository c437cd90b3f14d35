/-
What LAN talkback leaves behind. Once the first OPEN has succeeded every failure passes
through a close that attempts CLOSE (`close_opened`), and nothing after it opens again; but
an OPEN whose answer was lost or refused is not closed, so the decoder is released exactly
if the first OPEN, where one is sent, is answered with 200 (`talkback_released_iff`).
-/
import CamGuard.Talk.RtspBackchannel

namespace CamGuard.Talk

/-- The audio command of a request. -/
def RtspEvent.command? : RtspEvent → Option AudioCtl
  | .request _ _ command _ => command
  | _ => none

/-- A CLOSE answered with 200. -/
def RtspEvent.Released (e : RtspEvent) : Prop :=
  ∃ session method r, e = .request session method (some .close) (.response r) ∧ r.status = 200

/-! ## What a step adds to the log -/

/-- Only events of a kind are added to the log. -/
def Adds (p : RtspEvent → Prop) (a b : RtspWire) : Prop := ∃ tail, b.log = a.log ++ tail ∧ ∀ e ∈ tail, p e

theorem Adds.trans {p : RtspEvent → Prop} {a b c : RtspWire} (h : Adds p a b) (h' : Adds p b c) : Adds p a c := by
  obtain ⟨tail, hlog, htail⟩ := h
  obtain ⟨tail', hlog', htail'⟩ := h'
  refine ⟨tail ++ tail', by rw [hlog', hlog, List.append_assoc], fun e he => ?_⟩
  rcases List.mem_append.mp he with he | he
  · exact htail e he
  · exact htail' e he

theorem Adds.note {p : RtspEvent → Prop} {e : RtspEvent} (he : p e) (w : RtspWire) : Adds p w (w.note e) :=
  ⟨[e], rfl, by simpa using he⟩

/-- No audio command. -/
abbrev Silent : RtspWire → RtspWire → Prop := Adds fun e => e.command? = none

theorem shut_silent (session : Nat) (w : RtspWire) : Silent w (w.note (.shut session)) :=
  Adds.note (p := fun e => e.command? = none) rfl w

/-- An answer of status `status`. -/
def RtspAnswer.Is (a : RtspAnswer) (status : Int) : Prop := ∃ r, a = .response r ∧ r.status = status

/-- The answer to OPTIONS of a camera with this talkback. -/
def RtspAnswer.Advertises (a : RtspAnswer) : Prop :=
  ∃ r, a = .response r ∧ r.status = 200 ∧ "USER_CMD_SET".toList ∈ r.publicMethods

/-- What `_request` makes of an answer. -/
def RtspAnswer.reply (method : String) : RtspAnswer → Except TalkbackFault RtspResponse
  | .raised => .error .os
  | .lost => .error (.backchannel ("camera did not answer RTSP " ++ method))
  | .response r => .ok r

/-- The answers on which `open` has its description after `n` requests. -/
def Described (env : RtspEnv) (camera : RtspCamera) (n : Nat) : Prop :=
  (n = 1 ∧ (env.answer 0).Is 200) ∨
    (n = 2 ∧ camera.username ≠ "" ∧ (env.answer 0).Is 401 ∧ (env.answer 1).Is 200)

/-- Request `n` is the first OPEN. -/
def FirstOpen (env : RtspEnv) (camera : RtspCamera) (n : Nat) : Prop :=
  camera.supported = true ∧ env.unreachable 0 = false ∧ env.unreachable 1 = false ∧
    ∃ described, n = described + 1 ∧ Described env camera described ∧ (env.answer described).Advertises

theorem RtspAnswer.Is.unique {a : RtspAnswer} {status status' : Int} (h : a.Is status) (h' : a.Is status') :
    status = status' := by
  obtain ⟨r, rfl, rfl⟩ := h
  obtain ⟨r, ⟨⟩, rfl⟩ := h'
  rfl

theorem FirstOpen.unique {env : RtspEnv} {camera : RtspCamera} {m n : Nat} (hm : FirstOpen env camera m)
    (hn : FirstOpen env camera n) : m = n := by
  obtain ⟨-, -, -, described, rfl, hdescribed, -⟩ := hm
  obtain ⟨-, -, -, described', rfl, hdescribed', -⟩ := hn
  rcases hdescribed with ⟨rfl, hfirst⟩ | ⟨rfl, -, hfirst, -⟩
  · rcases hdescribed' with ⟨rfl, -⟩ | ⟨-, -, hfirst', -⟩
    · rfl
    · cases hfirst.unique hfirst'
  · rcases hdescribed' with ⟨-, hfirst'⟩ | ⟨rfl, -⟩
    · cases hfirst.unique hfirst'
    · rfl

namespace RtspTalkSession

variable {env : RtspEnv} {camera : RtspCamera}

/-- The session after a request. -/
def asked (env : RtspEnv) (method : String) (command : Option AudioCtl) (s : RtspTalkSession) : RtspTalkSession :=
  { s with wire := (s.wire.request env s.session method command).2 }

theorem ask_eq (method : String) (command : Option AudioCtl) (s : RtspTalkSession) :
    s.ask env method command = ((env.answer s.wire.requests).reply method, s.asked env method command) := by
  unfold ask
  dsimp only [RtspWire.request]
  cases hanswer : env.answer s.wire.requests with
  | raised => simp [asked, RtspWire.request, RtspAnswer.reply, hanswer]
  | lost => simp [asked, RtspWire.request, RtspAnswer.reply, hanswer]
  | response r => simp [asked, RtspWire.request, RtspAnswer.reply, hanswer]

theorem asked_adds {p : RtspEvent → Prop} {method : String} {command : Option AudioCtl} (s : RtspTalkSession)
    (h : p (.request s.session method command (env.answer s.wire.requests))) :
    Adds p s.wire (s.asked env method command).wire := Adds.note h s.wire

theorem control_snd (env : RtspEnv) (command : AudioCtl) (s : RtspTalkSession) :
    (s.control env command).2 = s.asked env "USER_CMD_SET" (some command) := by
  unfold control
  rw [ask_eq]
  cases env.answer s.wire.requests with
  | raised => rfl
  | lost => rfl
  | response r =>
    dsimp only [RtspAnswer.reply]
    split
    · rfl
    · rfl

theorem control_ok (env : RtspEnv) (command : AudioCtl) (s : RtspTalkSession) :
    (s.control env command).1 = .ok () ↔ (env.answer s.wire.requests).Is 200 := by
  unfold control
  rw [ask_eq]
  cases env.answer s.wire.requests with
  | raised => simp [RtspAnswer.reply, RtspAnswer.Is]
  | lost => simp [RtspAnswer.reply, RtspAnswer.Is]
  | response r =>
    dsimp only [RtspAnswer.reply]
    split
    · rename_i hstatus
      simp [RtspAnswer.Is, hstatus]
    · rename_i hstatus
      simpa [RtspAnswer.Is] using hstatus

theorem control_granted {command : AudioCtl} {s t : RtspTalkSession} (h : s.control env command = (.ok (), t)) :
    t = s.asked env "USER_CMD_SET" (some command) ∧ (env.answer s.wire.requests).Is 200 := by
  have hsnd := control_snd env command s
  have hok := control_ok env command s
  rw [h] at hsnd hok
  exact ⟨hsnd, hok.mp rfl⟩

theorem control_refused {command : AudioCtl} {s t : RtspTalkSession} {fault : TalkbackFault}
    (h : s.control env command = (.error fault, t)) :
    t = s.asked env "USER_CMD_SET" (some command) ∧ ¬(env.answer s.wire.requests).Is 200 := by
  have hsnd := control_snd env command s
  have hok := control_ok env command s
  rw [h] at hsnd hok
  refine ⟨hsnd, fun hyes => ?_⟩
  cases hok.mpr hyes

/-! ## The parts of `open` -/

/-- No audio command, nothing opened and no connection made. -/
structure Quiet (a b : RtspTalkSession) : Prop where
  silent : Silent a.wire b.wire
  opened : b.opened = a.opened
  connects : b.wire.connects = a.wire.connects

theorem Quiet.trans {a b c : RtspTalkSession} (h : Quiet a b) (h' : Quiet b c) : Quiet a c :=
  ⟨h.silent.trans h'.silent, h'.opened.trans h.opened, h'.connects.trans h.connects⟩

/-- Only requests without an audio command, on the session there is. -/
structure Asks (a b : RtspTalkSession) : Prop where
  adds : Adds (fun e => ∃ session method answer, e = .request session method none answer) a.wire b.wire
  connects : b.wire.connects = a.wire.connects
  kept : b = { a with wire := b.wire, challenged := b.challenged }

theorem Asks.trans {a b c : RtspTalkSession} (h : Asks a b) (h' : Asks b c) : Asks a c :=
  ⟨h.adds.trans h'.adds, h'.connects.trans h.connects, h'.kept.trans (by rw [h.kept])⟩

theorem Asks.quiet {a b : RtspTalkSession} (h : Asks a b) : Quiet a b := by
  refine ⟨?_, by rw [h.kept], h.connects⟩
  obtain ⟨tail, hlog, htail⟩ := h.adds
  refine ⟨tail, hlog, fun e he => ?_⟩
  obtain ⟨session, method, answer, rfl⟩ := htail e he
  rfl

theorem asked_asks (env : RtspEnv) (method : String) (s : RtspTalkSession) : Asks s (s.asked env method none) :=
  ⟨asked_adds s ⟨_, _, _, rfl⟩, rfl, rfl⟩

theorem describe_asks (env : RtspEnv) (camera : RtspCamera) (s : RtspTalkSession) : Asks s (s.describe env camera).2 := by
  have hfirst : Asks s (s.asked env "DESCRIBE" none) := asked_asks env "DESCRIBE" s
  unfold describe
  rw [ask_eq]
  cases env.answer s.wire.requests with
  | raised => exact hfirst
  | lost => exact hfirst
  | response r =>
    dsimp only [RtspAnswer.reply]
    by_cases hbare : r.status = 401 ∧ camera.username = ""
    · rw [if_pos hbare]
      exact hfirst
    rw [if_neg hbare]
    by_cases hchallenge : r.status = 401
    · have hchallenged : Asks s { s.asked env "DESCRIBE" none with challenged := true } :=
        ⟨hfirst.adds, hfirst.connects, rfl⟩
      have hsecond := hchallenged.trans (asked_asks env "DESCRIBE" _)
      rw [if_pos hchallenge, ask_eq]
      cases env.answer ({ s.asked env "DESCRIBE" none with challenged := true } : RtspTalkSession).wire.requests with
      | raised => exact hsecond
      | lost => exact hsecond
      | response last =>
        dsimp only [RtspAnswer.reply]
        split
        · exact hsecond
        · exact hsecond
    · rw [if_neg hchallenge]
      dsimp only
      split
      · exact hfirst
      · exact hfirst

theorem describe_quiet (env : RtspEnv) (camera : RtspCamera) (s : RtspTalkSession) : Quiet s (s.describe env camera).2 :=
  (describe_asks env camera s).quiet

theorem is_response {r : RtspResponse} {status : Int} : (RtspAnswer.response r).Is status ↔ r.status = status := by
  simp [RtspAnswer.Is]

/-- `describe` succeeds on exactly these answers, after as many requests. -/
theorem describe_ok (env : RtspEnv) (camera : RtspCamera) {s : RtspTalkSession} (hfresh : s.wire.requests = 0) (n : Nat) :
    ((s.describe env camera).1 = .ok () ∧ (s.describe env camera).2.wire.requests = n) ↔ Described env camera n := by
  unfold Described
  have hone : (s.asked env "DESCRIBE" none).wire.requests = 1 := by
    rw [asked, RtspWire.request, hfresh]
  unfold describe
  rw [ask_eq, hfresh]
  cases env.answer 0 with
  | raised => simp [RtspAnswer.reply, RtspAnswer.Is]
  | lost => simp [RtspAnswer.reply, RtspAnswer.Is]
  | response r =>
    simp only [is_response]
    dsimp only [RtspAnswer.reply]
    by_cases hchallenge : r.status = 401
    · by_cases hname : camera.username = ""
      · rw [if_pos ⟨hchallenge, hname⟩]
        simp [hchallenge, hname]
      · rw [if_neg (fun h => hname h.2), if_pos hchallenge, ask_eq]
        dsimp only
        rw [hone]
        cases env.answer 1 with
        | raised => simp [RtspAnswer.reply, RtspAnswer.Is, hchallenge]
        | lost => simp [RtspAnswer.reply, RtspAnswer.Is, hchallenge]
        | response last =>
          simp only [is_response]
          dsimp only [RtspAnswer.reply]
          split
          · rename_i hstatus
            simp [hstatus, hchallenge]
          · rename_i hstatus
            have htwo : (({ s.asked env "DESCRIBE" none with challenged := true } : RtspTalkSession).asked env "DESCRIBE"
                none).wire.requests = 2 := by
              rw [asked, RtspWire.request]
              dsimp only
              rw [hone]
            constructor
            · rintro ⟨-, hn⟩
              exact .inr ⟨hn.symm.trans htwo, hname, hchallenge, not_not.mp hstatus⟩
            · rintro (⟨-, hopen⟩ | ⟨rfl, -⟩)
              · rw [hchallenge] at hopen
                exact absurd hopen (by decide)
              · exact ⟨rfl, htwo⟩
    · rw [if_neg (fun h => hchallenge h.1), if_neg hchallenge]
      dsimp only
      split
      · rename_i hstatus
        simp [hstatus, hchallenge]
      · rename_i hstatus
        constructor
        · rintro ⟨-, hn⟩
          exact .inl ⟨hn.symm.trans hone, not_not.mp hstatus⟩
        · rintro (⟨rfl, -⟩ | ⟨-, -, hasked, -⟩)
          · exact ⟨rfl, hone⟩
          · exact absurd hasked hchallenge

theorem options_asks (env : RtspEnv) (s : RtspTalkSession) : Asks s (s.options env).2 ∧
    (s.options env).2.wire.requests = s.wire.requests + 1 := by
  unfold options
  rw [ask_eq]
  cases env.answer s.wire.requests with
  | raised => exact ⟨asked_asks env "OPTIONS" s, rfl⟩
  | lost => exact ⟨asked_asks env "OPTIONS" s, rfl⟩
  | response r =>
    dsimp only [RtspAnswer.reply]
    split
    · exact ⟨asked_asks env "OPTIONS" s, rfl⟩
    · exact ⟨asked_asks env "OPTIONS" s, rfl⟩

theorem options_quiet (env : RtspEnv) (s : RtspTalkSession) : Quiet s (s.options env).2 ∧
    (s.options env).2.wire.requests = s.wire.requests + 1 :=
  ⟨(options_asks env s).1.quiet, (options_asks env s).2⟩

theorem options_ok (env : RtspEnv) (s : RtspTalkSession) : (s.options env).1 = .ok () ↔ (env.answer s.wire.requests).Advertises := by
  unfold options
  rw [ask_eq]
  cases env.answer s.wire.requests with
  | raised => simp [RtspAnswer.reply, RtspAnswer.Advertises]
  | lost => simp [RtspAnswer.reply, RtspAnswer.Advertises]
  | response r =>
    dsimp only [RtspAnswer.reply]
    by_cases hallows : r.status ≠ 200 ∨ "USER_CMD_SET".toList ∉ r.publicMethods
    · rw [if_pos hallows]
      simp only [reduceCtorEq, false_iff]
      rintro ⟨_, ⟨⟩, hstatus, hmem⟩
      rcases hallows with h | h
      · exact h hstatus
      · exact h hmem
    · rw [if_neg hallows]
      obtain ⟨hstatus, hmem⟩ := not_or.mp hallows
      exact iff_of_true rfl ⟨r, rfl, not_not.mp hstatus, not_not.mp hmem⟩

/-! ## `open` -/

/-- How `open` of a new session ends: no OPEN is sent, it is sent in vain, or it succeeds. -/
inductive Opening (env : RtspEnv) (camera : RtspCamera) (s t : RtspTalkSession) : Except TalkbackFault Unit → Prop where
  | unsent (fault : TalkbackFault) : (∀ n, ¬FirstOpen env camera n) → Silent s.wire t.wire → t.opened = s.opened →
      Opening env camera s t (.error fault)
  | failed (fault : TalkbackFault) (n session : Nat) (before : List RtspEvent) : FirstOpen env camera n →
      ¬(env.answer n).Is 200 →
      t.wire.log = before ++ [.request session "USER_CMD_SET" (some .open) (env.answer n)] → t.opened = s.opened →
      Opening env camera s t (.error fault)
  | opened (n : Nat) : FirstOpen env camera n → (env.answer n).Is 200 → t.opened = true →
      Opening env camera s t (.ok ())

theorem enable_opening {s t : RtspTalkSession} (hconnects : t.wire.connects = 1) (hsilent : Silent s.wire t.wire)
    (hopened : t.opened = s.opened) (hfirst : env.unreachable 1 = false → FirstOpen env camera t.wire.requests) :
    Opening env camera s (t.enable env).2 (t.enable env).1 := by
  have hshut : Silent s.wire (t.wire.note (.shut t.session)) := hsilent.trans (shut_silent t.session t.wire)
  have hcount : (t.wire.note (.shut t.session)).connects = 1 := hconnects
  unfold enable RtspWire.connect
  dsimp only
  rw [hcount]
  cases hreachable : env.unreachable 1 with
  | true =>
    refine .unsent _ (fun n hopen => ?_) hshut hopened
    rw [hopen.2.2.1] at hreachable
    cases hreachable
  | false =>
    rw [if_neg Bool.false_ne_true]
    dsimp only
    have hn := hfirst hreachable
    split
    · rename_i fault u hcontrol
      obtain ⟨rfl, hno⟩ := control_refused hcontrol
      exact .failed fault t.wire.requests 1 (t.wire.log ++ [.shut t.session]) hn hno rfl hopened
    · rename_i u hcontrol
      exact .opened t.wire.requests hn (control_granted hcontrol).2 rfl

/-- What is known of a session when `open` is called. -/
theorem open_opening (hsupported : camera.supported = true) (hreachable : env.unreachable 0 = false) {s : RtspTalkSession}
    (hrequests : s.wire.requests = 0) (hconnects : s.wire.connects = 1) :
    Opening env camera s (s.open_ env camera).2 (s.open_ env camera).1 := by
  have hquiet := describe_quiet env camera s
  have hdescribed := describe_ok env camera hrequests
  unfold open_
  split
  · rename_i fault t hdescribe
    rw [hdescribe] at hquiet
    refine .unsent fault (fun n hopen => ?_) hquiet.silent hquiet.opened
    obtain ⟨-, -, -, described, -, hanswers, -⟩ := hopen
    have hok := ((hdescribed described).mpr hanswers).1
    rw [hdescribe] at hok
    cases hok
  rename_i t hdescribe
  rw [hdescribe] at hquiet hdescribed
  have hasked := options_quiet env t
  have hadvertised := options_ok env t
  split
  · rename_i fault u hoptions
    rw [hoptions] at hasked hadvertised
    have hall := hquiet.trans hasked.1
    refine .unsent fault (fun n hopen => ?_) hall.silent hall.opened
    obtain ⟨-, -, -, described, -, hanswers, hadvertises⟩ := hopen
    have hcount : t.wire.requests = described := ((hdescribed described).mpr hanswers).2
    rw [← hcount] at hadvertises
    cases hadvertised.mpr hadvertises
  · rename_i u hoptions
    rw [hoptions] at hasked hadvertised
    have hall := hquiet.trans hasked.1
    refine enable_opening (hall.connects.trans hconnects) hall.silent hall.opened fun hfresh => ?_
    have hanswers := (hdescribed t.wire.requests).mp ⟨rfl, rfl⟩
    exact ⟨hsupported, hreachable, hfresh, t.wire.requests, hasked.2, hanswers, hadvertised.mp rfl⟩

/-! ## The body and the close -/

/-- The body after `open` keeps the session open. -/
theorem refresh_opened (env : RtspEnv) (s : RtspTalkSession) : (s.refresh env).2.opened = s.opened := by
  unfold refresh
  dsimp only
  split
  · rfl
  · split
    · rename_i hcontrol
      rw [(control_refused hcontrol).1]
      rfl
    · rename_i hcontrol
      rw [(control_granted hcontrol).1]
      rfl

theorem write_opened (env : RtspEnv) (payload : Bytes) (s : RtspTalkSession) : (s.write env payload).2.opened = s.opened := by
  unfold write
  split
  · rfl
  · dsimp only
    split
    · rfl
    · rfl

theorem sendPcm_opened (env : RtspEnv) (payload : Bytes) (s : RtspTalkSession) : (s.sendPcm env payload).2.opened = s.opened := by
  have hrefresh := refresh_opened env s
  unfold sendPcm
  split
  · rfl
  · split
    · rename_i heq
      rw [heq] at hrefresh
      exact hrefresh
    · rename_i heq
      rw [heq] at hrefresh
      exact (write_opened env payload _).trans hrefresh

/-- A close of a session that has not opened sends no audio command. -/
theorem close_unopened (env : RtspEnv) {s : RtspTalkSession} (h : s.opened = false) : Silent s.wire (s.close env).2.wire := by
  unfold close
  rw [h, if_neg Bool.false_ne_true]
  exact shut_silent s.session s.wire

/-- The recovery has no socket, or sends a CLOSE on it and reports what it was answered. -/
theorem recover_cases (env : RtspEnv) (s : RtspTalkSession) :
    ((s.recover env).1 = false ∧ (s.recover env).2.wire.log = s.wire.log) ∨
      ∃ session answer, (s.recover env).2.wire.log =
          s.wire.log ++ [.request session "USER_CMD_SET" (some .close) answer, .shut session] ∧
        ((s.recover env).1 = true → answer.Is 200) := by
  unfold recover RtspWire.connect
  dsimp only
  cases env.unreachable s.wire.connects with
  | true => exact .inl ⟨rfl, rfl⟩
  | false =>
    right
    rw [if_neg Bool.false_ne_true]
    refine ⟨s.wire.connects, env.answer s.wire.requests, ?_⟩
    dsimp only [RtspWire.request]
    cases env.answer s.wire.requests with
    | raised => exact ⟨List.append_assoc .., by simp⟩
    | lost => exact ⟨List.append_assoc .., by simp⟩
    | response r => exact ⟨List.append_assoc .., fun hclosed => ⟨r, rfl, of_decide_eq_true hclosed⟩⟩

/-- A close of an open session attempts CLOSE before anything else, opens nothing, and
reports a release only of an answered CLOSE. -/
theorem close_opened (env : RtspEnv) {s : RtspTalkSession} (h : s.opened = true) :
    (∃ e rest, (s.close env).2.wire.log = s.wire.log ++ e :: rest ∧ e.command? = some .close ∧
      ∀ later ∈ rest, later.command? ≠ some .open) ∧
    ((s.close env).1 = true → ∃ e ∈ (s.close env).2.wire.log, e.Released) := by
  unfold close
  rw [h, if_pos rfl]
  split
  · rename_i t hcontrol
    obtain ⟨rfl, r, hanswer, hstatus⟩ := control_granted hcontrol
    have hlog : ((s.asked env "USER_CMD_SET" (some .close)).wire.note (.shut s.session)).log =
        s.wire.log ++ .request s.session "USER_CMD_SET" (some .close) (env.answer s.wire.requests) :: [.shut s.session] :=
      List.append_assoc ..
    refine ⟨⟨_, _, hlog, rfl, by simp [RtspEvent.command?]⟩, fun _ => ?_⟩
    refine ⟨.request s.session "USER_CMD_SET" (some .close) (env.answer s.wire.requests), ?_, ?_⟩
    · exact hlog ▸ by simp
    · exact ⟨_, _, r, by rw [hanswer], hstatus⟩
  · rename_i fault t hcontrol
    obtain ⟨rfl, -⟩ := control_refused hcontrol
    have hsent : (s.asked env "USER_CMD_SET" (some .close)).wire.log =
        s.wire.log ++ [.request s.session "USER_CMD_SET" (some .close) (env.answer s.wire.requests)] := rfl
    dsimp only [RtspWire.note]
    rcases recover_cases env (s.asked env "USER_CMD_SET" (some .close)) with ⟨hfailed, hlog⟩ | ⟨session, answer, hlog, hgranted⟩
    · rw [hlog, hsent, hfailed]
      refine ⟨⟨.request s.session "USER_CMD_SET" (some .close) (env.answer s.wire.requests), _, List.append_assoc .., rfl,
        by simp [RtspEvent.command?]⟩, by simp⟩
    · rw [hlog, hsent, List.append_assoc, List.append_assoc]
      refine ⟨⟨.request s.session "USER_CMD_SET" (some .close) (env.answer s.wire.requests), _, rfl, rfl, ?_⟩,
        fun hclosed => ?_⟩
      · simp [RtspEvent.command?]
      · obtain ⟨r, hanswer, hstatus⟩ := hgranted hclosed
        exact ⟨.request session "USER_CMD_SET" (some .close) answer, by simp, session, _, r, by rw [hanswer], hstatus⟩

/-- A close sends only CLOSE, and shuts what it has. -/
theorem close_adds (env : RtspEnv) (s : RtspTalkSession) :
    Adds (fun e => (∃ session answer, e = .request session "USER_CMD_SET" (some .close) answer) ∨
      ∃ session, e = .shut session) s.wire (s.close env).2.wire := by
  have hshut (t : RtspTalkSession) : Adds (fun e => (∃ session answer,
      e = .request session "USER_CMD_SET" (some .close) answer) ∨ ∃ session, e = .shut session)
      t.wire (t.wire.note (.shut t.session)) := Adds.note (.inr ⟨_, rfl⟩) t.wire
  unfold close
  split
  · have hasked : Adds (fun e => (∃ session answer, e = .request session "USER_CMD_SET" (some .close) answer) ∨
        ∃ session, e = .shut session) s.wire (s.control env .close).2.wire := by
      rw [control_snd]
      exact asked_adds s (.inl ⟨_, _, rfl⟩)
    split
    · rename_i t hcontrol
      rw [hcontrol] at hasked
      exact hasked.trans (hshut t)
    · rename_i fault t hcontrol
      rw [hcontrol] at hasked
      refine (hasked.trans ?_).trans (hshut (t.recover env).2)
      rcases recover_cases env t with ⟨-, hlog⟩ | ⟨session, answer, hlog, -⟩
      · exact ⟨[], by rw [hlog, List.append_nil], by simp⟩
      · exact ⟨_, hlog, by simp⟩
  · exact hshut s

end RtspTalkSession

theorem sendPending_opened (env : RtspEnv) (pending : List Bytes) (s : RtspTalkSession) :
    (sendPending env pending s).2.opened = s.opened := by
  induction pending generalizing s with
  | nil => rfl
  | cons payload pending ih =>
    have hsent := RtspTalkSession.sendPcm_opened env payload s
    unfold sendPending
    split
    · rename_i heq
      rw [heq] at hsent
      exact hsent
    · rename_i heq
      rw [heq] at hsent
      exact (ih _).trans hsent

theorem flush_opened (env : RtspEnv) (d : TalkDelivery) (s : RtspTalkSession) : (d.flush env s).2.opened = s.opened := by
  have hsent := sendPending_opened env d.pending s
  unfold TalkDelivery.flush
  split
  · rename_i heq
    rw [heq] at hsent
    exact hsent
  · rename_i heq
    rw [heq] at hsent
    exact hsent

/-- Whatever becomes of the chunks, the session stays open for the close. -/
theorem sendAll_opened (env : RtspEnv) (fails : Bool) (chunks : List Bytes) (d : TalkDelivery) (s : RtspTalkSession) :
    (sendAll env fails chunks d s).2.opened = s.opened := by
  induction chunks generalizing d s with
  | nil =>
    unfold sendAll
    split
    · rfl
    · split
      · rfl
      · exact flush_opened env d s
  | cons chunk chunks ih =>
    unfold sendAll
    split
    · rfl
    · dsimp only
      split
      · exact ih _ s
      · split
        · rename_i heq
          have hsent := congrArg (fun r => r.2.opened) heq
          exact hsent.symm.trans (flush_opened env _ s)
        · rename_i heq
          have hsent := congrArg (fun r => r.2.opened) heq
          exact (ih _ _).trans (hsent.symm.trans (flush_opened env _ s))

/-! ## A message -/

/-- Every OPEN has a CLOSE after it, and a release is reported only of an answered CLOSE. -/
structure TalkbackReleases (outcome : Except TalkbackFault AudioMessageResult × RtspWire) : Prop where
  closed : ∀ before after e, outcome.2.log = before ++ e :: after → e.command? = some .open →
    ∃ later ∈ after, later.command? = some .close
  released : ∀ r, outcome.1 = .ok r → r.routeReleased = true → ∃ e ∈ outcome.2.log, e.Released

theorem closed_of_close {log earlier rest before after : List RtspEvent} {close e : RtspEvent}
    (hlog : log = earlier ++ close :: rest) (hclose : close.command? = some .close)
    (hrest : ∀ later ∈ rest, later.command? ≠ some .open) (hsplit : log = before ++ e :: after)
    (hopen : e.command? = some .open) : ∃ later ∈ after, later.command? = some .close := by
  rw [hsplit] at hlog
  rcases List.append_eq_append_iff.mp hlog with ⟨middle, hmiddle, hrests⟩ | ⟨middle, hmiddle, hrests⟩
  · -- The OPEN is among what was there before the CLOSE.
    cases middle with
    | nil =>
      obtain ⟨rfl, -⟩ := List.cons.inj hrests
      rw [hclose] at hopen
      cases hopen
    | cons first middle =>
      obtain ⟨-, rfl⟩ := List.cons.inj hrests
      exact ⟨close, by simp, hclose⟩
  · cases middle with
    | nil =>
      obtain ⟨rfl, -⟩ := List.cons.inj hrests
      rw [hclose] at hopen
      cases hopen
    | cons first middle =>
      obtain ⟨-, rfl⟩ := List.cons.inj hrests
      exact absurd hopen (hrest e (by simp))

theorem new_cases (env : RtspEnv) (camera : RtspCamera) (start : RtpStart) :
    ((∀ n, ¬FirstOpen env camera n) ∧ ∃ fault wire, RtspTalkSession.new env camera start = (.error fault, wire) ∧ wire.log = []) ∨
      camera.supported = true ∧ env.unreachable 0 = false ∧ ∃ s, RtspTalkSession.new env camera start = (.ok s, s.wire) ∧
        s.wire.requests = 0 ∧ s.wire.connects = 1 ∧ s.wire.log = [] ∧ s.opened = false := by
  unfold RtspTalkSession.new RtspWire.connect
  dsimp only
  cases hsupported : camera.supported with
  | false =>
    refine .inl ⟨fun n hopen => ?_, _, _, rfl, rfl⟩
    rw [hopen.1] at hsupported
    cases hsupported
  | true =>
    cases hreachable : env.unreachable 0 with
    | true =>
      refine .inl ⟨fun n hopen => ?_, _, _, rfl, rfl⟩
      rw [hopen.2.1] at hreachable
      cases hreachable
    | false => exact .inr ⟨rfl, rfl, _, rfl, rfl, rfl, rfl, rfl⟩

theorem vet_eq {r out : AudioMessageResult} (h : r.vet = .ok out) : out = r := by
  unfold AudioMessageResult.vet at h
  split at h
  · cases h
  · split at h
    · cases h
    · cases h
      rfl

/-- The end of `_send_chunks`: what the close left, and a release only if it reports one. -/
theorem sendChunks_end {env : RtspEnv} {camera : RtspCamera} {start : RtpStart} {s : RtspTalkSession}
    (hnew : RtspTalkSession.new env camera start = (.ok s, s.wire)) (chunks : List Bytes) (fails : Bool) :
    (sendChunks env camera start chunks fails).2 = ((deliver env camera chunks fails s).2.close env).2.wire ∧
      ∀ r, (sendChunks env camera start chunks fails).1 = .ok r →
        (∃ d, (deliver env camera chunks fails s).1 = .ok d) ∧
          r.routeReleased = ((deliver env camera chunks fails s).2.close env).1 := by
  unfold sendChunks
  rw [hnew]
  dsimp only
  cases hdelivered : (deliver env camera chunks fails s).1 with
  | error fault => exact ⟨rfl, by simp⟩
  | ok d =>
    dsimp only
    split
    · exact ⟨rfl, by simp⟩
    · refine ⟨rfl, fun r hr => ⟨⟨d, rfl⟩, ?_⟩⟩
      rw [vet_eq hr]

/-- The decoder is released exactly if the first OPEN, where one is sent, is answered with 200. -/
theorem talkback_released_iff (env : RtspEnv) (camera : RtspCamera) (start : RtpStart) (chunks : List Bytes) (fails : Bool) :
    TalkbackReleases (sendChunks env camera start chunks fails) ↔
      ∀ n, FirstOpen env camera n → (env.answer n).Is 200 := by
  rcases new_cases env camera start with ⟨hnever, fault, wire, hnew, hlog⟩ | ⟨hsupported, hreachable, s, hnew, hrequests, hconnects, hlog, hopened⟩
  · have hrun : sendChunks env camera start chunks fails = (.error fault, wire) := by
      unfold sendChunks
      rw [hnew]
    rw [hrun]
    refine iff_of_true ⟨?_, by simp⟩ fun n hopen => absurd hopen (hnever n)
    intro before after e hsplit
    rw [hlog] at hsplit
    simp at hsplit
  obtain ⟨hwire, hresult⟩ := sendChunks_end hnew chunks fails
  have hopening := RtspTalkSession.open_opening hsupported hreachable hrequests hconnects
  unfold deliver at hwire hresult
  generalize s.open_ env camera = opening at hopening hwire hresult
  obtain ⟨result, t⟩ := opening
  dsimp only at hopening
  cases hopening with
  | unsent fault hnever hsilent ht =>
    refine iff_of_true ⟨?_, ?_⟩ fun n hopen => absurd hopen (hnever n)
    · intro before after e hsplit hopen
      have hclose := hsilent.trans (RtspTalkSession.close_unopened env (ht.trans hopened))
      obtain ⟨tail, htail, hquiet⟩ := hclose
      rw [hwire, htail, hlog, List.nil_append] at hsplit
      rw [hquiet e (hsplit ▸ by simp)] at hopen
      cases hopen
    · intro r hr
      obtain ⟨d, hd⟩ := (hresult r hr).1
      cases hd
  | failed fault n session before hfirst hno htlog ht =>
    refine iff_of_false (fun h => ?_) fun h => hno (h n hfirst)
    obtain ⟨tail, htail, hquiet⟩ := RtspTalkSession.close_unopened env (ht.trans hopened)
    have hsplit := hwire ▸ htail
    rw [htlog, List.append_assoc] at hsplit
    obtain ⟨later, hmem, hclose⟩ := h.closed before tail _ hsplit rfl
    rw [hquiet later hmem] at hclose
    cases hclose
  | opened n hfirst hyes ht =>
    have hkept := (sendAll_opened env fails chunks {} t).trans ht
    obtain ⟨⟨close, rest, hclosed, hcommand, hrest⟩, hreleased⟩ := RtspTalkSession.close_opened env hkept
    refine iff_of_true ⟨?_, ?_⟩ ?_
    · intro before after e hsplit hopen
      rw [hwire] at hsplit
      exact closed_of_close hclosed hcommand hrest hsplit hopen
    · intro r hr hrelease
      rw [(hresult r hr).2] at hrelease
      rw [hwire]
      exact hreleased hrelease
    · intro m hm
      rwa [FirstOpen.unique hm hfirst]

/-- A camera that answers everything but the first OPEN, whose answer is lost. -/
def lostOpen : RtspEnv where
  unreachable _ := false
  answer n := if n = 2 then .lost else .response ⟨200, "OPTIONS, DESCRIBE, USER_CMD_SET"⟩
  broken _ := false
  clock _ := 0

def someCamera : RtspCamera := ⟨"192.168.1.20", "/onvif1", 554, ""⟩

/-- The decoder may have been opened, and nothing closes it. -/
theorem lost_open_unreleased : ¬TalkbackReleases (sendChunks lostOpen someCamera ⟨0, 0, 1⟩ [Bytes.zeros 640] false) := by
  intro h
  have hlog : (sendChunks lostOpen someCamera ⟨0, 0, 1⟩ [Bytes.zeros 640] false).2.log =
      [.request 0 "DESCRIBE" none (lostOpen.answer 0), .request 0 "OPTIONS" none (lostOpen.answer 1), .shut 0] ++
        .request 1 "USER_CMD_SET" (some .open) .lost :: [.shut 1] := by decide +kernel
  obtain ⟨later, hmem, hclose⟩ := h.closed _ _ _ hlog rfl
  rw [List.mem_singleton.mp hmem] at hclose
  cases hclose

end CamGuard.Talk
