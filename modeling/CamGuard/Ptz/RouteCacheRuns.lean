/-
What the steps of the route cache write down, and what follows for its runs.

`Does` says once what a step of a call can do. A lease's cached route, and the
epoch that a route became idle with, lead back from there to the step that took
the one out of the cache and read the other.
-/
import CamGuard.Ptz.RouteCacheFacts
import Mathlib.Data.List.Induction

namespace CamGuard.Ptz

variable {κ : Type}

/-- Without the time of the last check, which a keepalive writes. -/
def Taken.bare (t : Taken) : Taken := { t with idle := { t.idle with checked := 0 } }

namespace Phase

/-- The cached route that is in the hands of a call. -/
def took : Phase κ → Option Taken
  | .taken t => t.map Taken.bare
  | .examine t _ => some t.bare
  | .keepalive t => some t.bare
  | .select t => some t.bare
  | .wrap _ _ _ t => t.map Taken.bare
  | _ => none

/-- A call has no route, and will not have one before it is admitted. -/
def free : Phase κ → Bool
  | .enter => true
  | .retire => true
  | .tracked .. => true
  | .wait => true
  | .body => true
  | .resume => true
  | .ended => true
  | _ => false

end Phase

namespace CacheSystem

variable [DecidableEq κ]

/-- No route becomes idle. -/
def Keeps (s s' : CacheSystem κ) : Prop := ∀ k r, s'.cache.idle.get? k = some r → s.cache.idle.get? k = some r

/-- What a step writes down. -/
inductive Tells (s s' : CacheSystem κ) (c : Call κ) : Prop where
  | silent (idle : s.Keeps s') (log : s'.log = s.log)
  | admitted (idle : s.Keeps s') (admits : s.cache.admits = true) (log : s'.log = s.log ++ [.admitted])
  | leased (lease : CachedPtzRoute κ) (t : Option Taken) (idle : s.Keeps s') (log : s'.log = s.log ++ [.leased lease t])
  | idled (k : StorageKey κ) (r : Idle) (lease : CachedPtzRoute κ) (remaining : ℚ) (seen : Nat)
      (phase : c.phase = .put lease remaining seen) (key : storageKey s.cache.shared lease.key = some k)
      (admits : s.cache.admits = true) (route : r.route = lease.route) (epoch : r.epoch = lease.epoch)
      (idle : s'.cache.idle = s.cache.idle.set k r) (log : s'.log = s.log ++ [.idled lease c.kind.prepared seen])
  | uncertain (idle : s.Keeps s') (log : s'.log = s.log ++ [.uncertain])

/-- Where a call goes from a phase; with the idle routes after it. -/
structure Next (s : CacheSystem κ) (c d : Call κ) (idle : Dict (StorageKey κ) Idle) : Prop where
  kind : d.kind = c.kind
  alive : c.phase ≠ .ended
  put : ∀ lease remaining seen, d.phase = .put lease remaining seen → c.phase = .judge lease ∧ seen = s.epoch
  took : d.phase.took = none ∨ d.phase.took = c.phase.took ∨
    ∃ k r, s.cache.idle.get? k = some r ∧ idle.get? k = none ∧
      d.phase.took = some (Taken.bare ⟨r, s.now, s.epoch⟩)
  free : s.cache.admits = false → c.phase.free = true → d.phase.free = true

structure Does (s s' : CacheSystem κ) (i : Nat) (c : Call κ) : Prop where
  shared : s'.cache.shared = s.cache.shared
  tells : s.Tells s' c
  failed : s.cache.closeFailed = true → s'.cache.closeFailed = true
  leases : s'.leases = s.leases ∨ ∃ lease t, s'.leases = s.leases ++ [lease] ∧ lease.reused = t.isSome ∧
    c.phase.took = t.map Taken.bare ∧ c.phase.free = false ∧ .leased lease t ∈ s'.log
  calls : s'.calls = s.calls ∨ ∃ d, s'.calls = s.calls.set i d ∧ s.Next c d s'.cache.idle

variable {s s' : CacheSystem κ} {i : Nat} {c d : Call κ} {idle : Dict (StorageKey κ) Idle}

theorem Keeps.refl (s : CacheSystem κ) : s.Keeps s := fun _ _ h => h

theorem Does.stays (s : CacheSystem κ) (i : Nat) (c : Call κ) : s.Does s i c :=
  ⟨rfl, .silent (Keeps.refl s) rfl, id, .inl rfl, .inl rfl⟩

/-- A call goes on, and nothing else happens. -/
theorem Does.passes (hnext : s.Next c d s.cache.idle) : s.Does { s with calls := s.calls.set i d } i c :=
  ⟨rfl, .silent (Keeps.refl s) rfl, id, .inl rfl, .inr ⟨d, rfl, hnext⟩⟩

/-- A phase without a cached route. -/
theorem Next.plain (hkind : d.kind = c.kind) (halive : c.phase ≠ .ended) (hput : ∀ l r n, d.phase ≠ .put l r n)
    (htook : d.phase.took = none) (hfree : s.cache.admits = false → c.phase.free = true → d.phase.free = true) :
    s.Next c d idle :=
  ⟨hkind, halive, fun l r n h => absurd h (hput l r n), .inl htook, hfree⟩

/-- A phase with the cached route that was there. -/
theorem Next.same (hkind : d.kind = c.kind) (hfree : c.phase.free = false) (hput : ∀ l r n, d.phase ≠ .put l r n)
    (htook : d.phase.took = c.phase.took) : s.Next c d idle := by
  refine ⟨hkind, fun hended => ?_, fun l r n h => absurd h (hput l r n), .inr (.inl htook), fun _ h => ?_⟩
  · rw [hended] at hfree
    cases hfree
  · rw [hfree] at h
    cases h

/-- A busy call goes to a phase without a cached route. -/
theorem Next.leaves (hkind : d.kind = c.kind) (hfree : c.phase.free = false) (hput : ∀ l r n, d.phase ≠ .put l r n)
    (htook : d.phase.took = none) : s.Next c d idle := by
  refine .plain hkind (fun hended => ?_) hput htook fun _ h => ?_
  · rw [hended] at hfree
    cases hfree
  · rw [hfree] at h
    cases h

theorem fresh_does (hkind : d.kind = c.kind) (halive : c.phase ≠ .ended)
    (hfree : s.cache.admits = false → c.phase.free = true → False) (created : ℚ) : s.Does (s.fresh i d created) i c := by
  unfold fresh go
  split
  · exact .passes (.plain hkind halive (fun _ _ _ h => by cases h) rfl fun hadmits h => (hfree hadmits h).elim)
  · exact .passes (.plain hkind halive (fun _ _ _ h => by cases h) rfl fun hadmits h => (hfree hadmits h).elim)

theorem enter_does (hphase : c.phase = .enter) : s.Does (s.enter i c) i c := by
  have halive : c.phase ≠ .ended := by rw [hphase]; exact fun h => by cases h
  unfold enter
  split
  · exact .passes (.plain rfl halive (fun _ _ _ h => by cases h) rfl fun _ _ => rfl)
  next hadmits =>
  have hadmits : s.cache.admits = true := eq_true_of_ne_false hadmits
  have hbusy (d : Call κ) : s.cache.admits = false → c.phase.free = true → d.phase.free = true := by
    intro hnot
    rw [hadmits] at hnot
    cases hnot
  have hnoted (d : Call κ) (h : s.Next c d s.cache.idle) :
      s.Does { s.note .admitted with calls := s.calls.set i d } i c :=
    ⟨rfl, .admitted (Keeps.refl s) hadmits rfl, id, .inl rfl, .inr ⟨d, rfl, h⟩⟩
  split
  · exact hnoted _ (.plain rfl halive (fun _ _ _ h => by cases h) rfl (hbusy _))
  next k hkey =>
  unfold pop
  cases hget : (s.note .admitted).cache.idle.get? k with
  | none =>
    dsimp only
    split
    · unfold fresh go
      split
      · exact hnoted _ (.plain rfl halive (fun _ _ _ h => by cases h) rfl (hbusy _))
      · exact hnoted _ (.plain rfl halive (fun _ _ _ h => by cases h) rfl (hbusy _))
    · exact hnoted _ (.plain rfl halive (fun _ _ _ h => by cases h) rfl (hbusy _))
  | some r =>
    have hpopped (d : Call κ) (hkind : d.kind = c.kind) (hput : ∀ l r n, d.phase ≠ .put l r n)
        (htook : d.phase.took = some (Taken.bare ⟨r, s.now, s.epoch⟩)) :
        s.Does { s.note .admitted with
          cache := { s.cache with idle := s.cache.idle.erase k }
          calls := s.calls.set i d } i c := by
      refine ⟨rfl, .admitted (fun j r' hj => ?_) hadmits rfl, id, .inl rfl,
        .inr ⟨d, rfl, hkind, halive, fun l r n h => absurd h (hput l r n), .inr (.inr ⟨k, r, hget, ?_, htook⟩), hbusy d⟩⟩
      · change (s.cache.idle.erase k).get? j = some r' at hj
        rw [Dict.get?_erase] at hj
        split at hj
        · cases hj
        · exact hj
      · rw [Dict.get?_erase, if_pos rfl]
    dsimp only
    split
    · exact hpopped _ rfl (fun _ _ _ h => by cases h) rfl
    · exact hpopped _ rfl (fun _ _ _ h => by cases h) rfl

theorem alive_does {t : Taken} (hfree : c.phase.free = false) (htook : c.phase.took = some t.bare) :
    s.Does (s.alive i c t) i c := by
  unfold alive go
  split
  · exact .passes (.same rfl hfree (fun _ _ _ h => by cases h) htook.symm)
  · exact .passes (.same rfl hfree (fun _ _ _ h => by cases h) htook.symm)

theorem examine_does {t : Taken} {now : ℚ} (hphase : c.phase = .examine t now) : s.Does (s.examine i c t now) i c := by
  have hfree : c.phase.free = false := by rw [hphase]; rfl
  have htook : c.phase.took = some t.bare := by rw [hphase]; rfl
  have hgone (after : After) : s.Does (s.go i c (.discard t.idle.route after)) i c :=
    .passes (.leaves rfl hfree (fun _ _ _ h => by cases h) rfl)
  have hkept (p : Phase κ) (hput : ∀ l r n, p ≠ .put l r n) (hp : p.took = some t.bare) : s.Does (s.go i c p) i c :=
    .passes (.same rfl hfree hput (hp.trans htook.symm))
  unfold examine
  split
  · exact hgone _
  split
  · split
    · split
      · exact hkept _ (fun _ _ _ h => by cases h) rfl
      · exact alive_does hfree htook
    · exact hgone _
  · split
    · split
      · exact hkept _ (fun _ _ _ h => by cases h) rfl
      · exact hkept _ (fun _ _ _ h => by cases h) rfl
    · exact hgone _

theorem wrap_does {route : Route} {created checked : ℚ} {t : Option Taken} (hphase : c.phase = .wrap route created checked t) :
    s.Does (s.wrap i c route created checked t) i c := by
  have hfree : c.phase.free = false := by rw [hphase]; rfl
  have htook : c.phase.took = t.map Taken.bare := by rw [hphase]; rfl
  unfold wrap
  split
  · exact .passes (.leaves rfl hfree (fun _ _ _ h => by cases h) rfl)
  · exact ⟨rfl, .leased _ t (Keeps.refl s) rfl, id,
      .inr ⟨_, t, rfl, rfl, htook, hfree, List.mem_append_right _ (List.mem_singleton_self _)⟩,
      .inr ⟨_, rfl, .leaves rfl hfree (fun _ _ _ h => by cases h) rfl⟩⟩

theorem judge_does {lease : CachedPtzRoute κ} (hphase : c.phase = .judge lease) : s.Does (s.judge i c lease) i c := by
  have hfree : c.phase.free = false := by rw [hphase]; rfl
  unfold judge
  dsimp only
  generalize (if s.cache.shared = true then (8 : ℚ) else 20 - (s.now - lease.created)) = remaining
  split
  · exact .passes (.leaves rfl hfree (fun _ _ _ h => by cases h) rfl)
  · refine .passes ⟨rfl, fun h => ?_, fun l r n h => ?_, .inl rfl, fun _ h => ?_⟩
    · rw [hphase] at h
      cases h
    · cases h
      exact ⟨hphase, rfl⟩
    · rw [hfree] at h
      cases h

theorem put_does {lease : CachedPtzRoute κ} {remaining : ℚ} {seen : Nat} (hphase : c.phase = .put lease remaining seen)
    (started : Bool) : s.Does (s.put i c lease remaining seen started) i c := by
  have hfree : c.phase.free = false := by rw [hphase]; rfl
  unfold put
  split
  · exact .passes (.leaves rfl hfree (fun _ _ _ h => by cases h) rfl)
  next k hkey =>
  split
  · exact .passes (.leaves rfl hfree (fun _ _ _ h => by cases h) rfl)
  next hroom =>
  simp only [not_or] at hroom
  have hadmits : s.cache.admits = true := by
    rw [PtzRouteCache.admits, eq_false_of_ne_true hroom.1, eq_false_of_ne_true hroom.2.1]
    rfl
  exact ⟨rfl, .idled k _ lease remaining seen hphase hkey hadmits rfl rfl rfl rfl, id, .inl rfl,
    .inr ⟨_, rfl, .leaves rfl hfree (fun _ _ _ h => by cases h) rfl⟩⟩

/-- A call goes on, and the idle routes and the log stay. -/
theorem Does.goes (s' : CacheSystem κ) (hcalls : s'.calls = s.calls) (hidle : s'.cache.idle = s.cache.idle)
    (hlog : s'.log = s.log)
    (hshared : s'.cache.shared = s.cache.shared) (hfailed : s.cache.closeFailed = true → s'.cache.closeFailed = true)
    (hleases : s'.leases = s.leases) (hnext : s.Next c d s.cache.idle) : s.Does { s' with calls := s'.calls.set i d } i c := by
  rw [hcalls]
  refine ⟨hshared, .silent (fun k r h => ?_) hlog, hfailed, .inl hleases, .inr ⟨d, rfl, ?_⟩⟩
  · rw [← hidle]
    exact h
  · rw [← hidle] at hnext
    exact hnext

theorem discard_does {route : Route} {after : After} (hphase : c.phase = .discard route after) :
    s.Does ((s.close route).discarded i c after) i c ∧ s.Does ((s.close route).go i c .ended) i c := by
  have hfree : c.phase.free = false := by rw [hphase]; rfl
  have hgoes (p : Phase κ) (hput : ∀ l r n, p ≠ .put l r n) (htook : p.took = none) :
      s.Does ((s.close route).go i c p) i c :=
    .goes (s.close route) rfl rfl rfl rfl id rfl (.leaves rfl hfree hput htook)
  refine ⟨?_, hgoes _ (fun _ _ _ h => by cases h) rfl⟩
  unfold discarded
  cases after with
  | finish => exact hgoes _ (fun _ _ _ h => by cases h) rfl
  | fresh created =>
    dsimp only
    unfold fresh
    split
    · exact hgoes _ (fun _ _ _ h => by cases h) rfl
    · exact hgoes _ (fun _ _ _ h => by cases h) rfl
  | again => exact hgoes _ (fun _ _ _ h => by cases h) rfl

/-- A call without a route goes on without one. -/
theorem Next.rests (hkind : d.kind = c.kind) (halive : c.phase ≠ .ended) (hfree : d.phase.free = true) :
    s.Next c d idle := by
  refine .plain hkind halive (fun l r n h => ?_) ?_ fun _ _ => hfree
  · rw [h] at hfree
    cases hfree
  · cases hphase : d.phase with
    | taken | examine | keepalive | select | wrap =>
      rw [hphase] at hfree
      cases hfree
    | _ => rfl

theorem retire_does (hphase : c.phase = .retire) : s.Does (s.retire i c) i c := by
  refine ⟨rfl, .silent (fun _ _ h => by cases h) rfl, id, .inl rfl, .inr ⟨_, rfl, .rests rfl (fun h => ?_) rfl⟩⟩
  rw [hphase] at h
  cases h

theorem retired_does {failed : Bool} (hphase : c.phase = .tracked [] failed) : s.Does (s.retired i c failed) i c := by
  have halive : c.phase ≠ .ended := by rw [hphase]; exact fun h => by cases h
  unfold retired
  split
  · cases failed with
    | _ => exact .passes (.rests rfl halive rfl)
  · exact .passes (.rests rfl halive rfl)

theorem closes_does {route : Route} {routes : List Route} {failed : Bool} (hphase : c.phase = .tracked (route :: routes) failed)
    (doubt failed' : Bool) : s.Does (((s.close route).closedTracked doubt).go i c (.tracked routes failed')) i c := by
  have halive : c.phase ≠ .ended := by rw [hphase]; exact fun h => by cases h
  have hkept : s.cache.closeFailed = true → (s.cache.closeFailed || doubt) = true := by
    intro h
    rw [h]
    rfl
  cases doubt with
  | true =>
    exact ⟨rfl, .uncertain (fun _ _ h => h) rfl, hkept, .inl rfl, .inr ⟨_, rfl, .rests rfl halive rfl⟩⟩
  | false =>
    exact ⟨rfl, .silent (fun _ _ h => h) rfl, hkept, .inl rfl, .inr ⟨_, rfl, .rests rfl halive rfl⟩⟩

theorem wait_does (hphase : c.phase = .wait) (late : Bool) : s.Does (s.wait i c late) i c := by
  have halive : c.phase ≠ .ended := by rw [hphase]; exact fun h => by cases h
  unfold wait
  split
  · cases s.cache.closeFailed with
    | _ => exact .passes (.rests rfl halive rfl)
  split
  · exact ⟨rfl, .uncertain (fun _ _ h => h) rfl, fun _ => rfl, .inl rfl, .inr ⟨_, rfl, .rests rfl halive rfl⟩⟩
  · exact .stays s i c

theorem advance_does (hc : s.calls[i]? = some c) (input : Input) : s.Does (s.advance i input) i c := by
  unfold advance
  rw [hc]
  dsimp only
  cases hphase : c.phase with
  | enter => exact enter_does hphase
  | taken t =>
    have hfree : c.phase.free = false := by rw [hphase]; rfl
    cases t with
    | none =>
      refine fresh_does rfl (fun h => ?_) (fun _ h => ?_) _
      · rw [hphase] at h
        cases h
      · rw [hfree] at h
        cases h
    | some t => exact .passes (.same rfl hfree (fun _ _ _ h => by cases h) (by rw [hphase]; rfl))
  | examine t now => exact examine_does hphase
  | keepalive t =>
    have hfree : c.phase.free = false := by rw [hphase]; rfl
    cases input with
    | ok => exact alive_does hfree (by rw [hphase]; rfl)
    | raised => exact .passes (.leaves rfl hfree (fun _ _ _ h => by cases h) rfl)
    | object | late => exact .stays s i c
  | select t =>
    have hfree : c.phase.free = false := by rw [hphase]; rfl
    cases input with
    | object object => exact .passes (.same rfl hfree (fun _ _ _ h => by cases h) (by rw [hphase]; rfl))
    | raised => exact .passes (.leaves rfl hfree (fun _ _ _ h => by cases h) rfl)
    | ok | late => exact .stays s i c
  | prepare created =>
    have hfree : c.phase.free = false := by rw [hphase]; rfl
    cases input with
    | object object =>
      exact .goes { s with sockets := s.sockets + 1 } rfl rfl rfl rfl id rfl
        (.leaves rfl hfree (fun _ _ _ h => by cases h) rfl)
    | raised => exact .passes (.leaves rfl hfree (fun _ _ _ h => by cases h) rfl)
    | ok | late => exact .stays s i c
  | wrap route created checked t => exact wrap_does hphase
  | discard route after =>
    cases input with
    | ok => exact (discard_does hphase).1
    | raised => exact (discard_does hphase).2
    | object | late => exact .stays s i c
  | judge lease => exact judge_does hphase
  | put lease remaining seen =>
    cases input with
    | ok => exact put_does hphase true
    | raised => exact put_does hphase false
    | object | late => exact .stays s i c
  | retire => exact retire_does hphase
  | tracked routes failed =>
    cases routes with
    | nil => exact retired_does hphase
    | cons route routes =>
      cases input with
      | ok => exact closes_does hphase false failed
      | raised => exact closes_does hphase true true
      | object | late => exact .stays s i c
  | wait =>
    cases input with
    | ok => exact wait_does hphase false
    | late => exact wait_does hphase true
    | object | raised => exact .stays s i c
  | body =>
    refine .passes (.rests rfl (fun h => ?_) rfl)
    rw [hphase] at h
    cases h
  | resume =>
    refine .goes { s with cache := { s.cache with paused := false } } rfl rfl rfl rfl id rfl (.rests rfl (fun h => ?_) rfl)
    rw [hphase] at h
    cases h
  | ended => exact .stays s i c

/-! ## Steps -/

/-- What a step may do. -/
inductive Steps (s s' : CacheSystem κ) (m : CacheMove κ) : Prop where
  | call (i : Nat) (input : Input) (c : Call κ) (move : m = .go i input) (here : s.calls[i]? = some c)
      (does : s.Does s' i c)
  | other (shared : s'.cache.shared = s.cache.shared) (idle : s.Keeps s') (log : s'.log = s.log)
      (failed : s'.cache.closeFailed = s.cache.closeFailed)
      (calls : s'.calls = s.calls ∨ ∃ d, s'.calls = s.calls ++ [d] ∧ d.phase.took = none ∧
        (∀ l r n, d.phase ≠ .put l r n) ∧ (d.phase.free = false → ∃ l ∈ s.leases, l.closed = false))
      (leases : s'.leases = s.leases ∨ ∃ j l l', s.leases[j]? = some l ∧ l.closed = false ∧ s'.leases = s.leases.set j l' ∧
        l'.route = l.route ∧ l'.reused = l.reused)

theorem step_steps (s : CacheSystem κ) (m : CacheMove κ) : s.Steps (s.step m) m := by
  have hstays : s.Steps s m := .other rfl (Keeps.refl s) rfl rfl (.inl rfl) (.inl rfl)
  have hbegins (d : Call κ) (hput : ∀ l r n, d.phase ≠ .put l r n) (htook : d.phase.took = none)
      (hfree : d.phase.free = true) : s.Steps (s.begin d) m := by
    refine .other rfl (Keeps.refl s) rfl rfl (.inr ⟨d, rfl, htook, hput, fun h => ?_⟩) (.inl rfl)
    rw [hfree] at h
    cases h
  cases m with
  | warm key selects =>
    simp only [step]
    split
    · exact hstays
    · exact hbegins _ (fun _ _ _ h => by cases h) rfl rfl
  | acquire key selects =>
    simp only [step]
    split
    · exact hstays
    · exact hbegins _ (fun _ _ _ h => by cases h) rfl rfl
  | closeIdle => exact hbegins _ (fun _ _ _ h => by cases h) rfl rfl
  | quiesce =>
    simp only [step, quiesce]
    split
    · exact hstays
    · exact .other rfl (fun _ _ h => h) rfl rfl (.inr ⟨_, rfl, rfl, (fun _ _ _ h => by cases h), fun h => by cases h⟩) (.inl rfl)
  | expire key object =>
    simp only [step, expire]
    split
    · exact hstays
    split
    · exact hstays
    refine .other rfl (fun j r h => ?_) rfl rfl (.inr ⟨_, rfl, rfl, (fun _ _ _ h => by cases h), fun h => by cases h⟩) (.inl rfl)
    change (s.cache.idle.erase key).get? j = some r at h
    rw [Dict.get?_erase] at h
    split at h
    · cases h
    · exact h
  | go i input =>
    cases hc : s.calls[i]? with
    | none =>
      simp only [step, advance, hc]
      exact hstays
    | some c => exact .call i input c rfl hc (advance_does hc input)
  | use j u =>
    simp only [step, use]
    split
    · exact hstays
    next lease hget =>
    split
    · exact hstays
    next hopen =>
    cases u with
    | sent => exact hstays
    | confirmed | raised =>
      exact .other rfl (fun _ _ h => h) rfl rfl (.inl rfl)
        (.inr ⟨j, lease, _, hget, eq_false_of_ne_true hopen, rfl, rfl, rfl⟩)
  | closeLease j =>
    simp only [step, closeLease]
    split
    · exact hstays
    next lease hget =>
    split
    · exact hstays
    next hopen =>
    have hopen : lease.closed = false := eq_false_of_ne_true hopen
    exact .other rfl (fun _ _ h => h) rfl rfl
      (.inr ⟨_, rfl, rfl, (fun _ _ _ h => by cases h), fun _ => ⟨lease, List.mem_of_getElem? hget, hopen⟩⟩)
      (.inr ⟨j, lease, _, hget, hopen, rfl, rfl, rfl⟩)
  | authenticate => exact .other rfl (fun _ _ h => h) rfl rfl (.inl rfl) (.inl rfl)
  | elapse time => exact .other rfl (fun _ _ h => h) rfl rfl (.inl rfl) (.inl rfl)

/-- Nothing is admitted by a step, and no route becomes idle. -/
def Shut (s : CacheSystem κ) : Prop := ∀ m, s.Keeps (s.step m) ∧ ∃ l, (s.step m).log = s.log ++ l ∧ .admitted ∉ l

theorem shut (h : s.cache.admits = false) : s.Shut := by
  intro m
  have hsilent (e : CacheEvent κ) (he : e ≠ .admitted) : .admitted ∉ [e] := fun hmem => he (List.mem_singleton.mp hmem).symm
  cases step_steps s m with
  | call i input c move here does =>
    cases does.tells with
    | silent idle log => exact ⟨idle, [], by rw [log, List.append_nil], List.not_mem_nil⟩
    | admitted idle admits log =>
      rw [h] at admits
      cases admits
    | leased lease t idle log => exact ⟨idle, _, log, hsilent _ fun he => by cases he⟩
    | idled k r lease remaining seen phase key admits =>
      rw [h] at admits
      cases admits
    | uncertain idle log => exact ⟨idle, _, log, hsilent _ fun he => by cases he⟩
  | other hshared idle log => exact ⟨idle, [], by rw [log, List.append_nil], List.not_mem_nil⟩

theorem failed_stays (h : s.cache.closeFailed = true) (moves : List (CacheMove κ)) :
    (moves.foldl step s).cache.closeFailed = true := by
  induction moves generalizing s with
  | nil => exact h
  | cons m moves ih =>
    refine ih ?_
    cases step_steps s m with
    | call i input c move here does => exact does.failed h
    | other hshared idle log failed => exact failed.trans h

theorem run_snoc (shared : Bool) (moves : List (CacheMove κ)) (m : CacheMove κ) :
    run shared (moves ++ [m]) = (run shared moves).step m := by
  rw [run, List.foldl_append]
  rfl

theorem run_append (shared : Bool) (moves moves' : List (CacheMove κ)) :
    run shared (moves ++ moves') = moves'.foldl step (run shared moves) := by
  rw [run, List.foldl_append]
  rfl

theorem step_call (hc : s.calls[i]? = some c) (m : CacheMove κ) :
    ∃ d, (s.step m).calls[i]? = some d ∧ d.kind = c.kind ∧ (c.phase = .ended → d = c) := by
  cases step_steps s m with
  | call j input c' move here does =>
    rcases does.calls with hcalls | ⟨d, hcalls, hnext⟩
    · exact ⟨c, by rw [hcalls]; exact hc, rfl, fun _ => rfl⟩
    · by_cases hij : j = i
      · subst hij
        rw [here] at hc
        cases hc
        have hlt := (List.getElem?_eq_some_iff.mp here).1
        exact ⟨d, by rw [hcalls, List.getElem?_set_self hlt], hnext.kind, fun h => absurd h hnext.alive⟩
      · exact ⟨c, by rw [hcalls, List.getElem?_set_ne hij]; exact hc, rfl, fun _ => rfl⟩
  | other hshared idle log failed calls =>
    rcases calls with hcalls | ⟨d, hcalls, -⟩
    · exact ⟨c, by rw [hcalls]; exact hc, rfl, fun _ => rfl⟩
    · have hlt := (List.getElem?_eq_some_iff.mp hc).1
      exact ⟨c, by rw [hcalls, List.getElem?_append_left hlt]; exact hc, rfl, fun _ => rfl⟩

/-- A call that is somewhere was there before, or has just come there. -/
theorem step_called {m : CacheMove κ} (hd : (s.step m).calls[i]? = some d) :
    s.calls[i]? = some d ∨
      (∃ input c, m = .go i input ∧ s.calls[i]? = some c ∧ s.Next c d (s.step m).cache.idle) ∨
      (d.phase.took = none ∧ ∀ l r n, d.phase ≠ .put l r n) := by
  cases step_steps s m with
  | call j input c move here does =>
    rcases does.calls with hcalls | ⟨d', hcalls, hnext⟩
    · rw [hcalls] at hd
      exact .inl hd
    · rw [hcalls] at hd
      by_cases hij : j = i
      · subst hij
        rw [List.getElem?_set_self (List.getElem?_eq_some_iff.mp here).1] at hd
        cases hd
        exact .inr (.inl ⟨input, c, move, here, hnext⟩)
      · rw [List.getElem?_set_ne hij] at hd
        exact .inl hd
  | other hshared idle log failed calls =>
    rcases calls with hcalls | ⟨d', hcalls, htook, hput, -⟩
    · rw [hcalls] at hd
      exact .inl hd
    · rw [hcalls, List.getElem?_append] at hd
      split at hd
      · exact .inl hd
      · rw [List.getElem?_singleton] at hd
        split at hd
        · cases hd
          exact .inr (.inr ⟨htook, hput⟩)
        · cases hd

/-! ## Histories -/

/-- A move of these took a route out of the cache. -/
def TookAt (shared : Bool) (moves : List (CacheMove κ)) (t : Taken) : Prop :=
  ∃ (before after : List (CacheMove κ)) (i : Nat) (input : Input) (k : StorageKey κ) (r : Idle),
    moves = before ++ .go i input :: after ∧ (run shared before).cache.idle.get? k = some r ∧
      (run shared (before ++ [.go i input])).cache.idle.get? k = none ∧
      t = Taken.bare ⟨r, (run shared before).now, (run shared before).epoch⟩

theorem TookAt.later {shared : Bool} {moves : List (CacheMove κ)} {t : Taken} (h : TookAt shared moves t) (m : CacheMove κ) :
    TookAt shared (moves ++ [m]) t := by
  obtain ⟨before, after, i, input, k, r, rfl, h⟩ := h
  exact ⟨before, after ++ [m], i, input, k, r, by rw [List.append_assoc, List.cons_append], h⟩

theorem took_at (shared : Bool) (moves : List (CacheMove κ)) {t : Taken} (hc : (run shared moves).calls[i]? = some c)
    (ht : c.phase.took = some t) : TookAt shared moves t := by
  induction moves using List.reverseRecOn generalizing c with
  | nil => cases hc
  | append_singleton moves m ih =>
    rw [run_snoc] at hc
    rcases step_called hc with hold | ⟨input, c', rfl, hc', hnext⟩ | ⟨hnone, -⟩
    · exact (ih hold ht).later m
    · rcases hnext.took with hnone | hsame | ⟨k, r, hget, hgone, htook⟩
      · rw [hnone] at ht
        cases ht
      · exact (ih hc' (hsame.symm.trans ht)).later _
      · rw [htook] at ht
        cases ht
        refine ⟨moves, [], i, input, k, r, rfl, hget, ?_, rfl⟩
        rw [run_snoc]
        exact hgone
    · rw [hnone] at ht
      cases ht

/-- The epoch that a route is to be idle with was read by `_return`. -/
theorem put_judged (shared : Bool) (moves : List (CacheMove κ)) {lease : CachedPtzRoute κ} {remaining : ℚ} {seen : Nat}
    (hc : (run shared moves).calls[i]? = some c) (hphase : c.phase = .put lease remaining seen) :
    ∃ (before after : List (CacheMove κ)) (input : Input) (c' : Call κ), moves = before ++ .go i input :: after ∧
      (run shared before).calls[i]? = some c' ∧ c'.phase = .judge lease ∧ seen = (run shared before).epoch := by
  induction moves using List.reverseRecOn generalizing c with
  | nil => cases hc
  | append_singleton moves m ih =>
    rw [run_snoc] at hc
    rcases step_called hc with hold | ⟨input, c', rfl, hc', hnext⟩ | ⟨-, hput⟩
    · obtain ⟨before, after, input, c', rfl, h⟩ := ih hold hphase
      exact ⟨before, after ++ [m], input, c', by rw [List.append_assoc, List.cons_append], h⟩
    · obtain ⟨hjudge, hseen⟩ := hnext.put _ _ _ hphase
      exact ⟨moves, [], input, c', rfl, hc', hjudge, hseen⟩
    · exact absurd hphase (hput _ _ _)

theorem run_shared (shared : Bool) (moves : List (CacheMove κ)) : (run shared moves).cache.shared = shared := by
  induction moves using List.reverseRecOn with
  | nil => rfl
  | append_singleton moves m ih =>
    rw [run_snoc]
    cases step_steps (run shared moves) m with
    | call i input c move here does => exact does.shared.trans ih
    | other hshared => exact hshared.trans ih

/-- A lease of a cached route leads back to the move that took the route out. -/
theorem reused_at (shared : Bool) (moves : List (CacheMove κ)) {lease : CachedPtzRoute κ}
    (hmem : lease ∈ (run shared moves).leases) (hreused : lease.reused = true) :
    ∃ t, TookAt shared moves t ∧ lease.route.socket = t.idle.route.socket ∧ Good shared t := by
  induction moves using List.reverseRecOn generalizing lease with
  | nil => cases hmem
  | append_singleton moves m ih =>
    have hold (l : CachedPtzRoute κ) (hl : l ∈ (run shared moves).leases) (hr : l.reused = true) :
        ∃ t, TookAt shared (moves ++ [m]) t ∧ l.route.socket = t.idle.route.socket ∧ Good shared t := by
      obtain ⟨t, htook, h⟩ := ih hl hr
      exact ⟨t, htook.later m, h⟩
    have hinv := run_inv shared (moves ++ [m])
    have hsame := run_shared shared (moves ++ [m])
    rw [run_snoc] at hmem hinv hsame
    cases step_steps (run shared moves) m with
    | call i input c move here does =>
      rcases does.leases with hleases | ⟨lease', t, hleases, hisSome, htook, -, hlog⟩
      · rw [hleases] at hmem
        exact hold lease hmem hreused
      · rw [hleases] at hmem
        rcases List.mem_append.mp hmem with hmem | hmem
        · exact hold lease hmem hreused
        · rw [List.mem_singleton] at hmem
          subst hmem
          cases t with
          | none =>
            rw [hisSome] at hreused
            cases hreused
          | some t =>
            obtain ⟨hsocket, hgood⟩ := hinv.right _ hlog t rfl
            rw [hsame] at hgood
            exact ⟨t.bare, (took_at shared moves here htook).later m, hsocket, hgood⟩
    | other hshared idle log failed calls leases =>
      rcases leases with hleases | ⟨j, l, l', hget, -, hleases, hroute, hre⟩
      · rw [hleases] at hmem
        exact hold lease hmem hreused
      · rw [hleases] at hmem
        rcases List.mem_or_eq_of_mem_set hmem with hmem | rfl
        · exact hold lease hmem hreused
        · rw [hre] at hreused
          rw [hroute]
          exact hold l (List.mem_of_getElem? hget) hreused

/-! ## Handoffs -/

/-- No lease is open, and no call has a route or will have one. -/
def Calm (s : CacheSystem κ) : Prop := (∀ c ∈ s.calls, c.phase.free = true) ∧ ∀ lease ∈ s.leases, lease.closed = true

theorem Calm.step (h : s.Calm) (hclosed : s.cache.admits = false) (m : CacheMove κ) : (s.step m).Calm := by
  cases step_steps s m with
  | call i input c move here does =>
    have hfree := h.1 c (List.mem_of_getElem? here)
    refine ⟨fun e he => ?_, fun l hl => ?_⟩
    · rcases does.calls with hcalls | ⟨d, hcalls, hnext⟩
      · rw [hcalls] at he
        exact h.1 e he
      · rw [hcalls] at he
        rcases List.mem_or_eq_of_mem_set he with he | rfl
        · exact h.1 e he
        · exact hnext.free hclosed hfree
    · rcases does.leases with hleases | ⟨_, _, _, _, _, hbusy, _⟩
      · rw [hleases] at hl
        exact h.2 l hl
      · rw [hfree] at hbusy
        cases hbusy
  | other hshared idle log failed calls leases =>
    refine ⟨fun e he => ?_, fun l hl => ?_⟩
    · rcases calls with hcalls | ⟨d, hcalls, -, -, hbusy⟩
      · rw [hcalls] at he
        exact h.1 e he
      · rw [hcalls] at he
        rcases List.mem_append.mp he with he | he
        · exact h.1 e he
        · rw [List.mem_singleton.mp he]
          refine eq_true_of_ne_false fun hnot => ?_
          obtain ⟨lease, hmem, hopen⟩ := hbusy hnot
          rw [h.2 lease hmem] at hopen
          cases hopen
    · rcases leases with hleases | ⟨j, lease, l', hget, hopen, -⟩
      · rw [hleases] at hl
        exact h.2 l hl
      · rw [h.2 lease (List.mem_of_getElem? hget)] at hopen
        cases hopen

/-- A cache that is calm when a `quiesce` is admitted is calm until its end. -/
theorem calm_quiesce (shared : Bool) (before after : List (CacheMove κ)) (hadmits : (run shared before).cache.admits = true)
    (hcalm : (run shared before).Calm) :
    ∃ c, (run shared (before ++ .quiesce :: after)).calls[(run shared before).calls.length]? = some c ∧ c.kind = .quiesce ∧
      (c.phase ≠ .ended → (run shared (before ++ .quiesce :: after)).Calm) := by
  induction after using List.reverseRecOn with
  | nil =>
    have hstep : (run shared (before ++ [.quiesce])) = begin { kind := .quiesce, phase := .retire }
        { run shared before with cache := { (run shared before).cache with paused := true } } := by
      rw [run_snoc]
      simp only [CacheSystem.step, CacheSystem.quiesce, hadmits, Bool.true_eq_false, if_false]
    rw [hstep]
    refine ⟨_, List.getElem?_concat_length, rfl, fun _ => ⟨fun c hc => ?_, hcalm.2⟩⟩
    rcases List.mem_append.mp hc with hc | hc
    · exact hcalm.1 c hc
    · rw [List.mem_singleton.mp hc]
      rfl
  | append_singleton after m ih =>
    obtain ⟨c, hc, hkind, hstill⟩ := ih
    rw [← List.cons_append, ← List.append_assoc, run_snoc]
    obtain ⟨d, hd, hsame, hended⟩ := step_call hc m
    refine ⟨d, hd, hsame.trans hkind, fun hgoes => ?_⟩
    have hrunning : c.phase ≠ .ended := by
      intro h
      rw [hended h] at hgoes
      exact hgoes h
    refine (hstill hrunning).step ?_ m
    have hpausing : c.pausing = 1 := by
      unfold Call.pausing
      rw [hkind]
      cases hphase : c.phase with
      | ended => exact absurd hphase hrunning
      | _ => rfl
    have hle := le_sum (List.mem_of_getElem? hc) Call.pausing
    rw [hpausing, (run_inv shared _).pausing] at hle
    have hpaused : (run shared (before ++ .quiesce :: after)).cache.paused = true := by
      by_contra hnot
      rw [if_neg hnot] at hle
      omega
    rw [PtzRouteCache.admits, hpaused]
    rfl

/-- When nothing is idle or being closed, a calm cache has closed its routes. -/
theorem Calm.closed (h : s.Calm) (hinv : s.Inv) (hidle : s.cache.idle = ∅) (hclosing : s.cache.closing = 0) {socket : Nat}
    (hlt : socket < s.sockets) : socket ∈ s.closed := by
  have hplaces := hinv.places socket
  rw [if_pos hlt] at hplaces
  have hleases : (s.leases.map (CachedPtzRoute.out socket)).sum = 0 := by
    refine List.sum_eq_zero fun n hn => ?_
    obtain ⟨lease, hmem, rfl⟩ := List.mem_map.mp hn
    exact if_pos (h.2 lease hmem)
  have hcalls : (s.calls.map (Call.held socket)).sum = 0 := by
    refine List.sum_eq_zero fun n hn => ?_
    obtain ⟨c, hmem, rfl⟩ := List.mem_map.mp hn
    have hfree := h.1 c hmem
    cases hphase : c.phase with
    | tracked routes failed =>
      have hle := le_sum hmem Call.tracking
      rw [hinv.closing, hclosing, tracking_phase hphase] at hle
      have hnil : routes = [] := List.eq_nil_of_length_eq_zero (Nat.le_zero.mp hle)
      rw [held_phase hphase, hnil]
      rfl
    | enter | retire | wait | body | resume | ended => exact held_phase hphase socket
    | _ =>
      rw [hphase] at hfree
      cases hfree
  unfold CacheSystem.places fixed at hplaces
  rw [hidle, Dict.total_empty, hleases, hcalls] at hplaces
  exact List.count_pos_iff.mp (by omega)

/-! ## What is kept -/

/-- What is so of the cache after these moves. The epoch of a route is the label that
`CachedPtzRoute` takes for it, which is behind its `select`. -/
structure Kept (shared : Bool) (moves : List (CacheMove κ)) : Prop where
  /-- A route that was prepared is in one place: idle, leased, in the hands of a
  call, being closed, or closed. -/
  place : ∀ socket < (run shared moves).sockets,
    (run shared moves).cache.idle.total (fun r => r.route.on socket) +
      ((run shared moves).leases.map (CachedPtzRoute.out socket)).sum +
      ((run shared moves).calls.map (Call.carried socket)).sum +
      ((run shared moves).calls.map (Call.closing socket)).sum + (run shared moves).closed.count socket = 1
  few : (run shared moves).cache.idle.size ≤ 4 ∧ (run shared moves).cache.idle.keys.Nodup
  /-- A route that becomes idle was confirmed or only warmed up, did not fail, and
  was of the epoch that `_return` had read. -/
  idled : ∀ m k r, (run shared (moves ++ [m])).cache.idle.get? k = some r →
    (run shared moves).cache.idle.get? k = some r ∨
      ∃ i input c lease remaining seen, m = .go i input ∧ (run shared moves).calls[i]? = some c ∧
        c.phase = .put lease remaining seen ∧ storageKey shared lease.key = some k ∧ r.route = lease.route ∧
        r.epoch = lease.epoch ∧ lease.failed = false ∧ (c.kind.prepared = true ∨ lease.confirmed = true) ∧
        (shared = true → ∃ (before after : List (CacheMove κ)) (input : Input) (c' : Call κ),
          moves = before ++ .go i input :: after ∧ (run shared before).calls[i]? = some c' ∧
          c'.phase = .judge lease ∧ r.epoch = (run shared before).epoch)
  /-- A cached route that is leased was of the epoch and had not expired when it
  was taken out. -/
  leased : ∀ lease ∈ (run shared moves).leases, lease.reused = true →
    ∃ (before after : List (CacheMove κ)) (i : Nat) (input : Input) (k : StorageKey κ) (r : Idle),
      moves = before ++ .go i input :: after ∧ (run shared before).cache.idle.get? k = some r ∧
      (run shared (before ++ [.go i input])).cache.idle.get? k = none ∧ r.route.socket = lease.route.socket ∧
      (run shared before).now < r.expires ∧ (shared = true → r.epoch = (run shared before).epoch)
  /-- In the body of a `quiesce` nothing is idle or being retired, and nothing is
  admitted. -/
  body : ∀ c ∈ (run shared moves).calls, c.phase = .body → (run shared moves).cache.idle = ∅ ∧
    (∀ c' ∈ (run shared moves).calls, c'.tracking = 0) ∧ (run shared moves).Shut
  /-- If no lease was open then and no call had a route, every route is closed. -/
  handoff : ∀ (before after : List (CacheMove κ)) (c : Call κ), moves = before ++ .quiesce :: after →
    (run shared before).cache.admits = true → (run shared before).Calm →
    (run shared moves).calls[(run shared before).calls.length]? = some c → c.phase = .body →
    ∀ socket < (run shared moves).sockets, socket ∈ (run shared moves).closed
  /-- A retired route that may not be closed is written down. -/
  doubt : (∀ i c route routes failed, (run shared moves).calls[i]? = some c →
      c.phase = .tracked (route :: routes) failed → .uncertain ∈ (run shared (moves ++ [.go i .raised])).log) ∧
    ∀ i c, (run shared moves).calls[i]? = some c → c.phase = .wait → (run shared moves).cache.closing ≠ 0 →
      .uncertain ∈ (run shared (moves ++ [.go i .late])).log
  /-- From then on nothing is admitted, and no route becomes idle. -/
  uncertain : .uncertain ∈ (run shared moves).log → ∀ moves', (run shared (moves ++ moves')).Shut

theorem idled_at (shared : Bool) (moves : List (CacheMove κ)) (m : CacheMove κ) {k : StorageKey κ} {r : Idle}
    (h : (run shared (moves ++ [m])).cache.idle.get? k = some r) :
    (run shared moves).cache.idle.get? k = some r ∨
      ∃ i input c lease remaining seen, m = .go i input ∧ (run shared moves).calls[i]? = some c ∧
        c.phase = .put lease remaining seen ∧ storageKey shared lease.key = some k ∧ r.route = lease.route ∧
        r.epoch = lease.epoch := by
  rw [run_snoc] at h
  cases step_steps (run shared moves) m with
  | call i input c move here does =>
    cases does.tells with
    | idled j r' lease remaining seen phase key admits route epoch idle =>
      rw [idle, Dict.get?_set] at h
      split at h
      · next heq =>
        cases h
        rw [run_shared] at key
        rw [heq]
        exact .inr ⟨i, input, c, lease, remaining, seen, move, here, phase, key, route, epoch⟩
      · exact .inl h
    | silent idle => exact .inl (idle k r h)
    | admitted idle => exact .inl (idle k r h)
    | leased lease t idle => exact .inl (idle k r h)
    | uncertain idle => exact .inl (idle k r h)
  | other hshared idle => exact .inl (idle k r h)

/-- No socket is lost and none is shared, in any run. -/
theorem routes_kept (shared : Bool) (moves : List (CacheMove κ)) : Kept shared moves where
  place socket hlt := by
    have hplaces := (run_inv shared moves).places socket
    have hsum : ((run shared moves).calls.map (Call.held socket)).sum =
        ((run shared moves).calls.map (Call.carried socket)).sum +
          ((run shared moves).calls.map (Call.closing socket)).sum := List.sum_map_add ..
    rw [if_pos hlt] at hplaces
    unfold CacheSystem.places fixed at hplaces
    omega
  few := ⟨(run_inv shared moves).capacity, (run shared moves).cache.idle.nodup⟩
  idled m k r h := by
    refine (idled_at shared moves m h).imp_right ?_
    rintro ⟨i, input, c, lease, remaining, seen, hm, hc, hphase, hkey, hroute, hepoch⟩
    obtain ⟨⟨-, -, hfailed, hconfirmed, hseen⟩, -, -⟩ := (run_inv shared moves).fit hc hphase
    refine ⟨i, input, c, lease, remaining, seen, hm, hc, hphase, hkey, hroute, hepoch, hfailed, hconfirmed, fun hshared => ?_⟩
    obtain ⟨before, after, input', c', hmoves, hc', hjudge, hread⟩ := put_judged shared moves hc hphase
    rw [run_shared] at hseen
    exact ⟨before, after, input', c', hmoves, hc', hjudge, (hepoch.trans (hseen hshared)).trans hread⟩
  leased lease hmem hreused := by
    obtain ⟨t, ⟨before, after, i, input, k, r, hmoves, hget, hgone, rfl⟩, hsocket, hepoch, hexpires⟩ :=
      reused_at shared moves hmem hreused
    exact ⟨before, after, i, input, k, r, hmoves, hget, hgone, hsocket.symm, hexpires, hepoch⟩
  body c hmem hbody := by
    have hinv := run_inv shared moves
    have hkind := (hinv.calls c hmem).allowed
    rw [hbody] at hkind
    obtain ⟨hpaused, hempty⟩ := hinv.quiet hmem hkind (by rw [hbody]; rfl)
    refine ⟨hempty, fun c' hmem' => ?_, shut (by rw [PtzRouteCache.admits, hpaused]; rfl)⟩
    have hle := le_sum hmem' Call.tracking
    rw [hinv.closing, hinv.body c hmem hbody] at hle
    exact Nat.le_zero.mp hle
  handoff before after c hmoves hadmits hcalm hc hbody socket hlt := by
    obtain ⟨c', hc', hkind, hstill⟩ := calm_quiesce shared before after hadmits hcalm
    subst hmoves
    rw [hc] at hc'
    cases hc'
    have hinv := run_inv shared (before ++ .quiesce :: after)
    have hmem := List.mem_of_getElem? hc
    have hidle := (hinv.quiet hmem hkind (by rw [hbody]; rfl)).2
    refine (hstill fun hended => ?_).closed hinv hidle (hinv.body c hmem hbody) hlt
    rw [hbody] at hended
    cases hended
  doubt := by
    refine ⟨fun i c route routes failed hc hphase => ?_, fun i c hc hphase hclosing => ?_⟩
    · rw [run_snoc]
      simp only [step, advance, hc, hphase]
      exact List.mem_append_right _ (List.mem_singleton_self _)
    · rw [run_snoc]
      simp only [step, advance, hc, hphase, wait, if_neg hclosing]
      exact List.mem_append_right _ (List.mem_singleton_self _)
  uncertain hmem moves' := by
    have hfailed := failed_stays ((run_inv shared moves).uncertain hmem) moves'
    rw [← run_append] at hfailed
    refine shut ?_
    rw [PtzRouteCache.admits, hfailed]
    exact Bool.and_false _

/-- A lease that is closed in the body of a `quiesce` is being closed there. -/
def closedInBody : List (CacheMove Nat) :=
  [.acquire [1] false, .go 0 .ok, .go 0 .ok, .go 0 (.object 7), .go 0 .ok, .quiesce, .go 1 .ok, .go 1 .ok, .go 1 .ok,
    .closeLease 0, .go 2 .ok]

/-- A route that was warmed up, with an authentication between the checks and
the section of `_return`. -/
def overtaken : List (CacheMove Nat) :=
  [.warm [1, 2, 3, 4, 5, 6] true, .go 0 .ok, .go 0 (.object 7), .go 0 .ok, .go 0 .ok, .authenticate]

theorem body_or_epoch_broken :
    ¬(∀ (shared : Bool) (moves : List (CacheMove Nat)), ∀ c ∈ (run shared moves).calls, c.phase = .body →
        ∀ socket, ((run shared moves).calls.map (Call.closing socket)).sum = 0) ∧
      ¬(∀ (shared : Bool) (moves : List (CacheMove Nat)) (m : CacheMove Nat) (k : StorageKey Nat) (r : Idle), shared = true →
        (run shared moves).cache.idle.get? k = none → (run shared (moves ++ [m])).cache.idle.get? k = some r →
        r.epoch = (run shared (moves ++ [m])).epoch) := by
  refine ⟨fun h => ?_, fun h => ?_⟩
  · have hbody := h false closedInBody ⟨.quiesce, .body, [], false⟩ (by decide +kernel) rfl 0
    exact absurd hbody (by decide +kernel)
  · have hepoch := h true overtaken (.go 0 .ok) (.account 4 5) ⟨⟨7, 0⟩, 0, 8, 0, 0⟩ rfl (by decide +kernel)
      (by decide +kernel)
    exact absurd hepoch (by decide +kernel)

end CacheSystem

end CamGuard.Ptz
