/-
Every route of the cache is in one place (`ptz_routes`), in every interleaving.

A socket is counted wherever it is: idle, leased, in the hands of a call, being
closed, closed. The invariant (`Inv`) says that the count is one; a step that
moves a call is checked by what it takes from one place and puts in another
(`Inv.go`).
-/
import CamGuard.Ptz.RouteCache

namespace CamGuard.Ptz

variable {κ : Type}

/-! ## Places -/

/-- Whether a route is on a socket, as a number. -/
def Route.on (r : Route) (socket : Nat) : Nat := if r.socket = socket then 1 else 0

namespace Phase

/-- How often a socket is in the hands of a call that does not close it. -/
def carried (socket : Nat) : Phase κ → Nat
  | .taken (some t) => t.idle.route.on socket
  | .examine t _ => t.idle.route.on socket
  | .keepalive t => t.idle.route.on socket
  | .select t => t.idle.route.on socket
  | .wrap route _ _ _ => route.on socket
  | .judge lease => lease.route.on socket
  | .put lease _ _ => lease.route.on socket
  | _ => 0

/-- How often a socket is being closed. -/
def closing (socket : Nat) : Phase κ → Nat
  | .discard route _ => route.on socket
  | .tracked routes _ => (routes.map fun r => r.on socket).sum
  | _ => 0

def held (socket : Nat) (p : Phase κ) : Nat := p.carried socket + p.closing socket

/-- The routes that are counted in `_closing`. -/
def tracking : Phase κ → Nat
  | .tracked routes _ => routes.length
  | _ => 0

/-- Between the section of `close_idle` and the end of a `quiesce`. -/
def retired : Phase κ → Bool
  | .tracked .. => true
  | .wait => true
  | .body => true
  | .resume => true
  | _ => false

end Phase

namespace Call

def carried (socket : Nat) (c : Call κ) : Nat := c.phase.carried socket

def closing (socket : Nat) (c : Call κ) : Nat := c.phase.closing socket

def held (socket : Nat) (c : Call κ) : Nat := c.phase.held socket

def tracking (c : Call κ) : Nat := c.phase.tracking

/-- A `quiesce` that has paused the cache, as a number. -/
def pausing (c : Call κ) : Nat :=
  match c.kind, c.phase with
  | .quiesce, .ended => 0
  | .quiesce, _ => 1
  | _, _ => 0

end Call

/-- A lease's socket, as long as the lease is open. -/
def CachedPtzRoute.out (socket : Nat) (lease : CachedPtzRoute κ) : Nat := if lease.closed then 0 else lease.route.on socket

/-- The sum over the calls, when one goes on. -/
theorem sum_set {α : Type} {l : List α} {i : Nat} {a : α} (h : l[i]? = some a) (b : α) (f : α → Nat) :
    ((l.set i b).map f).sum + f a = (l.map f).sum + f b := by
  induction l generalizing i with
  | nil => cases h
  | cons x l ih =>
    cases i with
    | zero =>
      cases h
      simp only [List.set_cons_zero, List.map_cons, List.sum_cons]
      omega
    | succ i =>
      have htail := ih h
      simp only [List.set_cons_succ, List.map_cons, List.sum_cons]
      omega

theorem sum_append_one {α : Type} (l : List α) (a : α) (f : α → Nat) : ((l ++ [a]).map f).sum = (l.map f).sum + f a := by
  simp

namespace CacheSystem

/-- How often a socket is anywhere but in the hands of a call. -/
def fixed (socket : Nat) (s : CacheSystem κ) : Nat :=
  s.cache.idle.total (fun idle => idle.route.on socket) + (s.leases.map (CachedPtzRoute.out socket)).sum +
    s.closed.count socket

/-- How often a socket is anywhere. -/
def places (socket : Nat) (s : CacheSystem κ) : Nat := s.fixed socket + (s.calls.map (Call.held socket)).sum

/-! ## The invariant -/

/-- What a route that was taken out was by then. -/
structure Known (s : CacheSystem κ) (t : Taken) : Prop where
  epoch : t.idle.epoch ≤ t.epoch
  current : t.epoch ≤ s.epoch
  now : t.now ≤ s.now

/-- It was of the epoch, and had not expired. -/
def Good (shared : Bool) (t : Taken) : Prop := (shared = true → t.idle.epoch = t.epoch) ∧ t.now < t.idle.expires

/-- What a call has made sure of. -/
def Fits (s : CacheSystem κ) (c : Call κ) : Phase κ → Prop
  | .enter => True
  | .taken t => ∀ t', t = some t' → s.Known t'
  | .examine t now => s.Known t ∧ (c.kind.prepared = false → t.now ≤ now)
  | .keepalive t => c.kind.prepared = false → Good s.cache.shared t
  | .select t => c.kind.prepared = false → Good s.cache.shared t
  | .wrap route _ _ t => ∀ t', t = some t' → route.socket = t'.idle.route.socket ∧
      (c.kind.prepared = false → Good s.cache.shared t')
  | .judge lease => lease.key = c.key ∧ lease.epoch ≤ s.epoch
  | .put lease _ seen => lease.key = c.key ∧ lease.epoch ≤ s.epoch ∧ lease.failed = false ∧
      (c.kind.prepared = true ∨ lease.confirmed = true) ∧ (s.cache.shared = true → lease.epoch = seen)
  | _ => True

/-- The calls that may be in a phase. -/
def Allowed (c : Call κ) : Phase κ → Prop
  | .retire => True
  | .tracked .. => True
  | .wait => c.kind = .quiesce
  | .body => c.kind = .quiesce
  | .resume => c.kind = .quiesce
  | .ended => True
  | _ => c.kind ≠ .quiesce

/-- A key that is needed has a storage key. -/
def Keyed (s : CacheSystem κ) (c : Call κ) : Phase κ → Prop
  | .enter => True
  | .retire => True
  | .tracked .. => True
  | .wait => True
  | .body => True
  | .resume => True
  | .ended => True
  | _ => (storageKey s.cache.shared c.key).isSome = true

structure Fit (s : CacheSystem κ) (c : Call κ) : Prop where
  fits : s.Fits c c.phase
  allowed : Allowed c c.phase
  keyed : s.Keyed c c.phase

/-- What an event says is so. -/
def Right (shared : Bool) : CacheEvent κ → Prop
  | .leased lease t => ∀ t', t = some t' → lease.route.socket = t'.idle.route.socket ∧ Good shared t'
  | .idled lease prepared seen => lease.failed = false ∧ (prepared = true ∨ lease.confirmed = true) ∧
      (shared = true → lease.epoch = seen)
  | _ => True

variable [DecidableEq κ]

structure Inv (s : CacheSystem κ) : Prop where
  places : ∀ socket, s.places socket = if socket < s.sockets then 1 else 0
  capacity : s.cache.idle.size ≤ 4
  closing : (s.calls.map Call.tracking).sum = s.cache.closing
  pausing : (s.calls.map Call.pausing).sum = if s.cache.paused then 1 else 0
  calls : ∀ c ∈ s.calls, s.Fit c
  idle : ∀ k r, s.cache.idle.get? k = some r → r.epoch ≤ s.epoch
  leases : ∀ lease ∈ s.leases, (storageKey s.cache.shared lease.key).isSome = true ∧ lease.epoch ≤ s.epoch
  retired : ∀ c ∈ s.calls, c.kind = .quiesce → c.phase.retired = true → s.cache.idle = ∅
  body : ∀ c ∈ s.calls, c.phase = .body → s.cache.closing = 0
  right : ∀ e ∈ s.log, Right s.cache.shared e
  uncertain : .uncertain ∈ s.log → s.cache.closeFailed = true

variable {s s' : CacheSystem κ}

omit [DecidableEq κ] in
/-- Time goes on, and the epoch; nothing that a call knows is lost. -/
theorem Fit.mono {c : Call κ} (h : s.Fit c) (hshared : s'.cache.shared = s.cache.shared) (hepoch : s.epoch ≤ s'.epoch)
    (hnow : s.now ≤ s'.now) : s'.Fit c := by
  have hknown : ∀ t, s.Known t → s'.Known t :=
    fun t ht => ⟨ht.epoch, ht.current.trans hepoch, ht.now.trans hnow⟩
  obtain ⟨hfits, hallowed, hkeyed⟩ := h
  refine ⟨?_, hallowed, ?_⟩
  · cases hphase : c.phase with
    | taken t =>
      rw [hphase] at hfits
      exact fun t' ht' => hknown t' (hfits t' ht')
    | examine t now =>
      rw [hphase] at hfits
      exact ⟨hknown t hfits.1, hfits.2⟩
    | judge lease =>
      rw [hphase] at hfits
      exact ⟨hfits.1, hfits.2.trans hepoch⟩
    | put lease remaining seen =>
      rw [hphase] at hfits
      rw [Fits, hshared]
      exact ⟨hfits.1, hfits.2.1.trans hepoch, hfits.2.2⟩
    | keepalive | select | wrap =>
      rw [hphase] at hfits
      simpa only [Fits, hshared] using hfits
    | _ => trivial
  · cases hphase : c.phase with
    | enter | retire | tracked | wait | body | resume | ended => trivial
    | _ =>
      rw [hphase] at hkeyed
      simpa only [Keyed, hshared] using hkeyed

theorem le_sum {α : Type} {l : List α} {a : α} (h : a ∈ l) (f : α → Nat) : f a ≤ (l.map f).sum :=
  List.le_sum_of_mem (List.mem_map_of_mem h)

omit [DecidableEq κ] in
theorem pausing_quiesce {c : Call κ} (hkind : c.kind = .quiesce) (hphase : c.phase.retired = true) : c.pausing = 1 := by
  unfold Call.pausing
  rw [hkind]
  cases hp : c.phase with
  | ended => simp [hp, Phase.retired] at hphase
  | _ => rfl

/-- While a `quiesce` is past its `close_idle`, the cache is paused and empty. -/
theorem Inv.quiet (h : s.Inv) {c : Call κ} (hc : c ∈ s.calls) (hkind : c.kind = .quiesce)
    (hphase : c.phase.retired = true) : s.cache.paused = true ∧ s.cache.idle = ∅ := by
  refine ⟨?_, h.retired c hc hkind hphase⟩
  have hle := le_sum hc Call.pausing
  rw [pausing_quiesce hkind hphase, h.pausing] at hle
  by_contra hpaused
  rw [if_neg hpaused] at hle
  omega

/-- What has to be checked of a call that goes on: what is taken from one place
is put in another. -/
structure Goes (s s' : CacheSystem κ) (c d : Call κ) : Prop where
  shared : s'.cache.shared = s.cache.shared
  epoch : s'.epoch = s.epoch
  now : s'.now = s.now
  places : ∀ socket, s'.fixed socket + d.held socket + (if socket < s.sockets then 1 else 0) =
    s.fixed socket + c.held socket + (if socket < s'.sockets then 1 else 0)
  capacity : s'.cache.idle.size ≤ 4
  closing : s'.cache.closing + c.tracking = s.cache.closing + d.tracking
  pausing : (if s'.cache.paused then 1 else 0) + c.pausing = (if s.cache.paused then 1 else 0) + d.pausing
  fit : s'.Fit d
  idle : ∀ k r, s'.cache.idle.get? k = some r → r.epoch ≤ s'.epoch
  leases : ∀ lease ∈ s'.leases, (storageKey s'.cache.shared lease.key).isSome = true ∧ lease.epoch ≤ s'.epoch
  stays : s.cache.paused = true → s.cache.idle = ∅ → s'.cache.idle = ∅ ∧
    (s.cache.closing = 0 → s'.cache.closing = 0)
  retired : d.kind = .quiesce → d.phase.retired = true → s'.cache.idle = ∅
  body : d.phase = .body → s'.cache.closing = 0
  right : ∀ e ∈ s'.log, Right s'.cache.shared e
  uncertain : .uncertain ∈ s'.log → s'.cache.closeFailed = true

theorem Inv.go (h : s.Inv) (s' : CacheSystem κ) {i : Nat} {c d : Call κ} (hc : s.calls[i]? = some c)
    (hcalls : s'.calls = s.calls) (hgo : s.Goes s' c d) : Inv { s' with calls := s'.calls.set i d } := by
  have hmem : c ∈ s.calls := List.mem_of_getElem? hc
  rw [hcalls]
  have hothers : ∀ e ∈ s.calls.set i d, e ∈ s.calls ∨ e = d := fun e he => List.mem_or_eq_of_mem_set he
  constructor
  · intro socket
    have hset := sum_set hc d (Call.held socket)
    have hplaces := hgo.places socket
    have hwas := h.places socket
    have hfixed : fixed socket { s' with calls := s.calls.set i d } = s'.fixed socket := rfl
    unfold CacheSystem.places at hwas ⊢
    rw [hfixed]
    dsimp only
    omega
  · exact hgo.capacity
  · have hset := sum_set hc d Call.tracking
    have hclosing := hgo.closing
    have hwas := h.closing
    dsimp only
    omega
  · have hset := sum_set hc d Call.pausing
    have hpausing := hgo.pausing
    have hwas := h.pausing
    dsimp only
    omega
  · intro e he
    rcases hothers e he with hold | rfl
    · exact Fit.mono (s := s) (h.calls e hold) hgo.shared hgo.epoch.ge hgo.now.ge
    · exact hgo.fit.mono rfl (Nat.le_refl _) (le_refl _)
  · exact hgo.idle
  · exact hgo.leases
  · intro e he hkind hphase
    rcases hothers e he with hold | rfl
    · obtain ⟨hpaused, hidle⟩ := h.quiet hold hkind hphase
      exact (hgo.stays hpaused hidle).1
    · exact hgo.retired hkind hphase
  · intro e he hphase
    rcases hothers e he with hold | rfl
    · have hallowed := (h.calls e hold).allowed
      rw [hphase] at hallowed
      obtain ⟨hpaused, hidle⟩ := h.quiet hold hallowed (by rw [hphase]; rfl)
      exact (hgo.stays hpaused hidle).2 (h.body e hold hphase)
    · exact hgo.body hphase
  · exact hgo.right
  · exact hgo.uncertain

theorem Inv.phase (h : s.Inv) {i : Nat} {c d : Call κ} (hc : s.calls[i]? = some c)
    (hheld : ∀ socket, d.held socket = c.held socket) (htracking : d.tracking = c.tracking)
    (hpausing : d.pausing = c.pausing) (hfit : s.Fit d)
    (hretired : d.kind = .quiesce → d.phase.retired = true → s.cache.idle = ∅)
    (hbody : d.phase = .body → s.cache.closing = 0) : Inv { s with calls := s.calls.set i d } := by
  refine h.go s hc rfl ⟨rfl, rfl, rfl, fun socket => ?_, h.capacity, ?_, ?_, hfit, h.idle, h.leases,
    fun _ hidle => ⟨hidle, id⟩, hretired, hbody, h.right, h.uncertain⟩
  · rw [hheld]
  · rw [htracking]
  · rw [hpausing]

theorem Inv.note (h : s.Inv) {e : CacheEvent κ} (hright : Right s.cache.shared e)
    (huncertain : e = .uncertain → s.cache.closeFailed = true) : (s.note e).Inv := by
  refine ⟨h.places, h.capacity, h.closing, h.pausing, fun c hc => (h.calls c hc).mono rfl (Nat.le_refl _) (le_refl _), h.idle,
    h.leases, h.retired, h.body, fun e' he' => ?_, fun hmem => ?_⟩
  · rcases List.mem_append.mp he' with he' | he'
    · exact h.right e' he'
    · rw [List.mem_singleton.mp he']
      exact hright
  · rcases List.mem_append.mp hmem with hmem | hmem
    · exact h.uncertain hmem
    · exact huncertain (List.mem_singleton.mp hmem).symm

omit [DecidableEq κ] in
theorem closedTracked_eq (failed : Bool) (s : CacheSystem κ) : s.closedTracked failed = { s with
    cache := { s.cache with
      closing := s.cache.closing - 1
      closeFailed := s.cache.closeFailed || failed }
    log := if failed then s.log ++ [.uncertain] else s.log } := by
  cases failed with
  | _ => rfl

omit [DecidableEq κ] in
theorem pausing_other {c : Call κ} (h : c.kind ≠ .quiesce) : c.pausing = 0 := by
  unfold Call.pausing
  split
  · rfl
  · next hkind _ => exact absurd hkind h
  · rfl

omit [DecidableEq κ] in
theorem held_phase {c : Call κ} {p : Phase κ} (h : c.phase = p) (socket : Nat) : c.held socket = p.held socket := by
  rw [Call.held, h]

omit [DecidableEq κ] in
theorem tracking_phase {c : Call κ} {p : Phase κ} (h : c.phase = p) : c.tracking = p.tracking := by
  rw [Call.tracking, h]

omit [DecidableEq κ] in
theorem pausing_same {c d : Call κ} (h : c.kind ≠ .quiesce) (hkind : d.kind = c.kind) : c.pausing = d.pausing := by
  rw [pausing_other h, pausing_other]
  rw [hkind]
  exact h

theorem Inv.fit (h : s.Inv) {i : Nat} {c : Call κ} (hc : s.calls[i]? = some c) {p : Phase κ} (hphase : c.phase = p) :
    s.Fits c p ∧ Allowed c p ∧ s.Keyed c p := by
  obtain ⟨hfits, hallowed, hkeyed⟩ := h.calls c (List.mem_of_getElem? hc)
  rw [hphase] at hfits hallowed hkeyed
  exact ⟨hfits, hallowed, hkeyed⟩

section

variable {i : Nat} {c d : Call κ} (h : s.Inv) (hc : s.calls[i]? = some c)

include h hc

theorem Inv.hands (hkind : d.kind = c.kind) (hother : c.kind ≠ .quiesce) (hheld : ∀ socket, d.held socket = c.held socket)
    (htracking : d.tracking = c.tracking) (hfit : s.Fit d) : Inv { s with calls := s.calls.set i d } := by
  have hd : d.kind ≠ .quiesce := by rw [hkind]; exact hother
  refine h.phase hc hheld htracking (by rw [pausing_other hd, pausing_other hother]) hfit (fun hq => absurd hq hd)
    fun hbody => ?_
  have hallowed := hfit.allowed
  rw [hbody] at hallowed
  exact absurd hallowed hd

/-- A call that has nothing in its hands goes on to prepare a route, or ends. -/
theorem Inv.fresh (hkind : d.kind = c.kind) (hother : c.kind ≠ .quiesce) (hheld : ∀ socket, c.held socket = 0)
    (htracking : c.tracking = 0) (hkeyed : (storageKey s.cache.shared d.key).isSome = true) (created : ℚ) :
    (s.fresh i d created).Inv := by
  unfold CacheSystem.fresh CacheSystem.go
  have hd : d.kind ≠ .quiesce := by rw [hkind]; exact hother
  cases d.full with
  | true => exact h.hands hc hkind hother (fun socket => (hheld socket).symm) htracking.symm ⟨trivial, trivial, trivial⟩
  | false => exact h.hands hc hkind hother (fun socket => (hheld socket).symm) htracking.symm ⟨trivial, hd, hkeyed⟩

/-- A cached route that is alive is selected, or kept. -/
theorem Inv.alive {t : Taken} (hother : c.kind ≠ .quiesce) (hheld : ∀ socket, c.held socket = t.idle.route.on socket)
    (htracking : c.tracking = 0) (hkeyed : (storageKey s.cache.shared c.key).isSome = true)
    (hgood : c.kind.prepared = false → Good s.cache.shared t) : (s.alive i c t).Inv := by
  unfold CacheSystem.alive CacheSystem.go
  split
  · refine h.hands hc rfl hother (fun socket => ?_) htracking.symm ⟨fun t' ht' => ?_, hother, hkeyed⟩
    · rw [hheld]
      rfl
    · cases ht'
      exact ⟨rfl, hgood⟩
  · refine h.hands hc rfl hother (fun socket => ?_) htracking.symm ⟨hgood, hother, hkeyed⟩
    rw [hheld]
    rfl

/-- A route in the hands of a call is to be closed. -/
theorem Inv.discards {route : Route} {after : After} (hother : c.kind ≠ .quiesce)
    (hheld : ∀ socket, c.held socket = route.on socket) (htracking : c.tracking = 0)
    (hkeyed : (storageKey s.cache.shared c.key).isSome = true) : (s.go i c (.discard route after)).Inv := by
  refine h.hands hc rfl hother (fun socket => ?_) htracking.symm ⟨trivial, hother, hkeyed⟩
  rw [hheld]
  exact Nat.zero_add _

theorem Inv.examine {t : Taken} {now : ℚ} (hphase : c.phase = .examine t now) : (s.examine i c t now).Inv := by
  obtain ⟨⟨hknown, hlater⟩, hother, hkeyed⟩ := h.fit hc hphase
  have hheld : ∀ socket, c.held socket = t.idle.route.on socket := held_phase hphase
  have htracking : c.tracking = 0 := tracking_phase hphase
  have hdiscard (after : After) : (s.go i c (.discard t.idle.route after)).Inv :=
    h.discards hc hother hheld htracking hkeyed
  have hkeep (hgood : c.kind.prepared = false → Good s.cache.shared t) : (s.go i c (.keepalive t)).Inv := by
    refine h.hands hc rfl hother (fun socket => ?_) htracking.symm ⟨hgood, hother, hkeyed⟩
    rw [hheld]
    rfl
  unfold CacheSystem.examine
  split
  · exact hdiscard _
  next hepoch =>
  have hcurrent (hshared : s.cache.shared = true) : t.idle.epoch = t.epoch := by
    have heq : t.idle.epoch = s.epoch := by
      by_contra hne
      exact hepoch ⟨hshared, hne⟩
    have hle := hknown.epoch
    have hle' := hknown.current
    omega
  split
  · next hwarm =>
    have hprepared : c.kind.prepared = false → Good s.cache.shared t := by
      intro hprepared
      rw [hwarm] at hprepared
      cases hprepared
    split
    · split
      · exact hkeep hprepared
      · exact h.alive hc hother hheld htracking hkeyed hprepared
    · exact hdiscard _
  · split
    · next hyoung =>
      have hgood (hprepared : c.kind.prepared = false) : Good s.cache.shared t :=
        ⟨hcurrent, lt_of_le_of_lt (hlater hprepared) hyoung.2⟩
      split
      · exact hkeep hgood
      · refine h.hands hc rfl hother (fun socket => ?_) htracking.symm ⟨hgood, hother, hkeyed⟩
        rw [hheld]
        rfl
    · exact hdiscard _

theorem Inv.takes {k : StorageKey κ} {idle : Idle} (hget : s.cache.idle.get? k = some idle) (hkind : d.kind = c.kind)
    (hother : c.kind ≠ .quiesce) (hnone : ∀ socket, c.held socket = 0) (htracking : c.tracking = 0)
    (hheld : ∀ socket, d.held socket = idle.route.on socket) (hnot : d.tracking = 0) (hfit : s.Fit d) :
    Inv { s with
      cache := { s.cache with idle := s.cache.idle.erase k }
      calls := s.calls.set i d } := by
  have hd : d.kind ≠ .quiesce := by rw [hkind]; exact hother
  refine h.go { s with cache := { s.cache with idle := s.cache.idle.erase k } } hc rfl ?_
  refine
    { shared := rfl
      epoch := rfl
      now := rfl
      places := fun socket => ?_
      capacity := (Dict.size_erase_le _ k).trans h.capacity
      closing := by rw [htracking, hnot]
      pausing := by rw [pausing_other hother, pausing_other hd]
      fit := hfit.mono rfl (Nat.le_refl _) (le_refl _)
      idle := fun j r hr => ?_
      leases := h.leases
      stays := fun _ hempty => ?_
      retired := fun hq => absurd hq hd
      body := fun hbody => ?_
      right := h.right
      uncertain := h.uncertain }
  · have htotal := Dict.total_erase hget fun r => r.route.on socket
    rw [hnone, hheld, fixed, fixed]
    dsimp only
    omega
  · rw [Dict.get?_erase] at hr
    split at hr
    · cases hr
    · exact h.idle j r hr
  · rw [hempty] at hget
    cases hget
  · have hallowed := hfit.allowed
    rw [hbody] at hallowed
    exact absurd hallowed hd

theorem Inv.enter (hphase : c.phase = .enter) : (s.enter i c).Inv := by
  obtain ⟨-, hother, -⟩ := h.fit hc hphase
  have hnone : ∀ socket, c.held socket = 0 := held_phase hphase
  have htracking : c.tracking = 0 := tracking_phase hphase
  have hnoted : (s.note .admitted).Inv := h.note trivial fun hne => by cases hne
  unfold CacheSystem.enter
  split
  · exact h.hands hc rfl hother (fun socket => (hnone socket).symm) htracking.symm ⟨trivial, trivial, trivial⟩
  split
  · exact hnoted.hands hc rfl hother (fun socket => (hnone socket).symm) htracking.symm ⟨trivial, trivial, trivial⟩
  next k hkey =>
  have hkeyed : (storageKey s.cache.shared c.key).isSome = true := by rw [hkey]; rfl
  unfold pop
  cases hget : (s.note .admitted).cache.idle.get? k with
  | none =>
    dsimp only
    split
    · exact hnoted.fresh (d := { c with full := decide (4 ≤ s.cache.idle.size) }) hc rfl hother hnone htracking hkeyed _
    · exact hnoted.hands hc rfl hother (fun socket => (hnone socket).symm) htracking.symm
        ⟨fun _ ht => (by cases ht), hother, hkeyed⟩
  | some idle =>
    have hknown : (s.note .admitted).Known ⟨idle, s.now, s.epoch⟩ := ⟨h.idle k idle hget, Nat.le_refl _, le_refl _⟩
    dsimp only
    split
    · next hwarm =>
      refine hnoted.takes hc hget rfl hother hnone htracking (fun _ => rfl) rfl ⟨⟨hknown, fun hprepared => ?_⟩, hother, hkeyed⟩
      rw [hwarm] at hprepared
      cases hprepared
    · refine hnoted.takes hc hget rfl hother hnone htracking (fun _ => rfl) rfl ⟨fun t ht => ?_, hother, hkeyed⟩
      cases ht
      exact hknown

theorem Inv.taken {t : Option Taken} (hphase : c.phase = .taken t) (input : Input) : (s.advance i input).Inv := by
  obtain ⟨hknown, hother, hkeyed⟩ := h.fit hc hphase
  unfold advance
  rw [hc]
  dsimp only
  rw [hphase]
  cases t with
  | none => exact h.fresh hc rfl hother (held_phase hphase) (tracking_phase hphase) hkeyed _
  | some t =>
    refine h.hands hc rfl hother (fun socket => (held_phase hphase socket).symm) (tracking_phase hphase).symm
      ⟨⟨hknown t rfl, fun _ => (hknown t rfl).now⟩, hother, hkeyed⟩

theorem Inv.keepalive {t : Taken} (hphase : c.phase = .keepalive t) (input : Input) : (s.advance i input).Inv := by
  obtain ⟨hgood, hother, hkeyed⟩ := h.fit hc hphase
  unfold advance
  rw [hc]
  dsimp only
  rw [hphase]
  cases input with
  | ok => exact h.alive hc hother (held_phase hphase) (tracking_phase hphase) hkeyed hgood
  | raised => exact h.discards hc hother (held_phase hphase) (tracking_phase hphase) hkeyed
  | object | late => exact h

theorem Inv.select {t : Taken} (hphase : c.phase = .select t) (input : Input) : (s.advance i input).Inv := by
  obtain ⟨hgood, hother, hkeyed⟩ := h.fit hc hphase
  unfold advance
  rw [hc]
  dsimp only
  rw [hphase]
  cases input with
  | object object =>
    refine h.hands hc rfl hother (fun socket => (held_phase hphase socket).symm) (tracking_phase hphase).symm
      ⟨fun t' ht' => ?_, hother, hkeyed⟩
    cases ht'
    exact ⟨rfl, hgood⟩
  | raised => exact h.discards hc hother (held_phase hphase) (tracking_phase hphase) hkeyed
  | ok | late => exact h

/-- A new route is in the hands of the call. -/
theorem Inv.prepare {created : ℚ} (hphase : c.phase = .prepare created) (input : Input) : (s.advance i input).Inv := by
  obtain ⟨-, hother, hkeyed⟩ := h.fit hc hphase
  have hnone : ∀ socket, c.held socket = 0 := held_phase hphase
  have htracking : c.tracking = 0 := tracking_phase hphase
  unfold advance
  rw [hc]
  dsimp only
  rw [hphase]
  cases input with
  | object object =>
    refine h.go { s with sockets := s.sockets + 1 } hc rfl ?_
    refine
      { shared := rfl
        epoch := rfl
        now := rfl
        places := fun socket => ?_
        capacity := h.capacity
        closing := by rw [htracking]; rfl
        pausing := congrArg _ (pausing_same hother rfl)
        fit := ⟨fun t ht => (by cases ht), hother, hkeyed⟩
        idle := h.idle
        leases := h.leases
        stays := fun _ hempty => ⟨hempty, id⟩
        retired := fun hq => absurd hq hother
        body := fun hbody => by cases hbody
        right := h.right
        uncertain := h.uncertain }
    have hheld : Call.held socket { c with phase := .wrap ⟨object, s.sockets⟩ created s.now none } =
        if s.sockets = socket then 1 else 0 := rfl
    rw [hnone, hheld, fixed, fixed]
    dsimp only
    split <;> split <;> split <;> omega
  | raised => exact h.hands hc rfl hother (fun socket => (hnone socket).symm) htracking.symm ⟨trivial, trivial, trivial⟩
  | ok | late => exact h

/-- A lease is handed out, or a warmup's route is judged. -/
theorem Inv.wrap {route : Route} {created checked : ℚ} {t : Option Taken} (hphase : c.phase = .wrap route created checked t) :
    (s.wrap i c route created checked t).Inv := by
  obtain ⟨hgood, hother, hkeyed⟩ := h.fit hc hphase
  have hheld : ∀ socket, c.held socket = route.on socket := held_phase hphase
  have htracking : c.tracking = 0 := tracking_phase hphase
  unfold CacheSystem.wrap
  split
  · exact h.hands hc rfl hother (fun socket => (hheld socket).symm) htracking.symm ⟨⟨rfl, Nat.le_refl _⟩, hother, hkeyed⟩
  next hnot =>
  have hprepared : c.kind.prepared = false := by
    unfold CallKind.prepared
    split
    · next hwarm => exact absurd hwarm (hnot _ _)
    · rfl
  set lease : CachedPtzRoute κ :=
    { key := c.key, route := route, created := created, reused := t.isSome, checked := checked, epoch := s.epoch }
  have hnoted : (s.note (.leased lease t)).Inv :=
    h.note (fun t' ht' => ⟨(hgood t' ht').1, (hgood t' ht').2 hprepared⟩) fun hne => by cases hne
  refine h.go (CacheSystem.note (.leased lease t) { s with leases := s.leases ++ [lease] }) hc rfl ?_
  refine
    { shared := rfl
      epoch := rfl
      now := rfl
      places := fun socket => ?_
      capacity := h.capacity
      closing := by rw [htracking]; rfl
      pausing := congrArg _ (pausing_same hother rfl)
      fit := ⟨trivial, trivial, trivial⟩
      idle := h.idle
      leases := fun l hl => ?_
      stays := fun _ hempty => ⟨hempty, id⟩
      retired := fun hq => absurd hq hother
      body := fun hbody => by cases hbody
      right := hnoted.right
      uncertain := hnoted.uncertain }
  · have hsum := sum_append_one s.leases lease (CachedPtzRoute.out socket)
    have hout : CachedPtzRoute.out socket lease = route.on socket := rfl
    have hended : Call.held socket { c with phase := .ended } = 0 := rfl
    have hsockets : (CacheSystem.note (.leased lease t) { s with leases := s.leases ++ [lease] }).sockets = s.sockets := rfl
    rw [hheld, hended, hsockets, fixed, fixed]
    dsimp only [CacheSystem.note]
    omega
  · rcases List.mem_append.mp hl with hl | hl
    · exact h.leases l hl
    · rw [List.mem_singleton.mp hl]
      exact ⟨hkeyed, Nat.le_refl _⟩

/-- A route's `close` has come back; the call goes on without it. -/
theorem Inv.releases {route : Route} {after : After} (hphase : c.phase = .discard route after) (hkind : d.kind = c.kind)
    (hnone : ∀ socket, d.held socket = 0) (hnot : d.tracking = 0) (hnobody : d.phase ≠ .body) (hfit : s.Fit d) :
    Inv { s.close route with calls := s.calls.set i d } := by
  obtain ⟨-, hother, -⟩ := h.fit hc hphase
  have hheld (socket : Nat) : c.held socket = route.on socket := (held_phase hphase socket).trans (Nat.zero_add _)
  have htracking : c.tracking = 0 := tracking_phase hphase
  refine h.go (s.close route) hc rfl ?_
  refine
    { shared := rfl
      epoch := rfl
      now := rfl
      places := fun socket => ?_
      capacity := h.capacity
      closing := by rw [htracking, hnot]; rfl
      pausing := congrArg _ (pausing_same hother hkind)
      fit := hfit.mono rfl (Nat.le_refl _) (le_refl _)
      idle := h.idle
      leases := h.leases
      stays := fun _ hempty => ⟨hempty, id⟩
      retired := fun hq => absurd (hkind.symm.trans hq) hother
      body := fun hbody => absurd hbody hnobody
      right := h.right
      uncertain := h.uncertain }
  have hfixed : (s.close route).fixed socket = s.fixed socket + route.on socket := by
    simp only [fixed, close, Route.on, List.count_cons, beq_iff_eq]
    omega
  have hsockets : (s.close route).sockets = s.sockets := rfl
  rw [hheld, hnone, hfixed, hsockets]
  omega

theorem Inv.discard {route : Route} {after : After} (hphase : c.phase = .discard route after) (input : Input) :
    (s.advance i input).Inv := by
  obtain ⟨-, hother, hkeyed⟩ := h.fit hc hphase
  have hends : Inv ((s.close route).go i c .ended) :=
    h.releases (d := { c with phase := .ended }) hc hphase rfl (fun _ => rfl) rfl (fun hbody => by cases hbody)
      ⟨trivial, trivial, trivial⟩
  have hprepares (created : ℚ) : Inv ((s.close route).go i c (.prepare created)) :=
    h.releases (d := { c with phase := .prepare created }) hc hphase rfl (fun _ => rfl) rfl (fun hbody => by cases hbody)
      ⟨trivial, hother, hkeyed⟩
  unfold advance
  rw [hc]
  dsimp only
  rw [hphase]
  cases input with
  | ok =>
    cases after with
    | finish => exact hends
    | fresh created =>
      dsimp only [discarded, CacheSystem.fresh]
      split
      · exact hends
      · exact hprepares created
    | again => exact hprepares _
  | raised => exact hends
  | object | late => exact h

theorem Inv.judge {lease : CachedPtzRoute κ} (hphase : c.phase = .judge lease) : (s.judge i c lease).Inv := by
  obtain ⟨⟨hkey, hepoch⟩, hother, hkeyed⟩ := h.fit hc hphase
  unfold CacheSystem.judge
  dsimp only
  generalize (if s.cache.shared = true then (8 : ℚ) else 20 - (s.now - lease.created)) = remaining
  split
  · exact h.discards hc hother (held_phase hphase) (tracking_phase hphase) hkeyed
  next hkept =>
  refine h.hands hc rfl hother (fun socket => (held_phase hphase socket).symm) (tracking_phase hphase).symm
    ⟨⟨hkey, hepoch, ?_, ?_, fun hshared => ?_⟩, hother, hkeyed⟩
  · exact eq_false_of_ne_true fun hfailed => hkept (.inr (.inr (.inl hfailed)))
  · by_contra hneither
    rw [not_or] at hneither
    exact hkept (.inr (.inl ⟨eq_false_of_ne_true hneither.1, eq_false_of_ne_true hneither.2⟩))
  · by_contra hold
    exact hkept (.inr (.inr (.inr ⟨hshared, hold⟩)))

/-- A route that is not closed becomes idle, under a key that no other has. -/
theorem Inv.put {lease : CachedPtzRoute κ} {remaining : ℚ} {seen : Nat} (hphase : c.phase = .put lease remaining seen)
    (started : Bool) : (s.put i c lease remaining seen started).Inv := by
  obtain ⟨⟨hkey, hepoch, hfailed, hconfirmed, hseen⟩, hother, hkeyed⟩ := h.fit hc hphase
  have hheld : ∀ socket, c.held socket = lease.route.on socket := held_phase hphase
  have htracking : c.tracking = 0 := tracking_phase hphase
  have hkeyed' : (storageKey s.cache.shared lease.key).isSome = true := by rw [hkey]; exact hkeyed
  obtain ⟨k, hk⟩ := Option.isSome_iff_exists.mp hkeyed'
  unfold CacheSystem.put
  rw [hk]
  dsimp only
  split
  · exact h.discards hc hother hheld htracking hkeyed
  next hroom =>
  simp only [not_or, Nat.not_le] at hroom
  obtain ⟨hpaused, -, hsize, hfree, -⟩ := hroom
  have hget : s.cache.idle.get? k = none := by
    cases hget : s.cache.idle.get? k with
    | none => rfl
    | some r => exact absurd (by rw [Dict.contains, hget]; rfl) hfree
  set idle : Idle := ⟨lease.route, lease.created, s.now + min 8 remaining, lease.checked, lease.epoch⟩
  have hnoted : (s.note (.idled lease c.kind.prepared seen)).Inv :=
    h.note ⟨hfailed, hconfirmed, hseen⟩ fun hne => by cases hne
  refine h.go (CacheSystem.note (.idled lease c.kind.prepared seen)
    { s with cache := { s.cache with idle := s.cache.idle.set k idle } }) hc rfl ?_
  refine
    { shared := rfl
      epoch := rfl
      now := rfl
      places := fun socket => ?_
      capacity := ?_
      closing := by rw [htracking]; rfl
      pausing := congrArg _ (pausing_same hother rfl)
      fit := ⟨trivial, trivial, trivial⟩
      idle := fun j r hr => ?_
      leases := h.leases
      stays := fun hpaused' => absurd hpaused' hpaused
      retired := fun hq => absurd hq hother
      body := fun hbody => by cases hbody
      right := hnoted.right
      uncertain := hnoted.uncertain }
  · have htotal := Dict.total_set_of_none hget idle fun r => r.route.on socket
    have hended : Call.held socket { c with phase := .ended } = 0 := rfl
    have hfixed : (CacheSystem.note (.idled lease c.kind.prepared seen)
        { s with cache := { s.cache with idle := s.cache.idle.set k idle } }).fixed socket =
        s.fixed socket + lease.route.on socket := by
      have hon : idle.route.on socket = lease.route.on socket := rfl
      unfold fixed CacheSystem.note
      dsimp only
      rw [htotal, hon]
      omega
    have hsockets : (CacheSystem.note (.idled lease c.kind.prepared seen)
        { s with cache := { s.cache with idle := s.cache.idle.set k idle } }).sockets = s.sockets := rfl
    rw [hheld, hended, hfixed, hsockets]
    omega
  · have hset := Dict.size_set_of_none hget idle
    change (s.cache.idle.set k idle).size ≤ 4
    omega
  · change (s.cache.idle.set k idle).get? j = some r at hr
    rw [Dict.get?_set] at hr
    split at hr
    · cases hr
      exact hepoch
    · exact h.idle j r hr

/-- The idle routes are in the hands of the call, and counted. -/
theorem Inv.retire (hphase : c.phase = .retire) : (s.retire i c).Inv := by
  have hnone : ∀ socket, c.held socket = 0 := held_phase hphase
  have htracking : c.tracking = 0 := tracking_phase hphase
  unfold CacheSystem.retire
  set routes := s.cache.idle.values.map Idle.route
  have hlength : routes.length = s.cache.idle.size := by
    simp only [routes, Dict.values, List.length_map]
    rfl
  refine h.go { s with cache := { s.cache with
    idle := ∅
    closing := s.cache.closing + s.cache.idle.size } } hc rfl ?_
  refine
    { shared := rfl
      epoch := rfl
      now := rfl
      places := fun socket => ?_
      capacity := Nat.zero_le _
      closing := ?_
      pausing := congrArg _ ?_
      fit := ⟨trivial, trivial, trivial⟩
      idle := fun _ _ hr => by cases hr
      leases := h.leases
      stays := fun _ hempty => ⟨rfl, fun hclosing => ?_⟩
      retired := fun _ _ => rfl
      body := fun hbody => by cases hbody
      right := h.right
      uncertain := h.uncertain }
  · have hheld : Call.held socket { c with phase := .tracked routes false } =
        s.cache.idle.total fun r => r.route.on socket := by
      simp only [Call.held, Phase.held, Phase.carried, Phase.closing, Nat.zero_add, routes, List.map_map, Dict.total]
      rfl
    rw [hnone, hheld, fixed, fixed, Dict.total_empty]
    dsimp only
    omega
  · rw [htracking, Call.tracking, Phase.tracking, hlength]
    rfl
  · unfold Call.pausing
    rw [hphase]
    cases c.kind with
    | _ => rfl
  · rw [hempty, hclosing]
    rfl

/-- A `quiesce` goes on after its `close_idle`. -/
theorem Inv.quiesces {p : Phase κ} (hkind : c.kind = .quiesce) (hpast : c.phase.retired = true)
    (hnone : ∀ socket, c.held socket = 0) (htracking : c.tracking = 0) (hp : p = .wait ∨ p = .body ∨ p = .resume)
    (hbody : p = .body → s.cache.closing = 0) : (s.go i c p).Inv := by
  have hempty : s.cache.idle = ∅ := h.retired c (List.mem_of_getElem? hc) hkind hpast
  have hpausing : p.retired = true → Call.pausing { c with phase := p } = c.pausing := by
    intro hretired
    rw [pausing_quiesce hkind hpast, pausing_quiesce (c := { c with phase := p }) hkind hretired]
  rcases hp with rfl | rfl | rfl
  · exact h.phase hc (fun socket => (hnone socket).symm) htracking.symm (hpausing rfl) ⟨trivial, hkind, trivial⟩
      (fun _ _ => hempty) fun hq => by cases hq
  · exact h.phase hc (fun socket => (hnone socket).symm) htracking.symm (hpausing rfl) ⟨trivial, hkind, trivial⟩
      (fun _ _ => hempty) fun _ => hbody rfl
  · exact h.phase hc (fun socket => (hnone socket).symm) htracking.symm (hpausing rfl) ⟨trivial, hkind, trivial⟩
      (fun _ _ => hempty) fun hq => by cases hq

theorem Inv.retires {failed : Bool} (hphase : c.phase = .tracked [] failed) : (s.retired i c failed).Inv := by
  have hnone : ∀ socket, c.held socket = 0 := held_phase hphase
  have htracking : c.tracking = 0 := tracking_phase hphase
  have hpast : c.phase.retired = true := by rw [hphase]; rfl
  unfold CacheSystem.retired
  split
  · next hkind =>
    cases failed with
    | true => exact h.quiesces hc hkind hpast hnone htracking (.inr (.inr rfl)) fun hq => by cases hq
    | false => exact h.quiesces hc hkind hpast hnone htracking (.inl rfl) fun hq => by cases hq
  · next hother =>
    exact h.hands hc rfl hother (fun socket => (hnone socket).symm) htracking.symm ⟨trivial, trivial, trivial⟩

/-- One of the routes is closed, or may not be. -/
theorem Inv.closes {route : Route} {routes : List Route} {failed : Bool} (hphase : c.phase = .tracked (route :: routes) failed)
    (doubt failed' : Bool) : Inv (((s.close route).closedTracked doubt).go i c (.tracked routes failed')) := by
  have hmem := List.mem_of_getElem? hc
  have hheld (socket : Nat) : c.held socket = route.on socket + (routes.map fun r => r.on socket).sum :=
    (held_phase hphase socket).trans (Nat.zero_add _)
  have htracking : c.tracking = routes.length + 1 := tracking_phase hphase
  have hcounted : routes.length + 1 ≤ s.cache.closing := by
    rw [← htracking, ← h.closing]
    exact le_sum hmem Call.tracking
  rw [closedTracked_eq]
  refine h.go { s with
    cache := { s.cache with
      closing := s.cache.closing - 1
      closeFailed := s.cache.closeFailed || doubt }
    closed := route.socket :: s.closed
    log := if doubt then s.log ++ [.uncertain] else s.log } hc rfl ?_
  refine
    { shared := rfl
      epoch := rfl
      now := rfl
      places := fun socket => ?_
      capacity := h.capacity
      closing := ?_
      pausing := congrArg _ ?_
      fit := ⟨trivial, trivial, trivial⟩
      idle := h.idle
      leases := h.leases
      stays := fun _ hempty => ⟨hempty, fun hclosing => ?_⟩
      retired := fun hkind _ => h.retired c hmem hkind (by rw [hphase]; rfl)
      body := fun hbody => by cases hbody
      right := fun e he => ?_
      uncertain := fun he => ?_ }
  · have hafter : Call.held socket { c with phase := .tracked routes failed' } = (routes.map fun r => r.on socket).sum :=
      Nat.zero_add _
    rw [hheld, hafter]
    simp only [fixed, Route.on, List.count_cons, beq_iff_eq]
    omega
  · rw [htracking, Call.tracking, Phase.tracking]
    dsimp only
    omega
  · unfold Call.pausing
    rw [hphase]
    cases c.kind with
    | _ => rfl
  · change s.cache.closing - 1 = 0
    omega
  · change e ∈ if doubt = true then s.log ++ [.uncertain] else s.log at he
    split at he
    · rcases List.mem_append.mp he with he | he
      · exact h.right e he
      · rw [List.mem_singleton.mp he]
        trivial
    · exact h.right e he
  · change (s.cache.closeFailed || doubt) = true
    change _ ∈ if doubt = true then s.log ++ [.uncertain] else s.log at he
    cases doubt with
    | true => exact Bool.or_true _
    | false => rw [h.uncertain he]; rfl

theorem Inv.tracked {routes : List Route} {failed : Bool} (hphase : c.phase = .tracked routes failed) (input : Input) :
    (s.advance i input).Inv := by
  unfold advance
  rw [hc]
  dsimp only
  rw [hphase]
  cases routes with
  | nil => exact h.retires hc hphase
  | cons route routes =>
    cases input with
    | ok => exact h.closes hc hphase false failed
    | raised => exact h.closes hc hphase true true
    | object | late => exact h

theorem Inv.wait (hphase : c.phase = .wait) (late : Bool) : (s.wait i c late).Inv := by
  obtain ⟨-, hkind, -⟩ := h.fit hc hphase
  have hnone : ∀ socket, c.held socket = 0 := held_phase hphase
  have htracking : c.tracking = 0 := tracking_phase hphase
  have hpast : c.phase.retired = true := by rw [hphase]; rfl
  unfold CacheSystem.wait
  split
  · next hclosing =>
    cases s.cache.closeFailed with
    | true => exact h.quiesces hc hkind hpast hnone htracking (.inr (.inr rfl)) fun hq => by cases hq
    | false => exact h.quiesces hc hkind hpast hnone htracking (.inr (.inl rfl)) fun _ => hclosing
  split
  · have hfailed : Inv { s with cache := { s.cache with closeFailed := true } } :=
      ⟨h.places, h.capacity, h.closing, h.pausing, fun e he => (h.calls e he).mono rfl (Nat.le_refl _) (le_refl _), h.idle,
        h.leases, h.retired, h.body, h.right, fun _ => rfl⟩
    have hnoted : Inv (CacheSystem.note .uncertain { s with cache := { s.cache with closeFailed := true } }) :=
      hfailed.note trivial fun _ => rfl
    exact hnoted.quiesces hc hkind hpast hnone htracking (.inr (.inr rfl)) fun hq => by cases hq
  · exact h

theorem Inv.resume (hphase : c.phase = .resume) : (s.resume i c).Inv := by
  obtain ⟨-, hkind, -⟩ := h.fit hc hphase
  have hpast : c.phase.retired = true := by rw [hphase]; rfl
  have hmem := List.mem_of_getElem? hc
  obtain ⟨hpaused, hempty⟩ := h.quiet hmem hkind hpast
  have hnone : ∀ socket, c.held socket = 0 := held_phase hphase
  unfold CacheSystem.resume
  refine h.go { s with cache := { s.cache with paused := false } } hc rfl ?_
  refine
    { shared := rfl
      epoch := rfl
      now := rfl
      places := fun socket => ?_
      capacity := h.capacity
      closing := by rw [tracking_phase hphase]; rfl
      pausing := ?_
      fit := ⟨trivial, trivial, trivial⟩
      idle := h.idle
      leases := h.leases
      stays := fun _ hempty => ⟨hempty, id⟩
      retired := fun _ hq => by cases hq
      body := fun hbody => by cases hbody
      right := h.right
      uncertain := h.uncertain }
  · rw [hnone]
    rfl
  · have hended : Call.pausing { c with phase := .ended } = 0 := by
      unfold Call.pausing
      rw [hkind]
    rw [pausing_quiesce hkind hpast, hended, hpaused]
    rfl

theorem Inv.advance (input : Input) : (s.advance i input).Inv := by
  cases hphase : c.phase with
  | taken t => exact h.taken hc hphase input
  | keepalive t => exact h.keepalive hc hphase input
  | select t => exact h.select hc hphase input
  | prepare created => exact h.prepare hc hphase input
  | discard route after => exact h.discard hc hphase input
  | tracked routes failed => exact h.tracked hc hphase input
  | put lease remaining seen =>
    unfold CacheSystem.advance
    rw [hc]
    dsimp only
    rw [hphase]
    cases input with
    | ok => exact h.put hc hphase true
    | raised => exact h.put hc hphase false
    | object | late => exact h
  | wait =>
    unfold CacheSystem.advance
    rw [hc]
    dsimp only
    rw [hphase]
    cases input with
    | ok => exact h.wait hc hphase false
    | late => exact h.wait hc hphase true
    | object | raised => exact h
  | body =>
    unfold CacheSystem.advance
    rw [hc]
    dsimp only
    rw [hphase]
    exact h.quiesces hc (h.fit hc hphase).2.1 (by rw [hphase]; rfl) (held_phase hphase) (tracking_phase hphase)
      (.inr (.inr rfl)) fun hq => by cases hq
  | ended =>
    unfold CacheSystem.advance
    rw [hc]
    dsimp only
    rw [hphase]
    exact h
  | _ =>
    unfold CacheSystem.advance
    rw [hc]
    dsimp only
    rw [hphase]
    first
      | exact h.enter hc hphase
      | exact h.examine hc hphase
      | exact h.wrap hc hphase
      | exact h.judge hc hphase
      | exact h.retire hc hphase
      | exact h.resume hc hphase

end

/-! ## New calls -/

/-- A call that has ended has no part in it. -/
theorem Inv.bystander (h : s.Inv) {c : Call κ} (hended : c.phase = .ended) : (s.begin c).Inv := by
  have hmem : ∀ e ∈ s.calls ++ [c], e ∈ s.calls ∨ e = c := fun e he =>
    (List.mem_append.mp he).imp_right List.mem_singleton.mp
  have hpausing : c.pausing = 0 := by
    unfold Call.pausing
    rw [hended]
    cases c.kind with
    | _ => rfl
  constructor
  · intro socket
    have hheld : c.held socket = 0 := held_phase hended socket
    have hsum := sum_append_one s.calls c (Call.held socket)
    have hwas := h.places socket
    have hfixed : (s.begin c).fixed socket = s.fixed socket := rfl
    have hsockets : (s.begin c).sockets = s.sockets := rfl
    unfold CacheSystem.places at hwas ⊢
    rw [hfixed, hsockets]
    dsimp only [begin]
    omega
  · exact h.capacity
  · exact (sum_append_one s.calls c Call.tracking).trans (by rw [tracking_phase hended]; exact h.closing)
  · exact (sum_append_one s.calls c Call.pausing).trans (by rw [hpausing]; exact h.pausing)
  · intro e he
    rcases hmem e he with hold | rfl
    · exact (h.calls e hold).mono rfl (Nat.le_refl _) (le_refl _)
    · exact ⟨by rw [hended]; trivial, by rw [hended]; trivial, by rw [hended]; trivial⟩
  · exact h.idle
  · exact h.leases
  · intro e he hkind hphase
    rcases hmem e he with hold | rfl
    · exact h.retired e hold hkind hphase
    · rw [hended] at hphase
      cases hphase
  · intro e he hphase
    rcases hmem e he with hold | rfl
    · exact h.body e hold hphase
    · rw [hended] at hphase
      cases hphase
  · exact h.right
  · exact h.uncertain

theorem Inv.begins (h : s.Inv) (s' : CacheSystem κ) {d : Call κ} (hcalls : s'.calls = s.calls)
    (hgo : s.Goes s' { d with phase := .ended } d) : (s'.begin d).Inv := by
  have hgone := h.bystander (c := { d with phase := .ended }) rfl
  have hat : (s.begin { d with phase := .ended }).calls[s.calls.length]? = some { d with phase := .ended } := by
    simp [begin]
  have hnext := hgone.go (s'.begin { d with phase := .ended }) hat (by simp only [begin, hcalls])
    ⟨hgo.shared, hgo.epoch, hgo.now, hgo.places, hgo.capacity, hgo.closing, hgo.pausing,
      hgo.fit.mono rfl (Nat.le_refl _) (le_refl _), hgo.idle, hgo.leases, hgo.stays, hgo.retired, hgo.body, hgo.right,
      hgo.uncertain⟩
  have hset : (s'.calls ++ [{ d with phase := .ended }]).set s.calls.length d = s'.calls ++ [d] := by
    rw [← hcalls, List.set_append_right _ _ (Nat.le_refl _), Nat.sub_self]
    rfl
  have hcall : { s'.begin { d with phase := .ended } with
      calls := (s'.begin { d with phase := .ended }).calls.set s.calls.length d } = s'.begin d := by
    unfold begin
    dsimp only
    rw [hset]
  rwa [hcall] at hnext

theorem Inv.begin (h : s.Inv) {d : Call κ} (hother : d.kind ≠ .quiesce) (hphase : d.phase = .enter ∨ d.phase = .retire) :
    (s.begin d).Inv := by
  have hphases : (∀ socket, d.held socket = 0) ∧ d.tracking = 0 ∧ s.Fit d ∧ d.phase ≠ .body := by
    rcases hphase with hphase | hphase
    · exact ⟨held_phase hphase, tracking_phase hphase,
        ⟨by rw [hphase]; trivial, by rw [hphase]; exact hother, by rw [hphase]; trivial⟩, by rw [hphase]; exact fun hq => by cases hq⟩
    · exact ⟨held_phase hphase, tracking_phase hphase,
        ⟨by rw [hphase]; trivial, by rw [hphase]; trivial, by rw [hphase]; trivial⟩, by rw [hphase]; exact fun hq => by cases hq⟩
  obtain ⟨hnone, htracking, hfit, hbody⟩ := hphases
  refine h.begins s rfl ?_
  exact
    { shared := rfl
      epoch := rfl
      now := rfl
      places := fun socket => by rw [hnone]; rfl
      capacity := h.capacity
      closing := by rw [htracking]; rfl
      pausing := congrArg _ (pausing_same hother rfl)
      fit := hfit
      idle := h.idle
      leases := h.leases
      stays := fun _ hempty => ⟨hempty, id⟩
      retired := fun hq => absurd hq hother
      body := fun hq => absurd hq hbody
      right := h.right
      uncertain := h.uncertain }

theorem Inv.quiesce (h : s.Inv) : s.quiesce.Inv := by
  unfold CacheSystem.quiesce
  split
  · exact h
  next hadmits =>
  have hpaused : s.cache.paused = false := by
    cases hp : s.cache.paused with
    | false => rfl
    | true => exact absurd (by rw [PtzRouteCache.admits, hp]; rfl) hadmits
  refine h.begins { s with cache := { s.cache with paused := true } } rfl ?_
  exact
    { shared := rfl
      epoch := rfl
      now := rfl
      places := fun _ => rfl
      capacity := h.capacity
      closing := rfl
      pausing := by rw [hpaused]; rfl
      fit := ⟨trivial, trivial, trivial⟩
      idle := h.idle
      leases := h.leases
      stays := fun hq => absurd (hq.symm.trans hpaused) fun hq => by cases hq
      retired := fun _ hq => by cases hq
      body := fun hq => by cases hq
      right := h.right
      uncertain := h.uncertain }

/-- A timer takes its own route out, and closes it. -/
theorem Inv.expire (h : s.Inv) (k : StorageKey κ) (object : Nat) : (s.expire k object).Inv := by
  unfold CacheSystem.expire
  cases hget : s.cache.idle.get? k with
  | none => exact h
  | some idle =>
    dsimp only
    split
    · exact h
    refine h.begins { s with cache := { s.cache with
      idle := s.cache.idle.erase k
      closing := s.cache.closing + 1 } } rfl ?_
    refine
      { shared := rfl
        epoch := rfl
        now := rfl
        places := fun socket => ?_
        capacity := (Dict.size_erase_le _ k).trans h.capacity
        closing := rfl
        pausing := rfl
        fit := ⟨trivial, trivial, trivial⟩
        idle := fun j r hr => ?_
        leases := h.leases
        stays := fun _ hempty => ?_
        retired := fun hq => by cases hq
        body := fun hq => by cases hq
        right := h.right
        uncertain := h.uncertain }
    · have htotal := Dict.total_erase hget fun r => r.route.on socket
      simp only [Call.held, Phase.held, Phase.carried, Phase.closing, fixed, List.map_cons, List.map_nil, List.sum_cons,
        List.sum_nil]
      omega
    · change (s.cache.idle.erase k).get? j = some r at hr
      rw [Dict.get?_erase] at hr
      split at hr
      · cases hr
      · exact h.idle j r hr
    · rw [hempty] at hget
      cases hget

/-- A lease that is closed is in the hands of the call that closes it. -/
theorem Inv.closeLease (h : s.Inv) (j : Nat) : (s.closeLease j).Inv := by
  unfold CacheSystem.closeLease
  cases hget : s.leases[j]? with
  | none => exact h
  | some lease =>
    dsimp only
    split
    · exact h
    next hopen =>
    have hkept := h.leases lease (List.mem_of_getElem? hget)
    refine h.begins { s with leases := s.leases.set j { lease with closed := true } } rfl ?_
    refine
      { shared := rfl
        epoch := rfl
        now := rfl
        places := fun socket => ?_
        capacity := h.capacity
        closing := rfl
        pausing := rfl
        fit := ⟨⟨rfl, hkept.2⟩, (fun hq => by cases hq), hkept.1⟩
        idle := h.idle
        leases := fun l hl => ?_
        stays := fun _ hempty => ⟨hempty, id⟩
        retired := fun hq => by cases hq
        body := fun hq => by cases hq
        right := h.right
        uncertain := h.uncertain }
    · have hset := sum_set hget { lease with closed := true } (CachedPtzRoute.out socket)
      have hwas : lease.out socket = lease.route.on socket := if_neg hopen
      have hnow : CachedPtzRoute.out socket { lease with closed := true } = 0 := rfl
      simp only [Call.held, Phase.held, Phase.carried, Phase.closing, fixed]
      omega
    · rcases List.mem_or_eq_of_mem_set hl with hl | rfl
      · exact h.leases l hl
      · exact hkept

theorem Inv.use (h : s.Inv) (j : Nat) (u : Use) : (s.use j u).Inv := by
  have hset (lease lease' : CachedPtzRoute κ) (hget : s.leases[j]? = some lease) (hkey : lease'.key = lease.key)
      (hepoch : lease'.epoch = lease.epoch) (hout : ∀ socket, lease'.out socket = lease.out socket) :
      Inv { s with leases := s.leases.set j lease' } := by
    have hkept := h.leases lease (List.mem_of_getElem? hget)
    refine ⟨fun socket => ?_, h.capacity, h.closing, h.pausing, fun c hc => (h.calls c hc).mono rfl (Nat.le_refl _) (le_refl _),
      h.idle, fun l hl => ?_, h.retired, h.body, h.right, h.uncertain⟩
    · have hsum := sum_set hget lease' (CachedPtzRoute.out socket)
      have hwas := h.places socket
      have hsame := hout socket
      unfold CacheSystem.places fixed at hwas ⊢
      dsimp only
      omega
    · rcases List.mem_or_eq_of_mem_set hl with hl | rfl
      · exact h.leases l hl
      · rw [hkey, hepoch]
        exact hkept
  unfold CacheSystem.use
  cases hget : s.leases[j]? with
  | none => exact h
  | some lease =>
    dsimp only
    split
    · exact h
    cases u with
    | sent => exact h
    | confirmed value => exact hset lease _ hget rfl rfl fun _ => rfl
    | raised => exact hset lease _ hget rfl rfl fun _ => rfl

/-! ## Runs -/

theorem step_inv (h : s.Inv) (m : CacheMove κ) : (s.step m).Inv := by
  cases m with
  | warm key selects =>
    simp only [step]
    split
    · exact h
    · exact h.begin (fun hq => by cases hq) (.inl rfl)
  | acquire key selects =>
    simp only [step]
    split
    · exact h
    · exact h.begin (fun hq => by cases hq) (.inl rfl)
  | closeIdle => exact h.begin (fun hq => by cases hq) (.inr rfl)
  | quiesce => exact h.quiesce
  | expire key object => exact h.expire key object
  | go i input =>
    simp only [step]
    cases hc : s.calls[i]? with
    | none =>
      unfold advance
      rw [hc]
      exact h
    | some c => exact h.advance hc input
  | use j u => exact h.use j u
  | closeLease j => exact h.closeLease j
  | authenticate =>
    exact ⟨h.places, h.capacity, h.closing, h.pausing, fun c hc => (h.calls c hc).mono rfl (Nat.le_succ _) (le_refl _),
      fun k r hr => (h.idle k r hr).trans (Nat.le_succ _),
      fun l hl => ⟨(h.leases l hl).1, (h.leases l hl).2.trans (Nat.le_succ _)⟩, h.retired, h.body, h.right, h.uncertain⟩
  | elapse time =>
    have hlater : s.now ≤ s.now + time := le_add_of_nonneg_right time.2
    exact ⟨h.places, h.capacity, h.closing, h.pausing, fun c hc => (h.calls c hc).mono rfl (Nat.le_refl _) hlater, h.idle,
      h.leases, h.retired, h.body, h.right, h.uncertain⟩

theorem init_inv (shared : Bool) : Inv ({ cache := { shared := shared } } : CacheSystem κ) where
  places _ := by simp [CacheSystem.places, fixed]
  capacity := Nat.zero_le _
  closing := rfl
  pausing := rfl
  calls c hc := by cases hc
  idle k r hr := by cases hr
  leases l hl := by cases hl
  retired c hc := by cases hc
  body c hc := by cases hc
  right e he := by cases he
  uncertain he := by cases he

theorem steps_inv (h : s.Inv) (moves : List (CacheMove κ)) : (moves.foldl step s).Inv := by
  induction moves generalizing s with
  | nil => exact h
  | cons m moves ih => exact ih (step_inv h m)

theorem run_inv (shared : Bool) (moves : List (CacheMove κ)) : (run shared moves).Inv :=
  steps_inv (init_inv shared) moves

end CacheSystem

end CamGuard.Ptz
