/-
The cache of stopped PTZ routes (`ptz_cache.py`), with the broker's epoch
(`broker_epoch.py`).

Any number of threads may be in any of its functions: a call is a phase, and
between two phases the others come. A section under the lock is one step, as is
a read of the clock or of the epoch with the assignments after it, and the end
of what a call waits for, whose outcome is an input. The lock is held while
`_return` closes a route that it does not keep; here the others may go on
meanwhile. A timer may fire at any time, for any route.
-/
import CamGuard.Lib.Clocked
import CamGuard.Lib.Dict
import Mathlib.Data.NNRat.Defs

namespace CamGuard.Ptz

/-- A `NativePtzRoute`, as the cache sees it: which object it is, and its
socket. A successor takes over the socket. -/
structure Route where
  object : Nat
  socket : Nat
  deriving DecidableEq, Repr

/-- What `_storage_key` gives. -/
inductive StorageKey (κ : Type) where
  | own (key : List κ)
  | account (access : κ) (token : κ)
  deriving DecidableEq, Repr

/-- `_Idle`, but for its timer. -/
structure Idle where
  route : Route
  created : ℚ
  expires : ℚ
  checked : ℚ
  epoch : Nat
  deriving DecidableEq, Repr

structure CachedPtzRoute (κ : Type) where
  key : List κ
  route : Route
  created : ℚ
  reused : Bool
  checked : ℚ
  epoch : Nat
  failed : Bool := false
  confirmed : Bool := false
  closed : Bool := false
  deriving DecidableEq, Repr

structure PtzRouteCache (κ : Type) where
  shared : Bool
  idle : Dict (StorageKey κ) Idle := ∅
  closing : Nat := 0
  closeFailed : Bool := false
  paused : Bool := false

variable {κ : Type}

/-- `_storage_key`. -/
def storageKey (shared : Bool) (key : List κ) : Option (StorageKey κ) :=
  if shared = false then some (.own key)
  else
    match key with
    | [_, _, _, access, token, _] => some (.account access token)
    | _ => none

namespace PtzRouteCache

/-- `_check_admission`. -/
def admits (c : PtzRouteCache κ) : Bool := !c.paused && !c.closeFailed

end PtzRouteCache

/-! ## Calls -/

/-- An idle route that a call has taken out; when, and under which epoch, the
code does not keep. -/
structure Taken where
  idle : Idle
  now : ℚ
  epoch : Nat
  deriving DecidableEq, Repr

/-- What follows when a route is closed. -/
inductive After where
  /-- The call ends, in one way or the other. -/
  | finish
  /-- A new route is prepared, unless a warmup found the cache full. -/
  | fresh (created : ℚ)
  /-- A new route is prepared, from now. -/
  | again
  deriving DecidableEq, Repr

inductive Phase (κ : Type) where
  /-- Before the first section of `warm` and `acquire`. -/
  | enter
  | taken (t : Option Taken)
  | examine (t : Taken) (now : ℚ)
  | keepalive (t : Taken)
  | select (t : Taken)
  | prepare (created : ℚ)
  /-- A lease is made. -/
  | wrap (route : Route) (created checked : ℚ) (t : Option Taken)
  | discard (route : Route) (after : After)
  /-- Before the checks of `_return`, and after them. -/
  | judge (lease : CachedPtzRoute κ)
  | put (lease : CachedPtzRoute κ) (remaining : ℚ) (seen : Nat)
  /-- Before the section of `close_idle`. -/
  | retire
  /-- `_close_tracked`, of these in turn. -/
  | tracked (routes : List Route) (failed : Bool)
  | wait
  | body
  | resume
  | ended
  deriving DecidableEq

inductive CallKind where
  /-- With whether a target is selected, and when the call began. -/
  | warm (selects : Bool) (now : ℚ)
  | acquire
  /-- The close of a lease. -/
  | back
  | expire
  | closeIdle
  | quiesce
  deriving DecidableEq, Repr

def CallKind.prepared : CallKind → Bool
  | .warm .. => true
  | _ => false

structure Call (κ : Type) where
  kind : CallKind
  phase : Phase κ
  key : List κ := []
  /-- What `warm` knows as `full`. -/
  full : Bool := false
  deriving DecidableEq

/-- What a call has waited for. -/
inductive Input where
  | ok
  /-- A route was returned. -/
  | object (object : Nat)
  | raised
  /-- The time of a wait is over. -/
  | late

/-- What a lease does with its route. -/
inductive Use where
  | sent
  | confirmed (value : Bool)
  | raised

inductive CacheEvent (κ : Type) where
  /-- `warm` or `acquire` has passed the check of admission. -/
  | admitted
  /-- A lease is handed out; of a cached route, with what was taken. -/
  | leased (lease : CachedPtzRoute κ) (t : Option Taken)
  /-- A lease's route is idle; with the epoch that was read for it. -/
  | idled (lease : CachedPtzRoute κ) (prepared : Bool) (seen : Nat)
  /-- A removed route may not be closed. -/
  | uncertain

structure CacheSystem (κ : Type) where
  cache : PtzRouteCache κ
  now : ℚ := 0
  epoch : Nat := 0
  calls : List (Call κ) := []
  leases : List (CachedPtzRoute κ) := []
  /-- The routes that were prepared, each with its socket. -/
  sockets : Nat := 0
  /-- The sockets of the routes whose `close` has come back. -/
  closed : List Nat := []
  log : List (CacheEvent κ) := []

namespace CacheSystem

variable [DecidableEq κ]

def note (e : CacheEvent κ) (s : CacheSystem κ) : CacheSystem κ := { s with log := s.log ++ [e] }

def go (i : Nat) (c : Call κ) (phase : Phase κ) (s : CacheSystem κ) : CacheSystem κ :=
  { s with calls := s.calls.set i { c with phase := phase } }

/-- `self._idle.pop(key, None)`. -/
def pop (k : StorageKey κ) (s : CacheSystem κ) : Option Taken × CacheSystem κ :=
  match s.cache.idle.get? k with
  | none => (none, s)
  | some idle => (some ⟨idle, s.now, s.epoch⟩, { s with cache := { s.cache with idle := s.cache.idle.erase k } })

/-- There is no cached route to use. -/
def fresh (i : Nat) (c : Call κ) (created : ℚ) (s : CacheSystem κ) : CacheSystem κ :=
  s.go i c (if c.full then .ended else .prepare created)

/-- The first section of `warm` and `acquire`. -/
def enter (i : Nat) (c : Call κ) (s : CacheSystem κ) : CacheSystem κ :=
  if s.cache.admits = false then s.go i c .ended
  else
    match storageKey s.cache.shared c.key with
    | none => (note .admitted s).go i c .ended
    | some k =>
      let (t, s) := (note .admitted s).pop k
      match c.kind with
      | .warm _ now =>
        let c := { c with full := decide (4 ≤ s.cache.idle.size) }
        match t with
        | none => s.fresh i c now
        | some t => s.go i c (.examine t now)
      | _ => s.go i c (.taken t)

/-- A cached route is alive. -/
def alive (i : Nat) (c : Call κ) (t : Taken) (s : CacheSystem κ) : CacheSystem κ :=
  match c.kind with
  | .warm false _ => s.go i c (.wrap t.idle.route t.idle.created t.idle.checked (some t))
  | _ => s.go i c (.select t)

/-- The epoch and the age of a cached route are checked. -/
def examine (i : Nat) (c : Call κ) (t : Taken) (now : ℚ) (s : CacheSystem κ) : CacheSystem κ :=
  if s.cache.shared ∧ t.idle.epoch ≠ s.epoch then s.go i c (.discard t.idle.route (.fresh now))
  else
    match c.kind with
    | .warm .. =>
      if now < t.idle.expires ∧ (s.cache.shared ∨ now - t.idle.created < 15) then
        if s.cache.shared = false ∨ 2 ≤ now - t.idle.checked then s.go i c (.keepalive t) else s.alive i c t
      else s.go i c (.discard t.idle.route (.fresh now))
    | _ =>
      if (s.cache.shared ∨ now - t.idle.created < 20) ∧ now < t.idle.expires then
        if s.cache.shared ∧ 2 ≤ now - t.idle.checked then s.go i c (.keepalive t) else s.go i c (.select t)
      else s.go i c (.discard t.idle.route (.fresh now))

/-- `CachedPtzRoute(…)`: `acquire` returns the lease, `warm` gives it back. -/
def wrap (i : Nat) (c : Call κ) (route : Route) (created checked : ℚ) (t : Option Taken) (s : CacheSystem κ) :
    CacheSystem κ :=
  let lease : CachedPtzRoute κ :=
    { key := c.key, route := route, created := created, reused := t.isSome, checked := checked, epoch := s.epoch }
  match c.kind with
  | .warm .. => s.go i c (.judge lease)
  | _ => go i c .ended (note (.leased lease t) { s with leases := s.leases ++ [lease] })

/-- The checks of `_return`. -/
def judge (i : Nat) (c : Call κ) (lease : CachedPtzRoute κ) (s : CacheSystem κ) : CacheSystem κ :=
  let remaining := if s.cache.shared then 8 else 20 - (s.now - lease.created)
  if remaining ≤ 0 ∨ (c.kind.prepared = false ∧ lease.confirmed = false) ∨ lease.failed ∨
      (s.cache.shared ∧ lease.epoch ≠ s.epoch) then
    s.go i c (.discard lease.route .finish)
  else s.go i c (.put lease remaining s.epoch)

/-- The section of `_return`; `started` says that the timer could be started. -/
def put (i : Nat) (c : Call κ) (lease : CachedPtzRoute κ) (remaining : ℚ) (seen : Nat) (started : Bool)
    (s : CacheSystem κ) : CacheSystem κ :=
  match storageKey s.cache.shared lease.key with
  | none => s.go i c .ended
  | some k =>
    if s.cache.paused ∨ s.cache.closeFailed ∨ 4 ≤ s.cache.idle.size ∨ s.cache.idle.contains k ∨ started = false then
      s.go i c (.discard lease.route .finish)
    else
      let idle : Idle := ⟨lease.route, lease.created, s.now + min 8 remaining, lease.checked, lease.epoch⟩
      go i c .ended (note (.idled lease c.kind.prepared seen)
        { s with cache := { s.cache with idle := s.cache.idle.set k idle } })

/-- A route's `close` has come back. -/
def close (route : Route) (s : CacheSystem κ) : CacheSystem κ := { s with closed := route.socket :: s.closed }

def discarded (i : Nat) (c : Call κ) (after : After) (s : CacheSystem κ) : CacheSystem κ :=
  match after with
  | .finish => s.go i c .ended
  | .fresh created => s.fresh i c created
  | .again => s.go i c (.prepare s.now)

/-- The end of a tracked close. -/
def closedTracked (failed : Bool) (s : CacheSystem κ) : CacheSystem κ :=
  let s := { s with cache := { s.cache with
    closing := s.cache.closing - 1
    closeFailed := s.cache.closeFailed || failed } }
  if failed then note .uncertain s else s

/-- The section of `close_idle`. -/
def retire (i : Nat) (c : Call κ) (s : CacheSystem κ) : CacheSystem κ :=
  go i c (.tracked (s.cache.idle.values.map Idle.route) false) { s with cache := { s.cache with
    idle := ∅
    closing := s.cache.closing + s.cache.idle.size } }

/-- The end of `close_idle`, or of a timer. -/
def retired (i : Nat) (c : Call κ) (failed : Bool) (s : CacheSystem κ) : CacheSystem κ :=
  match c.kind with
  | .quiesce => s.go i c (if failed then .resume else .wait)
  | _ => s.go i c .ended

/-- The wait of `quiesce`; `late` says that its second is over. -/
def wait (i : Nat) (c : Call κ) (late : Bool) (s : CacheSystem κ) : CacheSystem κ :=
  if s.cache.closing = 0 then s.go i c (if s.cache.closeFailed then .resume else .body)
  else if late then go i c .resume (note .uncertain { s with cache := { s.cache with closeFailed := true } })
  else s

/-- The `finally` of `quiesce`. -/
def resume (i : Nat) (c : Call κ) (s : CacheSystem κ) : CacheSystem κ :=
  go i c .ended { s with cache := { s.cache with paused := false } }

/-- A phase of a call, with what comes back to it; anything else does not come. -/
def advance (i : Nat) (input : Input) (s : CacheSystem κ) : CacheSystem κ :=
  match s.calls[i]? with
  | none => s
  | some c =>
    match c.phase, input with
    | .enter, _ => s.enter i c
    | .taken none, _ => s.fresh i c s.now
    | .taken (some t), _ => s.go i c (.examine t s.now)
    | .examine t now, _ => s.examine i c t now
    | .keepalive t, .ok => s.alive i c { t with idle := { t.idle with checked := s.now } }
    | .keepalive t, .raised =>
      s.go i c (.discard t.idle.route (if c.kind.prepared then .finish else .again))
    | .select t, .object object =>
      s.go i c (.wrap ⟨object, t.idle.route.socket⟩ t.idle.created t.idle.checked (some t))
    | .select t, .raised => s.go i c (.discard t.idle.route .finish)
    | .prepare created, .object object =>
      go i c (.wrap ⟨object, s.sockets⟩ created s.now none) { s with sockets := s.sockets + 1 }
    | .prepare _, .raised => s.go i c .ended
    | .wrap route created checked t, _ => s.wrap i c route created checked t
    | .discard route after, .ok => (s.close route).discarded i c after
    | .discard route _, .raised => (s.close route).go i c .ended
    | .judge lease, _ => s.judge i c lease
    | .put lease remaining seen, .ok => s.put i c lease remaining seen true
    | .put lease remaining seen, .raised => s.put i c lease remaining seen false
    | .retire, _ => s.retire i c
    | .tracked [] failed, _ => s.retired i c failed
    | .tracked (route :: routes) failed, .ok =>
      go i c (.tracked routes failed) ((s.close route).closedTracked false)
    | .tracked (route :: routes) _, .raised => go i c (.tracked routes true) ((s.close route).closedTracked true)
    | .wait, .ok => s.wait i c false
    | .wait, .late => s.wait i c true
    | .body, _ => s.go i c .resume
    | .resume, _ => s.resume i c
    | _, _ => s

def begin (c : Call κ) (s : CacheSystem κ) : CacheSystem κ := { s with calls := s.calls ++ [c] }

/-- `_expire`, up to the close. -/
def expire (k : StorageKey κ) (object : Nat) (s : CacheSystem κ) : CacheSystem κ :=
  match s.cache.idle.get? k with
  | none => s
  | some idle =>
    if idle.route.object ≠ object ∨ s.now < idle.expires then s
    else begin { kind := .expire, phase := .tracked [idle.route] false } { s with cache := { s.cache with
      idle := s.cache.idle.erase k
      closing := s.cache.closing + 1 } }

/-- `quiesce`, up to `close_idle`. -/
def quiesce (s : CacheSystem κ) : CacheSystem κ :=
  if s.cache.admits = false then s
  else begin { kind := .quiesce, phase := .retire } { s with cache := { s.cache with paused := true } }

/-- `CachedPtzRoute.close`. -/
def closeLease (j : Nat) (s : CacheSystem κ) : CacheSystem κ :=
  match s.leases[j]? with
  | none => s
  | some lease =>
    if lease.closed then s
    else
      let lease := { lease with closed := true }
      begin { kind := .back, phase := .judge lease, key := lease.key } { s with leases := s.leases.set j lease }

/-- The other functions of a lease. -/
def use (j : Nat) (u : Use) (s : CacheSystem κ) : CacheSystem κ :=
  match s.leases[j]? with
  | none => s
  | some lease =>
    if lease.closed then s
    else
      match u with
      | .sent => s
      | .confirmed value => { s with leases := s.leases.set j { lease with confirmed := value } }
      | .raised => { s with leases := s.leases.set j { lease with failed := true } }

end CacheSystem

inductive CacheMove (κ : Type) where
  | warm (key : List κ) (selects : Bool)
  | acquire (key : List κ) (selects : Bool)
  | closeIdle
  | quiesce
  | expire (key : StorageKey κ) (object : Nat)
  | go (call : Nat) (input : Input)
  | use (lease : Nat) (u : Use)
  | closeLease (lease : Nat)
  /-- `broker_epoch.authentication_started`. -/
  | authenticate
  | elapse (time : ℚ≥0)

namespace CacheSystem

variable [DecidableEq κ]

def step (s : CacheSystem κ) : CacheMove κ → CacheSystem κ
  | .warm key selects =>
    if s.cache.shared ∧ selects = false then s
    else s.begin { kind := .warm selects s.now, phase := .enter, key := key }
  | .acquire key selects =>
    if s.cache.shared ∧ selects = false then s else s.begin { kind := .acquire, phase := .enter, key := key }
  | .closeIdle => s.begin { kind := .closeIdle, phase := .retire }
  | .quiesce => s.quiesce
  | .expire key object => s.expire key object
  | .go i input => s.advance i input
  | .use j u => s.use j u
  | .closeLease j => s.closeLease j
  | .authenticate => { s with epoch := s.epoch + 1 }
  | .elapse time => { s with now := s.now + time }

/-- The moves, on a cache that has just been made. -/
def run (shared : Bool) (moves : List (CacheMove κ)) : CacheSystem κ :=
  moves.foldl step { cache := { shared := shared } }

end CacheSystem

end CamGuard.Ptz
