/-
One MP4 epoch shared by readers (`mp4_fanout.py`): the initialization, a ring of
the newest fragments, and readers that hold the number of the next fragment they
want. Every method runs under the hub's lock, so a call is one step.

A `Subscription` object is its index among all that were ever made; `registered`
says that the hub's set of readers holds it.
-/
import CamGuard.Delivery.FragmentedMp4

namespace CamGuard.Delivery

def MAX_READERS : Nat := 16
def MAX_INIT_BYTES : Nat := 256 * 1024

/-- `StreamClosedError`, and `SlowConsumerError` that extends it. -/
inductive StreamError where
  | closed
  | slow
  deriving DecidableEq, Repr

/-- How `_take` raises; `index` would be Python's own error for a bad index. -/
inductive TakeFault where
  | ended (e : StreamError)
  | index
  deriving DecidableEq, Repr

/-- How `publish` raises. -/
inductive PublishFault where
  | ended
  | chunk
  | initialization
  | required
  | budget
  deriving DecidableEq, Repr

def PublishFault.reason : PublishFault → String
  | .ended => "native output epoch ended"
  | .chunk => "invalid MP4 chunk"
  | .initialization => "invalid MP4 initialization"
  | .required => "MP4 initialization required"
  | .budget => "MP4 fragment exceeds ring budget"

/-- How `subscribe` raises: a `StreamClosedError` both times. -/
inductive SubscribeFault where
  | notReady
  | capacity
  deriving DecidableEq, Repr

def SubscribeFault.reason : SubscribeFault → String
  | .notReady => "native output is not ready"
  | .capacity => "native output reader capacity reached"

structure Subscription where
  sequence : Nat
  initializationPending : Bool := true
  error : Option StreamError := none
  registered : Bool := true
  deriving DecidableEq, Repr

structure Mp4Fanout where
  initialization : Option Mp4Chunk := none
  fragments : List (Nat × Mp4Chunk) := []
  subscriptions : List Subscription := []
  bytes : Int := 0
  sequence : Nat := 0
  closed : Bool := false
  deriving DecidableEq, Repr

namespace Mp4Fanout

def readerCount (hub : Mp4Fanout) : Nat := (hub.subscriptions.filter fun s => s.registered).length

/-- `_close`. -/
def close (hub : Mp4Fanout) : Mp4Fanout where
  initialization := none
  fragments := []
  subscriptions := hub.subscriptions.map fun s =>
    if s.registered then { s with error := some .closed, registered := false } else s
  bytes := 0
  sequence := hub.sequence
  closed := true

/-- The `while` loop of `publish`: the oldest fragments make room for `size`
bytes. -/
def evict (size : Nat) : List (Nat × Mp4Chunk) → Int → List (Nat × Mp4Chunk) × Int
  | [], bytes => ([], bytes)
  | removed :: rest, bytes =>
    if MAX_CHUNKS ≤ rest.length + 1 ∨ (MP4_MAX_BYTES : Int) < bytes + size then
      evict size rest (bytes - removed.2.data.length)
    else (removed :: rest, bytes)

/-- The loop over the readers: one that wants an older fragment than the first
is failed. -/
def failSlow (first : Nat) (s : Subscription) : Subscription :=
  if s.registered ∧ s.sequence < first then { s with error := some .slow, registered := false } else s

/-- A fragment that passed the checks. -/
def append (hub : Mp4Fanout) (chunk : Mp4Chunk) : Mp4Fanout :=
  let kept := evict chunk.data.length hub.fragments hub.bytes
  let fragments := kept.1 ++ [(hub.sequence, chunk)]
  let first := (fragments.head?.map Prod.fst).getD hub.sequence
  { hub with
    fragments := fragments
    subscriptions := hub.subscriptions.map (failSlow first)
    bytes := kept.2 + chunk.data.length
    sequence := hub.sequence + 1 }

/-- `publish`: what fails inside closes the hub. -/
def publish (hub : Mp4Fanout) (chunk : Mp4Chunk) : Except PublishFault Unit × Mp4Fanout :=
  if hub.closed then (.error .ended, hub)
  else if chunk.data = [] then (.error .chunk, hub.close)
  else if chunk.initialization then
    if hub.initialization.isSome ∨ MAX_INIT_BYTES < chunk.data.length then (.error .initialization, hub.close)
    else (.ok (), { hub with initialization := some chunk, bytes := chunk.data.length })
  else
    match hub.initialization with
    | none => (.error .required, hub.close)
    | some first =>
      if MP4_MAX_BYTES < chunk.data.length + first.data.length then (.error .budget, hub.close)
      else (.ok (), hub.append chunk)

/-- `subscribe`: the index of the new subscription. -/
def subscribe (hub : Mp4Fanout) : Except SubscribeFault Nat × Mp4Fanout :=
  match hub.closed, hub.fragments.getLast? with
  | false, some newest =>
    if MAX_READERS ≤ hub.readerCount then (.error .capacity, hub)
    else (.ok hub.subscriptions.length, { hub with subscriptions := hub.subscriptions ++ [⟨newest.1, true, none, true⟩] })
  | _, _ => (.error .notReady, hub)

/-- `reader._sequence - self._fragments[0][0]`. -/
def ringIndex (hub : Mp4Fanout) (s : Subscription) : Option Int :=
  hub.fragments.head?.map fun first => (s.sequence : Int) - first.1

/-- Python's `fragments[index]`: a negative index counts from the end. -/
def ringAt (fragments : List (Nat × Mp4Chunk)) (index : Int) : Option (Nat × Mp4Chunk) :=
  if 0 ≤ index then fragments[index.toNat]?
  else if 0 ≤ fragments.length + index then fragments[(fragments.length + index).toNat]? else none

/-- `_take`, on one subscription. -/
def take (hub : Mp4Fanout) (s : Subscription) : Except TakeFault (Option Mp4Chunk) × Subscription :=
  match s.error with
  | some e => (.error (.ended e), s)
  | none =>
    if s.registered = false ∨ hub.closed then (.error (.ended .closed), s)
    else if s.initializationPending then (.ok hub.initialization, { s with initializationPending := false })
    else
      match hub.ringIndex s with
      | none => (.error .index, s)
      | some index =>
        if (hub.fragments.length : Int) ≤ index then (.ok none, s)
        else
          match ringAt hub.fragments index with
          | none => (.error .index, s)
          | some fragment => (.ok (some fragment.2), { s with sequence := s.sequence + 1 })

end Mp4Fanout

/-- `Subscription.close`. -/
def Subscription.close (s : Subscription) : Subscription :=
  { s with error := some (s.error.getD .closed), registered := false }

end CamGuard.Delivery
