/-
The recorder with its maintenance thread and the calls that wait for it. A pass of the
thread looks whether the recorder is paused before it takes the lock; `stop` waits for the
thread, but not for ever, before it terminates the children under the lock, and asks
whether the thread has ended when the last segments are indexed. What comes in between is
a move of its own here.

There is one thread: two calls of `start` do not look for it at once. An iteration of the
thread, and its end, are moves that may be late by any time.
-/
import CamGuard.Recording.Recorder

namespace CamGuard.Recording

/-- Where the maintenance thread is. -/
inductive Maintenance where
  /-- There is none, or it has ended. -/
  | dead
  /-- It waits, or is about to look at `_stop`. -/
  | resting
  /-- In a pass, before it looks at `_paused`. -/
  | preparing
  /-- The recorder was not paused, and the lock is not taken yet. -/
  | entering
  /-- In a pass, behind the section. -/
  | leaving
  deriving DecidableEq, Repr

/-- Where a call of `stop` is. -/
inductive Stopping where
  /-- It waits for the thread, or for the lock. -/
  | joining
  /-- The exits of all children are confirmed. -/
  | indexing
  | returned
  | raised
  deriving DecidableEq, Repr

structure RecorderSystem where
  recorder : Recorder := {}
  /-- `_stop`. -/
  stopSet : Bool := false
  thread : Maintenance := .dead
  stops : List Stopping := []

inductive RecorderMove where
  | start (cameras : List Camera)
  /-- `start` behind the lock; `Thread.start` may raise. -/
  | engage (starts : Bool)
  | pause
  | resume
  | suspend (camera : String)
  | resumeIngress (camera : String)
  | isRecording (camera : String)
  | exit (pid : Nat)
  /-- A pass begins. -/
  | prepare
  /-- It looks at `_paused`. -/
  | look
  | supervise
  /-- It ends. -/
  | rest
  /-- The thread ends. -/
  | quit
  /-- A call of `stop`. -/
  | stop
  /-- Its section. -/
  | terminate (call : Nat)
  /-- `stop` behind its section; the indexing may raise. -/
  | conclude (call : Nat) (indexed : Bool)

namespace RecorderSystem

/-- The section under the lock that a move is. -/
def sectionOf (s : RecorderSystem) : RecorderMove → Option Recorder.RecorderOp
  | .start cameras => some (.start cameras)
  | .pause => some .pause
  | .resume => some .resume
  | .suspend camera => some (.suspend camera)
  | .resumeIngress camera => some (.resumeIngress camera)
  | .isRecording camera => some (.isRecording camera)
  | .exit pid => some (.exit pid)
  | .supervise => if s.thread = .entering then some .supervise else none
  | .terminate call => if s.stops[call]? = some .joining then some .stop else none
  | .engage _ | .prepare | .look | .rest | .quit | .stop | .conclude .. => none

/-- What a move does outside the lock; `ok` is whether its section returned. -/
def passOn (s : RecorderSystem) (ok : Bool) : RecorderMove → RecorderSystem
  | .engage starts =>
    if s.thread = .dead then
      { s with
        stopSet := false
        thread := if starts then .resting else .dead }
    else s
  | .prepare => if s.thread = .resting ∧ s.stopSet = false then { s with thread := .preparing } else s
  | .look =>
    if s.thread = .preparing then { s with thread := if s.recorder.paused then .leaving else .entering } else s
  | .supervise => if s.thread = .entering then { s with thread := .leaving } else s
  | .rest => if s.thread = .leaving then { s with thread := .resting } else s
  | .quit => if s.thread = .resting ∧ s.stopSet = true then { s with thread := .dead } else s
  | .stop =>
    { s with
      stopSet := true
      stops := s.stops ++ [.joining] }
  | .terminate call =>
    if s.stops[call]? = some .joining then { s with stops := s.stops.set call (if ok then .indexing else .raised) } else s
  | .conclude call indexed =>
    if s.stops[call]? = some .indexing then
      { s with stops := s.stops.set call (if indexed ∧ s.thread = .dead then .returned else .raised) }
    else s
  | .start _ | .pause | .resume | .suspend _ | .resumeIngress _ | .isRecording _ | .exit _ => s

/-- Whether the section of a move returned, and the system after the move. -/
def step (env : Env) (s : RecorderSystem) (move : RecorderMove) : Bool × RecorderSystem :=
  match s.sectionOf move with
  | none => (true, s.passOn true move)
  | some op =>
    let (ok, r) := s.recorder.step env op
    (ok, { s.passOn ok move with recorder := r })

/-- The moves, from a recorder that was never started. -/
def run (moves : List (Env × RecorderMove)) : RecorderSystem :=
  moves.foldl (fun s move => (s.step move.1 move.2).2) {}

end RecorderSystem

end CamGuard.Recording
