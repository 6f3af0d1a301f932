import Automat.Dispatcher

/-!
A dispatcher in virtual time. Time stands still while anybody has work to do, and otherwise jumps to
the next moment at which somebody wakes up; such moments lie on whole milliseconds, so a deadline
is met at the first millisecond that is not before it. Where a sleep of the caller and a deadline
end together, the caller goes on first.

Caller and dispatcher work in turns of bounded length. The caller's turn ends when it has to wait,
or with the first sleep after so many that did not make it wait; the dispatcher's turn ends when
there is nothing to do, or after as many commands and deadlines.
-/

namespace Automat.Dispatcher

def nanosPerMilli : Nat := 1000000

/-- The first whole millisecond that is not before a moment. -/
def tick (wait : Duration) : Nat := (wait.total + (nanosPerMilli - 1)) / nanosPerMilli

/-- The milliseconds of the longest sleep: thirty years of 365 days. -/
def longestSleep : Nat := 30 * 365 * 24 * 60 * 60 * 1000

/-- The length of a turn: the sleeps and replies that a caller sees the end of before the dispatcher
gets to work, and the commands and deadlines that a dispatcher meets before the caller goes on. -/
def turnLength : Nat := 128

/-- A dispatcher and its caller in virtual time. -/
structure Simulation (S K E C W O : Type) where
  dispatcher : Dispatcher S K E C W O
  /-- The milliseconds elapsed since the start of the dispatcher. -/
  elapsed : Nat := 0
  /-- What is left of the caller's turn. -/
  turnLeft : Nat := turnLength

namespace Simulation

variable {S K E C W O : Type}

def now (s : Simulation S K E C W O) : Duration := .clamp (s.elapsed * nanosPerMilli)

def wakeTick? (s : Simulation S K E C W O) : Option Nat :=
  if s.dispatcher.isClosed then none else s.dispatcher.wait?.map tick

variable [DecidableEq S] [DecidableEq K] [Named S] [Named K] [EventLike E K]

/-- Wakes the dispatcher if its deadline has been reached. -/
def wakeIfDue (m : Machine S K E C W) (fuel : Nat) (s : Simulation S K E C W O) :
    Option (Simulation S K E C W O) :=
  match s.wakeTick? with
  | some tick =>
    if tick ≤ s.elapsed then do
      some { s with dispatcher := (← s.dispatcher.wake m fuel s.now).await }
    else some s
  | none => some s

/-- The next thing that the dispatcher has to do at this moment: look into its queue if something is
there, else wake up if a deadline has been reached. -/
def step (m : Machine S K E C W) (fuel : Nat) (s : Simulation S K E C W O) :
    Option (Simulation S K E C W O) :=
  let d := s.dispatcher.await
  if d.canReceive then do
    some { s with dispatcher := (← d.receive m fuel s.now).await }
  else { s with dispatcher := d }.wakeIfDue m fuel

/-- Lets the dispatcher do so many things, or fewer if there are no more. -/
def work (m : Machine S K E C W) (fuel : Nat) :
    Nat → Simulation S K E C W O → Option (Simulation S K E C W O)
  | 0, s => some s
  | count + 1, s => do work m fuel count (← s.step m fuel)

/-- Lets the dispatcher work until it waits, while time stands still: it serves the queue, and then
ends or meets the deadline that the last command may have set to this moment. -/
def settle (m : Machine S K E C W) (fuel : Nat) (s : Simulation S K E C W O) :
    Option (Simulation S K E C W O) :=
  s.work m fuel (s.dispatcher.queue.length + 1)

/-- Lets time pass until the given millisecond, waking the dispatcher at every deadline before. -/
def passUntil (m : Machine S K E C W) (end_ : Nat) :
    Nat → Simulation S K E C W O → Option (Simulation S K E C W O)
  | 0, _ => none
  | fuel + 1, s =>
    match s.wakeTick? with
    | some tick =>
      if tick < end_ then do
        passUntil m end_ fuel (← { s with elapsed := max s.elapsed tick }.settle m fuel)
      else some { s with elapsed := end_ }
    | none => some { s with elapsed := end_ }

/-- Begins a turn of the caller with the end of that for which it waited. -/
def resume (s : Simulation S K E C W O) : Simulation S K E C W O :=
  { s with turnLeft := turnLength - 1 }

def awaitReplies (m : Machine S K E C W) (fuel : Nat) (s : Simulation S K E C W O) :
    Option (Simulation S K E C W O) := do
  some (← s.settle m fuel).resume

/-- A sleep of no length ends before the dispatcher gets to work, as long as the caller's turn
lasts; after that the dispatcher has a turn first. -/
def pause (m : Machine S K E C W) (fuel : Nat) (s : Simulation S K E C W O) :
    Option (Simulation S K E C W O) :=
  if s.turnLeft = 0 then do some (← s.work m fuel turnLength).resume
  else some { s with turnLeft := s.turnLeft - 1 }

/-- The caller sleeps, but never longer than the longest sleep. -/
def sleep (m : Machine S K E C W) (fuel : Nat) (ms : Nat) (s : Simulation S K E C W O) :
    Option (Simulation S K E C W O) :=
  if ms = 0 then s.pause m fuel
  else do
    let settled ← s.settle m fuel
    some (← settled.passUntil m (s.elapsed + min ms longestSleep) fuel).resume

/-- Posts a command; the answer is the number of the command, or none if nobody listens. -/
def post (command : Command K E) (s : Simulation S K E C W O) :
    Simulation S K E C W O × Option Nat :=
  if s.dispatcher.isClosed then (s, none)
  else ({ s with dispatcher := s.dispatcher.post command }, some s.dispatcher.posted)

def join (m : Machine S K E C W) (fuel : Nat) (s : Simulation S K E C W O) :
    Option (Simulation S K E C W O) :=
  { s with dispatcher := { s.dispatcher with handles := 0 } }.settle m fuel

end Simulation

end Automat.Dispatcher
