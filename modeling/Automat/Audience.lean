/-!
The subscribers of a machine. Each has an id that is never used again and a callback; callbacks
share a world `O` of their own, apart from that of actions and guards. A notification goes to the
subscribers registered when it begins, in order of registration. A callback may drop subscriptions
and may panic; neither keeps the others from being called.

Nothing happens when a callback itself is destroyed. In particular no callback owns the handle of a
subscription: it would be dropped from within `drop` or `clear`, where the subscribers are locked.
-/

namespace Automat

/-- One of the things that a callback does besides changing its world. -/
inductive Deed where
  /-- Drops the subscription with this id. -/
  | drop (id : Nat)
  /-- Panics, and does nothing more. The panic is caught and logged. -/
  | panic

/-- What a callback does besides changing its world, one thing after the other. -/
abbrev Reaction := List Deed

/-- The subscriptions that are dropped before the end or a panic. -/
def Reaction.dropped : Reaction → List Nat
  | [] => []
  | .drop id :: rest => id :: dropped rest
  | .panic :: _ => []

/-- A registered callback for messages of type `M`. -/
structure Subscriber (M O : Type) where
  id : Nat
  callback : M → O → O × Reaction

/-- The registered subscribers in order of registration, and the world of the callbacks. -/
structure Audience (M O : Type) where
  /-- The id of the next subscriber; a counter of 64 bits comes back to zero after `2 ^ 64` of them,
  this one does not. -/
  nextId : Nat
  subscribers : List (Subscriber M O)
  world : O

namespace Audience

variable {M O : Type}

def empty (world : O) : Audience M O := ⟨0, [], world⟩

def add (callback : M → O → O × Reaction) (audience : Audience M O) : Audience M O :=
  { audience with
    nextId := audience.nextId + 1
    subscribers := audience.subscribers ++ [⟨audience.nextId, callback⟩] }

def drop (ids : List Nat) (audience : Audience M O) : Audience M O :=
  { audience with subscribers := audience.subscribers.filter fun s => !ids.contains s.id }

/-- Calls one callback and drops the subscriptions that it drops. -/
def call (message : M) (audience : Audience M O) (subscriber : Subscriber M O) : Audience M O :=
  let (world, reaction) := subscriber.callback message audience.world
  { audience with world := world }.drop reaction.dropped

def notify (message : M) (audience : Audience M O) : Audience M O :=
  audience.subscribers.foldl (call message) audience

def clear (audience : Audience M O) : Audience M O := { audience with subscribers := [] }

def isActive (id : Nat) (audience : Audience M O) : Bool :=
  audience.subscribers.any fun s => s.id = id

def size (audience : Audience M O) : Nat := audience.subscribers.length

end Audience

end Automat
