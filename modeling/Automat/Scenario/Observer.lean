import Automat.Audience

/-!
Observers for scenarios: subscriptions held under names, whose callbacks keep what they are told,
and may drop subscriptions and panic at given calls.
-/

namespace Automat.Scenario

/-- What the callback of an observer does besides keeping the message; calls count from one. -/
structure Observer where
  name : String
  panicAt : List Nat := []
  dropAt : List (Nat × String) := []

/-- The subscriptions held by name, the number of calls by subscription, and what was seen, the
newest first. -/
structure Gallery (M : Type) where
  held : List (String × Nat)
  calls : List (Nat × Nat)
  seen : List (String × M)

namespace Gallery

variable {M : Type}

def empty : Gallery M := ⟨[], [], []⟩

def find? (name : String) (gallery : Gallery M) : Option Nat := gallery.held.lookup name

def forget (name : String) (gallery : Gallery M) : Gallery M :=
  { gallery with held := gallery.held.filter fun entry => entry.1 ≠ name }

def hold (name : String) (id : Nat) (gallery : Gallery M) : Gallery M :=
  let forgotten := gallery.forget name
  { forgotten with held := (name, id) :: forgotten.held }

def countCall (id : Nat) (gallery : Gallery M) : Nat × Gallery M :=
  let call := (gallery.calls.lookup id).getD 0 + 1
  (call, { gallery with calls := (id, call) :: gallery.calls.filter fun entry => entry.1 ≠ id })

/-- Gives up the subscriptions held under the names; the ids are those to drop. -/
def release (names : List String) (gallery : Gallery M) : List Nat × Gallery M :=
  match names with
  | [] => ([], gallery)
  | name :: names =>
    let (ids, rest) := (gallery.forget name).release names
    ((gallery.find? name).toList ++ ids, rest)

def takeSeen (gallery : Gallery M) : List (String × M) × Gallery M :=
  (gallery.seen.reverse, { gallery with seen := [] })

end Gallery

/-- The callback of an observer whose subscription has the given id. -/
def Observer.callback {M : Type} (observer : Observer) (id : Nat) (message : M)
    (gallery : Gallery M) : Gallery M × Reaction :=
  let (call, gallery) := gallery.countCall id
  let gallery := { gallery with seen := (observer.name, message) :: gallery.seen }
  let names := (observer.dropAt.filter fun entry => entry.1 = call).map (·.2)
  let (dropped, gallery) := gallery.release names
  (gallery, dropped.map .drop ++ if observer.panicAt.contains call then [.panic] else [])

end Automat.Scenario
