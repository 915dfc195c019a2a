import HeadScout.Change
import HeadScout.Notice
import HeadScout.Traced

/-!
# Groups of changes

The changes of a push by what happened to their refs. Groups come in the order in which their kind
first appears, and the changes of a group in the order of the push. A change whose tag has no
meaning belongs to no group and is put aside.

## Main definitions

* `ChangeGroups` — groups, and the changes put aside
* `ChangeGroups.ofChanges` — the groups of a list of changes
* `ChangeGroups.get` — the changes of one kind

## Main results

* `ChangeGroups.value_ofChanges` — the groups, built change by change
-/

namespace HeadScout

/-- Changes by what happened to their refs. -/
structure ChangeGroups where
  /-- The changes of each kind, by first appearance. -/
  groups : List (EventType × List Change)
  /-- The changes whose tag has no meaning. -/
  dropped : List Change
  deriving DecidableEq, Repr

namespace ChangeGroups

def empty : ChangeGroups := ⟨[], []⟩

/-- Whether no change belongs to a group. -/
def isEmpty (g : ChangeGroups) : Bool := g.groups.isEmpty

/-- The changes of a kind. -/
def get (g : ChangeGroups) (t : EventType) : List Change := (g.groups.lookup t).getD []

/-- The groups with one more change of a kind. -/
def insert (t : EventType) (c : Change) :
    List (EventType × List Change) → List (EventType × List Change)
  | [] => [(t, [c])]
  | (t', cs) :: rest => if t' = t then (t', cs ++ [c]) :: rest else (t', cs) :: insert t c rest

/-- The groups with one more change. -/
def add (g : ChangeGroups) (c : Change) : ChangeGroups :=
  match c.eventType? with
  | some t => { g with groups := insert t c g.groups }
  | none => { g with dropped := g.dropped ++ [c] }

/-- The groups of a list of changes. -/
def ofChanges (cs : List Change) : Traced Notice ChangeGroups :=
  ⟨cs.foldl add empty, (cs.filter (·.eventType?.isNone)).map fun _ => .changeDropped⟩

@[simp] theorem value_ofChanges (cs : List Change) : (ofChanges cs).value = cs.foldl add empty :=
  rfl

end ChangeGroups

end HeadScout
