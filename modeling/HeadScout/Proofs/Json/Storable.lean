import HeadScout.Json.Storable
import Mathlib.Data.List.Basic
import Mathlib.Order.Lattice

/-!
# What makes a document one that can be kept

Whether a document can be kept is decided on the way through it, with a count of the brackets that
are open. The count can be taken out: a document can be kept exactly if each of its atoms can,
whatever stands around the atom, and if its brackets do not nest too deep for the place it stands
in. Atoms are numbers, strings and the names of members.

## Main definitions

* `Json.Atom`, `Json.atoms` — the numbers, strings and names in a document
* `Json.nesting` — how deep the brackets of a document nest

## Main results

* `Json.isStorable_iff` — the documents that can be kept
-/

namespace HeadScout.Json

/-- A number, a string or the name of a member. -/
inductive Atom where
  | numeral (n : Numeral)
  /-- A string, or the name of a member. -/
  | string (s : Option String)
  deriving DecidableEq, Repr

/-- Whether the number is finite, or the string spells text. -/
def Atom.fits : Atom → Bool
  | .numeral n => n.isFinite
  | .string s => s.isSome

mutual

/-- The atoms of a document. -/
def atoms : Json → List Atom
  | .null => []
  | .bool _ => []
  | .number n => [.numeral n]
  | .string s => [.string s]
  | .array items => itemAtoms items
  | .object members => memberAtoms members

/-- The atoms of some items. -/
def itemAtoms : List Json → List Atom
  | [] => []
  | v :: vs => atoms v ++ itemAtoms vs

/-- The atoms of some members, their names included. -/
def memberAtoms : List (Option String × Json) → List Atom
  | [] => []
  | (name, v) :: ms => .string name :: atoms v ++ memberAtoms ms

end

mutual

/-- How deep the brackets of a document nest. -/
def nesting : Json → Nat
  | .null => 0
  | .bool _ => 0
  | .number _ => 0
  | .string _ => 0
  | .array items => itemNesting items + 1
  | .object members => memberNesting members + 1

/-- How deep the brackets of some items nest. -/
def itemNesting : List Json → Nat
  | [] => 0
  | v :: vs => max (nesting v) (itemNesting vs)

/-- How deep the brackets of some members nest. -/
def memberNesting : List (Option String × Json) → Nat
  | [] => 0
  | (_, v) :: ms => max (nesting v) (memberNesting ms)

end

/-- Brackets that nest `n` deep may stand behind `depth` open ones. Where there are none, it does
not matter how many are open. -/
def NestsWithin (depth n : Nat) : Prop := n = 0 ∨ depth + n < nestingLimit

theorem nestsWithin_zero (depth : Nat) : NestsWithin depth 0 := Or.inl rfl

theorem nestsWithin_succ_iff {depth n : Nat} :
    NestsWithin depth (n + 1) ↔ depth + 1 < nestingLimit ∧ NestsWithin (depth + 1) n := by
  unfold NestsWithin
  omega

theorem nestsWithin_max_iff {depth n m : Nat} :
    NestsWithin depth (max n m) ↔ NestsWithin depth n ∧ NestsWithin depth m := by
  unfold NestsWithin
  omega

/-- Two parts can be kept together exactly if each of them can be kept. -/
theorem fits_append_and_nestsWithin_max_iff {as bs : List Atom} {depth n m : Nat} :
    ((∀ a ∈ as ++ bs, a.fits = true) ∧ NestsWithin depth (max n m)) ↔
      ((∀ a ∈ as, a.fits = true) ∧ NestsWithin depth n) ∧
        (∀ a ∈ bs, a.fits = true) ∧ NestsWithin depth m := by
  rw [List.forall_mem_append, nestsWithin_max_iff]
  exact and_and_and_comm

mutual

/-- A document can be kept exactly if all its atoms can and its brackets do not nest too deep. -/
theorem isStorable_iff : ∀ (v : Json) (depth : Nat),
    v.isStorable depth = true ↔ (∀ a ∈ v.atoms, a.fits = true) ∧ NestsWithin depth v.nesting
  | .null, depth => by simp [isStorable, atoms, nesting, nestsWithin_zero]
  | .bool _, depth => by simp [isStorable, atoms, nesting, nestsWithin_zero]
  | .number n, depth => by simp [isStorable, atoms, nesting, nestsWithin_zero, Atom.fits]
  | .string s, depth => by simp [isStorable, atoms, nesting, nestsWithin_zero, Atom.fits]
  -- The bracket of an array stands around all its items, so they are one level deeper.
  | .array items, depth => by
    have ih := areStorable_iff items (depth + 1)
    rw [isStorable, Bool.and_eq_true, decide_eq_true_iff, ih, atoms, nesting, nestsWithin_succ_iff]
    exact and_left_comm
  | .object members, depth => by
    have ih := membersStorable_iff members (depth + 1)
    rw [isStorable, Bool.and_eq_true, decide_eq_true_iff, ih, atoms, nesting, nestsWithin_succ_iff]
    exact and_left_comm

theorem areStorable_iff : ∀ (vs : List Json) (depth : Nat),
    areStorable depth vs = true ↔
      (∀ a ∈ itemAtoms vs, a.fits = true) ∧ NestsWithin depth (itemNesting vs)
  | [], depth => by simp [areStorable, itemAtoms, itemNesting, nestsWithin_zero]
  | v :: vs, depth => by
    rw [areStorable, Bool.and_eq_true, isStorable_iff v depth, areStorable_iff vs depth, itemAtoms,
      itemNesting, fits_append_and_nestsWithin_max_iff]

theorem membersStorable_iff : ∀ (ms : List (Option String × Json)) (depth : Nat),
    membersStorable depth ms = true ↔
      (∀ a ∈ memberAtoms ms, a.fits = true) ∧ NestsWithin depth (memberNesting ms)
  | [], depth => by simp [membersStorable, memberAtoms, memberNesting, nestsWithin_zero]
  | (name, v) :: ms, depth => by
    rw [membersStorable, Bool.and_assoc, Bool.and_eq_true, Bool.and_eq_true, isStorable_iff v depth,
      membersStorable_iff ms depth, memberAtoms, memberNesting, List.cons_append,
      List.forall_mem_cons, and_assoc (a := (Atom.string name).fits = true),
      fits_append_and_nestsWithin_max_iff]
    rfl

end

end HeadScout.Json
