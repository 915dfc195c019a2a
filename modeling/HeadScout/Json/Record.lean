import HeadScout.Json.Storable

/-!
# Reading values from documents

A record is written as an object, or as an array of its fields in their order. Members that the
record does not have are passed over; a member it has may not be given twice, unless the document
was kept as a generic value first, where the last one stays. In an array only fields with a default
may be missing, at the end.

A variant of an enumeration is written by its name, or as an object that maps the name to `null`. A
tagged record names its variant in one of its members, or in the first item of its array; its other
members are kept before they are read.

## Main definitions

* `Field`, `Json.members?` — the fields of a record and what a document holds for them
* `Members.required`, `Members.optional`, `Members.withDefault` — one field
* `Json.text?`, `Json.bool?`, `Json.natural?`, `Json.list?`, `Json.variant?` — the leaves
* `Json.tagged?` — the tag of a tagged record and the rest of it
-/

namespace HeadScout

/-- A field of a record. -/
structure Json.Field where
  name : String
  /-- Whether an array may end before it. -/
  hasDefault : Bool := false
  deriving DecidableEq, Repr

/-- What happens to a member that is given twice. -/
inductive Json.Repeats where
  | refused
  | lastStays
  deriving DecidableEq, Repr

/-- What a document holds for the fields of a record. -/
abbrev Json.Members := List (String × Json)

namespace Json

/-! ### Leaves -/

/-- The text of a string. -/
def text? : Json → Option String
  | .string s => s
  | _ => none

/-- The truth value. -/
def bool? : Json → Option Bool
  | .bool b => some b
  | _ => none

/-- A natural number below `bound`, written without sign, point and exponent. -/
def natural? (bound : Nat) : Json → Option Nat
  | .number n => n.natural?.filter (· < bound)
  | _ => none

/-- The items of an array, each read by `read`. -/
def list? {α : Type} (read : Json → Option α) : Json → Option (List α)
  | .array items => items.mapM read
  | _ => none

/-- The name of a variant without content. -/
def variant? : Json → Option String
  | .string s => s
  | .object [(some name, .null)] => some name
  | _ => none

/-- The name of a variant without content, in a value that was kept before it is read; an empty
object then counts as no content. -/
def keptVariant? : Json → Option String
  | .object [(some name, .object [])] => some name
  | v => variant? v

/-! ### Records -/

/-- The members of an object that are fields of the record. -/
def known (fields : List Field) (ms : List (Option String × Json)) : Members :=
  ms.filterMap fun (name, v) => name.bind fun n =>
    if fields.any (·.name == n) then some (n, v) else none

/-- What a document holds for the fields of a record, or nothing if it is no such record. -/
def members? (fields : List Field) (repeats : Repeats) : Json → Option Members
  | .object ms =>
    let found := known fields ms
    -- The name of every member is read, also of one that is passed over.
    if ms.all (·.1.isSome) && (repeats == .lastStays || (found.map (·.1)).Nodup) then some found
    else none
  | .array items =>
    if items.length ≤ fields.length && (fields.drop items.length).all (·.hasDefault) then
      some ((fields.map (·.name)).zip items)
    else none
  | _ => none

/-- The value of a field; of several the last one. -/
def Members.get? (ms : Members) (name : String) : Option Json :=
  (ms.reverse.find? (·.1 == name)).map (·.2)

variable {α : Type}

/-- A field that must be given. -/
def Members.required (ms : Members) (name : String) (read : Json → Option α) : Option α :=
  (ms.get? name).bind read

/-- A field that may be missing or `null`. -/
def Members.optional (ms : Members) (name : String) (read : Json → Option α) :
    Option (Option α) :=
  match ms.get? name with
  | none => some none
  | some .null => some none
  | some v => (read v).map some

/-- A field that has a value when it is missing, but is not `null`. -/
def Members.withDefault (ms : Members) (name : String) (default : α) (read : Json → Option α) :
    Option α :=
  match ms.get? name with
  | none => some default
  | some v => read v

/-! ### Tagged records -/

/-- The tag of a tagged record and the record without it, where `depth` brackets stand around it. -/
def tagged? (tag : String) (depth : Nat) : Json → Option (String × Json)
  | .object ms =>
    match ms.partition (·.1 == some tag) with
    -- The tag may stand anywhere among the members, but only once.
    | ([(_, .string (some kind))], rest) =>
      if membersStorable (depth + 1) rest then some (kind, .object rest) else none
    | _ => none
  | .array (.string (some kind) :: rest) =>
    if areStorable (depth + 1) rest then some (kind, .array rest) else none
  | _ => none

end Json

end HeadScout
