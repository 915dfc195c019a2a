import HeadScout.Json.Token

/-!
# Documents from tokens

The tokens of a text are put together from left to right. What stands open is a list of contexts,
innermost first, so nesting may be as deep as the text goes.

## Main definitions

* `Json.Context` — an array or object begun and not yet closed
* `Json.Progress` — what has been read, and what may follow
* `Json.Progress.step` — one token further
* `Json.tokens` — a document written as tokens
* `Json.parse?` — the document that a text holds

## Main results

* `Json.assemble?_tokens` — the tokens of a document are put together to that document
-/

namespace HeadScout.Json

/-- An array or object that is begun, with what it holds so far in reverse; an object waits for
the value of the named member. -/
inductive Context where
  | items (read : List Json)
  /-- An object and the name of the member being read. -/
  | members (read : List (Option String × Json)) (name : Option String)

/-- How far the reading of a document has come. -/
inductive Progress where
  /-- A value must follow. -/
  | value (ctx : List Context)
  /-- An array has just begun: a value or its end must follow. -/
  | firstItem (ctx : List Context)
  /-- An item is complete: a comma or the end of its array must follow. -/
  | afterItem (read : List Json) (ctx : List Context)
  /-- An object has just begun: a name or its end must follow. -/
  | firstName (ctx : List Context)
  /-- A comma stands in an object: a name must follow. -/
  | nextName (read : List (Option String × Json)) (ctx : List Context)
  /-- A name is read: a colon must follow. -/
  | afterName (read : List (Option String × Json)) (name : Option String) (ctx : List Context)
  /-- A member is complete: a comma or the end of its object must follow. -/
  | afterMember (read : List (Option String × Json)) (ctx : List Context)
  /-- The document is complete: nothing may follow. -/
  | complete (v : Json)

/-- A complete value takes its place in the innermost context. -/
def Progress.deliver (v : Json) : List Context → Progress
  | [] => .complete v
  | .items read :: ctx => .afterItem (v :: read) ctx
  | .members read name :: ctx => .afterMember ((name, v) :: read) ctx

/-- The token begins a value, or is one. -/
def Progress.begin (ctx : List Context) : Token → Option Progress
  | .openArray => some (.firstItem ctx)
  | .openObject => some (.firstName ctx)
  | .string s => some (deliver (.string s) ctx)
  | .number n => some (deliver (.number n) ctx)
  | .bool b => some (deliver (.bool b) ctx)
  | .null => some (deliver .null ctx)
  | _ => none

/-- One token further, if the token may stand there. -/
def Progress.step : Progress → Token → Option Progress
  | .value ctx, t => begin ctx t
  | .firstItem ctx, .closeArray => some (deliver (.array []) ctx)
  | .firstItem ctx, t => begin (.items [] :: ctx) t
  | .afterItem read ctx, .comma => some (.value (.items read :: ctx))
  | .afterItem read ctx, .closeArray => some (deliver (.array read.reverse) ctx)
  | .firstName ctx, .closeObject => some (deliver (.object []) ctx)
  | .firstName ctx, .string s => some (.afterName [] s ctx)
  | .nextName read ctx, .string s => some (.afterName read s ctx)
  | .afterName read name ctx, .colon => some (.value (.members read name :: ctx))
  | .afterMember read ctx, .comma => some (.nextName read ctx)
  | .afterMember read ctx, .closeObject => some (deliver (.object read.reverse) ctx)
  | _, _ => none

/-- The document that the tokens form, if they form exactly one. -/
def assemble? (ts : List Token) : Option Json :=
  match ts.foldlM Progress.step (.value []) with
  | some (.complete v) => some v
  | _ => none

/-- The document that a text holds, if it holds exactly one. -/
def parse? (s : String) : Option Json := (lex s.toList).bind assemble?

/-! ### Documents as tokens -/

/-- The lists of tokens with a comma between each two. -/
def separate : List (List Token) → List Token
  | [] => []
  | [ts] => ts
  | ts :: rest => ts ++ .comma :: separate rest

mutual

/-- The tokens of a document. -/
def tokens : Json → List Token
  | .null => [.null]
  | .bool b => [.bool b]
  | .number n => [.number n]
  | .string s => [.string s]
  | .array items => .openArray :: separate (itemTokens items) ++ [.closeArray]
  | .object members => .openObject :: separate (memberTokens members) ++ [.closeObject]

/-- The tokens of each item. -/
def itemTokens : List Json → List (List Token)
  | [] => []
  | v :: vs => tokens v :: itemTokens vs

/-- The tokens of each member. -/
def memberTokens : List (Option String × Json) → List (List Token)
  | [] => []
  | (name, v) :: ms => (.string name :: .colon :: tokens v) :: memberTokens ms

end

/-! ### Reading what was written -/

@[simp] theorem Progress.deliver_items (v : Json) (read : List Json) (ctx : List Context) :
    deliver v (.items read :: ctx) = .afterItem (v :: read) ctx := rfl

@[simp] theorem Progress.deliver_members (v : Json) (read : List (Option String × Json))
    (name : Option String) (ctx : List Context) :
    deliver v (.members read name :: ctx) = .afterMember ((name, v) :: read) ctx := rfl

@[simp] theorem Progress.step_value (ctx : List Context) (t : Token) :
    step (.value ctx) t = begin ctx t := rfl

@[simp] theorem Progress.step_firstItem_close (ctx : List Context) :
    step (.firstItem ctx) .closeArray = some (deliver (.array []) ctx) := rfl

@[simp] theorem Progress.step_afterItem_comma (read : List Json) (ctx : List Context) :
    step (.afterItem read ctx) .comma = some (.value (.items read :: ctx)) := rfl

@[simp] theorem Progress.step_afterItem_close (read : List Json) (ctx : List Context) :
    step (.afterItem read ctx) .closeArray = some (deliver (.array read.reverse) ctx) := rfl

@[simp] theorem Progress.step_firstName_close (ctx : List Context) :
    step (.firstName ctx) .closeObject = some (deliver (.object []) ctx) := rfl

@[simp] theorem Progress.step_firstName_string (ctx : List Context) (s : Option String) :
    step (.firstName ctx) (.string s) = some (.afterName [] s ctx) := rfl

@[simp] theorem Progress.step_nextName_string (read : List (Option String × Json))
    (ctx : List Context) (s : Option String) :
    step (.nextName read ctx) (.string s) = some (.afterName read s ctx) := rfl

@[simp] theorem Progress.step_afterName_colon (read : List (Option String × Json))
    (name : Option String) (ctx : List Context) :
    step (.afterName read name ctx) .colon = some (.value (.members read name :: ctx)) := rfl

@[simp] theorem Progress.step_afterMember_comma (read : List (Option String × Json))
    (ctx : List Context) : step (.afterMember read ctx) .comma = some (.nextName read ctx) := rfl

@[simp] theorem Progress.step_afterMember_close (read : List (Option String × Json))
    (ctx : List Context) :
    step (.afterMember read ctx) .closeObject = some (deliver (.object read.reverse) ctx) := rfl

/-- No document begins with the end of an array, so a first item is read as any other value. -/
theorem foldlM_firstItem (v : Json) (ctx : List Context) (ts : List Token) :
    (tokens v ++ ts).foldlM Progress.step (.firstItem ctx) =
      (tokens v ++ ts).foldlM Progress.step (.value (.items [] :: ctx)) := by
  cases v <;> rfl

/-- A first member is read as any other one. -/
theorem foldlM_firstName (name : Option String) (ctx : List Context) (ts : List Token) :
    (.string name :: ts).foldlM Progress.step (.firstName ctx) =
      (.string name :: ts).foldlM Progress.step (.nextName [] ctx) := rfl

theorem separate_cons_append (ts : List Token) (rest : List (List Token)) :
    ∃ us, separate (ts :: rest) = ts ++ us := by
  cases rest with
  | nil => exact ⟨[], by simp [separate]⟩
  | cons u us => exact ⟨.comma :: separate (u :: us), rfl⟩

mutual

/-- Reading the tokens of a document delivers it to the context it stands in. -/
theorem foldlM_tokens (v : Json) (ctx : List Context) (ts : List Token) :
    (tokens v ++ ts).foldlM Progress.step (.value ctx) =
      ts.foldlM Progress.step (Progress.deliver v ctx) := by
  match v with
  | .null => rfl
  | .bool b => rfl
  | .number n => rfl
  | .string s => rfl
  | .array [] => rfl
  | .array (v :: vs) =>
    have h := foldlM_itemTokens v vs [] ctx ts
    obtain ⟨us, hu⟩ := separate_cons_append (tokens v) (itemTokens vs)
    rw [hu, List.append_assoc, List.append_assoc, ← foldlM_firstItem, ← List.append_assoc,
      ← List.append_assoc, ← hu] at h
    exact h
  | .object [] => rfl
  | .object ((name, v) :: ms) =>
    have h := foldlM_memberTokens name v ms [] ctx ts
    obtain ⟨us, hu⟩ :=
      separate_cons_append (.string name :: .colon :: tokens v) (memberTokens ms)
    rw [memberTokens, hu, List.append_assoc, List.append_assoc, List.cons_append,
      ← foldlM_firstName, ← List.cons_append, ← List.append_assoc, ← List.append_assoc, ← hu] at h
    exact h
termination_by sizeOf v
decreasing_by all_goals (simp; omega)

/-- Reading the remaining items of an array closes it with all its items. -/
theorem foldlM_itemTokens (v : Json) (vs read : List Json) (ctx : List Context)
    (ts : List Token) :
    (separate (tokens v :: itemTokens vs) ++ [Token.closeArray] ++ ts).foldlM Progress.step
        (.value (.items read :: ctx)) =
      ts.foldlM Progress.step (Progress.deliver (.array (read.reverse ++ v :: vs)) ctx) := by
  match vs with
  | [] =>
    rw [itemTokens, separate, List.append_assoc, foldlM_tokens]
    simp
  | w :: ws =>
    have h := foldlM_itemTokens w ws (v :: read) ctx ts
    rw [itemTokens, separate, List.append_assoc, List.append_assoc, foldlM_tokens]
    · simpa using h
    · simp
termination_by sizeOf v + sizeOf vs
decreasing_by all_goals (simp; try omega)

/-- Reading the remaining members of an object closes it with all its members. -/
theorem foldlM_memberTokens (name : Option String) (v : Json)
    (ms read : List (Option String × Json)) (ctx : List Context) (ts : List Token) :
    (separate (memberTokens ((name, v) :: ms)) ++ [Token.closeObject] ++ ts).foldlM Progress.step
        (.nextName read ctx) =
      ts.foldlM Progress.step
        (Progress.deliver (.object (read.reverse ++ (name, v) :: ms)) ctx) := by
  match ms with
  | [] =>
    have h := foldlM_tokens v (.members read name :: ctx) ([Token.closeObject] ++ ts)
    simpa [memberTokens, separate] using h
  | (n, w) :: ms =>
    have h := foldlM_memberTokens n w ms ((name, v) :: read) ctx ts
    have h' := foldlM_tokens v (.members read name :: ctx)
      (Token.comma :: separate (memberTokens ((n, w) :: ms)) ++ [Token.closeObject] ++ ts)
    simp only [memberTokens, separate] at h h' ⊢
    simp only [List.append_assoc, List.cons_append, List.foldlM_cons, Progress.step_nextName_string,
      Progress.step_afterName_colon, Option.bind_eq_bind, Option.bind_some] at h h' ⊢
    rw [h']
    simpa using h
termination_by sizeOf v + sizeOf ms
decreasing_by all_goals (simp; try omega)

end

/-- The tokens of a document are put together to that document. -/
@[simp] theorem assemble?_tokens (v : Json) : assemble? (tokens v) = some v := by
  have h := foldlM_tokens v [] []
  rw [List.append_nil] at h
  rw [assemble?, h]
  rfl

end HeadScout.Json
