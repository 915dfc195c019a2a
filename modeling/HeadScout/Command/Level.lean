import HeadScout.Text.Ascii

/-!
# Options of a command line

A command line is read level by level: the options of the program itself, and those of the command
it is given. At each level an option is written by its name, with its value behind an equals sign or
as the next argument; an argument that looks like an option is never a value. An option may be given
once, unless it collects values. What is not given can be set by a variable of the environment.

## Main definitions

* `CommandOption` — an option
* `Level.read` — the options given at a level, and the command that follows
* `Level.value?` — the value of an option, given or set
-/

namespace HeadScout

/-- What an option takes. -/
inductive CommandOption.Form where
  | flag
  /-- No value; whatever comes behind it, the version is shown. -/
  | version
  | single
  /-- A value each time it is given. -/
  | collected
  deriving DecidableEq, Repr

/-- An option. -/
structure CommandOption where
  /-- Its name, written behind two hyphens. -/
  name : String
  /-- Its letter, written behind one hyphen. -/
  letter : Option Char
  form : CommandOption.Form
  /-- The variable that sets it where it is not given. -/
  variableName : Option String
  deriving DecidableEq, Repr

/-- Why a command line leads to no command. -/
inductive CommandStop where
  /-- The version was asked for. -/
  | version
  /-- The command line is not well formed. -/
  | misuse
  deriving DecidableEq, Repr

/-- The options that are given at a level, by name, with their values. -/
abbrev Given := List (String × String)

namespace Level

/-- Whether an argument looks like an option; a lone hyphen does not. -/
def looksLikeOption (arg : String) : Bool := Text.hasPrefix "-" arg && arg != "-"

/-- One more option with its value. -/
def add (given : Given) (o : CommandOption) (value : String) : Except CommandStop Given :=
  match o.form with
  | .version => .error .version
  | .collected => .ok (given ++ [(o.name, value)])
  | .flag | .single =>
    if given.any (·.1 == o.name) then .error .misuse else .ok (given ++ [(o.name, value)])

/-- Whether the option takes a value. -/
def takesValue (o : CommandOption) : Bool := o.form == .single || o.form == .collected

/-- The options that are given by their letters behind one hyphen. -/
def addLetters (options : List CommandOption) (given : Given) :
    List Char → Except CommandStop Given
  | [] => .ok given
  | c :: cs =>
    match options.find? (·.letter == some c) with
    | some o => do addLetters options (← add given o "") cs
    | none => .error .misuse

/-- The options given at a level, and the command that follows with its arguments. -/
def read (options : List CommandOption) (commands : List String) (given : Given) :
    List String → Except CommandStop (Given × Option (String × List String))
  | [] => .ok (given, none)
  -- Behind two hyphens every argument is a value, and no command takes one on its own.
  | "--" :: rest => if rest.isEmpty then .ok (given, none) else .error .misuse
  | arg :: rest =>
    match Text.stripPrefix? "--" arg with
    | some written =>
      let (name, attached) :=
        match Text.splitFirst? '=' written with
        | some (n, v) => (n, some v)
        | none => (written, none)
      match options.find? (·.name == name), attached with
      | none, _ => .error .misuse
      | some o, some value =>
        if takesValue o then do read options commands (← add given o value) rest
        else .error .misuse
      | some o, none =>
        if takesValue o then
          match rest with
          | [] => .error .misuse
          | value :: rest' =>
            if looksLikeOption value then .error .misuse
            else do read options commands (← add given o value) rest'
        else do read options commands (← add given o "") rest
    | none =>
      if looksLikeOption arg then do
        read options commands (← addLetters options given (arg.toList.drop 1)) rest
      else if arg ∈ commands then .ok (given, some (arg, rest))
      else .error .misuse

/-! ### Values -/

/-- Where a value comes from. -/
inductive Origin where
  | environment
  | commandLine
  deriving DecidableEq, Repr

/-- The values of a level: what is given there, and the environment. -/
structure Values where
  options : List CommandOption
  given : Given
  environment : String → Option String

/-- The value of an option that takes one, and where it comes from. -/
def Values.sourced? (l : Values) (name : String) : Option (Origin × String) :=
  match l.given.lookup name with
  | some v => some (.commandLine, v)
  | none =>
    ((l.options.find? (·.name == name)).bind (·.variableName)).bind fun variableName =>
      (l.environment variableName).map fun v => (.environment, v)

/-- The value of an option that takes one. -/
def Values.value? (l : Values) (name : String) : Option String := (l.sourced? name).map (·.2)

/-- Whether an option is given, or set by the environment. -/
def Values.has (l : Values) (name : String) : Bool := (l.sourced? name).isSome

/-- Every value that is given for an option. -/
def Values.all (l : Values) (name : String) : List String :=
  (l.given.filter (·.1 == name)).map (·.2)

/-- The value of an option that can be given at two levels: that of the inner one, unless only the
outer one comes from the command line. -/
def inherited? (outer inner : Values) (name : String) : Option String :=
  match outer.sourced? name, inner.sourced? name with
  | some (.commandLine, v), some (.environment, _) => some v
  | _, some (_, v) => some v
  | some (_, v), none => some v
  | none, none => none

end Level

end HeadScout
