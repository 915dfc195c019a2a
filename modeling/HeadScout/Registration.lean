/-!
# Registrations

Who hears of head events: navigators, which look after every repository of an owner, and sources,
which look after one repository. Those that belong to another kind of provider are kept by the name
of their backend alone.

## Main definitions

* `Registration.Navigator`, `Registration.Source`
* `Registration.Source.navigator` — the navigator that looks after the source's owner
-/

namespace HeadScout.Registration

/-- A registered navigator. -/
inductive Navigator where
  /-- Every repository of an owner on the instance at an address. -/
  | bitbucket (serverUrl owner : String)
  /-- A navigator of another backend. -/
  | other (backend : String)
  deriving DecidableEq, Repr

/-- A registered source. -/
inductive Source where
  /-- One repository of an owner on the instance at an address. -/
  | bitbucket (serverUrl owner repository : String)
  /-- A source of another backend. -/
  | other (backend : String)
  deriving DecidableEq, Repr

/-- The navigator that looks after the source's owner on the same instance. -/
def Source.navigator : Source → Navigator
  | .bitbucket serverUrl owner _ => .bitbucket serverUrl owner
  | .other backend => .other backend

end HeadScout.Registration
