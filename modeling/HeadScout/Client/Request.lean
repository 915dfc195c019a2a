import HeadScout.Text.Base64
import HeadScout.Text.Blank
import HeadScout.Text.Quoted

/-!
# Requests

Every request asks for one page. It carries the credentials of the client, either a user's name and
password or an access token. A token that holds a control character cannot stand in a header, so a
request that should carry it cannot be sent.

## Main definitions

* `Credentials`, `Credentials.authorization` — how requests authenticate
* `Credentials.description` — how credentials are shown, without their secrets
* `Request` — a request for a page
* `Answer`, `Answer.isPage` — what comes back, and whether it is a page
-/

namespace HeadScout

/-- How requests authenticate. -/
inductive Credentials where
  /-- A user's name and password. -/
  | basic (username password : String)
  | bearer (token : String)
  deriving DecidableEq, Repr

namespace Credentials

/-- What stands for a secret. -/
def redacted : String := Text.quote "<redacted>"

/-- How the credentials are shown. -/
def description : Credentials → String
  | .basic username _ =>
    "Basic \x7b username: " ++ Text.quote username ++ ", password: " ++ redacted ++ " \x7d"
  | .bearer _ => "Bearer(" ++ redacted ++ ")"

/-- How credentials that may be absent are shown. -/
def optionalDescription : Option Credentials → String
  | none => "None"
  | some c => "Some(" ++ c.description ++ ")"

/-- The value of the header that carries the credentials. -/
def authorization : Credentials → String
  | .basic username password => "Basic " ++ Base64.encodeText (username ++ ":" ++ password)
  | .bearer token => "Bearer " ++ token

/-- Whether the character can stand in the value of a header. -/
def isHeaderChar (c : Char) : Bool := c == '\t' || (32 ≤ c.toNat && c.toNat != 127)

/-- Whether the value can stand in a header. -/
def isSendable (c : Credentials) : Bool := c.authorization.toList.all isHeaderChar

end Credentials

/-- A request for a page. -/
structure Request where
  url : String
  authorization : Option String
  deriving DecidableEq, Repr

/-- The verb of every request. -/
def Request.method : String := "GET"

/-- What comes back on a request. -/
inductive Answer where
  /-- A status, and a body with it. -/
  | reply (status : Nat) (body : String)
  /-- Nothing came back, or not all of it, for this reason. -/
  | silence (reason : String)
  deriving DecidableEq, Repr

namespace Answer

/-- Whether a status tells of success. -/
def isSuccess (status : Nat) : Bool := 200 ≤ status && status < 300

/-- Whether the answer holds the body of a page. -/
def isPage : Answer → Bool
  | .reply status _ => isSuccess status
  | .silence _ => false

theorem isSuccess_iff {status : Nat} : isSuccess status = true ↔ 200 ≤ status ∧ status < 300 := by
  simp [isSuccess]

end Answer

end HeadScout
