import HeadScout.Text.Decimal

/-!
# Failures

A document can fail in two ways: it is not of the expected form, or a part of it that must be there
is missing or empty. A listing can fail because no answer came, because the answer was a refusal,
or because its body could not be read.

## Main definitions

* `PayloadError` — a document that could not be turned into values
* `ApiError` — a listing that failed
-/

namespace HeadScout

/-- A document that could not be turned into values. -/
inductive PayloadError where
  /-- It is no JSON, or not of the expected form. -/
  | malformed (document : String)
  /-- A part of it that must be there is missing or empty. -/
  | missingField (document field : String)
  deriving DecidableEq, Repr

def PayloadError.message : PayloadError → String
  | .malformed document => "Malformed " ++ document ++ " payload"
  | .missingField document field =>
    "Invalid " ++ document ++ " payload: missing or empty " ++ field

/-- A listing that failed. -/
inductive ApiError where
  | unreachable (url reason : String)
  /-- The answer was a refusal. -/
  | refused (url : String) (status : Nat)
  /-- The body of the answer could not be read. -/
  | undecodable (url : String) (cause : PayloadError)
  deriving DecidableEq, Repr

def ApiError.message : ApiError → String
  | .unreachable url reason => "Bitbucket request to " ++ url ++ " failed: " ++ reason
  | .refused url status => "Bitbucket returned HTTP " ++ Decimal.render status ++ " for " ++ url
  | .undecodable url cause =>
    "Bitbucket response from " ++ url ++ " could not be decoded: " ++ cause.message

end HeadScout
