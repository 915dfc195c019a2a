import HeadScout.Client.Request
import HeadScout.Failure
import HeadScout.Notice
import HeadScout.PullRequest
import HeadScout.Traced

/-!
# Listings

What is asked of an instance: the repositories of an owner, and the branches, tags and open pull
requests of a repository. A listing is complete or fails. Whoever answers listings leaves a trace of
notices and requests, but asks for no listing; that a listing was asked for is put into the trace by
whoever asks.

## Main definitions

* `Listing`, `Listing.Answer` — what can be listed
* `Exchange`, `Answering` — what happens while a listing is answered, and what it comes to
* `Step`, `Attempt` — the same where listings are asked for
* `Api` — who answers listings
* `Api.list` — a listing

## Main results

* `Api.value_list`, `Api.listings_list` — a listing is what is answered, and asks for itself alone
-/

namespace HeadScout

/-- What can be listed. -/
inductive Listing where
  | repositories (owner : OwnerName)
  | branches (owner : OwnerName) (repository : RepositoryName)
  | tags (owner : OwnerName) (repository : RepositoryName)
  /-- The open pull requests into a repository. -/
  | pullRequests (owner : OwnerName) (repository : RepositoryName)
  deriving DecidableEq, Repr

namespace Listing

/-- What a listing lists. -/
abbrev Answer : Listing → Type
  | .repositories _ => List Repository
  | .branches .. => List GitRef
  | .tags .. => List GitRef
  | .pullRequests .. => List PullRequest

/-- Whether pull requests are listed. -/
def isPullRequests : Listing → Bool
  | .pullRequests .. => true
  | _ => false

end Listing

/-- What happens while a listing is answered. -/
inductive Exchange where
  | note (notice : Notice)
  /-- A request is made, and this comes back. -/
  | request (request : Request) (answer : Answer)
  deriving DecidableEq, Repr

/-- What listings come to, as far as whoever answers them is concerned. -/
abbrev Answering := ExceptT ApiError (Traced Exchange)

/-- Something is told while a listing is answered. -/
def Answering.note (n : Notice) : Answering Unit := liftM (Traced.record (Exchange.note n))

/-- What happens where listings are asked for. -/
inductive Step where
  | note (notice : Notice)
  | list (listing : Listing)
  /-- A request is made, and this comes back. -/
  | request (request : Request) (answer : Answer)
  deriving DecidableEq, Repr

namespace Step

/-- What happens while a listing is answered, seen by whoever asked for it. -/
def ofExchange : Exchange → Step
  | .note n => .note n
  | .request r a => .request r a

/-- What was told. -/
def notices (steps : List Step) : List Notice :=
  steps.filterMap fun
    | .note n => some n
    | _ => none

/-- What was asked for. -/
def listings (steps : List Step) : List Listing :=
  steps.filterMap fun
    | .list q => some q
    | _ => none

/-- The requests, with what came back. -/
def requests (steps : List Step) : List (Request × HeadScout.Answer) :=
  steps.filterMap fun
    | .request r a => some (r, a)
    | _ => none

theorem listings_append (steps steps' : List Step) :
    listings (steps ++ steps') = listings steps ++ listings steps' :=
  List.filterMap_append

@[simp] theorem listings_map_ofExchange (es : List Exchange) :
    listings (es.map ofExchange) = [] := by
  induction es with
  | nil => rfl
  | cons e es ih => cases e <;> exact ih

@[simp] theorem listings_map_note (ns : List Notice) : listings (ns.map Step.note) = [] := by
  induction ns with
  | nil => rfl
  | cons n ns ih => exact ih

end Step

/-- What listings come to, and what happens on the way. -/
abbrev Attempt := ExceptT ApiError (Traced Step)

/-- Who answers listings. -/
structure Api where
  answer : (q : Listing) → Answering q.Answer

namespace Api

/-- A listing, asked for on the way. -/
def list (api : Api) (q : Listing) : Attempt q.Answer := do
  liftM (Traced.record (Step.list q))
  ExceptT.mk ((api.answer q).run.mapSteps Step.ofExchange)

@[simp] theorem value_list (api : Api) (q : Listing) :
    (api.list q).run.value = (api.answer q).run.value := rfl

@[simp] theorem listings_list (api : Api) (q : Listing) :
    Step.listings (api.list q).run.steps = [q] := by
  have hs : (api.list q).run.steps = .list q :: (api.answer q).run.steps.map Step.ofExchange := rfl
  rw [hs, Step.listings, List.filterMap_cons]
  exact congrArg (q :: ·) (Step.listings_map_ofExchange _)

end Api

end HeadScout
