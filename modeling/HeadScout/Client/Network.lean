import HeadScout.Client.Request

/-!
# Networks

A network answers requests for finitely many addresses, and fails on all others in one way. Nothing
else is assumed of it: it may answer with any status and any body at all.

## Main definitions

* `Network` — the addresses that are answered
* `Network.ask` — the answer to a request
* `Network.offline` — the network that answers nothing

## Main results

* `Network.mem_urls_of_ask` — only an address of the network brings a page
-/

namespace HeadScout

/-- The addresses that are answered. -/
structure Network where
  /-- Addresses and answers; of two answers for an address the first one counts. -/
  routes : List (String × Answer)
  /-- What comes of a request for any other address. -/
  elsewhere : Answer
  isPage_elsewhere : elsewhere.isPage = false := by rfl
  deriving DecidableEq, Repr

namespace Network

/-- The addresses that are answered. -/
def urls (n : Network) : List String := n.routes.map (·.1)

/-- The answer for an address. -/
def answer (n : Network) (url : String) : Answer := (n.routes.lookup url).getD n.elsewhere

/-- The answer to a request. -/
def ask (n : Network) (r : Request) : Answer := n.answer r.url

/-- The network that answers nothing. -/
def offline : Network where
  routes := []
  elsewhere := .silence "no connection"

theorem mem_map_fst_of_lookup {routes : List (String × Answer)} {url : String} {a : Answer}
    (h : routes.lookup url = some a) : url ∈ routes.map (·.1) := by
  induction routes with
  | nil => simp at h
  | cons r rs ih =>
    obtain ⟨u, b⟩ := r
    by_cases hu : url = u
    · simp [hu]
    · rw [List.lookup_cons, beq_eq_false_iff_ne.2 hu] at h
      exact List.mem_cons_of_mem _ (ih h)

/-- Only an address of the network brings a page. -/
theorem mem_urls_of_ask {n : Network} {r : Request} (h : (n.ask r).isPage = true) :
    r.url ∈ n.urls := by
  unfold ask answer at h
  cases hl : n.routes.lookup r.url with
  | none => simp [hl, n.isPage_elsewhere] at h
  | some a => exact mem_map_fst_of_lookup hl

end Network

end HeadScout
