import HeadScout.Api
import HeadScout.Client.CloudPage
import HeadScout.Client.Network
import HeadScout.Client.ServerPage

/-!
# Reading pages

A listing is read page by page until the last one. On Cloud a page that names one already read as
the next is the last one; over a network that answers finitely many addresses this comes to an end.
On Server each page must start behind the one before it, and there are only so many numbers to start
at. If a page cannot be read, the listing fails and no further page is asked for.

## Main definitions

* `fetch` — one page
* `cloudValues`, `serverValues` — all entries of a listing
-/

namespace HeadScout

/-- How many entries a page is to have. -/
def pageSize : Nat := 100

/-- The address with one more part of a query. -/
def withQuery (url query : String) : String :=
  url ++ (if url.toList.contains '?' then "&" else "?") ++ query

/-- What a page is read as, given what came back on the request for it. -/
def Answer.decode {α : Type} (document : String) (read : Json → Option α) (url : String) :
    Answer → Except ApiError α
  | .silence reason => .error (.unreachable url reason)
  | .reply status body =>
    -- The body of a refusal is not looked at.
    if isSuccess status then (Payload.decode document read body).mapError (.undecodable url)
    else .error (.refused url status)

/-- One page: what comes back on the request for it, told and kept in the trace. -/
def fetch {α : Type} (ask : Request → Answer) (document : String) (read : Json → Option α)
    (r : Request) : Answering α :=
  ⟨(ask r).decode document read r.url, [.note .pageRequested, .request r (ask r)]⟩

theorem Answer.isPage_of_decode {α : Type} {document : String} {read : Json → Option α}
    {url : String} {a : Answer} {v : α} (h : a.decode document read url = .ok v) :
    a.isPage = true := by
  cases a with
  | silence reason => cases h
  | reply status body =>
    rw [decode] at h
    split at h
    · assumption
    · cases h

/-! ### Cloud -/

/-- Counting fewer of some entries, and one that is there not at all, counts less. -/
theorem countP_lt_countP {α : Type} {p q : α → Bool} {a : α} {l : List α}
    (h : ∀ x ∈ l, p x = true → q x = true) (ha : a ∈ l) (hq : q a = true) (hp : p a = false) :
    l.countP p < l.countP q := by
  induction l with
  | nil => cases ha
  | cons x xs ih =>
    have htail : ∀ y ∈ xs, p y = true → q y = true := fun y hy => h y (List.mem_cons_of_mem _ hy)
    rcases List.mem_cons.1 ha with rfl | ha
    · have := List.countP_mono_left htail
      simp only [List.countP_cons, hq, hp]
      simp
      omega
    · have hx := h x List.mem_cons_self
      have := ih htail ha
      simp only [List.countP_cons]
      cases hpx : p x
      · simp; omega
      · simp [hx hpx, this]

/-- The entries of a page of Cloud and of all pages behind it, none of which was read before. -/
def cloudPages {α : Type} (n : Network) (authorization : Option String) (document : String)
    (read : Json → Option α) (visited : List String) (url : String) (_fresh : url ∉ visited) :
    Answering (List α) :=
  let page := fetch n.ask document (CloudPage.ofJson? read) ⟨url, authorization⟩
  match _h : page.run.value with
  | .error e => ⟨.error e, page.run.steps⟩
  | .ok p =>
    match p.next with
    | none => ⟨.ok p.values, page.run.steps⟩
    | some next =>
      if fresh' : next ∈ url :: visited then
        ⟨.ok p.values, page.run.steps ++ [.note .pageRepeated]⟩
      else
        let rest := cloudPages n authorization document read (url :: visited) next fresh'
        ⟨rest.run.value.map (p.values ++ ·), page.run.steps ++ rest.run.steps⟩
termination_by n.urls.countP fun u => decide (u ∉ visited)
decreasing_by
  -- A page came back, so the address is one of the network's, and it is not counted any more.
  refine countP_lt_countP ?_ (Network.mem_urls_of_ask (Answer.isPage_of_decode _h)) ?_ ?_
  · intro u _ hu
    simp only [decide_eq_true_eq] at hu ⊢
    exact fun hv => hu (List.mem_cons_of_mem _ hv)
  · simpa using _fresh
  · simp

/-- The entries of a listing of Cloud. -/
def cloudValues {α : Type} (n : Network) (authorization : Option String) (document : String)
    (read : Json → Option α) (url : String) : Answering (List α) :=
  cloudPages n authorization document read []
    (withQuery url ("pagelen=" ++ Decimal.render pageSize)) List.not_mem_nil

/-! ### Server -/

/-- The address of the page that starts at an entry. -/
def serverPageUrl (url : String) (start : UInt64) : String :=
  withQuery url ("start=" ++ Decimal.render start.toNat ++ "&limit=" ++ Decimal.render pageSize)

/-- The entries of a listing of Server from some entry on. -/
def serverPages {α : Type} (ask : Request → Answer) (authorization : Option String)
    (document : String) (read : Json → Option α) (url : String) (start : UInt64) :
    Answering (List α) := do
  let p ← fetch ask document (ServerPage.ofJson? read) ⟨serverPageUrl url start, authorization⟩
  match p.nextStart? with
  | none => pure p.values
  | some next =>
    if _ : start < next then do
      let rest ← serverPages ask authorization document read url next
      pure (p.values ++ rest)
    else do
      Answering.note .pageStartStuck
      pure p.values
termination_by UInt64.size - start.toNat
decreasing_by
  -- The next page starts further on, and starts are bounded.
  have h₁ : start.toNat < next.toNat := UInt64.lt_iff_toNat_lt.1 ‹start < next›
  have h₂ := next.toNat_lt_size
  omega

/-- The entries of a listing of Server. -/
def serverValues {α : Type} (ask : Request → Answer) (authorization : Option String)
    (document : String) (read : Json → Option α) (url : String) : Answering (List α) :=
  serverPages ask authorization document read url 0

end HeadScout
