import HeadScout.Proofs.Client.Listing
import Mathlib.Data.List.Chain

/-!
# Where credentials go

Every request of a client carries its credentials, so it matters whom the requests reach. The address
of a listing stands under the address of the client, and so does every page of Server, whose address
is made from that of the listing. A page of Cloud names the address of the next one in full, and the
client goes there. It is the word of whoever answered last: as long as the pages under the address of
the client name only addresses under it, no request leaves it.

## Main definitions

* `Exchange.requests` — the requests that are made
* `Answer.next?` — the address of the next page that an answer names
* `Client.Owns` — the addresses under the address of a client
* `Client.StaysUnder` — a network that sends no client away

## Main results

* `isChain_requests_cloudPages` — on Cloud each request but the first goes where the page before
  says
* `Client.requests_confined` — where the requests of a listing may go, and what they carry
-/

namespace HeadScout

/-! ### Requests -/

/-- The requests that are made, with what comes back. -/
def Exchange.requests (es : List Exchange) : List (Request × Answer) :=
  es.filterMap fun
    | .request r a => some (r, a)
    | .note _ => none

namespace Exchange

theorem requests_append (es es' : List Exchange) :
    requests (es ++ es') = requests es ++ requests es' :=
  List.filterMap_append

theorem urls_eq_map_requests (es : List Exchange) :
    urls es = (requests es).map fun x => x.1.url := by
  induction es with
  | nil => rfl
  | cons e es ih =>
    cases e with
    | note notice => exact ih
    | request r a => exact congrArg (r.url :: ·) ih

end Exchange

/-- The address of the next page that an answer names, if it is a page of Cloud. -/
def Answer.next? : Answer → Option String
  | .silence _ => none
  | .reply status body =>
    if isSuccess status then
      (Json.parse? body).bind fun v => (CloudPage.ofJson? some v).bind (·.next)
    else none

variable {α : Type}

/-- Which page is the next one does not depend on what the entries are read as. -/
theorem CloudPage.exists_ofJson?_some {read : Json → Option α} {v : Json} {p : CloudPage α}
    (h : CloudPage.ofJson? read v = some p) :
    ∃ vs, CloudPage.ofJson? some v = some ⟨vs, p.next⟩ := by
  obtain ⟨vs, hvs, -⟩ := CloudPage.ofJson?_eq_some_iff.mp h
  refine ⟨vs, CloudPage.ofJson?_eq_some_iff.mpr ⟨vs, hvs, ?_⟩⟩
  exact List.forall₂_same.mpr fun _ _ => rfl

theorem Answer.next?_of_decode {a : Answer} {document url : String} {read : Json → Option α}
    {p : CloudPage α} (h : a.decode document (CloudPage.ofJson? read) url = .ok p) :
    a.next? = p.next := by
  cases a with
  | silence reason => cases h
  | reply status body =>
    obtain ⟨hstatus, v, hbody, hread⟩ := Answer.decode_reply_eq_ok_iff.mp h
    obtain ⟨vs, hvs⟩ := CloudPage.exists_ofJson?_some hread
    rw [Answer.next?, if_pos (isSuccess_iff.mpr hstatus), hbody, Option.bind_some, hvs,
      Option.bind_some]

/-! ### Cloud -/

section Cloud

variable (n : Network) (authorization : Option String) (document : String) (read : Json → Option α)

/-- The requests for a page of Cloud and for the pages behind it: the first one asks for the page,
and each other one goes where the page before says. All carry the same credentials. -/
theorem isChain_requests_cloudPages (visited : List String) (url : String) (hfresh : url ∉ visited) :
    ∃ behind,
      Exchange.requests (cloudPages n authorization document read visited url hfresh).run.steps =
          (⟨url, authorization⟩, n.answer url) :: behind ∧
        ((⟨url, authorization⟩, n.answer url) :: behind).IsChain
          (fun x y => x.2.next? = some y.1.url) ∧
        ∀ x ∈ behind, x.1.authorization = authorization ∧ x.2 = n.ask x.1 := by
  fun_induction cloudPages n authorization document read visited url hfresh with
  | case1 visited url hfresh page e hvalue =>
    exact ⟨[], rfl, List.isChain_singleton _, List.forall_mem_nil _⟩
  | case2 visited url hfresh page p hvalue hnext =>
    exact ⟨[], rfl, List.isChain_singleton _, List.forall_mem_nil _⟩
  | case3 visited url hfresh page p hvalue next hnext hback =>
    exact ⟨[], rfl, List.isChain_singleton _, List.forall_mem_nil _⟩
  | case4 visited url hfresh page p hvalue next hnext hgo rest ih =>
    obtain ⟨behind, hrest, hchain, hbehind⟩ := ih
    have hlink : (n.answer url).next? = some next := (Answer.next?_of_decode hvalue).trans hnext
    refine ⟨(⟨next, authorization⟩, n.answer next) :: behind, ?_, ?_, ?_⟩
    · rw [ExceptT.run, Exchange.requests_append, hrest]
      rfl
    · exact List.isChain_cons_cons.mpr ⟨hlink, hchain⟩
    · exact List.forall_mem_cons.mpr ⟨⟨rfl, rfl⟩, hbehind⟩

end Cloud

/-! ### Server -/

section Server

variable (ask : Request → Answer) (authorization : Option String) (document : String)
  (read : Json → Option α) (url : String)

/-- The requests for pages of Server ask for pages of the listing, with the same credentials. -/
theorem requests_serverPages (start : UInt64) :
    ∀ x ∈ Exchange.requests (serverPages ask authorization document read url start).run.steps,
      (∃ start', x.1 = ⟨serverPageUrl url start', authorization⟩) ∧ x.2 = ask x.1 := by
  induction start using serverPages.induct with
  | case1 start ih =>
    let page := fetch ask document (ServerPage.ofJson? read)
      ⟨serverPageUrl url start, authorization⟩
    have hpage : ∀ x ∈ Exchange.requests page.run.steps,
        (∃ start', x.1 = ⟨serverPageUrl url start', authorization⟩) ∧ x.2 = ask x.1 :=
      List.forall_mem_singleton.mpr ⟨⟨start, rfl⟩, rfl⟩
    rw [serverPages]
    cases hvalue : page.run.value with
    | error e =>
      rw [Traced.run_bind_of_error hvalue]
      exact hpage
    | ok p =>
      rw [Traced.run_bind_of_ok hvalue]
      cases hnext : p.nextStart? with
      | none => exact hpage
      | some next =>
        by_cases hlt : start < next
        · simp only [dif_pos hlt, Traced.run_bind_pure]
          rw [Exchange.requests_append]
          exact List.forall_mem_append.mpr ⟨hpage, ih next hlt⟩
        · simp only [dif_neg hlt]
          exact hpage

end Server

/-! ### Addresses of a client -/

namespace Client

/-- The addresses under the address of a client. -/
def Owns (c : Client) (url : String) : Prop := ∃ path, url = c.baseUrl ++ "/" ++ path

section Owns

variable {c : Client} {url : String}

theorem Owns.append (h : c.Owns url) (s : String) : c.Owns (url ++ s) := by
  obtain ⟨path, rfl⟩ := h
  exact ⟨path ++ s, String.append_assoc⟩

theorem Owns.withQuery (h : c.Owns url) (query : String) : c.Owns (withQuery url query) :=
  (h.append _).append query

variable (c)

theorem owns_repositoriesUrl (owner : OwnerName) : c.Owns (c.repositoriesUrl owner) := by
  unfold repositoriesUrl
  cases c.product with
  | cloud => exact Owns.append ⟨"2.0/repositories/", by rw [String.append_assoc]; rfl⟩ _
  | server =>
    exact Owns.append (Owns.append ⟨"rest/api/1.0/projects/", by rw [String.append_assoc]; rfl⟩ _) _

theorem owns_repositoryUrl (owner : OwnerName) (repository : RepositoryName) :
    c.Owns (c.repositoryUrl owner repository) :=
  ((c.owns_repositoriesUrl owner).append "/").append _

theorem owns_refsUrl (kind : RefKind) (owner : OwnerName) (repository : RepositoryName) :
    c.Owns (c.refsUrl kind owner repository) :=
  (c.owns_repositoryUrl owner repository).append _

theorem owns_pullRequestsUrl (owner : OwnerName) (repository : RepositoryName) :
    c.Owns (c.pullRequestsUrl owner repository) :=
  (c.owns_repositoryUrl owner repository).append _

end Owns

/-! ### Requests of a client -/

/-- A request may go under the address of the client, and on Cloud also where the answer right before
it says. -/
def Admits (c : Client) (before : List (Request × Answer)) (url : String) : Prop :=
  c.Owns url ∨ c.product = .cloud ∧ ∃ x, before.getLast? = some x ∧ x.2.next? = some url

/-- Requests of a client: they carry its credentials, are answered by the network as the client sees
it, and each of them goes where it may go behind those before it. -/
structure Confined (c : Client) (n : Network) (rs : List (Request × Answer)) : Prop where
  authorization : ∀ x ∈ rs, x.1.authorization = c.authorization
  answer : ∀ x ∈ rs, x.2 = (c.reach n).ask x.1
  admits : ∀ before x after, rs = before ++ x :: after → c.Admits before x.1.url

/-- A network sends a client away under its address if no page there names an address elsewhere. -/
def StaysUnder (c : Client) (n : Network) : Prop :=
  ∀ url next, c.Owns url → (n.answer url).next? = some next → c.Owns next

variable {β : Type} {c : Client} {n : Network}

/-- Reading the pages of a listing under the address of the client. -/
theorem confined_entries (form : ListingForm β) {url : String} (hurl : c.Owns url) :
    c.Confined n (Exchange.requests (c.entries form url n).run.steps) := by
  unfold entries
  split
  · rename_i hproduct
    obtain ⟨behind, hrequests, hchain, hbehind⟩ :=
      isChain_requests_cloudPages (c.reach n) c.authorization form.document form.read []
        (firstPageUrl url) List.not_mem_nil
    have hsteps : Exchange.requests (c.cloudEntries n form.document form.read url).run.steps = _ :=
      hrequests
    rw [hsteps]
    have hall : ∀ x ∈ (⟨firstPageUrl url, c.authorization⟩, (c.reach n).answer (firstPageUrl url)) ::
        behind, x.1.authorization = c.authorization ∧ x.2 = (c.reach n).ask x.1 :=
      List.forall_mem_cons.mpr ⟨⟨rfl, rfl⟩, hbehind⟩
    refine ⟨fun x hx => (hall x hx).1, fun x hx => (hall x hx).2, ?_⟩
    intro before x after hrs
    -- The first request asks for the listing, any other one has one right before it.
    rcases List.eq_nil_or_concat' before with rfl | ⟨before, y, rfl⟩
    · cases hrs
      exact Or.inl (hurl.withQuery _)
    · rw [List.append_assoc] at hrs
      rw [hrs] at hchain
      refine Or.inr ⟨hproduct, y, List.getLast?_concat, ?_⟩
      exact List.isChain_iff_forall_rel_of_append_cons_cons.mp hchain rfl
  · have hall := requests_serverPages (c.reach n).ask c.authorization form.document form.read url 0
    refine ⟨?_, fun x hx => (hall x hx).2, ?_⟩
    · intro x hx
      obtain ⟨⟨start, hstart⟩, -⟩ := hall x hx
      rw [hstart]
    · intro before x after hrs
      have hx : x ∈ Exchange.requests
          (c.serverEntries n form.document form.read url).run.steps := by
        rw [hrs]
        exact List.mem_append_right _ List.mem_cons_self
      obtain ⟨⟨start, hstart⟩, -⟩ := hall x hx
      rw [hstart]
      exact Or.inl (hurl.withQuery _)

theorem confined_of_convert {form : ListingForm β} {url : String} (hurl : c.Owns url)
    {listing : Answering (List β)}
    (hlisting : listing = (do
      let es ← c.entries form url n
      convert url (form.collect es))) :
    c.Confined n (Exchange.requests listing.run.steps) := by
  -- Converting the entries makes no request.
  have hsteps : listing.run.steps = (c.entries form url n).run.steps := by
    rw [hlisting, Traced.steps_run_bind]
    cases (c.entries form url n).run.value <;> exact List.append_nil _
  rw [hsteps]
  exact confined_entries form hurl

theorem confined_answer (c : Client) (n : Network) (q : Listing) :
    c.Confined n (Exchange.requests ((c.api n).answer q).run.steps) := by
  cases q with
  | repositories owner =>
    exact confined_of_convert (c.owns_repositoriesUrl owner) (c.repositories_eq n owner)
  | branches owner repository =>
    exact confined_of_convert (c.owns_refsUrl .branch owner repository)
      (c.refs_eq n .branch owner repository)
  | tags owner repository =>
    exact confined_of_convert (c.owns_refsUrl .tag owner repository)
      (c.refs_eq n .tag owner repository)
  | pullRequests owner repository =>
    exact confined_of_convert (c.owns_pullRequestsUrl owner repository)
      (c.pullRequests_eq n owner repository)

theorem StaysUnder.reach (h : c.StaysUnder n) : c.StaysUnder (c.reach n) := by
  unfold Client.reach
  split
  · exact h
  · intro url next _ hnext
    cases hnext

/-- Where no page under the address of a client names an address elsewhere, no request leaves it. -/
theorem Confined.owns {rs : List (Request × Answer)} (h : c.Confined n rs) (hn : c.StaysUnder n) :
    ∀ x ∈ rs, c.Owns x.1.url := by
  suffices hprefix : ∀ before x after, rs = before ++ x :: after → c.Owns x.1.url by
    intro x hx
    obtain ⟨before, after, hrs⟩ := List.append_of_mem hx
    exact hprefix before x after hrs
  intro before
  -- From the end: the request right before went under the address of the client.
  induction before using List.reverseRecOn with
  | nil =>
    intro x after hrs
    rcases h.admits [] x after hrs with howns | ⟨-, y, hy, -⟩
    · exact howns
    · cases hy
  | append_singleton before y ih =>
    intro x after hrs
    rcases h.admits _ x after hrs with howns | ⟨-, y', hy', hnext⟩
    · exact howns
    · rw [List.getLast?_concat] at hy'
      obtain rfl := Option.some.inj hy'
      rw [List.append_assoc] at hrs
      have hmem : y ∈ rs := by
        rw [hrs]
        exact List.mem_append_right _ List.mem_cons_self
      rw [h.answer y hmem] at hnext
      exact hn.reach _ _ (ih y (x :: after) hrs) hnext

/-- Every request for a listing carries the credentials of the client, whatever the network answers.
It goes under the address of the client, except that on Cloud it may go to the address that the page
right before it names as that of the next one. So no request leaves the address of the client where
no page under it names an address elsewhere. -/
theorem requests_confined (c : Client) (n : Network) (q : Listing) :
    (∀ x ∈ Exchange.requests ((c.api n).answer q).run.steps,
        x.1.authorization = c.authorization) ∧
      (∀ before x after,
        Exchange.requests ((c.api n).answer q).run.steps = before ++ x :: after →
          c.Owns x.1.url ∨
            c.product = .cloud ∧ ∃ y, before.getLast? = some y ∧ y.2.next? = some x.1.url) ∧
      (c.StaysUnder n →
        ∀ x ∈ Exchange.requests ((c.api n).answer q).run.steps, c.Owns x.1.url) := by
  have h := confined_answer c n q
  exact ⟨h.authorization, h.admits, h.owns⟩

/-- A client of Cloud at an address of its own, with an access token. -/
def bearerClient : Client := ofUrl .cloud "http://api.test" (some (.bearer "token"))

/-- The address of the first page of the branches of `team/widget`. -/
def bearerPageUrl : String := firstPageUrl (bearerClient.refsUrl .branch ⟨"team"⟩ ⟨"widget"⟩)

def strayingBody : String := "\x7b\"values\":[],\"next\":\"http://elsewhere.test/p2\"\x7d"

def emptyBody : String := "\x7b\"values\":[]\x7d"

/-- A network whose first page sends the client to another host. -/
def strayingPages : Network :=
  .ofPages [(bearerPageUrl, strayingBody), ("http://elsewhere.test/p2", emptyBody)]

theorem parse?_strayingBody :
    Json.parse? strayingBody =
      some (.record [("values", .array []), ("next", .text "http://elsewhere.test/p2")]) := by
  cbv

theorem parse?_emptyBody : Json.parse? emptyBody = some (.record [("values", .array [])]) := by
  cbv

theorem bearerPageUrl_ne : bearerPageUrl ≠ "http://elsewhere.test/p2" := by decide +kernel

theorem serves_strayingPages :
    bearerClient.Serves (refForm .cloud) (bearerClient.refsUrl .branch ⟨"team"⟩ ⟨"widget"⟩)
      strayingPages [bearerPageUrl, "http://elsewhere.test/p2"] [[], []] none := by
  have hfirst : (bearerClient.reach strayingPages).answer bearerPageUrl =
      .reply 200 strayingBody := by decide +kernel
  have hsecond : (bearerClient.reach strayingPages).answer "http://elsewhere.test/p2" =
      .reply 200 emptyBody := by decide +kernel
  refine ⟨Chain.step ?_ (Chain.last ?_), ?_⟩
  · change Brings IsCloudPage _ _ bearerPageUrl
      ((bearerClient.reach strayingPages).answer bearerPageUrl) _
    rw [hfirst]
    exact .of_cloud parse?_strayingBody rfl
  · rw [hsecond]
    exact .of_cloud parse?_emptyBody rfl
  · exact List.nodup_cons.mpr ⟨by simpa using bearerPageUrl_ne, List.nodup_singleton _⟩

theorem urls_strayingPages :
    Exchange.urls (bearerClient.refs strayingPages .branch ⟨"team"⟩ ⟨"widget"⟩).run.steps =
      [bearerPageUrl, "http://elsewhere.test/p2"] :=
  (listing_of_serves serves_strayingPages
    (bearerClient.refs_eq strayingPages .branch ⟨"team"⟩ ⟨"widget"⟩)).2

theorem not_owns_elsewhere : ¬ bearerClient.Owns "http://elsewhere.test/p2" := by
  intro h
  have hprefix : Text.hasPrefix (bearerClient.baseUrl ++ "/") "http://elsewhere.test/p2" = true :=
    Text.hasPrefix_iff.mpr h
  exact absurd hprefix (by decide +kernel)

def stayingBody : String := "\x7b\"values\":[],\"next\":\"http://api.test/p2\"\x7d"

/-- A network whose first page names another one under the same address, which is refused. -/
def stayingPages : Network := .ofPages [(bearerPageUrl, stayingBody)]

theorem next?_stayingBody : (Answer.reply 200 stayingBody).next? = some "http://api.test/p2" := by
  have hbody : Json.parse? stayingBody =
      some (.record [("values", .array []), ("next", .text "http://api.test/p2")]) := by
    cbv
  rw [Answer.next?, hbody]
  rfl

theorem staysUnder_stayingPages : bearerClient.StaysUnder stayingPages := by
  intro url next _ hnext
  by_cases hurl : url = bearerPageUrl
  · rw [hurl, stayingPages, Network.answer_ofPages_cons_self, next?_stayingBody] at hnext
    cases hnext
    exact ⟨"p2", by decide +kernel⟩
  · rw [stayingPages, Network.answer_ofPages_cons_of_ne hurl] at hnext
    cases hnext

/-- The second request goes where the first page says, with the token; where the first page stays
under the address of the client, so do all requests. -/
theorem requests_confined_bearer :
    (∃ x y, Exchange.requests
          ((bearerClient.api strayingPages).answer (.branches ⟨"team"⟩ ⟨"widget"⟩)).run.steps =
            [x] ++ [y] ∧
        y.1 = ⟨"http://elsewhere.test/p2", some "Bearer token"⟩ ∧
        x.2.next? = some "http://elsewhere.test/p2") ∧
      ∀ x ∈ Exchange.requests
          ((bearerClient.api stayingPages).answer (.branches ⟨"team"⟩ ⟨"widget"⟩)).run.steps,
        bearerClient.Owns x.1.url := by
  refine ⟨?_, ?_⟩
  · obtain ⟨hcarries, hgoes, -⟩ :=
      requests_confined bearerClient strayingPages (.branches ⟨"team"⟩ ⟨"widget"⟩)
    have hurls := urls_strayingPages
    rw [Exchange.urls_eq_map_requests] at hurls
    obtain ⟨x, rest, hrequests, -, hrest⟩ := List.map_eq_cons_iff.mp hurls
    obtain ⟨y, rest, rfl, hurl, hnil⟩ := List.map_eq_cons_iff.mp hrest
    obtain rfl := List.map_eq_nil_iff.mp hnil
    refine ⟨x, y, hrequests, ?_, ?_⟩
    · have hy := hcarries y (hrequests ▸ List.mem_cons_of_mem _ List.mem_cons_self)
      exact congrArg₂ Request.mk hurl hy
    · rcases hgoes [x] y [] hrequests with howns | ⟨-, x', hx', hnext⟩
      · exact absurd (hurl ▸ howns) not_owns_elsewhere
      · obtain rfl := Option.some.inj hx'
        exact hnext.trans (congrArg some hurl)
  · obtain ⟨-, -, howns⟩ :=
      requests_confined bearerClient stayingPages (.branches ⟨"team"⟩ ⟨"widget"⟩)
    exact howns staysUnder_stayingPages

/-- A page of Cloud can send the credentials of a client to another host. -/
theorem not_forall_requests_owned :
    ¬ ∀ (product : Product) (url : String) (credentials : Option Credentials) (n : Network)
        (q : Listing),
      ∀ x ∈ Exchange.requests (((ofUrl product url credentials).api n).answer q).run.steps,
        x.1.authorization.isSome → (ofUrl product url credentials).Owns x.1.url := by
  intro h
  have hmem : "http://elsewhere.test/p2" ∈
      Exchange.urls (bearerClient.refs strayingPages .branch ⟨"team"⟩ ⟨"widget"⟩).run.steps := by
    rw [urls_strayingPages]
    exact List.mem_cons_of_mem _ List.mem_cons_self
  rw [Exchange.urls_eq_map_requests] at hmem
  obtain ⟨x, hx, hurl⟩ := List.mem_map.mp hmem
  have hconfined := confined_answer bearerClient strayingPages (.branches ⟨"team"⟩ ⟨"widget"⟩)
  have hcarries : x.1.authorization.isSome := by
    rw [hconfined.authorization x hx]
    rfl
  have howns := h .cloud "http://api.test" (some (.bearer "token")) strayingPages
    (.branches ⟨"team"⟩ ⟨"widget"⟩) x hx hcarries
  exact not_owns_elsewhere (hurl ▸ howns)

end Client

end HeadScout
