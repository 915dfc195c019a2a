import HeadScout.Client
import HeadScout.Proofs.Client.Pages

/-!
# Listings by pages

A provider may cut a listing into pages wherever it likes. What a listing comes to must not depend
on it: all entries count, each of them once and in their order, as if they stood on one page. Refs
without a name are passed over, and so are pull requests whose source is gone or whose branches have
no names.

A listing is complete or fails. The first page that cannot be read is the last one that is asked
for, and decides the failure. An entry that cannot be used decides it only when all pages are there,
so a page behind it that cannot be read comes first.

## Main definitions

* `ListingForm` — what a listing reads from its pages, and what becomes of an entry
* `ListingForm.outcome` — what all entries come to
* `Client.Serves` — a network that serves a listing by pages, as the client asks for them
* `Client.ListsPages` — a listing that does not depend on how it is served

## Main results

* `Client.entries_of_serves` — the entries of served pages are read in turn
* `Client.listings_by_pages` — no listing depends on how it is cut into pages
-/

namespace HeadScout

open Payload (CloudRepository ServerRepository commit?)

variable {β : Type}

/-! ### What becomes of entries -/

/-- What a listing reads from its pages, and what becomes of an entry; nothing becomes of one that
is passed over. -/
structure ListingForm (β : Type) where
  Entry : Type
  /-- The name of a page in reports. -/
  document : String
  read : Json → Option Entry
  keep : Entry → Except PayloadError (Option β)

namespace ListingForm

variable (form : ListingForm β)

/-- Why an entry cannot be used. -/
def failure? (e : form.Entry) : Option PayloadError :=
  match form.keep e with
  | .error cause => some cause
  | .ok _ => none

/-- What becomes of an entry that can be used. -/
def kept? (e : form.Entry) : Option β :=
  match form.keep e with
  | .error _ => none
  | .ok b => b

/-- What becomes of some entries: the first one that cannot be used decides, and otherwise each one
that is not passed over counts. -/
def collect (es : List form.Entry) : Except PayloadError (List β) :=
  match es.findSome? form.failure? with
  | some cause => .error cause
  | none => .ok (es.filterMap form.kept?)

/-- What a listing at an address comes to, given its entries or why a page of it cannot be read. -/
def outcome (url : String) : Except ApiError (List form.Entry) → Except ApiError (List β)
  | .error e => .error e
  | .ok es => (form.collect es).mapError (.undecodable url)

variable {form} {e : form.Entry}

theorem collect_cons_of_error {cause : PayloadError} (h : form.keep e = .error cause)
    (es : List form.Entry) : form.collect (e :: es) = .error cause := by
  have hfailure : form.failure? e = some cause := by rw [failure?, h]
  rw [collect, List.findSome?_cons, hfailure]

theorem collect_cons_of_ok {b : Option β} (h : form.keep e = .ok b) (es : List form.Entry) :
    form.collect (e :: es) = (form.collect es).map (b.toList ++ ·) := by
  have hfailure : form.failure? e = none := by rw [failure?, h]
  have hkept : form.kept? e = b := by rw [kept?, h]
  rw [collect, collect, List.findSome?_cons, hfailure, List.filterMap_cons, hkept]
  cases es.findSome? form.failure? with
  | some cause => rfl
  | none => cases b <;> rfl

theorem collect_eq (es : List form.Entry) :
    form.collect es = (es.mapM form.keep).map (List.filterMap fun b => b) := by
  induction es with
  | nil => rfl
  | cons e es ih =>
    rw [List.mapM_cons]
    cases hkeep : form.keep e with
    | error cause =>
      rw [collect_cons_of_error hkeep]
      rfl
    | ok b =>
      rw [collect_cons_of_ok hkeep, ih]
      cases es.mapM form.keep with
      | error cause => rfl
      | ok bs => cases b <;> rfl

variable (form)

/-- Where no entry is passed over, each of them counts. -/
theorem collect_of_keep_eq {f : form.Entry → Except PayloadError β}
    (h : ∀ e, form.keep e = (f e).map some) (es : List form.Entry) :
    form.collect es = es.mapM f := by
  induction es with
  | nil => rfl
  | cons e es ih =>
    have hkeep := h e
    rw [List.mapM_cons]
    cases hf : f e with
    | error cause =>
      rw [hf] at hkeep
      rw [collect_cons_of_error hkeep]
      rfl
    | ok b =>
      rw [hf] at hkeep
      rw [collect_cons_of_ok hkeep, ih]
      cases es.mapM f <;> rfl

/-- Where each entry can be used, none of them fails. -/
theorem collect_of_forall_ok {f : form.Entry → Option β} (h : ∀ e, form.keep e = .ok (f e))
    (es : List form.Entry) : form.collect es = .ok (es.filterMap f) := by
  induction es with
  | nil => rfl
  | cons e es ih =>
    rw [collect_cons_of_ok (h e), ih, List.filterMap_cons]
    cases f e <;> rfl

end ListingForm

/-- What becomes of a ref: a ref without a name is passed over. -/
def keptRef (name : String) (hash : Option String) : Option GitRef :=
  if name = "" then none else some ⟨⟨name⟩, commit? hash⟩

/-- What becomes of a pull request, given the repository it comes from, unless that is gone, and the
names of its branches. -/
def keptPullRequest (id : UInt64) (title : String)
    (repository : Option (Except PayloadError Repository)) (branch : String) (kind : RefKind)
    (hash : Option String) (destination : String) : Except PayloadError (Option PullRequest) :=
  match repository with
  | none => .ok none
  | some repository =>
    if branch = "" ∨ destination = "" then .ok none
    else repository.map fun r => some ⟨⟨id⟩, title, ⟨r, ⟨branch⟩, kind, commit? hash⟩, ⟨destination⟩⟩

/-- The repositories of an owner, of which none is passed over. -/
abbrev repositoryForm : Product → ListingForm Repository
  | .cloud =>
    { Entry := CloudRepository
      document := CloudPage.repositoriesDocument
      read := CloudRepository.ofJson?
      keep r := (r.toRepository CloudPage.repositoriesDocument).map some }
  | .server =>
    { Entry := ServerRepository
      document := ServerPage.repositoriesDocument
      read := ServerRepository.ofJson?
      keep r := (r.toRepository ServerPage.repositoriesDocument).map some }

/-- The branches or tags of a repository. -/
abbrev refForm : Product → ListingForm GitRef
  | .cloud =>
    { Entry := CloudPage.Ref
      document := CloudPage.refsDocument
      read := CloudPage.Ref.ofJson?
      keep r := .ok (keptRef r.name r.hash) }
  | .server =>
    { Entry := ServerPage.Ref
      document := ServerPage.refsDocument
      read := ServerPage.Ref.ofJson?
      keep r := .ok (keptRef r.displayId r.latestCommit) }

/-- The open pull requests into a repository. -/
abbrev pullRequestForm : Product → ListingForm PullRequest
  | .cloud =>
    { Entry := CloudPage.PullRequestEntry
      document := CloudPage.pullRequestsDocument
      read := CloudPage.PullRequestEntry.ofJson?
      keep e := keptPullRequest e.id e.title
        (e.source.repository.map (·.toRepository CloudPage.pullRequestsDocument)) e.source.branch
        .branch e.source.hash e.destination.branch }
  | .server =>
    { Entry := ServerPage.PullRequestEntry
      document := ServerPage.pullRequestsDocument
      read := ServerPage.PullRequestEntry.ofJson?
      keep e := keptPullRequest e.id e.title
        (e.source.repository.map (·.toRepository ServerPage.pullRequestsDocument))
        e.source.displayId
        (if "refs/tags/".toList <+: e.source.id.toList then .tag else .branch)
        e.source.latestCommit e.destination.displayId }

theorem CloudPage.toGitRef?_eq (r : CloudPage.Ref) : r.toGitRef? = keptRef r.name r.hash := by
  rw [CloudPage.Ref.toGitRef?, keptRef, Identifier.ofText?]
  split_ifs <;> rfl

theorem ServerPage.toGitRef?_eq (r : ServerPage.Ref) :
    r.toGitRef? = keptRef r.displayId r.latestCommit := by
  rw [ServerPage.Ref.toGitRef?, keptRef, Identifier.ofText?]
  split_ifs <;> rfl

theorem CloudPage.toPullRequest?_eq (e : CloudPage.PullRequestEntry) :
    e.toPullRequest? = (pullRequestForm .cloud).keep e := by
  obtain ⟨id, title, ⟨branch, hash, _ | repository⟩, ⟨destination, -, -⟩⟩ := e
  · rfl
  · by_cases hbranch : branch = "" <;> by_cases hdestination : destination = "" <;>
      simp only [CloudPage.PullRequestEntry.toPullRequest?, keptPullRequest, Identifier.ofText?,
        hbranch, hdestination, if_true, if_false, or_true, or_false, Option.map_some] <;>
      rfl

/-- A ref is a tag if its full name begins as that of a tag. -/
theorem ServerPage.refKind_eq (e : ServerPage.Endpoint) :
    e.refKind = if "refs/tags/".toList <+: e.id.toList then .tag else .branch := by
  rw [Endpoint.refKind]
  exact if_congr List.isPrefixOf_iff_prefix rfl rfl

theorem ServerPage.toPullRequest?_eq (e : ServerPage.PullRequestEntry) :
    e.toPullRequest? = (pullRequestForm .server).keep e := by
  obtain ⟨id, title, ⟨ref, branch, hash, _ | repository⟩, ⟨-, destination, -, -⟩⟩ := e
  · rfl
  · by_cases hbranch : branch = "" <;> by_cases hdestination : destination = "" <;>
      simp only [ServerPage.PullRequestEntry.toPullRequest?, ServerPage.refKind_eq, keptPullRequest,
        Identifier.ofText?, hbranch, hdestination, if_true, if_false, or_true, or_false,
        Option.map_some] <;>
      rfl

/-! ### Served pages -/

namespace Client

variable (c : Client) (form : ListingForm β) (url : String)

/-- A network serves a listing by pages, as the client asks for them: the addresses of the pages,
the entries page by page, and why the last page cannot be read, if it cannot. On Cloud each page
names the address of the next one, and no two addresses are the same. On Server the first page
starts at the first entry, and each page tells where the next one starts, which is further on. -/
def Serves (n : Network) (addresses : List String) (cut : List (List form.Entry))
    (failure : Option ApiError) : Prop :=
  match c.product with
  | .cloud =>
    Chain
        (fun page => Brings IsCloudPage form.read form.document page ((c.reach n).answer page))
        (firstPageUrl url) addresses cut failure ∧
      addresses.Nodup
  | .server =>
    ∃ starts : List UInt64, starts.Pairwise (· < ·) ∧ addresses = starts.map (serverPageUrl url) ∧
      Chain
        (fun start => Brings IsServerPage form.read form.document (serverPageUrl url start)
          ((c.reach n).answer (serverPageUrl url start)))
        0 starts cut failure

/-- The entries of a listing. -/
def entries (n : Network) : Answering (List form.Entry) :=
  match c.product with
  | .cloud => c.cloudEntries n form.document form.read url
  | .server => c.serverEntries n form.document form.read url

variable {c form url} {n : Network} {addresses : List String} {cut : List (List form.Entry)}
  {failure : Option ApiError}

/-- The entries of served pages are read in turn, up to the first page that cannot be read, and no
other address is asked for. -/
theorem entries_of_serves (h : c.Serves form url n addresses cut failure) :
    (c.entries form url n).run.value = entriesOf cut failure ∧
      Exchange.urls (c.entries form url n).run.steps = addresses := by
  unfold Serves at h
  unfold entries
  split at h
  · obtain ⟨hchain, hnodup⟩ := h
    have hwalk := walk_cloudPages (c.reach n) c.authorization form.document form.read []
      (firstPageUrl url) List.not_mem_nil
    exact (hwalk.eq_of_chain_of_nodup (hchain.imp fun _ _ => cloudPage_eq_iff.mpr) hnodup).symm
  · obtain ⟨starts, hsorted, rfl, hchain⟩ := h
    obtain ⟨starts', hurls, hwalk⟩ :=
      walk_serverPages (c.reach n).ask c.authorization form.document form.read url [] 0
    obtain ⟨rfl, hvalue⟩ := hwalk.eq_of_chain_of_pairwise_lt
      (hchain.imp fun _ _ => serverPage_eq_iff.mpr) hsorted
    exact ⟨hvalue, hurls⟩

/-! ### Listings -/

@[simp] theorem steps_convert {α : Type} (url : String) (converted : Except PayloadError α) :
    (convert url converted).run.steps = [] := rfl

theorem value_convert {α : Type} (url : String) (converted : Except PayloadError α) :
    (convert url converted).run.value = converted.mapError (.undecodable url) := rfl

theorem convert_bind_pure {α : Type} (url : String) (converted : Except PayloadError α) (f : α → β) :
    (do
      let a ← convert url converted
      pure (f a)) = convert url (converted.map f) := by
  cases converted <;> rfl

variable (c) (n)

theorem repositories_eq (owner : OwnerName) :
    c.repositories n owner = (do
      let es ← c.entries (repositoryForm c.product) (c.repositoriesUrl owner) n
      convert (c.repositoriesUrl owner) ((repositoryForm c.product).collect es)) := by
  obtain ⟨product, baseUrl, credentials⟩ := c
  cases product with
  | cloud =>
    refine bind_congr fun es => ?_
    have hcollect : (repositoryForm .cloud).collect es = CloudPage.toRepositories es :=
      ListingForm.collect_of_keep_eq (repositoryForm .cloud) (fun _ => rfl) es
    rw [hcollect]
  | server =>
    refine bind_congr fun es => ?_
    have hcollect : (repositoryForm .server).collect es = ServerPage.toRepositories es :=
      ListingForm.collect_of_keep_eq (repositoryForm .server) (fun _ => rfl) es
    rw [hcollect]

theorem refs_eq (kind : RefKind) (owner : OwnerName) (repository : RepositoryName) :
    c.refs n kind owner repository = (do
      let es ← c.entries (refForm c.product) (c.refsUrl kind owner repository) n
      convert (c.refsUrl kind owner repository) ((refForm c.product).collect es)) := by
  obtain ⟨product, baseUrl, credentials⟩ := c
  cases product with
  | cloud =>
    refine bind_congr fun es => ?_
    have hcollect : (refForm .cloud).collect es = .ok (es.filterMap CloudPage.Ref.toGitRef?) :=
      ListingForm.collect_of_forall_ok (refForm .cloud)
        (fun r => congrArg Except.ok (CloudPage.toGitRef?_eq r).symm) es
    rw [hcollect]
    rfl
  | server =>
    refine bind_congr fun es => ?_
    have hcollect : (refForm .server).collect es = .ok (es.filterMap ServerPage.Ref.toGitRef?) :=
      ListingForm.collect_of_forall_ok (refForm .server)
        (fun r => congrArg Except.ok (ServerPage.toGitRef?_eq r).symm) es
    rw [hcollect]
    rfl

theorem pullRequests_eq (owner : OwnerName) (repository : RepositoryName) :
    c.pullRequests n owner repository = (do
      let es ← c.entries (pullRequestForm c.product) (c.pullRequestsUrl owner repository) n
      convert (c.pullRequestsUrl owner repository) ((pullRequestForm c.product).collect es)) := by
  obtain ⟨product, baseUrl, credentials⟩ := c
  -- Here the entries are converted first, and those that are passed over are dropped afterwards.
  cases product with
  | cloud =>
    refine bind_congr fun es => ?_
    have hkeep : (pullRequestForm .cloud).keep = CloudPage.PullRequestEntry.toPullRequest? :=
      funext fun e => (CloudPage.toPullRequest?_eq e).symm
    rw [ListingForm.collect_eq, hkeep]
    exact convert_bind_pure _ _ _
  | server =>
    refine bind_congr fun es => ?_
    have hkeep : (pullRequestForm .server).keep = ServerPage.PullRequestEntry.toPullRequest? :=
      funext fun e => (ServerPage.toPullRequest?_eq e).symm
    rw [ListingForm.collect_eq, hkeep]
    exact convert_bind_pure _ _ _

variable {c} {n}

/-- What a listing comes to that converts the entries of served pages, and what it asks for. -/
theorem listing_of_serves (h : c.Serves form url n addresses cut failure)
    {listing : Answering (List β)}
    (hlisting : listing = (do
      let es ← c.entries form url n
      convert url (form.collect es))) :
    listing.run.value = form.outcome url (entriesOf cut failure) ∧
      Exchange.urls listing.run.steps = addresses := by
  obtain ⟨hvalue, hurls⟩ := entries_of_serves h
  subst hlisting
  rw [← hvalue, ← hurls]
  cases hentries : (c.entries form url n).run.value with
  | error e =>
    rw [Traced.run_bind_of_error hentries]
    exact ⟨rfl, rfl⟩
  | ok es =>
    rw [Traced.run_bind_of_ok hentries, steps_convert, List.append_nil]
    exact ⟨value_convert _ _, rfl⟩

/-- Whatever pages a network serves, a listing comes to what becomes of their entries in turn, or to
the failure of the first page that cannot be read; it asks for the pages up to that one, and for
nothing else. Where all pages can be read, it comes to the same as if one page held all entries. -/
def ListsPages (c : Client) (form : ListingForm β) (url : String)
    (listing : Network → Answering (List β)) : Prop :=
  ∀ n addresses cut failure, c.Serves form url n addresses cut failure →
    (listing n).run.value = form.outcome url (entriesOf cut failure) ∧
      Exchange.urls (listing n).run.steps = addresses ∧
      ∀ n' addresses', failure = none → c.Serves form url n' addresses' [cut.flatten] none →
        (listing n).run.value = (listing n').run.value

theorem listsPages_of_forall_eq (c : Client) (form : ListingForm β) (url : String)
    {listing : Network → Answering (List β)}
    (hlisting : ∀ n, listing n = (do
      let es ← c.entries form url n
      convert url (form.collect es))) : c.ListsPages form url listing := by
  intro n addresses cut failure h
  obtain ⟨hvalue, hurls⟩ := listing_of_serves h (hlisting n)
  refine ⟨hvalue, hurls, ?_⟩
  rintro n' addresses' rfl h'
  obtain ⟨hvalue', -⟩ := listing_of_serves h' (hlisting n')
  rw [hvalue, hvalue', entriesOf, entriesOf, List.flatten_singleton]

/-- No listing depends on how it is cut into pages. -/
theorem listings_by_pages (c : Client) (owner : OwnerName) (repository : RepositoryName) :
    c.ListsPages (repositoryForm c.product) (c.repositoriesUrl owner)
        (fun n => (c.api n).answer (.repositories owner)) ∧
      c.ListsPages (refForm c.product) (c.refsUrl .branch owner repository)
        (fun n => (c.api n).answer (.branches owner repository)) ∧
      c.ListsPages (refForm c.product) (c.refsUrl .tag owner repository)
        (fun n => (c.api n).answer (.tags owner repository)) ∧
      c.ListsPages (pullRequestForm c.product) (c.pullRequestsUrl owner repository)
        (fun n => (c.api n).answer (.pullRequests owner repository)) := by
  refine ⟨?_, ?_, ?_, ?_⟩
  · exact c.listsPages_of_forall_eq _ _ fun n => c.repositories_eq n owner
  · exact c.listsPages_of_forall_eq _ _ fun n => c.refs_eq n .branch owner repository
  · exact c.listsPages_of_forall_eq _ _ fun n => c.refs_eq n .tag owner repository
  · exact c.listsPages_of_forall_eq _ _ fun n => c.pullRequests_eq n owner repository

/-- A client of Cloud without credentials. -/
def sampleClient : Client := ⟨.cloud, "https://api.example.org", none⟩

/-- A client of Server without credentials. -/
def sampleServerClient : Client := ⟨.server, "https://git.example.org", none⟩

/-- The branches of `team/widget`. -/
def sampleBranches (c : Client) (n : Network) : Answering (List GitRef) :=
  c.refs n .branch ⟨"team"⟩ ⟨"widget"⟩

/-- The address of the first page of branches on Cloud. -/
def cloudUrl : String :=
  "https://api.example.org/2.0/repositories/team/widget/refs/branches?pagelen=100"

/-- The address of the second page of branches on Cloud. -/
def nextCloudUrl : String := "https://api.example.org/2.0/more-branches"

def firstBody : String :=
  "\x7b\"values\":[\x7b\"name\":\"main\",\"target\":\x7b\"hash\":\"a\"\x7d\x7d]," ++
    "\"next\":\"https://api.example.org/2.0/more-branches\"\x7d"

def secondBody : String := "\x7b\"values\":[\x7b\"name\":\"\"\x7d,\x7b\"name\":\"dev\"\x7d]\x7d"

/-- The body of a page with the entries of both. -/
def wholeBody : String :=
  "\x7b\"values\":[\x7b\"name\":\"main\",\"target\":\x7b\"hash\":\"a\"\x7d\x7d," ++
    "\x7b\"name\":\"\"\x7d,\x7b\"name\":\"dev\"\x7d]\x7d"

/-- A network that cuts the branches into two pages. -/
def samplePages : Network := .ofPages [(cloudUrl, firstBody), (nextCloudUrl, secondBody)]

/-- A network that lists the same on one page. -/
def samplePage : Network := .ofPages [(cloudUrl, wholeBody)]

/-- A network that refuses the second page. -/
def refusedPages : Network where
  routes := [(cloudUrl, .reply 200 firstBody), (nextCloudUrl, .reply 503 secondBody)]
  elsewhere := .silence "timed out"

theorem parse?_firstBody :
    Json.parse? firstBody =
      some (.record [("values", .array [.record [("name", .text "main"),
          ("target", .record [("hash", .text "a")])]]),
        ("next", .text nextCloudUrl)]) := by
  cbv

theorem parse?_secondBody :
    Json.parse? secondBody =
      some (.record [("values",
        .array [.record [("name", .text "")], .record [("name", .text "dev")]])]) := by
  cbv

theorem parse?_wholeBody :
    Json.parse? wholeBody =
      some (.record [("values", .array [.record [("name", .text "main"),
          ("target", .record [("hash", .text "a")])],
        .record [("name", .text "")], .record [("name", .text "dev")]])]) := by
  cbv

/-- The first page stands where the client looks for it. -/
theorem firstPageUrl_branches :
    firstPageUrl (sampleClient.refsUrl .branch ⟨"team"⟩ ⟨"widget"⟩) = cloudUrl := by
  decide +kernel

theorem brings_firstBody :
    Brings IsCloudPage (refForm .cloud).read (refForm .cloud).document cloudUrl
      (.reply 200 firstBody) (.ok ([⟨"main", some "a"⟩], some nextCloudUrl)) :=
  .of_cloud parse?_firstBody rfl

theorem serves_samplePages :
    sampleClient.Serves (refForm .cloud) (sampleClient.refsUrl .branch ⟨"team"⟩ ⟨"widget"⟩)
      samplePages [cloudUrl, nextCloudUrl] [[⟨"main", some "a"⟩], [⟨"", none⟩, ⟨"dev", none⟩]]
      none := by
  have hfirst : (sampleClient.reach samplePages).answer cloudUrl = .reply 200 firstBody := by
    decide +kernel
  have hsecond : (sampleClient.reach samplePages).answer nextCloudUrl = .reply 200 secondBody := by
    decide +kernel
  refine ⟨?_, by decide +kernel⟩
  rw [firstPageUrl_branches]
  refine .step ?_ (.last ?_)
  · rw [hfirst]
    exact brings_firstBody
  · rw [hsecond]
    exact .of_cloud parse?_secondBody rfl

theorem serves_samplePage :
    sampleClient.Serves (refForm .cloud) (sampleClient.refsUrl .branch ⟨"team"⟩ ⟨"widget"⟩)
      samplePage [cloudUrl] [[⟨"main", some "a"⟩, ⟨"", none⟩, ⟨"dev", none⟩]] none := by
  have hwhole : (sampleClient.reach samplePage).answer cloudUrl = .reply 200 wholeBody := by
    decide +kernel
  refine ⟨?_, List.nodup_singleton _⟩
  rw [firstPageUrl_branches]
  refine .last ?_
  rw [hwhole]
  exact .of_cloud parse?_wholeBody rfl

theorem serves_refusedPages :
    sampleClient.Serves (refForm .cloud) (sampleClient.refsUrl .branch ⟨"team"⟩ ⟨"widget"⟩)
      refusedPages [cloudUrl, nextCloudUrl] [[⟨"main", some "a"⟩]]
      (some (.refused nextCloudUrl 503)) := by
  have hfirst : (sampleClient.reach refusedPages).answer cloudUrl = .reply 200 firstBody := by
    decide +kernel
  have hsecond : (sampleClient.reach refusedPages).answer nextCloudUrl = .reply 503 secondBody := by
    decide +kernel
  refine ⟨?_, by decide +kernel⟩
  rw [firstPageUrl_branches]
  refine .step ?_ (.failed ?_)
  · rw [hfirst]
    exact brings_firstBody
  · rw [hsecond]
    exact .refusal (by decide)

/-! ### Two pages of Server -/

/-- The address of the page of branches on Server that starts at the first entry. -/
def serverUrl : String :=
  "https://git.example.org/rest/api/1.0/projects/team/repos/widget/branches?start=0&limit=100"

/-- The address of the page of branches on Server that starts at the second entry. -/
def nextServerUrl : String :=
  "https://git.example.org/rest/api/1.0/projects/team/repos/widget/branches?start=1&limit=100"

def serverFirstBody : String :=
  "\x7b\"values\":[\x7b\"displayId\":\"main\",\"latestCommit\":\"a\"\x7d]," ++
    "\"isLastPage\":false,\"nextPageStart\":1\x7d"

def serverSecondBody : String :=
  "\x7b\"values\":[\x7b\"displayId\":\"\"\x7d,\x7b\"displayId\":\"dev\"\x7d]," ++
    "\"isLastPage\":true\x7d"

/-- The body of a page with the entries of both, which says where a next one would start. -/
def serverWholeBody : String :=
  "\x7b\"values\":[\x7b\"displayId\":\"main\",\"latestCommit\":\"a\"\x7d," ++
    "\x7b\"displayId\":\"\"\x7d,\x7b\"displayId\":\"dev\"\x7d]," ++
    "\"isLastPage\":true,\"nextPageStart\":3\x7d"

/-- A network that cuts the branches into two pages. -/
def sampleServerPages : Network :=
  .ofPages [(serverUrl, serverFirstBody), (nextServerUrl, serverSecondBody)]

/-- A network that lists the same on one page. -/
def sampleServerPage : Network := .ofPages [(serverUrl, serverWholeBody)]

theorem parse?_serverFirstBody :
    Json.parse? serverFirstBody =
      some (.record [("values", .array [.record [("displayId", .text "main"),
          ("latestCommit", .text "a")]]),
        ("isLastPage", .bool false), ("nextPageStart", .number { whole := [1] })]) := by
  cbv

theorem parse?_serverSecondBody :
    Json.parse? serverSecondBody =
      some (.record [("values",
          .array [.record [("displayId", .text "")], .record [("displayId", .text "dev")]]),
        ("isLastPage", .bool true)]) := by
  cbv

theorem parse?_serverWholeBody :
    Json.parse? serverWholeBody =
      some (.record [("values", .array [.record [("displayId", .text "main"),
          ("latestCommit", .text "a")],
        .record [("displayId", .text "")], .record [("displayId", .text "dev")]]),
        ("isLastPage", .bool true), ("nextPageStart", .number { whole := [3] })]) := by
  cbv

theorem serves_sampleServerPages :
    sampleServerClient.Serves (refForm .server)
      (sampleServerClient.refsUrl .branch ⟨"team"⟩ ⟨"widget"⟩) sampleServerPages
      [serverUrl, nextServerUrl] [[⟨"main", some "a"⟩], [⟨"", none⟩, ⟨"dev", none⟩]] none := by
  have hfirst : (sampleServerClient.reach sampleServerPages).answer
      (serverPageUrl (sampleServerClient.refsUrl .branch ⟨"team"⟩ ⟨"widget"⟩) 0) =
        .reply 200 serverFirstBody := by decide +kernel
  have hsecond : (sampleServerClient.reach sampleServerPages).answer
      (serverPageUrl (sampleServerClient.refsUrl .branch ⟨"team"⟩ ⟨"widget"⟩) 1) =
        .reply 200 serverSecondBody := by decide +kernel
  refine ⟨[0, 1], by decide, by decide +kernel, .step ?_ (.last ?_)⟩
  · rw [hfirst]
    exact .of_server parse?_serverFirstBody rfl
  · rw [hsecond]
    exact .of_server_last parse?_serverSecondBody rfl

theorem serves_sampleServerPage :
    sampleServerClient.Serves (refForm .server)
      (sampleServerClient.refsUrl .branch ⟨"team"⟩ ⟨"widget"⟩) sampleServerPage [serverUrl]
      [[⟨"main", some "a"⟩, ⟨"", none⟩, ⟨"dev", none⟩]] none := by
  have hwhole : (sampleServerClient.reach sampleServerPage).answer
      (serverPageUrl (sampleServerClient.refsUrl .branch ⟨"team"⟩ ⟨"widget"⟩) 0) =
        .reply 200 serverWholeBody := by decide +kernel
  refine ⟨[0], by decide, by decide +kernel, .last ?_⟩
  rw [hwhole]
  exact .of_server_last parse?_serverWholeBody rfl

/-- On both products the branches of two pages are those of one, without the one that has no name.
If the second page is refused, there are none. -/
theorem branches_samplePages :
    ((sampleBranches sampleClient samplePages).run.value =
          .ok [⟨⟨"main"⟩, some ⟨"a"⟩⟩, ⟨⟨"dev"⟩, none⟩] ∧
        Exchange.urls (sampleBranches sampleClient samplePages).run.steps =
          [cloudUrl, nextCloudUrl] ∧
        (sampleBranches sampleClient samplePages).run.value =
          (sampleBranches sampleClient samplePage).run.value) ∧
      ((sampleBranches sampleServerClient sampleServerPages).run.value =
          .ok [⟨⟨"main"⟩, some ⟨"a"⟩⟩, ⟨⟨"dev"⟩, none⟩] ∧
        Exchange.urls (sampleBranches sampleServerClient sampleServerPages).run.steps =
          [serverUrl, nextServerUrl] ∧
        (sampleBranches sampleServerClient sampleServerPages).run.value =
          (sampleBranches sampleServerClient sampleServerPage).run.value) ∧
      (sampleBranches sampleClient refusedPages).run.value = .error (.refused nextCloudUrl 503) ∧
        Exchange.urls (sampleBranches sampleClient refusedPages).run.steps =
          [cloudUrl, nextCloudUrl] := by
  obtain ⟨-, hcloud, -⟩ := listings_by_pages sampleClient ⟨"team"⟩ ⟨"widget"⟩
  obtain ⟨-, hserver, -⟩ := listings_by_pages sampleServerClient ⟨"team"⟩ ⟨"widget"⟩
  obtain ⟨hvalue, hurls, hone⟩ := hcloud _ _ _ _ serves_samplePages
  obtain ⟨hvalue', hurls', hone'⟩ := hserver _ _ _ _ serves_sampleServerPages
  obtain ⟨hrefused, hurls'', -⟩ := hcloud _ _ _ _ serves_refusedPages
  exact ⟨⟨hvalue, hurls, hone _ _ rfl serves_samplePage⟩,
    ⟨hvalue', hurls', hone' _ _ rfl serves_sampleServerPage⟩, hrefused, hurls''⟩

end Client

end HeadScout
