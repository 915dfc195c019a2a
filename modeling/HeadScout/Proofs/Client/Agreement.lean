import HeadScout.Proofs.Client.RepositoryReading
import HeadScout.Proofs.Discovery.Soundness
import HeadScout.Proofs.Json.Writing

/-!
# Two products, one listing

A scan cannot tell which product it asks: where Cloud and Server hold the same branches, tags and
pull requests, both clients list the same. Each product may cut its listings into pages of its own,
and write each entry in any document of its form.

A listing of refs always succeeds. One of pull requests fails if one of them cannot be used, and
then the two products do not give the same cause. But a scan goes on without pull requests, and
finds the same whatever the cause.

## Main definitions

* `Client.Tells` — a network that lists documents of some things, on pages as it likes
* `Client.HasPages` — a network that has some documents on two pages
* `Client.Shows` — a network that lists what a repository holds
* `Client.showing` — one that does so, each listing on two pages

## Main results

* `Client.toOption_of_tells` — what a listing of such documents comes to
* `Client.shows_showing` — either product can list whatever a repository holds
* `Client.listings_agree_of_shows` — clients of either product list the same, and no scan differs
-/

namespace HeadScout

/-! ### Pages of documents -/

section Pages

variable {α : Type} {read : Json → Option α}

theorem mapM_eq_filterMap {σ : Type} {f : σ → Option α} {as : List σ}
    (h : ∀ a ∈ as, ∃ b, f a = some b) : as.mapM f = some (as.filterMap f) := by
  induction as with
  | nil => rfl
  | cons a as ih =>
    obtain ⟨b, hb⟩ := h a List.mem_cons_self
    rw [List.mapM_cons, hb, ih fun a' ha' => h a' (List.mem_cons_of_mem a ha'),
      List.filterMap_cons_some hb]
    rfl

/-- A page of documents that can be read is a page of what is read. -/
theorem Brings.of_documents {κ : Type} {isPage : List Json → Option κ → Json → Prop}
    {document url : String} {a : Answer} {vs : List Json} {next : Option κ}
    (h : Brings isPage some document url a (.ok (vs, next)))
    (hread : ∀ v ∈ vs, ∃ b, read v = some b) :
    Brings isPage read document url a (.ok (vs.filterMap read, next)) := by
  cases h with
  | @page _ _ _ ws _ _ hstatus hbody hpage hsame =>
    have hws : List.Forall₂ (· = ·) ws vs := hsame.imp fun _ _ => Option.some.inj
    rw [List.forall₂_eq_eq_eq] at hws
    subst hws
    exact .page hstatus hbody hpage (mapM_eq_some_iff.mp (mapM_eq_filterMap hread))

/-- Pages of documents that can be read are pages of what is read. -/
theorem Chain.of_documents {κ ε : Type} {brings : κ → Except ε (List Json × Option κ) → Prop}
    {brings' : κ → Except ε (List α × Option κ) → Prop}
    (hpage : ∀ k vs next, brings k (.ok (vs, next)) → (∀ v ∈ vs, ∃ a, read v = some a) →
      brings' k (.ok (vs.filterMap read, next)))
    {k : κ} {keys : List κ} {cut : List (List Json)} {failure : Option ε}
    (h : Chain brings k keys cut failure) (hnone : failure = none)
    (hread : ∀ v ∈ cut.flatten, ∃ a, read v = some a) :
    Chain brings' k keys (cut.map (List.filterMap read)) none := by
  -- Along the chain: each page keeps its key and the key that it names, whatever its entries are.
  induction h with
  | failed => cases hnone
  | last hk =>
    rw [List.flatten_singleton] at hread
    exact .last (hpage _ _ _ hk hread)
  | step hk _ ih =>
    rw [List.flatten_cons, List.forall_mem_append] at hread
    exact .step (hpage _ _ _ hk hread.1) (ih hnone hread.2)

end Pages

/-! ### What becomes of the documents -/

theorem toOption_map {ε α γ : Type} (f : α → γ) (x : Except ε α) :
    (x.map f).toOption = x.toOption.map f := by
  cases x <;> rfl

theorem eq_ok_of_toOption {ε α : Type} {x : Except ε α} {a : α} (h : x.toOption = some a) :
    x = .ok a := by
  cases x with
  | error e => cases h
  | ok a' => exact congrArg Except.ok (Option.some.inj h)

/-- The listing as it stands on its pages, no entry of it read. -/
def ListingForm.documents {β : Type} (form : ListingForm β) : ListingForm Json where
  Entry := Json
  document := form.document
  read := some
  keep v := .ok (some v)

namespace ListingForm

variable {β σ : Type} {form : ListingForm β} {stands : σ → Json → Prop}
  {becomes : σ → Option (Option β)} {states : List σ} {vs : List Json}

theorem Understands.exists_read (h : form.Understands stands becomes)
    (hvs : List.Forall₂ stands states vs) : ∀ v ∈ vs, ∃ e, form.read v = some e := by
  induction hvs with
  | nil => exact List.forall_mem_nil _
  | @cons s v _ _ hv _ ih =>
    obtain ⟨e, he, -⟩ := h s v hv
    exact List.forall_mem_cons.mpr ⟨⟨e, he⟩, ih⟩

/-- One that cannot be used decides, and otherwise each one that is not passed over counts. -/
theorem Understands.toOption_collect (h : form.Understands stands becomes)
    (hvs : List.Forall₂ stands states vs) :
    (form.collect (vs.filterMap form.read)).toOption =
      (states.mapM becomes).map (List.filterMap fun b => b) := by
  induction hvs with
  | nil => rfl
  | @cons s v states vs hv _ ih =>
    obtain ⟨e, he, hkeep⟩ := h s v hv
    rw [List.filterMap_cons_some he, List.mapM_cons, ← hkeep]
    cases hkept : form.keep e with
    | error cause =>
      -- Whatever follows, neither side goes on behind it.
      rw [collect_cons_of_error hkept]
      rfl
    | ok b =>
      rw [collect_cons_of_ok hkept, toOption_map, ih]
      cases states.mapM becomes with
      | none => rfl
      | some bs => cases b <;> rfl

end ListingForm

/-! ### Listings -/

namespace Client

section Tells

variable {β σ : Type} {c : Client} {form : ListingForm β} {url : String} {n : Network}
  {addresses : List String} {cut : List (List Json)} {stands : σ → Json → Prop}
  {becomes : σ → Option (Option β)} {states : List σ}

theorem Serves.of_documents (h : c.Serves form.documents url n addresses cut none)
    (hread : ∀ v ∈ cut.flatten, ∃ e, form.read v = some e) :
    c.Serves form url n addresses (cut.map (List.filterMap form.read)) none := by
  unfold Serves at h ⊢
  split at h
  · obtain ⟨hchain, hnodup⟩ := h
    exact ⟨hchain.of_documents (fun _ _ _ => Brings.of_documents) rfl hread, hnodup⟩
  · obtain ⟨starts, hsorted, haddresses, hchain⟩ := h
    exact ⟨starts, hsorted, haddresses,
      hchain.of_documents (fun _ _ _ => Brings.of_documents) rfl hread⟩

/-- A network lists documents of some things in their order, on pages as it likes. -/
def Tells (c : Client) (form : ListingForm β) (stands : σ → Json → Prop) (url : String)
    (n : Network) (states : List σ) : Prop :=
  ∃ (addresses : List String) (cut : List (List Json)),
    c.Serves form.documents url n addresses cut none ∧ List.Forall₂ stands states cut.flatten

/-- A listing comes to what becomes of the things that are told, unless one of them cannot be
used. -/
theorem toOption_of_tells (h : c.Tells form stands url n states)
    (hform : form.Understands stands becomes) {listing : Answering (List β)}
    (hlisting : listing = (do
      let es ← c.entries form url n
      convert url (form.collect es))) :
    listing.run.value.toOption = (states.mapM becomes).map (List.filterMap fun b => b) := by
  obtain ⟨addresses, cut, hserves, hstands⟩ := h
  obtain ⟨hvalue, -⟩ :=
    listing_of_serves (hserves.of_documents (hform.exists_read hstands)) hlisting
  rw [hvalue, entriesOf, ← List.filterMap_flatten, ListingForm.outcome,
    ← hform.toOption_collect hstands]
  cases form.collect (cut.flatten.filterMap form.read) <;> rfl

end Tells

end Client

/-- The branches or the tags. -/
def RepositoryState.refs (s : RepositoryState) : RefKind → List RefState
  | .branch => s.branches
  | .tag => s.tags

/-- The pull requests that are listed, unless one of them cannot be used. -/
def RepositoryState.listedPullRequests? (s : RepositoryState) : Option (List PullRequest) :=
  (s.pullRequests.mapM PullRequestState.listed?).map (List.filterMap fun p => p)

theorem PullRequestState.exists_listed? {p : PullRequestState}
    (h : ∀ r ∈ p.source.repository, r.IsNamed) : ∃ listed, p.listed? = some listed := by
  unfold listed?
  cases hsource : p.source.repository with
  | none => exact ⟨none, rfl⟩
  | some r =>
    by_cases hbranches : p.source.branch = "" ∨ p.destination.branch = ""
    · exact ⟨none, if_pos hbranches⟩
    · simp only [if_neg hbranches, (h r hsource).named?_eq]
      exact ⟨_, rfl⟩

/-- Where all sources that are there have owners and names, each pull request can be used. -/
theorem RepositoryState.exists_listedPullRequests? {s : RepositoryState}
    (h : ∀ p ∈ s.pullRequests, ∀ r ∈ p.source.repository, r.IsNamed) :
    ∃ prs, s.listedPullRequests? = some prs := by
  have hall := mapM_eq_filterMap fun p hp => PullRequestState.exists_listed? (h p hp)
  exact ⟨_, congrArg (Option.map _) hall⟩

namespace Client

/-- A network lists what a repository holds, in the form of the client's product. -/
structure Shows (c : Client) (n : Network) (owner : OwnerName) (repository : RepositoryName)
    (s : RepositoryState) : Prop where
  tells_refs : ∀ kind, c.Tells (refForm c.product) (RefState.Stands · c.product)
    (c.refsUrl kind owner repository) n (s.refs kind)
  tells_pullRequests : c.Tells (pullRequestForm c.product) (PullRequestState.Stands · c.product)
    (c.pullRequestsUrl owner repository) n s.pullRequests

namespace Shows

variable {c : Client} {n : Network} {owner : OwnerName} {repository : RepositoryName}
  {s : RepositoryState}

theorem value_refs (h : c.Shows n owner repository s) (kind : RefKind) :
    (c.refs n kind owner repository).run.value =
      .ok ((s.refs kind).filterMap RefState.listed?) := by
  have hlisted := toOption_of_tells (h.tells_refs kind) (understands_refForm c.product)
    (c.refs_eq n kind owner repository)
  -- A ref can always be used, so nothing is forgotten with the cause of a failure.
  have hall : (s.refs kind).mapM (fun r => some r.listed?) =
      some ((s.refs kind).map RefState.listed?) :=
    List.mapM_pure (f := RefState.listed?)
  rw [hall, Option.map_some, List.filterMap_map] at hlisted
  exact eq_ok_of_toOption hlisted

theorem toOption_pullRequests (h : c.Shows n owner repository s) :
    (c.pullRequests n owner repository).run.value.toOption = s.listedPullRequests? :=
  toOption_of_tells h.tells_pullRequests (understands_pullRequestForm c.product)
    (c.pullRequests_eq n owner repository)

theorem value_pullRequests (h : c.Shows n owner repository s) {prs : List PullRequest}
    (hlisted : s.listedPullRequests? = some prs) :
    (c.pullRequests n owner repository).run.value = .ok prs :=
  eq_ok_of_toOption (h.toOption_pullRequests.trans hlisted)

end Shows

end Client

/-! ### Scans -/

namespace Scan

variable {api api' : Api} {r : Repository}

/-- A scan does not tell apart two that list the same refs, and the same pull requests or none. -/
theorem value_heads_congr
    (hrefs : (api.answer (.branches r.owner r.name)).run.value =
      (api'.answer (.branches r.owner r.name)).run.value)
    (htags : (api.answer (.tags r.owner r.name)).run.value =
      (api'.answer (.tags r.owner r.name)).run.value)
    (hprs : (api.answer (.pullRequests r.owner r.name)).run.value.toOption =
      (api'.answer (.pullRequests r.owner r.name)).run.value.toOption) (traits : List Trait) :
    (heads api traits r).run.value = (heads api' traits r).run.value := by
  have hrequest : (Scan.request api traits r).value = (Scan.request api' traits r).value := by
    rw [value_request, value_request, hprs]
  rw [value_heads_eq, value_heads_eq, hrequest, listedBranches, listedBranches, listedTags,
    listedTags, hrefs, htags]

end Scan

namespace Client

variable {c d : Client} {n m : Network} {owner : OwnerName} {repository : RepositoryName}
  {s : RepositoryState}

/-- Two clients, of either product, that are shown the same repository list the same. All refs that
have names are listed. The pull requests are listed by both or by neither, and by both where each
source that is there has an owner and a name. So no scan of the repository differs, whatever its
traits. -/
theorem listings_agree_of_shows (hc : c.Shows n owner repository s)
    (hd : d.Shows m owner repository s) :
    (∀ kind, (c.refs n kind owner repository).run.value =
          .ok ((s.refs kind).filterMap RefState.listed?) ∧
        (d.refs m kind owner repository).run.value = (c.refs n kind owner repository).run.value) ∧
      ((c.pullRequests n owner repository).run.value.toOption = s.listedPullRequests? ∧
        (d.pullRequests m owner repository).run.value.toOption =
          (c.pullRequests n owner repository).run.value.toOption) ∧
      ((∀ p ∈ s.pullRequests, ∀ r ∈ p.source.repository, r.IsNamed) →
        ∃ prs, (c.pullRequests n owner repository).run.value = .ok prs ∧
          (d.pullRequests m owner repository).run.value = .ok prs) ∧
      ∀ traits links, (Scan.heads (d.api m) traits ⟨owner, repository, links⟩).run.value =
        (Scan.heads (c.api n) traits ⟨owner, repository, links⟩).run.value := by
  have hrefs (kind : RefKind) : (d.refs m kind owner repository).run.value =
      (c.refs n kind owner repository).run.value :=
    (hd.value_refs kind).trans (hc.value_refs kind).symm
  have hprs : (d.pullRequests m owner repository).run.value.toOption =
      (c.pullRequests n owner repository).run.value.toOption :=
    hd.toOption_pullRequests.trans hc.toOption_pullRequests.symm
  refine ⟨fun kind => ⟨hc.value_refs kind, hrefs kind⟩, ⟨hc.toOption_pullRequests, hprs⟩, ?_, ?_⟩
  · intro hnamed
    obtain ⟨prs, hlisted⟩ := RepositoryState.exists_listedPullRequests? hnamed
    exact ⟨prs, hc.value_pullRequests hlisted, hd.value_pullRequests hlisted⟩
  · intro traits links
    exact Scan.value_heads_congr (hrefs .branch) (hrefs .tag) hprs traits

/-! ### Networks that show a repository -/

theorem withQuery_injective (query : String) :
    Function.Injective fun url => withQuery url query := by
  intro url url' h
  have happend := (String.append_left_inj _).mp h
  -- The sign before the query is one character, whichever it is.
  have hlists := congrArg String.toList happend
  rw [String.toList_append, String.toList_append] at hlists
  obtain ⟨hurl, -⟩ := List.append_inj' hlists (by split_ifs <;> rfl)
  exact String.toList_inj.mp hurl

/-- Addresses that are the same have queries that end alike. -/
theorem take_reverse_eq_of_withQuery_eq {url url' query query' : String}
    (h : withQuery url query = withQuery url' query') {k : Nat} (hk : k ≤ query.toList.length)
    (hk' : k ≤ query'.toList.length) :
    query.toList.reverse.take k = query'.toList.reverse.take k := by
  have hlists := congrArg (fun s => s.toList.reverse.take k) h
  simp only [withQuery, String.toList_append, List.reverse_append] at hlists
  rwa [List.take_append_of_le_length (by rwa [List.length_reverse]),
    List.take_append_of_le_length (by rwa [List.length_reverse])] at hlists

/-- The address of the first page of a listing. -/
def pageUrl (c : Client) (url : String) : String :=
  match c.product with
  | .cloud => firstPageUrl url
  | .server => serverPageUrl url 0

/-- An address for the second page of a listing, which on Server starts at the second entry. -/
def nextPageUrl (c : Client) (url : String) : String :=
  match c.product with
  | .cloud => withQuery url "pagelen=100&page=2"
  | .server => serverPageUrl url 1

theorem pageUrl_injective (c : Client) : Function.Injective c.pageUrl := by
  intro url url' h
  unfold pageUrl at h
  cases hproduct : c.product with
  | cloud | server =>
    rw [hproduct] at h
    exact withQuery_injective _ h

theorem nextPageUrl_injective (c : Client) : Function.Injective c.nextPageUrl := by
  intro url url' h
  unfold nextPageUrl at h
  cases hproduct : c.product with
  | cloud | server =>
    rw [hproduct] at h
    exact withQuery_injective _ h

theorem pageUrl_ne_nextPageUrl (c : Client) (url url' : String) :
    c.pageUrl url ≠ c.nextPageUrl url' := by
  intro h
  unfold pageUrl nextPageUrl at h
  cases hproduct : c.product with
  | cloud =>
    rw [hproduct] at h
    -- One of the queries ends in a zero, the other one in a two.
    have hend := take_reverse_eq_of_withQuery_eq h (k := 1) (by decide +kernel) (by decide +kernel)
    exact absurd hend (by decide +kernel)
  | server =>
    rw [hproduct] at h
    -- The limits are the same, so it is the start in front of them that differs.
    have hend := take_reverse_eq_of_withQuery_eq h (k := 11) (by decide +kernel) (by decide +kernel)
    exact absurd hend (by decide +kernel)

/-- A page that lists some documents, and says whether there is a second page. -/
def pageDocument (c : Client) (url : String) (vs : List Json) (more : Bool) : Json :=
  .record <| ("values", .array vs) ::
    match c.product, more with
    | .cloud, true => [("next", .text (c.nextPageUrl url))]
    | .cloud, false => []
    | .server, true => [("isLastPage", .bool false), ("nextPageStart", .nat 1)]
    | .server, false => [("isLastPage", .bool true)]

theorem parse?_pageDocument (c : Client) (url : String) (vs : List Json)
    (hvs : ∀ v ∈ vs, v.HasWrittenNumbers) (more : Bool) :
    Json.parse? (c.pageDocument url vs more).render = some (c.pageDocument url vs more) := by
  have hvalues : (Json.array vs).HasWrittenNumbers := Json.hasWrittenNumbers_array hvs
  refine Json.parse?_render ?_
  unfold pageDocument
  cases c.product <;> cases more <;> exact Json.hasWrittenNumbers_record (by simp [hvalues])

/-- A page that names no next one is the last one, on either product. -/
theorem isCloudPage_of_none (vs : List Json) :
    IsCloudPage vs none (.record [("values", .array vs)]) := by
  refine Or.inl (Json.IsRecord.of_record _ (by simp) ?_)
  simp only [List.forall_mem_cons]
  exact ⟨⟨_, rfl, Or.inl rfl⟩, ⟨none, rfl, Or.inl rfl⟩, List.forall_mem_nil _⟩

theorem isCloudPage_of_some (vs : List Json) (next : String) :
    IsCloudPage vs (some next) (.record [("values", .array vs), ("next", .text next)]) := by
  refine Or.inl (Json.IsRecord.of_record _ (by simp) ?_)
  simp only [List.forall_mem_cons]
  exact ⟨⟨_, rfl, Or.inl rfl⟩, ⟨_, rfl, rfl⟩, List.forall_mem_nil _⟩

theorem isServerPage_of_none (vs : List Json) :
    IsServerPage vs none (.record [("values", .array vs), ("isLastPage", .bool true)]) := by
  refine ⟨true, none, Or.inl (Json.IsRecord.of_record _ (by simp) ?_), rfl⟩
  simp only [List.forall_mem_cons]
  exact ⟨⟨_, rfl, Or.inl rfl⟩, ⟨_, rfl, Or.inl rfl⟩, ⟨none, rfl, Or.inl rfl⟩,
    List.forall_mem_nil _⟩

theorem isServerPage_of_some (vs : List Json) (start : UInt64) :
    IsServerPage vs (some start) (.record [("values", .array vs), ("isLastPage", .bool false),
      ("nextPageStart", .nat start.toNat)]) := by
  refine ⟨false, some start, Or.inl (Json.IsRecord.of_record _ (by simp) ?_), rfl⟩
  simp only [List.forall_mem_cons]
  exact ⟨⟨_, rfl, Or.inl rfl⟩, ⟨_, rfl, Or.inl rfl⟩,
    ⟨_, rfl, Decimal.digits start.toNat, rfl, Decimal.value_digits start.toNat⟩,
    List.forall_mem_nil _⟩

/-- A network has some documents on two pages, all but the first of them on the second page. -/
structure HasPages (c : Client) (n : Network) (url : String) (vs : List Json) : Prop where
  first : n.answer (c.pageUrl url) = .reply 200 (c.pageDocument url (vs.take 1) true).render
  second : n.answer (c.nextPageUrl url) = .reply 200 (c.pageDocument url (vs.drop 1) false).render

/-- What stands on two pages is served by pages. -/
theorem HasPages.serves {β : Type} {form : ListingForm β} {url : String} {vs : List Json}
    (h : c.HasPages n url vs) (hsend : c.canSend = true) (hvs : ∀ v ∈ vs, v.HasWrittenNumbers) :
    c.Serves form.documents url n [c.pageUrl url, c.nextPageUrl url] [vs.take 1, vs.drop 1]
      none := by
  have hfirst := c.parse?_pageDocument url (vs.take 1)
    (fun v hv => hvs v (List.mem_of_mem_take hv)) true
  have hsecond := c.parse?_pageDocument url (vs.drop 1)
    (fun v hv => hvs v (List.mem_of_mem_drop hv)) false
  have hsame (ws : List Json) : List.Forall₂ (fun w w' => some w = some w') ws ws :=
    List.forall₂_same.mpr fun _ _ => rfl
  have hne := c.pageUrl_ne_nextPageUrl url url
  have hreach : c.reach n = n := if_pos hsend
  obtain ⟨hanswer, hanswer'⟩ := h
  -- The products differ in where the second page stands and in how the first one names it.
  obtain ⟨product, baseUrl, credentials⟩ := c
  unfold Serves
  rw [hreach]
  cases product with
  | cloud =>
    have hpage : Brings IsCloudPage some form.document (firstPageUrl url)
        (n.answer (pageUrl ⟨.cloud, baseUrl, credentials⟩ url))
        (.ok (vs.take 1, some (nextPageUrl ⟨.cloud, baseUrl, credentials⟩ url))) := by
      rw [hanswer]
      exact .page (by decide) hfirst (isCloudPage_of_some _ _) (hsame _)
    have hlast : Brings IsCloudPage some form.document
        (nextPageUrl ⟨.cloud, baseUrl, credentials⟩ url)
        (n.answer (nextPageUrl ⟨.cloud, baseUrl, credentials⟩ url)) (.ok (vs.drop 1, none)) := by
      rw [hanswer']
      exact .page (by decide) hsecond (isCloudPage_of_none _) (hsame _)
    have hnodup := List.nodup_cons.mpr
      ⟨mt List.mem_singleton.mp hne, List.nodup_singleton _⟩
    exact ⟨.step hpage (.last hlast), hnodup⟩
  | server =>
    have hpage : Brings IsServerPage some form.document (serverPageUrl url 0)
        (n.answer (pageUrl ⟨.server, baseUrl, credentials⟩ url)) (.ok (vs.take 1, some 1)) := by
      rw [hanswer]
      exact .page (by decide) hfirst (isServerPage_of_some _ _) (hsame _)
    have hlast : Brings IsServerPage some form.document (serverPageUrl url 1)
        (n.answer (nextPageUrl ⟨.server, baseUrl, credentials⟩ url))
        (.ok (vs.drop 1, none)) := by
      rw [hanswer']
      exact .page (by decide) hsecond (isServerPage_of_none _) (hsame _)
    exact ⟨[0, 1], by decide, rfl, .step hpage (.last hlast)⟩

section Written

variable {β σ : Type} {form : ListingForm β} {stands : σ → Json → Prop} {url : String}
  {write : σ → Json} {states : List σ}

theorem forall₂_stands_map (hstands : ∀ a, stands a (write a)) :
    List.Forall₂ stands states (states.map write) :=
  List.forall₂_map_right_iff.mpr (List.forall₂_same.mpr fun a _ => hstands a)

theorem flatten_take_drop (vs : List Json) : [vs.take 1, vs.drop 1].flatten = vs := by
  rw [List.flatten_cons, List.flatten_singleton, List.take_append_drop]

/-- The documents of some things are told on two pages. -/
theorem HasPages.tells (h : c.HasPages n url (states.map write)) (hsend : c.canSend = true)
    (hwritten : ∀ a, (write a).HasWrittenNumbers) (hstands : ∀ a, stands a (write a)) :
    c.Tells form stands url n states := by
  refine ⟨_, _, h.serves hsend (List.forall_mem_map.mpr fun a _ => hwritten a), ?_⟩
  exact (congrArg (List.Forall₂ stands states) (flatten_take_drop _)).mpr
    (forall₂_stands_map hstands)

/-- A listing of them asks for both pages. -/
theorem HasPages.urls (h : c.HasPages n url (states.map write)) (hsend : c.canSend = true)
    (hwritten : ∀ a, (write a).HasWrittenNumbers) (hstands : ∀ a, stands a (write a))
    {becomes : σ → Option (Option β)} (hform : form.Understands stands becomes)
    {listing : Answering (List β)}
    (hlisting : listing = (do
      let es ← c.entries form url n
      convert url (form.collect es))) :
    Exchange.urls listing.run.steps = [c.pageUrl url, c.nextPageUrl url] := by
  have hserves : c.Serves form.documents url n _ _ none :=
    h.serves hsend (List.forall_mem_map.mpr fun a _ => hwritten a)
  have hall : List.Forall₂ stands states (states.map write) := forall₂_stands_map hstands
  have hread := hform.exists_read hall
  rw [← flatten_take_drop (states.map write)] at hread
  exact (listing_of_serves (hserves.of_documents hread) hlisting).2

end Written

/-- The bodies of the two pages of a listing, with their addresses. -/
def pages (c : Client) (url : String) (vs : List Json) : List (String × String) :=
  [(c.pageUrl url, (c.pageDocument url (vs.take 1) true).render),
    (c.nextPageUrl url, (c.pageDocument url (vs.drop 1) false).render)]

section Pages

variable (c) (url : String) (vs : List Json) (rest : List (String × String))

theorem hasPages_cons_self : c.HasPages (.ofPages (c.pages url vs ++ rest)) url vs where
  first := Network.answer_ofPages_cons_self
  second := by
    have hne := c.pageUrl_ne_nextPageUrl url url
    exact (Network.answer_ofPages_cons_of_ne hne.symm).trans Network.answer_ofPages_cons_self

variable {c url vs rest} {url' : String} {vs' : List Json}

/-- The pages of another listing stand at other addresses. -/
theorem HasPages.cons_of_ne (h : c.HasPages (.ofPages rest) url vs) (hne : url ≠ url') :
    c.HasPages (.ofPages (c.pages url' vs' ++ rest)) url vs where
  first := by
    rw [pages, List.cons_append, List.cons_append, List.nil_append,
      Network.answer_ofPages_cons_of_ne (c.pageUrl_injective.ne hne),
      Network.answer_ofPages_cons_of_ne (c.pageUrl_ne_nextPageUrl url url'), h.first]
  second := by
    rw [pages, List.cons_append, List.cons_append, List.nil_append,
      Network.answer_ofPages_cons_of_ne (c.pageUrl_ne_nextPageUrl url' url).symm,
      Network.answer_ofPages_cons_of_ne (c.nextPageUrl_injective.ne hne), h.second]

end Pages

/-- A network that lists what a repository holds, each listing on two pages. -/
def showing (c : Client) (owner : OwnerName) (repository : RepositoryName) (s : RepositoryState) :
    Network :=
  .ofPages <|
    c.pages (c.refsUrl .branch owner repository) (s.branches.map (·.document c.product)) ++
      (c.pages (c.refsUrl .tag owner repository) (s.tags.map (·.document c.product)) ++
        (c.pages (c.pullRequestsUrl owner repository)
          (s.pullRequests.map (·.document c.product)) ++ []))

section Showing

variable (c) (owner) (repository) (s)

theorem refsUrl_branch_ne_tag :
    c.refsUrl .branch owner repository ≠ c.refsUrl .tag owner repository := by
  intro h
  have hpath := (String.append_right_inj _).mp h
  revert hpath
  cases c.product with
  | cloud | server => decide

theorem refsUrl_ne_pullRequestsUrl (kind : RefKind) :
    c.refsUrl kind owner repository ≠ c.pullRequestsUrl owner repository := by
  intro h
  have hpath := (String.append_right_inj _).mp h
  revert hpath
  cases c.product with
  | cloud | server => cases kind with
    | branch | tag => decide

theorem hasPages_showing_refs (kind : RefKind) :
    c.HasPages (c.showing owner repository s) (c.refsUrl kind owner repository)
      ((s.refs kind).map (·.document c.product)) := by
  cases kind with
  | branch => exact c.hasPages_cons_self _ _ _
  | tag =>
    exact (c.hasPages_cons_self _ _ _).cons_of_ne (c.refsUrl_branch_ne_tag owner repository).symm

theorem hasPages_showing_pullRequests :
    c.HasPages (c.showing owner repository s) (c.pullRequestsUrl owner repository)
      (s.pullRequests.map (·.document c.product)) := by
  -- The first address that matches counts, so both listings before it must stand elsewhere.
  have hne (kind : RefKind) := (c.refsUrl_ne_pullRequestsUrl owner repository kind).symm
  exact ((c.hasPages_cons_self _ _ _).cons_of_ne (hne .tag)).cons_of_ne (hne .branch)

variable {c} {owner} {repository}

/-- Whatever a repository holds, each product can list it. -/
theorem shows_showing (hsend : c.canSend = true) :
    c.Shows (c.showing owner repository s) owner repository s where
  tells_refs kind := (c.hasPages_showing_refs owner repository s kind).tells hsend
    (fun r => r.hasWrittenNumbers_document c.product) (fun r => r.stands_document c.product)
  tells_pullRequests := (c.hasPages_showing_pullRequests owner repository s).tells hsend
    (fun p => p.hasWrittenNumbers_document c.product) (fun p => p.stands_document c.product)

/-- A listing of its refs asks for two pages. -/
theorem urls_refs_showing (hsend : c.canSend = true) (kind : RefKind) :
    Exchange.urls (c.refs (c.showing owner repository s) kind owner repository).run.steps =
      [c.pageUrl (c.refsUrl kind owner repository),
        c.nextPageUrl (c.refsUrl kind owner repository)] :=
  (c.hasPages_showing_refs owner repository s kind).urls hsend
    (fun r => r.hasWrittenNumbers_document c.product) (fun r => r.stands_document c.product)
    (understands_refForm c.product) (c.refs_eq _ kind owner repository)

end Showing

/-- Branches `main` and `dev` and one without a name, and a tag without a commit. There are pull
requests from a fork, from a repository that is gone and from `dev`. -/
def sampleHoldings : RepositoryState where
  branches := [⟨"main", some "a"⟩, ⟨"", some "b"⟩, ⟨"dev", some "d"⟩]
  tags := [⟨"v1", none⟩]
  pullRequests :=
    [⟨1, "fork", ⟨"fix", some "c", some ⟨⟨"user"⟩, ⟨"widget"⟩, []⟩, by decide⟩,
        ⟨"main", some "a", none, by decide⟩⟩,
      ⟨2, "gone", ⟨"old", none, none, by decide⟩, ⟨"main", some "a", none, by decide⟩⟩,
      ⟨3, "own", ⟨"dev", some "d", some ⟨⟨"team"⟩, ⟨"widget"⟩, []⟩, by decide⟩,
        ⟨"main", some "a", none, by decide⟩⟩]

/-- A network that lists them for a client. -/
def sampleShown (c : Client) : Network := c.showing ⟨"team"⟩ ⟨"widget"⟩ sampleHoldings

/-- Cloud and Server list them alike, each on two pages, and what cannot be listed is passed over by
both. -/
theorem listings_agree_sampleHoldings :
    ((sampleBranches sampleServerClient (sampleShown sampleServerClient)).run.value =
          .ok [⟨⟨"main"⟩, some ⟨"a"⟩⟩, ⟨⟨"dev"⟩, some ⟨"d"⟩⟩] ∧
        (sampleBranches sampleServerClient (sampleShown sampleServerClient)).run.value =
          (sampleBranches sampleClient (sampleShown sampleClient)).run.value) ∧
      (Exchange.urls (sampleBranches sampleServerClient (sampleShown sampleServerClient)).run.steps =
          [serverUrl, nextServerUrl] ∧
        Exchange.urls (sampleBranches sampleClient (sampleShown sampleClient)).run.steps =
          [cloudUrl, cloudUrl ++ "&page=2"]) ∧
      (sampleServerClient.pullRequests (sampleShown sampleServerClient) ⟨"team"⟩
          ⟨"widget"⟩).run.value =
        .ok [⟨⟨1⟩, "fork", ⟨⟨⟨"user"⟩, ⟨"widget"⟩, []⟩, ⟨"fix"⟩, .branch, some ⟨"c"⟩⟩, ⟨"main"⟩⟩,
          ⟨⟨3⟩, "own", ⟨⟨⟨"team"⟩, ⟨"widget"⟩, []⟩, ⟨"dev"⟩, .branch, some ⟨"d"⟩⟩, ⟨"main"⟩⟩] ∧
      ∀ traits links,
        (Scan.heads (sampleServerClient.api (sampleShown sampleServerClient)) traits
            ⟨⟨"team"⟩, ⟨"widget"⟩, links⟩).run.value =
          (Scan.heads (sampleClient.api (sampleShown sampleClient)) traits
            ⟨⟨"team"⟩, ⟨"widget"⟩, links⟩).run.value := by
  have hcloud : sampleClient.Shows (sampleShown sampleClient) ⟨"team"⟩ ⟨"widget"⟩ sampleHoldings :=
    shows_showing sampleHoldings rfl
  have hserver : sampleServerClient.Shows (sampleShown sampleServerClient) ⟨"team"⟩ ⟨"widget"⟩
      sampleHoldings := shows_showing sampleHoldings rfl
  obtain ⟨hrefs, ⟨hlisted, hprs⟩, -, hscans⟩ := listings_agree_of_shows hcloud hserver
  obtain ⟨hbranches, hsame⟩ := hrefs .branch
  refine ⟨⟨hsame.trans hbranches, hsame⟩, ⟨?_, ?_⟩, eq_ok_of_toOption (hprs.trans hlisted), hscans⟩
  · exact (urls_refs_showing sampleHoldings rfl .branch).trans (by decide +kernel)
  · exact (urls_refs_showing sampleHoldings rfl .branch).trans (by decide +kernel)

end Client

end HeadScout
