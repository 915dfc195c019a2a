import HeadScout.Proofs.Discovery.FailOpen
import HeadScout.Proofs.Repository

/-!
# What any scan can find

Traits may be put together in ways that no configuration does: one trait wants tags and another asks
for their category, pull requests are loaded for a filter and listed for another reason, and filters
decide by whatever they like. Whatever the traits, a scan finds only what was listed and what some
trait wants, in the order of the listings. Where branches are the only heads that are ever trusted,
nothing that an outsider can open is: neither a tag nor a pull request.

## Main definitions

* `Scan.knownPullRequests` — the pull requests that a scan knows
* `Scan.wantsFrom` — whether a scan lists a pull request
* `Scan.listed` — what a listing lists

## Main results

* `Scan.value_heads_eq` — what any scan finds, told by the answers
* `Scan.heads_sound` — what is found was listed and is wanted, and what is trusted is a branch
-/

namespace HeadScout

/-! ### What some trait asks for -/

namespace DiscoveryContext

variable {traits : List Trait}

/-- Some trait makes an addition exactly if a question that only this addition answers with yes is
answered so by the decorations of some trait. -/
theorem any_decorations_iff {p : Decoration → Bool} {d : Decoration}
    (hp : ∀ d', p d' = true ↔ d' = d) :
    (traits.any fun t => t.decorations.any p) = true ↔ ∃ t ∈ traits, d ∈ t.decorations := by
  simp only [List.any_eq_true, hp, exists_eq_right]

theorem wantsBranches_ofTraits_iff :
    (ofTraits traits).wantsBranches = true ↔
      ∃ t ∈ traits, Decoration.wantBranches true ∈ t.decorations := by
  rw [ofTraits_eq]
  refine any_decorations_iff fun d => ?_
  cases d <;> simp [Decoration.wantsBranches]

theorem wantsTags_ofTraits_iff :
    (ofTraits traits).wantsTags = true ↔
      ∃ t ∈ traits, Decoration.wantTags true ∈ t.decorations := by
  rw [ofTraits_eq]
  refine any_decorations_iff fun d => ?_
  cases d <;> simp [Decoration.wantsTags]

theorem wantsOriginPullRequests_ofTraits_iff :
    (ofTraits traits).wantsOriginPullRequests = true ↔
      ∃ t ∈ traits, Decoration.wantOriginPullRequests true ∈ t.decorations := by
  rw [ofTraits_eq]
  refine any_decorations_iff fun d => ?_
  cases d <;> simp [Decoration.wantsOriginPullRequests]

theorem wantsForkPullRequests_ofTraits_iff :
    (ofTraits traits).wantsForkPullRequests = true ↔
      ∃ t ∈ traits, Decoration.wantForkPullRequests true ∈ t.decorations := by
  rw [ofTraits_eq]
  refine any_decorations_iff fun d => ?_
  cases d <;> simp [Decoration.wantsForkPullRequests]

theorem includes_ofTraits_iff {category : HeadCategory} :
    (ofTraits traits).includes category = true ↔ ∃ t ∈ traits, t.includes category = true := by
  have hall : category ∈ HeadCategory.all := by cases category <;> decide
  rw [includes, ofTraits_eq, decide_eq_true_iff, List.mem_filter, List.any_eq_true]
  exact and_iff_right hall

theorem mem_authorities_ofTraits_iff {a : HeadAuthority} :
    a ∈ (ofTraits traits).authorities ↔
      ∃ t ∈ traits, Decoration.authority a ∈ t.decorations := by
  rw [ofTraits_eq, List.mem_flatMap]
  refine exists_congr fun t => and_congr_right fun _ => ?_
  rw [List.mem_filterMap]
  constructor
  · rintro ⟨d, hd, ha⟩
    cases d with
    | authority a' =>
      cases ha
      exact hd
    | _ => cases ha
  · intro h
    exact ⟨_, h, rfl⟩

end DiscoveryContext

/-- A pull request comes from a ref of the repository exactly if its source is that repository, by
owner and name, and that ref. -/
theorem PullRequest.comesFrom_iff {p : PullRequest} {r : Repository} {b : RefName}
    (hp : p.source.repository.IsQualified) (hr : r.IsQualified) :
    p.ComesFrom r b ↔ r.isSameAs p.source.repository = true ∧ p.source.branch = b := by
  rw [ComesFrom, Repository.isSameAs_comm, ← hp.matchesFullName_iff hr, Repository.matchesFullName,
    Text.sameLetters_iff]

namespace Scan

variable {api : Api} {traits : List Trait} {r : Repository}

/-- Where no trait adds another authority, exactly the branches are trusted, and only if some trait
adds the one that trusts them. -/
theorem isTrusted_ofTraits_iff
    (hauthorities : ∀ t ∈ traits, ∀ a, Decoration.authority a ∈ t.decorations → a = .branches)
    (v : SourceView) (h : Head) :
    SourceRequest.isTrusted ⟨.ofTraits traits, v⟩ h = true ↔
      (∃ name, h = .branch name) ∧
        ∃ t ∈ traits, Decoration.authority .branches ∈ t.decorations := by
  have hbranches : HeadAuthority.branches.trusts v h = true ↔ ∃ name, h = .branch name := by
    cases h <;> simp [HeadAuthority.branches]
  rw [SourceRequest.isTrusted, List.any_eq_true, ← hbranches]
  constructor
  · rintro ⟨a, ha, htrusts⟩
    obtain ⟨t, ht, hat⟩ := DiscoveryContext.mem_authorities_ofTraits_iff.mp ha
    obtain rfl := hauthorities t ht a hat
    exact ⟨htrusts, t, ht, hat⟩
  · rintro ⟨htrusts, hadded⟩
    exact ⟨_, DiscoveryContext.mem_authorities_ofTraits_iff.mpr hadded, htrusts⟩

/-! ### Where pull requests come from -/

/-- A pull request comes from the repository itself exactly if its source names the same one. -/
theorem originOf_ofPullRequest (request : SourceRequest) (p : PullRequest) :
    request.originOf (.pullRequest (.ofPullRequest p)) =
      if request.view.repository.isSameAs p.source.repository then .own
      else .fork p.source.repository.owner := rfl

/-- Whether a scan lists the pull request, given what it looks for in a repository. -/
def wantsFrom (c : DiscoveryContext) (r : Repository) (p : PullRequest) : Bool :=
  c.includes .changeRequests &&
    if r.isSameAs p.source.repository then c.wantsOriginPullRequests else c.wantsForkPullRequests

theorem changeRequests_eq (c : DiscoveryContext) (r : Repository)
    (prs : Option (List PullRequest)) :
    changeRequests ⟨c, r, prs⟩ = ((prs.getD []).filter (wantsFrom c r)).map ofPullRequest := by
  have hwants : ∀ p : PullRequest,
      wants ⟨c, r, prs⟩ (SourceRequest.originOf ⟨c, r, prs⟩ (ofPullRequest p).1) =
        if r.isSameAs p.source.repository then c.wantsOriginPullRequests
        else c.wantsForkPullRequests := by
    intro p
    rw [ofPullRequest, originOf_ofPullRequest]
    split_ifs <;> rfl
  have hfrom : wantsFrom c r = fun p => c.includes .changeRequests &&
      if r.isSameAs p.source.repository then c.wantsOriginPullRequests
      else c.wantsForkPullRequests := rfl
  rw [changeRequests, hfrom]
  simp only [List.filter_map, Function.comp_def, hwants]
  cases c.includes .changeRequests with
  | true => simp only [if_true, Bool.true_and]
  | false =>
    simp only [Bool.false_eq_true, if_false, Bool.false_and, List.filter_false, List.map_nil]

/-! ### What a scan finds -/

/-- The pull requests that a scan knows: those that are listed, if it wants any. -/
def knownPullRequests (api : Api) (c : DiscoveryContext) (r : Repository) :
    Option (List PullRequest) :=
  if c.wantsPullRequests then (api.answer (.pullRequests r.owner r.name)).run.value.toOption
  else none

theorem knownPullRequests_of_ok {c : DiscoveryContext} {prs : List PullRequest}
    (h : (api.answer (.pullRequests r.owner r.name)).run.value = .ok prs) :
    knownPullRequests api c r = if c.wantsPullRequests then some prs else none := by
  rw [knownPullRequests, h]
  rfl

theorem value_request_eq (api : Api) (traits : List Trait) (r : Repository) :
    (Scan.request api traits r).value =
      ⟨.ofTraits traits, r, knownPullRequests api (.ofTraits traits) r⟩ :=
  value_request api traits r

/-- What becomes of listed branches, listed tags and the pull requests that a request wants. -/
def foundAmong (request : SourceRequest) (bs ts : List GitRef) : List DiscoveredHead :=
  (bs.map (ofRef .branch) ++ ts.map (ofRef .tag) ++ changeRequests request).filterMap
    (found request)

/-- A scan lists the branches and the tags that it needs, and finds what becomes of them and of the
pull requests. -/
theorem value_heads_eq (api : Api) (traits : List Trait) (r : Repository) :
    (heads api traits r).run.value =
      (listedBranches api (.ofTraits traits) r).bind fun bs =>
        (listedTags api (.ofTraits traits) r).map
          (foundAmong (Scan.request api traits r).value bs) := by
  rw [value_heads, value_request_eq, value_candidates, value_branches, value_tags]
  cases listedBranches api (.ofTraits traits) r with
  | error e => rfl
  | ok bs => cases listedTags api (.ofTraits traits) r <;> rfl

theorem value_heads_eq_ok_iff {ds : List DiscoveredHead} :
    (heads api traits r).run.value = .ok ds ↔
      ∃ bs ts, listedBranches api (.ofTraits traits) r = .ok bs ∧
        listedTags api (.ofTraits traits) r = .ok ts ∧
        ds = foundAmong (Scan.request api traits r).value bs ts := by
  rw [value_heads_eq]
  cases listedBranches api (.ofTraits traits) r with
  | error e => simp [Except.bind]
  | ok bs => cases listedTags api (.ofTraits traits) r <;> simp [Except.bind, Except.map, eq_comm]

/-- A scan fails only where one of these listings does. -/
theorem value_heads_eq_error_iff {e : ApiError} :
    (heads api traits r).run.value = .error e ↔
      listedBranches api (.ofTraits traits) r = .error e ∨
        (∃ bs, listedBranches api (.ofTraits traits) r = .ok bs) ∧
          listedTags api (.ofTraits traits) r = .error e := by
  rw [value_heads_eq]
  cases listedBranches api (.ofTraits traits) r with
  | error e' => simp [Except.bind]
  | ok bs => cases listedTags api (.ofTraits traits) r <;> simp [Except.bind, Except.map]

/-- What is found among some candidates are those that no filter leaves out. -/
theorem filterMap_found {α : Type} (request : SourceRequest) (f : α → Candidate) (as : List α) :
    (as.map f).filterMap (found request) =
      (as.filter fun a => !(request.isExcluded (f a).1).value).map fun a =>
        ⟨(f a).1, (f a).2, request.isTrusted (f a).1⟩ := by
  rw [List.filterMap_map, ← List.filterMap_eq_map, List.filterMap_filter]
  congr 1
  funext a
  rw [Function.comp_apply, found]
  cases (request.isExcluded (f a).1).value <;> rfl

/-- Filters that look at pull requests decide about branches, and leave out no pull request. -/
theorem value_isExcluded_pullRequest {request : SourceRequest}
    (hfilters : ∀ f ∈ request.context.filters, f.LooksAtPullRequests) (h : PullRequestHead) :
    (request.isExcluded (.pullRequest h)).value = false := by
  rw [value_isExcluded, List.any_eq_false]
  intro f hf
  rcases hfilters f hf with rfl | rfl <;> exact Bool.false_ne_true

/-! ### Soundness -/

/-- What a listing lists; nothing if it fails. -/
def listed {α : Type} (answer : Except ApiError (List α)) : List α := answer.toOption.getD []

theorem sublist_listed_of_needed {isNeeded : Bool} {answer : Except ApiError (List GitRef)}
    {gs : List GitRef} (h : needed isNeeded answer = .ok gs) :
    gs.Sublist (listed answer) ∧ (gs ≠ [] → isNeeded = true) := by
  cases isNeeded with
  | true =>
    have hanswer : answer = .ok gs := h
    rw [hanswer]
    exact ⟨List.Sublist.refl gs, fun _ => rfl⟩
  | false =>
    cases h
    exact ⟨List.nil_sublist _, fun hne => absurd rfl hne⟩

theorem knownPullRequests_sublist_listed (api : Api) (c : DiscoveryContext) (r : Repository) :
    ((knownPullRequests api c r).getD []).Sublist
      (listed (api.answer (.pullRequests r.owner r.name)).run.value) := by
  rw [knownPullRequests]
  split_ifs
  · exact List.Sublist.refl _
  · exact List.nil_sublist _

/-- What tells apart entries that something else tells apart already lists no entry twice. -/
theorem nodup_map_of_nodup_map {α β γ : Type} {f : α → β} {g : α → γ} {as : List α}
    (hfg : ∀ a b, f a = f b → g a = g b) (h : (as.map g).Nodup) : (as.map f).Nodup := by
  rw [List.Nodup, List.pairwise_map] at h ⊢
  exact h.imp fun hne hsame => hne (hfg _ _ hsame)

/-- Heads of listed refs and pull requests differ if the listings repeat no name and no number. -/
theorem nodup_heads {bs ts : List GitRef} {ps : List PullRequest} (hbs : (bs.map (·.name)).Nodup)
    (hts : (ts.map (·.name)).Nodup) (hps : (ps.map (·.id)).Nodup) :
    (bs.map (fun b => Head.branch b.name) ++ ts.map (fun t => Head.tag t.name) ++
      ps.map fun p => Head.pullRequest (.ofPullRequest p)).Nodup := by
  have hbranches : (bs.map fun b => Head.branch b.name).Nodup :=
    nodup_map_of_nodup_map (fun _ _ h => Head.branch.inj h) hbs
  have htags : (ts.map fun t => Head.tag t.name).Nodup :=
    nodup_map_of_nodup_map (fun _ _ h => Head.tag.inj h) hts
  have hpullRequests : (ps.map fun p => Head.pullRequest (.ofPullRequest p)).Nodup :=
    nodup_map_of_nodup_map
      (fun _ _ h => congrArg PullRequestHead.id (Head.pullRequest.inj h)) hps
  -- Heads of different kinds are different, whatever their names.
  refine List.nodup_append.mpr ⟨List.nodup_append.mpr ⟨hbranches, htags, ?_⟩, hpullRequests, ?_⟩
  · intro h hb h' ht
    obtain ⟨b, -, rfl⟩ := List.mem_map.mp hb
    obtain ⟨t, -, rfl⟩ := List.mem_map.mp ht
    exact nofun
  · intro h hrefs h' hp
    obtain ⟨p, -, rfl⟩ := List.mem_map.mp hp
    rcases List.mem_append.mp hrefs with hb | ht
    · obtain ⟨b, -, rfl⟩ := List.mem_map.mp hb
      exact nofun
    · obtain ⟨t, -, rfl⟩ := List.mem_map.mp ht
      exact nofun

/-- What is found are listed branches, then listed tags, then listed pull requests, each as listed
and in the order of its listing. -/
theorem exists_listed_of_value_heads {ds : List DiscoveredHead}
    (hds : (heads api traits r).run.value = .ok ds) :
    ∃ (bs ts : List GitRef) (ps : List PullRequest),
      (bs.Sublist (listed (api.answer (.branches r.owner r.name)).run.value) ∧
        (bs ≠ [] → (DiscoveryContext.ofTraits traits).needsBranches = true)) ∧
      (ts.Sublist (listed (api.answer (.tags r.owner r.name)).run.value) ∧
        (ts ≠ [] → (DiscoveryContext.ofTraits traits).needsTags = true)) ∧
      (ps.Sublist (listed (api.answer (.pullRequests r.owner r.name)).run.value) ∧
        ∀ p ∈ ps, wantsFrom (.ofTraits traits) r p = true) ∧
      ds = (bs.map (ofRef .branch) ++ ts.map (ofRef .tag) ++ ps.map ofPullRequest).map fun c =>
        ⟨c.1, c.2, (Scan.request api traits r).value.isTrusted c.1⟩ := by
  obtain ⟨bs, ts, hbs, hts, rfl⟩ := value_heads_eq_ok_iff.mp hds
  obtain ⟨hbranches, hneedsBranches⟩ := sublist_listed_of_needed hbs
  obtain ⟨htags, hneedsTags⟩ := sublist_listed_of_needed hts
  have hpullRequests := knownPullRequests_sublist_listed api (.ofTraits traits) r
  have hchangeRequests : changeRequests (Scan.request api traits r).value =
      (((knownPullRequests api (.ofTraits traits) r).getD []).filter
        (wantsFrom (.ofTraits traits) r)).map ofPullRequest := by
    rw [value_request_eq, changeRequests_eq]
  -- What no filter leaves out stays in the order of its listing.
  let kept := fun h : Head => !((Scan.request api traits r).value.isExcluded h).value
  let ps := ((knownPullRequests api (.ofTraits traits) r).getD []).filter
    (wantsFrom (.ofTraits traits) r)
  refine ⟨bs.filter fun b => kept (.branch b.name), ts.filter fun t => kept (.tag t.name),
    ps.filter fun p => kept (.pullRequest (.ofPullRequest p)),
    ⟨List.filter_sublist.trans hbranches, ?_⟩, ⟨List.filter_sublist.trans htags, ?_⟩,
    ⟨List.filter_sublist.trans (List.filter_sublist.trans hpullRequests), ?_⟩, ?_⟩
  · intro hne
    exact hneedsBranches fun hnil => hne (by rw [hnil, List.filter_nil])
  · intro hne
    exact hneedsTags fun hnil => hne (by rw [hnil, List.filter_nil])
  · intro p hp
    exact List.of_mem_filter (List.mem_filter.mp hp).1
  · rw [foundAmong, hchangeRequests, List.filterMap_append, List.filterMap_append,
      filterMap_found, filterMap_found, filterMap_found, List.map_append, List.map_append,
      List.map_map, List.map_map, List.map_map]
    rfl

/-- Whatever the traits and their filters, as long as no authority but that of branches is added. A
scan finds only branches, tags and pull requests that are listed, with the commits they are listed
with, in this order and each in the order of its listing. Branches are found only if some trait
wants them and some trait asks for their category, and so are tags; pull requests only if some trait
asks for theirs, and some trait wants those that come from a fork, or those that come from the
repository itself. What is trusted is exactly the branches, if some trait adds their authority. And
no head is found twice if no name and no number is listed twice. -/
theorem heads_sound (api : Api) (traits : List Trait) (r : Repository)
    (hauthorities : ∀ t ∈ traits, ∀ a, Decoration.authority a ∈ t.decorations → a = .branches)
    (ds : List DiscoveredHead) (hds : (heads api traits r).run.value = .ok ds) :
    (∃ (bs ts : List GitRef) (ps : List PullRequest),
      ds.map (fun d => (d.head, d.revision)) =
          bs.map (fun b => (.branch b.name, b.commit.map Revision.mk)) ++
            ts.map (fun t => (.tag t.name, t.commit.map Revision.mk)) ++
            ps.map (fun p =>
              (.pullRequest (.ofPullRequest p), p.source.commit.map Revision.mk)) ∧
        bs.Sublist (listed (api.answer (.branches r.owner r.name)).run.value) ∧
        ts.Sublist (listed (api.answer (.tags r.owner r.name)).run.value) ∧
        ps.Sublist (listed (api.answer (.pullRequests r.owner r.name)).run.value) ∧
        (bs ≠ [] → (∃ t ∈ traits, Decoration.wantBranches true ∈ t.decorations) ∧
          ∃ t ∈ traits, t.includes .uncategorized = true) ∧
        (ts ≠ [] → (∃ t ∈ traits, Decoration.wantTags true ∈ t.decorations) ∧
          ∃ t ∈ traits, t.includes .tags = true) ∧
        ∀ p ∈ ps, (∃ t ∈ traits, t.includes .changeRequests = true) ∧
          (r.isSameAs p.source.repository = false →
            ∃ t ∈ traits, Decoration.wantForkPullRequests true ∈ t.decorations) ∧
          (r.isSameAs p.source.repository = true →
            ∃ t ∈ traits, Decoration.wantOriginPullRequests true ∈ t.decorations)) ∧
      (∀ d ∈ ds, d.trusted = true ↔ (∃ name, d.head = .branch name) ∧
        ∃ t ∈ traits, Decoration.authority .branches ∈ t.decorations) ∧
      (((listed (api.answer (.branches r.owner r.name)).run.value).map (·.name)).Nodup →
        ((listed (api.answer (.tags r.owner r.name)).run.value).map (·.name)).Nodup →
        ((listed (api.answer (.pullRequests r.owner r.name)).run.value).map (·.id)).Nodup →
        (ds.map (·.head)).Nodup) := by
  obtain ⟨bs, ts, ps, ⟨hbs, hneedsBranches⟩, ⟨hts, hneedsTags⟩, ⟨hps, hwants⟩, rfl⟩ :=
    exists_listed_of_value_heads hds
  refine ⟨⟨bs, ts, ps, ?_, hbs, hts, hps, ?_, ?_, ?_⟩, ?_, ?_⟩
  · simp only [List.map_append, List.map_map]
    rfl
  · intro hne
    have hneeds := hneedsBranches hne
    rw [DiscoveryContext.needsBranches, Bool.and_eq_true] at hneeds
    exact ⟨DiscoveryContext.wantsBranches_ofTraits_iff.mp hneeds.1,
      DiscoveryContext.includes_ofTraits_iff.mp hneeds.2⟩
  · intro hne
    have hneeds := hneedsTags hne
    rw [DiscoveryContext.needsTags, Bool.and_eq_true] at hneeds
    exact ⟨DiscoveryContext.wantsTags_ofTraits_iff.mp hneeds.1,
      DiscoveryContext.includes_ofTraits_iff.mp hneeds.2⟩
  · intro p hp
    have hwanted := hwants p hp
    rw [wantsFrom, Bool.and_eq_true] at hwanted
    refine ⟨DiscoveryContext.includes_ofTraits_iff.mp hwanted.1, ?_, ?_⟩
    · intro hfork
      rw [hfork, if_neg Bool.false_ne_true] at hwanted
      exact DiscoveryContext.wantsForkPullRequests_ofTraits_iff.mp hwanted.2
    · intro hown
      rw [hown, if_pos rfl] at hwanted
      exact DiscoveryContext.wantsOriginPullRequests_ofTraits_iff.mp hwanted.2
  · intro d hd
    obtain ⟨c, -, rfl⟩ := List.mem_map.mp hd
    rw [value_request_eq]
    exact isTrusted_ofTraits_iff hauthorities _ _
  · intro hbranches htags hpullRequests
    have hnodup := nodup_heads (hbranches.sublist (hbs.map _)) (htags.sublist (hts.map _))
      (hpullRequests.sublist (hps.map _))
    rw [List.map_append, List.map_append, List.map_append, List.map_append, List.map_map,
      List.map_map, List.map_map, List.map_map, List.map_map, List.map_map]
    exact hnodup

/-- A pull request from the branch `main` of a fork. -/
def forkPullRequest : PullRequest where
  id := ⟨2⟩
  title := "Fork"
  source := ⟨⟨⟨"alice"⟩, ⟨"widget"⟩, []⟩, ⟨"main"⟩, .branch, some ⟨"c3"⟩⟩
  destination := ⟨"main"⟩

/-- Who lists a tag, and a pull request from a fork besides one from the repository itself. -/
def forkApi : Api where
  answer
    | .tags .. => pure [⟨⟨"v1"⟩, some ⟨"b2"⟩⟩]
    | .pullRequests .. => pure [samplePullRequest, forkPullRequest]
    | q => sampleApi.answer q

/-- Traits of which one wants branches and tags, and the other asks for the category of tags and
wants pull requests from forks. -/
def mixedTraits : List Trait :=
  [⟨[.wantBranches true, .wantTags true, .authority .branches, .filter (.nameBeginning "to")],
      fun c => c == .uncategorized, none⟩,
    ⟨[.wantForkPullRequests true], fun c => c == .tags || c == .changeRequests, none⟩]

/-- What such traits find. -/
def mixedHeads : List DiscoveredHead :=
  [⟨.branch ⟨"main"⟩, some ⟨⟨"a1"⟩⟩, true⟩, ⟨.tag ⟨"v1"⟩, some ⟨⟨"b2"⟩⟩, false⟩,
    ⟨.pullRequest (.ofPullRequest forkPullRequest), some ⟨⟨"c3"⟩⟩, false⟩]

/-- No head is found twice, although a tag and a pull request from a fork are found too. -/
theorem heads_sound_mixedTraits :
    (∀ t ∈ mixedTraits, ∀ a, Decoration.authority a ∈ t.decorations → a = .branches) ∧
      (heads forkApi mixedTraits sampleRepository).run.value = .ok mixedHeads ∧
      (mixedHeads.map (·.head)).Nodup := by
  have hauthorities : ∀ t ∈ mixedTraits, ∀ a,
      Decoration.authority a ∈ t.decorations → a = .branches := by
    intro t ht a ha
    rcases List.mem_pair.mp ht with rfl | rfl
    · simpa using ha
    · simp at ha
  have hvalue : (heads forkApi mixedTraits sampleRepository).run.value = .ok mixedHeads := by
    decide +kernel
  obtain ⟨-, -, hnodup⟩ :=
    heads_sound forkApi mixedTraits sampleRepository hauthorities mixedHeads hvalue
  exact ⟨hauthorities, hvalue, hnodup (by decide) (by decide) (by decide)⟩

end Scan

end HeadScout
