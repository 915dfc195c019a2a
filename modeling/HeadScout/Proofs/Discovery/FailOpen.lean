import HeadScout.Proofs.Discovery.Scan

/-!
# Scans whose pull requests cannot be listed

The two filters of branches decide by the pull requests of the repository. Where these cannot be
listed the scan goes on, and the filters leave nothing out: it is better to build a branch too many
than to forget one. So the failure shows nowhere but in what is missing. No pull request is found,
and branches and tags are those that are found without the filters. A branch or tag listing that
fails makes the scan fail, as it always does.

The pull requests are asked for before anything else, and their answer is kept. Neither a filter nor
an authority asks again.

## Main definitions

* `Trait.withoutFilters` — a trait that leaves nothing out
* `BranchStrategy.widen`, `TraitSpec.widen` — strategies that look at pull requests, replaced by the
  one that builds everything
* `DiscoveryContext.needsBranches`, `DiscoveryContext.needsTags` — the listings that a scan needs
* `Scan.needed` — what a listing comes to, unless it is not needed

## Main results

* `Scan.listings_heads_eq` — the listings that any scan asks for
* `Scan.value_heads_of_unknown` — a scan to which the pull requests are not known
* `Scan.heads_fail_open` — pull requests that cannot be listed
-/

namespace HeadScout

/-! ### Filters removed -/

/-- The trait without its filters. -/
def Trait.withoutFilters (t : Trait) : Trait :=
  { t with decorations := t.decorations.filter fun d => d.filter?.isNone }

/-- The filter is one of the two that look at pull requests. -/
def HeadFilter.LooksAtPullRequests (f : HeadFilter) : Prop :=
  f = .excludeOriginPullRequests ∨ f = .onlyOriginPullRequests

namespace DiscoveryContext

/-- Without filters a context is the same in all other respects. -/
theorem ofTraits_withoutFilters (traits : List Trait) :
    ofTraits (traits.map Trait.withoutFilters) = { ofTraits traits with filters := [] } := by
  -- Whatever is asked of decorations, a filter has no say unless it is filters that are asked for.
  have hany : ∀ p : Decoration → Bool, (∀ f, p (.filter f) = false) →
      ∀ t : Trait, t.withoutFilters.decorations.any p = t.decorations.any p := by
    intro p hp t
    rw [Trait.withoutFilters, List.any_filter]
    congr 1
    funext d
    cases d with
    | filter f => exact (hp f).symm
    | _ => rfl
  have hauthorities : ∀ t : Trait, t.withoutFilters.decorations.filterMap (·.authority?) =
      t.decorations.filterMap (·.authority?) := by
    intro t
    rw [Trait.withoutFilters, List.filterMap_filter]
    congr 1
    funext d
    cases d <;> rfl
  have hfilters : ∀ t : Trait, t.withoutFilters.decorations.filterMap (·.filter?) = [] := by
    intro t
    rw [Trait.withoutFilters, List.filterMap_filter, List.filterMap_eq_nil_iff]
    intro d _
    cases d <;> rfl
  have hincludes : ∀ t : Trait, t.withoutFilters.includes = t.includes := fun _ => rfl
  rw [ofTraits_eq, ofTraits_eq]
  simp only [List.any_map, List.flatMap_map, Function.comp_def, hincludes, hauthorities, hfilters,
    hany (·.wantsBranches) fun _ => rfl, hany (·.wantsOriginPullRequests) fun _ => rfl,
    hany (·.wantsForkPullRequests) fun _ => rfl, hany (·.wantsTags) fun _ => rfl]
  congr 1
  exact List.flatMap_eq_nil_iff.mpr fun _ _ => rfl

/-- The filters of a context are those that its traits add. -/
theorem exists_mem_of_mem_filters {traits : List Trait} {f : HeadFilter}
    (h : f ∈ (ofTraits traits).filters) : ∃ t ∈ traits, Decoration.filter f ∈ t.decorations := by
  rw [ofTraits_eq] at h
  obtain ⟨t, ht, hf⟩ := List.mem_flatMap.mp h
  obtain ⟨d, hd, hdf⟩ := List.mem_filterMap.mp hf
  cases d with
  | filter f' =>
    cases hdf
    exact ⟨t, ht, hd⟩
  | _ => cases hdf

/-- Whether a scan needs the branches of the repository. -/
def needsBranches (c : DiscoveryContext) : Bool := c.wantsBranches && c.includes .uncategorized

/-- Whether a scan needs the tags of the repository. -/
def needsTags (c : DiscoveryContext) : Bool := c.wantsTags && c.includes .tags

end DiscoveryContext

/-! ### Listings that a scan needs -/

namespace Scan

/-- What a listing comes to, unless it is not needed. -/
def needed (isNeeded : Bool) (listed : Except ApiError (List GitRef)) :
    Except ApiError (List GitRef) :=
  if isNeeded then listed else .ok []

theorem needed_eq_error_iff {isNeeded : Bool} {listed : Except ApiError (List GitRef)}
    {e : ApiError} :
    needed isNeeded listed = .error e ↔ isNeeded = true ∧ listed = .error e := by
  cases isNeeded with
  | true => exact ⟨fun h => ⟨rfl, h⟩, fun h => h.2⟩
  | false => exact ⟨nofun, nofun⟩

section Listings

variable (api : Api) (c : DiscoveryContext) (r : Repository)

/-- The branches that are listed, if they are needed. -/
def listedBranches : Except ApiError (List GitRef) :=
  needed c.needsBranches (api.answer (.branches r.owner r.name)).run.value

/-- The tags that are listed, if they are needed. -/
def listedTags : Except ApiError (List GitRef) :=
  needed c.needsTags (api.answer (.tags r.owner r.name)).run.value

theorem value_branches (prs : Option (List PullRequest)) :
    (branches api ⟨c, r, prs⟩).run.value = (listedBranches api c r).map (List.map (ofRef .branch)) := by
  rw [branches, value_refs, Api.value_list, listedBranches, needed, DiscoveryContext.needsBranches]
  split_ifs <;> rfl

theorem value_tags (prs : Option (List PullRequest)) :
    (tags api ⟨c, r, prs⟩).run.value = (listedTags api c r).map (List.map (ofRef .tag)) := by
  rw [tags, value_refs, Api.value_list, listedTags, needed, DiscoveryContext.needsTags]
  split_ifs <;> rfl

/-- The listings that a scan asks for: the pull requests if it wants any, then the branches if it
needs them, and, unless these fail, the tags if it needs them. -/
def askedListings : List Listing :=
  (if c.wantsPullRequests then [.pullRequests r.owner r.name] else []) ++
    (if c.needsBranches then [.branches r.owner r.name] else []) ++
    match listedBranches api c r with
    | .ok _ => if c.needsTags then [.tags r.owner r.name] else []
    | .error _ => []

theorem listings_heads_eq (traits : List Trait) :
    Step.listings (heads api traits r).run.steps = askedListings api (.ofTraits traits) r := by
  rw [listings_heads, listings_request, value_request, listings_candidates, value_branches,
    askedListings, List.append_assoc]
  congr 2
  · rw [branches, listings_refs, Api.listings_list]
    rfl
  · cases listedBranches api (.ofTraits traits) r with
    | error e => rfl
    | ok bs =>
      change Step.listings (tags api _).run.steps = _
      rw [tags, listings_refs, Api.listings_list]
      rfl

/-- Pull requests are asked for at most once. -/
theorem countP_askedListings_le : (askedListings api c r).countP Listing.isPullRequests ≤ 1 := by
  have hone : ∀ (b : Bool) (q : Listing),
      (if b then [q] else []).countP Listing.isPullRequests ≤ (if q.isPullRequests then 1 else 0) := by
    intro b q
    cases b <;> simp [List.countP_cons]
  have hprs := hone c.wantsPullRequests (.pullRequests r.owner r.name)
  have hbranches := hone c.needsBranches (.branches r.owner r.name)
  have htags := hone c.needsTags (.tags r.owner r.name)
  simp only [Listing.isPullRequests, if_true, Bool.false_eq_true, if_false] at hprs hbranches htags
  rw [askedListings, List.countP_append, List.countP_append]
  cases listedBranches api c r with
  | error e =>
    rw [List.countP_nil]
    omega
  | ok bs =>
    simp only
    omega

end Listings

/-! ### Pull requests that are not known -/

section Unknown

variable (api : Api) (c : DiscoveryContext) (r : Repository)

/-- A ref that is found, of which no filter has to be asked. -/
def unfiltered (kind : RefKind) (g : GitRef) : DiscoveredHead :=
  ⟨.ofRef kind g.name, g.commit.map (⟨·⟩), SourceRequest.isTrusted ⟨c, r, none⟩ (.ofRef kind g.name)⟩

/-- The refs that a scan finds without filters and without pull requests. -/
def unfilteredHeads : Except ApiError (List DiscoveredHead) :=
  (listedBranches api c r).bind fun bs =>
    (listedTags api c r).map fun ts =>
      bs.map (unfiltered c r .branch) ++ ts.map (unfiltered c r .tag)

variable {api} {c} {r}

/-- The first listing that fails, of those that are needed, decides. -/
theorem unfilteredHeads_eq_error_iff {e : ApiError} :
    unfilteredHeads api c r = .error e ↔
      (c.needsBranches = true ∧ (api.answer (.branches r.owner r.name)).run.value = .error e) ∨
        ((∃ bs, listedBranches api c r = .ok bs) ∧
          c.needsTags = true ∧ (api.answer (.tags r.owner r.name)).run.value = .error e) := by
  rw [← needed_eq_error_iff, ← needed_eq_error_iff, ← listedBranches, ← listedTags, unfilteredHeads]
  cases listedBranches api c r with
  | error e' => simp [Except.bind]
  | ok bs => cases listedTags api c r <;> simp [Except.bind, Except.map]

theorem unfilteredHeads_eq_ok_iff {ds : List DiscoveredHead} :
    unfilteredHeads api c r = .ok ds ↔
      ∃ bs ts, listedBranches api c r = .ok bs ∧ listedTags api c r = .ok ts ∧
        ds = bs.map (unfiltered c r .branch) ++ ts.map (unfiltered c r .tag) := by
  rw [unfilteredHeads]
  cases listedBranches api c r with
  | error e => simp [Except.bind]
  | ok bs => cases listedTags api c r <;> simp [Except.bind, Except.map, eq_comm]

theorem head_ne_pullRequest_of_unfiltered {bs ts : List GitRef} :
    ∀ d ∈ bs.map (unfiltered c r .branch) ++ ts.map (unfiltered c r .tag),
      ∀ p, d.head ≠ .pullRequest p := by
  intro d hd p
  rcases List.mem_append.mp hd with hd | hd
  · obtain ⟨g, -, rfl⟩ := List.mem_map.mp hd
    exact nofun
  · obtain ⟨g, -, rfl⟩ := List.mem_map.mp hd
    exact nofun

/-- Neither of the two filters leaves anything out. -/
theorem value_isExcluded_of_unknown (hfilters : ∀ f ∈ c.filters, f.LooksAtPullRequests)
    (h : Head) : (SourceRequest.isExcluded ⟨c, r, none⟩ h).value = false := by
  rw [value_isExcluded, List.any_eq_false]
  intro f hf
  rw [Bool.not_eq_true]
  rcases hfilters f hf with rfl | rfl
  · exact HeadFilter.value_byPullRequest_unknown r _ _ h
  · exact HeadFilter.value_byPullRequest_unknown r _ _ h

theorem changeRequests_of_unknown : changeRequests ⟨c, r, none⟩ = [] := by
  rw [changeRequests]
  split_ifs <;> rfl

/-- A scan to which the pull requests are not known finds all refs that are listed. -/
theorem value_heads_of_unknown {traits : List Trait}
    (hfilters : ∀ f ∈ (DiscoveryContext.ofTraits traits).filters, f.LooksAtPullRequests)
    (hrequest : (Scan.request api traits r).value = ⟨.ofTraits traits, r, none⟩) :
    (heads api traits r).run.value = unfilteredHeads api (.ofTraits traits) r := by
  have hfound : found ⟨.ofTraits traits, r, none⟩ = fun x : Candidate =>
      some ⟨x.1, x.2, SourceRequest.isTrusted ⟨.ofTraits traits, r, none⟩ x.1⟩ := by
    funext x
    rw [found, value_isExcluded_of_unknown hfilters, if_neg Bool.false_ne_true]
  rw [value_heads, hrequest, value_candidates, value_branches, value_tags,
    changeRequests_of_unknown, hfound, unfilteredHeads]
  cases listedBranches api (.ofTraits traits) r with
  | error e => rfl
  | ok bs =>
    cases listedTags api (.ofTraits traits) r with
    | error e => rfl
    | ok ts =>
      simp only [Except.map, Except.bind, List.append_nil, List.filterMap_eq_map', List.map_append,
        List.map_map]
      rfl

theorem value_request_of_error {traits : List Trait} {cause : ApiError}
    (hprs : (api.answer (.pullRequests r.owner r.name)).run.value = .error cause) :
    (Scan.request api traits r).value = ⟨.ofTraits traits, r, none⟩ := by
  rw [value_request, hprs]
  exact congrArg (SourceRequest.mk _ ⟨r, ·⟩) (ite_self none)

end Unknown

end Scan

/-! ### Configured traits -/

/-- The strategy that builds everything in place of one that looks at pull requests. -/
def BranchStrategy.widen : BranchStrategy → BranchStrategy
  | .excludePullRequests | .onlyPullRequests => .everything
  | s => s

/-- The configured trait with strategies one and two replaced by strategy three. -/
def TraitSpec.widen : TraitSpec → TraitSpec
  | .branchDiscovery n => .branchDiscovery (if n = 1 ∨ n = 2 then 3 else n)
  | .sshCheckout credentialsId => .sshCheckout credentialsId

namespace TraitSpec

variable {specs : List TraitSpec} {traits : List Trait}

theorem strategies_widen (specs : List TraitSpec) :
    strategies (specs.map widen) = (strategies specs).map BranchStrategy.widen := by
  rw [strategies, strategies, List.filterMap_map, List.map_filterMap]
  congr 1
  funext spec
  cases spec with
  | sshCheckout credentialsId => rfl
  | branchDiscovery n =>
    change BranchStrategy.ofId? (if n = 1 ∨ n = 2 then 3 else n) =
      (BranchStrategy.ofId? n).map BranchStrategy.widen
    by_cases hn : n = 1 ∨ n = 2
    · rw [if_pos hn]
      rcases hn with rfl | rfl <;> rfl
    · rw [if_neg hn]
      cases hs : BranchStrategy.ofId? n with
      | none => rfl
      | some s =>
        obtain rfl := BranchStrategy.ofId?_eq_some_iff.mp hs
        cases s with
        | nothing | everything => rfl
        | excludePullRequests => exact absurd (Or.inl rfl) hn
        | onlyPullRequests => exact absurd (Or.inr rfl) hn

theorem exists_toTraits_widen (h : toTraits specs = .ok traits) :
    ∃ traits', toTraits (specs.map widen) = .ok traits' := by
  have hids := exists_toTraits_iff.mp ⟨traits, h⟩
  refine exists_toTraits_iff.mpr ?_
  intro n hn
  obtain ⟨spec', hspec', hid⟩ := List.mem_filterMap.mp hn
  obtain ⟨spec, hspec, rfl⟩ := List.mem_map.mp hspec'
  cases spec with
  | sshCheckout credentialsId => cases hid
  | branchDiscovery m =>
    obtain rfl := Option.some.inj hid
    split_ifs
    · exact UInt8.le_refl 3
    · exact hids m (List.mem_filterMap.mpr ⟨_, hspec, rfl⟩)

/-- Configured traits add no filters but the two that look at pull requests. -/
theorem looksAtPullRequests_of_mem_filters (h : toTraits specs = .ok traits) {f : HeadFilter}
    (hf : f ∈ (DiscoveryContext.ofTraits traits).filters) : f.LooksAtPullRequests := by
  rw [ofTraits_eq_ofStrategies h] at hf
  obtain ⟨s, -, hs⟩ := List.mem_filterMap.mp hf
  cases s with
  | nothing | everything => cases hs
  | excludePullRequests => exact Or.inl (Option.some.inj hs).symm
  | onlyPullRequests => exact Or.inr (Option.some.inj hs).symm

/-- The context of widened strategies wants and trusts the same, but asks for no pull requests. -/
theorem ofStrategies_map_widen (ss : List BranchStrategy) :
    DiscoveryContext.ofStrategies (ss.map BranchStrategy.widen) =
      { DiscoveryContext.ofStrategies ss with wantsOriginPullRequests := false, filters := [] } := by
  have hnothing : ∀ s : BranchStrategy, s.widen = .nothing ↔ s = .nothing := by
    intro s
    cases s <;> decide
  have hfilter : ∀ s : BranchStrategy, s.widen.filter? = none := by
    intro s
    cases s <;> rfl
  simp only [DiscoveryContext.ofStrategies, List.any_map, List.flatMap_map, List.filterMap_map,
    List.map_eq_nil_iff, Function.comp_def, ne_eq, hnothing, hfilter, Option.isSome_none,
    List.filterMap_none]
  congr 1
  exact List.any_eq_false.mpr fun _ _ => Bool.false_ne_true

end TraitSpec

/-! ### The scan -/

namespace Scan

/-- Pull requests that cannot be listed are no failure of a scan. Where all filters look at pull
requests, the scan fails exactly if a listing of branches or tags fails that it needs, and otherwise
finds no pull request, and all branches and tags that it would find without the filters. For
configured traits this is what strategy three finds in place of one and two. Any scan asks for pull
requests at most once, and what it asks for does not depend on filters or authorities. -/
theorem heads_fail_open (api : Api) (r : Repository) :
    (∀ cause, (api.answer (.pullRequests r.owner r.name)).run.value = .error cause →
      (∀ traits : List Trait,
        (∀ t ∈ traits, ∀ f, Decoration.filter f ∈ t.decorations →
          f = .excludeOriginPullRequests ∨ f = .onlyOriginPullRequests) →
        (∀ e, (heads api traits r).run.value = .error e ↔
          ((DiscoveryContext.ofTraits traits).needsBranches = true ∧
              (api.answer (.branches r.owner r.name)).run.value = .error e) ∨
            ((∃ bs, listedBranches api (.ofTraits traits) r = .ok bs) ∧
              (DiscoveryContext.ofTraits traits).needsTags = true ∧
              (api.answer (.tags r.owner r.name)).run.value = .error e)) ∧
        (∀ ds, (heads api traits r).run.value = .ok ds →
          (∀ d ∈ ds, ∀ p, d.head ≠ .pullRequest p) ∧
          ∃ bs ts, listedBranches api (.ofTraits traits) r = .ok bs ∧
            listedTags api (.ofTraits traits) r = .ok ts ∧
            ds = bs.map (unfiltered (.ofTraits traits) r .branch) ++
              ts.map (unfiltered (.ofTraits traits) r .tag)) ∧
        (heads api traits r).run.value =
          (heads api (traits.map Trait.withoutFilters) r).run.value) ∧
      ∀ specs traits, TraitSpec.toTraits specs = .ok traits →
        ∃ traits', TraitSpec.toTraits (specs.map TraitSpec.widen) = .ok traits' ∧
          (heads api traits r).run.value = (heads api traits' r).run.value) ∧
    ∀ traits,
      Step.listings (heads api traits r).run.steps = askedListings api (.ofTraits traits) r ∧
        (Step.listings (heads api traits r).run.steps).countP Listing.isPullRequests ≤ 1 := by
  refine ⟨?_, ?_⟩
  · intro cause hprs
    refine ⟨?_, ?_⟩
    · intro traits hfilters
      have hvalue : (heads api traits r).run.value = unfilteredHeads api (.ofTraits traits) r := by
        apply value_heads_of_unknown _ (value_request_of_error hprs)
        intro f hf
        obtain ⟨t, ht, hft⟩ := DiscoveryContext.exists_mem_of_mem_filters hf
        exact hfilters t ht f hft
      refine ⟨?_, ?_, ?_⟩
      · intro e
        rw [hvalue]
        exact unfilteredHeads_eq_error_iff
      · intro ds hds
        rw [hvalue] at hds
        obtain ⟨bs, ts, hbs, hts, rfl⟩ := unfilteredHeads_eq_ok_iff.mp hds
        exact ⟨head_ne_pullRequest_of_unfiltered, bs, ts, hbs, hts, rfl⟩
      · have hcontext := DiscoveryContext.ofTraits_withoutFilters traits
        have hnone : ∀ f ∈ (DiscoveryContext.ofTraits (traits.map Trait.withoutFilters)).filters,
            f.LooksAtPullRequests := by
          rw [hcontext]
          exact List.forall_mem_nil _
        rw [hvalue, value_heads_of_unknown hnone (value_request_of_error hprs), hcontext]
        rfl
    · -- Both scans find what is found without filters, in contexts that are otherwise the same.
      intro specs traits htraits
      obtain ⟨traits', htraits'⟩ := TraitSpec.exists_toTraits_widen htraits
      refine ⟨traits', htraits', ?_⟩
      rw [value_heads_of_unknown (fun _ => TraitSpec.looksAtPullRequests_of_mem_filters htraits)
          (value_request_of_error hprs),
        value_heads_of_unknown (fun _ => TraitSpec.looksAtPullRequests_of_mem_filters htraits')
          (value_request_of_error hprs),
        TraitSpec.ofTraits_eq_ofStrategies htraits, TraitSpec.ofTraits_eq_ofStrategies htraits',
        TraitSpec.strategies_widen, TraitSpec.ofStrategies_map_widen]
      rfl
  · intro traits
    have hlistings := listings_heads_eq api r traits
    refine ⟨hlistings, ?_⟩
    rw [hlistings]
    exact countP_askedListings_le api _ r

/-- Who lists branches, but refuses to list pull requests. -/
def refusingApi : Api where
  answer
    | .pullRequests .. => throw (.refused "pullrequests" 403)
    | q => sampleApi.answer q

/-- Two strategies that would leave out every branch between them build both branches. -/
theorem heads_refusingApi :
    ∃ traits, TraitSpec.toTraits [.branchDiscovery 1, .branchDiscovery 2] = .ok traits ∧
      (heads refusingApi traits sampleRepository).run.value =
        .ok [⟨.branch ⟨"main"⟩, some ⟨⟨"a1"⟩⟩, true⟩, ⟨.branch ⟨"topic"⟩, none, true⟩] ∧
      (heads refusingApi traits sampleRepository).run.value =
        (heads refusingApi (traits.map Trait.withoutFilters) sampleRepository).run.value := by
  obtain ⟨hfails, -⟩ := heads_fail_open refusingApi sampleRepository
  obtain ⟨htraits, hspecs⟩ := hfails _ rfl
  have hfilters : ∀ t ∈ [Trait.branchDiscovery .excludePullRequests,
      Trait.branchDiscovery .onlyPullRequests], ∀ f, Decoration.filter f ∈ t.decorations →
        f = .excludeOriginPullRequests ∨ f = .onlyOriginPullRequests := by
    intro t ht f hf
    rcases List.mem_pair.mp ht with rfl | rfl
    · left
      simpa [Trait.branchDiscovery, BranchStrategy.decorations] using hf
    · right
      simpa [Trait.branchDiscovery, BranchStrategy.decorations] using hf
  obtain ⟨-, -, hwithout⟩ := htraits _ hfilters
  obtain ⟨traits', htraits', hvalue⟩ :=
    hspecs [.branchDiscovery 1, .branchDiscovery 2] _ rfl
  cases htraits'
  exact ⟨_, rfl, hvalue.trans rfl, hwithout⟩

end Scan

end HeadScout
