import HeadScout.Proofs.Discovery.Soundness

/-!
# The order of traits

A context is built trait by trait, and each trait puts its filters and authorities behind those of
the traits before it. So the same traits in another order lead to another context, and a trait that
is listed twice has its filters asked twice. A scan cannot tell such contexts apart. What is wanted
is wanted if one trait wants it, a head is left out if one filter leaves it out, and trusted if one
authority trusts it; none of this depends on who is asked first, or how often.

## Main definitions

* `DiscoveryContext.Agrees` — contexts that differ only in the order and number of filters and
  authorities
* `Scan.SameScan` — two lists of traits that lead to the same scan

## Main results

* `DiscoveryContext.agrees_ofTraits` — the contexts of the same traits
* `Scan.sameScan_of_mem_iff` — only which traits are listed counts
* `Scan.heads_of_perm_or_copy` — traits in another order, and a trait that is listed once more
-/

namespace HeadScout

theorem any_eq_any_of_mem_iff {α : Type} {as bs : List α} (h : ∀ a, a ∈ as ↔ a ∈ bs)
    (p : α → Bool) : as.any p = bs.any p := by
  rw [Bool.eq_iff_iff, List.any_eq_true, List.any_eq_true]
  apply exists_congr
  intro a
  rw [h a]

/-! ### Contexts -/

namespace DiscoveryContext

/-- The contexts look for the same. They have the same authorities and the same filters, though
maybe in another order, and some of them more than once. -/
structure Agrees (c c' : DiscoveryContext) : Prop where
  branches : c.wantsBranches = c'.wantsBranches
  originPullRequests : c.wantsOriginPullRequests = c'.wantsOriginPullRequests
  forkPullRequests : c.wantsForkPullRequests = c'.wantsForkPullRequests
  tags : c.wantsTags = c'.wantsTags
  categories : c.categories = c'.categories
  mem_authorities : ∀ a, a ∈ c.authorities ↔ a ∈ c'.authorities
  mem_filters : ∀ f, f ∈ c.filters ↔ f ∈ c'.filters

/-- Lists of the same traits lead to contexts that agree. -/
theorem agrees_ofTraits {traits traits' : List Trait} (h : ∀ t, t ∈ traits ↔ t ∈ traits') :
    (ofTraits traits).Agrees (ofTraits traits') := by
  have hmem : ∀ {β : Type} (f : Trait → List β) (b : β),
      b ∈ traits.flatMap f ↔ b ∈ traits'.flatMap f := by
    intro β f b
    rw [List.mem_flatMap, List.mem_flatMap]
    apply exists_congr
    intro t
    rw [h t]
  rw [ofTraits_eq, ofTraits_eq]
  constructor
  · exact any_eq_any_of_mem_iff h _
  · exact any_eq_any_of_mem_iff h _
  · exact any_eq_any_of_mem_iff h _
  · exact any_eq_any_of_mem_iff h _
  · -- Categories stand in an order of their own, whoever asks for them.
    exact List.filter_congr fun category _ => any_eq_any_of_mem_iff h _
  · exact hmem _
  · exact hmem _

namespace Agrees

variable {c c' : DiscoveryContext}

theorem wantsPullRequests (h : c.Agrees c') : c.wantsPullRequests = c'.wantsPullRequests := by
  rw [DiscoveryContext.wantsPullRequests, h.originPullRequests, h.forkPullRequests]
  rfl

theorem includes (h : c.Agrees c') (category : HeadCategory) :
    c.includes category = c'.includes category := by
  rw [DiscoveryContext.includes, h.categories]
  rfl

theorem needsBranches (h : c.Agrees c') : c.needsBranches = c'.needsBranches := by
  rw [DiscoveryContext.needsBranches, h.branches, h.includes]
  rfl

theorem needsTags (h : c.Agrees c') : c.needsTags = c'.needsTags := by
  rw [DiscoveryContext.needsTags, h.tags, h.includes]
  rfl

end Agrees

end DiscoveryContext

/-! ### Scans -/

namespace Scan

variable {c c' : DiscoveryContext}

/-- Whoever is asked first whether a head is left out, or trusted, the answer is the same. -/
theorem found_of_agrees (h : c.Agrees c') (v : SourceView) : found ⟨c, v⟩ = found ⟨c', v⟩ := by
  funext candidate
  have hexcluded : (SourceRequest.isExcluded ⟨c, v⟩ candidate.1).value =
      (SourceRequest.isExcluded ⟨c', v⟩ candidate.1).value := by
    rw [value_isExcluded, value_isExcluded]
    exact any_eq_any_of_mem_iff h.mem_filters _
  have htrusted : SourceRequest.isTrusted ⟨c, v⟩ candidate.1 =
      SourceRequest.isTrusted ⟨c', v⟩ candidate.1 :=
    any_eq_any_of_mem_iff h.mem_authorities _
  rw [found, found, hexcluded, htrusted]

theorem wantsFrom_of_agrees (h : c.Agrees c') (r : Repository) : wantsFrom c r = wantsFrom c' r := by
  funext p
  rw [wantsFrom, wantsFrom, h.includes, h.originPullRequests, h.forkPullRequests]

theorem foundAmong_of_agrees (h : c.Agrees c') (r : Repository) (prs : Option (List PullRequest))
    (bs ts : List GitRef) : foundAmong ⟨c, r, prs⟩ bs ts = foundAmong ⟨c', r, prs⟩ bs ts := by
  rw [foundAmong, foundAmong, changeRequests_eq, changeRequests_eq, wantsFrom_of_agrees h,
    found_of_agrees h]

variable (api : Api) (r : Repository)

theorem listedBranches_of_agrees (h : c.Agrees c') :
    listedBranches api c r = listedBranches api c' r := by
  rw [listedBranches, listedBranches, h.needsBranches]

theorem listedTags_of_agrees (h : c.Agrees c') : listedTags api c r = listedTags api c' r := by
  rw [listedTags, listedTags, h.needsTags]

theorem askedListings_of_agrees (h : c.Agrees c') :
    askedListings api c r = askedListings api c' r := by
  rw [askedListings, askedListings, h.wantsPullRequests, h.needsBranches, h.needsTags,
    listedBranches_of_agrees api r h]

/-- Two lists of traits lead to the same scan of a repository. -/
structure SameScan (traits traits' : List Trait) : Prop where
  /-- The same heads are found, in the same order, with the same commits and marks; or both scans
  fail for the same reason. -/
  value : (heads api traits r).run.value = (heads api traits' r).run.value
  /-- The same listings are asked for, in the same order. -/
  listings : Step.listings (heads api traits r).run.steps =
    Step.listings (heads api traits' r).run.steps
  /-- Pull requests are asked for as often. -/
  pullRequestCalls :
    (Step.listings (heads api traits r).run.steps).countP Listing.isPullRequests =
      (Step.listings (heads api traits' r).run.steps).countP Listing.isPullRequests

variable {traits traits' : List Trait}

/-- Of a list of traits it only counts which traits are in it. -/
theorem sameScan_of_mem_iff (h : ∀ t, t ∈ traits ↔ t ∈ traits') :
    SameScan api r traits traits' := by
  have hagrees := DiscoveryContext.agrees_ofTraits h
  have hvalue : (heads api traits r).run.value = (heads api traits' r).run.value := by
    have hknown : knownPullRequests api (.ofTraits traits) r =
        knownPullRequests api (.ofTraits traits') r := by
      rw [knownPullRequests, knownPullRequests, hagrees.wantsPullRequests]
    have hfound : foundAmong (Scan.request api traits r).value =
        foundAmong (Scan.request api traits' r).value := by
      rw [value_request_eq, value_request_eq, hknown]
      funext bs ts
      rw [foundAmong_of_agrees hagrees]
    rw [value_heads_eq, value_heads_eq, listedBranches_of_agrees api r hagrees,
      listedTags_of_agrees api r hagrees, hfound]
  have hlistings : Step.listings (heads api traits r).run.steps =
      Step.listings (heads api traits' r).run.steps := by
    rw [listings_heads_eq, listings_heads_eq, askedListings_of_agrees api r hagrees]
  exact ⟨hvalue, hlistings, congrArg (List.countP Listing.isPullRequests) hlistings⟩

/-- Neither the order of traits nor how often a trait is listed matters to a scan. The scan of a
permuted list, and that of a list to which a copy of one of its traits is added at any place, has
the same outcome and asks for the same listings, whatever the filters and authorities decide and
whatever the listings come to. -/
theorem heads_of_perm_or_copy (traits : List Trait) :
    (∀ traits', traits'.Perm traits → SameScan api r traits' traits) ∧
      ∀ t ∈ traits, ∀ front back, front ++ back = traits →
        SameScan api r (front ++ t :: back) traits := by
  constructor
  · intro traits' hperm
    apply sameScan_of_mem_iff
    intro t
    exact hperm.mem_iff
  · rintro t ht front back rfl
    apply sameScan_of_mem_iff
    intro t'
    -- The copy may stand anywhere; in front it would be a member that is there already.
    rw [List.perm_middle.mem_iff, List.mem_cons]
    constructor
    · rintro (rfl | hmem)
      · exact ht
      · exact hmem
    · exact Or.inr

/-- Traits with a filter each. -/
def filteringTraits : List Trait :=
  [.branchDiscovery .excludePullRequests,
    ⟨[.wantTags true, .filter (.nameBeginning "to")], fun c => c == .tags, none⟩]

/-- What such traits find: a branch that no pull request comes from, and a tag. -/
def filteredHeads : List DiscoveredHead :=
  [⟨.branch ⟨"main"⟩, some ⟨⟨"a1"⟩⟩, true⟩, ⟨.tag ⟨"v1"⟩, some ⟨⟨"b2"⟩⟩, false⟩]

/-- The contexts are not the same, but what is found is. -/
theorem heads_of_perm_or_copy_filteringTraits :
    filteringTraits.reverse.Perm filteringTraits ∧
      (heads forkApi filteringTraits.reverse sampleRepository).run.value = .ok filteredHeads ∧
      ∀ t ∈ filteringTraits,
        (heads forkApi (filteringTraits ++ [t]) sampleRepository).run.value = .ok filteredHeads := by
  have hvalue : (heads forkApi filteringTraits sampleRepository).run.value = .ok filteredHeads := by
    decide +kernel
  obtain ⟨hperm, hcopy⟩ := heads_of_perm_or_copy forkApi sampleRepository filteringTraits
  refine ⟨List.reverse_perm _, ?_, ?_⟩
  · exact (hperm _ (List.reverse_perm _)).value.trans hvalue
  · intro t ht
    exact (hcopy t ht filteringTraits [] (List.append_nil _)).value.trans hvalue

end Scan

end HeadScout
