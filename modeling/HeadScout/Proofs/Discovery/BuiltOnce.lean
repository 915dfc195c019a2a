import HeadScout.Proofs.Discovery.Soundness

/-!
# Every branch is built once

One strategy builds branches that no pull request comes from. Where other traits list the pull
requests that come from the repository itself, every listed branch is built once: as a branch, or as
a pull request that comes from it. The filter decides by full names of repositories and names of
refs, before there are heads; the pull request heads are told apart by owner, name and the ref they
hold. Both name the same pull requests.

As for the filter, a pull request comes from a branch if it comes from a ref of its name.

## Main results

* `Scan.exists_mem_foundAmong_iff` — which heads are found
* `Scan.heads_build_once` — branches are built as branches or as pull requests, and not as both
-/

namespace HeadScout

namespace Scan

variable {r : Repository} {prs : List PullRequest} {bs ts : List GitRef}

/-- A head is found exactly if it is a candidate that no filter leaves out. -/
theorem exists_mem_foundAmong_iff {request : SourceRequest} {h : Head} :
    (∃ d ∈ foundAmong request bs ts, d.head = h) ↔
      (∃ c ∈ bs.map (ofRef .branch) ++ ts.map (ofRef .tag) ++ changeRequests request, c.1 = h) ∧
        (request.isExcluded h).value = false := by
  constructor
  · rintro ⟨d, hd, rfl⟩
    obtain ⟨c, hc, hfound⟩ := List.mem_filterMap.mp hd
    rw [found] at hfound
    split_ifs at hfound with hexcluded
    cases hfound
    exact ⟨⟨c, hc, rfl⟩, Bool.not_eq_true _ |>.mp hexcluded⟩
  · rintro ⟨⟨c, hc, rfl⟩, hexcluded⟩
    refine ⟨⟨c.1, c.2, request.isTrusted c.1⟩, List.mem_filterMap.mpr ⟨c, hc, ?_⟩, rfl⟩
    rw [found, hexcluded, if_neg Bool.false_ne_true]

/-- Candidates are the listed branches, the listed tags and the pull requests that are wanted. -/
theorem mem_candidates_iff {request : SourceRequest} {c : Candidate} :
    c ∈ bs.map (ofRef .branch) ++ ts.map (ofRef .tag) ++ changeRequests request ↔
      (∃ g ∈ bs, ofRef .branch g = c) ∨ (∃ g ∈ ts, ofRef .tag g = c) ∨
        ∃ p ∈ request.view.pullRequests.getD [],
          wantsFrom request.context request.view.repository p = true ∧ ofPullRequest p = c := by
  rw [changeRequests_eq, List.mem_append, List.mem_append, or_assoc, List.mem_map, List.mem_map,
    List.mem_map]
  simp only [List.mem_filter, and_assoc]

theorem exists_candidate_branch_iff {request : SourceRequest} {b : RefName} :
    (∃ c ∈ bs.map (ofRef .branch) ++ ts.map (ofRef .tag) ++ changeRequests request,
        c.1 = .branch b) ↔ ∃ g ∈ bs, g.name = b := by
  simp only [mem_candidates_iff]
  constructor
  · rintro ⟨_, ⟨g, hg, rfl⟩ | ⟨g, -, rfl⟩ | ⟨p, -, -, rfl⟩, hb⟩
    · exact ⟨g, hg, Head.branch.inj hb⟩
    · cases hb
    · cases hb
  · rintro ⟨g, hg, rfl⟩
    exact ⟨_, .inl ⟨g, hg, rfl⟩, rfl⟩

theorem exists_candidate_pullRequest_iff {c : DiscoveryContext} {h : PullRequestHead} :
    (∃ candidate ∈ bs.map (ofRef .branch) ++ ts.map (ofRef .tag) ++
        changeRequests ⟨c, r, some prs⟩, candidate.1 = .pullRequest h) ↔
      ∃ p ∈ prs, wantsFrom c r p = true ∧ .ofPullRequest p = h := by
  simp only [mem_candidates_iff]
  constructor
  · rintro ⟨_, ⟨g, -, rfl⟩ | ⟨g, -, rfl⟩ | ⟨p, hp, hwanted, rfl⟩, hh⟩
    · cases hh
    · cases hh
    · exact ⟨p, hp, hwanted, Head.pullRequest.inj hh⟩
  · rintro ⟨p, hp, hwanted, rfl⟩
    exact ⟨_, .inr (.inr ⟨p, hp, hwanted, rfl⟩), rfl⟩

/-- If the only filter leaves out branches with pull requests, exactly these are left out. -/
theorem value_isExcluded_branch_iff {c : DiscoveryContext} {b : RefName}
    (honly : ∀ f ∈ c.filters, f = .excludeOriginPullRequests)
    (hmem : HeadFilter.excludeOriginPullRequests ∈ c.filters) :
    (SourceRequest.isExcluded ⟨c, r, some prs⟩ (.branch b)).value = true ↔
      ∃ p ∈ prs, p.ComesFrom r b := by
  have hexcludes : (HeadFilter.excludeOriginPullRequests.excludes ⟨r, some prs⟩
      (.branch b)).value = true ↔ ∃ p ∈ prs, p.ComesFrom r b := by
    rw [HeadFilter.excludeOriginPullRequests, HeadFilter.value_byPullRequest_branch, id,
      decide_eq_true_iff]
  rw [value_isExcluded, List.any_eq_true, ← hexcludes]
  constructor
  · rintro ⟨f, hf, h⟩
    rw [honly f hf] at h
    exact h
  · intro h
    exact ⟨_, hmem, h⟩

/-- Whatever the context wants else: if it wants pull requests from the repository itself and leaves
out branches with pull requests, a listed branch is found exactly if none of the pull requests that
are found comes from it. -/
theorem exists_branch_iff_not_exists_pullRequest {c : DiscoveryContext}
    (honly : ∀ f ∈ c.filters, f = .excludeOriginPullRequests)
    (hmem : HeadFilter.excludeOriginPullRequests ∈ c.filters)
    (hincludes : c.includes .changeRequests = true) (hwants : c.wantsOriginPullRequests = true)
    (hr : r.IsQualified) (hqualified : ∀ p ∈ prs, p.source.repository.IsQualified)
    {g : GitRef} (hg : g ∈ bs) :
    (∃ d ∈ foundAmong ⟨c, r, some prs⟩ bs ts, d.head = .branch g.name) ↔
      ¬ ∃ d ∈ foundAmong ⟨c, r, some prs⟩ bs ts, ∃ h, d.head = .pullRequest h ∧
        SourceRequest.originOf ⟨c, r, some prs⟩ (.pullRequest h) = .own ∧
          h.sourceBranch = g.name := by
  have hown : ∀ p : PullRequest, SourceRequest.originOf ⟨c, r, some prs⟩
      (.pullRequest (.ofPullRequest p)) = .own ↔ r.isSameAs p.source.repository = true := by
    intro p
    rw [originOf_ofPullRequest]
    cases r.isSameAs p.source.repository <;> simp
  have hbranch : (∃ d ∈ foundAmong ⟨c, r, some prs⟩ bs ts, d.head = .branch g.name) ↔
      ¬ ∃ p ∈ prs, p.ComesFrom r g.name := by
    rw [exists_mem_foundAmong_iff, exists_candidate_branch_iff, ← value_isExcluded_branch_iff honly
      hmem, Bool.not_eq_true]
    exact and_iff_right ⟨g, hg, rfl⟩
  have hpullRequest : (∃ d ∈ foundAmong ⟨c, r, some prs⟩ bs ts, ∃ h, d.head = .pullRequest h ∧
      SourceRequest.originOf ⟨c, r, some prs⟩ (.pullRequest h) = .own ∧
        h.sourceBranch = g.name) ↔ ∃ p ∈ prs, p.ComesFrom r g.name := by
    constructor
    · rintro ⟨d, hd, h, hhead, horigin, hname⟩
      obtain ⟨hcandidate, -⟩ := exists_mem_foundAmong_iff.mp ⟨d, hd, hhead⟩
      obtain ⟨p, hp, -, rfl⟩ := exists_candidate_pullRequest_iff.mp hcandidate
      exact ⟨p, hp, (PullRequest.comesFrom_iff (hqualified p hp) hr).mpr
        ⟨(hown p).mp horigin, hname⟩⟩
    · rintro ⟨p, hp, hfrom⟩
      obtain ⟨hsame, hname⟩ := (PullRequest.comesFrom_iff (hqualified p hp) hr).mp hfrom
      have hwanted : wantsFrom c r p = true := by
        rw [wantsFrom, hincludes, Bool.true_and, if_pos hsame, hwants]
      obtain ⟨d, hd, hhead⟩ := exists_mem_foundAmong_iff.mpr
        ⟨exists_candidate_pullRequest_iff.mpr ⟨p, hp, hwanted, rfl⟩,
          value_isExcluded_pullRequest (fun f hf => .inl (honly f hf)) _⟩
      exact ⟨d, hd, _, hhead, (hown p).mpr hsame, hname⟩
  rw [hbranch, hpullRequest]

/-- Traits of which some build branches that no pull request comes from, some ask for the category
of pull requests, and no other one registers a filter. If all listings succeed, the scan does, and
every listed branch is found either as a branch or as a pull request of the repository itself that
comes from it, and not as both. -/
theorem heads_build_once (traits : List Trait)
    (hstrategy : ∃ t ∈ traits, (TraitSpec.branchDiscovery 1).toTrait = .ok t)
    (hothers : ∀ t ∈ traits, (TraitSpec.branchDiscovery 1).toTrait = .ok t ∨
      ∀ f, Decoration.filter f ∉ t.decorations)
    (hasks : ∃ t ∈ traits, t.includes .changeRequests = true)
    (api : Api) (r : Repository) (bs ts : List GitRef) (prs : List PullRequest)
    (hbs : (api.answer (.branches r.owner r.name)).run.value = .ok bs)
    (hts : (api.answer (.tags r.owner r.name)).run.value = .ok ts)
    (hprs : (api.answer (.pullRequests r.owner r.name)).run.value = .ok prs)
    (hr : r.IsQualified) (hqualified : ∀ p ∈ prs, p.source.repository.IsQualified) :
    ∃ ds, (heads api traits r).run.value = .ok ds ∧
      ∀ b ∈ bs, (∃ d ∈ ds, d.head = .branch b.name) ↔
        ¬ ∃ d ∈ ds, ∃ h, d.head = .pullRequest h ∧
          (Scan.request api traits r).value.originOf (.pullRequest h) = .own ∧
            h.sourceBranch = b.name := by
  have htrait : (TraitSpec.branchDiscovery 1).toTrait =
      .ok (.branchDiscovery .excludePullRequests) := rfl
  simp only [htrait, Except.ok.injEq] at hstrategy hothers
  obtain ⟨_, hbuilds, rfl⟩ := hstrategy
  have honly : ∀ f ∈ (DiscoveryContext.ofTraits traits).filters,
      f = .excludeOriginPullRequests := by
    intro f hf
    obtain ⟨t, ht, hft⟩ := DiscoveryContext.exists_mem_of_mem_filters hf
    rcases hothers t ht with rfl | hnone
    · simpa [Trait.branchDiscovery, BranchStrategy.decorations] using hft
    · exact absurd hft (hnone f)
  have hmem : HeadFilter.excludeOriginPullRequests ∈
      (DiscoveryContext.ofTraits traits).filters := by
    rw [DiscoveryContext.ofTraits_eq]
    refine List.mem_flatMap.mpr ⟨_, hbuilds, List.mem_filterMap.mpr
      ⟨.filter .excludeOriginPullRequests, ?_, rfl⟩⟩
    simp [Trait.branchDiscovery, BranchStrategy.decorations]
  -- The strategy itself wants pull requests, but does not ask for their category.
  have hwants : (DiscoveryContext.ofTraits traits).wantsOriginPullRequests = true := by
    refine DiscoveryContext.wantsOriginPullRequests_ofTraits_iff.mpr ⟨_, hbuilds, ?_⟩
    simp [Trait.branchDiscovery, BranchStrategy.decorations]
  have hchangeRequests : (DiscoveryContext.ofTraits traits).includes .changeRequests = true :=
    DiscoveryContext.includes_ofTraits_iff.mpr hasks
  have hneeds : (DiscoveryContext.ofTraits traits).needsBranches = true := by
    rw [DiscoveryContext.needsBranches, Bool.and_eq_true,
      DiscoveryContext.wantsBranches_ofTraits_iff, DiscoveryContext.includes_ofTraits_iff]
    exact ⟨⟨_, hbuilds, List.mem_cons_self⟩, _, hbuilds, rfl⟩
  have hlistedBranches : listedBranches api (.ofTraits traits) r = .ok bs := by
    rw [listedBranches, hneeds, hbs]
    rfl
  obtain ⟨ts', hlistedTags⟩ : ∃ ts', listedTags api (.ofTraits traits) r = .ok ts' := by
    rw [listedTags, hts]
    cases (DiscoveryContext.ofTraits traits).needsTags with
    | true => exact ⟨ts, rfl⟩
    | false => exact ⟨[], rfl⟩
  have hrequest : (Scan.request api traits r).value = ⟨.ofTraits traits, r, some prs⟩ := by
    rw [value_request_eq, knownPullRequests_of_ok hprs, DiscoveryContext.wantsPullRequests, hwants]
    rfl
  refine ⟨_, value_heads_eq_ok_iff.mpr ⟨bs, ts', hlistedBranches, hlistedTags, rfl⟩, ?_⟩
  intro b hb
  rw [hrequest]
  exact exists_branch_iff_not_exists_pullRequest honly hmem hchangeRequests hwants hr hqualified hb

/-- A strategy, and a trait that asks for the category of pull requests. -/
def onceTraits : List Trait :=
  [.branchDiscovery .excludePullRequests,
    ⟨[.wantOriginPullRequests true], fun c => c == .changeRequests, none⟩]

/-- The branch `main` is found as such, and `topic` as the pull request that comes from it. -/
theorem heads_build_once_sampleApi :
    ∃ ds, (heads sampleApi onceTraits sampleRepository).run.value = .ok ds ∧
      ∀ b ∈ ([⟨⟨"main"⟩, some ⟨"a1"⟩⟩, ⟨⟨"topic"⟩, none⟩] : List GitRef),
        (∃ d ∈ ds, d.head = .branch b.name) ↔
          ¬ ∃ d ∈ ds, ∃ h, d.head = .pullRequest h ∧
            (Scan.request sampleApi onceTraits sampleRepository).value.originOf
                (.pullRequest h) = .own ∧
              h.sourceBranch = b.name := by
  have hothers : ∀ t ∈ onceTraits, (TraitSpec.branchDiscovery 1).toTrait = .ok t ∨
      ∀ f, Decoration.filter f ∉ t.decorations := by
    intro t ht
    rcases List.mem_pair.mp ht with rfl | rfl
    · exact .inl rfl
    · right
      intro f hf
      simp at hf
  have hasks : ∃ t ∈ onceTraits, t.includes .changeRequests = true :=
    ⟨_, List.mem_pair.mpr (.inr rfl), rfl⟩
  have hqualified : sampleRepository.IsQualified := .inl ⟨"team/widget", by decide +kernel⟩
  refine heads_build_once onceTraits ⟨_, List.mem_cons_self, rfl⟩ hothers hasks sampleApi
    sampleRepository _ [] [samplePullRequest] rfl rfl rfl hqualified ?_
  intro p hp
  rw [List.mem_singleton.mp hp]
  exact hqualified

end Scan

end HeadScout
