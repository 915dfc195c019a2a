import HeadScout.Proofs.Discovery.Soundness

/-!
# Outsiders have no say

Anybody can fork a repository and open a pull request from the fork, under any branch name. What is
built from the repository itself must not depend on that. Two scans by the same traits are compared,
of which the second one is told of further pull requests from forks. Both scans leave out the same
branches and trust the same heads, so what the second one finds is what the first one found, with
the new pull requests in between if pull requests from forks are wanted.

The branch filters compare full names, and the scan compares owners and names one by one. The
comparisons agree on repositories that were read from full names, whose owners hold no slash.

## Main definitions

* `Interleaves` — a list that consists of two lists, each in its order
* `Api.AddsPullRequests` — one provider lists further pull requests, and else the same as another

## Main results

* `Scan.found_of_outsiders` — further pull requests from forks change nothing about any candidate
* `Scan.heads_of_outsiders` — nor about what is built from the repository itself
-/

namespace HeadScout

/-! ### Lists put together -/

/-- The third list consists of the entries of the first two, each in the order of its list. -/
inductive Interleaves {α : Type} : List α → List α → List α → Prop where
  | nil : Interleaves [] [] []
  | left {a : α} {as bs cs : List α} : Interleaves as bs cs → Interleaves (a :: as) bs (a :: cs)
  | right {b : α} {as bs cs : List α} : Interleaves as bs cs → Interleaves as (b :: bs) (b :: cs)

namespace Interleaves

variable {α β : Type} {as bs cs : List α}

theorem nil_right (as : List α) : Interleaves as [] as := by
  induction as with
  | nil => exact .nil
  | cons a as ih => exact .left ih

theorem mem_iff (h : Interleaves as bs cs) {x : α} : x ∈ cs ↔ x ∈ as ∨ x ∈ bs := by
  induction h with
  | nil => simp
  | left _ ih => rw [List.mem_cons, List.mem_cons, ih, or_assoc]
  | right _ ih => rw [List.mem_cons, List.mem_cons, ih, or_left_comm]

/-- What stands before the first list may stand before the whole. -/
theorem append_left (xs : List α) (h : Interleaves as bs cs) :
    Interleaves (xs ++ as) bs (xs ++ cs) := by
  induction xs with
  | nil => exact h
  | cons x xs ih => exact .left ih

theorem filterMap (f : α → Option β) (h : Interleaves as bs cs) :
    Interleaves (as.filterMap f) (bs.filterMap f) (cs.filterMap f) := by
  induction h with
  | nil => exact .nil
  | @left a _ _ _ _ ih =>
    cases hfa : f a with
    | none =>
      rw [List.filterMap_cons_none hfa, List.filterMap_cons_none hfa]
      exact ih
    | some b =>
      rw [List.filterMap_cons_some hfa, List.filterMap_cons_some hfa]
      exact .left ih
  | @right a _ _ _ _ ih =>
    cases hfa : f a with
    | none =>
      rw [List.filterMap_cons_none hfa, List.filterMap_cons_none hfa]
      exact ih
    | some b =>
      rw [List.filterMap_cons_some hfa, List.filterMap_cons_some hfa]
      exact .right ih

theorem filter (p : α → Bool) (h : Interleaves as bs cs) :
    Interleaves (as.filter p) (bs.filter p) (cs.filter p) := by
  rw [← List.filterMap_eq_filter]
  exact h.filterMap _

theorem map (f : α → β) (h : Interleaves as bs cs) :
    Interleaves (as.map f) (bs.map f) (cs.map f) := by
  rw [← List.filterMap_eq_map]
  exact h.filterMap _

end Interleaves

theorem any_eq_any_of_mem {α : Type} {as : List α} {p q : α → Bool} (h : ∀ a ∈ as, p a = q a) :
    as.any p = as.any q := by
  rw [Bool.eq_iff_iff, List.any_eq_true, List.any_eq_true]
  refine exists_congr fun a => and_congr_right fun ha => ?_
  rw [h a ha]

/-- One provider lists the same branches and tags of the repository as another one, and further pull
requests among the same pull requests. -/
structure Api.AddsPullRequests (api' api : Api) (r : Repository)
    (prs further prs' : List PullRequest) : Prop where
  branches : (api'.answer (.branches r.owner r.name)).run.value =
    (api.answer (.branches r.owner r.name)).run.value
  tags : (api'.answer (.tags r.owner r.name)).run.value =
    (api.answer (.tags r.owner r.name)).run.value
  pullRequests : (api.answer (.pullRequests r.owner r.name)).run.value = .ok prs
  pullRequests' : (api'.answer (.pullRequests r.owner r.name)).run.value = .ok prs'
  interleaves : Interleaves prs further prs'

/-! ### Where pull requests come from -/

/-- No ref of the repository gains a pull request where all further ones come from forks. -/
theorem Interleaves.exists_comesFrom_iff {r : Repository} {b : RefName}
    {prs forks prs' : List PullRequest} (h : Interleaves prs forks prs') (hr : r.IsQualified)
    (hqualified : ∀ p ∈ forks, p.source.repository.IsQualified)
    (hforks : ∀ p ∈ forks, p.source.repository.isSameAs r = false) :
    (∃ p ∈ prs', p.ComesFrom r b) ↔ ∃ p ∈ prs, p.ComesFrom r b := by
  constructor
  · rintro ⟨p, hp, hfrom⟩
    rcases h.mem_iff.mp hp with hprs | hfork
    · exact ⟨p, hprs, hfrom⟩
    · have hown := ((PullRequest.comesFrom_iff (hqualified p hfork) hr).mp hfrom).1
      rw [Repository.isSameAs_comm, hforks p hfork] at hown
      exact absurd hown Bool.false_ne_true
  · rintro ⟨p, hp, hfrom⟩
    exact ⟨p, h.mem_iff.mpr (.inl hp), hfrom⟩

/-- A filter that looks at pull requests only asks whether one comes from the branch. -/
theorem HeadFilter.LooksAtPullRequests.value_congr {f : HeadFilter} (hf : f.LooksAtPullRequests)
    {r : Repository} {prs prs' : List PullRequest}
    (h : ∀ b, (∃ p ∈ prs', p.ComesFrom r b) ↔ ∃ p ∈ prs, p.ComesFrom r b) (head : Head) :
    (f.excludes ⟨r, some prs'⟩ head).value = (f.excludes ⟨r, some prs⟩ head).value := by
  have hvalue : ∀ (name : String) (excluded : Bool → Bool),
      ((byPullRequest name excluded).excludes ⟨r, some prs'⟩ head).value =
        ((byPullRequest name excluded).excludes ⟨r, some prs⟩ head).value := by
    intro name excluded
    cases head with
    | branch b =>
      rw [value_byPullRequest_branch, value_byPullRequest_branch]
      simp only [h b]
    | tag _ => rfl
    | pullRequest _ => rfl
  rcases hf with rfl | rfl
  · exact hvalue _ _
  · exact hvalue _ _

namespace Scan

variable {r : Repository} {prs forks prs' : List PullRequest}

/-- What becomes of a candidate does not depend on further pull requests from forks, whatever the
context wants. -/
theorem found_of_outsiders {c : DiscoveryContext}
    (hfilters : ∀ f ∈ c.filters, f.LooksAtPullRequests)
    (hauthorities : ∀ a ∈ c.authorities, a = .branches)
    (h : ∀ b, (∃ p ∈ prs', p.ComesFrom r b) ↔ ∃ p ∈ prs, p.ComesFrom r b) :
    found ⟨c, r, some prs'⟩ = found ⟨c, r, some prs⟩ := by
  funext candidate
  have hexcluded : (SourceRequest.isExcluded ⟨c, r, some prs'⟩ candidate.1).value =
      (SourceRequest.isExcluded ⟨c, r, some prs⟩ candidate.1).value := by
    rw [value_isExcluded, value_isExcluded]
    exact any_eq_any_of_mem fun f hf => (hfilters f hf).value_congr h candidate.1
  have htrusted : SourceRequest.isTrusted ⟨c, r, some prs'⟩ candidate.1 =
      SourceRequest.isTrusted ⟨c, r, some prs⟩ candidate.1 := by
    refine any_eq_any_of_mem fun a ha => ?_
    rw [hauthorities a ha]
    cases candidate.1 <;> rfl
  rw [found, found, hexcluded, htrusted]

/-- A pull request as a head that is found and not trusted. -/
def untrusted (p : PullRequest) : DiscoveredHead where
  head := .pullRequest (.ofPullRequest p)
  revision := p.source.commit.map Revision.mk
  trusted := false

/-- No pull request is left out by a filter of branches, nor trusted. -/
theorem foundAmong_eq {request : SourceRequest}
    (hfilters : ∀ f ∈ request.context.filters, f.LooksAtPullRequests)
    (hauthorities : ∀ a ∈ request.context.authorities, a = .branches) (bs ts : List GitRef) :
    foundAmong request bs ts =
      (bs.map (ofRef .branch) ++ ts.map (ofRef .tag)).filterMap (found request) ++
        ((request.view.pullRequests.getD []).filter
          (wantsFrom request.context request.view.repository)).map untrusted := by
  have htrusted : ∀ h : PullRequestHead, request.isTrusted (.pullRequest h) = false := by
    intro h
    rw [SourceRequest.isTrusted, List.any_eq_false]
    intro a ha
    rw [hauthorities a ha]
    exact Bool.false_ne_true
  have hfound : found request ∘ ofPullRequest = some ∘ untrusted := by
    funext p
    rw [Function.comp_apply, found, ofPullRequest, value_isExcluded_pullRequest hfilters, htrusted]
    rfl
  rw [foundAmong, List.filterMap_append, changeRequests_eq, List.filterMap_map, hfound,
    List.filterMap_eq_map]

/-- What is listed from forks is wanted or not, all of it alike. -/
theorem filter_wantsFrom_of_forks {c : DiscoveryContext}
    (hforks : ∀ p ∈ forks, p.source.repository.isSameAs r = false) :
    forks.filter (wantsFrom c r) =
      if c.includes .changeRequests && c.wantsForkPullRequests then forks else [] := by
  have hwants : forks.filter (wantsFrom c r) =
      forks.filter fun _ => c.includes .changeRequests && c.wantsForkPullRequests := by
    refine List.filter_congr fun p hp => ?_
    rw [wantsFrom, Repository.isSameAs_comm, hforks p hp, if_neg Bool.false_ne_true]
  rw [hwants]
  split_ifs with hwanted
  · rw [hwanted, List.filter_true]
  · rw [Bool.not_eq_true _ |>.mp hwanted, List.filter_false]

/-- What is found among listed branches, listed tags and more pull requests from forks. -/
theorem foundAmong_of_outsiders {c : DiscoveryContext}
    (hfilters : ∀ f ∈ c.filters, f.LooksAtPullRequests)
    (hauthorities : ∀ a ∈ c.authorities, a = .branches)
    (hlists : Interleaves prs forks prs')
    (hfrom : ∀ b, (∃ p ∈ prs', p.ComesFrom r b) ↔ ∃ p ∈ prs, p.ComesFrom r b)
    (bs ts : List GitRef) :
    Interleaves (foundAmong ⟨c, r, some prs⟩ bs ts)
      ((forks.filter (wantsFrom c r)).map untrusted) (foundAmong ⟨c, r, some prs'⟩ bs ts) := by
  rw [foundAmong_eq hfilters hauthorities, foundAmong_eq hfilters hauthorities,
    found_of_outsiders hfilters hauthorities hfrom]
  exact ((hlists.filter _).map _).append_left _

/-- Two scans by the same traits, of which the second one is told of further pull requests, all from
forks. If filters look only at whether pull requests come from branches and only branches are
trusted, the scans fail alike, and what the second one finds consists of what the first one finds,
with the same commits and marks, and of nothing else or of the further pull requests. These are not
trusted, and there only if some trait wants pull requests from forks. -/
theorem heads_of_outsiders (traits : List Trait)
    (hfilters : ∀ t ∈ traits, ∀ f, Decoration.filter f ∈ t.decorations →
      f = .excludeOriginPullRequests ∨ f = .onlyOriginPullRequests)
    (hauthorities : ∀ t ∈ traits, ∀ a, Decoration.authority a ∈ t.decorations → a = .branches)
    (api api' : Api) (r : Repository) (prs forks prs' : List PullRequest)
    (hadds : api'.AddsPullRequests api r prs forks prs')
    (hforks : ∀ p ∈ forks, p.source.repository.isSameAs r = false)
    (hr : r.IsQualified) (hqualified : ∀ p ∈ prs', p.source.repository.IsQualified) :
    (∀ e, (heads api' traits r).run.value = .error e ↔
        (heads api traits r).run.value = .error e) ∧
      ∀ ds, (heads api traits r).run.value = .ok ds →
        ∃ ds' further, (heads api' traits r).run.value = .ok ds' ∧ Interleaves ds further ds' ∧
          (further = [] ∨ further = forks.map untrusted) ∧
          (further ≠ [] → (∃ t ∈ traits, t.includes .changeRequests = true) ∧
            ∃ t ∈ traits, Decoration.wantForkPullRequests true ∈ t.decorations) := by
  have hcontextFilters : ∀ f ∈ (DiscoveryContext.ofTraits traits).filters,
      f.LooksAtPullRequests := by
    intro f hf
    obtain ⟨t, ht, hft⟩ := DiscoveryContext.exists_mem_of_mem_filters hf
    exact hfilters t ht f hft
  have hcontextAuthorities : ∀ a ∈ (DiscoveryContext.ofTraits traits).authorities,
      a = .branches := by
    intro a ha
    obtain ⟨t, ht, hat⟩ := DiscoveryContext.mem_authorities_ofTraits_iff.mp ha
    exact hauthorities t ht a hat
  have hbranches : listedBranches api' (.ofTraits traits) r =
      listedBranches api (.ofTraits traits) r := by
    rw [listedBranches, listedBranches, hadds.branches]
  have htags : listedTags api' (.ofTraits traits) r = listedTags api (.ofTraits traits) r := by
    rw [listedTags, listedTags, hadds.tags]
  refine ⟨?_, ?_⟩
  · intro e
    rw [value_heads_eq_error_iff, value_heads_eq_error_iff, hbranches, htags]
  · intro ds hds
    obtain ⟨bs, ts, hbs, hts, rfl⟩ := value_heads_eq_ok_iff.mp hds
    have hds' := value_heads_eq_ok_iff.mpr ⟨bs, ts, hbranches.trans hbs, htags.trans hts, rfl⟩
    rw [value_request_eq, knownPullRequests_of_ok hadds.pullRequests'] at hds'
    rw [value_request_eq, knownPullRequests_of_ok hadds.pullRequests]
    cases hwants : (DiscoveryContext.ofTraits traits).wantsPullRequests with
    | false =>
      -- Neither scan lists pull requests.
      rw [hwants] at hds'
      exact ⟨_, [], hds', .nil_right _, .inl rfl, fun hne => absurd rfl hne⟩
    | true =>
      rw [hwants] at hds'
      have hqualifiedForks : ∀ p ∈ forks, p.source.repository.IsQualified :=
        fun p hp => hqualified p (hadds.interleaves.mem_iff.mpr (.inr hp))
      have hfound := foundAmong_of_outsiders hcontextFilters hcontextAuthorities hadds.interleaves
        (fun b => hadds.interleaves.exists_comesFrom_iff hr hqualifiedForks hforks) bs ts
      rw [filter_wantsFrom_of_forks hforks] at hfound
      refine ⟨_, _, hds', hfound, ?_, ?_⟩
      · split_ifs
        · exact .inr rfl
        · exact .inl rfl
      · intro hne
        split_ifs at hne with hwanted
        · rw [Bool.and_eq_true] at hwanted
          exact ⟨DiscoveryContext.includes_ofTraits_iff.mp hwanted.1,
            DiscoveryContext.wantsForkPullRequests_ofTraits_iff.mp hwanted.2⟩
        · exact absurd rfl hne

/-- Who lists the same, and a pull request from the branch `main` of a fork first. -/
def outsiderApi : Api where
  answer
    | .pullRequests .. => pure [forkPullRequest, samplePullRequest]
    | q => sampleApi.answer q

/-- Traits that leave out branches with pull requests, and want those from forks too. -/
def openTraits : List Trait :=
  [.branchDiscovery .excludePullRequests,
    ⟨[.wantForkPullRequests true], fun c => c == .changeRequests, none⟩]

theorem isQualified_team_widget : Repository.IsQualified ⟨⟨"team"⟩, ⟨"widget"⟩, []⟩ :=
  .inl ⟨"team/widget", by decide +kernel⟩

theorem isQualified_alice_widget : Repository.IsQualified ⟨⟨"alice"⟩, ⟨"widget"⟩, []⟩ :=
  .inl ⟨"alice/widget", by decide +kernel⟩

/-- The branch `main` is still built, although a pull request comes from another one of its name. -/
theorem heads_of_outsiders_outsiderApi :
    outsiderApi.AddsPullRequests sampleApi sampleRepository [samplePullRequest]
        [forkPullRequest] [forkPullRequest, samplePullRequest] ∧
      ∃ ds' further, (heads outsiderApi openTraits sampleRepository).run.value = .ok ds' ∧
        Interleaves
          [⟨.branch ⟨"main"⟩, some ⟨⟨"a1"⟩⟩, true⟩, untrusted samplePullRequest] further ds' ∧
        (further = [] ∨ further = [untrusted forkPullRequest]) := by
  have hadds : outsiderApi.AddsPullRequests sampleApi sampleRepository [samplePullRequest]
      [forkPullRequest] [forkPullRequest, samplePullRequest] :=
    ⟨rfl, rfl, rfl, rfl, .right (.left .nil)⟩
  have hfilters : ∀ t ∈ openTraits, ∀ f, Decoration.filter f ∈ t.decorations →
      f = .excludeOriginPullRequests ∨ f = .onlyOriginPullRequests := by
    intro t ht f hf
    rcases List.mem_pair.mp ht with rfl | rfl
    · left
      simpa [Trait.branchDiscovery, BranchStrategy.decorations] using hf
    · simp at hf
  have hauthorities : ∀ t ∈ openTraits, ∀ a,
      Decoration.authority a ∈ t.decorations → a = .branches := by
    intro t ht a ha
    rcases List.mem_pair.mp ht with rfl | rfl
    · simpa [Trait.branchDiscovery, BranchStrategy.decorations] using ha
    · simp at ha
  have hforks : ∀ p ∈ [forkPullRequest], p.source.repository.isSameAs sampleRepository = false := by
    intro p hp
    rw [List.mem_singleton.mp hp]
    decide +kernel
  have hqualified : ∀ p ∈ [forkPullRequest, samplePullRequest],
      p.source.repository.IsQualified := by
    intro p hp
    rcases List.mem_pair.mp hp with rfl | rfl
    · exact isQualified_alice_widget
    · exact isQualified_team_widget
  have hvalue : (heads sampleApi openTraits sampleRepository).run.value =
      .ok [⟨.branch ⟨"main"⟩, some ⟨⟨"a1"⟩⟩, true⟩, untrusted samplePullRequest] := by
    decide +kernel
  obtain ⟨-, hok⟩ := heads_of_outsiders openTraits hfilters hauthorities sampleApi outsiderApi
    sampleRepository _ _ _ hadds hforks isQualified_team_widget hqualified
  obtain ⟨ds', further, hds', hinterleaves, hfurther, -⟩ := hok _ hvalue
  exact ⟨hadds, ds', further, hds', hinterleaves, hfurther⟩

end Scan

end HeadScout
