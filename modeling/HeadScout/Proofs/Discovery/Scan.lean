import HeadScout.Discovery.Scan
import HeadScout.Proofs.Discovery.Context
import HeadScout.Proofs.Discovery.Filter

/-!
# What a scan finds

A scan asks for the pull requests of a repository, then for its branches, then for its tags, each
only if it is wanted; what it finds is told by the answers, and which listings it asks for by the
context and by the first failure among them.

For configured traits this comes to a rule about the numbers of the strategies. A branch is found if
every strategy but the one that builds nothing builds branches of its sort, where the sort is
whether a pull request comes from the branch.

## Main definitions

* `Scan.found` — what becomes of a candidate
* `TraitSpec.Builds` — the rule for configured traits

## Main results

* `Scan.value_heads`, `Scan.listings_heads` — any scan, told by the answers
* `Scan.heads_of_toTraits` — the scan of configured traits
-/

namespace HeadScout

namespace Scan

variable (api : Api) (traits : List Trait) (r : Repository) (request : SourceRequest)

/-! ### The request -/

theorem value_pullRequests :
    (pullRequests api r).value =
      (api.answer (.pullRequests r.owner r.name)).run.value.toOption := by
  rw [pullRequests, Traced.value_bind, Api.value_list]
  cases (api.answer (.pullRequests r.owner r.name)).run.value <;> rfl

theorem listings_pullRequests :
    Step.listings (pullRequests api r).steps = [.pullRequests r.owner r.name] := by
  rw [pullRequests, Traced.steps_bind, Step.listings_append, Api.listings_list]
  cases (api.list (.pullRequests r.owner r.name)).run.value <;> rfl

theorem value_request :
    (Scan.request api traits r).value =
      ⟨.ofTraits traits, r, if (DiscoveryContext.ofTraits traits).wantsPullRequests then
        (api.answer (.pullRequests r.owner r.name)).run.value.toOption else none⟩ := by
  rw [Scan.request]
  split_ifs
  · rw [Traced.value_bind, value_pullRequests]
    rfl
  · rfl

theorem listings_request :
    Step.listings (Scan.request api traits r).steps =
      if (DiscoveryContext.ofTraits traits).wantsPullRequests then [.pullRequests r.owner r.name]
      else [] := by
  rw [Scan.request]
  split_ifs
  · rw [Traced.steps_bind, Step.listings_append, listings_pullRequests]
    rfl
  · rfl

/-! ### The candidates -/

theorem value_refs (wanted : Bool) (kind : RefKind) (listing : Attempt (List GitRef)) :
    (refs wanted kind listing).run.value =
      if wanted then listing.run.value.map (List.map (ofRef kind)) else .ok [] := by
  rw [refs]
  split_ifs
  · rw [Traced.value_run_bind]
    cases listing.run.value <;> rfl
  · rfl

theorem listings_refs (wanted : Bool) (kind : RefKind) (listing : Attempt (List GitRef)) :
    Step.listings (refs wanted kind listing).run.steps =
      if wanted then Step.listings listing.run.steps else [] := by
  rw [refs]
  split_ifs
  · rw [Traced.steps_run_bind, Step.listings_append]
    cases listing.run.value <;> exact List.append_nil _
  · rfl

theorem value_candidates :
    (candidates api request).run.value =
      (branches api request).run.value.bind fun bs =>
        (tags api request).run.value.map fun ts => bs ++ ts ++ changeRequests request := by
  rw [candidates, Traced.value_run_bind]
  congr 1
  funext bs
  rw [Traced.value_run_bind]
  cases (tags api request).run.value <;> rfl

theorem listings_candidates :
    Step.listings (candidates api request).run.steps =
      Step.listings (branches api request).run.steps ++
        match (branches api request).run.value with
        | .ok _ => Step.listings (tags api request).run.steps
        | .error _ => [] := by
  rw [candidates, Traced.steps_run_bind, Step.listings_append]
  congr 1
  cases (branches api request).run.value with
  | error e => rfl
  | ok bs =>
    simp only [Traced.steps_run_bind, Step.listings_append]
    cases (tags api request).run.value <;> exact List.append_nil _

/-! ### The heads -/

/-- What becomes of a candidate. -/
def found (c : Candidate) : Option DiscoveredHead :=
  if (request.isExcluded c.1).value then none else some ⟨c.1, c.2, request.isTrusted c.1⟩

theorem value_discover (c : Candidate) : (discover request c).value = found request c := by
  rw [discover, Traced.value_bind, found]
  split_ifs <;> rfl

theorem value_discoverAll (cs : List Candidate) :
    (discoverAll request cs).value = cs.filterMap (found request) := by
  rw [discoverAll, Traced.value_bind, Traced.value_bind, Traced.value_pure, Traced.value_mapM,
    List.filterMap_map]
  exact congrArg (cs.filterMap ·) (funext (value_discover request))

/-- A scan finds what becomes of its candidates. -/
theorem value_heads :
    (heads api traits r).run.value =
      (candidates api (Scan.request api traits r).value).run.value.map
        (List.filterMap (found (Scan.request api traits r).value)) := by
  rw [heads, Traced.value_run_bind, Traced.value_run_liftM]
  change ((_ >>= _ : Attempt (List DiscoveredHead)).run.value) = _
  rw [Traced.value_run_bind]
  simp only [Traced.value_run_liftM, Traced.value_mapSteps, value_discoverAll]
  rfl

/-- A scan asks for pull requests first, and then for its candidates. -/
theorem listings_heads :
    Step.listings (heads api traits r).run.steps =
      Step.listings (Scan.request api traits r).steps ++
        Step.listings (candidates api (Scan.request api traits r).value).run.steps := by
  rw [heads, Traced.steps_run_bind, Step.listings_append, Traced.steps_run_liftM,
    Traced.value_run_liftM]
  congr 1
  simp only [Traced.steps_run_bind, Step.listings_append]
  cases (candidates api (Scan.request api traits r).value).run.value with
  | error e => exact List.append_nil _
  | ok cs =>
    simp only [Traced.steps_run_liftM, Traced.steps_mapSteps, Step.listings_map_note,
      List.append_nil]

theorem value_isExcluded (h : Head) :
    (request.isExcluded h).value =
      request.context.filters.any fun f => (f.excludes request.view h).value := by
  rw [SourceRequest.isExcluded, Traced.value_anyM]

end Scan

/-! ### Strategies -/

namespace BranchStrategy

/-- Whether the strategy builds branches of a sort: its number has a bit for each of them. -/
def builds (s : BranchStrategy) (hasPullRequest : Bool) : Bool :=
  s.id.toNat.testBit (if hasPullRequest then 1 else 0)

theorem id_eq_zero_iff (s : BranchStrategy) : s.id = 0 ↔ s = .nothing := by
  cases s <;> decide

theorem any_map_id_ne_zero (ss : List BranchStrategy) :
    (ss.map id).any (· ≠ 0) = ss.any (· ≠ .nothing) := by
  simp only [List.any_map, Function.comp_def, ne_eq, id_eq_zero_iff]

/-- Exactly the strategies one and two look at pull requests. -/
theorem any_filter?_isSome_iff (ss : List BranchStrategy) :
    ss.any (·.filter?.isSome) = true ↔ 1 ∈ ss.map id ∨ 2 ∈ ss.map id := by
  have hfilter : ∀ s : BranchStrategy, s.filter?.isSome = true ↔ s.id = 1 ∨ s.id = 2 := by
    intro s
    cases s <;> decide
  simp only [List.any_eq_true, List.mem_map, hfilter, and_or_left, exists_or]

/-- The filter of a strategy leaves out the branches that the strategy does not build. -/
theorem any_filter?_excludes (s : BranchStrategy) (r : Repository) (prs : List PullRequest)
    (b : RefName) :
    (s.filter?.any fun f => (f.excludes ⟨r, some prs⟩ (.branch b)).value) =
      (decide (s ≠ .nothing) && !s.builds (decide (∃ p ∈ prs, p.ComesFrom r b))) := by
  cases s with
  | nothing => rfl
  | excludePullRequests =>
    rw [filter?, Option.any_some, HeadFilter.excludeOriginPullRequests,
      HeadFilter.value_byPullRequest_branch]
    cases decide (∃ p ∈ prs, p.ComesFrom r b) <;> rfl
  | onlyPullRequests =>
    rw [filter?, Option.any_some, HeadFilter.onlyOriginPullRequests,
      HeadFilter.value_byPullRequest_branch]
    cases decide (∃ p ∈ prs, p.ComesFrom r b) <;> rfl
  | everything => cases decide (∃ p ∈ prs, p.ComesFrom r b) <;> rfl

/-- Pull requests are loaded where a filter needs them, so a branch is left out exactly if some
strategy but the one that builds nothing does not build it. -/
theorem value_isExcluded_ofStrategies (ss : List BranchStrategy) (r : Repository)
    (prs : List PullRequest) (b : RefName) :
    (SourceRequest.isExcluded
          ⟨.ofStrategies ss, r, if ss.any (·.filter?.isSome) then some prs else none⟩
          (.branch b)).value =
      ss.any fun s => decide (s ≠ .nothing) && !s.builds (decide (∃ p ∈ prs, p.ComesFrom r b)) := by
  simp only [← any_filter?_excludes]
  rw [Scan.value_isExcluded]
  change (ss.filterMap filter?).any _ = _
  rw [List.any_filterMap]
  by_cases hloaded : ss.any (·.filter?.isSome) = true
  · rw [if_pos hloaded]
    rfl
  · -- No strategy has a filter, so it does not matter what filters can see.
    have hnone : ∀ s ∈ ss, s.filter? = none := by simpa using hloaded
    have hfalse : ∀ q : HeadFilter → Bool, (ss.any fun s => s.filter?.any q) = false := by
      intro q
      rw [List.any_eq_false]
      intro s hs
      rw [hnone s hs]
      exact Bool.false_ne_true
    exact (hfalse _).trans (hfalse _).symm

theorem isTrusted_ofStrategies (ss : List BranchStrategy) (v : SourceView) (b : RefName) :
    SourceRequest.isTrusted ⟨.ofStrategies ss, v⟩ (.branch b) = ss.any (· ≠ .nothing) := by
  change (ss.flatMap _).any _ = _
  rw [List.any_flatMap]
  congr 1
  funext s
  cases s <;> rfl

end BranchStrategy

namespace TraitSpec

/-- Whether branches of a sort are built under strategies with these numbers: some number is not
zero, and all that are not have the bit of the sort. -/
def Builds (ids : List UInt8) (hasPullRequest : Bool) : Prop :=
  (∃ n ∈ ids, n ≠ 0) ∧
    ∀ n ∈ ids, n ≠ 0 → n.toNat.testBit (if hasPullRequest then 1 else 0) = true

theorem builds_iff (ids : List UInt8) (hasPullRequest : Bool) :
    Builds ids hasPullRequest ↔
      ids.any (· ≠ 0) = true ∧
        (ids.all fun n => n = 0 ∨ n.toNat.testBit (if hasPullRequest then 1 else 0)) = true := by
  simp only [Builds, List.any_eq_true, List.all_eq_true, decide_eq_true_iff, or_iff_not_imp_left,
    ne_eq]

instance (ids : List UInt8) (hasPullRequest : Bool) : Decidable (Builds ids hasPullRequest) :=
  decidable_of_iff _ (builds_iff ids hasPullRequest).symm

theorem builds_map_id_iff (ss : List BranchStrategy) (hasPullRequest : Bool) :
    Builds (ss.map BranchStrategy.id) hasPullRequest ↔
      ss.any (· ≠ .nothing) = true ∧
        (ss.any fun s => decide (s ≠ .nothing) && !s.builds hasPullRequest) = false := by
  rw [builds_iff, BranchStrategy.any_map_id_ne_zero]
  refine and_congr_right fun _ => ?_
  simp [BranchStrategy.builds, BranchStrategy.id_eq_zero_iff, or_iff_not_imp_left]

end TraitSpec

namespace Scan

variable (api : Api) (ss : List BranchStrategy) (v : SourceView)

/-- The category of branches is there as soon as there is any strategy. -/
theorem wantsBranches_ofStrategies :
    ((DiscoveryContext.ofStrategies ss).wantsBranches &&
      (DiscoveryContext.ofStrategies ss).includes .uncategorized) = ss.any (· ≠ .nothing) := by
  cases ss with
  | nil => rfl
  | cons s ss => exact Bool.and_true _

theorem branches_ofStrategies :
    branches api ⟨.ofStrategies ss, v⟩ =
      refs (ss.any (· ≠ .nothing)) .branch
        (api.list (.branches v.repository.owner v.repository.name)) := by
  rw [branches, wantsBranches_ofStrategies]

theorem tags_ofStrategies : tags api ⟨.ofStrategies ss, v⟩ = pure [] := rfl

theorem changeRequests_ofStrategies : changeRequests ⟨.ofStrategies ss, v⟩ = [] := by
  rw [changeRequests]
  cases ss <;> rfl

theorem value_candidates_ofStrategies {gs : List GitRef}
    (h : (api.answer (.branches v.repository.owner v.repository.name)).run.value = .ok gs) :
    (candidates api ⟨.ofStrategies ss, v⟩).run.value =
      .ok (if ss.any (· ≠ .nothing) then gs.map (ofRef .branch) else []) := by
  rw [value_candidates, branches_ofStrategies, tags_ofStrategies, changeRequests_ofStrategies,
    value_refs, Api.value_list, h]
  by_cases hany : ss.any (· ≠ .nothing) = true
  · rw [if_pos hany, if_pos hany]
    change Except.ok (gs.map (ofRef .branch) ++ [] ++ []) = _
    rw [List.append_nil, List.append_nil]
  · rw [if_neg hany, if_neg hany]
    rfl

theorem listings_candidates_ofStrategies {gs : List GitRef}
    (h : (api.answer (.branches v.repository.owner v.repository.name)).run.value = .ok gs) :
    Step.listings (candidates api ⟨.ofStrategies ss, v⟩).run.steps =
      if ss.any (· ≠ .nothing) then [.branches v.repository.owner v.repository.name] else [] := by
  rw [listings_candidates, branches_ofStrategies, tags_ofStrategies, listings_refs, value_refs,
    Api.value_list, Api.listings_list, h]
  by_cases hany : ss.any (· ≠ .nothing) = true
  · rw [if_pos hany, if_pos hany]
    rfl
  · rw [if_neg hany, if_neg hany]
    rfl

/-- What becomes of a branch that is listed. -/
theorem found_ofStrategies (r : Repository) (prs : List PullRequest) (g : GitRef)
    (hany : ss.any (· ≠ .nothing) = true) :
    found ⟨.ofStrategies ss, r, if ss.any (·.filter?.isSome) then some prs else none⟩
        (ofRef .branch g) =
      if TraitSpec.Builds (ss.map BranchStrategy.id) (∃ p ∈ prs, p.ComesFrom r g.name) then
        some ⟨.branch g.name, g.commit.map (⟨·⟩), true⟩
      else none := by
  have hbuilds := TraitSpec.builds_map_id_iff ss (∃ p ∈ prs, p.ComesFrom r g.name)
  rw [found, ofRef, Head.ofRef, BranchStrategy.value_isExcluded_ofStrategies,
    BranchStrategy.isTrusted_ofStrategies, hany]
  split_ifs with hexcluded hb hb
  · -- A branch that is built is not left out.
    rw [(hbuilds.mp hb).2] at hexcluded
    cases hexcluded
  · rfl
  · rfl
  · exact absurd (hbuilds.mpr ⟨hany, Bool.eq_false_iff.mpr hexcluded⟩) hb

theorem filterMap_found_ofStrategies (r : Repository) (prs : List PullRequest) (gs : List GitRef) :
    (if ss.any (· ≠ .nothing) then gs.map (ofRef .branch) else []).filterMap
        (found ⟨.ofStrategies ss, r, if ss.any (·.filter?.isSome) then some prs else none⟩) =
      (gs.filter fun g =>
          TraitSpec.Builds (ss.map BranchStrategy.id) (∃ p ∈ prs, p.ComesFrom r g.name)).map
        fun g => ⟨.branch g.name, g.commit.map (⟨·⟩), true⟩ := by
  by_cases hany : ss.any (· ≠ .nothing) = true
  · rw [if_pos hany, List.filterMap_map, ← List.filterMap_eq_map, List.filterMap_filter]
    congr 1
    funext g
    exact (found_ofStrategies ss r prs g hany).trans (by simp)
  · have hnone : ∀ g ∈ gs,
        ¬ TraitSpec.Builds (ss.map BranchStrategy.id) (∃ p ∈ prs, p.ComesFrom r g.name) :=
      fun g _ hb => hany ((TraitSpec.builds_map_id_iff ss _).mp hb).1
    rw [if_neg hany, List.filter_eq_nil_iff.mpr (by simpa using hnone)]
    rfl

theorem wantsPullRequests_ofStrategies :
    (DiscoveryContext.ofStrategies ss).wantsPullRequests = ss.any (·.filter?.isSome) :=
  Bool.or_false _

/-- What the traits of a configuration mean. They cannot be put together if some strategy has a
number above three. Else a scan finds the listed branches that all strategies build, in the order of
the listing, trusts them, and finds nothing else; it asks for pull requests once if some strategy
looks at them and else not at all, and then for branches if some strategy builds any. -/
theorem heads_of_toTraits (specs : List TraitSpec) :
    ((∃ e, TraitSpec.toTraits specs = .error e) ↔ ∃ n ∈ TraitSpec.strategyIds specs, 3 < n) ∧
      ∀ (traits : List Trait) (api : Api) (r : Repository) (gs : List GitRef)
        (prs : List PullRequest), TraitSpec.toTraits specs = .ok traits →
        (api.answer (.branches r.owner r.name)).run.value = .ok gs →
        (api.answer (.pullRequests r.owner r.name)).run.value = .ok prs →
        (heads api traits r).run.value =
            .ok ((gs.filter fun g => TraitSpec.Builds (TraitSpec.strategyIds specs)
              (∃ p ∈ prs, p.ComesFrom r g.name)).map
                fun g => ⟨.branch g.name, g.commit.map (⟨·⟩), true⟩) ∧
          Step.listings (heads api traits r).run.steps =
            (if 1 ∈ TraitSpec.strategyIds specs ∨ 2 ∈ TraitSpec.strategyIds specs then
              [.pullRequests r.owner r.name] else []) ++
              if (TraitSpec.strategyIds specs).any (· ≠ 0) then [.branches r.owner r.name]
              else [] := by
  constructor
  · have hok : ¬ (∃ traits, TraitSpec.toTraits specs = .ok traits) ↔
        ∃ n ∈ TraitSpec.strategyIds specs, 3 < n := by
      rw [TraitSpec.exists_toTraits_iff]
      simp only [not_forall, UInt8.not_le, exists_prop]
    rw [← hok]
    cases TraitSpec.toTraits specs with
    | ok traits => exact ⟨nofun, fun h => absurd ⟨traits, rfl⟩ h⟩
    | error e => exact ⟨fun _ => nofun, fun _ => ⟨e, rfl⟩⟩
  · intro traits api r gs prs htraits hbranches hprs
    -- From here on only the strategies count: the traits and what is configured of checkouts are
    -- gone from context and numbers alike.
    have hcontext := TraitSpec.ofTraits_eq_ofStrategies htraits
    rw [TraitSpec.strategyIds_eq htraits]
    have hrequest : (Scan.request api traits r).value =
        ⟨.ofStrategies (TraitSpec.strategies specs), r,
          if (TraitSpec.strategies specs).any (·.filter?.isSome) then some prs else none⟩ := by
      rw [value_request, hcontext, wantsPullRequests_ofStrategies, hprs]
      rfl
    constructor
    · rw [value_heads, hrequest, value_candidates_ofStrategies _ _ _ hbranches]
      exact congrArg Except.ok (filterMap_found_ofStrategies _ _ _ _)
    · rw [listings_heads, hrequest, listings_candidates_ofStrategies _ _ _ hbranches,
        listings_request, hcontext, wantsPullRequests_ofStrategies]
      congr 1
      · exact if_congr (BranchStrategy.any_filter?_isSome_iff _) rfl rfl
      · rw [BranchStrategy.any_map_id_ne_zero]

/-- A repository with two branches, and a pull request that comes from one of them. -/
def sampleRepository : Repository := ⟨⟨"team"⟩, ⟨"widget"⟩, []⟩

def samplePullRequest : PullRequest :=
  ⟨⟨1⟩, "Topic", ⟨sampleRepository, ⟨"topic"⟩, .branch, none⟩, ⟨"main"⟩⟩

def sampleApi : Api where
  answer
    | .repositories _ => pure [sampleRepository]
    | .branches .. => pure [⟨⟨"main"⟩, some ⟨"a1"⟩⟩, ⟨⟨"topic"⟩, none⟩]
    | .tags .. => pure []
    | .pullRequests .. => pure [samplePullRequest]

/-- Of two strategies, the one that builds less decides. -/
theorem heads_of_two_strategies :
    ∃ traits,
      TraitSpec.toTraits [.branchDiscovery 3, .sshCheckout none, .branchDiscovery 1] =
          .ok traits ∧
        (heads sampleApi traits sampleRepository).run.value =
          .ok [⟨.branch ⟨"main"⟩, some ⟨⟨"a1"⟩⟩, true⟩] := by
  obtain ⟨hvalue, -⟩ := (heads_of_toTraits [.branchDiscovery 3, .sshCheckout none,
    .branchDiscovery 1]).2 _ sampleApi sampleRepository _ _ rfl rfl rfl
  have hmain : ¬ ∃ p ∈ [samplePullRequest], p.ComesFrom sampleRepository ⟨"main"⟩ := by
    rintro ⟨p, hp, -, hname⟩
    rw [List.mem_singleton.mp hp] at hname
    exact absurd hname (by decide)
  have htopic : ∃ p ∈ [samplePullRequest], p.ComesFrom sampleRepository ⟨"topic"⟩ :=
    ⟨_, List.mem_singleton_self _, rfl, rfl⟩
  refine ⟨_, rfl, hvalue.trans ?_⟩
  rw [List.filter_cons_of_pos (by rw [decide_eq_false hmain]; decide),
    List.filter_cons_of_neg (by rw [decide_eq_true htopic]; decide), List.filter_nil]
  rfl

end Scan

end HeadScout
