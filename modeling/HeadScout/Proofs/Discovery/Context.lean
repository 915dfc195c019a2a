import HeadScout.Discovery.TraitSpec
import Mathlib.Data.List.Basic

/-!
# The context of configured traits

A context grows by one addition after the other, and no addition takes anything back. So what a
context has come to can be told from its additions field by field: a wish is in it if some addition
utters it, and authorities and filters are those of the additions, in order.

For configured traits only the numbers of the strategies matter. Each strategy but the one that
builds nothing wants branches and trusts them, and each of the two that look at pull requests wants
them and adds a filter.

## Main definitions

* `TraitSpec.strategies`, `TraitSpec.strategyIds` — the strategies among configured traits, and
  their numbers as configured
* `DiscoveryContext.ofStrategies` — the context of some strategies

## Main results

* `DiscoveryContext.decorateAll_eq`, `DiscoveryContext.ofTraits_eq` — a context, field by field
* `TraitSpec.exists_toTraits_iff` — the lists that can be put together
* `TraitSpec.ofTraits_eq_ofStrategies` — the context of configured traits
-/

namespace HeadScout

/-! ### Additions -/

namespace Decoration

/-- Whether the addition wants branches. -/
def wantsBranches : Decoration → Bool
  | .wantBranches wanted => wanted
  | _ => false

/-- Whether the addition wants pull requests from the repository itself. -/
def wantsOriginPullRequests : Decoration → Bool
  | .wantOriginPullRequests wanted => wanted
  | _ => false

/-- Whether the addition wants pull requests from forks. -/
def wantsForkPullRequests : Decoration → Bool
  | .wantForkPullRequests wanted => wanted
  | _ => false

/-- Whether the addition wants tags. -/
def wantsTags : Decoration → Bool
  | .wantTags wanted => wanted
  | _ => false

/-- The authority that is added, if one is. -/
def authority? : Decoration → Option HeadAuthority
  | .authority a => some a
  | _ => none

/-- The filter that is added, if one is. -/
def filter? : Decoration → Option HeadFilter
  | .filter f => some f
  | _ => none

end Decoration

namespace DiscoveryContext

theorem decorateAll_cons (c : DiscoveryContext) (d : Decoration) (ds : List Decoration) :
    c.decorateAll (d :: ds) = (c.decorate d).decorateAll ds := rfl

/-- One addition changes every field by what it adds there. -/
theorem decorate_eq (c : DiscoveryContext) (d : Decoration) :
    c.decorate d =
      { wantsBranches := c.wantsBranches || d.wantsBranches
        wantsOriginPullRequests := c.wantsOriginPullRequests || d.wantsOriginPullRequests
        wantsForkPullRequests := c.wantsForkPullRequests || d.wantsForkPullRequests
        wantsTags := c.wantsTags || d.wantsTags
        categories := c.categories
        authorities := c.authorities ++ d.authority?.toList
        filters := c.filters ++ d.filter?.toList } := by
  cases d <;>
    simp [decorate, Decoration.wantsBranches, Decoration.wantsOriginPullRequests,
      Decoration.wantsForkPullRequests, Decoration.wantsTags, Decoration.authority?,
      Decoration.filter?]

/-- A context after some additions, field by field. -/
theorem decorateAll_eq (c : DiscoveryContext) (ds : List Decoration) :
    c.decorateAll ds =
      { wantsBranches := c.wantsBranches || ds.any (·.wantsBranches)
        wantsOriginPullRequests :=
          c.wantsOriginPullRequests || ds.any (·.wantsOriginPullRequests)
        wantsForkPullRequests := c.wantsForkPullRequests || ds.any (·.wantsForkPullRequests)
        wantsTags := c.wantsTags || ds.any (·.wantsTags)
        categories := c.categories
        authorities := c.authorities ++ ds.filterMap (·.authority?)
        filters := c.filters ++ ds.filterMap (·.filter?) } := by
  induction ds generalizing c with
  | nil => simp [decorateAll]
  | cons d ds ih =>
    rw [decorateAll_cons, ih, decorate_eq]
    simp only [List.any_cons, Bool.or_assoc, List.append_assoc, List.filterMap_cons]
    cases d.authority? <;> cases d.filter? <;> rfl

/-- The context of a list of traits, field by field. -/
theorem ofTraits_eq (traits : List Trait) :
    ofTraits traits =
      { wantsBranches := traits.any fun t => t.decorations.any (·.wantsBranches)
        wantsOriginPullRequests :=
          traits.any fun t => t.decorations.any (·.wantsOriginPullRequests)
        wantsForkPullRequests := traits.any fun t => t.decorations.any (·.wantsForkPullRequests)
        wantsTags := traits.any fun t => t.decorations.any (·.wantsTags)
        categories := HeadCategory.all.filter fun c => traits.any (·.includes c)
        authorities := traits.flatMap fun t => t.decorations.filterMap (·.authority?)
        filters := traits.flatMap fun t => t.decorations.filterMap (·.filter?) } := by
  rw [ofTraits, decorateAll_eq]
  simp only [List.any_flatMap, List.filterMap_flatMap, empty, Bool.false_or, List.nil_append]

end DiscoveryContext

/-! ### Strategies -/

namespace BranchStrategy

theorem ofId?_eq_some_iff {n : UInt8} {s : BranchStrategy} : ofId? n = some s ↔ s.id = n := by
  constructor
  · intro h
    rw [ofId?] at h
    rw [← UInt8.toNat_inj]
    generalize n.toNat = k at h
    match k, h with
    | 0, rfl | 1, rfl | 2, rfl | 3, rfl => rfl
  · rintro rfl
    exact ofId?_id s

/-- Exactly the numbers up to three are those of strategies. -/
theorem exists_id_eq_iff {n : UInt8} : (∃ s : BranchStrategy, s.id = n) ↔ n ≤ 3 := by
  simp only [← ofId?_eq_some_iff, ← Option.isSome_iff_exists]
  rw [ofId?, isSome_getElem?, UInt8.le_iff_toNat_le]
  exact Nat.lt_succ_iff

/-- The filter of a strategy that looks at pull requests. -/
def filter? : BranchStrategy → Option HeadFilter
  | .nothing => none
  | .excludePullRequests => some .excludeOriginPullRequests
  | .onlyPullRequests => some .onlyOriginPullRequests
  | .everything => none

end BranchStrategy

/-- The context of some strategies. -/
def DiscoveryContext.ofStrategies (ss : List BranchStrategy) : DiscoveryContext where
  wantsBranches := ss.any (· ≠ .nothing)
  wantsOriginPullRequests := ss.any (·.filter?.isSome)
  wantsForkPullRequests := false
  wantsTags := false
  categories := if ss = [] then [] else [.uncategorized]
  authorities := ss.flatMap fun s => if s = .nothing then [] else [.branches]
  filters := ss.filterMap BranchStrategy.filter?

namespace TraitSpec

/-- The strategy of a configured trait, if it discovers branches. -/
def strategy? : TraitSpec → Option BranchStrategy
  | .branchDiscovery n => BranchStrategy.ofId? n
  | .sshCheckout _ => none

/-- The strategies among configured traits. -/
def strategies (specs : List TraitSpec) : List BranchStrategy := specs.filterMap strategy?

/-- The number of the strategy that is configured, if it is one of branches. -/
def strategyId? : TraitSpec → Option UInt8
  | .branchDiscovery n => some n
  | .sshCheckout _ => none

/-- The numbers of the strategies among configured traits. -/
def strategyIds (specs : List TraitSpec) : List UInt8 := specs.filterMap strategyId?

variable {specs : List TraitSpec} {traits : List Trait}

theorem strategies_cons_branchDiscovery (s : BranchStrategy) (specs : List TraitSpec) :
    strategies (.branchDiscovery s.id :: specs) = s :: strategies specs :=
  List.filterMap_cons_some (BranchStrategy.ofId?_id s)

theorem strategies_cons_sshCheckout (c : Option String) (specs : List TraitSpec) :
    strategies (.sshCheckout c :: specs) = strategies specs := rfl

theorem strategyIds_cons (spec : TraitSpec) (specs : List TraitSpec) :
    strategyIds (spec :: specs) = spec.strategyId?.toList ++ strategyIds specs := by
  rw [strategyIds, List.filterMap_cons]
  cases spec.strategyId? <;> rfl

theorem toTraits_cons_eq_ok_iff {spec : TraitSpec} :
    toTraits (spec :: specs) = .ok traits ↔
      ∃ t ts, spec.toTrait = .ok t ∧ toTraits specs = .ok ts ∧ traits = t :: ts := by
  rw [toTraits, toTraits, List.mapM_cons]
  cases spec.toTrait with
  | error e => exact ⟨nofun, nofun⟩
  | ok t =>
    cases specs.mapM toTrait with
    | error e => exact ⟨nofun, nofun⟩
    | ok ts =>
      constructor
      · rintro ⟨⟩
        exact ⟨t, ts, rfl, rfl, rfl⟩
      · rintro ⟨_, _, ⟨⟩, ⟨⟩, rfl⟩
        rfl

/-- A configured trait discovers branches by its strategy, or checks out. -/
theorem toTrait_eq_ok {spec : TraitSpec} {t : Trait} (h : spec.toTrait = .ok t) :
    (∃ s, spec = .branchDiscovery s.id ∧ t = .branchDiscovery s) ∨
      ∃ c, spec = .sshCheckout c ∧ t = .sshCheckout c := by
  cases spec with
  | branchDiscovery n =>
    rw [toTrait] at h
    cases hs : BranchStrategy.ofId? n with
    | none =>
      rw [hs] at h
      cases h
    | some s =>
      rw [hs] at h
      cases h
      rw [← BranchStrategy.ofId?_eq_some_iff.mp hs]
      exact Or.inl ⟨s, rfl, rfl⟩
  | sshCheckout c =>
    cases h
    exact Or.inr ⟨c, rfl, rfl⟩

theorem exists_toTrait_iff {spec : TraitSpec} :
    (∃ t, spec.toTrait = .ok t) ↔ ∀ n ∈ spec.strategyId?, n ≤ 3 := by
  constructor
  · rintro ⟨t, ht⟩ n hn
    obtain ⟨s, rfl, -⟩ | ⟨c, rfl, -⟩ := toTrait_eq_ok ht
    · cases hn
      exact BranchStrategy.exists_id_eq_iff.mp ⟨s, rfl⟩
    · cases hn
  · intro h
    cases spec with
    | branchDiscovery n =>
      obtain ⟨s, rfl⟩ := BranchStrategy.exists_id_eq_iff.mpr (h n rfl)
      rw [toTrait, BranchStrategy.ofId?_id]
      exact ⟨_, rfl⟩
    | sshCheckout c => exact ⟨_, rfl⟩

/-- Configured traits can be put together exactly if all strategies have numbers up to three. -/
theorem exists_toTraits_iff :
    (∃ traits, toTraits specs = .ok traits) ↔ ∀ n ∈ strategyIds specs, n ≤ 3 := by
  induction specs with
  | nil => exact ⟨fun _ => nofun, fun _ => ⟨[], rfl⟩⟩
  | cons spec specs ih =>
    rw [strategyIds_cons, List.forall_mem_append, ← ih]
    simp only [Option.mem_toList, ← Option.mem_def, ← exists_toTrait_iff,
      toTraits_cons_eq_ok_iff]
    constructor
    · rintro ⟨_, t, ts, ht, hts, rfl⟩
      exact ⟨⟨t, ht⟩, ts, hts⟩
    · rintro ⟨⟨t, ht⟩, ts, hts⟩
      exact ⟨t :: ts, t, ts, ht, hts, rfl⟩

/-- Once traits are put together, each number is that of its strategy. -/
theorem strategyIds_eq (h : toTraits specs = .ok traits) :
    strategyIds specs = (strategies specs).map BranchStrategy.id := by
  induction specs generalizing traits with
  | nil => rfl
  | cons spec specs ih =>
    obtain ⟨t, ts, ht, hts, -⟩ := toTraits_cons_eq_ok_iff.mp h
    rw [strategyIds_cons, ih hts]
    obtain ⟨s, rfl, -⟩ | ⟨c, rfl, -⟩ := toTrait_eq_ok ht
    · rw [strategies_cons_branchDiscovery]
      rfl
    · rfl

/-- What no checkout brings along comes from the strategies. -/
theorem flatMap_toTraits {β : Type} (f : Trait → List β) (hf : ∀ c, f (.sshCheckout c) = [])
    (h : toTraits specs = .ok traits) :
    traits.flatMap f = (strategies specs).flatMap fun s => f (.branchDiscovery s) := by
  induction specs generalizing traits with
  | nil =>
    cases h
    rfl
  | cons spec specs ih =>
    obtain ⟨t, ts, ht, hts, rfl⟩ := toTraits_cons_eq_ok_iff.mp h
    rw [List.flatMap_cons, ih hts]
    obtain ⟨s, rfl, rfl⟩ | ⟨c, rfl, rfl⟩ := toTrait_eq_ok ht
    · rw [strategies_cons_branchDiscovery, List.flatMap_cons]
    · rw [strategies_cons_sshCheckout, hf, List.nil_append]

theorem any_toTraits (p : Trait → Bool) (hp : ∀ c, p (.sshCheckout c) = false)
    (h : toTraits specs = .ok traits) :
    traits.any p = (strategies specs).any fun s => p (.branchDiscovery s) := by
  induction specs generalizing traits with
  | nil =>
    cases h
    rfl
  | cons spec specs ih =>
    obtain ⟨t, ts, ht, hts, rfl⟩ := toTraits_cons_eq_ok_iff.mp h
    rw [List.any_cons, ih hts]
    obtain ⟨s, rfl, rfl⟩ | ⟨c, rfl, rfl⟩ := toTrait_eq_ok ht
    · rw [strategies_cons_branchDiscovery, List.any_cons]
    · rw [strategies_cons_sshCheckout, hp, Bool.false_or]

/-- Only the strategies count for the context of configured traits. -/
theorem ofTraits_eq_ofStrategies (h : toTraits specs = .ok traits) :
    DiscoveryContext.ofTraits traits = .ofStrategies (strategies specs) := by
  have hwants : ∀ s : BranchStrategy,
      s.decorations.any (·.wantsBranches) = decide (s ≠ .nothing) := by
    intro s
    cases s <;> rfl
  have horigin : ∀ s : BranchStrategy,
      s.decorations.any (·.wantsOriginPullRequests) = s.filter?.isSome := by
    intro s
    cases s <;> rfl
  have hfork : ∀ s : BranchStrategy, s.decorations.any (·.wantsForkPullRequests) = false := by
    intro s
    cases s <;> rfl
  have htags : ∀ s : BranchStrategy, s.decorations.any (·.wantsTags) = false := by
    intro s
    cases s <;> rfl
  have hauthorities : ∀ s : BranchStrategy, s.decorations.filterMap (·.authority?) =
      if s = .nothing then [] else [.branches] := by
    intro s
    cases s <;> rfl
  have hfilters : ∀ s : BranchStrategy,
      s.decorations.filterMap (·.filter?) = s.filter?.toList := by
    intro s
    cases s <;> rfl
  have hcategories : (HeadCategory.all.filter fun c => traits.any (·.includes c)) =
      if strategies specs = [] then [] else [.uncategorized] := by
    simp only [any_toTraits (fun t => t.includes _) (fun _ => rfl) h]
    cases strategies specs with
    | nil => rfl
    | cons s ss => simp [HeadCategory.all, Trait.branchDiscovery]
  rw [DiscoveryContext.ofTraits_eq, hcategories, any_toTraits _ (fun _ => rfl) h,
    any_toTraits _ (fun _ => rfl) h, any_toTraits _ (fun _ => rfl) h,
    any_toTraits _ (fun _ => rfl) h, flatMap_toTraits _ (fun _ => rfl) h,
    flatMap_toTraits _ (fun _ => rfl) h]
  simp only [Trait.branchDiscovery, hwants, horigin, hfork, htags, hauthorities, hfilters,
    DiscoveryContext.ofStrategies, List.filterMap_eq_flatMap_toList]
  simp

end TraitSpec

end HeadScout
