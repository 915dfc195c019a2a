import HeadScout.Discovery.Filter

/-!
# What the branch filters decide

Where the pull requests are known, the two filters of branches are each other's opposite: one leaves
a branch out if some pull request comes from a ref of its name in the repository itself, the other
if none does. The ref may be a branch or a tag. A pull request from a tag thus counts for the branch
of the same name, and that is the only way in which the filters can be wrong about a branch.

## Main definitions

* `PullRequest.ComesFrom` — the pull request comes from a ref of this name
* `PullRequest.ComesFromBranch` — the ref is a branch

## Main results

* `HeadFilter.excludes_branch_iff` — what the filters leave out, and when they decide by the branch
-/

namespace HeadScout

/-- The pull request comes from a branch or tag of this name in the repository; its full name may be
written in any case of letters. -/
def PullRequest.ComesFrom (p : PullRequest) (r : Repository) (name : RefName) : Prop :=
  Text.lower p.source.repository.fullName = Text.lower r.fullName ∧ p.source.branch = name

/-- The pull request comes from the branch of this name in the repository. -/
def PullRequest.ComesFromBranch (p : PullRequest) (r : Repository) (name : RefName) : Prop :=
  p.ComesFrom r name ∧ p.source.branchKind = .branch

instance (p : PullRequest) (r : Repository) (name : RefName) : Decidable (p.ComesFrom r name) :=
  inferInstanceAs (Decidable (_ ∧ _))

variable (r : Repository) (prs : List PullRequest) (b : RefName)

theorem isOriginOfPullRequest?_some :
    SourceView.isOriginOfPullRequest? ⟨r, some prs⟩ b =
      some (decide (∃ p ∈ prs, p.ComesFrom r b)) := by
  rw [SourceView.isOriginOfPullRequest?, Option.map_some, Option.some_inj, Bool.eq_iff_iff,
    decide_eq_true_iff, List.any_eq_true]
  refine exists_congr fun p => and_congr_right fun _ => ?_
  rw [Bool.and_eq_true, Repository.matchesFullName, Text.sameLetters_iff, beq_iff_eq]
  rfl

namespace HeadFilter

theorem value_byPullRequest_branch (name : String) (excluded : Bool → Bool) :
    ((byPullRequest name excluded).excludes ⟨r, some prs⟩ (.branch b)).value =
      excluded (decide (∃ p ∈ prs, p.ComesFrom r b)) := by
  simp only [byPullRequest, isOriginOfPullRequest?_some]
  rfl

/-- Where the pull requests are not known, no branch is left out. -/
theorem value_byPullRequest_unknown (name : String) (excluded : Bool → Bool) (h : Head) :
    ((byPullRequest name excluded).excludes ⟨r, none⟩ h).value = false := by
  cases h <;> rfl

/-- One filter leaves out the branches that a pull request comes from by name, the other one all
others. Both decide by the branch itself exactly if no tag of its name is the only one that a pull
request comes from. -/
theorem excludes_branch_iff :
    ((excludeOriginPullRequests.excludes ⟨r, some prs⟩ (.branch b)).value = true ↔
        ∃ p ∈ prs, p.ComesFrom r b) ∧
      ((onlyOriginPullRequests.excludes ⟨r, some prs⟩ (.branch b)).value = true ↔
        ¬ ∃ p ∈ prs, p.ComesFrom r b) ∧
      (((excludeOriginPullRequests.excludes ⟨r, some prs⟩ (.branch b)).value = true ↔
          ∃ p ∈ prs, p.ComesFromBranch r b) ∧
        ((onlyOriginPullRequests.excludes ⟨r, some prs⟩ (.branch b)).value = true ↔
          ¬ ∃ p ∈ prs, p.ComesFromBranch r b) ↔
        ((∃ p ∈ prs, p.ComesFrom r b) → ∃ p ∈ prs, p.ComesFromBranch r b)) := by
  have hexclude : (excludeOriginPullRequests.excludes ⟨r, some prs⟩ (.branch b)).value = true ↔
      ∃ p ∈ prs, p.ComesFrom r b := by
    rw [excludeOriginPullRequests, value_byPullRequest_branch, id, decide_eq_true_iff]
  have honly : (onlyOriginPullRequests.excludes ⟨r, some prs⟩ (.branch b)).value = true ↔
      ¬ ∃ p ∈ prs, p.ComesFrom r b := by
    rw [onlyOriginPullRequests, value_byPullRequest_branch, Bool.not_eq_true',
      decide_eq_false_iff_not]
  have hbranch : (∃ p ∈ prs, p.ComesFromBranch r b) → ∃ p ∈ prs, p.ComesFrom r b := by
    rintro ⟨p, hp, hfrom, -⟩
    exact ⟨p, hp, hfrom⟩
  refine ⟨hexclude, honly, ?_⟩
  -- One direction of either equivalence always holds, so only the other one is left to ask for.
  rw [hexclude, honly]
  constructor
  · rintro ⟨h, -⟩
    exact h.mp
  · intro h
    exact ⟨⟨h, hbranch⟩, not_congr ⟨h, hbranch⟩⟩

/-- A pull request from a tag. -/
def tagPullRequest : PullRequest where
  id := ⟨1⟩
  title := "Release"
  source := ⟨⟨⟨"team"⟩, ⟨"widget"⟩, []⟩, ⟨"v1"⟩, .tag, none⟩
  destination := ⟨"main"⟩

/-- A pull request from a tag hides the branch of the same name. -/
theorem not_forall_excludes_branch_iff :
    ¬ ∀ (r : Repository) (prs : List PullRequest) (b : RefName),
      ((excludeOriginPullRequests.excludes ⟨r, some prs⟩ (.branch b)).value = true ↔
          ∃ p ∈ prs, p.ComesFromBranch r b) ∧
        ((onlyOriginPullRequests.excludes ⟨r, some prs⟩ (.branch b)).value = true ↔
          ¬ ∃ p ∈ prs, p.ComesFromBranch r b) := by
  intro h
  have hexcluded : (excludeOriginPullRequests.excludes
      ⟨tagPullRequest.source.repository, some [tagPullRequest]⟩ (.branch ⟨"v1"⟩)).value = true := by
    rw [excludeOriginPullRequests, value_byPullRequest_branch]
    exact decide_eq_true ⟨tagPullRequest, List.mem_singleton_self _, rfl, rfl⟩
  obtain ⟨p, hp, -, hkind⟩ := (h _ _ _).1.mp hexcluded
  rw [List.mem_singleton.mp hp] at hkind
  cases hkind

end HeadFilter

end HeadScout
