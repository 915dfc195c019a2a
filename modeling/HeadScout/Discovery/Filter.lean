import HeadScout.Discovery.Context
import HeadScout.Text.Quoted

/-!
# Filters and authorities

Branches can be left out by whether a pull request comes from them. A pull request comes from a
branch of the repository itself if it names the same repository, in any case of letters, and a ref
of the branch's name. Where the pull requests are not known, every branch is kept.

Branches are trusted: only those who may write to the repository can push them.

## Main definitions

* `SourceView.isOriginOfPullRequest?` — whether a pull request comes from a branch
* `HeadFilter.excludeOriginPullRequests`, `HeadFilter.onlyOriginPullRequests`
* `HeadFilter.nameBeginning` — leaves out heads by the beginning of their name
* `HeadAuthority.branches` — trusts branches
-/

namespace HeadScout

/-- Whether some open pull request comes from the ref of this name in the repository itself; not
known if the pull requests are not. -/
def SourceView.isOriginOfPullRequest? (v : SourceView) (branch : RefName) : Option Bool :=
  v.pullRequests.map fun prs => prs.any fun p =>
    p.source.repository.matchesFullName v.repository.fullName && p.source.branch == branch

namespace HeadFilter

/-- A filter of branches by whether a pull request comes from them. It keeps every branch, and says
so, where this is not known. -/
def byPullRequest (name : String) (excluded : Bool → Bool) : HeadFilter where
  name := name
  excludes view
    | .branch branch =>
      match view.isOriginOfPullRequest? branch with
      | some found => pure (excluded found)
      | none => ⟨false, [.branchKeptUnfiltered]⟩
    | .tag _ | .pullRequest _ => pure false

/-- Leaves out branches that a pull request comes from. -/
def excludeOriginPullRequests : HeadFilter := byPullRequest "ExcludeOriginPrBranchesFilter" id

/-- Leaves out branches that no pull request comes from. -/
def onlyOriginPullRequests : HeadFilter := byPullRequest "OnlyOriginPrBranchesFilter" not

/-- Leaves out heads of any kind whose name begins with the given text. -/
def nameBeginning (beginning : String) : HeadFilter where
  name := "NamePrefix(" ++ Text.quote beginning ++ ")"
  excludes _ head := pure (Text.hasPrefix beginning head.name)

end HeadFilter

/-- Trusts every branch. -/
def HeadAuthority.branches : HeadAuthority where
  name := "BranchHeadAuthority"
  trusts
    | _, .branch _ => true
    | _, .tag _ | _, .pullRequest _ => false

end HeadScout
