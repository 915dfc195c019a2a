import HeadScout.Proofs.Discovery.Soundness

/-!
# One notion of the same repository

Whether two repositories are the same is asked in several ways: their owners and names are compared,
or a full name with another one, and the filters of branches ask differently than a scan that tells
pull requests of the repository from those of forks. For repositories that were read from full names
all of these come to the same: the full names are equal up to the case of letters.

## Main definitions

* `Repository.IsReadFrom` — the repository was read from a full name

## Main results

* `Repository.IsReadFrom.isSameAs_iff` — repositories are the same if their full names are
* `Repository.equivalence_isSameAs` — being the same is an equivalence
* `Repository.identities_agree` — all comparisons agree
-/

namespace HeadScout

namespace Repository

variable {r r' : Repository} {s s' : String}

/-- The repository was read from the full name, which stood alone or in a body of Cloud. -/
def IsReadFrom (r : Repository) (s : String) : Prop :=
  ofFullName? s = some r ∨
    ∃ (document : String) (body : Payload.CloudRepository), body.fullName = s ∧
      body.toRepository document = .ok r

namespace IsReadFrom

/-- Whoever reads a full name, the repository has the owner and the name in it. -/
theorem exists_known (h : r.IsReadFrom s) :
    ∃ known, ofFullName? s = some known ∧ r.owner = known.owner ∧ r.name = known.name := by
  rcases h with h | ⟨document, body, rfl, hbody⟩
  · exact ⟨r, h, rfl, rfl⟩
  · obtain ⟨known, hknown, howner, hname, -⟩ :=
      Payload.CloudRepository.toRepository_eq_ok_iff.mp hbody
    exact ⟨known, hknown, howner, hname⟩

theorem fullName_eq (h : r.IsReadFrom s) : r.fullName = s := by
  obtain ⟨known, hknown, howner, hname⟩ := h.exists_known
  rw [fullName, howner, hname]
  exact fullName_of_ofFullName? hknown

theorem isQualified (h : r.IsReadFrom s) : r.IsQualified := by
  rcases h with h | ⟨document, body, -, hbody⟩
  · exact Or.inl ⟨s, h⟩
  · exact Or.inr ⟨document, body, hbody⟩

theorem matchesFullName_eq (h : r.IsReadFrom s) (t : String) :
    r.matchesFullName t = Text.sameLetters s t := by
  rw [matchesFullName, h.fullName_eq]

/-- Owners and names can be compared one by one or joined, because no owner holds a slash. -/
theorem isSameAs_iff (h : r.IsReadFrom s) (h' : r'.IsReadFrom s') :
    r.isSameAs r' = true ↔ Text.sameLetters s s' = true := by
  rw [← h.isQualified.matchesFullName_iff h'.isQualified, h.matchesFullName_eq, h'.fullName_eq]

end IsReadFrom

theorem equivalence_isSameAs : Equivalence fun a b : Repository => a.isSameAs b = true where
  refl a := Repository.isSameAs_iff.mpr ⟨rfl, rfl⟩
  symm {a b} h := by
    rw [isSameAs_comm]
    exact h
  trans {a b c} h h' := by
    rw [Repository.isSameAs_iff] at h h' ⊢
    exact ⟨h.1.trans h'.1, h.2.trans h'.2⟩

end Repository

/-! ### Pull requests -/

theorem SourceRequest.originOf_eq_own_iff (request : SourceRequest) (p : PullRequest) :
    request.originOf (.pullRequest (.ofPullRequest p)) = .own ↔
      request.view.repository.isSameAs p.source.repository = true := by
  rw [Scan.originOf_ofPullRequest]
  split_ifs with hsame
  · exact iff_of_true rfl hsame
  · exact iff_of_false nofun hsame

/-- The filters count a pull request for the repository exactly if the scan does. -/
theorem PullRequest.comesFrom_iff_originOf (request : SourceRequest) {p : PullRequest} {b : RefName}
    (hp : p.source.repository.IsQualified) (hr : request.view.repository.IsQualified) :
    p.ComesFrom request.view.repository b ↔
      request.originOf (.pullRequest (.ofPullRequest p)) = .own ∧ p.source.branch = b := by
  rw [PullRequest.comesFrom_iff hp hr, request.originOf_eq_own_iff]

/-- Both filters of branches decide by the pull requests that a scan counts for the repository. -/
theorem HeadFilter.excludes_branch_iff_originOf (context : DiscoveryContext) {r : Repository}
    {prs : List PullRequest} (b : RefName) (hr : r.IsQualified)
    (hprs : ∀ p ∈ prs, p.source.repository.IsQualified) :
    ((excludeOriginPullRequests.excludes ⟨r, some prs⟩ (.branch b)).value = true ↔
        ∃ p ∈ prs, SourceRequest.originOf ⟨context, r, some prs⟩ (.pullRequest (.ofPullRequest p)) =
          .own ∧ p.source.branch = b) ∧
      ((onlyOriginPullRequests.excludes ⟨r, some prs⟩ (.branch b)).value = true ↔
        ¬ ∃ p ∈ prs,
          SourceRequest.originOf ⟨context, r, some prs⟩ (.pullRequest (.ofPullRequest p)) = .own ∧
            p.source.branch = b) := by
  have hcounts : (∃ p ∈ prs, p.ComesFrom r b) ↔ ∃ p ∈ prs,
      SourceRequest.originOf ⟨context, r, some prs⟩ (.pullRequest (.ofPullRequest p)) = .own ∧
        p.source.branch = b := by
    refine exists_congr fun p => and_congr_right fun hp => ?_
    exact PullRequest.comesFrom_iff_originOf ⟨context, r, some prs⟩ (hprs p hp) hr
  obtain ⟨hexclude, honly, -⟩ := excludes_branch_iff r prs b
  rw [← hcounts]
  exact ⟨hexclude, honly⟩

namespace Repository

/-- What is the same repository. A full name is an owner without slashes and a name, with a slash
between them, and it is given back as it was. Cloud describes repositories by the very same full
names. Two repositories that were read from full names are the same exactly if these are equal up to
the case of letters, whichever of them is compared with the other, whether by parts or by full
names, or because one is scanned and a pull request comes from the other; so being the same is an
equivalence, and the filters of branches decide by the pull requests that a scan counts for the
repository itself. -/
theorem identities_agree :
    (∀ s r, ofFullName? s = some r ↔
      ∃ owner name, owner ≠ "" ∧ '/' ∉ owner.toList ∧ name ≠ "" ∧ s = owner ++ "/" ++ name ∧
        r = ⟨⟨owner⟩, ⟨name⟩, []⟩) ∧
    (∀ s r, ofFullName? s = some r → r.fullName = s) ∧
    (∀ (document : String) (body : Payload.CloudRepository) r, body.toRepository document = .ok r ↔
      ∃ known, ofFullName? body.fullName = some known ∧ r.owner = known.owner ∧
        r.name = known.name ∧
        r.cloneLinks = body.links.filterMap Payload.NamedLink.toCloneLink?) ∧
    (∀ a b A B, A.IsReadFrom a → B.IsReadFrom b →
      (A.isSameAs B = true ↔ Text.sameLetters a b = true) ∧
      (B.isSameAs A = true ↔ Text.sameLetters a b = true) ∧
      (A.matchesFullName b = true ↔ Text.sameLetters a b = true) ∧
      ∀ (context : DiscoveryContext) (prs : Option (List PullRequest)) (p : PullRequest),
        p.source.repository = A →
        (SourceRequest.originOf ⟨context, B, prs⟩ (.pullRequest (.ofPullRequest p)) = .own ↔
          Text.sameLetters a b = true)) ∧
    (Equivalence fun A B : Repository => A.isSameAs B = true) ∧
    ∀ (context : DiscoveryContext) (b : String) (B : Repository) (prs : List PullRequest)
      (branch : RefName), B.IsReadFrom b → (∀ p ∈ prs, ∃ a, p.source.repository.IsReadFrom a) →
      ((HeadFilter.excludeOriginPullRequests.excludes ⟨B, some prs⟩ (.branch branch)).value = true ↔
        ∃ p ∈ prs, SourceRequest.originOf ⟨context, B, some prs⟩ (.pullRequest (.ofPullRequest p)) =
          .own ∧ p.source.branch = branch) ∧
      ((HeadFilter.onlyOriginPullRequests.excludes ⟨B, some prs⟩ (.branch branch)).value = true ↔
        ¬ ∃ p ∈ prs,
          SourceRequest.originOf ⟨context, B, some prs⟩ (.pullRequest (.ofPullRequest p)) = .own ∧
            p.source.branch = branch) := by
  refine ⟨fun _ _ => ofFullName?_eq_some_iff, fun _ _ => fullName_of_ofFullName?,
    fun _ _ _ => Payload.CloudRepository.toRepository_eq_ok_iff, ?_, equivalence_isSameAs, ?_⟩
  · intro a b A B hA hB
    have hsame := hA.isSameAs_iff hB
    have hsame' : B.isSameAs A = true ↔ Text.sameLetters a b = true := by
      rw [isSameAs_comm]
      exact hsame
    refine ⟨hsame, hsame', by rw [hA.matchesFullName_eq], ?_⟩
    rintro context prs p rfl
    rw [SourceRequest.originOf_eq_own_iff]
    exact hsame'
  · intro context b B prs branch hB hprs
    apply HeadFilter.excludes_branch_iff_originOf context branch hB.isQualified
    intro p hp
    obtain ⟨a, ha⟩ := hprs p hp
    exact ha.isQualified

/-- A name may hold slashes, and the case of letters does not count. -/
theorem identities_agree_nestedName :
    isSameAs ⟨⟨"Team"⟩, ⟨"wid/Get"⟩, []⟩ ⟨⟨"team"⟩, ⟨"WID/get"⟩, []⟩ = true ∧
      matchesFullName ⟨⟨"Team"⟩, ⟨"wid/Get"⟩, []⟩ "team/WID/get" = true := by
  obtain ⟨hread, -, -, hsame, -⟩ := identities_agree
  have hA : ofFullName? "Team/wid/Get" = some ⟨⟨"Team"⟩, ⟨"wid/Get"⟩, []⟩ :=
    (hread _ _).mpr ⟨"Team", "wid/Get", by decide, by decide, by decide, rfl, rfl⟩
  have hB : ofFullName? "team/WID/get" = some ⟨⟨"team"⟩, ⟨"WID/get"⟩, []⟩ :=
    (hread _ _).mpr ⟨"team", "WID/get", by decide, by decide, by decide, rfl, rfl⟩
  have hletters : Text.sameLetters "Team/wid/Get" "team/WID/get" = true :=
    Text.sameLetters_iff_toList.mpr (by decide +kernel)
  obtain ⟨hparts, -, hfull, -⟩ := hsame _ _ _ _ (Or.inl hA) (Or.inl hB)
  exact ⟨hparts.mpr hletters, hfull.mpr hletters⟩

end Repository

end HeadScout
