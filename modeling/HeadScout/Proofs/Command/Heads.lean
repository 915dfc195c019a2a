import HeadScout.Proofs.Command.Lines
import HeadScout.Proofs.Discovery.Checkout
import HeadScout.Proofs.Discovery.Soundness
import HeadScout.Proofs.Navigator
import HeadScout.Proofs.WellFormed

/-!
# How a search for heads ends

A search for heads goes through its arguments, the repositories of the owner, a scan and, if asked
for, a checkout. The first of them that fails ends it. Nothing is printed before the scan is over,
so a search that fails prints nothing, unless it is the checkout that fails: then the heads are
printed already.

## Main definitions

* `ArgumentFault` — what is wrong with arguments
* `Invocation.Scans` — the repository that is scanned, and its traits
* `Invocation.SearchFault` — what makes a search fail

## Main results

* `Invocation.heads_ends` — when a search fails, and what it prints
-/

namespace HeadScout

open Json (OnOneLine)
open TraitSpec (strategyIds lastSsh?)

/-! ### Arguments -/

/-- What is wrong with the arguments of a search for heads. -/
inductive ArgumentFault (file : String → Option String) (owner : String) (choice : TraitChoice) :
    Prop where
  | noOwner (h : owner = "")
  | unreadable (path : String) (hchoice : choice = .file path) (h : file path = none)
  | undecodable (path text : String) (hchoice : choice = .file path) (hfile : file path = some text)
      (h : (Json.parse? text).bind TraitSpec.listOfJson? = none)
  | noTraits (path text : String) (hchoice : choice = .file path) (hfile : file path = some text)
      (h : (Json.parse? text).bind TraitSpec.listOfJson? = some [])
  | noStrategy (specs : List TraitSpec) (n : UInt8) (hspecs : choice.specs file = .ok specs)
      (hn : n ∈ strategyIds specs) (h : 3 < n)

section Arguments

variable {file : String → Option String} {owner : String} {choice : TraitChoice}
  {specs : List TraitSpec} {traits : List Trait}

theorem ownerOf_of_ne (h : owner ≠ "") : ownerOf owner = .ok ⟨owner⟩ := by
  rw [ownerOf, Identifier.ofText?, if_neg h]

/-- The traits of a file cannot be used exactly if it cannot be read, cannot be decoded or lists
none. -/
theorem exists_traitsOfFile_eq_error_iff {path : String} :
    (∃ report, traitsOfFile file path = .error report) ↔
      file path = none ∨ ∃ text, file path = some text ∧
        ((Json.parse? text).bind TraitSpec.listOfJson? = none ∨
          (Json.parse? text).bind TraitSpec.listOfJson? = some []) := by
  rw [traitsOfFile]
  cases file path with
  | none => simp
  | some text =>
    simp only [Option.some.injEq, exists_eq_left', reduceCtorEq, false_or]
    cases (Json.parse? text).bind TraitSpec.listOfJson? with
    | none => simp
    | some specs => cases specs <;> simp

namespace TraitChoice

theorem traits_of_specs (hspecs : choice.specs file = .ok specs) :
    choice.traits file = (TraitSpec.toTraits specs).mapError DiscoveryError.message := by
  rw [traits, hspecs]
  rfl

theorem traits_of_error {report : String} (hspecs : choice.specs file = .error report) :
    choice.traits file = .error report := by
  rw [traits, hspecs]
  rfl

end TraitChoice

/-- A fault of a file of traits is reported before the traits are put together. -/
theorem exists_traits_eq_error_of_file {path : String} (hchoice : choice = .file path)
    (h : file path = none ∨ ∃ text, file path = some text ∧
      ((Json.parse? text).bind TraitSpec.listOfJson? = none ∨
        (Json.parse? text).bind TraitSpec.listOfJson? = some [])) :
    ∃ report, choice.traits file = .error report := by
  subst hchoice
  obtain ⟨report, hreport⟩ := exists_traitsOfFile_eq_error_iff.mpr h
  exact ⟨report, TraitChoice.traits_of_error hreport⟩

/-- The arguments have a fault exactly if there is no owner or the traits cannot be put together. -/
theorem argumentFault_iff :
    ArgumentFault file owner choice ↔
      owner = "" ∨ ∃ report, choice.traits file = .error report := by
  constructor
  · intro h
    cases h with
    | noOwner h => exact .inl h
    | unreadable path hchoice h => exact .inr (exists_traits_eq_error_of_file hchoice (.inl h))
    | undecodable path text hchoice hfile h =>
      exact .inr (exists_traits_eq_error_of_file hchoice (.inr ⟨text, hfile, .inl h⟩))
    | noTraits path text hchoice hfile h =>
      exact .inr (exists_traits_eq_error_of_file hchoice (.inr ⟨text, hfile, .inr h⟩))
    | noStrategy specs n hspecs hn h =>
      rw [TraitChoice.traits_of_specs hspecs]
      cases htraits : TraitSpec.toTraits specs with
      | error e => exact .inr ⟨_, rfl⟩
      | ok traits =>
        exact absurd (TraitSpec.exists_toTraits_iff.mp ⟨traits, htraits⟩ n hn) (UInt8.not_le.mpr h)
  · rintro (howner | ⟨report, htraits⟩)
    · exact .noOwner howner
    · cases hspecs : choice.specs file with
      | ok specs =>
        -- Specs are turned into traits unless one of them names no strategy.
        by_contra hfault
        obtain ⟨traits, hok⟩ := TraitSpec.exists_toTraits_iff.mpr fun n hn =>
          UInt8.not_lt.mp fun h => hfault (.noStrategy specs n hspecs hn h)
        rw [TraitChoice.traits_of_specs hspecs, hok] at htraits
        cases htraits
      | error report =>
        cases choice with
        | inline strategyId ssh => cases hspecs
        | file path =>
          rcases exists_traitsOfFile_eq_error_iff.mp ⟨report, hspecs⟩ with h | ⟨text, hfile, h | h⟩
          · exact .unreadable path rfl h
          · exact .undecodable path text rfl hfile h
          · exact .noTraits path text rfl hfile h

end Arguments

/-! ### The parts that fail -/

/-- Under configured traits a scan fails exactly if the branches cannot be listed and some strategy
wants them. -/
theorem Scan.exists_value_heads_eq_error_iff {specs : List TraitSpec} {traits : List Trait}
    (h : TraitSpec.toTraits specs = .ok traits) (api : Api) (r : Repository) :
    (∃ e, (heads api traits r).run.value = .error e) ↔
      (∃ n ∈ strategyIds specs, n ≠ 0) ∧
        ∃ e, (api.answer (.branches r.owner r.name)).run.value = .error e := by
  have hcontext := TraitSpec.ofTraits_eq_ofStrategies h
  have hbranches : (DiscoveryContext.ofTraits traits).needsBranches = true ↔
      ∃ n ∈ strategyIds specs, n ≠ 0 := by
    have hany := BranchStrategy.any_map_id_ne_zero (TraitSpec.strategies specs)
    rw [← TraitSpec.strategyIds_eq h] at hany
    rw [hcontext, DiscoveryContext.needsBranches, wantsBranches_ofStrategies, ← hany]
    simp
  have htags : (DiscoveryContext.ofTraits traits).needsTags = false := by
    rw [hcontext]
    rfl
  simp only [value_heads_eq_error_iff, listedBranches, listedTags, needed_eq_error_iff, htags,
    hbranches, Bool.false_eq_true, false_and, and_false, or_false, exists_and_left]

/-- Under configured traits a checkout fails exactly if the repository has no link for its
protocol. -/
theorem Trait.exists_resolveCheckout_eq_error_iff {specs : List TraitSpec} {traits : List Trait}
    (h : TraitSpec.toTraits specs = .ok traits) (r : Repository)
    (credentialsId : Option CredentialsId) :
    (∃ e, resolveCheckout traits r credentialsId = .error e) ↔
      ∀ l ∈ r.cloneLinks, l.protocol ≠ (lastSsh? specs).elim .http fun _ => .ssh := by
  have hchecksOut := checksOut_resolveCheckout traits r credentialsId
  simp only [hchecksOut.eq_error_iff, exists_eq_left, TraitSpec.lastCheckout?_eq h]
  cases lastSsh? specs <;> rfl

/-! ### The repository -/

/-- The instance that a connection leads to. -/
abbrev World.api (world : World) (connection : Connection) : Api :=
  connection.client.api world.network

/-- The repository is the last one of its name among those of the owner. -/
def Api.Finds (api : Api) (owner name : String) (r : Repository) : Prop :=
  ∃ rs, (api.answer (.repositories ⟨owner⟩)).run.value = .ok rs ∧
    Navigator.lastNamed name rs = some r

theorem Api.Finds.eq {api : Api} {owner name : String} {r r' : Repository}
    (h : api.Finds owner name r) (h' : api.Finds owner name r') : r = r' := by
  obtain ⟨rs, hlisted, hlast⟩ := h
  obtain ⟨rs', hlisted', hlast'⟩ := h'
  cases hlisted.symm.trans hlisted'
  exact Option.some.inj (hlast.symm.trans hlast')

variable {api : Api} {owner : OwnerName} {name : String}

section Visit

variable (n : Navigator)

theorem listings_listOwner :
    Step.listings (listOwner n api owner).run.steps = [.repositories owner] := by
  rw [listOwner, Traced.steps_run_bind, Traced.steps_run_liftM, Traced.value_run_liftM,
    Step.listings_append, n.listings_visit]
  dsimp only
  split <;> rfl

theorem value_listOwner_of_error {e : ApiError}
    (h : (api.answer (.repositories owner)).run.value = .error e) :
    (listOwner n api owner).run.value = .error ("listing repositories of " ++ owner.text) := by
  rw [listOwner, Traced.value_run_bind, Traced.value_run_liftM, n.value_visit_of_error h]
  rfl

theorem value_listOwner_of_ok {rs : List Repository}
    (h : (api.answer (.repositories owner)).run.value = .ok rs) :
    (listOwner n api owner).run.value = .ok (n.withRepositories rs) := by
  rw [listOwner, Traced.value_run_bind, Traced.value_run_liftM, n.value_visit_of_ok h]
  rfl

end Visit

/-- Looking for a repository asks for those of the owner, and for nothing else. -/
theorem listings_findRepository :
    Step.listings (findRepository api owner name).run.steps = [.repositories owner] := by
  rw [findRepository, Traced.steps_run_bind, Step.listings_append, listings_listOwner]
  cases (listOwner (.ofRegistered []) api owner).run.value with
  | error report => rfl
  | ok visited =>
    dsimp only
    split <;> rfl

theorem value_findRepository_of_error {e : ApiError}
    (h : (api.answer (.repositories owner)).run.value = .error e) :
    (findRepository api owner name).run.value =
      .error ("listing repositories of " ++ owner.text) := by
  rw [findRepository, Traced.value_run_bind, value_listOwner_of_error _ h]
  rfl

theorem value_findRepository_of_ok {rs : List Repository}
    (h : (api.answer (.repositories owner)).run.value = .ok rs) :
    (findRepository api owner name).run.value =
      match (if name = "" then none else Navigator.lastNamed name rs) with
      | some r => .ok r
      | none => .error ("repository " ++ owner.text ++ "/" ++ name ++ " not found") := by
  rw [findRepository, Traced.value_run_bind, value_listOwner_of_ok _ h,
    ← Navigator.repository?_withRepositories (.ofRegistered [])]
  change ((match Navigator.repository? _ name with
    | some r => pure r
    | none => throw _ : Work Repository)).run.value = _
  cases ((Navigator.ofRegistered []).withRepositories rs).repository? name <;> rfl

/-- No repository that a client lists is without a name. -/
theorem Client.lastNamed_empty {c : Client} {n : Network} {rs : List Repository}
    (h : ((c.api n).answer (.repositories owner)).run.value = .ok rs) :
    Navigator.lastNamed "" rs = none := by
  by_contra hfound
  obtain ⟨r, hr⟩ := Option.ne_none_iff_exists'.mp hfound
  have hmem : r ∈ rs := List.mem_of_mem_filter (List.mem_of_getLast? hr)
  have hnamed : r.IsNamed := c.yields_answer n (.repositories owner) rs h r hmem
  exact hnamed.isGiven_name (Navigator.name_of_lastNamed rs hr)

/-- Of the repositories that a client lists the last one of the name is found. -/
theorem value_findRepository_of_listed {c : Client} {n : Network} {rs : List Repository}
    (h : ((c.api n).answer (.repositories owner)).run.value = .ok rs) :
    (findRepository (c.api n) owner name).run.value =
      match Navigator.lastNamed name rs with
      | some r => .ok r
      | none => .error ("repository " ++ owner.text ++ "/" ++ name ++ " not found") := by
  rw [value_findRepository_of_ok h]
  split_ifs with hname
  · rw [hname, Client.lastNamed_empty h]
  · rfl

section Adapt

variable {α : Type} (x : Attempt α) (f : ApiError → String)

theorem run_adapt : (x.adapt f : Work α).run = ⟨x.run.value.mapError f, x.run.steps⟩ :=
  Traced.ext rfl (List.append_nil _)

theorem value_adapt_of_ok {a : α} (h : x.run.value = .ok a) :
    (x.adapt f : Work α).run.value = .ok a := by
  rw [run_adapt, h]
  rfl

theorem value_adapt_of_error {e : ApiError} (h : x.run.value = .error e) :
    (x.adapt f : Work α).run.value = .error (f e) := by
  rw [run_adapt, h]
  rfl

end Adapt

namespace Invocation

variable {world : World} {connection : Connection} {owner name : String} {checkout : Bool}
  {choice : TraitChoice} {specs : List TraitSpec} {traits : List Trait} {r : Repository}

theorem run_heads :
    run world ⟨connection, .heads owner name checkout choice⟩ =
      Work.outcome (listHeads world connection owner name checkout choice) := rfl

/-- A fault of the arguments ends a search before anything has happened. -/
theorem run_heads_of_fault (h : ArgumentFault world.file owner choice) :
    ∃ report, run world ⟨connection, .heads owner name checkout choice⟩ =
      ⟨[], some report, []⟩ := by
  rw [run_heads, Work.outcome, listHeads]
  cases howner : ownerOf owner with
  | error report =>
    refine ⟨report, ?_⟩
    rw [Traced.run_bind_of_error rfl]
    rfl
  | ok o =>
    rw [Traced.run_bind_of_ok rfl]
    obtain ⟨report, htraits⟩ : ∃ report, choice.traits world.file = .error report := by
      refine (argumentFault_iff.mp h).resolve_left ?_
      rintro rfl
      cases howner
    refine ⟨report, ?_⟩
    rw [htraits, Traced.run_bind_of_error rfl]
    rfl

/-- A search ends where there is no repository of the name. -/
theorem run_heads_of_missing {report : String} (howner : owner ≠ "")
    (htraits : choice.traits world.file = .ok traits)
    (h : (findRepository (world.api connection) ⟨owner⟩ name).run.value = .error report) :
    run world ⟨connection, .heads owner name checkout choice⟩ =
      ⟨[], some report,
        (findRepository (world.api connection) ⟨owner⟩ name).run.steps⟩ := by
  rw [run_heads, Work.outcome, listHeads, ownerOf_of_ne howner, htraits, Traced.run_bind_of_ok rfl,
    Traced.run_bind_of_ok rfl, Traced.run_bind_of_error h]
  rfl

/-- Once the repository is found, the scan decides, and then the checkout if it is asked for. -/
theorem run_heads_of_found (howner : owner ≠ "") (htraits : choice.traits world.file = .ok traits)
    (h : (findRepository (world.api connection) ⟨owner⟩ name).run.value = .ok r) :
    let api := world.api connection
    let steps := (findRepository api ⟨owner⟩ name).run.steps ++ (Scan.heads api traits r).run.steps
    run world ⟨connection, .heads owner name checkout choice⟩ =
      match (Scan.heads api traits r).run.value with
      | .error e => ⟨[], some e.message, steps⟩
      | .ok ds =>
        if checkout then
          match Trait.resolveCheckout traits r connection.checkoutCredentials with
          | .ok spec => ⟨atOnce (ds.map .head ++ [.checkout spec]), none, steps⟩
          | .error e => ⟨atOnce (ds.map .head), some e.message, steps⟩
        else ⟨atOnce (ds.map .head), none, steps⟩ := by
  intro api steps
  rw [run_heads, Work.outcome, listHeads, ownerOf_of_ne howner, htraits, Traced.run_bind_of_ok rfl,
    Traced.run_bind_of_ok rfl, Traced.run_bind_of_ok h]
  cases hscan : (Scan.heads api traits r).run.value with
  | error e =>
    rw [Traced.run_bind_of_error (value_adapt_of_error _ _ hscan), run_adapt]
    rfl
  | ok ds =>
    rw [Traced.run_bind_of_ok (value_adapt_of_ok _ _ hscan), run_adapt]
    -- A checkout takes no steps.
    have hsteps : [] ++ ([] ++ ((findRepository api ⟨owner⟩ name).run.steps ++
        ((Scan.heads api traits r).run.steps ++ []))) = steps := by
      rw [List.append_nil]
      rfl
    rw [← hsteps]
    cases checkout with
    | false => rfl
    | true => cases Trait.resolveCheckout traits r connection.checkoutCredentials <;> rfl

/-- A search scans the repository under the traits: there is an owner, the traits are those that are
chosen, and the repository is the last one of its name among those of the owner. -/
structure Scans (world : World) (connection : Connection) (owner name : String)
    (choice : TraitChoice) (specs : List TraitSpec) (traits : List Trait) (r : Repository) :
    Prop where
  owner_ne_empty : owner ≠ ""
  specs_eq : choice.specs world.file = .ok specs
  toTraits_eq : TraitSpec.toTraits specs = .ok traits
  finds : (world.api connection).Finds owner name r

theorem Scans.traits_eq (h : Scans world connection owner name choice specs traits r) :
    choice.traits world.file = .ok traits := by
  rw [TraitChoice.traits_of_specs h.specs_eq, h.toTraits_eq]
  rfl

theorem Scans.findRepository_eq (h : Scans world connection owner name choice specs traits r) :
    (findRepository (world.api connection) ⟨owner⟩ name).run.value = .ok r := by
  obtain ⟨rs, hlisted, hlast⟩ := h.finds
  rw [value_findRepository_of_listed hlisted, hlast]

/-- Arguments without a fault name an owner and traits that can be put together. -/
theorem exists_traits_of_not_fault (h : ¬ ArgumentFault world.file owner choice) :
    owner ≠ "" ∧ ∃ specs traits, choice.specs world.file = .ok specs ∧
      TraitSpec.toTraits specs = .ok traits ∧ choice.traits world.file = .ok traits := by
  rw [argumentFault_iff, not_or] at h
  obtain ⟨howner, hreport⟩ := h
  refine ⟨howner, ?_⟩
  cases hspecs : choice.specs world.file with
  | error report => exact absurd ⟨report, TraitChoice.traits_of_error hspecs⟩ hreport
  | ok specs =>
    have htraits := TraitChoice.traits_of_specs hspecs
    cases htoTraits : TraitSpec.toTraits specs with
    | error e =>
      rw [htoTraits] at htraits
      exact absurd ⟨_, htraits⟩ hreport
    | ok traits =>
      rw [htoTraits] at htraits
      exact ⟨specs, traits, rfl, htoTraits, htraits⟩

/-- What makes a search for heads fail. -/
inductive SearchFault (world : World) (connection : Connection) (owner name : String)
    (checkout : Bool) (choice : TraitChoice) : Prop where
  | arguments (h : ArgumentFault world.file owner choice)
  /-- The repositories of the owner cannot be listed. -/
  | listing (e : ApiError)
      (h : ((world.api connection).answer (.repositories ⟨owner⟩)).run.value = .error e)
  /-- None of them has the name. -/
  | lookup (rs : List Repository)
      (hlisted : ((world.api connection).answer (.repositories ⟨owner⟩)).run.value = .ok rs)
      (h : Navigator.lastNamed name rs = none)
  /-- The branches cannot be listed, and some strategy builds any. -/
  | branches (specs : List TraitSpec) (r : Repository) (n : UInt8) (e : ApiError)
      (hspecs : choice.specs world.file = .ok specs)
      (hfinds : (world.api connection).Finds owner name r) (hn : n ∈ strategyIds specs)
      (hne : n ≠ 0) (h : ((world.api connection).answer (.branches r.owner r.name)).run.value =
        .error e)
  /-- A checkout is asked for, but the repository has no clone link for its protocol. -/
  | checkout (specs : List TraitSpec) (r : Repository) (hcheckout : checkout = true)
      (hspecs : choice.specs world.file = .ok specs)
      (hfinds : (world.api connection).Finds owner name r)
      (h : ∀ l ∈ r.cloneLinks, l.protocol ≠ (lastSsh? specs).elim .http fun _ => .ssh)

/-- A search ends before the scan, and then it prints nothing, or it scans a repository. -/
theorem searchFault_or_scans (world : World) (connection : Connection) (owner name : String)
    (checkout : Bool) (choice : TraitChoice) :
    (SearchFault world connection owner name checkout choice ∧ ∃ report steps,
      run world ⟨connection, .heads owner name checkout choice⟩ = ⟨[], some report, steps⟩) ∨
      ∃ specs traits r, Scans world connection owner name choice specs traits r := by
  by_cases hfault : ArgumentFault world.file owner choice
  · obtain ⟨report, hrun⟩ : ∃ report,
      run world ⟨connection, .heads owner name checkout choice⟩ = ⟨[], some report, []⟩ :=
        run_heads_of_fault hfault
    exact .inl ⟨.arguments hfault, report, [], hrun⟩
  · obtain ⟨howner, specs, traits, hspecs, htoTraits, htraits⟩ := exists_traits_of_not_fault hfault
    cases hlisted : ((world.api connection).answer (.repositories ⟨owner⟩)).run.value with
    | error e =>
      exact .inl ⟨.listing e hlisted, _, _,
        run_heads_of_missing howner htraits (value_findRepository_of_error hlisted)⟩
    | ok rs =>
      cases hlast : Navigator.lastNamed name rs with
      | some r => exact .inr ⟨specs, traits, r, howner, hspecs, htoTraits, rs, hlisted, hlast⟩
      | none =>
        have hmissing : (findRepository (world.api connection) ⟨owner⟩ name).run.value =
            .error ("repository " ++ owner ++ "/" ++ name ++ " not found") := by
          rw [value_findRepository_of_listed hlisted, hlast]
        exact .inl ⟨.lookup rs hlisted hlast, _, _, run_heads_of_missing howner htraits hmissing⟩

section Scanned

variable (checkout) (h : Scans world connection owner name choice specs traits r)
include h

/-- Before the scan only the repositories of the owner are listed. -/
theorem Scans.steps_eq : ∃ before,
    (run world ⟨connection, .heads owner name checkout choice⟩).steps =
        before ++ (Scan.heads (world.api connection) traits r).run.steps ∧
      Step.listings before = [.repositories ⟨owner⟩] := by
  refine ⟨(findRepository (world.api connection) ⟨owner⟩ name).run.steps, ?_,
    listings_findRepository⟩
  rw [run_heads_of_found h.owner_ne_empty h.traits_eq h.findRepository_eq]
  cases (Scan.heads (world.api connection) traits r).run.value with
  | error e => rfl
  | ok ds =>
    dsimp only
    split_ifs
    · cases Trait.resolveCheckout traits r connection.checkoutCredentials <;> rfl
    · rfl

theorem Scans.failure_eq_none_iff :
    (run world ⟨connection, .heads owner name checkout choice⟩).failure = none ↔
      (∃ ds, (Scan.heads (world.api connection) traits r).run.value = .ok ds) ∧
        (checkout = true →
          ∃ spec, Trait.resolveCheckout traits r connection.checkoutCredentials = .ok spec) := by
  rw [run_heads_of_found h.owner_ne_empty h.traits_eq h.findRepository_eq]
  cases (Scan.heads (world.api connection) traits r).run.value with
  | error e => simp
  | ok ds =>
    cases checkout with
    | false => simp
    | true => cases Trait.resolveCheckout traits r connection.checkoutCredentials <;> simp

/-- Heads are printed, and checkouts behind them. -/
theorem Scans.exists_lines_eq : ∃ (ds : List DiscoveredHead) (checkouts : List CheckoutSpec),
    (run world ⟨connection, .heads owner name checkout choice⟩).lines =
      atOnce (ds.map .head ++ checkouts.map .checkout) := by
  rw [run_heads_of_found h.owner_ne_empty h.traits_eq h.findRepository_eq]
  cases (Scan.heads (world.api connection) traits r).run.value with
  | error e => exact ⟨[], [], rfl⟩
  | ok ds =>
    cases checkout with
    | false => exact ⟨ds, [], congrArg atOnce (List.append_nil _).symm⟩
    | true =>
      cases Trait.resolveCheckout traits r connection.checkoutCredentials with
      | ok spec => exact ⟨ds, [spec], rfl⟩
      | error e => exact ⟨ds, [], congrArg atOnce (List.append_nil _).symm⟩

theorem Scans.lines_of_error {e : ApiError}
    (hscan : (Scan.heads (world.api connection) traits r).run.value = .error e) :
    (run world ⟨connection, .heads owner name checkout choice⟩).lines = [] := by
  rw [run_heads_of_found h.owner_ne_empty h.traits_eq h.findRepository_eq, hscan]

theorem Scans.lines_of_checkout {ds : List DiscoveredHead} {spec : CheckoutSpec}
    (hscan : (Scan.heads (world.api connection) traits r).run.value = .ok ds)
    (hcheckout : checkout = true)
    (hspec : Trait.resolveCheckout traits r connection.checkoutCredentials = .ok spec) :
    (run world ⟨connection, .heads owner name checkout choice⟩).lines =
      atOnce (ds.map .head ++ [.checkout spec]) := by
  rw [run_heads_of_found h.owner_ne_empty h.traits_eq h.findRepository_eq, hscan]
  dsimp only
  rw [if_pos hcheckout, hspec]

theorem Scans.lines_of_no_checkout {ds : List DiscoveredHead}
    (hscan : (Scan.heads (world.api connection) traits r).run.value = .ok ds)
    (hnone : checkout = true →
      ∃ e, Trait.resolveCheckout traits r connection.checkoutCredentials = .error e) :
    (run world ⟨connection, .heads owner name checkout choice⟩).lines = atOnce (ds.map .head) := by
  rw [run_heads_of_found h.owner_ne_empty h.traits_eq h.findRepository_eq, hscan]
  dsimp only
  split_ifs with hcheckout
  · obtain ⟨e, he⟩ := hnone hcheckout
    rw [he]
  · rfl

end Scanned

/-! ### How a search ends -/

/-- Pull requests that cannot be listed make no search fail. -/
theorem SearchFault.of_agree {world' : World}
    (h : SearchFault world connection owner name checkout choice) (hfile : world'.file = world.file)
    (hanswers : ∀ q, q.isPullRequests = false →
      ((world'.api connection).answer q).run.value = ((world.api connection).answer q).run.value) :
    SearchFault world' connection owner name checkout choice := by
  have hrepositories := hanswers (.repositories ⟨owner⟩) rfl
  have hfinds : ∀ r, (world.api connection).Finds owner name r →
      (world'.api connection).Finds owner name r := by
    rintro r ⟨rs, hlisted, hlast⟩
    exact ⟨rs, hrepositories.trans hlisted, hlast⟩
  cases h with
  | arguments h => exact .arguments (hfile ▸ h)
  | listing e h => exact .listing e (hrepositories.trans h)
  | lookup rs hlisted h => exact .lookup rs (hrepositories.trans hlisted) h
  | branches specs r n e hspecs hfound hn hne h =>
    exact .branches specs r n e (hfile ▸ hspecs) (hfinds r hfound) hn hne
      ((hanswers (.branches r.owner r.name) rfl).trans h)
  | checkout specs r hcheckout hspecs hfound h =>
    exact .checkout specs r hcheckout (hfile ▸ hspecs) (hfinds r hfound) h

/-- A search that scans a repository fails with the scan or with the checkout. -/
theorem Scans.exists_error (h : Scans world connection owner name choice specs traits r)
    (hfails : (run world ⟨connection, .heads owner name checkout choice⟩).exitCode ≠ 0) :
    (∃ e, (Scan.heads (world.api connection) traits r).run.value = .error e) ∨
      checkout = true ∧ ∃ ds e, (Scan.heads (world.api connection) traits r).run.value = .ok ds ∧
        Trait.resolveCheckout traits r connection.checkoutCredentials = .error e := by
  rw [ne_eq, Outcome.exitCode_eq_zero_iff, h.failure_eq_none_iff] at hfails
  cases hscan : (Scan.heads (world.api connection) traits r).run.value with
  | error e => exact .inl ⟨e, rfl⟩
  | ok ds =>
    refine .inr ?_
    by_contra hnone
    refine hfails ⟨⟨ds, hscan⟩, fun hcheckout => ?_⟩
    cases hspec : Trait.resolveCheckout traits r connection.checkoutCredentials with
    | ok spec => exact ⟨spec, rfl⟩
    | error e => exact absurd ⟨hcheckout, ds, e, rfl, hspec⟩ hnone

/-- A search succeeds exactly if it scans a repository, and scan and checkout succeed. -/
theorem exitCode_heads_eq_zero_iff :
    (run world ⟨connection, .heads owner name checkout choice⟩).exitCode = 0 ↔
      ∃ specs traits r, Scans world connection owner name choice specs traits r ∧
        (∃ ds, (Scan.heads (world.api connection) traits r).run.value = .ok ds) ∧
        (checkout = true →
          ∃ spec, Trait.resolveCheckout traits r connection.checkoutCredentials = .ok spec) := by
  rw [Outcome.exitCode_eq_zero_iff]
  constructor
  · intro hnone
    obtain ⟨-, report, steps, hrun⟩ | ⟨specs, traits, r, hscans⟩ :=
      searchFault_or_scans world connection owner name checkout choice
    · rw [hrun] at hnone
      cases hnone
    · exact ⟨specs, traits, r, hscans, (hscans.failure_eq_none_iff checkout).mp hnone⟩
  · rintro ⟨specs, traits, r, hscans, h⟩
    exact (hscans.failure_eq_none_iff checkout).mpr h

theorem exitCode_heads_ne_zero_iff :
    (run world ⟨connection, .heads owner name checkout choice⟩).exitCode ≠ 0 ↔
      SearchFault world connection owner name checkout choice := by
  constructor
  · intro hfails
    obtain ⟨hfault, -⟩ | ⟨specs, traits, r, hscans⟩ :=
      searchFault_or_scans world connection owner name checkout choice
    · exact hfault
    · obtain hscan | ⟨hcheckout, ds, e, -, he⟩ := hscans.exists_error hfails
      · obtain ⟨⟨n, hn, hne⟩, e, he⟩ :=
          (Scan.exists_value_heads_eq_error_iff hscans.toTraits_eq _ r).mp hscan
        exact .branches specs r n e hscans.specs_eq hscans.finds hn hne he
      · exact .checkout specs r hcheckout hscans.specs_eq hscans.finds
          ((Trait.exists_resolveCheckout_eq_error_iff hscans.toTraits_eq r _).mp ⟨e, he⟩)
  · -- Each fault contradicts the part of a search that succeeds which it would have ended.
    intro h hzero
    obtain ⟨specs, traits, r, hscans, ⟨ds, hds⟩, hspec⟩ := exitCode_heads_eq_zero_iff.mp hzero
    obtain ⟨rs, hlisted, hlast⟩ := hscans.finds
    cases h with
    | arguments h =>
      obtain howner | ⟨report, htraits⟩ := argumentFault_iff.mp h
      · exact hscans.owner_ne_empty howner
      · cases hscans.traits_eq.symm.trans htraits
    | listing e h => cases hlisted.symm.trans h
    | lookup rs' hlisted' hnone =>
      cases hlisted.symm.trans hlisted'
      cases hlast.symm.trans hnone
    | branches specs' r' n e hspecs hfinds hn hne h =>
      cases hscans.specs_eq.symm.trans hspecs
      cases hscans.finds.eq hfinds
      obtain ⟨e', he'⟩ := (Scan.exists_value_heads_eq_error_iff hscans.toTraits_eq _ r).mpr
        ⟨⟨n, hn, hne⟩, e, h⟩
      cases hds.symm.trans he'
    | checkout specs' r' hcheckout hspecs hfinds h =>
      cases hscans.specs_eq.symm.trans hspecs
      cases hscans.finds.eq hfinds
      obtain ⟨spec, hspec⟩ := hspec hcheckout
      obtain ⟨e, he⟩ := (Trait.exists_resolveCheckout_eq_error_iff hscans.toTraits_eq r _).mpr h
      cases hspec.symm.trans he

/-- No line of a search is about an event. -/
theorem ne_event_of_mem_lines {l : TimedLine}
    (hl : l ∈ (run world ⟨connection, .heads owner name checkout choice⟩).lines) (e : HeadEvent) :
    l.line ≠ .event e := by
  obtain ⟨-, report, steps, hrun⟩ | ⟨specs, traits, r, hscans⟩ :=
    searchFault_or_scans world connection owner name checkout choice
  · rw [hrun] at hl
    cases hl
  · obtain ⟨ds, checkouts, hlines⟩ := hscans.exists_lines_eq checkout
    rw [hlines] at hl
    obtain ⟨line, hline, rfl⟩ := List.mem_map.mp hl
    rcases List.mem_append.mp hline with hline | hline
    · obtain ⟨d, -, rfl⟩ := List.mem_map.mp hline
      exact nofun
    · obtain ⟨spec, -, rfl⟩ := List.mem_map.mp hline
      exact nofun

/-- A connection to Cloud without credentials. -/
def plainConnection : Connection := ⟨none, none, none, none, none⟩

def teamUrl : String := firstPageUrl (plainConnection.client.repositoriesUrl ⟨"team"⟩)

def widgetUrl : String :=
  firstPageUrl (plainConnection.client.refsUrl .branch ⟨"team"⟩ ⟨"widget"⟩)

/-- A page with one repository, and no link to clone it by. -/
def teamBody : String := "\x7b\"values\":[\x7b\"full_name\":\"team/widget\"\x7d]\x7d"

theorem parse?_teamBody :
    Json.parse? teamBody =
      some (.record [("values", .array [.record [("full_name", .text "team/widget")]])]) := by
  cbv

/-- A world in which `team/widget` has the branches `main` and `dev`. -/
def teamWorld : World where
  environment _ := none
  file _ := none
  network := .ofPages [(teamUrl, teamBody), (widgetUrl, Client.wholeBody)]
  stamp := ⟨.ofNat 0, fun _ => ⟨0, 0, 0⟩⟩

theorem teamUrl_ne_widgetUrl : teamUrl ≠ widgetUrl := by decide +kernel

theorem listed_team :
    ((teamWorld.api plainConnection).answer (.repositories ⟨"team"⟩)).run.value =
      .ok [⟨⟨"team"⟩, ⟨"widget"⟩, []⟩] := by
  have hbrings : Brings IsCloudPage (repositoryForm .cloud).read (repositoryForm .cloud).document
      teamUrl (teamWorld.network.answer teamUrl) (.ok ([⟨"team/widget", []⟩], none)) := by
    rw [teamWorld, Network.answer_ofPages_cons_self]
    exact .of_cloud parse?_teamBody rfl
  have hserves : plainConnection.client.Serves (repositoryForm .cloud)
      (plainConnection.client.repositoriesUrl ⟨"team"⟩) teamWorld.network [teamUrl]
      [[⟨"team/widget", []⟩]] none :=
    ⟨.last hbrings, List.nodup_singleton _⟩
  exact (Client.listing_of_serves hserves (plainConnection.client.repositories_eq _ _)).1

theorem listed_widget :
    ((teamWorld.api plainConnection).answer (.branches ⟨"team"⟩ ⟨"widget"⟩)).run.value =
      .ok [⟨⟨"main"⟩, some ⟨"a"⟩⟩, ⟨⟨"dev"⟩, none⟩] := by
  have hbrings : Brings IsCloudPage (refForm .cloud).read (refForm .cloud).document widgetUrl
      (teamWorld.network.answer widgetUrl)
      (.ok ([⟨"main", some "a"⟩, ⟨"", none⟩, ⟨"dev", none⟩], none)) := by
    rw [teamWorld, Network.answer_ofPages_cons_of_ne teamUrl_ne_widgetUrl.symm,
      Network.answer_ofPages_cons_self]
    exact .of_cloud Client.parse?_wholeBody rfl
  have hserves : plainConnection.client.Serves (refForm .cloud)
      (plainConnection.client.refsUrl .branch ⟨"team"⟩ ⟨"widget"⟩) teamWorld.network [widgetUrl]
      [[⟨"main", some "a"⟩, ⟨"", none⟩, ⟨"dev", none⟩]] none :=
    ⟨.last hbrings, List.nodup_singleton _⟩
  exact (Client.listing_of_serves hserves (plainConnection.client.refs_eq _ _ _ _)).1

end Invocation

end HeadScout
