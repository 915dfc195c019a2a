import HeadScout.Navigator
import HeadScout.Proofs.Text.Utf8
import Mathlib.Data.List.Induction
import Mathlib.Data.List.Sort

/-!
# Navigators over whole runs

A navigator may be told of repositories again and again, by whoever has them at hand or by a listing
that it asks for, and such a listing may fail. What it knows at the end is what the last call that
succeeded told it: earlier calls leave nothing behind, and one that failed changes nothing.

The repositories of a list are told apart by the case of their letters. Of those with one name the
last one counts; they are handed on without repetition, those first that no source looks after, and
in the order of the octets of their names otherwise. A name that is empty is never looked up,
although a list may have a repository without a name, which is then handed on first.

## Main definitions

* `Navigator.Call`, `Navigator.after` — calls on a navigator, and what they leave behind
* `Navigator.lastListed` — the repositories of the last call that succeeded
* `Navigator.lastNamed` — the last repository of a name
* `Navigator.Precedes` — which of two repositories is handed on first

## Main results

* `Navigator.after_eq` — only the last call that succeeded counts
* `Navigator.mem_repositories_withRepositories` — the repositories that are handed on
* `Navigator.pairwise_repositories` — the order in which they are handed on
* `Navigator.reconciled_after` — all of it after any calls
-/

namespace HeadScout.Navigator

/-! ### Calls -/

/-- A call that tells a navigator of repositories. -/
inductive Call where
  /-- The repositories are at hand. -/
  | load (rs : List Repository)
  /-- The repositories of an owner are listed first. -/
  | visit (api : Api) (owner : OwnerName)

/-- The repositories that a call tells of, unless their listing fails. -/
def Call.listed? : Call → Option (List Repository)
  | .load rs => some rs
  | .visit api owner => (api.answer (.repositories owner)).run.value.toOption

/-- The navigator after a call. -/
def call (n : Navigator) : Call → Navigator
  | .load rs => n.withRepositories rs
  | .visit api owner => (n.visit api owner).value.2

/-- The navigator after some calls. -/
def after (n : Navigator) (calls : List Call) : Navigator := calls.foldl call n

/-- The repositories of the last call that succeeded; none if there was no such call. -/
def lastListed (calls : List Call) : List Repository :=
  (calls.filterMap Call.listed?).getLast?.getD []

/-- The last repository of a name. -/
def lastNamed (name : String) (rs : List Repository) : Option Repository :=
  (rs.filter (·.name.text = name)).getLast?

variable (n : Navigator) (rs : List Repository) {calls : List Call}

section Visit

variable {api : Api} {owner : OwnerName}

/-- A visit asks for the repositories of the owner, and for nothing else. -/
theorem listings_visit : Step.listings (n.visit api owner).steps = [.repositories owner] := by
  rw [visit, Traced.steps_bind, Step.listings_append, Api.listings_list]
  cases (api.list (.repositories owner)).run.value <;> rfl

theorem value_visit_of_error {e : ApiError}
    (h : (api.answer (.repositories owner)).run.value = .error e) :
    (n.visit api owner).value = (.error e, n) := by
  rw [visit, Traced.value_bind, Api.value_list, h]
  rfl

theorem value_visit_of_ok {rs : List Repository}
    (h : (api.answer (.repositories owner)).run.value = .ok rs) :
    (n.visit api owner).value =
      (.ok (n.withRepositories rs).repositories, n.withRepositories rs) := by
  rw [visit, Traced.value_bind, Api.value_list, h]
  rfl

end Visit

/-- A visit that fails leaves the navigator as it was. -/
theorem call_eq (c : Call) : n.call c = c.listed?.elim n n.withRepositories := by
  cases c with
  | load rs => rfl
  | visit api owner =>
    rw [call, Call.listed?]
    cases hlisted : (api.answer (.repositories owner)).run.value with
    | error e =>
      rw [n.value_visit_of_error hlisted]
      rfl
    | ok rs =>
      rw [n.value_visit_of_ok hlisted]
      rfl

/-- Only the last call that succeeded counts. -/
theorem after_eq (calls : List Call) :
    n.after calls = (calls.filterMap Call.listed?).getLast?.elim n n.withRepositories := by
  -- From the last call on: if it succeeded, the list before it is gone.
  induction calls using List.reverseRecOn with
  | nil => rfl
  | append_singleton calls c ih =>
    have hstep : n.after (calls ++ [c]) = (n.after calls).call c := List.foldl_concat ..
    rw [hstep, call_eq, ih, List.filterMap_append]
    cases hc : c.listed? with
    | none =>
      rw [List.filterMap_cons_none hc, List.filterMap_nil, List.append_nil]
      rfl
    | some rs =>
      rw [List.filterMap_cons_some hc, List.filterMap_nil, List.getLast?_concat]
      cases (calls.filterMap Call.listed?).getLast? <;> rfl

theorem after_ofRegistered (registered : List RepositoryName) (calls : List Call) :
    (ofRegistered registered).after calls =
      (ofRegistered registered).withRepositories (lastListed calls) := by
  rw [after_eq, lastListed]
  cases (calls.filterMap Call.listed?).getLast? <;> rfl

/-! ### What is known -/

/-- Under a name the last repository of that name is known. -/
theorem get?_known_withRepositories (name : String) :
    (n.withRepositories rs).known.get? name = lastNamed name rs := by
  have hkey : ((fun e : String × Repository => compare name e.1 == .eq) ∘
      fun r : Repository => (r.name.text, r)) = fun r => decide (r.name.text = name) := by
    funext r
    rw [Bool.eq_iff_iff, Function.comp_apply, beq_iff_eq, Std.compare_eq_iff_eq, decide_eq_true_iff,
      eq_comm]
  rw [withRepositories, SortedTable.get?_ofList, ← List.map_reverse, List.find?_map, hkey,
    Option.map_map, lastNamed, List.getLast?_filter]
  exact Option.map_id'

theorem name_of_lastNamed {name : String} {r : Repository} (h : lastNamed name rs = some r) :
    r.name.text = name := by
  have hmem := List.mem_of_getLast? h
  exact of_decide_eq_true (List.mem_filter.mp hmem).2

theorem repository?_withRepositories (name : String) :
    (n.withRepositories rs).repository? name = if name = "" then none else lastNamed name rs := by
  rw [repository?, Identifier.ofText?]
  split_ifs
  · rfl
  · exact get?_known_withRepositories n rs name

/-! ### What is handed on -/

theorem isRegistered_iff {r : Repository} :
    n.isRegistered r.name.text = true ↔ r.name ∈ n.registered := by
  rw [isRegistered, List.any_eq_true]
  constructor
  · rintro ⟨name, hmem, htext⟩
    have hname : name = r.name := congrArg Identifier.mk (beq_iff_eq.mp htext)
    exact hname ▸ hmem
  · intro hmem
    exact ⟨r.name, hmem, beq_self_eq_true _⟩

/-- The known repositories with their names: those that no source looks after, then the others. -/
theorem repositories_eq :
    n.repositories =
      (n.known.entries.filter (fun e => !n.isRegistered e.1) ++
        n.known.entries.filter fun e => n.isRegistered e.1).map (·.2) := by
  rw [repositories, List.partition_eq_filter_filter]
  rfl

theorem mem_repositories_iff {r : Repository} :
    r ∈ n.repositories ↔ ∃ name, (name, r) ∈ n.known.entries := by
  rw [repositories_eq, List.mem_map]
  constructor
  · rintro ⟨⟨name, r'⟩, hmem, rfl⟩
    rcases List.mem_append.mp hmem with hmem | hmem
    · exact ⟨name, List.mem_of_mem_filter hmem⟩
    · exact ⟨name, List.mem_of_mem_filter hmem⟩
  · rintro ⟨name, hmem⟩
    refine ⟨(name, r), List.mem_append.mpr ?_, rfl⟩
    cases hname : n.isRegistered name with
    | false => exact Or.inl (List.mem_filter.mpr ⟨hmem, by rw [hname]; rfl⟩)
    | true => exact Or.inr (List.mem_filter.mpr ⟨hmem, hname⟩)

/-- A repository is known under its name. -/
theorem name_of_mem_entries {e : String × Repository}
    (h : e ∈ (n.withRepositories rs).known.entries) : e.2.name.text = e.1 := by
  have hlast := (SortedTable.mem_entries_iff _).mp h
  rw [get?_known_withRepositories] at hlast
  exact name_of_lastNamed rs hlast

/-- Of each name the last repository is handed on. -/
theorem mem_repositories_withRepositories {r : Repository} :
    r ∈ (n.withRepositories rs).repositories ↔ lastNamed r.name.text rs = some r := by
  rw [mem_repositories_iff]
  constructor
  · rintro ⟨name, hmem⟩
    have hname : r.name.text = name := name_of_mem_entries n rs hmem
    rw [hname, ← get?_known_withRepositories n]
    exact (SortedTable.mem_entries_iff _).mp hmem
  · intro hlast
    rw [← get?_known_withRepositories n] at hlast
    exact ⟨r.name.text, (SortedTable.mem_entries_iff _).mpr hlast⟩

/-! ### The order -/

/-- Which of two repositories is handed on first: one that no source looks after comes before one
that a source looks after, and of two alike the one whose name has the smaller octets. -/
def Precedes (registered : List RepositoryName) (a b : Repository) : Prop :=
  (a.name ∉ registered ∧ b.name ∈ registered) ∨
    ((a.name ∈ registered ↔ b.name ∈ registered) ∧
      Text.octets a.name.text < Text.octets b.name.text)

theorem Precedes.name_ne {registered : List RepositoryName} {a b : Repository}
    (h : Precedes registered a b) : a.name ≠ b.name := by
  intro hname
  rcases h with ⟨ha, hb⟩ | ⟨-, hlt⟩
  · exact ha (hname ▸ hb)
  · rw [hname] at hlt
    exact List.lt_irrefl _ hlt

instance (registered : List RepositoryName) : Std.Asymm (Precedes registered) where
  asymm a b := by
    rintro (⟨ha, hb⟩ | ⟨hiff, hlt⟩) (⟨hb', ha'⟩ | ⟨hiff', hlt'⟩)
    · exact ha ha'
    · exact ha (hiff'.mp hb)
    · exact hb' (hiff.mp ha')
    · exact List.lt_asymm hlt hlt'

/-- Of two repositories that are alike the one under the smaller name comes first. -/
theorem precedes_of_lt {a b : String × Repository}
    (ha : a ∈ (n.withRepositories rs).known.entries)
    (hb : b ∈ (n.withRepositories rs).known.entries)
    (hregistered : n.isRegistered a.1 = n.isRegistered b.1) (h : compare a.1 b.1 = .lt) :
    Precedes n.registered a.2 b.2 := by
  have hname := name_of_mem_entries n rs ha
  have hname' := name_of_mem_entries n rs hb
  refine Or.inr ⟨?_, ?_⟩
  · rw [← isRegistered_iff, ← isRegistered_iff, hname, hname', hregistered]
  · rw [hname, hname']
    exact Text.octets_lt_octets h

theorem pairwise_repositories :
    (n.withRepositories rs).repositories.Pairwise (Precedes n.registered) := by
  have hascending := (n.withRepositories rs).known.ascending
  have hparts := repositories_eq (n.withRepositories rs)
  rw [hparts, List.pairwise_map, List.pairwise_append]
  refine ⟨?_, ?_, ?_⟩
  · refine (hascending.filter _).imp_of_mem fun {a b} ha hb h => ?_
    obtain ⟨ha, hnew⟩ := List.mem_filter.mp ha
    obtain ⟨hb, hnew'⟩ := List.mem_filter.mp hb
    exact precedes_of_lt n rs ha hb (Bool.not_inj (hnew.trans hnew'.symm)) h
  · refine (hascending.filter _).imp_of_mem fun {a b} ha hb h => ?_
    obtain ⟨ha, hold⟩ := List.mem_filter.mp ha
    obtain ⟨hb, hold'⟩ := List.mem_filter.mp hb
    exact precedes_of_lt n rs ha hb (hold.trans hold'.symm) h
  · -- Between the two parts the names do not matter.
    intro a ha b hb
    obtain ⟨ha, hnew⟩ := List.mem_filter.mp ha
    obtain ⟨hb, hold⟩ := List.mem_filter.mp hb
    -- The names that are registered stay what they were.
    have hnew : n.isRegistered a.1 = false := (Bool.not_eq_true' _).mp hnew
    refine Or.inl ⟨?_, ?_⟩
    · rw [← isRegistered_iff, name_of_mem_entries n rs ha, hnew]
      exact Bool.false_ne_true
    · rw [← isRegistered_iff, name_of_mem_entries n rs hb]
      exact hold

/-- What is handed on depends on which names are registered and on the last repository of each name,
and on nothing else. -/
theorem repositories_congr {registered registered' : List RepositoryName} {rs rs' : List Repository}
    (hregistered : ∀ name, name ∈ registered ↔ name ∈ registered')
    (hlast : ∀ name, lastNamed name rs = lastNamed name rs') :
    ((ofRegistered registered).withRepositories rs).repositories =
      ((ofRegistered registered').withRepositories rs').repositories := by
  have horder : Precedes registered' = Precedes registered := by
    funext a b
    simp only [Precedes, hregistered]
  have hsorted := pairwise_repositories (ofRegistered registered) rs
  have hsorted' := pairwise_repositories (ofRegistered registered') rs'
  refine hsorted.eq_of_mem_iff (horder ▸ hsorted') fun r => ?_
  rw [mem_repositories_withRepositories, mem_repositories_withRepositories, hlast]

/-! ### Whole runs -/

/-- After any calls, only the repositories of the last one that succeeded count. The repository of a
name that is not empty is the last one of exactly that name, and of each name the last repository is
handed on, once: those first that no source looks after, and each part by the octets of the names.
In which order and how often the names are registered does not matter, and neither does the order of
repositories of different names. -/
theorem reconciled_after (registered : List RepositoryName) (calls : List Call) :
    (ofRegistered registered).after calls =
        (ofRegistered registered).withRepositories (lastListed calls) ∧
      (∀ name, ((ofRegistered registered).after calls).repository? name =
        if name = "" then none else lastNamed name (lastListed calls)) ∧
      (∀ r, r ∈ ((ofRegistered registered).after calls).repositories ↔
        lastNamed r.name.text (lastListed calls) = some r) ∧
      (((ofRegistered registered).after calls).repositories.map (·.name)).Nodup ∧
      ((ofRegistered registered).after calls).repositories.Pairwise (Precedes registered) ∧
      ∀ (registered' : List RepositoryName) (calls' : List Call),
        (∀ name, name ∈ registered ↔ name ∈ registered') →
        (∀ name, lastNamed name (lastListed calls) = lastNamed name (lastListed calls')) →
        ((ofRegistered registered).after calls).repositories =
          ((ofRegistered registered').after calls').repositories := by
  have hafter := after_ofRegistered registered calls
  have horder := pairwise_repositories (ofRegistered registered) (lastListed calls)
  rw [hafter]
  refine ⟨rfl, ?_, ?_, ?_, horder, ?_⟩
  · intro name
    exact repository?_withRepositories _ _ name
  · intro r
    exact mem_repositories_withRepositories _ _
  · rw [List.Nodup, List.pairwise_map]
    exact horder.imp Precedes.name_ne
  · intro registered' calls' hregistered hlast
    rw [after_ofRegistered]
    exact repositories_congr hregistered hlast

/-- Whoever is asked refuses to list anything. -/
def refusingApi : Api where
  answer _ := throw (.refused "https://git.example.org" 503)

/-- A list that is forgotten, one with a name that occurs twice and in both cases, and a visit that
fails. -/
def sampleCalls : List Call :=
  [.load [⟨⟨"x"⟩, ⟨"old"⟩, []⟩],
    .load [⟨⟨"x"⟩, ⟨"b"⟩, []⟩, ⟨⟨"x"⟩, ⟨"B"⟩, []⟩, ⟨⟨"y"⟩, ⟨"b"⟩, []⟩],
    .visit refusingApi ⟨"x"⟩]

/-- The second list alone, with the repository of the other name at the end. -/
def reorderedCalls : List Call :=
  [.load [⟨⟨"x"⟩, ⟨"b"⟩, []⟩, ⟨⟨"y"⟩, ⟨"b"⟩, []⟩, ⟨⟨"x"⟩, ⟨"B"⟩, []⟩]]

theorem lastNamed_sampleCalls (name : String) :
    lastNamed name (lastListed sampleCalls) = lastNamed name (lastListed reorderedCalls) := by
  have hsample : lastListed sampleCalls =
      [⟨⟨"x"⟩, ⟨"b"⟩, []⟩, ⟨⟨"x"⟩, ⟨"B"⟩, []⟩, ⟨⟨"y"⟩, ⟨"b"⟩, []⟩] := rfl
  have hreordered : lastListed reorderedCalls =
      [⟨⟨"x"⟩, ⟨"b"⟩, []⟩, ⟨⟨"y"⟩, ⟨"b"⟩, []⟩, ⟨⟨"x"⟩, ⟨"B"⟩, []⟩] := rfl
  rw [hsample, hreordered]
  by_cases hb : "b" = name
  · subst hb
    rfl
  · by_cases hB : "B" = name
    · subst hB
      rfl
    · simp [lastNamed, hb, hB]

theorem repositories_after_sampleCalls :
    ((ofRegistered [⟨"B"⟩]).after sampleCalls).repositories =
        ((ofRegistered [⟨"B"⟩, ⟨"B"⟩]).after reorderedCalls).repositories ∧
      ((ofRegistered [⟨"B"⟩]).after sampleCalls).repositories =
        [⟨⟨"y"⟩, ⟨"b"⟩, []⟩, ⟨⟨"x"⟩, ⟨"B"⟩, []⟩] := by
  obtain ⟨-, -, -, -, -, hcongr⟩ := reconciled_after [⟨"B"⟩] sampleCalls
  refine ⟨?_, by decide +kernel⟩
  refine hcongr _ _ ?_ lastNamed_sampleCalls
  intro name
  simp

/-- A repository without a name is known, but not found by its name. -/
theorem not_forall_repository?_eq_lastNamed :
    ¬ ∀ (registered : List RepositoryName) (calls : List Call) (name : String),
        ((ofRegistered registered).after calls).repository? name =
          lastNamed name (lastListed calls) := by
  intro h
  have hempty := h [] [.load [⟨⟨"x"⟩, ⟨""⟩, []⟩]] ""
  have hfound : lastNamed "" (lastListed [.load [⟨⟨"x"⟩, ⟨""⟩, []⟩]]) =
      some ⟨⟨"x"⟩, ⟨""⟩, []⟩ := rfl
  rw [hfound] at hempty
  exact nomatch (hempty : none = some _)

end HeadScout.Navigator
