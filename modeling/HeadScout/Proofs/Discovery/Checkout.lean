import Mathlib.Data.List.Induction
import HeadScout.Proofs.Discovery.Scan

/-!
# How configured traits check out

Discovery adds up: a context keeps what every trait puts into it. A checkout does not. A trait that
has a say in it replaces protocol and credentials together, whatever they were, so only the last
such trait counts, and of the credentials that listings use nothing is left once there is one. This
holds also where that trait names no credentials: the build then uses its own, and not those of the
listings.

The two concerns do not touch. How a repository is checked out does not matter to a scan, and which
branches are built does not matter to a checkout.

## Main definitions

* `Trait.lastCheckout?`, `TraitSpec.lastSsh?` — the replacement that counts
* `TraitSpec.NamesNoCredentials` — what is configured names no credentials
* `Repository.ChecksOut` — what a checkout by a protocol comes to

## Main results

* `Trait.foldl_applyCheckout` — of all replacements the last one is left
* `Trait.resolveCheckout_of_toTraits` — the checkout of configured traits
-/

namespace HeadScout

/-! ### The first link of a protocol -/

namespace Repository

variable {r : Repository} {protocol : Protocol} {url : String}

theorem cloneUrl?_eq_some_iff :
    r.cloneUrl? protocol = some url ↔
      ∃ before after, r.cloneLinks = before ++ ⟨protocol, url⟩ :: after ∧
        ∀ l ∈ before, l.protocol ≠ protocol := by
  simp only [cloneUrl?, Option.map_eq_some_iff, List.find?_eq_some_iff_append, beq_iff_eq,
    Bool.not_eq_true', beq_eq_false_iff_ne]
  constructor
  · rintro ⟨l, ⟨rfl, before, after, hlinks, hbefore⟩, rfl⟩
    exact ⟨before, after, hlinks, hbefore⟩
  · rintro ⟨before, after, hlinks, hbefore⟩
    exact ⟨⟨protocol, url⟩, ⟨rfl, before, after, hlinks, hbefore⟩, rfl⟩

theorem cloneUrl?_eq_none_iff :
    r.cloneUrl? protocol = none ↔ ∀ l ∈ r.cloneLinks, l.protocol ≠ protocol := by
  simp only [cloneUrl?, Option.map_eq_none_iff, List.find?_eq_none, beq_iff_eq]

/-- What a checkout by a protocol with some credentials comes to. It fetches from the first clone
link of the protocol, and fails exactly if there is none. -/
structure ChecksOut (r : Repository) (protocol : Protocol) (credentialsId : Option CredentialsId)
    (outcome : Except DiscoveryError CheckoutSpec) : Prop where
  eq_ok_iff : ∀ spec, outcome = .ok spec ↔
    spec.protocol = protocol ∧ spec.credentialsId = credentialsId ∧
      ∃ before after, r.cloneLinks = before ++ ⟨protocol, spec.remote⟩ :: after ∧
        ∀ l ∈ before, l.protocol ≠ protocol
  eq_error_iff : ∀ e, outcome = .error e ↔
    e = .noCloneLink r.fullName protocol ∧ ∀ l ∈ r.cloneLinks, l.protocol ≠ protocol

theorem checksOut_build (r : Repository) (protocol : Protocol)
    (credentialsId : Option CredentialsId) :
    r.ChecksOut protocol credentialsId (CheckoutBuilder.build ⟨r, protocol, credentialsId⟩) := by
  simp only [CheckoutBuilder.build]
  constructor
  · rintro ⟨remote, protocol', credentialsId'⟩
    simp only [← cloneUrl?_eq_some_iff]
    cases r.cloneUrl? protocol with
    | none => simp
    | some url =>
      simp only [Except.ok.injEq, CheckoutSpec.mk.injEq, Option.some_inj]
      exact ⟨fun ⟨hremote, hprotocol, hc⟩ => ⟨hprotocol.symm, hc.symm, hremote⟩,
        fun ⟨hprotocol, hc, hremote⟩ => ⟨hremote, hprotocol.symm, hc.symm⟩⟩
  · intro e
    rw [← cloneUrl?_eq_none_iff]
    cases r.cloneUrl? protocol with
    | none => simp [eq_comm]
    | some url => simp

end Repository

/-! ### The last replacement -/

namespace Trait

variable {traits : List Trait}

/-- Credentials and protocol of the last trait that replaces them. -/
def lastCheckout? (traits : List Trait) : Option (Option CredentialsId × Protocol) :=
  (traits.filterMap (·.checkout)).getLast?

/-- A replacement leaves nothing of the one before it. -/
theorem withCredentials_withCredentials (b : CheckoutBuilder) (c c' : Option CredentialsId)
    (p p' : Protocol) :
    (b.withCredentials c p).withCredentials c' p' = b.withCredentials c' p' := rfl

/-- One more trait has the last word, if it has a say at all. -/
theorem lastCheckout?_concat (traits : List Trait) (t : Trait) :
    lastCheckout? (traits ++ [t]) = t.checkout.or (lastCheckout? traits) := by
  rw [lastCheckout?, lastCheckout?, List.filterMap_append]
  cases h : t.checkout with
  | none => rw [List.filterMap_cons_none h, List.filterMap_nil, List.append_nil, Option.none_or]
  | some c => rw [List.filterMap_cons_some h, List.filterMap_nil, List.getLast?_concat,
      Option.some_or]

/-- Of all replacements the last one is left, and without any the checkout is as it was. -/
theorem foldl_applyCheckout (traits : List Trait) (b : CheckoutBuilder) :
    traits.foldl (fun b t => applyCheckout t b) b =
      match lastCheckout? traits with
      | some (credentialsId, protocol) => b.withCredentials credentialsId protocol
      | none => b := by
  -- From the end of the list: each step replaces what all traits before it have come to.
  induction traits using List.reverseRecOn with
  | nil => rfl
  | append_singleton traits t ih =>
    rw [List.foldl_append, List.foldl_cons, List.foldl_nil, ih, lastCheckout?_concat, applyCheckout]
    cases t.checkout with
    | none => rfl
    | some c =>
      cases lastCheckout? traits with
      | none => rfl
      | some c' => exact withCredentials_withCredentials b c'.1 c.1 c'.2 c.2

/-- The checkout of any traits, told by the replacement that counts. -/
theorem checksOut_resolveCheckout (traits : List Trait) (r : Repository)
    (credentialsId : Option CredentialsId) :
    r.ChecksOut ((lastCheckout? traits).elim .http Prod.snd)
      ((lastCheckout? traits).elim credentialsId Prod.fst)
      (resolveCheckout traits r credentialsId) := by
  -- What a checkout starts from counts as the replacement before all others.
  have hbuilder : traits.foldl (fun b t => applyCheckout t b)
      (CheckoutBuilder.ofRepository r credentialsId) =
        ⟨r, (lastCheckout? traits).elim .http Prod.snd,
          (lastCheckout? traits).elim credentialsId Prod.fst⟩ := by
    rw [foldl_applyCheckout]
    cases lastCheckout? traits <;> rfl
  rw [resolveCheckout, hbuilder]
  exact r.checksOut_build _ _

theorem resolveCheckout_congr {traits' : List Trait} {r : Repository}
    {credentialsId credentialsId' : Option CredentialsId}
    (h : lastCheckout? traits = lastCheckout? traits')
    (hcredentials : lastCheckout? traits = none → credentialsId = credentialsId') :
    resolveCheckout traits r credentialsId = resolveCheckout traits' r credentialsId' := by
  rw [resolveCheckout, resolveCheckout, foldl_applyCheckout, foldl_applyCheckout, ← h]
  cases hlast : lastCheckout? traits with
  | none => rw [hcredentials hlast]
  | some c => rfl

end Trait

/-! ### Configured credentials -/

namespace TraitSpec

/-- What is configured names no credentials: it is absent or blank, or what stands for none in older
configurations. -/
def NamesNoCredentials (configured : Option String) : Prop :=
  ∀ s ∈ configured, Text.isAllBlank s = true ∨ Text.trim s = "ANONYMOUS"

theorem configuredCredentials?_eq_some_iff {configured : Option String} {c : CredentialsId} :
    Trait.configuredCredentials? configured = some c ↔
      ¬ NamesNoCredentials configured ∧ ∃ s, configured = some s ∧ c.text = Text.trim s := by
  cases configured with
  | none => exact ⟨nofun, fun h => absurd nofun h.1⟩
  | some s =>
    have hnames : NamesNoCredentials (some s) ↔ Text.trim s = "" ∨ Text.trim s = "ANONYMOUS" := by
      simp [NamesNoCredentials, Text.trim_eq_empty_iff]
    rw [hnames, Trait.configuredCredentials?, Trait.anonymous]
    simp only [Option.map_some, Option.bind_eq_some_iff, Option.filter_eq_some_iff, bne_iff_ne,
      Identifier.ofText?_eq_some_iff, not_or, Option.some_inj, exists_eq_left']
    constructor
    · rintro ⟨_, ⟨rfl, hanonymous⟩, htext, hblank⟩
      exact ⟨⟨hblank, hanonymous⟩, htext⟩
    · rintro ⟨⟨hblank, hanonymous⟩, htext⟩
      exact ⟨_, ⟨rfl, hanonymous⟩, htext, hblank⟩

theorem configuredCredentials?_eq_none_iff {configured : Option String} :
    Trait.configuredCredentials? configured = none ↔ NamesNoCredentials configured := by
  rw [Option.eq_none_iff_forall_ne_some]
  simp only [ne_eq, configuredCredentials?_eq_some_iff]
  constructor
  · intro h
    by_contra hnames
    cases configured with
    | none => exact hnames nofun
    | some s => exact h ⟨Text.trim s⟩ ⟨hnames, s, rfl, rfl⟩
  · rintro h c ⟨hnames, -⟩
    exact hnames h

/-! ### Configured traits -/

variable {specs specs' : List TraitSpec} {traits : List Trait}

/-- What is configured as the credentials of a checkout over SSH, if the trait is one. -/
def ssh? : TraitSpec → Option (Option String)
  | .sshCheckout configured => some configured
  | .branchDiscovery _ => none

/-- What the last checkout over SSH is configured with. -/
def lastSsh? (specs : List TraitSpec) : Option (Option String) := (specs.filterMap ssh?).getLast?

/-- The configured traits without checkouts over SSH. -/
def withoutSsh (specs : List TraitSpec) : List TraitSpec := specs.filter fun s => s.ssh?.isNone

theorem filterMap_checkout (h : toTraits specs = .ok traits) :
    traits.filterMap (·.checkout) =
      (specs.filterMap ssh?).map fun c => (Trait.configuredCredentials? c, .ssh) := by
  induction specs generalizing traits with
  | nil =>
    cases h
    rfl
  | cons spec specs ih =>
    obtain ⟨t, ts, ht, hts, rfl⟩ := toTraits_cons_eq_ok_iff.mp h
    obtain ⟨s, rfl, rfl⟩ | ⟨c, rfl, rfl⟩ := toTrait_eq_ok ht
    · -- A discovery of branches says nothing about checkouts, on either side.
      rw [List.filterMap_cons_none rfl, List.filterMap_cons_none rfl, ih hts]
    · have hssh : ssh? (.sshCheckout c) = some c := rfl
      have hcheckout : (Trait.sshCheckout c).checkout =
        some (Trait.configuredCredentials? c, .ssh) := rfl
      rw [List.filterMap_cons_some hcheckout, List.filterMap_cons_some hssh, List.map_cons, ih hts]

/-- Once traits are put together, the replacement that counts is the last one configured. -/
theorem lastCheckout?_eq (h : toTraits specs = .ok traits) :
    Trait.lastCheckout? traits =
      (lastSsh? specs).map fun c => (Trait.configuredCredentials? c, .ssh) := by
  rw [Trait.lastCheckout?, filterMap_checkout h, List.getLast?_map, lastSsh?]

theorem strategies_withoutSsh (specs : List TraitSpec) :
    strategies (withoutSsh specs) = strategies specs := by
  rw [strategies, withoutSsh, List.filterMap_filter, strategies]
  congr 1
  funext s
  cases s <;> rfl

theorem strategyIds_withoutSsh (specs : List TraitSpec) :
    strategyIds (withoutSsh specs) = strategyIds specs := by
  rw [strategyIds, withoutSsh, List.filterMap_filter, strategyIds]
  congr 1
  funext s
  cases s <;> rfl

/-- Configured traits that differ only in checkouts over SSH can be put together alike, and then no
scan can tell them apart. -/
theorem heads_congr_of_withoutSsh (hsame : withoutSsh specs' = withoutSsh specs)
    (h : toTraits specs = .ok traits) :
    ∃ traits', toTraits specs' = .ok traits' ∧
      ∀ (api : Api) (r : Repository), Scan.heads api traits' r = Scan.heads api traits r := by
  have hids : strategyIds specs' = strategyIds specs := by
    rw [← strategyIds_withoutSsh, hsame, strategyIds_withoutSsh]
  have hstrategies : strategies specs' = strategies specs := by
    rw [← strategies_withoutSsh, hsame, strategies_withoutSsh]
  obtain ⟨traits', h'⟩ := exists_toTraits_iff.mpr (hids ▸ exists_toTraits_iff.mp ⟨traits, h⟩)
  refine ⟨traits', h', fun api r => ?_⟩
  -- A scan knows its traits only by the context that they come to.
  have hcontext : DiscoveryContext.ofTraits traits' = DiscoveryContext.ofTraits traits := by
    rw [ofTraits_eq_ofStrategies h', ofTraits_eq_ofStrategies h, hstrategies]
  rw [Scan.heads, Scan.heads, Scan.request, Scan.request, hcontext]

end TraitSpec

namespace Trait

open TraitSpec (NamesNoCredentials lastSsh? withoutSsh)

/-- How a repository is checked out under traits that can be put together. Without a checkout over
SSH among them it is fetched over HTTP, with the credentials that listings use. Else only what the
last such trait is configured with counts: the repository is fetched over SSH, with the credentials
named there, blanks around them removed, or with none, and those of the listings do not matter. So
they are used only where they are named there again. Other traits have no say, and checkouts over
SSH have none in what a scan finds and asks for. -/
theorem resolveCheckout_of_toTraits {specs : List TraitSpec} {traits : List Trait}
    (h : TraitSpec.toTraits specs = .ok traits) (r : Repository)
    (credentialsId : Option CredentialsId) :
    (lastSsh? specs = none →
        r.ChecksOut .http credentialsId (resolveCheckout traits r credentialsId)) ∧
      (∀ configured, lastSsh? specs = some configured →
        (∃ chosen : Option CredentialsId,
          (chosen = none ↔ NamesNoCredentials configured) ∧
          (∀ c, chosen = some c → ∃ s, configured = some s ∧ c.text = Text.trim s) ∧
          r.ChecksOut .ssh chosen (resolveCheckout traits r credentialsId)) ∧
        ∀ other, resolveCheckout traits r other = resolveCheckout traits r credentialsId) ∧
      (∀ specs' traits', TraitSpec.toTraits specs' = .ok traits' →
        lastSsh? specs' = lastSsh? specs →
          resolveCheckout traits' r credentialsId = resolveCheckout traits r credentialsId) ∧
      ∀ specs', withoutSsh specs' = withoutSsh specs →
        ∃ traits', TraitSpec.toTraits specs' = .ok traits' ∧
          ∀ (api : Api) (r : Repository), Scan.heads api traits' r = Scan.heads api traits r := by
  have hlast := TraitSpec.lastCheckout?_eq h
  have hchecksOut := checksOut_resolveCheckout traits r credentialsId
  refine ⟨?_, ?_, ?_, ?_⟩
  · intro hnone
    rw [hlast, hnone] at hchecksOut
    exact hchecksOut
  · intro configured hssh
    rw [hlast, hssh] at hchecksOut
    refine ⟨⟨configuredCredentials? configured, TraitSpec.configuredCredentials?_eq_none_iff, ?_,
      hchecksOut⟩, ?_⟩
    · intro c hc
      exact (TraitSpec.configuredCredentials?_eq_some_iff.mp hc).2
    · -- The replacement leaves nothing of what the checkout started from.
      intro other
      refine resolveCheckout_congr rfl ?_
      rw [hlast, hssh]
      nofun
  · intro specs' traits' h' hsame
    refine resolveCheckout_congr ?_ fun _ => rfl
    rw [hlast, TraitSpec.lastCheckout?_eq h', hsame]
  · intro specs' hsame
    exact TraitSpec.heads_congr_of_withoutSsh hsame h

/-- A repository with two links for SSH. -/
def linkedRepository : Repository :=
  ⟨⟨"team"⟩, ⟨"widget"⟩,
    [⟨.http, "https://host/w.git"⟩, ⟨.ssh, "git@host:w"⟩, ⟨.ssh, "ssh://host/w"⟩]⟩

/-- The last checkout over SSH counts: it names no credentials, and neither those of the one before
it nor those of the listings take their place. Without both a scan finds the same. -/
theorem resolveCheckout_anonymous :
    ∃ traits plain,
      TraitSpec.toTraits [.sshCheckout (some "deploy"), .branchDiscovery 3,
          .sshCheckout (some " ANONYMOUS ")] = .ok traits ∧
        resolveCheckout traits linkedRepository (some ⟨"listing"⟩) =
          .ok ⟨"git@host:w", .ssh, none⟩ ∧
        TraitSpec.toTraits [.branchDiscovery 3] = .ok plain ∧
        ∀ api, Scan.heads api plain linkedRepository = Scan.heads api traits linkedRepository := by
  have hbuild : TraitSpec.toTraits [.sshCheckout (some "deploy"), .branchDiscovery 3,
      .sshCheckout (some " ANONYMOUS ")] = .ok _ := rfl
  obtain ⟨-, hssh, -, hscan⟩ := resolveCheckout_of_toTraits hbuild linkedRepository
    (some ⟨"listing"⟩)
  obtain ⟨⟨chosen, hnone, -, hchecksOut⟩, -⟩ := hssh (some " ANONYMOUS ") rfl
  have hnames : NamesNoCredentials (some " ANONYMOUS ") := by
    rintro _ ⟨⟩
    exact Or.inr (by decide +kernel)
  obtain rfl := hnone.mpr hnames
  obtain ⟨plain, hplain, hheads⟩ := hscan [.branchDiscovery 3] rfl
  refine ⟨_, plain, hbuild, ?_, hplain, fun api => hheads api linkedRepository⟩
  refine (hchecksOut.eq_ok_iff _).mpr ⟨rfl, rfl, [⟨.http, "https://host/w.git"⟩], _, rfl, ?_⟩
  exact List.forall_mem_singleton.mpr (by decide)

end Trait

end HeadScout
