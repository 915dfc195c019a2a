import HeadScout.Proofs.Client.Listing
import HeadScout.Proofs.Webhook.AffectedHeads
import HeadScout.Proofs.Webhook.ChangeEntries

/-!
# What is read is well formed

Names of owners, repositories, refs and mirrors, addresses and hashes are all texts, and their types
do not keep an empty one out: a stored form is read back as it stands. Whatever comes from a
provider is checked on the way in. A name that is empty is refused, or what bears it is passed over,
and so is the name that is left of a ref once the beginning of its full name is gone. A hash that is
empty or stands for no commit is taken as none.

So everything that is read from a body or a page is well formed, whatever the provider sends, and
whatever is made of it is too. A head event in addition comes from somewhere and tells of at least
one change, and of changes of its own type only.

## Main definitions

* `Yields` — whatever a computation succeeds with has a property
* `Identifier.IsGiven`, `NamesCommit` — names and hashes
* `Repository.IsNamed`, `Change.IsWellFormed`, `Push.IsWellFormed`, `GitRef.IsWellFormed`,
  `PullRequest.IsWellFormed`, `HeadEvent.IsWellFormed` — the values that are made of them

## Main results

* `Push.yields_read` — every push that is read is well formed
* `Client.yields_answer` — and so is every listing
* `readings_wellFormed` — and so is every head event that comes of it
-/

namespace HeadScout

open Payload (CloudPush CloudChange CloudRepository ServerPush MirrorSync ServerRepository named
  commit? nullHash serverChange?)

/-! ### Successful computations -/

/-- Whatever the computation succeeds with has the property. -/
def Yields {ε α : Type} (x : Except ε α) (P : α → Prop) : Prop := ∀ a, x = .ok a → P a

namespace Yields

variable {ε ε' α β : Type} {x : Except ε α} {P : α → Prop} {Q : β → Prop}

theorem ok {a : α} (h : P a) : Yields (.ok a : Except ε α) P := by
  rintro _ ⟨⟩
  exact h

theorem error (e : ε) (P : α → Prop) : Yields (.error e : Except ε α) P := by
  rintro _ ⟨⟩

theorem bind {f : α → Except ε β} (hx : Yields x P) (hf : ∀ a, P a → Yields (f a) Q) :
    Yields (x.bind f) Q := by
  cases x with
  | error e => exact error e Q
  | ok a => exact hf a (hx a rfl)

theorem map {f : α → β} (hx : Yields x P) (hf : ∀ a, P a → Q (f a)) : Yields (x.map f) Q := by
  cases x with
  | error e => exact error e Q
  | ok a => exact ok (hf a (hx a rfl))

theorem mapError {f : ε → ε'} (hx : Yields x P) : Yields (x.mapError f) P := by
  cases x with
  | error e => exact error (f e) P
  | ok a => exact ok (hx a rfl)

theorem mapM {f : α → Except ε β} (hf : ∀ a, Yields (f a) Q) (as : List α) :
    Yields (as.mapM f) fun bs => ∀ b ∈ bs, Q b := by
  induction as with
  | nil => exact ok (List.forall_mem_nil _)
  | cons a as ih =>
    rw [List.mapM_cons]
    refine (hf a).bind fun b hb => ih.bind fun bs hbs => ok ?_
    exact List.forall_mem_cons.mpr ⟨hb, hbs⟩

end Yields

/-! ### Names and hashes -/

/-- The text of the identifier is not empty. -/
def Identifier.IsGiven {kind : IdentifierKind} (i : Identifier kind) : Prop := i.text ≠ ""

/-- The hash is given, and it is not the one that stands for no commit. -/
def NamesCommit (c : CommitHash) : Prop := c.IsGiven ∧ c.text ≠ nullHash

theorem Identifier.isGiven_of_ofText? {kind : IdentifierKind} {s : String} {i : Identifier kind}
    (h : ofText? s = some i) : i.IsGiven := by
  obtain ⟨rfl, hne⟩ := ofText?_eq_some_iff.mp h
  exact hne

theorem yields_named {kind : IdentifierKind} (document field name : String) :
    Yields (named document field name : Except PayloadError (Identifier kind))
      Identifier.IsGiven := by
  unfold named
  split
  · exact Yields.ok (Identifier.isGiven_of_ofText? ‹_›)
  · exact Yields.error _ _

theorem namesCommit_of_commit? {hash : Option String} {c : CommitHash} (h : commit? hash = some c) :
    NamesCommit c := by
  obtain ⟨-, hnull, hempty⟩ := Payload.commit?_eq_some_iff.mp h
  exact ⟨hempty, hnull⟩

/-! ### Repositories -/

/-- The repository has an owner and a name. -/
structure Repository.IsNamed (r : Repository) : Prop where
  isGiven_owner : r.owner.IsGiven
  isGiven_name : r.name.IsGiven

theorem Payload.ServerRepository.yields_toRepository (document : String) (r : ServerRepository) :
    Yields (r.toRepository document) Repository.IsNamed := by
  refine (yields_named document "repository.project.key" r.projectKey).bind fun owner howner => ?_
  refine (yields_named document "repository.slug" r.slug).bind fun name hname => ?_
  exact Yields.ok ⟨howner, hname⟩

theorem Payload.CloudRepository.yields_toRepository (document : String) (r : CloudRepository) :
    Yields (r.toRepository document) Repository.IsNamed := by
  unfold toRepository
  -- Both sides of the slash may be empty.
  split
  · exact Yields.error _ _
  · refine (yields_named document "repository.full_name" _).bind fun owner howner => ?_
    refine (yields_named document "repository.full_name" _).bind fun name hname => ?_
    exact Yields.ok ⟨howner, hname⟩

/-! ### Pushes -/

/-- The change has the name of a ref, and its hashes name commits. -/
structure Change.IsWellFormed (c : Change) : Prop where
  isGiven_refName : c.refName.IsGiven
  namesCommit_fromHash : ∀ hash ∈ c.fromHash, NamesCommit hash
  namesCommit_toHash : ∀ hash ∈ c.toHash, NamesCommit hash

/-- The repository, the changes, the last commit and the mirror of the push are well formed. -/
structure Push.IsWellFormed (p : Push) : Prop where
  isNamed_repository : p.repository.IsNamed
  isWellFormed_changes : ∀ c ∈ p.changes, c.IsWellFormed
  namesCommit_headCommit : ∀ hash ∈ p.headCommit, NamesCommit hash
  isGiven_mirrorId : ∀ mirror ∈ p.mirrorId, mirror.IsGiven

theorem forall_mem_none {α : Type} (P : α → Prop) : ∀ a ∈ (none : Option α), P a :=
  fun a h => absurd h (Option.not_mem_none a)

theorem isWellFormed_of_serverChange? {v : Json} {c : Change} (h : serverChange? v = some c) :
    c.IsWellFormed := by
  obtain ⟨entry, -, hentry⟩ := Option.bind_eq_some_iff.mp h
  obtain ⟨name, hname, rfl⟩ := Option.map_eq_some_iff.mp hentry
  exact ⟨Identifier.isGiven_of_ofText? hname, fun _ => namesCommit_of_commit?,
    fun _ => namesCommit_of_commit?⟩

theorem isWellFormed_of_mem_serverChanges {entries : List Json} :
    ∀ c ∈ entries.filterMap serverChange?, c.IsWellFormed := by
  intro c hc
  obtain ⟨v, -, hv⟩ := List.mem_filterMap.mp hc
  exact isWellFormed_of_serverChange? hv

theorem Payload.CloudChange.yields_toChange (c : CloudChange) :
    Yields c.toChange Change.IsWellFormed := by
  have hcommit (state : Option CloudState) :
      ∀ hash ∈ state.bind fun s => commit? s.hash, NamesCommit hash := by
    intro hash hmem
    obtain ⟨s, -, hs⟩ := Option.bind_eq_some_iff.mp hmem
    exact namesCommit_of_commit? hs
  unfold toChange
  -- Without a state on either side there is nothing to name the change after.
  split
  · exact Yields.error _ _
  · refine (yields_named cloudDocument "push.changes.name" _).bind fun name hname => ?_
    exact Yields.ok ⟨hname, hcommit c.old, hcommit c.new⟩

namespace Push

theorem value_ofCloudPush {document : Json} {b : CloudPush}
    (hb : CloudPush.ofJson? document = some b) :
    (ofDocument .push document).run.value =
      ((b.changes.mapM CloudChange.toChange).bind fun changes =>
        (b.repository.toRepository Payload.cloudDocument).map fun repository =>
          .refsChanged ⟨repository, changes, none⟩).mapError .payload := by
  rw [ofDocument, Payload.expect, hb]
  change (ExceptT.adapt WebhookError.payload
    ((liftM b.toEvent : Payload.Reading Push.RefsChanged) >>= fun event =>
      pure (Push.refsChanged event))).run.value = _
  rw [CloudPush.toEvent]
  cases b.changes.mapM CloudChange.toChange with
  | error e => rfl
  | ok changes => cases b.repository.toRepository Payload.cloudDocument <;> rfl

theorem yields_ofDocument (kind : WebhookKind) (document : Json) :
    Yields (ofDocument kind document).run.value IsWellFormed := by
  cases kind with
  | ping => exact Yields.error _ _
  | push =>
    cases hb : CloudPush.ofJson? document with
    | none =>
      rw [ofDocument, Payload.expect, hb]
      exact Yields.error _ _
    | some b =>
      rw [value_ofCloudPush hb]
      refine ((Yields.mapM CloudChange.yields_toChange _).bind fun changes hchanges => ?_).mapError
      refine (b.repository.yields_toRepository _).map fun repository hrepository => ?_
      exact ⟨hrepository, hchanges, forall_mem_none _, forall_mem_none _⟩
  | refsChanged =>
    cases hb : ServerPush.ofJson? document with
    | none =>
      rw [ofDocument, Payload.expect, hb]
      exact Yields.error _ _
    | some b =>
      rw [value_ofServerPush hb]
      refine ((b.repository.yields_toRepository _).map fun repository hrepository => ?_).mapError
      exact ⟨hrepository, isWellFormed_of_mem_serverChanges, fun _ => namesCommit_of_commit?,
        forall_mem_none _⟩
  | mirrorSynchronized =>
    cases hb : MirrorSync.ofJson? document with
    | none =>
      rw [ofDocument, Payload.expect, hb]
      exact Yields.error _ _
    | some b =>
      rw [value_ofMirrorSync hb]
      refine ((b.repository.yields_toRepository _).bind fun repository hrepository => ?_).mapError
      refine (yields_named _ _ _).map fun mirrorId hmirror =>
        ⟨hrepository, ?_, forall_mem_none _, ?_⟩
      · change ∀ c ∈ if b.refLimitExceeded then [] else _, Change.IsWellFormed c
        split_ifs
        · exact List.forall_mem_nil _
        · exact isWellFormed_of_mem_serverChanges
      · rintro _ ⟨⟩
        exact hmirror

/-- Every push that is read is well formed. -/
theorem yields_read (kind : WebhookKind) (body : String) :
    Yields (read kind body).run.value IsWellFormed := by
  unfold read
  split
  · exact Yields.error _ _
  · exact yields_ofDocument _ _
  · exact Yields.error _ _

end Push

/-! ### Listings -/

/-- The ref has a name, and its hash names a commit. -/
structure GitRef.IsWellFormed (r : GitRef) : Prop where
  isGiven_name : r.name.IsGiven
  namesCommit_commit : ∀ hash ∈ r.commit, NamesCommit hash

/-- The pull request comes from a named ref of a named repository and goes into a named branch, and
its hash names a commit. -/
structure PullRequest.IsWellFormed (p : PullRequest) : Prop where
  isNamed_repository : p.source.repository.IsNamed
  isGiven_branch : p.source.branch.IsGiven
  namesCommit_commit : ∀ hash ∈ p.source.commit, NamesCommit hash
  isGiven_destination : p.destination.IsGiven

/-- Everything that is listed is well formed. -/
def Listing.IsWellFormed : (q : Listing) → q.Answer → Prop
  | .repositories _, rs => ∀ r ∈ rs, r.IsNamed
  | .branches .., rs => ∀ r ∈ rs, r.IsWellFormed
  | .tags .., rs => ∀ r ∈ rs, r.IsWellFormed
  | .pullRequests .., ps => ∀ p ∈ ps, p.IsWellFormed

theorem isWellFormed_of_keptRef {name : String} {hash : Option String} :
    ∀ r ∈ keptRef name hash, r.IsWellFormed := by
  intro r hr
  unfold keptRef at hr
  split_ifs at hr with hname
  · cases hr
  · obtain rfl := Option.some.inj hr
    exact ⟨hname, fun _ => namesCommit_of_commit?⟩

theorem yields_keptPullRequest (id : UInt64) (title : String)
    {repository : Option (Except PayloadError Repository)} (branch : String) (kind : RefKind)
    (hash : Option String) (destination : String)
    (h : ∀ r ∈ repository, Yields r Repository.IsNamed) :
    Yields (keptPullRequest id title repository branch kind hash destination)
      fun kept => ∀ p ∈ kept, p.IsWellFormed := by
  unfold keptPullRequest
  -- A pull request is passed over if its source is gone or one of its branches has no name.
  split
  · exact Yields.ok (forall_mem_none _)
  · split_ifs with hnames
    · exact Yields.ok (forall_mem_none _)
    · refine (h _ rfl).map fun found hfound => ?_
      rintro _ ⟨⟩
      rw [not_or] at hnames
      exact ⟨hfound, hnames.1, fun _ => namesCommit_of_commit?, hnames.2⟩

section Forms

variable {β : Type} {P : β → Prop}

/-- What becomes of entries has a property if what becomes of each of them has it. -/
theorem ListingForm.yields_collect {form : ListingForm β}
    (h : ∀ e, Yields (form.keep e) fun kept => ∀ b ∈ kept, P b) (es : List form.Entry) :
    Yields (form.collect es) fun bs => ∀ b ∈ bs, P b := by
  rw [collect_eq]
  refine (Yields.mapM h es).map fun kept hkept => ?_
  intro b hb
  obtain ⟨b', hb', rfl⟩ := List.mem_filterMap.mp hb
  exact hkept _ hb' b rfl

theorem repositoryForm_yields_keep (product : Product) (e : (repositoryForm product).Entry) :
    Yields ((repositoryForm product).keep e) fun kept => ∀ r ∈ kept, r.IsNamed := by
  cases product with
  | cloud =>
    refine (CloudRepository.yields_toRepository _ e).map fun r hr => ?_
    rintro _ ⟨⟩
    exact hr
  | server =>
    refine (ServerRepository.yields_toRepository _ e).map fun r hr => ?_
    rintro _ ⟨⟩
    exact hr

theorem refForm_yields_keep (product : Product) (e : (refForm product).Entry) :
    Yields ((refForm product).keep e) fun kept => ∀ r ∈ kept, r.IsWellFormed := by
  cases product <;> exact Yields.ok isWellFormed_of_keptRef

theorem pullRequestForm_yields_keep (product : Product) (e : (pullRequestForm product).Entry) :
    Yields ((pullRequestForm product).keep e) fun kept => ∀ p ∈ kept, p.IsWellFormed := by
  cases product with
  | cloud =>
    refine yields_keptPullRequest _ _ _ _ _ _ fun found hfound => ?_
    obtain ⟨r, -, rfl⟩ := Option.map_eq_some_iff.mp hfound
    exact r.yields_toRepository _
  | server =>
    refine yields_keptPullRequest _ _ _ _ _ _ fun found hfound => ?_
    obtain ⟨r, -, rfl⟩ := Option.map_eq_some_iff.mp hfound
    exact r.yields_toRepository _

namespace Client

theorem yields_listing (c : Client) (n : Network) (form : ListingForm β) (url : String)
    {listing : Answering (List β)}
    (hlisting : listing = (do
      let es ← c.entries form url n
      convert url (form.collect es)))
    (h : ∀ e, Yields (form.keep e) fun kept => ∀ b ∈ kept, P b) :
    Yields listing.run.value fun bs => ∀ b ∈ bs, P b := by
  -- Whatever the entries are, the network decides only which of them there are.
  have hentries : Yields (c.entries form url n).run.value fun _ => True := fun _ _ => trivial
  rw [hlisting, Traced.value_run_bind]
  refine hentries.bind fun es _ => ?_
  rw [value_convert]
  exact (form.yields_collect h es).mapError

/-- Every listing is well formed. -/
theorem yields_answer (c : Client) (n : Network) (q : Listing) :
    Yields ((c.api n).answer q).run.value q.IsWellFormed := by
  cases q with
  | repositories owner =>
    exact c.yields_listing n _ _ (c.repositories_eq n owner) (repositoryForm_yields_keep _)
  | branches owner repository =>
    exact c.yields_listing n _ _ (c.refs_eq n .branch owner repository) (refForm_yields_keep _)
  | tags owner repository =>
    exact c.yields_listing n _ _ (c.refs_eq n .tag owner repository) (refForm_yields_keep _)
  | pullRequests owner repository =>
    exact c.yields_listing n _ _ (c.pullRequests_eq n owner repository)
      (pullRequestForm_yields_keep _)

end Client

end Forms

/-! ### Head events -/

/-- The event comes from somewhere, tells of at least one change, and of changes of its own type
only. What it tells is as well formed as the push that it is made of. -/
structure HeadEvent.IsWellFormed (e : HeadEvent) : Prop where
  isGiven_serverUrl : e.serverUrl.IsGiven
  changes_ne_nil : e.changes ≠ []
  eventType?_changes : ∀ c ∈ e.changes, c.eventType? = some e.eventType
  isNamed_repository : e.repository.IsNamed
  isWellFormed_changes : ∀ c ∈ e.changes, c.IsWellFormed
  namesCommit_headCommit : ∀ hash ∈ e.headCommit, NamesCommit hash
  isGiven_mirrorId : ∀ mirror ∈ e.mirrorId, mirror.IsGiven

theorem Incoming.isGiven_of_sender? {i : Incoming} {url : ServerUrl} (h : i.sender? = some url) :
    url.IsGiven := by
  unfold sender? at h
  split_ifs at h
  · obtain rfl := Option.some.inj h
    rw [Identifier.IsGiven]
    decide
  · obtain ⟨text, htext, rfl⟩ := Option.map_eq_some_iff.mp h
    obtain ⟨-, hne⟩ := Option.filter_eq_some_iff.mp htext
    change text ≠ ""
    exact of_decide_eq_true hne

namespace Processor

variable {p : Processor} {config : WebhookConfig} {e : HeadEvent}

theorem isWellFormed_of_reads? {i : Incoming} {url : ServerUrl} {push : Push}
    (h : p.reads? i = some (url, push)) : url.IsGiven ∧ push.IsWellFormed := by
  obtain ⟨-, hsender, body, -, -, hread⟩ := reads?_eq_some_iff.mp h
  refine ⟨Incoming.isGiven_of_sender? hsender, ?_⟩
  cases hvalue : (Push.read i.kind body).run.value with
  | error cause =>
    rw [hvalue] at hread
    cases hread
  | ok found =>
    rw [hvalue] at hread
    obtain rfl := Option.some.inj hread
    exact Push.yields_read i.kind body found hvalue

/-- The events of one delivery are well formed. -/
theorem isWellFormed_of_mem_process {stamp : Stamp} {i : Incoming}
    (he : e ∈ (Effect.events (p.process config stamp i)).map (·.1)) : e.IsWellFormed := by
  obtain ⟨url, push, t, hread, ht, rfl⟩ := exists_of_mem_events he
  obtain ⟨hurl, hpush⟩ := isWellFormed_of_reads? hread
  -- The changes of the event are those of the push that have its type.
  have hmem : ∀ c ∈ ChangeGroups.ofType t push.changes,
      c ∈ push.changes ∧ c.eventType? = some t := by
    intro c hc
    obtain ⟨hc, htype⟩ := List.mem_filter.mp hc
    exact ⟨hc, of_decide_eq_true htype⟩
  exact {
    isGiven_serverUrl := hurl
    changes_ne_nil := ChangeGroups.ofType_ne_nil_iff.mpr ht
    eventType?_changes := fun c hc => (hmem c hc).2
    isNamed_repository := hpush.isNamed_repository
    isWellFormed_changes := fun c hc => hpush.isWellFormed_changes c (hmem c hc).1
    namesCommit_headCommit := hpush.namesCommit_headCommit
    isGiven_mirrorId := hpush.isGiven_mirrorId }

end Processor

/-- Everything that is read is well formed, whatever a provider sends: the push of any body of any
kind, every listing of any client over any network, and every head event of any run of
deliveries. -/
theorem readings_wellFormed :
    (∀ (kind : WebhookKind) (body : String),
        Yields (Push.read kind body).run.value Push.IsWellFormed) ∧
      (∀ (c : Client) (n : Network) (q : Listing),
        Yields ((c.api n).answer q).run.value q.IsWellFormed) ∧
      ∀ (p : Processor) (config : WebhookConfig) (ds : List (Stamp × Incoming)),
        ∀ e ∈ (Effect.events (p.run config ds).steps).map (·.1), e.IsWellFormed := by
  refine ⟨Push.yields_read, Client.yields_answer, ?_⟩
  intro p config ds e he
  obtain ⟨d, -, he⟩ := Processor.exists_mem_of_mem_run he
  exact Processor.isWellFormed_of_mem_process he

/-- A push that moves a branch and removes a tag is well formed, and so are both events that come of
it. Of two pages of branches, one of which has no name, those that are listed are well formed. -/
theorem readings_wellFormed_repeatedDelivery :
    Processor.repeatedPush.IsWellFormed ∧
      (∃ main dev, (Client.sampleClient.refs Client.samplePages .branch ⟨"team"⟩
          ⟨"widget"⟩).run.value = .ok [main, dev] ∧ main.IsWellFormed ∧ dev.IsWellFormed) ∧
      ∃ updated removed, (Effect.events (Processor.dispatcher.run .standard
          [(⟨.ofNat 0, fun _ => ⟨0, 0, 0⟩⟩, Processor.repeatedDelivery)]).steps).map (·.1) =
            [updated, removed] ∧ updated.IsWellFormed ∧ removed.IsWellFormed := by
  obtain ⟨hpush, hlisting, hevents⟩ := readings_wellFormed
  have hread : (Push.read .push Processor.repeatedBody).run.value = .ok Processor.repeatedPush := by
    rw [Push.read_of_parse? (by decide) Processor.parse?_repeatedBody]
    rfl
  refine ⟨hpush .push Processor.repeatedBody Processor.repeatedPush hread, ?_, ?_⟩
  · obtain ⟨hvalue, -⟩ := Client.listing_of_serves Client.serves_samplePages
      (Client.sampleClient.refs_eq Client.samplePages .branch ⟨"team"⟩ ⟨"widget"⟩)
    have hrefs := hlisting Client.sampleClient Client.samplePages
      (.branches ⟨"team"⟩ ⟨"widget"⟩) _ hvalue
    exact ⟨_, _, hvalue, hrefs _ (.head _), hrefs _ (.tail _ (.head _))⟩
  · have hall := hevents .dispatcher .standard
      [(⟨.ofNat 0, fun _ => ⟨0, 0, 0⟩⟩, Processor.repeatedDelivery)]
    rw [Processor.steps_run, List.flatMap_singleton,
      Processor.events_process _ _ _ Processor.reads?_repeatedDelivery rfl (List.cons_ne_nil _ _)]
      at hall ⊢
    exact ⟨_, _, rfl, hall _ (.head _), hall _ (.tail _ (.head _))⟩

end HeadScout
