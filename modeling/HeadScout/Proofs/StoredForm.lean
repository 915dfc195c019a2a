import HeadScout.Discovery.TraitSpec
import HeadScout.Proofs.DeliveryId
import HeadScout.Proofs.Json.Writing
import HeadScout.Proofs.Timestamp
import HeadScout.Proofs.Webhook.AffectedHeads

/-!
# Stored forms are read back

What is stored as text is read back as it was. There are values that have no stored form of their
own: a tag of a change that is kept as unknown although it has a meaning is stored as the tag with
that meaning. No text is read as such a value, and no processor makes one.

## Main definitions

* `StoredForm` — how values are written as documents and read from them
* `StoredForm.encode`, `StoredForm.decode?` — the same with texts
* `StoredForm.RoundTrips` — the proper values are those that are read back

## Main results

* `StoredForm.RoundTrips.of_json` — round trips of documents are round trips of texts
* `StoredForm.all_round_trip` — every stored form is read back, and so are the events that are
  emitted
-/

namespace HeadScout

/-- How values of a type are written as documents and read from them. -/
structure StoredForm (α : Type) where
  write : α → Json
  read? : Json → Option α

namespace StoredForm

variable {α : Type}

/-- The text that a value is stored as. -/
def encode (f : StoredForm α) (a : α) : String := (f.write a).render

/-- The value of a stored text. -/
def decode? (f : StoredForm α) (s : String) : Option α := (Json.parse? s).bind f.read?

/-- Proper values are read back from their text. Every text that is read at all is read as a proper
value, and then the text of that value is read as the same value. So two values that are read have
different texts if they are different. -/
structure RoundTrips (f : StoredForm α) (IsProper : α → Prop) : Prop where
  decode_encode : ∀ a, IsProper a → f.decode? (f.encode a) = some a
  isProper : ∀ s a, f.decode? s = some a → IsProper a
  decode_again : ∀ s a, f.decode? s = some a → f.decode? (f.encode a) = some a
  encode_injective : ∀ s t a b, f.decode? s = some a → f.decode? t = some b →
    f.encode a = f.encode b → a = b

/-- A form that is read back from its documents is read back from their texts, if the documents can
be printed and read back. -/
theorem RoundTrips.of_json {f : StoredForm α} {IsProper : α → Prop}
    (hwritten : ∀ a, (f.write a).HasWrittenNumbers)
    (hread : ∀ a, IsProper a → f.read? (f.write a) = some a)
    (hproper : ∀ v a, f.read? v = some a → IsProper a) : f.RoundTrips IsProper := by
  have hencode : ∀ a, IsProper a → f.decode? (f.encode a) = some a := by
    intro a ha
    rw [decode?, encode, Json.parse?_render (hwritten a), Option.bind_some, hread a ha]
  have hdecode : ∀ s a, f.decode? s = some a → IsProper a := by
    intro s a h
    obtain ⟨v, -, hv⟩ := Option.bind_eq_some_iff.mp h
    exact hproper v a hv
  refine ⟨hencode, hdecode, fun s a h => hencode a (hdecode s a h), ?_⟩
  -- Reading the common text gives back both values.
  intro s t a b ha hb htexts
  have hback := hencode a (hdecode s a ha)
  rw [htexts, hencode b (hdecode t b hb)] at hback
  exact (Option.some.inj hback).symm

/-- The same where every value is proper. -/
theorem RoundTrips.of_json_forall {f : StoredForm α}
    (hwritten : ∀ a, (f.write a).HasWrittenNumbers)
    (hread : ∀ a, f.read? (f.write a) = some a) : f.RoundTrips fun _ => True :=
  .of_json hwritten (fun a _ => hread a) fun _ _ _ => trivial

end StoredForm

open Json (hasWrittenNumbers_text hasWrittenNumbers_orNull hasWrittenNumbers_array
  hasWrittenNumbers_record members?_record tagged?_record optional_eq nullable? nullable?_orNull
  list?_map)

/-! ### Names -/

namespace Identifier

variable {kind : IdentifierKind}

@[simp] theorem hasWrittenNumbers_toJson (i : Identifier kind) : i.toJson.HasWrittenNumbers :=
  hasWrittenNumbers_text i.text

@[simp] theorem isStorable_toJson (i : Identifier kind) (depth : Nat) :
    i.toJson.isStorable depth = true := rfl

@[simp] theorem nullable?_orNull_toJson (o : Option (Identifier kind)) :
    nullable? ofJson? (.orNull toJson o) = some o := nullable?_orNull (fun _ => rfl) o

end Identifier

/-! ### Repositories and refs -/

namespace CloneLink

theorem ofJson?_toJson (l : CloneLink) : ofJson? l.toJson = some l := by
  rw [ofJson?, toJson, members?_record rfl (by decide)]
  simp [Json.Members.required, Json.Members.get?]

@[simp] theorem hasWrittenNumbers_toJson (l : CloneLink) : l.toJson.HasWrittenNumbers := by
  refine hasWrittenNumbers_record ?_
  simp [Protocol.toJson]

end CloneLink

namespace Repository

theorem ofJson?_toJson (r : Repository) : ofJson? r.toJson = some r := by
  rw [ofJson?, toJson, members?_record rfl (by decide)]
  simp [Json.Members.required, Json.Members.get?, list?_map fun l _ => CloneLink.ofJson?_toJson l]

@[simp] theorem hasWrittenNumbers_toJson (r : Repository) : r.toJson.HasWrittenNumbers := by
  refine hasWrittenNumbers_record ?_
  simp [hasWrittenNumbers_array]

end Repository

namespace GitRef

theorem ofJson?_toJson (r : GitRef) : ofJson? r.toJson = some r := by
  rw [ofJson?, toJson, members?_record rfl (by decide)]
  simp [Json.Members.required, optional_eq, Json.Members.get?]

@[simp] theorem hasWrittenNumbers_toJson (r : GitRef) : r.toJson.HasWrittenNumbers := by
  refine hasWrittenNumbers_record ?_
  simp [hasWrittenNumbers_orNull]

end GitRef

namespace Revision

theorem ofJson?_toJson (r : Revision) : ofJson? r.toJson = some r := by
  rw [ofJson?, toJson, members?_record rfl (by decide)]
  simp [Json.Members.required, Json.Members.get?]

@[simp] theorem hasWrittenNumbers_toJson (r : Revision) : r.toJson.HasWrittenNumbers := by
  refine hasWrittenNumbers_record ?_
  simp

end Revision

namespace PullRequest

theorem Source.ofJson?_toJson (s : Source) : ofJson? s.toJson = some s := by
  rw [ofJson?, toJson, members?_record rfl (by decide)]
  simp [Json.Members.required, optional_eq, Json.Members.get?, Repository.ofJson?_toJson]

theorem ofJson?_toJson (p : PullRequest) : ofJson? p.toJson = some p := by
  rw [ofJson?, toJson, members?_record rfl (by decide)]
  simp [Json.Members.required, Json.Members.get?, Source.ofJson?_toJson]

@[simp] theorem Source.hasWrittenNumbers_toJson (s : Source) : s.toJson.HasWrittenNumbers := by
  refine hasWrittenNumbers_record ?_
  simp [hasWrittenNumbers_orNull, RefKind.toJson]

@[simp] theorem hasWrittenNumbers_toJson (p : PullRequest) : p.toJson.HasWrittenNumbers := by
  refine hasWrittenNumbers_record ?_
  simp [PullRequestId.toJson]

end PullRequest

/-! ### Changes and events -/

theorem DeliveryId.ofJson?_toJson (i : DeliveryId) : ofJson? i.toJson = some i := by
  change (some i.render).bind read? = some i
  rw [Option.bind_some, i.read?_render]

namespace Timestamp

theorem ofJson?_toJson {t : Timestamp} (h : t.IsValid) : ofJson? t.toJson = some t := by
  change (some t.render).bind read? = some t
  rw [Option.bind_some, read?_render h]

theorem isValid_of_ofJson? {v : Json} {t : Timestamp} (h : ofJson? v = some t) : t.IsValid := by
  obtain ⟨s, -, hs⟩ := Option.bind_eq_some_iff.mp h
  exact isValid_of_read? hs

end Timestamp

namespace ChangeTag

theorem ofJson?_toJson {t : ChangeTag} (h : t.IsCanonical) : ofJson? t.toJson = some t := by
  rw [ofJson?, toJson]
  exact congrArg some (ofText_text h)

theorem isCanonical_of_ofJson? {v : Json} {t : ChangeTag} (h : ofJson? v = some t) :
    t.IsCanonical := by
  obtain ⟨s, -, rfl⟩ := Option.map_eq_some_iff.mp h
  exact isCanonical_ofText s

end ChangeTag

namespace Change

theorem ofJson?_toJson {c : Change} (h : c.tag.IsCanonical) : ofJson? c.toJson = some c := by
  rw [ofJson?, toJson, members?_record rfl (by decide)]
  simp [Json.Members.required, optional_eq, Json.Members.get?, ChangeTag.ofJson?_toJson h]

theorem isCanonical_of_ofJson? {v : Json} {c : Change} (h : ofJson? v = some c) :
    c.tag.IsCanonical := by
  simp only [ofJson?, bind, Option.bind_eq_some_iff, pure, Option.some.injEq] at h
  obtain ⟨ms, -, kind, -, name, -, tag, htag, fromHash, -, toHash, -, rfl⟩ := h
  obtain ⟨w, -, hw⟩ := Option.bind_eq_some_iff.mp htag
  exact ChangeTag.isCanonical_of_ofJson? hw

@[simp] theorem hasWrittenNumbers_toJson (c : Change) : c.toJson.HasWrittenNumbers := by
  refine hasWrittenNumbers_record ?_
  simp [hasWrittenNumbers_orNull, RefKind.toJson, ChangeTag.toJson]

end Change

namespace HeadEvent

/-- The tags of the changes are kept by their meaning, and the event was received at a time that a
clock can show. -/
structure IsProper (e : HeadEvent) : Prop where
  isCanonical : ∀ c ∈ e.changes, c.tag.IsCanonical
  isValid : e.receivedAt.IsValid

theorem ofJson?_toJson {e : HeadEvent} (h : e.IsProper) : ofJson? e.toJson = some e := by
  have hchanges := list?_map fun c hc => Change.ofJson?_toJson (h.isCanonical c hc)
  rw [ofJson?, toJson, members?_record rfl (by decide)]
  simp [members, Json.Members.required, optional_eq, Json.Members.get?, hchanges,
    DeliveryId.ofJson?_toJson, Timestamp.ofJson?_toJson h.isValid, Repository.ofJson?_toJson]

theorem isProper_of_ofJson? {v : Json} {e : HeadEvent} (h : ofJson? v = some e) : e.IsProper := by
  simp only [ofJson?, bind, Option.bind_eq_some_iff, pure, Option.some.injEq] at h
  obtain ⟨ms, -, id, -, url, -, product, -, type, -, changes, hchanges, origin, -, repository, -,
    commit, -, mirror, -, time, htime, rfl⟩ := h
  obtain ⟨items, -, hitems⟩ := Option.bind_eq_some_iff.mp hchanges
  obtain ⟨item, -, hitem⟩ := Option.bind_eq_some_iff.mp htime
  exact ⟨Json.list?_forall (fun _ _ => Change.isCanonical_of_ofJson?) hitems,
    Timestamp.isValid_of_ofJson? hitem⟩

theorem hasWrittenNumbers_toJson (e : HeadEvent) : e.toJson.HasWrittenNumbers := by
  refine hasWrittenNumbers_record ?_
  simp [members, hasWrittenNumbers_orNull, hasWrittenNumbers_array, DeliveryId.toJson,
    Product.toJson, EventType.toJson, Timestamp.toJson]

end HeadEvent

/-! ### Tagged forms -/

@[simp] theorem PullRequestId.isStorable_toJson (i : PullRequestId) (depth : Nat) :
    i.toJson.isStorable depth = true := Json.isStorable_nat i.value.toNat_lt_size depth

theorem RefKind.ofName?_of_keptVariant? (k : RefKind) :
    k.toJson.keptVariant?.bind ofName? = some k := by cases k <;> rfl

namespace Head

theorem ofJson?_toJson (h : Head) : ofJson? h.toJson = some h := by
  cases h with
  | branch n | tag n =>
    rw [ofJson?, toJson, tagged?_record (by simp) (by simp)]
    simp only [bind, Option.bind_some]
    rw [members?_record rfl (by decide)]
    rfl
  | pullRequest h =>
    have hread : pullRequestOfJson? (.record [("name", .text h.name), ("id", h.id.toJson),
        ("source_owner", h.sourceOwner.toJson), ("source_repository", h.sourceRepository.toJson),
        ("source_branch", h.sourceBranch.toJson),
        ("source_branch_type", h.sourceBranchKind.toJson),
        ("target_branch", h.targetBranch.toJson)]) = some h := by
      rw [pullRequestOfJson?, members?_record rfl (by decide)]
      simp [Json.Members.required, Json.Members.get?, RefKind.ofName?_of_keptVariant?]
    rw [ofJson?, toJson, tagged?_record (by simp) (by simp [RefKind.toJson])]
    simp only [bind, Option.bind_some, hread]
    rfl

@[simp] theorem hasWrittenNumbers_toJson (h : Head) : h.toJson.HasWrittenNumbers := by
  cases h <;> refine hasWrittenNumbers_record ?_ <;>
    simp [PullRequestId.toJson, RefKind.toJson]

end Head

namespace TraitSpec

theorem ofJson?_toJson (s : TraitSpec) : ofJson? s.toJson = some s := by
  cases s with
  | branchDiscovery id =>
    have hid : (Json.nat id.toNat).natural? UInt8.size = some id.toNat := by
      simp [Json.nat, Json.natural?, Option.filter, id.toNat_lt_size]
    have hlt : id.toNat < UInt64.size := Nat.lt_trans id.toNat_lt_size (by decide)
    rw [ofJson?, toJson, tagged?_record (by simp) (by simp [Json.isStorable_nat hlt])]
    simp only [bind, Option.bind_some]
    rw [members?_record rfl (by decide)]
    simp [Json.Members.required, Json.Members.get?, hid]
  | sshCheckout credentials =>
    have hstorable : (Json.orNull .text credentials).isStorable 2 = true := by
      cases credentials <;> rfl
    have hread : nullable? Json.text? (.orNull .text credentials) = some credentials :=
      nullable?_orNull (fun _ => rfl) credentials
    rw [ofJson?, toJson, tagged?_record (by simp) (by simp [hstorable])]
    simp only [bind, Option.bind_some]
    rw [members?_record rfl (by decide)]
    simp [optional_eq, Json.Members.get?, hread]

@[simp] theorem hasWrittenNumbers_toJson (s : TraitSpec) : s.toJson.HasWrittenNumbers := by
  cases s <;> refine hasWrittenNumbers_record ?_ <;>
    simp [hasWrittenNumbers_orNull]

end TraitSpec

/-! ### Every stored form -/

def Repository.storedForm : StoredForm Repository := ⟨toJson, ofJson?⟩

def CloneLink.storedForm : StoredForm CloneLink := ⟨toJson, ofJson?⟩

def Change.storedForm : StoredForm Change := ⟨toJson, ofJson?⟩

def ChangeTag.storedForm : StoredForm ChangeTag := ⟨toJson, ofJson?⟩

def GitRef.storedForm : StoredForm GitRef := ⟨toJson, ofJson?⟩

def Revision.storedForm : StoredForm Revision := ⟨toJson, ofJson?⟩

def PullRequest.storedForm : StoredForm PullRequest := ⟨toJson, ofJson?⟩

def Head.storedForm : StoredForm Head := ⟨toJson, ofJson?⟩

def HeadEvent.storedForm : StoredForm HeadEvent := ⟨toJson, ofJson?⟩

/-- Traits are stored as a list. -/
def TraitSpec.storedForm : StoredForm (List TraitSpec) :=
  ⟨fun ts => .array (ts.map toJson), listOfJson?⟩

theorem HeadEvent.roundTrips_storedForm : storedForm.RoundTrips IsProper :=
  .of_json hasWrittenNumbers_toJson (fun _ => ofJson?_toJson) fun _ _ => isProper_of_ofJson?

theorem TraitSpec.roundTrips_storedForm : storedForm.RoundTrips fun _ => True := by
  refine .of_json_forall (fun ts => hasWrittenNumbers_array ?_) fun ts => ?_
  · rw [List.forall_mem_map]
    exact fun t _ => t.hasWrittenNumbers_toJson
  · exact list?_map fun t _ => t.ofJson?_toJson

/-! ### Emitted events -/

namespace ChangeGroups

/-- Changes that belong to a group have a tag with a meaning. -/
theorem isCanonical_of_mem_ofType {t : EventType} {cs : List Change} {c : Change}
    (h : c ∈ ofType t cs) : c.tag.IsCanonical := by
  have htype : c.tag.eventType? = some t := of_decide_eq_true (List.mem_filter.mp h).2
  intro s hs
  rw [hs] at htype
  cases htype

end ChangeGroups

namespace Processor

variable {p : Processor} {config : WebhookConfig} {e : HeadEvent}

/-- The events of one delivery are proper. -/
theorem isProper_of_mem_process {stamp : Stamp} {i : Incoming}
    (hclock : ∀ t, (stamp.time t).IsValid)
    (he : e ∈ (Effect.events (p.process config stamp i)).map (·.1)) : e.IsProper := by
  obtain ⟨url, push, t, -, -, rfl⟩ := exists_of_mem_events he
  exact ⟨fun c => ChangeGroups.isCanonical_of_mem_ofType, hclock t⟩

/-- The events of a run of deliveries are proper. -/
theorem isProper_of_mem_run {ds : List (Stamp × Incoming)}
    (hclock : ∀ d ∈ ds, ∀ t, (d.1.time t).IsValid)
    (he : e ∈ (Effect.events (p.run config ds).steps).map (·.1)) : e.IsProper := by
  obtain ⟨d, hd, he⟩ := exists_mem_of_mem_run he
  exact isProper_of_mem_process (hclock d hd) he

end Processor

namespace StoredForm

/-- Every stored form is read back from its text. The only values that are not are tags kept as
unknown although they have a meaning, changes and events with such tags, and events received at
times that no clock shows; and no text is read as one of these. Deliveries at times that a clock
shows lead only to events that are read back. -/
theorem all_round_trip :
    Repository.storedForm.RoundTrips (fun _ => True) ∧
      CloneLink.storedForm.RoundTrips (fun _ => True) ∧
      Change.storedForm.RoundTrips (fun c => c.tag.IsCanonical) ∧
      ChangeTag.storedForm.RoundTrips ChangeTag.IsCanonical ∧
      GitRef.storedForm.RoundTrips (fun _ => True) ∧
      Revision.storedForm.RoundTrips (fun _ => True) ∧
      PullRequest.storedForm.RoundTrips (fun _ => True) ∧
      Head.storedForm.RoundTrips (fun _ => True) ∧
      HeadEvent.storedForm.RoundTrips HeadEvent.IsProper ∧
      TraitSpec.storedForm.RoundTrips (fun _ => True) ∧
      ∀ (p : Processor) (config : WebhookConfig) (ds : List (Stamp × Incoming)),
        (∀ d ∈ ds, ∀ t, (d.1.time t).IsValid) →
        ∀ e ∈ (Effect.events (p.run config ds).steps).map (·.1),
          HeadEvent.storedForm.decode? (HeadEvent.storedForm.encode e) = some e := by
  refine ⟨?_, ?_, ?_, ?_, ?_, ?_, ?_, ?_, HeadEvent.roundTrips_storedForm,
    TraitSpec.roundTrips_storedForm, ?_⟩
  · exact .of_json_forall Repository.hasWrittenNumbers_toJson Repository.ofJson?_toJson
  · exact .of_json_forall CloneLink.hasWrittenNumbers_toJson CloneLink.ofJson?_toJson
  · exact .of_json Change.hasWrittenNumbers_toJson (fun _ => Change.ofJson?_toJson)
      fun _ _ => Change.isCanonical_of_ofJson?
  · exact .of_json (fun t => hasWrittenNumbers_text t.text) (fun _ => ChangeTag.ofJson?_toJson)
      fun _ _ => ChangeTag.isCanonical_of_ofJson?
  · exact .of_json_forall GitRef.hasWrittenNumbers_toJson GitRef.ofJson?_toJson
  · exact .of_json_forall Revision.hasWrittenNumbers_toJson Revision.ofJson?_toJson
  · exact .of_json_forall PullRequest.hasWrittenNumbers_toJson PullRequest.ofJson?_toJson
  · exact .of_json_forall Head.hasWrittenNumbers_toJson Head.ofJson?_toJson
  · intro p config ds hclock e he
    exact HeadEvent.roundTrips_storedForm.decode_encode e (Processor.isProper_of_mem_run hclock he)

/-- A change whose tag has no meaning. -/
def movedChange : Change := ⟨.branch, ⟨"m"⟩, .unknown "MOVE", none, some ⟨"a"⟩⟩

/-- The change is read back, and so are both events of a push that moves a branch and removes a tag
in the first second of 1970. -/
theorem all_round_trip_repeatedDelivery :
    Change.storedForm.decode? (Change.storedForm.encode movedChange) = some movedChange ∧
      ∃ first second, (Effect.events (Processor.dispatcher.run .standard
          [(⟨.ofNat 0, fun _ => ⟨0, 0, 0⟩⟩, Processor.repeatedDelivery)]).steps).map (·.1) =
            [first, second] ∧
        HeadEvent.storedForm.decode? (HeadEvent.storedForm.encode first) = some first ∧
        HeadEvent.storedForm.decode? (HeadEvent.storedForm.encode second) = some second := by
  obtain ⟨-, -, hchange, -, -, -, -, -, -, -, hevents⟩ := all_round_trip
  have hcanonical : movedChange.tag.IsCanonical := by
    rintro _ ⟨⟩
    exact ⟨by decide, by decide, by decide⟩
  have hclock : (⟨0, 0, 0⟩ : Timestamp).IsValid :=
    ⟨by decide, .inl (by decide), by decide +kernel⟩
  refine ⟨hchange.decode_encode movedChange hcanonical, ?_⟩
  have hback := hevents .dispatcher .standard
    [(⟨.ofNat 0, fun _ => ⟨0, 0, 0⟩⟩, Processor.repeatedDelivery)] ?_
  · rw [Processor.steps_run, List.flatMap_singleton,
      Processor.events_process _ _ _ Processor.reads?_repeatedDelivery rfl (List.cons_ne_nil _ _)]
      at hback ⊢
    refine ⟨_, _, rfl, hback _ (.head _), hback _ (.tail _ (.head _))⟩
  · intro d hd _
    cases List.mem_singleton.mp hd
    exact hclock

end StoredForm

end HeadScout
