import HeadScout.Proofs.Json.Lexing
import HeadScout.Proofs.Json.Record
import HeadScout.Proofs.Json.Storable
import HeadScout.Proofs.Webhook.Processing

/-!
# Reports with too many changes

A mirror that has caught up with more changes than it lists says so, and the repository is then
indexed anew, whatever the list holds. The list is part of the body, though, and the body is read as
a whole before anybody looks at what it says. So the list must still be one that can be kept: a
number beyond the range of floating-point numbers, half a surrogate pair or too many brackets in an
entry that nobody will look at drop the report, and the repository is not indexed at all.

## Main definitions

* `RefLimitReport` — an object by which a mirror says that it does not list all changes
* `RefLimitReport.IsKept` — names that spell text, and a list that can be kept

## Main results

* `RefLimitReport.ofJson?_members` — the reports that are read
* `Processor.process_refLimitReport` — a report is indexed exactly if it is read
-/

namespace HeadScout

open Json (valuesOf)
open Payload (ServerRepository MirrorSync)

/-- An object by which a mirror says that it does not list all changes. It may have any other
members, and the list, if there is one, may hold anything. -/
structure RefLimitReport where
  /-- The members, as written. -/
  members : List (Option String × Json)
  repository : ServerRepository
  mirror : String
  /-- The list of changes, if the object has a member for it. -/
  changes : Option Json
  key_ne_empty : repository.projectKey ≠ ""
  slug_ne_empty : repository.slug ≠ ""
  mirror_ne_empty : mirror ≠ ""
  has_repository : ∃ v, valuesOf "repository" members = [v] ∧
    ServerRepository.ofJson? v = some repository
  has_mirror : ∃ v, valuesOf "mirrorServer" members = [v] ∧
    MirrorSync.mirrorIdOfJson? v = some mirror
  has_flag : valuesOf "refLimitExceeded" members = [.bool true]
  has_changes : valuesOf "changes" members = changes.toList
  isList : ∀ v ∈ changes, v = .null ∨ ∃ items, v = .array items

namespace RefLimitReport

variable (r : RefLimitReport)

/-- The request that the report should lead to. -/
def request : ReindexRequest :=
  ⟨⟨r.repository.projectKey⟩, ⟨r.repository.slug⟩, some ⟨r.mirror⟩⟩

/-- The names of all members spell text, and whatever the list holds can be kept: its numbers are
finite, its strings spell text, and its brackets do not nest too deep within those of the body. -/
def IsKept : Prop :=
  (∀ m ∈ r.members, m.1.isSome = true) ∧
    ∀ v ∈ r.changes, (∀ a ∈ v.atoms, a.fits = true) ∧ v.nesting + 1 < Json.nestingLimit

instance : Decidable r.IsKept := inferInstanceAs (Decidable (_ ∧ _))

/-- What the report says once it is read; the list is not looked at. -/
def event : Push.MirrorSynchronized where
  repository := ⟨⟨r.repository.projectKey⟩, ⟨r.repository.slug⟩,
    r.repository.links.filterMap Payload.NamedLink.toCloneLink?⟩
  changes := []
  mirrorId := ⟨r.mirror⟩
  refLimitExceeded := true

/-! ### The list -/

theorem entries?_array (items : List Json) :
    Payload.entries? (.array items) =
      if (Json.array items).isStorable 1 then some items else none := by
  have hopen : decide (1 + 1 < Json.nestingLimit) = true := rfl
  rw [Json.isStorable, hopen, Bool.true_and]
  exact Payload.entries?_array items

theorem isStorable_one_iff (v : Json) :
    v.isStorable 1 = true ↔
      (∀ a ∈ v.atoms, a.fits = true) ∧ v.nesting + 1 < Json.nestingLimit := by
  have hlimit : 1 < Json.nestingLimit := by decide
  have hnests : Json.NestsWithin 1 v.nesting ↔ v.nesting + 1 < Json.nestingLimit := by
    unfold Json.NestsWithin
    omega
  rw [Json.isStorable_iff, hnests]

/-- A list that can be kept is kept entry by entry, and any other one is not read. -/
theorem optional_changes {ms : Json.Members} (hget : ms.get? "changes" = r.changes) :
    ∃ entries, ms.optional "changes" Payload.entries? =
      if ∀ v ∈ r.changes, v.isStorable 1 = true then some entries else none := by
  rw [Json.Members.optional, hget]
  cases hchanges : r.changes with
  | none => exact ⟨none, by simp⟩
  | some v =>
    obtain rfl | ⟨items, rfl⟩ := r.isList v hchanges
    · exact ⟨none, by simp [Json.isStorable]⟩
    · refine ⟨some items, ?_⟩
      simp only [Option.mem_some, forall_eq']
      rw [entries?_array]
      split_ifs <;> rfl

/-! ### The body -/

theorem isKept_iff :
    r.IsKept ↔ (∀ m ∈ r.members, m.1.isSome = true) ∧ ∀ v ∈ r.changes, v.isStorable 1 = true := by
  unfold IsKept
  simp only [isStorable_one_iff]

/-- Every field is given at most once. -/
theorem length_valuesOf_le (f : Json.Field) (hf : f ∈ MirrorSync.fields) :
    (valuesOf f.name r.members).length ≤ 1 := by
  obtain ⟨repository, hrepository, -⟩ := r.has_repository
  obtain ⟨mirror, hmirror, -⟩ := r.has_mirror
  simp only [MirrorSync.fields, List.mem_cons, List.not_mem_nil, or_false] at hf
  obtain rfl | rfl | rfl | rfl := hf
  · rw [hrepository, List.length_singleton]
  · rw [hmirror, List.length_singleton]
  · rw [r.has_changes]
    exact Option.length_toList_le
  · rw [r.has_flag, List.length_singleton]

/-- Exactly a report whose names and list can be kept is read. -/
theorem ofJson?_members :
    ∃ entries, MirrorSync.ofJson? (.object r.members) =
      if r.IsKept then some ⟨r.repository, r.mirror, entries, true⟩ else none := by
  obtain ⟨repository, hrepository, hreadRepository⟩ := r.has_repository
  obtain ⟨mirror, hmirror, hreadMirror⟩ := r.has_mirror
  let found := Json.known MirrorSync.fields r.members
  have hgetRepository : found.get? "repository" = some repository := by
    rw [Json.get?_known rfl, hrepository, List.getLast?_singleton]
  have hgetMirror : found.get? "mirrorServer" = some mirror := by
    rw [Json.get?_known rfl, hmirror, List.getLast?_singleton]
  have hgetFlag : found.get? "refLimitExceeded" = some (.bool true) := by
    rw [Json.get?_known rfl, r.has_flag, List.getLast?_singleton]
  have hgetChanges : found.get? "changes" = r.changes := by
    rw [Json.get?_known rfl, r.has_changes]
    cases r.changes <;> rfl
  -- Of the four fields only the list can fail to be read; which entries it has does not matter,
  -- because nobody looks at them.
  obtain ⟨entries, hentries⟩ := r.optional_changes hgetChanges
  refine ⟨entries, ?_⟩
  by_cases hnames : ∀ m ∈ r.members, m.1.isSome = true
  · have hmembers : (Json.object r.members).members? MirrorSync.fields .refused = some found :=
      Json.members?_object_eq_some_iff.mpr ⟨hnames, r.length_valuesOf_le, rfl⟩
    have hkept : r.IsKept ↔ ∀ v ∈ r.changes, v.isStorable 1 = true := by
      rw [isKept_iff]
      exact and_iff_right hnames
    simp only [MirrorSync.ofJson?, hmembers, hentries, hkept, Json.Members.required,
      Json.Members.withDefault, hgetRepository, hgetMirror, hgetFlag, Option.bind_eq_bind,
      Option.bind_some, hreadRepository, hreadMirror]
    split_ifs <;> rfl
  · -- The name of a member that is passed over is read all the same.
    have hmembers : (Json.object r.members).members? MirrorSync.fields .refused = none := by
      rw [Option.eq_none_iff_forall_ne_some]
      intro found' hfound
      exact hnames (Json.members?_object_eq_some_iff.mp hfound).1
    rw [if_neg fun h => hnames h.1, MirrorSync.ofJson?, hmembers]
    rfl

theorem toEvent_eq_pure (entries : Option (List Json)) :
    MirrorSync.toEvent ⟨r.repository, r.mirror, entries, true⟩ = pure r.event := by
  have hrepository : r.repository.toRepository MirrorSync.document = .ok r.event.repository := by
    rw [ServerRepository.toRepository, Payload.named_of_ne_empty _ _ r.key_ne_empty,
      Payload.named_of_ne_empty _ _ r.slug_ne_empty]
    rfl
  rw [MirrorSync.toEvent, hrepository, Payload.named_of_ne_empty _ _ r.mirror_ne_empty]
  rfl

theorem value_read {body : String} (hbody : Json.parse? body = some (.object r.members)) :
    (Push.read .mirrorSynchronized body).run.value.toOption =
      if r.IsKept then some (.mirrorSynchronized r.event) else none := by
  obtain ⟨entries, hread⟩ := r.ofJson?_members
  have hdocument : Push.read .mirrorSynchronized body =
      Push.ofDocument .mirrorSynchronized (.object r.members) := by
    unfold Push.read
    rw [hbody]
  rw [hdocument, Push.ofDocument, Payload.expect, hread]
  split_ifs
  · change (ExceptT.adapt WebhookError.payload (MirrorSync.toEvent _ >>= fun event =>
      pure (Push.mirrorSynchronized event))).run.value.toOption = _
    rw [toEvent_eq_pure]
    rfl
  · rfl

end RefLimitReport

/-! ### A delivery -/

namespace Processor

variable (r : RefLimitReport) {p : Processor} {i : Incoming} {body url : String}

theorem reads?_refLimitReport (hp : p ≠ .cloud) (hkind : i.kind = .mirrorSynchronized)
    (hpayload : i.payload = some body) (hbody : Json.parse? body = some (.object r.members))
    (hurl : i.serverUrl = some url) (hne : url ≠ "") :
    p.reads? i = if r.IsKept then some (⟨url⟩, .mirrorSynchronized r.event) else none := by
  have hhandled : i.kind ∈ p.kinds := by
    rw [hkind]
    cases p with
    | cloud => exact absurd rfl hp
    | server => decide
    | dispatcher => decide
  have hsender : i.sender? = some ⟨url⟩ := by
    rw [Incoming.sender?, hkind, if_neg (by simp), hurl]
    simp [Option.filter, hne]
  have htext : i.payload.filter (fun s => Text.trim s ≠ "") = some body := by
    rw [hpayload]
    simp [Option.filter, Json.trim_ne_empty hbody]
  rw [reads?, if_pos hhandled, htext, hsender, Option.bind_some, Option.bind_some, hkind,
    r.value_read hbody]
  split_ifs <;> rfl

/-- A report makes no head event, and is indexed anew exactly if its names and its list can be
kept. -/
theorem process_refLimitReport (config : WebhookConfig) (stamp : Stamp) (hp : p ≠ .cloud)
    (hkind : i.kind = .mirrorSynchronized) (hpayload : i.payload = some body)
    (hbody : Json.parse? body = some (.object r.members)) (hurl : i.serverUrl = some url)
    (hne : url ≠ "") :
    Effect.events (p.process config stamp i) = [] ∧
      Effect.reindexes (p.process config stamp i) = if r.IsKept then [r.request] else [] := by
  have hcalls := calls_process config stamp i p
  rw [reads?_refLimitReport r hp hkind hpayload hbody hurl hne] at hcalls
  rw [← Prod.mk.injEq]
  refine hcalls.trans ?_
  split_ifs <;> rfl

/-- A report with the given list. -/
def sampleReport (items : List Json) : RefLimitReport where
  members :=
    [(some "refLimitExceeded", .bool true),
      (some "repository",
        .record [("slug", .text "widget"), ("project", .record [("key", .text "PRJ")])]),
      (some "mirrorServer", .record [("id", .text "M1")]), (some "changes", .array items)]
  repository := ⟨"widget", "PRJ", []⟩
  mirror := "M1"
  changes := some (.array items)
  key_ne_empty := by decide
  slug_ne_empty := by decide
  mirror_ne_empty := by decide
  has_repository := ⟨_, rfl, rfl⟩
  has_mirror := ⟨_, rfl, rfl⟩
  has_flag := rfl
  has_changes := rfl
  isList := by
    rintro v ⟨⟩
    exact Or.inr ⟨items, rfl⟩

/-- The delivery of a body by a mirror. -/
def sampleIncoming (body : String) : Incoming :=
  ⟨.mirrorSynchronized, some body, .server, "10.0.0.1", some "https://git.example.org"⟩

def sampleConfig : WebhookConfig := ⟨false, 0⟩

def sampleStamp : Stamp := ⟨.ofNat 0, fun _ => ⟨0, 0, 0⟩⟩

/-- A report whose list holds no changes, but can be kept. -/
def keptBody : String :=
  "\x7b\"refLimitExceeded\":true,\"repository\":\x7b\"slug\":\"widget\"," ++
    "\"project\":\x7b\"key\":\"PRJ\"\x7d\x7d,\"mirrorServer\":\x7b\"id\":\"M1\"\x7d," ++
    "\"changes\":[7,[1e308]]\x7d"

def keptItems : List Json := [.nat 7, .array [.number ⟨false, [1], [], some 308⟩]]

theorem parse?_keptBody :
    Json.parse? keptBody = some (.object (sampleReport keptItems).members) := by
  cbv

theorem process_keptBody :
    Effect.events (server.process sampleConfig sampleStamp (sampleIncoming keptBody)) = [] ∧
      Effect.reindexes (server.process sampleConfig sampleStamp (sampleIncoming keptBody)) =
        [⟨⟨"PRJ"⟩, ⟨"widget"⟩, some ⟨"M1"⟩⟩] := by
  have hprocess := process_refLimitReport _ sampleConfig sampleStamp (p := server)
    (i := sampleIncoming keptBody) (by decide) rfl rfl parse?_keptBody rfl (by decide)
  have hkept : (sampleReport keptItems).IsKept := by decide +kernel
  rw [if_pos hkept] at hprocess
  exact hprocess

/-- A report whose list holds a number beyond the range of floating-point numbers. -/
def droppedBody : String :=
  "\x7b\"refLimitExceeded\":true,\"repository\":\x7b\"slug\":\"widget\"," ++
    "\"project\":\x7b\"key\":\"PRJ\"\x7d\x7d,\"mirrorServer\":\x7b\"id\":\"M1\"\x7d," ++
    "\"changes\":[1e400]\x7d"

def droppedItems : List Json := [.number ⟨false, [1], [], some 400⟩]

theorem parse?_droppedBody :
    Json.parse? droppedBody = some (.object (sampleReport droppedItems).members) := by
  cbv

/-- A report is not indexed anew whatever its list holds: an entry that nobody would look at can
drop it. -/
theorem not_forall_refLimitReport_reindexed :
    ¬ ∀ (p : Processor) (config : WebhookConfig) (stamp : Stamp) (r : RefLimitReport) (i : Incoming)
        (body url : String), p ≠ .cloud → i.kind = .mirrorSynchronized → i.payload = some body →
        Json.parse? body = some (.object r.members) → i.serverUrl = some url → url ≠ "" →
        Effect.events (p.process config stamp i) = [] ∧
          Effect.reindexes (p.process config stamp i) = [r.request] := by
  intro h
  have hone := (h server sampleConfig sampleStamp _ (sampleIncoming droppedBody) _ _ (by decide)
    rfl rfl parse?_droppedBody rfl (by decide)).2
  have hreads := reads?_refLimitReport _ (p := server) (i := sampleIncoming droppedBody) (by decide)
    rfl rfl parse?_droppedBody rfl (by decide)
  have hdropped : ¬ (sampleReport droppedItems).IsKept := by decide +kernel
  rw [if_neg hdropped] at hreads
  have hcalls := calls_process sampleConfig sampleStamp (sampleIncoming droppedBody) server
  rw [hreads, Effect.calls] at hcalls
  rw [(Prod.mk.inj hcalls).2] at hone
  exact List.cons_ne_nil _ _ hone.symm

end Processor

end HeadScout
