import HeadScout.Proofs.Json.Lexing
import HeadScout.Proofs.Webhook.Partition
import HeadScout.Webhook.Processor

/-!
# What deliveries lead to

A delivery makes two sorts of calls: head events are handed to whoever notifies, and repositories to
whoever indexes them anew. Which calls it makes is told here from the delivery alone, without the
way through dispatcher, processors and groups. A delivery that is not handled, has no body or comes
from nowhere makes no call, and neither does one whose body cannot be read. Any other delivery makes
calls of one sort only, so that a repository is never indexed anew for changes that are also told
one by one.

Processors keep nothing between two deliveries, so a run leaves behind what its deliveries leave
behind one by one.

## Main definitions

* `Processor.kinds`, `Incoming.sender?` — what a processor handles, and the address of a sender
* `Processor.reads?` — the push that a processor reads from a delivery
* `Push.calls` — the calls that a push makes
* `Incoming.due` — the same, told field by field

## Main results

* `Processor.calls_process` — the calls that a delivery makes
* `Processor.exists_of_mem_events` — what an event of a delivery tells
* `Processor.run_eq_flatMap_and_calls` — the calls that a run of deliveries makes
-/

namespace HeadScout

open ChangeGroups (ofChanges types ofType byType firstAt)

/-- The calls among some effects: head events with their delays, and repositories to index anew. -/
def Effect.calls (es : List Effect) : List (HeadEvent × UInt64) × List ReindexRequest :=
  (events es, reindexes es)

@[simp] theorem Effect.calls_nil : calls [] = ([], []) := rfl

@[simp] theorem Effect.calls_note (n : Notice) : calls [.note n] = ([], []) := rfl

@[simp] theorem Effect.calls_note_append (ns : List Notice) (es : List Effect) :
    calls (ns.map Effect.note ++ es) = calls es := by
  rw [calls, calls, events_note_append, reindexes_note_append]

theorem Effect.events_append (es es' : List Effect) :
    events (es ++ es') = events es ++ events es' :=
  List.filterMap_append

theorem Effect.reindexes_append (es es' : List Effect) :
    reindexes (es ++ es') = reindexes es ++ reindexes es' :=
  List.filterMap_append

/-! ### One push -/

namespace Push

variable (p : Push) (config : WebhookConfig) (i : Incoming) (url : ServerUrl) (stamp : Stamp)

/-- The calls that a push makes. One with too many changes to list them is indexed anew, and so is
one without changes, unless the settings say otherwise; any other push makes one head event for each
type among its changes. -/
def calls : List (HeadEvent × UInt64) × List ReindexRequest :=
  if p.refLimitExceeded then ([], [.ofPush p])
  else if p.changes = [] then
    if config.scanOnEmptyChanges then ([], [.ofPush p]) else ([], [])
  else
    ((types p.changes).map fun t =>
      (p.headEvent i url stamp t (ofType t p.changes), config.eventDelay), [])

/-- Emitting groups makes one head event for each of them and indexes nothing. -/
theorem calls_emitted (event : EventType → List Change → HeadEvent) (delay : UInt64)
    (groups : List (EventType × List Change)) :
    Effect.calls (groups.flatMap fun (t, cs) => [.note .eventEmitted, .notify (event t cs) delay]) =
      (groups.map fun (t, cs) => (event t cs, delay), []) := by
  induction groups with
  | nil => rfl
  | cons g groups ih =>
    obtain ⟨t, cs⟩ := g
    have hevents := congrArg Prod.fst ih
    have hreindexes := congrArg Prod.snd ih
    refine Prod.ext ?_ hreindexes
    exact congrArg ((event t cs, delay) :: ·) hevents

theorem calls_effects :
    Effect.calls (p.effects config i url stamp) = p.calls config i url stamp := by
  unfold effects calls
  by_cases hlimit : p.refLimitExceeded = true
  · rw [if_pos hlimit, if_pos hlimit]
    rfl
  rw [if_neg hlimit, if_neg hlimit]
  by_cases hnone : p.changes = []
  · rw [if_pos (List.isEmpty_iff.mpr hnone), if_pos hnone]
    cases config.scanOnEmptyChanges <;> rfl
  · rw [if_neg (mt List.isEmpty_iff.mp hnone), if_neg hnone]
    have hgroups : (ofChanges p.changes).value.groups = byType p.changes :=
      ChangeGroups.groups_foldl_add p.changes
    rw [Effect.calls_note_append, calls_emitted, hgroups, byType, List.map_map]
    rfl

end Push

/-! ### One delivery -/

/-- The address that the events of a delivery bear: a push from Cloud comes from the one address of
Cloud, and anything else from the address given with it. -/
def Incoming.sender? (i : Incoming) : Option ServerUrl :=
  if i.kind = .push ∧ i.product = .cloud then some cloudUrl
  else (i.serverUrl.filter (· ≠ "")).map (⟨·⟩)

namespace Incoming

variable (i : Incoming) (config : WebhookConfig) (stamp : Stamp)

theorem body?_eq : i.body? = i.payload.filter fun s => Text.trim s ≠ "" := by
  rw [body?]
  congr 1
  funext s
  rw [Bool.eq_iff_iff, Bool.not_eq_true', ← Bool.not_eq_true, ← Text.trim_eq_empty_iff]
  simp

theorem nativeSender?_eq : i.nativeSender? = (i.serverUrl.filter (· ≠ "")).map (⟨·⟩) := by
  rw [nativeSender?]
  cases i.serverUrl with
  | none => rfl
  | some url => by_cases h : url = "" <;> simp [Identifier.ofText?, Option.filter, h]

theorem nativeSender?_eq_sender? (h : i.kind ≠ .push) : i.nativeSender? = i.sender? := by
  rw [nativeSender?_eq, sender?, if_neg fun hp => h hp.1]

theorem pushSender?_eq_sender? (h : i.kind = .push) : i.pushSender? = i.sender? := by
  unfold pushSender? sender?
  cases hp : i.product with
  | cloud => rw [if_pos ⟨h, rfl⟩]
  | server =>
    rw [if_neg fun hp => nomatch hp.2]
    exact i.nativeSender?_eq

theorem body?_of_parse? {body : String} {v : Json} (hpayload : i.payload = some body)
    (hparse : Json.parse? body = some v) : i.body? = some body := by
  rw [body?_eq, hpayload, Option.filter_some, if_pos]
  exact decide_eq_true (Json.trim_ne_empty hparse)

theorem atProcessor_of_mem {name : String} {kinds : List WebhookKind} {url : ServerUrl}
    {lost : Notice} {body : String} (hbody : i.body? = some body) (hkind : i.kind ∈ kinds) :
    i.atProcessor name kinds (some url) lost config stamp =
      i.handle config url stamp (Push.read i.kind body) := by
  unfold atProcessor
  rw [hbody]
  change i.handle config url stamp (i.push name kinds body) = _
  rw [push, if_pos hkind]

/-- The dispatcher has each event handled that has a body and comes from somewhere. -/
theorem atDispatcher_eq_handle {body : String} {url : ServerUrl} (hkind : i.kind ≠ .ping)
    (hbody : i.body? = some body) (hsender : i.sender? = some url) :
    i.atDispatcher config stamp = i.handle config url stamp (Push.read i.kind body) := by
  unfold atDispatcher
  cases h : i.kind with
  | push =>
    change i.atCloud config stamp = _
    rw [atCloud, i.pushSender?_eq_sender? h, hsender,
      i.atProcessor_of_mem config stamp hbody (by rw [h]; decide), h]
  | refsChanged | mirrorSynchronized =>
    have hne : i.kind ≠ .push := by
      rw [h]
      decide
    change i.atServer config stamp = _
    rw [atServer, i.nativeSender?_eq_sender? hne, hsender,
      i.atProcessor_of_mem config stamp hbody (by rw [h]; decide), h]
  | ping => exact absurd h hkind

/-- The calls that are due for some changes of a repository, of which there may have been too many to
list them. -/
def due (url : ServerUrl) (limited : Bool) (repository : Repository) (changes : List Change)
    (commit : Option CommitHash) (mirror : Option MirrorId) :
    List (HeadEvent × UInt64) × List ReindexRequest :=
  let request : ReindexRequest :=
    { owner := repository.owner, repository := repository.name, mirrorId := mirror }
  if limited then ([], [request])
  else if changes = [] then
    if config.scanOnEmptyChanges then ([], [request]) else ([], [])
  else
    ((types changes).map fun t =>
      ({ deliveryId := stamp.id
         serverUrl := url
         product := i.product
         eventType := t
         changes := ofType t changes
         origin := i.origin
         repository := repository
         headCommit := commit
         mirrorId := mirror
         receivedAt := stamp.time t }, config.eventDelay), [])

/-- The calls that are made once something was read, or was not. -/
def calls : Option (ServerUrl × Push) → List (HeadEvent × UInt64) × List ReindexRequest
  | none => ([], [])
  | some (url, push) => push.calls config i url stamp

theorem calls_handle (url : ServerUrl) (reading : ExceptT WebhookError (Traced Notice) Push) :
    Effect.calls (i.handle config url stamp reading) =
      i.calls config stamp (reading.run.value.toOption.map fun push => (url, push)) := by
  rw [handle, Effect.calls_note_append]
  cases reading.run.value with
  | error e => rfl
  | ok push => exact push.calls_effects config i url stamp

theorem calls_atProcessor (name : String) (kinds : List WebhookKind) (sender : Option ServerUrl)
    (lost : Notice) :
    Effect.calls (i.atProcessor name kinds sender lost config stamp) =
      i.calls config stamp (if i.kind ∈ kinds then
        (i.payload.filter fun s => Text.trim s ≠ "").bind fun body =>
          sender.bind fun url =>
            (Push.read i.kind body).run.value.toOption.map fun push => (url, push)
        else none) := by
  unfold atProcessor
  rw [← body?_eq]
  cases i.body? with
  | none => simp [calls]
  | some body =>
    cases sender with
    | none => simp [calls]
    | some url =>
      -- The kind is looked at only now, when the body is read.
      rw [calls_handle]
      simp only [push, Option.bind_some]
      split_ifs with hkind
      · rfl
      · rfl

end Incoming

namespace Processor

/-- The kinds of events that a processor handles. -/
def kinds : Processor → List WebhookKind
  | .server => [.refsChanged, .mirrorSynchronized]
  | .cloud => [.push]
  | .dispatcher => [.push, .refsChanged, .mirrorSynchronized]

/-- The push that a processor reads from a delivery, with the address of the sender. The delivery
must be of a kind that is handled, have a body that is not blank and come from somewhere. -/
def reads? (p : Processor) (i : Incoming) : Option (ServerUrl × Push) :=
  if i.kind ∈ p.kinds then
    (i.payload.filter fun s => Text.trim s ≠ "").bind fun body =>
      i.sender?.bind fun url =>
        (Push.read i.kind body).run.value.toOption.map fun push => (url, push)
  else none

/-- What is read depends on the processor only in whether the kind is handled. -/
theorem reads?_congr {p q : Processor} {i : Incoming} (h : i.kind ∈ p.kinds ↔ i.kind ∈ q.kinds) :
    p.reads? i = q.reads? i := by
  rw [reads?, reads?]
  exact if_congr h rfl rfl

theorem reads?_eq_some_iff {p : Processor} {i : Incoming} {url : ServerUrl} {push : Push} :
    p.reads? i = some (url, push) ↔
      i.kind ∈ p.kinds ∧ i.sender? = some url ∧
        ∃ body, i.payload = some body ∧ Text.trim body ≠ "" ∧
          (Push.read i.kind body).run.value.toOption = some push := by
  rw [reads?]
  by_cases hkind : i.kind ∈ p.kinds
  · simp only [if_pos hkind, Option.bind_eq_some_iff, Option.filter_eq_some_iff,
      Option.map_eq_some_iff, decide_eq_true_eq, Prod.mk.injEq]
    constructor
    · rintro ⟨body, ⟨hpayload, hblank⟩, _, hsender, _, hread, rfl, rfl⟩
      exact ⟨hkind, hsender, body, hpayload, hblank, hread⟩
    · rintro ⟨-, hsender, body, hpayload, hblank, hread⟩
      exact ⟨body, ⟨hpayload, hblank⟩, url, hsender, push, hread, rfl, rfl⟩
  · rw [if_neg hkind]
    exact iff_of_false (Option.some_ne_none _).symm fun h => hkind h.1

variable (config : WebhookConfig) (stamp : Stamp) (i : Incoming)

theorem calls_atServer :
    Effect.calls (i.atServer config stamp) = i.calls config stamp (server.reads? i) := by
  have hkinds : kinds server = [.refsChanged, .mirrorSynchronized] := rfl
  rw [Incoming.atServer, Incoming.calls_atProcessor, reads?, hkinds]
  split_ifs with hkind
  · have hne : i.kind ≠ .push := by
      intro hpush
      rw [hpush] at hkind
      revert hkind
      decide
    rw [i.nativeSender?_eq_sender? hne]
  · rfl

theorem calls_atCloud :
    Effect.calls (i.atCloud config stamp) = i.calls config stamp (cloud.reads? i) := by
  have hkinds : kinds cloud = [.push] := rfl
  rw [Incoming.atCloud, Incoming.calls_atProcessor, reads?, hkinds]
  split_ifs with hkind
  · rw [i.pushSender?_eq_sender? (List.mem_singleton.mp hkind)]
  · rfl

/-- The calls that a delivery makes are those of the push that is read from it. -/
theorem calls_process (p : Processor) :
    Effect.calls (p.process config stamp i) = i.calls config stamp (p.reads? i) := by
  cases p with
  | server => exact calls_atServer config stamp i
  | cloud => exact calls_atCloud config stamp i
  | dispatcher =>
    change Effect.calls (i.atDispatcher config stamp) = _
    unfold Incoming.atDispatcher
    -- The dispatcher hands each kind to the processor that handles it.
    cases hkind : i.kind with
    | push =>
      rw [calls_atCloud config stamp i, reads?_congr (q := dispatcher)]
      simp [kinds, hkind]
    | refsChanged =>
      rw [calls_atServer config stamp i, reads?_congr (q := dispatcher)]
      simp [kinds, hkind]
    | mirrorSynchronized =>
      rw [calls_atServer config stamp i, reads?_congr (q := dispatcher)]
      simp [kinds, hkind]
    | ping =>
      have hnone : dispatcher.reads? i = none := by simp [reads?, kinds, hkind]
      rw [hnone]
      rfl

/-- An event of a delivery tells of the changes of one type in the push that is read from it. -/
theorem exists_of_mem_events {p : Processor} {config : WebhookConfig} {stamp : Stamp} {i : Incoming}
    {e : HeadEvent} (he : e ∈ (Effect.events (p.process config stamp i)).map (·.1)) :
    ∃ url push t, p.reads? i = some (url, push) ∧ t ∈ types push.changes ∧
      e = push.headEvent i url stamp t (ofType t push.changes) := by
  have hcalls := congrArg Prod.fst (calls_process config stamp i p)
  change Effect.events (p.process config stamp i) = _ at hcalls
  rw [hcalls] at he
  cases hread : p.reads? i with
  | none =>
    rw [hread] at he
    cases he
  | some found =>
    obtain ⟨url, push⟩ := found
    rw [hread, Incoming.calls, Push.calls] at he
    split_ifs at he with hlimit hchanges hscan
    · cases he
    · cases he
    · cases he
    · -- Only here are there events, one for each group.
      rw [List.map_map] at he
      obtain ⟨t, ht, rfl⟩ := List.mem_map.mp he
      exact ⟨url, push, t, rfl, ht, rfl⟩

/-! ### A run of deliveries -/

theorem steps_run (p : Processor) (ds : List (Stamp × Incoming)) :
    (p.run config ds).steps = ds.flatMap fun d => p.process config d.1 d.2 := by
  induction ds with
  | nil => rfl
  | cons d ds ih =>
    rw [List.flatMap_cons, ← ih]
    rfl

/-- An event of a run is one of a delivery in it. -/
theorem exists_mem_of_mem_run {p : Processor} {config : WebhookConfig}
    {ds : List (Stamp × Incoming)} {e : HeadEvent}
    (he : e ∈ (Effect.events (p.run config ds).steps).map (·.1)) :
    ∃ d ∈ ds, e ∈ (Effect.events (p.process config d.1 d.2)).map (·.1) := by
  rw [steps_run] at he
  induction ds with
  | nil => cases he
  | cons d ds ih =>
    rw [List.flatMap_cons, Effect.events_append, List.map_append] at he
    rcases List.mem_append.mp he with hfirst | hlater
    · exact ⟨d, List.mem_cons_self, hfirst⟩
    · obtain ⟨d', hd', he'⟩ := ih hlater
      exact ⟨d', List.mem_cons_of_mem d hd', he'⟩

/-- The types that tags mean. -/
theorem eventType?_eq_some_iff {c : Change} {t : EventType} :
    c.eventType? = some t ↔ (c.tag, t) ∈
      [(ChangeTag.add, EventType.created), (.update, .updated), (.delete, .removed)] := by
  obtain ⟨kind, name, tag, fromHash, toHash⟩ := c
  cases tag <;> cases t <;> simp [Change.eventType?, ChangeTag.eventType?]

/-- A run of deliveries leads to what each of them leads to, one after the other. A delivery of a
kind that the processor does not handle, without a body, from nowhere, or with a body that cannot be
read makes no call. Any other one is indexed anew, once, if it has too many changes to list them, or
none and the settings say so; it makes no call if it has none and the settings say otherwise; and
else it makes one head event for each type of change, by first appearance, with exactly the changes
of that type, of which there is at least one. What tells of the delivery, and of the push besides
its changes, is the same in all of them. -/
theorem run_eq_flatMap_and_calls (p : Processor) (ds : List (Stamp × Incoming)) :
    (p.run config ds).steps = ds.flatMap (fun d => p.process config d.1 d.2) ∧
      (∀ stamp i,
        (Effect.events (p.process config stamp i), Effect.reindexes (p.process config stamp i)) =
          match p.reads? i with
          | none => ([], [])
          | some (url, .refsChanged e) =>
            i.due config stamp url false e.repository e.changes e.toCommit none
          | some (url, .mirrorSynchronized e) =>
            i.due config stamp url e.refLimitExceeded e.repository e.changes none
              (some e.mirrorId)) ∧
      ∀ changes : List Change,
        (types changes).Nodup ∧
        (types changes).Pairwise (fun t t' => firstAt t changes < firstAt t' changes) ∧
        ∀ t, (t ∈ types changes ↔ ofType t changes ≠ []) ∧
          (ofType t changes).Sublist changes ∧
          ∀ c, c ∈ ofType t changes ↔ c ∈ changes ∧ (c.tag, t) ∈
            [(ChangeTag.add, EventType.created), (.update, .updated), (.delete, .removed)] := by
  refine ⟨steps_run config p ds, ?_, ?_⟩
  · intro stamp i
    have hcalls := calls_process config stamp i p
    cases h : p.reads? i with
    | none =>
      rw [h] at hcalls
      exact hcalls
    | some found =>
      obtain ⟨url, push⟩ := found
      rw [h] at hcalls
      -- What is due is told apart by the sort of the push, and the calls compute it from either.
      cases push with
      | refsChanged e => exact hcalls
      | mirrorSynchronized e => exact hcalls
  · intro changes
    refine ⟨ChangeGroups.nodup_types changes, ChangeGroups.pairwise_types changes, fun t => ?_⟩
    refine ⟨ChangeGroups.ofType_ne_nil_iff.symm, List.filter_sublist, fun c => ?_⟩
    rw [ofType, List.mem_filter, decide_eq_true_eq, eventType?_eq_some_iff]

/-- A push that moves the branch `m` twice and removes the tag of that name. -/
def repeatedBody : String :=
  "\x7b\"repository\":\x7b\"full_name\":\"P/w\"\x7d,\"push\":\x7b\"changes\":[" ++
    "\x7b\"new\":\x7b\"name\":\"m\",\"target\":\x7b\"hash\":\"a\"\x7d\x7d\x7d," ++
    "\x7b\"old\":\x7b\"type\":\"tag\",\"name\":\"m\"\x7d\x7d," ++
    "\x7b\"new\":\x7b\"name\":\"m\",\"target\":\x7b\"hash\":\"b\"\x7d\x7d\x7d]\x7d\x7d"

/-- The branch `m`, moved to a commit. -/
def movedTo (hash : String) : Json :=
  .record [("new", .record [("name", .text "m"), ("target", .record [("hash", .text hash)])])]

def repeatedDocument : Json :=
  .record [("repository", .record [("full_name", .text "P/w")]),
    ("push", .record [("changes", .array [movedTo "a",
      .record [("old", .record [("type", .text "tag"), ("name", .text "m")])], movedTo "b"])])]

theorem parse?_repeatedBody : Json.parse? repeatedBody = some repeatedDocument := by
  cbv

def repeatedPush : Push :=
  .refsChanged ⟨⟨⟨"P"⟩, ⟨"w"⟩, []⟩,
    [⟨.branch, ⟨"m"⟩, .update, none, some ⟨"a"⟩⟩, ⟨.tag, ⟨"m"⟩, .delete, none, none⟩,
      ⟨.branch, ⟨"m"⟩, .update, none, some ⟨"b"⟩⟩], none⟩

def repeatedDelivery : Incoming := ⟨.push, some repeatedBody, .cloud, "10.0.0.1", none⟩

theorem reads?_repeatedDelivery :
    dispatcher.reads? repeatedDelivery = some (cloudUrl, repeatedPush) := by
  have hsender : repeatedDelivery.sender? = some cloudUrl := by
    rw [Incoming.sender?, if_pos ⟨rfl, rfl⟩]
  have hread : (Push.read .push repeatedBody).run.value.toOption = some repeatedPush := by
    rw [Push.read_of_parse? (by decide) parse?_repeatedBody]
    decide +kernel
  exact reads?_eq_some_iff.mpr
    ⟨by decide, hsender, repeatedBody, rfl, Json.trim_ne_empty parse?_repeatedBody, hread⟩

/-- A mirror reports that there were too many changes. -/
def limitedBody : String :=
  "\x7b\"refLimitExceeded\":true,\"repository\":\x7b\"slug\":\"w\"," ++
    "\"project\":\x7b\"key\":\"P\"\x7d\x7d,\"mirrorServer\":\x7b\"id\":\"M\"\x7d\x7d"

theorem parse?_limitedBody :
    Json.parse? limitedBody = some (.record [("refLimitExceeded", .bool true),
      ("repository", .record [("slug", .text "w"), ("project", .record [("key", .text "P")])]),
      ("mirrorServer", .record [("id", .text "M")])]) := by
  cbv

def limitedDelivery : Incoming :=
  ⟨.mirrorSynchronized, some limitedBody, .server, "10.0.0.2", some "https://git.example.org"⟩

theorem reads?_limitedDelivery :
    dispatcher.reads? limitedDelivery = some (⟨"https://git.example.org"⟩,
      .mirrorSynchronized ⟨⟨⟨"P"⟩, ⟨"w"⟩, []⟩, [], ⟨"M"⟩, true⟩) := by
  have hread : (Push.read .mirrorSynchronized limitedBody).run.value.toOption =
      some (.mirrorSynchronized ⟨⟨⟨"P"⟩, ⟨"w"⟩, []⟩, [], ⟨"M"⟩, true⟩) := by
    rw [Push.read_of_parse? (by decide) parse?_limitedBody]
    decide +kernel
  exact reads?_eq_some_iff.mpr
    ⟨by decide, by decide, limitedBody, rfl, Json.trim_ne_empty parse?_limitedBody, hread⟩

/-- A push without a body. -/
def emptyDelivery : Incoming := ⟨.push, none, .cloud, "10.0.0.1", none⟩

theorem reads?_emptyDelivery : dispatcher.reads? emptyDelivery = none := rfl

/-- When the deliveries of the run are made. -/
def runStamp : Stamp := ⟨.ofNat 0, fun _ => ⟨0, 0, 0⟩⟩

/-- A run of these deliveries. -/
def sampleRun : List (Stamp × Incoming) :=
  [(runStamp, repeatedDelivery), (runStamp, emptyDelivery), (runStamp, limitedDelivery)]

/-- The updates of the branch are told by one event and the removal of the tag by another one, and
for the report of the mirror the repository is indexed anew. -/
theorem calls_sampleRun :
    Effect.events (dispatcher.run .standard sampleRun).steps =
        [({ deliveryId := .ofNat 0, serverUrl := ⟨"https://bitbucket.org"⟩, product := .cloud,
            eventType := .updated,
            changes := [⟨.branch, ⟨"m"⟩, .update, none, some ⟨"a"⟩⟩,
              ⟨.branch, ⟨"m"⟩, .update, none, some ⟨"b"⟩⟩],
            origin := "10.0.0.1", repository := ⟨⟨"P"⟩, ⟨"w"⟩, []⟩, headCommit := none,
            mirrorId := none, receivedAt := ⟨0, 0, 0⟩ }, 5),
          ({ deliveryId := .ofNat 0, serverUrl := ⟨"https://bitbucket.org"⟩, product := .cloud,
             eventType := .removed, changes := [⟨.tag, ⟨"m"⟩, .delete, none, none⟩],
             origin := "10.0.0.1", repository := ⟨⟨"P"⟩, ⟨"w"⟩, []⟩, headCommit := none,
             mirrorId := none, receivedAt := ⟨0, 0, 0⟩ }, 5)] ∧
      Effect.reindexes (dispatcher.run .standard sampleRun).steps =
        [⟨⟨"P"⟩, ⟨"w"⟩, some ⟨"M"⟩⟩] := by
  obtain ⟨hsteps, hcalls, -⟩ := run_eq_flatMap_and_calls .standard dispatcher sampleRun
  have hpush := hcalls runStamp repeatedDelivery
  have hempty := hcalls runStamp emptyDelivery
  have hlimited := hcalls runStamp limitedDelivery
  rw [reads?_repeatedDelivery] at hpush
  rw [reads?_emptyDelivery] at hempty
  rw [reads?_limitedDelivery] at hlimited
  obtain ⟨hevents, hrequests⟩ := Prod.mk.inj hpush
  obtain ⟨hevents', hrequests'⟩ := Prod.mk.inj hempty
  obtain ⟨hevents'', hrequests''⟩ := Prod.mk.inj hlimited
  rw [hsteps]
  simp only [sampleRun, List.flatMap_cons, List.flatMap_nil, List.append_nil,
    Effect.events_append, Effect.reindexes_append, hevents, hrequests, hevents', hrequests',
    hevents'', hrequests'']
  exact ⟨rfl, rfl⟩

end Processor

end HeadScout
