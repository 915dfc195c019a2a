import HeadScout.Proofs.Json.Replacing
import HeadScout.Proofs.Json.Writing
import HeadScout.Proofs.Webhook.Processing

/-!
# Entries are read one by one

Server lists the changes of a push, and whether one entry of the list can be read has no bearing on
anything else. An entry that is put into the list, at any place, adds its change at this place. One
that cannot be read adds nothing, so that the delivery makes the same calls as without it. What the
entry must be is a value that can be kept, as the body is read whole.

## Main definitions

* `Push.serverFields` — the fields of the bodies of Server
* `Push.withChanges` — the push with other changes
* `HeadEvent.restamp` — the event under the name and the time of another delivery

## Main results

* `Push.value_of_differAt_refsChanged`, `Push.value_of_differAt_mirrorSynchronized` — bodies that
  differ in their lists
* `Push.read_insert_entry` — what an entry adds
-/

namespace HeadScout

open Json (DifferAt valuesOf)
open Payload (ServerPush MirrorSync ServerChange ServerRepository entries? serverChange? commit?)

/-! ### Entries -/

namespace Payload

variable {v : Json}

/-- An entry has no change if it cannot be read, or its ref has no name. -/
theorem serverChange?_eq_none_iff :
    serverChange? v = none ↔ ∀ c, ServerChange.ofJson? v = some c → c.ref.name = "" := by
  unfold serverChange?
  rw [Option.bind_eq_none_iff]
  refine forall₂_congr fun c _ => ?_
  rw [ServerChange.toChange?, Option.map_eq_none_iff, Identifier.ofText?]
  split_ifs with hname
  · exact iff_of_true rfl hname
  · exact iff_of_false not_false hname

theorem serverChange?_of_missing {ms : List (Option String × Json)}
    (h : valuesOf "ref" ms = [] ∨ valuesOf "type" ms = []) : serverChange? (.object ms) = none := by
  rw [serverChange?_eq_none_iff]
  intro c hread
  simp only [ServerChange.ofJson?, Json.members?, Option.bind_eq_bind, Option.bind_eq_some_iff,
    Option.ite_none_right_eq_some, Option.some_inj] at hread
  obtain ⟨_, ⟨-, rfl⟩, ref, href, _, -, _, -, tag, htag, -⟩ := hread
  rcases h with h | h
  · rw [Json.required_known_of_missing h (by decide)] at href
    cases href
  · rw [Json.required_known_of_missing h (by decide)] at htag
    cases htag

theorem serverChange?_of_shape (hobject : ∀ ms, v ≠ .object ms)
    (harray : ∀ items, v ≠ .array items) : serverChange? v = none := by
  have hnone : ServerChange.ofJson? v = none := by
    cases v with
    | object ms => exact absurd rfl (hobject ms)
    | array items => exact absurd rfl (harray items)
    | _ => rfl
  rw [serverChange?, hnone]
  rfl

/-! ### Bodies -/

theorem ServerPush.ofJson?_eq_some_iff {b : ServerPush} :
    ServerPush.ofJson? v = some b ↔
      ∃ ms, v.members? ServerPush.fields .refused = some ms ∧
        ms.required "repository" ServerRepository.ofJson? = some b.repository ∧
        ms.optional "changes" entries? = some b.changes ∧
        ms.optional "toCommit" ServerPush.commitOfJson? = some b.toCommit := by
  obtain ⟨repository, changes, toCommit⟩ := b
  simp [ServerPush.ofJson?, Option.bind_eq_some_iff]

theorem MirrorSync.ofJson?_eq_some_iff {b : MirrorSync} :
    MirrorSync.ofJson? v = some b ↔
      ∃ ms, v.members? MirrorSync.fields .refused = some ms ∧
        ms.required "repository" ServerRepository.ofJson? = some b.repository ∧
        ms.required "mirrorServer" MirrorSync.mirrorIdOfJson? = some b.mirrorId ∧
        ms.optional "changes" entries? = some b.changes ∧
        ms.withDefault "refLimitExceeded" false Json.bool? = some b.refLimitExceeded := by
  obtain ⟨repository, mirrorId, changes, refLimitExceeded⟩ := b
  simp only [MirrorSync.ofJson?, Option.bind_eq_bind, Option.bind_eq_some_iff, Option.pure_def,
    Option.some_inj, MirrorSync.mk.injEq]
  grind

variable {document document' : Json} {es es' : List Json}

/-- A list is read as its entries, provided that all of them can be kept. -/
theorem optional_entries_eq_some_iff {ms : Json.Members} {changes : Option (List Json)}
    (hget : ms.get? "changes" = some (.array es)) :
    ms.optional "changes" entries? = some changes ↔
      changes = some es ∧ Json.areStorable 2 es = true := by
  rw [Json.Members.optional, hget]
  change (entries? (.array es)).map some = some changes ↔ _
  rw [entries?_array]
  split_ifs with hkept
  · rw [and_iff_left hkept, eq_comm]
    exact Option.some_inj
  · exact iff_of_false (Option.some_ne_none changes).symm fun h => hkept h.2

theorem ServerPush.ofJson?_of_differAt
    (h : DifferAt ServerPush.fields "changes" (.array es) (.array es') document document')
    (hkept : Json.areStorable 2 es = true → Json.areStorable 2 es' = true) {b : ServerPush}
    (hb : ServerPush.ofJson? document = some b) :
    b.changes = some es ∧ ServerPush.ofJson? document' = some { b with changes := some es' } := by
  obtain ⟨ms, hms, hrepository, hchanges, hcommit⟩ := ServerPush.ofJson?_eq_some_iff.mp hb
  obtain ⟨hget, ms', hms', hget', hother⟩ := h.exists_members? (by decide) (by decide) hms
  obtain ⟨hentries, hstorable⟩ := (optional_entries_eq_some_iff hget).mp hchanges
  refine ⟨hentries, ServerPush.ofJson?_eq_some_iff.mpr ⟨ms', hms', ?_, ?_, ?_⟩⟩
  · rw [Json.Members.required, hother _ (by decide)]
    exact hrepository
  · exact (optional_entries_eq_some_iff hget').mpr ⟨rfl, hkept hstorable⟩
  · rw [Json.Members.optional, hother _ (by decide)]
    exact hcommit

theorem MirrorSync.ofJson?_of_differAt
    (h : DifferAt MirrorSync.fields "changes" (.array es) (.array es') document document')
    (hkept : Json.areStorable 2 es = true → Json.areStorable 2 es' = true) {b : MirrorSync}
    (hb : MirrorSync.ofJson? document = some b) :
    b.changes = some es ∧ MirrorSync.ofJson? document' = some { b with changes := some es' } := by
  obtain ⟨ms, hms, hrepository, hmirror, hchanges, hlimit⟩ := MirrorSync.ofJson?_eq_some_iff.mp hb
  obtain ⟨hget, ms', hms', hget', hother⟩ := h.exists_members? (by decide) (by decide) hms
  obtain ⟨hentries, hstorable⟩ := (optional_entries_eq_some_iff hget).mp hchanges
  refine ⟨hentries, MirrorSync.ofJson?_eq_some_iff.mpr ⟨ms', hms', ?_, ?_, ?_, ?_⟩⟩
  · rw [Json.Members.required, hother _ (by decide)]
    exact hrepository
  · rw [Json.Members.required, hother _ (by decide)]
    exact hmirror
  · exact (optional_entries_eq_some_iff hget').mpr ⟨rfl, hkept hstorable⟩
  · rw [Json.Members.withDefault, hother _ (by decide)]
    exact hlimit

end Payload

/-! ### Pushes -/

namespace Push

variable {kind : WebhookKind} {body body' : String} {document document' v : Json}
  {es es' before after : List Json} {push : Push}

/-- The fields of the bodies of Server. -/
def serverFields : WebhookKind → List Json.Field
  | .refsChanged => ServerPush.fields
  | .mirrorSynchronized => MirrorSync.fields
  | .push | .ping => []

/-- The push with other changes. -/
def withChanges : Push → List Change → Push
  | .refsChanged e, cs => .refsChanged { e with changes := cs }
  | .mirrorSynchronized e, cs => .mirrorSynchronized { e with changes := cs }

@[simp] theorem withChanges_changes (p : Push) : p.withChanges p.changes = p := by
  cases p <;> rfl

theorem value_ofServerPush {b : ServerPush} (hb : ServerPush.ofJson? document = some b) :
    (ofDocument .refsChanged document).run.value =
      ((b.repository.toRepository ServerPush.document).map fun repository =>
        .refsChanged ⟨repository, (b.changes.getD []).filterMap serverChange?,
          commit? b.toCommit⟩).mapError .payload := by
  rw [ofDocument, Payload.expect, hb]
  change (ExceptT.adapt WebhookError.payload
    (b.toEvent >>= fun event => pure (Push.refsChanged event))).run.value = _
  rw [ServerPush.toEvent]
  cases b.repository.toRepository ServerPush.document <;> rfl

theorem value_ofMirrorSync {b : MirrorSync} (hb : MirrorSync.ofJson? document = some b) :
    (ofDocument .mirrorSynchronized document).run.value =
      ((b.repository.toRepository MirrorSync.document).bind fun repository =>
        (Payload.named MirrorSync.document "mirrorServer.id" b.mirrorId).map fun mirrorId =>
          .mirrorSynchronized ⟨repository,
            if b.refLimitExceeded then [] else (b.changes.getD []).filterMap serverChange?,
            mirrorId, b.refLimitExceeded⟩).mapError .payload := by
  rw [ofDocument, Payload.expect, hb]
  change (ExceptT.adapt WebhookError.payload
    (b.toEvent >>= fun event => pure (Push.mirrorSynchronized event))).run.value = _
  rw [MirrorSync.toEvent]
  cases b.repository.toRepository MirrorSync.document with
  | error e => rfl
  | ok repository =>
    cases b.refLimitExceeded <;>
      cases Payload.named MirrorSync.document "mirrorServer.id" b.mirrorId <;> rfl

theorem value_of_differAt_refsChanged
    (h : DifferAt ServerPush.fields "changes" (.array es) (.array es') document document')
    (hkept : Json.areStorable 2 es = true → Json.areStorable 2 es' = true)
    (hread : (ofDocument .refsChanged document).run.value = .ok push) :
    push.changes = es.filterMap serverChange? ∧
      (ofDocument .refsChanged document').run.value =
        .ok (push.withChanges (es'.filterMap serverChange?)) := by
  cases hb : ServerPush.ofJson? document with
  | none =>
    rw [ofDocument, Payload.expect, hb] at hread
    cases hread
  | some b =>
    obtain ⟨hentries, hb'⟩ := Payload.ServerPush.ofJson?_of_differAt h hkept hb
    rw [value_ofServerPush hb, hentries] at hread
    rw [value_ofServerPush hb']
    -- Both bodies name the same repository, and one that could not be named would fail the reading.
    cases hrepository : b.repository.toRepository ServerPush.document with
    | error e =>
      rw [hrepository] at hread
      cases hread
    | ok repository =>
      rw [hrepository] at hread
      obtain rfl := Except.ok.inj hread
      exact ⟨rfl, rfl⟩

theorem value_of_differAt_mirrorSynchronized
    (h : DifferAt MirrorSync.fields "changes" (.array es) (.array es') document document')
    (hkept : Json.areStorable 2 es = true → Json.areStorable 2 es' = true)
    (hread : (ofDocument .mirrorSynchronized document).run.value = .ok push)
    (hlimit : push.refLimitExceeded = false) :
    push.changes = es.filterMap serverChange? ∧
      (ofDocument .mirrorSynchronized document').run.value =
        .ok (push.withChanges (es'.filterMap serverChange?)) := by
  cases hb : MirrorSync.ofJson? document with
  | none =>
    rw [ofDocument, Payload.expect, hb] at hread
    cases hread
  | some b =>
    obtain ⟨hentries, hb'⟩ := Payload.MirrorSync.ofJson?_of_differAt h hkept hb
    rw [value_ofMirrorSync hb, hentries] at hread
    rw [value_ofMirrorSync hb']
    cases hrepository : b.repository.toRepository MirrorSync.document with
    | error e =>
      rw [hrepository] at hread
      cases hread
    | ok repository =>
      cases hmirror : (Payload.named MirrorSync.document "mirrorServer.id" b.mirrorId :
          Except PayloadError MirrorId) with
      | error e =>
        rw [hrepository, hmirror] at hread
        cases hread
      | ok mirrorId =>
        rw [hrepository, hmirror] at hread
        obtain rfl := Except.ok.inj hread
        -- Only because the list is said to be complete is it looked at.
        change b.refLimitExceeded = false at hlimit
        rw [hlimit]
        exact ⟨rfl, rfl⟩

end Push

/-! ### Deliveries -/

/-- The event under the name and the time of another delivery. -/
def HeadEvent.restamp (stamp : Stamp) (e : HeadEvent) : HeadEvent :=
  { e with deliveryId := stamp.id, receivedAt := stamp.time e.eventType }

theorem Push.calls_restamp (p : Push) (config : WebhookConfig) (i : Incoming)
    (payload : Option String) (url : ServerUrl) (stamp stamp' : Stamp) :
    p.calls config { i with payload := payload } url stamp' =
      ((p.calls config i url stamp).1.map fun c => (c.1.restamp stamp', c.2),
        (p.calls config i url stamp).2) := by
  unfold Push.calls
  split_ifs
  · rfl
  · rfl
  · rfl
  · rw [List.map_map]
    rfl

/-- Bodies that are read alike lead to the same calls. -/
theorem Processor.calls_of_read_eq {i : Incoming} {body body' : String}
    (hpayload : i.payload = some body) (hblank : Text.trim body ≠ "")
    (hblank' : Text.trim body' ≠ "")
    (hread : (Push.read i.kind body').run.value = (Push.read i.kind body).run.value)
    (p : Processor) (config : WebhookConfig) (stamp stamp' : Stamp) :
    Effect.events (p.process config stamp' { i with payload := some body' }) =
        (Effect.events (p.process config stamp i)).map (fun c => (c.1.restamp stamp', c.2)) ∧
      Effect.reindexes (p.process config stamp' { i with payload := some body' }) =
        Effect.reindexes (p.process config stamp i) := by
  -- The sender is told from the delivery, not from its body.
  have hreads : p.reads? { i with payload := some body' } = p.reads? i := by
    have hsender : ({ i with payload := some body' } : Incoming).sender? = i.sender? := rfl
    simp [reads?, hsender, hpayload, Option.filter, hblank, hblank', hread]
  have hcalls := calls_process config stamp i p
  have hcalls' := calls_process config stamp' { i with payload := some body' } p
  rw [hreads] at hcalls'
  rw [← Prod.mk.injEq]
  refine hcalls'.trans ?_
  cases hfound : p.reads? i with
  | none =>
    rw [hfound] at hcalls
    obtain ⟨hevents, hreindexes⟩ := Prod.mk.inj hcalls
    rw [hevents, hreindexes]
    rfl
  | some found =>
    obtain ⟨url, push⟩ := found
    rw [hfound] at hcalls
    obtain ⟨hevents, hreindexes⟩ := Prod.mk.inj hcalls
    rw [hevents, hreindexes]
    exact push.calls_restamp config i _ url stamp stamp'

namespace Push

variable {kind : WebhookKind} {body body' : String} {document document' v : Json}
  {before after : List Json} {push : Push}

/-- What an entry adds to a body of Server that is read, if it is put into the list of changes at
any place and can be kept there. One that has no change adds nothing: the same push is read, and a
delivery makes the same calls. These are the entries that cannot be read, such as those that are no
records or lack a member they must have, and those whose ref has no name. Any other entry adds its
change at its place among the changes of the other entries, and nothing else. -/
theorem read_insert_entry (hkind : kind = .refsChanged ∨ kind = .mirrorSynchronized)
    (hparse : Json.parse? body = some document) (hparse' : Json.parse? body' = some document')
    (hinsert : DifferAt (serverFields kind) "changes" (.array (before ++ after))
      (.array (before ++ v :: after)) document document')
    (hread : (read kind body).run.value = .ok push) (hlimit : push.refLimitExceeded = false)
    (hkept : v.isStorable 2 = true) :
    push.changes = before.filterMap serverChange? ++ after.filterMap serverChange? ∧
    (∀ c, serverChange? v = some c → (read kind body').run.value =
      .ok (push.withChanges
        (before.filterMap serverChange? ++ c :: after.filterMap serverChange?))) ∧
    (serverChange? v = none → (read kind body').run.value = .ok push ∧
      ∀ (p : Processor) (config : WebhookConfig) (stamp stamp' : Stamp) (i : Incoming),
        i.kind = kind → i.payload = some body →
        Effect.events (p.process config stamp' { i with payload := some body' }) =
            (Effect.events (p.process config stamp i)).map (fun c => (c.1.restamp stamp', c.2)) ∧
          Effect.reindexes (p.process config stamp' { i with payload := some body' }) =
            Effect.reindexes (p.process config stamp i)) ∧
    (serverChange? v = none ↔ ∀ c, ServerChange.ofJson? v = some c → c.ref.name = "") ∧
    (∀ ms, v = .object ms → valuesOf "ref" ms = [] ∨ valuesOf "type" ms = [] →
      serverChange? v = none) ∧
    ((∀ ms, v ≠ .object ms) → (∀ items, v ≠ .array items) → serverChange? v = none) := by
  -- The list is kept as a whole before any of its entries is read, in both bodies alike.
  have hstorable : Json.areStorable 2 (before ++ after) = true →
      Json.areStorable 2 (before ++ v :: after) = true := by
    rw [Json.areStorable_eq_all, Json.areStorable_eq_all, List.all_append, List.all_append,
      List.all_cons, hkept, Bool.true_and]
    exact id
  obtain ⟨hchanges, hread'⟩ : push.changes = (before ++ after).filterMap serverChange? ∧
      (read kind body').run.value =
        .ok (push.withChanges ((before ++ v :: after).filterMap serverChange?)) := by
    rcases hkind with rfl | rfl
    · rw [read_of_parse? (by decide) hparse] at hread
      rw [read_of_parse? (by decide) hparse']
      exact value_of_differAt_refsChanged hinsert hstorable hread
    · rw [read_of_parse? (by decide) hparse] at hread
      rw [read_of_parse? (by decide) hparse']
      exact value_of_differAt_mirrorSynchronized hinsert hstorable hread hlimit
  refine ⟨?_, ?_, ?_, Payload.serverChange?_eq_none_iff, ?_, Payload.serverChange?_of_shape⟩
  · rw [hchanges, List.filterMap_append]
  · intro c hc
    rw [hread', List.filterMap_append, List.filterMap_cons_some hc]
  · intro hnone
    have hsame : (read kind body').run.value = .ok push := by
      rw [hread', List.filterMap_append, List.filterMap_cons_none hnone, ← List.filterMap_append,
        ← hchanges, withChanges_changes]
    refine ⟨hsame, ?_⟩
    intro p config stamp stamp' i hi hpayload
    apply Processor.calls_of_read_eq hpayload (Json.trim_ne_empty hparse)
      (Json.trim_ne_empty hparse')
    rw [hi, hsame, hread]
  · rintro ms rfl hmissing
    exact Payload.serverChange?_of_missing hmissing

/-- An entry that says that a branch moved to a commit. -/
def movedEntry (name hash : String) : Json :=
  .record [("ref", .record [("id", .text ("refs/heads/" ++ name))]), ("toHash", .text hash),
    ("type", .text "UPDATE")]

/-- A body with a list of changes. -/
def listedDocument (entries : List Json) : Json :=
  .record [("repository",
      .record [("slug", .text "w"), ("project", .record [("key", .text "P")])]),
    ("changes", .array entries), ("actor", .null)]

theorem differAt_listedDocument (entries entries' : List Json) :
    DifferAt (serverFields .refsChanged) "changes" (.array entries) (.array entries')
      (listedDocument entries) (listedDocument entries') :=
  .member [(some "repository", _)] [(some "actor", .null)]

theorem hasWrittenNumbers_movedEntry (name hash : String) :
    (movedEntry name hash).HasWrittenNumbers := by
  apply Json.hasWrittenNumbers_record
  simp only [List.forall_mem_cons, Json.hasWrittenNumbers_text, true_and]
  refine ⟨Json.hasWrittenNumbers_record ?_, List.forall_mem_nil _⟩
  simp

theorem parse?_listedDocument {entries : List Json} (h : ∀ v ∈ entries, v.HasWrittenNumbers) :
    Json.parse? (listedDocument entries).render = some (listedDocument entries) := by
  apply Json.parse?_render
  apply Json.hasWrittenNumbers_record
  simp only [List.forall_mem_cons, Json.hasWrittenNumbers_null, true_and]
  refine ⟨Json.hasWrittenNumbers_record ?_, Json.hasWrittenNumbers_array h, List.forall_mem_nil _⟩
  simp only [List.forall_mem_cons, Json.hasWrittenNumbers_text, true_and]
  refine ⟨Json.hasWrittenNumbers_record ?_, List.forall_mem_nil _⟩
  simp

/-- A push that moves branches to commits. -/
def movedPush (moves : List (String × String)) : Push :=
  .refsChanged ⟨⟨⟨"P"⟩, ⟨"w"⟩, []⟩,
    moves.map fun (name, hash) => ⟨.branch, ⟨name⟩, .update, none, some ⟨hash⟩⟩, none⟩

/-- A list in the place of an entry is passed over, and the branch that did move is read all the
same. Another branch behind it is read as well. -/
theorem read_insert_entry_listedDocument :
    (read .refsChanged (listedDocument [.array [.nat 7], movedEntry "m" "a"]).render).run.value =
        .ok (movedPush [("m", "a")]) ∧
      (read .refsChanged
          (listedDocument [movedEntry "m" "a", movedEntry "n" "b"]).render).run.value =
        .ok (movedPush [("m", "a"), ("n", "b")]) := by
  have hmoved := hasWrittenNumbers_movedEntry
  have hlist : (Json.array [.nat 7]).HasWrittenNumbers := Json.hasWrittenNumbers_array (by simp)
  have hparse : Json.parse? (listedDocument [movedEntry "m" "a"]).render = some _ :=
    parse?_listedDocument (by simp [hmoved])
  have hread : (read .refsChanged (listedDocument [movedEntry "m" "a"]).render).run.value =
      .ok (movedPush [("m", "a")]) := by
    rw [read_of_parse? (by decide) hparse]
    decide +kernel
  constructor
  · obtain ⟨-, -, hskipped, -⟩ := read_insert_entry (v := .array [.nat 7]) (Or.inl rfl) hparse
      (parse?_listedDocument (by simp [hlist, hmoved]))
      (differAt_listedDocument ([] ++ [_]) ([] ++ [_, _])) hread rfl (by decide +kernel)
    exact (hskipped (by decide +kernel)).1
  · obtain ⟨-, hadded, -⟩ := read_insert_entry (v := movedEntry "n" "b") (Or.inl rfl) hparse
      (parse?_listedDocument (by simp [hmoved]))
      (differAt_listedDocument ([_] ++ []) ([_] ++ [_])) hread rfl (by decide +kernel)
    have hfront : [movedEntry "m" "a"].filterMap serverChange? =
        [⟨.branch, ⟨"m"⟩, .update, none, some ⟨"a"⟩⟩] := by
      decide +kernel
    rw [hfront] at hadded
    exact hadded ⟨.branch, ⟨"n"⟩, .update, none, some ⟨"b"⟩⟩ (by decide +kernel)

end Push

end HeadScout
