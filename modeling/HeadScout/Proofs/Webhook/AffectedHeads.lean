import HeadScout.Proofs.Webhook.Processing

/-!
# Affected heads

A source learns from an event which of its heads are affected, and what they stand for now. A push
may change one ref several times, and it is told by several events. So the way of a change is long:
from the push into the group of its type, from there into an event, and from the event into a table
in which a later change of a ref replaces an earlier one.

What comes out can be told from the push alone. A ref is affected by the event of a type if a change
of that type touches it, and stands for what the last of these changes says. Changes whose tags have
no meaning affect nothing. A branch and a tag of one name are two heads, so they never get into each
other's way.

## Main definitions

* `Change.recognised` — the changes of a ref that count
* `HeadEvent.lastOn?` — the change of an event that decides about a head

## Main results

* `HeadEvent.get?_heads` — the affected heads of an event
* `Processor.events_process` — the events of a delivery
* `Processor.heads_of_delivery` — from a delivery to the affected heads
-/

namespace HeadScout

open ChangeGroups (types ofType)

/-! ### Refs as heads -/

theorem Head.ofRef_eq_iff {kind kind' : RefKind} {name name' : RefName} :
    Head.ofRef kind name = Head.ofRef kind' name' ↔ kind = kind' ∧ name = name' := by
  cases kind <;> cases kind' <;> simp [Head.ofRef]

namespace Change

/-- The head of the ref that moved. -/
def head (c : Change) : Head := .ofRef c.refKind c.refName

/-- The changes of a ref whose tags have a meaning, in their order. -/
def recognised (kind : RefKind) (name : RefName) (cs : List Change) : List Change :=
  cs.filter fun c => c.refKind = kind ∧ c.refName = name ∧ c.eventType?.isSome

variable {kind : RefKind} {name : RefName} {cs : List Change}

/-- The changes of a type on a ref, told in two ways. -/
theorem filter_ofType (kind : RefKind) (name : RefName) (cs : List Change) (t : EventType) :
    (ofType t cs).filter (fun c => c.head = Head.ofRef kind name) =
      (recognised kind name cs).filter fun c => c.eventType? = some t := by
  rw [ofType, recognised, List.filter_filter, List.filter_filter]
  apply List.filter_congr
  intro c _
  rw [Bool.eq_iff_iff]
  simp only [Bool.and_eq_true, decide_eq_true_eq, head, Head.ofRef_eq_iff]
  constructor
  · rintro ⟨⟨hkind, hname⟩, ht⟩
    exact ⟨ht, hkind, hname, by rw [ht]; rfl⟩
  · rintro ⟨ht, hkind, hname, -⟩
    exact ⟨⟨hkind, hname⟩, ht⟩

/-- A type of change touches a ref exactly if some change that counts has this type. -/
theorem exists_mem_ofType_iff {t : EventType} :
    (∃ c ∈ ofType t cs, c.head = Head.ofRef kind name) ↔
      ∃ c ∈ recognised kind name cs, c.eventType? = some t := by
  have hmem : ∀ c, (c ∈ ofType t cs ∧ c.head = Head.ofRef kind name) ↔
      (c ∈ recognised kind name cs ∧ c.eventType? = some t) := by
    intro c
    have h := congrArg (c ∈ ·) (filter_ofType kind name cs t)
    simpa only [List.mem_filter, decide_eq_true_eq, eq_iff_iff] using h
  exact exists_congr hmem

end Change

/-! ### One event -/

namespace HeadEvent

variable (e : HeadEvent) (source : Registration.Source)

/-- The change that decides what becomes of a head: the last one of its ref. -/
def lastOn? (h : Head) : Option Change := (e.changes.filter fun c => c.head = h).getLast?

theorem heads_of_not_concerns {e : HeadEvent} {source : Registration.Source}
    (hsource : e.concernsSource source = false) : e.heads source = .empty := by
  rw [heads, hsource, if_neg Bool.false_ne_true]

/-- A head stands for what the last change of its ref says. -/
theorem get?_heads {e : HeadEvent} {source : Registration.Source}
    (hsource : e.concernsSource source = true) (h : Head) :
    (e.heads source).get? h = (e.lastOn? h).map e.revision? := by
  -- The table looks a head up by comparing, the event by the ref itself.
  have hkey : ((fun x : Head × Option Revision => compare h x.1 == .eq) ∘
      fun c : Change => (Head.ofRef c.refKind c.refName, e.revision? c)) =
        fun c => decide (c.head = h) := by
    funext c
    rw [Bool.eq_iff_iff, Function.comp_apply, beq_iff_eq, decide_eq_true_iff,
      Std.compare_eq_iff_eq, eq_comm]
    rfl
  rw [heads, if_pos hsource, SortedTable.get?_ofList, ← List.map_reverse, List.find?_map, hkey,
    lastOn?, List.getLast?_filter, Option.map_map]
  rfl

/-- The affected heads are those of the refs that moved. -/
theorem mem_keys_heads_iff {e : HeadEvent} {source : Registration.Source}
    (hsource : e.concernsSource source = true) {h : Head} :
    h ∈ (e.heads source).keys ↔ ∃ c ∈ e.changes, c.head = h := by
  rw [SortedTable.mem_keys_iff, get?_heads hsource, Option.isSome_map, lastOn?,
    List.getLast?_isSome, Ne, List.filter_eq_nil_iff]
  simp

end HeadEvent

/-! ### One delivery -/

namespace Push

variable {push : Push} {i : Incoming} {url : ServerUrl} {stamp : Stamp} {t : EventType}
  {source : Registration.Source} {kind : RefKind} {name : RefName}

/-- The event of a type affects a ref if a change of that type touches it. -/
theorem mem_keys_headEvent_iff
    (hsource : (push.headEvent i url stamp t (ofType t push.changes)).concernsSource source = true) :
    Head.ofRef kind name ∈
        ((push.headEvent i url stamp t (ofType t push.changes)).heads source).keys ↔
      ∃ c ∈ Change.recognised kind name push.changes, c.eventType? = some t := by
  rw [HeadEvent.mem_keys_heads_iff hsource]
  exact Change.exists_mem_ofType_iff

theorem get?_headEvent
    (hsource : (push.headEvent i url stamp t (ofType t push.changes)).concernsSource source = true)
    {c : Change} (hlast : (Change.recognised kind name push.changes).getLast? = some c)
    (hsame : ∀ c' ∈ Change.recognised kind name push.changes, c'.eventType? = some t) :
    ((push.headEvent i url stamp t (ofType t push.changes)).heads source).get?
        (Head.ofRef kind name) =
      some (if t = .removed then none else c.toHash.map (⟨·⟩)) := by
  have hall : (Change.recognised kind name push.changes).filter (fun c => c.eventType? = some t) =
      Change.recognised kind name push.changes := by
    rw [List.filter_eq_self]
    intro c' hc'
    exact decide_eq_true (hsame c' hc')
  rw [HeadEvent.get?_heads hsource]
  change ((ofType t push.changes).filter _).getLast?.map _ = _
  -- The last change of the type on the ref is the last one on the ref that counts.
  rw [Change.filter_ofType, hall, hlast]
  cases t <;> rfl

end Push

namespace Processor

variable (p : Processor) (config : WebhookConfig) (stamp : Stamp) {i : Incoming} {url : ServerUrl}
  {push : Push}

/-- A delivery whose changes are listed leads to one event for each of their types. -/
theorem events_process (hread : p.reads? i = some (url, push))
    (hlimit : push.refLimitExceeded = false) (hchanges : push.changes ≠ []) :
    (Effect.events (p.process config stamp i)).map (·.1) =
      (types push.changes).map fun t => push.headEvent i url stamp t (ofType t push.changes) := by
  have hcalls := congrArg Prod.fst (calls_process config stamp i p)
  rw [hread] at hcalls
  change Effect.events (p.process config stamp i) = (push.calls config i url stamp).1 at hcalls
  rw [hcalls, Push.calls, hlimit, if_neg Bool.false_ne_true, if_neg hchanges, List.map_map]
  rfl

/-- From a delivery to the affected heads, for a source that the events concern. A ref is affected
by no event if no change of it counts. If all changes of it that count are of one type, it is
affected by one event, and stands for what the last of them says, or for nothing if it was removed.
Branches and tags of one name are different heads. Whatever the event and the source, the affected
heads are listed in strict order, each once, and there are none if the source is not concerned. -/
theorem heads_of_delivery (hread : p.reads? i = some (url, push))
    (hlimit : push.refLimitExceeded = false) (hchanges : push.changes ≠ [])
    (source : Registration.Source)
    (hsource : ∀ e ∈ (Effect.events (p.process config stamp i)).map (·.1),
      e.concernsSource source = true) :
    (∀ kind name, Change.recognised kind name push.changes = [] →
      ∀ e ∈ (Effect.events (p.process config stamp i)).map (·.1),
        Head.ofRef kind name ∉ (e.heads source).keys) ∧
    (∀ kind name t c, (Change.recognised kind name push.changes).getLast? = some c →
      (∀ c' ∈ Change.recognised kind name push.changes, c'.eventType? = some t) →
      ∃ e, ((Effect.events (p.process config stamp i)).map (·.1)).filter
            (fun e => Head.ofRef kind name ∈ (e.heads source).keys) = [e] ∧
        e.eventType = t ∧
        (e.heads source).get? (.ofRef kind name) =
          some (if t = .removed then none else c.toHash.map (⟨·⟩))) ∧
    (∀ kind kind' name name', Head.ofRef kind name = Head.ofRef kind' name' ↔
      kind = kind' ∧ name = name') ∧
    ∀ (e : HeadEvent) (source : Registration.Source),
      (e.heads source).entries.Pairwise (fun a b => compare a.1 b.1 = .lt) ∧
        (e.heads source).keys.Nodup ∧
        (e.concernsSource source = false → (e.heads source).entries = []) := by
  rw [events_process p config stamp hread hlimit hchanges] at hsource ⊢
  have hsource := List.forall_mem_map.mp hsource
  refine ⟨?_, ?_, fun _ _ _ _ => Head.ofRef_eq_iff, ?_⟩
  · intro kind name hnone
    rw [List.forall_mem_map]
    intro t ht hmem
    obtain ⟨c, hc, -⟩ := (Push.mem_keys_headEvent_iff (hsource t ht)).mp hmem
    rw [hnone] at hc
    cases hc
  · intro kind name t c hlast hsame
    have hc : c ∈ Change.recognised kind name push.changes := List.mem_of_getLast? hlast
    have ht : t ∈ types push.changes :=
      ChangeGroups.mem_types_iff.mpr ⟨c, List.mem_of_mem_filter hc, hsame c hc⟩
    refine ⟨push.headEvent i url stamp t (ofType t push.changes), ?_, rfl,
      Push.get?_headEvent (hsource t ht) hlast hsame⟩
    -- No type is listed twice, so there is no second event for this one.
    have honly : (types push.changes).filter (fun t' => Head.ofRef kind name ∈
        ((push.headEvent i url stamp t' (ofType t' push.changes)).heads source).keys) = [t] := by
      refine List.perm_singleton.mp ((List.perm_ext_iff_of_nodup
        ((ChangeGroups.nodup_types _).filter _) (List.nodup_singleton t)).mpr ?_)
      intro t'
      rw [List.mem_filter, decide_eq_true_eq, List.mem_singleton]
      constructor
      · rintro ⟨ht', hmem⟩
        obtain ⟨c', hc', hc't⟩ := (Push.mem_keys_headEvent_iff (hsource t' ht')).mp hmem
        exact Option.some.inj (hc't.symm.trans (hsame c' hc'))
      · rintro rfl
        exact ⟨ht, (Push.mem_keys_headEvent_iff (hsource t' ht)).mpr ⟨c, hc, hsame c hc⟩⟩
    rw [List.filter_map]
    exact congrArg (List.map _) honly
  · intro e source
    refine ⟨(e.heads source).ascending, (e.heads source).nodup_keys, ?_⟩
    intro hnot
    rw [HeadEvent.heads_of_not_concerns hnot]
    rfl

/-- The source of the repository that was pushed to. -/
def repeatedSource : Registration.Source := .bitbucket cloudUrl.text "P" "w"

def repeatedEvents : List HeadEvent :=
  (Effect.events (dispatcher.process .standard ⟨.ofNat 0, fun _ => ⟨0, 0, 0⟩⟩ repeatedDelivery)).map
    (·.1)

theorem concernsSource_repeatedEvents :
    ∀ e ∈ repeatedEvents, e.concernsSource repeatedSource = true := by
  rw [repeatedEvents, events_process _ _ _ reads?_repeatedDelivery rfl (List.cons_ne_nil _ _)]
  rw [List.forall_mem_map]
  intro t _
  change (isCloudUrl cloudUrl.text && Text.sameLetters "P" "P" && Text.sameLetters "w" "w") = true
  rw [isCloudUrl_cloudUrl, Text.sameLetters_refl, Text.sameLetters_refl]
  rfl

/-- The branch is told of by one event and stands for its second update, and the tag of its name is
told of by another one and is gone. A branch that did not move is told of by none. -/
theorem heads_repeatedDelivery :
    (∃ e, repeatedEvents.filter
          (fun e => Head.ofRef .branch ⟨"m"⟩ ∈ (e.heads repeatedSource).keys) = [e] ∧
        e.eventType = .updated ∧
        (e.heads repeatedSource).get? (.ofRef .branch ⟨"m"⟩) = some (some ⟨⟨"b"⟩⟩)) ∧
      (∃ e, repeatedEvents.filter
          (fun e => Head.ofRef .tag ⟨"m"⟩ ∈ (e.heads repeatedSource).keys) = [e] ∧
        e.eventType = .removed ∧
        (e.heads repeatedSource).get? (.ofRef .tag ⟨"m"⟩) = some none) ∧
      ∀ e ∈ repeatedEvents, Head.ofRef .branch ⟨"dev"⟩ ∉ (e.heads repeatedSource).keys := by
  have hheads := heads_of_delivery dispatcher .standard ⟨.ofNat 0, fun _ => ⟨0, 0, 0⟩⟩
    reads?_repeatedDelivery rfl (List.cons_ne_nil _ _) repeatedSource concernsSource_repeatedEvents
  obtain ⟨hnone, hone, -⟩ := hheads
  refine ⟨?_, ?_, ?_⟩
  · exact hone .branch ⟨"m"⟩ .updated ⟨.branch, ⟨"m"⟩, .update, none, some ⟨"b"⟩⟩ (by decide +kernel)
      (by decide +kernel)
  · exact hone .tag ⟨"m"⟩ .removed ⟨.tag, ⟨"m"⟩, .delete, none, none⟩ (by decide +kernel)
      (by decide +kernel)
  · exact hnone .branch ⟨"dev"⟩ (by decide +kernel)

end Processor

end HeadScout
