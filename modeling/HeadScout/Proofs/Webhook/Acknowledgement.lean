import HeadScout.Proofs.Text.Trimming
import HeadScout.Webhook.Delivery

/-!
# What a sender is told

A delivery is acknowledged for its event key alone. Of the headers with one name, in letters of any
case, the last one that was added counts, and blanks around the key do not. So nothing else about a
delivery shows in the answer, and a sender is never asked to try again because a body cannot be read
or a processor fails.

A processor gets the event once if the answer says so, and otherwise never.

## Main definitions

* `Delivery.assembled` — the delivery that a sequence of headers builds
* `Delivery.lastValue?` — the last value given for a name

## Main results

* `Delivery.header?_assembled` — the headers that were added are those that are found
* `Delivery.receive_assembled` — the answer, and what a processor gets
-/

namespace HeadScout

namespace WebhookKind

theorem ofEventKey?_eq_some_iff {key : String} {k : WebhookKind} :
    ofEventKey? key = some k ↔ Text.trim key = k.eventKey := by
  constructor
  · intro h
    have hkey := List.find?_some h
    exact (beq_iff_eq.mp hkey).symm
  · intro h
    rw [ofEventKey?, h]
    cases k <;> decide

/-- The keys of all kinds. -/
theorem mem_eventKeys_iff {key : String} :
    key ∈ ["repo:push", "repo:refs_changed", "mirror:repo_synchronized", "diagnostics:ping"] ↔
      ∃ k : WebhookKind, key = k.eventKey := by
  constructor
  · intro h
    simp only [List.mem_cons, List.not_mem_nil, or_false] at h
    rcases h with rfl | rfl | rfl | rfl
    · exact ⟨.push, rfl⟩
    · exact ⟨.refsChanged, rfl⟩
    · exact ⟨.mirrorSynchronized, rfl⟩
    · exact ⟨.ping, rfl⟩
  · rintro ⟨k, rfl⟩
    cases k <;> decide

end WebhookKind

namespace Delivery

/-- The delivery that is built by adding the headers one after the other. -/
def assembled (origin : String) (headers : List (String × String))
    (body serverUrl : Option String) :
    Delivery :=
  { headers.foldl (fun d h => d.withHeader h.1 h.2) (ofOrigin origin) with
    body := body
    serverUrl := serverUrl }

/-- The last value that was given for a name in letters of any case. -/
def lastValue? (name : String) (headers : List (String × String)) : Option String :=
  ((headers.filter fun h => Text.sameLetters h.1 name).getLast?).map (·.2)

/-- What is added last for a name counts, in letters of any case. -/
theorem lastValue?_concat {name other : String} (h : Text.sameLetters other name = true)
    (headers : List (String × String)) (value : String) :
    lastValue? name (headers ++ [(other, value)]) = some value := by
  have hkept : [(other, value)].filter (fun h => Text.sameLetters h.1 name) = [(other, value)] :=
    List.filter_cons_of_pos h
  rw [lastValue?, List.filter_append, hkept, List.getLast?_concat]
  rfl

/-- The answer to a delivery whose kind is known or not. -/
def answerTo : Except DeliveryError WebhookKind → Acknowledgement
  | .error _ => .ignored
  | .ok .ping => .ping
  | .ok k => .processed k

/-- What is handed to a processor along with the given answer. -/
def handed (d : Delivery) : Acknowledgement → List Incoming
  | .processed k => [d.incoming k]
  | _ => []

/-! ### Headers -/

theorem foldl_withHeader (d : Delivery) (headers : List (String × String)) :
    headers.foldl (fun d h => d.withHeader h.1 h.2) d =
      { d with headers := d.headers ++ headers } := by
  induction headers generalizing d with
  | nil => rw [List.foldl_nil, List.append_nil]
  | cons h headers ih => rw [List.foldl_cons, ih, withHeader, List.append_assoc]; rfl

theorem assembled_eq (origin : String) (headers : List (String × String))
    (body serverUrl : Option String) :
    assembled origin headers body serverUrl = ⟨headers, body, serverUrl, origin⟩ := by
  rw [assembled, foldl_withHeader]
  rfl

/-- The last header with the name asked for is the one that is found. -/
theorem header?_assembled (origin : String) (headers : List (String × String))
    (body serverUrl : Option String) (name : String) :
    (assembled origin headers body serverUrl).header? name = lastValue? name headers := by
  rw [assembled_eq, header?, lastValue?, ← List.head?_filter, List.filter_reverse,
    List.head?_reverse]

/-! ### Answers -/

variable {d : Delivery} {k : WebhookKind}

theorem kind_eq_ok_iff :
    d.kind = .ok k ↔ (d.header? eventKeyHeader).map Text.trim = some k.eventKey := by
  rw [kind]
  cases d.header? eventKeyHeader with
  | none => exact ⟨nofun, nofun⟩
  | some key =>
    rw [Option.map_some, Option.some.injEq, ← WebhookKind.ofEventKey?_eq_some_iff]
    dsimp only
    cases WebhookKind.ofEventKey? key <;> simp

section

variable {kind kind' : Except DeliveryError WebhookKind}

theorem answerTo_eq_ping_iff : answerTo kind = .ping ↔ kind = .ok .ping := by
  rcases kind with e | k
  · simp [answerTo]
  · cases k <;> simp [answerTo]

theorem answerTo_eq_processed_iff : answerTo kind = .processed k ↔ k ≠ .ping ∧ kind = .ok k := by
  rcases kind with e | k'
  · simp [answerTo]
  · cases k' <;> simp +contextual [answerTo, eq_comm]

theorem answerTo_eq_ignored_iff : answerTo kind = .ignored ↔ ∀ k, kind ≠ .ok k := by
  rcases kind with e | k
  · simp [answerTo]
  · cases k <;> simp [answerTo]

/-- Why a kind is not known does not show in the answer. -/
theorem answerTo_congr (h : ∀ k, kind = .ok k ↔ kind' = .ok k) :
    answerTo kind = answerTo kind' := by
  -- Each answer is told by the kinds that get it, and these are the same for both.
  cases hanswer : answerTo kind' with
  | ping =>
    rw [answerTo_eq_ping_iff] at hanswer ⊢
    exact (h .ping).mpr hanswer
  | processed k =>
    rw [answerTo_eq_processed_iff] at hanswer ⊢
    exact ⟨hanswer.1, (h k).mpr hanswer.2⟩
  | ignored =>
    rw [answerTo_eq_ignored_iff] at hanswer ⊢
    exact fun k hk => hanswer k ((h k).mp hk)

end

/-- What is told is told whatever the processor does, and the processor gets the event only along
with the answer that says so. -/
theorem exists_receive_eq (d : Delivery) :
    ∃ told : List Notice, ∀ process, d.receive process =
      (answerTo d.kind, told.map Effect.note ++ (d.handed (answerTo d.kind)).flatMap process) := by
  rcases hkind : d.kind with e | k
  · refine ⟨[e.notice], fun process => ?_⟩
    rw [receive, receipt, hkind]
    rfl
  · cases k with
    | ping =>
      refine ⟨[.pingReceived], fun process => ?_⟩
      rw [receive, receipt, hkind]
      rfl
    | _ =>
      refine ⟨[], fun process => ?_⟩
      rw [receive, receipt, hkind, answerTo, handed, List.flatMap_singleton]
      · rfl
      · exact nofun

theorem product_eq_server_iff :
    d.product k = .server ↔ k.isNativeServer = true ∨
      ∃ v, d.header? productHeader = some v ∧ Text.sameLetters (Text.trim v) "server" = true := by
  have hdeclares : d.declaresServer = true ↔
      ∃ v, d.header? productHeader = some v ∧ Text.sameLetters (Text.trim v) "server" = true := by
    rw [declaresServer, Option.any_eq_true]
  rw [← hdeclares, ← Bool.or_eq_true, product]
  split
  · rename_i h
    exact ⟨fun _ => h, fun _ => rfl⟩
  · rename_i h
    exact ⟨nofun, fun h' => absurd h' h⟩

/-- The answer depends on the trimmed event key alone, of which the last value counts; a processor
gets the event exactly once if the answer is that it was processed, and never otherwise. -/
theorem receive_assembled (origin : String) (headers : List (String × String))
    (body serverUrl : Option String) :
    ∃ (answer : Acknowledgement) (told : List Notice),
      let d := assembled origin headers body serverUrl
      let key := (lastValue? "X-Event-Key" headers).map Text.trim
      (∀ process, d.receive process =
        (answer, told.map Effect.note ++ (d.handed answer).flatMap process)) ∧
      (answer = .ping ↔ key = some "diagnostics:ping") ∧
      (∀ k, answer = .processed k ↔ ∃ name, key = some name ∧ (name, k) ∈
        [("repo:push", WebhookKind.push), ("repo:refs_changed", .refsChanged),
          ("mirror:repo_synchronized", .mirrorSynchronized)]) ∧
      (answer = .ignored ↔ ∀ name ∈ key, name ∉
        ["repo:push", "repo:refs_changed", "mirror:repo_synchronized", "diagnostics:ping"]) ∧
      (∀ origin' headers' body' serverUrl' process,
        (lastValue? "X-Event-Key" headers').map Text.trim = key →
          ((assembled origin' headers' body' serverUrl').receive process).1 = answer) ∧
      ∀ k, (d.incoming k).kind = k ∧ (d.incoming k).payload = body ∧
        (d.incoming k).origin = origin ∧ (d.incoming k).serverUrl = serverUrl ∧
        ((d.incoming k).product = .server ↔ k ≠ .push ∨ ∃ v,
          lastValue? "X-Bitbucket-Type" headers = some v ∧
            Text.sameLetters (Text.trim v) "server" = true) := by
  obtain ⟨told, hreceive⟩ := exists_receive_eq (assembled origin headers body serverUrl)
  refine ⟨answerTo (assembled origin headers body serverUrl).kind, told, ?_⟩
  intro d key
  have hkey : (d.header? eventKeyHeader).map Text.trim = key :=
    congrArg (Option.map Text.trim) (header?_assembled origin headers body serverUrl eventKeyHeader)
  have hkind : ∀ k, d.kind = .ok k ↔ key = some k.eventKey := fun k => by rw [kind_eq_ok_iff, hkey]
  refine ⟨hreceive, ?_, ?_, ?_, ?_, ?_⟩
  · rw [answerTo_eq_ping_iff, hkind]
    rfl
  · intro k
    rw [answerTo_eq_processed_iff, hkind]
    cases k <;> simp [WebhookKind.eventKey]
  · rw [answerTo_eq_ignored_iff]
    simp only [WebhookKind.mem_eventKeys_iff]
    constructor
    · rintro h name hname ⟨k, rfl⟩
      exact h k ((hkind k).mpr hname)
    · intro h k hk
      exact h _ ((hkind k).mp hk) ⟨k, rfl⟩
  · intro origin' headers' body' serverUrl' process hsame
    obtain ⟨told', hreceive'⟩ := exists_receive_eq (assembled origin' headers' body' serverUrl')
    rw [hreceive']
    -- The errors of the two may differ: one has no key and the other an unknown one.
    refine answerTo_congr fun k => ?_
    rw [hkind, kind_eq_ok_iff, header?_assembled, ← hsame]
    rfl
  · intro k
    have hincoming : (d.incoming k).payload = body ∧ (d.incoming k).origin = origin ∧
        (d.incoming k).serverUrl = serverUrl := by
      simp only [d, assembled_eq, incoming, and_self]
    refine ⟨rfl, hincoming.1, hincoming.2.1, hincoming.2.2, ?_⟩
    rw [incoming, product_eq_server_iff, header?_assembled]
    cases k <;> simp [WebhookKind.isNativeServer, productHeader]

/-- A broken body gets the answer of any other push, and the event key that was added last counts.
-/
theorem receive_assembled_broken :
    (lastValue? "X-Event-Key"
          [("X-Event-Key", "diagnostics:ping"), ("x-event-key", " repo:push")]).map
        Text.trim = (lastValue? "X-Event-Key" [("X-Event-Key", "repo:push")]).map Text.trim ∧
      ∀ process, ((assembled "" [("X-Event-Key", "diagnostics:ping"), ("x-event-key", " repo:push")]
        (some "\x7b") none).receive process).1 = .processed .push := by
  have hletters : Text.sameLetters "x-event-key" "X-Event-Key" = true :=
    Text.sameLetters_iff_toList.mpr (by decide)
  have htight : Text.IsTight "repo:push" := by decide
  have hkey : (lastValue? "X-Event-Key" [("X-Event-Key", "repo:push")]).map Text.trim =
      some "repo:push" := by
    have hlast : lastValue? "X-Event-Key" [("X-Event-Key", "repo:push")] = some "repo:push" :=
      lastValue?_concat (Text.sameLetters_refl _) [] _
    rw [hlast, Option.map_some, Text.trim_eq_iff.mpr ⟨.self _, htight⟩]
  have hpadded : (lastValue? "X-Event-Key"
      [("X-Event-Key", "diagnostics:ping"), ("x-event-key", " repo:push")]).map Text.trim =
        some "repo:push" := by
    have hlast : lastValue? "X-Event-Key"
        [("X-Event-Key", "diagnostics:ping"), ("x-event-key", " repo:push")] =
          some " repo:push" :=
      lastValue?_concat hletters [("X-Event-Key", "diagnostics:ping")] _
    have hword : Text.HoldsWord " repo:push" "repo:push" :=
      .of_all " " "" (by decide) (by decide) (by decide)
    rw [hlast, Option.map_some, Text.trim_eq_iff.mpr ⟨hword, htight⟩]
  obtain ⟨answer, told, -, -, hprocessed, -, hsame, -⟩ :=
    receive_assembled "" [("X-Event-Key", "repo:push")] none none
  refine ⟨hpadded.trans hkey.symm, fun process => ?_⟩
  rw [hsame "" _ (some "\x7b") none process (hpadded.trans hkey.symm)]
  exact (hprocessed .push).mpr ⟨"repo:push", hkey, List.mem_cons_self⟩

end Delivery

end HeadScout
