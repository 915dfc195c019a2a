import HeadScout.Proofs.Command.Draining
import HeadScout.Proofs.Command.Lines
import HeadScout.Proofs.Webhook.Acknowledgement
import HeadScout.Proofs.Webhook.Matching

/-!
# What a replay reports

A replay hands one delivery to a listener, lets go of the listener, and prints what leaves the
outbox. The requests and events that are printed are those the delivery leads to, each on one line
that says what it is and from which it can be read back, whatever strings stand in it.

An event is printed once it has waited for as long as the outbox lets it wait, which is never more
than thirty years.

## Main results

* `Delivery.replayed_eq` — the delivery that is handed to the listener
* `Invocation.replay_reports` — what is printed, when, and whether the replay succeeds
-/

namespace HeadScout

open Json (OnOneLine)

/-! ### The delay of events -/

/-- All events of a delivery wait as long as the settings say. -/
theorem Processor.delay_of_mem_events {p : Processor} {config : WebhookConfig} {stamp : Stamp}
    {i : Incoming} {x : HeadEvent × UInt64} (hx : x ∈ Effect.events (p.process config stamp i)) :
    x.2 = config.eventDelay := by
  have hcalls := congrArg Prod.fst (calls_process config stamp i p)
  change Effect.events (p.process config stamp i) = _ at hcalls
  rw [hcalls] at hx
  cases hread : p.reads? i with
  | none =>
    rw [hread] at hx
    cases hx
  | some found =>
    rw [hread, Incoming.calls, Push.calls] at hx
    split_ifs at hx
    · cases hx
    · cases hx
    · cases hx
    · obtain ⟨t, -, rfl⟩ := List.mem_map.mp hx
      rfl

theorem Waiting.span_ofSeconds (seconds : UInt64) :
    span (.ofSeconds seconds) = min (seconds.toNat * 1000) thirtyYears := by
  have hmilliseconds : (Delay.ofSeconds seconds).milliseconds = seconds.toNat * 1000 := by
    simp [Delay.milliseconds, Delay.ofSeconds]
  rw [span, hmilliseconds]

namespace Delivery

variable {d : Delivery} {config : WebhookConfig} {stamp : Stamp}

/-- The effects of a delivery at the dispatcher. -/
def effects (d : Delivery) (config : WebhookConfig) (stamp : Stamp) : List Effect :=
  (d.receive (Processor.dispatcher.process config stamp)).2

/-- Only what a processor does is a request or an event. -/
theorem calls_effects (d : Delivery) (config : WebhookConfig) (stamp : Stamp) :
    Effect.calls (d.effects config stamp) = Effect.calls
      ((d.handed (answerTo d.kind)).flatMap (Processor.dispatcher.process config stamp)) := by
  obtain ⟨told, hreceive⟩ := d.exists_receive_eq
  rw [effects, hreceive, Effect.calls_note_append]

theorem delay_of_mem_effects {x : HeadEvent × UInt64}
    (hx : x ∈ Effect.events (d.effects config stamp)) : x.2 = config.eventDelay := by
  have hcalls := congrArg Prod.fst (d.calls_effects config stamp)
  change Effect.events _ = Effect.events _ at hcalls
  rw [hcalls] at hx
  cases hanswer : answerTo d.kind with
  | processed k =>
    rw [hanswer, handed, List.flatMap_singleton] at hx
    exact Processor.delay_of_mem_events hx
  | ping =>
    rw [hanswer] at hx
    cases hx
  | ignored =>
    rw [hanswer] at hx
    cases hx

theorem span_of_mem_effects {x : HeadEvent × UInt64}
    (hx : x ∈ Effect.events (d.effects config stamp)) :
    Waiting.span (.ofSeconds x.2) = Waiting.span (.ofSeconds config.eventDelay) := by
  rw [delay_of_mem_effects hx]

end Delivery

/-! ### A replayed delivery -/

namespace Delivery

variable {eventKey body origin : String} {declaredType serverUrl : Option String}

/-- A replayed delivery has one header or two. -/
theorem replayed_eq :
    replayed eventKey body origin declaredType serverUrl =
      assembled origin
        (("X-Event-Key", eventKey) :: declaredType.toList.map fun v => ("X-Bitbucket-Type", v))
        (some body) serverUrl := by
  rw [assembled_eq]
  cases declaredType <;> rfl

theorem header?_replayed :
    (replayed eventKey body origin declaredType serverUrl).header? eventKeyHeader =
      some eventKey := by
  have hother : Text.sameLetters productHeader eventKeyHeader = false :=
    Bool.eq_false_iff.mpr (mt Text.sameLetters_iff_toList.mp (by decide +kernel))
  cases declaredType <;> simp [replayed, header?, withHeader, ofOrigin, hother]

/-- A replayed delivery is ignored unless its key is that of a kind. -/
theorem answerTo_replayed_eq_ignored_iff :
    answerTo (replayed eventKey body origin declaredType serverUrl).kind = .ignored ↔
      Text.trim eventKey ∉
        ["repo:push", "repo:refs_changed", "mirror:repo_synchronized", "diagnostics:ping"] := by
  rw [answerTo_eq_ignored_iff, WebhookKind.mem_eventKeys_iff, not_exists]
  simp only [ne_eq, kind_eq_ok_iff, header?_replayed, Option.map_some, Option.some.injEq]

/-- A delivery is replayed unless it is ignored. -/
theorem replay?_eq (d : Delivery) (config : WebhookConfig) (stamp : Stamp) :
    d.replay? config stamp =
      if answerTo d.kind = .ignored then none
      else some ((Outbox.empty 0).dispatch (d.effects config stamp)).value.lines := by
  obtain ⟨told, hreceive⟩ := d.exists_receive_eq
  rw [replay?, effects, hreceive]
  cases answerTo d.kind <;> rfl

/-- An ignored delivery leads to nothing. -/
theorem calls_effects_of_ignored {d : Delivery} (h : answerTo d.kind = .ignored)
    (config : WebhookConfig) (stamp : Stamp) :
    Effect.calls (d.effects config stamp) = ([], []) := by
  rw [calls_effects, h]
  rfl

end Delivery

namespace Invocation

variable {world : World} {connection : Connection} {eventKey path origin : String}
  {declaredType : Option String} {scan : Option Bool} {delay : Option UInt64}

theorem run_replay :
    run world ⟨connection, .replay eventKey path origin declaredType scan delay⟩ = Work.outcome
      (replayFile world connection eventKey path origin declaredType scan delay) := rfl

/-- Without a body or without settings nothing is printed. -/
theorem run_replay_of_invalid (h : world.file path = none ∨
      ∃ e, WebhookConfig.resolve world.environment scan delay = .error e) :
    ∃ report, run world ⟨connection, .replay eventKey path origin declaredType scan delay⟩ =
      ⟨[], some report, []⟩ := by
  rw [run_replay, replayFile]
  cases hbody : world.file path with
  | none => exact ⟨_, rfl⟩
  | some body =>
    obtain ⟨e, he⟩ := h.resolve_left (by rw [hbody]; exact nofun)
    rw [he]
    exact ⟨_, rfl⟩

section

variable {body : String} {config : WebhookConfig} (hbody : world.file path = some body)
  (hconfig : WebhookConfig.resolve world.environment scan delay = .ok config)

include hbody hconfig

theorem run_replay_of_lines {lines : List TimedLine}
    (h : (Delivery.replayed eventKey body origin declaredType connection.serverUrl).replay? config
      world.stamp = some lines) :
    run world ⟨connection, .replay eventKey path origin declaredType scan delay⟩ =
      ⟨lines, none, []⟩ := by
  rw [run_replay, replayFile, hbody, hconfig]
  dsimp only
  rw [h]
  rfl

theorem run_replay_of_no_lines
    (h : (Delivery.replayed eventKey body origin declaredType connection.serverUrl).replay? config
      world.stamp = none) :
    ∃ report, run world ⟨connection, .replay eventKey path origin declaredType scan delay⟩ =
      ⟨[], some report, []⟩ := by
  rw [run_replay, replayFile, hbody, hconfig]
  dsimp only
  rw [h]
  exact ⟨_, rfl⟩

/-- Otherwise the lines are those of the outbox, which are none for a delivery that is ignored. -/
theorem run_replay_of_valid {d : Delivery}
    (hd : d = Delivery.replayed eventKey body origin declaredType connection.serverUrl) :
    let outcome := run world ⟨connection, .replay eventKey path origin declaredType scan delay⟩
    (outcome.failure = none ↔ Delivery.answerTo d.kind ≠ .ignored) ∧
      outcome.lines = ((Outbox.empty 0).dispatch (d.effects config world.stamp)).value.lines := by
  intro outcome
  by_cases hignored : Delivery.answerTo d.kind = .ignored
  · obtain ⟨report, houtcome⟩ : ∃ report, outcome = ⟨[], some report, []⟩ :=
      run_replay_of_no_lines hbody hconfig (by rw [← hd, Delivery.replay?_eq, if_pos hignored])
    have hcalls := Delivery.calls_effects_of_ignored hignored config world.stamp
    have hevents : Effect.events (d.effects config world.stamp) = [] := congrArg Prod.fst hcalls
    have hreindexes : Effect.reindexes (d.effects config world.stamp) = [] :=
      congrArg Prod.snd hcalls
    -- Nothing waits, so any time will do.
    have hnone : ∀ x ∈ Effect.events (d.effects config world.stamp),
        Waiting.span (.ofSeconds x.2) = 0 := by
      rw [hevents]
      exact nofun
    rw [houtcome, Drain.lines_dispatch hnone, hevents, hreindexes]
    exact ⟨⟨nofun, fun h => absurd hignored h⟩, rfl⟩
  · have houtcome : outcome =
        ⟨((Outbox.empty 0).dispatch (d.effects config world.stamp)).value.lines, none, []⟩ :=
      run_replay_of_lines hbody hconfig (by rw [← hd, Delivery.replay?_eq, if_neg hignored])
    rw [houtcome]
    exact ⟨⟨fun _ => hignored, fun _ => rfl⟩, rfl⟩

end

/-- A replay of a readable body with valid settings succeeds exactly if its event key is known. It
prints a line for each request and then one for each event, in their order; the requests at once,
the events once they have waited for their delay, or for thirty years if that is shorter. Each line
stands by itself and is read back. The loops that print come to their end in every fair schedule;
what they have printed then is the same in every schedule, but for the order of the events and that
these may be late. -/
theorem replay_reports (hclock : ∀ t, (world.stamp.time t).IsValid) :
    let outcome := run world ⟨connection, .replay eventKey path origin declaredType scan delay⟩
    ((world.file path = none ∨
        ∃ e, WebhookConfig.resolve world.environment scan delay = .error e) →
      outcome.exitCode ≠ 0 ∧ outcome.lines = []) ∧
    ∀ body config, world.file path = some body →
      WebhookConfig.resolve world.environment scan delay = .ok config →
      let headers :=
        ("X-Event-Key", eventKey) :: declaredType.toList.map fun v => ("X-Bitbucket-Type", v)
      let d := Delivery.assembled origin headers (some body) connection.serverUrl
      let effects := (d.receive (Processor.dispatcher.process config world.stamp)).2
      let requests := Effect.reindexes effects
      let events := (Effect.events effects).map (·.1)
      let pause := min (config.eventDelay.toNat * 1000) Waiting.thirtyYears
      (outcome.exitCode = 0 ↔ Text.trim eventKey ∈
        ["repo:push", "repo:refs_changed", "mirror:repo_synchronized", "diagnostics:ping"]) ∧
      (∀ x ∈ Effect.events effects, x.2 = config.eventDelay) ∧
      outcome.lines = Drain.requestLines (requests.map fun r => (0, r)) ++
        Drain.eventLines (events.map fun e => (pause, e)) ∧
      (∀ l ∈ outcome.lines, OnOneLine l.line.render.toList ∧ l.line.IsReadBack) ∧
      (∀ schedule, Drain.IsFair schedule → ∃ n,
        ((Drain.ofEffects effects).steps (Drain.firstMoves schedule n)).phase = .finished) ∧
      (∀ ms, ((Drain.ofEffects effects).steps ms).phase = .finished → ∃ rs es,
        ((Drain.ofEffects effects).steps ms).printed =
            Drain.requestLines rs ++ Drain.eventLines es ∧
          rs.map (·.2) = requests ∧ (es.map (·.2)).Perm events ∧ ∀ e ∈ es, pause ≤ e.1) ∧
      ∃ ms, ((Drain.ofEffects effects).steps ms).phase = .finished ∧
        ((Drain.ofEffects effects).steps ms).printed = outcome.lines := by
  intro outcome
  have hexit : outcome.exitCode = 0 ↔ outcome.failure = none := outcome.exitCode_eq_zero_iff
  refine ⟨?_, ?_⟩
  · intro h
    obtain ⟨report, hrun⟩ : ∃ report, outcome = ⟨[], some report, []⟩ := run_replay_of_invalid h
    rw [ne_eq, hexit, hrun]
    exact ⟨nofun, rfl⟩
  · intro body config hbody hconfig headers d effects requests events pause
    have hd : d = Delivery.replayed eventKey body origin declaredType connection.serverUrl :=
      Delivery.replayed_eq.symm
    have hdelay : ∀ x ∈ Effect.events effects, x.2 = config.eventDelay :=
      fun x hx => Delivery.delay_of_mem_effects hx
    have hspan : ∀ x ∈ Effect.events effects, Waiting.span (.ofSeconds x.2) = pause :=
      fun x hx => (Delivery.span_of_mem_effects hx).trans
        (Waiting.span_ofSeconds config.eventDelay)
    obtain ⟨hsucceeds, hlines⟩ : (outcome.failure = none ↔ Delivery.answerTo d.kind ≠ .ignored) ∧
        outcome.lines = ((Outbox.empty 0).dispatch effects).value.lines :=
      run_replay_of_valid hbody hconfig hd
    have hignored : Delivery.answerTo d.kind = .ignored ↔ Text.trim eventKey ∉
        ["repo:push", "repo:refs_changed", "mirror:repo_synchronized", "diagnostics:ping"] := by
      rw [hd]
      exact Delivery.answerTo_replayed_eq_ignored_iff
    have hprinted : outcome.lines = Drain.requestLines (requests.map fun r => (0, r)) ++
        Drain.eventLines (events.map fun e => (pause, e)) := by
      rw [hlines, Drain.lines_dispatch hspan, List.map_map]
      rfl
    have hsound := Drain.sound_ofEffects hspan
    refine ⟨?_, hdelay, hprinted, ?_, ?_, ?_, ?_⟩
    · rw [hexit, hsucceeds, ne_eq, hignored, not_not]
    · rw [hprinted]
      intro l hl
      refine ⟨l.line.onOneLine_render, OutputLine.isReadBack ?_⟩
      -- Only a line for an event is about one, and then the delivery has led to it.
      rcases List.mem_append.mp hl with hl | hl
      · obtain ⟨⟨due, r⟩, -, rfl⟩ := List.mem_map.mp hl
        rintro e ⟨⟩
      · obtain ⟨⟨due, e⟩, he, rfl⟩ := List.mem_map.mp hl
        obtain ⟨_, he, ⟨⟩⟩ := List.mem_map.mp he
        obtain ⟨k, he⟩ := Delivery.exists_incoming_of_mem_events he
        rintro _ ⟨⟩
        exact Processor.isProper_of_mem_process hclock he
    · intro schedule hfair
      exact hsound.exists_finished hfair
    · intro ms hfinished
      exact (hsound.steps ms).exists_printed_of_finished hfinished
    · obtain ⟨ms, hms, hall⟩ := Drain.exists_steps_eq_lines hspan
      exact ⟨ms, hms, hall.trans hlines.symm⟩

/-- A world in which every file holds a push that moves a branch. -/
def pushWorld : World :=
  ⟨fun _ => none, fun _ => some Processor.repeatedBody, .offline, Delivery.declaredStamp⟩

/-- The replay of that push, its events delayed by so many seconds. -/
def replayOfPush (seconds : UInt64) : Invocation :=
  ⟨⟨none, none, none, none, none⟩,
    .replay "repo:push" "push.json" "10.0.0.1" none none (some seconds)⟩

theorem exists_event_of_push (config : WebhookConfig) : ∃ e, e ∈
    (Delivery.replayed "repo:push" Processor.repeatedBody "10.0.0.1" none none).events config
      pushWorld.stamp := by
  have hkind : (Delivery.replayed "repo:push" Processor.repeatedBody "10.0.0.1" none none).kind =
      .ok .push := Delivery.kind_of_header? Delivery.header?_replayed
  have hother : Text.sameLetters Delivery.eventKeyHeader Delivery.productHeader = false :=
    Bool.eq_false_iff.mpr (mt Text.sameLetters_iff_toList.mp (by decide +kernel))
  have hdeclared : (Delivery.replayed "repo:push" Processor.repeatedBody "10.0.0.1" none
      none).declaresServer = false := by
    simp [Delivery.declaresServer, Delivery.header?, Delivery.replayed, Delivery.withHeader,
      Delivery.ofOrigin, hother]
  have hincoming : (Delivery.replayed "repo:push" Processor.repeatedBody "10.0.0.1" none
      none).incoming .push = Processor.repeatedDelivery := by
    rw [Delivery.incoming, Delivery.product, hdeclared]
    rfl
  -- The changes of the push are read off its body, so only their types are computed here.
  have htype : EventType.updated ∈ ChangeGroups.types Processor.repeatedPush.changes := by
    decide +kernel
  rw [Delivery.events_of_kind hkind (by decide), hincoming,
    Processor.events_process _ _ _ Processor.reads?_repeatedDelivery rfl (List.cons_ne_nil _ _)]
  exact ⟨_, List.mem_map.mpr ⟨.updated, htype, rfl⟩⟩

/-- An event of a delivery is printed once it has waited. -/
theorem mem_lines_replay {body : String} {config : WebhookConfig}
    (hbody : world.file path = some body)
    (hconfig : WebhookConfig.resolve world.environment scan delay = .ok config) {e : HeadEvent}
    (he : e ∈ (Delivery.replayed eventKey body origin declaredType connection.serverUrl).events
      config world.stamp) :
    ⟨Waiting.span (.ofSeconds config.eventDelay), .event e⟩ ∈
      (run world ⟨connection, .replay eventKey path origin declaredType scan delay⟩).lines := by
  obtain ⟨x, hx, rfl⟩ := List.mem_map.mp he
  rw [(run_replay_of_valid hbody hconfig rfl).2,
    Drain.lines_dispatch fun y => Delivery.span_of_mem_effects]
  exact List.mem_append_right _ (List.mem_map.mpr ⟨_, List.mem_map.mpr ⟨x, hx, rfl⟩, rfl⟩)

/-- The event of the push is printed once it has waited. -/
theorem exists_line_replayOfPush (seconds : UInt64) : ∃ e,
    (⟨Waiting.span (.ofSeconds seconds), .event e⟩ : TimedLine) ∈
      ((replayOfPush seconds).run pushWorld).lines := by
  have hconfig : WebhookConfig.resolve pushWorld.environment none (some seconds) =
      .ok ⟨true, seconds⟩ := rfl
  obtain ⟨e, he⟩ := exists_event_of_push ⟨true, seconds⟩
  exact ⟨e, mem_lines_replay rfl hconfig he⟩

theorem replay_reports_pushWorld :
    (∀ t, (pushWorld.stamp.time t).IsValid) ∧
      pushWorld.file "push.json" = some Processor.repeatedBody ∧
      WebhookConfig.resolve pushWorld.environment none (some 60) = .ok ⟨true, 60⟩ ∧
      ((replayOfPush 60).run pushWorld).exitCode = 0 ∧
      (∀ l ∈ ((replayOfPush 60).run pushWorld).lines,
        OnOneLine l.line.render.toList ∧ l.line.IsReadBack) ∧
      ∃ e, (⟨60000, .event e⟩ : TimedLine) ∈ ((replayOfPush 60).run pushWorld).lines := by
  have hclock : ∀ t, (pushWorld.stamp.time t).IsValid := by
    have hstart : (⟨0, 0, 0⟩ : Timestamp).IsValid :=
      ⟨by decide, .inl (by decide), by decide +kernel⟩
    exact fun _ => hstart
  have hconfig : WebhookConfig.resolve pushWorld.environment none (some 60) = .ok ⟨true, 60⟩ := rfl
  have hspan : Waiting.span (.ofSeconds 60) = 60000 := by
    rw [Waiting.span_ofSeconds]
    exact Nat.min_eq_left (by decide)
  obtain ⟨-, hvalid⟩ := @replay_reports pushWorld ⟨none, none, none, none, none⟩ "repo:push"
    "push.json" "10.0.0.1" none none (some 60) hclock
  obtain ⟨hexit, -, -, hlines, -⟩ := hvalid _ _ rfl hconfig
  refine ⟨hclock, rfl, hconfig, hexit.mpr (by decide +kernel), hlines, ?_⟩
  rw [← hspan]
  exact exists_line_replayOfPush 60

/-! ### A delay of more than thirty years -/

/-- An event whose delay is longer than thirty years is printed before the delay has passed. -/
theorem not_forall_event_after_delay :
    ¬ ∀ (world : World) (connection : Connection) (eventKey path origin : String)
      (declaredType : Option String) (scan : Option Bool) (delay : Option UInt64)
      (config : WebhookConfig),
      WebhookConfig.resolve world.environment scan delay = .ok config →
        ∀ l ∈ (run world ⟨connection,
            .replay eventKey path origin declaredType scan delay⟩).lines,
          (∃ e, l.line = .event e) → config.eventDelay.toNat * 1000 ≤ l.due := by
  intro h
  obtain ⟨e, he⟩ := exists_line_replayOfPush 946080001
  have hlate := h _ _ _ _ _ _ _ _ ⟨true, 946080001⟩ rfl _ he ⟨e, rfl⟩
  have hshort : ¬ (946080001 : UInt64).toNat * 1000 ≤
      min ((946080001 : UInt64).toNat * 1000) Waiting.thirtyYears := by decide
  rw [Waiting.span_ofSeconds] at hlate
  exact hshort hlate

end Invocation

end HeadScout
