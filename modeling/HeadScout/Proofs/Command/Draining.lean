import HeadScout.Command.Run
import HeadScout.Proofs.Webhook.Settling
import Mathlib.Algebra.GroupWithZero.Nat
import Mathlib.Order.WellFounded

/-!
# Draining an outbox

A replay prints what its delivery leads to by two loops, one after the other: the first receives
requests until nobody is left to make one, the second receives events until nobody is left to send
one. Between two looks at a channel tasks run and time passes, in any order and as much as they
like.

What is printed does not depend on the schedule but for the order and the times of the events: each
request and each event is printed once, requests in their order and in front, and no event before it
has waited. Every schedule comes to an end in which time passes without bound and tasks and the
loops have their turn again and again: each move either brings the end nearer or only moves the
clock.

## Main definitions

* `Drain`, `Drain.step` — the loops, and what they and the tasks do
* `Drain.Sound` — what was printed, what is on its way, and what still waits
* `Drain.IsFair` — nobody is kept waiting for ever

## Main results

* `Drain.Sound.step` — every move keeps the account
* `Drain.Sound.exists_finished` — every fair schedule comes to its end
* `Drain.exists_steps_eq_lines` — a prompt one prints the lines of the outbox
-/

namespace HeadScout

/-- Which loop is at work. -/
inductive Drain.Phase where
  /-- Requests are received. -/
  | requests
  /-- Events are received. -/
  | events
  | finished
  deriving DecidableEq, Repr

/-- An outbox that is drained, and what has been printed. -/
structure Drain where
  outbox : Outbox
  phase : Drain.Phase
  printed : List TimedLine
  deriving DecidableEq, Repr

/-- What can happen next. -/
inductive Drain.Move where
  /-- The task at a place runs. -/
  | run (i : Nat)
  | wait (milliseconds : Nat)
  /-- The loop looks at its channel. -/
  | look
  deriving DecidableEq, Repr

namespace Drain

/-- The outbox of a delivery, whose listener has let go of it, before anything is printed. -/
def ofEffects (effects : List Effect) : Drain :=
  ⟨((Outbox.empty 0).dispatch effects).value.release, .requests, []⟩

/-- One look at the channel of the loop at work: what was received is printed, and the loop ends
once nobody is left who can send. -/
def look (d : Drain) : Drain :=
  match d.phase with
  | .requests =>
    match d.outbox.requests.items with
    | r :: _ =>
      { d with
        outbox := (d.outbox.act .receiveRequest).value
        printed := d.printed ++ [⟨d.outbox.now, .reindex r⟩] }
    | [] => if d.outbox.handles = 0 then { d with phase := .events } else d
  | .events =>
    match d.outbox.events.items with
    | e :: _ =>
      { d with
        outbox := (d.outbox.act .receiveEvent).value
        printed := d.printed ++ [⟨d.outbox.now, .event e⟩] }
    | [] => if d.outbox.isClosed then { d with phase := .finished } else d
  | .finished => d

def step (d : Drain) : Move → Drain
  | .run i => { d with outbox := (d.outbox.act (.run i)).value }
  | .wait milliseconds => { d with outbox := (d.outbox.act (.advance milliseconds)).value }
  | .look => d.look

def steps (d : Drain) (ms : List Move) : Drain := ms.foldl step d

/-! ### Lines -/

/-- The lines of requests, with the times at which they are printed. -/
def requestLines (rs : List (Nat × ReindexRequest)) : List TimedLine :=
  rs.map fun (due, r) => ⟨due, .reindex r⟩

/-- The lines of events, with the times at which they are printed. -/
def eventLines (es : List (Nat × HeadEvent)) : List TimedLine :=
  es.map fun (due, e) => ⟨due, .event e⟩

/-- A list is seen the same where an item is replaced by one that is seen the same. -/
theorem map_set_of_getElem? {α β : Type} {f : α → β} {as : List α} {i : Nat} {a b : α}
    (h : as[i]? = some a) (hf : f b = f a) : (as.set i b).map f = as.map f := by
  have hi : (as.map f)[i]? = some (f a) := by rw [List.getElem?_map, h, Option.map_some]
  obtain ⟨hlt, hget⟩ := List.getElem?_eq_some_iff.mp hi
  rw [List.map_set, hf, ← hget, List.set_getElem_self]

/-! ### Looks that find something -/

section

variable {d : Drain}

theorem look_request {r : ReindexRequest} {rest : List ReindexRequest}
    (hphase : d.phase = .requests) (hitems : d.outbox.requests.items = r :: rest) :
    d.look = { d with
      outbox := { d.outbox with requests := { d.outbox.requests with items := rest } }
      printed := d.printed ++ requestLines [(d.outbox.now, r)] } := by
  rw [look, hphase]
  simp [hitems, Outbox.act, Channel.receive, requestLines]

theorem look_event {e : HeadEvent} {rest : List HeadEvent}
    (hphase : d.phase = .events) (hitems : d.outbox.events.items = e :: rest) :
    d.look = { d with
      outbox := { d.outbox with events := { d.outbox.events with items := rest } }
      printed := d.printed ++ eventLines [(d.outbox.now, e)] } := by
  rw [look, hphase]
  simp [hitems, Outbox.act, Channel.receive, eventLines]

end

/-! ### What is kept -/

/-- The drain accounts for the requests and for the events, all of which have to wait as long. -/
structure Sound (requests : List ReindexRequest) (events : List HeadEvent) (pause : Nat)
    (d : Drain) : Prop where
  /-- Nobody hands over anything more. -/
  handles : d.outbox.handles = 0
  /-- Only the tasks of waiting events can send. -/
  senders : d.outbox.senders = d.outbox.waiting.length
  receiver : d.outbox.events.hasReceiver = true
  span : ∀ w ∈ d.outbox.waiting, Waiting.span w.delay = pause
  due : ∀ w ∈ d.outbox.waiting, ∀ t ∈ w.due, pause ≤ t
  sent : d.outbox.events.items ≠ [] → pause ≤ d.outbox.now
  collected : d.phase ≠ .requests → d.outbox.requests.items = []
  finished : d.phase = .finished → d.outbox.waiting = [] ∧ d.outbox.events.items = []
  printed : ∃ rs es, d.printed = requestLines rs ++ eventLines es ∧
    (d.phase = .requests → es = []) ∧
    rs.map (·.2) ++ d.outbox.requests.items = requests ∧
    (d.outbox.waiting.map (·.event) ++ (es.map (·.2) ++ d.outbox.events.items)).Perm events ∧
    ∀ e ∈ es, pause ≤ e.1

namespace Sound

variable {requests : List ReindexRequest} {events : List HeadEvent} {pause : Nat} {d : Drain}

/-- An event that is due has waited. -/
theorem le_now_of_isDue (h : d.Sound requests events pause) {w : Waiting}
    (hw : w ∈ d.outbox.waiting) (hdue : (w.start d.outbox.now).isDue d.outbox.now = true) :
    pause ≤ d.outbox.now := by
  have hspan := h.span w hw
  have hwait := h.due w hw
  rw [Waiting.isDue, Waiting.start, Option.any_some, decide_eq_true_eq] at hdue
  cases hstart : w.due with
  | none =>
    rw [hstart, Option.getD_none, hspan] at hdue
    omega
  | some t =>
    rw [hstart, Option.getD_some] at hdue
    exact Nat.le_trans (hwait t hstart) hdue

theorem run (h : d.Sound requests events pause) (i : Nat) :
    (d.step (.run i)).Sound requests events pause := by
  cases hw : d.outbox.waiting[i]? with
  | none =>
    rw [step, Outbox.act, Outbox.value_run_of_none hw]
    exact h
  | some w =>
    have hmem : w ∈ d.outbox.waiting := List.mem_of_getElem? hw
    have hbusy : d.phase ≠ .finished := fun hphase =>
      List.ne_nil_of_mem hmem (h.finished hphase).1
    obtain ⟨rs, es, hprinted, hes, hrequests, hevents, hlate⟩ := h.printed
    cases hsends : d.outbox.sends i with
    | true =>
      -- The event moves from the tasks to the channel.
      have hnow : pause ≤ d.outbox.now := by
        refine h.le_now_of_isDue hmem ?_
        rw [← Outbox.sends_eq hw, hsends]
      have hperm := perm_cons_eraseIdx hw
      rw [step, Outbox.act, Outbox.value_run_of_sends hw hsends, Channel.send, if_pos h.receiver]
      have hkept : ∀ v ∈ d.outbox.waiting.eraseIdx i, v ∈ d.outbox.waiting :=
        fun v hv => hperm.mem_iff.mpr (List.mem_cons_of_mem w hv)
      refine ⟨h.handles, ?_, h.receiver, fun v hv => h.span v (hkept v hv),
        fun v hv => h.due v (hkept v hv), fun _ => hnow, h.collected,
        fun hphase => absurd hphase hbusy, ⟨rs, es, hprinted, hes, hrequests, ?_, hlate⟩⟩
      · have hlength := hperm.length_eq
        rw [List.length_cons] at hlength
        rw [h.senders, hlength]
        rfl
      · refine List.Perm.trans ?_ hevents
        have hmoved := (hperm.map (·.event)).append_right (es.map (·.2) ++ d.outbox.events.items)
        refine List.Perm.trans ?_ hmoved.symm
        rw [List.map_cons, List.cons_append, ← List.append_assoc (es.map (·.2)),
          ← List.append_assoc]
        exact List.perm_append_singleton _ _
    | false =>
      -- The delay starts, if it has not started before.
      have hnotDue := (Outbox.sends_eq hw).symm.trans hsends
      rw [step, Outbox.act, Outbox.value_run_of_not_sends hw hsends]
      have hset : ∀ v ∈ d.outbox.waiting.set i (w.start d.outbox.now),
          v ∈ d.outbox.waiting ∨ v = w.start d.outbox.now :=
        fun v hv => List.mem_or_eq_of_mem_set hv
      refine ⟨h.handles, ?_, h.receiver, ?_, ?_, h.sent, h.collected,
        fun hphase => absurd hphase hbusy, ⟨rs, es, hprinted, hes, hrequests, ?_, hlate⟩⟩
      · exact h.senders.trans List.length_set.symm
      · intro v hv
        rcases hset v hv with hv | rfl
        · exact h.span v hv
        · exact h.span w hmem
      · intro v hv
        rcases hset v hv with hv | rfl
        · exact h.due v hv
        · rintro _ ⟨⟩
          cases hdue : w.due with
          | none =>
            rw [Option.getD_none, h.span w hmem]
            exact Nat.le_add_left _ _
          | some t => exact h.due w hmem t hdue
      · have hsame : (d.outbox.waiting.set i (w.start d.outbox.now)).map (·.event) =
            d.outbox.waiting.map (·.event) := map_set_of_getElem? hw rfl
        change (List.map _ (d.outbox.waiting.set i (w.start d.outbox.now)) ++ _).Perm events
        rw [hsame]
        exact hevents

theorem wait (h : d.Sound requests events pause) (milliseconds : Nat) :
    (d.step (.wait milliseconds)).Sound requests events pause :=
  { h with sent := fun hitems => Nat.le_add_right_of_le (h.sent hitems) }

/-- What one look does. -/
theorem look_cases (h : d.Sound requests events pause) :
    (∃ r rest, d.phase = .requests ∧ d.outbox.requests.items = r :: rest ∧
      d.look = { d with
        outbox := { d.outbox with requests := { d.outbox.requests with items := rest } }
        printed := d.printed ++ requestLines [(d.outbox.now, r)] }) ∨
    (d.phase = .requests ∧ d.outbox.requests.items = [] ∧ d.look = { d with phase := .events }) ∨
    (∃ e rest, d.phase = .events ∧ d.outbox.events.items = e :: rest ∧
      d.look = { d with
        outbox := { d.outbox with events := { d.outbox.events with items := rest } }
        printed := d.printed ++ eventLines [(d.outbox.now, e)] }) ∨
    (d.phase = .events ∧ d.outbox.events.items = [] ∧ d.outbox.waiting = [] ∧
      d.look = { d with phase := .finished }) ∨
    ((d.phase = .finished ∨ d.outbox.waiting ≠ []) ∧ d.look = d) := by
  cases hphase : d.phase with
  | requests =>
    cases hitems : d.outbox.requests.items with
    | cons r rest =>
      exact .inl ⟨r, rest, rfl, rfl, by rw [look_request hphase hitems, hphase]⟩
    | nil =>
      refine .inr (.inl ⟨rfl, rfl, ?_⟩)
      rw [Drain.look, hphase, hitems]
      exact if_pos h.handles
  | events =>
    cases hitems : d.outbox.events.items with
    | cons e rest =>
      exact .inr (.inr (.inl ⟨e, rest, rfl, rfl, by rw [look_event hphase hitems, hphase]⟩))
    | nil =>
      -- Who can send is who waits.
      have hclosed : d.outbox.isClosed = true ↔ d.outbox.waiting = [] := by
        rw [Outbox.isClosed, h.senders, beq_iff_eq, List.length_eq_zero_iff]
      rw [Drain.look, hphase, hitems]
      dsimp only
      split
      · rename_i hc
        exact .inr (.inr (.inr (.inl ⟨rfl, rfl, hclosed.mp hc, rfl⟩)))
      · rename_i hc
        exact .inr (.inr (.inr (.inr ⟨.inr (mt hclosed.mpr hc), rfl⟩)))
  | finished =>
    refine .inr (.inr (.inr (.inr ⟨.inl rfl, ?_⟩)))
    rw [Drain.look, hphase]

theorem look (h : d.Sound requests events pause) :
    (d.step .look).Sound requests events pause := by
  obtain ⟨rs, es, hprinted, hes, hrequests, hevents, hlate⟩ := h.printed
  rw [step]
  rcases h.look_cases with ⟨r, rest, hphase, hitems, hlook⟩ | ⟨hphase, hitems, hlook⟩ |
    ⟨e, rest, hphase, hitems, hlook⟩ | ⟨hphase, hitems, hwaiting, hlook⟩ | ⟨-, hlook⟩
  · -- A request is printed.
    obtain rfl := hes hphase
    rw [hlook]
    refine { h with
      collected := fun hne => absurd hphase hne
      printed := ⟨rs ++ [(d.outbox.now, r)], [], ?_, fun _ => rfl, ?_, hevents, hlate⟩ }
    · dsimp only
      rw [hprinted]
      simp [requestLines, eventLines]
    · dsimp only
      rw [← hrequests, hitems, List.map_append, List.append_assoc]
      rfl
  · rw [hlook]
    exact { h with
      collected := fun _ => hitems
      finished := nofun
      printed := ⟨rs, es, hprinted, nofun, hrequests, hevents, hlate⟩ }
  · -- An event is printed; it has waited before it was sent.
    rw [hlook]
    have hnow : pause ≤ d.outbox.now := h.sent (by rw [hitems]; exact List.cons_ne_nil e rest)
    refine { h with
      sent := fun _ => hnow
      finished := fun hend => nomatch hphase.symm.trans hend
      printed := ⟨rs, es ++ [(d.outbox.now, e)], ?_,
        (fun hstart => nomatch hphase.symm.trans hstart), hrequests, ?_, ?_⟩ }
    · dsimp only
      rw [hprinted, List.append_assoc]
      simp [eventLines]
    · rw [hitems] at hevents
      rw [List.map_append, List.append_assoc]
      exact hevents
    · exact List.forall_mem_append.mpr ⟨hlate, List.forall_mem_singleton.mpr hnow⟩
  · rw [hlook]
    exact { h with
      collected := fun _ => h.collected (by rw [hphase]; exact nofun)
      finished := fun _ => ⟨hwaiting, hitems⟩
      printed := ⟨rs, es, hprinted, nofun, hrequests, hevents, hlate⟩ }
  · rw [hlook]
    exact h

/-- Every move keeps the account. -/
theorem step (h : d.Sound requests events pause) (m : Move) :
    (d.step m).Sound requests events pause := by
  cases m with
  | run i => exact h.run i
  | wait milliseconds => exact h.wait milliseconds
  | look => exact h.look

theorem steps (h : d.Sound requests events pause) (ms : List Move) :
    (d.steps ms).Sound requests events pause := by
  induction ms generalizing d with
  | nil => exact h
  | cons m ms ih => exact ih (h.step m)

/-- At the end everything has been printed. -/
theorem exists_printed_of_finished (h : d.Sound requests events pause)
    (hfinished : d.phase = .finished) :
    ∃ rs es, d.printed = requestLines rs ++ eventLines es ∧ rs.map (·.2) = requests ∧
      (es.map (·.2)).Perm events ∧ ∀ e ∈ es, pause ≤ e.1 := by
  obtain ⟨rs, es, hprinted, -, hrequests, hevents, hlate⟩ := h.printed
  obtain ⟨hwaiting, hitems⟩ := h.finished hfinished
  rw [h.collected (by rw [hfinished]; exact nofun), List.append_nil] at hrequests
  rw [hwaiting, hitems, List.append_nil] at hevents
  exact ⟨rs, es, hprinted, hrequests, hevents, hlate⟩

end Sound

/-! ### The start -/

/-- The tasks of events that are taken over. -/
def tasksOf (events : List (HeadEvent × UInt64)) : List Waiting :=
  events.map fun (event, seconds) => ⟨event, .ofSeconds seconds, none⟩

/-- Taking over effects makes a task of each event and sends each request. -/
theorem value_dispatch (o : Outbox) (effects : List Effect) :
    (o.dispatch effects).value =
      { o with
        waiting := o.waiting ++ tasksOf (Effect.events effects)
        requests := o.requests.send (Effect.reindexes effects)
        senders := o.senders + (Effect.events effects).length } := by
  induction effects generalizing o with
  | nil =>
    have hnone : o.requests.send (Effect.reindexes []) = o.requests := Channel.send_nil _
    rw [hnone]
    simp [Outbox.dispatch, tasksOf, Effect.events]
  | cons e effects ih =>
    rw [Outbox.dispatch, List.foldlM_cons, Traced.value_bind]
    refine (ih _).trans ?_
    cases e with
    | notify event seconds =>
      simp only [Outbox.take, Outbox.notify, tasksOf, Effect.events, Effect.reindexes,
        List.filterMap_cons, List.map_cons, List.length_cons, List.append_assoc,
        List.singleton_append, Nat.add_assoc, Nat.add_comm 1]
    | reindex request =>
      simp only [Outbox.take, Outbox.reindex, Effect.events, Effect.reindexes,
        List.filterMap_cons, Channel.send_send, List.singleton_append]
    | note notice => rfl

variable {effects : List Effect} {pause : Nat}

theorem ofEffects_eq (effects : List Effect) :
    ofEffects effects =
      { outbox :=
          { now := 0
            waiting := tasksOf (Effect.events effects)
            events := .empty
            requests := ⟨Effect.reindexes effects, true⟩
            handles := 0
            senders := (Effect.events effects).length }
        phase := .requests
        printed := [] } := by
  rw [ofEffects, value_dispatch]
  simp [Outbox.empty, Outbox.release, Channel.empty, Channel.send]

theorem sound_ofEffects
    (h : ∀ p ∈ Effect.events effects, Waiting.span (.ofSeconds p.2) = pause) :
    (ofEffects effects).Sound (Effect.reindexes effects) ((Effect.events effects).map (·.1))
      pause := by
  have hevents : (tasksOf (Effect.events effects)).map Waiting.event =
      (Effect.events effects).map (·.1) := List.map_map
  rw [ofEffects_eq]
  refine ⟨rfl, (List.length_map _).symm, rfl, ?_, ?_, fun hne => absurd rfl hne,
    fun hne => absurd rfl hne, nofun,
    ⟨[], [], rfl, fun _ => rfl, rfl, ?_, List.forall_mem_nil _⟩⟩
  · intro w hw
    obtain ⟨p, hp, rfl⟩ := List.mem_map.mp hw
    exact h p hp
  · intro w hw t ht
    obtain ⟨p, -, rfl⟩ := List.mem_map.mp hw
    cases ht
  · change ((tasksOf (Effect.events effects)).map Waiting.event ++ ([] ++ [])).Perm _
    rw [List.append_nil, List.append_nil, hevents]

/-- The lines of an outbox whose events all wait as long: they stand behind the requests, in the
order in which they were taken over. -/
theorem lines_dispatch
    (h : ∀ p ∈ Effect.events effects, Waiting.span (.ofSeconds p.2) = pause) :
    ((Outbox.empty 0).dispatch effects).value.lines =
      requestLines ((Effect.reindexes effects).map fun r => (0, r)) ++
        eventLines ((Effect.events effects).map fun p => (pause, p.1)) := by
  have hlines : ((tasksOf (Effect.events effects)).map (Waiting.start 0)).map
      (fun w => (⟨w.due.getD 0 - 0, .event w.event⟩ : TimedLine)) =
        eventLines ((Effect.events effects).map fun p => (pause, p.1)) := by
    rw [tasksOf, eventLines, List.map_map, List.map_map, List.map_map]
    refine List.map_congr_left fun p hp => ?_
    simp [Waiting.start, h p hp]
  -- All events have the same time, so sorting leaves them as they are.
  have hsorted : (eventLines ((Effect.events effects).map fun p => (pause, p.1))).Pairwise
      fun a b => decide (a.due ≤ b.due) = true := by
    rw [eventLines, List.map_map, List.pairwise_map]
    exact List.pairwise_of_forall fun p q => decide_eq_true (Nat.le_refl pause)
  rw [value_dispatch, Outbox.lines]
  refine congrArg₂ (· ++ ·) ?_ ?_
  · rw [requestLines, List.map_map]
    rfl
  · refine Eq.trans ?_ (List.mergeSort_of_pairwise hsorted)
    exact congrArg (fun ls => List.mergeSort ls fun a b => decide (a.due ≤ b.due)) hlines

/-! ### The end -/

/-- What a waiting task has to do: to start its delay, to send its event, and one look for that. -/
def weight (w : Waiting) : Nat := if w.due.isNone then 3 else 2

/-- How much is left to do. -/
def remaining (d : Drain) : Nat :=
  (d.outbox.waiting.map weight).sum + d.outbox.requests.items.length +
    d.outbox.events.items.length +
    match d.phase with
    | .requests => 2
    | .events => 1
    | .finished => 0

/-- The drain at another time. -/
def showing (d : Drain) (now : Nat) : Drain := { d with outbox := { d.outbox with now := now } }

theorem remaining_showing (d : Drain) (now : Nat) : (d.showing now).remaining = d.remaining := rfl

/-- A task that cannot run does nothing. -/
theorem step_run_of_not_ready {d : Drain} {i : Nat}
    (h : ∀ w, d.outbox.waiting[i]? = some w → w.isReady d.outbox.now = false) :
    d.step (.run i) = d := by
  cases hw : d.outbox.waiting[i]? with
  | none => rw [Drain.step, Outbox.act, Outbox.value_run_of_none hw]
  | some w =>
    have hready := h w hw
    obtain ⟨t, hdue, -⟩ := Waiting.isReady_eq_false_iff.mp hready
    have hstart : w.start d.outbox.now = w := Waiting.start_eq_self hdue
    have hsends : d.outbox.sends i = false := by
      rw [Waiting.isReady, Bool.or_eq_false_iff] at hready
      rw [Outbox.sends_eq hw, hstart, hready.2]
    obtain ⟨hi, rfl⟩ := List.getElem?_eq_some_iff.mp hw
    rw [Drain.step, Outbox.act, Outbox.value_run_of_not_sends hw hsends, hstart,
      List.set_getElem_self]

namespace Sound

variable {requests : List ReindexRequest} {events : List HeadEvent} {pause : Nat} {d : Drain}

/-- A task that can run brings the end nearer. -/
theorem remaining_run_lt (h : d.Sound requests events pause) {i : Nat} {w : Waiting}
    (hw : d.outbox.waiting[i]? = some w) (hready : w.isReady d.outbox.now = true) :
    (d.step (.run i)).remaining < d.remaining := by
  -- The weight of the task is split off from those of the others.
  have hperm := ((perm_cons_eraseIdx hw).map weight).sum_nat
  rw [List.map_cons, List.sum_cons] at hperm
  cases hsends : d.outbox.sends i with
  | true =>
    have hweight : 2 ≤ weight w := by
      rw [weight]
      split <;> omega
    rw [Drain.step, Outbox.act, Outbox.value_run_of_sends hw hsends, Channel.send,
      if_pos h.receiver]
    simp only [remaining, List.length_append, List.length_singleton]
    omega
  | false =>
    -- Then the delay starts, so the task weighs less.
    have hnone : w.due = none := by
      cases hdue : w.due with
      | none => rfl
      | some t =>
        rw [Outbox.sends_eq hw, Waiting.start_eq_self hdue] at hsends
        rw [Waiting.isReady, hdue, hsends] at hready
        cases hready
    have hset : (d.outbox.waiting.set i (w.start d.outbox.now))[i]? =
        some (w.start d.outbox.now) :=
      List.getElem?_set_self (List.getElem?_eq_some_iff.mp hw).1
    have hperm' := ((perm_cons_eraseIdx hset).map weight).sum_nat
    rw [List.map_cons, List.sum_cons, List.eraseIdx_set_eq] at hperm'
    have hbefore : weight w = 3 := by
      rw [weight, hnone]
      rfl
    have hafter : weight (w.start d.outbox.now) = 2 := rfl
    rw [Drain.step, Outbox.act, Outbox.value_run_of_not_sends hw hsends]
    simp only [remaining]
    omega

/-- A look brings the end nearer, unless it is reached or a task can still send. -/
theorem remaining_look_lt_or (h : d.Sound requests events pause) :
    (d.step .look).remaining < d.remaining ∨
      (d.phase = .finished ∨ d.outbox.waiting ≠ []) ∧ d.step .look = d := by
  rw [Drain.step]
  rcases h.look_cases with ⟨r, rest, hphase, hitems, hlook⟩ | ⟨hphase, hitems, hlook⟩ |
    ⟨e, rest, hphase, hitems, hlook⟩ | ⟨hphase, hitems, hwaiting, hlook⟩ | hsame
  · refine .inl ?_
    rw [hlook, remaining, remaining, hitems, List.length_cons]
    dsimp only
    omega
  · refine .inl ?_
    rw [hlook, remaining, remaining, hphase]
    dsimp only
    omega
  · refine .inl ?_
    rw [hlook, remaining, remaining, hitems, List.length_cons]
    dsimp only
    omega
  · refine .inl ?_
    rw [hlook, remaining, remaining, hphase]
    dsimp only
    omega
  · exact .inr hsame

/-- Every move brings the end nearer, or only moves the clock. -/
theorem remaining_step_lt_or (h : d.Sound requests events pause) (m : Move) :
    (d.step m).remaining < d.remaining ∨ ∃ now, d.step m = d.showing now := by
  cases m with
  | run i =>
    by_cases hready : ∃ w, d.outbox.waiting[i]? = some w ∧ w.isReady d.outbox.now = true
    · obtain ⟨w, hw, hready⟩ := hready
      exact .inl (h.remaining_run_lt hw hready)
    · refine .inr ⟨d.outbox.now, step_run_of_not_ready fun w hw => ?_⟩
      exact Bool.eq_false_iff.mpr fun hrun => hready ⟨w, hw, hrun⟩
  | wait milliseconds => exact .inr ⟨d.outbox.now + milliseconds, rfl⟩
  | look =>
    refine h.remaining_look_lt_or.imp_right fun ⟨_, hsame⟩ => ?_
    exact ⟨d.outbox.now, hsame⟩

end Sound

/-! ### Fair schedules -/

/-- How much time some moves take. -/
def elapsed (ms : List Move) : Nat :=
  (ms.map fun
    | .wait milliseconds => milliseconds
    | _ => 0).sum

/-- The first moves of a schedule. -/
def firstMoves (schedule : Nat → Move) (n : Nat) : List Move := (List.range n).map schedule

/-- Tasks and loops have their turn again and again, and time passes without bound. -/
structure IsFair (schedule : Nat → Move) : Prop where
  run : ∀ i n, ∃ m ≥ n, schedule m = .run i
  look : ∀ n, ∃ m ≥ n, schedule m = .look
  wait : ∀ t, ∃ n, t ≤ elapsed (firstMoves schedule n)

theorem firstMoves_succ (schedule : Nat → Move) (n : Nat) :
    firstMoves schedule (n + 1) = firstMoves schedule n ++ [schedule n] := by
  rw [firstMoves, List.range_succ, List.map_append]
  rfl

theorem steps_firstMoves_succ (d : Drain) (schedule : Nat → Move) (n : Nat) :
    d.steps (firstMoves schedule (n + 1)) =
      (d.steps (firstMoves schedule n)).step (schedule n) := by
  rw [firstMoves_succ, steps, List.foldl_append]
  rfl

/-- The clock goes on by the time that the moves take. -/
theorem now_step (d : Drain) (m : Move) :
    (d.step m).outbox.now = d.outbox.now + elapsed [m] := by
  cases m with
  | run i =>
    cases hw : d.outbox.waiting[i]? with
    | none =>
      rw [step, Outbox.act, Outbox.value_run_of_none hw]
      rfl
    | some w =>
      cases hsends : d.outbox.sends i with
      | true =>
        rw [step, Outbox.act, Outbox.value_run_of_sends hw hsends]
        rfl
      | false =>
        rw [step, Outbox.act, Outbox.value_run_of_not_sends hw hsends]
        rfl
  | wait milliseconds => rfl
  | look =>
    rw [step, look]
    split
    · split
      · rfl
      · split <;> rfl
    · split
      · rfl
      · split <;> rfl
    · rfl

theorem now_steps (d : Drain) (ms : List Move) :
    (d.steps ms).outbox.now = d.outbox.now + elapsed ms := by
  induction ms generalizing d with
  | nil => rfl
  | cons m ms ih =>
    refine (ih (d.step m)).trans ?_
    rw [now_step]
    simp only [elapsed, List.map_cons, List.map_nil, List.sum_cons, List.sum_nil]
    omega

theorem elapsed_firstMoves_mono (schedule : Nat → Move) {m n : Nat} (h : m ≤ n) :
    elapsed (firstMoves schedule m) ≤ elapsed (firstMoves schedule n) := by
  induction h with
  | refl => exact Nat.le_refl _
  | step _ ih =>
    refine Nat.le_trans ih ?_
    rw [firstMoves_succ, elapsed, elapsed, List.map_append, List.sum_append]
    exact Nat.le_add_right _ _

namespace Sound

variable {requests : List ReindexRequest} {events : List HeadEvent} {pause : Nat} {d : Drain}

/-- Whatever the schedule, there is a move after which only the clock goes on. -/
theorem exists_still (h : d.Sound requests events pause) (schedule : Nat → Move) :
    ∃ n, ∀ m ≥ n,
      (∃ now, d.steps (firstMoves schedule m) = (d.steps (firstMoves schedule n)).showing now) ∧
        ¬ (d.steps (firstMoves schedule (m + 1))).remaining <
          (d.steps (firstMoves schedule m)).remaining := by
  -- It is one after which as little is left to do as there ever is.
  let left := fun n => (d.steps (firstMoves schedule n)).remaining
  let n := Function.argmin left
  have hleast : ∀ m, left n ≤ left m := fun m => Function.argmin_le left m
  have hsame : ∀ k, ∃ now,
      d.steps (firstMoves schedule (n + k)) = (d.steps (firstMoves schedule n)).showing now := by
    intro k
    induction k with
    | zero => exact ⟨(d.steps (firstMoves schedule n)).outbox.now, rfl⟩
    | succ k ih =>
      obtain ⟨now, hk⟩ := ih
      have hleft : left (n + k) = left n := (congrArg remaining hk).trans (remaining_showing _ now)
      have hstep := steps_firstMoves_succ d schedule (n + k)
      rcases (h.steps _).remaining_step_lt_or (schedule (n + k)) with hlt | ⟨now', hnow⟩
      · rw [← hstep] at hlt
        have hmore := hleast (n + k + 1)
        exact absurd (Nat.lt_of_le_of_lt hmore hlt) (by rw [← hleft]; exact Nat.lt_irrefl _)
      · refine ⟨now', hstep.trans (hnow.trans ?_)⟩
        rw [hk]
        rfl
  refine ⟨n, fun m hm => ?_⟩
  obtain ⟨k, rfl⟩ := Nat.exists_eq_add_of_le hm
  refine ⟨hsame k, ?_⟩
  obtain ⟨now, hk⟩ := hsame k
  have hleft : left (n + k) = left n := (congrArg remaining hk).trans (remaining_showing _ now)
  exact Nat.not_lt.mpr (hleft.trans_le (hleast (n + k + 1)))

/-- Every fair schedule comes to its end. -/
theorem exists_finished (h : d.Sound requests events pause) {schedule : Nat → Move}
    (hfair : IsFair schedule) : ∃ n, (d.steps (firstMoves schedule n)).phase = .finished := by
  obtain ⟨n, hstill⟩ := h.exists_still schedule
  have hwaiting : (d.steps (firstMoves schedule n)).outbox.waiting = [] := by
    cases hw : (d.steps (firstMoves schedule n)).outbox.waiting with
    | nil => rfl
    | cons w ws =>
      -- Once its time has come, the first task that still waits has its turn.
      exfalso
      obtain ⟨k, hk⟩ := hfair.wait (w.due.getD 0)
      obtain ⟨m, hm, hrun⟩ := hfair.run 0 (max n k)
      obtain ⟨⟨now, hsame⟩, hleast⟩ := hstill m (Nat.max_le.mp hm).1
      refine hleast ?_
      rw [steps_firstMoves_succ, hrun]
      refine (h.steps _).remaining_run_lt (w := w) ?_ ?_
      · rw [hsame]
        exact congrArg (·[0]?) hw
      · have hlate := Nat.le_trans hk (elapsed_firstMoves_mono schedule (Nat.max_le.mp hm).2)
        rw [now_steps, Waiting.isReady, Waiting.isDue]
        cases hdue : w.due with
        | none => rfl
        | some t =>
          rw [hdue, Option.getD_some] at hlate
          simp only [Option.isNone_some, Option.any_some, Bool.false_or, decide_eq_true_eq]
          omega
  -- So a look can do nothing only because the loops are through.
  obtain ⟨m, hm, hlook⟩ := hfair.look n
  obtain ⟨⟨now, hsame⟩, hleast⟩ := hstill m hm
  rw [steps_firstMoves_succ, hlook] at hleast
  rcases (h.steps (firstMoves schedule m)).remaining_look_lt_or with hlt | ⟨hend | hwaits, -⟩
  · exact absurd hlt hleast
  · exact ⟨m, hend⟩
  · rw [hsame] at hwaits
    exact absurd hwaiting hwaits

end Sound

/-! ### A prompt schedule -/

theorem steps_append (d : Drain) (ms ns : List Move) :
    d.steps (ms ++ ns) = (d.steps ms).steps ns := List.foldl_append

/-- The loop of requests prints what is on its channel and ends. -/
theorem steps_look_requests {d : Drain} (hphase : d.phase = .requests)
    (hhandles : d.outbox.handles = 0) {rs : List ReindexRequest}
    (hitems : d.outbox.requests.items = rs) :
    d.steps (List.replicate (rs.length + 1) .look) =
      { outbox := { d.outbox with requests := { d.outbox.requests with items := [] } }
        phase := .events
        printed := d.printed ++ requestLines (rs.map fun r => (d.outbox.now, r)) } := by
  induction rs generalizing d with
  | nil =>
    obtain ⟨⟨now, waiting, events, ⟨items, receiver⟩, handles, senders⟩, phase, printed⟩ := d
    cases hphase
    cases hhandles
    cases hitems
    simp [steps, step, look, requestLines]
  | cons r rs ih =>
    have hlook : d.step .look = _ := look_request hphase hitems
    have hrest := ih (d := d.step .look) (by rw [hlook]; exact hphase)
      (by rw [hlook]; exact hhandles) (by rw [hlook])
    rw [List.length_cons, List.replicate_succ]
    refine hrest.trans ?_
    rw [hlook]
    simp [requestLines]

/-- The loop of events prints what is on its channel and ends, if nobody can send any more. -/
theorem steps_look_events {d : Drain} (hphase : d.phase = .events)
    (hclosed : d.outbox.isClosed = true) {es : List HeadEvent}
    (hitems : d.outbox.events.items = es) :
    d.steps (List.replicate (es.length + 1) .look) =
      { outbox := { d.outbox with events := { d.outbox.events with items := [] } }
        phase := .finished
        printed := d.printed ++ eventLines (es.map fun e => (d.outbox.now, e)) } := by
  induction es generalizing d with
  | nil =>
    obtain ⟨⟨now, waiting, ⟨items, receiver⟩, requests, handles, senders⟩, phase, printed⟩ := d
    cases hphase
    cases hitems
    have hlook :
        look ⟨⟨now, waiting, ⟨[], receiver⟩, requests, handles, senders⟩, .events, printed⟩ =
          ⟨⟨now, waiting, ⟨[], receiver⟩, requests, handles, senders⟩, .finished, printed⟩ :=
      if_pos hclosed
    simp [steps, step, hlook, eventLines]
  | cons e es ih =>
    have hlook : d.step .look = _ := look_event hphase hitems
    have hrest := ih (d := d.step .look) (by rw [hlook]; exact hphase)
      (by rw [hlook]; exact hclosed) (by rw [hlook])
    rw [List.length_cons, List.replicate_succ]
    refine hrest.trans ?_
    rw [hlook]
    simp [eventLines]

/-- Runs of tasks only change the outbox. -/
theorem steps_runs (d : Drain) (js : List Nat) :
    d.steps (js.map .run) = { d with outbox := d.outbox.actAll (js.map .run) } := by
  induction js generalizing d with
  | nil => rfl
  | cons j js ih => exact ih (d.step (.run j))

theorem exists_steps_settle (d : Drain) :
    ∃ ms, d.steps ms = { d with outbox := d.outbox.settle.value } := by
  obtain ⟨js, hjs⟩ := d.outbox.exists_settle_eq_actAll
  exact ⟨js.map .run, by rw [hjs, steps_runs]⟩

section

variable {o : Outbox} {t : Nat}

theorem isDue_start {w : Waiting} (h : (w.start o.now).due = some t) :
    (w.start o.now).isDue o.now = decide (t ≤ o.now) := by
  rw [Waiting.isDue, h, Option.any_some]

/-- Settling sends all events if all of them are due. -/
theorem value_settle_of_due (h : ∀ w ∈ o.waiting, (w.start o.now).due = some t) (ht : t ≤ o.now) :
    o.settle.value = { o with
      waiting := []
      events := o.events.send (o.waiting.map Waiting.event)
      senders := o.senders - o.waiting.length } := by
  have hdue : ∀ w ∈ o.waiting, (w.start o.now).isDue o.now = true :=
    fun w hw => (isDue_start (h w hw)).trans (decide_eq_true ht)
  have hall : (o.waiting.map (Waiting.start o.now)).filter (Waiting.isDue o.now) =
      o.waiting.map (Waiting.start o.now) :=
    List.filter_eq_self.mpr (List.forall_mem_map.mpr hdue)
  have hnone : (o.waiting.filter fun w => !(w.start o.now).isDue o.now) = [] :=
    List.filter_eq_nil_iff.mpr fun w hw => by simp [hdue w hw]
  have hsorted : (o.waiting.map (Waiting.start o.now)).Pairwise
      fun a b => decide (a.due.getD 0 ≤ b.due.getD 0) = true := by
    rw [List.pairwise_map, List.pairwise_iff_getElem]
    intro i j hi hj _
    rw [h _ (List.getElem_mem hi), h _ (List.getElem_mem hj)]
    exact decide_eq_true (Nat.le_refl t)
  rw [Outbox.value_settle, hnone, hall, List.mergeSort_of_pairwise hsorted, List.map_map,
    List.length_map]
  rfl

/-- Settling starts all delays if no event is due. -/
theorem value_settle_of_not_due (h : ∀ w ∈ o.waiting, (w.start o.now).due = some t)
    (ht : o.now < t) :
    o.settle.value = { o with waiting := o.waiting.map (Waiting.start o.now) } := by
  have hdue : ∀ w ∈ o.waiting, (w.start o.now).isDue o.now = false :=
    fun w hw => (isDue_start (h w hw)).trans (decide_eq_false (Nat.not_le.mpr ht))
  have hall : (o.waiting.filter fun w => !(w.start o.now).isDue o.now) = o.waiting :=
    List.filter_eq_self.mpr fun w hw => by simp [hdue w hw]
  have hnone : (o.waiting.map (Waiting.start o.now)).filter (Waiting.isDue o.now) = [] := by
    rw [List.filter_eq_nil_iff, List.forall_mem_map]
    exact fun w hw => Bool.eq_false_iff.mp (hdue w hw)
  rw [Outbox.value_settle, hall, hnone, List.mergeSort_nil, List.map_nil, Channel.send_nil]
  rfl

end

/-- Settling, waiting and settling sends the events of all tasks, in the order of the tasks. -/
theorem exists_steps_send {d : Drain} (pause : Nat) (hnow : d.outbox.now = 0)
    (hreceiver : d.outbox.events = .empty) (hsenders : d.outbox.senders = d.outbox.waiting.length)
    (hfresh : ∀ w ∈ d.outbox.waiting, w.due = none ∧ Waiting.span w.delay = pause) :
    ∃ ms, d.steps ms = { d with
      outbox := { d.outbox with
        now := pause
        waiting := []
        events := ⟨d.outbox.waiting.map Waiting.event, true⟩
        senders := 0 } } := by
  have hstart : ∀ w ∈ d.outbox.waiting, (w.start d.outbox.now).due = some pause := by
    intro w hw
    obtain ⟨hdue, hspan⟩ := hfresh w hw
    rw [Waiting.start, hdue, Option.getD_none, hspan, hnow, Nat.zero_add]
  -- The first settling starts the delays, the second one sends what has waited.
  obtain ⟨ms, hms⟩ := exists_steps_settle d
  obtain ⟨ns, hns⟩ := exists_steps_settle ((d.steps ms).step (.wait pause))
  refine ⟨ms ++ .wait pause :: ns, ?_⟩
  rw [steps_append]
  refine hns.trans ?_
  obtain ⟨⟨now, waiting, events, requests, handles, senders⟩, phase, printed⟩ := d
  cases hnow
  cases hreceiver
  obtain rfl : senders = waiting.length := hsenders
  rcases Nat.eq_zero_or_pos pause with rfl | hpos
  · -- Without a delay the events are sent at once.
    rw [hms, value_settle_of_due hstart (Nat.le_refl 0)]
    rw [step, Outbox.act, value_settle_of_due (t := 0) (List.forall_mem_nil _) (Nat.le_refl 0)]
    simp [Channel.send, Outbox.advance]
  · rw [hms, value_settle_of_not_due hstart hpos]
    rw [step, Outbox.act, value_settle_of_due (t := pause) ?_ ?_]
    · simp only [Traced.value_pure, Outbox.advance, Channel.send, if_true, List.nil_append,
        List.map_map, List.length_map, Nat.sub_self, Nat.zero_add]
      rfl
    · intro v hv
      obtain ⟨w, hw, rfl⟩ := List.mem_map.mp hv
      -- A delay that has started does not start again.
      rw [Waiting.start_eq_self (hstart w hw)]
      exact hstart w hw
    · exact Nat.le_add_left pause 0

/-- A prompt schedule prints the lines of the outbox, at their times. -/
theorem exists_steps_eq_lines
    (h : ∀ p ∈ Effect.events effects, Waiting.span (.ofSeconds p.2) = pause) :
    ∃ ms, ((ofEffects effects).steps ms).phase = .finished ∧
      ((ofEffects effects).steps ms).printed =
        ((Outbox.empty 0).dispatch effects).value.lines := by
  -- First all requests are received, then all tasks run, then all events are received.
  have hfirst := steps_look_requests (d := ofEffects effects) rfl (sound_ofEffects h).handles
    (by rw [ofEffects_eq])
  generalize hd : (ofEffects effects).steps
    (List.replicate ((Effect.reindexes effects).length + 1) .look) = d at hfirst
  rw [ofEffects_eq] at hfirst
  obtain ⟨ms, hms⟩ := exists_steps_send (d := d) pause (by rw [hfirst])
    (by rw [hfirst]) (by rw [hfirst]; exact (List.length_map _).symm) (by
      rw [hfirst]
      exact List.forall_mem_map.mpr fun p hp => ⟨rfl, h p hp⟩)
  have hlast := steps_look_events (d := d.steps ms) (by rw [hms, hfirst]) (by rw [hms]; rfl)
    (by rw [hms])
  refine ⟨List.replicate ((Effect.reindexes effects).length + 1) .look ++ (ms ++
    List.replicate ((d.outbox.waiting.map Waiting.event).length + 1) .look), ?_⟩
  rw [steps_append, steps_append, hd, hlast]
  refine ⟨rfl, ?_⟩
  rw [lines_dispatch h, hms, hfirst]
  simp [tasksOf, requestLines, eventLines]

end Drain

end HeadScout
