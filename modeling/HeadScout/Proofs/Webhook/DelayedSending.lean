import HeadScout.Proofs.Webhook.Settling
import Mathlib.Data.List.Nodup

/-!
# Delayed sending

What an outbox does with the events and requests it is given, whatever the order in which tasks run,
time passes, receivers receive or go away, and those who hold the outbox open let go.

The ledger says of each event that it is sent once and not before its time. What is left is when it
is sent at the latest, when the channel of events is closed, and that requests go their own way. How
late an event is sent depends on when its task runs: if time passes only when no task can run, an
event that still waits when no task can run is not due, counted from the call.

## Main definitions

* `Outbox.Action.call?`, `Outbox.Action.request?` — what an action hands over
* `Ledger.Held`, `Ledger.Prompt` — events are handed over only by who may, and time passes only when
  no task can run
* `Ledger.OnTime` — a delay counts from the call

## Main results

* `Ledger.Sound.isClosed_iff` — when the channel of events is closed
* `Ledger.collected_append_items` — requests are sent at once and in order
* `Ledger.forall₂_onTime` — if time passes only when no task can run, delays count from the call
* `Ledger.sent_once_in_time` — all of it together
-/

namespace HeadScout

namespace Outbox

variable {o o' : Outbox}

/-- The event that an action hands over, with its delay. -/
def Action.call? : Action → Option (HeadEvent × Delay)
  | .notify event delay => some (event, delay)
  | _ => none

/-- The request that an action makes. -/
def Action.request? : Action → Option ReindexRequest
  | .reindex request => some request
  | _ => none

/-- Whether an action is about requests. -/
def Action.isOnRequests : Action → Bool
  | .reindex _ | .receiveRequest | .dropRequests => true
  | _ => false

/-! ### Receivers -/

/-- Both channels keep their receivers when a task runs, and the one of requests is as it was. -/
theorem run_frame (o : Outbox) (i : Nat) :
    (o.run i).value.events.hasReceiver = o.events.hasReceiver ∧
      (o.run i).value.requests = o.requests ∧ (o.run i).value.handles = o.handles := by
  cases hw : o.waiting[i]? with
  | none =>
    rw [value_run_of_none hw]
    exact ⟨rfl, rfl, rfl⟩
  | some w =>
    cases hsends : o.sends i with
    | false =>
      rw [value_run_of_not_sends hw hsends]
      exact ⟨rfl, rfl, rfl⟩
    | true =>
      rw [value_run_of_sends hw hsends]
      refine ⟨?_, rfl, rfl⟩
      change (o.events.send [w.event]).hasReceiver = o.events.hasReceiver
      rw [Channel.send]
      split_ifs <;> rfl

/-- What holds at the start and is ended by one action only, and then for good, holds until this
action is taken. -/
theorem actAll_iff_not_mem (now : Nat) (flag : Outbox → Bool) {last : Action}
    (hstart : flag (empty now) = true) (hlast : ∀ o : Outbox, flag (o.act last).value = false)
    (hkept : ∀ (o : Outbox) (a : Action), a ≠ last → flag (o.act a).value = flag o)
    (as : List Action) : flag ((empty now).actAll as) = true ↔ last ∉ as := by
  induction as using List.reverseRecOn with
  | nil => exact iff_of_true hstart List.not_mem_nil
  | append_singleton as a ih =>
    rw [actAll_append, actAll_cons, List.mem_append, List.mem_singleton, not_or]
    by_cases ha : a = last
    · subst ha
      apply iff_of_false
      · exact Bool.eq_false_iff.mp (hlast _)
      · exact fun h => h.2 rfl
    · rw [and_iff_left (Ne.symm ha), ← ih]
      exact Bool.eq_iff_iff.mp (hkept _ a ha)

theorem hasReceiver_events_act_of_ne {a : Action} (h : a ≠ .dropEvents) :
    (o.act a).value.events.hasReceiver = o.events.hasReceiver := by
  cases a with
  | run i => exact (o.run_frame i).1
  | dropEvents => exact absurd rfl h
  | notify | retain | release =>
    rw [act]
    split_ifs <;> rfl
  | reindex | advance | receiveEvent | receiveRequest | dropRequests => rfl

/-- Somebody receives events until the receiver goes away. -/
theorem hasReceiver_events_actAll_iff (now : Nat) (as : List Action) :
    ((empty now).actAll as).events.hasReceiver = true ↔ Action.dropEvents ∉ as :=
  actAll_iff_not_mem now (·.events.hasReceiver) rfl (fun _ => rfl)
    (fun _ _ => hasReceiver_events_act_of_ne) as

/-! ### Requests -/

theorem Action.request?_of_not {a : Action} (h : a.isOnRequests = false) : a.request? = none := by
  cases a with
  | reindex | receiveRequest | dropRequests => cases h
  | run | notify | retain | release | advance | receiveEvent | dropEvents => rfl

theorem requests_act_of_not {a : Action} (h : a.isOnRequests = false) :
    (o.act a).value.requests = o.requests := by
  cases a with
  | run i => exact (o.run_frame i).2.1
  | notify | retain | release =>
    rw [act]
    split_ifs <;> rfl
  | advance | receiveEvent | dropEvents => rfl
  | reindex | receiveRequest | dropRequests => cases h

theorem requests_act_congr {a : Action} (h : a.isOnRequests = true)
    (hsame : o.requests = o'.requests) : (o.act a).value.requests = (o'.act a).value.requests := by
  cases a with
  | reindex request => exact congrArg (Channel.send · [request]) hsame
  | receiveRequest => exact congrArg Channel.receive hsame
  | dropRequests => exact congrArg Channel.close hsame
  | run | notify | retain | release | advance | receiveEvent | dropEvents => cases h

/-- What becomes of requests does not depend on events, time or tasks. -/
theorem requests_actAll_filter (o : Outbox) (as : List Action) :
    (o.actAll as).requests = (o.actAll (as.filter Action.isOnRequests)).requests := by
  induction as using List.reverseRecOn with
  | nil => rfl
  | append_singleton as a ih =>
    rw [List.filter_append, actAll_append, actAll_append, actAll_cons]
    cases h : a.isOnRequests with
    | true =>
      rw [List.filter_cons_of_pos h, actAll_cons]
      exact requests_act_congr h ih
    | false =>
      rw [List.filter_cons_of_neg (by rw [h]; exact Bool.false_ne_true)]
      exact (requests_act_of_not h).trans ih

theorem hasReceiver_requests_act_of_ne {a : Action} (h : a ≠ .dropRequests) :
    (o.act a).value.requests.hasReceiver = o.requests.hasReceiver := by
  cases a with
  | reindex request =>
    change (o.requests.send [request]).hasReceiver = _
    rw [Channel.send]
    split_ifs <;> rfl
  | dropRequests => exact absurd rfl h
  | receiveRequest => rfl
  | run | notify | retain | release | advance | receiveEvent | dropEvents =>
    rw [requests_act_of_not rfl]

/-- Somebody receives requests until the receiver goes away. -/
theorem hasReceiver_requests_actAll_iff (now : Nat) (as : List Action) :
    ((empty now).actAll as).requests.hasReceiver = true ↔ Action.dropRequests ∉ as :=
  actAll_iff_not_mem now (·.requests.hasReceiver) rfl (fun _ => rfl)
    (fun _ _ => hasReceiver_requests_act_of_ne) as

/-! ### Nobody receives -/

/-- A request that nobody receives leaves no trace. -/
theorem value_reindex_of_not_hasReceiver (h : o.requests.hasReceiver = false)
    (request : ReindexRequest) : (o.reindex request).value = o := by
  obtain ⟨now, waiting, events, ⟨items, hasReceiver⟩, handles, senders⟩ := o
  cases h
  rfl

/-- An event that nobody receives is gone, and nothing else is. -/
theorem value_run_of_not_hasReceiver {i : Nat} {w : Waiting} (h : o.events.hasReceiver = false)
    (hw : o.waiting[i]? = some w) (hsends : o.sends i = true) :
    (o.run i).value =
      { o with waiting := o.waiting.eraseIdx i, senders := o.senders - 1 } := by
  rw [value_run_of_sends hw hsends, Channel.send, h]
  rfl

end Outbox

namespace Ledger

open Outbox (Action)

variable {L : Ledger}

theorem outbox_after (now : Nat) (as : List Action) :
    (after now as).outbox = (Outbox.empty now).actAll as := outbox_recordAll as

/-- What a run writes down is neither a call nor a request. -/
theorem note_run_frame (L : Ledger) (i : Nat) :
    (L.note (.run i)).issued = L.issued ∧ (L.note (.run i)).collected = L.collected := by
  rw [note]
  cases L.waiting[i]? with
  | none => exact ⟨rfl, rfl⟩
  | some k =>
    simp only [leave]
    split_ifs <;> exact ⟨rfl, rfl⟩

/-! ### Schedules -/

/-- Each action is taken when the outbox is as it has to be for it. -/
def Along (P : Outbox → Action → Prop) (now : Nat) (as : List Action) : Prop :=
  ∀ i a, as[i]? = some a → P ((Outbox.empty now).actAll (as.take i)) a

/-- Events are handed over only by who holds the outbox open. -/
def Held : Nat → List Action → Prop := Along fun o a => a.call?.isSome → o.handles ≠ 0

/-- Time passes only when no task can run. -/
def Prompt : Nat → List Action → Prop :=
  Along fun o a => ∀ milliseconds, a = .advance milliseconds → o.IsIdle

section Along

variable {P : Outbox → Action → Prop} {now : Nat} {as bs : List Action} {a : Action}

theorem Along.of_append (h : Along P now (as ++ bs)) : Along P now as := by
  intro i a hi
  obtain ⟨hlt, -⟩ := List.getElem?_eq_some_iff.mp hi
  have hfirst := h i a ((List.getElem?_append_left hlt).trans hi)
  rw [List.take_append_of_le_length (Nat.le_of_lt hlt)] at hfirst
  exact hfirst

theorem Along.last (h : Along P now (as ++ [a])) : P (after now as).outbox a := by
  have hlast := h as.length a List.getElem?_concat_length
  rw [List.take_left] at hlast
  rw [outbox_after]
  exact hlast

end Along

/-! ### Tickets -/

theorem Sound.nodup_issued (h : L.Sound) : L.issued.Nodup := by
  apply List.Nodup.of_map fun k => k.number
  rw [h.numbers]
  exact List.nodup_range

/-- The tickets that wait are those of the events that wait. -/
theorem Sound.map_waiting (h : L.Sound) :
    L.waiting.map (fun k => (k.event, k.delay)) =
      L.outbox.waiting.map fun w => (w.event, w.delay) := by
  rw [← List.forall₂_eq_eq_eq, List.forall₂_map_left_iff, List.forall₂_map_right_iff]
  exact h.waiting.imp fun k w hkw => Prod.ext hkw.event.symm hkw.delay.symm

/-! ### Closing -/

/-- The channel of events is closed once nobody holds the outbox open and no event waits. -/
theorem Sound.isClosed_iff (h : L.Sound) :
    L.outbox.isClosed = true ↔ L.outbox.handles = 0 ∧ L.waiting = [] := by
  rw [Outbox.isClosed, beq_iff_eq, h.senders, ← h.waiting.length_eq, Nat.add_eq_zero_iff,
    List.length_eq_zero_iff]

/-- When nobody holds the outbox open, nothing is handed over any more. -/
theorem record_of_handles_eq_zero (h : L.outbox.handles = 0) (a : Action) :
    (L.record a).outbox.handles = 0 ∧ (L.record a).issued = L.issued := by
  cases a with
  | notify event delay =>
    rw [record_notify_of_not_held h]
    exact ⟨h, rfl⟩
  | run i => exact ⟨(L.outbox.run_frame i).2.2.trans h, (L.note_run_frame i).1⟩
  | retain | release =>
    rw [record, Outbox.act, if_pos h]
    exact ⟨h, rfl⟩
  | reindex | advance | receiveEvent | receiveRequest | dropEvents | dropRequests => exact ⟨h, rfl⟩

/-- A closed channel stays closed, and nothing more is sent. -/
theorem Sound.record_of_isClosed (h : L.Sound) (hclosed : L.outbox.isClosed = true) (a : Action) :
    (L.record a).outbox.isClosed = true ∧ (L.record a).sent = L.sent := by
  obtain ⟨hheld, hnone⟩ := h.isClosed_iff.mp hclosed
  cases a with
  | notify event delay =>
    rw [record_notify_of_not_held hheld]
    exact ⟨hclosed, rfl⟩
  | run i =>
    -- No event waits, so there is no task to run.
    have hk : L.waiting[i]? = none := by rw [hnone, List.getElem?_nil]
    have hw : L.outbox.waiting[i]? = none := (getElem?_eq_none_iff_of_forall₂ h.waiting).mp hk
    rw [record_run_of_none hw hk]
    exact ⟨hclosed, rfl⟩
  | retain | release =>
    rw [Ledger.record, Outbox.act, if_pos hheld]
    exact ⟨hclosed, rfl⟩
  | reindex | advance | receiveEvent | receiveRequest | dropEvents | dropRequests =>
    exact ⟨hclosed, rfl⟩

/-- What every action keeps is kept by any further actions. -/
theorem after_append_of_record {P : Ledger → Prop} {now : Nat} {as : List Action}
    (h : P (after now as)) (hstep : ∀ L : Ledger, L.Sound → P L → ∀ a, P (L.record a))
    (bs : List Action) : P (after now (as ++ bs)) := by
  induction bs using List.reverseRecOn with
  | nil =>
    rw [List.append_nil]
    exact h
  | append_singleton bs b ih =>
    rw [← List.append_assoc, after_concat]
    exact hstep _ (sound_after now (as ++ bs)) ih b

theorem after_append_of_handles_eq_zero {now : Nat} {as : List Action}
    (h : (after now as).outbox.handles = 0) (bs : List Action) :
    (after now (as ++ bs)).outbox.handles = 0 ∧
      (after now (as ++ bs)).issued = (after now as).issued := by
  apply after_append_of_record (P := fun L => L.outbox.handles = 0 ∧ L.issued = (after now as).issued)
    ⟨h, rfl⟩
  rintro L - ⟨hheld, hissued⟩ a
  rw [← hissued]
  exact record_of_handles_eq_zero hheld a

theorem after_append_of_isClosed {now : Nat} {as : List Action}
    (h : (after now as).outbox.isClosed = true) (bs : List Action) :
    (after now (as ++ bs)).outbox.isClosed = true ∧
      (after now (as ++ bs)).sent = (after now as).sent := by
  apply after_append_of_record (P := fun L => L.outbox.isClosed = true ∧ L.sent = (after now as).sent)
    ⟨h, rfl⟩
  rintro L hsound ⟨hclosed, hsent⟩ a
  rw [← hsent]
  exact hsound.record_of_isClosed hclosed a

/-! ### Calls and requests -/

theorem issued_record {a : Action} (h : a.call?.isSome → L.outbox.handles ≠ 0) :
    (L.record a).issued.map (fun k => (k.event, k.delay)) =
      L.issued.map (fun k => (k.event, k.delay)) ++ [a].filterMap Action.call? := by
  cases a with
  | notify event delay =>
    rw [record_notify_of_held (h rfl)]
    exact List.map_append
  | run i =>
    rw [record, (L.note_run_frame i).1]
    exact (List.append_nil _).symm
  | reindex | advance | receiveEvent | receiveRequest | dropEvents | dropRequests | retain
  | release => exact (List.append_nil _).symm

/-- Every call of who holds the outbox open gets a ticket. -/
theorem issued_after {now : Nat} {as : List Action} (h : Held now as) :
    (after now as).issued.map (fun k => (k.event, k.delay)) = as.filterMap Action.call? := by
  induction as using List.reverseRecOn with
  | nil => rfl
  | append_singleton as a ih =>
    rw [after_concat, issued_record (Along.last h), ih (Along.of_append h), List.filterMap_append]

theorem collected_record_of_not {a : Action} (h : a.isOnRequests = false) :
    (L.record a).collected = L.collected := by
  cases a with
  | run i => exact (L.note_run_frame i).2
  | notify =>
    rw [record, note]
    split_ifs <;> rfl
  | retain | release | advance | receiveEvent | dropEvents => rfl
  | reindex | receiveRequest | dropRequests => cases h

/-- As long as somebody receives requests, those that were received and those on the channel are
those that were made, in this order. -/
theorem collected_append_items (now : Nat) (as : List Action) (h : Action.dropRequests ∉ as) :
    (after now as).collected ++ (after now as).outbox.requests.items =
      as.filterMap Action.request? := by
  induction as using List.reverseRecOn with
  | nil => rfl
  | append_singleton as a ih =>
    rw [List.mem_append, List.mem_singleton, not_or] at h
    have hreceiver : (after now as).outbox.requests.hasReceiver = true := by
      rw [outbox_after, Outbox.hasReceiver_requests_actAll_iff]
      exact h.1
    rw [after_concat, List.filterMap_append, ← ih h.1]
    -- An action that is not about requests changes neither side.
    cases hrequests : a.isOnRequests with
    | false =>
      rw [collected_record_of_not hrequests, record, Outbox.requests_act_of_not hrequests,
        List.filterMap_cons_none (Action.request?_of_not hrequests)]
      exact (List.append_nil _).symm
    | true =>
      cases a with
      | reindex request =>
        change _ ++ ((after now as).outbox.requests.send [request]).items = _
        rw [Channel.send, if_pos hreceiver, List.append_assoc]
        rfl
      | receiveRequest =>
        change (_ ++ List.take 1 _) ++ List.drop 1 _ = _
        rw [List.append_assoc, List.take_append_drop]
        exact (List.append_nil _).symm
      | dropRequests => exact absurd rfl h.2
      | run | notify | retain | release | advance | receiveEvent | dropEvents => cases hrequests

/-! ### On time -/

/-- A ticket stands for an event that waits from the time of the call. -/
structure OnTime (now : Nat) (k : Ticket) (w : Waiting) : Prop where
  delay : w.delay = k.delay
  fresh : w.due = none → k.time = now
  due : ∀ d ∈ w.due, d = k.time + Waiting.span k.delay

/-- If time passes only when no task can run, delays count from the call. -/
theorem forall₂_onTime {now : Nat} {as : List Action} (h : Prompt now as) :
    List.Forall₂ (OnTime (after now as).outbox.now) (after now as).waiting
      (after now as).outbox.waiting := by
  induction as using List.reverseRecOn with
  | nil => exact .nil
  | append_singleton as a ih =>
    rw [after_concat]
    apply forall₂_waiting_record a (ih (Along.of_append h))
    · intro event delay
      exact ⟨rfl, fun _ => rfl, nofun⟩
    · -- A delay that starts now starts at the time of the call.
      intro k w hkw
      refine ⟨hkw.delay, nofun, ?_⟩
      rintro _ ⟨⟩
      cases hdue : w.due with
      | none => rw [Option.getD_none, hkw.delay, hkw.fresh hdue]
      | some d => exact hkw.due d hdue
    · -- Before time passes every delay has started.
      rintro milliseconds rfl k w hw hkw
      obtain ⟨d, hd, -⟩ := Waiting.isReady_eq_false_iff.mp (Along.last h milliseconds rfl w hw)
      refine ⟨hkw.delay, ?_, hkw.due⟩
      intro hnone
      rw [Option.mem_def, hnone] at hd
      cases hd

/-- If time passes only when no task can run, then whenever none can, no event that waits is due. -/
theorem lt_of_isIdle {now : Nat} {as : List Action} (h : Prompt now as)
    (hidle : (after now as).outbox.IsIdle) :
    ∀ k ∈ (after now as).waiting,
      (after now as).outbox.now < k.time + Waiting.span k.delay := by
  have hlater : List.Forall₂ (fun k w =>
      (after now as).outbox.now < k.time + Waiting.span k.delay ∧
        OnTime (after now as).outbox.now k w)
      (after now as).waiting (after now as).outbox.waiting := by
    apply forall₂_of_forall_mem (forall₂_onTime h)
    intro k w hw hkw
    obtain ⟨d, hd, hlt⟩ := Waiting.isReady_eq_false_iff.mp (hidle w hw)
    rw [hkw.due d hd] at hlt
    exact ⟨hlt, hkw⟩
  exact ((List.forall₂_and_left _ _).mp hlater).1

/-! ### All of it -/

/-- Whatever happens to an outbox, its ledger looks on, and gives a ticket to each event that is
handed over.

* A ticket waits, was sent or was lost, and only one of these. Tickets are lost, and what was sent is
  neither received nor on the channel, only after the receiver of events has gone.
* No event is sent before its delay has passed since the call, or thirty years if that is shorter.
* When no task can run, every event that waits has started its delay, and it has not passed; if time
  passes only when no task can run, it has not passed since the call. It can always come to that.
* Once nobody holds the outbox open, nothing more is handed over. The channel of events is closed
  exactly if in addition no event waits. It stays so, and nothing more is sent.
* The requests received and on the channel are those made, in this order, whatever becomes of events.
* Without a receiver an event or a request is still taken over, and only it is dropped. -/
theorem sent_once_in_time (now : Nat) (as : List Action) :
    let L := after now as
    L.outbox = (Outbox.empty now).actAll as ∧
    (Held now as → L.issued.map (fun k => (k.event, k.delay)) = as.filterMap Action.call?) ∧
    (L.issued.Nodup ∧
      L.issued.Perm (L.waiting ++ (L.sent.map (fun x => x.1) ++ L.lost)) ∧
      L.waiting.map (fun k => (k.event, k.delay)) =
        L.outbox.waiting.map (fun w => (w.event, w.delay)) ∧
      (.dropEvents ∉ as → L.lost = [] ∧
        L.received ++ L.outbox.events.items = L.sent.map fun x => x.1.event)) ∧
    (∀ x ∈ L.sent, x.1.time + Waiting.span x.1.delay ≤ x.2 ∧
      (x.1.delay.milliseconds ≤ Waiting.thirtyYears → x.1.time + x.1.delay.milliseconds ≤ x.2)) ∧
    ((L.outbox.IsIdle ↔ ∀ i, (L.outbox.run i).value = L.outbox) ∧
      (L.outbox.IsIdle → ∀ w ∈ L.outbox.waiting, ∃ d ∈ w.due, L.outbox.now < d) ∧
      (L.outbox.IsIdle → Prompt now as →
        ∀ k ∈ L.waiting, L.outbox.now < k.time + Waiting.span k.delay) ∧
      ∃ js : List Nat, (after now (as ++ js.map .run)).outbox = L.outbox.settle.value ∧
        L.outbox.settle.value.IsIdle) ∧
    ((L.outbox.isClosed = true ↔ L.outbox.handles = 0 ∧ L.waiting = []) ∧
      (L.outbox.handles = 0 → ∀ bs, (after now (as ++ bs)).outbox.handles = 0 ∧
        (after now (as ++ bs)).issued = L.issued) ∧
      (L.outbox.isClosed = true → ∀ bs, (after now (as ++ bs)).outbox.isClosed = true ∧
        (after now (as ++ bs)).sent = L.sent)) ∧
    ((.dropRequests ∉ as →
        L.collected ++ L.outbox.requests.items = as.filterMap Action.request?) ∧
      L.outbox.requests =
        ((Outbox.empty now).actAll (as.filter Action.isOnRequests)).requests) ∧
    ((L.outbox.handles ≠ 0 → ∀ event delay, (L.outbox.act (.notify event delay)).value =
        { L.outbox with
          waiting := L.outbox.waiting ++ [⟨event, delay, none⟩]
          senders := L.outbox.senders + 1 }) ∧
      (.dropEvents ∈ as → ∀ i w, L.outbox.waiting[i]? = some w → L.outbox.sends i = true →
        (L.outbox.act (.run i)).value =
          { L.outbox with
            waiting := L.outbox.waiting.eraseIdx i
            senders := L.outbox.senders - 1 }) ∧
      (.dropRequests ∈ as → ∀ request, (L.outbox.act (.reindex request)).value = L.outbox)) := by
  intro L
  have hsound : L.Sound := sound_after now as
  have houtbox : L.outbox = (Outbox.empty now).actAll as := outbox_after now as
  have hevents : L.outbox.events.hasReceiver = true ↔ .dropEvents ∉ as := by
    rw [houtbox]
    exact Outbox.hasReceiver_events_actAll_iff now as
  have hrequests : L.outbox.requests.hasReceiver = true ↔ .dropRequests ∉ as := by
    rw [houtbox]
    exact Outbox.hasReceiver_requests_actAll_iff now as
  -- What is left is to turn receivers that are there or not into actions that were taken or not.
  refine ⟨houtbox, issued_after, ⟨hsound.nodup_issued, hsound.conserved,
    hsound.map_waiting, ?_⟩, ?_, ⟨Outbox.isIdle_iff_forall_run, ?_, fun hidle hprompt =>
    lt_of_isIdle hprompt hidle, ?_⟩, ⟨hsound.isClosed_iff, after_append_of_handles_eq_zero,
    after_append_of_isClosed⟩, ⟨collected_append_items now as, ?_⟩, ?_, ?_, ?_⟩
  · intro hreceiver
    exact ⟨hsound.lost (hevents.mpr hreceiver), hsound.events (hevents.mpr hreceiver)⟩
  · intro x hx
    refine ⟨hsound.sent x hx, ?_⟩
    intro hshort
    rw [← Waiting.span_eq hshort]
    exact hsound.sent x hx
  · intro hidle w hw
    exact Waiting.isReady_eq_false_iff.mp (hidle w hw)
  · obtain ⟨js, hjs⟩ := L.outbox.exists_settle_eq_actAll
    refine ⟨js, ?_, L.outbox.isIdle_settle⟩
    rw [outbox_after, Outbox.actAll_append, ← houtbox, hjs]
  · rw [houtbox]
    exact Outbox.requests_actAll_filter _ as
  · intro hheld event delay
    rw [Outbox.act, if_neg hheld]
    rfl
  · intro hdropped i w
    have hgone : L.outbox.events.hasReceiver = false := by
      rw [← Bool.not_eq_true, hevents, not_not]
      exact hdropped
    exact Outbox.value_run_of_not_hasReceiver hgone
  · intro hdropped
    have hgone : L.outbox.requests.hasReceiver = false := by
      rw [← Bool.not_eq_true, hrequests, not_not]
      exact hdropped
    exact Outbox.value_reindex_of_not_hasReceiver hgone

/-! ### An event that waits five seconds -/

def delayedEvent : HeadEvent :=
  ⟨.ofNat 0, ⟨"https://git.example.org"⟩, .server, .updated, [], "10.0.0.1", ⟨⟨"P"⟩, ⟨"w"⟩, []⟩,
    none, none, ⟨0, 0, 0⟩⟩

/-- An event is handed over and a request is made; then everybody lets go of the outbox, and time
passes until the event is received. -/
def delayedActions : List Action :=
  [.notify delayedEvent (.ofSeconds 5), .reindex ⟨⟨"P"⟩, ⟨"w"⟩, none⟩, .release, .run 0,
    .advance 4999, .run 0, .advance 1, .run 0, .receiveEvent]

theorem prompt_delayedActions : Prompt 0 delayedActions := by
  rintro i _ hi milliseconds rfl
  match i, hi with
  | 4, _ => decide
  | 6, _ => decide
  | 0, hi | 1, hi | 2, hi | 3, hi | 5, hi | 7, hi | 8, hi | _ + 9, hi => cases hi

/-- Until the five seconds are over the event waits and is not due. Then it is received, and the
channel is closed. The request does not wait. -/
theorem sent_once_delayedEvent :
    (after 0 (delayedActions.take 2)).outbox.requests.items = [⟨⟨"P"⟩, ⟨"w"⟩, none⟩] ∧
      (∀ k ∈ (after 0 (delayedActions.take 6)).waiting, 4999 < k.time + 5000) ∧
      (after 0 delayedActions).received = [delayedEvent] ∧
      (∀ x ∈ (after 0 delayedActions).sent, x.1.time + x.1.delay.milliseconds ≤ x.2) ∧
      ∀ bs, (after 0 (delayedActions ++ bs)).outbox.isClosed = true := by
  obtain ⟨-, -, -, -, -, -, ⟨hrequests, -⟩, -⟩ := sent_once_in_time 0 (delayedActions.take 2)
  obtain ⟨-, -, -, -, ⟨-, -, hidle, -⟩, -⟩ := sent_once_in_time 0 (delayedActions.take 6)
  obtain ⟨-, -, ⟨-, -, -, hevents⟩, hsent, -, ⟨hclosed, -, hstays⟩, -⟩ :=
    sent_once_in_time 0 delayedActions
  have hprompt : Prompt 0 (delayedActions.take 6) := by
    apply Along.of_append
    rw [List.take_append_drop 6]
    exact prompt_delayedActions
  refine ⟨hrequests (by decide), ?_, ?_, ?_, ?_⟩
  · intro k hk
    have hlt := hidle (by decide) hprompt k hk
    obtain rfl := List.mem_singleton.mp hk
    have hspan : Waiting.span (.ofSeconds 5) = 5000 := Waiting.span_eq (by decide)
    rw [ticket, hspan] at hlt
    exact hlt
  · exact (List.append_nil _).symm.trans (hevents (by decide)).2
  · intro x hx
    obtain rfl := List.mem_singleton.mp hx
    exact (hsent _ hx).2 (by decide)
  · intro bs
    exact (hstays (hclosed.mpr ⟨rfl, rfl⟩) bs).1

end Ledger

end HeadScout
