import HeadScout.Webhook.Outbox
import Mathlib.Data.List.Forall2
import Mathlib.Data.List.Induction
import Mathlib.Data.List.Perm.Basic

/-!
# The ledger of an outbox

An outbox forgets what has left it. To say what becomes of an event, a ledger is kept beside it: each
call that hands over an event gets a ticket, and the ledger tells which tickets wait, which were sent
and when, and which were lost because nobody received any more. It only looks on. The outbox in it
does what it would do without a ledger.

Tasks may run in any order and as late as they like, time may pass between any two steps, and
receivers may take their time or go away. Whatever happens, each ticket has its place in the ledger:
it is issued once, waits until it leaves, and leaves once, not before its time. One step after the
other preserves this, so it holds after any number of them.

## Main definitions

* `Ticket` — a call that hands over an event
* `Ledger`, `Ledger.record`, `Ledger.after` — an outbox and what has become of its tickets
* `Ledger.Sound` — the ledger accounts for the outbox

## Main results

* `Ledger.forall₂_waiting_record` — what relates tickets to waiting events, action by action
* `Ledger.Sound.record` — every action keeps a ledger sound
* `Ledger.sound_after` — a ledger is sound after any actions
-/

namespace HeadScout

/-! ### Places in two lists -/

section Places

variable {α β : Type} {R : α → β → Prop} {as : List α} {bs : List β}

theorem exists_getElem?_of_forall₂ (h : List.Forall₂ R as bs) {i : Nat} {b : β}
    (hb : bs[i]? = some b) : ∃ a, as[i]? = some a ∧ R a b := by
  induction h generalizing i with
  | nil => cases hb
  | @cons a _ _ _ hab _ ih =>
    cases i with
    | zero =>
      cases hb
      exact ⟨a, rfl, hab⟩
    | succ i => exact ih hb

theorem getElem?_eq_none_iff_of_forall₂ (h : List.Forall₂ R as bs) {i : Nat} :
    as[i]? = none ↔ bs[i]? = none := by
  rw [List.getElem?_eq_none_iff, List.getElem?_eq_none_iff, h.length_eq]

theorem forall₂_eraseIdx (h : List.Forall₂ R as bs) (i : Nat) :
    List.Forall₂ R (as.eraseIdx i) (bs.eraseIdx i) := by
  induction h generalizing i with
  | nil => exact .nil
  | cons hab hrest ih =>
    cases i with
    | zero => exact hrest
    | succ i => exact .cons hab (ih i)

theorem forall₂_set (h : List.Forall₂ R as bs) {i : Nat} {b : β}
    (hb : ∀ a, as[i]? = some a → R a b) : List.Forall₂ R as (bs.set i b) := by
  induction h generalizing i with
  | nil => exact .nil
  | @cons a _ _ _ hab hrest ih =>
    cases i with
    | zero => exact .cons (hb a rfl) hrest
    | succ i => exact .cons hab (ih hb)

theorem forall₂_of_forall_mem {S : α → β → Prop} (h : List.Forall₂ R as bs)
    (himp : ∀ a, ∀ b ∈ bs, R a b → S a b) : List.Forall₂ S as bs := by
  induction h with
  | nil => exact .nil
  | cons hab _ ih =>
    obtain ⟨himp, hrest⟩ := forall_and.mp fun a => List.forall_mem_cons.mp (himp a)
    exact .cons (himp _ hab) (ih hrest)

theorem perm_cons_eraseIdx {i : Nat} {a : α} (h : as[i]? = some a) :
    as.Perm (a :: as.eraseIdx i) := by
  obtain ⟨hlt, rfl⟩ := List.getElem?_eq_some_iff.mp h
  exact (List.getElem_cons_eraseIdx_perm hlt).symm

end Places

/-! ### One run of a task -/

namespace Outbox

variable {o : Outbox} {i : Nat} {w : Waiting}

/-- Whether the task at a place sends its event when it runs. -/
def sends (o : Outbox) (i : Nat) : Bool :=
  o.waiting[i]?.any fun w => (w.start o.now).isDue o.now

theorem value_run_of_none (h : o.waiting[i]? = none) : (o.run i).value = o := by
  rw [run, h]
  rfl

/-- A task that sends its event is done. -/
theorem value_run_of_sends (h : o.waiting[i]? = some w) (hsends : o.sends i = true) :
    (o.run i).value =
      { o with
        waiting := o.waiting.eraseIdx i
        events := o.events.send [w.event]
        senders := o.senders - 1 } := by
  rw [sends, h, Option.any_some] at hsends
  simp only [run, h, hsends, if_true]
  rfl

/-- A task that does not send its event waits, from now on if it has not waited before. -/
theorem value_run_of_not_sends (h : o.waiting[i]? = some w) (hsends : o.sends i = false) :
    (o.run i).value = { o with waiting := o.waiting.set i (w.start o.now) } := by
  rw [sends, h, Option.any_some] at hsends
  simp only [run, h, hsends, Bool.false_eq_true, if_false]
  rfl

end Outbox

/-! ### Tickets and ledgers -/

/-- A call that hands over an event. -/
structure Ticket where
  /-- How many calls came before. -/
  number : Nat
  event : HeadEvent
  delay : Delay
  /-- When the call was made. -/
  time : Nat

/-- An outbox and what has become of its tickets. -/
structure Ledger where
  outbox : Outbox
  /-- All tickets, in the order of the calls. -/
  issued : List Ticket
  /-- The tickets whose events wait, in the order in which these wait. -/
  waiting : List Ticket
  /-- The tickets whose events were sent, with the times of sending, in this order. -/
  sent : List (Ticket × Nat)
  /-- The tickets whose events nobody was there to receive. -/
  lost : List Ticket
  /-- The events that were received, in this order. -/
  received : List HeadEvent
  /-- The requests that were received, in this order. -/
  collected : List ReindexRequest

namespace Ledger

open Outbox (Action)

variable (L : Ledger)

/-- The ledger of an outbox on a clock that shows the given time. -/
def start (now : Nat) : Ledger := ⟨.empty now, [], [], [], [], [], []⟩

/-- The ticket of an event that is handed over now. -/
def ticket (event : HeadEvent) (delay : Delay) : Ticket :=
  ⟨L.issued.length, event, delay, L.outbox.now⟩

/-- The ledger after the event of a waiting ticket has left. -/
def leave (i : Nat) (k : Ticket) : Ledger :=
  if L.outbox.events.hasReceiver then
    { L with waiting := L.waiting.eraseIdx i, sent := L.sent ++ [(k, L.outbox.now)] }
  else { L with waiting := L.waiting.eraseIdx i, lost := L.lost ++ [k] }

/-- What is written down when something happens to the outbox. -/
def note : Action → Ledger
  | .notify event delay =>
    if L.outbox.handles = 0 then L
    else
      { L with
        issued := L.issued ++ [L.ticket event delay]
        waiting := L.waiting ++ [L.ticket event delay] }
  | .run i =>
    match L.waiting[i]? with
    | some k => if L.outbox.sends i then L.leave i k else L
    | none => L
  | .receiveEvent => { L with received := L.received ++ L.outbox.events.items.take 1 }
  | .receiveRequest => { L with collected := L.collected ++ L.outbox.requests.items.take 1 }
  | .reindex _ | .advance _ | .dropEvents | .dropRequests | .retain | .release => L

/-- The ledger after an action. -/
def record (a : Action) : Ledger := { L.note a with outbox := (L.outbox.act a).value }

/-- The ledger after some actions. -/
def recordAll (as : List Action) : Ledger := as.foldl record L

/-- The ledger of an outbox that starts at the given time, after some actions. -/
def after (now : Nat) (as : List Action) : Ledger := (start now).recordAll as

variable {L}

/-- The ledger only looks on. -/
theorem outbox_recordAll (as : List Action) : (L.recordAll as).outbox = L.outbox.actAll as := by
  induction as generalizing L with
  | nil => rfl
  | cons a as ih => exact ih

theorem after_concat (now : Nat) (as : List Action) (a : Action) :
    after now (as ++ [a]) = (after now as).record a := by
  rw [after, recordAll, List.foldl_append]
  rfl

/-! ### Single actions -/

theorem record_notify_of_not_held {event : HeadEvent} {delay : Delay}
    (h : L.outbox.handles = 0) : L.record (.notify event delay) = L := by
  rw [record, note, if_pos h, Outbox.act, if_pos h]
  rfl

/-- A call issues a ticket that waits. -/
theorem record_notify_of_held {event : HeadEvent} {delay : Delay} (h : L.outbox.handles ≠ 0) :
    L.record (.notify event delay) =
      { L with
        outbox := (L.outbox.notify event delay).value
        issued := L.issued ++ [L.ticket event delay]
        waiting := L.waiting ++ [L.ticket event delay] } := by
  rw [record, note, if_neg h, Outbox.act, if_neg h]

theorem record_run_of_none {i : Nat} (hw : L.outbox.waiting[i]? = none)
    (hk : L.waiting[i]? = none) : L.record (.run i) = L := by
  rw [record, note, hk, Outbox.act, Outbox.value_run_of_none hw]

/-- A task that does not send its event goes on waiting. -/
theorem record_run_of_not_sends {i : Nat} {w : Waiting} {k : Ticket}
    (hw : L.outbox.waiting[i]? = some w) (hk : L.waiting[i]? = some k)
    (hsends : L.outbox.sends i = false) :
    L.record (.run i) =
      { L with
        outbox := { L.outbox with waiting := L.outbox.waiting.set i (w.start L.outbox.now) } } := by
  rw [record, note, hk, Outbox.act, Outbox.value_run_of_not_sends hw hsends]
  simp only [hsends, Bool.false_eq_true, if_false]

/-- A task that sends its event is done, and its ticket leaves. -/
theorem record_run_of_sends {i : Nat} {w : Waiting} {k : Ticket}
    (hw : L.outbox.waiting[i]? = some w) (hk : L.waiting[i]? = some k)
    (hsends : L.outbox.sends i = true) :
    L.record (.run i) =
      { L.leave i k with
        outbox :=
          { L.outbox with
            waiting := L.outbox.waiting.eraseIdx i
            events := L.outbox.events.send [w.event]
            senders := L.outbox.senders - 1 } } := by
  rw [record, note, hk, Outbox.act, Outbox.value_run_of_sends hw hsends]
  simp only [hsends, if_true]

theorem waiting_leave (i : Nat) (k : Ticket) : (L.leave i k).waiting = L.waiting.eraseIdx i := by
  rw [leave]
  split_ifs <;> rfl

/-- What relates waiting tickets to waiting events is kept by every action if it holds at the call,
is kept by the first run of a task, and is kept when time passes. -/
theorem forall₂_waiting_record {R : Nat → Ticket → Waiting → Prop} (a : Action)
    (h : List.Forall₂ (R L.outbox.now) L.waiting L.outbox.waiting)
    (hcall : ∀ event delay, R L.outbox.now (L.ticket event delay) ⟨event, delay, none⟩)
    (hrun : ∀ k w, R L.outbox.now k w → R L.outbox.now k (w.start L.outbox.now))
    (hlater : ∀ milliseconds, a = .advance milliseconds → ∀ k, ∀ w ∈ L.outbox.waiting,
      R L.outbox.now k w → R (L.outbox.now + milliseconds) k w) :
    List.Forall₂ (R (L.record a).outbox.now) (L.record a).waiting (L.record a).outbox.waiting := by
  cases a with
  | notify event delay =>
    by_cases hheld : L.outbox.handles = 0
    · rw [record_notify_of_not_held hheld]
      exact h
    · rw [record_notify_of_held hheld]
      exact List.rel_append h (.cons (hcall event delay) .nil)
  | run i =>
    cases hw : L.outbox.waiting[i]? with
    | none =>
      have hk : L.waiting[i]? = none := (getElem?_eq_none_iff_of_forall₂ h).mpr hw
      rw [record_run_of_none hw hk]
      exact h
    | some w =>
      obtain ⟨k, hk, hkw⟩ := exists_getElem?_of_forall₂ h hw
      cases hsends : L.outbox.sends i with
      | false =>
        rw [record_run_of_not_sends hw hk hsends]
        apply forall₂_set h
        intro k' hk'
        obtain rfl := Option.some.inj (hk.symm.trans hk')
        exact hrun k w hkw
      | true =>
        rw [record_run_of_sends hw hk hsends, waiting_leave]
        exact forall₂_eraseIdx h i
  | advance milliseconds => exact forall₂_of_forall_mem h (hlater milliseconds rfl)
  | retain =>
    rw [record, Outbox.act]
    split_ifs <;> exact h
  | release =>
    rw [record, Outbox.act]
    split_ifs <;> exact h
  | reindex | receiveEvent | receiveRequest | dropEvents | dropRequests => exact h

/-! ### Sound ledgers -/

/-- A ticket stands for an event that waits. -/
structure StandsFor (now : Nat) (k : Ticket) (w : Waiting) : Prop where
  event : w.event = k.event
  delay : w.delay = k.delay
  past : k.time ≤ now
  /-- The event is not due before its delay has passed since the call. -/
  due : ∀ d ∈ w.due, k.time + Waiting.span k.delay ≤ d

/-- A task that runs for the first time after the call starts a delay that ends no earlier. -/
theorem StandsFor.start {now : Nat} {k : Ticket} {w : Waiting} (h : StandsFor now k w) :
    StandsFor now k (w.start now) := by
  refine ⟨h.event, h.delay, h.past, ?_⟩
  rintro _ ⟨⟩
  cases hdue : w.due with
  | none =>
    rw [Option.getD_none, h.delay]
    exact Nat.add_le_add_right h.past _
  | some d => exact h.due d hdue

theorem StandsFor.le_of_isDue {now : Nat} {k : Ticket} {w : Waiting} (h : StandsFor now k w)
    (hdue : w.isDue now = true) : k.time + Waiting.span k.delay ≤ now := by
  rw [Waiting.isDue, Option.any_eq_true] at hdue
  obtain ⟨d, hd, hle⟩ := hdue
  exact Nat.le_trans (h.due d hd) (of_decide_eq_true hle)

/-- The ledger accounts for the outbox. -/
structure Sound (L : Ledger) : Prop where
  waiting : List.Forall₂ (StandsFor L.outbox.now) L.waiting L.outbox.waiting
  /-- Tickets are numbered in the order of the calls. -/
  numbers : L.issued.map (·.number) = List.range L.issued.length
  /-- Each ticket waits, was sent or was lost, and only one of these. -/
  conserved : L.issued.Perm (L.waiting ++ (L.sent.map (·.1) ++ L.lost))
  /-- Nothing was sent before its time. -/
  sent : ∀ x ∈ L.sent, x.1.time + Waiting.span x.1.delay ≤ x.2
  /-- Nothing is lost as long as somebody receives. -/
  lost : L.outbox.events.hasReceiver = true → L.lost = []
  /-- What was sent was received or is still on the channel. -/
  events : L.outbox.events.hasReceiver = true →
    L.received ++ L.outbox.events.items = L.sent.map (·.1.event)
  /-- Those who hold the outbox open can send, and the tasks of the waiting events. -/
  senders : L.outbox.senders = L.outbox.handles + L.outbox.waiting.length

namespace Sound

theorem start (now : Nat) : (Ledger.start now).Sound where
  waiting := .nil
  numbers := rfl
  conserved := List.Perm.refl []
  sent := List.forall_mem_nil _
  lost _ := rfl
  events _ := rfl
  senders := rfl

theorem waiting_record (h : L.Sound) (a : Action) :
    List.Forall₂ (StandsFor (L.record a).outbox.now) (L.record a).waiting
      (L.record a).outbox.waiting := by
  refine forall₂_waiting_record a h.waiting ?_ (fun _ _ hkw => hkw.start) ?_
  · intro event delay
    exact ⟨rfl, rfl, Nat.le_refl _, nofun⟩
  · intro milliseconds _ k w _ hkw
    exact ⟨hkw.event, hkw.delay, Nat.le_trans hkw.past (Nat.le_add_right _ _), hkw.due⟩

theorem record_notify (h : L.Sound) (event : HeadEvent) (delay : Delay) :
    (L.record (.notify event delay)).Sound := by
  have hwaiting := h.waiting_record (.notify event delay)
  by_cases hheld : L.outbox.handles = 0
  · rw [record_notify_of_not_held hheld]
    exact h
  · rw [record_notify_of_held hheld] at hwaiting ⊢
    refine ⟨hwaiting, ?_, ?_, h.sent, h.lost, h.events, ?_⟩
    · change (L.issued ++ [L.ticket event delay]).map (·.number) = _
      rw [List.map_append, h.numbers, List.length_append]
      exact List.range_succ.symm
    · -- The new ticket goes behind those that wait, in front of those that have left.
      change (L.issued ++ [L.ticket event delay]).Perm
        ((L.waiting ++ [L.ticket event delay]) ++ (L.sent.map (·.1) ++ L.lost))
      rw [List.append_assoc]
      refine (h.conserved.append_right _).trans ?_
      rw [List.append_assoc]
      exact List.perm_append_comm.append_left _
    · have hsenders := h.senders
      change L.outbox.senders + 1 = L.outbox.handles + (L.outbox.waiting ++ [_]).length
      rw [List.length_append, List.length_singleton]
      omega

theorem record_run_of_sends (h : L.Sound) {i : Nat} {w : Waiting} {k : Ticket}
    (hw : L.outbox.waiting[i]? = some w) (hk : L.waiting[i]? = some k)
    (hkw : StandsFor L.outbox.now k w) (hsends : L.outbox.sends i = true) :
    (L.record (.run i)).Sound := by
  have hwaiting := h.waiting_record (.run i)
  have hdue : k.time + Waiting.span k.delay ≤ L.outbox.now := by
    rw [Outbox.sends, hw, Option.any_some] at hsends
    exact hkw.start.le_of_isDue hsends
  -- The ticket is taken from those that wait, and is still to be put with those that have left.
  have hleft : L.issued.Perm (L.waiting.eraseIdx i ++ (k :: (L.sent.map (·.1) ++ L.lost))) :=
    (h.conserved.trans ((perm_cons_eraseIdx hk).append_right _)).trans List.perm_middle.symm
  have hsenders : L.outbox.senders - 1 =
      L.outbox.handles + (L.outbox.waiting.eraseIdx i).length := by
    have hlength : L.outbox.waiting.length = (L.outbox.waiting.eraseIdx i).length + 1 :=
      (perm_cons_eraseIdx hw).length_eq
    have hbefore := h.senders
    omega
  rw [Ledger.record_run_of_sends hw hk hsends, leave] at hwaiting ⊢
  cases hreceiver : L.outbox.events.hasReceiver with
  | true =>
    rw [hreceiver, if_pos rfl] at hwaiting
    rw [if_pos rfl]
    refine ⟨hwaiting, h.numbers, ?_, ?_, fun _ => h.lost hreceiver, ?_, hsenders⟩
    · change L.issued.Perm
        (L.waiting.eraseIdx i ++ ((L.sent ++ [(k, L.outbox.now)]).map (fun x => x.1) ++ L.lost))
      refine hleft.trans (List.Perm.append_left _ ?_)
      rw [List.map_append, List.append_assoc]
      exact List.perm_middle.symm
    · exact List.forall_mem_append.mpr ⟨h.sent, List.forall_mem_singleton.mpr hdue⟩
    · intro _
      change L.received ++ (L.outbox.events.send [w.event]).items =
        (L.sent ++ [(k, L.outbox.now)]).map fun x => x.1.event
      rw [Channel.send, if_pos hreceiver, List.map_append, ← h.events hreceiver,
        List.append_assoc, hkw.event]
      rfl
  | false =>
    rw [hreceiver, if_neg Bool.false_ne_true] at hwaiting
    rw [if_neg Bool.false_ne_true]
    -- Nobody comes back to receive.
    have hgone : (L.outbox.events.send [w.event]).hasReceiver ≠ true := by
      rw [Channel.send, hreceiver, if_neg Bool.false_ne_true, hreceiver]
      exact Bool.false_ne_true
    refine ⟨hwaiting, h.numbers, ?_, h.sent, fun hback => absurd hback hgone,
      fun hback => absurd hback hgone, hsenders⟩
    refine hleft.trans (List.Perm.append_left _ ?_)
    rw [← List.append_assoc]
    exact (List.perm_append_singleton _ _).symm

theorem record_run (h : L.Sound) (i : Nat) : (L.record (.run i)).Sound := by
  have hwaiting := h.waiting_record (.run i)
  cases hw : L.outbox.waiting[i]? with
  | none =>
    have hk : L.waiting[i]? = none := (getElem?_eq_none_iff_of_forall₂ h.waiting).mpr hw
    rw [record_run_of_none hw hk]
    exact h
  | some w =>
    obtain ⟨k, hk, hkw⟩ := exists_getElem?_of_forall₂ h.waiting hw
    cases hsends : L.outbox.sends i with
    | true => exact h.record_run_of_sends hw hk hkw hsends
    | false =>
      rw [record_run_of_not_sends hw hk hsends] at hwaiting ⊢
      refine ⟨hwaiting, h.numbers, h.conserved, h.sent, h.lost, h.events, ?_⟩
      change L.outbox.senders = L.outbox.handles + (L.outbox.waiting.set i _).length
      rw [List.length_set]
      exact h.senders

/-- Every action keeps a ledger sound. -/
theorem record (h : L.Sound) (a : Action) : (L.record a).Sound := by
  have hwaiting := h.waiting_record a
  have hsenders := h.senders
  cases a with
  | notify event delay => exact h.record_notify event delay
  | run i => exact h.record_run i
  | advance | reindex | receiveRequest | dropRequests =>
    exact ⟨hwaiting, h.numbers, h.conserved, h.sent, h.lost, h.events, hsenders⟩
  | receiveEvent =>
    refine ⟨hwaiting, h.numbers, h.conserved, h.sent, h.lost, ?_, hsenders⟩
    intro hreceiver
    -- What is received is taken from the front of the channel.
    change (L.received ++ L.outbox.events.items.take 1) ++ L.outbox.events.items.drop 1 = _
    rw [List.append_assoc, List.take_append_drop]
    exact h.events hreceiver
  | dropEvents => exact ⟨hwaiting, h.numbers, h.conserved, h.sent, nofun, nofun, hsenders⟩
  | retain =>
    rw [Ledger.record, Outbox.act]
    split_ifs with hheld
    · exact h
    · refine ⟨h.waiting, h.numbers, h.conserved, h.sent, h.lost, h.events, ?_⟩
      change L.outbox.senders + 1 = L.outbox.handles + 1 + L.outbox.waiting.length
      omega
  | release =>
    rw [Ledger.record, Outbox.act]
    split_ifs with hheld
    · exact h
    · refine ⟨h.waiting, h.numbers, h.conserved, h.sent, h.lost, h.events, ?_⟩
      change L.outbox.senders - 1 = L.outbox.handles - 1 + L.outbox.waiting.length
      omega

end Sound

/-- Whatever happens, a ledger stays sound. -/
theorem sound_after (now : Nat) (as : List Action) : (after now as).Sound := by
  induction as using List.reverseRecOn with
  | nil => exact Sound.start now
  | append_singleton as a ih =>
    rw [after_concat]
    exact ih.record a

end Ledger

end HeadScout
