import HeadScout.Proofs.Webhook.Ledger

/-!
# Settling an outbox

Settling an outbox lets every task run that can. It is a shorthand: one run after the other comes to
the same, first of the tasks whose events are due, in the order of time, then of those whose delays
have yet to start. After it no task can run.

## Main definitions

* `Outbox.IsIdle` — no task can run

## Main results

* `Outbox.isIdle_iff_forall_run` — no task can run exactly if no run does anything
* `Outbox.exists_settle_eq_actAll` — settling is some runs, one after the other
* `Outbox.isIdle_settle` — it leaves no task that can run
-/

namespace HeadScout

namespace Waiting

variable {now : Nat} {w : Waiting}

/-- An event whose task cannot run waits for a later time. -/
theorem isReady_eq_false_iff : w.isReady now = false ↔ ∃ d ∈ w.due, now < d := by
  rw [isReady, isDue]
  cases w.due with
  | none =>
    apply iff_of_false
    · exact Bool.noConfusion
    · rintro ⟨_, hd, -⟩
      cases hd
  | some d =>
    rw [Option.isNone_some, Bool.false_or, Option.any_some, decide_eq_false_iff_not, Nat.not_le]
    constructor
    · intro hlt
      exact ⟨d, rfl, hlt⟩
    · rintro ⟨_, ⟨⟩, hlt⟩
      exact hlt

/-- A delay starts once. -/
theorem start_eq_self {d : Nat} (h : w.due = some d) : w.start now = w := by
  obtain ⟨event, delay, due⟩ := w
  cases h
  rfl

/-- A task that has run and did not send its event waits for a later time. -/
theorem isReady_start (h : (w.start now).isDue now = false) : (w.start now).isReady now = false := by
  rw [isReady, h]
  rfl

end Waiting

namespace Channel

variable {α : Type}

theorem send_nil (c : Channel α) : c.send [] = c := by
  rw [send, List.append_nil]
  exact ite_self c

theorem send_send (c : Channel α) (first next : List α) :
    (c.send first).send next = c.send (first ++ next) := by
  unfold send
  split_ifs with h
  · rw [List.append_assoc]
  · rfl

end Channel

namespace Outbox

variable {o : Outbox}

/-! ### When no task can run -/

/-- No task can run. -/
def IsIdle (o : Outbox) : Prop := ∀ w ∈ o.waiting, w.isReady o.now = false

instance (o : Outbox) : Decidable o.IsIdle :=
  inferInstanceAs (Decidable (∀ w ∈ o.waiting, w.isReady o.now = false))

theorem sends_eq {i : Nat} {w : Waiting} (h : o.waiting[i]? = some w) :
    o.sends i = (w.start o.now).isDue o.now := by
  rw [sends, h, Option.any_some]

theorem IsIdle.value_run (h : o.IsIdle) (i : Nat) : (o.run i).value = o := by
  cases hw : o.waiting[i]? with
  | none => exact value_run_of_none hw
  | some w =>
    have hready := h w (List.mem_of_getElem? hw)
    obtain ⟨d, hd, hlt⟩ := Waiting.isReady_eq_false_iff.mp hready
    have hstart : w.start o.now = w := Waiting.start_eq_self hd
    have hsends : o.sends i = false := by
      rw [sends_eq hw, hstart]
      rw [Waiting.isReady, Bool.or_eq_false_iff] at hready
      exact hready.2
    obtain ⟨hi, rfl⟩ := List.getElem?_eq_some_iff.mp hw
    rw [value_run_of_not_sends hw hsends, hstart, List.set_getElem_self]

/-- No task can run exactly if no run does anything. -/
theorem isIdle_iff_forall_run : o.IsIdle ↔ ∀ i, (o.run i).value = o := by
  refine ⟨IsIdle.value_run, ?_⟩
  intro h w hmem
  obtain ⟨i, hw⟩ := List.getElem?_of_mem hmem
  have hsame : (o.run i).value.waiting = o.waiting := congrArg Outbox.waiting (h i)
  cases hsends : o.sends i with
  | true =>
    -- The task would have left.
    rw [value_run_of_sends hw hsends] at hsame
    have hlength : o.waiting.length = (o.waiting.eraseIdx i).length + 1 :=
      (perm_cons_eraseIdx hw).length_eq
    rw [show o.waiting.eraseIdx i = o.waiting from hsame] at hlength
    omega
  | false =>
    rw [value_run_of_not_sends hw hsends] at hsame
    have hset : o.waiting.set i (w.start o.now) = o.waiting := hsame
    obtain ⟨hi, -⟩ := List.getElem?_eq_some_iff.mp hw
    have hstart : w.start o.now = w := by
      rw [← hset, List.getElem?_set_self hi] at hw
      exact Option.some.inj hw
    rw [sends_eq hw] at hsends
    rw [← hstart]
    exact Waiting.isReady_start hsends

/-! ### One run after the other -/

theorem actAll_append (as bs : List Action) : o.actAll (as ++ bs) = (o.actAll as).actAll bs :=
  List.foldl_append

theorem actAll_cons (a : Action) (as : List Action) :
    o.actAll (a :: as) = (o.act a).value.actAll as := rfl

/-- The tasks whose events are due are run in any order. -/
theorem exists_actAll_eq_of_perm (due : List Waiting)
    (h : due.Perm ((o.waiting.map (Waiting.start o.now)).filter (Waiting.isDue o.now))) :
    ∃ js : List Nat, o.actAll (js.map .run) =
      { o with
        waiting := o.waiting.filter fun w => !(w.start o.now).isDue o.now
        events := o.events.send (due.map (·.event))
        senders := o.senders - due.length } := by
  induction due generalizing o with
  | nil =>
    refine ⟨[], ?_⟩
    have hnone : ∀ w ∈ o.waiting, (!(w.start o.now).isDue o.now) = true := by
      intro w hw
      rw [List.nil_perm, List.filter_eq_nil_iff] at h
      rw [Bool.not_eq_true']
      exact Bool.eq_false_iff.mpr (h _ (List.mem_map_of_mem hw))
    rw [List.filter_eq_self.mpr hnone, List.map_nil (f := Waiting.event), Channel.send_nil]
    rfl
  | cons d due ih =>
    -- The next event that is due waits somewhere; its task is run first.
    have hd : d ∈ (o.waiting.map (Waiting.start o.now)).filter (Waiting.isDue o.now) :=
      h.subset List.mem_cons_self
    obtain ⟨hmem, hdue⟩ := List.mem_filter.mp hd
    obtain ⟨w, hw, rfl⟩ := List.mem_map.mp hmem
    obtain ⟨xs, ys, hwaiting⟩ := List.append_of_mem hw
    have hget : o.waiting[xs.length]? = some w := by
      rw [hwaiting, List.getElem?_append_right (Nat.le_refl _), Nat.sub_self]
      rfl
    have herase : o.waiting.eraseIdx xs.length = xs ++ ys := by
      rw [hwaiting, List.eraseIdx_append_of_length_le (Nat.le_refl _), Nat.sub_self]
      rfl
    have hsends : o.sends xs.length = true := (sends_eq hget).trans hdue
    have hrun := value_run_of_sends hget hsends
    rw [herase] at hrun
    -- What is due besides is due after the run.
    have hrest : due.Perm
        (((o.run xs.length).value.waiting.map (Waiting.start o.now)).filter
          (Waiting.isDue o.now)) := by
      rw [hrun]
      rw [hwaiting, List.map_append, List.map_cons, List.filter_append,
        List.filter_cons_of_pos hdue] at h
      rw [List.map_append, List.filter_append]
      exact (h.trans List.perm_middle).cons_inv
    have hnow : (o.run xs.length).value.now = o.now := by rw [hrun]
    obtain ⟨js, hjs⟩ := ih (o := (o.run xs.length).value) (by rw [hnow]; exact hrest)
    refine ⟨xs.length :: js, ?_⟩
    rw [List.map_cons, actAll_cons, act, hjs, hrun]
    have hkept : o.waiting.filter (fun w => !(w.start o.now).isDue o.now) =
        (xs ++ ys).filter fun w => !(w.start o.now).isDue o.now := by
      rw [hwaiting, List.filter_append, List.filter_append,
        List.filter_cons_of_neg (by rw [hdue]; exact Bool.false_ne_true)]
    rw [hkept, List.map_cons, List.length_cons, Channel.send_send, Nat.sub_sub, Nat.add_comm 1]
    rfl

/-- The tasks whose events are not due start their delays, one after the other. -/
theorem exists_actAll_eq_start (started rest : List Waiting)
    (h : ∀ w ∈ rest, (w.start o.now).isDue o.now = false)
    (hwaiting : o.waiting = started ++ rest) :
    ∃ js : List Nat, o.actAll (js.map .run) =
      { o with waiting := started ++ rest.map (Waiting.start o.now) } := by
  -- What has started stands in front, so the next task is the one right behind it.
  induction rest generalizing o started with
  | nil =>
    refine ⟨[], ?_⟩
    rw [List.map_nil (f := Waiting.start o.now), ← hwaiting]
    rfl
  | cons w rest ih =>
    obtain ⟨hw, hrest⟩ := List.forall_mem_cons.mp h
    have hget : o.waiting[started.length]? = some w := by
      rw [hwaiting, List.getElem?_append_right (Nat.le_refl _), Nat.sub_self]
      rfl
    have hrun := value_run_of_not_sends hget ((sends_eq hget).trans hw)
    have hset : o.waiting.set started.length (w.start o.now) =
        (started ++ [w.start o.now]) ++ rest := by
      rw [hwaiting, List.set_append_right _ _ (Nat.le_refl _), Nat.sub_self, List.append_assoc]
      rfl
    rw [hset] at hrun
    have hnow : (o.run started.length).value.now = o.now := by rw [hrun]
    obtain ⟨js, hjs⟩ := ih (o := (o.run started.length).value) (started ++ [w.start o.now])
      (by rw [hnow]; exact hrest) (by rw [hrun])
    refine ⟨started.length :: js, ?_⟩
    rw [List.map_cons, actAll_cons, act, hjs, hrun]
    simp only [List.map_cons, List.append_assoc, List.singleton_append]

/-! ### Settling -/

/-- What waits after settling has started its delay. -/
theorem value_settle : o.settle.value =
    { o with
      waiting := (o.waiting.filter fun w => !(w.start o.now).isDue o.now).map (Waiting.start o.now)
      events := o.events.send
        ((((o.waiting.map (Waiting.start o.now)).filter (Waiting.isDue o.now)).mergeSort
          fun a b => a.due.getD 0 ≤ b.due.getD 0).map (·.event))
      senders := o.senders -
        (((o.waiting.map (Waiting.start o.now)).filter (Waiting.isDue o.now)).mergeSort
          fun a b => a.due.getD 0 ≤ b.due.getD 0).length } := by
  simp only [settle, forward, List.partition_eq_filter_filter, List.filter_map]
  rfl

/-- Settling is some runs, one after the other. -/
theorem exists_settle_eq_actAll (o : Outbox) :
    ∃ js : List Nat, o.settle.value = o.actAll (js.map .run) := by
  obtain ⟨js, hjs⟩ := exists_actAll_eq_of_perm (o := o) _ (List.mergeSort_perm _ _)
  obtain ⟨ks, hks⟩ := exists_actAll_eq_start (o := o.actAll (js.map .run)) [] _
    (by
      intro w hw
      rw [hjs] at hw ⊢
      obtain ⟨-, hw⟩ := List.mem_filter.mp hw
      rw [Bool.not_eq_true'] at hw
      exact hw)
    rfl
  -- After the first runs exactly the events wait that are not due.
  refine ⟨js ++ ks, ?_⟩
  rw [List.map_append, actAll_append, hks, hjs, value_settle]
  rfl

/-- Settling leaves no task that can run. -/
theorem isIdle_settle (o : Outbox) : o.settle.value.IsIdle := by
  rw [value_settle]
  intro w hw
  obtain ⟨v, hv, rfl⟩ := List.mem_map.mp hw
  obtain ⟨-, hv⟩ := List.mem_filter.mp hv
  rw [Bool.not_eq_true'] at hv
  exact Waiting.isReady_start hv

end Outbox

end HeadScout
