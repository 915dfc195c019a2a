import HeadScout.Client.Paging
import Mathlib.Data.Finset.Card
import Mathlib.Data.List.Nodup

/-!
# Walks over pages

Both products hand out a listing page by page, and each page tells where the next one is: by its
address, or by the number of its first entry. Reading a listing is a walk along these keys. It ends
with a page that cannot be read, with a page that names no other one, or with a page that leads
back, which is a page already read on Cloud and one that does not start further on on Server. What
comes back may be anything at all, so the walk must not trust it to end.

On Cloud every page but the last one stands at another address of the network, and there are only so
many of these. On Server the starts increase, and there are only so many numbers to start at,
whatever answers; no two of them are written alike, so no address is asked for twice either.

## Main definitions

* `Walk` — the keys that are walked along, and what the walk brings
* `Chain` — pages that stand one behind the other
* `cloudPage`, `serverPage` — a page with the key of the next one
* `Exchange.urls` — the addresses that are asked for

## Main results

* `Walk.eq_of_chain_of_nodup`, `Walk.eq_of_chain_of_pairwise_lt` — a walk along a chain that does not
  lead back brings all of it
* `Walk.nodup`, `Walk.pairwise_lt` — walks do not come back
* `walk_cloudPages`, `walk_serverPages` — both listings are walks
* `requests_bounded` — walks end, and ask for no address twice
-/

namespace HeadScout

/-! ### Walks -/

section Walk

variable {κ ε α : Type}

/-- A walk along the keys of pages, behind some keys that were walked along before, latest first.
Whether a page leads back is told by its key, the keys before it and the key that it names. -/
inductive Walk (page : κ → Except ε (List α × Option κ)) (leadsBack : List κ → κ → Prop) :
    List κ → κ → List κ → Except ε (List α) → Prop
  /-- The page cannot be read. -/
  | failed {visited k e} (h : page k = .error e) : Walk page leadsBack visited k [k] (.error e)
  /-- The page is the last one. -/
  | last {visited k vs} (h : page k = .ok (vs, none)) : Walk page leadsBack visited k [k] (.ok vs)
  /-- The page leads back. -/
  | back {visited k vs next} (h : page k = .ok (vs, some next))
      (hback : leadsBack (k :: visited) next) : Walk page leadsBack visited k [k] (.ok vs)
  /-- The walk goes on. -/
  | step {visited k vs next ks r} (h : page k = .ok (vs, some next))
      (hgo : ¬ leadsBack (k :: visited) next) (hrest : Walk page leadsBack (k :: visited) next ks r) :
      Walk page leadsBack visited k (k :: ks) (r.map (vs ++ ·))

/-- Pages that stand one behind the other, from a key on: the keys, the entries page by page, and
the failure of the last page if it cannot be read. What there is under a key is told by `brings`. -/
inductive Chain (brings : κ → Except ε (List α × Option κ) → Prop) :
    κ → List κ → List (List α) → Option ε → Prop
  | failed {k e} (h : brings k (.error e)) : Chain brings k [k] [] (some e)
  | last {k vs} (h : brings k (.ok (vs, none))) : Chain brings k [k] [vs] none
  | step {k vs next ks cut failure} (h : brings k (.ok (vs, some next)))
      (hrest : Chain brings next ks cut failure) : Chain brings k (k :: ks) (vs :: cut) failure

/-- All entries of some pages, unless one of the pages cannot be read. -/
def entriesOf (cut : List (List α)) : Option ε → Except ε (List α)
  | some e => .error e
  | none => .ok cut.flatten

theorem entriesOf_cons (vs : List α) (cut : List (List α)) (failure : Option ε) :
    entriesOf (vs :: cut) failure = (entriesOf cut failure).map (vs ++ ·) := by
  cases failure <;> rfl

namespace Chain

variable {brings : κ → Except ε (List α × Option κ) → Prop} {k : κ} {keys : List κ}
  {cut : List (List α)} {failure : Option ε}

theorem exists_cons (h : Chain brings k keys cut failure) : ∃ behind, keys = k :: behind := by
  cases h with
  | failed | last | step => exact ⟨_, rfl⟩

theorem imp {brings' : κ → Except ε (List α × Option κ) → Prop}
    (hbrings : ∀ k r, brings k r → brings' k r) (h : Chain brings k keys cut failure) :
    Chain brings' k keys cut failure := by
  induction h with
  | failed h => exact .failed (hbrings _ _ h)
  | last h => exact .last (hbrings _ _ h)
  | step h _ ih => exact .step (hbrings _ _ h) ih

end Chain

namespace Walk

variable {page : κ → Except ε (List α × Option κ)} {leadsBack : List κ → κ → Prop}
  {visited ks : List κ} {k : κ} {r : Except ε (List α)}

/-- Every page but the last one was read. -/
theorem exists_concat (h : Walk page leadsBack visited k ks r) :
    ∃ read last, ks = read ++ [last] ∧ ∀ k' ∈ read, ∃ p, page k' = .ok p := by
  induction h with
  | @failed _ k | @last _ k | @back _ k => exact ⟨[], k, rfl, List.forall_mem_nil _⟩
  | @step _ k _ _ _ _ hpage _ _ ih =>
    obtain ⟨read, last, rfl, hread⟩ := ih
    exact ⟨k :: read, last, rfl, List.forall_mem_cons.mpr ⟨⟨_, hpage⟩, hread⟩⟩

theorem of_error {e : ε} (hpage : page k = .error e) (h : Walk page leadsBack visited k ks r) :
    ks = [k] ∧ r = .error e := by
  cases h with
  | failed h =>
    cases hpage.symm.trans h
    exact ⟨rfl, rfl⟩
  | last h | back h | step h => cases hpage.symm.trans h

theorem of_last {vs : List α} (hpage : page k = .ok (vs, none))
    (h : Walk page leadsBack visited k ks r) : ks = [k] ∧ r = .ok vs := by
  cases h with
  | last h =>
    cases hpage.symm.trans h
    exact ⟨rfl, rfl⟩
  | failed h | back h | step h => cases hpage.symm.trans h

theorem of_step {vs : List α} {next : κ} (hpage : page k = .ok (vs, some next))
    (hgo : ¬ leadsBack (k :: visited) next) (h : Walk page leadsBack visited k ks r) :
    ∃ ks' r', ks = k :: ks' ∧ r = r'.map (vs ++ ·) ∧
      Walk page leadsBack (k :: visited) next ks' r' := by
  cases h with
  | step h _ hrest =>
    cases hpage.symm.trans h
    exact ⟨_, _, rfl, rfl, hrest⟩
  | back h hback =>
    cases hpage.symm.trans h
    exact absurd hback hgo
  | failed h | last h => cases hpage.symm.trans h

/-- A walk along a chain that does not lead back brings all of it. -/
theorem eq_of_chain {keys : List κ} {cut : List (List α)} {failure : Option ε}
    (hwalk : Walk page leadsBack visited k ks r)
    (hchain : Chain (fun k p => page k = p) k keys cut failure)
    (hgo : ∀ before k' next behind, keys = before ++ k' :: next :: behind →
      ¬ leadsBack (k' :: (before.reverse ++ visited)) next) :
    ks = keys ∧ r = entriesOf cut failure := by
  -- Along the chain: the walk has no choice where the chain goes on, and the keys behind grow.
  induction hchain generalizing visited ks r with
  | failed hpage => exact hwalk.of_error hpage
  | last hpage =>
    obtain ⟨rfl, rfl⟩ := hwalk.of_last hpage
    exact ⟨rfl, by rw [entriesOf, List.flatten_singleton]⟩
  | @step k vs next keys cut failure hpage hrest ih =>
    obtain ⟨behind, rfl⟩ := hrest.exists_cons
    obtain ⟨ks', r', rfl, rfl, hwalk'⟩ := hwalk.of_step hpage (hgo [] k next behind rfl)
    have hgo' : ∀ before k' next' behind', next :: behind = before ++ k' :: next' :: behind' →
        ¬ leadsBack (k' :: (before.reverse ++ (k :: visited))) next' := by
      intro before k' next' behind' hkeys
      have h := hgo (k :: before) k' next' behind' (congrArg (k :: ·) hkeys)
      rwa [List.reverse_cons, List.append_assoc] at h
    obtain ⟨rfl, rfl⟩ := ih hwalk' hgo'
    exact ⟨rfl, (entriesOf_cons vs cut failure).symm⟩

/-- Where only pages not yet read are walked to, no key is walked along twice. -/
theorem nodup (h : Walk page (fun visited next => next ∈ visited) visited k ks r)
    (hk : k ∉ visited) : ks.Nodup ∧ ∀ k' ∈ ks, k' ∉ visited := by
  induction h with
  | failed | last | back => exact ⟨List.nodup_singleton _, by simpa using hk⟩
  | step _ hgo _ ih =>
    obtain ⟨hnodup, hfresh⟩ := ih hgo
    refine ⟨List.nodup_cons.mpr ⟨?_, hnodup⟩, List.forall_mem_cons.mpr ⟨hk, ?_⟩⟩
    · intro hmem
      exact hfresh _ hmem List.mem_cons_self
    · intro k' hk' hvisited
      exact hfresh k' hk' (List.mem_cons_of_mem _ hvisited)

/-- Where only pages not yet read are walked to, a walk along a chain of different pages brings all of
it. -/
theorem eq_of_chain_of_nodup {keys : List κ} {cut : List (List α)} {failure : Option ε}
    (hwalk : Walk page (fun visited next => next ∈ visited) [] k ks r)
    (hchain : Chain (fun k p => page k = p) k keys cut failure) (hkeys : keys.Nodup) :
    ks = keys ∧ r = entriesOf cut failure := by
  refine hwalk.eq_of_chain hchain ?_
  intro before k' next behind heq hmem
  rw [heq, List.nodup_append] at hkeys
  obtain ⟨-, hbehind, hdisjoint⟩ := hkeys
  rw [List.append_nil] at hmem
  rcases List.mem_cons.mp hmem with rfl | hmem
  · exact (List.nodup_cons.mp hbehind).1 List.mem_cons_self
  · exact hdisjoint next (List.mem_reverse.mp hmem) next
      (List.mem_cons_of_mem _ List.mem_cons_self) rfl

/-- A walk that asks for no address twice takes at most one step more than there are addresses that
bring a page. -/
theorem length_le {address : κ → String} {table : List String}
    (h : Walk page leadsBack visited k ks r) (hnodup : (ks.map address).Nodup)
    (htable : ∀ k p, page k = .ok p → address k ∈ table) :
    (ks.map address).length ≤ table.toFinset.card + 1 := by
  obtain ⟨read, last, rfl, hread⟩ := h.exists_concat
  rw [List.map_append] at hnodup ⊢
  have hread_nodup : (read.map address).Nodup := hnodup.of_append_left
  have hsubset : (read.map address).toFinset ⊆ table.toFinset := by
    intro u hu
    obtain ⟨k', hk', rfl⟩ := List.mem_map.mp (List.mem_toFinset.mp hu)
    obtain ⟨p, hp⟩ := hread k' hk'
    exact List.mem_toFinset.mpr (htable k' p hp)
  have hcard := Finset.card_le_card hsubset
  rw [List.toFinset_card_of_nodup hread_nodup] at hcard
  rw [List.length_append]
  exact Nat.succ_le_succ hcard

end Walk

/-- A walk to numbers that grow: a page leads back if the page that it names does not start further
on. -/
def StartsBehind (visited : List UInt64) (next : UInt64) : Prop :=
  ∃ start ∈ visited.head?, next ≤ start

theorem Walk.pairwise_lt {page : UInt64 → Except ε (List α × Option UInt64)}
    {visited ks : List UInt64} {k : UInt64} {r : Except ε (List α)}
    (h : Walk page StartsBehind visited k ks r) : ks.Pairwise (· < ·) ∧ ∀ k' ∈ ks, k ≤ k' := by
  induction h with
  | failed | last | back =>
    exact ⟨List.pairwise_singleton _ _, List.forall_mem_singleton.mpr (UInt64.le_refl _)⟩
  | @step visited k _ next _ _ _ hgo _ ih =>
    obtain ⟨hsorted, hbound⟩ := ih
    have hlt : k < next := by
      rw [← UInt64.not_le]
      intro hle
      exact hgo ⟨k, rfl, hle⟩
    have hafter : ∀ k' ∈ _, k < k' := fun k' hk' => UInt64.lt_of_lt_of_le hlt (hbound k' hk')
    refine ⟨List.pairwise_cons.mpr ⟨hafter, hsorted⟩, List.forall_mem_cons.mpr ⟨UInt64.le_refl _, ?_⟩⟩
    intro k' hk'
    exact UInt64.le_of_lt (hafter k' hk')

theorem Walk.eq_of_chain_of_pairwise_lt {page : UInt64 → Except ε (List α × Option UInt64)}
    {ks keys : List UInt64} {k : UInt64} {r : Except ε (List α)} {cut : List (List α)}
    {failure : Option ε} (hwalk : Walk page StartsBehind [] k ks r)
    (hchain : Chain (fun k p => page k = p) k keys cut failure) (hkeys : keys.Pairwise (· < ·)) :
    ks = keys ∧ r = entriesOf cut failure := by
  refine hwalk.eq_of_chain hchain ?_
  rintro before k' next behind heq ⟨start, hhead, hle⟩
  cases hhead
  rw [heq, List.pairwise_append] at hkeys
  obtain ⟨-, hbehind, -⟩ := hkeys
  have hlt : k' < next := (List.pairwise_cons.mp hbehind).1 next List.mem_cons_self
  exact UInt64.not_le.mpr hlt hle

end Walk

/-! ### What is asked for -/

/-- The addresses that are asked for. -/
def Exchange.urls (es : List Exchange) : List String :=
  es.filterMap fun
    | .request r _ => some r.url
    | .note _ => none

theorem Exchange.urls_append (es es' : List Exchange) : urls (es ++ es') = urls es ++ urls es' :=
  List.filterMap_append

variable {α : Type}

/-- Only an address of the network brings a page that can be read. -/
theorem mem_urls_of_decode {n : Network} {r : Request} {document : String}
    {read : Json → Option α} {β : Type} {f : α → β} {b : β}
    (h : ((n.ask r).decode document read r.url).map f = .ok b) : r.url ∈ n.urls := by
  cases hvalue : (n.ask r).decode document read r.url with
  | error e =>
    rw [hvalue] at h
    cases h
  | ok v => exact Network.mem_urls_of_ask (Answer.isPage_of_decode hvalue)

/-! ### Cloud -/

section Cloud

variable (n : Network) (authorization : Option String) (document : String) (read : Json → Option α)

/-- The address of the first page of a listing of Cloud. -/
def firstPageUrl (url : String) : String :=
  withQuery url ("pagelen=" ++ Decimal.render pageSize)

/-- The page of Cloud at an address: its entries, and the address of the next page. -/
def cloudPage (url : String) : Except ApiError (List α × Option String) :=
  ((n.answer url).decode document (CloudPage.ofJson? read) url).map fun p => (p.values, p.next)

/-- Reading a listing of Cloud is a walk to addresses that were not read before. -/
theorem walk_cloudPages (visited : List String) (url : String) (hfresh : url ∉ visited) :
    Walk (cloudPage n document read) (fun visited next => next ∈ visited) visited url
      (Exchange.urls (cloudPages n authorization document read visited url hfresh).run.steps)
      (cloudPages n authorization document read visited url hfresh).run.value := by
  fun_induction cloudPages n authorization document read visited url hfresh with
  | case1 visited url hfresh page e hvalue =>
    have hpage : cloudPage n document read url = .error e := congrArg (Except.map _) hvalue
    exact Walk.failed hpage
  | case2 visited url hfresh page p hvalue hnext =>
    have hpage : cloudPage n document read url = .ok (p.values, p.next) :=
      congrArg (Except.map _) hvalue
    rw [hnext] at hpage
    exact Walk.last hpage
  | case3 visited url hfresh page p hvalue next hnext hback =>
    have hpage : cloudPage n document read url = .ok (p.values, p.next) :=
      congrArg (Except.map _) hvalue
    rw [hnext] at hpage
    -- What is told about the page is not asked for.
    rw [ExceptT.run, Exchange.urls_append]
    exact Walk.back hpage hback
  | case4 visited url hfresh page p hvalue next hnext hgo rest ih =>
    have hpage : cloudPage n document read url = .ok (p.values, p.next) :=
      congrArg (Except.map _) hvalue
    rw [hnext] at hpage
    exact Walk.step hpage hgo ih

theorem mem_urls_of_cloudPage {url : String} {p : List α × Option String}
    (h : cloudPage n document read url = .ok p) : url ∈ n.urls :=
  mem_urls_of_decode (r := ⟨url, none⟩) h

end Cloud

/-! ### Server -/

section Server

variable (ask : Request → Answer) (authorization : Option String) (document : String)
  (read : Json → Option α) (url : String)

/-- The page of Server that starts at an entry: its entries, and where the next page starts. -/
def serverPage (start : UInt64) : Except ApiError (List α × Option UInt64) :=
  ((ask ⟨serverPageUrl url start, authorization⟩).decode document (ServerPage.ofJson? read)
    (serverPageUrl url start)).map fun p => (p.values, p.nextStart?)

/-- Reading a listing of Server is a walk to starts that grow. -/
theorem walk_serverPages (visited : List UInt64) (start : UInt64) :
    ∃ starts, Exchange.urls (serverPages ask authorization document read url start).run.steps =
        starts.map (serverPageUrl url) ∧
      Walk (serverPage ask authorization document read url) StartsBehind visited start starts
        (serverPages ask authorization document read url start).run.value := by
  induction start using serverPages.induct generalizing visited with
  | case1 start ih =>
    let page := fetch ask document (ServerPage.ofJson? read)
      ⟨serverPageUrl url start, authorization⟩
    have hpage : serverPage ask authorization document read url start =
      page.run.value.map fun p => (p.values, p.nextStart?) := rfl
    rw [serverPages]
    cases hvalue : page.run.value with
    | error e =>
      rw [hvalue] at hpage
      rw [Traced.run_bind_of_error hvalue]
      exact ⟨[start], rfl, Walk.failed hpage⟩
    | ok p =>
      rw [hvalue, Except.map] at hpage
      rw [Traced.run_bind_of_ok hvalue]
      cases hnext : p.nextStart? with
      | none =>
        rw [hnext] at hpage
        exact ⟨[start], rfl, Walk.last hpage⟩
      | some next =>
        rw [hnext] at hpage
        by_cases hlt : start < next
        · obtain ⟨starts, hurls, hwalk⟩ := ih next hlt (start :: visited)
          have hgo : ¬ StartsBehind (start :: visited) next := by
            rintro ⟨start', hhead, hle⟩
            cases hhead
            exact UInt64.not_le.mpr hlt hle
          simp only [dif_pos hlt, Traced.run_bind_pure]
          refine ⟨start :: starts, ?_, Walk.step hpage hgo hwalk⟩
          rw [Exchange.urls_append, hurls]
          rfl
        · have hback : StartsBehind (start :: visited) next := ⟨start, rfl, UInt64.not_lt.mp hlt⟩
          simp only [dif_neg hlt]
          exact ⟨[start], rfl, Walk.back hpage hback⟩

theorem mem_urls_of_serverPage {n : Network} {start : UInt64} {p : List α × Option UInt64}
    (h : serverPage n.ask authorization document read url start = .ok p) :
    serverPageUrl url start ∈ n.urls :=
  mem_urls_of_decode (r := ⟨serverPageUrl url start, authorization⟩) h

/-- No two starts are asked for at one address. -/
theorem serverPageUrl_injective : Function.Injective (serverPageUrl url) := by
  intro start start' h
  have hquery := (String.append_right_inj _).mp h
  have hrender := (String.append_right_inj _).mp
    ((String.append_left_inj _).mp ((String.append_left_inj _).mp hquery))
  exact UInt64.toNat_inj.mp (Decimal.eq_of_render_eq hrender)

theorem nodup_map_serverPageUrl {starts : List UInt64} (h : starts.Pairwise (· < ·)) :
    (starts.map (serverPageUrl url)).Nodup := by
  refine (h.imp UInt64.ne_of_lt).map (serverPageUrl url) ?_
  intro start start' hne heq
  exact hne (serverPageUrl_injective url heq)

end Server

/-! ### Bounds -/

/-- Strictly increasing numbers of 64 bits are at most as many as there are such numbers. -/
theorem length_le_of_pairwise_lt {starts : List UInt64} (h : starts.Pairwise (· < ·)) :
    starts.length ≤ UInt64.size := by
  have hnodup : (starts.map UInt64.toNat).Nodup :=
    (h.imp UInt64.ne_of_lt).map UInt64.toNat fun _ _ hne heq => hne (UInt64.toNat_inj.mp heq)
  have hsubset : (starts.map UInt64.toNat).toFinset ⊆ Finset.range UInt64.size := by
    intro m hm
    obtain ⟨start, -, rfl⟩ := List.mem_map.mp (List.mem_toFinset.mp hm)
    exact Finset.mem_range.mpr start.toNat_lt_size
  have hcard := Finset.card_le_card hsubset
  rw [List.toFinset_card_of_nodup hnodup, List.length_map, Finset.card_range] at hcard
  exact hcard

/-- Reading a listing ends, whatever the pages say about each other. Over a network that answers at
finitely many addresses, no address is asked for twice, and at most one more than the network
answers at. On Server no address is asked for twice whatever answers: each page that is asked for
starts behind the one before it, so there are at most as many of them as there are numbers of 64
bits. -/
theorem requests_bounded (n : Network) (ask : Request → Answer) (authorization : Option String)
    (document : String) (read : Json → Option α) (url : String) :
    ((Exchange.urls (cloudValues n authorization document read url).run.steps).Nodup ∧
        (Exchange.urls (cloudValues n authorization document read url).run.steps).length ≤
          n.urls.toFinset.card + 1) ∧
      ((Exchange.urls (serverValues n.ask authorization document read url).run.steps).Nodup ∧
        (Exchange.urls (serverValues n.ask authorization document read url).run.steps).length ≤
          n.urls.toFinset.card + 1) ∧
      ∃ starts : List UInt64,
        Exchange.urls (serverValues ask authorization document read url).run.steps =
            starts.map (serverPageUrl url) ∧
          (starts.map (serverPageUrl url)).Nodup ∧ starts.Pairwise (· < ·) ∧
          starts.length ≤ UInt64.size := by
  refine ⟨?_, ?_, ?_⟩
  · have hwalk := walk_cloudPages n authorization document read [] (firstPageUrl url)
      List.not_mem_nil
    obtain ⟨hnodup, -⟩ := hwalk.nodup List.not_mem_nil
    -- On Cloud the keys are the addresses themselves.
    rw [← List.map_id (Exchange.urls _)] at hnodup ⊢
    exact ⟨hnodup, hwalk.length_le hnodup fun _ _ => mem_urls_of_cloudPage n document read⟩
  · obtain ⟨starts, hurls, hwalk⟩ :=
      walk_serverPages n.ask authorization document read url [] 0
    obtain ⟨hsorted, -⟩ := hwalk.pairwise_lt
    have hnodup := nodup_map_serverPageUrl url hsorted
    have hlength := hwalk.length_le hnodup fun _ _ =>
      mem_urls_of_serverPage authorization document read url
    rw [serverValues, hurls]
    exact ⟨hnodup, hlength⟩
  · obtain ⟨starts, hurls, hwalk⟩ := walk_serverPages ask authorization document read url [] 0
    obtain ⟨hsorted, -⟩ := hwalk.pairwise_lt
    exact ⟨starts, hurls, nodup_map_serverPageUrl url hsorted, hsorted,
      length_le_of_pairwise_lt hsorted⟩

end HeadScout
