import HeadScout.Proofs.Client.Paging
import HeadScout.Proofs.Json.Shape

/-!
# What a page tells

A listing learns from each answer whether it is a page at all, which entries stand on it, and where
the next page is. Here this is told by the status of the answer and by the members of the page. The
entries stand under `values`. On Cloud the address of the next page stands under `next`. On Server
`isLastPage` says whether there is another page, and `nextPageStart` at which entry it starts. Any
of them may be left out: a page without `values` has no entries, and one that says nothing about a
next page is the last one.

A page may be written as an object or as an array. In an array no place may be left out.

## Main definitions

* `IsCloudPage`, `IsServerPage` — the documents on a page, and the key of the next one
* `Brings` — what an answer brings

## Main results

* `cloudPage_eq_iff`, `serverPage_eq_iff` — a page of either product is what the answer brings
-/

namespace HeadScout

open Json (Missing)

variable {α β : Type}

/-! ### Members of a page -/

/-- The documents in an array; there are none if nothing stands there. -/
def AreValues (vs : List Json) (o : Option Json) : Prop :=
  o = some (.array vs) ∨ (o = none ∧ vs = [])

/-- The address of the next page, if there is one. -/
def IsNext (next : Option String) (o : Option Json) : Prop :=
  match next with
  | some url => o = some (.text url)
  | none => Missing o

/-- Whether this is the last page; it is if nothing stands there. -/
def IsLast (last : Bool) (o : Option Json) : Prop :=
  o = some (.bool last) ∨ (o = none ∧ last = true)

/-- The number of the first entry of the next page, if one stands there. It is written without sign,
point and exponent. -/
def IsStart (start : Option UInt64) (o : Option Json) : Prop :=
  match start with
  | some start => ∃ digits, o = some (.number { whole := digits }) ∧
      Decimal.value digits = start.toNat
  | none => Missing o

/-- A page of Cloud that holds some documents and names the address of the next page. -/
def IsCloudPage (vs : List Json) (next : Option String) (v : Json) : Prop :=
  Json.IsRecordOrArray [("values", AreValues vs), ("next", IsNext next)] v

/-- A page of Server that holds some documents and tells where the next page starts. Where a page
would start behind the last one does not count. -/
def IsServerPage (vs : List Json) (next : Option UInt64) (v : Json) : Prop :=
  ∃ last start,
    Json.IsRecordOrArray
      [("values", AreValues vs), ("isLastPage", IsLast last), ("nextPageStart", IsStart start)] v ∧
    if last = true then next = none else next = start

/-! ### Reading the members -/

section Members

variable {found : Json.Members} {name : String} {read : Json → Option α}

theorem mapM_eq_some_iff {f : α → Option β} {as : List α} {bs : List β} :
    as.mapM f = some bs ↔ List.Forall₂ (fun a b => f a = some b) as bs := by
  induction as generalizing bs with
  | nil =>
    rw [List.mapM_nil, List.forall₂_nil_left_iff]
    exact Option.some_inj.trans eq_comm
  | cons a as ih =>
    simp only [List.mapM_cons, Option.bind_eq_bind, Option.bind_eq_some_iff, Option.pure_def,
      Option.some_inj, List.forall₂_cons_left_iff, ih]
    constructor
    · rintro ⟨b, hb, bs, hbs, rfl⟩
      exact ⟨b, bs, hb, hbs, rfl⟩
    · rintro ⟨b, bs, hb, hbs, rfl⟩
      exact ⟨b, hb, bs, hbs, rfl⟩

theorem withDefault_list?_eq_some_iff {as : List α} :
    found.withDefault name [] (Json.list? read) = some as ↔
      ∃ vs, AreValues vs (found.get? name) ∧ List.Forall₂ (fun v a => read v = some a) vs as := by
  rw [Json.Members.withDefault]
  cases found.get? name with
  | none => simp [AreValues, eq_comm]
  | some v =>
    cases v with
    | array items => simp [AreValues, Json.list?, mapM_eq_some_iff]
    | null | bool | number | string | object => simp [AreValues, Json.list?]

theorem optional_text?_eq_some_iff {next : Option String} :
    found.optional name Json.text? = some next ↔ IsNext next (found.get? name) := by
  rw [Json.Members.optional]
  cases found.get? name with
  | none => cases next <;> simp [IsNext, Missing]
  | some v =>
    cases v with
    | string s => cases s <;> cases next <;> simp [IsNext, Missing, Json.text?, Json.text]
    | null | bool | number | array | object =>
      cases next <;> simp [IsNext, Missing, Json.text?, Json.text]

theorem withDefault_bool?_eq_some_iff {last : Bool} :
    found.withDefault name true Json.bool? = some last ↔ IsLast last (found.get? name) := by
  rw [Json.Members.withDefault]
  cases found.get? name with
  | none => simp [IsLast, eq_comm]
  | some v =>
    cases v <;> simp [IsLast, Json.bool?]

theorem Json.natural?_eq_some_iff {v : Json} {bound n : Nat} :
    v.natural? bound = some n ↔
      (∃ digits, v = .number { whole := digits } ∧ Decimal.value digits = n) ∧ n < bound := by
  constructor
  · intro h
    cases v with
    | number m =>
      obtain ⟨negative, whole, fraction, exponent⟩ := m
      simp only [Json.natural?, Option.filter_eq_some_iff, Json.Numeral.natural?,
        decide_eq_true_eq] at h
      obtain ⟨h, hlt⟩ := h
      split_ifs at h with hplain
      -- No sign, no point and no exponent are left, so the digits are all there is.
      simp only [Bool.or_eq_true, not_or, Bool.not_eq_true, Bool.not_eq_false',
        List.isEmpty_iff, Option.isSome_eq_false_iff, Option.isNone_iff_eq_none] at hplain
      obtain ⟨⟨rfl, rfl⟩, rfl⟩ := hplain
      exact ⟨⟨whole, rfl, Option.some.inj h⟩, hlt⟩
    | null | bool | string | array | object => cases h
  · rintro ⟨⟨digits, rfl, rfl⟩, hlt⟩
    have hnatural : Json.Numeral.natural? { whole := digits } = some (Decimal.value digits) := rfl
    rw [Json.natural?, hnatural, Option.filter_some, if_pos (decide_eq_true hlt)]

theorem exists_optional_natural?_iff {start : Option UInt64} :
    (∃ n, found.optional name (Json.natural? UInt64.size) = some n ∧ n.map UInt64.ofNat = start) ↔
      IsStart start (found.get? name) := by
  -- What is missing names no start, and neither does `null`; anything else has to name one.
  by_cases hmissing : Missing (found.get? name)
  · rw [Json.optional_of_missing hmissing]
    cases start with
    | none => exact iff_of_true ⟨none, rfl, rfl⟩ hmissing
    | some start =>
      refine iff_of_false ?_ ?_
      · rintro ⟨_, ⟨⟩, ⟨⟩⟩
      · rintro ⟨digits, hget, -⟩
        rw [hget] at hmissing
        rcases hmissing with ⟨⟨⟩⟩ | ⟨⟨⟩⟩
  · obtain ⟨v, hget⟩ : ∃ v, found.get? name = some v :=
      Option.ne_none_iff_exists'.mp fun h => hmissing (Or.inl h)
    have hv : v ≠ .null := fun h => hmissing (Or.inr (h ▸ hget))
    rw [Json.optional_of_ne_null hget hv]
    cases start with
    | none =>
      refine iff_of_false ?_ hmissing
      rintro ⟨n, hn, hnone⟩
      obtain ⟨m, -, rfl⟩ := Option.map_eq_some_iff.mp hn
      cases hnone
    | some start =>
      rw [IsStart, hget]
      constructor
      · rintro ⟨n, hn, hstart⟩
        obtain ⟨m, hm, rfl⟩ := Option.map_eq_some_iff.mp hn
        obtain ⟨⟨digits, rfl, hvalue⟩, hlt⟩ := Json.natural?_eq_some_iff.mp hm
        obtain rfl := Option.some.inj hstart
        exact ⟨digits, rfl, hvalue.trans (UInt64.toNat_ofNat_of_lt hlt).symm⟩
      · rintro ⟨digits, heq, hvalue⟩
        have hread : v.natural? UInt64.size = some start.toNat :=
          Json.natural?_eq_some_iff.mpr ⟨⟨digits, Option.some.inj heq, hvalue⟩, start.toNat_lt_size⟩
        refine ⟨some start.toNat, congrArg (Option.map some) hread, ?_⟩
        exact congrArg some UInt64.ofNat_toNat

end Members

/-! ### Pages in documents -/

section Documents

variable {read : Json → Option α} {v : Json} {as : List α}

theorem CloudPage.ofJson?_eq_some_iff {next : Option String} :
    CloudPage.ofJson? read v = some ⟨as, next⟩ ↔
      ∃ vs, IsCloudPage vs next v ∧ List.Forall₂ (fun w a => read w = some a) vs as := by
  have hrecord (vs : List Json) : IsCloudPage vs next v ↔
      ∃ found, v.members? CloudPage.fields .refused = some found ∧
        AreValues vs (found.get? "values") ∧ IsNext next (found.get? "next") := by
    refine (Json.isRecordOrArray_iff CloudPage.fields rfl (by decide)
      ⟨⟨"next", false⟩, rfl, rfl⟩).trans ?_
    simp only [List.forall_mem_cons, List.not_mem_nil, false_implies, implies_true, and_true]
  simp only [hrecord, CloudPage.ofJson?, Option.bind_eq_bind, Option.bind_eq_some_iff,
    Option.pure_def, Option.some_inj, CloudPage.mk.injEq, withDefault_list?_eq_some_iff,
    optional_text?_eq_some_iff]
  constructor
  · rintro ⟨found, hfound, _, ⟨vs, hvs, has⟩, _, hnext, rfl, rfl⟩
    exact ⟨vs, ⟨found, hfound, hvs, hnext⟩, has⟩
  · rintro ⟨vs, ⟨found, hfound, hvs, hnext⟩, has⟩
    exact ⟨found, hfound, as, ⟨vs, hvs, has⟩, next, hnext, rfl, rfl⟩

theorem ServerPage.exists_ofJson?_iff {next : Option UInt64} :
    (∃ p, ServerPage.ofJson? read v = some p ∧ p.values = as ∧ p.nextStart? = next) ↔
      ∃ vs, IsServerPage vs next v ∧ List.Forall₂ (fun w a => read w = some a) vs as := by
  have hrecord (vs : List Json) (last : Bool) (start : Option UInt64) :
      Json.IsRecordOrArray
        [("values", AreValues vs), ("isLastPage", IsLast last), ("nextPageStart", IsStart start)]
          v ↔
      ∃ found, v.members? ServerPage.fields .refused = some found ∧
        AreValues vs (found.get? "values") ∧ IsLast last (found.get? "isLastPage") ∧
          IsStart start (found.get? "nextPageStart") := by
    refine (Json.isRecordOrArray_iff ServerPage.fields rfl (by decide)
      ⟨⟨"nextPageStart", false⟩, rfl, rfl⟩).trans ?_
    simp only [List.forall_mem_cons, List.not_mem_nil, false_implies, implies_true, and_true]
  simp only [IsServerPage, hrecord, ServerPage.ofJson?, Option.bind_eq_bind,
    Option.bind_eq_some_iff, Option.pure_def, Option.some_inj, withDefault_list?_eq_some_iff,
    withDefault_bool?_eq_some_iff, ← exists_optional_natural?_iff]
  constructor
  · rintro ⟨_, ⟨found, hfound, _, ⟨vs, hvs, has⟩, last, hlast, n, hn, rfl⟩, rfl, rfl⟩
    refine ⟨vs, ⟨last, n.map UInt64.ofNat, ⟨found, hfound, hvs, hlast, n, hn, rfl⟩, ?_⟩, has⟩
    -- Both sides leave out a start behind the last page.
    cases last <;> rfl
  · rintro ⟨vs, ⟨last, _, ⟨found, hfound, hvs, hlast, n, hn, rfl⟩, hnext⟩, has⟩
    refine ⟨_, ⟨found, hfound, as, ⟨vs, hvs, has⟩, last, hlast, n, hn, rfl⟩, rfl, ?_⟩
    cases last with
    | false => exact (hnext : next = _).symm
    | true => exact (hnext : next = _).symm

end Documents

/-! ### Answers -/

/-- What an answer brings: a page with its entries and the key of the next one, or why there is no
page. A status that does not tell of success is a refusal, whatever comes with it; any other answer
that is not a page of entries cannot be read. -/
inductive Brings {κ : Type} (isPage : List Json → Option κ → Json → Prop) (read : Json → Option α)
    (document url : String) : Answer → Except ApiError (List α × Option κ) → Prop
  | page {status body v vs next as} (hstatus : 200 ≤ status ∧ status < 300)
      (hbody : Json.parse? body = some v) (hpage : isPage vs next v)
      (hread : List.Forall₂ (fun w a => read w = some a) vs as) :
      Brings isPage read document url (.reply status body) (.ok (as, next))
  | silence {reason} :
      Brings isPage read document url (.silence reason) (.error (.unreachable url reason))
  | refusal {status body} (h : ¬ (200 ≤ status ∧ status < 300)) :
      Brings isPage read document url (.reply status body) (.error (.refused url status))
  | unreadable {status body} (hstatus : 200 ≤ status ∧ status < 300)
      (h : ∀ v vs next, Json.parse? body = some v → isPage vs next v → ∃ w ∈ vs, read w = none) :
      Brings isPage read document url (.reply status body)
        (.error (.undecodable url (.malformed document)))

/-- Some documents can be read one by one exactly if each of them can be read. -/
theorem exists_forall₂_iff {read : Json → Option α} {vs : List Json} :
    (∃ as, List.Forall₂ (fun w a => read w = some a) vs as) ↔ ∀ w ∈ vs, ∃ a, read w = some a := by
  induction vs with
  | nil => exact iff_of_true ⟨[], .nil⟩ (List.forall_mem_nil _)
  | cons w vs ih =>
    rw [List.forall_mem_cons, ← ih]
    constructor
    · rintro ⟨_, _ | ⟨ha, has⟩⟩
      exact ⟨⟨_, ha⟩, _, has⟩
    · rintro ⟨⟨a, ha⟩, as, has⟩
      exact ⟨a :: as, .cons ha has⟩

namespace Answer

variable {κ : Type} {isPage : List Json → Option κ → Json → Prop} {read : Json → Option α}
  {document url : String} {a : Answer}

theorem decode_reply_eq_ok_iff {status : Nat} {body : String} {p : β} {read : Json → Option β} :
    (reply status body).decode document read url = .ok p ↔
      (200 ≤ status ∧ status < 300) ∧ ∃ v, Json.parse? body = some v ∧ read v = some p := by
  rw [decode]
  simp only [isSuccess_iff]
  split_ifs with hstatus
  · rw [and_iff_right hstatus, Payload.decode]
    cases Json.parse? body with
    | none => simp [Except.mapError]
    | some v =>
      simp only [Payload.expect, Option.some_inj, exists_eq_left']
      cases read v <;> simp [Except.mapError]
  · refine iff_of_false ?_ fun h => hstatus h.1
    rintro ⟨⟩

/-- A body that cannot be read is all that fails in an answer that tells of success. -/
theorem decode_reply_eq_error_iff {status : Nat} {body : String} {e : ApiError}
    {read : Json → Option β} (hstatus : 200 ≤ status ∧ status < 300) :
    (reply status body).decode document read url = .error e ↔
      (∀ v, Json.parse? body = some v → read v = none) ∧
        e = .undecodable url (.malformed document) := by
  rw [decode, if_pos (isSuccess_iff.mpr hstatus), Payload.decode]
  cases Json.parse? body with
  | none => simp [Except.mapError, eq_comm]
  | some v =>
    simp only [Payload.expect, Option.some_inj, forall_eq']
    cases read v <;> simp [Except.mapError, eq_comm]

/-- An answer is read as what it brings, if pages are read by their members. -/
theorem decode_eq_iff {page : Json → Option (List α × Option κ)}
    (hpage : ∀ v as next, page v = some (as, next) ↔
      ∃ vs, isPage vs next v ∧ List.Forall₂ (fun w a => read w = some a) vs as)
    {r : Except ApiError (List α × Option κ)} :
    a.decode document page url = r ↔ Brings isPage read document url a r := by
  constructor
  · rintro rfl
    cases a with
    | silence reason => exact .silence
    | reply status body =>
      by_cases hstatus : 200 ≤ status ∧ status < 300
      · cases hdecode : (reply status body).decode document page url with
        | ok p =>
          obtain ⟨-, v, hbody, hv⟩ := decode_reply_eq_ok_iff.mp hdecode
          obtain ⟨vs, hvs, has⟩ := (hpage v p.1 p.2).mp hv
          exact .page hstatus hbody hvs has
        | error e =>
          obtain ⟨hnone, rfl⟩ := (decode_reply_eq_error_iff hstatus).mp hdecode
          refine .unreadable hstatus fun v vs next hbody hvs => ?_
          -- If all entries could be read, so could the page.
          by_contra hall
          obtain ⟨as, has⟩ := exists_forall₂_iff.mpr fun w hw =>
            Option.ne_none_iff_exists'.mp fun hw' => hall ⟨w, hw, hw'⟩
          cases (hnone v hbody).symm.trans ((hpage v as next).mpr ⟨vs, hvs, has⟩)
      · rw [decode, if_neg (mt isSuccess_iff.mp hstatus)]
        exact .refusal hstatus
  · intro h
    cases h with
    | page hstatus hbody hvs has =>
      exact decode_reply_eq_ok_iff.mpr ⟨hstatus, _, hbody, (hpage _ _ _).mpr ⟨_, hvs, has⟩⟩
    | silence => rfl
    | refusal h => rw [decode, if_neg (mt isSuccess_iff.mp h)]
    | unreadable hstatus h =>
      refine (decode_reply_eq_error_iff hstatus).mpr ⟨fun v hbody => ?_, rfl⟩
      by_contra hsome
      obtain ⟨⟨as, next⟩, hv⟩ := Option.ne_none_iff_exists'.mp hsome
      obtain ⟨vs, hvs, has⟩ := (hpage v as next).mp hv
      obtain ⟨w, hw, hnone⟩ := h v vs next hbody hvs
      obtain ⟨a, ha⟩ := exists_forall₂_iff.mp ⟨as, has⟩ w hw
      cases hnone.symm.trans ha

theorem map_decode {read : Json → Option α} (f : α → β) :
    (a.decode document read url).map f = a.decode document (fun v => (read v).map f) url := by
  cases a with
  | silence reason => rfl
  | reply status body =>
    rw [decode, decode]
    split_ifs
    · rw [Payload.decode, Payload.decode]
      cases Json.parse? body with
      | none => rfl
      | some v =>
        simp only [Payload.expect]
        cases read v <;> rfl
    · rfl

end Answer

section Pages

variable {read : Json → Option α} {document url : String}

/-- The page of Cloud at an address is what the answer brings. -/
theorem cloudPage_eq_iff {n : Network} {r : Except ApiError (List α × Option String)} :
    cloudPage n document read url = r ↔ Brings IsCloudPage read document url (n.answer url) r := by
  rw [cloudPage, Answer.map_decode]
  refine Answer.decode_eq_iff fun v as next => ?_
  rw [← CloudPage.ofJson?_eq_some_iff, Option.map_eq_some_iff]
  constructor
  · rintro ⟨p, hp, ⟨⟩⟩
    exact hp
  · intro hp
    exact ⟨_, hp, rfl⟩

/-- The page of Server that starts at an entry is what the answer brings. -/
theorem serverPage_eq_iff {ask : Request → Answer} {authorization : Option String}
    {start : UInt64} {r : Except ApiError (List α × Option UInt64)} :
    serverPage ask authorization document read url start = r ↔
      Brings IsServerPage read document (serverPageUrl url start)
        (ask ⟨serverPageUrl url start, authorization⟩) r := by
  rw [serverPage, Answer.map_decode]
  refine Answer.decode_eq_iff fun v as next => ?_
  rw [← ServerPage.exists_ofJson?_iff, Option.map_eq_some_iff]
  simp only [Prod.mk.injEq]

theorem Brings.of_cloud {body : String} {v : Json} {as : List α} {next : Option String}
    (hbody : Json.parse? body = some v) (hpage : CloudPage.ofJson? read v = some ⟨as, next⟩) :
    Brings IsCloudPage read document url (.reply 200 body) (.ok (as, next)) := by
  obtain ⟨vs, hvs, has⟩ := CloudPage.ofJson?_eq_some_iff.mp hpage
  exact .page (by decide) hbody hvs has

theorem Brings.of_server {body : String} {v : Json} {as : List α} {next : Option UInt64}
    (hbody : Json.parse? body = some v)
    (hpage : ServerPage.ofJson? read v = some ⟨as, false, next⟩) :
    Brings IsServerPage read document url (.reply 200 body) (.ok (as, next)) := by
  obtain ⟨vs, hvs, has⟩ := ServerPage.exists_ofJson?_iff.mp ⟨_, hpage, rfl, rfl⟩
  exact .page (by decide) hbody hvs has

/-- Behind the last page nothing starts, whatever it says. -/
theorem Brings.of_server_last {body : String} {v : Json} {as : List α} {start : Option UInt64}
    (hbody : Json.parse? body = some v)
    (hpage : ServerPage.ofJson? read v = some ⟨as, true, start⟩) :
    Brings IsServerPage read document url (.reply 200 body) (.ok (as, none)) := by
  obtain ⟨vs, hvs, has⟩ := ServerPage.exists_ofJson?_iff.mp ⟨_, hpage, rfl, rfl⟩
  exact .page (by decide) hbody hvs has

end Pages

/-! ### Networks of pages -/

namespace Network

/-- A network with the given bodies at some addresses and nothing at any other. -/
def ofPages (pages : List (String × String)) : Network where
  routes := pages.map fun (url, body) => (url, .reply 200 body)
  elsewhere := .reply 404 ""

variable {url url' body : String} {pages : List (String × String)}

theorem answer_ofPages_cons_self :
    (ofPages ((url, body) :: pages)).answer url = .reply 200 body := by
  rw [answer, ofPages, List.map_cons, List.lookup_cons_self, Option.getD_some]

theorem answer_ofPages_cons_of_ne (h : url ≠ url') :
    (ofPages ((url', body) :: pages)).answer url = (ofPages pages).answer url := by
  rw [answer, ofPages, List.map_cons, List.lookup_cons, beq_eq_false_iff_ne.mpr h]
  rfl

end Network

end HeadScout
