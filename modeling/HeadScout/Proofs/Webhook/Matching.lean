import HeadScout.Proofs.Webhook.AffectedHeads
import HeadScout.Webhook.Delivery

/-!
# Who hears of an event

Whether an event applies to a registration is decided in three places. The product is told from the
headers and the kind of the delivery, the address of the event is chosen by the processor, and the
registration has an address of its own, from which it is told once more whether it belongs to Cloud.
The three agree. An event of Cloud bears the one address of Cloud and applies under every address
that belongs to Cloud. An event of Server bears the address given with the delivery and applies
under exactly this address, unless it belongs to Cloud; then it applies nowhere. So nobody hears of
events of both products.

## Main definitions

* `Delivery.events` — the events that a delivery leads to at the dispatcher

## Main results

* `Delivery.sender?_incoming` — the address of the sender follows from the product
* `HeadEvent.product_eq_of_comesFrom` — no registration is served by both products
* `HeadEvent.concernsNavigator_of_concernsSource` — a source is concerned only with its navigator
* `Delivery.concerned_of_mem_events` — to whom the events of a delivery apply
-/

namespace HeadScout

open ChangeGroups (ofType)

/-! ### One event -/

namespace HeadEvent

variable {e e' : HeadEvent} {url owner owner' name name' : String}

theorem comesFrom_of_cloud (hproduct : e.product = .cloud) :
    e.comesFrom url = true ↔ isCloudUrl url = true := by
  rw [comesFrom, hproduct]

theorem comesFrom_of_server (hproduct : e.product = .server) :
    e.comesFrom url = true ↔ url = e.serverUrl.text ∧ isCloudUrl url = false := by
  rw [comesFrom, hproduct]
  change (!isCloudUrl url && url == e.serverUrl.text) = true ↔ _
  rw [Bool.and_eq_true, Bool.not_eq_true', beq_iff_eq, and_comm]

/-- The address of a registration that an event applies to tells the product of the event. -/
theorem product_eq_cloud_iff (h : e.comesFrom url = true) :
    e.product = .cloud ↔ isCloudUrl url = true := by
  cases hproduct : e.product with
  | cloud => exact iff_of_true rfl ((comesFrom_of_cloud hproduct).mp h)
  | server =>
    refine iff_of_false Product.noConfusion ?_
    rw [((comesFrom_of_server hproduct).mp h).2]
    exact Bool.false_ne_true

theorem product_eq_of_comesFrom (h : e.comesFrom url = true) (h' : e'.comesFrom url = true) :
    e.product = e'.product := by
  have hiff := (product_eq_cloud_iff h).trans (product_eq_cloud_iff h').symm
  cases hproduct : e.product with
  | cloud => exact (hiff.mp hproduct).symm
  | server =>
    cases hproduct' : e'.product with
    | cloud => exact absurd (hiff.mpr hproduct') (by rw [hproduct]; exact Product.noConfusion)
    | server => rfl

theorem concernsOwner_iff :
    e.concernsOwner url owner = true ↔
      e.comesFrom url = true ∧ Text.sameLetters e.repository.owner.text owner = true := by
  rw [concernsOwner, Bool.and_eq_true]

theorem concernsSource_iff :
    e.concernsSource (.bitbucket url owner name) = true ↔
      e.comesFrom url = true ∧ Text.sameLetters e.repository.owner.text owner = true ∧
        Text.sameLetters e.repository.name.text name = true := by
  rw [concernsSource, Bool.and_eq_true, concernsOwner_iff, and_assoc]

/-- A source is concerned only if the navigator of its owner is. -/
theorem concernsNavigator_of_concernsSource {source : Registration.Source}
    (h : e.concernsSource source = true) : e.concernsNavigator source.navigator = true := by
  cases source with
  | bitbucket url owner name =>
    rw [concernsSource, Bool.and_eq_true] at h
    exact h.1
  | other backend => cases h

theorem product_eq_of_concernsNavigator {navigator : Registration.Navigator}
    (h : e.concernsNavigator navigator = true) (h' : e'.concernsNavigator navigator = true) :
    e.product = e'.product := by
  cases navigator with
  | bitbucket url owner =>
    exact product_eq_of_comesFrom (concernsOwner_iff.mp h).1 (concernsOwner_iff.mp h').1
  | other backend => cases h

/-- An event of Server that bears an address of Cloud applies to nobody. -/
theorem concernsNavigator_of_isCloudUrl (hproduct : e.product = .server)
    (hurl : isCloudUrl e.serverUrl.text = true) (navigator : Registration.Navigator) :
    e.concernsNavigator navigator = false := by
  cases navigator with
  | bitbucket url owner =>
    apply Bool.eq_false_of_not_eq_true
    intro h
    -- The registration would have the address of the event, and this one belongs to Cloud.
    obtain ⟨rfl, hserver⟩ := (comesFrom_of_server hproduct).mp (concernsOwner_iff.mp h).1
    exact Bool.false_ne_true (hserver.symm.trans hurl)
  | other backend => rfl

theorem concernsSource_of_concernsNavigator {source : Registration.Source}
    (h : e.concernsNavigator source.navigator = false) : e.concernsSource source = false := by
  apply Bool.eq_false_of_not_eq_true
  intro hsource
  exact Bool.false_ne_true (h.symm.trans (concernsNavigator_of_concernsSource hsource))

/-- The case of letters counts neither in the event nor in the registration. -/
theorem concernsOwner_congr {r : Repository} (hr : e.repository.isSameAs r = true)
    (howner : Text.sameLetters owner owner' = true) :
    { e with repository := r }.concernsOwner url owner' = e.concernsOwner url owner := by
  rw [Repository.isSameAs, Bool.and_eq_true] at hr
  exact congrArg (e.comesFrom url && ·) (Text.sameLetters_congr hr.1 howner).symm

theorem concernsSource_congr {r : Repository} (hr : e.repository.isSameAs r = true)
    (howner : Text.sameLetters owner owner' = true) (hname : Text.sameLetters name name' = true) :
    { e with repository := r }.concernsSource (.bitbucket url owner' name') =
      e.concernsSource (.bitbucket url owner name) := by
  have hnames : Text.sameLetters r.name.text name' =
      Text.sameLetters e.repository.name.text name := by
    rw [Repository.isSameAs, Bool.and_eq_true] at hr
    exact (Text.sameLetters_congr hr.2 hname).symm
  exact congrArg₂ and (concernsOwner_congr hr howner) hnames

end HeadEvent

/-! ### From a delivery to its events -/

namespace Delivery

variable (d : Delivery)

/-- The events that a delivery leads to at the dispatcher. -/
def events (config : WebhookConfig) (stamp : Stamp) : List HeadEvent :=
  (Effect.events (d.receive (Processor.dispatcher.process config stamp)).2).map (·.1)

variable {d : Delivery} {config : WebhookConfig} {stamp : Stamp} {e : HeadEvent}

theorem kind_of_header? {k : WebhookKind} (h : d.header? eventKeyHeader = some k.eventKey) :
    d.kind = .ok k := by
  simp [kind, h]

/-- Only a push comes from Cloud. -/
theorem eq_push_of_product_eq_cloud {k : WebhookKind} (h : d.product k = .cloud) : k = .push := by
  unfold product at h
  split_ifs at h with hserver
  rw [Bool.or_eq_true, not_or, WebhookKind.isNativeServer, bne_iff_ne, not_not] at hserver
  exact hserver.1

/-- The address of the sender follows from the product. -/
theorem sender?_incoming (d : Delivery) (k : WebhookKind) :
    (d.incoming k).sender? =
      match d.product k with
      | .cloud => some cloudUrl
      | .server => (d.serverUrl.filter (· ≠ "")).map (⟨·⟩) := by
  unfold Incoming.sender?
  change (if k = .push ∧ d.product k = .cloud then _ else _) = _
  cases hproduct : d.product k with
  | cloud =>
    -- Cloud is asked for together with the kind, but it sends nothing else.
    rw [if_pos ⟨eq_push_of_product_eq_cloud hproduct, rfl⟩]
  | server =>
    rw [if_neg fun h => Product.noConfusion h.2]
    rfl

/-- The events of a delivery are those of the event that is handed to the dispatcher. -/
theorem events_of_kind {k : WebhookKind} (hkind : d.kind = .ok k) (hping : k ≠ .ping)
    (config : WebhookConfig) (stamp : Stamp) :
    d.events config stamp =
      (Effect.events (Processor.dispatcher.process config stamp (d.incoming k))).map (·.1) := by
  unfold events receive receipt
  rw [hkind]
  cases k with
  | ping => exact absurd rfl hping
  | push => rfl
  | refsChanged => rfl
  | mirrorSynchronized => rfl

theorem exists_incoming_of_mem_events (he : e ∈ d.events config stamp) :
    ∃ k, e ∈ (Effect.events (Processor.dispatcher.process config stamp (d.incoming k))).map
      (·.1) := by
  cases hkind : d.kind with
  | error reason =>
    unfold events receive receipt at he
    rw [hkind] at he
    cases he
  | ok k =>
    by_cases hping : k = .ping
    · -- A ping is acknowledged and not handed on.
      unfold events receive receipt at he
      rw [hkind, hping] at he
      cases he
    · exact ⟨k, events_of_kind hkind hping config stamp ▸ he⟩

/-- An event bears the address of Cloud, or it is one of Server and bears the address that was
given with the delivery. -/
theorem product_and_serverUrl_of_mem_events (he : e ∈ d.events config stamp) :
    e.product = .cloud ∧ e.serverUrl = cloudUrl ∨
      e.product = .server ∧ d.serverUrl = some e.serverUrl.text ∧ e.serverUrl.text ≠ "" := by
  obtain ⟨k, he⟩ := exists_incoming_of_mem_events he
  obtain ⟨url, push, t, hread, -, rfl⟩ := Processor.exists_of_mem_events he
  have hsender : (d.incoming k).sender? = some url :=
    (Processor.reads?_eq_some_iff.mp hread).2.1
  change d.product k = .cloud ∧ url = cloudUrl ∨
    d.product k = .server ∧ d.serverUrl = some url.text ∧ url.text ≠ ""
  rw [sender?_incoming] at hsender
  cases hproduct : d.product k with
  | cloud =>
    rw [hproduct] at hsender
    exact Or.inl ⟨rfl, (Option.some.inj hsender).symm⟩
  | server =>
    rw [hproduct] at hsender
    obtain ⟨text, htext, rfl⟩ := Option.map_eq_some_iff.mp hsender
    obtain ⟨hgiven, hne⟩ := Option.filter_eq_some_iff.mp htext
    exact Or.inr ⟨rfl, hgiven, of_decide_eq_true hne⟩

/-- To whom an event of a delivery applies. It is an event of Cloud with the address of Cloud, or
one of Server with the address that was given with the delivery. A source of the repository is
concerned by an event of Cloud exactly if its address belongs to Cloud, and by an event of Server
exactly if it has the very address of the event and this one does not belong to Cloud; so an event
of Server with an address of Cloud concerns nobody. A source of another repository or backend is
never concerned. Nobody is concerned by events of both products, no source without the navigator of
its owner, and the case of letters in names does not count. -/
theorem concerned_of_mem_events (he : e ∈ d.events config stamp) :
    (e.product = .cloud ∧ e.serverUrl = cloudUrl ∨
      e.product = .server ∧ d.serverUrl = some e.serverUrl.text ∧ e.serverUrl.text ≠ "") ∧
    (∀ url owner name, Text.sameLetters e.repository.owner.text owner = true →
      Text.sameLetters e.repository.name.text name = true →
      (e.product = .cloud →
        (e.concernsSource (.bitbucket url owner name) = true ↔ isCloudUrl url = true)) ∧
      (e.product = .server →
        (e.concernsSource (.bitbucket url owner name) = true ↔
          url = e.serverUrl.text ∧ isCloudUrl url = false))) ∧
    (e.product = .server → isCloudUrl e.serverUrl.text = true → ∀ source navigator,
      e.concernsSource source = false ∧ e.concernsNavigator navigator = false) ∧
    (∀ url owner name, Text.sameLetters e.repository.owner.text owner = false ∨
      Text.sameLetters e.repository.name.text name = false →
      e.concernsSource (.bitbucket url owner name) = false) ∧
    (∀ backend, e.concernsSource (.other backend) = false) ∧
    (∀ (e' : HeadEvent) navigator, e.concernsNavigator navigator = true →
      e'.concernsNavigator navigator = true → e.product = e'.product) ∧
    (∀ (e' : HeadEvent) source, e.concernsSource source = true →
      e'.concernsSource source = true → e.product = e'.product) ∧
    (∀ source, e.concernsSource source = true → e.concernsNavigator source.navigator = true) ∧
    ∀ (r : Repository) (url owner owner' name name' : String), e.repository.isSameAs r = true →
      Text.sameLetters owner owner' = true → Text.sameLetters name name' = true →
      { e with repository := r }.concernsNavigator (.bitbucket url owner') =
          e.concernsNavigator (.bitbucket url owner) ∧
        { e with repository := r }.concernsSource (.bitbucket url owner' name') =
          e.concernsSource (.bitbucket url owner name) := by
  refine ⟨product_and_serverUrl_of_mem_events he, ?_, ?_, ?_, fun _ => rfl, ?_, ?_, ?_, ?_⟩
  · intro url owner name howner hname
    have hfrom : e.concernsSource (.bitbucket url owner name) = true ↔ e.comesFrom url = true := by
      rw [HeadEvent.concernsSource_iff]
      exact and_iff_left ⟨howner, hname⟩
    exact ⟨fun h => hfrom.trans (HeadEvent.comesFrom_of_cloud h),
      fun h => hfrom.trans (HeadEvent.comesFrom_of_server h)⟩
  · intro hproduct hurl source navigator
    have hnobody := HeadEvent.concernsNavigator_of_isCloudUrl hproduct hurl
    exact ⟨HeadEvent.concernsSource_of_concernsNavigator (hnobody source.navigator),
      hnobody navigator⟩
  · intro url owner name hother
    apply Bool.eq_false_of_not_eq_true
    intro h
    obtain ⟨-, howner, hname⟩ := HeadEvent.concernsSource_iff.mp h
    rcases hother with hother | hother
    · exact Bool.false_ne_true (hother.symm.trans howner)
    · exact Bool.false_ne_true (hother.symm.trans hname)
  · intro e' navigator h h'
    exact HeadEvent.product_eq_of_concernsNavigator h h'
  · intro e' source h h'
    apply HeadEvent.product_eq_of_concernsNavigator
    · exact HeadEvent.concernsNavigator_of_concernsSource h
    · exact HeadEvent.concernsNavigator_of_concernsSource h'
  · intro source h
    exact HeadEvent.concernsNavigator_of_concernsSource h
  · intro r url owner owner' name name' hr howner hname
    exact ⟨HeadEvent.concernsOwner_congr hr howner, HeadEvent.concernsSource_congr hr howner hname⟩

/-- A push that its headers declare to come from Server. -/
def declaredDelivery (url : String) : Delivery :=
  ⟨[(productHeader, "server"), (eventKeyHeader, WebhookKind.push.eventKey)],
    some Processor.repeatedBody, some url, "10.0.0.1"⟩

/-- The event as it is handed to the dispatcher. -/
def declaredIncoming (url : String) : Incoming :=
  ⟨.push, some Processor.repeatedBody, .server, "10.0.0.1", some url⟩

def declaredStamp : Stamp := ⟨.ofNat 0, fun _ => ⟨0, 0, 0⟩⟩

/-- What Server tells of the moved branch. -/
def declaredEvent (url : String) : HeadEvent :=
  Processor.repeatedPush.headEvent (declaredIncoming url) ⟨url⟩ declaredStamp .updated
    (ofType .updated Processor.repeatedPush.changes)

theorem incoming_declaredDelivery (url : String) :
    (declaredDelivery url).incoming .push = declaredIncoming url := by
  have hother : Text.sameLetters eventKeyHeader productHeader = false :=
    Bool.eq_false_iff.mpr (mt Text.sameLetters_iff_toList.mp (by decide +kernel))
  have hdeclared : (declaredDelivery url).declaresServer = true := by
    simp [declaresServer, header?, declaredDelivery, hother, Text.sameLetters_iff_toList]
    decide +kernel
  rw [incoming, product, hdeclared, Bool.or_true, if_pos rfl]
  rfl

theorem reads?_declaredIncoming {url : String} (hurl : url ≠ "") :
    Processor.dispatcher.reads? (declaredIncoming url) = some (⟨url⟩, Processor.repeatedPush) := by
  obtain ⟨hhandled, -, hbody⟩ := Processor.reads?_eq_some_iff.mp Processor.reads?_repeatedDelivery
  refine Processor.reads?_eq_some_iff.mpr ⟨hhandled, ?_, hbody⟩
  rw [Incoming.sender?, if_neg fun h => Product.noConfusion h.2]
  simp [declaredIncoming, Option.filter, hurl]

theorem declaredEvent_mem_events (url : String) (hurl : url ≠ "") :
    declaredEvent url ∈ (declaredDelivery url).events .standard declaredStamp := by
  have hkey : (declaredDelivery url).header? eventKeyHeader = some WebhookKind.push.eventKey := by
    simp [header?, declaredDelivery]
  have hkind : (declaredDelivery url).kind = .ok .push := kind_of_header? hkey
  have htype : EventType.updated ∈ ChangeGroups.types Processor.repeatedPush.changes := by
    decide +kernel
  rw [events_of_kind hkind (by decide), incoming_declaredDelivery,
    Processor.events_process _ _ _ (reads?_declaredIncoming hurl) rfl (List.cons_ne_nil _ _)]
  exact List.mem_map.mpr ⟨.updated, htype, rfl⟩

/-- The event of Server applies to the source with the address of the delivery, whatever the case of
its names, and not to the one with the address of Cloud. Sent with an address that belongs to Cloud
it does not even apply to the source with that address. -/
theorem concerned_declaredDelivery :
    (declaredEvent "https://git.example.org").concernsSource
        (.bitbucket "https://git.example.org" "p" "W") = true ∧
      (declaredEvent "https://git.example.org").concernsSource
        (.bitbucket "https://bitbucket.org" "P" "w") = false ∧
      (declaredEvent "http://Bitbucket.org/").concernsSource
        (.bitbucket "http://Bitbucket.org/" "P" "w") = false := by
  have hrepository : ∀ url, (declaredEvent url).repository = ⟨⟨"P"⟩, ⟨"w"⟩, []⟩ := fun _ => rfl
  have hurl : ∀ url, (declaredEvent url).serverUrl = ⟨url⟩ := fun _ => rfl
  obtain ⟨-, hnamed, -⟩ := concerned_of_mem_events
    (declaredEvent_mem_events "https://git.example.org" (by decide))
  obtain ⟨-, -, hnobody, -⟩ := concerned_of_mem_events
    (declaredEvent_mem_events "http://Bitbucket.org/" (by decide))
  rw [hrepository, hurl] at hnamed
  rw [hurl] at hnobody
  have howner : Text.sameLetters "P" "p" = true :=
    Text.sameLetters_iff_toList.mpr (by decide +kernel)
  have hname : Text.sameLetters "w" "W" = true :=
    Text.sameLetters_iff_toList.mpr (by decide +kernel)
  refine ⟨?_, ?_, ?_⟩
  · have hlowered : (Text.dropTrailing '/' "https://git.example.org").toList.map Char.toLower =
        "https://git.example.org".toList := by
      decide +kernel
    have hserver : isCloudUrl "https://git.example.org" = false := by
      rw [isCloudUrl_of_lowered hlowered]
      rfl
    exact ((hnamed "https://git.example.org" "p" "W" howner hname).2 rfl).mpr ⟨rfl, hserver⟩
  · have hsource := (hnamed "https://bitbucket.org" "P" "w" (Text.sameLetters_refl _)
      (Text.sameLetters_refl _)).2 rfl
    apply Bool.eq_false_of_not_eq_true
    intro h
    exact absurd (hsource.mp h).1 (by decide)
  · have hlowered : (Text.dropTrailing '/' "http://Bitbucket.org/").toList.map Char.toLower =
        "http://bitbucket.org".toList := by
      decide +kernel
    have hcloud : isCloudUrl "http://Bitbucket.org/" = true := by
      rw [isCloudUrl_of_lowered hlowered]
      rfl
    exact (hnobody rfl hcloud _ (.other "")).1

end Delivery

end HeadScout
