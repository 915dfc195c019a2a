import HeadScout.Proofs.Webhook.Processing
import HeadScout.Proofs.Webhook.PushReading

/-!
# Deliveries of either form of a push

The two deliveries of one push lead to the same effects, in the same order. What remains different is
what a delivery adds itself: its name, where it came from, and when.

## Main definitions

* `Effect.sentBy` — the same effect of another delivery

## Main results

* `PushReport.forms_agree` — both forms are read alike, and lead to the same
-/

namespace HeadScout

/-- The same effect of another delivery from a sender. -/
def Effect.sentBy (i : Incoming) (url : ServerUrl) (stamp : Stamp) : Effect → Effect
  | .notify e delay => .notify
    { e with
      deliveryId := stamp.id
      serverUrl := url
      product := i.product
      origin := i.origin
      receivedAt := stamp.time e.eventType } delay
  | e => e

theorem Push.map_sentBy_effects (q : Push) (config : WebhookConfig) (i i' : Incoming)
    (url url' : ServerUrl) (stamp stamp' : Stamp) :
    (q.effects config i url stamp).map (Effect.sentBy i' url' stamp') =
      q.effects config i' url' stamp' := by
  unfold Push.effects
  split_ifs
  · rfl
  · rfl
  · rfl
  · rw [List.map_append, List.map_map, List.map_flatMap]
    rfl

/-- What a delivery leads to, given what is read from it, if anything can be read. -/
def Incoming.effects (i : Incoming) (config : WebhookConfig) (url : ServerUrl) (stamp : Stamp) :
    Option Push → List Effect
  | some push => push.effects config i url stamp
  | none => [.note .payloadUnreadable]

theorem Incoming.map_sentBy_effects (i i' : Incoming) (url url' : ServerUrl) (stamp stamp' : Stamp)
    (config : WebhookConfig) (push : Option Push) :
    (i.effects config url stamp push).map (Effect.sentBy i' url' stamp') =
      i'.effects config url' stamp' push := by
  cases push with
  | none => rfl
  | some push => exact push.map_sentBy_effects config i i' url url' stamp stamp'

namespace PushReport

variable {p : PushReport} {i : Incoming} {v : Json} {body : String}
  {repository : Except PayloadError Repository}

theorem toOption_reading (h : repository.toOption = p.repository?) :
    (p.reading repository).value.toOption = p.push? := by
  rw [push?, ← h]
  cases repository <;> rfl

/-- What the dispatcher does with a delivery that reports the push. -/
theorem process_of_reading (config : WebhookConfig) (stamp : Stamp) {url : ServerUrl}
    (hkind : i.kind ≠ .ping) (hpayload : i.payload = some body)
    (hparse : Json.parse? body = some v) (hsender : i.sender? = some url)
    (hread : (Push.read i.kind body).run = p.reading repository)
    (h : repository.toOption = p.repository?) :
    Processor.dispatcher.process config stamp i = i.effects config url stamp p.push? := by
  have hbody := i.body?_of_parse? hpayload hparse
  have hhandle := i.atDispatcher_eq_handle config stamp hkind hbody hsender
  change i.atDispatcher config stamp = _
  rw [hhandle, Incoming.handle, hread, push?, ← h]
  cases repository <;> rfl

/-- Whichever product tells of a push, the same is read: the repository with its clone links, each
update as a change, in their order, and no commit that the push ended on. So under the same settings
a delivery of Server leads to what the delivery of Cloud leads to, but for where and when each of
them was made. -/
theorem forms_agree {cloudBody serverBody : String} {cloudDocument serverDocument : Json}
    (hcloudParse : Json.parse? cloudBody = some cloudDocument)
    (hcloud : p.IsCloudBody cloudDocument)
    (hserverParse : Json.parse? serverBody = some serverDocument)
    (hserver : p.IsServerBody serverDocument) :
    (Push.read .push cloudBody).run.value.toOption = p.push? ∧
      (Push.read .refsChanged serverBody).run.value.toOption = p.push? ∧
      ∀ (config : WebhookConfig) (stamp stamp' : Stamp) (i i' : Incoming) (url : String),
        i.kind = .push → i.product = .cloud → i.payload = some cloudBody →
        i'.kind = .refsChanged → i'.payload = some serverBody →
        i'.serverUrl = some url → url ≠ "" →
        Processor.dispatcher.process config stamp' i' =
          (Processor.dispatcher.process config stamp i).map (Effect.sentBy i' ⟨url⟩ stamp') := by
  obtain ⟨repository, hcloudRun, hcloudNamed⟩ := run_cloudBody hcloud
  obtain ⟨repository', hserverRun, hserverNamed⟩ := run_serverBody hserver
  rw [← Push.read_of_parse? (by decide) hcloudParse] at hcloudRun
  rw [← Push.read_of_parse? (by decide) hserverParse] at hserverRun
  refine ⟨?_, ?_, ?_⟩
  · rw [hcloudRun]
    exact toOption_reading hcloudNamed
  · rw [hserverRun]
    exact toOption_reading hserverNamed
  · intro config stamp stamp' i i' url hkind hproduct hpayload hkind' hpayload' hurl hne
    have hsender : i.sender? = some cloudUrl := by
      rw [Incoming.sender?, if_pos ⟨hkind, hproduct⟩]
    -- Only a push of Cloud is known to come from Cloud; any other delivery tells its sender.
    have hsender' : i'.sender? = some ⟨url⟩ := by
      rw [Incoming.sender?, hkind', if_neg (by simp), hurl]
      simp [Option.filter, hne]
    rw [process_of_reading config stamp (by rw [hkind]; decide) hpayload hcloudParse hsender
        (by rw [hkind]; exact hcloudRun) hcloudNamed,
      process_of_reading config stamp' (by rw [hkind']; decide) hpayload' hserverParse hsender'
        (by rw [hkind']; exact hserverRun) hserverNamed]
    exact (i.map_sentBy_effects i' cloudUrl ⟨url⟩ stamp stamp' config p.push?).symm

/-- A branch is gone that was called like the full name of a tag. -/
def samplePush : PushReport where
  owner := "P"
  name := "w"
  links := []
  updates := [⟨.branch, "refs/tags/v", .delete "b", by decide, by
    rintro _ ⟨⟩
    exact ⟨by decide, by decide⟩, by rintro _ ⟨⟩⟩]
  slash_notMem := by decide

def sampleCloudBody : String :=
  "\x7b\"repository\":\x7b\"full_name\":\"P/w\",\"links\":\x7b\"clone\":[]\x7d\x7d," ++
    "\"push\":\x7b\"changes\":[\x7b\"new\":null,\"old\":\x7b\"type\":\"branch\"," ++
    "\"name\":\"refs/tags/v\",\"target\":\x7b\"hash\":\"b\"\x7d\x7d,\"created\":false," ++
    "\"closed\":true\x7d]\x7d\x7d"

def sampleServerBody : String :=
  "\x7b\"repository\":\x7b\"slug\":\"w\",\"project\":\x7b\"key\":\"P\"\x7d," ++
    "\"links\":\x7b\"clone\":[]\x7d\x7d,\"changes\":[\x7b\"ref\":\x7b" ++
    "\"id\":\"refs/heads/refs/tags/v\",\"type\":\"BRANCH\"\x7d,\"fromHash\":\"b\"," ++
    "\"toHash\":\"0000000000000000000000000000000000000000\",\"type\":\"DELETE\"\x7d]\x7d"

theorem parse?_sampleCloudBody : Json.parse? sampleCloudBody = some samplePush.toCloud := by
  cbv

theorem parse?_sampleServerBody : Json.parse? sampleServerBody = some samplePush.toServer := by
  cbv

/-- The delivery of a body by either product. -/
def sampleDelivery (kind : WebhookKind) (product : Product) (body : String) : Incoming :=
  ⟨kind, some body, product, "10.0.0.1", some "https://git.example.org"⟩

theorem forms_agree_samplePush :
    (Push.read .push sampleCloudBody).run.value.toOption =
        some (.refsChanged ⟨⟨⟨"P"⟩, ⟨"w"⟩, []⟩,
          [⟨.branch, ⟨"refs/tags/v"⟩, .delete, some ⟨"b"⟩, none⟩], none⟩) ∧
      (Push.read .refsChanged sampleServerBody).run.value.toOption =
        (Push.read .push sampleCloudBody).run.value.toOption ∧
      ∀ config stamp stamp',
        Processor.dispatcher.process config stamp'
            (sampleDelivery .refsChanged .server sampleServerBody) =
          (Processor.dispatcher.process config stamp
            (sampleDelivery .push .cloud sampleCloudBody)).map
            (Effect.sentBy (sampleDelivery .refsChanged .server sampleServerBody)
              ⟨"https://git.example.org"⟩ stamp') := by
  obtain ⟨hcloud, hserver, heffects⟩ := forms_agree parse?_sampleCloudBody
    samplePush.isCloudBody_toCloud parse?_sampleServerBody samplePush.isServerBody_toServer
  refine ⟨hcloud, hserver.trans hcloud.symm, ?_⟩
  intro config stamp stamp'
  exact heffects config stamp stamp' _ _ _ rfl rfl rfl rfl rfl rfl (by decide)

end PushReport

end HeadScout
