import HeadScout.Payload.Event
import HeadScout.Proofs.Json.Shape

/-!
# Two forms of a push

Cloud and Server tell of a push in forms of their own. Cloud gives the states of a ref before and
after it, and marks those that were created or removed; Server gives the ref and tags what became of
it, and may write zeros where there is no commit. The repository has a full name on Cloud, and a slug
and the key of a project on Server.

Each form leaves much open. A tag may be called annotated or not, a ref may be given by its short or
by its full name, a side that is missing may be left out, and what stands beside the described
members does not matter; but an entry of Server is kept before it is read, so whatever else stands in
it must be something that can be kept.

## Main definitions

* `RefUpdate`, `PushReport` — what a push did, told for neither product
* `PushReport.push?` — what should be read of it
* `PushReport.IsCloudBody`, `PushReport.IsServerBody` — the documents that tell of it

## Main results

* `PushReport.isCloudBody_toCloud`, `PushReport.isServerBody_toServer` — every push has either form
-/

namespace HeadScout

open Json (Holds Missing IsRecord IsList)
open Payload

/-! ### What a push does -/

/-- What a push does to a ref, with the hashes of the commits. -/
inductive RefMove where
  | create (hash : String)
  | update (old new : String)
  | delete (hash : String)
  deriving DecidableEq, Repr

namespace RefMove

/-- The tag that Server gives to it. -/
def tag : RefMove → ChangeTag
  | .create _ => .add
  | .update .. => .update
  | .delete _ => .delete

/-- The hash before the push. -/
def before : RefMove → Option String
  | .create _ => none
  | .update old _ => some old
  | .delete hash => some hash

/-- The hash after the push. -/
def after : RefMove → Option String
  | .create hash => some hash
  | .update _ new => some new
  | .delete _ => none

def isCreate : RefMove → Bool
  | .create _ => true
  | _ => false

def isDelete : RefMove → Bool
  | .delete _ => true
  | _ => false

end RefMove

/-- One ref that a push creates, moves or removes. It has a name, and its hashes name commits. -/
structure RefUpdate where
  kind : RefKind
  name : String
  move : RefMove
  name_ne_empty : name ≠ ""
  commit_before : ∀ hash ∈ move.before, hash ≠ "" ∧ hash ≠ nullHash
  commit_after : ∀ hash ∈ move.after, hash ≠ "" ∧ hash ≠ nullHash

/-- The change that the update is read as. -/
def RefUpdate.change (u : RefUpdate) : Change :=
  ⟨u.kind, ⟨u.name⟩, u.move.tag, u.move.before.map (⟨·⟩), u.move.after.map (⟨·⟩)⟩

/-- What a push does to a repository. -/
structure PushReport where
  owner : String
  name : String
  /-- Where the repository can be cloned. -/
  links : List CloneLink
  updates : List RefUpdate
  slash_notMem : '/' ∉ owner.toList

namespace PushReport

variable (p : PushReport)

/-- The repository that is pushed to, unless it lacks an owner or a name. -/
def repository? : Option Repository :=
  if p.owner = "" ∨ p.name = "" then none else some ⟨⟨p.owner⟩, ⟨p.name⟩, p.links⟩

/-- What is read of a push to a repository; the commit it ended on is not told. -/
def push (repository : Repository) : Push :=
  .refsChanged ⟨repository, p.updates.map RefUpdate.change, none⟩

/-- What is read of the push, if the repository has an owner and a name. -/
def push? : Option Push := p.repository?.map p.push

end PushReport

/-! ### Documents -/

/-- Any value. -/
def anything (_ : Json) : Prop := True

/-- The given text. -/
def IsText (s : String) (v : Json) : Prop := v = .text s

/-- The names of links with a protocol, up to the case of letters. -/
def linkNames : Protocol → List String
  | .http => ["http", "https"]
  | .ssh => ["ssh"]

/-- A clone link, whichever product lists it. -/
def IsLink (l : CloneLink) : Json → Prop :=
  IsRecord
    [("href", Holds (IsText l.href)),
      ("name", Holds fun v => ∃ name, Text.lower name ∈ linkNames l.protocol ∧ IsText name v)]
    anything

/-- The clone links of a repository; they may be left out where there are none. -/
def IsLinks (links : List CloneLink) (o : Option Json) : Prop :=
  (o = none ∧ links = []) ∨ Holds (IsRecord [("clone", Holds (IsList IsLink links))] anything) o

namespace RefUpdate

variable (u : RefUpdate)

/-- The names of a kind of ref on Cloud. -/
def cloudKinds : RefKind → List String
  | .branch => ["branch"]
  | .tag => ["tag", "annotated_tag"]

/-- The ref at the time when it points at a commit. -/
def IsCloudState (hash : String) : Json → Prop :=
  IsRecord
    [("type", Holds fun v => ∃ kind ∈ cloudKinds u.kind, IsText kind v),
      ("name", Holds (IsText u.name)),
      ("target", Holds (IsRecord [("hash", Holds (IsText hash))] anything))]
    anything

/-- The ref before or after the push. -/
def IsCloudSide (hash : Option String) (o : Option Json) : Prop :=
  match hash with
  | some hash => Holds (u.IsCloudState hash) o
  | none => Missing o

/-- A mark, which may be left out where it does not hold. -/
def IsMark (holds : Bool) (o : Option Json) : Prop :=
  o = some (.bool holds) ∨ (o = none ∧ holds = false)

/-- The update in the form of Cloud. -/
def IsCloudChange : Json → Prop :=
  IsRecord
    [("new", u.IsCloudSide u.move.after), ("old", u.IsCloudSide u.move.before),
      ("created", IsMark u.move.isCreate), ("closed", IsMark u.move.isDelete)]
    anything

/-- The name of a kind of ref on Server. -/
def serverKind : RefKind → String
  | .branch => "BRANCH"
  | .tag => "TAG"

/-- The beginning of the full name of a ref. -/
def fullNameBeginning : RefKind → String
  | .branch => ServerRef.branchBeginning
  | .tag => ServerRef.tagBeginning

/-- The short name of the ref beside its full name. One of them is enough; with the short name, the
full name must not be that of a tag unless the ref is one. -/
inductive IsNamed : (id displayId : Option Json) → Prop
  | short {id : Option Json}
      (h : id = none ∨ ∃ fullName, id = some (.text fullName) ∧
        (u.kind = .branch → ∀ rest, fullName ≠ ServerRef.tagBeginning ++ rest)) :
      IsNamed id (some (.text u.name))
  | full : IsNamed (some (.text (fullNameBeginning u.kind ++ u.name))) none

/-- Whatever can be kept within so many brackets. -/
def CanBeKept (depth : Nat) (v : Json) : Prop := v.isStorable depth = true

/-- The ref in the form of Server. -/
def IsServerRef (v : Json) : Prop :=
  ∃ id displayId, u.IsNamed id displayId ∧
    IsRecord
      [("id", (· = id)), ("displayId", (· = displayId)),
        ("type", Holds (IsText (serverKind u.kind)))]
      (CanBeKept 4) v

/-- The hash before or after the push. -/
def IsServerSide (hash : Option String) (o : Option Json) : Prop :=
  match hash with
  | some hash => Holds (IsText hash) o
  | none => Missing o ∨ Holds (IsText nullHash) o

/-- The update in the form of Server. -/
def IsServerChange : Json → Prop :=
  IsRecord
    [("ref", Holds u.IsServerRef), ("fromHash", IsServerSide u.move.before),
      ("toHash", IsServerSide u.move.after), ("type", Holds (IsText u.move.tag.text))]
    (CanBeKept 3)

end RefUpdate

namespace PushReport

variable (p : PushReport)

/-- The repository in the form of Cloud. -/
def IsCloudRepository : Json → Prop :=
  IsRecord [("full_name", Holds (IsText (p.owner ++ "/" ++ p.name))), ("links", IsLinks p.links)]
    anything

/-- The body of a push on Cloud. -/
def IsCloudBody : Json → Prop :=
  IsRecord
    [("repository", Holds p.IsCloudRepository),
      ("push", Holds (IsRecord [("changes", Holds (IsList RefUpdate.IsCloudChange p.updates))]
        anything))]
    anything

/-- The repository in the form of Server. -/
def IsServerRepository : Json → Prop :=
  IsRecord
    [("slug", Holds (IsText p.name)),
      ("project", Holds (IsRecord [("key", Holds (IsText p.owner))] anything)),
      ("links", IsLinks p.links)]
    anything

/-- The body of a push on Server; it does not name the commit that the push ended on. -/
def IsServerBody : Json → Prop :=
  IsRecord
    [("repository", Holds p.IsServerRepository),
      ("changes", Holds (IsList RefUpdate.IsServerChange p.updates)), ("toCommit", Missing)]
    anything

end PushReport

/-! ### Writing either form -/

/-- A clone link, written with the name of its protocol. -/
def CloneLink.toNamed (l : CloneLink) : Json :=
  .record [("href", .text l.href), ("name", .text l.protocol.name)]

theorem lower_protocolName (protocol : Protocol) :
    Text.lower protocol.name ∈ linkNames protocol := by
  have hlower : Text.lower protocol.name = protocol.name :=
    Text.lower_eq_self (by cases protocol <;> rfl)
  rw [hlower]
  cases protocol with
  | http => exact List.mem_cons_self
  | ssh => exact List.mem_cons_self

theorem isLink_toNamed (l : CloneLink) : IsLink l l.toNamed := by
  refine IsRecord.of_record _ (by simp) ?_
  simp only [List.forall_mem_cons]
  exact ⟨⟨_, rfl, _, rfl, rfl⟩,
    ⟨_, rfl, _, rfl, l.protocol.name, lower_protocolName l.protocol, rfl⟩, List.forall_mem_nil _⟩

def linksToJson (links : List CloneLink) : Json :=
  .record [("clone", .array (links.map CloneLink.toNamed))]

theorem isLinks_linksToJson (links : List CloneLink) : IsLinks links (some (linksToJson links)) := by
  refine Or.inr ⟨_, rfl, IsRecord.of_record _ (by simp) ?_⟩
  simp only [List.forall_mem_cons]
  exact ⟨⟨_, rfl, _, rfl, IsList.of_map isLink_toNamed links⟩, List.forall_mem_nil _⟩

namespace RefUpdate

variable (u : RefUpdate)

def cloudState (hash : String) : Json :=
  .record [("type", .text u.kind.name), ("name", .text u.name),
    ("target", .record [("hash", .text hash)])]

/-- The update in the form of Cloud, missing sides as `null`. -/
def toCloud : Json :=
  .record [("new", .orNull u.cloudState u.move.after), ("old", .orNull u.cloudState u.move.before),
    ("created", .bool u.move.isCreate), ("closed", .bool u.move.isDelete)]

theorem isCloudState_cloudState (hash : String) : u.IsCloudState hash (u.cloudState hash) := by
  have htarget : IsRecord [("hash", Holds (IsText hash))] anything
      (.record [("hash", .text hash)]) := by
    refine IsRecord.of_record _ (by simp) ?_
    simp only [List.forall_mem_cons]
    exact ⟨⟨_, rfl, _, rfl, rfl⟩, List.forall_mem_nil _⟩
  have hkind : u.kind.name ∈ cloudKinds u.kind := by
    cases u.kind with
    | branch => exact List.mem_cons_self
    | tag => exact List.mem_cons_self
  refine IsRecord.of_record _ (by simp) ?_
  simp only [List.forall_mem_cons]
  exact ⟨⟨_, rfl, _, rfl, _, hkind, rfl⟩, ⟨_, rfl, _, rfl, rfl⟩, ⟨_, rfl, _, rfl, htarget⟩,
    List.forall_mem_nil _⟩

theorem isCloudSide_orNull (hash : Option String) :
    u.IsCloudSide hash (some (.orNull u.cloudState hash)) := by
  cases hash with
  | none => exact Or.inr rfl
  | some hash => exact ⟨_, rfl, u.isCloudState_cloudState hash⟩

theorem isCloudChange_toCloud : u.IsCloudChange u.toCloud := by
  refine IsRecord.of_record _ (by simp) ?_
  simp only [List.forall_mem_cons]
  exact ⟨⟨_, rfl, u.isCloudSide_orNull _⟩, ⟨_, rfl, u.isCloudSide_orNull _⟩,
    ⟨_, rfl, Or.inl rfl⟩, ⟨_, rfl, Or.inl rfl⟩, List.forall_mem_nil _⟩

/-- The ref by its full name alone. -/
def serverRef : Json :=
  .record [("id", .text (fullNameBeginning u.kind ++ u.name)), ("type", .text (serverKind u.kind))]

/-- The update in the form of Server, missing sides as zeros. -/
def toServer : Json :=
  .record [("ref", u.serverRef), ("fromHash", .text (u.move.before.getD nullHash)),
    ("toHash", .text (u.move.after.getD nullHash)), ("type", .text u.move.tag.text)]

theorem isServerRef_serverRef : u.IsServerRef u.serverRef := by
  refine ⟨_, _, .full, IsRecord.of_record _ (by simp) ?_⟩
  simp only [List.forall_mem_cons]
  exact ⟨⟨_, rfl, rfl⟩, ⟨none, rfl, rfl⟩, ⟨_, rfl, _, rfl, rfl⟩, List.forall_mem_nil _⟩

theorem isServerSide_getD (hash : Option String) :
    IsServerSide hash (some (.text (hash.getD nullHash))) := by
  cases hash with
  | none => exact Or.inr ⟨_, rfl, rfl⟩
  | some hash => exact ⟨_, rfl, rfl⟩

theorem isServerChange_toServer : u.IsServerChange u.toServer := by
  refine IsRecord.of_record _ (by simp) ?_
  simp only [List.forall_mem_cons]
  exact ⟨⟨_, rfl, _, rfl, u.isServerRef_serverRef⟩, ⟨_, rfl, isServerSide_getD _⟩,
    ⟨_, rfl, isServerSide_getD _⟩, ⟨_, rfl, _, rfl, rfl⟩, List.forall_mem_nil _⟩

end RefUpdate

namespace PushReport

variable (p : PushReport)

/-- The body of the push in the form of Cloud. -/
def toCloud : Json :=
  .record [
    ("repository", .record [("full_name", .text (p.owner ++ "/" ++ p.name)),
      ("links", linksToJson p.links)]),
    ("push", .record [("changes", .array (p.updates.map RefUpdate.toCloud))])]

/-- The body of the push in the form of Server. -/
def toServer : Json :=
  .record [
    ("repository", .record [("slug", .text p.name), ("project", .record [("key", .text p.owner)]),
      ("links", linksToJson p.links)]),
    ("changes", .array (p.updates.map RefUpdate.toServer))]

/-- Every push can be told in the form of Cloud. -/
theorem isCloudBody_toCloud : p.IsCloudBody p.toCloud := by
  have hrepository : p.IsCloudRepository (.record [("full_name", .text (p.owner ++ "/" ++ p.name)),
      ("links", linksToJson p.links)]) := by
    refine IsRecord.of_record _ (by simp) ?_
    simp only [List.forall_mem_cons]
    exact ⟨⟨_, rfl, _, rfl, rfl⟩, ⟨_, rfl, isLinks_linksToJson p.links⟩, List.forall_mem_nil _⟩
  have hpush : IsRecord [("changes", Holds (IsList RefUpdate.IsCloudChange p.updates))] anything
      (.record [("changes", .array (p.updates.map RefUpdate.toCloud))]) := by
    refine IsRecord.of_record _ (by simp) ?_
    simp only [List.forall_mem_cons]
    exact ⟨⟨_, rfl, _, rfl, IsList.of_map RefUpdate.isCloudChange_toCloud p.updates⟩,
      List.forall_mem_nil _⟩
  refine IsRecord.of_record _ (by simp) ?_
  simp only [List.forall_mem_cons]
  exact ⟨⟨_, rfl, _, rfl, hrepository⟩, ⟨_, rfl, _, rfl, hpush⟩, List.forall_mem_nil _⟩

/-- Every push can be told in the form of Server. -/
theorem isServerBody_toServer : p.IsServerBody p.toServer := by
  have hproject : IsRecord [("key", Holds (IsText p.owner))] anything
      (.record [("key", .text p.owner)]) := by
    refine IsRecord.of_record _ (by simp) ?_
    simp only [List.forall_mem_cons]
    exact ⟨⟨_, rfl, _, rfl, rfl⟩, List.forall_mem_nil _⟩
  have hrepository : p.IsServerRepository (.record [("slug", .text p.name),
      ("project", .record [("key", .text p.owner)]), ("links", linksToJson p.links)]) := by
    refine IsRecord.of_record _ (by simp) ?_
    simp only [List.forall_mem_cons]
    exact ⟨⟨_, rfl, _, rfl, rfl⟩, ⟨_, rfl, _, rfl, hproject⟩,
      ⟨_, rfl, isLinks_linksToJson p.links⟩, List.forall_mem_nil _⟩
  refine IsRecord.of_record _ (by simp) ?_
  simp only [List.forall_mem_cons]
  exact ⟨⟨_, rfl, _, rfl, hrepository⟩,
    ⟨_, rfl, _, rfl, IsList.of_map RefUpdate.isServerChange_toServer p.updates⟩,
    ⟨none, rfl, Or.inl rfl⟩, List.forall_mem_nil _⟩

end PushReport

end HeadScout
