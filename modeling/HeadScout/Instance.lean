import HeadScout.Identifier

/-!
# Cloud and Server

The two products that send webhooks and serve repositories. Cloud is the one service at
`bitbucket.org`; Server is installed anywhere else, so the address tells the two apart.

## Main definitions

* `Product` — the two products
* `isCloudUrl` — whether an address belongs to Cloud

## Main results

* `isCloudUrl_cloudUrl` — the address of Cloud belongs to Cloud
-/

namespace HeadScout

/-- Which product sent a payload or serves a repository. -/
inductive Product where
  /-- The service at `bitbucket.org`. -/
  | cloud
  | server
  deriving DecidableEq, Repr

namespace Product

/-- The product's name in stored documents. -/
def name : Product → String
  | .cloud => "cloud"
  | .server => "server"

/-- A product is stored as its name. -/
def toJson (p : Product) : Json := .text p.name

def ofJson? (v : Json) : Option Product :=
  v.variant?.bind fun
    | "cloud" => some .cloud
    | "server" => some .server
    | _ => none

@[simp] theorem ofJson?_toJson (p : Product) : ofJson? p.toJson = some p := by
  cases p <;> decide

end Product

/-- The address that stands for Cloud on events and sources. -/
def cloudUrl : ServerUrl := ⟨"https://bitbucket.org"⟩

/-- The addresses of Cloud, without a path. -/
def cloudAddresses : List String := ["https://bitbucket.org", "http://bitbucket.org"]

/-- Whether the address is one of Cloud: up to slashes at its end and the case of letters it is a
Cloud address, alone or with a path. -/
def isCloudUrl (url : String) : Bool :=
  let lowered := Text.lower (Text.dropTrailing '/' url)
  cloudAddresses.any fun a => lowered == a || Text.hasPrefix (a ++ "/") lowered

/-- The test, given the address without slashes at its end in small letters. -/
theorem isCloudUrl_of_lowered {url lowered : String}
    (h : (Text.dropTrailing '/' url).toList.map Char.toLower = lowered.toList) :
    isCloudUrl url =
      cloudAddresses.any fun a => lowered == a || Text.hasPrefix (a ++ "/") lowered := by
  have hlowered : Text.lower (Text.dropTrailing '/' url) = lowered := by
    rw [← String.toList_inj, Text.toList_lower, h]
  rw [isCloudUrl, hlowered]

theorem isCloudUrl_cloudUrl : isCloudUrl cloudUrl.text = true := by
  have hlowered : (Text.dropTrailing '/' cloudUrl.text).toList.map Char.toLower =
      cloudUrl.text.toList := by
    decide +kernel
  rw [isCloudUrl_of_lowered hlowered]
  rfl

end HeadScout
