import HeadScout.Instance
import HeadScout.Proofs.Repository
import Mathlib.Data.List.DropRight

/-!
# The addresses of Cloud

An address belongs to Cloud if, in small letters, it is one of two addresses, alone or with a path.
The test cuts the slashes at the end first and then asks for equality or for a longer beginning,
which comes to the same: slashes at the end are a path too, and neither address ends with one. So
the test reads nothing but scheme and host, and no host that is longer than the one of Cloud passes.

## Main definitions

* `IsPath` — what may follow a host

## Main results

* `Text.dropTrailing_append` — what is cut from a text with something behind it
* `isCloudUrl_iff` — the addresses that belong to Cloud
* `isCloudUrl_address_iff` — they are told by scheme and host
* `cloudUrls_recognised` — what may differ, and what may not
-/

namespace HeadScout

/-- Nothing, or a text that begins with a slash. -/
def IsPath (s : String) : Prop := s = "" ∨ ∃ rest, s = "/" ++ rest

namespace Text

variable {c : Char} {s t : String}

/-! ### Characters at the end -/

theorem toList_dropTrailing (c : Char) (s : String) :
    (dropTrailing c s).toList = s.toList.rdropWhile (· == c) :=
  String.toList_ofList

theorem dropTrailing_eq_empty_iff : dropTrailing c s = "" ↔ ∀ d ∈ s.toList, d = c := by
  rw [← String.toList_inj, toList_dropTrailing]
  simp

/-- Cutting reaches the first part only if nothing is left of the second one. -/
theorem dropTrailing_append (c : Char) (s t : String) :
    dropTrailing c (s ++ t) =
      if dropTrailing c t = "" then dropTrailing c s else s ++ dropTrailing c t := by
  have hempty : (t.toList.reverse.dropWhile (· == c)).isEmpty = true ↔ dropTrailing c t = "" := by
    rw [List.isEmpty_iff, List.dropWhile_eq_nil_iff, dropTrailing_eq_empty_iff]
    simp
  rw [dropTrailing, String.toList_append, List.reverse_append, List.dropWhile_append]
  by_cases h : dropTrailing c t = ""
  · rw [if_pos (hempty.mpr h), if_pos h, dropTrailing]
  · rw [if_neg (mt hempty.mp h), if_neg h, ← String.toList_inj, String.toList_append,
      toList_dropTrailing, String.toList_ofList, List.reverse_append, List.reverse_reverse]
    rfl

theorem dropTrailing_append_of_eq (hs : dropTrailing c s = s) (t : String) :
    dropTrailing c (s ++ t) = s ++ dropTrailing c t := by
  rw [dropTrailing_append]
  split_ifs with ht
  · rw [hs, ht, String.append_empty]
  · rfl

/-- Behind what is left stands only the character that was cut. -/
theorem exists_dropTrailing_append_eq (c : Char) (s : String) :
    ∃ ending, dropTrailing c s ++ ending = s ∧ ∀ d ∈ ending.toList, d = c := by
  refine ⟨String.ofList (s.toList.rtakeWhile (· == c)), ?_, ?_⟩
  · rw [← String.toList_inj, String.toList_append, toList_dropTrailing, String.toList_ofList,
      List.rdropWhile_append_rtakeWhile]
  · intro d hd
    rw [String.toList_ofList] at hd
    exact beq_iff_eq.mp (List.mem_rtakeWhile_imp (p := (· == c)) hd)

/-- Letters can be made small before or after slashes are cut, as no letter becomes a slash. -/
theorem lower_dropTrailing_slash (s : String) :
    lower (dropTrailing '/' s) = dropTrailing '/' (lower s) := by
  have hsame : ((· == '/') ∘ Char.toLower) = (· == '/') := by
    funext c
    rw [Bool.eq_iff_iff, Function.comp_apply, beq_iff_eq, beq_iff_eq, toLower_eq_slash_iff]
  rw [← String.toList_inj, toList_lower, toList_dropTrailing, toList_dropTrailing, toList_lower,
    List.rdropWhile, List.rdropWhile, ← List.map_reverse, List.dropWhile_map, hsame,
    List.map_reverse]

end Text

/-! ### Paths -/

section

variable {s t p q : String}

theorem isPath_of_forall_eq (h : ∀ c ∈ s.toList, c = '/') : IsPath s := by
  cases hs : s.toList with
  | nil => exact .inl (String.toList_inj.mp hs)
  | cons c cs =>
    obtain rfl : c = '/' := h c (hs ▸ List.mem_cons_self)
    have hrest : (String.ofList cs).toList = cs := String.toList_ofList
    refine .inr ⟨String.ofList cs, ?_⟩
    rw [← String.toList_inj, String.toList_append, hrest, hs]
    rfl

theorem IsPath.append (hp : IsPath p) (hq : IsPath q) : IsPath (p ++ q) := by
  rcases hp with rfl | ⟨rest, rfl⟩
  · rwa [String.empty_append]
  · exact .inr ⟨rest ++ q, String.append_assoc⟩

theorem IsPath.lower (hp : IsPath p) : IsPath (Text.lower p) := by
  rcases hp with rfl | ⟨rest, rfl⟩
  · exact .inl (Text.lower_eq_self rfl)
  · exact .inr ⟨Text.lower rest, by rw [Text.lower_append, Text.lower_eq_self (s := "/") rfl]⟩

theorem IsPath.dropTrailing (hp : IsPath p) : IsPath (Text.dropTrailing '/' p) := by
  rcases hp with rfl | ⟨rest, rfl⟩
  · exact .inl rfl
  · rw [Text.dropTrailing_append]
    split_ifs
    · exact .inl (by decide)
    · exact .inr ⟨_, rfl⟩

/-- The part before the path is what stands before the first slash. -/
theorem takeWhile_append_path (hs : '/' ∉ s.toList) (hp : IsPath p) :
    (s ++ p).toList.takeWhile (· != '/') = s.toList := by
  have hfirst : p.toList.takeWhile (· != '/') = [] := by
    rcases hp with rfl | ⟨rest, rfl⟩
    · rfl
    · rw [String.toList_append]
      rfl
  have hbefore : ∀ c ∈ s.toList, (c != '/') = true :=
    fun c hc => bne_iff_ne.mpr fun he => hs (he ▸ hc)
  rw [String.toList_append, List.takeWhile_append_of_pos hbefore, hfirst, List.append_nil]

theorem eq_of_append_path (hs : '/' ∉ s.toList) (ht : '/' ∉ t.toList) (hp : IsPath p)
    (hq : IsPath q) (h : s ++ p = t ++ q) : s = t ∧ p = q := by
  have hst : s = t := by
    rw [← String.toList_inj, ← takeWhile_append_path hs hp, h, takeWhile_append_path ht hq]
  subst hst
  exact ⟨rfl, (String.append_right_inj s).mp h⟩

/-- An address can be cut into scheme, host and path in one way only. -/
theorem eq_of_address_eq {scheme scheme' host host' : String} (hscheme : '/' ∉ scheme.toList)
    (hscheme' : '/' ∉ scheme'.toList) (hhost : '/' ∉ host.toList) (hhost' : '/' ∉ host'.toList)
    (hp : IsPath p) (hq : IsPath q)
    (h : scheme ++ "://" ++ host ++ p = scheme' ++ "://" ++ host' ++ q) :
    scheme = scheme' ∧ host = host' := by
  -- The first slash of the address is the one behind the colon.
  have hcut : ∀ a b c : String,
      a ++ "://" ++ b ++ c = (a ++ ":") ++ ("/" ++ ("/" ++ (b ++ c))) := by
    intro a b c
    rw [← String.toList_inj]
    simp
  have hcolon : ∀ {a : String}, '/' ∉ a.toList → '/' ∉ (a ++ ":").toList := by
    intro a ha
    rw [String.toList_append, List.mem_append, not_or]
    exact ⟨ha, by decide⟩
  rw [hcut, hcut] at h
  obtain ⟨hleft, hright⟩ := eq_of_append_path (hcolon hscheme) (hcolon hscheme')
    (.inr ⟨_, rfl⟩) (.inr ⟨_, rfl⟩) h
  have hrest := (String.append_right_inj _).mp ((String.append_right_inj _).mp hright)
  exact ⟨(String.append_left_inj _).mp hleft, (eq_of_append_path hhost hhost' hp hq hrest).1⟩

end

/-! ### What belongs to Cloud -/

section

variable {url path a s : String}

/-- Cutting slashes at the end does not change whether an address without such slashes stands in
front of a path. -/
theorem exists_dropTrailing_eq_append_iff (ha : Text.dropTrailing '/' a = a) :
    (∃ path, IsPath path ∧ Text.dropTrailing '/' s = a ++ path) ↔
      ∃ path, IsPath path ∧ s = a ++ path := by
  constructor
  · rintro ⟨path, hpath, h⟩
    obtain ⟨ending, hs, hending⟩ := Text.exists_dropTrailing_append_eq '/' s
    refine ⟨path ++ ending, hpath.append (isPath_of_forall_eq hending), ?_⟩
    rw [← String.append_assoc, ← h, hs]
  · rintro ⟨path, hpath, rfl⟩
    exact ⟨_, hpath.dropTrailing, Text.dropTrailing_append_of_eq ha path⟩

/-- Equality and a longer beginning are the two ways to stand in front of a path. -/
theorem eq_or_hasPrefix_iff :
    (s == a || Text.hasPrefix (a ++ "/") s) = true ↔ ∃ path, IsPath path ∧ s = a ++ path := by
  rw [Bool.or_eq_true, beq_iff_eq, Text.hasPrefix_iff]
  constructor
  · rintro (rfl | ⟨rest, rfl⟩)
    · exact ⟨"", .inl rfl, String.append_empty.symm⟩
    · exact ⟨"/" ++ rest, .inr ⟨rest, rfl⟩, String.append_assoc⟩
  · rintro ⟨path, rfl | ⟨rest, rfl⟩, rfl⟩
    · exact .inl String.append_empty
    · exact .inr ⟨rest, String.append_assoc.symm⟩

theorem dropTrailing_of_mem_cloudAddresses (ha : a ∈ cloudAddresses) :
    Text.dropTrailing '/' a = a := by
  have hall : ∀ a ∈ cloudAddresses, Text.dropTrailing '/' a = a := by decide
  exact hall a ha

/-- The test, given the address in small letters. -/
theorem isCloudUrl_eq_lower (url : String) :
    isCloudUrl url = cloudAddresses.any fun a =>
      Text.dropTrailing '/' (Text.lower url) == a ||
        Text.hasPrefix (a ++ "/") (Text.dropTrailing '/' (Text.lower url)) := by
  rw [isCloudUrl, Text.lower_dropTrailing_slash]

theorem isCloudUrl_iff :
    isCloudUrl url = true ↔
      ∃ a ∈ cloudAddresses, ∃ path, IsPath path ∧ Text.lower url = a ++ path := by
  rw [isCloudUrl_eq_lower, List.any_eq_true]
  refine exists_congr fun a => and_congr_right fun ha => ?_
  rw [eq_or_hasPrefix_iff]
  exact exists_dropTrailing_eq_append_iff (dropTrailing_of_mem_cloudAddresses ha)

theorem isCloudUrl_append_slashes (hs : ∀ c ∈ s.toList, c = '/') :
    isCloudUrl (url ++ s) = isCloudUrl url := by
  rw [isCloudUrl, isCloudUrl, Text.dropTrailing_append,
    if_pos (Text.dropTrailing_eq_empty_iff.mpr hs)]

theorem isCloudUrl_append_path (h : isCloudUrl url = true) (hpath : IsPath path) :
    isCloudUrl (url ++ path) = true := by
  obtain ⟨a, ha, p, hp, hurl⟩ := isCloudUrl_iff.mp h
  refine isCloudUrl_iff.mpr ⟨a, ha, p ++ Text.lower path, hp.append hpath.lower, ?_⟩
  rw [Text.lower_append, hurl, String.append_assoc]

variable {scheme host before after : String}

theorem lower_address (scheme host path : String) :
    Text.lower (scheme ++ "://" ++ host ++ path) =
      Text.lower scheme ++ "://" ++ Text.lower host ++ Text.lower path := by
  rw [Text.lower_append, Text.lower_append, Text.lower_append, Text.lower_eq_self (s := "://") rfl]

/-- Whether an address belongs to Cloud is told by its scheme and its host, to which a port counts
as well. -/
theorem isCloudUrl_address_iff (hscheme : '/' ∉ scheme.toList) (hhost : '/' ∉ host.toList)
    (hpath : IsPath path) :
    isCloudUrl (scheme ++ "://" ++ host ++ path) = true ↔
      (Text.lower scheme = "http" ∨ Text.lower scheme = "https") ∧
        Text.lower host = "bitbucket.org" := by
  have hschemeLower := mt (Text.slash_mem_lower_iff scheme).mp hscheme
  have hhostLower := mt (Text.slash_mem_lower_iff host).mp hhost
  -- Each address of Cloud is cut in the same way.
  have hparts : ∀ known p : String, '/' ∉ known.toList → IsPath p →
      Text.lower scheme ++ "://" ++ Text.lower host ++ Text.lower path =
        known ++ "://" ++ "bitbucket.org" ++ p →
      Text.lower scheme = known ∧ Text.lower host = "bitbucket.org" := by
    intro known p hknown hp
    exact eq_of_address_eq hschemeLower hknown hhostLower (by decide) hpath.lower hp
  rw [isCloudUrl_iff, lower_address]
  constructor
  · rintro ⟨a, ha, p, hp, h⟩
    rcases List.mem_pair.mp ha with rfl | rfl
    · obtain ⟨hknown, hcloud⟩ := hparts "https" p (by decide) hp h
      exact ⟨.inr hknown, hcloud⟩
    · obtain ⟨hknown, hcloud⟩ := hparts "http" p (by decide) hp h
      exact ⟨.inl hknown, hcloud⟩
  · rintro ⟨hknown | hknown, hcloud⟩
    · exact ⟨"http://bitbucket.org", by decide, Text.lower path, hpath.lower,
        by rw [hknown, hcloud]; rfl⟩
    · exact ⟨"https://bitbucket.org", by decide, Text.lower path, hpath.lower,
        by rw [hknown, hcloud]; rfl⟩

/-- Nothing may stand before or behind the host of Cloud. -/
theorem eq_empty_of_isCloudUrl (hscheme : '/' ∉ scheme.toList) (hbefore : '/' ∉ before.toList)
    (hafter : '/' ∉ after.toList) (hpath : IsPath path)
    (h : isCloudUrl (scheme ++ "://" ++ (before ++ "bitbucket.org" ++ after) ++ path) = true) :
    before = "" ∧ after = "" := by
  have hhost : '/' ∉ (before ++ "bitbucket.org" ++ after).toList := by
    simp only [String.toList_append, List.mem_append, not_or]
    exact ⟨⟨hbefore, by decide⟩, hafter⟩
  have hcloud := ((isCloudUrl_address_iff hscheme hhost hpath).mp h).2
  -- The host is as long as the one of Cloud, which it holds.
  have hlength := congrArg (fun s : String => s.toList.length) hcloud
  simp only [Text.toList_lower, List.length_map, String.toList_append,
    List.length_append] at hlength
  have hnone : before.toList.length = 0 ∧ after.toList.length = 0 := by omega
  exact ⟨String.toList_inj.mp (List.length_eq_zero_iff.mp hnone.1),
    String.toList_inj.mp (List.length_eq_zero_iff.mp hnone.2)⟩

end

/-- An address belongs to Cloud exactly if in small letters it is one of the two addresses of Cloud,
followed by nothing or by a text that begins with a slash. So neither the case of letters nor
slashes at its end count, and any path may follow. Of an address with a host, scheme and host alone
decide, and a host of which the one of Cloud is a part must be that one. -/
theorem cloudUrls_recognised (url : String) :
    (isCloudUrl url = true ↔ ∃ path, IsPath path ∧
      (Text.lower url = "http://bitbucket.org" ++ path ∨
        Text.lower url = "https://bitbucket.org" ++ path)) ∧
    (∀ url', Text.sameLetters url url' = true → isCloudUrl url' = isCloudUrl url) ∧
    (∀ slashes : String, (∀ c ∈ slashes.toList, c = '/') →
      isCloudUrl (url ++ slashes) = isCloudUrl url) ∧
    (∀ path, isCloudUrl url = true → IsPath path → isCloudUrl (url ++ path) = true) ∧
    (∀ scheme host path, '/' ∉ scheme.toList → '/' ∉ host.toList → IsPath path →
      url = scheme ++ "://" ++ host ++ path →
      (isCloudUrl url = true ↔ (Text.lower scheme = "http" ∨ Text.lower scheme = "https") ∧
        Text.lower host = "bitbucket.org")) ∧
    ∀ scheme before after path, '/' ∉ scheme.toList → '/' ∉ before.toList → '/' ∉ after.toList →
      IsPath path → url = scheme ++ "://" ++ (before ++ "bitbucket.org" ++ after) ++ path →
      isCloudUrl url = true → before = "" ∧ after = "" := by
  refine ⟨?_, ?_, fun slashes => isCloudUrl_append_slashes, fun path => isCloudUrl_append_path,
    ?_, ?_⟩
  · rw [isCloudUrl_iff]
    constructor
    · rintro ⟨a, ha, path, hpath, hurl⟩
      rcases List.mem_pair.mp ha with rfl | rfl
      · exact ⟨path, hpath, .inr hurl⟩
      · exact ⟨path, hpath, .inl hurl⟩
    · rintro ⟨path, hpath, hurl | hurl⟩
      · exact ⟨_, List.mem_cons_of_mem _ List.mem_cons_self, path, hpath, hurl⟩
      · exact ⟨_, List.mem_cons_self, path, hpath, hurl⟩
  · intro url' hsame
    rw [isCloudUrl_eq_lower, isCloudUrl_eq_lower, Text.sameLetters_iff.mp hsame]
  · rintro scheme host path hscheme hhost hpath rfl
    exact isCloudUrl_address_iff hscheme hhost hpath
  · rintro scheme before after path hscheme hbefore hafter hpath rfl h
    exact eq_empty_of_isCloudUrl hscheme hbefore hafter hpath h

/-- Capitals, slashes at the end and a path do no harm, while a longer host is another one: with a
domain or a port behind the host of Cloud, or with a name in front of it. -/
theorem cloudUrls_recognised_lookalikes :
    isCloudUrl "HTTPS://Bitbucket.org" = true ∧ isCloudUrl "https://bitbucket.org" = true ∧
      isCloudUrl "HTTPS://Bitbucket.org//" = true ∧
      isCloudUrl "HTTPS://Bitbucket.org/team" = true ∧
      isCloudUrl "https://bitbucket.org.example.com" = false ∧
      isCloudUrl "https://bitbucket.org:443/team" = false ∧
      isCloudUrl "https://www.bitbucket.org/" = false := by
  obtain ⟨-, hletters, hslashes, hbelow, haddress, -⟩ :=
    cloudUrls_recognised "HTTPS://Bitbucket.org"
  have hcloud : isCloudUrl "HTTPS://Bitbucket.org" = true :=
    (haddress "HTTPS" "Bitbucket.org" "" (by decide) (by decide) (.inl rfl) rfl).mpr
      ⟨.inr (by decide +kernel), by decide +kernel⟩
  have hsame : Text.sameLetters "HTTPS://Bitbucket.org" "https://bitbucket.org" = true :=
    Text.sameLetters_iff_toList.mpr (by decide +kernel)
  have hmore : isCloudUrl "HTTPS://Bitbucket.org//" = isCloudUrl "HTTPS://Bitbucket.org" :=
    hslashes "//" (by simp)
  obtain ⟨-, -, -, -, -, hdomain⟩ := cloudUrls_recognised "https://bitbucket.org.example.com"
  obtain ⟨-, -, -, -, -, hport⟩ := cloudUrls_recognised "https://bitbucket.org:443/team"
  obtain ⟨-, -, -, -, -, hname⟩ := cloudUrls_recognised "https://www.bitbucket.org/"
  refine ⟨hcloud, (hletters _ hsame).trans hcloud, hmore.trans hcloud,
    hbelow "/team" hcloud (.inr ⟨"team", rfl⟩), ?_, ?_, ?_⟩
  · refine Bool.eq_false_iff.mpr fun h => ?_
    exact absurd (hdomain "https" "" ".example.com" "" (by decide) (by decide) (by decide)
      (.inl rfl) rfl h).2 (by decide)
  · refine Bool.eq_false_iff.mpr fun h => ?_
    exact absurd (hport "https" "" ":443" "/team" (by decide) (by decide) (by decide)
      (.inr ⟨"team", rfl⟩) rfl h).2 (by decide)
  · refine Bool.eq_false_iff.mpr fun h => ?_
    exact absurd (hname "https" "www." "" "/" (by decide) (by decide) (by decide)
      (.inr ⟨"", rfl⟩) rfl h).1 (by decide)

end HeadScout
