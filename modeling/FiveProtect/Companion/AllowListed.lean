import FiveProtect.Companion.Client
import FiveProtect.Lib.Url

/-!
# An allowed backend has the parts of an entry of the list

`origin_of` cuts a URL up with operations on its text.  What it keeps of the text is enough: two URLs of one
origin have the same scheme, userinfo, host and port, read as RFC 3986 reads them.

* `read_of_originOf`      the parts of a URL are those of its origin;
* `SameParts`             two URLs have the same parts, up to letter case;
* `attest_same_parts`     so every command that is taken names an entry of the list.
-/

namespace Companion
open Protocol

/-! ## origins and parts -/

/-- lowering the letters moves no delimiter -/
theorem keeps_toLower : Url.Keeps id Char.toLower := by
  have hfixed : ((':' :: '/' :: '?' :: '#' :: '@' :: Url.digits).all fun d =>
      d.toLower == d && !decide ('a'.val ≤ d.val ∧ d.val ≤ 'z'.val)) = true := by decide
  intro d hd c
  have hall := List.all_eq_true.mp hfixed d hd
  rw [Bool.and_eq_true, beq_iff_eq, Bool.not_eq_true', decide_eq_false_iff_not] at hall
  obtain ⟨hlower, hletter⟩ := hall
  show c.toLower = d ↔ c = d
  constructor
  · intro h
    unfold Char.toLower at h
    split at h
    · rename_i hupper
      refine absurd ?_ hletter
      rw [← congrArg Char.val h]
      simp only [ge_iff_le, UInt32.le_iff_toNat_le, UInt32.toNat_add] at hupper ⊢
      have hA : 'A'.val.toNat = 65 := rfl
      have hZ : 'Z'.val.toNat = 90 := rfl
      have ha : 'a'.val.toNat = 97 := rfl
      have hz : 'z'.val.toNat = 122 := rfl
      have hgap : ('a'.val - 'A'.val).toNat = 32 := rfl
      omega
    · exact h
  · intro h
    rw [h, hlower]

theorem authorityOf_eq (rest : List Char) :
    Url.authorityOf id rest = rest.takeWhile fun c => !endsAuthority c := by
  unfold Url.authorityOf Url.endsAuthority endsAuthority
  simp only [id_eq, Bool.beq_eq_decide_eq]

/-- the parts of a URL, in small letters, are those of the text that starts with its scheme -/
theorem read_lowered {text scheme rest : List Char} (hscheme : ':' ∉ scheme)
    (h : text.map Char.toLower = scheme ++ ':' :: '/' :: '/' :: rest) :
    ∃ parts, Url.read id text = some parts ∧
      parts.map Char.toLower = Url.ofAuthority id scheme (Url.authorityOf id rest) := by
  have hread : Url.read id (scheme ++ ':' :: '/' :: '/' :: rest) =
      some (Url.ofAuthority id scheme (Url.authorityOf id rest)) := Url.read_scheme id hscheme rest
  rw [← h, Url.read_map keeps_toLower] at hread
  exact Option.map_eq_some_iff.mp hread

/-- the parts of a URL, in small letters, are those of its origin -/
theorem read_of_originOf {url o : String} (h : originOf url = some o) :
    ∃ scheme authority parts, ':' ∉ scheme ∧ o.toList = scheme ++ ':' :: '/' :: '/' :: authority ∧
      Url.read id (trim url.toList) = some parts ∧
      parts.map Char.toLower = Url.ofAuthority id scheme authority := by
  unfold originOf at h
  obtain ⟨⟨scheme, rest⟩, hrest, horigin⟩ := Option.bind_eq_some_iff.mp h
  dsimp only at horigin
  split at horigin
  · cases horigin
  · cases horigin
    have htext : ':' ∉ scheme.toList ∧
        (trim url.toList).map Char.toLower = scheme.toList ++ ':' :: '/' :: '/' :: rest := by
      rcases Option.or_eq_some_iff.mp hrest with hrest | ⟨-, hrest⟩
      all_goals
        obtain ⟨rest', hrest, heq⟩ := Option.map_eq_some_iff.mp hrest
        cases heq
        exact ⟨by decide, (List.append_eq_of_isPrefixOf?_eq_some hrest).symm.trans rfl⟩
    obtain ⟨parts, hread, hparts⟩ := read_lowered htext.1 htext.2
    refine ⟨scheme.toList, rest.takeWhile fun c => !endsAuthority c, parts, htext.1, ?_, hread, ?_⟩
    · have hslashes : "://".toList = [':', '/', '/'] := by decide
      rw [String.toList_append, String.toList_append, hslashes, String.toList_ofList, List.append_assoc]
      rfl
    · rw [hparts, authorityOf_eq]

/-- both are URLs, with the same parts up to letter case -/
def SameParts (url entry : String) : Prop :=
  ∃ left right, Url.read id (trim url.toList) = some left ∧ Url.read id (trim entry.toList) = some right ∧
    left.map Char.toLower = right.map Char.toLower

theorem SameOrigin.parts {url entry : String} (h : SameOrigin url entry) : SameParts url entry := by
  obtain ⟨o, hurl, hentry⟩ := h
  obtain ⟨scheme, authority, left, hscheme, ho, hleft, hparts⟩ := read_of_originOf hurl
  obtain ⟨scheme', authority', right, hscheme', ho', hright, hparts'⟩ := read_of_originOf hentry
  refine ⟨left, right, hleft, hright, ?_⟩
  rw [hparts, hparts']
  have htext := ho.symm.trans ho'
  have hcut : ∀ {scheme : List Char}, ':' ∉ scheme → ∀ c ∈ scheme, decide (c ≠ ':') = true := by
    intro scheme h c hc
    exact decide_eq_true fun heq => h (heq ▸ hc)
  have hsame : scheme = scheme' := by
    have htake := congrArg (List.takeWhile fun c => decide (c ≠ ':')) htext
    rw [List.takeWhile_append_of_pos (hcut hscheme), List.takeWhile_append_of_pos (hcut hscheme')] at htake
    simpa using htake
  rw [hsame, List.append_cancel_left_eq] at htext
  rw [hsame, (List.cons.inj (List.cons.inj (List.cons.inj htext).2).2).2]

/-! ## the endpoint and the updater -/

/-- a path is the route, with slashes after it -/
theorem path_of_trimEnd {path route : String} (h : trimEndSlashes path = route) :
    ∃ n, path.toList = route.toList ++ List.replicate n '/' := by
  refine ⟨(path.toList.rtakeWhile (· == '/')).length, ?_⟩
  rw [← h]
  unfold trimEndSlashes
  rw [String.toList_ofList]
  have hslashes : path.toList.rtakeWhile (· == '/') =
      List.replicate (path.toList.rtakeWhile (· == '/')).length '/' :=
    List.eq_replicate_of_mem fun c hc => eq_of_beq (List.mem_rtakeWhile_imp (p := (· == '/')) hc)
  rw [← hslashes]
  exact (List.rdropWhile_append_rtakeWhile (p := (· == '/'))).symm

/-- **What is allow-listed has the same origin.** -/
theorem attest_same_parts :
    (∀ (parse : String → Option Json) (method path body : String) (allowed : List String)
      (command : LocalAttestCommand), handleRequest parse method path body allowed = .ok command →
      (method.toList.map Char.toLower = "post".toList ∧
        ∃ n, path.toList = "/attest".toList ++ List.replicate n '/') ∧
      (∃ typed, (parse body).bind (Rust.decode Schema.LocalAttestCommand) = some typed ∧
        Rust.validate Schema.LocalAttestCommand typed "" = .ok () ∧ command = .ofTyped typed) ∧
      command.protocolVersion = protocolVersion ∧
      ∃ entry ∈ allowed, SameParts command.backendUrl entry) ∧
    ∀ url origin, isSameOrigin url origin = true → SameParts url origin := by
  constructor
  · intro parse method path body allowed command h
    obtain ⟨⟨hmethod, hpath⟩, htyped, hversion, entry, hentry, o, hleft, hright⟩ := handleRequest_ok.mp h
    have hpost : method.toList.map Char.toLower = "post".toList :=
      (eq_of_beq hmethod).trans (by decide)
    exact ⟨⟨hpost, path_of_trimEnd hpath⟩, htyped, hversion, entry, hentry,
      SameOrigin.parts ⟨o, hright, hleft⟩⟩
  · intro url origin h
    exact (isSameOrigin_iff.mp h).parts

/-- what the built-in list lets through, and where an update may come from -/
theorem attest_same_parts_production :
    SameParts "https://api.fiveprotect.dev" "https://api.fiveprotect.dev" ∧
    SameParts "HTTPS://Api.FiveProtect.dev/update" "https://api.fiveprotect.dev" := by
  obtain ⟨-, -, -, entry, hentry, hparts⟩ := attest_same_parts.1 _ _ _ _ _ _
    (accepted_production (List.mem_singleton_self "https://api.fiveprotect.dev"))
  rw [List.mem_singleton.mp hentry] at hparts
  exact ⟨hparts, attest_same_parts.2 _ _ (by decide +kernel)⟩

end Companion
