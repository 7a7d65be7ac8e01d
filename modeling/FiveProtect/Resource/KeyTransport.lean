import FiveProtect.Lib.Url
import FiveProtect.Resource.Http

/-!
# The connection the server key travels on

`Config.validate` compares the start of the URL with patterns, and `Http.request` sends the server key to the
host of the URL.

* `RequestPath`       the paths that are appended to the URL;
* `Guarded`           the URL is an https one, or its host is the local machine;
* `Closed`            what may stand behind the name that the patterns found;
* `guarded_iff`       so for every request of an accepted configuration.
-/

namespace Resource
open LuaPattern

/-- the bytes of an ASCII text -/
def ascii (text : String) : Bytes := text.toList.map byteOf

/-- what the callers of `Http.request` pass as the path -/
inductive RequestPath : Bytes → Prop where
  | nonce : RequestPath (Text.utf8 "/v1/sessions/nonce")
  | verdict : RequestPath (Text.utf8 "/v1/sessions/verdict")
  | liveness (sessionId : Bytes) :
    RequestPath (Text.utf8 "/v1/sessions/" ++ sessionId ++ Text.utf8 "/liveness")

theorem RequestPath.head {path : Bytes} (h : RequestPath path) : path.head? = some (byteOf '/') := by
  cases h with
  | nonce => decide
  | verdict => decide
  | liveness sessionId =>
    have hstart : Text.utf8 "/v1/sessions/" = byteOf '/' :: Text.utf8 "v1/sessions/" := by decide
    rw [hstart]
    rfl

/-! ## hosts -/

/-- the names of the local machine -/
def localNames : List Bytes := [ascii "127.0.0.1", ascii "localhost"]

/-- the URL is an https one, or its host is the local machine -/
def Guarded (url : Bytes) : Prop :=
  ∃ parts, Url.read byteOf url = some parts ∧
    (parts.scheme = ascii "https" ∨ parts.host ∈ localNames)

/-- up to the end of the authority there is nothing, a port, or, after the last `@`, the local machine again -/
def Closed (rest : Bytes) : Prop :=
  Url.IsPort byteOf (Url.authorityOf byteOf rest) ∨
  ∃ userinfo, ∃ name ∈ localNames, ∃ port, Url.IsPort byteOf port ∧
    Url.authorityOf byteOf rest = userinfo ++ byteOf '@' :: (name ++ port)

theorem localNames_plain : ∀ name ∈ localNames, byteOf ':' ∉ name ∧ byteOf '@' ∉ name ∧
    ∀ b ∈ name, (!Url.endsAuthority byteOf b) = true := by
  have hall : (localNames.all fun name => !name.contains (byteOf ':') && !name.contains (byteOf '@') &&
      name.all fun b => !Url.endsAuthority byteOf b) = true := by decide
  intro name h
  have hname := List.all_eq_true.mp hall name h
  simp only [Bool.and_eq_true, Bool.not_eq_true', List.contains_eq_mem, decide_eq_false_iff_not,
    List.all_eq_true] at hname ⊢
  exact ⟨hname.1.1, hname.1.2, hname.2⟩

/-- no local name is the start of another one -/
theorem localNames_apart {name name' : Bytes} (h : name ∈ localNames) (h' : name' ∈ localNames)
    {rest rest' : Bytes} (heq : name ++ rest = name' ++ rest') : name = name' := by
  have hheads : ∀ a ∈ localNames, ∀ b ∈ localNames, a.head? = b.head? → a = b := by decide
  have hsome : ∀ a ∈ localNames, a ≠ [] := by decide
  apply hheads name h name' h'
  have hhead := congrArg List.head? heq
  rwa [List.head?_append_of_ne_nil _ (hsome name h), List.head?_append_of_ne_nil _ (hsome name' h')] at hhead

theorem port_no_at {port : Bytes} (h : Url.IsPort byteOf port) : byteOf '@' ∉ port := by
  rcases h with rfl | ⟨digits, rfl, hdigits⟩
  · exact List.not_mem_nil
  · intro hmem
    rcases List.mem_cons.mp hmem with hat | hmem
    · exact absurd hat (by decide)
    · exact absurd (List.all_eq_true.mp hdigits _ hmem) (by decide)

/-- the host of what follows the userinfo is local -/
theorem cutPort_local {rest : Bytes} : (Url.cutPort byteOf rest).1 ∈ localNames ↔
    ∃ name ∈ localNames, ∃ port, Url.IsPort byteOf port ∧ rest = name ++ port := by
  constructor
  · intro h
    obtain ⟨port, hrest, hport⟩ :=
      (Url.cutPort_host byteOf (localNames_plain _ h).1 (by decide) rest).mp rfl
    exact ⟨_, h, port, hport, hrest⟩
  · rintro ⟨name, h, port, hport, hrest⟩
    rwa [(Url.cutPort_host byteOf (localNames_plain _ h).1 (by decide) rest).mpr ⟨port, hrest, hport⟩]

/-- the host of an authority that starts with a local name -/
theorem host_iff {name : Bytes} (h : name ∈ localNames) (rest : Bytes) :
    (Url.ofAuthority byteOf (ascii "http") (name ++ Url.authorityOf byteOf rest)).host ∈ localNames ↔
      Closed rest := by
  unfold Url.ofAuthority Closed
  dsimp only
  rw [cutPort_local]
  by_cases hat : byteOf '@' ∈ Url.authorityOf byteOf rest
  · obtain ⟨userinfo, last, hcut, hlast⟩ := Url.exists_last hat
    have hjoin : name ++ Url.authorityOf byteOf rest = (name ++ userinfo) ++ byteOf '@' :: last := by
      rw [hcut, List.append_assoc]
    rw [hjoin, Url.cutUserinfo_last byteOf hlast, hcut]
    constructor
    · rintro ⟨name', h', port, hport, heq⟩
      have hrest : last = name' ++ port := heq
      exact .inr ⟨userinfo, name', h', port, hport, by rw [hrest]⟩
    · rintro (hport | ⟨userinfo', name', h', port, hport, heq⟩)
      · exact absurd (List.mem_append_right _ List.mem_cons_self) (port_no_at hport)
      · have hlast' : byteOf '@' ∉ name' ++ port := by
          rw [List.mem_append, not_or]
          exact ⟨(localNames_plain name' h').2.1, port_no_at hport⟩
        have hsame := Url.splitLast_eq hlast userinfo
        rw [heq, Url.splitLast_eq hlast'] at hsame
        have hrest : last = name' ++ port := (Prod.mk.inj (Option.some.inj hsame)).2.symm
        exact ⟨name', h', port, hport, hrest⟩
  · have hnone : byteOf '@' ∉ name ++ Url.authorityOf byteOf rest := by
      rw [List.mem_append, not_or]
      exact ⟨(localNames_plain name h).2.1, hat⟩
    rw [Url.cutUserinfo_none byteOf hnone]
    constructor
    · rintro ⟨name', h', port, hport, heq⟩
      have hname := localNames_apart h h' heq
      have hrest : name ++ Url.authorityOf byteOf rest = name' ++ port := heq
      rw [hname, List.append_cancel_left_eq] at hrest
      exact .inl (hrest ▸ hport)
    · rintro (hport | ⟨userinfo, name', -, port, -, heq⟩)
      · exact ⟨name, h, _, hport, rfl⟩
      · exact absurd (heq ▸ List.mem_append_right _ List.mem_cons_self) hat

/-! ## requests -/

theorem perform_url {config : Config} {encode : LuaValue → Option Bytes} {r : Request} {p : Perform}
    (h : Http.perform config encode r = some p) : p.url = config.backendUrl ++ r.path := by
  obtain ⟨data, -, rfl⟩ := Option.map_eq_some_iff.mp h
  rfl

/-- a request without a body, which is always sent -/
theorem perform_bare (config : Config) (path : Bytes) :
    ∃ p, Http.perform config (fun _ => none) ⟨"GET", path, none, 10⟩ = some p :=
  ⟨_, rfl⟩

theorem guarded_https (rest : Bytes) : Guarded (ascii "https://" ++ rest) := by
  have hstart : ascii "https://" = ascii "https" ++ [byteOf ':', byteOf '/', byteOf '/'] := by decide
  rw [hstart, List.append_assoc]
  exact ⟨_, Url.read_scheme byteOf (by decide) rest, .inl rfl⟩

/-- where the key goes from a URL that starts with a local name -/
theorem guarded_local {name path : Bytes} (h : name ∈ localNames) (hpath : RequestPath path)
    (rest : Bytes) : Guarded (ascii "http://" ++ name ++ rest ++ path) ↔ Closed rest := by
  have hstart : ascii "http://" = ascii "http" ++ [byteOf ':', byteOf '/', byteOf '/'] := by decide
  have hread : Url.read byteOf (ascii "http://" ++ name ++ rest ++ path) =
      some (Url.ofAuthority byteOf (ascii "http") (name ++ Url.authorityOf byteOf rest)) := by
    rw [hstart, List.append_assoc, List.append_assoc, List.append_assoc]
    refine (Url.read_scheme byteOf (by decide) _).trans ?_
    show some (Url.ofAuthority byteOf _ (Url.authorityOf byteOf (name ++ (rest ++ path)))) = _
    rw [Url.authorityOf_plain byteOf (localNames_plain name h).2.2,
      Url.authorityOf_append byteOf hpath.head]
  rw [← host_iff h]
  unfold Guarded
  rw [hread]
  constructor
  · rintro ⟨parts, hparts, hguard⟩
    cases hparts
    have hscheme : ascii "http" ≠ ascii "https" := by decide
    exact hguard.resolve_left hscheme
  · exact fun hhost => ⟨_, rfl, .inr hhost⟩

/-- the server key never travels in the clear, unless something else than a port stands behind the name of the
local machine -/
theorem guarded_iff {config : Config} (hvalid : config.validate = .ok ()) :
    (∀ (encode : LuaValue → Option Bytes) (r : Request) (p : Perform), RequestPath r.path →
      Http.perform config encode r = some p → Guarded p.url) ↔
    (∃ rest, config.backendUrl = ascii "https://" ++ rest) ∨
    ∃ name ∈ localNames, ∃ rest, config.backendUrl = ascii "http://" ++ name ++ rest ∧ Closed rest := by
  constructor
  · intro hall
    obtain ⟨p, hp⟩ := perform_bare config (Text.utf8 "/v1/sessions/nonce")
    have hguard := hall _ _ p .nonce hp
    rw [perform_url hp] at hguard
    have hclosed : ∀ name ∈ localNames, ∀ rest, config.backendUrl = ascii "http://" ++ name ++ rest →
        ∃ name ∈ localNames, ∃ rest, config.backendUrl = ascii "http://" ++ name ++ rest ∧ Closed rest := by
      intro name h rest heq
      rw [heq] at hguard
      exact ⟨name, h, rest, heq, (guarded_local h .nonce rest).mp hguard⟩
    rcases (Config.validate_ok.mp hvalid).2.2 with h | ⟨rest, h⟩ | ⟨rest, h⟩
    · exact .inl h
    · exact .inr (hclosed (ascii "127.0.0.1") (by decide) rest h)
    · exact .inr (hclosed (ascii "localhost") (by decide) rest h)
  · rintro (⟨rest, h⟩ | ⟨name, hname, rest, h, hclosed⟩)
    · intro encode r p _ hp
      rw [perform_url hp, h, List.append_assoc]
      exact guarded_https _
    · intro encode r p hpath hp
      rw [perform_url hp, h]
      exact (guarded_local hname hpath rest).mpr hclosed

/-- a backend on the machine itself -/
def localBackend (url : String) : Config :=
  ⟨ascii url, ascii "server", ascii "key", true, 25, 30, false⟩

theorem guarded_development :
    (localBackend "http://localhost:8080").validate = .ok () ∧
    ∃ p, Http.perform (localBackend "http://localhost:8080") (fun _ => none)
      ⟨"GET", Text.utf8 "/v1/sessions/nonce", none, 10⟩ = some p ∧ Guarded p.url := by
  have hvalid : (localBackend "http://localhost:8080").validate = .ok () := by decide +kernel
  have hport : Closed (ascii ":8080") := .inl (.inr ⟨ascii "8080", by decide, by decide⟩)
  obtain ⟨p, hp⟩ := perform_bare (localBackend "http://localhost:8080") (Text.utf8 "/v1/sessions/nonce")
  refine ⟨hvalid, p, hp, (guarded_iff hvalid).mpr ?_ _ _ p .nonce hp⟩
  exact .inr ⟨ascii "localhost", by decide, ascii ":8080", by decide, hport⟩

/-- the name of another machine that starts like a local one -/
theorem key_in_the_clear :
    (localBackend "http://localhost.example").validate = .ok () ∧
    ∃ p, Http.perform (localBackend "http://localhost.example") (fun _ => none)
      ⟨"GET", Text.utf8 "/v1/sessions/nonce", none, 10⟩ = some p ∧ ¬Guarded p.url := by
  refine ⟨by decide +kernel, ?_⟩
  obtain ⟨p, hp⟩ := perform_bare (localBackend "http://localhost.example") (Text.utf8 "/v1/sessions/nonce")
  refine ⟨p, hp, fun hguard => ?_⟩
  rw [perform_url hp] at hguard
  have hauthority : Url.authorityOf byteOf (ascii ".example") = ascii ".example" := by decide
  have hclosed : Closed (ascii ".example") :=
    (guarded_local (show ascii "localhost" ∈ localNames by decide) .nonce (ascii ".example")).mp hguard
  unfold Closed at hclosed
  rw [hauthority] at hclosed
  rcases hclosed with (h | ⟨digits, h, -⟩) | ⟨userinfo, name, -, port, -, h⟩
  · exact absurd h (by decide)
  · have hhead : (ascii ".example").head? ≠ some (byteOf ':') := by decide
    exact absurd (congrArg List.head? h) hhead
  · have hat : byteOf '@' ∉ ascii ".example" := by decide
    exact absurd (h ▸ List.mem_append_right _ List.mem_cons_self) hat

end Resource
