import FiveProtect.Lib.LuaPattern

/-!
# Resource: configuration

`resources/fiveprotect/shared/config.lua`: what the convars of a server come to, and `Config.validate`.

* `validate_ok`   what an accepted URL starts with.
-/

namespace Resource
open LuaPattern

/-- what `server.cfg` sets -/
structure Convars where
  text : String → Option Bytes
  int : String → Option Int

namespace Convars

/-- `GetConvar(name, default)` -/
def getConvar (c : Convars) (name : String) (default : String) : Bytes :=
  (c.text name).getD (Text.utf8 default)

/-- `GetConvarInt(name, default)` -/
def getConvarInt (c : Convars) (name : String) (default : Int) : Int := (c.int name).getD default

/-- nothing is set -/
def unset : Convars := ⟨fun _ => none, fun _ => none⟩

end Convars

structure Config where
  backendUrl : Bytes
  serverId : Bytes
  serverKey : Bytes
  failOpenWhenBackendUnreachable : Bool
  verdictTimeoutSeconds : Int
  livenessIntervalSeconds : Int
  verbose : Bool

namespace Config

def load (c : Convars) : Config where
  backendUrl := c.getConvar "fiveprotect_backend" "https://api.fiveprotect.dev"
  serverId := c.getConvar "fiveprotect_server_id" ""
  serverKey := c.getConvar "fiveprotect_server_key" ""
  failOpenWhenBackendUnreachable := c.getConvarInt "fiveprotect_fail_open" 1 == 1
  verdictTimeoutSeconds := c.getConvarInt "fiveprotect_verdict_timeout" 25
  livenessIntervalSeconds := c.getConvarInt "fiveprotect_liveness_interval" 30
  verbose := c.getConvarInt "fiveprotect_verbose" 0 == 1

/-- a pattern of literal characters, anchored at the start -/
def literally (text : String) : Pattern := ⟨text.toList.flatMap lit, false⟩

/-- `'^https?://'` -/
def httpUrl : Pattern :=
  ⟨"http".toList.flatMap lit ++ (.char 's', .opt) :: "://".toList.flatMap lit, false⟩

/-- `Config.validate`, with what is wrong -/
def validate (config : Config) : Except String Unit :=
  if config.serverId = [] then .error "fiveprotect_server_id is not set"
  else if config.serverKey = [] then .error "fiveprotect_server_key is not set"
  else if !test httpUrl config.backendUrl then
    .error "fiveprotect_backend must be an http or https URL"
  -- the server key travels on this connection
  else if test (literally "http://") config.backendUrl &&
      !test (literally "http://127.0.0.1") config.backendUrl &&
      !test (literally "http://localhost") config.backendUrl then
    .error "fiveprotect_backend must use https outside of local development"
  else .ok ()

/-! ## what the patterns let through -/

theorem test_literally {text : String} {s : Bytes} :
    test (literally text) s = true ↔ ∃ rest, s = text.toList.map byteOf ++ rest := by
  show matchItems false (text.toList.flatMap lit) s = true ↔ _
  rw [← List.append_nil (text.toList.flatMap lit), matchItems_lits]
  exact exists_congr fun rest => and_iff_left rfl

theorem test_httpUrl {s : Bytes} : test httpUrl s = true ↔
    (∃ rest, s = "http://".toList.map byteOf ++ rest) ∨
      ∃ rest, s = "https://".toList.map byteOf ++ rest := by
  have hslashes : ∀ t, matchItems false ("://".toList.flatMap lit) t = true ↔
      ∃ rest, t = "://".toList.map byteOf ++ rest := by
    intro t
    show test (literally "://") t = true ↔ _
    exact test_literally
  have hcolon : "://".toList.map byteOf = [58, 47, 47] := by decide
  show matchItems false ("http".toList.flatMap lit ++ (.char 's', .opt) :: "://".toList.flatMap lit) s =
    true ↔ _
  rw [matchItems_lits]
  constructor
  · rintro ⟨t, rfl, h⟩
    cases t with
    | nil => cases h
    | cons b t =>
      rw [matchItems, Bool.or_eq_true, Bool.and_eq_true, hslashes, hslashes] at h
      rcases h with ⟨hb, rest, rfl⟩ | ⟨rest, hrest⟩
      · exact .inr ⟨rest, by rw [eq_of_beq hb]; rfl⟩
      · exact .inl ⟨rest, by rw [hrest]; rfl⟩
  · rintro (⟨rest, rfl⟩ | ⟨rest, rfl⟩)
    · refine ⟨"://".toList.map byteOf ++ rest, rfl, ?_⟩
      have hmatch := (hslashes _).mpr ⟨rest, rfl⟩
      rw [hcolon] at hmatch ⊢
      rw [List.cons_append, matchItems, ← List.cons_append, hmatch, Bool.or_true]
    · refine ⟨byteOf 's' :: ("://".toList.map byteOf ++ rest), rfl, ?_⟩
      rw [matchItems, (hslashes _).mpr ⟨rest, rfl⟩]
      rfl

theorem validate_eq_ok {config : Config} : config.validate = .ok () ↔
    config.serverId ≠ [] ∧ config.serverKey ≠ [] ∧ test httpUrl config.backendUrl = true ∧
    (test (literally "http://") config.backendUrl = true →
      test (literally "http://127.0.0.1") config.backendUrl = true ∨
        test (literally "http://localhost") config.backendUrl = true) := by
  unfold validate
  split_ifs with hid hkey hurl hlocal
  · exact iff_of_false (fun h => by cases h) fun h => h.1 hid
  · exact iff_of_false (fun h => by cases h) fun h => h.2.1 hkey
  · refine iff_of_false (fun h => by cases h) fun h => ?_
    rw [h.2.2.1] at hurl
    cases hurl
  · refine iff_of_false (fun h => by cases h) fun h => ?_
    simp only [Bool.and_eq_true, Bool.not_eq_true'] at hlocal
    rcases h.2.2.2 hlocal.1.1 with h127 | hhost
    · rw [hlocal.1.2] at h127
      cases h127
    · rw [hlocal.2] at hhost
      cases hhost
  · refine iff_of_true rfl ⟨hid, hkey, by simpa using hurl, fun hhttp => ?_⟩
    by_contra hnone
    rw [not_or, Bool.not_eq_true, Bool.not_eq_true] at hnone
    rw [hhttp, hnone.1, hnone.2] at hlocal
    exact hlocal rfl

/-- what a configuration that is accepted has -/
theorem validate_ok {config : Config} : config.validate = .ok () ↔
    config.serverId ≠ [] ∧ config.serverKey ≠ [] ∧
    ((∃ rest, config.backendUrl = "https://".toList.map byteOf ++ rest) ∨
      (∃ rest, config.backendUrl = "http://127.0.0.1".toList.map byteOf ++ rest) ∨
      ∃ rest, config.backendUrl = "http://localhost".toList.map byteOf ++ rest) := by
  rw [validate_eq_ok, test_httpUrl, test_literally, test_literally, test_literally]
  refine and_congr_right fun _ => and_congr_right fun _ => ?_
  have h127 : "http://127.0.0.1".toList.map byteOf =
      "http://".toList.map byteOf ++ "127.0.0.1".toList.map byteOf := by decide
  have hhost : "http://localhost".toList.map byteOf =
      "http://".toList.map byteOf ++ "localhost".toList.map byteOf := by decide
  constructor
  · rintro ⟨h | h, hlocal⟩
    · exact .inr (hlocal h)
    · exact .inl h
  · rintro (⟨rest, h⟩ | ⟨rest, h⟩ | ⟨rest, h⟩)
    · refine ⟨.inr ⟨rest, h⟩, fun ⟨rest', h'⟩ => ?_⟩
      rw [h] at h'
      exact absurd h' (by simp [byteOf])
    · exact ⟨.inl ⟨_, by rw [h, h127, List.append_assoc]⟩, fun _ => .inl ⟨rest, h⟩⟩
    · exact ⟨.inl ⟨_, by rw [h, hhost, List.append_assoc]⟩, fun _ => .inr ⟨rest, h⟩⟩

end Config

end Resource
