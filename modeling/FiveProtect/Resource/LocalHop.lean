import FiveProtect.Protocol.LuaCheck
import FiveProtect.Resource.Config

/-!
# Resource: the localhost hop

How a nonce gets from the game server to the companion of a player who is in the game: the event of
`server/main.lua`, its handler in `client/main.lua` and `commandFrom` of `nui/transport.js`.

* `attestEvent`   what the server sends for the nonce it was issued;
* `onAttest`      what the client hands to its frame; `Frame` is what a Lua value is there;
* `commandFrom`   the command for the companion, without the fields the protocol does not declare.
-/

namespace Resource
open Protocol

/-! ## server/main.lua -/

/-- the table of the event `fiveprotect:attest` -/
structure AttestEvent where
  nonce : LuaValue
  backendUrl : LuaValue
  serverName : LuaValue
  protocolVersion : LuaValue

def attestEvent (c : Convars) (nonce : LuaValue) : AttestEvent where
  nonce := nonce.field "nonce"
  backendUrl := nonce.field "backendUrl"
  serverName := .string (c.getConvar "sv_projectName" "FiveM")
  protocolVersion := .number (.int protocolVersion)

/-! ## client/main.lua -/

/-- `SendNUIMessage`: a value in the data of the message, `none` for `nil` -/
abbrev Frame := LuaValue → Option Json

/-- a text in UTF-8 arrives as it is, other bytes as some text, a small integer as a number -/
structure Frame.Lawful (frame : Frame) : Prop where
  text : ∀ s : String, frame (.string (Text.utf8 s)) = some (.str s)
  string : ∀ b : Bytes, ∃ s, frame (.string b) = some (.str s)
  number : ∀ n : Nat, n ≤ 9007199254740991 → frame (.number (.int n)) = some (.num (.int n))

/-- the message that the frame receives -/
structure NuiMessage where
  nonce : Option Json
  backendUrl : Option Json
  serverName : Option Json
  protocolVersion : Option Json

/-- the handler of the event: one at a time -/
def onAttest (frame : Frame) (isRunning : Bool) (command : AttestEvent) : Option NuiMessage :=
  if isRunning then none
  else some {
    nonce := frame command.nonce
    backendUrl := frame command.backendUrl
    serverName := frame command.serverName
    protocolVersion := frame command.protocolVersion }

/-! ## nui/transport.js -/

/-- a server name that is a text and not empty -/
def serverNameOf (message : NuiMessage) : Option Json :=
  (message.serverName.bind Json.str?).bind fun name => if name = "" then none else some (.str name)

/-- what `JSON.stringify` writes of the command: no field that is `undefined` -/
def commandFrom (message : NuiMessage) : Json :=
  .obj (Json.member? "nonce" message.nonce ++ Json.member? "backendUrl" message.backendUrl ++
    Json.member? "protocolVersion" message.protocolVersion ++
    Json.member? "serverName" (serverNameOf message))

/-! ## what a valid nonce puts into the command -/

/-- a check of a text lets only a text pass -/
theorem checkString_text {v : Json} {path : Bytes} {f : Option StringFormat} {min max : Option Nat}
    (h : Lua.check (.string f min max) (LuaValue.ofJson v) path = .ok ()) :
    ∃ s, LuaValue.ofJson v = .string (Text.utf8 s) ∧
      (∀ n, min = some n → n ≤ Text.utf8Length s) ∧ (∀ n, max = some n → Text.utf8Length s ≤ n) ∧
        ∀ p, f.map Lua.luaPattern = some p → LuaPattern.test p.1 (Text.utf8 s) = true := by
  rw [Lua.check] at h
  cases v with
  | str s => exact ⟨s, rfl, Lua.checkString_ok.mp h⟩
  | illFormed s high => exact ⟨s, rfl, Lua.checkString_ok.mp h⟩
  | _ => cases h

/-- what the command takes from a nonce response -/
structure Issues (j : Json) (nonce backendUrl : String) : Prop where
  nonceField : (LuaValue.ofJson j).field "nonce" = .string (Text.utf8 nonce)
  nonceLength : Text.utf8Length nonce = 64
  nonceHex : LuaPattern.test Lua.hexPattern (Text.utf8 nonce) = true
  urlField : (LuaValue.ofJson j).field "backendUrl" = .string (Text.utf8 backendUrl)
  urlLength : Text.utf8Length backendUrl ≤ 256

theorem checkRequired_ok {value : LuaValue} {path : Bytes} {name : String}
    {checkValue : LuaValue → Bytes → Lua.Check}
    (h : Lua.checkRequired value path name checkValue = .ok ()) :
    Lua.isNil (value.field name) = false ∧
      checkValue (value.field name) (Lua.member path name) = .ok () := by
  unfold Lua.checkRequired at h
  split at h
  · cases h
  · rename_i hnil
    exact ⟨Bool.eq_false_iff.mpr hnil, h⟩

/-- a field of a decoded text that is there is a JSON value -/
theorem exists_field {j : Json} {name : String}
    (h : Lua.isNil ((LuaValue.ofJson j).field name) = false) :
    ∃ v, (LuaValue.ofJson j).field name = LuaValue.ofJson v := by
  cases j with
  | obj members =>
    rw [LuaValue.field_ofJson] at h ⊢
    cases hget : Json.get? name (.obj members) with
    | none =>
      rw [hget] at h
      cases h
    | some v => exact ⟨v, rfl⟩
  | arr items => exact ⟨.null, LuaValue.field_ofJson_arr items name⟩
  | _ => exact ⟨.null, rfl⟩

theorem exists_issues {j : Json} (h : Lua.validateNonceResponse (LuaValue.ofJson j) = .ok ()) :
    ∃ nonce backendUrl, Issues j nonce backendUrl := by
  have hfields : ∃ path, Lua.checkFields [("nonce", hex64), ("sessionId", formatted .uuid none),
      ("expiresAt", formatted .datetime none), ("policyTier", enumRef PolicyTier),
      ("backendUrl", text 256), ("protocolVersion", atLeast 1)] (LuaValue.ofJson j) path = .ok () := by
    rw [Lua.validateNonceResponse, Schema.NonceResponse] at h
    generalize LuaValue.ofJson j = value at h ⊢
    cases value with
    | table pairs border =>
      rw [Lua.check] at h
      exact ⟨_, (Check.bind_ok.mp h).2⟩
    | _ => cases h
  obtain ⟨path, hfields⟩ := hfields
  obtain ⟨hnonce, hfields⟩ := Check.bind_ok.mp hfields
  obtain ⟨_, hfields⟩ := Check.bind_ok.mp hfields
  obtain ⟨_, hfields⟩ := Check.bind_ok.mp hfields
  obtain ⟨_, hfields⟩ := Check.bind_ok.mp hfields
  obtain ⟨hurl, _⟩ := Check.bind_ok.mp hfields
  obtain ⟨hnil, hnonce⟩ := checkRequired_ok hnonce
  obtain ⟨v, hv⟩ := exists_field hnil
  rw [hv] at hnonce
  obtain ⟨nonce, hnonce, hmin, hmax, hpattern⟩ := checkString_text hnonce
  obtain ⟨hnil', hurl⟩ := checkRequired_ok hurl
  obtain ⟨u, hu⟩ := exists_field hnil'
  rw [hu] at hurl
  obtain ⟨backendUrl, hurl, _, hurlLength, _⟩ := checkString_text hurl
  exact ⟨nonce, backendUrl, hv.trans hnonce, le_antisymm (hmax 64 rfl) (hmin 64 rfl),
    hpattern (Lua.luaPattern .hex) rfl, hu.trans hurl, hurlLength 256 rfl⟩

/-- the command for an issued nonce, with the name of the server as the frame has it -/
theorem commandFrom_issued {frame : Frame} (hframe : frame.Lawful) {c : Convars} {j : Json}
    {nonce backendUrl shown : String} (h : Issues j nonce backendUrl)
    (hshown : frame (.string (c.getConvar "sv_projectName" "FiveM")) = some (.str shown))
    {message : NuiMessage}
    (hmessage : onAttest frame false (attestEvent c (LuaValue.ofJson j)) = some message) :
    commandFrom message = .obj ([("nonce", .str nonce), ("backendUrl", .str backendUrl),
      ("protocolVersion", .num (.int 1))] ++
        Json.member? "serverName" (if shown = "" then none else some (.str shown))) := by
  cases hmessage
  have hversion : frame (.number (.int protocolVersion)) = some (.num (.int 1)) :=
    hframe.number 1 (by decide)
  simp only [commandFrom, serverNameOf, attestEvent, h.nonceField, h.urlField, hframe.text, hversion,
    hshown, Option.bind_some, Json.str?, Json.member?, List.cons_append, List.nil_append]

end Resource
