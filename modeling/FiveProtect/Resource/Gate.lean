import FiveProtect.Protocol.LuaCheck

/-!
# Resource: the connect gate

`resources/fiveprotect/server/http.lua`, `gate.lua` and the thread of `playerConnecting` in `main.lua`.

* `Exchange`          how a request to the backend ends, before the resource looks at it;
* `Http.finish`       what `Http.await` returns for it;
* `Gate.ask`          `Gate.requestNonce` and `Gate.pollVerdict`, which differ in the status they wait
                      for and in the validator;
* `playerConnecting`  the whole flow, up to the call of `deferrals.done`.
-/

namespace Resource
open Protocol

/-! ## http.lua -/

/-- what comes first: the callback of `PerformHttpRequest`, with the decoded text (`nil` if there is
none, or `json.decode` fails), or the deadline; a transport failure is a reply with status 0 -/
inductive Exchange where
  | reply (status : Nat) (decoded : LuaValue)
  | deadline

inductive HttpResult where
  | failed (reason : String)
  | ok (status : Nat) (body : LuaValue)

namespace Http

def finish : Exchange → HttpResult
  | .deadline => .failed "timeout"
  | .reply status decoded =>
    if status = 0 then .failed "network"
    else if Lua.isNil decoded then .failed "malformed_response"
    else .ok status decoded

end Http

/-! ## gate.lua -/

namespace Gate

def fallbackText : List (String × String) := [
  ("companion_missing",
    "FiveProtect läuft nicht. Starte die Anwendung und verbinde dich danach erneut."),
  ("companion_timeout",
    "FiveProtect hat nicht rechtzeitig geantwortet. Starte die Anwendung neu und versuche es " ++
    "noch einmal."),
  ("backend_unavailable",
    "Der Anticheat-Dienst ist gerade nicht erreichbar. Bitte versuche es in ein paar Minuten " ++
    "erneut."),
  ("nonce_expired", "Die Prüfung hat zu lange gedauert. Versuche es einfach noch einmal."),
  ("heartbeat_lost",
    "FiveProtect hat sich beendet. Starte die Anwendung und verbinde dich erneut.")]

def genericDenial : String :=
  "Die Systemprüfung wurde nicht bestanden. Starte FiveProtect und versuche es erneut."

/-- `FALLBACK_TEXT[reason]` -/
def fallbackFor (reason : LuaValue) : Option String :=
  match reason with
  | .string s => (fallbackText.find? fun entry => Text.utf8 entry.1 == s).map Prod.snd
  | _ => none

/-- the sentence the player sees -/
def messageFor (verdict : LuaValue) : Bytes :=
  let spoken : Bytes := match verdict.field "reasons" with
    | .table pairs _ =>
      Text.utf8 (((LuaValue.ipairs pairs).findSome? fallbackFor).getD genericDenial)
    | _ => Text.utf8 genericDenial
  match verdict.field "remediation" with
  | .string s => if s = [] then spoken else s
  | _ => spoken

structure Degraded where
  allow : Bool
  message : Option String
  deriving DecidableEq

def degradedDecision (failOpen : Bool) : Degraded :=
  if failOpen then ⟨true, none⟩
  else ⟨false, fallbackFor (.string (Text.utf8 "backend_unavailable"))⟩

inductive Result where
  | ok (body : LuaValue)
  | failed (degraded : Bool) (reason : LuaValue)
  /-- a Lua error -/
  | raised

def unknownReason : LuaValue := .string (Text.utf8 "unknown")

def isTruthy : LuaValue → Bool
  | .nil => false
  | .boolean b => b
  | _ => true

/-- `body and body.code or 'unknown'`; `none` is the error of indexing a number or `true`.  The string
library has no `code`. -/
def codeOf (body : LuaValue) : Option LuaValue :=
  match body with
  | .table pairs border =>
    let code := (LuaValue.table pairs border).field "code"
    some (if isTruthy code then code else unknownReason)
  | .boolean true => none
  | .number _ => none
  | _ => some unknownReason

/-- `Http.await`, then what both requests of the gate make of the answer -/
def ask (success : Nat) (validate : LuaValue → Lua.Check) (x : Exchange) : Result :=
  match Http.finish x with
  | .failed reason => .failed true (.string (Text.utf8 reason))
  | .ok status body =>
    if status ≠ success then
      match codeOf body with
      | none => .raised
      | some reason => .failed false reason
    else
      match validate body with
      | .error err => .failed true (.string (Text.utf8 "protocol:" ++ err))
      | .ok _ => .ok body

def requestNonce : Exchange → Result := ask 201 Lua.validateNonceResponse

def pollVerdict : Exchange → Result := ask 200 Lua.validateVerdict

end Gate

/-! ## main.lua -/

/-- how the deferral of a connecting player ends -/
inductive Deferral where
  /-- `deferrals.done()`, and the session that is tracked from then on -/
  | admitted (tracked : Option LuaValue)
  /-- `deferrals.done(message)` -/
  | denied (message : Bytes)
  /-- `deferrals.done('FiveProtect: ' .. tostring(reason))` -/
  | refused (reason : LuaValue)
  /-- the thread ends with a Lua error, `done` is never called -/
  | raised

/-- the verdict or the nonce did not come because of the backend -/
def onDegraded (failOpen : Bool) : Deferral :=
  let decision := Gate.degradedDecision failOpen
  if decision.allow then .admitted none else .denied (Text.utf8 (decision.message.getD ""))

def onFailed (failOpen degraded : Bool) (reason : LuaValue) : Deferral :=
  if degraded then onDegraded failOpen else .refused reason

/-- `value == 'text'` -/
def isText (value : LuaValue) (text : String) : Bool :=
  match value with
  | .string s => s == Text.utf8 text
  | _ => false

def onVerdict (verdict : LuaValue) : Deferral :=
  if isText (verdict.field "decision") "allow" then .admitted (some (verdict.field "sessionId"))
  else .denied (Gate.messageFor verdict)

/-- the event handler: `issued` and `polled` are how the two requests end, if they are made -/
def playerConnecting (configOk failOpen : Bool) (license : String) (issued polled : Exchange) :
    Deferral :=
  if !configOk then
    .denied (Text.utf8 "FiveProtect ist auf diesem Server nicht richtig eingerichtet.")
  else if license = "" then
    .denied (Text.utf8
      "FiveProtect konnte deine Rockstar-Lizenz nicht lesen. Starte FiveM neu.")
  else match Gate.requestNonce issued with
    | .raised => .raised
    | .failed degraded reason => onFailed failOpen degraded reason
    | .ok _ => match Gate.pollVerdict polled with
      | .raised => .raised
      | .failed degraded reason => onFailed failOpen degraded reason
      | .ok verdict => onVerdict verdict

end Resource
