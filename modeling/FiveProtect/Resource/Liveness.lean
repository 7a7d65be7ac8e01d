import FiveProtect.Backend.Service
import FiveProtect.Resource.Gate

/-!
# Resource: players in game

`resources/fiveprotect/server/liveness.lua`: the players the gate let in, with their sessions, and
those that were warned.

* `Liveness.decide`        what to do with one answer;
* `Liveness.handle`        the body of the loop in `Liveness.poll`, from the answer on;
* `livenessExchange`       the answers of the backend's route, as the resource gets them;
* `decide_toJson`          what the resource makes of an answer of `buildLiveness`.
-/

namespace Resource
open Protocol Function

/-- a player of the server, as FiveM numbers them -/
abbrev Source := Nat

/-- a player with the session the gate let him in with -/
structure Entry where
  source : Source
  sessionId : String
  deriving DecidableEq

/-- the two tables of the module -/
structure Liveness where
  /-- `sessions`, in the order of `pairs` -/
  sessions : List Entry
  warned : Source → Bool

structure Action where
  kick : Bool
  warn : Bool
  reason : LuaValue

inductive LivenessEffect where
  /-- `TriggerClientEvent('chat:addMessage', source, ..)` with `WARNING_TEXT` -/
  | warn (source : Source)
  /-- `DropPlayer(source, FallbackKickText(reason))` -/
  | dropPlayer (source : Source) (reason : LuaValue)

def warningText : String :=
  "FiveProtect antwortet nicht mehr. Starte die Anwendung, sonst wirst du gleich vom Server getrennt."

def fallbackKickText (reason : LuaValue) : String :=
  if isText reason "banned" then "Dieser Account ist auf diesem Server gesperrt."
  else if isText reason "game_process_missing" then
    "FiveProtect hat FiveM nicht mehr gefunden. Starte beide auf demselben PC."
  else if isText reason "companion_outdated" then
    "Deine FiveProtect-Version hat sich während der Sitzung geändert. Starte neu und verbinde " ++
      "dich erneut."
  else "FiveProtect hat sich beendet. Starte die Anwendung und verbinde dich erneut."

/-- the text of an effect -/
def LivenessEffect.text : LivenessEffect → String
  | .warn _ => warningText
  | .dropPlayer _ reason => fallbackKickText reason

namespace Liveness

def forget (source : Source) (l : Liveness) : Liveness where
  sessions := l.sessions.filter fun e => e.source ≠ source
  warned := update l.warned source false

def track (source : Source) (sessionId : String) (l : Liveness) : Liveness where
  sessions := ⟨source, sessionId⟩ :: l.sessions.filter fun e => e.source ≠ source
  warned := update l.warned source false

def tracked (l : Liveness) : List Entry := l.sessions

def decide (response : LuaValue) (alreadyWarned : Bool) : Action :=
  if Gate.isTruthy (response.field "shouldKick") then
    { kick := true
      warn := false
      reason :=
        if Gate.isTruthy (response.field "reason") then response.field "reason"
        else .string (Text.utf8 "heartbeat_lost") }
  else if !Lua.isNil (response.field "graceExpiresAt") && !alreadyWarned then ⟨false, true, .nil⟩
  else ⟨false, false, .nil⟩

/-- the response of a poll that the resource acts on -/
def answer? : HttpResult → Option LuaValue
  | .failed _ => none
  | .ok status body =>
    if status = 200 ∧ (Lua.validateLivenessResponse body).isOk then some body else none

/-- what is done for a player, given the result of `Http.await` -/
def handle (entry : Entry) (result : HttpResult) (l : Liveness) : Liveness × List LivenessEffect :=
  match answer? result with
  | none => (l, [])
  | some body =>
    let action := decide body (l.warned entry.source)
    let marked : Liveness :=
      if action.warn then { l with warned := update l.warned entry.source true }
      else if !action.kick then { l with warned := update l.warned entry.source false }
      else l
    let said : List LivenessEffect := if action.warn then [.warn entry.source] else []
    if action.kick then
      (marked.forget entry.source, said ++ [.dropPlayer entry.source action.reason])
    else (marked, said)

end Liveness

/-! ## the answers of the backend -/

/-- what an error is answered as, without the id of the request -/
def errorBody (e : Backend.ApiError) : Json :=
  .obj [("code", .str e.code), ("message", .str e.message)]

/-- an answer of the route, as the resource gets it; no answer is a deadline -/
def livenessExchange : Option Backend.Response → Exchange
  | some (.liveness body) => .reply 200 (LuaValue.ofJson body.toJson)
  | some (.error e) => .reply e.status (LuaValue.ofJson (errorBody e))
  | _ => .deadline

section
variable (r : LivenessResponse)

theorem field_shouldKick :
    (LuaValue.ofJson r.toJson).field "shouldKick" = .boolean r.shouldKick := by
  rw [LivenessResponse.toJson, LuaValue.field_ofJson]
  rfl

theorem field_graceExpiresAt : (LuaValue.ofJson r.toJson).field "graceExpiresAt" =
    ((r.graceExpiresAt.map Json.str).map LuaValue.ofJson).getD .nil := by
  rw [LivenessResponse.toJson, LuaValue.field_ofJson]
  obtain ⟨_, _, last, grace, _, reason⟩ := r
  cases last <;> cases grace <;> cases reason <;> rfl

/-- **What the resource makes of an answer.** -/
theorem decide_toJson (alreadyWarned : Bool) :
    (Liveness.decide (LuaValue.ofJson r.toJson) alreadyWarned).kick = r.shouldKick ∧
      (Liveness.decide (LuaValue.ofJson r.toJson) alreadyWarned).warn =
        (!r.shouldKick && r.graceExpiresAt.isSome && !alreadyWarned) := by
  have hgrace : Lua.isNil ((LuaValue.ofJson r.toJson).field "graceExpiresAt") =
      !r.graceExpiresAt.isSome := by
    rw [field_graceExpiresAt]
    cases r.graceExpiresAt with
    | none => rfl
    | some t => rfl
  unfold Liveness.decide
  rw [field_shouldKick, hgrace]
  cases r.shouldKick with
  | true => exact ⟨rfl, rfl⟩
  | false =>
    cases r.graceExpiresAt.isSome with
    | true => cases alreadyWarned <;> exact ⟨rfl, rfl⟩
    | false => cases alreadyWarned <;> exact ⟨rfl, rfl⟩

end

/-- a response that the resource acts on is the body of an answer -/
theorem answer?_eq {r : LivenessResponse} {body : LuaValue}
    (h : Liveness.answer? (Http.finish (livenessExchange (some (.liveness r)))) = some body) :
    body = LuaValue.ofJson r.toJson := by
  unfold Liveness.answer? Http.finish livenessExchange at h
  dsimp only at h
  split at h
  · cases h
  · rename_i heq
    split at heq
    · cases heq
    · split at heq
      · cases heq
      · cases heq
        split at h
        · exact (Option.some.inj h).symm
        · cases h

theorem answer?_error {e : Backend.ApiError} (he : e.status ≠ 200) {body : LuaValue} :
    Liveness.answer? (Http.finish (livenessExchange (some (.error e)))) ≠ some body := by
  unfold Liveness.answer? Http.finish livenessExchange
  dsimp only
  split
  · exact fun h => (by cases h)
  · rename_i heq
    split at heq
    · cases heq
    · split at heq
      · cases heq
      · cases heq
        rw [if_neg fun h => he h.1]
        exact fun h => (by cases h)

/-! ## what is done with an answer -/

section
variable {l : Liveness} {entry : Entry} {result : HttpResult} {r : LivenessResponse}

theorem handle_none (h : Liveness.answer? result = none) : l.handle entry result = (l, []) := by
  rw [Liveness.handle, h]

theorem handle_kick (h : Liveness.answer? result = some (LuaValue.ofJson r.toJson))
    (hk : r.shouldKick = true) : l.handle entry result = (l.forget entry.source,
      [.dropPlayer entry.source
        (Liveness.decide (LuaValue.ofJson r.toJson) (l.warned entry.source)).reason]) := by
  obtain ⟨hkick, hwarn⟩ := decide_toJson r (l.warned entry.source)
  rw [hk] at hkick hwarn
  rw [Liveness.handle, h]
  simp [hkick, hwarn]

theorem handle_warn (h : Liveness.answer? result = some (LuaValue.ofJson r.toJson))
    (hk : r.shouldKick = false) (hg : r.graceExpiresAt.isSome = true)
    (hw : l.warned entry.source = false) : l.handle entry result =
      ({ l with warned := update l.warned entry.source true }, [.warn entry.source]) := by
  obtain ⟨hkick, hwarn⟩ := decide_toJson r (l.warned entry.source)
  rw [hk] at hkick
  rw [hk, hg, hw] at hwarn
  rw [Liveness.handle, h, hw]
  rw [hw] at hkick
  simp [hkick, hwarn]

/-- the flag is cleared by a healthy answer, and by the second one of a grace period -/
theorem handle_keep (h : Liveness.answer? result = some (LuaValue.ofJson r.toJson))
    (hk : r.shouldKick = false)
    (hg : r.graceExpiresAt.isSome = false ∨ l.warned entry.source = true) :
    l.handle entry result = ({ l with warned := update l.warned entry.source false }, []) := by
  obtain ⟨hkick, hwarn⟩ := decide_toJson r (l.warned entry.source)
  have hquiet : (r.graceExpiresAt.isSome && !l.warned entry.source) = false := by
    rcases hg with hg | hg
    · rw [hg, Bool.false_and]
    · rw [hg, Bool.not_true, Bool.and_false]
  rw [hk] at hkick
  rw [hk, Bool.not_false, Bool.true_and, hquiet] at hwarn
  rw [Liveness.handle, h]
  simp [hkick, hwarn]

/-- no player is tracked anew -/
theorem handle_sessions (l : Liveness) (entry : Entry) (result : HttpResult) :
    ∀ e ∈ (l.handle entry result).1.sessions, e ∈ l.sessions := by
  unfold Liveness.handle
  cases Liveness.answer? result with
  | none => exact fun _ he => he
  | some body =>
    dsimp only
    cases (Liveness.decide body (l.warned entry.source)).kick with
    | true =>
      intro e he
      have hmem := (List.mem_filter.mp he).1
      cases hwarn : (Liveness.decide body (l.warned entry.source)).warn <;> simpa [hwarn] using hmem
    | false =>
      intro e he
      cases hwarn : (Liveness.decide body (l.warned entry.source)).warn <;> simpa [hwarn] using he

/-- nothing is done for another player -/
theorem handle_other (l : Liveness) {entry : Entry} (result : HttpResult) {source : Source}
    (h : entry.source ≠ source) :
    (l.handle entry result).1.warned source = l.warned source ∧
      ∀ e ∈ (l.handle entry result).2, ∀ reason, e ≠ .dropPlayer source reason := by
  have hne : source ≠ entry.source := fun he => h he.symm
  unfold Liveness.handle
  cases Liveness.answer? result with
  | none => exact ⟨rfl, fun _ he => absurd he List.not_mem_nil⟩
  | some body =>
    dsimp only
    cases (Liveness.decide body (l.warned entry.source)).warn with
    | true =>
      cases (Liveness.decide body (l.warned entry.source)).kick with
      | true => simp [Liveness.forget, hne, h]
      | false => simp [hne]
    | false =>
      cases (Liveness.decide body (l.warned entry.source)).kick with
      | true => simp [Liveness.forget, hne, h]
      | false => simp [hne]

end

end Resource
