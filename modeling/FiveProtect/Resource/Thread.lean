import FiveProtect.Resource.Gate

/-!
# Resource: the thread of a connecting player

The thread that `playerConnecting` of `main.lua` creates, as the calls it makes (`Effect`) and whether
it ends with a Lua error; `issued` and `polled` are what `Http.await` returns.  What a player sees of it
is `playerConnecting` (`playerConnecting_eq`).

* `Completed`            no error, and `deferrals.done` is called once;
* `Indexable`            an answer with an unexpected status whose `code` can be read;
* `deferral_completed`   the thread completes if both answers are indexable.
-/

namespace Resource
open Protocol

/-! ## the thread -/

/-- the argument of `deferrals.done` -/
inductive Message where
  | none
  | text (t : Bytes)
  /-- `'FiveProtect: ' .. tostring(reason)` -/
  | reason (reason : LuaValue)

inductive Effect where
  | update (text : String)
  /-- the event `fiveprotect:attest`, with the nonce and the address of the backend -/
  | triggerClientEvent (nonce backendUrl : LuaValue)
  | track (sessionId : LuaValue)
  | done (message : Message)

structure Thread where
  effects : List Effect
  raised : Bool

namespace Gate

/-- what both requests of the gate make of the result of `Http.await` -/
def take (success : Nat) (validate : LuaValue → Lua.Check) : HttpResult → Result
  | .failed reason => .failed true (.string (Text.utf8 reason))
  | .ok status body =>
    if status ≠ success then
      match codeOf body with
      | none => .raised
      | some reason => .failed false reason
    else
      match validate body with
      | .error err => .failed true (.string (Text.utf8 "protocol:" ++ err))
      | .ok _ => .ok body

theorem ask_eq (success : Nat) (validate : LuaValue → Lua.Check) (x : Exchange) :
    ask success validate x = take success validate (Http.finish x) := by
  unfold ask take
  rfl

end Gate

/-- `deferrals.done(decision.message)`, or without a message if the decision allows -/
def doneDegraded (failOpen : Bool) : Effect :=
  let decision := Gate.degradedDecision failOpen
  if decision.allow then .done .none else .done (.text (Text.utf8 (decision.message.getD "")))

def doneFailed (failOpen degraded : Bool) (reason : LuaValue) : Effect :=
  if degraded then doneDegraded failOpen else .done (.reason reason)

def verdictEffects (verdict : LuaValue) : List Effect :=
  if isText (verdict.field "decision") "allow" then
    [.track (verdict.field "sessionId"), .done .none]
  else [.done (.text (Gate.messageFor verdict))]

/-- after the nonce was issued -/
def pollThread (failOpen : Bool) (nonce : LuaValue) (polled : HttpResult) : Thread :=
  let before : List Effect := [
    .update "FiveProtect prüft dein System … Lass die Anwendung dabei geöffnet.",
    .triggerClientEvent (nonce.field "nonce") (nonce.field "backendUrl")]
  match Gate.take 200 Lua.validateVerdict polled with
  | .raised => ⟨before, true⟩
  | .failed degraded reason => ⟨before ++ [doneFailed failOpen degraded reason], false⟩
  | .ok verdict => ⟨before ++ verdictEffects verdict, false⟩

def connectThread (failOpen : Bool) (license : String) (issued polled : HttpResult) : Thread :=
  let before : List Effect := [.update "FiveProtect: Systemprüfung wird vorbereitet …"]
  if license = "" then
    ⟨before ++ [.done (.text (Text.utf8
      "FiveProtect konnte deine Rockstar-Lizenz nicht lesen. Starte FiveM neu."))], false⟩
  else match Gate.take 201 Lua.validateNonceResponse issued with
    | .raised => ⟨before, true⟩
    | .failed degraded reason => ⟨before ++ [doneFailed failOpen degraded reason], false⟩
    | .ok nonce =>
      let rest := pollThread failOpen nonce polled
      ⟨before ++ rest.effects, rest.raised⟩

/-! ## what the player sees of it -/

def Effect.tracked? : Effect → Option LuaValue
  | .track sessionId => some sessionId
  | _ => none

def Effect.done? : Effect → Option Message
  | .done message => some message
  | _ => none

def Thread.deferral (t : Thread) : Deferral :=
  match t.effects.findSome? Effect.done? with
  | none => .raised
  | some .none => .admitted (t.effects.findSome? Effect.tracked?)
  | some (.text message) => .denied message
  | some (.reason reason) => .refused reason

theorem doneFailed_deferral (failOpen degraded : Bool) (reason : LuaValue) (before : List Effect)
    (hdone : before.findSome? Effect.done? = none) (htrack : before.findSome? Effect.tracked? = none) :
    Thread.deferral ⟨before ++ [doneFailed failOpen degraded reason], false⟩ =
      onFailed failOpen degraded reason := by
  unfold Thread.deferral
  simp only [List.findSome?_append, hdone, htrack, Option.none_or]
  cases degraded with
  | false => rfl
  | true => cases failOpen <;> rfl

theorem pollThread_deferral (failOpen : Bool) (nonce : LuaValue) (polled : Exchange) :
    (pollThread failOpen nonce (Http.finish polled)).deferral = match Gate.pollVerdict polled with
      | .raised => .raised
      | .failed degraded reason => onFailed failOpen degraded reason
      | .ok verdict => onVerdict verdict := by
  unfold pollThread
  rw [Gate.pollVerdict, Gate.ask_eq]
  cases Gate.take 200 Lua.validateVerdict (Http.finish polled) with
  | raised => rfl
  | failed degraded reason => exact doneFailed_deferral failOpen degraded reason _ rfl rfl
  | ok verdict =>
    unfold onVerdict
    simp only [verdictEffects]
    by_cases h : isText (verdict.field "decision") "allow" = true
    · rw [if_pos h, if_pos h]
      rfl
    · rw [if_neg h, if_neg h]
      rfl

/-- the thread ends the deferral as `playerConnecting` says -/
theorem playerConnecting_eq (failOpen : Bool) (license : String) (issued polled : Exchange) :
    playerConnecting true failOpen license issued polled =
      (connectThread failOpen license (Http.finish issued) (Http.finish polled)).deferral := by
  unfold playerConnecting connectThread
  rw [if_neg (by decide)]
  by_cases hl : license = ""
  · rw [if_pos hl, if_pos hl]
    rfl
  · rw [if_neg hl, if_neg hl, Gate.requestNonce, Gate.ask_eq]
    cases Gate.take 201 Lua.validateNonceResponse (Http.finish issued) with
    | raised => rfl
    | failed degraded reason => exact (doneFailed_deferral failOpen degraded reason _ rfl rfl).symm
    | ok nonce => exact (pollThread_deferral failOpen nonce polled).symm

/-! ## completion -/

/-- how often `deferrals.done` is called -/
def Thread.dones (t : Thread) : Nat := t.effects.countP fun e => e.done?.isSome

/-- the thread runs to its end and calls `deferrals.done` exactly once -/
def Thread.Completed (t : Thread) : Prop := t.raised = false ∧ t.dones = 1

/-- the code of an answer with an unexpected status can be read: it is neither a number nor `true` -/
def Indexable (success : Nat) (r : HttpResult) : Prop :=
  ∀ status body, r = .ok status body → status ≠ success →
    (∀ n, body ≠ .number n) ∧ body ≠ .boolean true

/-- a nonce was issued -/
def NonceIssued (r : HttpResult) : Prop :=
  ∃ body, r = .ok 201 body ∧ Lua.validateNonceResponse body = .ok ()

theorem codeOf_eq_none (body : LuaValue) :
    Gate.codeOf body = none ↔ (∃ n, body = .number n) ∨ body = .boolean true := by
  cases body with
  | nil | string | table => simp [Gate.codeOf]
  | number n => simp [Gate.codeOf]
  | boolean b => cases b <;> simp [Gate.codeOf]

/-- a request ends with a Lua error if its answer cannot be indexed -/
theorem take_raised {success : Nat} (validate : LuaValue → Lua.Check) {r : HttpResult} :
    Gate.take success validate r = .raised ↔ ¬ Indexable success r := by
  unfold Gate.take Indexable
  cases r with
  | failed reason =>
    constructor
    · intro h
      cases h
    · intro h
      exact absurd (fun _ _ h => by cases h) h
  | ok status body =>
    by_cases hs : status = success
    · constructor
      · intro h
        simp only [hs, ne_eq, not_true_eq_false, if_false] at h
        split at h <;> cases h
      · intro h
        refine absurd (fun _ _ heq hne => ?_) h
        cases heq
        exact absurd hs hne
    · have hcode := codeOf_eq_none body
      constructor
      · intro h hindex
        obtain ⟨hnumber, htrue⟩ := hindex status body rfl hs
        simp only [ne_eq, hs, not_false_eq_true, if_true] at h
        split at h
        · rename_i hnone
          rcases hcode.mp hnone with ⟨n, rfl⟩ | rfl
          · exact hnumber n rfl
          · exact htrue rfl
        · cases h
      · intro h
        have hnone : Gate.codeOf body = none := by
          by_contra hsome
          refine h fun _ _ heq _ => ?_
          cases heq
          have hneither := fun hb => hsome (hcode.mpr hb)
          exact ⟨fun n hn => hneither (.inl ⟨n, hn⟩), fun ht => hneither (.inr ht)⟩
        simp [hs, hnone]

theorem take_ok {success : Nat} {validate : LuaValue → Lua.Check} {r : HttpResult} {body : LuaValue} :
    Gate.take success validate r = .ok body ↔ r = .ok success body ∧ validate body = .ok () := by
  unfold Gate.take
  cases r with
  | failed reason => simp
  | ok status body' =>
    by_cases hs : status = success
    · cases hv : validate body' with
      | error err =>
        simp only [hs, ne_eq, not_true_eq_false, if_false, hv, reduceCtorEq, false_iff]
        rintro ⟨h, hok⟩
        cases h
        rw [hv] at hok
        cases hok
      | ok u =>
        simp only [hs, ne_eq, not_true_eq_false, if_false, hv, Gate.Result.ok.injEq,
          HttpResult.ok.injEq, true_and]
        constructor
        · rintro rfl
          exact ⟨rfl, hv⟩
        · exact fun h => h.1
    · cases hc : Gate.codeOf body' with
      | none => simp [hs, hc]
      | some reason => simp [hs, hc]

theorem dones_failed (failOpen degraded : Bool) (reason : LuaValue) :
    [doneFailed failOpen degraded reason].countP (fun e => e.done?.isSome) = 1 := by
  cases degraded with
  | false => rfl
  | true => cases failOpen <;> rfl

theorem pollThread_completed (failOpen : Bool) (nonce : LuaValue) (polled : HttpResult) :
    (pollThread failOpen nonce polled).Completed ↔ Indexable 200 polled := by
  rw [← not_iff_not, ← take_raised Lua.validateVerdict]
  unfold pollThread Thread.Completed Thread.dones
  cases Gate.take 200 Lua.validateVerdict polled with
  | raised => simp
  | failed degraded reason =>
    simp only [List.countP_append, dones_failed, reduceCtorEq, iff_false, not_not]
    exact ⟨trivial, rfl⟩
  | ok verdict =>
    simp only [List.countP_append, reduceCtorEq, iff_false, not_not, verdictEffects]
    split
    · exact ⟨trivial, rfl⟩
    · exact ⟨trivial, rfl⟩

/-- once a nonce is issued, the rest of the thread completes the deferral or does not -/
theorem connectThread_issued {failOpen : Bool} {license : String} {issued polled : HttpResult}
    {nonce : LuaValue} (hl : license ≠ "")
    (h : Gate.take 201 Lua.validateNonceResponse issued = .ok nonce) :
    (connectThread failOpen license issued polled).Completed ↔
      (pollThread failOpen nonce polled).Completed := by
  unfold connectThread Thread.Completed Thread.dones
  rw [if_neg hl, h]
  rfl

/-- **Every deferral is completed exactly once**, exactly if the code of an answer with an unexpected
status can be read: one that is a number or `true` ends the thread. -/
theorem deferral_completed (failOpen : Bool) (license : String) (issued polled : HttpResult) :
    (connectThread failOpen license issued polled).Completed ↔
      (license ≠ "" → Indexable 201 issued ∧ (NonceIssued issued → Indexable 200 polled)) := by
  by_cases hl : license = ""
  · unfold connectThread
    rw [if_pos hl]
    exact ⟨fun _ h => absurd hl h, fun _ => ⟨rfl, rfl⟩⟩
  · cases htake : Gate.take 201 Lua.validateNonceResponse issued with
    | raised =>
      have hindex := (take_raised _).mp htake
      unfold connectThread
      rw [if_neg hl, htake]
      exact ⟨fun h => (by cases h.1), fun h => absurd (h hl).1 hindex⟩
    | failed degraded reason =>
      have hindex : Indexable 201 issued := by
        by_contra h
        rw [(take_raised _).mpr h] at htake
        cases htake
      have hnot : ¬ NonceIssued issued := by
        rintro ⟨body, hbody⟩
        rw [take_ok.mpr hbody] at htake
        cases htake
      unfold connectThread
      rw [if_neg hl, htake]
      exact ⟨fun _ _ => ⟨hindex, fun h => absurd h hnot⟩,
        fun _ => ⟨rfl, dones_failed failOpen degraded reason⟩⟩
    | ok nonce =>
      have hindex : Indexable 201 issued := by
        by_contra h
        rw [(take_raised _).mpr h] at htake
        cases htake
      have hissued : NonceIssued issued := ⟨nonce, take_ok.mp htake⟩
      rw [connectThread_issued hl htake, pollThread_completed]
      exact ⟨fun h _ => ⟨hindex, fun _ => h⟩, fun h => (h hl).2 hissued⟩

/-- a proxy answers the nonce request with status 500 and the JSON text `500`: the player is never
told anything -/
theorem deferral_hangs :
    ¬ (connectThread true "license:1" (.ok 500 (.number (.int 500))) (.failed "timeout")).Completed := by
  intro h
  cases h.1

end Resource
