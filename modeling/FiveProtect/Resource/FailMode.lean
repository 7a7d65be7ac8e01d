import FiveProtect.Resource.Gate

/-!
# An outage is decided by the fail mode

A connecting player depends on two requests.  `NoDecision`, `Refusal` and `DenyVerdict` say what the
backend told about the player in one of them; `Decides` what has to follow for the deferral: the
fail mode where nothing was told, a denial where the player was turned away, and no other way to
stay outside.

`Gate.ask` takes every decodable answer with another status than the expected one for a refusal, so
that a 500 or a 429 with a body is one as well: `Readable` leaves these out.
-/

namespace Resource
open Protocol

/-! ## what the backend told -/

/-- the backend is degraded: nothing came back that the protocol describes, or the backend says that
it could not serve the request -/
inductive NoDecision (success : Nat) (validate : LuaValue → Lua.Check) : Exchange → Prop
  | deadline : NoDecision success validate .deadline
  | network (decoded : LuaValue) : NoDecision success validate (.reply 0 decoded)
  | undecodable (status : Nat) : NoDecision success validate (.reply status .nil)
  | rateLimited (decoded : LuaValue) : NoDecision success validate (.reply 429 decoded)
  | serverError (status : Nat) (decoded : LuaValue) (h : status / 100 = 5) :
      NoDecision success validate (.reply status decoded)
  | violation (decoded : LuaValue) (err : Bytes) (h : validate decoded = .error err) :
      NoDecision success validate (.reply success decoded)

/-- a refusal the backend decided: a 4xx other than 429, with a body -/
def Refusal (x : Exchange) : Prop :=
  ∃ status body, x = .reply status body ∧ Lua.isNil body = false ∧ status / 100 = 4 ∧ status ≠ 429

/-- a nonce was issued -/
def Issued (x : Exchange) : Prop :=
  ∃ body, x = .reply 201 body ∧ Lua.validateNonceResponse body = .ok ()

/-- a verdict that denies the player -/
def DenyVerdict (x : Exchange) : Prop :=
  ∃ body, x = .reply 200 body ∧ Lua.validateVerdict body = .ok () ∧
    isText (body.field "decision") "deny" = true

/-- one of the two requests yields no decision -/
def Outage (issued polled : Exchange) : Prop :=
  NoDecision 201 Lua.validateNonceResponse issued ∨
    Issued issued ∧ NoDecision 200 Lua.validateVerdict polled

/-- one of the two requests turns the player away -/
def TurnedAway (issued polled : Exchange) : Prop :=
  Refusal issued ∨ Issued issued ∧ (Refusal polled ∨ DenyVerdict polled)

/-! ## what has to follow -/

def Deferral.Admitted : Deferral → Prop
  | .admitted _ => True
  | _ => False

/-- `deferrals.done` with a message -/
def Deferral.Denied : Deferral → Prop
  | .denied _ => True
  | .refused _ => True
  | _ => False

/-- `deferral failOpen` is how the player fares under each fail mode -/
structure Decides (outage turnedAway : Prop) (deferral : Bool → Deferral) : Prop where
  /-- an outage is decided by the fail mode -/
  failMode : outage → ∀ failOpen, (deferral failOpen).Admitted ↔ failOpen = true
  /-- a refusal and a deny verdict deny under either -/
  denied : turnedAway → ∀ failOpen, (deferral failOpen).Denied
  /-- and nothing else keeps the player out under either -/
  only : (∀ failOpen, ¬ (deferral failOpen).Admitted) → turnedAway

section
variable {outage turnedAway : Prop} {deferral : Bool → Deferral}

theorem onDegraded_admitted (failOpen : Bool) :
    (onDegraded failOpen).Admitted ↔ failOpen = true := by
  cases failOpen with
  | false => exact ⟨fun h => h.elim, fun h => (by cases h)⟩
  | true => exact ⟨fun _ => rfl, fun _ => trivial⟩

theorem Decides.of_degraded (hr : ¬ turnedAway) (h : ∀ failOpen, deferral failOpen = onDegraded failOpen) :
    Decides outage turnedAway deferral := by
  refine ⟨fun _ failOpen => ?_, fun ht => absurd ht hr, fun hnever => ?_⟩
  · rw [h]
    exact onDegraded_admitted failOpen
  · have hopen := hnever true
    rw [h] at hopen
    exact absurd ((onDegraded_admitted true).mpr rfl) hopen

/-- the deferral after an answer with an unexpected status -/
def onAnswer (body : LuaValue) : Deferral :=
  match Gate.codeOf body with
  | none => .raised
  | some reason => .refused reason

theorem onAnswer_not_admitted (body : LuaValue) : ¬ (onAnswer body).Admitted := by
  unfold onAnswer
  split
  · exact id
  · exact id

theorem onAnswer_denied (body : LuaValue) : (onAnswer body).Denied ↔ Gate.codeOf body ≠ none := by
  unfold onAnswer
  split
  · rename_i h
    rw [h]
    exact ⟨fun hf => hf.elim, fun hne => absurd rfl hne⟩
  · rename_i reason h
    rw [h]
    exact ⟨fun _ => Option.some_ne_none reason, fun _ => trivial⟩

/-- such an answer has to be a refusal with a body that can be indexed -/
theorem decides_onAnswer {body : LuaValue} (h : ∀ failOpen, deferral failOpen = onAnswer body)
    (hexcl : turnedAway → ¬ outage) :
    Decides outage turnedAway deferral ↔ turnedAway ∧ Gate.codeOf body ≠ none := by
  constructor
  · intro hd
    have haway : turnedAway := by
      apply hd.only
      intro failOpen
      rw [h]
      exact onAnswer_not_admitted body
    have hdenied := hd.denied haway true
    rw [h] at hdenied
    exact ⟨haway, (onAnswer_denied body).mp hdenied⟩
  · rintro ⟨haway, hcode⟩
    refine ⟨fun ho => absurd ho (hexcl haway), fun _ failOpen => ?_, fun _ => haway⟩
    rw [h]
    exact (onAnswer_denied body).mpr hcode

theorem Decides.of_admitted {tracked : Option LuaValue} (ho : ¬ outage) (hr : ¬ turnedAway)
    (h : ∀ failOpen, deferral failOpen = .admitted tracked) :
    Decides outage turnedAway deferral := by
  refine ⟨fun hout => absurd hout ho, fun ht => absurd ht hr, fun hnever => ?_⟩
  have hopen := hnever true
  rw [h] at hopen
  exact absurd trivial hopen

theorem decides_denied {message : Bytes} (ho : ¬ outage)
    (h : ∀ failOpen, deferral failOpen = .denied message) :
    Decides outage turnedAway deferral ↔ turnedAway := by
  constructor
  · intro hd
    apply hd.only
    intro failOpen
    rw [h]
    exact id
  · intro haway
    refine ⟨fun hout => absurd hout ho, fun _ failOpen => ?_, fun _ => haway⟩
    rw [h]
    exact trivial

end

/-! ## one request -/

/-- every decodable answer with another status than `success` is a refusal whose body can be
indexed -/
def Readable (success : Nat) (x : Exchange) : Prop :=
  ∀ status body, x = .reply status body → status ≠ 0 → Lua.isNil body = false →
    status ≠ success → status / 100 = 4 ∧ status ≠ 429 ∧ Gate.codeOf body ≠ none

/-- how a request ends, for the resource -/
inductive Asked (success : Nat) (validate : LuaValue → Lua.Check) (x : Exchange) : Prop
  | degraded (reason : LuaValue) (hask : Gate.ask success validate x = .failed true reason)
      (hnone : NoDecision success validate x) (href : ¬ Refusal x) (hread : Readable success x)
  | answered (status : Nat) (body : LuaValue) (hx : x = .reply status body) (h0 : status ≠ 0)
      (hbody : Lua.isNil body = false) (hs : status ≠ success)
      (hask : Gate.ask success validate x = match Gate.codeOf body with
        | none => .raised
        | some reason => .failed false reason)
  | decided (body : LuaValue) (hx : x = .reply success body) (hok : validate body = .ok ())
      (hask : Gate.ask success validate x = .ok body) (hnone : ¬ NoDecision success validate x)
      (href : ¬ Refusal x) (hread : Readable success x)

theorem isNil_iff {value : LuaValue} : Lua.isNil value = true ↔ value = .nil := by
  cases value with
  | nil => exact ⟨fun _ => rfl, fun _ => rfl⟩
  | _ => exact ⟨fun h => (by cases h), fun h => (by cases h)⟩

theorem asked {success : Nat} (hs : success / 100 = 2) (validate : LuaValue → Lua.Check)
    (x : Exchange) : Asked success validate x := by
  have hpos : success ≠ 0 := by omega
  cases x with
  | deadline =>
    refine .degraded _ rfl .deadline ?_ ?_
    · rintro ⟨_, _, h, _⟩
      cases h
    · intro _ _ h
      cases h
  | reply status body =>
    by_cases h0 : status = 0
    · subst h0
      refine .degraded _ rfl (.network body) ?_ ?_
      · rintro ⟨_, _, h, _, h4, _⟩
        cases h
        cases h4
      · intro _ _ h hne
        cases h
        exact absurd rfl hne
    by_cases hnil : Lua.isNil body = true
    · have hbody := isNil_iff.mp hnil
      subst hbody
      have hask : Gate.ask success validate (.reply status .nil) =
          .failed true (.string (Text.utf8 "malformed_response")) := by
        simp [Gate.ask, Http.finish, h0, hnil]
      refine .degraded _ hask (.undecodable status) ?_ ?_
      · rintro ⟨_, _, h, hb, _⟩
        cases h
        cases hb
      · intro _ _ h _ hb
        cases h
        cases hb
    have hsome : Lua.isNil body = false := Bool.eq_false_iff.mpr hnil
    by_cases hstatus : status = success
    · subst hstatus
      have href : ¬ Refusal (.reply status body) := by
        rintro ⟨_, _, h, _, h4, _⟩
        cases h
        omega
      have hread : Readable status (.reply status body) := by
        intro _ _ h _ _ hne
        cases h
        exact absurd rfl hne
      cases hval : validate body with
      | error err =>
        have hask : Gate.ask status validate (.reply status body) =
            .failed true (.string (Text.utf8 "protocol:" ++ err)) := by
          simp [Gate.ask, Http.finish, h0, hsome, hval]
        exact .degraded _ hask (.violation body err hval) href hread
      | ok u =>
        have hask : Gate.ask status validate (.reply status body) = .ok body := by
          simp [Gate.ask, Http.finish, h0, hsome, hval]
        refine .decided body rfl hval hask ?_ href hread
        intro hnone
        cases hnone with
        | network => exact h0 rfl
        | undecodable => exact hnil rfl
        | rateLimited => omega
        | serverError _ _ h => omega
        | violation _ err h =>
          rw [hval] at h
          cases h
    · refine .answered status body rfl h0 hsome hstatus ?_
      cases hcode : Gate.codeOf body with
      | none => simp [Gate.ask, Http.finish, h0, hsome, hstatus, hcode]
      | some reason => simp [Gate.ask, Http.finish, h0, hsome, hstatus, hcode]

theorem Refusal.not_noDecision {success : Nat} (hs : success / 100 = 2)
    {validate : LuaValue → Lua.Check} {x : Exchange} (h : Refusal x) :
    ¬ NoDecision success validate x := by
  obtain ⟨status, body, rfl, hbody, h4, h429⟩ := h
  intro hnone
  cases hnone with
  | network => cases h4
  | undecodable => cases hbody
  | rateLimited => exact h429 rfl
  | serverError _ _ h5 => omega
  | violation => omega

/-- a valid verdict has one of the three decisions -/
theorem decision_of_valid {body : LuaValue} (h : Lua.validateVerdict body = .ok ()) :
    body.field "decision" = .string (Text.utf8 "allow") ∨
      body.field "decision" = .string (Text.utf8 "deny") ∨
      body.field "decision" = .string (Text.utf8 "pending") := by
  unfold Lua.validateVerdict Schema.Verdict Lua.check at h
  split at h
  · obtain ⟨_, hfields⟩ := Check.bind_ok.mp h
    unfold Lua.checkFields at hfields
    obtain ⟨hdecision, _⟩ := Check.bind_ok.mp hfields
    unfold Lua.checkRequired at hdecision
    split at hdecision
    · cases hdecision
    · simp only [enumRef, Lua.check] at hdecision
      unfold Lua.checkEnum at hdecision
      split at hdecision
      · rename_i s hs
        rw [hs]
        split at hdecision
        · rename_i hmem
          have hvalues : wireValues VerdictDecision = ["allow", "deny", "pending"] := rfl
          rw [hvalues] at hmem
          simpa using hmem
        · cases hdecision
      · cases hdecision
  · cases h

/-! ## the connect flow -/

/-- a verdict without a decision -/
def PendingVerdict (x : Exchange) : Prop :=
  ∃ body, x = .reply 200 body ∧ Lua.validateVerdict body = .ok () ∧
    isText (body.field "decision") "pending" = true

/-- the deferral of a player with a license, under each fail mode -/
def connect (license : String) (issued polled : Exchange) (failOpen : Bool) : Deferral :=
  playerConnecting true failOpen license issued polled

theorem connect_eq {license : String} (hl : license ≠ "") (issued polled : Exchange)
    (failOpen : Bool) : connect license issued polled failOpen =
      match Gate.requestNonce issued with
      | .raised => .raised
      | .failed degraded reason => onFailed failOpen degraded reason
      | .ok _ => match Gate.pollVerdict polled with
        | .raised => .raised
        | .failed degraded reason => onFailed failOpen degraded reason
        | .ok verdict => onVerdict verdict := by
  unfold connect playerConnecting
  exact (if_neg (by decide)).trans (if_neg hl)

theorem Refusal.reply {status : Nat} {body : LuaValue} (hbody : Lua.isNil body = false) :
    Refusal (.reply status body) ↔ status / 100 = 4 ∧ status ≠ 429 := by
  constructor
  · rintro ⟨_, _, h, _, h4, h429⟩
    cases h
    exact ⟨h4, h429⟩
  · rintro ⟨h4, h429⟩
    exact ⟨status, body, rfl, hbody, h4, h429⟩

/-- an answer with another status is readable if it is a refusal that can be indexed -/
theorem readable_answered {success status : Nat} {body : LuaValue} (h0 : status ≠ 0)
    (hbody : Lua.isNil body = false) (hs : status ≠ success) :
    Readable success (.reply status body) ↔
      Refusal (.reply status body) ∧ Gate.codeOf body ≠ none := by
  rw [Refusal.reply hbody]
  constructor
  · intro h
    obtain ⟨h4, h429, hcode⟩ := h status body rfl h0 hbody hs
    exact ⟨⟨h4, h429⟩, hcode⟩
  · rintro ⟨⟨h4, h429⟩, hcode⟩ _ _ h _ _ _
    cases h
    exact ⟨h4, h429, hcode⟩

/-- a valid answer with the expected status is taken as one -/
theorem ask_valid {success : Nat} (hs : success ≠ 0) {validate : LuaValue → Lua.Check}
    {body : LuaValue} (hbody : Lua.isNil body = false) (hok : validate body = .ok ()) :
    Gate.ask success validate (.reply success body) = .ok body := by
  simp [Gate.ask, Http.finish, hs, hbody, hok]

/-- `nil` is neither a nonce response nor a verdict -/
theorem isNil_of_valid {body : LuaValue} (h : Lua.validateNonceResponse body = .ok () ∨
    Lua.validateVerdict body = .ok ()) : Lua.isNil body = false := by
  cases hnil : Lua.isNil body with
  | false => rfl
  | true =>
    rw [isNil_iff] at hnil
    subst hnil
    obtain h | h := h
    · cases h
    · cases h

theorem Issued.asks {x : Exchange} (h : Issued x) : ∃ body, Gate.requestNonce x = .ok body := by
  obtain ⟨body, rfl, hok⟩ := h
  exact ⟨body, ask_valid (by decide) (isNil_of_valid (.inl hok)) hok⟩

/-- how a verdict ends the deferral, once a nonce was issued -/
theorem decides_verdict {issued : Exchange} {body : LuaValue} {deferral : Bool → Deferral}
    (hissued : Issued issued) (hi : ¬ NoDecision 201 Lua.validateNonceResponse issued)
    (hri : ¬ Refusal issued) (hok : Lua.validateVerdict body = .ok ())
    (hp : ¬ NoDecision 200 Lua.validateVerdict (.reply 200 body))
    (hrp : ¬ Refusal (.reply 200 body)) (h : ∀ failOpen, deferral failOpen = onVerdict body) :
    Decides (Outage issued (.reply 200 body)) (TurnedAway issued (.reply 200 body)) deferral ↔
      ¬ PendingVerdict (.reply 200 body) := by
  have hout : ¬ Outage issued (.reply 200 body) := by
    rintro (hnone | ⟨_, hnone⟩)
    · exact hi hnone
    · exact hp hnone
  have haway : TurnedAway issued (.reply 200 body) ↔
      isText (body.field "decision") "deny" = true := by
    constructor
    · rintro (href | ⟨_, href | ⟨_, hx, _, hdeny⟩⟩)
      · exact absurd href hri
      · exact absurd href hrp
      · cases hx
        exact hdeny
    · intro hdeny
      exact .inr ⟨hissued, .inr ⟨body, rfl, hok, hdeny⟩⟩
  have hpending : PendingVerdict (.reply 200 body) ↔
      isText (body.field "decision") "pending" = true := by
    constructor
    · rintro ⟨_, hx, _, hpend⟩
      cases hx
      exact hpend
    · intro hpend
      exact ⟨body, rfl, hok, hpend⟩
  rw [hpending]
  obtain hd | hd | hd := decision_of_valid hok
  · have hadmit : ∀ failOpen, deferral failOpen = .admitted (some (body.field "sessionId")) := by
      intro failOpen
      rw [h, onVerdict, hd]
      rfl
    have hno : ¬ TurnedAway issued (.reply 200 body) := by
      rw [haway, hd]
      decide
    refine ⟨fun _ => ?_, fun _ => .of_admitted hout hno hadmit⟩
    rw [hd]
    decide
  · have hdeny : ∀ failOpen, deferral failOpen = .denied (Gate.messageFor body) := by
      intro failOpen
      rw [h, onVerdict, hd]
      rfl
    rw [decides_denied hout hdeny, haway, hd]
    decide
  · have hdeny : ∀ failOpen, deferral failOpen = .denied (Gate.messageFor body) := by
      intro failOpen
      rw [h, onVerdict, hd]
      rfl
    rw [decides_denied hout hdeny, haway, hd]
    decide

/-- **The fail mode decides an outage, and nothing else**, exactly if every decodable answer with an
unexpected status is a 4xx refusal and no verdict is pending. -/
theorem fail_mode_decides {license : String} (hl : license ≠ "") (issued polled : Exchange) :
    Decides (Outage issued polled) (TurnedAway issued polled) (connect license issued polled) ↔
      Readable 201 issued ∧ (Issued issued → Readable 200 polled ∧ ¬ PendingVerdict polled) := by
  have hconnect := connect_eq hl issued polled
  cases asked (by decide : 201 / 100 = 2) Lua.validateNonceResponse issued with
  | degraded reason hask hnone href hread =>
    have hnot : ¬ Issued issued := by
      intro hissued
      obtain ⟨body, hok⟩ := hissued.asks
      rw [Gate.requestNonce, hask] at hok
      cases hok
    have hdeg : ∀ failOpen, connect license issued polled failOpen = onDegraded failOpen := by
      intro failOpen
      rw [hconnect, Gate.requestNonce, hask]
      rfl
    have hno : ¬ TurnedAway issued polled := by
      rintro (h | ⟨h, _⟩)
      · exact href h
      · exact hnot h
    exact ⟨fun _ => ⟨hread, fun h => absurd h hnot⟩, fun _ => .of_degraded hno hdeg⟩
  | answered status body hx h0 hbody hs hask =>
    subst hx
    have hnot : ¬ Issued (.reply status body) := by
      rintro ⟨_, h, _⟩
      cases h
      exact hs rfl
    have hanswer : ∀ failOpen,
        connect license (.reply status body) polled failOpen = onAnswer body := by
      intro failOpen
      rw [hconnect, Gate.requestNonce, hask, onAnswer]
      cases Gate.codeOf body with
      | none => rfl
      | some reason => rfl
    have haway : TurnedAway (.reply status body) polled ↔ Refusal (.reply status body) :=
      ⟨fun h => h.resolve_right fun hr => hnot hr.1, .inl⟩
    have hexcl : TurnedAway (.reply status body) polled → ¬ Outage (.reply status body) polled := by
      intro h hout
      obtain hnone | ⟨hissued, _⟩ := hout
      · exact (haway.mp h).not_noDecision (by decide) hnone
      · exact hnot hissued
    rw [decides_onAnswer hanswer hexcl, haway, readable_answered h0 hbody hs]
    exact ⟨fun h => ⟨h, fun hi => absurd hi hnot⟩, fun h => h.1⟩
  | decided nonce hx hok hask hnone href hread =>
    have hissued : Issued issued := ⟨nonce, hx, hok⟩
    have hpoll : ∀ failOpen, connect license issued polled failOpen =
        match Gate.pollVerdict polled with
        | .raised => .raised
        | .failed degraded reason => onFailed failOpen degraded reason
        | .ok verdict => onVerdict verdict := by
      intro failOpen
      rw [hconnect, Gate.requestNonce, hask]
    have hright : (Readable 201 issued ∧
        (Issued issued → Readable 200 polled ∧ ¬ PendingVerdict polled)) ↔
          Readable 200 polled ∧ ¬ PendingVerdict polled :=
      ⟨fun h => h.2 hissued, fun h => ⟨hread, fun _ => h⟩⟩
    rw [hright]
    cases asked (by decide : 200 / 100 = 2) Lua.validateVerdict polled with
    | degraded reason hask₂ hnone₂ href₂ hread₂ =>
      have hdeg : ∀ failOpen, connect license issued polled failOpen = onDegraded failOpen := by
        intro failOpen
        rw [hpoll, Gate.pollVerdict, hask₂]
        rfl
      have hinvalid : ∀ body, polled = .reply 200 body → Lua.validateVerdict body ≠ .ok () := by
        rintro body rfl hok₂
        rw [ask_valid (by decide) (isNil_of_valid (.inr hok₂)) hok₂] at hask₂
        cases hask₂
      have hno : ¬ TurnedAway issued polled := by
        rintro (h | ⟨_, h | ⟨body, hx₂, hok₂, _⟩⟩)
        · exact href h
        · exact href₂ h
        · exact hinvalid body hx₂ hok₂
      have hpending : ¬ PendingVerdict polled := by
        rintro ⟨body, hx₂, hok₂, _⟩
        exact hinvalid body hx₂ hok₂
      exact ⟨fun _ => ⟨hread₂, hpending⟩, fun _ => .of_degraded hno hdeg⟩
    | answered status body hx₂ h0 hbody hs hask₂ =>
      subst hx₂
      have hanswer : ∀ failOpen,
          connect license issued (.reply status body) failOpen = onAnswer body := by
        intro failOpen
        rw [hpoll, Gate.pollVerdict, hask₂, onAnswer]
        cases Gate.codeOf body with
        | none => rfl
        | some reason => rfl
      have hnot : ∀ verdict, Exchange.reply status body ≠ .reply 200 verdict := by
        intro verdict h
        cases h
        exact hs rfl
      have haway : TurnedAway issued (.reply status body) ↔ Refusal (.reply status body) := by
        constructor
        · rintro (h | ⟨_, h | ⟨verdict, hv, _⟩⟩)
          · exact absurd h href
          · exact h
          · exact absurd hv (hnot verdict)
        · intro h
          exact .inr ⟨hissued, .inl h⟩
      have hexcl : TurnedAway issued (.reply status body) →
          ¬ Outage issued (.reply status body) := by
        rintro h (hout | ⟨_, hout⟩)
        · exact hnone hout
        · exact (haway.mp h).not_noDecision (by decide) hout
      have hpending : ¬ PendingVerdict (.reply status body) := by
        rintro ⟨verdict, hv, _⟩
        exact hnot verdict hv
      rw [decides_onAnswer hanswer hexcl, haway, readable_answered h0 hbody hs]
      exact ⟨fun h => ⟨h, hpending⟩, fun h => h.1⟩
    | decided body hx₂ hok₂ hask₂ hnone₂ href₂ hread₂ =>
      subst hx₂
      have hverdict : ∀ failOpen,
          connect license issued (.reply 200 body) failOpen = onVerdict body := by
        intro failOpen
        rw [hpoll, Gate.pollVerdict, hask₂]
      rw [decides_verdict hissued hnone href hok₂ hnone₂ href₂ hverdict]
      exact ⟨fun h => ⟨hread₂, h⟩, fun h => h.2⟩

/-- the error handler's own answer to an unhandled error -/
def internalError : LuaValue := .table [
  (.str "code", .string (Text.utf8 "internal_error")),
  (.str "message", .string (Text.utf8 "internal error")),
  (.str "requestId", .string (Text.utf8 "req-1"))] 0

/-- with its database down the backend answers 500 with a JSON body: the player is turned away although
the fail mode lets everyone in -/
theorem outage_denies : ¬ Decides (Outage (.reply 500 internalError) .deadline)
    (TurnedAway (.reply 500 internalError) .deadline)
    (connect "license:1" (.reply 500 internalError) .deadline) := by
  intro h
  have hout : Outage (.reply 500 internalError) .deadline := .inl (.serverError 500 _ rfl)
  have hadmit := (h.failMode hout true).mpr rfl
  exact hadmit

/-- a player whose verdict poll runs into the deadline -/
theorem fail_mode_decides_deadline :
    "license:1" ≠ "" ∧ Decides (Outage .deadline .deadline) (TurnedAway .deadline .deadline)
      (connect "license:1" .deadline .deadline) := by
  have hl : "license:1" ≠ "" := by decide
  refine ⟨hl, (fail_mode_decides hl .deadline .deadline).mpr ⟨?_, ?_⟩⟩
  · intro _ _ h
    cases h
  · rintro ⟨_, h, _⟩
    cases h

end Resource
