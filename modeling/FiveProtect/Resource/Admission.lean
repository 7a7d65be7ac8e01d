import FiveProtect.Backend.Answered
import FiveProtect.Backend.Grounds
import FiveProtect.Resource.Thread

/-!
# The gate and its backend

Any number of players connect to a game server while the backend runs as `Backend.System` does: the threads of
`playerConnecting`, the requests they make, and what comes back.  An answer of the backend arrives as it was sent
(the connection is authenticated); anything else may take its place, a timeout, a failure, the page of a proxy, as
long as its status is not one of a success.

* `World.step`         one step of the backend, a player who connects, an answer, or none;
* `GateThread.Knows`   what is behind a thread, kept by every step of the backend;
* `World.Kept`         what every run keeps;
* `ended_eq`           a thread ends its deferral as `playerConnecting` does;
* `admitted_sound`     who is let in, and why;
* `one_player_each`    no session lets in two players, and no attestation counts for two.
-/

namespace Resource
open Protocol Function

/-! ## on the wire -/

/-- the body of an answer of `POST /v1/sessions/nonce` -/
def nonceJson (a : NonceResponse) : Json := .obj [
  ("nonce", .str a.nonce),
  ("sessionId", .str a.sessionId.toText),
  ("expiresAt", .str a.expiresAt),
  ("policyTier", .str (wire a.policyTier)),
  ("backendUrl", .str a.backendUrl),
  ("protocolVersion", .num (.int a.protocolVersion))]

/-- `ApiError.toPayload` -/
def errorJson (e : Backend.ApiError) (requestId : String) : Json := .obj [
  ("code", .str e.code),
  ("message", .str e.message),
  ("requestId", .str requestId)]

/-- an answer of the backend to one of the two requests of the gate -/
def exchangeOf (requestId : String) : Backend.Response → Option Exchange
  | .nonce a => some (.reply 201 (LuaValue.ofJson (nonceJson a)))
  | .verdict v => some (.reply 200 (LuaValue.ofJson v.toJson))
  | .error e => some (.reply e.status (LuaValue.ofJson (errorJson e requestId)))
  | _ => none

/-- what is not an answer of the backend -/
def foreign : Exchange → Bool
  | .deadline => true
  | .reply status _ => status != 200 && status != 201

/-- what the game server is set up with, and the configuration of its backend -/
structure Setup where
  serverId : String
  serverKey : String
  failOpen : Bool
  backend : Backend.Config

namespace Setup

def authorization (c : Setup) : Option String := some ("Bearer " ++ c.serverKey)

def playerJson (player : Protocol.PlayerIdentifiers) : Json :=
  .obj ([("license", .str player.license), ("ip", .str player.ip)] ++
    Json.member? "steam" (player.steam.map .str) ++ Json.member? "discord" (player.discord.map .str))

/-- the body of `Gate.requestNonce` -/
def nonceBody (c : Setup) (player : Protocol.PlayerIdentifiers) : Json := .obj [
  ("serverId", .str c.serverId),
  ("player", playerJson player),
  ("protocolVersion", .num (.int protocolVersion))]

end Setup

/-- the body of `Gate.pollVerdict` -/
def verdictBody (nonce : String) : Json := .obj [("nonce", .str nonce)]

/-! ## the threads -/

/-- what the thread does with the answer to its first request; `inr` is the nonce it goes on with -/
def afterNonce (failOpen : Bool) (issued : Exchange) : Deferral ⊕ LuaValue :=
  match Gate.requestNonce issued with
  | .raised => .inl .raised
  | .failed degraded reason => .inl (onFailed failOpen degraded reason)
  | .ok nonce => .inr nonce

def afterVerdict (failOpen : Bool) (polled : Exchange) : Deferral :=
  match Gate.pollVerdict polled with
  | .raised => .raised
  | .failed degraded reason => onFailed failOpen degraded reason
  | .ok verdict => onVerdict verdict

/-- where a thread waits, and for which request of the backend -/
inductive GatePoint where
  | requestNonce
  | pollVerdict (poll : Nat)
  | done (poll : Option Nat) (deferral : Deferral)

structure GateThread where
  player : Protocol.PlayerIdentifiers
  /-- the number of its first request at the backend -/
  request : Nat
  point : GatePoint

def GateThread.waitsFor (t : GateThread) : Option Nat :=
  match t.point with
  | .requestNonce => some t.request
  | .pollVerdict poll => some poll
  | .done _ _ => none

structure World where
  backend : Backend.System
  threads : Nat → Option GateThread

inductive WorldEvent where
  | backend (e : Backend.Event)
  | connect (n : Nat) (player : Protocol.PlayerIdentifiers) (request : Nat) (entropy : Backend.NonceBytes)
      (iv : Backend.SealIv)
  /-- the answer of the backend arrives; `poll` and `nonce` are for the request it may be followed by -/
  | reply (n : Nat) (requestId : String) (poll : Nat) (nonce : String)
  /-- something else arrives -/
  | noReply (n : Nat) (x : Exchange)

namespace World

def put (w : World) (n : Nat) (t : GateThread) : World := { w with threads := update w.threads n (some t) }

variable (P : Backend.Platform) (c : Setup)

/-- the thread goes on with what `Http.await` returned -/
def resume (n : Nat) (t : GateThread) (x : Exchange) (poll : Nat) (nonce : String) (w : World) : Option World :=
  match t.point with
  | .requestNonce =>
    match afterNonce c.failOpen x with
    | .inl deferral => some (w.put n { t with point := .done none deferral })
    | .inr issued =>
      if isText (issued.field "nonce") nonce then
        (Backend.System.step P (.request poll (.verdict c.authorization (verdictBody nonce))) w.backend).map
          fun backend => { w.put n { t with point := .pollVerdict poll } with backend := backend }
      else none
  | .pollVerdict poll => some (w.put n { t with point := .done (some poll) (afterVerdict c.failOpen x) })
  | .done _ _ => none

def step (e : WorldEvent) (w : World) : Option World :=
  match e with
  | .backend e => (Backend.System.step P e w.backend).map fun backend => { w with backend := backend }
  | .connect n player request entropy iv =>
    if (w.threads n).isNone && player.license != "" then
      (Backend.System.step P
        (.request request (.nonce c.authorization (c.nonceBody player) c.backend entropy iv)) w.backend).map
        fun backend => { w.put n ⟨player, request, .requestNonce⟩ with backend := backend }
    else none
  | .reply n requestId poll nonce =>
    (w.threads n).bind fun t => ((t.waitsFor.bind w.backend.response).bind (exchangeOf requestId)).bind fun x =>
      w.resume P c n t x poll nonce
  | .noReply n x =>
    if foreign x then (w.threads n).bind fun t => w.resume P c n t x 0 "" else none

/-- nobody has connected yet -/
structure Initial (w : World) : Prop where
  backend : w.backend.Initial
  threads : w.threads = fun _ => none

end World

/-! ## the thread and its deferral -/

/-- the thread does what `playerConnecting` does -/
theorem playerConnecting_after (failOpen : Bool) {license : String} (hl : license ≠ "") (issued polled : Exchange) :
    playerConnecting true failOpen license issued polled =
      match afterNonce failOpen issued with
      | .inl deferral => deferral
      | .inr _ => afterVerdict failOpen polled := by
  unfold playerConnecting afterNonce afterVerdict
  rw [if_neg (by decide), if_neg hl]
  cases Gate.requestNonce issued with
  | raised | failed => rfl
  | ok nonce => rfl

/-- a request that succeeds ends with an answer of its status -/
theorem of_ask {success : Nat} {validate : LuaValue → Lua.Check} {x : Exchange} {body : LuaValue}
    (h : Gate.ask success validate x = .ok body) : x = .reply success body ∧ validate body = .ok () := by
  rw [Gate.ask_eq] at h
  obtain ⟨hfinish, hvalid⟩ := take_ok.mp h
  refine ⟨?_, hvalid⟩
  cases x with
  | deadline => cases hfinish
  | reply status decoded =>
    unfold Http.finish at hfinish
    dsimp only at hfinish
    split at hfinish
    · cases hfinish
    · split at hfinish
      · cases hfinish
      · cases hfinish
        rfl

theorem onFailed_admitted {failOpen degraded : Bool} {reason : LuaValue} {tracked : Option LuaValue}
    (h : onFailed failOpen degraded reason = .admitted tracked) : tracked = none ∧ failOpen = true := by
  cases degraded with
  | false => cases h
  | true =>
    cases failOpen with
    | false => cases h
    | true =>
      cases h
      exact ⟨rfl, rfl⟩

theorem afterNonce_inr {failOpen : Bool} {x : Exchange} {issued : LuaValue}
    (h : afterNonce failOpen x = .inr issued) : x = .reply 201 issued ∧ Lua.validateNonceResponse issued = .ok () := by
  unfold afterNonce at h
  split at h
  · cases h
  · cases h
  · rename_i nonce hask
    cases h
    exact of_ask hask

theorem afterNonce_admitted {failOpen : Bool} {x : Exchange} {tracked : Option LuaValue}
    (h : afterNonce failOpen x = .inl (.admitted tracked)) : tracked = none ∧ failOpen = true := by
  unfold afterNonce at h
  split at h
  · cases h
  · exact onFailed_admitted (Sum.inl.inj h)
  · cases h

theorem afterVerdict_admitted {failOpen : Bool} {x : Exchange} {tracked : Option LuaValue}
    (h : afterVerdict failOpen x = .admitted tracked) : (tracked = none ∧ failOpen = true) ∨
      ∃ verdict, x = .reply 200 verdict ∧ Lua.validateVerdict verdict = .ok () ∧
        isText (verdict.field "decision") "allow" = true ∧ tracked = some (verdict.field "sessionId") := by
  unfold afterVerdict at h
  split at h
  · cases h
  · exact .inl (onFailed_admitted h)
  · rename_i verdict hask
    unfold onVerdict at h
    split at h
    · rename_i hallow
      cases h
      obtain ⟨hx, hvalid⟩ := of_ask hask
      exact .inr ⟨verdict, hx, hvalid, hallow, rfl⟩
    · cases h

/-- a member the schema does not have -/
theorem undeclared_member {name : String} {fields : List (String × FieldType)} {members : List (String × Json)}
    {path : Bytes} {key : String} {x : Json} (hmem : (key, x) ∈ members) (hnot : key ∉ fields.map Prod.fst) :
    Lua.check (.struct name fields) (LuaValue.ofJson (.obj members)) path ≠ .ok () := by
  intro h
  rw [LuaValue.ofJson, Lua.check] at h
  have hkeys := Lua.checkNoExtraKeys_iff.mp (Check.bind_ok.mp h).1 (.str key, LuaValue.ofJson x) (by
    rw [LuaValue.ofMembers_eq]
    exact List.mem_map.mpr ⟨(key, x), hmem, rfl⟩)
  obtain ⟨field, hfield, heq⟩ := List.mem_map.mp hkeys
  cases heq
  exact hnot hfield

/-- an error is neither a nonce nor a verdict, whatever its status -/
theorem errorJson_invalid (e : Backend.ApiError) (requestId : String) :
    Lua.validateNonceResponse (LuaValue.ofJson (errorJson e requestId)) ≠ .ok () ∧
      Lua.validateVerdict (LuaValue.ofJson (errorJson e requestId)) ≠ .ok () :=
  ⟨undeclared_member List.mem_cons_self (by decide), undeclared_member List.mem_cons_self (by decide)⟩

/-- the nonce of an answer -/
theorem nonce_of_exchange {requestId : String} {r : Backend.Response} {issued : LuaValue}
    (h : exchangeOf requestId r = some (.reply 201 issued)) (hvalid : Lua.validateNonceResponse issued = .ok ()) :
    ∃ a, r = .nonce a ∧ issued = LuaValue.ofJson (nonceJson a) := by
  cases r with
  | nonce a =>
    cases h
    exact ⟨a, rfl, rfl⟩
  | error e =>
    obtain ⟨_, heq⟩ := Exchange.reply.inj (Option.some.inj h)
    rw [← heq] at hvalid
    exact absurd hvalid (errorJson_invalid e requestId).1
  | _ => cases h

/-- the verdict of an answer -/
theorem verdict_of_exchange {requestId : String} {r : Backend.Response} {verdict : LuaValue}
    (h : exchangeOf requestId r = some (.reply 200 verdict)) (hvalid : Lua.validateVerdict verdict = .ok ()) :
    ∃ v, r = .verdict v ∧ verdict = LuaValue.ofJson v.toJson := by
  cases r with
  | verdict v =>
    cases h
    exact ⟨v, rfl, rfl⟩
  | error e =>
    obtain ⟨_, heq⟩ := Exchange.reply.inj (Option.some.inj h)
    rw [← heq] at hvalid
    exact absurd hvalid (errorJson_invalid e requestId).2
  | _ => cases h

theorem isText_utf8 {s t : String} : isText (.string (Text.utf8 s)) t = true ↔ s = t := by
  show (Text.utf8 s == Text.utf8 t) = true ↔ s = t
  rw [beq_iff_eq]
  exact ⟨fun h => Text.utf8_injective h, fun h => congrArg Text.utf8 h⟩

theorem nonceJson_nonce (a : NonceResponse) :
    (LuaValue.ofJson (nonceJson a)).field "nonce" = .string (Text.utf8 a.nonce) := by
  rw [nonceJson, LuaValue.field_ofJson]
  rfl

theorem verdict_fields (v : Verdict) :
    (LuaValue.ofJson v.toJson).field "decision" = .string (Text.utf8 (wire v.decision)) ∧
      (LuaValue.ofJson v.toJson).field "sessionId" = .string (Text.utf8 v.sessionId.toText) := by
  rw [Verdict.toJson, LuaValue.field_ofJson, LuaValue.field_ofJson]
  exact ⟨rfl, rfl⟩

/-- the backend reads what the gate has sent -/
theorem safeParse_nonceBody {c : Setup} {player : Protocol.PlayerIdentifiers} {body : NonceRequest}
    (h : NonceRequest.safeParse (c.nonceBody player) = some body) :
    body.serverId = c.serverId ∧ body.player = player := by
  have hplayer : Protocol.PlayerIdentifiers.ofJson (Setup.playerJson player) = some player := by
    obtain ⟨license, steam, discord, ip⟩ := player
    cases steam <;> cases discord <;>
      simp [Protocol.PlayerIdentifiers.ofJson, Setup.playerJson, Json.field, Json.optional, Json.get?, Json.text?,
        Json.member?]
  unfold NonceRequest.safeParse Protocol.safeParse at h
  split at h
  · have hread : NonceRequest.ofJson (c.nonceBody player) =
        some ⟨c.serverId, player, none, protocolVersion⟩ := by
      simp [NonceRequest.ofJson, Setup.nonceBody, Json.field, Json.optional, Json.get?, Json.text?, Json.int?, hplayer]
    rw [hread] at h
    cases h
    exact ⟨rfl, rfl⟩
  · cases h

/-! ## what is behind a thread -/

/-- the poll asks for the nonce that the first request was answered with -/
def Asking (s : Backend.System) (request poll : Nat) : Prop :=
  ∃ a q, s.response request = some (.nonce a) ∧ s.task poll = some (.verdict q) ∧ q.body = verdictBody a.nonce

namespace GateThread

/-- what is behind a deferral that lets a player in -/
def Ended (c : Setup) (s : Backend.System) (t : GateThread) (poll : Option Nat) : Deferral → Prop
  | .admitted none => c.failOpen = true
  | .admitted (some sessionId) => ∃ p v, poll = some p ∧ Asking s t.request p ∧
      s.response p = some (.verdict v) ∧ v.decision = .allow ∧ sessionId = .string (Text.utf8 v.sessionId.toText)
  | _ => True

/-- the deferral is the one of `playerConnecting` -/
def AsWritten (c : Setup) (t : GateThread) (deferral : Deferral) : Prop :=
  ∃ issued polled, deferral = playerConnecting true c.failOpen t.player.license issued polled

def Holds (c : Setup) (s : Backend.System) (t : GateThread) : Prop :=
  match t.point with
  | .requestNonce => True
  | .pollVerdict poll => Asking s t.request poll ∧ ∃ x issued, afterNonce c.failOpen x = .inr issued
  | .done poll deferral => t.Ended c s poll deferral ∧ t.AsWritten c deferral

structure Knows (c : Setup) (s : Backend.System) (t : GateThread) : Prop where
  license : t.player.license ≠ ""
  request : ∃ n, s.task t.request = some (.nonce n) ∧ n.body = c.nonceBody t.player
  holds : t.Holds c s

end GateThread

section
variable {P : Backend.Platform} {c : Setup} {s s' : Backend.System} {e : Backend.Event} {t : GateThread}

/-- an answer stays -/
theorem response_stays (h : Backend.System.step P e s = some s') {pid : Nat} {r : Backend.Response}
    (hr : s.response pid = some r) : s'.response pid = some r := by
  have hsame : s'.procs pid = s.procs pid := Backend.System.procs_of_finished h (by
    rw [hr]
    exact Option.some_ne_none r)
  rw [← hr, Backend.System.response, Backend.System.response, hsame]

theorem Asking.step (h : Backend.System.step P e s = some s') {request poll : Nat} (ha : Asking s request poll) :
    Asking s' request poll := by
  obtain ⟨a, q, hanswer, hq, hbody⟩ := ha
  have hanswer' := response_stays h hanswer
  obtain hsame | ⟨uuid, w, t', hexec, _, ht'⟩ := (Backend.System.step_move h).task_some hq
  · exact ⟨a, q, hanswer', hsame, hbody⟩
  · obtain ⟨pt, rfl, _⟩ := Backend.Task.exec_verdict hexec
    exact ⟨a, _, hanswer', ht', hbody⟩

/-- a step of the backend leaves what is behind a thread as it is -/
theorem GateThread.Knows.step (h : Backend.System.step P e s = some s') (hk : t.Knows c s) : t.Knows c s' := by
  refine ⟨hk.license, ?_, ?_⟩
  · obtain ⟨n, hn, hbody⟩ := hk.request
    obtain hsame | ⟨uuid, w, t', hexec, _, ht'⟩ := (Backend.System.step_move h).task_some hn
    · exact ⟨n, hsame, hbody⟩
    · obtain ⟨pt, rfl, _⟩ := Backend.Task.exec_nonce hexec
      exact ⟨_, ht', hbody⟩
  · have hholds := hk.holds
    unfold GateThread.Holds at hholds ⊢
    cases hp : t.point with
    | requestNonce => exact trivial
    | pollVerdict poll =>
      rw [hp] at hholds
      exact ⟨hholds.1.step h, hholds.2⟩
    | done poll deferral =>
      rw [hp] at hholds
      refine ⟨?_, hholds.2⟩
      have hended := hholds.1
      cases deferral with
      | admitted tracked =>
        cases tracked with
        | none => exact hended
        | some sessionId =>
          obtain ⟨p, v, hpoll, hask, hres, hallow, hid⟩ := hended
          exact ⟨p, v, hpoll, hask.step h, response_stays h hres, hallow, hid⟩
      | denied | refused | raised => exact trivial

/-- what a thread is woken with: no answer, or the one of the request it waits for -/
def Heard (s : Backend.System) (t : GateThread) (x : Exchange) : Prop :=
  foreign x = true ∨
    ∃ requestId p r, t.waitsFor = some p ∧ s.response p = some r ∧ exchangeOf requestId r = some x

/-- the thread is done after its first request -/
theorem GateThread.Knows.refused (hk : t.Knows c s) {x : Exchange} {deferral : Deferral}
    (h : afterNonce c.failOpen x = .inl deferral) : GateThread.Knows c s { t with point := .done none deferral } := by
  refine ⟨hk.license, hk.request, ?_, x, .deadline, ?_⟩
  · cases deferral with
    | admitted tracked =>
      obtain ⟨rfl, hopen⟩ := afterNonce_admitted h
      exact hopen
    | denied | refused | raised => exact trivial
  · rw [playerConnecting_after _ hk.license, h]

/-- the thread is done after its poll -/
theorem GateThread.Knows.polled (hk : t.Knows c s) {x : Exchange} {poll : Nat} (hp : t.point = .pollVerdict poll)
    (hx : Heard s t x) : GateThread.Knows c s { t with point := .done (some poll) (afterVerdict c.failOpen x) } := by
  have hholds := hk.holds
  unfold GateThread.Holds at hholds
  rw [hp] at hholds
  obtain ⟨hask, y, issued, hy⟩ := hholds
  refine ⟨hk.license, hk.request, ?_, y, x, ?_⟩
  · cases hdeferral : afterVerdict c.failOpen x with
    | admitted tracked =>
      obtain ⟨rfl, hopen⟩ | ⟨verdict, rfl, hvalid, hallow, rfl⟩ := afterVerdict_admitted hdeferral
      · exact hopen
      · obtain hforeign | ⟨requestId, p, r, hwaits, hr, hexchange⟩ := hx
        · cases hforeign
        · have hpoll : p = poll := by
            unfold GateThread.waitsFor at hwaits
            rw [hp] at hwaits
            exact (Option.some.inj hwaits).symm
          subst hpoll
          obtain ⟨v, rfl, rfl⟩ := verdict_of_exchange hexchange hvalid
          obtain ⟨hdecision, hid⟩ := verdict_fields v
          rw [hdecision, isText_utf8] at hallow
          exact ⟨p, v, rfl, hask, hr, WireEnum.wire_inj v.decision .allow hallow, hid⟩
    | denied | refused | raised => exact trivial
  · rw [playerConnecting_after _ hk.license, hy]

/-- the thread goes on with the nonce it was given -/
theorem GateThread.Knows.issued (hk : t.Knows c s) (hp : t.point = .requestNonce) {x : Exchange} (hx : Heard s t x)
    {issued : LuaValue} (h : afterNonce c.failOpen x = .inr issued) {poll : Nat} {nonce : String}
    (hnonce : isText (issued.field "nonce") nonce = true)
    (hstep : Backend.System.step P (.request poll (.verdict c.authorization (verdictBody nonce))) s = some s') :
    GateThread.Knows c s' { t with point := .pollVerdict poll } := by
  have hk' := hk.step hstep
  refine ⟨hk'.license, hk'.request, ?_, x, issued, h⟩
  obtain ⟨rfl, hvalid⟩ := afterNonce_inr h
  obtain hforeign | ⟨requestId, p, r, hwaits, hr, hexchange⟩ := hx
  · cases hforeign
  · have hrequest : p = t.request := by
      unfold GateThread.waitsFor at hwaits
      rw [hp] at hwaits
      exact (Option.some.inj hwaits).symm
    subst hrequest
    obtain ⟨a, rfl, rfl⟩ := nonce_of_exchange hexchange hvalid
    rw [nonceJson_nonce, isText_utf8] at hnonce
    subst hnonce
    obtain ⟨_, _, hproc⟩ := Backend.System.step_request hstep
    exact ⟨a, _, response_stays hstep hr, Backend.System.task_of_proc hproc, rfl⟩

end

/-! ## the runs -/

theorem update_some {α : Type} {f : Nat → Option α} {n m : Nat} {x y : α} (h : update f n (some x) m = some y) :
    m = n ∧ y = x ∨ m ≠ n ∧ f m = some y := by
  by_cases hm : m = n
  · subst hm
    rw [update_self] at h
    exact .inl ⟨rfl, (Option.some.inj h).symm⟩
  · rw [update_of_ne hm] at h
    exact .inr ⟨hm, h⟩

namespace World

/-- the states of all runs -/
def Reachable (P : Backend.Platform) (c : Setup) (w : World) : Prop :=
  ∃ w₀ : World, w₀.Initial ∧ Machine.Steps (World.step P c) Machine.free w₀ w

/-- what every run keeps -/
structure Kept (P : Backend.Platform) (c : Setup) (w : World) : Prop where
  backend : Backend.Reachable P w.backend
  knows : ∀ n t, w.threads n = some t → t.Knows c w.backend
  distinct : ∀ n m t u, w.threads n = some t → w.threads m = some u → t.request = u.request → n = m

variable {P : Backend.Platform} {c : Setup} {w w' : World} {n : Nat} {t u : GateThread} {backend : Backend.System}

theorem Initial.kept (h : w.Initial) : Kept P c w := by
  refine ⟨⟨w.backend, h.backend, .refl _⟩, fun n t ht => ?_, fun n m t u ht => ?_⟩
  · rw [h.threads] at ht
    cases ht
  · rw [h.threads] at ht
    cases ht

/-- the backend takes a step -/
theorem Kept.step (h : Kept P c w) {e : Backend.Event} (he : Backend.System.step P e w.backend = some backend) :
    Kept P c { w with backend := backend } :=
  ⟨h.backend.step he, fun n t ht => (h.knows n t ht).step he, h.distinct⟩

/-- a thread goes on, and keeps its first request -/
theorem Kept.put (h : Kept P c w) (ht : w.threads n = some t) (hu : u.Knows c w.backend)
    (hrequest : u.request = t.request) : Kept P c (w.put n u) := by
  refine ⟨h.backend, fun m x hx => ?_, fun m k x y hx hy heq => ?_⟩
  · obtain ⟨rfl, rfl⟩ | ⟨_, hx⟩ := update_some hx
    · exact hu
    · exact h.knows m x hx
  · have hold : ∀ m x, (w.put n u).threads m = some x →
        ∃ y, w.threads m = some y ∧ y.request = x.request := by
      intro m x hx
      obtain ⟨rfl, rfl⟩ | ⟨_, hx⟩ := update_some hx
      · exact ⟨t, ht, hrequest.symm⟩
      · exact ⟨x, hx, rfl⟩
    obtain ⟨x', hx', hxr⟩ := hold m x hx
    obtain ⟨y', hy', hyr⟩ := hold k y hy
    exact h.distinct m k x' y' hx' hy' (hxr.trans (heq.trans hyr.symm))

theorem Kept.resume (h : Kept P c w) (ht : w.threads n = some t) {x : Exchange} (hx : Heard w.backend t x)
    {poll : Nat} {nonce : String} (hstep : w.resume P c n t x poll nonce = some w') : Kept P c w' := by
  have hk := h.knows n t ht
  unfold World.resume at hstep
  cases hp : t.point with
  | requestNonce =>
    rw [hp] at hstep
    dsimp only at hstep
    cases hnext : afterNonce c.failOpen x with
    | inl deferral =>
      rw [hnext] at hstep
      cases hstep
      exact h.put ht (hk.refused hnext) rfl
    | inr issued =>
      rw [hnext] at hstep
      dsimp only at hstep
      split at hstep
      · rename_i hnonce
        obtain ⟨backend, hbackend, rfl⟩ := Option.map_eq_some_iff.mp hstep
        exact (h.step hbackend).put ht (hk.issued hp hx hnext hnonce hbackend) rfl
      · cases hstep
  | pollVerdict poll' =>
    rw [hp] at hstep
    cases hstep
    exact h.put ht (hk.polled hp hx) rfl
  | done poll' deferral =>
    rw [hp] at hstep
    cases hstep

/-- a player connects, with a request of his own -/
theorem Kept.connect (h : Kept P c w) {player : Protocol.PlayerIdentifiers} {request : Nat}
    {entropy : Backend.NonceBytes} {iv : Backend.SealIv} (hlicense : player.license ≠ "")
    (hstep : Backend.System.step P
      (.request request (.nonce c.authorization (c.nonceBody player) c.backend entropy iv)) w.backend = some backend) :
    Kept P c { w.put n ⟨player, request, .requestNonce⟩ with backend := backend } := by
  obtain ⟨hfree, _, hproc⟩ := Backend.System.step_request hstep
  have hkept := h.step hstep
  refine ⟨hkept.backend, fun k x hx => ?_, fun k l x y hk hl heq => ?_⟩
  · obtain ⟨rfl, rfl⟩ | ⟨_, hx⟩ := update_some hx
    · exact ⟨hlicense, ⟨_, Backend.System.task_of_proc hproc, rfl⟩, trivial⟩
    · exact hkept.knows k x hx
  · have hother : ∀ k x, w.threads k = some x → x.request ≠ request := by
      intro k x hold heq
      obtain ⟨n, hn, _⟩ := (h.knows k x hold).request
      rw [heq, Backend.System.task, hfree] at hn
      cases hn
    obtain ⟨hkn, rfl⟩ | ⟨_, hx⟩ := update_some hk
    · obtain ⟨hln, _⟩ | ⟨_, hy⟩ := update_some hl
      · exact hkn.trans hln.symm
      · exact absurd heq.symm (hother l y hy)
    · obtain ⟨_, rfl⟩ | ⟨_, hy⟩ := update_some hl
      · exact absurd heq (hother k x hx)
      · exact h.distinct k l x y hx hy heq

/-- **One step.** -/
theorem Kept.next (h : Kept P c w) {e : WorldEvent} (he : World.step P c e w = some w') : Kept P c w' := by
  cases e with
  | backend e =>
    obtain ⟨backend, hbackend, rfl⟩ := Option.map_eq_some_iff.mp he
    exact h.step hbackend
  | connect m player request entropy iv =>
    simp only [World.step] at he
    split at he
    · rename_i hnew
      simp only [Bool.and_eq_true, Option.isNone_iff_eq_none, bne_iff_ne] at hnew
      obtain ⟨backend, hbackend, rfl⟩ := Option.map_eq_some_iff.mp he
      exact h.connect hnew.2 hbackend
    · cases he
  | reply m requestId poll nonce =>
    obtain ⟨t, ht, hrest⟩ := Option.bind_eq_some_iff.mp he
    obtain ⟨x, hx, hresume⟩ := Option.bind_eq_some_iff.mp hrest
    obtain ⟨r, hr, hexchange⟩ := Option.bind_eq_some_iff.mp hx
    obtain ⟨p, hp, hres⟩ := Option.bind_eq_some_iff.mp hr
    exact h.resume ht (.inr ⟨requestId, p, r, hp, hres, hexchange⟩) hresume
  | noReply m x =>
    simp only [World.step] at he
    split at he
    · rename_i hforeign
      obtain ⟨t, ht, hresume⟩ := Option.bind_eq_some_iff.mp he
      exact h.resume ht (.inl hforeign) hresume
    · cases he

theorem Reachable.kept (h : Reachable P c w) : Kept P c w := by
  obtain ⟨w₀, hw₀, hrun⟩ := h
  exact hrun.inv (Kept P c) (fun _ _ _ hw _ he => hw.next he) hw₀.kept

end World

/-! ## who is let in -/

/-- the session a player was let in on -/
structure LetIn (P : Backend.Platform) (c : Setup) (s : Backend.System) (t : GateThread) (sessionId : LuaValue)
    (r : Backend.AttestationSession) : Prop where
  row : r ∈ s.db.sessions
  tracked : sessionId = .string (Text.utf8 r.id.toText)
  /-- it was created for his own request -/
  issued : ∃ n session, s.task t.request = some (.nonce n) ∧ n.point.session? = some session ∧ session.id = r.id
  server : r.gameServerId.toText = c.serverId
  address : P.inetIn t.player.ip = some r.gameIp
  player : s.db.players.Has Row.key (r.playerIdentityId, r.tenantId, t.player.license)
  /-- a computer was looked at, or the tenant does without -/
  grounds : (∃ pid a, Backend.AttestedBy P s r pid a) ∨ ∃ tenant ∈ s.db.tenants, tenant.id = r.tenantId ∧
    tenant.failMode = .fail_open

section
variable {P : Backend.Platform} {c : Setup} {w : World} {n m : Nat} {t u : GateThread} {poll : Option Nat}

theorem World.Kept.ended (h : World.Kept P c w) (ht : w.threads n = some t) {deferral : Deferral}
    (hd : t.point = .done poll deferral) : t.Ended c w.backend poll deferral ∧ t.AsWritten c deferral := by
  have hholds := (h.knows n t ht).holds
  unfold GateThread.Holds at hholds
  rw [hd] at hholds
  exact hholds

/-- a nonce is as long as the schema of the query wants it -/
theorem utf16Length_generateNonce (entropy : Backend.NonceBytes) :
    Text.utf16Length (Backend.generateNonce entropy) = 64 := by
  have hunits : ∀ d < 16, Text.utf16Chars [Nat.digitChar d] = 1 := by decide
  have hbytes : ∀ bytes : List UInt8, Text.utf16Chars (bytes.flatMap Text.hexByte) = 2 * bytes.length := by
    intro bytes
    induction bytes with
    | nil => rfl
    | cons b bytes ih =>
      have hlt := b.toNat_lt
      have hhigh := hunits (b.toNat / 16) (by omega)
      have hlow := hunits (b.toNat % 16) (Nat.mod_lt _ (by decide))
      rw [List.flatMap_cons, List.length_cons]
      show Text.utf16Chars (_ :: _ :: List.flatMap Text.hexByte bytes) = _
      rw [Text.utf16Chars, Text.utf16Chars, ih]
      rw [Text.utf16Chars, Text.utf16Chars] at hhigh hlow
      omega
  rw [Backend.generateNonce, Text.hex, Text.utf16Length_ofList, hbytes, entropy.len]

/-- the poll is for a nonce of the backend -/
theorem parseQuery_verdictBody (entropy : Backend.NonceBytes) :
    Backend.VerdictTask.parseQuery (verdictBody (Backend.generateNonce entropy)) =
      some (Backend.generateNonce entropy) := by
  rw [Backend.VerdictTask.parseQuery]
  show (some (Backend.generateNonce entropy)).filter _ = _
  rw [Option.filter_some, utf16Length_generateNonce]
  rfl

/-- a request that is answered with a verdict has come to it -/
theorem verdict_of_response {s : Backend.System} {p : Nat} {q : Backend.VerdictTask} {v : Verdict}
    (hq : s.task p = some (.verdict q)) (hres : s.response p = some (.verdict v)) :
    (Backend.Task.verdict q).response = some (.verdict v) := by
  obtain ⟨proc, hproc, hv⟩ := Option.bind_eq_some_iff.mp hres
  have htask : proc.task = .verdict q := Option.some.inj ((Backend.System.task_of_proc hproc).symm.trans hq)
  unfold Backend.Proc.response at hv
  split at hv
  · cases hv
  · rw [htask] at hv
    exact hv

/-- the row a nonce was issued for says what the gate has sent -/
theorem World.Kept.issued_row (h : World.Kept P c w) {k : Nat} (ht : w.threads k = some t) {n : Backend.NonceTask}
    {session : Backend.SessionRow} (hn : w.backend.task t.request = some (.nonce n))
    (hissued : ∃ answer, n.point = .issued session answer) : ∃ r ∈ w.backend.db.sessions, r.id = session.id ∧
      r.nonceHash = Backend.hashNonce P n.nonce ∧ r.gameServerId.toText = c.serverId ∧
        P.inetIn t.player.ip = some r.gameIp ∧
          w.backend.db.players.Has Row.key (r.playerIdentityId, r.tenantId, t.player.license) := by
  obtain ⟨answer, hp⟩ := hissued
  have hissues : n.Issues P w.backend.db := h.backend.issues t.request n hn
  unfold Backend.NonceTask.Issues at hissues
  rw [hp] at hissues
  obtain ⟨auth, body, hreads, r, hr, hrid, hfor⟩ := hissues
  obtain ⟨y, hy, hyid, hyhash⟩ := h.backend.issued_nonce hn (by rw [hp]; rfl)
  have hyr : y = r := Backend.Db.eq_of_id hy hr (hyid.trans hrid.symm)
  subst hyr
  obtain ⟨n', hn', hsent⟩ := (h.knows k t ht).request
  rw [hn] at hn'
  cases hn'
  have hparsed := hreads.parsed
  rw [hsent] at hparsed
  obtain ⟨hserver, hplayer⟩ := safeParse_nonceBody hparsed
  refine ⟨y, hr, hrid, hyhash, ?_, ?_, ?_⟩
  · rw [hfor.server, ← hreads.server, hserver]
  · rw [← hplayer]
    exact hfor.address
  · rw [hfor.tenant, ← hplayer]
    exact hfor.player

theorem World.Kept.letIn (h : World.Kept P c w) {k : Nat} (ht : w.threads k = some t) {sessionId : LuaValue}
    (hd : t.point = .done poll (.admitted (some sessionId))) : ∃ r, LetIn P c w.backend t sessionId r := by
  obtain ⟨p, v, _, ⟨a, q, hanswer, hq, hbody⟩, hres, hallow, hid⟩ := (h.ended ht hd).1
  obtain ⟨n, session, hn, hp⟩ := Backend.System.nonce_of_response hanswer
  have hsession : n.point.session? = some session := by
    rw [hp]
    rfl
  -- the nonce it polled with is the one of its session
  have hanswered : a = n.answer session := h.backend.issuance.answer t.request n session a hn hp
  have hquery : Backend.VerdictTask.parseQuery q.body = some n.nonce := by
    rw [hbody, hanswered]
    exact parseQuery_verdictBody n.entropy
  obtain ⟨⟨x, hx, hxid, hxhash⟩, hgranted⟩ := h.backend.allowed hq hquery (verdict_of_response hq hres) hallow
  obtain ⟨r, hr, hrid, hrhash, hserver, haddress, hplayer⟩ := h.issued_row ht hn ⟨_, hp⟩
  have hxr : x = r := Backend.Db.eq_of_nonceHash hx hr (hxhash.trans hrhash.symm)
  subst hxr
  rw [← hxid] at hgranted hid
  exact ⟨x, hr, hid, ⟨n, session, hn, hsession, hrid.symm⟩, hserver, haddress, hplayer,
    hgranted.sound h.backend hr⟩

/-- **The deferral** of a thread is the one of `playerConnecting`. -/
theorem ended_eq (h : World.Reachable P c w) (ht : w.threads n = some t) {deferral : Deferral}
    (hd : t.point = .done poll deferral) :
    ∃ issued polled, deferral = playerConnecting true c.failOpen t.player.license issued polled :=
  (h.kept.ended ht hd).2

/-- **Who is let in.** A player whose deferral is done without a message is on a session of his own, created for his
license and his address on this server, and his computer was attested for it, unless the tenant or, while the
backend is out of reach, the server itself admits players without. -/
theorem admitted_sound (h : World.Reachable P c w) (ht : w.threads n = some t) {tracked : Option LuaValue}
    (hd : t.point = .done poll (.admitted tracked)) : (tracked = none ∧ c.failOpen = true) ∨
      ∃ sessionId r, tracked = some sessionId ∧ LetIn P c w.backend t sessionId r := by
  cases tracked with
  | none => exact .inl ⟨rfl, (h.kept.ended ht hd).1⟩
  | some sessionId =>
    obtain ⟨r, hr⟩ := h.kept.letIn ht hd
    exact .inr ⟨sessionId, r, rfl, hr⟩

/-- **One session, one player.** Two players are let in on two sessions, and no attestation counts for both. -/
theorem one_player_each (h : World.Reachable P c w) (ht : w.threads n = some t) (hu : w.threads m = some u)
    (hne : n ≠ m) {poll' : Option Nat} {sessionId sessionId' : LuaValue}
    (hd : t.point = .done poll (.admitted (some sessionId)))
    (hd' : u.point = .done poll' (.admitted (some sessionId'))) : sessionId ≠ sessionId' ∧
      ∀ r r' pid a a', LetIn P c w.backend t sessionId r → LetIn P c w.backend u sessionId' r' →
        Backend.AttestedBy P w.backend r pid a → ¬ Backend.AttestedBy P w.backend r' pid a' := by
  have hids : ∀ r r', LetIn P c w.backend t sessionId r → LetIn P c w.backend u sessionId' r' →
      r.id ≠ r'.id := by
    intro r r' hr hr' hid
    obtain ⟨x, session, hx, hsession, hxid⟩ := hr.issued
    obtain ⟨y, session', hy, hsession', hyid⟩ := hr'.issued
    have hrequest : t.request = u.request := h.kept.backend.issuance.unique _ _ x y session session' hx hy hsession
      hsession' (hxid.trans (hid.trans hyid.symm))
    exact hne (h.kept.distinct n m t u ht hu hrequest)
  constructor
  · rintro rfl
    obtain ⟨r, hr⟩ := h.kept.letIn ht hd
    obtain ⟨r', hr'⟩ := h.kept.letIn hu hd'
    have htext : r.id.toText = r'.id.toText :=
      Text.utf8_injective (LuaValue.string.inj (hr.tracked.symm.trans hr'.tracked))
    have hid : some r.id = some r'.id := by
      rw [← Uuid.ofText_toText, ← Uuid.ofText_toText, htext]
    exact hids r r' hr hr' (Option.some.inj hid)
  · intro r r' pid a a' hr hr' hby hby'
    obtain ⟨ha, session, hcons, hid⟩ := hby.consumed
    obtain ⟨ha', session', hcons', hid'⟩ := hby'.consumed
    rw [ha] at ha'
    cases ha'
    rw [hcons] at hcons'
    cases hcons'
    exact hids r r' hr hr' (hid.symm.trans hid')

end

/-! ## two players -/

namespace Connecting
open Backend.Deployment

def setup : Setup := ⟨"00000000-0000-0000-0000-000000000002", "k", true, config⟩

def start (failMode : FailMode) : World := ⟨deployment failMode, fun _ => none⟩

def player : Protocol.PlayerIdentifiers := ⟨"license:1", none, none, "203.0.113.42"⟩

/-- the backend takes its turns -/
def during (es : List Backend.Event) : List WorldEvent := es.map .backend

/-- the player connects and is given the nonce -/
def issuing : List WorldEvent :=
  .connect 0 player 0 entropy sealIv :: during (turns 0 4) ++ [.reply 0 "req-1" 1 nonce]

/-- his companion attests while the gate polls -/
def attesting : List WorldEvent :=
  during [.request 2 (.attest "203.0.113.42" (attestBody []))] ++ during (turns 2 5 ++ turns 1 2) ++
    [.reply 0 "req-2" 0 ""]

def attestation : Backend.Proc :=
  ⟨.attest ⟨⟨nonce, snapshotWith .enabled [], none, 1⟩, "203.0.113.42", true, .claim⟩, false⟩

theorem run_attesting (w : World) : Machine.run (World.step platform setup) attesting w =
    if (w.backend.procs 2).isNone then Machine.run (World.step platform setup)
      (during (turns 2 5 ++ turns 1 2) ++ [.reply 0 "req-2" 0 ""])
      { w with backend := w.backend.put 2 attestation }
    else none := by
  have hparse := safeParse_snapshotBody no_notes (Nat.zero_le 32) .enabled
  rw [attesting, during, List.map_cons, List.map_nil, List.append_assoc, List.singleton_append, Machine.run,
    World.step, Backend.System.step, Backend.Request.start, attestBody, hparse]
  split <;> rfl

def admitted? (t : GateThread) : Bool :=
  match t.point with
  | .done _ (.admitted (some _)) => true
  | _ => false

theorem of_admitted? {t : GateThread} (h : admitted? t = true) :
    ∃ poll sessionId, t.point = .done poll (.admitted (some sessionId)) := by
  unfold admitted? at h
  split at h
  · rename_i poll sessionId hp
    exact ⟨poll, sessionId, hp⟩
  · cases h

theorem reachable_run {failMode : FailMode} {es : List WorldEvent} {w : World}
    (h : Machine.run (World.step platform setup) es (start failMode) = some w) : World.Reachable platform setup w :=
  ⟨start failMode, ⟨deployment_initial failMode, rfl⟩, Machine.Steps.of_run _ _ _ h⟩

/-- his computer is attested, and the tenant insists on it -/
theorem admitted_attested : ∃ (w : World) (t : GateThread) (sessionId : LuaValue) (r : Backend.AttestationSession),
    w.threads 0 = some t ∧ LetIn platform setup w.backend t sessionId r := by
  have hrun : (Machine.run (World.step platform setup) (issuing ++ attesting) (start .fail_closed)).any
      (fun w => (w.threads 0).any admitted?) = true := by
    rw [Machine.run_append]
    simp only [run_attesting]
    decide +kernel
  obtain ⟨w, hw, hfacts⟩ := (Option.any_eq_true _ _).mp hrun
  obtain ⟨t, ht, hadmitted⟩ := (Option.any_eq_true _ _).mp hfacts
  obtain ⟨poll, sessionId, hd⟩ := of_admitted? hadmitted
  obtain ⟨hnone, _⟩ | ⟨sessionId', r, _, hr⟩ := admitted_sound (reachable_run hw) ht hd
  · cases hnone
  · exact ⟨w, t, sessionId', r, ht, hr⟩

/-- another player connects -/
def issuingAnother : List WorldEvent :=
  .connect 1 ⟨"license:2", none, none, "203.0.113.42"⟩ 2 ⟨List.replicate 32 255, by decide⟩ sealIv ::
    during (List.replicate 4 (.exec 2 (Uuid.small 8))) ++ [.reply 1 "req-3" 3 otherNonce]

/-- nobody attests, and both polls run into their deadline -/
def timingOut : List WorldEvent :=
  during (turns 1 2 ++ turns 3 2 ++ [.tick 20000] ++ turns 1 2 ++ turns 3 2) ++
    [.reply 0 "req-2" 0 "", .reply 1 "req-4" 0 ""]

theorem one_player_each_open : ∃ (w : World) (t u : GateThread) (sessionId sessionId' : LuaValue),
    w.threads 0 = some t ∧ w.threads 1 = some u ∧ sessionId ≠ sessionId' := by
  have hrun : (Machine.run (World.step platform setup) (issuing ++ issuingAnother ++ timingOut)
      (start .fail_open)).any (fun w => (w.threads 0).any admitted? && (w.threads 1).any admitted?) = true := by
    decide +kernel
  obtain ⟨w, hw, hfacts⟩ := (Option.any_eq_true _ _).mp hrun
  rw [Bool.and_eq_true] at hfacts
  obtain ⟨t, ht, hadmitted⟩ := (Option.any_eq_true _ _).mp hfacts.1
  obtain ⟨u, hu, hadmitted'⟩ := (Option.any_eq_true _ _).mp hfacts.2
  obtain ⟨poll, sessionId, hd⟩ := of_admitted? hadmitted
  obtain ⟨poll', sessionId', hd'⟩ := of_admitted? hadmitted'
  exact ⟨w, t, u, sessionId, sessionId', ht, hu,
    (one_player_each (reachable_run hw) ht hu (by decide) hd hd').1⟩

end Connecting

end Resource
