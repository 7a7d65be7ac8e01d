import FiveProtect.Backend.Service

/-!
# Backend: the routes of the game server

`services/backend/src/routes/sessions.ts`: `POST /v1/sessions/nonce`, `POST /v1/sessions/verdict`
and `GET /v1/sessions/:id/liveness`, each as a state machine whose points are the places where the
handler waits.  A turn (`exec`) runs one SQL statement, or the code up to the next wait when there
is no statement: it returns the statement (`Write`) and the next point, or the error the statement
raises.  Points carry the local variables that are still in scope.
-/

namespace Backend
open Protocol IsoTime

/-! ## POST /v1/sessions/nonce -/

inductive NoncePoint where
  | auth
  | upsertPlayer (auth : AuthenticatedServer) (body : NonceRequest)
  | createSession (auth : AuthenticatedServer) (body : NonceRequest) (playerIdentityId : Uuid)
  | touchServer (auth : AuthenticatedServer) (session : SessionRow)
  | issued (session : SessionRow) (answer : NonceResponse)
  | refused (e : ApiError)

structure NonceTask where
  authorization : Option String
  body : Json
  config : Config
  /-- what `randomBytes(32)` returns in this request -/
  entropy : NonceBytes
  /-- what `randomBytes(IV_BYTES)` returns in this request -/
  iv : SealIv
  point : NoncePoint

namespace NonceTask

def nonce (t : NonceTask) : String := generateNonce t.entropy

/-- the row `createSession` inserts -/
def newSession (P : Platform) (now : Time) (id : Uuid) (t : NonceTask) (auth : AuthenticatedServer)
    (playerIdentityId : Uuid) (gameIp : Inet) : AttestationSession where
  id := id
  tenantId := auth.tenant.id
  gameServerId := auth.server.id
  playerIdentityId := playerIdentityId
  nonceHash := hashNonce P t.nonce
  nonceSealed := some (sealNonce P.aes t.config.nonceSealKey t.iv t.nonce)
  gameIp := gameIp
  policyTier := auth.tenant.policyTier
  state := .pending
  issuedAt := now
  expiresAt := now + nonceTtlSeconds * 1000
  consumedAt := none
  attestedAt := none
  attestationIp := none
  verdictDecision := .pending
  verdictReasons := []
  verdictRequirements := []
  verdictRemediation := none
  failOpen := false
  evaluatedAt := none
  lastHeartbeatAt := none
  graceExpiresAt := none
  terminatedAt := none
  terminationReason := none

def answer (t : NonceTask) (session : SessionRow) : NonceResponse where
  nonce := t.nonce
  sessionId := session.id
  expiresAt := toISOString session.expiresAt
  policyTier := session.policyTier
  backendUrl := t.config.publicBaseUrl
  protocolVersion := protocolVersion

/-- the texts of a player that PostgreSQL has to take -/
def playerTexts (player : PlayerIdentifiers) : List String :=
  [player.license] ++ player.steam.toList ++ player.discord.toList

def exec (P : Platform) (now : Time) (uuid : Uuid) (db : Db) (t : NonceTask) :
    Except SqlError (Write × NoncePoint) :=
  match t.point with
  | .auth =>
    match requireServer P db t.authorization with
    | .error e => .ok (.none, .refused e)
    | .ok auth =>
      match NonceRequest.safeParse t.body with
      | none => .ok (.none, .refused .malformed)
      | some body =>
        if body.serverId = auth.server.id.toText then .ok (.none, .upsertPlayer auth body)
        else .ok (.none, .refused
          (.forbidden "server_mismatch" "the server key does not match serverId"))
  | .upsertPlayer auth body =>
    if (playerTexts body.player).all Text.noNul then
      .ok (.upsertPlayer uuid auth.tenant.id body.player.license body.player.steam
          body.player.discord,
        .createSession auth body
          ((Write.hasPlayer db auth.tenant.id body.player.license).elim uuid PlayerIdentity.id))
    else .error .invalidText
  | .createSession auth body playerIdentityId =>
    match inetParam P body.player.ip with
    | .error e => .error e
    | .ok gameIp =>
      let row := t.newSession P now uuid auth playerIdentityId gameIp
      .ok (.createSession row, .touchServer auth (row.columns P))
  | .touchServer auth session =>
    .ok (.touchServer auth.tenant.id auth.server.id, .issued session (t.answer session))
  | .issued session answer => .ok (.none, .issued session answer)
  | .refused e => .ok (.none, .refused e)

end NonceTask

/-! ## POST /v1/sessions/verdict -/

/-- `POLL_INTERVAL_MS`, also `PENDING_POLL_INTERVAL_MS` -/
def pollIntervalMs : Time := 250

inductive VerdictPoint where
  | auth
  | read (auth : AuthenticatedServer) (nonce : String) (deadline : Time)
  | check (auth : AuthenticatedServer) (nonce : String) (deadline : Time) (session : SessionRow)
  | sleep (auth : AuthenticatedServer) (nonce : String) (deadline wakeAt : Time)
  | write (auth : AuthenticatedServer) (deadline : Time) (session : SessionRow) (verdict : Verdict)
  | timedOut (auth : AuthenticatedServer) (deadline : Time) (session : SessionRow)
      (verdict : Verdict)
  | answered (verdict : Verdict)
  | refused (e : ApiError)

structure VerdictTask where
  authorization : Option String
  body : Json
  point : VerdictPoint

namespace VerdictTask

/-- `parse(VerdictQuery, body)`: other members are stripped, not refused -/
def parseQuery (body : Json) : Option String :=
  ((body.get? "nonce").bind Json.text?).filter fun nonce => Text.utf16Length nonce == 64

def exec (P : Platform) (now : Time) (db : Db) (t : VerdictTask) :
    Except SqlError (Write × VerdictPoint) :=
  match t.point with
  | .auth =>
    match requireServer P db t.authorization with
    | .error e => .ok (.none, .refused e)
    | .ok auth =>
      match parseQuery t.body with
      | none => .ok (.none, .refused .malformed)
      | some nonce => .ok (.none, .read auth nonce (now + verdictPollTimeoutSeconds * 1000))
  | .read auth nonce deadline =>
    match findByNonce P db auth.tenant.id nonce with
    | none =>
      .ok (.none, .refused (.notFound "session_unknown" "no session for this nonce"))
    | some session =>
      if session.verdictDecision ≠ .pending then .ok (.none, .answered (toVerdict session))
      else .ok (.none, .check auth nonce deadline session)
  | .check auth nonce deadline session =>
    if deadline ≤ now then
      .ok (.none, .write auth deadline session (timeoutVerdict session auth.tenant.failMode now))
    else .ok (.none, .sleep auth nonce deadline (now + pollIntervalMs))
  | .sleep auth nonce deadline _ => .ok (.none, .read auth nonce deadline)
  | .write auth deadline session verdict =>
    .ok (.recordVerdict auth.tenant.id session.id (timeoutUpdate verdict),
      .timedOut auth deadline session verdict)
  | .timedOut auth deadline session verdict => .ok (.none, .timedOut auth deadline session verdict)
  | .answered verdict => .ok (.none, .answered verdict)
  | .refused e => .ok (.none, .refused e)

end VerdictTask

/-! ## GET /v1/sessions/:sessionId/liveness -/

inductive LivenessPoint where
  | auth
  | read (auth : AuthenticatedServer)
  | decide (session : SessionRow)
  | terminate (session : SessionRow) (answer : LivenessResponse)
  | answered (answer : LivenessResponse)
  | refused (e : ApiError)

structure LivenessTask where
  authorization : Option String
  sessionId : String
  point : LivenessPoint

namespace LivenessTask

def exec (P : Platform) (now : Time) (db : Db) (t : LivenessTask) :
    Except SqlError (Write × LivenessPoint) :=
  match t.point with
  | .auth =>
    match requireServer P db t.authorization with
    | .error e => .ok (.none, .refused e)
    | .ok auth => .ok (.none, .read auth)
  | .read auth =>
    match findById P db auth.tenant.id t.sessionId with
    | .error e => .error e
    | .ok none => .ok (.none, .refused (.notFound "session_unknown" "no such session"))
    | .ok (some session) => .ok (.none, .decide session)
  | .decide session =>
    let answer := buildLiveness session now
    if answer.shouldKick ∧ session.state ≠ .terminated then
      .ok (.none, .terminate session answer)
    else .ok (.none, .answered answer)
  | .terminate session answer =>
    .ok (.terminateSession session.id (answer.reason.getD .heartbeat_lost), .answered answer)
  | .answered answer => .ok (.none, .answered answer)
  | .refused e => .ok (.none, .refused e)

end LivenessTask

end Backend
