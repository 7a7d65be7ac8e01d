import FiveProtect.Backend.Service

/-!
# Backend: the routes of the companion

`services/backend/src/routes/attest.ts`: `POST /v1/companion/pending`, `/v1/companion/outcome`,
`/v1/attest` (with `processAttestation` of `attestation/service.ts`) and `/v1/sessions/heartbeat`,
as state machines of the same kind as the routes of the game server.
-/

namespace Backend
open Protocol IsoTime

/-! ## POST /v1/companion/pending -/

inductive PendingPoint where
  | read
  | check
  | sleep (wakeAt : Time)
  | answered (answer : CompanionPollResponse)
  | refused (e : ApiError)

structure PendingTask where
  clientIp : String
  config : Config
  deadline : Time
  point : PendingPoint

namespace PendingTask

/-- `normaliseIp(clientIp(request))` -/
def origin (t : PendingTask) : String := normaliseIp t.clientIp

def found (session : PendingSessionRow) (nonce : String) : CompanionPollResponse where
  pending := true
  nonce := some nonce
  serverName := some session.serverName
  policyTier := some session.policyTier
  expiresAt := some (toISOString session.expiresAt)
  protocolVersion := protocolVersion

def empty : CompanionPollResponse where
  pending := false
  nonce := none
  serverName := none
  policyTier := none
  expiresAt := none
  protocolVersion := protocolVersion

def exec (P : Platform) (now : Time) (db : Db) (t : PendingTask) :
    Except SqlError (Write × PendingPoint) :=
  match t.point with
  | .read =>
    match findPendingByGameIp P now db t.origin with
    | .error e => .error e
    | .ok [] => .ok (.none, .check)
    | .ok [session] =>
      match session.nonceSealed with
      | none => .ok (.none, .check)
      | some sealed =>
        match openNonce P.aes t.config.nonceSealKey sealed with
        | none => .ok (.none, .refused .internal)
        | some nonce => .ok (.none, .answered (found session nonce))
    | .ok _ => .ok (.none, .refused
        (.conflict "origin_ambiguous" "more than one connect is pending from this address"))
  | .check =>
    if t.deadline ≤ now then .ok (.none, .answered empty)
    else .ok (.none, .sleep (now + 250))
  | .sleep _ => .ok (.none, .read)
  | .answered answer => .ok (.none, .answered answer)
  | .refused e => .ok (.none, .refused e)

end PendingTask

/-! ## POST /v1/companion/outcome -/

inductive OutcomePoint where
  | read
  | check
  | sleep (wakeAt : Time)
  | answered (verdict : Verdict)
  | pending
  | refused (e : ApiError)

structure OutcomeTask where
  request : CompanionOutcomeRequest
  clientIp : String
  deadline : Time
  point : OutcomePoint

namespace OutcomeTask

def unknownSession : ApiError := .notFound "session_unknown" "no such session"

def exec (now : Time) (P : Platform) (db : Db) (t : OutcomeTask) :
    Except SqlError (Write × OutcomePoint) :=
  match t.point with
  | .read =>
    match findByIdUnscoped P db t.request.sessionId with
    | .error e => .error e
    | .ok none => .ok (.none, .refused unknownSession)
    | .ok (some session) =>
      if session.attestationIp.any fun ip => normaliseIp ip ≠ normaliseIp t.clientIp then
        .ok (.none, .refused unknownSession)
      else if session.verdictDecision ≠ .pending then
        .ok (.none, .answered (toVerdict session))
      else .ok (.none, .check)
  | .check =>
    if t.deadline ≤ now then .ok (.none, .pending)
    else .ok (.none, .sleep (now + 250))
  | .sleep _ => .ok (.none, .read)
  | .answered verdict => .ok (.none, .answered verdict)
  | .pending => .ok (.none, .pending)
  | .refused e => .ok (.none, .refused e)

end OutcomeTask

/-! ## POST /v1/attest -/

/-- what `consumeNonce` returns -/
inductive ConsumeResult where
  | consumed (session : SessionRow)
  | unknown
  | expired (session : SessionRow)
  | already_consumed (session : SessionRow)
  deriving DecidableEq

inductive AttestPoint where
  | claim
  | classify
  | rejected (result : ConsumeResult) (e : ApiError)
  | storeSnapshot (session : SessionRow)
  | isBuildAccepted (session : SessionRow)
  | evaluatePolicy (session : SessionRow) (buildAccepted : Bool)
  | recordVerdict (session : SessionRow) (buildAccepted : Bool) (outcome : PolicyOutcome)
  | accepted (session : SessionRow) (buildAccepted : Bool) (outcome : PolicyOutcome)
      (ack : AttestationAck)

structure AttestTask where
  request : AttestationRequest
  clientIp : String
  /-- no text of the snapshot has half of a surrogate pair; `request` has U+FFFD in its place -/
  wellFormed : Bool
  point : AttestPoint

namespace AttestTask

/-- the second half of `consumeNonce`: what the `SELECT` tells a caller whose `UPDATE` found no
row -/
def classify (existing : Option SessionRow) : ConsumeResult :=
  match existing with
  | none => .unknown
  | some row => if row.consumedAt ≠ none then .already_consumed row else .expired row

/-- what `processAttestation` throws for a result other than `consumed` -/
def rejection : ConsumeResult → ApiError
  | .expired _ => .conflict "nonce_expired" "the nonce is no longer valid"
  | .already_consumed _ => .conflict "nonce_reused" "the nonce was already used"
  | _ => .notFound "nonce_unknown" "no session for this nonce"

def policyInput (t : AttestTask) (session : SessionRow) (buildAccepted : Bool) : PolicyInput where
  tier := session.policyTier
  snapshot := t.request.snapshot
  gameIp := session.gameIp
  attestationIp := t.clientIp
  buildAccepted := buildAccepted

/-- the texts of a snapshot that `jsonb` has to take -/
def snapshotTexts (s : SystemSnapshot) : List String :=
  [s.collectedAt, s.companionVersion, s.companionBuildHash, s.osBuild] ++
    s.tpm.manufacturer.toList ++ s.tpm.specVersion.toList ++ s.tpm.attestationKeyId.toList ++
    (s.gameProcess.map GameProcessEvidence.imageName).toList ++ s.probeErrors

/-- `jsonb` takes what `JSON.stringify` makes of the snapshot: neither `\u0000` nor the escape of half a
pair -/
def storable (t : AttestTask) : Bool :=
  (snapshotTexts t.request.snapshot).all Text.noNul && t.wellFormed

def ackOf (now : Time) (session : SessionRow) : AttestationAck where
  accepted := true
  sessionId := session.id
  receivedAt := toISOString now
  heartbeatIntervalSeconds := heartbeatIntervalSeconds

def exec (P : Platform) (now : Time) (uuid : Uuid) (db : Db) (t : AttestTask) :
    Except SqlError (Write × AttestPoint) :=
  match t.point with
  | .claim =>
    match inetParam P t.clientIp with
    | .error e => .error e
    | .ok ip =>
      let w := Write.consumeNonce (hashNonce P t.request.nonce) ip
      match findClaimable P now db t.request.nonce with
      | some r => .ok (w, .storeSnapshot ((r.claim now ip).columns P))
      | none => .ok (w, .classify)
  | .classify =>
    let result := classify (findByHash P db t.request.nonce)
    .ok (.none, .rejected result (rejection result))
  | .storeSnapshot session =>
    match P.timestamptzIn t.request.snapshot.collectedAt with
    | none => .error .invalidText
    | some collectedAt =>
      if t.storable then
        .ok (.storeSnapshot
          { id := uuid
            tenantId := session.tenantId
            sessionId := session.id
            companionBuildHash := t.request.snapshot.companionBuildHash
            companionVersion := t.request.snapshot.companionVersion
            collectedAt := collectedAt
            receivedAt := now
            payload := t.request.snapshot }, .isBuildAccepted session)
      else .error .invalidText
  | .isBuildAccepted session =>
    .ok (.none, .evaluatePolicy session
      (isBuildAccepted db t.request.snapshot.companionBuildHash))
  | .evaluatePolicy session buildAccepted =>
    .ok (.none, .recordVerdict session buildAccepted
      (Backend.evaluatePolicy (t.policyInput session buildAccepted)))
  | .recordVerdict session buildAccepted outcome =>
    .ok (.recordVerdict session.tenantId session.id outcome.update,
      .accepted session buildAccepted outcome (ackOf now session))
  | .rejected result e => .ok (.none, .rejected result e)
  | .accepted session buildAccepted outcome ack =>
    .ok (.none, .accepted session buildAccepted outcome ack)

end AttestTask

/-! ## POST /v1/sessions/heartbeat -/

inductive HeartbeatPoint where
  | read
  | currentBuildHash (session : SessionRow)
  | terminateSession (session : SessionRow) (reason : DenyReason)
  | recordHeartbeat (session : SessionRow)
  | answered (answer : HeartbeatResponse)
  | refused (e : ApiError)

structure HeartbeatTask where
  beat : HeartbeatRequest
  point : HeartbeatPoint

namespace HeartbeatTask

/-- why this heartbeat ends its session, if it does -/
def ending (beat : HeartbeatRequest) (snapshotBuild : Option String) : Option DenyReason :=
  if snapshotBuild.any fun build => build ≠ beat.companionBuildHash then some .companion_outdated
  else if beat.closing = some true then some .heartbeat_lost
  else if !beat.gameProcessPresent then some .game_process_missing
  else none

/-- `rowCount > 0` of `recordHeartbeat` -/
def extended (db : Db) (sessionId : Uuid) : Bool :=
  (db.sessions.find fun r => r.id == sessionId && r.state = .active).isSome

def exec (P : Platform) (db : Db) (t : HeartbeatTask) : Except SqlError (Write × HeartbeatPoint) :=
  match t.point with
  | .read =>
    match findByIdUnscoped P db t.beat.sessionId with
    | .error e => .error e
    | .ok none => .ok (.none, .refused (.notFound "session_unknown" "no such session"))
    | .ok (some session) => .ok (.none, .currentBuildHash session)
  | .currentBuildHash session =>
    match ending t.beat (Backend.currentBuildHash db session.id) with
    | some reason => .ok (.none, .terminateSession session reason)
    | none => .ok (.none, .recordHeartbeat session)
  | .terminateSession session reason =>
    .ok (.terminateSession session.id reason, .answered (terminateResponse reason))
  | .recordHeartbeat session =>
    .ok (.recordHeartbeat session.id heartbeatGraceSeconds,
      .answered (if extended db session.id then acknowledgeResponse
        else terminateResponse .heartbeat_lost))
  | .answered answer => .ok (.none, .answered answer)
  | .refused e => .ok (.none, .refused e)

end HeartbeatTask

end Backend
