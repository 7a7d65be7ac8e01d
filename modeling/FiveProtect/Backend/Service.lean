import FiveProtect.Backend.Sessions

/-!
# Backend: verdicts, liveness and answers

`attestation/service.ts` (`toVerdict`, `timeoutVerdict`, `TIMING`), `buildLiveness` of
`routes/sessions.ts`, `errors.ts` and the answers the routes send.
-/

namespace Backend
open Protocol IsoTime

/-- `TIMING.heartbeatIntervalSeconds` in milliseconds -/
def heartbeatIntervalMs : Time := heartbeatIntervalSeconds * 1000

/-- interval and grace period together, in milliseconds -/
def heartbeatLimitMs : Time := (heartbeatIntervalSeconds + heartbeatGraceSeconds) * 1000

/-- the wire verdict from a stored session -/
def toVerdict (session : SessionRow) : Verdict where
  decision := session.verdictDecision
  sessionId := session.id
  reasons := session.verdictReasons
  requirements := session.verdictRequirements
  remediation := session.verdictRemediation
  policyTier := session.policyTier
  evaluatedAt := toISOString (session.evaluatedAt.getD session.issuedAt)
  failOpen := session.failOpen

def timeoutRequirements : List RequirementResult :=
  [⟨.companion_attested, .fail, some "keine Attestation innerhalb des Zeitfensters"⟩]

/-- the verdict for a session that never produced an attestation -/
def timeoutVerdict (session : SessionRow) (failMode : FailMode) (now : Time) : Verdict :=
  match failMode with
  | .fail_open =>
    { decision := .allow
      sessionId := session.id
      reasons := []
      requirements := timeoutRequirements
      remediation := none
      policyTier := session.policyTier
      evaluatedAt := toISOString now
      failOpen := true }
  | .fail_closed =>
    { decision := .deny
      sessionId := session.id
      reasons := [.companion_timeout]
      requirements := timeoutRequirements
      remediation := some ((buildRemediation [.companion_timeout] timeoutRequirements).getD
        "FiveProtect hat nicht rechtzeitig geantwortet.")
      policyTier := session.policyTier
      evaluatedAt := toISOString now
      failOpen := false }

/-- what the poll writes for a timeout verdict -/
def timeoutUpdate (v : Verdict) : VerdictUpdate where
  decision := if v.decision = .allow then .allow else .deny
  reasons := v.reasons
  requirements := v.requirements
  remediation := v.remediation
  failOpen := v.failOpen

/-- what `processAttestation` writes for an evaluation -/
def PolicyOutcome.update (outcome : PolicyOutcome) : VerdictUpdate where
  decision := outcome.decision
  reasons := outcome.reasons
  requirements := outcome.requirements
  remediation := buildRemediation outcome.reasons outcome.requirements
  failOpen := false

/-- turns heartbeat timestamps into a decision the resource can act on -/
def buildLiveness (session : SessionRow) (now : Time) : LivenessResponse :=
  if session.state = .terminated then
    { sessionId := session.id
      state := session.state
      lastHeartbeatAt := session.lastHeartbeatAt.map toISOString
      graceExpiresAt := none
      shouldKick := true
      reason := some (session.terminationReason.getD .heartbeat_lost) }
  else match session.state, session.lastHeartbeatAt with
    | .active, some last =>
      if now ≤ last + heartbeatIntervalMs then
        { sessionId := session.id
          state := session.state
          lastHeartbeatAt := some (toISOString last)
          graceExpiresAt := none
          shouldKick := false
          reason := none }
      else
        { sessionId := session.id
          state := session.state
          lastHeartbeatAt := some (toISOString last)
          graceExpiresAt := some (toISOString (last + heartbeatLimitMs))
          shouldKick := decide (last + heartbeatLimitMs ≤ now)
          reason := if last + heartbeatLimitMs ≤ now then some .heartbeat_lost else none }
    | _, _ =>
      { sessionId := session.id
        state := session.state
        lastHeartbeatAt := none
        graceExpiresAt := none
        shouldKick := false
        reason := none }

/-- an active session is kicked exactly when interval and grace have passed since the last beat -/
theorem buildLiveness_active {session : SessionRow} {last : Time} (hs : session.state = .active)
    (hl : session.lastHeartbeatAt = some last) (now : Time) :
    (buildLiveness session now).shouldKick = true ↔ last + heartbeatLimitMs ≤ now := by
  have hne : session.state ≠ .terminated := by
    rw [hs]
    decide
  unfold buildLiveness
  rw [if_neg hne, hs, hl]
  by_cases h : now ≤ last + heartbeatIntervalMs
  · have hlt : now < last + heartbeatLimitMs :=
      lt_of_le_of_lt h (Nat.add_lt_add_left (by decide) last)
    simp [h, hlt]
  · simp [h]

/-! ## answers -/

structure ApiError where
  status : Nat
  code : String
  message : String
  deriving DecidableEq

namespace ApiError

def badRequest (code message : String) : ApiError := ⟨400, code, message⟩
def unauthorized : ApiError := ⟨401, "unauthorized", "server key is missing or invalid"⟩
def forbidden (code message : String) : ApiError := ⟨403, code, message⟩
def notFound (code message : String) : ApiError := ⟨404, code, message⟩
def conflict (code message : String) : ApiError := ⟨409, code, message⟩
/-- an `ApiError.internal()`, and what `setErrorHandler` answers to any unhandled error -/
def internal : ApiError := ⟨500, "internal_error", "internal error"⟩
/-- `parse` of `routes/sessions.ts` -/
def malformed : ApiError :=
  badRequest "malformed_request" "the request body did not match the protocol"

end ApiError

/-- what a route answers; the status is `Response.status` -/
inductive Response where
  | nonce (body : NonceResponse)
  | verdict (body : Verdict)
  | verdictPending
  | liveness (body : LivenessResponse)
  | pending (body : CompanionPollResponse)
  | ack (body : AttestationAck)
  | heartbeat (body : HeartbeatResponse)
  | error (e : ApiError)
  deriving DecidableEq

def Response.status : Response → Nat
  | .nonce _ => 201
  | .verdictPending => 202
  | .ack _ => 202
  | .error e => e.status
  | _ => 200

/-- `terminate(reason)` of `routes/attest.ts` -/
def terminateResponse (reason : DenyReason) : HeartbeatResponse where
  acknowledged := false
  nextIntervalSeconds := heartbeatIntervalSeconds
  terminate := true
  terminateReason := some reason

def acknowledgeResponse : HeartbeatResponse where
  acknowledged := true
  nextIntervalSeconds := heartbeatIntervalSeconds
  terminate := false
  terminateReason := none

/-- the parts of the configuration the routes use -/
structure Config where
  nonceSealKey : SealKey
  publicBaseUrl : String

/-- the key of an `Authorization: Bearer` header -/
def bearerKey (authorization : Option String) : Option String :=
  match authorization with
  | none => none
  | some header =>
    if Text.startsWith header "Bearer " then some (Text.trim (Text.slice header 7)) else none

/-- `requireServer` of `app.ts` -/
def requireServer (P : Platform) (db : Db) (authorization : Option String) :
    Except ApiError AuthenticatedServer :=
  match (bearerKey authorization).bind (authenticateServerKey P db) with
  | none => .error .unauthorized
  | some auth =>
    if auth.tenant.licenseStatus = .active then .ok auth
    else .error (.forbidden "license_inactive"
      ("the license for this tenant is " ++ auth.tenant.licenseStatus.text))

/-- an authorized request has its tenant and its server from the database -/
theorem mem_of_requireServer {P : Platform} {db : Db} {authorization : Option String} {auth : AuthenticatedServer}
    (h : requireServer P db authorization = .ok auth) :
    auth.tenant ∈ db.tenants ∧ auth.server ∈ db.gameServers ∧
      auth.tenant.id = auth.server.tenantId ∧ auth.tenant.licenseStatus = .active := by
  unfold requireServer at h
  split at h
  · cases h
  · rename_i auth' hauth
    split at h
    · rename_i hactive
      cases h
      obtain ⟨key, _, hkey⟩ := Option.bind_eq_some_iff.mp hauth
      obtain ⟨server, hserver, hrest⟩ := Option.bind_eq_some_iff.mp hkey
      obtain ⟨tenant, htenant, he⟩ := Option.bind_eq_some_iff.mp hrest
      cases he
      have ht := Table.mem_of_find htenant
      exact ⟨ht.1, (Table.mem_of_find hserver).1, beq_iff_eq.mp ht.2, hactive⟩
    · cases h

end Backend
