import FiveProtect.Backend.System

/-!
# Backend: the turns of the requests

What a turn of each request can be, as relations with one constructor a case: `NonceTask.Turn`,
`VerdictTask.Turn`, `LivenessTask.Turn`, `AttestTask.Turn`, `HeartbeatTask.Turn`.  From them:

* `Task.exec_consumeNonce`, `Task.exec_recordVerdict`, ... : which request issues a statement, and
  from where;
* `System.claim?`   the session a request claimed; `Move.claims`: a claim is never given up, and
                    a new one is a claiming `UPDATE` that found its row (`NewClaim`).
-/

namespace Backend
open Protocol Function

variable {P : Platform} {now : Time} {uuid : Uuid} {db : Db} {w : Write}

/-! ## POST /v1/attest -/

namespace AttestTask

inductive Turn (P : Platform) (now : Time) (uuid : Uuid) (db : Db) (a : AttestTask) :
    Write → AttestPoint → Prop
  | claimed {ip : Inet} {r : AttestationSession} (hp : a.point = .claim)
      (hip : P.inetIn a.clientIp = some ip) (hr : findClaimable P now db a.request.nonce = some r) :
      Turn P now uuid db a (.consumeNonce (hashNonce P a.request.nonce) ip)
        (.storeSnapshot ((r.claim now ip).columns P))
  | unclaimed {ip : Inet} (hp : a.point = .claim) (hip : P.inetIn a.clientIp = some ip)
      (hr : findClaimable P now db a.request.nonce = none) :
      Turn P now uuid db a (.consumeNonce (hashNonce P a.request.nonce) ip) .classify
  | classified (hp : a.point = .classify) :
      Turn P now uuid db a .none (.rejected (classify (findByHash P db a.request.nonce))
        (rejection (classify (findByHash P db a.request.nonce))))
  | stored {session : SessionRow} {collectedAt : Time} (hp : a.point = .storeSnapshot session)
      (hc : P.timestamptzIn a.request.snapshot.collectedAt = some collectedAt)
      (hn : a.storable = true) :
      Turn P now uuid db a (.storeSnapshot
        { id := uuid
          tenantId := session.tenantId
          sessionId := session.id
          companionBuildHash := a.request.snapshot.companionBuildHash
          companionVersion := a.request.snapshot.companionVersion
          collectedAt := collectedAt
          receivedAt := now
          payload := a.request.snapshot }) (.isBuildAccepted session)
  | lookedUp {session : SessionRow} (hp : a.point = .isBuildAccepted session) :
      Turn P now uuid db a .none (.evaluatePolicy session
        (isBuildAccepted db a.request.snapshot.companionBuildHash))
  | evaluated {session : SessionRow} {buildAccepted : Bool}
      (hp : a.point = .evaluatePolicy session buildAccepted) :
      Turn P now uuid db a .none (.recordVerdict session buildAccepted
        (Backend.evaluatePolicy (a.policyInput session buildAccepted)))
  | recorded {session : SessionRow} {buildAccepted : Bool} {outcome : PolicyOutcome}
      (hp : a.point = .recordVerdict session buildAccepted outcome) :
      Turn P now uuid db a (.recordVerdict session.tenantId session.id outcome.update)
        (.accepted session buildAccepted outcome (ackOf now session))
  | rejected {result : ConsumeResult} {e : ApiError} (hp : a.point = .rejected result e) :
      Turn P now uuid db a .none (.rejected result e)
  | accepted {session : SessionRow} {buildAccepted : Bool} {outcome : PolicyOutcome}
      {ack : AttestationAck} (hp : a.point = .accepted session buildAccepted outcome ack) :
      Turn P now uuid db a .none (.accepted session buildAccepted outcome ack)

theorem exec_turn {a : AttestTask} {pt : AttestPoint} (h : a.exec P now uuid db = .ok (w, pt)) :
    a.Turn P now uuid db w pt := by
  unfold exec at h
  split at h
  · rename_i hp
    unfold inetParam at h
    cases hip : P.inetIn a.clientIp with
    | none =>
      rw [hip] at h
      cases h
    | some ip =>
      rw [hip] at h
      cases hr : findClaimable P now db a.request.nonce with
      | none =>
        simp only [hr] at h
        cases h
        exact .unclaimed hp hip hr
      | some r =>
        simp only [hr] at h
        cases h
        exact .claimed hp hip hr
  · rename_i hp
    cases h
    exact .classified hp
  · rename_i session hp
    split at h
    · cases h
    · rename_i collectedAt hc
      split at h
      · rename_i hn
        cases h
        exact .stored hp hc hn
      · cases h
  · rename_i hp
    cases h
    exact .lookedUp hp
  · rename_i hp
    cases h
    exact .evaluated hp
  · rename_i hp
    cases h
    exact .recorded hp
  · rename_i hp
    cases h
    exact .rejected hp
  · rename_i hp
    cases h
    exact .accepted hp

end AttestTask

/-! ## POST /v1/sessions/verdict -/

namespace VerdictTask

inductive Turn (P : Platform) (now : Time) (db : Db) (t : VerdictTask) :
    Write → VerdictPoint → Prop
  | unauthorized {e : ApiError} (hp : t.point = .auth)
      (ha : requireServer P db t.authorization = .error e) : Turn P now db t .none (.refused e)
  | malformed {auth : AuthenticatedServer} (hp : t.point = .auth)
      (ha : requireServer P db t.authorization = .ok auth) (hq : parseQuery t.body = none) :
      Turn P now db t .none (.refused .malformed)
  | authorized {auth : AuthenticatedServer} {nonce : String} (hp : t.point = .auth)
      (ha : requireServer P db t.authorization = .ok auth) (hq : parseQuery t.body = some nonce) :
      Turn P now db t .none (.read auth nonce (now + verdictPollTimeoutSeconds * 1000))
  | unknown {auth : AuthenticatedServer} {nonce : String} {deadline : Time}
      (hp : t.point = .read auth nonce deadline)
      (hf : findByNonce P db auth.tenant.id nonce = none) :
      Turn P now db t .none (.refused (.notFound "session_unknown" "no session for this nonce"))
  | decided {auth : AuthenticatedServer} {nonce : String} {deadline : Time} {session : SessionRow}
      (hp : t.point = .read auth nonce deadline)
      (hf : findByNonce P db auth.tenant.id nonce = some session)
      (hd : session.verdictDecision ≠ .pending) :
      Turn P now db t .none (.answered (toVerdict session))
  | undecided {auth : AuthenticatedServer} {nonce : String} {deadline : Time}
      {session : SessionRow} (hp : t.point = .read auth nonce deadline)
      (hf : findByNonce P db auth.tenant.id nonce = some session)
      (hd : session.verdictDecision = .pending) :
      Turn P now db t .none (.check auth nonce deadline session)
  | overdue {auth : AuthenticatedServer} {nonce : String} {deadline : Time} {session : SessionRow}
      (hp : t.point = .check auth nonce deadline session) (hd : deadline ≤ now) :
      Turn P now db t .none
        (.write auth deadline session (timeoutVerdict session auth.tenant.failMode now))
  | early {auth : AuthenticatedServer} {nonce : String} {deadline : Time} {session : SessionRow}
      (hp : t.point = .check auth nonce deadline session) (hd : now < deadline) :
      Turn P now db t .none (.sleep auth nonce deadline (now + pollIntervalMs))
  | awake {auth : AuthenticatedServer} {nonce : String} {deadline wakeAt : Time}
      (hp : t.point = .sleep auth nonce deadline wakeAt) :
      Turn P now db t .none (.read auth nonce deadline)
  | recorded {auth : AuthenticatedServer} {deadline : Time} {session : SessionRow} {v : Verdict}
      (hp : t.point = .write auth deadline session v) :
      Turn P now db t (.recordVerdict auth.tenant.id session.id (timeoutUpdate v))
        (.timedOut auth deadline session v)
  | timedOut {auth : AuthenticatedServer} {deadline : Time} {session : SessionRow} {v : Verdict}
      (hp : t.point = .timedOut auth deadline session v) :
      Turn P now db t .none (.timedOut auth deadline session v)
  | answered {v : Verdict} (hp : t.point = .answered v) : Turn P now db t .none (.answered v)
  | refused {e : ApiError} (hp : t.point = .refused e) : Turn P now db t .none (.refused e)

theorem exec_turn {t : VerdictTask} {pt : VerdictPoint} (h : t.exec P now db = .ok (w, pt)) :
    t.Turn P now db w pt := by
  unfold exec at h
  split at h
  · rename_i hp
    split at h
    · rename_i e ha
      cases h
      exact .unauthorized hp ha
    · rename_i auth ha
      split at h
      · rename_i hq
        cases h
        exact .malformed hp ha hq
      · rename_i nonce hq
        cases h
        exact .authorized hp ha hq
  · rename_i hp
    split at h
    · rename_i hf
      cases h
      exact .unknown hp hf
    · rename_i session hf
      split at h
      · rename_i hd
        cases h
        exact .decided hp hf hd
      · rename_i hd
        cases h
        exact .undecided hp hf (not_not.mp hd)
  · rename_i hp
    split at h
    · rename_i hd
      cases h
      exact .overdue hp hd
    · rename_i hd
      cases h
      exact .early hp (not_le.mp hd)
  · rename_i hp
    cases h
    exact .awake hp
  · rename_i hp
    cases h
    exact .recorded hp
  · rename_i hp
    cases h
    exact .timedOut hp
  · rename_i hp
    cases h
    exact .answered hp
  · rename_i hp
    cases h
    exact .refused hp

end VerdictTask

/-! ## POST /v1/sessions/nonce -/

namespace NonceTask

inductive Turn (P : Platform) (now : Time) (uuid : Uuid) (db : Db) (t : NonceTask) :
    Write → NoncePoint → Prop
  | unauthorized {e : ApiError} (hp : t.point = .auth)
      (ha : requireServer P db t.authorization = .error e) :
      Turn P now uuid db t .none (.refused e)
  | malformed {auth : AuthenticatedServer} (hp : t.point = .auth)
      (ha : requireServer P db t.authorization = .ok auth)
      (hb : NonceRequest.safeParse t.body = none) : Turn P now uuid db t .none (.refused .malformed)
  | authorized {auth : AuthenticatedServer} {body : NonceRequest} (hp : t.point = .auth)
      (ha : requireServer P db t.authorization = .ok auth)
      (hb : NonceRequest.safeParse t.body = some body)
      (hid : body.serverId = auth.server.id.toText) :
      Turn P now uuid db t .none (.upsertPlayer auth body)
  | mismatch {auth : AuthenticatedServer} {body : NonceRequest} (hp : t.point = .auth)
      (ha : requireServer P db t.authorization = .ok auth)
      (hb : NonceRequest.safeParse t.body = some body)
      (hid : body.serverId ≠ auth.server.id.toText) :
      Turn P now uuid db t .none (.refused
        (.forbidden "server_mismatch" "the server key does not match serverId"))
  | upserted {auth : AuthenticatedServer} {body : NonceRequest}
      (hp : t.point = .upsertPlayer auth body)
      (hn : (playerTexts body.player).all Text.noNul = true) :
      Turn P now uuid db t (.upsertPlayer uuid auth.tenant.id body.player.license body.player.steam
          body.player.discord)
        (.createSession auth body
          ((Write.hasPlayer db auth.tenant.id body.player.license).elim uuid PlayerIdentity.id))
  | created {auth : AuthenticatedServer} {body : NonceRequest} {playerIdentityId : Uuid}
      {gameIp : Inet} (hp : t.point = .createSession auth body playerIdentityId)
      (hip : P.inetIn body.player.ip = some gameIp) :
      Turn P now uuid db t
        (.createSession (t.newSession P now uuid auth playerIdentityId gameIp))
        (.touchServer auth ((t.newSession P now uuid auth playerIdentityId gameIp).columns P))
  | touched {auth : AuthenticatedServer} {session : SessionRow}
      (hp : t.point = .touchServer auth session) :
      Turn P now uuid db t (.touchServer auth.tenant.id auth.server.id)
        (.issued session (t.answer session))
  | issued {session : SessionRow} {answer : NonceResponse} (hp : t.point = .issued session answer) :
      Turn P now uuid db t .none (.issued session answer)
  | refused {e : ApiError} (hp : t.point = .refused e) : Turn P now uuid db t .none (.refused e)

theorem exec_turn {t : NonceTask} {pt : NoncePoint} (h : t.exec P now uuid db = .ok (w, pt)) :
    t.Turn P now uuid db w pt := by
  unfold exec at h
  split at h
  · rename_i hp
    split at h
    · rename_i e ha
      cases h
      exact .unauthorized hp ha
    · rename_i auth ha
      split at h
      · rename_i hb
        cases h
        exact .malformed hp ha hb
      · rename_i body hb
        split at h
        · rename_i hid
          cases h
          exact .authorized hp ha hb hid
        · rename_i hid
          cases h
          exact .mismatch hp ha hb hid
  · rename_i hp
    split at h
    · rename_i hn
      cases h
      exact .upserted hp hn
    · cases h
  · rename_i auth body playerIdentityId hp
    unfold inetParam at h
    cases hip : P.inetIn body.player.ip with
    | none =>
      rw [hip] at h
      cases h
    | some gameIp =>
      rw [hip] at h
      cases h
      exact .created hp hip
  · rename_i hp
    cases h
    exact .touched hp
  · rename_i hp
    cases h
    exact .issued hp
  · rename_i hp
    cases h
    exact .refused hp

end NonceTask

/-! ## the routes that only read -/

theorem PendingTask.exec_write {t : PendingTask} {pt : PendingPoint}
    (h : t.exec P now db = .ok (w, pt)) : w = .none := by
  unfold exec at h
  repeat' split at h
  all_goals cases h
  all_goals rfl

theorem OutcomeTask.exec_write {t : OutcomeTask} {pt : OutcomePoint}
    (h : t.exec now P db = .ok (w, pt)) : w = .none := by
  unfold exec at h
  repeat' split at h
  all_goals cases h
  all_goals rfl

/-! ## GET /v1/sessions/:sessionId/liveness -/

namespace LivenessTask

inductive Turn (P : Platform) (now : Time) (db : Db) (t : LivenessTask) :
    Write → LivenessPoint → Prop
  | unauthorized {e : ApiError} (hp : t.point = .auth)
      (ha : requireServer P db t.authorization = .error e) : Turn P now db t .none (.refused e)
  | authorized {auth : AuthenticatedServer} (hp : t.point = .auth)
      (ha : requireServer P db t.authorization = .ok auth) : Turn P now db t .none (.read auth)
  | unknown {auth : AuthenticatedServer} (hp : t.point = .read auth)
      (hf : findById P db auth.tenant.id t.sessionId = .ok none) :
      Turn P now db t .none (.refused (.notFound "session_unknown" "no such session"))
  | found {auth : AuthenticatedServer} {session : SessionRow} (hp : t.point = .read auth)
      (hf : findById P db auth.tenant.id t.sessionId = .ok (some session)) :
      Turn P now db t .none (.decide session)
  | lapsed {session : SessionRow} (hp : t.point = .decide session)
      (hk : (buildLiveness session now).shouldKick = true) (hs : session.state ≠ .terminated) :
      Turn P now db t .none (.terminate session (buildLiveness session now))
  | kept {session : SessionRow} (hp : t.point = .decide session)
      (hk : ¬ ((buildLiveness session now).shouldKick = true ∧ session.state ≠ .terminated)) :
      Turn P now db t .none (.answered (buildLiveness session now))
  | terminated {session : SessionRow} {answer : LivenessResponse}
      (hp : t.point = .terminate session answer) :
      Turn P now db t (.terminateSession session.id (answer.reason.getD .heartbeat_lost))
        (.answered answer)
  | answered {answer : LivenessResponse} (hp : t.point = .answered answer) :
      Turn P now db t .none (.answered answer)
  | refused {e : ApiError} (hp : t.point = .refused e) : Turn P now db t .none (.refused e)

theorem exec_turn {t : LivenessTask} {pt : LivenessPoint} (h : t.exec P now db = .ok (w, pt)) :
    t.Turn P now db w pt := by
  unfold exec at h
  split at h
  · rename_i hp
    split at h
    · rename_i e ha
      cases h
      exact .unauthorized hp ha
    · rename_i auth ha
      cases h
      exact .authorized hp ha
  · rename_i auth hp
    split at h
    · cases h
    · rename_i hf
      cases h
      exact .unknown hp hf
    · rename_i session hf
      cases h
      exact .found hp hf
  · rename_i session hp
    dsimp only at h
    split at h
    · rename_i hk
      cases h
      exact .lapsed hp hk.1 hk.2
    · rename_i hk
      cases h
      exact .kept hp hk
  · rename_i hp
    cases h
    exact .terminated hp
  · rename_i hp
    cases h
    exact .answered hp
  · rename_i hp
    cases h
    exact .refused hp

theorem exec_write {t : LivenessTask} {pt : LivenessPoint} (h : t.exec P now db = .ok (w, pt)) :
    w = .none ∨ ∃ session answer, t.point = .terminate session answer ∧ pt = .answered answer ∧
      w = .terminateSession session.id (answer.reason.getD .heartbeat_lost) := by
  cases exec_turn h with
  | terminated hp => exact .inr ⟨_, _, hp, rfl, rfl⟩
  | _ => exact .inl rfl

end LivenessTask

/-! ## POST /v1/sessions/heartbeat -/

namespace HeartbeatTask

inductive Turn (P : Platform) (db : Db) (t : HeartbeatTask) : Write → HeartbeatPoint → Prop
  | unknown (hp : t.point = .read) (hf : findByIdUnscoped P db t.beat.sessionId = .ok none) :
      Turn P db t .none (.refused (.notFound "session_unknown" "no such session"))
  | found {session : SessionRow} (hp : t.point = .read)
      (hf : findByIdUnscoped P db t.beat.sessionId = .ok (some session)) :
      Turn P db t .none (.currentBuildHash session)
  | ends {session : SessionRow} {reason : DenyReason} (hp : t.point = .currentBuildHash session)
      (he : ending t.beat (Backend.currentBuildHash db session.id) = some reason) :
      Turn P db t .none (.terminateSession session reason)
  | prolongs {session : SessionRow} (hp : t.point = .currentBuildHash session)
      (he : ending t.beat (Backend.currentBuildHash db session.id) = none) :
      Turn P db t .none (.recordHeartbeat session)
  | terminated {session : SessionRow} {reason : DenyReason}
      (hp : t.point = .terminateSession session reason) :
      Turn P db t (.terminateSession session.id reason) (.answered (terminateResponse reason))
  | recorded {session : SessionRow} (hp : t.point = .recordHeartbeat session) :
      Turn P db t (.recordHeartbeat session.id heartbeatGraceSeconds)
        (.answered (if extended db session.id then acknowledgeResponse
          else terminateResponse .heartbeat_lost))
  | answered {answer : HeartbeatResponse} (hp : t.point = .answered answer) :
      Turn P db t .none (.answered answer)
  | refused {e : ApiError} (hp : t.point = .refused e) : Turn P db t .none (.refused e)

theorem exec_turn {t : HeartbeatTask} {pt : HeartbeatPoint} (h : t.exec P db = .ok (w, pt)) :
    t.Turn P db w pt := by
  unfold exec at h
  split at h
  · rename_i hp
    split at h
    · cases h
    · rename_i hf
      cases h
      exact .unknown hp hf
    · rename_i session hf
      cases h
      exact .found hp hf
  · rename_i session hp
    split at h
    · rename_i reason he
      cases h
      exact .ends hp he
    · rename_i he
      cases h
      exact .prolongs hp he
  · rename_i hp
    cases h
    exact .terminated hp
  · rename_i hp
    cases h
    exact .recorded hp
  · rename_i hp
    cases h
    exact .answered hp
  · rename_i hp
    cases h
    exact .refused hp

theorem exec_write {t : HeartbeatTask} {pt : HeartbeatPoint} (h : t.exec P db = .ok (w, pt)) :
    w = .none ∨ (∃ session reason, t.point = .terminateSession session reason ∧
        pt = .answered (terminateResponse reason) ∧ w = .terminateSession session.id reason) ∨
      ∃ session, t.point = .recordHeartbeat session ∧
        pt = .answered (if extended db session.id then acknowledgeResponse
          else terminateResponse .heartbeat_lost) ∧
        w = .recordHeartbeat session.id heartbeatGraceSeconds := by
  cases exec_turn h with
  | terminated hp => exact .inr (.inl ⟨_, _, hp, rfl, rfl⟩)
  | recorded hp => exact .inr (.inr ⟨_, hp, rfl, rfl⟩)
  | _ => exact .inl rfl

end HeartbeatTask

/-! ## who issues a statement -/

theorem map_ok {ε α β : Type} {x : Except ε α} {f : α → β} {b : β} (h : x.map f = .ok b) :
    ∃ a, x = .ok a ∧ f a = b := by
  cases x with
  | error e => cases h
  | ok a =>
    cases h
    exact ⟨a, rfl, rfl⟩

namespace Task

variable {t t' : Task}

theorem exec_attest {a : AttestTask} (h : (Task.attest a).exec P now uuid db = .ok (w, t')) :
    ∃ pt, t' = .attest { a with point := pt } ∧ a.Turn P now uuid db w pt := by
  obtain ⟨⟨w', pt⟩, hx, he⟩ := map_ok h
  cases he
  exact ⟨pt, rfl, AttestTask.exec_turn hx⟩

theorem exec_verdict {q : VerdictTask} (h : (Task.verdict q).exec P now uuid db = .ok (w, t')) :
    ∃ pt, t' = .verdict { q with point := pt } ∧ q.Turn P now db w pt := by
  obtain ⟨⟨w', pt⟩, hx, he⟩ := map_ok h
  cases he
  exact ⟨pt, rfl, VerdictTask.exec_turn hx⟩

theorem exec_nonce {n : NonceTask} (h : (Task.nonce n).exec P now uuid db = .ok (w, t')) :
    ∃ pt, t' = .nonce { n with point := pt } ∧ n.Turn P now uuid db w pt := by
  obtain ⟨⟨w', pt⟩, hx, he⟩ := map_ok h
  cases he
  exact ⟨pt, rfl, NonceTask.exec_turn hx⟩

theorem exec_liveness {l : LivenessTask} (h : (Task.liveness l).exec P now uuid db = .ok (w, t')) :
    ∃ pt, t' = .liveness { l with point := pt } ∧ l.Turn P now db w pt := by
  obtain ⟨⟨w', pt⟩, hx, he⟩ := map_ok h
  cases he
  exact ⟨pt, rfl, LivenessTask.exec_turn hx⟩

theorem exec_beat {b : HeartbeatTask} (h : (Task.heartbeat b).exec P now uuid db = .ok (w, t')) :
    ∃ pt, t' = .heartbeat { b with point := pt } ∧ b.Turn P db w pt := by
  obtain ⟨⟨w', pt⟩, hx, he⟩ := map_ok h
  cases he
  exact ⟨pt, rfl, HeartbeatTask.exec_turn hx⟩

/-- the requests that neither create, claim nor judge a session -/
def other : Task → Bool
  | .attest _ => false
  | .verdict _ => false
  | .nonce _ => false
  | _ => true

/-- the statements of the other requests -/
theorem exec_other (h : t.exec P now uuid db = .ok (w, t')) (ho : t.other = true) :
    t'.other = true ∧ (w = .none ∨ (∃ id reason, w = .terminateSession id reason) ∨
      ∃ id, w = .recordHeartbeat id heartbeatGraceSeconds) := by
  cases t with
  | attest _ | verdict _ | nonce _ => cases ho
  | refused e =>
    cases h
    exact ⟨rfl, .inl rfl⟩
  | pending t =>
    obtain ⟨⟨w', pt⟩, hx, he⟩ := map_ok h
    cases he
    exact ⟨rfl, .inl (PendingTask.exec_write hx)⟩
  | outcome t =>
    obtain ⟨⟨w', pt⟩, hx, he⟩ := map_ok h
    cases he
    exact ⟨rfl, .inl (OutcomeTask.exec_write hx)⟩
  | liveness t =>
    obtain ⟨⟨w', pt⟩, hx, he⟩ := map_ok h
    cases he
    obtain h | ⟨session, answer, _, _, h⟩ := LivenessTask.exec_write hx
    · exact ⟨rfl, .inl h⟩
    · exact ⟨rfl, .inr (.inl ⟨_, _, h⟩)⟩
  | heartbeat t =>
    obtain ⟨⟨w', pt⟩, hx, he⟩ := map_ok h
    cases he
    obtain h | ⟨session, reason, _, _, h⟩ | ⟨session, _, _, h⟩ := HeartbeatTask.exec_write hx
    · exact ⟨rfl, .inl h⟩
    · exact ⟨rfl, .inr (.inl ⟨_, _, h⟩)⟩
    · exact ⟨rfl, .inr (.inr ⟨_, h⟩)⟩

/-- a turn of any request -/
theorem exec_cases (h : t.exec P now uuid db = .ok (w, t')) :
    (∃ a pt, t = .attest a ∧ t' = .attest { a with point := pt } ∧ a.Turn P now uuid db w pt) ∨
    (∃ q pt, t = .verdict q ∧ t' = .verdict { q with point := pt } ∧ q.Turn P now db w pt) ∨
    (∃ n pt, t = .nonce n ∧ t' = .nonce { n with point := pt } ∧ n.Turn P now uuid db w pt) ∨
    (t.other = true ∧ t'.other = true ∧ (w = .none ∨
      (∃ id reason, w = .terminateSession id reason) ∨
        ∃ id, w = .recordHeartbeat id heartbeatGraceSeconds)) := by
  cases t with
  | attest a =>
    obtain ⟨pt, ht', hturn⟩ := exec_attest h
    exact .inl ⟨a, pt, rfl, ht', hturn⟩
  | verdict q =>
    obtain ⟨pt, ht', hturn⟩ := exec_verdict h
    exact .inr (.inl ⟨q, pt, rfl, ht', hturn⟩)
  | nonce n =>
    obtain ⟨pt, ht', hturn⟩ := exec_nonce h
    exact .inr (.inr (.inl ⟨n, pt, rfl, ht', hturn⟩))
  | _ => exact .inr (.inr (.inr ⟨rfl, exec_other h rfl⟩))

theorem exec_consumeNonce {digest : String} {ip : Inet}
    (h : t.exec P now uuid db = .ok (.consumeNonce digest ip, t')) :
    ∃ a pt, t = .attest a ∧ a.point = .claim ∧ digest = hashNonce P a.request.nonce ∧
      P.inetIn a.clientIp = some ip ∧ t' = .attest { a with point := pt } ∧
      (pt = .classify ∧ findClaimable P now db a.request.nonce = none ∨
        ∃ r, findClaimable P now db a.request.nonce = some r ∧
          pt = .storeSnapshot ((r.claim now ip).columns P)) := by
  obtain ⟨a, pt, rfl, ht', hturn⟩ | ⟨q, pt, rfl, _, hturn⟩ | ⟨n, pt, rfl, _, hturn⟩ |
    ⟨_, _, hw⟩ := exec_cases h
  · cases hturn with
    | claimed hp hip hr => exact ⟨a, _, rfl, hp, rfl, hip, ht', .inr ⟨_, hr, rfl⟩⟩
    | unclaimed hp hip hr => exact ⟨a, _, rfl, hp, rfl, hip, ht', .inl ⟨rfl, hr⟩⟩
  · cases hturn
  · cases hturn
  · simp at hw

theorem exec_recordVerdict {tenantId sessionId : Uuid} {v : VerdictUpdate}
    (h : t.exec P now uuid db = .ok (.recordVerdict tenantId sessionId v, t')) :
    (∃ a session buildAccepted outcome, t = .attest a ∧
      a.point = .recordVerdict session buildAccepted outcome ∧ tenantId = session.tenantId ∧
      sessionId = session.id ∧ v = outcome.update ∧ t' = .attest { a with
        point := .accepted session buildAccepted outcome (AttestTask.ackOf now session) }) ∨
    (∃ q auth deadline session verdict, t = .verdict q ∧
      q.point = .write auth deadline session verdict ∧ tenantId = auth.tenant.id ∧
      sessionId = session.id ∧ v = timeoutUpdate verdict ∧
      t' = .verdict { q with point := .timedOut auth deadline session verdict }) := by
  obtain ⟨a, pt, rfl, ht', hturn⟩ | ⟨q, pt, rfl, ht', hturn⟩ | ⟨n, pt, rfl, _, hturn⟩ |
    ⟨_, _, hw⟩ := exec_cases h
  · cases hturn with
    | @recorded session buildAccepted outcome hp =>
      exact .inl ⟨a, session, buildAccepted, outcome, rfl, hp, rfl, rfl, rfl, ht'⟩
  · cases hturn with
    | @recorded auth deadline session v hp =>
      exact .inr ⟨q, auth, deadline, session, v, rfl, hp, rfl, rfl, rfl, ht'⟩
  · cases hturn
  · simp at hw

theorem exec_of_claim {a : AttestTask} {ip : Inet} {r : AttestationSession}
    (hp : a.point = .claim) (hip : P.inetIn a.clientIp = some ip)
    (hr : findClaimable P now db a.request.nonce = some r) :
    (Task.attest a).exec P now uuid db = .ok
      (.consumeNonce (hashNonce P a.request.nonce) ip, .attest { a with
        point := .storeSnapshot ((r.claim now ip).columns P) }) := by
  simp only [exec, AttestTask.exec, hp, inetParam, hip, hr]
  rfl

theorem exec_of_recordVerdict {a : AttestTask} {session : SessionRow} {buildAccepted : Bool}
    {outcome : PolicyOutcome} (hp : a.point = .recordVerdict session buildAccepted outcome) :
    (Task.attest a).exec P now uuid db = .ok
      (.recordVerdict session.tenantId session.id outcome.update, .attest { a with
        point := .accepted session buildAccepted outcome (AttestTask.ackOf now session) }) := by
  simp only [exec, AttestTask.exec, hp]
  rfl

theorem exec_of_write {q : VerdictTask} {auth : AuthenticatedServer} {deadline : Time}
    {session : SessionRow} {v : Verdict} (hp : q.point = .write auth deadline session v) :
    (Task.verdict q).exec P now uuid db = .ok
      (.recordVerdict auth.tenant.id session.id (timeoutUpdate v),
        .verdict { q with point := .timedOut auth deadline session v }) := by
  simp only [exec, VerdictTask.exec, hp]
  rfl

theorem exec_of_recordHeartbeat {b : HeartbeatTask} {session : SessionRow}
    (hp : b.point = .recordHeartbeat session) :
    (Task.heartbeat b).exec P now uuid db = .ok (.recordHeartbeat session.id heartbeatGraceSeconds,
      .heartbeat { b with point := .answered (if HeartbeatTask.extended db session.id then
        acknowledgeResponse else terminateResponse .heartbeat_lost) }) := by
  simp only [exec, HeartbeatTask.exec, hp]
  rfl

theorem exec_of_terminateSession {b : HeartbeatTask} {session : SessionRow} {reason : DenyReason}
    (hp : b.point = .terminateSession session reason) :
    (Task.heartbeat b).exec P now uuid db = .ok (.terminateSession session.id reason,
      .heartbeat { b with point := .answered (terminateResponse reason) }) := by
  simp only [exec, HeartbeatTask.exec, hp]
  rfl

theorem exec_storeSnapshot {row : StoredSnapshot}
    (h : t.exec P now uuid db = .ok (.storeSnapshot row, t')) :
    ∃ a session, t = .attest a ∧ a.point = .storeSnapshot session ∧ row.sessionId = session.id ∧
      row.tenantId = session.tenantId ∧ row.payload = a.request.snapshot ∧
      row.companionBuildHash = a.request.snapshot.companionBuildHash ∧
      t' = .attest { a with point := .isBuildAccepted session } := by
  obtain ⟨a, pt, rfl, ht', hturn⟩ | ⟨q, pt, rfl, _, hturn⟩ | ⟨n, pt, rfl, _, hturn⟩ |
    ⟨_, _, hw⟩ := exec_cases h
  · cases hturn with
    | stored hp _ _ => exact ⟨a, _, rfl, hp, rfl, rfl, rfl, rfl, ht'⟩
  · cases hturn
  · cases hturn
  · simp at hw

theorem exec_createSession {row : AttestationSession}
    (h : t.exec P now uuid db = .ok (.createSession row, t')) :
    ∃ n auth body playerIdentityId gameIp, t = .nonce n ∧
      n.point = .createSession auth body playerIdentityId ∧
      P.inetIn body.player.ip = some gameIp ∧
      row = n.newSession P now uuid auth playerIdentityId gameIp ∧
      t' = .nonce { n with point := .touchServer auth (row.columns P) } := by
  obtain ⟨a, pt, rfl, _, hturn⟩ | ⟨q, pt, rfl, _, hturn⟩ | ⟨n, pt, rfl, ht', hturn⟩ |
    ⟨_, _, hw⟩ := exec_cases h
  · cases hturn
  · cases hturn
  · cases hturn with
    | created hp hip => exact ⟨n, _, _, _, _, rfl, hp, hip, rfl, ht'⟩
  · simp at hw

theorem exec_terminateSession {id : Uuid} {reason : DenyReason}
    (h : t.exec P now uuid db = .ok (.terminateSession id reason, t')) :
    (∃ l session answer, t = .liveness l ∧ l.point = .terminate session answer ∧
      id = session.id ∧ reason = answer.reason.getD .heartbeat_lost ∧
      t' = .liveness { l with point := .answered answer }) ∨
    ∃ b session, t = .heartbeat b ∧ b.point = .terminateSession session reason ∧
      id = session.id ∧ t' = .heartbeat { b with point := .answered (terminateResponse reason) } := by
  cases t with
  | liveness l =>
    obtain ⟨pt, rfl, hturn⟩ := exec_liveness h
    cases hturn with
    | terminated hp => exact .inl ⟨l, _, _, rfl, hp, rfl, rfl, rfl⟩
  | heartbeat b =>
    obtain ⟨pt, rfl, hturn⟩ := exec_beat h
    cases hturn with
    | terminated hp => exact .inr ⟨b, _, rfl, hp, rfl, rfl⟩
  | attest a =>
    obtain ⟨pt, _, hturn⟩ := exec_attest h
    cases hturn
  | verdict q =>
    obtain ⟨pt, _, hturn⟩ := exec_verdict h
    cases hturn
  | nonce n =>
    obtain ⟨pt, _, hturn⟩ := exec_nonce h
    cases hturn
  | pending p =>
    obtain ⟨⟨w', pt⟩, hx, he⟩ := map_ok h
    rw [PendingTask.exec_write hx] at he
    cases he
  | outcome o =>
    obtain ⟨⟨w', pt⟩, hx, he⟩ := map_ok h
    rw [OutcomeTask.exec_write hx] at he
    cases he
  | refused e => cases h

end Task

/-! ## where a request came from -/

section
variable {s s' : System}

/-- the places a request starts from -/
theorem Request.start_attest {rq : Request} {a : AttestTask} (h : rq.start now = .attest a) :
    a.point = .claim := by
  cases rq <;> simp only [Request.start] at h
  all_goals
    try split at h
    all_goals cases h
    all_goals rfl

theorem Request.start_verdict {rq : Request} {q : VerdictTask} (h : rq.start now = .verdict q) :
    q.point = .auth := by
  cases rq <;> simp only [Request.start] at h
  all_goals
    try split at h
    all_goals cases h
    all_goals rfl

theorem Request.start_nonce {rq : Request} {n : NonceTask} (h : rq.start now = .nonce n) :
    n.point = .auth := by
  cases rq <;> simp only [Request.start] at h
  all_goals
    try split at h
    all_goals cases h
    all_goals rfl

theorem Request.start_liveness {rq : Request} {l : LivenessTask} (h : rq.start now = .liveness l) :
    l.point = .auth := by
  cases rq <;> simp only [Request.start] at h
  all_goals
    try split at h
    all_goals cases h
    all_goals rfl

theorem Move.of_attest (h : Move P s s') {pid : Nat} {a' : AttestTask}
    (ht : s'.task pid = some (.attest a')) :
    s.task pid = some (.attest a') ∨ (a'.point = .claim ∧ s'.db = s.db) ∨
      ∃ uuid w a pt, s.task pid = some (.attest a) ∧ a' = { a with point := pt } ∧
        a.Turn P s.now uuid s.db w pt ∧ w.exec s.now s.db = .ok s'.db ∧ s'.now = s.now ∧
        s'.task = update s.task pid (some (.attest { a with point := pt })) := by
  obtain hsame | ⟨rq, hstart, hdb⟩ | ⟨uuid, w, t, ht₀, hexec, hw, hnow, htask⟩ :=
    h.of_task_some ht
  · exact .inl hsame
  · exact .inr (.inl ⟨Request.start_attest hstart.symm, hdb⟩)
  · obtain ⟨a, pt, rfl, he, hturn⟩ | ⟨_, _, _, he, _⟩ | ⟨_, _, _, he, _⟩ | ⟨_, he, _⟩ :=
      Task.exec_cases hexec
    · cases he
      exact .inr (.inr ⟨uuid, w, a, pt, ht₀, rfl, hturn, hw, hnow, htask⟩)
    · cases he
    · cases he
    · cases he

theorem Move.of_verdict (h : Move P s s') {pid : Nat} {q' : VerdictTask}
    (ht : s'.task pid = some (.verdict q')) :
    s.task pid = some (.verdict q') ∨ (q'.point = .auth ∧ s'.db = s.db) ∨
      ∃ w q pt, s.task pid = some (.verdict q) ∧ q' = { q with point := pt } ∧
        q.Turn P s.now s.db w pt ∧ w.exec s.now s.db = .ok s'.db ∧ s'.now = s.now ∧
        s'.task = update s.task pid (some (.verdict { q with point := pt })) := by
  obtain hsame | ⟨rq, hstart, hdb⟩ | ⟨uuid, w, t, ht₀, hexec, hw, hnow, htask⟩ :=
    h.of_task_some ht
  · exact .inl hsame
  · exact .inr (.inl ⟨Request.start_verdict hstart.symm, hdb⟩)
  · obtain ⟨_, _, _, he, _⟩ | ⟨q, pt, rfl, he, hturn⟩ | ⟨_, _, _, he, _⟩ | ⟨_, he, _⟩ :=
      Task.exec_cases hexec
    · cases he
    · cases he
      exact .inr (.inr ⟨w, q, pt, ht₀, rfl, hturn, hw, hnow, htask⟩)
    · cases he
    · cases he

theorem Move.of_nonce (h : Move P s s') {pid : Nat} {n' : NonceTask}
    (ht : s'.task pid = some (.nonce n')) :
    s.task pid = some (.nonce n') ∨ (n'.point = .auth ∧ s'.db = s.db) ∨
      ∃ uuid w n pt, s.task pid = some (.nonce n) ∧ n' = { n with point := pt } ∧
        n.Turn P s.now uuid s.db w pt ∧ w.exec s.now s.db = .ok s'.db ∧ s'.now = s.now ∧
        s'.task = update s.task pid (some (.nonce { n with point := pt })) := by
  obtain hsame | ⟨rq, hstart, hdb⟩ | ⟨uuid, w, t, ht₀, hexec, hw, hnow, htask⟩ :=
    h.of_task_some ht
  · exact .inl hsame
  · exact .inr (.inl ⟨Request.start_nonce hstart.symm, hdb⟩)
  · obtain ⟨_, _, _, he, _⟩ | ⟨_, _, _, he, _⟩ | ⟨n, pt, rfl, he, hturn⟩ | ⟨_, he, _⟩ :=
      Task.exec_cases hexec
    · cases he
    · cases he
    · cases he
      exact .inr (.inr ⟨uuid, w, n, pt, ht₀, rfl, hturn, hw, hnow, htask⟩)
    · cases he

theorem Move.of_liveness (h : Move P s s') {pid : Nat} {l' : LivenessTask}
    (ht : s'.task pid = some (.liveness l')) :
    s.task pid = some (.liveness l') ∨ l'.point = .auth ∨
      ∃ w l pt, s.task pid = some (.liveness l) ∧ l' = { l with point := pt } ∧
        l.Turn P s.now s.db w pt ∧ w.exec s.now s.db = .ok s'.db ∧ s'.now = s.now := by
  obtain hsame | ⟨rq, hstart, _⟩ | ⟨uuid, w, t, ht₀, hexec, hw, hnow, _⟩ := h.of_task_some ht
  · exact .inl hsame
  · exact .inr (.inl (Request.start_liveness hstart.symm))
  · obtain ⟨_, _, _, he, _⟩ | ⟨_, _, _, he, _⟩ | ⟨_, _, _, he, _⟩ | ⟨hother, _, _⟩ :=
      Task.exec_cases hexec
    · cases he
    · cases he
    · cases he
    · cases t with
      | liveness l =>
        obtain ⟨pt, he, hturn⟩ := Task.exec_liveness hexec
        cases he
        exact .inr (.inr ⟨w, l, pt, ht₀, rfl, hturn, hw, hnow⟩)
      | attest | verdict | nonce => cases hother
      | refused e => cases hexec
      | _ =>
        obtain ⟨_, _, he⟩ := map_ok hexec
        cases he

/-- the statement of a move and who issued it -/
theorem Move.write (h : Move P s s') : ∃ w : Write, w.exec s.now s.db = .ok s'.db ∧
    (w = .none ∨ w = .expireStaleSessions ∨ ∃ pid uuid t t', s.task pid = some t ∧
      t.exec P s.now uuid s.db = .ok (w, t') ∧ s'.now = s.now ∧
      s'.task = update s.task pid (some t')) := by
  cases h with
  | idle hdb _ _ | start _ _ _ hdb _ _ => exact ⟨.none, by rw [hdb]; rfl, .inl rfl⟩
  | turn pid uuid t t' w ht hexec hw hnow htask =>
    exact ⟨w, hw, .inr (.inr ⟨pid, uuid, t, t', ht, hexec, hnow, htask⟩)⟩
  | sweep hw _ _ => exact ⟨_, hw, .inr (.inl rfl)⟩

/-- a session as it is inserted -/
structure Fresh (row : AttestationSession) : Prop where
  consumedAt : row.consumedAt = none
  state : row.state = .pending
  verdictDecision : row.verdictDecision = .pending

theorem Task.exec_fresh {t t' : Task} {row : AttestationSession}
    (h : t.exec P now uuid db = .ok (.createSession row, t')) : Fresh row := by
  obtain ⟨n, auth, body, playerIdentityId, gameIp, _, _, _, rfl, _⟩ := Task.exec_createSession h
  exact ⟨rfl, rfl, rfl⟩

/-- rows are inserted by `createSession` alone -/
theorem Move.newSession_fresh {w : Write} (hissue : w = .none ∨ w = .expireStaleSessions ∨
    ∃ pid uuid t t', s.task pid = some t ∧ t.exec P s.now uuid s.db = .ok (w, t') ∧
      s'.now = s.now ∧ s'.task = update s.task pid (some t')) {row : AttestationSession}
    (h : w.newSession = some row) : Fresh row := by
  cases w with
  | createSession row' =>
    cases h
    obtain h0 | h0 | ⟨_, _, _, _, _, hexec, _⟩ := hissue
    · cases h0
    · cases h0
    exact Task.exec_fresh hexec
  | _ => cases h

end

/-! ## claims -/

/-- a session row claimed for an attestation -/
structure Claim where
  request : AttestationRequest
  clientIp : String
  session : SessionRow

/-- the session an attestation works on, from the claiming `UPDATE` on -/
def AttestPoint.session? : AttestPoint → Option SessionRow
  | .storeSnapshot session => some session
  | .isBuildAccepted session => some session
  | .evaluatePolicy session _ => some session
  | .recordVerdict session _ _ => some session
  | .accepted session _ _ _ => some session
  | _ => none

def AttestTask.claim? (a : AttestTask) : Option Claim :=
  a.point.session?.map fun session => ⟨a.request, a.clientIp, session⟩

def Task.claim? : Task → Option Claim
  | .attest a => a.claim?
  | _ => none

/-- the claim of a request -/
def System.claim? (s : System) (pid : Nat) : Option Claim := (s.task pid).bind Task.claim?

theorem Request.claim?_start (now : Time) (rq : Request) : (rq.start now).claim? = none := by
  cases rq <;> simp only [Request.start]
  all_goals
    try split
    all_goals rfl

theorem Task.claim?_other {t : Task} (h : t.other = true) : t.claim? = none := by
  cases t with
  | attest a => cases h
  | _ => rfl

/-- a turn keeps the claim, unless it is the claiming `UPDATE` that found its row -/
theorem AttestTask.Turn.session?_eq {a : AttestTask} {pt : AttestPoint}
    (h : a.Turn P now uuid db w pt) : pt.session? = a.point.session? ∨
      ∃ ip r, a.point = .claim ∧ P.inetIn a.clientIp = some ip ∧
        findClaimable P now db a.request.nonce = some r ∧
        w = .consumeNonce (hashNonce P a.request.nonce) ip ∧
        pt = .storeSnapshot ((r.claim now ip).columns P) := by
  cases h with
  | @claimed ip r hp hip hr => exact .inr ⟨ip, r, hp, hip, hr, rfl, rfl⟩
  | unclaimed hp _ _ | classified hp | stored hp _ _ | lookedUp hp | evaluated hp | recorded hp =>
    left
    rw [hp]
    rfl
  | rejected hp | accepted hp =>
    left
    rw [hp]

section
variable {s s' : System}

theorem System.claim?_of_task {pid : Nat} {t : Task} (h : s.task pid = some t) :
    s.claim? pid = t.claim? := by
  rw [System.claim?, h]
  rfl

theorem System.claim?_update {pid : Nat} {t : Task}
    (h : s'.task = update s.task pid (some t)) : s'.claim? = update s.claim? pid t.claim? := by
  funext q
  by_cases hq : q = pid
  · subst hq
    rw [update_self, System.claim?, h, update_self]
    rfl
  · rw [update_of_ne hq, System.claim?, h, update_of_ne hq, System.claim?]

/-- a claiming `UPDATE` that found its row -/
structure NewClaim (P : Platform) (s s' : System) (pid : Nat) (a : AttestTask) (ip : Inet)
    (r : AttestationSession) : Prop where
  task : s.task pid = some (.attest a)
  point : a.point = .claim
  inet : P.inetIn a.clientIp = some ip
  found : findClaimable P s.now s.db a.request.nonce = some r
  exec : (Write.consumeNonce (hashNonce P a.request.nonce) ip).exec s.now s.db = .ok s'.db
  now : s'.now = s.now
  task' : s'.task = update s.task pid (some (.attest { a with
    point := .storeSnapshot ((r.claim s.now ip).columns P) }))
  claim' : s'.claim? = update s.claim? pid
    (some ⟨a.request, a.clientIp, (r.claim s.now ip).columns P⟩)

theorem NewClaim.claim_none {pid : Nat} {a : AttestTask} {ip : Inet} {r : AttestationSession}
    (h : NewClaim P s s' pid a ip r) : s.claim? pid = none := by
  rw [System.claim?_of_task h.task, Task.claim?, AttestTask.claim?, h.point]
  rfl

/-- **Claims.** A move keeps every claim; it makes at most one, by a claiming `UPDATE` that found
its row. -/
theorem Move.claims (h : Move P s s') :
    s'.claim? = s.claim? ∨ ∃ pid a ip r, NewClaim P s s' pid a ip r := by
  cases h with
  | idle _ _ htask | sweep _ _ htask =>
    left
    funext pid
    rw [System.claim?, htask, System.claim?]
  | start pid rq hnone _ _ htask =>
    left
    rw [System.claim?_update htask, Request.claim?_start]
    refine update_eq_self_iff.mpr ?_
    rw [System.claim?, hnone]
    rfl
  | turn pid uuid t t' w ht hexec hw hnow htask =>
    have hnew := System.claim?_update htask
    have hold := System.claim?_of_task ht
    -- the claim is what it was before the turn, or the turn is the claiming one
    have hkeep : t'.claim? = t.claim? → s'.claim? = s.claim? := fun heq =>
      hnew.trans (update_eq_self_iff.mpr (heq.trans hold.symm))
    obtain ⟨a, pt, rfl, rfl, hturn⟩ | ⟨_, _, rfl, rfl, _⟩ | ⟨_, _, rfl, rfl, _⟩ |
      ⟨hoth, hoth', _⟩ := Task.exec_cases hexec
    · obtain heq | ⟨ip, r, hp, hip, hr, rfl, rfl⟩ := hturn.session?_eq
      · left
        refine hkeep ?_
        rw [Task.claim?, AttestTask.claim?, Task.claim?, AttestTask.claim?, heq]
      · exact .inr ⟨pid, a, ip, r, ht, hp, hip, hr, hw, hnow, htask, hnew⟩
    · exact .inl (hkeep rfl)
    · exact .inl (hkeep rfl)
    · left
      refine hkeep ?_
      rw [Task.claim?_other hoth, Task.claim?_other hoth']

end
end Backend
