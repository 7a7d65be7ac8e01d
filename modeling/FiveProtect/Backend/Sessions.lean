import FiveProtect.Backend.Types
import Mathlib.Data.List.Sort

/-!
# Backend: the statements

`services/backend/src/repositories/sessions.ts` and `tenants.ts`, one statement at a time.

* the `SELECT`s are functions of the database: `findByNonce`, `findById`, `findByIdUnscoped`,
  `findPendingByGameIp`, `currentBuildHash`, `isBuildAccepted`, `authenticateServerKey`;
* every `INSERT` and `UPDATE` is a value of `Write`, a statement with its parameters, and
  `Write.exec` runs it.  What it does to one row of `attestation_sessions` is `Write.onSession`, a
  function of that row alone: `AttestationSession.claim`, `judge`, `beat`, `terminate`, `expire`
  under the statement's `WHERE`.

`Write.mem_sessions`, `Write.mem_snapshots` say what the rows are after a statement.
-/

namespace Backend
open Protocol

/-! ## one session row -/

namespace AttestationSession

/-- `SET` of the claiming `UPDATE` in `consumeNonce` -/
def claim (now : Time) (attestationIp : Inet) (r : AttestationSession) : AttestationSession :=
  { r with
    consumedAt := some now
    attestedAt := some now
    attestationIp := some attestationIp
    nonceSealed := none
    state := .attested }

/-- `WHERE` of the claiming `UPDATE` in `consumeNonce` -/
def claimable (now : Time) (digest : String) (r : AttestationSession) : Bool :=
  r.nonceHash == digest && r.consumedAt.isNone && decide (now < r.expiresAt)

end AttestationSession

/-- the parameter of `recordVerdict` -/
structure VerdictUpdate where
  decision : Decision
  reasons : List DenyReason
  requirements : List RequirementResult
  remediation : Option String
  failOpen : Bool
  deriving DecidableEq

/-- the same as columns of a row -/
def VerdictUpdate.verdict (v : VerdictUpdate) : VerdictDecision × List DenyReason ×
    List RequirementResult × Option String × Bool :=
  (v.decision.verdict, v.reasons, v.requirements, v.remediation, v.failOpen)

namespace AttestationSession

/-- `SET` of `recordVerdict` -/
def judge (now : Time) (verdict : VerdictUpdate) (r : AttestationSession) : AttestationSession :=
  { r with
    verdictDecision := verdict.decision.verdict
    verdictReasons := verdict.reasons
    verdictRequirements := verdict.requirements
    verdictRemediation := verdict.remediation
    failOpen := verdict.failOpen
    evaluatedAt := some now
    state := if verdict.decision = .allow then .active else .terminated
    lastHeartbeatAt := if verdict.decision = .allow then some now else r.lastHeartbeatAt }

/-- `SET` of `recordHeartbeat` -/
def beat (now : Time) (graceSeconds : Nat) (r : AttestationSession) : AttestationSession :=
  { r with
    lastHeartbeatAt := some now
    graceExpiresAt := some (now + graceSeconds * 1000) }

/-- `SET` of `terminateSession` -/
def terminate (now : Time) (reason : DenyReason) (r : AttestationSession) : AttestationSession :=
  { r with
    state := .terminated
    terminatedAt := some now
    terminationReason := some reason }

/-- `SET` of `expireStaleSessions` -/
def expire (r : AttestationSession) : AttestationSession := { r with state := .expired }

/-- the verdict of a row -/
def verdict (r : AttestationSession) : VerdictDecision × List DenyReason ×
    List RequirementResult × Option String × Bool :=
  (r.verdictDecision, r.verdictReasons, r.verdictRequirements, r.verdictRemediation, r.failOpen)

/-- columns that are set once, by the `INSERT` -/
def fixed (r : AttestationSession) :
    Uuid × Uuid × String × Inet × PolicyTier × Time × Uuid :=
  (r.id, r.tenantId, r.nonceHash, r.gameIp, r.policyTier, r.expiresAt, r.gameServerId)

end AttestationSession

/-! ## writing statements -/

/-- the writing statements with their parameters; `none` is a `SELECT` or no statement at all -/
inductive Write where
  | none
  | upsertPlayer (id tenantId : Uuid) (license : String) (steam discord : Option String)
  | createSession (row : AttestationSession)
  | touchServer (tenantId serverId : Uuid)
  | consumeNonce (digest : String) (attestationIp : Inet)
  | recordVerdict (tenantId sessionId : Uuid) (verdict : VerdictUpdate)
  | storeSnapshot (row : StoredSnapshot)
  | recordHeartbeat (sessionId : Uuid) (graceSeconds : Nat)
  | terminateSession (sessionId : Uuid) (reason : DenyReason)
  | expireStaleSessions

namespace Write

/-- what a statement does to one row of `attestation_sessions` -/
def onSession (now : Time) (w : Write) (r : AttestationSession) : AttestationSession :=
  match w with
  | .consumeNonce digest ip => if r.claimable now digest then r.claim now ip else r
  | .recordVerdict tenantId sessionId verdict =>
    if r.id = sessionId ∧ r.tenantId = tenantId then r.judge now verdict else r
  | .recordHeartbeat sessionId graceSeconds =>
    if r.id = sessionId ∧ r.state = .active then r.beat now graceSeconds else r
  | .terminateSession sessionId reason =>
    if r.id = sessionId ∧ r.state ≠ .terminated then r.terminate now reason else r
  | .expireStaleSessions =>
    if r.state = .pending ∧ r.expiresAt < now then r.expire else r
  | _ => r

/-- the columns no statement writes again after the `INSERT` -/
theorem onSession_fixed (now : Time) (w : Write) (r : AttestationSession) :
    (w.onSession now r).fixed = r.fixed := by
  cases w <;> simp only [onSession]
  all_goals
    try split
    all_goals rfl

@[simp] theorem onSession_id (now : Time) (w : Write) (r : AttestationSession) :
    (w.onSession now r).id = r.id := congrArg (·.1) (onSession_fixed now w r)

@[simp] theorem onSession_tenantId (now : Time) (w : Write) (r : AttestationSession) :
    (w.onSession now r).tenantId = r.tenantId := congrArg (·.2.1) (onSession_fixed now w r)

@[simp] theorem onSession_nonceHash (now : Time) (w : Write) (r : AttestationSession) :
    (w.onSession now r).nonceHash = r.nonceHash := congrArg (·.2.2.1) (onSession_fixed now w r)

@[simp] theorem onSession_gameIp (now : Time) (w : Write) (r : AttestationSession) :
    (w.onSession now r).gameIp = r.gameIp := congrArg (·.2.2.2.1) (onSession_fixed now w r)

@[simp] theorem onSession_policyTier (now : Time) (w : Write) (r : AttestationSession) :
    (w.onSession now r).policyTier = r.policyTier :=
  congrArg (·.2.2.2.2.1) (onSession_fixed now w r)

@[simp] theorem onSession_gameServerId (now : Time) (w : Write) (r : AttestationSession) :
    (w.onSession now r).gameServerId = r.gameServerId :=
  congrArg (·.2.2.2.2.2.2) (onSession_fixed now w r)

@[simp] theorem onSession_expiresAt (now : Time) (w : Write) (r : AttestationSession) :
    (w.onSession now r).expiresAt = r.expiresAt := congrArg (·.2.2.2.2.2.1) (onSession_fixed now w r)

theorem onSession_key (now : Time) (w : Write) (r : AttestationSession) :
    Row.key (w.onSession now r) = Row.key r :=
  Prod.ext (onSession_id now w r) (onSession_nonceHash now w r)

/-- `DO UPDATE SET` of `upsertPlayer` -/
def onPlayer (now : Time) (tenantId : Uuid) (license : String) (steam discord : Option String)
    (p : PlayerIdentity) : PlayerIdentity :=
  if p.tenantId = tenantId ∧ p.license = license then
    { p with
      steam := steam <|> p.steam
      discord := discord <|> p.discord
      lastSeenAt := now }
  else p

theorem onPlayer_key (now : Time) (tenantId : Uuid) (license : String)
    (steam discord : Option String) (p : PlayerIdentity) :
    Row.key (onPlayer now tenantId license steam discord p) = Row.key p := by
  unfold onPlayer
  split <;> rfl

/-- `SET` of `touchServer` -/
def onServer (now : Time) (tenantId serverId : Uuid) (s : GameServer) : GameServer :=
  if s.id = serverId ∧ s.tenantId = tenantId then { s with lastSeenAt := some now } else s

theorem onServer_key (now : Time) (tenantId serverId : Uuid) (s : GameServer) :
    Row.key (onServer now tenantId serverId s) = Row.key s := by
  unfold onServer
  split <;> rfl

/-- `ON CONFLICT (tenant_id, license)` -/
def hasPlayer (db : Db) (tenantId : Uuid) (license : String) : Option PlayerIdentity :=
  db.players.find fun p => p.tenantId == tenantId && p.license == license

def inserted {R : Type} [Row R] (t : Table R) (r : R) (put : Table R → Db) : Except SqlError Db :=
  match t.insert r with
  | some t' => .ok (put t')
  | .none => .error .uniqueViolation

/-- runs a statement -/
def exec (now : Time) (w : Write) (db : Db) : Except SqlError Db :=
  match w with
  | .none => .ok db
  | .upsertPlayer id tenantId license steam discord =>
    match hasPlayer db tenantId license with
    | some _ => .ok { db with
        players := db.players.map (onPlayer now tenantId license steam discord)
          (onPlayer_key now tenantId license steam discord) }
    | Option.none => inserted db.players ⟨id, tenantId, license, steam, discord, now, now⟩
        fun t => { db with players := t }
  | .createSession row => inserted db.sessions row fun t => { db with sessions := t }
  | .touchServer tenantId serverId => .ok { db with
      gameServers := db.gameServers.map (onServer now tenantId serverId)
        (onServer_key now tenantId serverId) }
  | .storeSnapshot row => inserted db.snapshots row fun t => { db with snapshots := t }
  | w => .ok { db with sessions := db.sessions.map (w.onSession now) (w.onSession_key now) }

/-- the session row a statement inserts -/
def newSession : Write → Option AttestationSession
  | .createSession row => some row
  | _ => Option.none

/-- the snapshot row a statement inserts -/
def newSnapshot : Write → Option StoredSnapshot
  | .storeSnapshot row => some row
  | _ => Option.none

theorem inserted_ok {R : Type} [Row R] {t : Table R} {r : R} {put : Table R → Db} {db : Db}
    (h : inserted t r put = .ok db) : ∃ t', t.insert r = some t' ∧ db = put t' := by
  unfold inserted at h
  split at h
  · rename_i t' ht
    cases h
    exact ⟨t', ht, rfl⟩
  · cases h

/-- **The sessions after a statement**: every row as `onSession` leaves it, and the inserted one. -/
theorem mem_sessions {now : Time} {w : Write} {db db' : Db} (h : w.exec now db = .ok db')
    {r' : AttestationSession} :
    r' ∈ db'.sessions ↔ (∃ r ∈ db.sessions, w.onSession now r = r') ∨ w.newSession = some r' := by
  cases w with
  | none =>
    cases h
    simp [onSession, newSession]
  | upsertPlayer id tenantId license steam discord =>
    simp only [exec] at h
    split at h
    · cases h
      simp [onSession, newSession]
    · obtain ⟨t', _, rfl⟩ := inserted_ok h
      simp [onSession, newSession]
  | createSession row =>
    obtain ⟨t', ht, rfl⟩ := inserted_ok h
    simp [onSession, newSession, Table.mem_insert ht, eq_comm]
  | touchServer tenantId serverId =>
    cases h
    simp [onSession, newSession]
  | storeSnapshot row =>
    obtain ⟨t', _, rfl⟩ := inserted_ok h
    simp [onSession, newSession]
  | consumeNonce | recordVerdict | recordHeartbeat | terminateSession | expireStaleSessions =>
    cases h
    simp [newSession, Table.mem_map]

/-- **The snapshots after a statement.** -/
theorem mem_snapshots {now : Time} {w : Write} {db db' : Db} (h : w.exec now db = .ok db') :
    db'.snapshots.rows = db.snapshots.rows ++ w.newSnapshot.toList := by
  cases w with
  | storeSnapshot row =>
    obtain ⟨t', ht, rfl⟩ := inserted_ok h
    simp [newSnapshot, Table.insert_some ht]
  | createSession row =>
    obtain ⟨t', _, rfl⟩ := inserted_ok h
    simp [newSnapshot]
  | upsertPlayer id tenantId license steam discord =>
    simp only [exec] at h
    split at h
    · cases h
      simp [newSnapshot]
    · obtain ⟨t', _, rfl⟩ := inserted_ok h
      simp [newSnapshot]
  | _ =>
    cases h
    simp [newSnapshot]

/-- a server stays as it is, but for `last_seen_at` -/
theorem server_stays {now : Time} {w : Write} {db db' : Db} (h : w.exec now db = .ok db')
    {g : GameServer} (hg : g ∈ db.gameServers) :
    ∃ lastSeenAt, { g with lastSeenAt := lastSeenAt } ∈ db'.gameServers := by
  cases w with
  | touchServer tenantId serverId =>
    cases h
    have hmem := List.mem_map_of_mem (f := onServer now tenantId serverId) hg
    unfold onServer at hmem
    split at hmem
    · exact ⟨_, hmem⟩
    · exact ⟨_, hmem⟩
  | storeSnapshot row | createSession row =>
    obtain ⟨t', _, rfl⟩ := inserted_ok h
    exact ⟨_, hg⟩
  | upsertPlayer pid tenantId license steam discord =>
    simp only [exec] at h
    split at h
    · cases h
      exact ⟨_, hg⟩
    · obtain ⟨t', _, rfl⟩ := inserted_ok h
      exact ⟨_, hg⟩
  | _ =>
    cases h
    exact ⟨_, hg⟩

/-- no statement writes `tenants` or `companion_builds` -/
theorem exec_frame {now : Time} {w : Write} {db db' : Db} (h : w.exec now db = .ok db') :
    db'.tenants = db.tenants ∧ db'.builds = db.builds := by
  cases w with
  | storeSnapshot row | createSession row =>
    obtain ⟨t', _, rfl⟩ := inserted_ok h
    exact ⟨rfl, rfl⟩
  | upsertPlayer id tenantId license steam discord =>
    simp only [exec] at h
    split at h
    · cases h
      exact ⟨rfl, rfl⟩
    · obtain ⟨t', _, rfl⟩ := inserted_ok h
      exact ⟨rfl, rfl⟩
  | _ =>
    cases h
    exact ⟨rfl, rfl⟩

end Write

namespace Db

variable {db : Db} {r x : AttestationSession}

/-- primary key -/
theorem eq_of_id (hr : r ∈ db.sessions) (hx : x ∈ db.sessions) (h : r.id = x.id) : r = x :=
  db.sessions.eq_of_clash hr hx (by simp [Row.clash, Row.key, h])

/-- `nonce_hash UNIQUE` -/
theorem eq_of_nonceHash (hr : r ∈ db.sessions) (hx : x ∈ db.sessions)
    (h : r.nonceHash = x.nonceHash) : r = x :=
  db.sessions.eq_of_clash hr hx (by simp [Row.clash, Row.key, h])

end Db

namespace Write

variable {now : Time} {w : Write} {r : AttestationSession}

/-- the columns the claiming `UPDATE` alone writes -/
theorem onSession_unclaimed (h : ∀ digest ip, w ≠ .consumeNonce digest ip) :
    (w.onSession now r).consumedAt = r.consumedAt ∧
      (w.onSession now r).attestationIp = r.attestationIp ∧
      (w.onSession now r).nonceSealed = r.nonceSealed := by
  cases w with
  | consumeNonce digest ip => exact absurd rfl (h digest ip)
  | recordVerdict | recordHeartbeat | terminateSession | expireStaleSessions =>
    simp only [onSession]
    split <;> exact ⟨rfl, rfl, rfl⟩
  | _ => exact ⟨rfl, rfl, rfl⟩

theorem onSession_unclaimable {digest : String} {ip : Inet} (h : r.claimable now digest = false) :
    (Write.consumeNonce digest ip).onSession now r = r := by
  simp [onSession, h]

theorem onSession_claimable {digest : String} {ip : Inet} (h : r.claimable now digest = true) :
    (Write.consumeNonce digest ip).onSession now r = r.claim now ip := by
  simp [onSession, h]

theorem unclaimable_of_consumed {digest : String} (h : r.consumedAt ≠ Option.none) :
    r.claimable now digest = false := by
  simp [AttestationSession.claimable, h]

/-- **Consumption is final**: no statement writes these columns of a consumed row. -/
theorem onSession_consumed (h : r.consumedAt ≠ Option.none) :
    (w.onSession now r).consumedAt = r.consumedAt ∧
      (w.onSession now r).attestationIp = r.attestationIp ∧
      (w.onSession now r).nonceSealed = r.nonceSealed := by
  by_cases hw : ∃ digest ip, w = .consumeNonce digest ip
  · obtain ⟨digest, ip, rfl⟩ := hw
    rw [onSession_unclaimable (unclaimable_of_consumed h)]
    exact ⟨rfl, rfl, rfl⟩
  · exact onSession_unclaimed fun digest ip he => hw ⟨digest, ip, he⟩

/-- the verdict of a row is written by `recordVerdict` alone -/
theorem onSession_verdict (h : ∀ tenantId sessionId v, w ≠ .recordVerdict tenantId sessionId v) :
    (w.onSession now r).verdict = r.verdict := by
  cases w with
  | recordVerdict tenantId sessionId v => exact absurd rfl (h tenantId sessionId v)
  | consumeNonce | recordHeartbeat | terminateSession | expireStaleSessions =>
    simp only [onSession]
    split <;> rfl
  | _ => rfl

/-- a decided row stays decided -/
theorem onSession_decided (h : r.verdictDecision ≠ .pending) :
    (w.onSession now r).verdictDecision ≠ .pending := by
  by_cases hw : ∃ tenantId sessionId v, w = .recordVerdict tenantId sessionId v
  · obtain ⟨tenantId, sessionId, v, rfl⟩ := hw
    simp only [onSession]
    split
    · simp only [AttestationSession.judge]
      cases v.decision <;> decide
    · exact h
  · rw [show (w.onSession now r).verdictDecision = r.verdictDecision from
      congrArg (·.1) (onSession_verdict fun t i v he => hw ⟨t, i, v, he⟩)]
    exact h

theorem judge_verdict (v : VerdictUpdate) : (r.judge now v).verdict = v.verdict := rfl

/-- **The states of a row.** A statement that leaves a row `active` found it so, or is a
`recordVerdict` of an `allow`. -/
theorem onSession_active (h : (w.onSession now r).state = .active) :
    (r.state = .active ∧ (w.onSession now r).verdict = r.verdict ∧
        (r.lastHeartbeatAt ≠ Option.none → (w.onSession now r).lastHeartbeatAt ≠ Option.none)) ∨
      ∃ tenantId sessionId v, w = .recordVerdict tenantId sessionId v ∧ r.id = sessionId ∧
        r.tenantId = tenantId ∧ v.decision = .allow := by
  cases w with
  | recordVerdict tenantId sessionId v =>
    simp only [onSession] at h ⊢
    split at h
    · rename_i hrow
      refine .inr ⟨_, _, _, rfl, hrow.1, hrow.2, ?_⟩
      simp only [AttestationSession.judge] at h
      split at h
      · assumption
      · cases h
    · rename_i hrow
      rw [if_neg hrow]
      exact .inl ⟨h, rfl, id⟩
  | consumeNonce =>
    simp only [onSession] at h ⊢
    split at h
    · cases h
    · rename_i hrow
      rw [if_neg hrow]
      exact .inl ⟨h, rfl, id⟩
  | recordHeartbeat =>
    simp only [onSession] at h ⊢
    split at h
    · rename_i hrow
      rw [if_pos hrow]
      exact .inl ⟨hrow.2, rfl, fun _ => Option.some_ne_none _⟩
    · rename_i hrow
      rw [if_neg hrow]
      exact .inl ⟨h, rfl, id⟩
  | terminateSession | expireStaleSessions =>
    simp only [onSession] at h ⊢
    split at h
    · cases h
    · rename_i hrow
      rw [if_neg hrow]
      exact .inl ⟨h, rfl, id⟩
  | _ => exact .inl ⟨h, rfl, id⟩

/-- **What a terminated row survives**: everything but a claim and a recorded `allow`. -/
theorem onSession_terminated (h : r.state = .terminated) :
    (w.onSession now r).state = .terminated ∨
      (∃ digest ip, w = .consumeNonce digest ip ∧ r.claimable now digest = true) ∨
      ∃ tenantId sessionId v, w = .recordVerdict tenantId sessionId v ∧ r.id = sessionId ∧
        r.tenantId = tenantId ∧ v.decision = .allow := by
  cases w with
  | consumeNonce digest ip =>
    by_cases hc : r.claimable now digest = true
    · exact .inr (.inl ⟨digest, ip, rfl, hc⟩)
    · left
      rw [onSession_unclaimable (Bool.eq_false_iff.mpr hc), h]
  | recordVerdict tenantId sessionId v =>
    simp only [onSession]
    split
    · rename_i hrow
      by_cases hv : v.decision = .allow
      · exact .inr (.inr ⟨_, _, v, rfl, hrow.1, hrow.2, hv⟩)
      · left
        simp [AttestationSession.judge, hv]
    · exact .inl h
  | recordHeartbeat | terminateSession | expireStaleSessions =>
    left
    simp only [onSession]
    split
    · first | rfl | simp_all
    · exact h
  | _ => exact .inl h

end Write

/-! ## queries -/

section
variable (P : Platform)

def hashNonce (nonce : String) : String := P.sha256 nonce

/-- what `randomBytes(32)` returns -/
structure NonceBytes where
  bytes : List UInt8
  len : bytes.length = 32

/-- `randomBytes(32).toString('hex')` -/
def generateNonce (entropy : NonceBytes) : String := Text.hex entropy.bytes

theorem generateNonce_ne_empty (entropy : NonceBytes) : generateNonce entropy ≠ "" := by
  intro h
  have hlist := congrArg String.toList h
  rw [generateNonce, Text.hex, String.toList_ofList] at hlist
  obtain ⟨b, bytes, hb⟩ := List.exists_cons_of_length_pos
    (show 0 < entropy.bytes.length by rw [entropy.len]; decide)
  rw [hb] at hlist
  cases hlist

/-- the row the claiming `UPDATE` of `consumeNonce` matches, as it was before -/
def findClaimable (now : Time) (db : Db) (nonce : String) : Option AttestationSession :=
  db.sessions.find fun r => r.claimable now (hashNonce P nonce)

/-- the follow-up `SELECT` of `consumeNonce` -/
def findByHash (db : Db) (nonce : String) : Option SessionRow :=
  (db.sessions.find fun r => r.nonceHash == hashNonce P nonce).map (·.columns P)

def findByNonce (db : Db) (tenantId : Uuid) (nonce : String) : Option SessionRow :=
  (db.sessions.find fun r => r.nonceHash == hashNonce P nonce && r.tenantId == tenantId).map
    (·.columns P)

/-- a `uuid` parameter -/
def uuidParam (text : String) : Except SqlError Uuid :=
  match Uuid.ofText text with
  | some id => .ok id
  | none => .error .invalidText

/-- an `inet` parameter -/
def inetParam (text : String) : Except SqlError Inet :=
  match P.inetIn text with
  | some ip => .ok ip
  | none => .error .invalidText

def findById (db : Db) (tenantId : Uuid) (sessionId : String) :
    Except SqlError (Option SessionRow) := do
  let id ← uuidParam sessionId
  return (db.sessions.find fun r => r.id == id && r.tenantId == tenantId).map (·.columns P)

def findByIdUnscoped (db : Db) (sessionId : String) : Except SqlError (Option SessionRow) := do
  let id ← uuidParam sessionId
  return (db.sessions.find fun r => r.id == id).map (·.columns P)

theorem of_findClaimable {now : Time} {db : Db} {nonce : String} {r : AttestationSession}
    (h : findClaimable P now db nonce = some r) : r ∈ db.sessions ∧
      r.nonceHash = hashNonce P nonce ∧ r.consumedAt = none ∧ now < r.expiresAt := by
  obtain ⟨hr, hc⟩ := Table.mem_of_find h
  simp only [AttestationSession.claimable, Bool.and_eq_true, beq_iff_eq, decide_eq_true_eq,
    Option.isNone_iff_eq_none] at hc
  exact ⟨hr, hc.1.1, hc.1.2, hc.2⟩

/-- the claiming `UPDATE` without a row -/
theorem consumeNonce_of_none {now : Time} {db db' : Db} {nonce : String} {ip : Inet}
    (h : findClaimable P now db nonce = none)
    (hw : (Write.consumeNonce (hashNonce P nonce) ip).exec now db = .ok db') : db' = db := by
  have hid : ∀ r ∈ db.sessions, (Write.consumeNonce (hashNonce P nonce) ip).onSession now r = r :=
    fun r hr => Write.onSession_unclaimable (Table.find_none h r hr)
  cases hw
  rw [Table.map_id hid]

/-- the claiming `UPDATE` with a row: that row alone -/
theorem onSession_consumeNonce {now : Time} {db : Db} {nonce : String} {ip : Inet}
    {r x : AttestationSession} (h : findClaimable P now db nonce = some r) (hx : x ∈ db.sessions) :
    (Write.consumeNonce (hashNonce P nonce) ip).onSession now x =
      if x.id = r.id then r.claim now ip else x := by
  obtain ⟨hr, hhash, _, _⟩ := of_findClaimable P h
  split
  · rename_i hid
    rw [Db.eq_of_id hx hr hid, Write.onSession_claimable (Table.mem_of_find h).2]
  · rename_i hid
    refine Write.onSession_unclaimable ?_
    have hne : x.nonceHash ≠ hashNonce P nonce := fun he =>
      hid (congrArg _ (Db.eq_of_nonceHash hx hr (he.trans hhash.symm)))
    simp [AttestationSession.claimable, hne]

theorem findByNonce_some {db : Db} {tenantId : Uuid} {nonce : String} {session : SessionRow}
    (h : findByNonce P db tenantId nonce = some session) : ∃ r ∈ db.sessions,
      session = r.columns P ∧ r.nonceHash = hashNonce P nonce ∧ r.tenantId = tenantId := by
  obtain ⟨r, hr, rfl⟩ := Option.map_eq_some_iff.mp h
  obtain ⟨hmem, hp⟩ := Table.mem_of_find hr
  rw [Bool.and_eq_true, beq_iff_eq, beq_iff_eq] at hp
  exact ⟨r, hmem, rfl, hp.1, hp.2⟩

theorem findById_some {db : Db} {tenantId : Uuid} {sessionId : String} {session : SessionRow}
    (h : findById P db tenantId sessionId = .ok (some session)) :
    ∃ r ∈ db.sessions, session = r.columns P ∧ Uuid.ofText sessionId = some r.id ∧
      r.tenantId = tenantId := by
  unfold findById uuidParam at h
  cases hid : Uuid.ofText sessionId with
  | none =>
    rw [hid] at h
    cases h
  | some id =>
    rw [hid] at h
    obtain ⟨r, hr, rfl⟩ := Option.map_eq_some_iff.mp (Except.ok.inj h)
    obtain ⟨hmem, hp⟩ := Table.mem_of_find hr
    rw [Bool.and_eq_true, beq_iff_eq, beq_iff_eq] at hp
    exact ⟨r, hmem, rfl, congrArg some hp.1.symm, hp.2⟩

theorem findByIdUnscoped_some {db : Db} {sessionId : String} {session : SessionRow}
    (h : findByIdUnscoped P db sessionId = .ok (some session)) :
    ∃ r ∈ db.sessions, session = r.columns P ∧ Uuid.ofText sessionId = some r.id := by
  unfold findByIdUnscoped uuidParam at h
  cases hid : Uuid.ofText sessionId with
  | none =>
    rw [hid] at h
    cases h
  | some id =>
    rw [hid] at h
    obtain ⟨r, hr, rfl⟩ := Option.map_eq_some_iff.mp (Except.ok.inj h)
    obtain ⟨hmem, hp⟩ := Table.mem_of_find hr
    exact ⟨r, hmem, rfl, congrArg some (beq_iff_eq.mp hp).symm⟩

theorem findByIdUnscoped_of_mem {db : Db} {sessionId : String} {r : AttestationSession}
    (hr : r ∈ db.sessions) (hid : Uuid.ofText sessionId = some r.id) :
    findByIdUnscoped P db sessionId = .ok (some (r.columns P)) := by
  have hfind : (db.sessions.find fun x => x.id == r.id) = some r :=
    Table.find_eq hr (beq_self_eq_true _) fun x _ hx => by
      simp [Row.clash, Row.key, beq_iff_eq.mp hx]
  unfold findByIdUnscoped uuidParam
  rw [hid]
  show Except.ok ((db.sessions.find fun x => x.id == r.id).map (·.columns P)) = _
  rw [hfind]
  rfl

theorem findById_of_mem {db : Db} {tenantId : Uuid} {sessionId : String} {r : AttestationSession}
    (hr : r ∈ db.sessions) (hid : Uuid.ofText sessionId = some r.id) (ht : r.tenantId = tenantId) :
    findById P db tenantId sessionId = .ok (some (r.columns P)) := by
  have hfind : (db.sessions.find fun x => x.id == r.id && x.tenantId == tenantId) = some r :=
    Table.find_eq hr (by simp [ht]) fun x _ hx => by
      rw [Bool.and_eq_true, beq_iff_eq] at hx
      simp [Row.clash, Row.key, hx.1]
  unfold findById uuidParam
  rw [hid]
  show Except.ok ((db.sessions.find fun x => x.id == r.id && x.tenantId == tenantId).map
    (·.columns P)) = _
  rw [hfind]
  rfl

theorem findByIdUnscoped_unknown {db : Db} {sessionId : String} {id : Uuid}
    (hid : Uuid.ofText sessionId = some id) (hnone : ∀ r ∈ db.sessions, r.id ≠ id) :
    findByIdUnscoped P db sessionId = .ok none := by
  unfold findByIdUnscoped uuidParam
  rw [hid]
  show Except.ok ((db.sessions.find fun r => r.id == id).map (·.columns P)) = _
  rw [Table.find_eq_none fun r hr => beq_eq_false_iff_ne.mpr (hnone r hr)]
  rfl

/-- a pending session as the companion poll needs it -/
structure PendingSessionRow where
  id : Uuid
  policyTier : PolicyTier
  expiresAt : Time
  nonceSealed : Option (List UInt8)
  serverName : String
  deriving DecidableEq

/-- `WHERE` of `findPendingByGameIp` -/
def AttestationSession.pendingAt (now : Time) (ip : Inet) (r : AttestationSession) : Bool :=
  r.gameIp == ip && r.consumedAt.isNone && decide (now < r.expiresAt)

def findPendingByGameIp (now : Time) (db : Db) (gameIp : String) :
    Except SqlError (List PendingSessionRow) := do
  let ip ← inetParam P gameIp
  let rows := (db.sessions.select fun r => r.pendingAt now ip).insertionSort
    fun a b => b.issuedAt ≤ a.issuedAt
  return rows.flatMap fun s => (db.gameServers.select fun g => g.id == s.gameServerId).map
    fun g => ⟨s.id, s.policyTier, s.expiresAt, s.nonceSealed, g.name⟩

/-- what the lookup returns -/
theorem mem_findPendingByGameIp {now : Time} {db : Db} {gameIp : String}
    {rows : List PendingSessionRow} (h : findPendingByGameIp P now db gameIp = .ok rows)
    (x : PendingSessionRow) : x ∈ rows ↔ ∃ ip, P.inetIn gameIp = some ip ∧
      ∃ r ∈ db.sessions, r.pendingAt now ip = true ∧ ∃ g ∈ db.gameServers,
        g.id = r.gameServerId ∧ ⟨r.id, r.policyTier, r.expiresAt, r.nonceSealed, g.name⟩ = x := by
  unfold findPendingByGameIp inetParam at h
  cases hip : P.inetIn gameIp with
  | none =>
    rw [hip] at h
    cases h
  | some ip =>
    rw [hip] at h
    rw [← Except.ok.inj h, List.mem_flatMap]
    have hrow : ∀ r, r ∈ (db.sessions.select fun r => r.pendingAt now ip).insertionSort
        (fun a b => b.issuedAt ≤ a.issuedAt) ↔ r ∈ db.sessions ∧ r.pendingAt now ip = true :=
      fun r => (List.perm_insertionSort _ _).mem_iff.trans Table.mem_select
    constructor
    · rintro ⟨r, hr, hx⟩
      obtain ⟨g, hg, he⟩ := List.mem_map.mp hx
      obtain ⟨hg, hid⟩ := Table.mem_select.mp hg
      obtain ⟨hr, hp⟩ := (hrow r).mp hr
      exact ⟨ip, rfl, r, hr, hp, g, hg, beq_iff_eq.mp hid, he⟩
    · rintro ⟨_, he, r, hr, hp, g, hg, hid, hx⟩
      cases he
      refine ⟨r, (hrow r).mpr ⟨hr, hp⟩, List.mem_map.mpr ⟨g, ?_, hx⟩⟩
      exact Table.mem_select.mpr ⟨hg, beq_iff_eq.mpr hid⟩

/-- one result means one pending session, if every session has its server -/
theorem findPendingByGameIp_one {now : Time} {db : Db} {gameIp : String} {x : PendingSessionRow}
    (hgame : ∀ r ∈ db.sessions, ∃ g ∈ db.gameServers, g.id = r.gameServerId)
    (h : findPendingByGameIp P now db gameIp = .ok [x]) :
    ∃ ip, P.inetIn gameIp = some ip ∧ ∃ r ∈ db.sessions, r.pendingAt now ip = true ∧
      (∀ y ∈ db.sessions, y.pendingAt now ip = true → y = r) ∧ x.nonceSealed = r.nonceSealed := by
  unfold findPendingByGameIp inetParam at h
  cases hip : P.inetIn gameIp with
  | none =>
    rw [hip] at h
    cases h
  | some ip =>
    rw [hip] at h
    have hlist := Except.ok.inj h
    have hmem : ∀ y, y ∈ (db.sessions.select fun r => r.pendingAt now ip).insertionSort
        (fun a b => b.issuedAt ≤ a.issuedAt) ↔ y ∈ db.sessions ∧ y.pendingAt now ip = true :=
      fun y => (List.perm_insertionSort _ _).mem_iff.trans Table.mem_select
    revert hlist hmem
    generalize (db.sessions.select fun r => r.pendingAt now ip).insertionSort
      (fun a b => b.issuedAt ≤ a.issuedAt) = rows
    intro hlist hmem
    -- every row of the join has its server
    have hjoin : ∀ r ∈ rows, 0 < (db.gameServers.select fun g => g.id == r.gameServerId).length := by
      intro r hr
      obtain ⟨g, hg, hid⟩ := hgame r ((hmem r).mp hr).1
      exact List.length_pos_of_mem (Table.mem_select.mpr ⟨hg, beq_iff_eq.mpr hid⟩)
    match rows, hlist, hmem, hjoin with
    | [], hlist, _, _ => cases hlist
    | [r], hlist, hmem, _ =>
      obtain ⟨hr, hp⟩ := (hmem r).mp (List.mem_singleton_self r)
      refine ⟨ip, rfl, r, hr, hp, fun y hy hpy => List.mem_singleton.mp ((hmem y).mpr ⟨hy, hpy⟩), ?_⟩
      simp only [List.flatMap_cons, List.flatMap_nil, List.append_nil] at hlist
      obtain ⟨g, _, hx⟩ := List.mem_map.mp (hlist ▸ List.mem_singleton_self x)
      rw [← hx]
    | a :: b :: rest, hlist, _, hjoin =>
      have ha := hjoin a List.mem_cons_self
      have hb := hjoin b (List.mem_cons_of_mem a List.mem_cons_self)
      have hlen := congrArg List.length hlist
      simp only [List.flatMap_cons, List.length_append, List.length_map, List.length_singleton]
        at hlen
      omega

/-- `currentBuildHash` of `routes/attest.ts` -/
def currentBuildHash (db : Db) (sessionId : Uuid) : Option String :=
  let rows := (db.snapshots.select fun s => s.sessionId == sessionId).insertionSort
    fun a b => b.receivedAt ≤ a.receivedAt
  rows.head?.map StoredSnapshot.companionBuildHash

def isBuildAccepted (db : Db) (buildHash : String) : Bool :=
  ((db.builds.find fun b => b.buildHash == buildHash).map CompanionBuild.accepted).getD false

structure AuthenticatedServer where
  tenant : TenantRow
  server : GameServer
  deriving DecidableEq

def hashServerKey (key : String) : String := P.sha256 key

def authenticateServerKey (db : Db) (key : String) : Option AuthenticatedServer := do
  let digest := hashServerKey P key
  let s ← db.gameServers.find fun s => s.serverKeyHash == digest
  let t ← db.tenants.find fun t => t.id == s.tenantId
  return ⟨t, s⟩

end

end Backend
