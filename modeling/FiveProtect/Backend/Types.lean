import FiveProtect.Backend.Remediation
import FiveProtect.Backend.Seal
import FiveProtect.Lib.IsoTime
import FiveProtect.Lib.Table

/-!
# Backend: the database

The tables of `services/backend/migrations`, with the columns the modelled statements read or write
and their unique constraints, and the row types of `repositories/types.ts`.

`Platform` is what lies outside the repository: SHA-256, AES-256-GCM and the text forms of the
PostgreSQL types `inet` and `timestamptz`.  `Uuid` is the `uuid` type.
-/

namespace Backend
open Protocol

/-- an `inet` value: family, address bits, length of the network mask -/
structure Inet where
  v6 : Bool
  bits : Nat
  mask : Nat
  deriving DecidableEq

structure Platform where
  /-- `createHash('sha256').update(text, 'utf8').digest('hex')` -/
  sha256 : String → String
  aes : Aes256Gcm
  /-- `$1::inet`, `none` when the text is refused -/
  inetIn : String → Option Inet
  /-- `host(value)` -/
  inetHost : Inet → String
  /-- `$1::timestamptz` -/
  timestamptzIn : String → Option Time

inductive LicenseStatus where
  | active
  | suspended
  | expired
  deriving DecidableEq

def LicenseStatus.text : LicenseStatus → String
  | .active => "active"
  | .suspended => "suspended"
  | .expired => "expired"

/-! ## rows -/

/-- a row of `tenants` -/
structure TenantRow where
  id : Uuid
  name : String
  policyTier : PolicyTier
  failMode : FailMode
  licenseStatus : LicenseStatus
  banNetworkEnabled : Bool
  deriving DecidableEq

/-- a row of `game_servers` -/
structure GameServer where
  id : Uuid
  tenantId : Uuid
  name : String
  serverKeyHash : String
  lastSeenAt : Option Time
  deriving DecidableEq

/-- a row of `player_identities` -/
structure PlayerIdentity where
  id : Uuid
  tenantId : Uuid
  license : String
  steam : Option String
  discord : Option String
  firstSeenAt : Time
  lastSeenAt : Time
  deriving DecidableEq

/-- a row of `companion_builds` -/
structure CompanionBuild where
  buildHash : String
  accepted : Bool
  deriving DecidableEq

/-- a row of `attestation_sessions` -/
structure AttestationSession where
  id : Uuid
  tenantId : Uuid
  gameServerId : Uuid
  playerIdentityId : Uuid
  nonceHash : String
  nonceSealed : Option (List UInt8)
  gameIp : Inet
  policyTier : PolicyTier
  state : SessionState
  issuedAt : Time
  expiresAt : Time
  consumedAt : Option Time
  attestedAt : Option Time
  attestationIp : Option Inet
  verdictDecision : VerdictDecision
  verdictReasons : List DenyReason
  verdictRequirements : List RequirementResult
  verdictRemediation : Option String
  failOpen : Bool
  evaluatedAt : Option Time
  lastHeartbeatAt : Option Time
  graceExpiresAt : Option Time
  terminatedAt : Option Time
  terminationReason : Option DenyReason
  deriving DecidableEq

/-- a row of `system_snapshots` -/
structure StoredSnapshot where
  id : Uuid
  tenantId : Uuid
  sessionId : Uuid
  companionBuildHash : String
  companionVersion : String
  collectedAt : Time
  receivedAt : Time
  payload : SystemSnapshot
  deriving DecidableEq

instance : Row TenantRow where
  Key := Uuid
  key := TenantRow.id
  clash a b := a == b
  clash_symm _ _ := BEq.comm

/-- primary key, and `server_key_hash UNIQUE` -/
instance : Row GameServer where
  Key := Uuid × String
  key s := (s.id, s.serverKeyHash)
  clash a b := a.1 == b.1 || a.2 == b.2
  clash_symm a b := by rw [BEq.comm, BEq.comm (a := a.2)]

/-- primary key, and `UNIQUE (tenant_id, license)` -/
instance : Row PlayerIdentity where
  Key := Uuid × Uuid × String
  key p := (p.id, p.tenantId, p.license)
  clash a b := a.1 == b.1 || a.2 == b.2
  clash_symm a b := by rw [BEq.comm, BEq.comm (a := a.2)]

instance : Row CompanionBuild where
  Key := String
  key := CompanionBuild.buildHash
  clash a b := a == b
  clash_symm _ _ := BEq.comm

/-- primary key, and `nonce_hash UNIQUE` -/
instance : Row AttestationSession where
  Key := Uuid × String
  key s := (s.id, s.nonceHash)
  clash a b := a.1 == b.1 || a.2 == b.2
  clash_symm a b := by rw [BEq.comm, BEq.comm (a := a.2)]

instance : Row StoredSnapshot where
  Key := Uuid
  key := StoredSnapshot.id
  clash a b := a == b
  clash_symm _ _ := BEq.comm

structure Db where
  tenants : Table TenantRow
  gameServers : Table GameServer
  players : Table PlayerIdentity
  builds : Table CompanionBuild
  sessions : Table AttestationSession
  snapshots : Table StoredSnapshot

/-! ## what a query selects -/

/-- `SESSION_COLUMNS` -/
structure SessionRow where
  id : Uuid
  tenantId : Uuid
  gameServerId : Uuid
  playerIdentityId : Uuid
  gameIp : String
  policyTier : PolicyTier
  state : SessionState
  issuedAt : Time
  expiresAt : Time
  consumedAt : Option Time
  attestedAt : Option Time
  attestationIp : Option String
  verdictDecision : VerdictDecision
  verdictReasons : List DenyReason
  verdictRequirements : List RequirementResult
  verdictRemediation : Option String
  failOpen : Bool
  evaluatedAt : Option Time
  lastHeartbeatAt : Option Time
  graceExpiresAt : Option Time
  terminatedAt : Option Time
  terminationReason : Option DenyReason
  deriving DecidableEq

/-- the columns of a row as a session query returns them -/
def AttestationSession.columns (P : Platform) (r : AttestationSession) : SessionRow where
  id := r.id
  tenantId := r.tenantId
  gameServerId := r.gameServerId
  playerIdentityId := r.playerIdentityId
  gameIp := P.inetHost r.gameIp
  policyTier := r.policyTier
  state := r.state
  issuedAt := r.issuedAt
  expiresAt := r.expiresAt
  consumedAt := r.consumedAt
  attestedAt := r.attestedAt
  attestationIp := r.attestationIp.map P.inetHost
  verdictDecision := r.verdictDecision
  verdictReasons := r.verdictReasons
  verdictRequirements := r.verdictRequirements
  verdictRemediation := r.verdictRemediation
  failOpen := r.failOpen
  evaluatedAt := r.evaluatedAt
  lastHeartbeatAt := r.lastHeartbeatAt
  graceExpiresAt := r.graceExpiresAt
  terminatedAt := r.terminatedAt
  terminationReason := r.terminationReason

/-- a statement that raises: a parameter PostgreSQL cannot cast, or a unique violation -/
inductive SqlError where
  | invalidText
  | uniqueViolation
  deriving DecidableEq

end Backend
