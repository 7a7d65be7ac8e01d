import FiveProtect.Protocol.Enums

/-!
# Protocol: the schema

`packages/protocol/src/ir.ts` and `schemas/*.ts`: field types with their constraints, and the
message structs.  A struct reference carries the struct it names (schema files pass the definition
itself), so a schema is a finite tree and checks recurse on it; `FieldType.induct` is the induction on
it.
-/

namespace Protocol

inductive StringFormat where
  | uuid
  | hex
  | base64
  | ip
  | datetime
  | semver
  deriving DecidableEq

structure EnumDef where
  name : String
  values : List String

inductive FieldType where
  | string (format : Option StringFormat) (minLength maxLength : Option Nat)
  | int (min max : Option Int)
  | bool
  | enum (ref : EnumDef)
  | struct (name : String) (fields : List (String × FieldType))
  | array (items : FieldType) (maxItems : Option Nat)
  | optional (inner : FieldType)

/-- `isOptional` of `emit.ts`: the field may be absent -/
def FieldType.isOptional : FieldType → Bool
  | .optional _ => true
  | _ => false

/-- **Induction.** A struct has the property if the types of its fields have it. -/
@[elab_as_elim]
theorem FieldType.induct {P : FieldType → Prop}
    (string : ∀ format minLength maxLength, P (.string format minLength maxLength))
    (int : ∀ min max, P (.int min max)) (bool : P .bool) (enum : ∀ ref, P (.enum ref))
    (struct : ∀ name fields, (∀ f ∈ fields, P f.2) → P (.struct name fields))
    (array : ∀ items maxItems, P items → P (.array items maxItems))
    (optional : ∀ inner, P inner → P (.optional inner)) (type : FieldType) : P type := by
  refine @FieldType.rec P (fun fields => ∀ f ∈ fields, P f.2) (fun f => P f.2) string int bool enum
    struct array optional (fun _ h => absurd h List.not_mem_nil) ?_ (fun _ _ h => h) type
  intro field fields hfield hfields f hf
  rcases List.mem_cons.mp hf with rfl | hf
  · exact hfield
  · exact hfields f hf

mutual
/-- how deep the values of a type are nested -/
def FieldType.depth : FieldType → Nat
  | .struct _ fields => depthOfFields fields + 1
  | .array items _ => items.depth + 1
  | .optional inner => inner.depth
  | _ => 0
def depthOfFields : List (String × FieldType) → Nat
  | [] => 0
  | (_, type) :: fields => max type.depth (depthOfFields fields)
end

theorem depth_le_fields {fields : List (String × FieldType)} {f : String × FieldType}
    (hf : f ∈ fields) : f.2.depth ≤ depthOfFields fields := by
  induction fields with
  | nil => exact absurd hf List.not_mem_nil
  | cons x fields ih =>
    rw [depthOfFields]
    rcases List.mem_cons.mp hf with rfl | hf
    · exact Nat.le_max_left _ _
    · exact (ih hf).trans (Nat.le_max_right _ _)

/-! ## constructors -/

def enumRef (α : Type) [WireEnum α] : FieldType := .enum ⟨WireEnum.name α, wireValues α⟩

/-- `t.string({ maxLength })` -/
def text (maxLength : Nat) : FieldType := .string none none (some maxLength)

/-- `t.string({ format, maxLength })` -/
def formatted (format : StringFormat) (maxLength : Option Nat) : FieldType :=
  .string (some format) none maxLength

/-- `t.string({ format: 'hex', minLength: 64, maxLength: 64 })` -/
def hex64 : FieldType := .string (some .hex) (some 64) (some 64)

/-- `t.int({ min })` -/
def atLeast (min : Int) : FieldType := .int (some min) none

namespace Schema

/-! ## attestation.ts -/

def SecurityFeatures : FieldType := .struct "SecurityFeatures" [
  ("secureBoot", enumRef FeatureState),
  ("hvci", enumRef FeatureState),
  ("testSigning", enumRef FeatureState),
  ("kernelDebugging", enumRef FeatureState),
  ("driverBlocklist", enumRef FeatureState),
  ("iommu", enumRef FeatureState),
  ("virtualizationBasedSecurity", enumRef FeatureState)]

def TpmInfo : FieldType := .struct "TpmInfo" [
  ("present", .bool),
  ("manufacturer", .optional (text 64)),
  ("specVersion", .optional (text 32)),
  ("attestationKeyId", .optional (formatted .hex (some 128)))]

def GameProcessEvidence : FieldType := .struct "GameProcessEvidence" [
  ("pid", atLeast 1),
  ("startedAtUnixMs", atLeast 0),
  ("imageName", text 128),
  ("mainWindowPresent", .bool)]

def SystemSnapshot : FieldType := .struct "SystemSnapshot" [
  ("schemaVersion", atLeast 1),
  ("collectedAt", formatted .datetime none),
  ("companionVersion", formatted .semver (some 32)),
  ("companionBuildHash", hex64),
  ("osBuild", text 64),
  ("features", SecurityFeatures),
  ("tpm", TpmInfo),
  ("gameProcess", .optional GameProcessEvidence),
  ("probeErrors", .array (text 200) (some 32))]

def AttestationQuote : FieldType := .struct "AttestationQuote" [
  ("akPublicKeyId", formatted .hex (some 128)),
  ("pcrSelection", .array (.int (some 0) (some 23)) (some 24)),
  ("pcrDigest", formatted .hex (some 128)),
  ("quoteBlob", formatted .base64 (some 8192)),
  ("signature", formatted .base64 (some 2048))]

/-! ## session.ts -/

def PlayerIdentifiers : FieldType := .struct "PlayerIdentifiers" [
  ("license", text 128),
  ("steam", .optional (text 128)),
  ("discord", .optional (text 128)),
  ("ip", formatted .ip (some 45))]

def NonceRequest : FieldType := .struct "NonceRequest" [
  ("serverId", formatted .uuid none),
  ("player", PlayerIdentifiers),
  ("gameBuild", .optional (text 32)),
  ("protocolVersion", atLeast 1)]

def NonceResponse : FieldType := .struct "NonceResponse" [
  ("nonce", hex64),
  ("sessionId", formatted .uuid none),
  ("expiresAt", formatted .datetime none),
  ("policyTier", enumRef PolicyTier),
  ("backendUrl", text 256),
  ("protocolVersion", atLeast 1)]

def AttestationRequest : FieldType := .struct "AttestationRequest" [
  ("nonce", hex64),
  ("snapshot", SystemSnapshot),
  ("quote", .optional AttestationQuote),
  ("protocolVersion", atLeast 1)]

def AttestationAck : FieldType := .struct "AttestationAck" [
  ("accepted", .bool),
  ("sessionId", formatted .uuid none),
  ("receivedAt", formatted .datetime none),
  ("heartbeatIntervalSeconds", .int (some 5) (some 3600))]

def RequirementResult : FieldType := .struct "RequirementResult" [
  ("requirement", enumRef RequirementId),
  ("status", enumRef RequirementStatus),
  ("detail", .optional (text 200))]

def Verdict : FieldType := .struct "Verdict" [
  ("decision", enumRef VerdictDecision),
  ("sessionId", formatted .uuid none),
  ("reasons", .array (enumRef DenyReason) (some 16)),
  ("requirements", .array RequirementResult (some 32)),
  ("remediation", .optional (text 500)),
  ("policyTier", enumRef PolicyTier),
  ("evaluatedAt", formatted .datetime none),
  ("failOpen", .bool)]

def LivenessResponse : FieldType := .struct "LivenessResponse" [
  ("sessionId", formatted .uuid none),
  ("state", enumRef SessionState),
  ("lastHeartbeatAt", .optional (formatted .datetime none)),
  ("graceExpiresAt", .optional (formatted .datetime none)),
  ("shouldKick", .bool),
  ("reason", .optional (enumRef DenyReason))]

/-! ## local.ts -/

def LocalAttestCommand : FieldType := .struct "LocalAttestCommand" [
  ("nonce", hex64),
  ("backendUrl", text 256),
  ("serverName", .optional (text 128)),
  ("protocolVersion", atLeast 1)]

def LocalAttestAck : FieldType := .struct "LocalAttestAck" [
  ("accepted", .bool),
  ("companionVersion", formatted .semver (some 32)),
  ("protocolVersion", atLeast 1)]

def CompanionPollRequest : FieldType := .struct "CompanionPollRequest" [
  ("companionVersion", formatted .semver (some 32)),
  ("waitSeconds", .int (some 0) (some 30)),
  ("protocolVersion", atLeast 1)]

def CompanionPollResponse : FieldType := .struct "CompanionPollResponse" [
  ("pending", .bool),
  ("nonce", .optional hex64),
  ("serverName", .optional (text 128)),
  ("policyTier", .optional (enumRef PolicyTier)),
  ("expiresAt", .optional (formatted .datetime none)),
  ("protocolVersion", atLeast 1)]

def CompanionOutcomeRequest : FieldType := .struct "CompanionOutcomeRequest" [
  ("sessionId", formatted .uuid none),
  ("waitSeconds", .int (some 0) (some 10)),
  ("protocolVersion", atLeast 1)]

def HeartbeatRequest : FieldType := .struct "HeartbeatRequest" [
  ("sessionId", formatted .uuid none),
  ("companionBuildHash", hex64),
  ("uptimeSeconds", atLeast 0),
  ("gameProcessPresent", .bool),
  ("closing", .optional .bool),
  ("protocolVersion", atLeast 1)]

def HeartbeatResponse : FieldType := .struct "HeartbeatResponse" [
  ("acknowledged", .bool),
  ("nextIntervalSeconds", .int (some 5) (some 3600)),
  ("terminate", .bool),
  ("terminateReason", .optional (enumRef DenyReason))]

def ProtocolError : FieldType := .struct "ProtocolError" [
  ("code", text 64),
  ("message", text 500),
  ("requestId", .optional (text 64))]

/-- the structs of the registry, in the order of their declaration -/
def registry : List FieldType := [
  SecurityFeatures, TpmInfo, GameProcessEvidence, SystemSnapshot, AttestationQuote,
  PlayerIdentifiers, NonceRequest, NonceResponse, AttestationRequest, AttestationAck,
  RequirementResult, Verdict, LivenessResponse,
  LocalAttestCommand, LocalAttestAck, CompanionPollRequest, CompanionPollResponse,
  CompanionOutcomeRequest, HeartbeatRequest, HeartbeatResponse, ProtocolError]

end Schema

end Protocol
