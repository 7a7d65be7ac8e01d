import FiveProtect.Protocol.Zod
import FiveProtect.Lib.Uuid

/-!
# Protocol: the messages

The types `z.infer` gives to the schemas (`packages/protocol/generated/typescript`), and
`safeParse` for the bodies the backend parses: the schema accepts the JSON value and the value is
read into the type.

* `snapshot_read`      a snapshot that is written is read back;
* `snapshot_accepted`  when Zod takes it.
-/

namespace Protocol

/-! ## requests -/

structure SecurityFeatures where
  secureBoot : FeatureState
  hvci : FeatureState
  testSigning : FeatureState
  kernelDebugging : FeatureState
  driverBlocklist : FeatureState
  iommu : FeatureState
  virtualizationBasedSecurity : FeatureState
  deriving DecidableEq

structure TpmInfo where
  present : Bool
  manufacturer : Option String
  specVersion : Option String
  attestationKeyId : Option String
  deriving DecidableEq

structure GameProcessEvidence where
  pid : Int
  startedAtUnixMs : Int
  imageName : String
  mainWindowPresent : Bool
  deriving DecidableEq

structure SystemSnapshot where
  schemaVersion : Int
  collectedAt : String
  companionVersion : String
  companionBuildHash : String
  osBuild : String
  features : SecurityFeatures
  tpm : TpmInfo
  gameProcess : Option GameProcessEvidence
  probeErrors : List String
  deriving DecidableEq

structure AttestationQuote where
  akPublicKeyId : String
  pcrSelection : List Int
  pcrDigest : String
  quoteBlob : String
  signature : String
  deriving DecidableEq

structure AttestationRequest where
  nonce : String
  snapshot : SystemSnapshot
  quote : Option AttestationQuote
  protocolVersion : Int
  deriving DecidableEq

structure PlayerIdentifiers where
  license : String
  steam : Option String
  discord : Option String
  ip : String
  deriving DecidableEq

structure NonceRequest where
  serverId : String
  player : PlayerIdentifiers
  gameBuild : Option String
  protocolVersion : Int
  deriving DecidableEq

structure CompanionPollRequest where
  companionVersion : String
  waitSeconds : Int
  protocolVersion : Int
  deriving DecidableEq

structure CompanionOutcomeRequest where
  sessionId : String
  waitSeconds : Int
  protocolVersion : Int
  deriving DecidableEq

structure HeartbeatRequest where
  sessionId : String
  companionBuildHash : String
  uptimeSeconds : Int
  gameProcessPresent : Bool
  closing : Option Bool
  protocolVersion : Int
  deriving DecidableEq

/-! ## responses -/

structure RequirementResult where
  requirement : RequirementId
  status : RequirementStatus
  detail : Option String
  deriving DecidableEq

structure NonceResponse where
  nonce : String
  sessionId : Uuid
  expiresAt : String
  policyTier : PolicyTier
  backendUrl : String
  protocolVersion : Int
  deriving DecidableEq

structure Verdict where
  decision : VerdictDecision
  sessionId : Uuid
  reasons : List DenyReason
  requirements : List RequirementResult
  remediation : Option String
  policyTier : PolicyTier
  evaluatedAt : String
  failOpen : Bool
  deriving DecidableEq

structure LivenessResponse where
  sessionId : Uuid
  state : SessionState
  lastHeartbeatAt : Option String
  graceExpiresAt : Option String
  shouldKick : Bool
  reason : Option DenyReason
  deriving DecidableEq

structure CompanionPollResponse where
  pending : Bool
  nonce : Option String
  serverName : Option String
  policyTier : Option PolicyTier
  expiresAt : Option String
  protocolVersion : Int
  deriving DecidableEq

structure AttestationAck where
  accepted : Bool
  sessionId : Uuid
  receivedAt : String
  heartbeatIntervalSeconds : Nat
  deriving DecidableEq

structure HeartbeatResponse where
  acknowledged : Bool
  nextIntervalSeconds : Nat
  terminate : Bool
  terminateReason : Option DenyReason
  deriving DecidableEq

/-! ## reading requests -/

def SecurityFeatures.ofJson (j : Json) : Option SecurityFeatures := do
  return {
    secureBoot := ← j.field "secureBoot" (enum? FeatureState)
    hvci := ← j.field "hvci" (enum? FeatureState)
    testSigning := ← j.field "testSigning" (enum? FeatureState)
    kernelDebugging := ← j.field "kernelDebugging" (enum? FeatureState)
    driverBlocklist := ← j.field "driverBlocklist" (enum? FeatureState)
    iommu := ← j.field "iommu" (enum? FeatureState)
    virtualizationBasedSecurity := ← j.field "virtualizationBasedSecurity" (enum? FeatureState) }

def TpmInfo.ofJson (j : Json) : Option TpmInfo := do
  return {
    present := ← j.field "present" Json.bool?
    manufacturer := ← j.optional "manufacturer" Json.text?
    specVersion := ← j.optional "specVersion" Json.text?
    attestationKeyId := ← j.optional "attestationKeyId" Json.text? }

def GameProcessEvidence.ofJson (j : Json) : Option GameProcessEvidence := do
  return {
    pid := ← j.field "pid" Json.int?
    startedAtUnixMs := ← j.field "startedAtUnixMs" Json.int?
    imageName := ← j.field "imageName" Json.text?
    mainWindowPresent := ← j.field "mainWindowPresent" Json.bool? }

/-- an array, item by item -/
def list? {α : Type} (decode : Json → Option α) (j : Json) : Option (List α) :=
  j.arr?.bind (List.mapM decode)

def SystemSnapshot.ofJson (j : Json) : Option SystemSnapshot := do
  return {
    schemaVersion := ← j.field "schemaVersion" Json.int?
    collectedAt := ← j.field "collectedAt" Json.text?
    companionVersion := ← j.field "companionVersion" Json.text?
    companionBuildHash := ← j.field "companionBuildHash" Json.text?
    osBuild := ← j.field "osBuild" Json.text?
    features := ← j.field "features" SecurityFeatures.ofJson
    tpm := ← j.field "tpm" TpmInfo.ofJson
    gameProcess := ← j.optional "gameProcess" GameProcessEvidence.ofJson
    probeErrors := ← j.field "probeErrors" (list? Json.text?) }

def AttestationQuote.ofJson (j : Json) : Option AttestationQuote := do
  return {
    akPublicKeyId := ← j.field "akPublicKeyId" Json.text?
    pcrSelection := ← j.field "pcrSelection" (list? Json.int?)
    pcrDigest := ← j.field "pcrDigest" Json.text?
    quoteBlob := ← j.field "quoteBlob" Json.text?
    signature := ← j.field "signature" Json.text? }

def AttestationRequest.ofJson (j : Json) : Option AttestationRequest := do
  return {
    nonce := ← j.field "nonce" Json.text?
    snapshot := ← j.field "snapshot" SystemSnapshot.ofJson
    quote := ← j.optional "quote" AttestationQuote.ofJson
    protocolVersion := ← j.field "protocolVersion" Json.int? }

def PlayerIdentifiers.ofJson (j : Json) : Option PlayerIdentifiers := do
  return {
    license := ← j.field "license" Json.text?
    steam := ← j.optional "steam" Json.text?
    discord := ← j.optional "discord" Json.text?
    ip := ← j.field "ip" Json.text? }

def NonceRequest.ofJson (j : Json) : Option NonceRequest := do
  return {
    serverId := ← j.field "serverId" Json.text?
    player := ← j.field "player" PlayerIdentifiers.ofJson
    gameBuild := ← j.optional "gameBuild" Json.text?
    protocolVersion := ← j.field "protocolVersion" Json.int? }

def CompanionPollRequest.ofJson (j : Json) : Option CompanionPollRequest := do
  return {
    companionVersion := ← j.field "companionVersion" Json.text?
    waitSeconds := ← j.field "waitSeconds" Json.int?
    protocolVersion := ← j.field "protocolVersion" Json.int? }

def CompanionOutcomeRequest.ofJson (j : Json) : Option CompanionOutcomeRequest := do
  return {
    sessionId := ← j.field "sessionId" Json.text?
    waitSeconds := ← j.field "waitSeconds" Json.int?
    protocolVersion := ← j.field "protocolVersion" Json.int? }

def HeartbeatRequest.ofJson (j : Json) : Option HeartbeatRequest := do
  return {
    sessionId := ← j.field "sessionId" Json.text?
    companionBuildHash := ← j.field "companionBuildHash" Json.text?
    uptimeSeconds := ← j.field "uptimeSeconds" Json.int?
    gameProcessPresent := ← j.field "gameProcessPresent" Json.bool?
    closing := ← j.optional "closing" Json.bool?
    protocolVersion := ← j.field "protocolVersion" Json.int? }

/-- `Schema.safeParse(body)` -/
def safeParse {α : Type} (schema : FieldType) (decode : Json → Option α) (body : Json) :
    Option α :=
  if Zod.accepts schema body then decode body else none

def AttestationRequest.safeParse : Json → Option AttestationRequest :=
  Protocol.safeParse Schema.AttestationRequest AttestationRequest.ofJson

def NonceRequest.safeParse : Json → Option NonceRequest :=
  Protocol.safeParse Schema.NonceRequest NonceRequest.ofJson

def CompanionPollRequest.safeParse : Json → Option CompanionPollRequest :=
  Protocol.safeParse Schema.CompanionPollRequest CompanionPollRequest.ofJson

def CompanionOutcomeRequest.safeParse : Json → Option CompanionOutcomeRequest :=
  Protocol.safeParse Schema.CompanionOutcomeRequest CompanionOutcomeRequest.ofJson

def HeartbeatRequest.safeParse : Json → Option HeartbeatRequest :=
  Protocol.safeParse Schema.HeartbeatRequest HeartbeatRequest.ofJson

/-! ## writing responses -/

def RequirementResult.toJson (r : RequirementResult) : Json :=
  .obj ([("requirement", .str (wire r.requirement)), ("status", .str (wire r.status))] ++
    Json.member? "detail" (r.detail.map .str))

def Verdict.toJson (v : Verdict) : Json :=
  .obj ([("decision", .str (wire v.decision)),
    ("sessionId", .str v.sessionId.toText),
    ("reasons", .arr (v.reasons.map fun r => .str (wire r))),
    ("requirements", .arr (v.requirements.map RequirementResult.toJson)),
    ("policyTier", .str (wire v.policyTier)),
    ("evaluatedAt", .str v.evaluatedAt),
    ("failOpen", .bool v.failOpen)] ++
    Json.member? "remediation" (v.remediation.map .str))

def LivenessResponse.toJson (r : LivenessResponse) : Json :=
  .obj ([("sessionId", .str r.sessionId.toText),
    ("state", .str (wire r.state)),
    ("shouldKick", .bool r.shouldKick)] ++
    Json.member? "lastHeartbeatAt" (r.lastHeartbeatAt.map .str) ++
    Json.member? "graceExpiresAt" (r.graceExpiresAt.map .str) ++
    Json.member? "reason" (r.reason.map fun reason => .str (wire reason)))

def CompanionPollResponse.toJson (r : CompanionPollResponse) : Json :=
  .obj ([("pending", .bool r.pending)] ++
    Json.member? "nonce" (r.nonce.map .str) ++
    Json.member? "serverName" (r.serverName.map .str) ++
    Json.member? "policyTier" (r.policyTier.map fun tier => .str (wire tier)) ++
    Json.member? "expiresAt" (r.expiresAt.map .str) ++
    [("protocolVersion", .num (.int r.protocolVersion))])

/-! ## writing snapshots -/

def SecurityFeatures.toJson (f : SecurityFeatures) : Json :=
  .obj [("secureBoot", .str (wire f.secureBoot)),
    ("hvci", .str (wire f.hvci)),
    ("testSigning", .str (wire f.testSigning)),
    ("kernelDebugging", .str (wire f.kernelDebugging)),
    ("driverBlocklist", .str (wire f.driverBlocklist)),
    ("iommu", .str (wire f.iommu)),
    ("virtualizationBasedSecurity", .str (wire f.virtualizationBasedSecurity))]

def TpmInfo.toJson (t : TpmInfo) : Json :=
  .obj ([("present", .bool t.present)] ++
    Json.member? "manufacturer" (t.manufacturer.map .str) ++
    Json.member? "specVersion" (t.specVersion.map .str) ++
    Json.member? "attestationKeyId" (t.attestationKeyId.map .str))

def GameProcessEvidence.toJson (g : GameProcessEvidence) : Json :=
  .obj [("pid", .num (.int g.pid)),
    ("startedAtUnixMs", .num (.int g.startedAtUnixMs)),
    ("imageName", .str g.imageName),
    ("mainWindowPresent", .bool g.mainWindowPresent)]

def SystemSnapshot.toJson (s : SystemSnapshot) : Json :=
  .obj ([("schemaVersion", .num (.int s.schemaVersion)),
    ("collectedAt", .str s.collectedAt),
    ("companionVersion", .str s.companionVersion),
    ("companionBuildHash", .str s.companionBuildHash),
    ("osBuild", .str s.osBuild),
    ("features", s.features.toJson),
    ("tpm", s.tpm.toJson)] ++
    Json.member? "gameProcess" (s.gameProcess.map GameProcessEvidence.toJson) ++
    [("probeErrors", .arr (s.probeErrors.map .str))])

theorem features_read (f : SecurityFeatures) : SecurityFeatures.ofJson f.toJson = some f := by
  simp [SecurityFeatures.ofJson, SecurityFeatures.toJson, Json.field, Json.get?]

theorem tpm_read (t : TpmInfo) : TpmInfo.ofJson t.toJson = some t := by
  obtain ⟨present, manufacturer, specVersion, attestationKeyId⟩ := t
  cases manufacturer <;> cases specVersion <;> cases attestationKeyId <;>
    simp [TpmInfo.ofJson, TpmInfo.toJson, Json.field, Json.get?, Json.optional, Json.member?,
      Json.text?, Json.bool?]

theorem evidence_read (g : GameProcessEvidence) :
    GameProcessEvidence.ofJson g.toJson = some g := by
  simp [GameProcessEvidence.ofJson, GameProcessEvidence.toJson, Json.field, Json.get?, Json.int?,
    Json.text?, Json.bool?]

theorem list?_map {α : Type} {decode : Json → Option α} {encode : α → Json}
    (h : ∀ a, decode (encode a) = some a) (l : List α) :
    list? decode (.arr (l.map encode)) = some l := by
  show (l.map encode).mapM decode = some l
  induction l with
  | nil => rfl
  | cons a l ih => simp [h, ih]

/-- **A snapshot that is written is read back.** -/
theorem snapshot_read (s : SystemSnapshot) : SystemSnapshot.ofJson s.toJson = some s := by
  have hstr : ∀ t, Json.text? (.str t) = some t := fun _ => rfl
  have herrors : list? Json.text? (.arr (s.probeErrors.map .str)) = some s.probeErrors :=
    list?_map hstr s.probeErrors
  obtain ⟨schemaVersion, collectedAt, companionVersion, companionBuildHash, osBuild, features, tpm,
    gameProcess, probeErrors⟩ := s
  cases gameProcess with
  | none =>
    simp [SystemSnapshot.ofJson, SystemSnapshot.toJson, Json.field, Json.get?, Json.optional,
      Json.member?, Json.int?, hstr, herrors, features_read, tpm_read]
  | some g =>
    simp [SystemSnapshot.ofJson, SystemSnapshot.toJson, Json.field, Json.get?, Json.optional,
      Json.member?, Json.int?, hstr, herrors, features_read, tpm_read, evidence_read]

theorem texts_readable (keeps : Bool → Bool) (l : List String) :
    Json.readableItems keeps (l.map .str) = true := by
  induction l with
  | nil => rfl
  | cons s l ih => exact ih

/-- it has no half of a surrogate pair -/
theorem snapshot_wellFormed (s : SystemSnapshot) : s.toJson.wellFormed = true := by
  have htpm : s.tpm.toJson.wellFormed = true := by
    obtain ⟨present, manufacturer, specVersion, attestationKeyId⟩ := s.tpm
    cases manufacturer <;> cases specVersion <;> cases attestationKeyId <;> rfl
  have herrors := texts_readable (fun _ => false) s.probeErrors
  unfold SystemSnapshot.toJson
  unfold Json.wellFormed at htpm ⊢
  cases s.gameProcess with
  | none =>
    simp [Json.readable, Json.readableMembers, Json.member?, htpm, herrors, SecurityFeatures.toJson]
  | some g =>
    simp [Json.readable, Json.readableMembers, Json.member?, htpm, herrors, SecurityFeatures.toJson,
      GameProcessEvidence.toJson]

/-! ## what Zod takes -/

theorem features_accepted (f : SecurityFeatures) :
    Zod.accepts Schema.SecurityFeatures f.toJson = true := by
  obtain ⟨secureBoot, hvci, testSigning, kernelDebugging, driverBlocklist, iommu, vbs⟩ := f
  simp [Schema.SecurityFeatures, SecurityFeatures.toJson, Zod.accepts, Zod.acceptsFields, enumRef,
    Json.get?, wire_mem]

theorem evidence_accepted (g : GameProcessEvidence) :
    Zod.accepts Schema.GameProcessEvidence g.toJson = true ↔
      1 ≤ g.pid ∧ 0 ≤ g.startedAtUnixMs ∧ Text.utf16Length g.imageName ≤ 128 := by
  simp [Schema.GameProcessEvidence, GameProcessEvidence.toJson, Zod.accepts, Zod.acceptsFields,
    Zod.text, atLeast, text, Json.get?]

/-- **What Zod asks of a snapshot.** -/
theorem snapshot_accepted (s : SystemSnapshot) :
    Zod.accepts Schema.SystemSnapshot s.toJson = true ↔
      1 ≤ s.schemaVersion ∧
      Zod.accepts (formatted .datetime none) (.str s.collectedAt) = true ∧
      Zod.accepts (formatted .semver (some 32)) (.str s.companionVersion) = true ∧
      Zod.accepts hex64 (.str s.companionBuildHash) = true ∧
      Zod.accepts (text 64) (.str s.osBuild) = true ∧
      Zod.accepts Schema.TpmInfo s.tpm.toJson = true ∧
      (∀ g, s.gameProcess = some g → Zod.accepts Schema.GameProcessEvidence g.toJson = true) ∧
      (∀ e ∈ s.probeErrors, Text.utf16Length e ≤ 200) ∧ s.probeErrors.length ≤ 32 := by
  have hversion : ∀ i : Int, Zod.accepts (atLeast 1) (.num (.int i)) = true ↔ 1 ≤ i := by
    simp [atLeast, Zod.accepts]
  have herrors : ∀ l : List String, Zod.accepts (.array (text 200) (some 32))
      (.arr (l.map .str)) = true ↔ (∀ e ∈ l, Text.utf16Length e ≤ 200) ∧ l.length ≤ 32 := by
    simp [text, Zod.accepts, Zod.text]
  unfold Schema.SystemSnapshot SystemSnapshot.toJson
  cases s.gameProcess with
  | none =>
    simp [-IsEmpty.forall_iff, Zod.accepts_obj, HasField, Json.get?, Json.member?,
      FieldType.isOptional, features_accepted, hversion, herrors]
  | some g =>
    simp [-IsEmpty.forall_iff, Zod.accepts_obj, HasField, Json.get?, Json.member?,
      Zod.accepts_optional, features_accepted, hversion, herrors]

end Protocol
