import FiveProtect.Backend.System

/-!
# Backend: a deployment with one tenant and one server

A concrete deployment, for examples: `gcm` is AES-256-GCM at one key, iv and text, with the bytes
the real cipher gives there, and a lawful cipher everywhere (`gcm_lawful`); `platform` has the real
digests of the texts the examples use.  `after` runs a list of events on `deployment`; `run_attest`
spares such a run the parsing of an attestation, `attested` the whole run that admits the player.
-/

namespace Backend.Deployment
open Protocol

/-! ## the cipher -/

def sealKey : SealKey := ⟨List.replicate 32 0, by decide⟩

def sealIv : SealIv := ⟨List.replicate 12 0, by decide⟩

def entropy : NonceBytes := ⟨(List.range 32).map UInt8.ofNat, by decide⟩

def nonce : String := "000102030405060708090a0b0c0d0e0f101112131415161718191a1b1c1d1e1f"

example : generateNonce entropy = nonce := by decide

/-- what the real cipher makes of `nonce` under `sealKey` and `sealIv` -/
def sealedTag : List UInt8 := [
  0x8b, 0xa4, 0xad, 0x84, 0x5a, 0xd6, 0xf1, 0x49, 0xe5, 0xa8, 0x65, 0x6a, 0xbf, 0x28, 0x9f, 0x33]

def sealedBody : List UInt8 := [
  0xfe, 0x97, 0x70, 0x0c, 0x7d, 0x52, 0x5b, 0x5d, 0x37, 0x7a, 0xf5, 0xe6, 0x8a, 0xc5, 0xad, 0x2f,
  0x42, 0x58, 0x33, 0xf3, 0x07, 0xc7, 0x1a, 0x16, 0xe1, 0xc1, 0xc5, 0xea, 0x45, 0x63, 0x05, 0xe8,
  0xec, 0x7a, 0x80, 0x19, 0x7c, 0x78, 0xd0, 0x48, 0x70, 0xdc, 0x68, 0x11, 0x76, 0x3a, 0x07, 0xc0,
  0x76, 0x79, 0xfa, 0xd8, 0xb0, 0xda, 0x4e, 0x52, 0x50, 0x1f, 0x2c, 0x87, 0x9a, 0x69, 0x0b, 0x79]

/-- a character in three bytes -/
def encodeChar (c : Char) : List UInt8 :=
  [UInt8.ofNat (c.toNat / 65536), UInt8.ofNat (c.toNat / 256), UInt8.ofNat c.toNat]

def decodeChars : List UInt8 → List Char
  | a :: b :: c :: l => Char.ofNat (a.toNat * 65536 + b.toNat * 256 + c.toNat) :: decodeChars l
  | _ => []

theorem decodeChars_encode (l : List Char) : decodeChars (l.flatMap encodeChar) = l := by
  induction l with
  | nil => rfl
  | cons c l ih =>
    have hc : c.toNat < 0xd800 ∨ 0xdfff < c.toNat ∧ c.toNat < 0x110000 := c.valid
    have hval : c.toNat / 65536 % 256 * 65536 + c.toNat / 256 % 256 * 256 + c.toNat % 256 =
        c.toNat := by omega
    simp only [List.flatMap_cons, encodeChar, List.cons_append, List.nil_append, decodeChars,
      UInt8.toNat_ofNat', Nat.reducePow]
    rw [hval, Char.ofNat_toNat, ih]

/-- the tag of a text other than `nonce` -/
def plainTag : List UInt8 := List.replicate 16 0

/-- the real cipher at `nonce`; elsewhere the key and the text, in the open -/
def gcm : Aes256Gcm where
  encrypt key iv text :=
    if key = sealKey ∧ iv = sealIv.bytes ∧ text = nonce then (sealedTag, sealedBody)
    else (plainTag, key.bytes ++ text.toList.flatMap encodeChar)
  decrypt key iv tag body :=
    if tag = sealedTag then
      if key = sealKey ∧ iv = sealIv.bytes ∧ body = sealedBody then some nonce else none
    else if tag = plainTag ∧ body.take 32 = key.bytes then
      some (String.ofList (decodeChars (body.drop 32)))
    else none

theorem gcm_lawful : gcm.Lawful := by
  have htags : plainTag ≠ sealedTag := by decide
  refine ⟨fun key iv text => ?_, fun key iv text _ => ?_, fun key iv text => ?_,
    fun key key' iv text hne => ?_⟩
  · simp only [gcm]
    split <;> rfl
  · simp only [gcm]
    split
    · decide
    · intro hnil
      have hlen := key.len
      rw [(List.append_eq_nil_iff.mp hnil).1] at hlen
      cases hlen
  · by_cases hreal : key = sealKey ∧ iv = sealIv.bytes ∧ text = nonce
    · obtain ⟨rfl, rfl, rfl⟩ := hreal
      simp [gcm]
    · have htake : (key.bytes ++ text.toList.flatMap encodeChar).take 32 = key.bytes := by
        rw [← key.len, List.take_left]
      have hdrop : (key.bytes ++ text.toList.flatMap encodeChar).drop 32 =
          text.toList.flatMap encodeChar := by
        rw [← key.len, List.drop_left]
      simp [gcm, if_neg hreal, if_neg htags, htake, hdrop, decodeChars_encode]
  · by_cases hreal : key = sealKey ∧ iv = sealIv.bytes ∧ text = nonce
    · have hother : key' ≠ sealKey := fun h => hne (hreal.1.trans h.symm)
      simp [gcm, if_pos hreal, hother]
    · have htake : (key.bytes ++ text.toList.flatMap encodeChar).take 32 = key.bytes := by
        rw [← key.len, List.take_left]
      have hbytes : key.bytes ≠ key'.bytes := by
        intro h
        cases key
        cases key'
        exact hne (by simpa using h)
      simp [gcm, if_neg hreal, if_neg htags, htake, hbytes]

/-! ## the platform -/

/-- a nonce that another tenant has issued -/
def otherNonce : String := "ffffffffffffffffffffffffffffffffffffffffffffffffffffffffffffffff"

def gameIp : Inet := ⟨false, 0xCB00712A, 32⟩

def platform : Platform where
  sha256 text :=
    if text = nonce then "6c86c6aac5fb24bcf5d9939cb7d7d5645ce39418f449e03b262dd4fa14b4b92b"
    else if text = "k" then "8254c329a92850f6d539dd376f4816ee2764517da5e0235514af433164480d7a"
    else if text = otherNonce then
      "df0790f236013511e91fa4532fb7761f62320a51a3868dabf4a13fe5f53e3263"
    else text
  aes := gcm
  inetIn text := if text = "203.0.113.42" then some gameIp else none
  inetHost _ := "203.0.113.42"
  timestamptzIn text := if text = "2026-08-04T14:09:41.412Z" then some 1785852581412 else none

/-! ## the deployment -/

def tenant (failMode : FailMode) : TenantRow where
  id := Uuid.small 1
  name := "tenant"
  policyTier := .standard
  failMode := failMode
  licenseStatus := .active
  banNetworkEnabled := false

def server : GameServer where
  id := Uuid.small 2
  tenantId := Uuid.small 1
  name := "server"
  serverKeyHash := "8254c329a92850f6d539dd376f4816ee2764517da5e0235514af433164480d7a"
  lastSeenAt := none

def buildHash : String := "aaaaaaaaaaaaaaaaaaaaaaaaaaaaaaaaaaaaaaaaaaaaaaaaaaaaaaaaaaaaaaaa"

/-- a table with one row -/
def only {R : Type} [Row R] (r : R) : Table R := ⟨[r], List.pairwise_singleton _ _⟩

/-- 2026-08-04, before the first request -/
def deployment (failMode : FailMode) : System where
  now := 1785852581412
  db :=
    { tenants := only (tenant failMode)
      gameServers := only server
      players := Table.empty
      builds := only ⟨buildHash, true⟩
      sessions := Table.empty
      snapshots := Table.empty }
  procs := fun _ => none

theorem deployment_initial (failMode : FailMode) : (deployment failMode).Initial := ⟨rfl, rfl, rfl⟩

/-- the session of a player of `server` whose nonce was just redeemed -/
def redeemed : AttestationSession where
  id := Uuid.small 5
  tenantId := Uuid.small 1
  gameServerId := Uuid.small 2
  playerIdentityId := Uuid.small 4
  nonceHash := platform.sha256 nonce
  nonceSealed := none
  gameIp := gameIp
  policyTier := .standard
  state := .attested
  issuedAt := 1785852581412
  expiresAt := 1785852701412
  consumedAt := some 1785852581412
  attestedAt := some 1785852581412
  attestationIp := some gameIp
  verdictDecision := .pending
  verdictReasons := []
  verdictRequirements := []
  verdictRemediation := none
  failOpen := false
  evaluatedAt := none
  lastHeartbeatAt := none
  graceExpiresAt := none
  terminatedAt := none
  terminationReason := none

/-! ## requests -/

def config : Config := ⟨sealKey, "https://gate.example"⟩

def authorization : Option String := some "Bearer k"

def nonceBody : Json := .obj [
  ("serverId", .str "00000000-0000-0000-0000-000000000002"),
  ("player", .obj [("license", .str "license:1"), ("ip", .str "203.0.113.42")]),
  ("protocolVersion", .num (.int 1))]

def verdictBody : Json := .obj [("nonce", .str nonce)]

def pendingBody : Json := .obj [
  ("companionVersion", .str "1.0.0"),
  ("waitSeconds", .num (.int 25)),
  ("protocolVersion", .num (.int 1))]

/-- an attestation from a computer that meets every requirement, but for its memory integrity and the
notes of its probes -/
def snapshotBody (hvci : FeatureState) (probeErrors : List String) : Json := .obj [
  ("nonce", .str nonce),
  ("snapshot", .obj [
    ("schemaVersion", .num (.int 1)),
    ("collectedAt", .str "2026-08-04T14:09:41.412Z"),
    ("companionVersion", .str "1.0.0"),
    ("companionBuildHash", .str buildHash),
    ("osBuild", .str "26100"),
    ("features", .obj [
      ("secureBoot", .str "enabled"),
      ("hvci", .str (wire hvci)),
      ("testSigning", .str "disabled"),
      ("kernelDebugging", .str "disabled"),
      ("driverBlocklist", .str "enabled"),
      ("iommu", .str "enabled"),
      ("virtualizationBasedSecurity", .str "enabled")]),
    ("tpm", .obj [("present", .bool true)]),
    ("gameProcess", .obj [
      ("pid", .num (.int 4711)),
      ("startedAtUnixMs", .num (.int 1785852000000)),
      ("imageName", .str "FiveM.exe"),
      ("mainWindowPresent", .bool true)]),
    ("probeErrors", .arr (probeErrors.map .str))]),
  ("protocolVersion", .num (.int 1))]

def attestBody (probeErrors : List String) : Json := snapshotBody .enabled probeErrors

/-- the id of the session of `issue`, as a text -/
def sessionId : String := "00000000-0000-0000-0000-000000000007"

def heartbeatBody : Json := .obj [
  ("sessionId", .str sessionId),
  ("companionBuildHash", .str buildHash),
  ("uptimeSeconds", .num (.int 0)),
  ("gameProcessPresent", .bool true),
  ("protocolVersion", .num (.int 1))]

/-- the snapshot in `attestBody []` -/
def snapshot : SystemSnapshot where
  schemaVersion := 1
  collectedAt := "2026-08-04T14:09:41.412Z"
  companionVersion := "1.0.0"
  companionBuildHash := buildHash
  osBuild := "26100"
  features := ⟨.enabled, .enabled, .disabled, .disabled, .enabled, .enabled, .enabled⟩
  tpm := ⟨true, none, none, none⟩
  gameProcess := some ⟨4711, 1785852000000, "FiveM.exe", true⟩
  probeErrors := []

/-- the snapshot in `snapshotBody hvci probeErrors` -/
def snapshotWith (hvci : FeatureState) (probeErrors : List String) : SystemSnapshot :=
  { snapshot with
    features := { snapshot.features with hvci := hvci }
    probeErrors := probeErrors }

section
variable {probeErrors : List String} (hshort : ∀ e ∈ probeErrors, Text.utf16Length e ≤ 200)
  (hcount : probeErrors.length ≤ 32)
include hshort hcount

theorem snapshotWith_accepted (hvci : FeatureState) :
    Zod.accepts Schema.SystemSnapshot (snapshotWith hvci probeErrors).toJson = true := by
  have haccepts : Zod.accepts Schema.SystemSnapshot snapshot.toJson = true := by decide +kernel
  obtain ⟨hversion, hcollected, hcompanion, hhash, hbuild, htpm, hgame, _⟩ :=
    (snapshot_accepted snapshot).mp haccepts
  exact (snapshot_accepted _).mpr
    ⟨hversion, hcollected, hcompanion, hhash, hbuild, htpm, hgame, hshort, hcount⟩

/-- the handler reads it -/
theorem safeParse_snapshotBody (hvci : FeatureState) :
    AttestationRequest.safeParse (snapshotBody hvci probeErrors) =
      some ⟨nonce, snapshotWith hvci probeErrors, none, 1⟩ := by
  have hbody : snapshotBody hvci probeErrors = .obj [("nonce", .str nonce),
      ("snapshot", (snapshotWith hvci probeErrors).toJson),
      ("protocolVersion", .num (.int 1))] := rfl
  have hnonce : Zod.accepts hex64 (.str nonce) = true := by decide +kernel
  have hversion : Zod.accepts (atLeast 1) (.num (.int 1)) = true := by decide +kernel
  have haccepts : Zod.accepts Schema.AttestationRequest (snapshotBody hvci probeErrors) = true := by
    rw [hbody, Schema.AttestationRequest, Zod.accepts_obj]
    simp [HasField, Json.get?, FieldType.isOptional, hnonce, hversion,
      snapshotWith_accepted hshort hcount]
  rw [AttestationRequest.safeParse, safeParse, if_pos haccepts, hbody]
  simp [AttestationRequest.ofJson, Json.field, Json.optional, Json.get?, Json.text?, Json.int?,
    snapshot_read]

/-- a run in which request `pid` brings it: nothing is left to parse -/
theorem run_attest (pid : Nat) (clientIp : String) (es : List Event) (s : System) :
    Machine.run (System.step platform)
        (.request pid (.attest clientIp (attestBody probeErrors)) :: es) s =
      if (s.procs pid).isNone then Machine.run (System.step platform) es (s.put pid
        ⟨.attest ⟨⟨nonce, snapshotWith .enabled probeErrors, none, 1⟩, clientIp, true, .claim⟩, false⟩)
      else none := by
  have hget : (attestBody probeErrors).get? "snapshot" =
      some (snapshotWith .enabled probeErrors).toJson := rfl
  have hwell : ((attestBody probeErrors).get? "snapshot").all Json.wellFormed = true := by
    rw [hget, Option.all_some, snapshot_wellFormed]
  rw [Machine.run, System.step, Request.start, hwell, attestBody,
    safeParse_snapshotBody hshort hcount]
  split <;> rfl

end

theorem no_notes : ∀ e ∈ ([] : List String), Text.utf16Length e ≤ 200 :=
  fun _ he => absurd he List.not_mem_nil

/-! ## runs -/

/-- `n` turns of the request `pid` -/
def turns (pid : Nat) (n : Nat) : List Event := List.replicate n (.exec pid (Uuid.small 7))

/-- request 0 is issued the nonce -/
def issue : List Event :=
  .request 0 (.nonce authorization nonceBody config entropy sealIv) :: turns 0 4

/-- request 1 polls for the verdict until its deadline -/
def pollToDeadline : List Event :=
  [.request 1 (.verdict authorization verdictBody)] ++ turns 1 2 ++ [.tick 20000] ++ turns 1 2

/-- request 2 attests -/
def attest (probeErrors : List String) : List Event :=
  .request 2 (.attest "203.0.113.42" (attestBody probeErrors)) :: turns 2 5

/-- when the player of `issue ++ attest []` is admitted -/
def admittedAt : Time := 1785852581412

/-- the heartbeat in `heartbeatBody` -/
def beat : HeartbeatRequest where
  sessionId := sessionId
  companionBuildHash := buildHash
  uptimeSeconds := 0
  gameProcessPresent := true
  closing := none
  protocolVersion := 1

/-- the player is admitted, and 210 seconds later request 3 asks whether he may stay, up to the point
where it has read the row, and request 4 brings a heartbeat, up to its last statement -/
def readAndBeat : List Event :=
  issue ++ attest [] ++ [.tick 210000, .request 3 (.liveness authorization sessionId)] ++ turns 3 2 ++
    [.request 4 (.heartbeat heartbeatBody)] ++ turns 4 2

def after (failMode : FailMode) (es : List Event) : Option System :=
  Machine.run (System.step platform) es (deployment failMode)

/-! ## the admitted player -/

/-- the row of the player of `issue ++ attest []` when he is admitted -/
def admittedRow : AttestationSession :=
  { redeemed with
    id := Uuid.small 7
    playerIdentityId := Uuid.small 7
    expiresAt := 1785852611412
    state := .active
    verdictDecision := .allow
    verdictRequirements :=
      (evaluatePolicy ⟨.standard, snapshot, "203.0.113.42", "203.0.113.42", true⟩).requirements
    evaluatedAt := some admittedAt
    lastHeartbeatAt := some admittedAt }

/-- the database then -/
def admittedDb (failMode : FailMode) : Db where
  tenants := only (tenant failMode)
  gameServers := only { server with lastSeenAt := some admittedAt }
  players := only ⟨Uuid.small 7, Uuid.small 1, "license:1", none, none, admittedAt, admittedAt⟩
  builds := only ⟨buildHash, true⟩
  sessions := only admittedRow
  snapshots := only
    { id := Uuid.small 7
      tenantId := Uuid.small 1
      sessionId := Uuid.small 7
      companionBuildHash := buildHash
      companionVersion := "1.0.0"
      collectedAt := admittedAt
      receivedAt := admittedAt
      payload := snapshot }

/-- he is admitted, whatever the fail mode -/
theorem attested (failMode : FailMode) : ∃ s, after failMode (issue ++ attest []) = some s ∧
    s.now = admittedAt ∧ s.db = admittedDb failMode := by
  have hrun : (after failMode (issue ++ attest [])).any (fun s => decide (s.now = admittedAt ∧
      s.db.tenants.rows = (admittedDb failMode).tenants.rows ∧
      s.db.gameServers.rows = (admittedDb failMode).gameServers.rows ∧
      s.db.players.rows = (admittedDb failMode).players.rows ∧
      s.db.builds.rows = (admittedDb failMode).builds.rows ∧
      s.db.sessions.rows = (admittedDb failMode).sessions.rows ∧
      s.db.snapshots.rows = (admittedDb failMode).snapshots.rows)) = true := by
    simp only [after, attest, Machine.run_append, run_attest no_notes (Nat.zero_le 32)]
    cases failMode <;> decide +kernel
  obtain ⟨s, hs, hfacts⟩ := (Option.any_eq_true _ _).mp hrun
  obtain ⟨hnow, htenants, hservers, hplayers, hbuilds, hsessions, hsnapshots⟩ :=
    of_decide_eq_true hfacts
  refine ⟨s, hs, hnow, ?_⟩
  show (⟨s.db.tenants, s.db.gameServers, s.db.players, s.db.builds, s.db.sessions, s.db.snapshots⟩ : Db) =
    admittedDb failMode
  rw [Table.ext htenants, Table.ext hservers, Table.ext hplayers, Table.ext hbuilds,
    Table.ext hsessions, Table.ext hsnapshots]

theorem reachable_after {failMode : FailMode} {es : List Event} {s : System}
    (h : after failMode es = some s) : Reachable platform s :=
  ⟨_, deployment_initial failMode, Machine.Steps.of_run es _ _ h⟩

end Backend.Deployment
