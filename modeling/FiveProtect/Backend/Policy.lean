import FiveProtect.Protocol.Messages

/-!
# Backend: the policy

`services/backend/src/attestation/policy.ts`.  `evaluatePolicy` runs over the requirements in
`reportOrder` and accumulates the results and the set of reasons (a set that keeps insertion order,
as a JavaScript `Set` does).
-/

namespace Backend
open Protocol

/-- what a failed requirement does at a given tier -/
inductive Enforcement where
  | block
  | warn
  | skip
  deriving DecidableEq

def targetPolicyTable : RequirementId → PolicyTier → Enforcement
  | .companion_attested, _ => .block
  | .test_signing_disabled, _ => .block
  | .kernel_debugging_disabled, _ => .block
  | .vulnerable_drivers_absent, .relaxed => .warn
  | .vulnerable_drivers_absent, _ => .block
  | .secure_boot_enabled, .relaxed => .skip
  | .secure_boot_enabled, _ => .block
  | .tpm_attestation_valid, .relaxed => .skip
  | .tpm_attestation_valid, _ => .block
  | .hvci_enabled, .relaxed => .skip
  | .hvci_enabled, _ => .block
  | .driver_blocklist_enabled, .relaxed => .skip
  | .driver_blocklist_enabled, _ => .block
  | .iommu_enabled, .relaxed => .skip
  | .iommu_enabled, .standard => .warn
  | .iommu_enabled, .strict => .block
  | .game_process_present, _ => .block
  | .network_origin_matches, _ => .block

/-- where the running implementation cannot yet enforce the target table -/
def phase1Overrides : RequirementId → Option Enforcement
  | .vulnerable_drivers_absent => some .skip
  | _ => none

/-- the table in force -/
def policyTable (id : RequirementId) (tier : PolicyTier) : Enforcement :=
  (phase1Overrides id).getD (targetPolicyTable id tier)

def reportOrder : List RequirementId := [
  .companion_attested,
  .test_signing_disabled,
  .kernel_debugging_disabled,
  .game_process_present,
  .network_origin_matches,
  .secure_boot_enabled,
  .tpm_attestation_valid,
  .hvci_enabled,
  .driver_blocklist_enabled,
  .vulnerable_drivers_absent,
  .iommu_enabled]

structure PolicyInput where
  tier : PolicyTier
  snapshot : SystemSnapshot
  gameIp : String
  attestationIp : String
  buildAccepted : Bool

/-- what an evaluation decides: never `pending` -/
inductive Decision where
  | allow
  | deny
  deriving DecidableEq

def Decision.verdict : Decision → VerdictDecision
  | .allow => .allow
  | .deny => .deny

structure PolicyOutcome where
  decision : Decision
  reasons : List DenyReason
  requirements : List RequirementResult
  deriving DecidableEq

/-- `boolean | 'unknown'` -/
inductive Met where
  | met
  | notMet
  | unknown
  deriving DecidableEq

structure Finding where
  met : Met
  detail : Option String := none
  deriving DecidableEq

/-! ## findings -/

def stateUnknown : String := "Zustand konnte nicht ermittelt werden"

def expect (actual wanted : FeatureState) : Finding :=
  if actual = wanted then ⟨.met, none⟩
  else if actual = .unknown then ⟨.unknown, some stateUnknown⟩
  else ⟨.notMet, none⟩

/-- the note the companion leaves when Windows names the driver that blocks memory integrity -/
def blockedBy : String := "hvci_blocked_by:"

def blockingNote (snapshot : SystemSnapshot) : Option String :=
  snapshot.probeErrors.find? fun entry => Text.startsWith entry blockedBy

def hvciFinding (state : FeatureState) (snapshot : SystemSnapshot) : Finding :=
  match state with
  | .enabled => ⟨.met, none⟩
  | .unknown => ⟨.unknown, some stateUnknown⟩
  | .disabled =>
    match blockingNote snapshot with
    | none => ⟨.notMet, none⟩
    | some blocking =>
      ⟨.notMet, some ("blockiert durch " ++ Text.slice blocking blockedBy.toList.length)⟩

def tpmFinding (snapshot : SystemSnapshot) : Finding :=
  if !snapshot.tpm.present then ⟨.notMet, some "kein TPM 2.0 gefunden"⟩
  else ⟨.met, some "Präsenz geprüft, Quote-Validierung folgt in Phase 2"⟩

def gameProcessFinding (snapshot : SystemSnapshot) : Finding :=
  match snapshot.gameProcess with
  | none => ⟨.notMet, some "kein lokaler FiveM-Prozess beobachtet"⟩
  | some _ => ⟨.met, none⟩

/-- one to three digits; what is left after them -/
def octet (l : List Char) : Option (List Char) :=
  let n := (l.takeWhile Zod.isDigit).length
  if 1 ≤ n ∧ n ≤ 3 then some (l.dropWhile Zod.isDigit) else none

/-- `\d{1,3}(?:\.\d{1,3}){3}` -/
def isDottedQuad (l : List Char) : Bool :=
  ((octet l).bind fun l => (Zod.lit '.' l).bind fun l => (octet l).bind fun l =>
    (Zod.lit '.' l).bind fun l => (octet l).bind fun l => (Zod.lit '.' l).bind octet) == some []

def mappedPrefix : String := "::ffff:"

/-- makes IPv4-mapped IPv6 addresses comparable with their IPv4 form -/
def normaliseIp (address : String) : String :=
  let lowered := Text.toLowerCase (Text.trim address)
  let rest := Text.slice lowered mappedPrefix.toList.length
  if Text.startsWith lowered mappedPrefix && isDottedQuad rest.toList then rest else lowered

def originFinding (gameIp attestationIp : String) : Finding :=
  if normaliseIp gameIp = normaliseIp attestationIp then ⟨.met, none⟩
  else ⟨.notMet, some "Attestation kam von einer anderen Adresse als die Spielverbindung"⟩

def collectFindings (input : PolicyInput) : RequirementId → Finding
  | .companion_attested => ⟨.met, none⟩
  | .test_signing_disabled => expect input.snapshot.features.testSigning .disabled
  | .kernel_debugging_disabled => expect input.snapshot.features.kernelDebugging .disabled
  | .secure_boot_enabled => expect input.snapshot.features.secureBoot .enabled
  | .hvci_enabled => hvciFinding input.snapshot.features.hvci input.snapshot
  | .driver_blocklist_enabled => expect input.snapshot.features.driverBlocklist .enabled
  | .iommu_enabled => expect input.snapshot.features.iommu .enabled
  | .tpm_attestation_valid => tpmFinding input.snapshot
  | .vulnerable_drivers_absent => ⟨.unknown, some "Treiberprüfung folgt in Phase 3"⟩
  | .game_process_present => gameProcessFinding input.snapshot
  | .network_origin_matches => originFinding input.gameIp input.attestationIp

/-! ## the evaluation -/

def reasonFor : RequirementId → DenyReason
  | .game_process_present => .game_process_missing
  | .network_origin_matches => .network_origin_mismatch
  | _ => .policy_not_met

/-- `reasons.add(reason)` -/
def addReason (reasons : List DenyReason) (reason : DenyReason) : List DenyReason :=
  if reason ∈ reasons then reasons else reasons ++ [reason]

/-- the status one requirement is reported with -/
def statusFor (enforcement : Enforcement) (m : Met) : RequirementStatus :=
  match enforcement, m with
  | .skip, _ => .skipped
  | _, .met => .pass
  | _, .unknown => .unknown
  | .warn, .notMet => .warn
  | .block, .notMet => .fail

/-- the requirement turns the player away -/
def blocks (enforcement : Enforcement) (m : Met) : Bool :=
  enforcement = .block && m ≠ .met

/-- one turn of the loop over `reportOrder` -/
def report (input : PolicyInput) (acc : List RequirementResult × List DenyReason)
    (id : RequirementId) : List RequirementResult × List DenyReason :=
  let enforcement := policyTable id input.tier
  let finding := collectFindings input id
  (acc.1 ++ [⟨id, statusFor enforcement finding.met, finding.detail⟩],
    if blocks enforcement finding.met then addReason acc.2 (reasonFor id) else acc.2)

def evaluatePolicy (input : PolicyInput) : PolicyOutcome :=
  let acc := reportOrder.foldl (report input) ([], [])
  let reasons := if input.buildAccepted then acc.2 else addReason acc.2 .companion_outdated
  { decision := if reasons = [] then .allow else .deny
    reasons := reasons
    requirements := acc.1 }

/-! ## what an evaluation returns -/

theorem foldl_report_fst (input : PolicyInput) (ids : List RequirementId)
    (acc : List RequirementResult × List DenyReason) :
    (ids.foldl (report input) acc).1 = acc.1 ++ ids.map fun id =>
      ⟨id, statusFor (policyTable id input.tier) (collectFindings input id).met,
        (collectFindings input id).detail⟩ := by
  induction ids generalizing acc with
  | nil => simp
  | cons id ids ih =>
    rw [List.foldl_cons, ih]
    simp [report]

/-- every requirement is reported once, in `reportOrder` -/
theorem evaluatePolicy_requirements (input : PolicyInput) :
    (evaluatePolicy input).requirements = reportOrder.map fun id =>
      ⟨id, statusFor (policyTable id input.tier) (collectFindings input id).met,
        (collectFindings input id).detail⟩ := by
  show (reportOrder.foldl (report input) ([], [])).1 = _
  rw [foldl_report_fst, List.nil_append]

theorem addReason_ne_nil (reasons : List DenyReason) (reason : DenyReason) :
    addReason reasons reason ≠ [] := by
  unfold addReason
  split
  · rename_i h
    exact List.ne_nil_of_mem h
  · simp

/-- the decision says whether there is a reason -/
theorem evaluatePolicy_allow_iff (input : PolicyInput) :
    (evaluatePolicy input).decision = .allow ↔ (evaluatePolicy input).reasons = [] := by
  simp only [evaluatePolicy]
  split <;> simp_all

/-- an unaccepted build is never allowed -/
theorem buildAccepted_of_allow {input : PolicyInput}
    (h : (evaluatePolicy input).decision = .allow) : input.buildAccepted = true := by
  rw [evaluatePolicy_allow_iff] at h
  simp only [evaluatePolicy] at h
  split at h
  · assumption
  · exact absurd h (addReason_ne_nil _ _)

theorem mem_addReason {reasons : List DenyReason} {reason r : DenyReason} :
    r ∈ addReason reasons reason ↔ r ∈ reasons ∨ r = reason := by
  unfold addReason
  split
  · rename_i h
    constructor
    · exact Or.inl
    · rintro (hr | rfl)
      · exact hr
      · exact h
  · simp

theorem foldl_report_reasons (input : PolicyInput) (P : DenyReason → Prop)
    (hP : ∀ id, P (reasonFor id)) (ids : List RequirementId)
    (acc : List RequirementResult × List DenyReason) (hacc : ∀ r ∈ acc.2, P r) :
    ∀ r ∈ (ids.foldl (report input) acc).2, P r := by
  induction ids generalizing acc with
  | nil => exact hacc
  | cons id ids ih =>
    rw [List.foldl_cons]
    apply ih
    intro r hr
    simp only [report] at hr
    split at hr
    · rcases mem_addReason.mp hr with h | rfl
      · exact hacc r h
      · exact hP id
    · exact hacc r hr

/-- the only reasons an evaluation gives -/
theorem mem_evaluatePolicy_reasons (input : PolicyInput) :
    ∀ r ∈ (evaluatePolicy input).reasons, r = .policy_not_met ∨ r = .game_process_missing ∨
      r = .network_origin_mismatch ∨ r = .companion_outdated := by
  have h := foldl_report_reasons input
    (fun r => r = .policy_not_met ∨ r = .game_process_missing ∨ r = .network_origin_mismatch ∨
      r = .companion_outdated) (fun id => by cases id <;> simp [reasonFor]) reportOrder ([], [])
    (fun r hr => absurd hr List.not_mem_nil)
  intro r hr
  simp only [evaluatePolicy] at hr
  split at hr
  · exact h r hr
  · rcases mem_addReason.mp hr with hr | rfl
    · exact h r hr
    · simp

end Backend
