import FiveProtect.Lib.Json

/-!
# Protocol: constants and enums

`packages/protocol/src/schemas/common.ts`.  Every enum is an inductive type with its wire values;
`WireEnum` ties the two together (`values`, in declaration order, and `wire`), and `ofWire?` reads a
wire value back.
-/

namespace Protocol

def protocolVersion : Int := 1
def nonceTtlSeconds : Nat := 30
def heartbeatIntervalSeconds : Nat := 120
def heartbeatGraceSeconds : Nat := 90
def verdictPollTimeoutSeconds : Nat := 20

/-- an enum of the protocol -/
class WireEnum (α : Type) where
  name : String
  all : List α
  wire : α → String
  mem_all : ∀ a, a ∈ all
  wire_inj : ∀ a b, wire a = wire b → a = b

export WireEnum (wire)

/-- the allowed wire values, in declaration order -/
def wireValues (α : Type) [WireEnum α] : List String := (WireEnum.all (α := α)).map wire

def ofWire? (α : Type) [WireEnum α] (s : String) : Option α :=
  (WireEnum.all (α := α)).find? fun a => wire a == s

theorem wire_mem {α : Type} [WireEnum α] (a : α) : wire a ∈ wireValues α :=
  List.mem_map.mpr ⟨a, WireEnum.mem_all a, rfl⟩

/-- an enum value survives the wire -/
theorem ofWire?_wire {α : Type} [WireEnum α] (a : α) : ofWire? α (wire a) = some a := by
  unfold ofWire?
  cases h : List.find? (fun b => wire b == wire a) (WireEnum.all (α := α)) with
  | none =>
    have h' := List.find?_eq_none.mp h a (WireEnum.mem_all a)
    simp at h'
  | some b =>
    have hb := List.find?_some h
    rw [WireEnum.wire_inj b a (by simpa using hb)]

inductive PolicyTier where
  | relaxed
  | standard
  | strict
  deriving DecidableEq

instance : WireEnum PolicyTier where
  name := "PolicyTier"
  all := [.relaxed, .standard, .strict]
  wire
    | .relaxed => "relaxed"
    | .standard => "standard"
    | .strict => "strict"
  mem_all a := by cases a <;> decide
  wire_inj a b := by cases a <;> cases b <;> decide

inductive FailMode where
  | fail_open
  | fail_closed
  deriving DecidableEq

inductive FeatureState where
  | enabled
  | disabled
  | unknown
  deriving DecidableEq

instance : WireEnum FeatureState where
  name := "FeatureState"
  all := [.enabled, .disabled, .unknown]
  wire
    | .enabled => "enabled"
    | .disabled => "disabled"
    | .unknown => "unknown"
  mem_all a := by cases a <;> decide
  wire_inj a b := by cases a <;> cases b <;> decide

inductive SessionState where
  | pending
  | attested
  | active
  | expired
  | terminated
  deriving DecidableEq

instance : WireEnum SessionState where
  name := "SessionState"
  all := [.pending, .attested, .active, .expired, .terminated]
  wire
    | .pending => "pending"
    | .attested => "attested"
    | .active => "active"
    | .expired => "expired"
    | .terminated => "terminated"
  mem_all a := by cases a <;> decide
  wire_inj a b := by cases a <;> cases b <;> decide

inductive VerdictDecision where
  | allow
  | deny
  | pending
  deriving DecidableEq

instance : WireEnum VerdictDecision where
  name := "VerdictDecision"
  all := [.allow, .deny, .pending]
  wire
    | .allow => "allow"
    | .deny => "deny"
    | .pending => "pending"
  mem_all a := by cases a <;> decide
  wire_inj a b := by cases a <;> cases b <;> decide

inductive RequirementId where
  | companion_attested
  | test_signing_disabled
  | kernel_debugging_disabled
  | secure_boot_enabled
  | tpm_attestation_valid
  | hvci_enabled
  | driver_blocklist_enabled
  | iommu_enabled
  | vulnerable_drivers_absent
  | game_process_present
  | network_origin_matches
  deriving DecidableEq

instance : WireEnum RequirementId where
  name := "RequirementId"
  all := [.companion_attested, .test_signing_disabled, .kernel_debugging_disabled,
    .secure_boot_enabled, .tpm_attestation_valid, .hvci_enabled, .driver_blocklist_enabled,
    .iommu_enabled, .vulnerable_drivers_absent, .game_process_present, .network_origin_matches]
  wire
    | .companion_attested => "companion_attested"
    | .test_signing_disabled => "test_signing_disabled"
    | .kernel_debugging_disabled => "kernel_debugging_disabled"
    | .secure_boot_enabled => "secure_boot_enabled"
    | .tpm_attestation_valid => "tpm_attestation_valid"
    | .hvci_enabled => "hvci_enabled"
    | .driver_blocklist_enabled => "driver_blocklist_enabled"
    | .iommu_enabled => "iommu_enabled"
    | .vulnerable_drivers_absent => "vulnerable_drivers_absent"
    | .game_process_present => "game_process_present"
    | .network_origin_matches => "network_origin_matches"
  mem_all a := by cases a <;> decide
  wire_inj a b := by cases a <;> cases b <;> decide

inductive RequirementStatus where
  | pass
  | fail
  | warn
  | skipped
  | unknown
  deriving DecidableEq

instance : WireEnum RequirementStatus where
  name := "RequirementStatus"
  all := [.pass, .fail, .warn, .skipped, .unknown]
  wire
    | .pass => "pass"
    | .fail => "fail"
    | .warn => "warn"
    | .skipped => "skipped"
    | .unknown => "unknown"
  mem_all a := by cases a <;> decide
  wire_inj a b := by cases a <;> cases b <;> decide

inductive DenyReason where
  | companion_missing
  | companion_timeout
  | companion_outdated
  | attestation_invalid
  | nonce_expired
  | nonce_reused
  | network_origin_mismatch
  | game_process_missing
  | policy_not_met
  | heartbeat_lost
  | backend_unavailable
  | banned
  deriving DecidableEq

instance : WireEnum DenyReason where
  name := "DenyReason"
  all := [.companion_missing, .companion_timeout, .companion_outdated, .attestation_invalid,
    .nonce_expired, .nonce_reused, .network_origin_mismatch, .game_process_missing,
    .policy_not_met, .heartbeat_lost, .backend_unavailable, .banned]
  wire
    | .companion_missing => "companion_missing"
    | .companion_timeout => "companion_timeout"
    | .companion_outdated => "companion_outdated"
    | .attestation_invalid => "attestation_invalid"
    | .nonce_expired => "nonce_expired"
    | .nonce_reused => "nonce_reused"
    | .network_origin_mismatch => "network_origin_mismatch"
    | .game_process_missing => "game_process_missing"
    | .policy_not_met => "policy_not_met"
    | .heartbeat_lost => "heartbeat_lost"
    | .backend_unavailable => "backend_unavailable"
    | .banned => "banned"
  mem_all a := by cases a <;> decide
  wire_inj a b := by cases a <;> cases b <;> decide

/-- an enum member of a JSON object -/
def enum? (α : Type) [WireEnum α] (j : Json) : Option α := j.str?.bind (ofWire? α)

@[simp] theorem enum?_wire {α : Type} [WireEnum α] (a : α) : enum? α (.str (wire a)) = some a :=
  ofWire?_wire a

end Protocol
