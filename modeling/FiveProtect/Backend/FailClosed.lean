import FiveProtect.Backend.Policy

/-!
# The policy is fail-closed and monotone

* `allow_iff`          a player is allowed if every requirement that blocks at the tier is met, and the
                       build is accepted;
* `blocks_mono`        a requirement that blocks at a tier blocks at the stricter ones;
* `Withholds`          a snapshot with less evidence than another;
* `met_of_withholds`   what is met without the evidence is met with it.
-/

namespace Backend
open Protocol

/-! ## when a finding is met -/

theorem expect_met {actual wanted : FeatureState} :
    (expect actual wanted).met = .met ↔ actual = wanted := by
  unfold expect
  by_cases h : actual = wanted
  · rw [if_pos h]
    exact iff_of_true rfl h
  · rw [if_neg h]
    refine iff_of_false (fun hmet => ?_) h
    split at hmet
    · cases hmet
    · cases hmet

theorem hvciFinding_met {state : FeatureState} {snapshot : SystemSnapshot} :
    (hvciFinding state snapshot).met = .met ↔ state = .enabled := by
  cases state with
  | enabled => exact iff_of_true rfl rfl
  | unknown => exact iff_of_false (fun h => by cases h) fun h => by cases h
  | disabled =>
    refine iff_of_false (fun h => ?_) fun h => by cases h
    unfold hvciFinding at h
    dsimp only at h
    split at h
    · cases h
    · cases h

theorem tpmFinding_met {snapshot : SystemSnapshot} :
    (tpmFinding snapshot).met = .met ↔ snapshot.tpm.present = true := by
  unfold tpmFinding
  cases snapshot.tpm.present with
  | true => exact iff_of_true rfl rfl
  | false => exact iff_of_false (fun h => by cases h) fun h => by cases h

theorem gameProcessFinding_met {snapshot : SystemSnapshot} :
    (gameProcessFinding snapshot).met = .met ↔ snapshot.gameProcess.isSome = true := by
  unfold gameProcessFinding
  cases snapshot.gameProcess with
  | none => exact iff_of_false (fun h => by cases h) fun h => by cases h
  | some evidence => exact iff_of_true rfl rfl

/-! ## the decision -/

/-- every requirement that blocks at the tier is met -/
def BlockingMet (input : PolicyInput) : Prop :=
  ∀ id, policyTable id input.tier = .block → (collectFindings input id).met = .met

theorem blocks_eq_false {enforcement : Enforcement} {m : Met} :
    blocks enforcement m = false ↔ (enforcement = .block → m = .met) := by
  unfold blocks
  by_cases he : enforcement = .block
  · simp [he]
  · simp [he]

/-- the loop has found no reason if no requirement of it blocks -/
theorem foldl_report_nil (input : PolicyInput) (ids : List RequirementId)
    (acc : List RequirementResult × List DenyReason) :
    (ids.foldl (report input) acc).2 = [] ↔ acc.2 = [] ∧
      ∀ id ∈ ids, blocks (policyTable id input.tier) (collectFindings input id).met = false := by
  induction ids generalizing acc with
  | nil => simp
  | cons id ids ih =>
    have hturn : (report input acc id).2 = [] ↔ acc.2 = [] ∧
        blocks (policyTable id input.tier) (collectFindings input id).met = false := by
      show (if blocks _ _ = true then addReason acc.2 (reasonFor id) else acc.2) = [] ↔ _
      cases blocks (policyTable id input.tier) (collectFindings input id).met with
      | true =>
        rw [if_pos rfl]
        exact iff_of_false (addReason_ne_nil _ _) fun h => by cases h.2
      | false =>
        rw [if_neg Bool.false_ne_true]
        exact (and_iff_left rfl).symm
    rw [List.foldl_cons, ih, hturn, List.forall_mem_cons, and_assoc]

theorem mem_reportOrder (id : RequirementId) : id ∈ reportOrder := by
  cases id <;> decide

theorem allow_iff (input : PolicyInput) :
    (evaluatePolicy input).decision = .allow ↔ BlockingMet input ∧ input.buildAccepted = true := by
  have hloop : (reportOrder.foldl (report input) ([], [])).2 = [] ↔ BlockingMet input := by
    rw [foldl_report_nil, and_iff_right rfl]
    constructor
    · intro h id hblock
      exact blocks_eq_false.mp (h id (mem_reportOrder id)) hblock
    · intro h id _
      exact blocks_eq_false.mpr (h id)
  rw [evaluatePolicy_allow_iff, ← hloop]
  show (if input.buildAccepted = true then _ else _) = [] ↔ _
  cases input.buildAccepted with
  | true =>
    rw [if_pos rfl]
    exact (and_iff_left rfl).symm
  | false =>
    rw [if_neg Bool.false_ne_true]
    exact iff_of_false (addReason_ne_nil _ _) fun h => by cases h.2

/-! ## tiers -/

/-- the stricter tiers block what the others do -/
theorem blocks_mono (id : RequirementId) :
    (policyTable id .relaxed = .block → policyTable id .standard = .block) ∧
      (policyTable id .standard = .block → policyTable id .strict = .block) := by
  cases id <;> decide

theorem BlockingMet.mono {input : PolicyInput} {tier tier' : PolicyTier}
    (htier : ∀ id, policyTable id tier' = .block → policyTable id tier = .block)
    (h : BlockingMet { input with tier := tier }) : BlockingMet { input with tier := tier' } :=
  fun id hblock => h id (htier id hblock)

/-! ## evidence -/

/-- the state of a feature is given, or it is unknown -/
def Hides (full given : FeatureState) : Prop := given = full ∨ given = .unknown

/-- less evidence about the same machine; what the probes say does not count -/
structure Withholds (full given : SystemSnapshot) : Prop where
  secureBoot : Hides full.features.secureBoot given.features.secureBoot
  hvci : Hides full.features.hvci given.features.hvci
  testSigning : Hides full.features.testSigning given.features.testSigning
  kernelDebugging : Hides full.features.kernelDebugging given.features.kernelDebugging
  driverBlocklist : Hides full.features.driverBlocklist given.features.driverBlocklist
  iommu : Hides full.features.iommu given.features.iommu
  virtualizationBasedSecurity : Hides full.features.virtualizationBasedSecurity
    given.features.virtualizationBasedSecurity
  tpm : given.tpm = full.tpm ∨ given.tpm = { full.tpm with present := false }
  gameProcess : given.gameProcess = full.gameProcess ∨ given.gameProcess = none

/-- a state that is known is the one of the machine -/
theorem Hides.known {full given wanted : FeatureState} (h : Hides full given) (hgiven : given = wanted)
    (hwanted : wanted ≠ .unknown) : full = wanted := by
  rcases h with h | h
  · rw [← h, hgiven]
  · exact absurd (hgiven.symm.trans h) hwanted

theorem met_of_withholds {input : PolicyInput} {given : SystemSnapshot}
    (h : Withholds input.snapshot given) (id : RequirementId)
    (hmet : (collectFindings { input with snapshot := given } id).met = .met) :
    (collectFindings input id).met = .met := by
  have hexpect : ∀ {full state wanted : FeatureState}, Hides full state → wanted ≠ .unknown →
      (expect state wanted).met = .met → (expect full wanted).met = .met := by
    intro full state wanted hides hwanted hstate
    exact expect_met.mpr (hides.known (expect_met.mp hstate) hwanted)
  cases id with
  | companion_attested => rfl
  | test_signing_disabled => exact hexpect h.testSigning (by decide) hmet
  | kernel_debugging_disabled => exact hexpect h.kernelDebugging (by decide) hmet
  | secure_boot_enabled => exact hexpect h.secureBoot (by decide) hmet
  | driver_blocklist_enabled => exact hexpect h.driverBlocklist (by decide) hmet
  | iommu_enabled => exact hexpect h.iommu (by decide) hmet
  | hvci_enabled =>
    exact hvciFinding_met.mpr (h.hvci.known (hvciFinding_met.mp hmet) (by decide))
  | tpm_attestation_valid =>
    refine tpmFinding_met.mpr ?_
    have hpresent : given.tpm.present = true := tpmFinding_met.mp hmet
    rcases h.tpm with htpm | htpm
    · rwa [← htpm]
    · rw [htpm] at hpresent
      cases hpresent
  | vulnerable_drivers_absent => cases hmet
  | game_process_present =>
    refine gameProcessFinding_met.mpr ?_
    have hsome : given.gameProcess.isSome = true := gameProcessFinding_met.mp hmet
    rcases h.gameProcess with hgame | hgame
    · rwa [← hgame]
    · rw [hgame] at hsome
      cases hsome
  | network_origin_matches => exact hmet

/-- **The policy is fail-closed and monotone.** -/
theorem policy_fail_closed (input : PolicyInput) :
    ((evaluatePolicy input).requirements.map RequirementResult.requirement = reportOrder ∧
      reportOrder.Nodup ∧ ∀ id, id ∈ reportOrder) ∧
    ((evaluatePolicy input).decision = .allow ↔
      (∀ id, policyTable id input.tier = .block → (collectFindings input id).met = .met) ∧
        input.buildAccepted = true) ∧
    ((evaluatePolicy input).reasons = [] ↔ (evaluatePolicy input).decision = .allow) ∧
    ((evaluatePolicy { input with tier := .strict }).decision = .allow →
      (evaluatePolicy { input with tier := .standard }).decision = .allow) ∧
    ((evaluatePolicy { input with tier := .standard }).decision = .allow →
      (evaluatePolicy { input with tier := .relaxed }).decision = .allow) ∧
    ∀ given, Withholds input.snapshot given →
      (evaluatePolicy { input with snapshot := given }).decision = .allow →
      (evaluatePolicy input).decision = .allow := by
  refine ⟨⟨?_, by decide, mem_reportOrder⟩, allow_iff input, (evaluatePolicy_allow_iff input).symm,
    ?_, ?_, ?_⟩
  · rw [evaluatePolicy_requirements, List.map_map]
    exact List.map_id _
  · rw [allow_iff, allow_iff]
    exact fun h => ⟨h.1.mono fun id => (blocks_mono id).2, h.2⟩
  · rw [allow_iff, allow_iff]
    exact fun h => ⟨h.1.mono fun id => (blocks_mono id).1, h.2⟩
  · intro given hless
    rw [allow_iff, allow_iff]
    exact fun h => ⟨fun id hblock => met_of_withholds hless id (h.1 id hblock), h.2⟩

/-- a machine that is as it should be -/
def soundMachine : SystemSnapshot where
  schemaVersion := 1
  collectedAt := "2026-08-04T14:09:41.412Z"
  companionVersion := "1.0.0"
  companionBuildHash := ""
  osBuild := "26100"
  features := ⟨.enabled, .enabled, .disabled, .disabled, .enabled, .enabled, .enabled⟩
  tpm := ⟨true, none, none, none⟩
  gameProcess := some ⟨4711, 1785852000000, "FiveM.exe", true⟩
  probeErrors := []

/-- it is allowed at the standard tier without the state of its IOMMU, and so with it -/
theorem policy_fail_closed_iommu :
    (evaluatePolicy ⟨.standard, soundMachine, "203.0.113.42", "::ffff:203.0.113.42", true⟩).decision =
      .allow := by
  have hless : Withholds soundMachine
      { soundMachine with features := { soundMachine.features with iommu := .unknown } } :=
    ⟨.inl rfl, .inl rfl, .inl rfl, .inl rfl, .inl rfl, .inr rfl, .inl rfl, .inl rfl, .inl rfl⟩
  have hall := policy_fail_closed
    ⟨.standard, soundMachine, "203.0.113.42", "::ffff:203.0.113.42", true⟩
  exact hall.2.2.2.2.2 _ hless (by decide +kernel)

end Backend
