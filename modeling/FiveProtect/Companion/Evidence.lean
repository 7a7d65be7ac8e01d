import FiveProtect.Companion.Probes

/-!
# Companion: what the notes account for

`run_probes` of `apps/companion/native/src/probes.cpp` reports a probe without an answer as unknown, and is
to leave a note of it, since the backend denies where something is unknown.

* `notes_mem`       every note, and when it is left;
* `blocked_iff`     the driver that blocks memory integrity;
* `named_iff`       the probes whose silence is noted: not those of test signing, of the kernel debugger
                    and of virtualization-based security;
* `accounted_iff`   when the evidence is accounted for.
-/

namespace Companion
open Protocol

/-! ## features -/

/-- the members of `SecurityFeatures` -/
inductive Feature where
  | secureBoot
  | hvci
  | testSigning
  | kernelDebugging
  | driverBlocklist
  | iommu
  | virtualizationBasedSecurity

/-- what is reported of a feature -/
def SecurityFeatures.state (features : SecurityFeatures) : Feature → FeatureState
  | .secureBoot => features.secureBoot
  | .hvci => features.hvci
  | .testSigning => features.testSigning
  | .kernelDebugging => features.kernelDebugging
  | .driverBlocklist => features.driverBlocklist
  | .iommu => features.iommu
  | .virtualizationBasedSecurity => features.virtualizationBasedSecurity

/-- the answer of a source that becomes a feature -/
def SystemSource.answer (source : SystemSource) : Feature → Option Bool
  | .secureBoot => source.secureBootEnabled
  | .hvci => source.hvciEnabled
  | .testSigning => source.testSigningEnabled
  | .kernelDebugging => source.kernelDebuggerPresent
  | .driverBlocklist => source.driverBlocklistEnabled
  | .iommu => source.iommuEnabled
  | .virtualizationBasedSecurity => source.vbsEnabled

/-- the note of `run_probes` that a probe had no answer, if it has one -/
def Feature.note : Feature → Option String
  | .secureBoot => some "secure_boot_probe_unavailable"
  | .hvci => some "hvci_probe_unavailable"
  | .driverBlocklist => some "driver_blocklist_registry_missing"
  | .iommu => some "iommu_probe_unavailable"
  | .testSigning => none
  | .kernelDebugging => none
  | .virtualizationBasedSecurity => none

theorem runProbes_state (source : SystemSource) (f : Feature) :
    SecurityFeatures.state (runProbes source).features f = stateFrom (source.answer f) := by
  unfold runProbes
  cases source.findProcesses fivemProcessNames <;> cases f <;> rfl

/-! ## notes -/

theorem noteIf_mem (state wanted : FeatureState) (notes : List String) (note : String) :
    note ∈ noteIf state wanted notes ↔ state = wanted ∧ note ∈ notes := by
  unfold noteIf
  split
  · rename_i h
    exact (and_iff_right h).symm
  · rename_i h
    exact iff_of_false List.not_mem_nil fun hboth => h hboth.1

theorem blockedByNote_mem (source : SystemSource) (note : String) : note ∈ blockedByNote source ↔
    ∃ driver, source.hvciBlockingDriver = some driver ∧ driver ≠ "" ∧
      note = "hvci_blocked_by:" ++ driver := by
  unfold blockedByNote
  cases source.hvciBlockingDriver with
  | none => simp
  | some driver =>
    by_cases h : driver = ""
    · simp [h]
    · simp [h, String.isEmpty_iff]

/-- **The notes.** -/
theorem notes_mem (source : SystemSource) (note : String) : note ∈ (runProbes source).notes ↔
    (source.hvciEnabled = some false ∧ note ∈ blockedByNote source) ∨
    (∃ f, source.answer f = none ∧ f.note = some note) ∨
    (source.findProcesses fivemProcessNames = [] ∧ note = "game_process_not_found") := by
  have hgaps : (∃ f, source.answer f = none ∧ f.note = some note) ↔
      (source.hvciEnabled = none ∧ note = "hvci_probe_unavailable") ∨
      (source.driverBlocklistEnabled = none ∧ note = "driver_blocklist_registry_missing") ∨
      (source.iommuEnabled = none ∧ note = "iommu_probe_unavailable") ∨
      (source.secureBootEnabled = none ∧ note = "secure_boot_probe_unavailable") := by
    constructor
    · rintro ⟨f, hanswer, hnote⟩
      cases f <;> cases hnote
      · exact .inr (.inr (.inr ⟨hanswer, rfl⟩))
      · exact .inl ⟨hanswer, rfl⟩
      · exact .inr (.inl ⟨hanswer, rfl⟩)
      · exact .inr (.inr (.inl ⟨hanswer, rfl⟩))
    · rintro (⟨h, rfl⟩ | ⟨h, rfl⟩ | ⟨h, rfl⟩ | ⟨h, rfl⟩)
      · exact ⟨.hvci, h, rfl⟩
      · exact ⟨.driverBlocklist, h, rfl⟩
      · exact ⟨.iommu, h, rfl⟩
      · exact ⟨.secureBoot, h, rfl⟩
  rw [hgaps]
  unfold runProbes
  cases source.findProcesses fivemProcessNames <;>
    simp [noteIf_mem, stateFrom_unknown, stateFrom_disabled, or_assoc]

/-- what does not start like the note on a driver is no such note -/
theorem ne_blockedBy {note : String}
    (h : note.toList.take 16 ≠ "hvci_blocked_by:".toList) (driver : String) :
    note ≠ "hvci_blocked_by:" ++ driver := by
  rintro rfl
  apply h
  rw [String.toList_append]
  exact List.take_left' rfl

theorem gap_ne_blockedBy (f : Feature) (driver : String) :
    f.note ≠ some ("hvci_blocked_by:" ++ driver) := by
  cases f with
  | secureBoot => exact fun h => ne_blockedBy (by decide) driver (Option.some.inj h)
  | hvci => exact fun h => ne_blockedBy (by decide) driver (Option.some.inj h)
  | driverBlocklist => exact fun h => ne_blockedBy (by decide) driver (Option.some.inj h)
  | iommu => exact fun h => ne_blockedBy (by decide) driver (Option.some.inj h)
  | testSigning => exact nofun
  | kernelDebugging => exact nofun
  | virtualizationBasedSecurity => exact nofun

theorem gap_ne_notFound (f : Feature) : f.note ≠ some "game_process_not_found" := by
  cases f <;> decide

theorem gap_injective {f g : Feature} {note : String} (hf : f.note = some note)
    (hg : g.note = some note) : f = g := by
  cases f <;> cases hf <;> cases g <;> first | rfl | exact absurd hg (by decide)

/-- **The driver.** It is named exactly if memory integrity is off and the source names it. -/
theorem blocked_iff (source : SystemSource) (driver : String) :
    "hvci_blocked_by:" ++ driver ∈ (runProbes source).notes ↔
      (runProbes source).features.hvci = .disabled ∧ source.hvciBlockingDriver = some driver ∧
        driver ≠ "" := by
  have hstate : (runProbes source).features.hvci = stateFrom source.hvciEnabled :=
    runProbes_state source .hvci
  rw [hstate, stateFrom_disabled, notes_mem, blockedByNote_mem]
  constructor
  · rintro (⟨hdisabled, d, hdriver, hne, hnote⟩ | ⟨f, _, hnote⟩ | ⟨_, hnote⟩)
    · rw [String.append_right_inj] at hnote
      rw [hnote]
      exact ⟨hdisabled, hdriver, hne⟩
    · exact absurd hnote (gap_ne_blockedBy f driver)
    · exact absurd hnote.symm (ne_blockedBy (by decide) driver)
  · rintro ⟨hdisabled, hdriver, hne⟩
    exact .inl ⟨hdisabled, driver, hdriver, hne, rfl⟩

theorem notFound_iff (source : SystemSource) : "game_process_not_found" ∈ (runProbes source).notes ↔
    source.findProcesses fivemProcessNames = [] := by
  rw [notes_mem, blockedByNote_mem]
  constructor
  · rintro (⟨_, d, _, _, hnote⟩ | ⟨f, _, hnote⟩ | ⟨hnone, _⟩)
    · exact absurd hnote (ne_blockedBy (by decide) d)
    · exact absurd hnote (gap_ne_notFound f)
    · exact hnone
  · exact fun hnone => .inr (.inr ⟨hnone, rfl⟩)

/-! ## gaps -/

/-- a note names a probe as unavailable if it is only ever left where the probe had no answer -/
def Feature.Names (f : Feature) (note : String) : Prop :=
  ∀ source, note ∈ (runProbes source).notes →
    SecurityFeatures.state (runProbes source).features f = .unknown

theorem names_note {f : Feature} {note : String} (h : f.note = some note) : f.Names note := by
  intro source hmem
  rw [runProbes_state, stateFrom_unknown]
  rcases (notes_mem source note).mp hmem with ⟨_, hblocked⟩ | ⟨g, hanswer, hg⟩ | ⟨_, hnote⟩
  · obtain ⟨d, _, _, hnote⟩ := (blockedByNote_mem source note).mp hblocked
    exact absurd (hnote ▸ h) (gap_ne_blockedBy f d)
  · rw [gap_injective h hg]
    exact hanswer
  · exact absurd (hnote ▸ h) (gap_ne_notFound f)

/-- a source on which the three probes that nothing is noted of have an answer -/
def SystemSource.answered (source : SystemSource) : SystemSource :=
  { source with
    testSigningEnabled := some true
    kernelDebuggerPresent := some true
    vbsEnabled := some true }

/-- it leaves the same notes -/
theorem notes_answered (source : SystemSource) :
    (runProbes source.answered).notes = (runProbes source).notes := by
  unfold runProbes SystemSource.answered
  dsimp only
  cases source.findProcesses fivemProcessNames <;> rfl

/-- **The gaps.** The silence of a probe is noted exactly if it has a note. -/
theorem named_iff {source : SystemSource} {f : Feature} (h : source.answer f = none) :
    (∃ note ∈ (runProbes source).notes, f.Names note) ↔ f.note.isSome = true := by
  constructor
  · rintro ⟨note, hmem, hnames⟩
    -- the same note is left where the probes without a note do have an answer
    have hunknown := hnames source.answered (by rwa [notes_answered])
    rw [runProbes_state, stateFrom_unknown] at hunknown
    cases f with
    | secureBoot => rfl
    | hvci => rfl
    | driverBlocklist => rfl
    | iommu => rfl
    | testSigning => cases hunknown
    | kernelDebugging => cases hunknown
    | virtualizationBasedSecurity => cases hunknown
  · intro hsome
    obtain ⟨note, hnote⟩ := Option.isSome_iff_exists.mp hsome
    exact ⟨note, (notes_mem source note).mpr (.inr (.inl ⟨f, h, hnote⟩)), names_note hnote⟩

/-! ## the evidence -/

/-- the game process that is reported, the driver that is named, and every gap -/
structure Accounted (source : SystemSource) : Prop where
  reported : (runProbes source).gameProcess.isSome = true ↔
    source.findProcesses fivemProcessNames ≠ []
  oldest : ∀ g, (runProbes source).gameProcess = some g →
    ∃ p ∈ source.findProcesses fivemProcessNames, g = evidenceOf p ∧
      ∀ q ∈ source.findProcesses fivemProcessNames, p.startedAtUnixMs ≤ q.startedAtUnixMs
  notFound : "game_process_not_found" ∈ (runProbes source).notes ↔
    source.findProcesses fivemProcessNames = []
  blockedBy : ∀ driver, "hvci_blocked_by:" ++ driver ∈ (runProbes source).notes ↔
    (runProbes source).features.hvci = .disabled ∧ source.hvciBlockingDriver = some driver ∧
      driver ≠ ""
  gaps : ∀ f, SecurityFeatures.state (runProbes source).features f = .unknown →
    ∃ note ∈ (runProbes source).notes, f.Names note

/-- the process is reported as it should be, whatever the probes answer -/
theorem gameProcess_spec (source : SystemSource) :
    ((runProbes source).gameProcess.isSome = true ↔ source.findProcesses fivemProcessNames ≠ []) ∧
    ∀ g, (runProbes source).gameProcess = some g →
      ∃ p ∈ source.findProcesses fivemProcessNames, g = evidenceOf p ∧
        ∀ q ∈ source.findProcesses fivemProcessNames, p.startedAtUnixMs ≤ q.startedAtUnixMs := by
  unfold runProbes
  cases source.findProcesses fivemProcessNames with
  | nil => exact ⟨iff_of_false Bool.false_ne_true fun h => h rfl, fun g hg => by cases hg⟩
  | cons front rest =>
    refine ⟨iff_of_true rfl (List.cons_ne_nil front rest), ?_⟩
    intro g hg
    have holdest := oldest_spec front rest
    exact ⟨_, holdest.mem, (Option.some.inj hg).symm, holdest.le⟩

/-- **When the evidence is accounted for.** -/
theorem accounted_iff (source : SystemSource) : Accounted source ↔
    source.testSigningEnabled.isSome = true ∧ source.kernelDebuggerPresent.isSome = true ∧
      source.vbsEnabled.isSome = true := by
  have hgap : ∀ f : Feature, f.note = none →
      ((SecurityFeatures.state (runProbes source).features f = .unknown →
        ∃ note ∈ (runProbes source).notes, f.Names note) ↔ (source.answer f).isSome = true) := by
    intro f hf
    rw [runProbes_state, stateFrom_unknown]
    cases hanswer : source.answer f with
    | none => simp [named_iff hanswer, hf]
    | some b => simp
  constructor
  · intro h
    exact ⟨(hgap .testSigning rfl).mp (h.gaps _), (hgap .kernelDebugging rfl).mp (h.gaps _),
      (hgap .virtualizationBasedSecurity rfl).mp (h.gaps _)⟩
  · rintro ⟨htest, hdebugger, hvbs⟩
    obtain ⟨hreported, holdest⟩ := gameProcess_spec source
    refine ⟨hreported, holdest, notFound_iff source, blocked_iff source, ?_⟩
    intro f
    by_cases hnote : f.note.isSome = true
    · intro hunknown
      rw [runProbes_state, stateFrom_unknown] at hunknown
      exact (named_iff hunknown).mpr hnote
    · apply (hgap f (Option.not_isSome_iff_eq_none.mp hnote)).mpr
      cases f with
      | testSigning => exact htest
      | kernelDebugging => exact hdebugger
      | virtualizationBasedSecurity => exact hvbs
      | secureBoot => exact absurd rfl hnote
      | hvci => exact absurd rfl hnote
      | driverBlocklist => exact absurd rfl hnote
      | iommu => exact absurd rfl hnote

/-- a healthy machine on which the system does not say whether a debugger is attached -/
def debuggerUnknown : SystemSource :=
  { sourceBlockedBy "" with hvciEnabled := some true, kernelDebuggerPresent := none }

theorem debugger_unexplained : (runProbes debuggerUnknown).features.kernelDebugging = .unknown ∧
    (runProbes debuggerUnknown).notes = [] ∧ ¬Accounted debuggerUnknown := by
  refine ⟨rfl, rfl, ?_⟩
  intro h
  obtain ⟨note, hmem, _⟩ := h.gaps .kernelDebugging rfl
  exact List.not_mem_nil hmem

end Companion
