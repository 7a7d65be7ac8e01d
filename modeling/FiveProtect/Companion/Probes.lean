import FiveProtect.Lib.LuaPattern
import FiveProtect.Protocol.Messages

/-!
# Companion: the scan engine's probes

`apps/companion/native/src/probes.cpp`: what `run_probes` reads from a `SystemSource`, and the snapshot
`build_snapshot` makes of it.  The texts of a source are Unicode and reach the engine as UTF-8;
process names are compared byte by byte.

* `oldest_spec`            the process that is reported;
* `notes_short`            the notes that fit the schema;
* `snapshot_readable_iff`  when the backend can read what was measured.
-/

namespace Companion
open Protocol
open LuaPattern (byteOf)

/-- one process the engine found -/
structure ProcessInfo where
  pid : Int
  startedAtUnixMs : Int
  imageName : String
  mainWindowPresent : Bool

/-- where the probes read from -/
structure SystemSource where
  secureBootEnabled : Option Bool
  testSigningEnabled : Option Bool
  kernelDebuggerPresent : Option Bool
  hvciEnabled : Option Bool
  vbsEnabled : Option Bool
  driverBlocklistEnabled : Option Bool
  iommuEnabled : Option Bool
  hvciBlockingDriver : Option String
  tpmInfo : TpmInfo
  findProcesses : List String → List ProcessInfo
  osBuild : String

structure ProbeResult where
  features : SecurityFeatures
  tpm : TpmInfo
  gameProcess : Option GameProcessEvidence
  notes : List String

/-! ## process names -/

/-- `std::tolower` of the C locale -/
def toLower (b : UInt8) : UInt8 := if 65 ≤ b && b ≤ 90 then b + 32 else b

def equalsIgnoreCase (left right : Bytes) : Bool :=
  left.length == right.length && (left.zip right).all fun p => toLower p.1 == toLower p.2

def fivemProcessNames : List String := ["FiveM_*GTAProcess.exe", "FiveM.exe", "CitizenFX.exe"]

/-- a pattern is only ever a start, a star and an end, and the two do not overlap -/
def matchesProcessName (image pattern : Bytes) : Bool :=
  match pattern.findIdx? (· == byteOf '*') with
  | none => equalsIgnoreCase image pattern
  | some star =>
    let start := pattern.take star
    let suffix := pattern.drop (star + 1)
    if image.length < start.length + suffix.length then false
    else equalsIgnoreCase (image.take start.length) start &&
      equalsIgnoreCase (image.drop (image.length - suffix.length)) suffix

example : matchesProcessName "FiveM_b3258_GTAProcess.exe" "FiveM_*GTAProcess.exe" = true := by decide
example : matchesProcessName "FiveM_.exe" "FiveM_*GTAProcess.exe" = false := by decide

/-! ## run_probes -/

def stateFrom : Option Bool → FeatureState
  | none => .unknown
  | some true => .enabled
  | some false => .disabled

theorem stateFrom_unknown (answer : Option Bool) : stateFrom answer = .unknown ↔ answer = none := by
  cases answer with
  | none => simp [stateFrom]
  | some b => cases b <;> simp [stateFrom]

theorem stateFrom_disabled (answer : Option Bool) :
    stateFrom answer = .disabled ↔ answer = some false := by
  cases answer with
  | none => simp [stateFrom]
  | some b => cases b <;> simp [stateFrom]

/-- the note that names the driver blocking memory integrity -/
def blockedByNote (source : SystemSource) : List String :=
  match source.hvciBlockingDriver with
  | some driver => if driver.isEmpty then [] else ["hvci_blocked_by:" ++ driver]
  | none => []

/-- a note that is left if `state` is as given -/
def noteIf (state wanted : FeatureState) (notes : List String) : List String :=
  if state = wanted then notes else []

/-- the first of the processes that started earliest -/
def oldest (front : ProcessInfo) (processes : List ProcessInfo) : ProcessInfo :=
  processes.foldl (fun o candidate =>
    if candidate.startedAtUnixMs < o.startedAtUnixMs then candidate else o) front

def evidenceOf (p : ProcessInfo) : GameProcessEvidence :=
  ⟨p.pid, p.startedAtUnixMs, p.imageName, p.mainWindowPresent⟩

def runProbes (source : SystemSource) : ProbeResult :=
  let features : SecurityFeatures := {
    secureBoot := stateFrom source.secureBootEnabled
    testSigning := stateFrom source.testSigningEnabled
    kernelDebugging := stateFrom source.kernelDebuggerPresent
    hvci := stateFrom source.hvciEnabled
    virtualizationBasedSecurity := stateFrom source.vbsEnabled
    driverBlocklist := stateFrom source.driverBlocklistEnabled
    iommu := stateFrom source.iommuEnabled }
  let notes := noteIf features.hvci .disabled (blockedByNote source) ++
    noteIf features.hvci .unknown ["hvci_probe_unavailable"] ++
    noteIf features.driverBlocklist .unknown ["driver_blocklist_registry_missing"] ++
    noteIf features.iommu .unknown ["iommu_probe_unavailable"] ++
    noteIf features.secureBoot .unknown ["secure_boot_probe_unavailable"]
  match source.findProcesses fivemProcessNames with
  | [] => ⟨features, source.tpmInfo, none, notes ++ ["game_process_not_found"]⟩
  | front :: rest =>
    ⟨features, source.tpmInfo, some (evidenceOf (oldest front (front :: rest))), notes⟩

def buildSnapshot (result : ProbeResult)
    (companionVersion companionBuildHash osBuild collectedAtIso : String) : SystemSnapshot where
  schemaVersion := protocolVersion
  collectedAt := collectedAtIso
  companionVersion := companionVersion
  companionBuildHash := companionBuildHash
  osBuild := osBuild
  features := result.features
  tpm := result.tpm
  gameProcess := result.gameProcess
  probeErrors := result.notes

/-! ## the oldest process -/

/-- among processes in order, one that started before those before it and not after the others -/
def IsOldest (processes : List ProcessInfo) (p : ProcessInfo) : Prop :=
  ∃ before after, processes = before ++ p :: after ∧
    (∀ q ∈ before, p.startedAtUnixMs < q.startedAtUnixMs) ∧
    ∀ q ∈ after, p.startedAtUnixMs ≤ q.startedAtUnixMs

theorem foldl_oldest (o : ProcessInfo) (l : List ProcessInfo) :
    (oldest o l = o ∧ ∀ q ∈ l, o.startedAtUnixMs ≤ q.startedAtUnixMs) ∨
      ((oldest o l).startedAtUnixMs < o.startedAtUnixMs ∧ IsOldest l (oldest o l)) := by
  induction l generalizing o with
  | nil => exact Or.inl ⟨rfl, fun q hq => absurd hq List.not_mem_nil⟩
  | cons x l ih =>
    by_cases hx : x.startedAtUnixMs < o.startedAtUnixMs
    · have hstep : oldest o (x :: l) = oldest x l := by
        rw [oldest, List.foldl_cons, if_pos hx]
        rfl
      rw [hstep]
      refine Or.inr ?_
      rcases ih x with ⟨hsame, hall⟩ | ⟨hlt, before, after, hl, hbefore, hafter⟩
      · rw [hsame]
        exact ⟨hx, [], l, rfl, fun q hq => absurd hq List.not_mem_nil, hall⟩
      · refine ⟨hlt.trans hx, x :: before, after, congrArg (x :: ·) hl, ?_, hafter⟩
        exact List.forall_mem_cons.mpr ⟨hlt, hbefore⟩
    · have hstep : oldest o (x :: l) = oldest o l := by
        rw [oldest, List.foldl_cons, if_neg hx]
        rfl
      rw [hstep]
      have hxo : o.startedAtUnixMs ≤ x.startedAtUnixMs := not_lt.mp hx
      rcases ih o with ⟨hsame, hall⟩ | ⟨hlt, before, after, hl, hbefore, hafter⟩
      · exact Or.inl ⟨hsame, List.forall_mem_cons.mpr ⟨hxo, hall⟩⟩
      · refine Or.inr ⟨hlt, x :: before, after, congrArg (x :: ·) hl, ?_, hafter⟩
        exact List.forall_mem_cons.mpr ⟨hlt.trans_le hxo, hbefore⟩

/-- the loop finds the oldest process -/
theorem oldest_spec (front : ProcessInfo) (rest : List ProcessInfo) :
    IsOldest (front :: rest) (oldest front (front :: rest)) := by
  rcases foldl_oldest front (front :: rest) with ⟨hsame, hall⟩ | ⟨_, h⟩
  · rw [hsame]
    exact ⟨[], rest, rfl, fun q hq => absurd hq List.not_mem_nil,
      fun q hq => hall q (List.mem_cons_of_mem front hq)⟩
  · exact h

theorem IsOldest.mem {l : List ProcessInfo} {p : ProcessInfo} (h : IsOldest l p) : p ∈ l := by
  obtain ⟨before, after, rfl, _⟩ := h
  exact List.mem_append_right before List.mem_cons_self

theorem IsOldest.le {l : List ProcessInfo} {p : ProcessInfo} (h : IsOldest l p) :
    ∀ q ∈ l, p.startedAtUnixMs ≤ q.startedAtUnixMs := by
  obtain ⟨before, after, rfl, hbefore, hafter⟩ := h
  intro q hq
  rcases List.mem_append.mp hq with hq | hq
  · exact le_of_lt (hbefore q hq)
  · rcases List.mem_cons.mp hq with rfl | hq
    · exact le_refl _
    · exact hafter q hq

theorem IsOldest.unique {l : List ProcessInfo} {p q : ProcessInfo} (hp : IsOldest l p)
    (hq : IsOldest l q) : p = q := by
  induction l with
  | nil =>
    obtain ⟨before, after, hl, _⟩ := hp
    exact absurd hl (by simp)
  | cons x l ih =>
    obtain ⟨before, after, hl, hbefore, hafter⟩ := hp
    obtain ⟨before', after', hl', hbefore', hafter'⟩ := hq
    cases before with
    | nil =>
      cases hl
      cases before' with
      | nil =>
        cases hl'
        rfl
      | cons y before' =>
        cases hl'
        have hlt := hbefore' p List.mem_cons_self
        have hle := hafter q (List.mem_append_right _ List.mem_cons_self)
        exact absurd hle (not_le.mpr hlt)
    | cons y before =>
      cases hl
      cases before' with
      | nil =>
        cases hl'
        have hlt := hbefore q List.mem_cons_self
        have hle := hafter' p (List.mem_append_right _ List.mem_cons_self)
        exact absurd hle (not_le.mpr hlt)
      | cons z before' =>
        obtain ⟨rfl, htail⟩ := List.cons_eq_cons.mp hl'
        refine ih ⟨before, after, rfl, fun q hq => hbefore q (List.mem_cons_of_mem _ hq), hafter⟩
          ⟨before', after', htail, fun q hq => hbefore' q (List.mem_cons_of_mem _ hq), hafter'⟩

/-! ## notes -/

/-- the notes that are the same on every machine -/
def fixedNotes : List String := ["hvci_probe_unavailable", "driver_blocklist_registry_missing",
  "iommu_probe_unavailable", "secure_boot_probe_unavailable", "game_process_not_found"]

theorem noteIf_sublist (state wanted : FeatureState) (notes : List String) :
    (noteIf state wanted notes).Sublist notes := by
  unfold noteIf
  split
  · exact List.Sublist.refl notes
  · exact List.nil_sublist notes

theorem runProbes_notes (source : SystemSource) : ∃ fixed, (runProbes source).notes =
    noteIf (stateFrom source.hvciEnabled) .disabled (blockedByNote source) ++ fixed ∧
      fixed.Sublist fixedNotes := by
  have hfixed : ∀ {tail : List String}, tail.Sublist ["game_process_not_found"] →
      (noteIf (stateFrom source.hvciEnabled) .unknown ["hvci_probe_unavailable"] ++
        (noteIf (stateFrom source.driverBlocklistEnabled) .unknown
          ["driver_blocklist_registry_missing"] ++
        (noteIf (stateFrom source.iommuEnabled) .unknown ["iommu_probe_unavailable"] ++
        (noteIf (stateFrom source.secureBootEnabled) .unknown ["secure_boot_probe_unavailable"] ++
          tail)))).Sublist fixedNotes := fun htail =>
    (noteIf_sublist _ _ _).append ((noteIf_sublist _ _ _).append
      ((noteIf_sublist _ _ _).append ((noteIf_sublist _ _ _).append htail)))
  unfold runProbes
  cases source.findProcesses fivemProcessNames with
  | nil =>
    refine ⟨_, ?_, hfixed (List.Sublist.refl _)⟩
    simp only [List.append_assoc]
  | cons front rest =>
    refine ⟨_, ?_, hfixed (List.nil_sublist _)⟩
    simp only [List.append_assoc, List.append_nil]

theorem fixedNotes_short : ∀ e ∈ fixedNotes, Text.utf16Length e ≤ 200 := by decide

theorem blockedByNote_length (source : SystemSource) : (blockedByNote source).length ≤ 1 := by
  unfold blockedByNote
  split
  · split
    · exact Nat.zero_le 1
    · exact Nat.le_refl 1
  · exact Nat.zero_le 1

theorem runProbes_notes_length (source : SystemSource) : (runProbes source).notes.length ≤ 32 := by
  obtain ⟨fixed, hnotes, hfixed⟩ := runProbes_notes source
  have hblocked := (noteIf_sublist (stateFrom source.hvciEnabled) .disabled
    (blockedByNote source)).length_le
  have hone := blockedByNote_length source
  have hfive : fixed.length ≤ 5 := hfixed.length_le
  rw [hnotes, List.length_append]
  omega

theorem blockedByNote_short (source : SystemSource) :
    (∀ e ∈ blockedByNote source, Text.utf16Length e ≤ 200) ↔
      ∀ driver, source.hvciBlockingDriver = some driver → Text.utf16Length driver ≤ 184 := by
  have hhead : Text.utf16Length "hvci_blocked_by:" = 16 := by decide
  unfold blockedByNote
  cases source.hvciBlockingDriver with
  | none => simp
  | some driver =>
    by_cases hempty : driver.isEmpty = true
    · have hnil : driver = "" := String.isEmpty_iff.mp hempty
      have hzero : Text.utf16Length "" = 0 := by decide
      simp [hnil, hzero]
    · simp only [hempty, Option.some.injEq, forall_eq', List.forall_mem_singleton, Bool.false_eq_true,
        if_false, Text.utf16Length_append, hhead]
      omega

/-- the only note of any length names a driver -/
theorem notes_short (source : SystemSource) :
    (∀ e ∈ (runProbes source).notes, Text.utf16Length e ≤ 200) ↔
      (source.hvciEnabled = some false → ∀ driver, source.hvciBlockingDriver = some driver →
        Text.utf16Length driver ≤ 184) := by
  obtain ⟨fixed, hnotes, hfixed⟩ := runProbes_notes source
  have hshort : ∀ e ∈ fixed, Text.utf16Length e ≤ 200 := fun e he =>
    fixedNotes_short e (hfixed.subset he)
  have hdisabled := stateFrom_disabled source.hvciEnabled
  rw [hnotes, List.forall_mem_append, and_iff_left hshort, noteIf]
  by_cases h : source.hvciEnabled = some false
  · rw [if_pos (hdisabled.mpr h), blockedByNote_short]
    exact ⟨fun hall _ => hall, fun hall => hall h⟩
  · rw [if_neg fun hd => h (hdisabled.mp hd)]
    exact ⟨fun _ hd => absurd hd h, fun _ e he => absurd he List.not_mem_nil⟩

/-! ## what the backend takes -/

theorem gameProcess_accepted {source : SystemSource}
    (hprocesses : ∀ p ∈ source.findProcesses fivemProcessNames, 1 ≤ p.pid ∧ 0 ≤ p.startedAtUnixMs) :
    (∀ g, (runProbes source).gameProcess = some g →
        Zod.accepts Schema.GameProcessEvidence g.toJson = true) ↔
      ∀ p, IsOldest (source.findProcesses fivemProcessNames) p →
        Text.utf16Length p.imageName ≤ 128 := by
  have hgame : (runProbes source).gameProcess =
      (source.findProcesses fivemProcessNames).head?.map fun front =>
        evidenceOf (oldest front (source.findProcesses fivemProcessNames)) := by
    unfold runProbes
    cases source.findProcesses fivemProcessNames <;> rfl
  rw [hgame]
  cases hfound : source.findProcesses fivemProcessNames with
  | nil =>
    refine iff_of_true (fun g hg => by cases hg) ?_
    rintro p ⟨before, after, hl, _⟩
    exact absurd hl (by simp)
  | cons front rest =>
    have hspec := oldest_spec front rest
    rw [hfound] at hprocesses
    have hbounds := hprocesses _ hspec.mem
    constructor
    · intro h p hp
      have hg := (evidence_accepted _).mp (h _ rfl)
      rw [hp.unique hspec]
      exact hg.2.2
    · intro h g hg
      cases hg
      exact (evidence_accepted _).mpr ⟨hbounds.1, hbounds.2, h _ hspec⟩

/-- **When the backend can read what was measured.** -/
theorem snapshot_readable_iff (source : SystemSource)
    (companionVersion companionBuildHash osBuild collectedAtIso : String)
    (htpm : Zod.accepts Schema.TpmInfo source.tpmInfo.toJson = true)
    (hprocesses : ∀ p ∈ source.findProcesses fivemProcessNames, 1 ≤ p.pid ∧ 0 ≤ p.startedAtUnixMs ∧
      ∃ name ∈ fivemProcessNames, matchesProcessName (Text.utf8 p.imageName) (Text.utf8 name) = true)
    (hversion : Zod.accepts (formatted .semver (some 32)) (.str companionVersion) = true)
    (hhash : Zod.accepts hex64 (.str companionBuildHash) = true)
    (hbuild : Zod.accepts (text 64) (.str osBuild) = true)
    (hcollected : Zod.accepts (formatted .datetime none) (.str collectedAtIso) = true) :
    Zod.accepts Schema.SystemSnapshot (buildSnapshot (runProbes source) companionVersion
        companionBuildHash osBuild collectedAtIso).toJson = true ↔
      (source.hvciEnabled = some false → ∀ driver, source.hvciBlockingDriver = some driver →
        Text.utf16Length driver ≤ 184) ∧
      ∀ p, IsOldest (source.findProcesses fivemProcessNames) p →
        Text.utf16Length p.imageName ≤ 128 := by
  have htpm' : (runProbes source).tpm = source.tpmInfo := by
    unfold runProbes
    cases source.findProcesses fivemProcessNames <;> rfl
  have hgame := gameProcess_accepted fun p hp =>
    And.intro (hprocesses p hp).1 (hprocesses p hp).2.1
  rw [snapshot_accepted, ← notes_short, ← hgame]
  constructor
  · rintro ⟨_, _, _, _, _, _, hprocess, hnotes, _⟩
    exact ⟨hnotes, hprocess⟩
  · rintro ⟨hnotes, hprocess⟩
    refine ⟨le_refl 1, hcollected, hversion, hhash, hbuild, ?_, hprocess, hnotes,
      runProbes_notes_length source⟩
    show Zod.accepts Schema.TpmInfo (runProbes source).tpm.toJson = true
    rw [htpm']
    exact htpm

/-- a healthy machine, except for memory integrity and the driver that blocks it -/
def sourceBlockedBy (driver : String) : SystemSource where
  secureBootEnabled := some true
  testSigningEnabled := some false
  kernelDebuggerPresent := some false
  hvciEnabled := some false
  vbsEnabled := some true
  driverBlocklistEnabled := some true
  iommuEnabled := some true
  hvciBlockingDriver := some driver
  tpmInfo := ⟨true, some "IFX", some "2.0", none⟩
  findProcesses := fun _ => [⟨4242, 1786000951000, "FiveM_GTAProcess.exe", true⟩]
  osBuild := "10.0.26100"

def someBuildHash : String := String.ofList (List.replicate 64 'a')

theorem snapshot_readable_rtcore : Zod.accepts Schema.SystemSnapshot
    (buildSnapshot (runProbes (sourceBlockedBy "rtcore64.sys")) "0.1.0" someBuildHash "10.0.26100"
      "2026-08-04T14:22:31.412Z").toJson = true ↔
    (some false = some false → ∀ driver, some "rtcore64.sys" = some driver →
      Text.utf16Length driver ≤ 184) ∧
    ∀ p, IsOldest [⟨4242, 1786000951000, "FiveM_GTAProcess.exe", true⟩] p →
      Text.utf16Length p.imageName ≤ 128 :=
  snapshot_readable_iff (sourceBlockedBy "rtcore64.sys") _ _ _ _ (by decide +kernel)
    (by decide +kernel) (by decide +kernel) (by decide +kernel) (by decide +kernel)
    (by decide +kernel)

/-- one long name is enough -/
theorem snapshot_refused {source : SystemSource} {driver : String}
    (hoff : source.hvciEnabled = some false) (hdriver : source.hvciBlockingDriver = some driver)
    (hlong : 184 < Text.utf16Length driver)
    (companionVersion companionBuildHash osBuild collectedAtIso : String) :
    Zod.accepts Schema.SystemSnapshot (buildSnapshot (runProbes source) companionVersion
      companionBuildHash osBuild collectedAtIso).toJson = false := by
  rw [Bool.eq_false_iff]
  intro h
  obtain ⟨_, _, _, _, _, _, _, hnotes, _⟩ := (snapshot_accepted _).mp h
  have hshort := (notes_short source).mp hnotes hoff driver hdriver
  exact absurd hshort (Nat.not_le.mpr hlong)

/-- the name of a driver in 185 characters -/
def longDriver : String := String.ofList (List.replicate 185 'd')

/-- a machine on which everything asked of it holds, and whose snapshot is refused -/
theorem snapshot_unreadable :
    Zod.accepts Schema.TpmInfo (sourceBlockedBy longDriver).tpmInfo.toJson = true ∧
    (∀ p ∈ (sourceBlockedBy longDriver).findProcesses fivemProcessNames,
      1 ≤ p.pid ∧ 0 ≤ p.startedAtUnixMs ∧ ∃ name ∈ fivemProcessNames,
        matchesProcessName (Text.utf8 p.imageName) (Text.utf8 name) = true) ∧
    Zod.accepts (formatted .semver (some 32)) (.str "0.1.0") = true ∧
    Zod.accepts hex64 (.str someBuildHash) = true ∧
    Zod.accepts (text 64) (.str "10.0.26100") = true ∧
    Zod.accepts (formatted .datetime none) (.str "2026-08-04T14:22:31.412Z") = true ∧
    Zod.accepts Schema.SystemSnapshot (buildSnapshot (runProbes (sourceBlockedBy longDriver)) "0.1.0"
      someBuildHash "10.0.26100" "2026-08-04T14:22:31.412Z").toJson = false := by
  have hlong : 184 < Text.utf16Length longDriver := by
    unfold longDriver Text.utf16Length
    rewrite [String.toList_ofList]
    decide +kernel
  exact ⟨by decide +kernel, by decide +kernel, by decide +kernel, by decide +kernel,
    by decide +kernel, by decide +kernel, snapshot_refused rfl rfl hlong _ _ _ _⟩

end Companion
