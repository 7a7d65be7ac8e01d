import FiveProtect.Backend.Deployment
import FiveProtect.Backend.FailClosed
import FiveProtect.Resource.FailMode

/-!
# A verdict on its way to the resource

What `processAttestation` records is answered as a JSON text by the verdict poll and checked by the
resource, which counts bytes where the schema of the sender counts UTF-16 code units.  The one text in
a verdict that the companion chooses is the note about the driver that blocks memory integrity.

* `requirement_details`   every detail but the one of a blocked memory integrity is short;
* `remediation_short`     with it so are the details, the remediation is too;
* `Carried`               the resource takes the verdict for what it is;
* `verdict_on_wire`       it does exactly if the note has at most 200 bytes.
-/

namespace Backend
open Protocol

/-! ## the texts of a verdict -/

/-- a note of at most 200 bytes about the driver, where memory integrity is off -/
def NoteFits (snapshot : SystemSnapshot) : Prop :=
  snapshot.features.hvci = .disabled →
    ∀ note, blockingNote snapshot = some note → Text.utf8Length note ≤ 200

/-- the words in front of the driver are as long as the mark of the note -/
theorem blocked_detail_length {snapshot : SystemSnapshot} {note : String}
    (h : blockingNote snapshot = some note) :
    Text.utf8Length ("blockiert durch " ++ Text.slice note blockedBy.toList.length) =
      Text.utf8Length note := by
  have hmark : Text.startsWith note blockedBy = true :=
    List.find?_some (p := fun entry => Text.startsWith entry blockedBy) h
  have hsame : Text.utf8Length "blockiert durch " = Text.utf8Length blockedBy := by decide
  have hnote := congrArg Text.utf8Length (Text.startsWith_slice hmark)
  rw [Text.utf8Length_append] at hnote ⊢
  rw [hsame]
  exact hnote

/-- the details of the features -/
theorem expect_detail {actual wanted : FeatureState} {detail : String}
    (h : (expect actual wanted).detail = some detail) : detail = stateUnknown := by
  unfold expect at h
  split at h
  · cases h
  · split at h
    · cases h
      rfl
    · cases h

theorem stateUnknown_short : Text.utf8Length stateUnknown ≤ 40 := by
  rw [stateUnknown, Text.utf8Length_ofList]
  decide +kernel

/-- every detail but the one of memory integrity is a text of the backend -/
theorem finding_detail_short {input : PolicyInput} {id : RequirementId} (hid : id ≠ .hvci_enabled)
    {detail : String} (h : (collectFindings input id).detail = some detail) :
    Text.utf8Length detail ≤ 200 := by
  have hfeature : ∀ {actual wanted : FeatureState}, (expect actual wanted).detail = some detail →
      Text.utf8Length detail ≤ 200 := by
    intro actual wanted hexpect
    rw [expect_detail hexpect]
    exact stateUnknown_short.trans (by decide)
  cases id with
  | hvci_enabled => exact absurd rfl hid
  | companion_attested => cases h
  | test_signing_disabled | kernel_debugging_disabled | secure_boot_enabled
  | driver_blocklist_enabled | iommu_enabled => exact hfeature h
  | tpm_attestation_valid =>
    simp only [collectFindings, tpmFinding] at h
    split at h
    · cases h
      rw [Text.utf8Length_ofList]
      decide +kernel
    · cases h
      rw [Text.utf8Length_ofList]
      decide +kernel
  | vulnerable_drivers_absent =>
    cases h
    rw [Text.utf8Length_ofList]
    decide +kernel
  | game_process_present =>
    simp only [collectFindings, gameProcessFinding] at h
    split at h
    · cases h
      rw [Text.utf8Length_ofList]
      decide +kernel
    · cases h
  | network_origin_matches =>
    simp only [collectFindings, originFinding] at h
    split at h
    · cases h
    · cases h
      rw [Text.utf8Length_ofList]
      decide +kernel

/-- the detail of memory integrity is as long as the note, if it is off -/
theorem hvci_detail_short (snapshot : SystemSnapshot) :
    (∀ detail, (hvciFinding snapshot.features.hvci snapshot).detail = some detail →
      Text.utf8Length detail ≤ 200) ↔ NoteFits snapshot := by
  unfold NoteFits hvciFinding
  cases snapshot.features.hvci with
  | enabled => exact ⟨fun _ h => (by cases h), fun _ _ h => (by cases h)⟩
  | unknown =>
    refine ⟨fun _ h => (by cases h), fun _ detail h => ?_⟩
    cases h
    exact stateUnknown_short.trans (by decide)
  | disabled =>
    cases hnote : blockingNote snapshot with
    | none => exact ⟨fun _ _ _ h => (by cases h), fun _ _ h => (by cases h)⟩
    | some note =>
      have hlen := blocked_detail_length hnote
      constructor
      · intro h _ note' heq
        cases heq
        rw [← hlen]
        exact h _ rfl
      · intro h detail heq
        cases heq
        rw [hlen]
        exact h rfl note rfl

/-- the details of an evaluation fit if the note does -/
theorem requirement_details (input : PolicyInput) :
    (∀ r ∈ (evaluatePolicy input).requirements, ∀ detail, r.detail = some detail →
      Text.utf8Length detail ≤ 200) ↔ NoteFits input.snapshot := by
  rw [evaluatePolicy_requirements, List.forall_mem_map]
  constructor
  · intro h
    exact (hvci_detail_short input.snapshot).mp (h .hvci_enabled (by decide))
  · intro h id _ detail hdetail
    by_cases hid : id = .hvci_enabled
    · subst hid
      exact (hvci_detail_short input.snapshot).mpr h detail hdetail
    · exact finding_detail_short hid hdetail

/-! ## the remediation -/

theorem unreadableNote_short : Text.utf8Length unreadableNote ≤ 180 := by
  unfold unreadableNote Text.utf8Length Text.utf8
  repeat rw [String.toList_append]
  repeat rw [String.toList_ofList]
  decide +kernel

/-- the texts that do not name a detail -/
theorem requirementText_short {id : RequirementId} (hid : id ≠ .hvci_enabled)
    {text : Option String → String} (h : requirementText id = some text) (detail : Option String) :
    Text.utf8Length (text detail) ≤ 300 := by
  cases id with
  | hvci_enabled => exact absurd rfl hid
  | companion_attested => cases h
  | _ =>
    cases h
    unfold Text.utf8Length Text.utf8
    repeat rw [String.toList_append]
    repeat rw [String.toList_ofList]
    decide +kernel

/-- the text about memory integrity, without and with the driver that blocks it -/
theorem hvciText_short {text : Option String → String} (h : requirementText .hvci_enabled = some text) :
    Text.utf8Length (text none) ≤ 300 ∧
      ∀ detail, Text.utf8Length (text (some detail)) ≤ Text.utf8Length detail + 260 := by
  cases h
  constructor
  · unfold Text.utf8Length Text.utf8
    repeat rw [String.toList_append]
    repeat rw [String.toList_ofList]
    decide +kernel
  · intro detail
    have hfront : Text.utf8Length
        "Die Speicherintegrität ist abgeschaltet, weil ein Treiber sie blockiert (" ≤ 80 := by
      rw [Text.utf8Length_ofList]
      decide +kernel
    have hback : Text.utf8Length ("). " ++
        "Deinstalliere die zugehörige Software oder aktualisiere sie, und aktiviere " ++
        "danach unter Windows-Sicherheit → Gerätesicherheit → Kernisolierung die " ++
        "Speicherintegrität.") ≤ 180 := by
      unfold Text.utf8Length Text.utf8
      repeat rw [String.toList_append]
      repeat rw [String.toList_ofList]
      decide +kernel
    beta_reduce
    rw [Text.utf8Length_append, Text.utf8Length_append]
    omega

theorem reasonText_short {reason : DenyReason} {text : String} (h : reasonText reason = some text) :
    Text.utf8Length text ≤ 300 := by
  cases reason with
  | network_origin_mismatch | game_process_missing | policy_not_met => cases h
  | _ =>
    cases h
    unfold Text.utf8Length Text.utf8
    repeat rw [String.toList_append]
    repeat rw [String.toList_ofList]
    decide +kernel

theorem statusFor_unknown {enforcement : Enforcement} {m : Met}
    (h : statusFor enforcement m = .unknown) : m = .unknown := by
  cases m with
  | unknown => rfl
  | _ => cases enforcement <;> cases h

/-- memory integrity is unknown with a text of the backend -/
theorem hvci_unknown {state : FeatureState} {snapshot : SystemSnapshot}
    (h : (hvciFinding state snapshot).met = .unknown) :
    (hvciFinding state snapshot).detail = some stateUnknown := by
  unfold hvciFinding at h ⊢
  cases state with
  | enabled => cases h
  | unknown => rfl
  | disabled =>
    cases hnote : blockingNote snapshot with
    | none =>
      rw [hnote] at h
      cases h
    | some note =>
      rw [hnote] at h
      cases h

/-- the text of an entry of an evaluation; where it could not be read, the detail is short -/
theorem blockingText_short {input : PolicyInput} (hnote : NoteFits input.snapshot)
    {id : RequirementId} {text : String}
    (h : blockingText ⟨id, statusFor (policyTable id input.tier) (collectFindings input id).met,
      (collectFindings input id).detail⟩ = some text) : Text.utf8Length text ≤ 500 := by
  obtain ⟨base, hbase, rfl⟩ := Option.map_eq_some_iff.mp h
  have hunreadable := unreadableNote_short
  by_cases hid : id = .hvci_enabled
  · subst hid
    obtain ⟨hnone, hsome⟩ := hvciText_short hbase
    have hdetail := (hvci_detail_short input.snapshot).mpr hnote
    dsimp only
    by_cases hstatus : statusFor (policyTable .hvci_enabled input.tier)
        (collectFindings input .hvci_enabled).met = .unknown
    · have hd : (collectFindings input .hvci_enabled).detail = some stateUnknown :=
        hvci_unknown (statusFor_unknown hstatus)
      have hunknown := stateUnknown_short
      have hlong := hsome stateUnknown
      rw [if_pos hstatus, Text.utf8Length_append, hd]
      omega
    · rw [if_neg hstatus]
      cases hd : (collectFindings input .hvci_enabled).detail with
      | none => exact hnone.trans (by decide)
      | some detail =>
        have hlong := hsome detail
        have hfits := hdetail detail hd
        omega
  · have hshort := requirementText_short hid hbase (collectFindings input id).detail
    dsimp only
    split
    · rw [Text.utf8Length_append]
      omega
    · omega

theorem remediation_short {input : PolicyInput} (hnote : NoteFits input.snapshot) {text : String}
    (h : buildRemediation (evaluatePolicy input).reasons (evaluatePolicy input).requirements =
      some text) : Text.utf8Length text ≤ 500 := by
  unfold buildRemediation at h
  split at h
  · rename_i found hfound
    cases h
    obtain ⟨entry, hentry, htext⟩ := Option.bind_eq_some_iff.mp hfound
    have hmem := List.mem_of_find?_eq_some hentry
    rw [evaluatePolicy_requirements] at hmem
    obtain ⟨id, _, rfl⟩ := List.mem_map.mp hmem
    exact blockingText_short hnote htext
  · obtain ⟨reason, _, htext⟩ := List.exists_of_findSome?_eq_some h
    exact (reasonText_short htext).trans (by decide)

/-! ## what is recorded -/

/-- the row of a session after `processAttestation` recorded what it decided on a request -/
def processed (P : Platform) (now : Time) (t : AttestTask) (buildAccepted : Bool)
    (r : AttestationSession) : AttestationSession :=
  (Write.recordVerdict r.tenantId r.id
    (evaluatePolicy (t.policyInput (r.columns P) buildAccepted)).update).onSession now r

theorem processed_eq (P : Platform) (now : Time) (t : AttestTask) (buildAccepted : Bool)
    (r : AttestationSession) : processed P now t buildAccepted r =
      r.judge now (evaluatePolicy (t.policyInput (r.columns P) buildAccepted)).update :=
  if_pos ⟨rfl, rfl⟩

theorem length_addReason (reasons : List DenyReason) (reason : DenyReason) :
    (addReason reasons reason).length ≤ reasons.length + 1 := by
  unfold addReason
  split
  · exact Nat.le_succ _
  · rw [List.length_append, List.length_singleton]

theorem length_foldl_report (input : PolicyInput) (ids : List RequirementId)
    (acc : List RequirementResult × List DenyReason) :
    (ids.foldl (report input) acc).2.length ≤ acc.2.length + ids.length := by
  induction ids generalizing acc with
  | nil => exact le_refl _
  | cons id ids ih =>
    have hstep : (report input acc id).2.length ≤ acc.2.length + 1 := by
      unfold report
      dsimp only
      split
      · exact length_addReason acc.2 (reasonFor id)
      · exact Nat.le_succ _
    have hrest := ih (report input acc id)
    rw [List.foldl_cons, List.length_cons]
    omega

/-- an evaluation has at most a reason for each requirement, and one for the build -/
theorem evaluatePolicy_reasons_length (input : PolicyInput) :
    (evaluatePolicy input).reasons.length ≤ 16 := by
  have hfold := length_foldl_report input reportOrder ([], [])
  have hids : reportOrder.length = 11 := rfl
  have hnil : (([], []) : List RequirementResult × List DenyReason).2.length = 0 := rfl
  show (if input.buildAccepted then (reportOrder.foldl (report input) ([], [])).2
    else addReason (reportOrder.foldl (report input) ([], [])).2 .companion_outdated).length ≤ 16
  split
  · omega
  · have hadd := length_addReason (reportOrder.foldl (report input) ([], [])).2 .companion_outdated
    omega

end Backend

namespace Resource
open Protocol Backend

/-! ## on the wire -/

/-- **The resource takes a verdict for what it is**: it accepts the decoded text, goes by its
decision, and turns away the player of a `deny` under either fail mode. -/
structure Carried (decode : Json → LuaValue) (v : Verdict) : Prop where
  accepted : Lua.validateVerdict (decode v.toJson) = .ok ()
  polled : Gate.pollVerdict (.reply 200 (decode v.toJson)) = .ok (decode v.toJson)
  decision : (decode v.toJson).field "decision" = .string (Text.utf8 (wire v.decision))
  denied : v.decision = .deny → ∀ failOpen license issued, license ≠ "" → Issued issued →
    ∃ message, message ≠ [] ∧
      playerConnecting true failOpen license issued (.reply 200 (decode v.toJson)) = .denied message

theorem fallbackFor_ne_nil {reason : LuaValue} {text : String}
    (h : Gate.fallbackFor reason = some text) : Text.utf8 text ≠ [] := by
  have hall : ∀ entry ∈ Gate.fallbackText, entry.2 ≠ "" := by simp [Gate.fallbackText]
  unfold Gate.fallbackFor at h
  split at h
  · obtain ⟨entry, hentry, rfl⟩ := Option.map_eq_some_iff.mp h
    exact Text.utf8_ne_nil (hall entry (List.mem_of_find?_eq_some hentry))
  · cases h

/-- the player always gets to read something -/
theorem messageFor_ne_nil (verdict : LuaValue) : Gate.messageFor verdict ≠ [] := by
  have hgeneric : Text.utf8 Gate.genericDenial ≠ [] :=
    Text.utf8_ne_nil (by simp [Gate.genericDenial])
  have hspoken : ∀ reasons : List LuaValue,
      Text.utf8 ((reasons.findSome? Gate.fallbackFor).getD Gate.genericDenial) ≠ [] := by
    intro reasons
    cases hfound : reasons.findSome? Gate.fallbackFor with
    | none => exact hgeneric
    | some text =>
      obtain ⟨reason, _, htext⟩ := List.exists_of_findSome?_eq_some hfound
      exact fallbackFor_ne_nil htext
  have hremediation : ∀ spoken : Bytes, spoken ≠ [] → ∀ s : Bytes,
      (if s = [] then spoken else s) ≠ [] := by
    intro spoken hne s
    split
    · exact hne
    · assumption
  unfold Gate.messageFor
  cases verdict.field "reasons" with
  | table pairs rest =>
    dsimp only
    split
    · exact hremediation _ (hspoken _) _
    · exact hspoken _
  | _ =>
    dsimp only
    split
    · exact hremediation _ hgeneric _
    · exact hgeneric

/-- the decision of a decoded verdict -/
theorem field_decision (v : Verdict) :
    (LuaValue.ofJson v.toJson).field "decision" = .string (Text.utf8 (wire v.decision)) := by
  rw [Verdict.toJson, LuaValue.field_ofJson]
  rfl

/-- a verdict that is accepted is carried -/
theorem carried_iff {decode : Json → LuaValue} {v : Verdict}
    (hdecode : decode v.toJson = LuaValue.ofJson v.toJson) : Carried decode v ↔ Lua.Fits v := by
  rw [← Lua.validateVerdict_ok, ← hdecode]
  constructor
  · exact fun h => h.accepted
  · intro hok
    have hdecision : (decode v.toJson).field "decision" = .string (Text.utf8 (wire v.decision)) := by
      rw [hdecode]
      exact field_decision v
    have hpoll : Gate.pollVerdict (.reply 200 (decode v.toJson)) = .ok (decode v.toJson) :=
      ask_valid (by decide) (isNil_of_valid (.inr hok)) hok
    refine ⟨hok, hpoll, hdecision, ?_⟩
    intro hdeny failOpen license issued hl hissued
    obtain ⟨nonce, hnonce⟩ := hissued.asks
    refine ⟨Gate.messageFor (decode v.toJson), messageFor_ne_nil _, ?_⟩
    have hconnect := connect_eq hl issued (.reply 200 (decode v.toJson)) failOpen
    rw [hnonce, hpoll] at hconnect
    refine hconnect.trans ?_
    show onVerdict (decode v.toJson) = _
    rw [onVerdict, hdecision, hdeny]
    rfl

/-- the remediation is recorded as it was built -/
theorem remediation_judge (P : Platform) (now : Time) (outcome : PolicyOutcome)
    (r : AttestationSession) :
    (toVerdict ((r.judge now outcome.update).columns P)).remediation =
      buildRemediation outcome.reasons outcome.requirements := rfl

/-- what the resource asks of a recorded verdict -/
theorem fits_processed (P : Platform) (now : Time) (t : AttestTask) (buildAccepted : Bool)
    (r : AttestationSession) :
    Lua.Fits (toVerdict ((processed P now t buildAccepted r).columns P)) ↔
      NoteFits t.request.snapshot ∧ IsoTime.year now ≤ 9999 := by
  rw [processed_eq]
  constructor
  · intro h
    exact ⟨(requirement_details _).mp h.details, (Lua.test_datetime now).mp h.evaluatedAt⟩
  · rintro ⟨hnote, hyear⟩
    refine ⟨Lua.test_uuid r.id, evaluatePolicy_reasons_length _, ?_, (requirement_details _).mpr hnote,
      ?_, (Lua.test_datetime now).mpr hyear⟩
    · show (evaluatePolicy _).requirements.length ≤ 32
      rw [evaluatePolicy_requirements, List.length_map]
      decide
    · intro text htext
      rw [remediation_judge] at htext
      exact remediation_short hnote htext

/-- **A verdict reaches the resource as it was recorded** exactly if the note about the driver that
blocks memory integrity has at most 200 bytes, up to the year 9999. -/
theorem verdict_on_wire {decode : Json → LuaValue}
    (hdecode : ∀ v : Verdict, decode v.toJson = LuaValue.ofJson v.toJson) (P : Platform) (now : Time)
    (t : AttestTask) (buildAccepted : Bool) (r : AttestationSession) :
    Carried decode (toVerdict ((processed P now t buildAccepted r).columns P)) ↔
      NoteFits t.request.snapshot ∧ IsoTime.year now ≤ 9999 := by
  rw [carried_iff (hdecode _)]
  exact fits_processed P now t buildAccepted r

/-! ## two denied players -/

section
open Backend.Deployment

/-- what the poll answers about `redeemed` once the request was processed -/
def verdictOn (request : AttestationRequest) : Verdict :=
  toVerdict ((processed platform 1785852581412 ⟨request, "203.0.113.42", true, .claim⟩ true
    redeemed).columns platform)

/-- without memory integrity the player is denied -/
theorem verdictOn_deny {request : AttestationRequest}
    (h : request.snapshot.features.hvci = .disabled) : (verdictOn request).decision = .deny := by
  rw [verdictOn, processed_eq]
  show Decision.verdict (evaluatePolicy _).decision = .deny
  cases hdecision : (evaluatePolicy ((⟨request, "203.0.113.42", true, .claim⟩ : AttestTask).policyInput
    (redeemed.columns platform) true)).decision with
  | deny => rfl
  | allow =>
    have hmet := ((allow_iff _).mp hdecision).1 .hvci_enabled rfl
    have henabled := hvciFinding_met.mp hmet
    rw [AttestTask.policyInput, h] at henabled
    cases henabled

/-- the answer to the nonce request -/
def issuedReply : Exchange := .reply 201 (LuaValue.ofJson (.obj [
  ("nonce", .str nonce),
  ("sessionId", .str (Uuid.small 5).toText),
  ("expiresAt", .str "2026-08-04T14:11:41.412Z"),
  ("policyTier", .str "standard"),
  ("backendUrl", .str "https://gate.example"),
  ("protocolVersion", .num (.int 1))]))

theorem issuedReply_issued : Issued issuedReply := by
  refine ⟨_, rfl, ?_⟩
  decide +kernel

/-- 78 code units, 202 bytes -/
def longNote : String := blockedBy ++ String.ofList (List.replicate 62 '€')

/-- a verdict that does not fit leaves it to the fail mode -/
theorem admitted_of_not_fits {v : Verdict} (hv : ¬ Lua.Fits v) {license : String} (hl : license ≠ "")
    {issued : Exchange} (hissued : Issued issued) :
    playerConnecting true true license issued (.reply 200 (LuaValue.ofJson v.toJson)) =
      .admitted none := by
  obtain ⟨nonce, hnonce⟩ := hissued.asks
  have hconnect := connect_eq hl issued (.reply 200 (LuaValue.ofJson v.toJson)) true
  have hnil : Lua.isNil (LuaValue.ofJson v.toJson) = false := by
    rw [Verdict.toJson, LuaValue.ofJson]
    rfl
  cases hcheck : Lua.validateVerdict (LuaValue.ofJson v.toJson) with
  | ok u => exact absurd ((Lua.validateVerdict_ok v).mp hcheck) hv
  | error err =>
    have hpoll : Gate.pollVerdict (.reply 200 (LuaValue.ofJson v.toJson)) =
        .failed true (.string (Text.utf8 "protocol:" ++ err)) := by
      simp [Gate.pollVerdict, Gate.ask, Http.finish, hnil, hcheck]
    rw [hnonce, hpoll] at hconnect
    exact hconnect

/-- the schema accepts the note of 78 code units, the player is denied, and admitted by the
resource -/
theorem deny_lost_on_wire : ∃ request,
    AttestationRequest.safeParse (snapshotBody .disabled [longNote]) = some request ∧
      (verdictOn request).decision = .deny ∧ ¬ Carried LuaValue.ofJson (verdictOn request) ∧
      Issued issuedReply ∧ playerConnecting true true "license:1" issuedReply
        (.reply 200 (LuaValue.ofJson (verdictOn request).toJson)) = .admitted none := by
  have hread : ∀ e ∈ [longNote], Text.utf16Length e ≤ 200 := by
    rw [List.forall_mem_singleton, longNote, Text.utf16Length_append, Text.utf16Length_ofList]
    decide +kernel
  have hnote : blockingNote (snapshotWith .disabled [longNote]) = some longNote :=
    List.find?_cons_of_pos (Text.startsWith_append _ _)
  have hlong : ¬ Text.utf8Length longNote ≤ 200 := by
    rw [longNote, Text.utf8Length_append, Text.utf8Length_ofList]
    decide +kernel
  have hfits : ¬ Lua.Fits (verdictOn ⟨nonce, snapshotWith .disabled [longNote], none, 1⟩) := by
    intro h
    have hshort := ((fits_processed platform 1785852581412
      ⟨⟨nonce, snapshotWith .disabled [longNote], none, 1⟩, "203.0.113.42", true, .claim⟩ true
      redeemed).mp h).1
    exact hlong (hshort rfl longNote hnote)
  refine ⟨_, safeParse_snapshotBody hread (by decide) _, verdictOn_deny rfl, ?_, issuedReply_issued,
    admitted_of_not_fits hfits (by decide) issuedReply_issued⟩
  intro h
  exact hfits ((carried_iff rfl).mp h)

/-- the driver is named in 23 bytes: the player is denied, and stays outside -/
theorem verdict_on_wire_named : ∃ request,
    AttestationRequest.safeParse (snapshotBody .disabled ["hvci_blocked_by:vgk.sys"]) = some request ∧
      (verdictOn request).decision = .deny ∧ Carried LuaValue.ofJson (verdictOn request) := by
  have hread : ∀ e ∈ ["hvci_blocked_by:vgk.sys"], Text.utf16Length e ≤ 200 := by decide
  have hnote : blockingNote (snapshotWith .disabled ["hvci_blocked_by:vgk.sys"]) =
      some "hvci_blocked_by:vgk.sys" := by decide +kernel
  have hshort : Text.utf8Length "hvci_blocked_by:vgk.sys" ≤ 200 := by decide
  refine ⟨_, safeParse_snapshotBody hread (by decide) _, verdictOn_deny rfl,
    (verdict_on_wire (fun _ => rfl) platform 1785852581412
    ⟨⟨nonce, snapshotWith .disabled ["hvci_blocked_by:vgk.sys"], none, 1⟩, "203.0.113.42", true, .claim⟩
    true redeemed).mpr ⟨?_, by decide⟩⟩
  intro _ note hfound
  rw [hnote] at hfound
  cases hfound
  exact hshort

end

end Resource
