import FiveProtect.Backend.FailClosed
import FiveProtect.Backend.Remediation

/-!
# What the block screen explains

* `stops`                  a requirement turns the player away;
* `find_isBlocking`        what `buildRemediation` takes for a failure: the first requirement that stops,
                           or the IOMMU that is only warned about and could not be read;
* `remediation_or`         so the text is one of three;
* `explains_refusal_iff`   when the text explains the refusal;
* `names_driver_iff`       when a driver that is named was found by the probe.
-/

namespace Backend
open Protocol

/-! ## the entry that is explained -/

/-- the requirement turns this player away -/
def stops (input : PolicyInput) (id : RequirementId) : Bool :=
  blocks (policyTable id input.tier) (collectFindings input id).met

/-- what is reported for one requirement -/
def resultOf (input : PolicyInput) (id : RequirementId) : RequirementResult :=
  ⟨id, statusFor (policyTable id input.tier) (collectFindings input id).met,
    (collectFindings input id).detail⟩

/-- the IOMMU is only warned about, and its state could not be read -/
def iommuUnread (input : PolicyInput) : Bool :=
  input.tier = .standard && input.snapshot.features.iommu = .unknown

theorem stops_eq_false {input : PolicyInput} :
    (∀ id, stops input id = false) ↔ BlockingMet input := by
  constructor
  · intro h id hblock
    exact blocks_eq_false.mp (h id) hblock
  · intro h id
    exact blocks_eq_false.mpr (h id)

/-- no requirement but the IOMMU is ever only warned about -/
theorem warn_only {id : RequirementId} {tier : PolicyTier} (h : policyTable id tier = .warn) :
    id = .iommu_enabled ∧ tier = .standard := by
  revert h
  cases id <;> cases tier <;> decide

theorem isBlocking_statusFor (enforcement : Enforcement) (m : Met) (id : RequirementId)
    (detail : Option String) : isBlocking ⟨id, statusFor enforcement m, detail⟩ =
      (blocks enforcement m || (enforcement = .warn && m = .unknown)) := by
  cases enforcement <;> cases m <;> rfl

/-- a requirement is taken for a failure although it does not stop only if it is the unread IOMMU -/
theorem isBlocking_of_ne {input : PolicyInput} {id : RequirementId}
    (h : id ≠ .iommu_enabled ∨ iommuUnread input = false) :
    isBlocking (resultOf input id) = stops input id := by
  unfold resultOf
  rw [isBlocking_statusFor]
  show (stops input id || _) = stops input id
  suffices hwarn : (policyTable id input.tier = .warn && (collectFindings input id).met = .unknown : Bool)
      = false by rw [hwarn, Bool.or_false]
  rw [Bool.and_eq_false_iff, decide_eq_false_iff_not, decide_eq_false_iff_not, ← not_and_or]
  rintro ⟨hwarn, hunknown⟩
  obtain ⟨rfl, htier⟩ := warn_only hwarn
  rcases h with h | h
  · exact h rfl
  · have hread : input.snapshot.features.iommu ≠ .unknown := by
      intro hiommu
      simp [iommuUnread, htier, hiommu] at h
    have hmet : (expect input.snapshot.features.iommu .enabled).met = .unknown := hunknown
    revert hread hmet
    cases input.snapshot.features.iommu <;> decide

theorem collectFindings_iommu_unknown {input : PolicyInput}
    (h : input.snapshot.features.iommu = .unknown) :
    collectFindings input .iommu_enabled = ⟨.unknown, some stateUnknown⟩ := by
  show expect input.snapshot.features.iommu .enabled = _
  rw [h]
  rfl

theorem iommuUnread_iff {input : PolicyInput} : iommuUnread input = true ↔
    input.tier = .standard ∧ input.snapshot.features.iommu = .unknown := by
  simp only [iommuUnread, Bool.and_eq_true, decide_eq_true_eq]

/-- the unread IOMMU does not stop, and is reported as unknown -/
theorem resultOf_iommuUnread {input : PolicyInput} (h : iommuUnread input = true) :
    stops input .iommu_enabled = false ∧
      resultOf input .iommu_enabled = ⟨.iommu_enabled, .unknown, some stateUnknown⟩ := by
  obtain ⟨htier, hiommu⟩ := iommuUnread_iff.mp h
  unfold stops resultOf
  rw [collectFindings_iommu_unknown hiommu, htier]
  exact ⟨rfl, rfl⟩

/-- what comes before the IOMMU in `reportOrder` -/
def beforeIommu : List RequirementId := reportOrder.dropLast

/-- the first entry taken for a failure -/
theorem find_isBlocking (input : PolicyInput) :
    reportOrder.find? (fun id => isBlocking (resultOf input id)) =
      (reportOrder.find? (stops input)).or
        (if iommuUnread input then some .iommu_enabled else none) := by
  cases hread : iommuUnread input with
  | false =>
    have hsame : (fun id => isBlocking (resultOf input id)) = stops input :=
      funext fun id => isBlocking_of_ne (.inr hread)
    rw [hsame, if_neg Bool.false_ne_true, Option.or_none]
  | true =>
    obtain ⟨hstops, hresult⟩ := resultOf_iommuUnread hread
    have hearly : beforeIommu.find? (fun id => isBlocking (resultOf input id)) =
        beforeIommu.find? (stops input) := by
      rw [← List.head?_filter, ← List.head?_filter]
      congr 1
      apply List.filter_congr
      intro id hid
      refine isBlocking_of_ne (.inl fun heq => ?_)
      rw [heq] at hid
      exact absurd hid (by decide)
    have horder : reportOrder = beforeIommu ++ [.iommu_enabled] := rfl
    rw [horder, List.find?_append, List.find?_append, hearly, List.find?_singleton,
      List.find?_singleton, hstops, if_neg Bool.false_ne_true, Option.or_none, hresult]
    rfl

/-! ## the text -/

/-- the text built from an evaluation -/
def remediation (input : PolicyInput) : Option String :=
  buildRemediation (evaluatePolicy input).reasons (evaluatePolicy input).requirements

theorem buildRemediation_or (reasons : List DenyReason) (requirements : List RequirementResult) :
    buildRemediation reasons requirements =
      ((requirements.find? isBlocking).bind blockingText).or (reasons.findSome? reasonText) := by
  unfold buildRemediation
  cases (requirements.find? isBlocking).bind blockingText with
  | none => rfl
  | some text => rfl

theorem remediation_or (input : PolicyInput) :
    remediation input =
      (((reportOrder.find? (stops input)).or
        (if iommuUnread input then some .iommu_enabled else none)).bind
          fun id => blockingText (resultOf input id)).or
        ((evaluatePolicy input).reasons.findSome? reasonText) := by
  unfold remediation
  rw [buildRemediation_or, evaluatePolicy_requirements]
  show (((reportOrder.map (resultOf input)).find? isBlocking).bind blockingText).or _ = _
  rw [List.find?_map]
  show ((Option.map (resultOf input) (reportOrder.find? fun id =>
    isBlocking (resultOf input id))).bind blockingText).or _ = _
  rw [find_isBlocking, Option.bind_map]
  rfl

/-- there is a text for every requirement that stops -/
theorem blockingText_of_stops {input : PolicyInput} {id : RequirementId} (h : stops input id = true) :
    ∃ text, blockingText (resultOf input id) = some text := by
  rw [← Option.isSome_iff_exists]
  unfold blockingText
  rw [Option.isSome_map]
  cases id with
  | companion_attested => exact absurd h Bool.false_ne_true
  | _ => rfl

/-- the first requirement that stops is explained -/
theorem remediation_of_stops {input : PolicyInput} {id : RequirementId}
    (h : reportOrder.find? (stops input) = some id) :
    ∃ text, blockingText (resultOf input id) = some text ∧ remediation input = some text := by
  obtain ⟨text, htext⟩ := blockingText_of_stops (List.find?_some h)
  refine ⟨text, htext, ?_⟩
  rw [remediation_or, h]
  show (blockingText (resultOf input id)).or _ = _
  rw [htext]
  rfl

theorem find_stops_none {input : PolicyInput} :
    reportOrder.find? (stops input) = none ↔ BlockingMet input := by
  rw [List.find?_eq_none, ← stops_eq_false]
  constructor
  · intro h id
    exact Bool.eq_false_iff.mpr (h id (mem_reportOrder id))
  · intro h id _
    exact Bool.eq_false_iff.mp (h id)

/-- what is said of the unread IOMMU -/
def iommuNote : Option String := blockingText ⟨.iommu_enabled, .unknown, some stateUnknown⟩

/-- without a requirement that stops -/
theorem remediation_of_met {input : PolicyInput} (h : BlockingMet input) :
    remediation input = if iommuUnread input then iommuNote else
      (evaluatePolicy input).reasons.findSome? reasonText := by
  rw [remediation_or, find_stops_none.mpr h]
  cases hread : iommuUnread input with
  | false => rfl
  | true =>
    rw [if_pos rfl, if_pos rfl]
    show (blockingText (resultOf input .iommu_enabled)).or _ = _
    rw [(resultOf_iommuUnread hread).2]
    rfl

theorem reasons_of_met {input : PolicyInput} (h : BlockingMet input) :
    (evaluatePolicy input).reasons = if input.buildAccepted then [] else [.companion_outdated] := by
  have hloop : (reportOrder.foldl (report input) ([], [])).2 = [] :=
    (foldl_report_nil input reportOrder ([], [])).mpr
      ⟨rfl, fun id _ => stops_eq_false.mpr h id⟩
  unfold evaluatePolicy
  dsimp only
  rw [hloop]
  rfl

/-! ## the refusal is explained -/

/-- the text is the one of a requirement that stops, or, if there is none, of a reason -/
def Explains (input : PolicyInput) (text : String) : Prop :=
  (∃ id, policyTable id input.tier = .block ∧ (collectFindings input id).met ≠ .met ∧
    blockingText (resultOf input id) = some text) ∨
  BlockingMet input ∧ ∃ reason ∈ (evaluatePolicy input).reasons, reasonText reason = some text

theorem stops_iff {input : PolicyInput} {id : RequirementId} : stops input id = true ↔
    policyTable id input.tier = .block ∧ (collectFindings input id).met ≠ .met := by
  simp only [stops, blocks, Bool.and_eq_true, decide_eq_true_eq, ne_eq]

theorem explained_of_stops {input : PolicyInput} (h : ¬BlockingMet input) :
    ∃ text, remediation input = some text ∧ Explains input text := by
  obtain ⟨id, hid⟩ := Option.ne_none_iff_exists'.mp (mt find_stops_none.mp h)
  obtain ⟨text, htext, hshown⟩ := remediation_of_stops hid
  obtain ⟨hblock, hmet⟩ := stops_iff.mp (List.find?_some hid)
  exact ⟨text, hshown, .inl ⟨id, hblock, hmet, htext⟩⟩

/-- the only text there is for an unaccepted build -/
theorem reason_of_met {input : PolicyInput} {reason : DenyReason} (h : BlockingMet input)
    (hmem : reason ∈ (evaluatePolicy input).reasons) : reason = .companion_outdated := by
  rw [reasons_of_met h] at hmem
  split at hmem
  · exact absurd hmem List.not_mem_nil
  · exact List.mem_singleton.mp hmem

theorem explained_of_met {input : PolicyInput} (h : BlockingMet input)
    (hread : iommuUnread input = false) :
    ((evaluatePolicy input).decision = .deny →
      ∃ text, remediation input = some text ∧ Explains input text) ∧
    ((evaluatePolicy input).decision = .allow → remediation input = none) := by
  have htext := remediation_of_met h
  rw [hread, if_neg Bool.false_ne_true] at htext
  have hreasons := reasons_of_met h
  cases haccepted : input.buildAccepted with
  | true =>
    rw [haccepted, if_pos rfl] at hreasons
    constructor
    · intro hdeny
      rw [(evaluatePolicy_allow_iff input).mpr hreasons] at hdeny
      cases hdeny
    · intro _
      rw [htext, hreasons]
      rfl
  | false =>
    rw [haccepted, if_neg Bool.false_ne_true] at hreasons
    rw [hreasons] at htext
    constructor
    · intro _
      refine ⟨_, htext, .inr ⟨h, .companion_outdated, ?_, rfl⟩⟩
      rw [hreasons]
      exact List.mem_singleton_self _
    · intro hallow
      rw [evaluatePolicy_allow_iff, hreasons] at hallow
      cases hallow

theorem iommuNote_ne_none : iommuNote ≠ none :=
  Option.some_ne_none _

/-- the text about the IOMMU is no text of a reason -/
theorem iommuNote_ne_reason : iommuNote ≠ reasonText .companion_outdated := by
  intro h
  have hlist := congrArg String.toList (Option.some.inj h)
  dsimp only at hlist
  rw [if_pos rfl] at hlist
  simp only [String.toList_append] at hlist
  repeat rw [String.toList_ofList] at hlist
  exact absurd hlist (by decide +kernel)

/-- what is said of the unread IOMMU explains nothing where every requirement that blocks is met -/
theorem not_explains_iommuNote {input : PolicyInput} {text : String} (h : BlockingMet input)
    (htext : iommuNote = some text) : ¬Explains input text := by
  rintro (⟨id, hblock, hmet, -⟩ | ⟨-, reason, hmem, hreason⟩)
  · exact hmet (h id hblock)
  · rw [reason_of_met h hmem] at hreason
    exact iommuNote_ne_reason (htext.trans hreason.symm)

/-- the block screen explains the actual refusal, and an allowed player gets no instruction, unless only the
unread IOMMU is left, which refuses nobody -/
theorem explains_refusal_iff (input : PolicyInput) :
    (((evaluatePolicy input).decision = .deny →
        ∃ text, remediation input = some text ∧ Explains input text) ∧
      ((evaluatePolicy input).decision = .allow → remediation input = none)) ↔
      ¬(input.tier = .standard ∧ input.snapshot.features.iommu = .unknown ∧ BlockingMet input) := by
  rw [← and_assoc, ← iommuUnread_iff]
  by_cases hmet : BlockingMet input
  · cases hread : iommuUnread input with
    | false => exact iff_of_true (explained_of_met hmet hread) fun h => Bool.false_ne_true h.1
    | true =>
      have htext := remediation_of_met hmet
      rw [hread, if_pos rfl] at htext
      refine iff_of_false (fun hall => ?_) (not_not_intro ⟨rfl, hmet⟩)
      cases hdecision : (evaluatePolicy input).decision with
      | allow => exact iommuNote_ne_none (htext.symm.trans (hall.2 hdecision))
      | deny =>
        obtain ⟨text, hshown, hexplains⟩ := hall.1 hdecision
        exact not_explains_iommuNote hmet (htext.symm.trans hshown) hexplains
  · refine iff_of_true ⟨fun _ => explained_of_stops hmet, fun hallow => ?_⟩ fun h => hmet h.2
    exact absurd ((allow_iff input).mp hallow).1 hmet

/-- a sound machine whose IOMMU could not be read -/
def unreadIommu : PolicyInput :=
  ⟨.standard, { soundMachine with features := { soundMachine.features with iommu := .unknown } },
    "203.0.113.42", "203.0.113.42", true⟩

/-- it is allowed, and told to change its firmware -/
theorem allowed_with_instruction :
    (evaluatePolicy unreadIommu).decision = .allow ∧ remediation unreadIommu ≠ none := by
  have hallow : (evaluatePolicy unreadIommu).decision = .allow := by decide +kernel
  refine ⟨hallow, ?_⟩
  have hread : iommuUnread unreadIommu = true := rfl
  rw [remediation_of_met ((allow_iff unreadIommu).mp hallow).1, if_pos hread]
  exact iommuNote_ne_none

/-! ## the driver that blocks memory integrity -/

/-- the text has the part in it -/
def Mentions (text part : String) : Prop := part.toList <:+: text.toList

instance (text part : String) : Decidable (Mentions text part) :=
  inferInstanceAs (Decidable (part.toList <:+: text.toList))

/-- what the text for memory integrity claims of a driver -/
def driverClause : String := "weil ein Treiber sie blockiert"

/-- the name in a note of the probe -/
def nameIn (entry : String) : String := Text.slice entry blockedBy.toList.length

theorem Mentions.append {text part : String} (h : Mentions text part) (more : String) :
    Mentions (text ++ more) part := by
  unfold Mentions
  rw [String.toList_append]
  exact List.infix_append_of_infix_left h

theorem Mentions.after {text part : String} (h : Mentions text part) (before : String) :
    Mentions (before ++ text) part := by
  unfold Mentions
  rw [String.toList_append]
  exact List.infix_append_of_infix_right h

/-- the text where the detail is taken for a driver -/
def driverText (detail : String) : String :=
  "Die Speicherintegrität ist abgeschaltet, weil ein Treiber sie blockiert (" ++ detail ++
  ("). " ++
  "Deinstalliere die zugehörige Software oder aktualisiere sie, und aktiviere " ++
  "danach unter Windows-Sicherheit → Gerätesicherheit → Kernisolierung die " ++
  "Speicherintegrität.")

theorem mentions_driverText (detail : String) : Mentions (driverText detail) driverClause := by
  have hstart : Mentions "Die Speicherintegrität ist abgeschaltet, weil ein Treiber sie blockiert ("
      driverClause := by
    unfold Mentions driverClause
    rw [String.toList_ofList, String.toList_ofList]
    decide +kernel
  exact (hstart.append detail).append _

/-- no other requirement names a driver -/
theorem not_mentions_requirementText {id : RequirementId} {base : Option String → String}
    {detail : Option String} (hid : id ≠ .hvci_enabled ∨ detail = none)
    (h : requirementText id = some base) : ¬Mentions (base detail) driverClause := by
  unfold Mentions driverClause
  cases id with
  | companion_attested => cases h
  | hvci_enabled =>
    rcases hid with hid | rfl
    · exact absurd rfl hid
    · cases h
      dsimp only
      simp only [String.toList_append]
      repeat rw [String.toList_ofList]
      decide +kernel
  | _ =>
    cases h
    dsimp only
    repeat rw [String.toList_append]
    repeat rw [String.toList_ofList]
    decide +kernel

/-- the note on a point that could not be read names none either -/
theorem Mentions.of_note {text : String} (h : Mentions (text ++ unreadableNote) driverClause) :
    Mentions text driverClause := by
  have hquiet : ¬driverClause.toList <:+: unreadableNote.toList := by
    unfold driverClause unreadableNote
    repeat rw [String.toList_append]
    repeat rw [String.toList_ofList]
    decide +kernel
  have hbreak : '\n' ∉ driverClause.toList ∧ ∃ rest, unreadableNote.toList = '\n' :: rest := by
    unfold driverClause unreadableNote
    repeat rw [String.toList_append]
    repeat rw [String.toList_ofList]
    exact ⟨by decide +kernel, _, rfl⟩
  obtain ⟨hclause, rest, hnote⟩ := hbreak
  unfold Mentions at h ⊢
  rw [String.toList_append, List.infix_append_iff] at h
  rcases h with h | h | ⟨start, finish, hsplit, hstart, hfinish⟩
  · exact h
  · exact absurd h hquiet
  · -- the clause would go on over the line break
    rw [hnote] at hfinish
    cases finish with
    | nil =>
      rw [hsplit, List.append_nil]
      exact hstart.isInfix
    | cons c finish =>
      have hc : c = '\n' := (List.cons_prefix_cons.mp hfinish).1
      exact absurd (hsplit ▸ List.mem_append_right start (hc ▸ List.mem_cons_self)) hclause

theorem not_mentions_blockingText {id : RequirementId} {status : RequirementStatus}
    {detail : Option String} {text : String} (hid : id ≠ .hvci_enabled ∨ detail = none)
    (h : blockingText ⟨id, status, detail⟩ = some text) : ¬Mentions text driverClause := by
  obtain ⟨base, hbase, rfl⟩ := Option.map_eq_some_iff.mp h
  have hquiet := not_mentions_requirementText hid hbase
  dsimp only
  split
  · exact fun hclaim => hquiet hclaim.of_note
  · exact hquiet

theorem not_mentions_reasonText {reason : DenyReason} {text : String} (h : reasonText reason = some text) :
    ¬Mentions text driverClause := by
  unfold Mentions driverClause
  cases reason <;> cases h
  all_goals
    repeat rw [String.toList_append]
    repeat rw [String.toList_ofList]
    decide +kernel

/-- a text that names a driver is the one for memory integrity, which is the first that stops -/
theorem stops_of_mentions {input : PolicyInput} {text : String} (h : remediation input = some text)
    (hclaim : Mentions text driverClause) : reportOrder.find? (stops input) = some .hvci_enabled ∧
      blockingText (resultOf input .hvci_enabled) = some text := by
  cases hfirst : reportOrder.find? (stops input) with
  | some id =>
    obtain ⟨shown, hshown, hremediation⟩ := remediation_of_stops hfirst
    rw [h] at hremediation
    cases hremediation
    by_cases hid : id = .hvci_enabled
    · rw [hid] at hshown ⊢
      exact ⟨rfl, hshown⟩
    · exact absurd hclaim (not_mentions_blockingText (.inl hid) hshown)
  | none =>
    exfalso
    rw [remediation_of_met (find_stops_none.mp hfirst)] at h
    split at h
    · exact not_mentions_blockingText (.inl (by decide)) h hclaim
    · obtain ⟨reason, -, hreason⟩ := List.exists_of_findSome?_eq_some h
      exact not_mentions_reasonText hreason hclaim

/-- what is reported of memory integrity when it stops -/
theorem resultOf_hvci {input : PolicyInput} (h : stops input .hvci_enabled = true) :
    resultOf input .hvci_enabled = ⟨.hvci_enabled,
      statusFor .block (hvciFinding input.snapshot.features.hvci input.snapshot).met,
      (hvciFinding input.snapshot.features.hvci input.snapshot).detail⟩ := by
  unfold resultOf
  rw [(stops_iff.mp h).1]
  rfl

/-- the snapshot says which driver the text means -/
def Found (snapshot : SystemSnapshot) (text : String) : Prop :=
  ∃ entry ∈ snapshot.probeErrors, Text.startsWith entry blockedBy = true ∧ nameIn entry ≠ "" ∧
    Mentions text (nameIn entry)

/-- the first note of the probe has a name, or the text has another one's name by chance -/
def NotesNamed (snapshot : SystemSnapshot) : Prop :=
  ∀ note, blockingNote snapshot = some note →
    nameIn note ≠ "" ∨ Found snapshot (driverText "blockiert durch ")

theorem blockingText_hvci (status : RequirementStatus) (detail : String) :
    blockingText ⟨.hvci_enabled, status, some detail⟩ = some
      (if status = .unknown then driverText detail ++ unreadableNote else driverText detail) := by
  unfold blockingText requirementText driverText
  rfl

theorem hvciFinding_note {snapshot : SystemSnapshot} {note : String}
    (h : blockingNote snapshot = some note) :
    hvciFinding .disabled snapshot = ⟨.notMet, some ("blockiert durch " ++ nameIn note)⟩ := by
  unfold hvciFinding
  dsimp only
  rw [h]
  rfl

/-- the text names what the first note says -/
theorem found_of_note {snapshot : SystemSnapshot} {note : String} (h : blockingNote snapshot = some note)
    (hname : nameIn note ≠ "") : Found snapshot (driverText ("blockiert durch " ++ nameIn note)) := by
  refine ⟨note, List.mem_of_find?_eq_some h,
    List.find?_some (p := fun entry => Text.startsWith entry blockedBy) h, hname, ?_⟩
  have hself : Mentions (nameIn note) (nameIn note) := List.infix_rfl
  exact ((hself.after _).after _).append _

theorem hvci_of_disabled {input : PolicyInput} (hstops : stops input .hvci_enabled = true)
    (hstate : input.snapshot.features.hvci = .disabled) :
    (∀ text, blockingText (resultOf input .hvci_enabled) = some text → Mentions text driverClause →
      Found input.snapshot text) ↔ NotesNamed input.snapshot := by
  rw [resultOf_hvci hstops, hstate]
  cases hnote : blockingNote input.snapshot with
  | none =>
    refine iff_of_true (fun text h hclaim => ?_) fun note h => ?_
    · have hfinding : hvciFinding .disabled input.snapshot = ⟨.notMet, none⟩ := by
        unfold hvciFinding
        dsimp only
        rw [hnote]
      rw [hfinding] at h
      exact absurd hclaim (not_mentions_blockingText (.inr rfl) h)
    · rw [hnote] at h
      cases h
  | some note =>
    rw [hvciFinding_note hnote]
    show (∀ text, blockingText ⟨.hvci_enabled, .fail, some ("blockiert durch " ++ nameIn note)⟩ =
      some text → _ → _) ↔ _
    rw [blockingText_hvci, if_neg (by decide)]
    constructor
    · intro h first hfirst
      cases hnote.symm.trans hfirst
      have hfound := h _ rfl (mentions_driverText _)
      by_cases hname : nameIn note = ""
      · rw [hname, String.append_empty] at hfound
        exact .inr hfound
      · exact .inl hname
    · intro h text htext _
      rw [← Option.some.inj htext]
      by_cases hname : nameIn note = ""
      · rw [hname, String.append_empty]
        exact (h note hnote).resolve_left (absurd hname)
      · exact found_of_note hnote hname

/-- the state that could not be read is taken for a driver -/
theorem hvci_of_unknown {input : PolicyInput} (hstops : stops input .hvci_enabled = true)
    (hstate : input.snapshot.features.hvci = .unknown) :
    ∃ text, blockingText (resultOf input .hvci_enabled) = some text ∧ Mentions text driverClause := by
  rw [resultOf_hvci hstops, hstate]
  show ∃ text, blockingText ⟨.hvci_enabled, .unknown, some stateUnknown⟩ = some text ∧ _
  rw [blockingText_hvci, if_pos rfl]
  exact ⟨_, rfl, (mentions_driverText stateUnknown).append _⟩

/-- no driver is invented, unless memory integrity is the first requirement that stops, and its state could not
be read or the first note of a driver has no name -/
theorem names_driver_iff (input : PolicyInput) :
    (∀ text, remediation input = some text → Mentions text driverClause →
      input.snapshot.features.hvci = .disabled ∧ Found input.snapshot text) ↔
    (reportOrder.find? (stops input) = some .hvci_enabled →
      input.snapshot.features.hvci = .disabled ∧ NotesNamed input.snapshot) := by
  by_cases hfirst : reportOrder.find? (stops input) = some .hvci_enabled
  · have hstops := List.find?_some hfirst
    obtain ⟨shown, hshown, hremediation⟩ := remediation_of_stops hfirst
    have hsame : remediation input = blockingText (resultOf input .hvci_enabled) :=
      hremediation.trans hshown.symm
    rw [forall_prop_of_true hfirst, hsame]
    cases hstate : input.snapshot.features.hvci with
    | enabled =>
      have hmet := (stops_iff.mp hstops).2
      exact absurd (hvciFinding_met.mpr hstate) hmet
    | unknown =>
      obtain ⟨text, htext, hclaim⟩ := hvci_of_unknown hstops hstate
      exact iff_of_false (fun h => nomatch (h text htext hclaim).1) fun h => nomatch h.1
    | disabled =>
      simp only [true_and]
      exact hvci_of_disabled hstops hstate
  · refine iff_of_true (fun text h hclaim => ?_) fun h => absurd h hfirst
    exact absurd (stops_of_mentions h hclaim).1 hfirst

/-- a sound machine where the state of memory integrity could not be read -/
def unreadHvci : PolicyInput :=
  ⟨.standard, { soundMachine with features := { soundMachine.features with hvci := .unknown } },
    "203.0.113.42", "203.0.113.42", true⟩

/-- no probe has found a driver, and the text blames one -/
theorem invented_driver : ∃ text, remediation unreadHvci = some text ∧ Mentions text driverClause ∧
    unreadHvci.snapshot.features.hvci ≠ .disabled ∧ unreadHvci.snapshot.probeErrors = [] := by
  have hfirst : reportOrder.find? (stops unreadHvci) = some .hvci_enabled := by decide +kernel
  obtain ⟨text, htext, hremediation⟩ := remediation_of_stops hfirst
  obtain ⟨shown, hshown, hclaim⟩ := hvci_of_unknown (List.find?_some hfirst) rfl
  cases htext.symm.trans hshown
  exact ⟨text, hremediation, hclaim, by decide, rfl⟩

end Backend
