import FiveProtect.Backend.Deployment
import FiveProtect.Backend.VerdictOnce

/-!
# Who learns the outcome

`POST /v1/companion/outcome` compares the caller with the address of the attestation, if there was
one.  A session that was never attested has no such address, and its verdict, that of a poll that
timed out, is for everybody who names the session.

* `OutcomeTask.Attester`  the caller comes from where the session was attested;
* `OnlyAttester`          a verdict goes to such a caller alone, all others are told what a caller
                          is told about a session that does not exist.
-/

namespace Backend
open Protocol

variable {P : Platform} {s : System}

namespace OutcomeTask

/-- a request about the session, about to read its row -/
structure Asks (t : OutcomeTask) (r : AttestationSession) : Prop where
  point : t.point = .read
  session : Uuid.ofText t.request.sessionId = some r.id

/-- the session was attested, from the address of the caller -/
def Attester (P : Platform) (t : OutcomeTask) (r : AttestationSession) : Prop :=
  ∃ ip, r.attestationIp = some ip ∧ normaliseIp (P.inetHost ip) = normaliseIp t.clientIp

/-- a session that does not exist -/
theorem exec_unknown {now : Time} {db : Db} {t : OutcomeTask} {id : Uuid} (hp : t.point = .read)
    (hid : Uuid.ofText t.request.sessionId = some id) (hnone : ∀ r ∈ db.sessions, r.id ≠ id) :
    t.exec now P db = .ok (.none, .refused unknownSession) := by
  unfold exec
  rw [hp]
  dsimp only
  rw [findByIdUnscoped_unknown P hid hnone]

/-- the turn that reads the row of a session that was attested, for anybody but the attester -/
theorem exec_other {now : Time} {db : Db} {t : OutcomeTask} {r : AttestationSession}
    (hr : r ∈ db.sessions) (h : t.Asks r) (hip : r.attestationIp ≠ none) (ha : ¬ t.Attester P r) :
    t.exec now P db = .ok (.none, .refused unknownSession) := by
  obtain ⟨ip, hip⟩ := Option.ne_none_iff_exists'.mp hip
  have hne : normaliseIp (P.inetHost ip) ≠ normaliseIp t.clientIp := fun he => ha ⟨ip, hip, he⟩
  have hcolumn : (r.columns P).attestationIp = some (P.inetHost ip) := by
    show r.attestationIp.map P.inetHost = _
    rw [hip]
    rfl
  unfold exec
  rw [h.point]
  dsimp only
  rw [findByIdUnscoped_of_mem P hr h.session]
  dsimp only
  rw [hcolumn, if_pos (by simpa using hne)]

/-- the turn that reads the row of a session that was never attested, for anybody -/
theorem exec_unattested {now : Time} {db : Db} {t : OutcomeTask} {r : AttestationSession}
    (hr : r ∈ db.sessions) (h : t.Asks r) (hip : r.attestationIp = none) :
    t.exec now P db = .ok (.none, if r.verdictDecision ≠ .pending
      then .answered (toVerdict (r.columns P)) else .check) := by
  have hcolumn : (r.columns P).attestationIp = none := by
    show r.attestationIp.map P.inetHost = _
    rw [hip]
    rfl
  unfold exec
  rw [h.point]
  dsimp only
  rw [findByIdUnscoped_of_mem P hr h.session]
  dsimp only
  rw [hcolumn, if_neg (by simp)]
  show (if r.verdictDecision ≠ .pending then _ else _) = _
  split
  · rfl
  · rfl

end OutcomeTask

/-! ## the claim on the outcome -/

/-- only the attester learns the outcome of the session -/
structure OnlyAttester (P : Platform) (s : System) (r : AttestationSession) : Prop where
  verdict : ∀ (t : OutcomeTask) w v, t.Asks r → t.exec s.now P s.db = .ok (w, .answered v) →
    t.Attester P r
  /-- the answer about a session that does not exist -/
  other : ∀ t : OutcomeTask, t.Asks r → ¬ t.Attester P r →
    t.exec s.now P s.db = .ok (.none, .refused OutcomeTask.unknownSession)

/-- a request about the session from some address -/
def OutcomeTask.from (r : AttestationSession) (clientIp : String) : OutcomeTask :=
  ⟨⟨r.id.toText, 0, protocolVersion⟩, clientIp, 0, .read⟩

/-- **Only the attesting address learns the outcome** of exactly the sessions that were attested; a
verdict without an attestation is that of a poll that timed out. -/
theorem outcome_only_attester (h : Reachable P s) : ∀ r ∈ s.db.sessions,
    (OnlyAttester P s r ↔ r.attestationIp ≠ none) ∧
    (r.attestationIp = none → r.verdictDecision ≠ .pending →
      ∃ pid q auth deadline session v, s.task pid = some (.verdict q) ∧
        q.point = .timedOut auth deadline session v ∧ session.id = r.id) ∧
    ∀ (t : OutcomeTask) id, t.point = .read → Uuid.ofText t.request.sessionId = some id →
      (∀ x ∈ s.db.sessions, x.id ≠ id) →
      t.exec s.now P s.db = .ok (.none, .refused OutcomeTask.unknownSession) := by
  intro r hr
  refine ⟨⟨fun honly hip => ?_, fun hip => ?_⟩, fun hip hd => ?_, fun t id => OutcomeTask.exec_unknown⟩
  · -- anybody is told the verdict, or that there is none yet
    have hasks : (OutcomeTask.from r "").Asks r := ⟨rfl, Uuid.ofText_toText r.id⟩
    have hnot : ¬ (OutcomeTask.from r "").Attester P r := by
      rintro ⟨ip, hsome, _⟩
      rw [hip] at hsome
      cases hsome
    have hexec := honly.other _ hasks hnot
    rw [OutcomeTask.exec_unattested hr hasks hip] at hexec
    split at hexec
    · cases hexec
    · cases hexec
  · refine ⟨fun t w v ht hexec => ?_, fun t ht ha => OutcomeTask.exec_other hr ht hip ha⟩
    by_contra ha
    rw [OutcomeTask.exec_other hr ht hip ha] at hexec
    cases hexec
  · cases (h.judged r hr).source with
    | undecided h0 => exact absurd h0 hd
    | timeout pid q auth deadline session v ht hp hid _ =>
      exact ⟨pid, q, auth, deadline, session, v, ht, hp, hid⟩
    | attestation pid a session ba outcome ack ht hp hid _ =>
      have hout : a.point.outcome? = some (session, ba, outcome) := by
        rw [hp]
        rfl
      have hclaim := claim?_of_consumed h.losers ht (AttestPoint.session?_of_outcome hout).2
      obtain ⟨x, hx, hof⟩ := h.redemption.claimed pid _ hclaim
      obtain rfl := Db.eq_of_id hx hr (hof.id.symm.trans hid)
      obtain ⟨ip, _, hrow⟩ := hof.attestationIp
      rw [hip] at hrow
      cases hrow

open Deployment in
/-- a session that was attested -/
theorem outcome_only_attester_attested : ∃ s, after .fail_open (issue ++ attest []) = some s ∧
    (∃ r ∈ s.db.sessions, r.verdictDecision = .allow) ∧
    ∀ r ∈ s.db.sessions, OnlyAttester platform s r := by
  obtain ⟨s, hs, _, hdb⟩ := attested .fail_open
  refine ⟨s, hs, ⟨admittedRow, ?_, rfl⟩, fun r hr => ?_⟩
  · rw [hdb]
    exact List.mem_singleton_self _
  · refine (outcome_only_attester (reachable_after hs) r hr).1.mpr ?_
    rw [hdb] at hr
    rw [List.mem_singleton.mp hr]
    exact fun h => (by cases h)

open Deployment in
/-- a poll of the server timed out, nothing was ever attested, and the verdict goes to any address -/
theorem outcome_unattested : ¬ ∀ s, Reachable platform s → ∀ r ∈ s.db.sessions,
    OnlyAttester platform s r := by
  intro h
  obtain ⟨s, hs, hfacts⟩ := (Option.any_eq_true _ _).mp (show (after .fail_closed (issue ++
    pollToDeadline)).any (fun s => decide (∃ r ∈ s.db.sessions.rows, r.attestationIp = none ∧
      r.verdictDecision = .deny)) = true by decide +kernel)
  obtain ⟨r, hr, hip, hdeny⟩ := of_decide_eq_true hfacts
  have hasks : (OutcomeTask.from r "198.51.100.7").Asks r := ⟨rfl, Uuid.ofText_toText r.id⟩
  have hexec : (OutcomeTask.from r "198.51.100.7").exec s.now platform s.db = .ok (.none,
      if r.verdictDecision ≠ .pending then .answered (toVerdict (r.columns platform))
      else .check) := OutcomeTask.exec_unattested hr hasks hip
  rw [if_pos (by rw [hdeny]; decide)] at hexec
  obtain ⟨ip, hsome, _⟩ := (h s (reachable_after hs) r hr).verdict _ _ _ hasks hexec
  rw [hip] at hsome
  cases hsome

end Backend
