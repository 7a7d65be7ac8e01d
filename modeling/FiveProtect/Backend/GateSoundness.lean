import FiveProtect.Backend.Redemption

/-!
# Gate soundness

Why a row says `allow`.  Two statements write the verdict of a row, and both overwrite what was
there: the `recordVerdict` of an attestation and the one of a poll that timed out.  The invariants
keep, for every request on its way to either, what it has established (`Evaluated`, `Polled`), and
for every row the request its verdict comes from (`Judged`).
-/

namespace Backend
open Protocol Function

variable {P : Platform} {s s' : System}

theorem Move.frame (h : Move P s s') :
    s'.db.tenants = s.db.tenants ∧ s'.db.builds = s.db.builds := by
  obtain ⟨w, hw⟩ := h.exists_write
  exact Write.exec_frame hw

/-- a row of the state before, in the state after -/
theorem Move.row (h : Move P s s') {r : AttestationSession} (hr : r ∈ s.db.sessions) :
    ∃ r' ∈ s'.db.sessions, r'.fixed = r.fixed := by
  obtain ⟨w, hw⟩ := h.exists_write
  exact ⟨_, (Write.mem_sessions hw).mpr (.inl ⟨r, hr, rfl⟩), Write.onSession_fixed _ _ _⟩

/-! ## attestations on their way to a verdict -/

/-- what `isBuildAccepted` returned to a request, once it has -/
def AttestPoint.buildAccepted? : AttestPoint → Option (SessionRow × Bool)
  | .evaluatePolicy session buildAccepted => some (session, buildAccepted)
  | .recordVerdict session buildAccepted _ => some (session, buildAccepted)
  | .accepted session buildAccepted _ _ => some (session, buildAccepted)
  | _ => none

/-- what `evaluatePolicy` returned to a request, once it has -/
def AttestPoint.outcome? : AttestPoint → Option (SessionRow × Bool × PolicyOutcome)
  | .recordVerdict session buildAccepted outcome => some (session, buildAccepted, outcome)
  | .accepted session buildAccepted outcome _ => some (session, buildAccepted, outcome)
  | _ => none

structure Evaluated (db : Db) (a : AttestTask) : Prop where
  build : ∀ session buildAccepted, a.point.buildAccepted? = some (session, buildAccepted) →
    buildAccepted = isBuildAccepted db a.request.snapshot.companionBuildHash
  outcome : ∀ session buildAccepted outcome,
    a.point.outcome? = some (session, buildAccepted, outcome) →
    buildAccepted = isBuildAccepted db a.request.snapshot.companionBuildHash ∧
      outcome = evaluatePolicy (a.policyInput session buildAccepted)

theorem Evaluated.turn {now : Time} {uuid : Uuid} {db : Db} {w : Write} {a : AttestTask}
    {pt : AttestPoint} (hi : Evaluated db a) (h : a.Turn P now uuid db w pt) :
    Evaluated db { a with point := pt } := by
  cases h with
  | lookedUp hp =>
    refine ⟨fun _ _ he => ?_, fun _ _ _ he => by cases he⟩
    cases he
    rfl
  | evaluated hp =>
    have hb := hi.build _ _ (by rw [hp]; rfl)
    refine ⟨fun _ _ he => ?_, fun _ _ _ he => ?_⟩
    · cases he
      exact hb
    · cases he
      exact ⟨hb, rfl⟩
  | recorded hp | accepted hp =>
    have ho := hi.outcome _ _ _ (by rw [hp]; rfl)
    refine ⟨fun _ _ he => ?_, fun _ _ _ he => ?_⟩
    · cases he
      exact ho.1
    · cases he
      exact ho
  | claimed | unclaimed | classified | stored | rejected =>
    exact ⟨fun _ _ he => (by cases he), fun _ _ _ he => (by cases he)⟩

theorem isBuildAccepted_congr {db db' : Db} (h : db'.builds = db.builds) (hash : String) :
    isBuildAccepted db' hash = isBuildAccepted db hash := by
  rw [isBuildAccepted, h, isBuildAccepted]

theorem Evaluated.congr {db db' : Db} {a : AttestTask} (h : db'.builds = db.builds)
    (hi : Evaluated db a) : Evaluated db' a := by
  refine ⟨?_, ?_⟩
  · rw [isBuildAccepted_congr h]
    exact hi.build
  · rw [isBuildAccepted_congr h]
    exact hi.outcome

/-! ## polls on their way to a timeout -/

/-- the session of a poll is a row of the tenant -/
def Owns (db : Db) (auth : AuthenticatedServer) (session : SessionRow) : Prop :=
  ∃ r ∈ db.sessions, r.id = session.id ∧ r.tenantId = auth.tenant.id

/-- what a poll has established at each of its points -/
def Polled (now : Time) (db : Db) : VerdictPoint → Prop
  | .read auth _ _ => auth.tenant ∈ db.tenants
  | .check auth _ _ session => auth.tenant ∈ db.tenants ∧ Owns db auth session
  | .sleep auth _ _ _ => auth.tenant ∈ db.tenants
  | .write auth deadline session v => auth.tenant ∈ db.tenants ∧ Owns db auth session ∧
      deadline ≤ now ∧ ∃ t, deadline ≤ t ∧ t ≤ now ∧
        v = timeoutVerdict session auth.tenant.failMode t
  | .timedOut auth deadline session v => auth.tenant ∈ db.tenants ∧ Owns db auth session ∧
      deadline ≤ now ∧ ∃ t, deadline ≤ t ∧ t ≤ now ∧
        v = timeoutVerdict session auth.tenant.failMode t
  | _ => True

theorem Owns.move (hm : Move P s s') {auth : AuthenticatedServer} {session : SessionRow}
    (h : Owns s.db auth session) : Owns s'.db auth session := by
  obtain ⟨r, hr, hid, ht⟩ := h
  obtain ⟨r', hr', hfixed⟩ := hm.row hr
  exact ⟨r', hr', (congrArg (·.1) hfixed).trans hid, (congrArg (·.2.1) hfixed).trans ht⟩

/-- a poll that stays where it is keeps what it knows -/
theorem Polled.move (hm : Move P s s') {pt : VerdictPoint} (h : Polled s.now s.db pt) :
    Polled s'.now s'.db pt := by
  have htenants := hm.frame.1
  have hle := hm.now_le
  cases pt with
  | read | sleep =>
    simp only [Polled] at h ⊢
    rwa [htenants]
  | check auth nonce deadline session =>
    simp only [Polled] at h ⊢
    rw [htenants]
    exact ⟨h.1, h.2.move hm⟩
  | write auth deadline session v | timedOut auth deadline session v =>
    simp only [Polled] at h ⊢
    obtain ⟨htenant, howns, hd, t, hdt, ht, hv⟩ := h
    rw [htenants]
    exact ⟨htenant, howns.move hm, hd.trans hle, t, hdt, ht.trans hle, hv⟩
  | auth | answered | refused => exact trivial

theorem Polled.turn {now : Time} {db : Db} {w : Write} {q : VerdictTask} {pt : VerdictPoint}
    (h : Polled now db q.point) (ht : q.Turn P now db w pt) : Polled now db pt := by
  cases ht with
  | unauthorized | malformed | unknown | decided | answered | refused => exact trivial
  | authorized _ ha _ => exact (mem_of_requireServer ha).1
  | undecided hp hf _ =>
    rw [hp] at h
    obtain ⟨r, hr, rfl, _, htenant⟩ := findByNonce_some P hf
    exact ⟨h, r, hr, rfl, htenant⟩
  | overdue hp hd =>
    rw [hp] at h
    exact ⟨h.1, h.2, hd, now, hd, le_refl now, rfl⟩
  | early hp _ | awake hp =>
    rw [hp] at h
    first | exact h.1 | exact h
  | recorded hp | timedOut hp =>
    rw [hp] at h
    exact h

/-- every request knows what it should -/
structure Established (s : System) : Prop where
  attest : ∀ pid a, s.task pid = some (.attest a) → Evaluated s.db a
  verdict : ∀ pid q, s.task pid = some (.verdict q) → Polled s.now s.db q.point

theorem Established.initial (h : s.Initial) : Established s := by
  have htask : ∀ pid, s.task pid = none := fun pid => by
    rw [System.task, h.procs]
    rfl
  refine ⟨fun pid _ ht => ?_, fun pid _ ht => ?_⟩ <;>
  · rw [htask] at ht
    cases ht

theorem Established.move (hi : Established s) (h : Move P s s') : Established s' := by
  refine ⟨?_, ?_⟩
  · intro pid a ht
    obtain hsame | ⟨hp, _⟩ | ⟨uuid, w, b, pt, ht₀, rfl, hturn, _⟩ := h.of_attest ht
    · exact (hi.attest pid a hsame).congr h.frame.2
    · refine ⟨fun _ _ he => ?_, fun _ _ _ he => ?_⟩ <;>
      · rw [hp] at he
        cases he
    · exact ((hi.attest pid b ht₀).turn hturn).congr h.frame.2
  · intro pid q ht
    obtain hsame | ⟨hp, _⟩ | ⟨w, b, pt, ht₀, rfl, hturn, _⟩ := h.of_verdict ht
    · exact (hi.verdict pid q hsame).move h
    · rw [hp]
      exact trivial
    · exact ((hi.verdict pid b ht₀).turn hturn).move h

theorem Reachable.established (h : Reachable P s) : Established s :=
  h.inv _ (fun _ => Established.initial) fun _ _ => Established.move

/-! ## where a verdict comes from -/

/-- an attestation that has recorded its verdict stays as it is -/
theorem Move.accepted_mono (h : Move P s s') {pid : Nat} {a : AttestTask} {session : SessionRow}
    {buildAccepted : Bool} {outcome : PolicyOutcome} {ack : AttestationAck}
    (ht : s.task pid = some (.attest a))
    (hp : a.point = .accepted session buildAccepted outcome ack) :
    s'.task pid = some (.attest a) := by
  obtain hsame | ⟨uuid, w, t', hexec, _, ht'⟩ := h.task_some ht
  · exact hsame
  · obtain ⟨pt, rfl, hturn⟩ := Task.exec_attest hexec
    rw [ht']
    cases hturn with
    | accepted hp' => rw [← hp']
    | _ =>
      rename_i hp'
      simp_all

/-- so does a poll that has recorded its timeout -/
theorem Move.timedOut_mono (h : Move P s s') {pid : Nat} {q : VerdictTask}
    {auth : AuthenticatedServer} {deadline : Time} {session : SessionRow} {v : Verdict}
    (ht : s.task pid = some (.verdict q)) (hp : q.point = .timedOut auth deadline session v) :
    s'.task pid = some (.verdict q) := by
  obtain hsame | ⟨uuid, w, t', hexec, _, ht'⟩ := h.task_some ht
  · exact hsame
  · obtain ⟨pt, rfl, hturn⟩ := Task.exec_verdict hexec
    rw [ht']
    cases hturn with
    | timedOut hp' => rw [← hp']
    | _ =>
      rename_i hp'
      simp_all

/-- the request the verdict of a row comes from -/
inductive Source (s : System) (r : AttestationSession) : Prop
  | undecided (h : r.verdictDecision = .pending)
  | attestation (pid : Nat) (a : AttestTask) (session : SessionRow) (buildAccepted : Bool)
      (outcome : PolicyOutcome) (ack : AttestationAck) (ht : s.task pid = some (.attest a))
      (hp : a.point = .accepted session buildAccepted outcome ack) (hid : session.id = r.id)
      (hv : r.verdict = outcome.update.verdict)
  | timeout (pid : Nat) (q : VerdictTask) (auth : AuthenticatedServer) (deadline : Time)
      (session : SessionRow) (v : Verdict) (ht : s.task pid = some (.verdict q))
      (hp : q.point = .timedOut auth deadline session v) (hid : session.id = r.id)
      (hv : r.verdict = (timeoutUpdate v).verdict)

/-- a move that leaves id and verdict of a row alone leaves its source alone -/
theorem Source.move (hm : Move P s s') {r r' : AttestationSession} (h : Source s r)
    (hid : r'.id = r.id) (hv : r'.verdict = r.verdict) : Source s' r' := by
  cases h with
  | undecided h => exact .undecided ((congrArg (·.1) hv).trans h)
  | attestation pid a session buildAccepted outcome ack ht hp hid' hv' =>
    exact .attestation pid a session buildAccepted outcome ack (hm.accepted_mono ht hp) hp
      (hid'.trans hid.symm) (hv.trans hv')
  | timeout pid q auth deadline session v ht hp hid' hv' =>
    exact .timeout pid q auth deadline session v (hm.timedOut_mono ht hp) hp
      (hid'.trans hid.symm) (hv.trans hv')

structure Judged (s : System) (r : AttestationSession) : Prop where
  source : Source s r
  active : r.state = .active → r.verdictDecision = .allow ∧ r.lastHeartbeatAt ≠ none

theorem Judged.of_fresh {r : AttestationSession} (h : Fresh r) : Judged s r := by
  refine ⟨.undecided h.verdictDecision, fun hs => ?_⟩
  rw [h.state] at hs
  cases hs

/-- a statement that does not judge the row -/
theorem Judged.keep (hm : Move P s s') {r : AttestationSession} {w : Write} (h : Judged s r)
    (hv : (w.onSession s.now r).verdict = r.verdict)
    (hne : ∀ tenantId sessionId v, w = .recordVerdict tenantId sessionId v →
      ¬ (r.id = sessionId ∧ r.tenantId = tenantId)) : Judged s' (w.onSession s.now r) := by
  refine ⟨h.source.move hm (Write.onSession_id _ _ _) hv, fun hs => ?_⟩
  obtain ⟨hactive, _, hbeat⟩ | ⟨tenantId, sessionId, v, hw, hid, ht, _⟩ := Write.onSession_active hs
  · obtain ⟨hallow, hlast⟩ := h.active hactive
    exact ⟨(congrArg (·.1) hv).trans hallow, hbeat hlast⟩
  · exact absurd ⟨hid, ht⟩ (hne _ _ _ hw)

/-- a row that was just judged is active exactly if it was allowed, with a first heartbeat -/
theorem judge_active {now : Time} {v : VerdictUpdate} {r : AttestationSession}
    (h : (r.judge now v).state = .active) :
    (r.judge now v).verdictDecision = .allow ∧ (r.judge now v).lastHeartbeatAt ≠ none := by
  simp only [AttestationSession.judge] at h ⊢
  split at h
  · rename_i hallow
    rw [hallow]
    exact ⟨rfl, Option.some_ne_none _⟩
  · cases h

theorem Judged.move (hi : ∀ r ∈ s.db.sessions, Judged s r) (h : Move P s s') :
    ∀ r ∈ s'.db.sessions, Judged s' r := by
  intro r' hr'
  obtain ⟨w, hw, hissue⟩ := h.write
  obtain ⟨r, hr, rfl⟩ | hins := (Write.mem_sessions hw).mp hr'
  · by_cases hjudged : ∃ v, w = .recordVerdict r.tenantId r.id v
    · obtain ⟨v, rfl⟩ := hjudged
      obtain h0 | h0 | ⟨pid, uuid, t, t', ht, hexec, _, htask⟩ := hissue
      · cases h0
      · cases h0
      have hrow : (Write.recordVerdict r.tenantId r.id v).onSession s.now r = r.judge s.now v :=
        if_pos ⟨rfl, rfl⟩
      rw [hrow]
      refine ⟨?_, judge_active⟩
      obtain ⟨a, session, ba, outcome, rfl, hp, _, hid, rfl, rfl⟩ |
        ⟨q, auth, deadline, session, verdict, rfl, hp, _, hid, rfl, rfl⟩ :=
        Task.exec_recordVerdict hexec
      · exact .attestation pid _ session ba outcome _ (by rw [htask, update_self]) rfl hid.symm rfl
      · exact .timeout pid _ auth deadline session verdict (by rw [htask, update_self]) rfl
          hid.symm rfl
    · refine (hi r hr).keep h ?_ ?_
      · by_cases hc : ∃ tenantId sessionId v, w = .recordVerdict tenantId sessionId v
        · obtain ⟨tenantId, sessionId, v, rfl⟩ := hc
          have hne : ¬ (r.id = sessionId ∧ r.tenantId = tenantId) := by
            rintro ⟨rfl, rfl⟩
            exact hjudged ⟨v, rfl⟩
          rw [show (Write.recordVerdict tenantId sessionId v).onSession s.now r = r from if_neg hne]
        · exact Write.onSession_verdict fun t i v he => hc ⟨t, i, v, he⟩
      · rintro _ _ v rfl ⟨rfl, rfl⟩
        exact hjudged ⟨v, rfl⟩
  · exact .of_fresh (Move.newSession_fresh hissue hins)

theorem Reachable.judged (h : Reachable P s) : ∀ r ∈ s.db.sessions, Judged s r := by
  refine h.inv (fun s => ∀ r ∈ s.db.sessions, Judged s r) (fun s h0 r hr => ?_)
    fun _ _ hi hm => Judged.move hi hm
  rw [h0.sessions] at hr
  exact absurd hr (Table.not_mem_empty r)

/-! ## the claim on the gate -/

/-- the request `pid` is an attestation that consumed the nonce of the row -/
def ConsumedBy (s : System) (r : AttestationSession) (pid : Nat) (a : AttestTask) : Prop :=
  s.task pid = some (.attest a) ∧
    ∃ session, a.point.consumeResult? = some (.consumed session) ∧ session.id = r.id

structure GateSound (P : Platform) (s : System) (r : AttestationSession) : Prop where
  /-- an attestation, the only one, evaluated to `allow` on the columns of the row -/
  attested : r.verdictDecision = .allow → r.failOpen = false → r.consumedAt ≠ none ∧
    ∃ pid a, ConsumedBy s r pid a ∧ (∀ q b, ConsumedBy s r q b → q = pid) ∧
      r.attestationIp = P.inetIn a.clientIp ∧
      isBuildAccepted s.db a.request.snapshot.companionBuildHash = true ∧
      ∃ session outcome, a.point.outcome? = some (session, true, outcome) ∧
        outcome.decision = .allow ∧ outcome = evaluatePolicy
          { tier := r.policyTier
            snapshot := a.request.snapshot
            gameIp := P.inetHost r.gameIp
            attestationIp := a.clientIp
            buildAccepted := true }
  /-- a poll ran into its deadline and the tenant admits players then -/
  timedOut : r.verdictDecision = .allow → r.failOpen = true →
    ∃ pid q auth deadline session v, s.task pid = some (.verdict q) ∧
      q.point = .timedOut auth deadline session v ∧ session.id = r.id ∧ deadline ≤ s.now ∧
      auth.tenant ∈ s.db.tenants ∧ auth.tenant.id = r.tenantId ∧
      auth.tenant.failMode = .fail_open
  active : r.state = .active → r.verdictDecision = .allow ∧ r.lastHeartbeatAt ≠ none

theorem decision_verdict_allow {d : Decision} (h : d.verdict = .allow) : d = .allow := by
  cases d with
  | allow => rfl
  | deny => cases h

theorem decision_verdict_ne_pending (d : Decision) : d.verdict ≠ .pending := by
  cases d <;> decide

/-- the claim of an attestation that has evaluated -/
theorem AttestPoint.session?_of_outcome {pt : AttestPoint} {session : SessionRow}
    {buildAccepted : Bool} {outcome : PolicyOutcome}
    (h : pt.outcome? = some (session, buildAccepted, outcome)) :
    pt.session? = some session ∧ pt.consumeResult? = some (.consumed session) := by
  cases pt with
  | recordVerdict | accepted =>
    cases h
    exact ⟨rfl, rfl⟩
  | _ => cases h

/-- what a timeout may write, by fail mode -/
theorem timeoutUpdate_allow {session : SessionRow} {failMode : FailMode} {t : Time}
    (h : (timeoutUpdate (timeoutVerdict session failMode t)).decision = .allow) :
    failMode = .fail_open ∧
      (timeoutUpdate (timeoutVerdict session failMode t)).failOpen = true := by
  cases failMode with
  | fail_open => exact ⟨rfl, rfl⟩
  | fail_closed => cases h

/-- **Gate soundness.** -/
theorem gate_sound (h : Reachable P s) : ∀ r ∈ s.db.sessions, GateSound P s r := by
  intro r hr
  have hred := h.redemption
  have hest := h.established
  have hlose := h.losers
  obtain ⟨hsource, hactive⟩ := h.judged r hr
  refine ⟨fun hallow hopen => ?_, fun hallow hopen => ?_, hactive⟩
  · cases hsource with
    | undecided h0 =>
      rw [h0] at hallow
      cases hallow
    | timeout pid q auth deadline session v ht hp hid hv =>
      -- a timeout that allows is marked
      obtain ⟨_, _, _, t, _, _, rfl⟩ := (congrArg (Polled s.now s.db) hp).mp (hest.verdict pid q ht)
      have hd := decision_verdict_allow ((congrArg (·.1) hv).symm.trans hallow)
      have hmark : r.failOpen = true :=
        (congrArg (·.2.2.2.2) hv).trans (timeoutUpdate_allow hd).2
      rw [hopen] at hmark
      cases hmark
    | attestation pid a session ba outcome ack ht hp hid hv =>
      have hout : a.point.outcome? = some (session, ba, outcome) := by
        rw [hp]
        rfl
      obtain ⟨hs, hcons⟩ := AttestPoint.session?_of_outcome hout
      obtain ⟨hba, heval⟩ := (hest.attest pid a ht).outcome session ba outcome hout
      have hd : outcome.decision = .allow :=
        decision_verdict_allow ((congrArg (·.1) hv).symm.trans hallow)
      have hclaim := claim?_of_consumed hlose ht hcons
      obtain ⟨x, hx, hof⟩ := hred.claimed pid _ hclaim
      have hxr : x = r := Db.eq_of_id hx hr (hof.id.symm.trans hid)
      subst hxr
      have hbuild : ba = true := by
        rw [heval] at hd
        exact buildAccepted_of_allow hd
      subst hbuild
      refine ⟨hof.consumed, pid, a, ⟨ht, session, hcons, hid⟩, ?_, ?_, hba.symm, session, outcome,
        hout, hd, ?_⟩
      · rintro q b ⟨hq, session', hcons', hid'⟩
        exact hred.unique q pid _ _ (claim?_of_consumed hlose hq hcons') hclaim
          (hid'.trans hid.symm)
      · obtain ⟨ip, hin, hrow⟩ := hof.attestationIp
        rw [hrow]
        exact hin.symm
      · rw [heval, AttestTask.policyInput, hof.policyTier, hof.gameIp]
  · cases hsource with
    | undecided h0 =>
      rw [h0] at hallow
      cases hallow
    | attestation pid a session ba outcome ack ht hp hid hv =>
      have hmark : r.failOpen = false := congrArg (·.2.2.2.2) hv
      rw [hopen] at hmark
      cases hmark
    | timeout pid q auth deadline session v ht hp hid hv =>
      obtain ⟨htenant, ⟨x, hx, hxid, hxt⟩, hdl, t, _, _, rfl⟩ :=
        (congrArg (Polled s.now s.db) hp).mp (hest.verdict pid q ht)
      have hd := decision_verdict_allow ((congrArg (·.1) hv).symm.trans hallow)
      have hxr : x = r := Db.eq_of_id hx hr (hxid.trans hid)
      subst hxr
      exact ⟨pid, q, auth, deadline, session, _, ht, hp, hid, hdl, htenant, hxt.symm,
        (timeoutUpdate_allow hd).1⟩

open Deployment in
/-- a player who is admitted after an attestation -/
theorem gate_sound_admitted : ∃ s, after .fail_open (issue ++ attest []) = some s ∧
    (∃ r ∈ s.db.sessions, r.verdictDecision = .allow ∧ r.failOpen = false ∧ r.state = .active) ∧
    ∀ r ∈ s.db.sessions, GateSound platform s r := by
  obtain ⟨s, hs, _, hdb⟩ := attested .fail_open
  refine ⟨s, hs, ⟨admittedRow, ?_, rfl, rfl, rfl⟩, gate_sound (reachable_after hs)⟩
  rw [hdb]
  exact List.mem_singleton_self _

end Backend
