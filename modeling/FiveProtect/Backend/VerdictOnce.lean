import FiveProtect.Backend.GateSoundness

/-!
# A verdict is written once

`recordVerdict` overwrites whatever verdict the row has.  An attestation and a poll that times out
can both reach it, so a verdict that was answered may be replaced by one of the other kind.

* `ruling`           decision, reasons and fail-open mark, of a row or of an answer;
* `Unraced`          the condition on a step: no `recordVerdict` meets a verdict of the other kind;
* `Agreed`           every answer agrees with its row, kept by unraced steps;
* `VerdictFinal G`   the claim, over runs whose steps meet `G`.
-/

namespace Backend
open Protocol Function

variable {P : Platform} {s s' : System}

/-! ## rulings -/

/-- decision, reasons and fail-open mark of a row -/
def AttestationSession.ruling (r : AttestationSession) : VerdictDecision × List DenyReason × Bool :=
  (r.verdictDecision, r.verdictReasons, r.failOpen)

/-- the same of an answer -/
def ruling (v : Verdict) : VerdictDecision × List DenyReason × Bool :=
  (v.decision, v.reasons, v.failOpen)

theorem AttestationSession.ruling_of_verdict {r x : AttestationSession}
    (h : r.verdict = x.verdict) : r.ruling = x.ruling := by
  unfold ruling
  rw [show r.verdictDecision = x.verdictDecision from congrArg (·.1) h,
    show r.verdictReasons = x.verdictReasons from congrArg (·.2.1) h,
    show r.failOpen = x.failOpen from congrArg (·.2.2.2.2) h]

theorem ruling_toVerdict (r : AttestationSession) : ruling (toVerdict (r.columns P)) = r.ruling :=
  rfl

/-- a timeout writes what it answers -/
theorem judge_timeout_ruling (now t : Time) (r : AttestationSession) (session : SessionRow)
    (failMode : FailMode) :
    (r.judge now (timeoutUpdate (timeoutVerdict session failMode t))).ruling =
      ruling (timeoutVerdict session failMode t) := by
  cases failMode <;> rfl

theorem timeoutVerdict_ruling (session session' : SessionRow) (failMode : FailMode) (t t' : Time) :
    ruling (timeoutVerdict session failMode t) = ruling (timeoutVerdict session' failMode t') := by
  cases failMode <;> rfl

theorem timeoutVerdict_decided (session : SessionRow) (failMode : FailMode) (t : Time) :
    (timeoutVerdict session failMode t).decision ≠ .pending ∧
      (timeoutVerdict session failMode t).sessionId = session.id := by
  cases failMode <;> exact ⟨nofun, rfl⟩

/-! ## answers -/

/-- the verdict a request has answered -/
def Task.verdict? : Task → Option Verdict
  | .verdict t => match t.point with
    | .timedOut _ _ _ v => some v
    | .answered v => some v
    | _ => none
  | .outcome t => match t.point with
    | .answered v => some v
    | _ => none
  | _ => none

theorem System.verdict?_of_response {pid : Nat} {v : Verdict}
    (h : s.response pid = some (.verdict v)) : ∃ t, s.task pid = some t ∧ t.verdict? = some v := by
  obtain ⟨p, hp, hv⟩ := Option.bind_eq_some_iff.mp h
  refine ⟨p.task, System.task_of_proc hp, ?_⟩
  unfold Proc.response at hv
  split at hv
  · cases hv
  · cases ht : p.task with
    | verdict t | outcome t =>
      rw [ht] at hv
      simp only [Task.response] at hv
      simp only [Task.verdict?]
      split at hv <;> simp_all
    | nonce t | liveness t | pending t | attest t | heartbeat t =>
      rw [ht] at hv
      simp only [Task.response] at hv
      split at hv <;> simp at hv
    | refused e =>
      rw [ht] at hv
      cases hv

theorem OutcomeTask.exec_answered {now : Time} {db : Db} {w : Write} {t : OutcomeTask}
    {v : Verdict} (h : t.exec now P db = .ok (w, .answered v)) : t.point = .answered v ∨
      ∃ r ∈ db.sessions, r.verdictDecision ≠ .pending ∧ v = toVerdict (r.columns P) := by
  unfold exec at h
  split at h
  · split at h
    · cases h
    · cases h
    · rename_i session hf
      obtain ⟨r, hr, rfl, _⟩ := findByIdUnscoped_some P hf
      split at h
      · cases h
      · split at h
        · rename_i hd
          cases h
          exact .inr ⟨r, hr, hd, rfl⟩
        · cases h
  · split at h <;> cases h
  · cases h
  · rename_i hp
    cases h
    exact .inl hp
  · cases h
  · cases h

/-- an answer was there before, is the verdict of a decided row, or a timeout just written -/
theorem Task.exec_verdict? {now : Time} {uuid : Uuid} {db : Db} {w : Write} {t t' : Task}
    {v : Verdict} (h : t.exec P now uuid db = .ok (w, t')) (hv : t'.verdict? = some v) :
    t.verdict? = some v ∨
      (∃ r ∈ db.sessions, r.verdictDecision ≠ .pending ∧ w = .none ∧
        v = toVerdict (r.columns P)) ∨
      ∃ q auth deadline session, t = .verdict q ∧ q.point = .write auth deadline session v ∧
        w = .recordVerdict auth.tenant.id session.id (timeoutUpdate v) := by
  cases t with
  | verdict q =>
    obtain ⟨pt, rfl, hturn⟩ := Task.exec_verdict h
    cases hturn with
    | @decided auth nonce deadline session hp hf hd =>
      cases hv
      obtain ⟨r, hr, rfl, _⟩ := findByNonce_some P hf
      exact .inr (.inl ⟨r, hr, hd, rfl, rfl⟩)
    | @recorded auth deadline session u hp =>
      cases hv
      exact .inr (.inr ⟨q, auth, deadline, session, rfl, hp, rfl⟩)
    | timedOut hp | answered hp =>
      left
      rw [Task.verdict?, hp]
      exact hv
    | unauthorized | malformed | authorized | unknown | undecided | overdue | early | awake
    | refused => cases hv
  | outcome t =>
    obtain ⟨⟨w', pt⟩, hx, he⟩ := map_ok h
    cases he
    have hpt : pt = .answered v := by
      cases pt <;> simp_all [Task.verdict?]
    subst hpt
    have hw := OutcomeTask.exec_write hx
    obtain hp | ⟨r, hr, hd, rfl⟩ := OutcomeTask.exec_answered hx
    · left
      rw [Task.verdict?, hp]
    · exact .inr (.inl ⟨r, hr, hd, hw, rfl⟩)
  | attest a =>
    obtain ⟨pt, rfl, _⟩ := Task.exec_attest h
    cases hv
  | nonce n =>
    obtain ⟨pt, rfl, _⟩ := Task.exec_nonce h
    cases hv
  | refused e =>
    cases h
    cases hv
  | liveness t | pending t | heartbeat t =>
    obtain ⟨_, _, he⟩ := map_ok h
    cases he
    cases hv

/-! ## stored decisions -/

/-- decisions that are stored in `s` stay, in particular a deny of an attestation -/
def StoredFinal (s s' : System) : Prop :=
  ∀ r ∈ s.db.sessions, r.verdictDecision ≠ .pending →
    ∃ r' ∈ s'.db.sessions, r'.id = r.id ∧ r'.ruling = r.ruling

theorem StoredFinal.refl (s : System) : StoredFinal s s := fun r hr _ => ⟨r, hr, rfl, rfl⟩

theorem StoredFinal.trans {a b c : System} (h : StoredFinal a b) (h' : StoredFinal b c) :
    StoredFinal a c := by
  intro r hr hd
  obtain ⟨x, hx, hid, hrul⟩ := h r hr hd
  have hdx : x.verdictDecision ≠ .pending := by
    rw [show x.verdictDecision = r.verdictDecision from congrArg (·.1) hrul]
    exact hd
  obtain ⟨y, hy, hid', hrul'⟩ := h' x hx hdx
  exact ⟨y, hy, hid'.trans hid, hrul'.trans hrul⟩

/-! ## the condition on a step -/

/-- the row carries the verdict of a timeout -/
def AttestationSession.timedOut (r : AttestationSession) : Bool :=
  r.failOpen || r.verdictReasons.contains .companion_timeout

/-- **No race.** A `recordVerdict` that the step commits does not meet a verdict of the other kind:
that of an attestation finds its row undecided, that of a timeout finds it undecided or timed
out. -/
structure Unraced (s : System) (e : Event) : Prop where
  attestation : ∀ pid a session buildAccepted outcome, e.commits? = some pid →
    s.task pid = some (.attest a) → a.point = .recordVerdict session buildAccepted outcome →
    ∀ r ∈ s.db.sessions, r.id = session.id → r.verdictDecision = .pending
  timeout : ∀ pid q auth deadline session v, e.commits? = some pid →
    s.task pid = some (.verdict q) → q.point = .write auth deadline session v →
    ∀ r ∈ s.db.sessions, r.id = session.id →
      r.verdictDecision = .pending ∨ r.timedOut = true

/-- an attestation never writes what a timeout writes -/
theorem not_timedOut_of_attestation {r : AttestationSession} {input : PolicyInput}
    (h : r.verdict = (evaluatePolicy input).update.verdict) : r.timedOut = false := by
  have hopen : r.failOpen = false := congrArg (·.2.2.2.2) h
  have hreasons : r.verdictReasons = (evaluatePolicy input).reasons := congrArg (·.2.1) h
  have hnot : DenyReason.companion_timeout ∉ r.verdictReasons := by
    intro hmem
    rw [hreasons] at hmem
    have := mem_evaluatePolicy_reasons input _ hmem
    simp at this
  simp [AttestationSession.timedOut, hopen, hnot]

/-- a tenant has one fail mode -/
theorem tenant_eq {db : Db} {t u : TenantRow} (ht : t ∈ db.tenants) (hu : u ∈ db.tenants)
    (h : t.id = u.id) : t = u :=
  db.tenants.eq_of_clash ht hu (by simp [Row.clash, Row.key, h])

/-- **What an unraced step leaves alone**: the ruling of every decided row. -/
theorem ruling_stays (h : Reachable P s) {e : Event} (hg : Unraced s e)
    (he : System.step P e s = some s') {r : AttestationSession} (hr : r ∈ s.db.sessions)
    (hd : r.verdictDecision ≠ .pending) :
    ∃ r' ∈ s'.db.sessions, r'.id = r.id ∧ r'.ruling = r.ruling := by
  obtain ⟨w, hw, hissue⟩ := System.step_write he
  refine ⟨_, (Write.mem_sessions hw).mpr (.inl ⟨r, hr, rfl⟩), Write.onSession_id _ _ _, ?_⟩
  by_cases hjudged : ∃ v, w = .recordVerdict r.tenantId r.id v
  · obtain ⟨v, rfl⟩ := hjudged
    obtain h0 | h0 | ⟨pid, uuid, t, t', hc, ht, hexec, htask⟩ := hissue
    · cases h0
    · cases h0
    have hrow : (Write.recordVerdict r.tenantId r.id v).onSession s.now r = r.judge s.now v :=
      if_pos ⟨rfl, rfl⟩
    rw [hrow]
    obtain ⟨a, session, ba, outcome, rfl, hp, _, hid, _, _⟩ |
      ⟨q, auth, deadline, session, verdict, rfl, hp, htid, hid, rfl, _⟩ :=
      Task.exec_recordVerdict hexec
    · exact absurd (hg.attestation pid a session ba outcome hc ht hp r hr hid) hd
    · -- a timeout on a decided row: that was a timeout too, with the same fail mode
      obtain hp0 | htimed := hg.timeout pid q auth deadline session verdict hc ht hp r hr hid
      · exact absurd hp0 hd
      obtain ⟨htenant, _, _, t₁, _, _, rfl⟩ :=
        (congrArg (Polled s.now s.db) hp).mp (h.established.verdict pid q ht)
      rw [judge_timeout_ruling]
      cases (h.judged r hr).source with
      | undecided h0 => exact absurd h0 hd
      | attestation p a ses ba outcome ack ht' hp' _ hv =>
        have hout := (h.established.attest p a ht').outcome ses ba outcome (by rw [hp']; rfl)
        rw [hout.2] at hv
        rw [not_timedOut_of_attestation hv] at htimed
        cases htimed
      | timeout p q' auth' dl' ses' v' ht' hp' hid' hv =>
        obtain ⟨htenant', ⟨x, hx, hxid, hxt⟩, _, t₂, _, _, rfl⟩ :=
          (congrArg (Polled s.now s.db) hp').mp (h.established.verdict p q' ht')
        have hxr : x = r := Db.eq_of_id hx hr (hxid.trans hid')
        have hsame : auth.tenant = auth'.tenant :=
          tenant_eq htenant htenant' (htid.symm.trans (hxr ▸ hxt))
        rw [hsame, timeoutVerdict_ruling session ses' _ t₁ t₂,
          ← judge_timeout_ruling s.now t₂ r ses' auth'.tenant.failMode]
        exact AttestationSession.ruling_of_verdict hv.symm
  · refine AttestationSession.ruling_of_verdict ?_
    by_cases hc : ∃ tenantId sessionId v, w = .recordVerdict tenantId sessionId v
    · obtain ⟨tenantId, sessionId, v, rfl⟩ := hc
      have hne : ¬ (r.id = sessionId ∧ r.tenantId = tenantId) := by
        rintro ⟨rfl, rfl⟩
        exact hjudged ⟨v, rfl⟩
      rw [show (Write.recordVerdict tenantId sessionId v).onSession s.now r = r from if_neg hne]
    · exact Write.onSession_verdict fun t i v he => hc ⟨t, i, v, he⟩

/-- a timeout writes a verdict of its kind -/
theorem judge_timedOut (now t : Time) (r : AttestationSession) (session : SessionRow)
    (failMode : FailMode) :
    (r.judge now (timeoutUpdate (timeoutVerdict session failMode t))).timedOut = true := by
  cases failMode <;> rfl

theorem timedOut_of_ruling {r x : AttestationSession} (h : r.ruling = x.ruling) :
    r.timedOut = x.timedOut := by
  unfold AttestationSession.timedOut
  rw [show r.verdictReasons = x.verdictReasons from congrArg (·.2.1) h,
    show r.failOpen = x.failOpen from congrArg (·.2.2) h]

theorem timedOut_of_timeout {r : AttestationSession} {session : SessionRow} {failMode : FailMode}
    {t : Time} (h : r.verdict = (timeoutUpdate (timeoutVerdict session failMode t)).verdict) :
    r.timedOut = true := by
  have hjudge : r.verdict = (r.judge t (timeoutUpdate (timeoutVerdict session failMode t))).verdict :=
    h
  rw [timedOut_of_ruling (AttestationSession.ruling_of_verdict hjudge)]
  exact judge_timedOut t t r session failMode

/-- a `recordVerdict` that a step commits, as the row sees it -/
theorem judged_by {pid : Nat} {t t' : Task} {tenantId sessionId : Uuid} {v : VerdictUpdate}
    {e : Event} (hc : e.commits? = some pid) (ht : s.task pid = some t)
    (hexec : ∀ uuid, t.exec P s.now uuid s.db = .ok (.recordVerdict tenantId sessionId v, t'))
    (he : System.step P e s = some s') {r : AttestationSession} (hr : r ∈ s.db.sessions)
    (hid : r.id = sessionId) (htid : r.tenantId = tenantId) :
    r.judge s.now v ∈ s'.db.sessions := by
  have hw : (Write.recordVerdict tenantId sessionId v).exec s.now s.db = .ok s'.db := by
    rw [(System.step_of_commits hc ht hexec rfl he).1]
    rfl
  exact (Write.mem_sessions hw).mpr (.inl ⟨r, hr, if_pos ⟨hid, htid⟩⟩)

/-- **A race changes a ruling**, so the condition is exact. -/
theorem unraced_of_stays (h : Reachable P s) {e : Event} (he : System.step P e s = some s')
    (hstay : StoredFinal s s') : Unraced s e := by
  refine ⟨?_, ?_⟩
  · intro pid a session ba outcome hc ht hp r hr hid
    by_contra hd
    have hout : a.point.outcome? = some (session, ba, outcome) := by
      rw [hp]
      rfl
    obtain ⟨_, heval⟩ := (h.established.attest pid a ht).outcome _ _ _ hout
    have hclaim := claim?_of_consumed h.losers ht (AttestPoint.session?_of_outcome hout).2
    obtain ⟨x, hx, hof⟩ := h.redemption.claimed pid _ hclaim
    have hxr : x = r := Db.eq_of_id hx hr (hof.id.symm.trans hid.symm)
    have hmem : r.judge s.now outcome.update ∈ s'.db.sessions :=
      judged_by hc ht (fun _ => Task.exec_of_recordVerdict hp) he hr hid (hxr ▸ hof.tenantId.symm)
    obtain ⟨r', hr', hid', hrul⟩ := hstay r hr hd
    have hsame : r' = r.judge s.now outcome.update := Db.eq_of_id hr' hmem hid'
    -- a verdict of an attestation was there: its request has the same claim, and is past this point
    cases (h.judged r hr).source with
    | undecided h0 => exact hd h0
    | attestation p b ses ba' out' ack ht' hp' hid'' _ =>
      have hcons := AttestPoint.session?_of_outcome
        (show b.point.outcome? = some (ses, ba', out') by rw [hp']; rfl)
      have hpid : p = pid := h.redemption.unique p pid _ _
        (claim?_of_consumed h.losers ht' hcons.2) hclaim (hid''.trans hid)
      subst hpid
      rw [ht] at ht'
      cases ht'
      rw [hp] at hp'
      cases hp'
    | timeout p q auth deadline ses v ht' hp' _ hv =>
      obtain ⟨_, _, _, t, _, _, rfl⟩ :=
        (congrArg (Polled s.now s.db) hp').mp (h.established.verdict p q ht')
      have htimed : r.timedOut = true := timedOut_of_timeout hv
      rw [← timedOut_of_ruling hrul, hsame, not_timedOut_of_attestation
        (show _ = (evaluatePolicy (a.policyInput session ba)).update.verdict by
          rw [← heval]; rfl)] at htimed
      cases htimed
  · intro pid q auth deadline session v hc ht hp r hr hid
    by_contra hnot
    obtain ⟨hd, hntimed⟩ := not_or.mp hnot
    obtain ⟨_, ⟨x, hx, hxid, hxt⟩, _, t, _, _, rfl⟩ :=
      (congrArg (Polled s.now s.db) hp).mp (h.established.verdict pid q ht)
    have hxr : x = r := Db.eq_of_id hx hr (hxid.trans hid.symm)
    have hmem := judged_by hc ht (fun _ => Task.exec_of_write hp) he hr hid (hxr ▸ hxt)
    obtain ⟨r', hr', hid', hrul⟩ := hstay r hr hd
    have hsame : r' = r.judge s.now (timeoutUpdate _) := Db.eq_of_id hr' hmem hid'
    refine hntimed ?_
    rw [← timedOut_of_ruling hrul, hsame]
    exact judge_timedOut _ _ _ _ _

/-! ## the claim on verdicts -/

/-- every answer is decided and agrees with its row -/
def Agreed (s : System) : Prop :=
  ∀ pid t v, s.task pid = some t → t.verdict? = some v → v.decision ≠ .pending ∧
    ∃ r ∈ s.db.sessions, r.id = v.sessionId ∧ r.ruling = ruling v

theorem Agreed.initial (h : s.Initial) : Agreed s := by
  intro pid t v ht
  rw [System.task, h.procs] at ht
  cases ht

theorem Request.verdict?_start (now : Time) (rq : Request) : (rq.start now).verdict? = none := by
  cases rq <;> simp only [Request.start]
  all_goals
    try split
    all_goals rfl

theorem Agreed.step (h : Reachable P s) (hi : Agreed s) {e : Event} (hg : Unraced s e)
    (he : System.step P e s = some s') : Agreed s' := by
  -- an answer that was there before
  have hold : ∀ v : Verdict, (v.decision ≠ .pending ∧
      ∃ r ∈ s.db.sessions, r.id = v.sessionId ∧ r.ruling = ruling v) →
      v.decision ≠ .pending ∧ ∃ r ∈ s'.db.sessions, r.id = v.sessionId ∧ r.ruling = ruling v := by
    rintro v ⟨hd, r, hr, hid, hrul⟩
    have hdr : r.verdictDecision ≠ .pending := by
      rw [show r.verdictDecision = v.decision from congrArg (·.1) hrul]
      exact hd
    obtain ⟨r', hr', hid', hrul'⟩ := ruling_stays h hg he hr hdr
    exact ⟨hd, r', hr', hid'.trans hid, hrul'.trans hrul⟩
  intro pid t' v ht' hv
  obtain hsame | ⟨rq, rfl, _⟩ | ⟨uuid, w, t, ht, hexec, hw, _, _⟩ :=
    (System.step_move he).of_task_some ht'
  · exact hold v (hi pid t' v hsame hv)
  · rw [Request.verdict?_start] at hv
    cases hv
  · obtain hbefore | ⟨r, hr, hd, rfl, rfl⟩ | ⟨q, auth, deadline, session, rfl, hp, rfl⟩ :=
      Task.exec_verdict? hexec hv
    · exact hold v (hi pid t v ht hbefore)
    · exact hold _ ⟨hd, r, hr, rfl, (ruling_toVerdict r).symm⟩
    · obtain ⟨_, ⟨r, hr, hid, htid⟩, _, t₁, _, _, rfl⟩ :=
        (congrArg (Polled s.now s.db) hp).mp (h.established.verdict pid q ht)
      obtain ⟨hdec, hses⟩ := timeoutVerdict_decided session auth.tenant.failMode t₁
      refine ⟨hdec, _, (Write.mem_sessions hw).mpr (.inl ⟨r, hr, rfl⟩), ?_, ?_⟩
      · rw [Write.onSession_id, hid, hses]
      · rw [show (Write.recordVerdict auth.tenant.id session.id _).onSession s.now r =
          r.judge s.now _ from if_pos ⟨hid, htid⟩, judge_timeout_ruling]

/-- answers are final: what `s` answered or stored, `s'` stores, and every answer of `s'` agrees -/
structure FinalFrom (s s' : System) : Prop where
  /-- the row of an answer, and every later answer, carry its ruling -/
  answered : ∀ pid v, s.response pid = some (.verdict v) → v.decision ≠ .pending →
    (∃ r ∈ s'.db.sessions, r.id = v.sessionId ∧ r.ruling = ruling v) ∧
      ∀ q u, s'.response q = some (.verdict u) → u.sessionId = v.sessionId → ruling u = ruling v
  stored : StoredFinal s s'

/-- a verdict is written once, in all runs whose steps meet `G` -/
def VerdictFinal (P : Platform) (G : System → Event → Prop) : Prop :=
  ∀ s₀ s s' : System, s₀.Initial → Machine.Steps (System.step P) G s₀ s →
    Machine.Steps (System.step P) G s s' → FinalFrom s s'

theorem Agreed.steps {s₀ : System} (h0 : s₀.Initial)
    (h : Machine.Steps (System.step P) Unraced s₀ s) : Reachable P s ∧ Agreed s := by
  refine h.inv (fun s => Reachable P s ∧ Agreed s) (fun s e t hs hg he => ?_)
    ⟨⟨s₀, h0, .refl _⟩, Agreed.initial h0⟩
  exact ⟨hs.1.step he, hs.2.step hs.1 hg he⟩

theorem verdict_final (P : Platform) : VerdictFinal P Unraced := by
  intro s₀ s s' h0 hs hs'
  obtain ⟨hreach, hagreed⟩ := Agreed.steps h0 hs
  obtain ⟨_, hagreed'⟩ := Agreed.steps h0 (hs.trans hs')
  have hstored : StoredFinal s s' := by
    refine hs'.keeps (Reachable P) StoredFinal (fun s e t h _ he => h.step he) StoredFinal.refl
      (fun _ _ _ => StoredFinal.trans) (fun s e t h hg he r hr hd => ?_) hreach
    exact ruling_stays h hg he hr hd
  refine ⟨fun pid v hv _ => ?_, hstored⟩
  obtain ⟨t, ht, htv⟩ := System.verdict?_of_response hv
  obtain ⟨hd, r, hr, hid, hrul⟩ := hagreed pid t v ht htv
  have hdr : r.verdictDecision ≠ .pending := by
    rw [show r.verdictDecision = v.decision from congrArg (·.1) hrul]
    exact hd
  obtain ⟨r', hr', hid', hrul'⟩ := hstored r hr hdr
  refine ⟨⟨r', hr', hid'.trans hid, hrul'.trans hrul⟩, fun q u hu hsame => ?_⟩
  obtain ⟨t', ht', htu⟩ := System.verdict?_of_response hu
  obtain ⟨_, x, hx, hxid, hxrul⟩ := hagreed' q t' u ht' htu
  have hxr : x = r' := Db.eq_of_id hx hr' (hxid.trans (hsame.trans (hid'.trans hid).symm))
  rw [← hxrul, hxr, hrul', hrul]

/-- **A verdict is written once, in every unraced run**, and a step keeps the stored decisions
exactly if it is unraced. -/
theorem verdict_written_once (P : Platform) : VerdictFinal P Unraced ∧
    ∀ s s' e, Reachable P s → System.step P e s = some s' → (StoredFinal s s' ↔ Unraced s e) := by
  refine ⟨verdict_final P, fun s s' e h he => ⟨unraced_of_stays h he, fun hg r hr hd => ?_⟩⟩
  exact ruling_stays h hg he hr hd

/-- what the poll answers at its deadline -/
def Deployment.admitted : Verdict where
  decision := .allow
  sessionId := Uuid.small 7
  reasons := []
  requirements := timeoutRequirements
  remediation := none
  policyTier := .standard
  evaluatedAt := "2026-08-04T14:10:01.412Z"
  failOpen := true

open Deployment in
/-- a poll times out and admits the player with `failOpen`; the attestation that follows ten
seconds before the nonce expires overwrites the mark -/
theorem verdict_rewritten : ¬ VerdictFinal platform Machine.free := by
  intro h
  obtain ⟨s, hs, hrest⟩ := (Option.any_eq_true _ _).mp (show (after .fail_open (issue ++
    pollToDeadline)).any (fun s => decide (s.response 1 = some (.verdict admitted)) &&
      (Machine.run (System.step platform) (attest []) s).any fun s' =>
        decide (∀ r ∈ s'.db.sessions.rows, r.failOpen = false)) = true by
      simp only [attest, run_attest no_notes (Nat.zero_le 32)]
      decide +kernel)
  obtain ⟨hres, hlater⟩ := Bool.and_eq_true_iff.mp hrest
  obtain ⟨s', hs', hfacts⟩ := (Option.any_eq_true _ _).mp hlater
  have hfinal := h _ s s' (deployment_initial .fail_open) (Machine.Steps.of_run _ _ _ hs)
    (Machine.Steps.of_run _ _ _ hs')
  obtain ⟨⟨r, hr, _, hrul⟩, _⟩ := hfinal.answered 1 admitted (of_decide_eq_true hres) (by decide)
  have hmark : r.failOpen = true := congrArg (·.2.2) hrul
  rw [of_decide_eq_true hfacts r hr] at hmark
  cases hmark

end Backend
