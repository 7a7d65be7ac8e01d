import FiveProtect.Backend.VerdictOnce

/-!
# When an attestation strands its session

`processAttestation` claims the nonce, stores the snapshot, looks the build up, evaluates and
records the verdict, each statement committed on its own.  A step that raises leaves what was
committed before it:

* `Fails`    the steps with which an attestation ends before its verdict is committed;
* `Kept`     what the claim asks for when the request has finished;
* `attestation_kept_iff`   a finishing step keeps the session exactly if it does not fail.
-/

namespace Backend
open Protocol Function

variable {P : Platform} {s s' : System}

/-! ## failing steps -/

/-- `storeSnapshot` can be executed: PostgreSQL takes the texts, and the id is new -/
def Storable (P : Platform) (db : Db) (uuid : Uuid) (a : AttestTask) : Prop :=
  (P.timestamptzIn a.request.snapshot.collectedAt).isSome ∧ a.storable = true ∧
    ∀ p ∈ db.snapshots, p.id ≠ uuid

/-- an event with which the attestation `pid` ends between its claim and its verdict -/
inductive Fails (P : Platform) (s : System) (pid : Nat) (a : AttestTask) : Event → Prop
  /-- a step after the claim raises -/
  | fault (hs : a.point.session? ≠ none) : Fails P s pid a (.fail pid)
  /-- the result of a statement before `recordVerdict` is lost -/
  | lost (uuid : Uuid) (hs : a.point.session? ≠ none ∨
        a.point = .claim ∧ findClaimable P s.now s.db a.request.nonce ≠ none)
      (h : ∀ session buildAccepted outcome,
        a.point ≠ .recordVerdict session buildAccepted outcome) :
      Fails P s pid a (.lost pid uuid)
  /-- PostgreSQL refuses the snapshot -/
  | unstorable (uuid : Uuid) (session : SessionRow) (hp : a.point = .storeSnapshot session)
      (h : ¬ Storable P s.db uuid a) : Fails P s pid a (.exec pid uuid)

/-- the row has a verdict that was evaluated from the snapshot of the request -/
def Derived (P : Platform) (r : AttestationSession) (request : AttestationRequest)
    (clientIp : String) : Prop :=
  ∃ buildAccepted, r.verdict = (evaluatePolicy
    { tier := r.policyTier
      snapshot := request.snapshot
      gameIp := P.inetHost r.gameIp
      attestationIp := clientIp
      buildAccepted := buildAccepted }).update.verdict

/-- the session is not stranded: the nonce can still be redeemed, or a verdict derived from the
snapshot is recorded -/
def Kept (P : Platform) (s : System) (c : Claim) : Prop :=
  ∃ r ∈ s.db.sessions, r.id = c.session.id ∧
    (r.consumedAt = none ∨ r.verdictDecision ≠ .pending ∧ Derived P r c.request c.clientIp)

/-- the attestation `pid` has committed its verdict -/
def Committed (s : System) (pid : Nat) : Prop :=
  ∃ a session buildAccepted outcome ack, s.task pid = some (.attest a) ∧
    a.point = .accepted session buildAccepted outcome ack

/-! ## a step that finishes an attestation -/

/-- without its verdict committed, the session of a claim is stranded -/
theorem not_kept (h : Reachable P s) {pid : Nat} {c : Claim} (hc : s.claim? pid = some c)
    (hn : ¬ Committed s pid) : ¬ Kept P s c := by
  rintro ⟨r, hr, hid, hcase⟩
  obtain ⟨x, hx, hof⟩ := h.redemption.claimed pid c hc
  have hxr : x = r := Db.eq_of_id hx hr (hof.id.symm.trans hid.symm)
  subst hxr
  obtain hnone | ⟨hd, ba, hv⟩ := hcase
  · exact hof.consumed hnone
  · cases (h.judged x hx).source with
    | undecided h0 => exact hd h0
    | timeout p q auth deadline session v ht hp _ hv' =>
      obtain ⟨_, _, _, t, _, _, rfl⟩ :=
        (congrArg (Polled s.now s.db) hp).mp (h.established.verdict p q ht)
      have htimed := timedOut_of_timeout hv'
      rw [not_timedOut_of_attestation hv] at htimed
      cases htimed
    | attestation p a session ba' outcome ack ht hp hid' _ =>
      have hcons := AttestPoint.session?_of_outcome
        (show a.point.outcome? = some (session, ba', outcome) by rw [hp]; rfl)
      have hpid : p = pid := h.redemption.unique p pid _ _
        (claim?_of_consumed h.losers ht hcons.2) hc (hid'.trans hid)
      subst hpid
      exact hn ⟨a, session, ba', outcome, ack, ht, hp⟩

/-- right after its `recordVerdict`, the row carries the verdict of an attestation -/
theorem kept_of_recorded (h : Reachable P s) {pid : Nat} {c : Claim} {a : AttestTask}
    {session : SessionRow} {buildAccepted : Bool} {outcome : PolicyOutcome} {e : Event}
    (hc : s.claim? pid = some c) (ht : s.task pid = some (.attest a))
    (hp : a.point = .recordVerdict session buildAccepted outcome) (he : e.commits? = some pid)
    (hstep : System.step P e s = some s') : Kept P s' c := by
  have hout : a.point.outcome? = some (session, buildAccepted, outcome) := by
    rw [hp]
    rfl
  have hclaim := claim?_of_consumed h.losers ht (AttestPoint.session?_of_outcome hout).2
  rw [hclaim] at hc
  cases hc
  obtain ⟨r, hr, hof⟩ := h.redemption.claimed pid _ hclaim
  have hmem := judged_by he ht (fun _ => Task.exec_of_recordVerdict hp) hstep hr hof.id.symm
    hof.tenantId.symm
  refine ⟨_, hmem, hof.id.symm, .inr ⟨decision_verdict_ne_pending _, buildAccepted, ?_⟩⟩
  rw [Write.judge_verdict, ((h.established.attest pid a ht).outcome _ _ _ hout).2,
    AttestTask.policyInput, hof.policyTier, hof.gameIp]
  rfl

/-! ## which steps finish an attestation -/

/-- the turns of an attestation that raise -/
theorem AttestTask.raises {uuid : Uuid} {a : AttestTask}
    (h : System.Raises P s uuid (.attest a)) : a.point = .claim ∨
      ∃ session, a.point = .storeSnapshot session ∧ ¬ Storable P s.db uuid a := by
  obtain ⟨er, hexec⟩ | ⟨w, t', er, hexec, hw⟩ := h
  · cases hx : a.exec P s.now uuid s.db with
    | ok _ =>
      simp only [Task.exec, hx] at hexec
      cases hexec
    | error _ =>
      unfold exec at hx
      split at hx
      · rename_i hp
        exact .inl hp
      · cases hx
      · rename_i session hp
        refine .inr ⟨session, hp, fun hs => ?_⟩
        obtain ⟨collectedAt, hc⟩ := Option.isSome_iff_exists.mp hs.1
        simp only [hc, hs.2.1] at hx
        cases hx
      all_goals cases hx
  · obtain ⟨pt, rfl, hturn⟩ := Task.exec_attest hexec
    cases hturn with
    | @stored session collectedAt hp _ _ =>
      refine .inr ⟨session, hp, fun hs => ?_⟩
      -- only a clash of the id is left
      simp only [Write.exec, Write.inserted, Table.insert] at hw
      rw [dif_pos (fun x hx => by simpa [Row.clash, Row.key] using hs.2.2 x hx)] at hw
      cases hw
    | _ => cases hw

/-- a turn of a running attestation that goes through: it commits the verdict, or the attestation
goes on, or it has no claim -/
theorem AttestTask.Turn.goes_on {now : Time} {uuid : Uuid} {db : Db} {a : AttestTask}
    {w : Write} {pt : AttestPoint} (ht : a.Turn P now uuid db w pt)
    (hrun : (Task.attest a).response = none) :
    (∃ session ba outcome, a.point = .recordVerdict session ba outcome) ∨
      (Task.attest { a with point := pt }).response = none ∨ pt.session? = none := by
  cases ht with
  | @recorded session ba outcome hp => exact .inl ⟨session, ba, outcome, hp⟩
  | accepted hp =>
    simp only [Task.response, hp] at hrun
    cases hrun
  | classified | rejected => exact .inr (.inr rfl)
  | claimed | unclaimed | stored | lookedUp | evaluated => exact .inr (.inl rfl)

theorem not_committed_of_running {pid : Nat} {a : AttestTask}
    (ht : s.task pid = some (.attest a)) (h : (Task.attest a).response = none) :
    ¬ Committed s pid := by
  rintro ⟨b, session, ba, outcome, ack, hb, hp⟩
  rw [ht] at hb
  cases hb
  simp only [Task.response, hp] at h
  cases h

/-- a turn of an attestation with a claim that raises -/
theorem crash_of_claim {pid : Nat} {p : Proc} {c : Claim}
    (hp : s.readyProc pid = some p) (hc : (s.put pid { p with crashed := true }).claim? pid = some c) :
    ∃ a, p.task = .attest a ∧ a.point.session? ≠ none ∧ (Task.attest a).response = none ∧
      (s.put pid { p with crashed := true }).task pid = some (.attest a) ∧
      (∀ uuid, System.Raises P s uuid p.task → ∃ session, a.point = .storeSnapshot session ∧
        ¬ Storable P s.db uuid a) := by
  obtain ⟨hproc, hready⟩ := System.of_readyProc hp
  have htask := congrFun (System.put_crashed_task hproc) pid
  rw [System.task_of_proc hproc] at htask
  rw [System.claim?_of_task htask] at hc
  cases ht : p.task with
  | attest a =>
    rw [ht] at hc htask
    have hne : a.point.session? ≠ none := by
      intro h
      rw [Task.claim?, AttestTask.claim?, h] at hc
      cases hc
    refine ⟨a, rfl, hne, ht ▸ Proc.of_ready hready, htask, fun uuid hraise => ?_⟩
    refine (AttestTask.raises hraise).resolve_left fun h => hne ?_
    rw [h]
    rfl
  | _ =>
    rw [ht] at hc
    cases hc

/-- **How an attestation with a claim finishes**: by committing its verdict, or by a failing
step. -/
theorem finishes {e : Event} {pid : Nat} {c : Claim} (he : System.step P e s = some s')
    (hc : s'.claim? pid = some c) (hrun : s.response pid = none) (hfin : s'.response pid ≠ none) :
    ∃ a, s.task pid = some (.attest a) ∧
      ((∃ session ba outcome, a.point = .recordVerdict session ba outcome ∧
          e.commits? = some pid ∧ ¬ Fails P s pid a e) ∨
        Fails P s pid a e ∧ ¬ Committed s' pid) := by
  obtain hpid | ⟨rq, hstart⟩ := System.pid_of_response he hrun hfin
  · -- a turn that goes through
    have hok : ∀ p uuid crashed w t' db, s.readyProc pid = some p →
        p.task.exec P s.now uuid s.db = .ok (w, t') →
        s' = { s.put pid ⟨t', crashed⟩ with db := db } →
        ∃ a, s.task pid = some (.attest a) ∧
          ((∃ session ba outcome, a.point = .recordVerdict session ba outcome) ∨
            (crashed = true ∧ (a.point.session? ≠ none ∨
                a.point = .claim ∧ findClaimable P s.now s.db a.request.nonce ≠ none) ∧
              (∀ session ba outcome, a.point ≠ .recordVerdict session ba outcome) ∧
              ¬ Committed s' pid)) := by
      intro p uuid crashed w t' db hp hexec hs'
      obtain ⟨hproc, hready⟩ := System.of_readyProc hp
      have htask' : s'.task pid = some t' := by
        rw [hs']
        exact (congrFun (System.put_task s pid ⟨t', crashed⟩) pid).trans (update_self ..)
      rw [System.claim?_of_task htask'] at hc
      obtain ⟨a, pt, ht, rfl, hturn⟩ | ⟨_, _, _, rfl, _⟩ | ⟨_, _, _, rfl, _⟩ | ⟨_, hoth, _⟩ :=
        Task.exec_cases hexec
      · refine ⟨a, (System.task_of_proc hproc).trans (congrArg some ht), ?_⟩
        by_cases hrec : ∃ session ba outcome, a.point = .recordVerdict session ba outcome
        · exact .inl hrec
        · obtain h0 | hgo | hnone := hturn.goes_on (ht ▸ Proc.of_ready hready)
          · exact absurd h0 hrec
          · refine .inr ⟨?_, ?_, fun x y z h => hrec ⟨x, y, z, h⟩,
              not_committed_of_running htask' hgo⟩
            swap
            · obtain ⟨session, hs, _⟩ := Option.map_eq_some_iff.mp hc
              obtain heq | ⟨ip, r, hpc, _, hr, _⟩ := hturn.session?_eq
              · left
                rw [← heq, show pt.session? = some session from hs]
                exact Option.some_ne_none _
              · right
                rw [hr]
                exact ⟨hpc, Option.some_ne_none _⟩
            by_contra hcr
            refine hfin ?_
            have hresp : s'.response pid =
                Proc.response ⟨.attest { a with point := pt }, crashed⟩ := by
              rw [hs']
              exact (System.response_put s pid pid _).trans (if_pos rfl)
            rw [hresp, Proc.response, if_neg hcr]
            exact hgo
          · rw [Task.claim?, AttestTask.claim?, hnone] at hc
            cases hc
      · cases hc
      · cases hc
      · rw [Task.claim?_other hoth] at hc
        cases hc
    cases e with
    | tick | request | sweep => cases hpid
    | fail q =>
      cases hpid
      obtain ⟨p, hp, rfl⟩ := Option.map_eq_some_iff.mp he
      obtain ⟨a, ht, hs, hresp, htask, _⟩ := crash_of_claim (P := P) hp hc
      exact ⟨a, (System.task_of_proc (System.of_readyProc hp).1).trans (congrArg some ht),
        .inr ⟨.fault hs, not_committed_of_running htask hresp⟩⟩
    | exec q uuid =>
      cases hpid
      obtain ⟨p, hp, rfl⟩ := Option.map_eq_some_iff.mp he
      obtain ⟨hraise, heq⟩ | ⟨w, t', db, hexec, _, heq⟩ := System.turn_eq P s pid p uuid false
      · rw [heq] at hc ⊢
        obtain ⟨a, ht, _, hresp, htask, hstore⟩ := crash_of_claim hp hc
        obtain ⟨session, hpt, hns⟩ := hstore uuid hraise
        exact ⟨a, (System.task_of_proc (System.of_readyProc hp).1).trans (congrArg some ht),
          .inr ⟨.unstorable uuid session hpt hns, not_committed_of_running htask hresp⟩⟩
      · obtain ⟨a, ht, ⟨session, ba, outcome, hpt⟩ | ⟨hf, _⟩⟩ := hok p uuid false w t' db hp hexec heq
        · refine ⟨a, ht, .inl ⟨session, ba, outcome, hpt, rfl, fun hfail => ?_⟩⟩
          cases hfail with
          | unstorable _ _ hpt' _ =>
            rw [hpt] at hpt'
            cases hpt'
        · cases hf
    | lost q uuid =>
      cases hpid
      obtain ⟨p, hp, rfl⟩ := Option.map_eq_some_iff.mp he
      obtain ⟨hraise, heq⟩ | ⟨w, t', db, hexec, _, heq⟩ := System.turn_eq P s pid p uuid true
      · rw [heq] at hc ⊢
        obtain ⟨a, ht, hs, hresp, htask, hstore⟩ := crash_of_claim hp hc
        obtain ⟨session, hpt, _⟩ := hstore uuid hraise
        refine ⟨a, (System.task_of_proc (System.of_readyProc hp).1).trans (congrArg some ht),
          .inr ⟨.lost uuid (.inl hs) fun x y z h => ?_, not_committed_of_running htask hresp⟩⟩
        rw [hpt] at h
        cases h
      · obtain ⟨a, ht, ⟨session, ba, outcome, hpt⟩ | ⟨_, hs, hne, hnc⟩⟩ :=
          hok p uuid true w t' db hp hexec heq
        · refine ⟨a, ht, .inl ⟨session, ba, outcome, hpt, rfl, fun hfail => ?_⟩⟩
          cases hfail with
          | lost _ _ hne => exact hne session ba outcome hpt
        · exact ⟨a, ht, .inr ⟨.lost uuid hs hne, hnc⟩⟩
  · rw [System.claim?_of_task hstart, Request.claim?_start] at hc
    cases hc

/-- **An attestation keeps its session exactly if its last step does not fail.** -/
theorem attestation_kept_iff (h : Reachable P s) {e : Event} {pid : Nat} {c : Claim}
    (he : System.step P e s = some s') (hc : s'.claim? pid = some c)
    (hrun : s.response pid = none) (hfin : s'.response pid ≠ none) :
    ∃ a, s.task pid = some (.attest a) ∧ (Kept P s' c ↔ ¬ Fails P s pid a e) := by
  obtain ⟨a, ht, ⟨session, ba, outcome, hp, hcom, hnf⟩ | ⟨hf, hnc⟩⟩ := finishes he hc hrun hfin
  · have hclaim : s.claim? pid = some c := by
      have hold : s.claim? pid = some ⟨a.request, a.clientIp, session⟩ := by
        rw [System.claim?_of_task ht, Task.claim?, AttestTask.claim?, hp]
        rfl
      rw [hold, ← hc]
      exact ((System.step_move he).claim_mono hold).symm
    exact ⟨a, ht, ⟨fun _ => hnf, fun _ => kept_of_recorded h hclaim ht hp hcom he⟩⟩
  · exact ⟨a, ht, ⟨fun hk => absurd hk (not_kept (h.step he) hc hnc), fun hn => absurd hf hn⟩⟩

/-! ## runs -/

/-- no attestation fails in the step -/
def NoFailure (P : Platform) (s : System) (e : Event) : Prop :=
  ∀ pid a, s.task pid = some (.attest a) → ¬ Fails P s pid a e

/-- every attestation with a claim that has finished has committed its verdict -/
def AllCommitted (s : System) : Prop :=
  ∀ pid c, s.claim? pid = some c → s.response pid ≠ none → Committed s pid

theorem Committed.step {e : Event} {pid : Nat} (h : Committed s pid)
    (he : System.step P e s = some s') : Committed s' pid := by
  obtain ⟨a, session, ba, outcome, ack, ht, hp⟩ := h
  exact ⟨a, session, ba, outcome, ack, (System.step_move he).accepted_mono ht hp, hp⟩

theorem AllCommitted.step (hi : AllCommitted s) {e : Event} (hg : NoFailure P s e)
    (he : System.step P e s = some s') : AllCommitted s' := by
  intro pid c hc hfin
  by_cases hrun : s.response pid = none
  · obtain ⟨a, ht, ⟨session, ba, outcome, hp, hcom, _⟩ | ⟨hf, _⟩⟩ := finishes he hc hrun hfin
    · have htask := (System.step_of_commits hcom ht (fun _ => Task.exec_of_recordVerdict hp)
        rfl he).2
      exact ⟨_, session, ba, outcome, _, by rw [htask, update_self], rfl⟩
    · exact absurd hf (hg pid a ht)
  · have hproc := System.procs_of_finished he hrun
    have hclaim : s.claim? pid = s'.claim? pid := by
      rw [System.claim?, System.claim?, System.task, System.task, hproc]
    exact (hi pid c (hclaim.trans hc) hrun).step he

/-- a committed verdict leaves its row decided -/
theorem Reachable.decided (h : Reachable P s) : ∀ pid a session ba outcome ack,
    s.task pid = some (.attest a) → a.point = .accepted session ba outcome ack →
    ∃ r ∈ s.db.sessions, r.id = session.id ∧ r.verdictDecision ≠ .pending := by
  refine (h.inv (fun s => Redemption P s ∧ ∀ pid a session ba outcome ack,
    s.task pid = some (.attest a) → a.point = .accepted session ba outcome ack →
    ∃ r ∈ s.db.sessions, r.id = session.id ∧ r.verdictDecision ≠ .pending)
    (fun s h0 => ⟨Redemption.initial h0, fun pid _ _ _ _ _ ht => ?_⟩)
    fun s s' hi hm => ⟨hi.1.move hm, fun pid a session ba outcome ack ht hp => ?_⟩).2
  · rw [System.task, h0.procs] at ht
    cases ht
  · -- a decided row of before is one of after
    have hkeep : (∃ r ∈ s.db.sessions, r.id = session.id ∧ r.verdictDecision ≠ .pending) →
        ∃ r ∈ s'.db.sessions, r.id = session.id ∧ r.verdictDecision ≠ .pending := by
      rintro ⟨r, hr, hid, hd⟩
      obtain ⟨w, hw⟩ := hm.exists_write
      exact ⟨_, (Write.mem_sessions hw).mpr (.inl ⟨r, hr, rfl⟩),
        (Write.onSession_id _ _ _).trans hid, Write.onSession_decided hd⟩
    obtain hsame | ⟨hstart, _⟩ | ⟨uuid, w, b, pt, ht₀, rfl, hturn, hw, _⟩ := hm.of_attest ht
    · exact hkeep (hi.2 pid a session ba outcome ack hsame hp)
    · rw [hstart] at hp
      cases hp
    · cases hp
      cases hturn with
      | accepted hp' => exact hkeep (hi.2 pid b session ba outcome ack ht₀ hp')
      | recorded hp' =>
        have hclaim : s.claim? pid = some ⟨b.request, b.clientIp, session⟩ := by
          rw [System.claim?_of_task ht₀, Task.claim?, AttestTask.claim?, hp']
          rfl
        obtain ⟨r, hr, hof⟩ := hi.1.claimed pid _ hclaim
        exact ⟨_, (Write.mem_sessions hw).mpr (.inl ⟨r, hr,
          if_pos ⟨hof.id.symm, hof.tenantId.symm⟩⟩), hof.id.symm, decision_verdict_ne_pending _⟩

/-- what the claim asks of a state of a run -/
def NeverStranded (s : System) : Prop :=
  ∀ pid c, s.claim? pid = some c → s.response pid ≠ none → Committed s pid ∧
    ∃ r ∈ s.db.sessions, r.id = c.session.id ∧ r.verdictDecision ≠ .pending

/-- **An attestation never strands its session, in every run in which none fails**; and the step
with which an attestation finishes keeps its session exactly if it does not fail. -/
theorem attestation_never_strands (P : Platform) :
    (∀ s₀ s : System, s₀.Initial → Machine.Steps (System.step P) (NoFailure P) s₀ s →
      NeverStranded s) ∧
    ∀ s s' e pid c, Reachable P s → System.step P e s = some s' → s'.claim? pid = some c →
      s.response pid = none → s'.response pid ≠ none →
      ∃ a, s.task pid = some (.attest a) ∧ (Kept P s' c ↔ ¬ Fails P s pid a e) := by
  refine ⟨fun s₀ s h0 hrun pid c hc hfin => ?_,
    fun s s' e pid c h he hc hrun hfin => attestation_kept_iff h he hc hrun hfin⟩
  have hall : AllCommitted s := hrun.inv AllCommitted (fun _ _ _ hi hg he => hi.step hg he)
    (fun p d hd => by
      rw [System.claim?, System.task, h0.procs] at hd
      cases hd)
  have hreach : Reachable P s := ⟨s₀, h0, hrun.toFree⟩
  obtain ⟨a, session, ba, outcome, ack, ht, hp⟩ := hall pid c hc hfin
  have hcs : c.session = session := by
    rw [System.claim?_of_task ht, Task.claim?, AttestTask.claim?, hp] at hc
    cases hc
    rfl
  refine ⟨⟨a, session, ba, outcome, ack, ht, hp⟩, ?_⟩
  rw [hcs]
  exact hreach.decided pid a session ba outcome ack ht hp

open Deployment in
/-- a probe note with U+0000 passes the schema and is refused by `jsonb`: the nonce is spent and no
verdict is written -/
theorem attestation_strands : ¬ ∀ s, Reachable platform s → NeverStranded s := by
  intro h
  obtain ⟨s, hs, hfacts⟩ := (Option.any_eq_true _ _).mp (show (after .fail_open (issue ++
    [.request 2 (.attest "203.0.113.42" (attestBody ["\x00"]))] ++ turns 2 2)).any (fun s =>
      decide ((s.claim? 2).isSome = true ∧ s.response 2 ≠ none ∧
        ∀ r ∈ s.db.sessions.rows, r.verdictDecision = .pending)) = true by
      simp only [after, List.append_assoc, List.cons_append, Machine.run_append,
        @run_attest ["\x00"] (by decide) (by decide)]
      decide +kernel)
  obtain ⟨hclaim, hres, hpending⟩ := of_decide_eq_true hfacts
  obtain ⟨c, hc⟩ := Option.isSome_iff_exists.mp hclaim
  obtain ⟨_, r, hr, _, hd⟩ := h s (reachable_after hs) 2 c hc hres
  exact hd (hpending r hr)

end Backend
