import FiveProtect.Backend.Deployment
import FiveProtect.Backend.Liveness

/-!
# The sessions counted as pending

`findPendingByGameIp` looks at `consumed_at` and `expires_at` alone.  A decision and an ending are
written in other columns: a session that timed out, or that a heartbeat ended, within the lifetime
of its nonce is still found.

* `PendingTask.Finds`   the sessions a poll of the companion finds, to count them or to hand out a
                        nonce;
* `OnlyUndecided`       all of them are undecided;
* `Outlived`            the condition on a step: no timeout and no ending heartbeat meets a session
                        that a poll would find.
-/

namespace Backend
open Protocol

variable {P : Platform} {s s' : System}

/-! ## what a poll finds -/

/-- the session is among those the poll `t` finds in `s` -/
def PendingTask.Finds (P : Platform) (s : System) (t : PendingTask) (r : AttestationSession) : Prop :=
  r ∈ s.db.sessions ∧
    ∃ rows x, findPendingByGameIp P s.now s.db t.origin = .ok rows ∧ x ∈ rows ∧ x.id = r.id

/-- neither decided nor ended -/
def AttestationSession.Undecided (r : AttestationSession) : Prop :=
  r.verdictDecision = .pending ∧ r.state = .pending

structure OnlyUndecided (P : Platform) (s : System) : Prop where
  /-- whatever a poll finds, and so what it counts towards `origin_ambiguous` -/
  found : ∀ (t : PendingTask) r, t.Finds P s r → r.Undecided
  /-- the session whose nonce it hands out -/
  collected : ∀ (t : PendingTask) w answer nonce, t.point = .read →
    t.exec P s.now s.db = .ok (w, .answered answer) → answer.nonce = some nonce →
    ∃ r, t.Finds P s r ∧ r.Undecided ∧
      r.nonceSealed.bind (openNonce P.aes t.config.nonceSealKey) = some nonce

theorem findPendingByGameIp_ok (now : Time) (db : Db) {gameIp : String} {ip : Inet}
    (h : P.inetIn gameIp = some ip) : ∃ rows, findPendingByGameIp P now db gameIp = .ok rows := by
  unfold findPendingByGameIp inetParam
  rw [h]
  exact ⟨_, rfl⟩

theorem finds_iff (h : Reachable P s) {t : PendingTask} {r : AttestationSession} :
    t.Finds P s r ↔ r ∈ s.db.sessions ∧ r.consumedAt = none ∧ s.now < r.expiresAt ∧
      P.inetIn t.origin = some r.gameIp := by
  constructor
  · rintro ⟨hr, rows, x, hrows, hx, hid⟩
    obtain ⟨ip, hip, y, hy, hp, _, _, _, rfl⟩ := (mem_findPendingByGameIp P hrows x).mp hx
    obtain rfl := Db.eq_of_id hy hr hid
    obtain ⟨rfl, hnone, hlt⟩ := pendingAt_iff.mp hp
    exact ⟨hr, hnone, hlt, hip⟩
  · rintro ⟨hr, hnone, hlt, hip⟩
    obtain ⟨rows, hrows⟩ := findPendingByGameIp_ok s.now s.db hip
    obtain ⟨g, hg, hid⟩ := h.issuance.game r hr
    exact ⟨hr, rows, _, hrows, (mem_findPendingByGameIp P hrows _).mpr ⟨_, hip, r, hr,
      pendingAt_iff.mpr ⟨rfl, hnone, hlt⟩, g, hg, hid, rfl⟩, rfl⟩

/-- a nonce that is handed out is one of a session that was found -/
theorem finds_of_collected {t : PendingTask} {w : Write} {answer : CompanionPollResponse}
    {nonce : String} (hp : t.point = .read) (h : t.exec P s.now s.db = .ok (w, .answered answer))
    (hn : answer.nonce = some nonce) : ∃ r, t.Finds P s r ∧
      r.nonceSealed.bind (openNonce P.aes t.config.nonceSealKey) = some nonce := by
  have hpending : answer.pending = true := by
    by_contra hfalse
    unfold PendingTask.exec at h
    rw [hp] at h
    dsimp only at h
    repeat' split at h
    all_goals cases h
    exact hfalse rfl
  obtain hans | ⟨_, x, sealed, nonce', hf, hs, ho, rfl⟩ := PendingTask.exec_found h hpending
  · rw [hp] at hans
    cases hans
  · cases hn
    obtain ⟨ip, hip, r, hr, _, _, _, _, hx⟩ :=
      (mem_findPendingByGameIp P hf x).mp List.mem_cons_self
    refine ⟨r, ⟨hr, [x], x, hf, List.mem_cons_self, by rw [← hx]⟩, ?_⟩
    rw [show r.nonceSealed = x.nonceSealed by rw [← hx], hs]
    exact ho

theorem OnlyUndecided.of_found (h : ∀ (t : PendingTask) r, t.Finds P s r → r.Undecided) :
    OnlyUndecided P s := by
  refine ⟨h, fun t w answer nonce hp hexec hn => ?_⟩
  obtain ⟨r, hr, hopen⟩ := finds_of_collected hp hexec hn
  exact ⟨r, hr, h t r hr, hopen⟩

/-! ## the condition on a step -/

/-- **Outlived.** A session is not found any more when a poll of the server times out on it, and
when a heartbeat ends it. -/
structure Outlived (P : Platform) (s : System) (e : Event) : Prop where
  timeout : ∀ pid q auth deadline session v, e.commits? = some pid →
    s.task pid = some (.verdict q) → q.point = .write auth deadline session v →
    ∀ (t : PendingTask) r, r.id = session.id → ¬ t.Finds P s r
  heartbeat : ∀ pid b session reason, e.commits? = some pid → s.task pid = some (.heartbeat b) →
    b.point = .terminateSession session reason →
    ∀ (t : PendingTask) r, r.id = session.id → ¬ t.Finds P s r

/-- what a poll finds after a statement, it found before it -/
theorem finds_before (h : Reachable P s) (h' : Reachable P s') (hnow : s.now ≤ s'.now) {w : Write}
    {t : PendingTask} {r : AttestationSession} (hr : r ∈ s.db.sessions)
    (hf : t.Finds P s' (w.onSession s.now r)) :
    t.Finds P s r ∧ (w.onSession s.now r).consumedAt = none ∧ s.now < r.expiresAt := by
  obtain ⟨_, hnone, hlt, hip⟩ := (finds_iff h').mp hf
  rw [Write.onSession_gameIp] at hip
  rw [Write.onSession_expiresAt] at hlt
  have hbefore : r.consumedAt = none := by
    by_contra hc
    exact hc ((Write.onSession_consumed hc).1.symm.trans hnone)
  exact ⟨(finds_iff h).mpr ⟨hr, hbefore, hnow.trans_lt hlt, hip⟩, hnone, hnow.trans_lt hlt⟩

/-- **A statement on an undecided session** that leaves it unconsumed leaves it undecided, unless it
records a verdict or ends it. -/
theorem onSession_undecided {now : Time} {w : Write} {r : AttestationSession} (h : r.Undecided)
    (hlt : now < r.expiresAt) (hnone : (w.onSession now r).consumedAt = none) :
    (w.onSession now r).Undecided ∨ (∃ v, w = .recordVerdict r.tenantId r.id v) ∨
      ∃ reason, w = .terminateSession r.id reason := by
  cases w with
  | consumeNonce digest ip =>
    left
    simp only [Write.onSession] at hnone ⊢
    split at hnone
    · cases hnone
    · rename_i hc
      rw [if_neg hc]
      exact h
  | recordVerdict tenantId sessionId v =>
    by_cases hc : r.id = sessionId ∧ r.tenantId = tenantId
    · obtain ⟨rfl, rfl⟩ := hc
      exact .inr (.inl ⟨v, rfl⟩)
    · left
      rw [show (Write.recordVerdict tenantId sessionId v).onSession now r = r from if_neg hc]
      exact h
  | terminateSession sessionId reason =>
    by_cases hc : r.id = sessionId
    · subst hc
      exact .inr (.inr ⟨reason, rfl⟩)
    · left
      rw [show (Write.terminateSession sessionId reason).onSession now r = r from
        if_neg fun hboth => hc hboth.1]
      exact h
  | recordHeartbeat sessionId graceSeconds =>
    left
    have hc : ¬ (r.id = sessionId ∧ r.state = .active) := by
      rw [h.2]
      simp
    rw [show (Write.recordHeartbeat sessionId graceSeconds).onSession now r = r from if_neg hc]
    exact h
  | expireStaleSessions =>
    left
    have hc : ¬ (r.state = .pending ∧ r.expiresAt < now) := fun hboth => lt_asymm hlt hboth.2
    rw [show Write.expireStaleSessions.onSession now r = r from if_neg hc]
    exact h
  | _ => exact .inl h

theorem onlyUndecided_of_outlived (h : Reachable P s) (hi : OnlyUndecided P s) {e : Event}
    (hg : Outlived P s e) (he : System.step P e s = some s') : OnlyUndecided P s' := by
  refine .of_found fun t r' hf => ?_
  obtain ⟨w, hw, hissue⟩ := System.step_write he
  obtain ⟨r, hr, rfl⟩ | hins := (Write.mem_sessions hw).mp hf.1
  · obtain ⟨hfound, hnone, hlt⟩ := finds_before h (h.step he) (System.step_move he).now_le hr hf
    obtain hkept | ⟨v, rfl⟩ | ⟨reason, rfl⟩ :=
      onSession_undecided (hi.found t r hfound) hlt hnone
    · exact hkept
    · -- an attestation has consumed its session, so this is a timeout
      obtain h0 | h0 | ⟨pid, uuid, x, x', hc, hx, hexec, _⟩ := hissue
      · cases h0
      · cases h0
      obtain ⟨a, session, ba, outcome, rfl, hp, _, hid, _⟩ |
        ⟨q, auth, deadline, session, verdict, rfl, hp, _, hid, _⟩ := Task.exec_recordVerdict hexec
      · have hout : a.point.outcome? = some (session, ba, outcome) := by
          rw [hp]
          rfl
        have hclaim := claim?_of_consumed h.losers hx (AttestPoint.session?_of_outcome hout).2
        obtain ⟨y, hy, hof⟩ := h.redemption.claimed pid _ hclaim
        obtain rfl := Db.eq_of_id hy hr (hof.id.symm.trans hid.symm)
        exact absurd ((finds_iff h).mp hfound).2.1 hof.consumed
      · exact absurd hfound (hg.timeout pid q auth deadline session verdict hc hx hp t r hid)
    · -- a liveness request has found its session active, so this is a heartbeat
      obtain h0 | h0 | ⟨pid, uuid, x, x', hc, hx, hexec, _⟩ := hissue
      · cases h0
      · cases h0
      obtain ⟨l, session, answer, rfl, hp, hid, _⟩ | ⟨b, session, rfl, hp, hid, _⟩ :=
        Task.exec_terminateSession hexec
      · have hwatch := h.watched pid l hx
        obtain ⟨y, hy, hyid, hjudged⟩ := hwatch.row session (by rw [hp]; rfl)
        obtain rfl := Db.eq_of_id hy hr (hyid.trans hid.symm)
        exact absurd (hi.found t y hfound).1 (hjudged (hwatch.terminate session answer hp).1)
      · exact absurd hfound (hg.heartbeat pid b session reason hc hx hp t r hid)
  · cases w with
    | createSession row =>
      cases hins
      obtain h0 | h0 | ⟨pid, uuid, x, x', _, _, hexec, _⟩ := hissue
      · cases h0
      · cases h0
      have hfresh := Task.exec_fresh hexec
      exact ⟨hfresh.verdictDecision, hfresh.state⟩
    | _ => cases hins

/-- **Such a step leaves a decided session to be found**, so the condition is exact. -/
theorem outlived_of_onlyUndecided (h : Reachable P s) {e : Event}
    (he : System.step P e s = some s') (hu : OnlyUndecided P s') : Outlived P s e := by
  -- a session that is found, and that the step judges or ends, is found after it
  have hfinds : ∀ (t : PendingTask) r, t.Finds P s r → ∀ w : Write, s'.now = s.now →
      w.exec s.now s.db = .ok s'.db → (w.onSession s.now r).consumedAt = r.consumedAt →
      (w.onSession s.now r).Undecided := by
    intro t r hf w hnow hw hc
    obtain ⟨hr, hnone, hlt, hip⟩ := (finds_iff h).mp hf
    refine hu.found t _ ((finds_iff (h.step he)).mpr ⟨?_, hc.trans hnone, ?_, ?_⟩)
    · exact (Write.mem_sessions hw).mpr (.inl ⟨r, hr, rfl⟩)
    · rwa [hnow, Write.onSession_expiresAt]
    · rwa [Write.onSession_gameIp]
  refine ⟨?_, ?_⟩
  · intro pid q auth deadline session v hc ht hp t r hid hf
    obtain ⟨_, ⟨x, hx, hxid, hxt⟩, _⟩ :=
      (congrArg (Polled s.now s.db) hp).mp (h.established.verdict pid q ht)
    have hxr : x = r := Db.eq_of_id hx hf.1 (hxid.trans hid.symm)
    have hw : (Write.recordVerdict auth.tenant.id session.id (timeoutUpdate v)).exec s.now s.db =
        .ok s'.db := by
      rw [(System.step_of_commits hc ht (fun _ => Task.exec_of_write hp) rfl he).1]
      rfl
    have hrow : (Write.recordVerdict auth.tenant.id session.id (timeoutUpdate v)).onSession s.now r =
        r.judge s.now (timeoutUpdate v) := if_pos ⟨hid, hxr ▸ hxt⟩
    obtain ⟨hpending, _⟩ := hfinds t r hf _ (System.now_of_commits hc he) hw (by rw [hrow]; rfl)
    rw [hrow] at hpending
    exact decision_verdict_ne_pending _ hpending
  · intro pid b session reason hc ht hp t r hid hf
    have hw : (Write.terminateSession session.id reason).exec s.now s.db = .ok s'.db := by
      rw [(System.step_of_commits hc ht (fun _ => Task.exec_of_terminateSession hp) rfl he).1]
      rfl
    have hended : ((Write.terminateSession session.id reason).onSession s.now r).consumedAt =
        r.consumedAt ∧
        ((Write.terminateSession session.id reason).onSession s.now r).state = .terminated := by
      simp only [Write.onSession]
      split
      · exact ⟨rfl, rfl⟩
      · rename_i hrow
        exact ⟨rfl, not_not.mp fun hs => hrow ⟨hid, hs⟩⟩
    obtain ⟨_, hpending⟩ := hfinds t r hf _ (System.now_of_commits hc he) hw hended.1
    rw [hended.2] at hpending
    cases hpending

/-! ## the claim on the lookup -/

theorem OnlyUndecided.initial (h : s.Initial) : OnlyUndecided P s := by
  refine .of_found fun t r hf => ?_
  have hr := hf.1
  rw [h.sessions] at hr
  exact absurd hr (Table.not_mem_empty r)

/-- only undecided sessions are pending, in all runs whose steps meet `G` -/
def PendingUndecided (P : Platform) (G : System → Event → Prop) : Prop :=
  ∀ s₀ s : System, s₀.Initial → Machine.Steps (System.step P) G s₀ s → OnlyUndecided P s

/-- **Only undecided sessions are pending**, in every run in which each session that times out or is
ended has outlived its nonce, and a step keeps it so exactly if it is such a step. -/
theorem pending_undecided (P : Platform) : PendingUndecided P (Outlived P) ∧
    ∀ s s' e, Reachable P s → OnlyUndecided P s → System.step P e s = some s' →
      (OnlyUndecided P s' ↔ Outlived P s e) := by
  refine ⟨fun s₀ s h0 hs => ?_, fun s s' e h hi he => ?_⟩
  · exact (hs.inv (fun s => Reachable P s ∧ OnlyUndecided P s)
      (fun a e b hi hg he => ⟨hi.1.step he, onlyUndecided_of_outlived hi.1 hi.2 hg he⟩)
      ⟨⟨s₀, h0, .refl _⟩, .initial h0⟩).2
  · exact ⟨outlived_of_onlyUndecided h he, fun hg => onlyUndecided_of_outlived h hi hg he⟩

open Deployment in
/-- twenty seconds after the nonce was issued the poll of the server times out and denies the player;
for ten more seconds the companion finds the session -/
theorem decided_session_found : ¬ PendingUndecided platform Machine.free := by
  intro h
  obtain ⟨s, hs, hfacts⟩ := (Option.any_eq_true _ _).mp (show (after .fail_closed (issue ++
    pollToDeadline)).any (fun s => decide (∃ r ∈ s.db.sessions.rows, r.consumedAt = none ∧
      s.now < r.expiresAt ∧ r.gameIp = gameIp ∧ r.verdictDecision = .deny)) = true by decide +kernel)
  obtain ⟨r, hr, hnone, hlt, hip, hdeny⟩ := of_decide_eq_true hfacts
  have hundecided := h _ s (deployment_initial .fail_closed) (Machine.Steps.of_run _ _ _ hs)
  have hfinds : (⟨"203.0.113.42", config, 0, .read⟩ : PendingTask).Finds platform s r :=
    (finds_iff (reachable_after hs)).mpr ⟨hr, hnone, hlt, by rw [hip]; decide +kernel⟩
  have hpending := (hundecided.found _ r hfinds).1
  rw [hdeny] at hpending
  cases hpending

end Backend
