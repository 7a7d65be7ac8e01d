import FiveProtect.Backend.Deployment
import FiveProtect.Backend.Liveness

/-!
# What an acknowledged heartbeat is good for

A liveness request decides on a copy of the row and terminates the session in a second statement,
which does not look at the heartbeat again: a heartbeat that is recorded and acknowledged in between
is lost.

* `SaysLost`       a row says that the player is to be kicked for lost heartbeats;
* `Undisturbed`    the condition on a step: a copy a liveness request acts on says so only if the row
                   still does, and nobody else makes a session with a recent heartbeat say so;
* `Beaten`         what an acknowledged heartbeat leaves, for as long as it is recent;
* `AckProtects G`  the claim, over runs whose steps meet `G`.
-/

namespace Backend
open Protocol

variable {P : Platform} {s s' : System}

/-! ## the condition on a step -/

/-- the player of the session is to be kicked for lost heartbeats -/
def SaysLost (session : SessionRow) (now : Time) : Prop :=
  (buildLiveness session now).shouldKick = true ∧
    (buildLiveness session now).reason = some .heartbeat_lost

/-- the session is terminated, and not for a reason other than lost heartbeats -/
def AttestationSession.Lost (r : AttestationSession) : Prop :=
  r.state = .terminated ∧ r.terminationReason.getD .heartbeat_lost = .heartbeat_lost

/-- the last heartbeat is younger than interval and grace together -/
def AttestationSession.Beating (now : Time) (r : AttestationSession) : Prop :=
  ∃ last, r.lastHeartbeatAt = some last ∧ now < last + heartbeatLimitMs

theorem saysLost_iff {r : AttestationSession} {now : Time} : SaysLost (r.columns P) now ↔
    r.Lost ∨ r.state = .active ∧ ∃ last, r.lastHeartbeatAt = some last ∧
      last + heartbeatLimitMs ≤ now := by
  by_cases ht : r.state = .terminated
  · have hreason : (buildLiveness (r.columns P) now).reason =
        some (r.terminationReason.getD .heartbeat_lost) := by
      unfold buildLiveness
      rw [if_pos (show (r.columns P).state = .terminated from ht)]
      rfl
    have hkick : (buildLiveness (r.columns P) now).shouldKick = true :=
      buildLiveness_kick.mpr (.inl ht)
    rw [SaysLost, hreason]
    simp [hkick, AttestationSession.Lost, ht]
  · constructor
    · intro h
      obtain hterm | hlapsed := buildLiveness_kick.mp h.1
      · exact absurd hterm ht
      · exact .inr hlapsed
    · intro h
      obtain hlost | hlapsed := h
      · exact absurd hlost.1 ht
      · have hkick : (buildLiveness (r.columns P) now).shouldKick = true :=
          buildLiveness_kick.mpr (.inr hlapsed)
        exact ⟨hkick, buildLiveness_reason ht hkick⟩

/-- **Undisturbed.** No liveness request acts on a copy of the row that a heartbeat has overtaken,
and no other statement ends a session with a recent heartbeat as one of lost heartbeats. -/
structure Undisturbed (P : Platform) (s : System) (e : Event) : Prop where
  copy : ∀ pid l session, e.commits? = some pid → s.task pid = some (.liveness l) →
    l.point.session? = some session → SaysLost session s.now →
    ∀ r ∈ s.db.sessions, r.id = session.id → SaysLost (r.columns P) s.now
  closing : ∀ pid b session, e.commits? = some pid → s.task pid = some (.heartbeat b) →
    b.point = .terminateSession session .heartbeat_lost →
    ∀ r ∈ s.db.sessions, r.id = session.id → r.Beating s.now → r.state = .terminated
  attestation : ∀ pid a session buildAccepted outcome, e.commits? = some pid →
    s.task pid = some (.attest a) → a.point = .recordVerdict session buildAccepted outcome →
    outcome.decision = .deny → ∀ r ∈ s.db.sessions, r.id = session.id → r.Beating s.now →
    r.terminationReason.getD .heartbeat_lost ≠ .heartbeat_lost
  timeout : ∀ pid q auth deadline session v, e.commits? = some pid →
    s.task pid = some (.verdict q) → q.point = .write auth deadline session v →
    (timeoutUpdate v).decision = .deny → ∀ r ∈ s.db.sessions, r.id = session.id →
    r.Beating s.now → r.terminationReason.getD .heartbeat_lost ≠ .heartbeat_lost

/-! ## what a heartbeat leaves -/

/-- a heartbeat was recorded at `h` or later, and the session is not one of lost heartbeats -/
structure AttestationSession.BeatenSince (h : Time) (r : AttestationSession) : Prop where
  last : ∃ last, r.lastHeartbeatAt = some last ∧ h ≤ last
  kept : ¬ r.Lost

theorem AttestationSession.BeatenSince.beating {h now : Time} {r : AttestationSession}
    (hb : r.BeatenSince h) (hlt : now < h + heartbeatLimitMs) : r.Beating now := by
  obtain ⟨last, hl, hle⟩ := hb.last
  exact ⟨last, hl, hlt.trans_le (Nat.add_le_add_right hle _)⟩

theorem AttestationSession.BeatenSince.not_saysLost {h now : Time} {r : AttestationSession}
    (hb : r.BeatenSince h) (hlt : now < h + heartbeatLimitMs) : ¬ SaysLost (r.columns P) now := by
  intro hsays
  obtain hlost | ⟨_, last, hl, hle⟩ := saysLost_iff.mp hsays
  · exact hb.kept hlost
  · obtain ⟨last', hl', hlt'⟩ := hb.beating hlt
    rw [hl] at hl'
    cases hl'
    exact Nat.not_le.mpr hlt' hle

/-- **A statement on a session with a recent heartbeat**: the heartbeat stays, and the session is not
lost, unless it is terminated for lost heartbeats or denied. -/
theorem onSession_beaten {h now : Time} {w : Write} {r : AttestationSession} (hb : r.BeatenSince h)
    (hle : h ≤ now) : (w.onSession now r).BeatenSince h ∨
      (w = .terminateSession r.id .heartbeat_lost ∧ r.state ≠ .terminated) ∨
      ∃ v, w = .recordVerdict r.tenantId r.id v ∧ v.decision = .deny ∧
        r.terminationReason.getD .heartbeat_lost = .heartbeat_lost := by
  obtain ⟨⟨last, hl, hlast⟩, hkept⟩ := hb
  cases w with
  | consumeNonce digest ip =>
    left
    simp only [Write.onSession]
    split
    · exact ⟨⟨last, hl, hlast⟩, fun hlost => by cases hlost.1⟩
    · exact ⟨⟨last, hl, hlast⟩, hkept⟩
  | recordVerdict tenantId sessionId v =>
    by_cases hrow : r.id = sessionId ∧ r.tenantId = tenantId
    · obtain ⟨rfl, rfl⟩ := hrow
      rw [show (Write.recordVerdict r.tenantId r.id v).onSession now r = r.judge now v from
        if_pos ⟨rfl, rfl⟩]
      cases hv : v.decision with
      | allow =>
        left
        refine ⟨⟨now, by simp [AttestationSession.judge, hv], hle⟩, fun hlost => ?_⟩
        have hstate := hlost.1
        simp [AttestationSession.judge, hv] at hstate
      | deny =>
        by_cases hreason : r.terminationReason.getD .heartbeat_lost = .heartbeat_lost
        · exact .inr (.inr ⟨v, rfl, hv, hreason⟩)
        · left
          refine ⟨⟨last, by simp [AttestationSession.judge, hv, hl], hlast⟩, fun hlost => ?_⟩
          exact hreason hlost.2
    · left
      rw [show (Write.recordVerdict tenantId sessionId v).onSession now r = r from if_neg hrow]
      exact ⟨⟨last, hl, hlast⟩, hkept⟩
  | recordHeartbeat sessionId graceSeconds =>
    left
    simp only [Write.onSession]
    split
    · rename_i hrow
      refine ⟨⟨now, rfl, hle⟩, fun hlost => ?_⟩
      have hstate : r.state = .terminated := hlost.1
      rw [hrow.2] at hstate
      cases hstate
    · exact ⟨⟨last, hl, hlast⟩, hkept⟩
  | terminateSession sessionId reason =>
    by_cases hrow : r.id = sessionId ∧ r.state ≠ .terminated
    · obtain ⟨rfl, hs⟩ := hrow
      by_cases hreason : reason = .heartbeat_lost
      · exact .inr (.inl ⟨by rw [hreason], hs⟩)
      · left
        rw [show (Write.terminateSession r.id reason).onSession now r = r.terminate now reason from
          if_pos ⟨rfl, hs⟩]
        exact ⟨⟨last, hl, hlast⟩, fun hlost => hreason hlost.2⟩
    · left
      rw [show (Write.terminateSession sessionId reason).onSession now r = r from if_neg hrow]
      exact ⟨⟨last, hl, hlast⟩, hkept⟩
  | expireStaleSessions =>
    left
    simp only [Write.onSession]
    split
    · exact ⟨⟨last, hl, hlast⟩, fun hlost => by cases hlost.1⟩
    · exact ⟨⟨last, hl, hlast⟩, hkept⟩
  | _ => exact .inl ⟨⟨last, hl, hlast⟩, hkept⟩

/-- the session `id` has a heartbeat of `h` or later, and is not one of lost heartbeats -/
structure Beaten (h : Time) (id : Uuid) (s : System) : Prop where
  now : h ≤ s.now
  row : ∃ r ∈ s.db.sessions, r.id = id ∧ r.BeatenSince h

/-- a liveness request does not terminate the session while the heartbeat is recent -/
theorem Beaten.not_terminated (hr : Reachable P s) {h : Time} {id : Uuid} (hb : Beaten h id s)
    (hlt : s.now < h + heartbeatLimitMs) {e : Event} (hg : Undisturbed P s e) {pid : Nat}
    {l : LivenessTask} {session : SessionRow} {answer : LivenessResponse}
    (hc : e.commits? = some pid) (ht : s.task pid = some (.liveness l))
    (hp : l.point = .terminate session answer) : session.id ≠ id := by
  intro hid
  obtain ⟨r, hmem, hrid, hbeaten⟩ := hb.row
  obtain ⟨hactive, hkick, _, _⟩ := (hr.watched pid l ht).terminate session answer hp
  have hsays : SaysLost session s.now :=
    ⟨hkick, buildLiveness_reason (by rw [hactive]; decide) hkick⟩
  have hses : l.point.session? = some session := by
    rw [hp]
    rfl
  exact hbeaten.not_saysLost hlt (hg.copy pid l session hc ht hses hsays r hmem (hrid.trans hid.symm))

theorem Beaten.step (hr : Reachable P s) {h : Time} {id : Uuid} (hb : Beaten h id s)
    (hlt : s.now < h + heartbeatLimitMs) {e : Event} (hg : Undisturbed P s e)
    (he : System.step P e s = some s') : Beaten h id s' := by
  obtain ⟨r, hmem, rfl, hbeaten⟩ := hb.row
  obtain ⟨w, hw, hissue⟩ := System.step_write he
  refine ⟨hb.now.trans (System.step_move he).now_le, _,
    (Write.mem_sessions hw).mpr (.inl ⟨r, hmem, rfl⟩), Write.onSession_id _ _ _, ?_⟩
  obtain hkept | ⟨rfl, hs⟩ | ⟨v, rfl, hdeny, hreason⟩ :=
    onSession_beaten (w := w) hbeaten hb.now
  · exact hkept
  · obtain h0 | h0 | ⟨pid, uuid, t, t', hc, ht, hexec, _⟩ := hissue
    · cases h0
    · cases h0
    obtain ⟨l, session, answer, rfl, hp, hid, _⟩ | ⟨b, session, rfl, hp, hid, _⟩ :=
      Task.exec_terminateSession hexec
    · exact absurd hid.symm (hb.not_terminated hr hlt hg hc ht hp)
    · exact absurd (hg.closing pid b session hc ht hp r hmem hid (hbeaten.beating hlt)) hs
  · obtain h0 | h0 | ⟨pid, uuid, t, t', hc, ht, hexec, _⟩ := hissue
    · cases h0
    · cases h0
    obtain ⟨a, session, ba, outcome, rfl, hp, _, hid, rfl, _⟩ |
      ⟨q, auth, deadline, session, verdict, rfl, hp, _, hid, rfl, _⟩ := Task.exec_recordVerdict hexec
    · exact absurd hreason (hg.attestation pid a session ba outcome hc ht hp hdeny r hmem hid
        (hbeaten.beating hlt))
    · exact absurd hreason (hg.timeout pid q auth deadline session verdict hc ht hp hdeny r hmem hid
        (hbeaten.beating hlt))

/-! ## the claim on an acknowledgement -/

/-- the step to `s'` acknowledges a heartbeat for the session `id` -/
def Acknowledges (s s' : System) (id : Uuid) : Prop :=
  ∃ pid, s.response pid = none ∧ Acknowledged s' pid id

/-- the step terminates the session through a liveness request, or answers one that the player is to
be kicked for lost heartbeats -/
inductive LivenessEnds (P : Platform) (s : System) (e : Event) (s' : System) (id : Uuid) : Prop
  | terminates (pid : Nat) (uuid : Uuid) (l : LivenessTask) (reason : DenyReason) (t' : Task)
      (hc : e.commits? = some pid) (ht : s.task pid = some (.liveness l))
      (hexec : (Task.liveness l).exec P s.now uuid s.db = .ok (.terminateSession id reason, t'))
  | answers (pid : Nat) (answer : LivenessResponse) (hrun : s.response pid = none)
      (hres : s'.response pid = some (.liveness answer)) (hid : answer.sessionId = id)
      (hkick : answer.shouldKick = true) (hreason : answer.reason = some .heartbeat_lost)

/-- an acknowledged heartbeat protects its session for interval and grace, in all runs whose steps
meet `G` -/
def AckProtects (P : Platform) (G : System → Event → Prop) : Prop :=
  ∀ (s₀ a b s s' : System) (e e' : Event) (id : Uuid), s₀.Initial →
    Machine.Steps (System.step P) G s₀ a → G a e → System.step P e a = some b → Acknowledges a b id →
    Machine.Steps (System.step P) G b s → G s e' → System.step P e' s = some s' →
    s.now < a.now + heartbeatLimitMs → ¬ LivenessEnds P s e' s' id

/-- an acknowledged heartbeat was recorded -/
theorem beaten_of_acknowledges (h : Reachable P s) {e : Event} (he : System.step P e s = some s')
    {id : Uuid} (hack : Acknowledges s s' id) : Beaten s.now id s' := by
  obtain ⟨pid, hrun, t, answer, ht, hid, hres, htrue⟩ := hack
  obtain ⟨hres₀, _⟩ | ⟨er, her⟩ | ⟨uuid, w, t₀, t', hc, ht₀, hgo, hexec, ht', hans⟩ :=
    System.response_cases he hres
  · rw [hrun] at hres₀
    cases hres₀
  · cases her
  · rw [ht] at ht'
    cases ht'
    obtain ⟨b, pt, rfl, rfl, hx⟩ := Task.exec_heartbeat hexec
    have hpt : pt = .answered answer := by
      cases pt <;> simp_all [Task.response]
    subst hpt
    obtain hp | ⟨session, reason, _, rfl⟩ | ⟨session, hp, hext⟩ := HeartbeatTask.exec_answered hx
    · rw [Task.response, hp] at hgo
      cases hgo
    · cases htrue
    · have hfound : HeartbeatTask.extended s.db session.id = true := by
        by_contra hnot
        rw [if_neg hnot] at hext
        rw [hext] at htrue
        cases htrue
      obtain ⟨r, hr⟩ := Option.isSome_iff_exists.mp hfound
      obtain ⟨hmem, hpr⟩ := Table.mem_of_find hr
      simp only [Bool.and_eq_true, beq_iff_eq, decide_eq_true_eq] at hpr
      have hw : (Write.recordHeartbeat session.id heartbeatGraceSeconds).exec s.now s.db =
          .ok s'.db := by
        rw [(System.step_of_commits hc ht₀ (fun _ => Task.exec_of_recordHeartbeat hp) rfl he).1]
        rfl
      have hrow : (Write.recordHeartbeat session.id heartbeatGraceSeconds).onSession s.now r =
          r.beat s.now heartbeatGraceSeconds := if_pos hpr
      have hname := h.named pid b session ht₀ (by rw [hp]; rfl)
      refine ⟨(System.step_move he).now_le, r.beat s.now heartbeatGraceSeconds,
        (Write.mem_sessions hw).mpr (.inl ⟨r, hmem, hrow⟩), ?_, ⟨s.now, rfl, le_refl _⟩, ?_⟩
      · exact hpr.1.trans (Option.some.inj (hname.symm.trans hid))
      · intro hlost
        have hstate : r.state = .terminated := hlost.1
        rw [hpr.2] at hstate
        cases hstate

theorem Task.exec_liveness_answer {now : Time} {uuid : Uuid} {db : Db} {w : Write} {t t' : Task}
    {answer : LivenessResponse} (h : t.exec P now uuid db = .ok (w, t'))
    (ha : t'.response = some (.liveness answer)) :
    ∃ l, t = .liveness l ∧ l.exec P now db = .ok (w, .answered answer) := by
  cases t with
  | liveness l =>
    obtain ⟨⟨w', pt⟩, hx, he⟩ := map_ok h
    cases he
    refine ⟨l, rfl, ?_⟩
    have hpt : pt = .answered answer := by
      cases pt <;> simp_all [Task.response]
    rw [hx, hpt]
  | refused e =>
    cases h
    cases ha
  | nonce b | verdict b | pending b | outcome b | attest b | heartbeat b =>
    obtain ⟨⟨w', pt⟩, _, he⟩ := map_ok h
    cases he
    cases pt <;> simp [Task.response] at ha

/-- the turn in which a liveness request is answered -/
theorem LivenessTask.exec_answered {now : Time} {db : Db} {w : Write} {l : LivenessTask}
    {answer : LivenessResponse} (h : l.exec P now db = .ok (w, .answered answer)) :
    l.point = .answered answer ∨
      (∃ session, l.point = .decide session ∧ answer = buildLiveness session now) ∨
      ∃ session, l.point = .terminate session answer := by
  cases exec_turn h with
  | kept hp _ => exact .inr (.inl ⟨_, hp, rfl⟩)
  | terminated hp => exact .inr (.inr ⟨_, hp⟩)
  | answered hp => exact .inl hp

/-- **An acknowledged heartbeat protects its session**, in every run whose steps are undisturbed. -/
theorem ack_protects (P : Platform) : AckProtects P (Undisturbed P) := by
  intro s₀ a b s s' e e' id h0 ha hg he hack hrun hg' he' hlt hends
  have hra : Reachable P a := ⟨s₀, h0, ha.toFree⟩
  -- as long as the heartbeat is recent, the session is not one of lost heartbeats
  have hbeaten : Reachable P s ∧ (s.now < a.now + heartbeatLimitMs → Beaten a.now id s) := by
    refine hrun.inv (fun s => Reachable P s ∧ (s.now < a.now + heartbeatLimitMs → Beaten a.now id s))
      (fun x e y hi hgx hx => ⟨hi.1.step hx, fun hy => ?_⟩)
      ⟨hra.step he, fun _ => beaten_of_acknowledges hra he hack⟩
    have hx' := (System.step_move hx).now_le.trans_lt hy
    exact (hi.2 hx').step hi.1 hx' hgx hx
  obtain ⟨hr, hb⟩ := hbeaten
  have hb := hb hlt
  cases hends with
  | terminates pid uuid l reason t' hc ht hexec =>
    obtain ⟨l', session, answer, hl, hp, hid, _⟩ | ⟨_, _, hl, _⟩ := Task.exec_terminateSession hexec
    · cases hl
      exact hb.not_terminated hr hlt hg' hc ht hp hid.symm
    · cases hl
  | answers pid answer hgo hres hid hkick hreason =>
    obtain ⟨hres₀, _⟩ | ⟨er, her⟩ | ⟨uuid, w, t, t', hc, ht, hopen, hexec, _, hans⟩ :=
      System.response_cases he' hres
    · rw [hgo] at hres₀
      cases hres₀
    · cases her
    · obtain ⟨l, rfl, hx⟩ := Task.exec_liveness_answer hexec hans
      obtain hp | ⟨session, hp, rfl⟩ | ⟨session, hp⟩ := LivenessTask.exec_answered hx
      · rw [Task.response, hp] at hopen
        cases hopen
      · obtain ⟨r, hmem, hrid, hbr⟩ := hb.row
        rw [buildLiveness_sessionId] at hid
        exact hbr.not_saysLost hlt (hg'.copy pid l session hc ht (by rw [hp]; rfl)
          ⟨hkick, hreason⟩ r hmem (hrid.trans hid.symm))
      · obtain ⟨_, _, hsid, _⟩ := (hr.watched pid l ht).terminate session answer hp
        exact hb.not_terminated hr hlt hg' hc ht hp (hsid.symm.trans hid)

/-- the request is a heartbeat for the session -/
def Task.beats (id : Uuid) : Task → Bool
  | .heartbeat t => Uuid.ofText t.beat.sessionId == some id
  | _ => false

/-- the answer is that the player of the session is to be kicked for lost heartbeats -/
def Response.kicks (id : Uuid) : Response → Bool
  | .liveness answer => answer.sessionId == id && answer.shouldKick &&
      answer.reason == some .heartbeat_lost
  | _ => false

open Deployment in
/-- a liveness request reads the row when its grace has just run out, the late heartbeat is recorded
and acknowledged, and the session is terminated all the same -/
theorem overtaken_session_ended : ¬ AckProtects platform Machine.free := by
  intro h
  obtain ⟨a, ha, hrest⟩ := (Option.any_eq_true _ _).mp (show (after .fail_closed readAndBeat).any
    (fun a => (a.response 4).isNone &&
      (System.step platform (.exec 4 (Uuid.small 7)) a).any fun b =>
        ((b.task 4).any (Task.beats (Uuid.small 7)) &&
          decide (b.response 4 = some (.heartbeat acknowledgeResponse))) &&
        (System.step platform (.exec 3 (Uuid.small 7)) b).any fun s =>
          ((s.response 3).isNone && decide (s.now < a.now + heartbeatLimitMs)) &&
          (System.step platform (.exec 3 (Uuid.small 7)) s).any fun s' =>
            (s'.response 3).any (Response.kicks (Uuid.small 7))) = true by
      simp only [after, readAndBeat, attest, List.append_assoc, List.cons_append,
        Machine.run_append, run_attest no_notes (Nat.zero_le 32)]
      decide +kernel)
  obtain ⟨hgo, hrest⟩ := Bool.and_eq_true_iff.mp hrest
  obtain ⟨b, hb, hrest⟩ := (Option.any_eq_true _ _).mp hrest
  obtain ⟨hack, hrest⟩ := Bool.and_eq_true_iff.mp hrest
  obtain ⟨htask, hans⟩ := Bool.and_eq_true_iff.mp hack
  obtain ⟨s, hs, hrest⟩ := (Option.any_eq_true _ _).mp hrest
  obtain ⟨hwindow, hrest⟩ := Bool.and_eq_true_iff.mp hrest
  obtain ⟨hopen, hlt⟩ := Bool.and_eq_true_iff.mp hwindow
  obtain ⟨s', hs', hkicked⟩ := (Option.any_eq_true _ _).mp hrest
  obtain ⟨res, hres, hkicks⟩ := (Option.any_eq_true _ _).mp hkicked
  -- the heartbeat is acknowledged in the step to `b`
  have hacks : Acknowledges a b (Uuid.small 7) := by
    obtain ⟨t, ht, hbeats⟩ := (Option.any_eq_true _ _).mp htask
    cases t with
    | heartbeat t =>
      exact ⟨4, Option.isNone_iff_eq_none.mp hgo, t, acknowledgeResponse, ht, beq_iff_eq.mp hbeats,
        of_decide_eq_true hans, rfl⟩
    | _ => cases hbeats
  refine h _ a b s s' _ _ (Uuid.small 7) (deployment_initial .fail_closed)
    (Machine.Steps.of_run _ _ _ ha) trivial hb hacks (Machine.Steps.single trivial hs) trivial hs'
    (of_decide_eq_true hlt) ?_
  cases res with
  | liveness answer =>
    simp only [Response.kicks, Bool.and_eq_true, beq_iff_eq] at hkicks
    exact .answers 3 answer (Option.isNone_iff_eq_none.mp hopen) hres hkicks.1.1 hkicks.1.2 hkicks.2
  | _ => cases hkicks

end Backend
