import FiveProtect.Backend.GateSoundness

/-!
# Terminated is final

`terminateSession` and `recordHeartbeat` look at the state of the row, `consumeNonce` and
`recordVerdict` do not: a terminated session whose nonce is still live, or whose attestation is
still running, comes back.

* `Unrevived`           the condition on a step: no claim meets a terminated row, and no recorded
                        `allow` does;
* `TerminatedStays`     the rows that are terminated stay so;
* `TerminatedFinal G`   the claim, over runs whose steps meet `G`.
-/

namespace Backend
open Protocol Function

variable {P : Platform} {s s' : System}

/-! ## the condition on a step -/

/-- terminated rows stay terminated -/
def TerminatedStays (s s' : System) : Prop :=
  ∀ r ∈ s.db.sessions, r.state = .terminated →
    ∃ r' ∈ s'.db.sessions, r'.id = r.id ∧ r'.state = .terminated

theorem TerminatedStays.trans {a b c : System} (h : TerminatedStays a b)
    (h' : TerminatedStays b c) : TerminatedStays a c := by
  intro r hr hs
  obtain ⟨x, hx, hid, hxs⟩ := h r hr hs
  obtain ⟨y, hy, hid', hys⟩ := h' x hx hxs
  exact ⟨y, hy, hid'.trans hid, hys⟩

/-- **No revival.** A claim that the step commits does not find a terminated row, and an `allow`
that it records does not meet one. -/
structure Unrevived (P : Platform) (s : System) (e : Event) : Prop where
  claim : ∀ pid a ip r, e.commits? = some pid → s.task pid = some (.attest a) →
    a.point = .claim → P.inetIn a.clientIp = some ip →
    findClaimable P s.now s.db a.request.nonce = some r → r.state ≠ .terminated
  attestation : ∀ pid a session buildAccepted outcome, e.commits? = some pid →
    s.task pid = some (.attest a) → a.point = .recordVerdict session buildAccepted outcome →
    outcome.decision = .allow → ∀ r ∈ s.db.sessions, r.id = session.id → r.state ≠ .terminated
  timeout : ∀ pid q auth deadline session v, e.commits? = some pid →
    s.task pid = some (.verdict q) → q.point = .write auth deadline session v →
    v.decision = .allow → ∀ r ∈ s.db.sessions, r.id = session.id → r.state ≠ .terminated

theorem timeoutUpdate_decision {v : Verdict} (h : (timeoutUpdate v).decision = .allow) :
    v.decision = .allow := by
  simp only [timeoutUpdate] at h
  split at h
  · assumption
  · cases h

/-- the claiming `UPDATE` matches the row `findClaimable` finds -/
theorem findClaimable_of_claimable {now : Time} {db : Db} {nonce : String} {r : AttestationSession}
    (hr : r ∈ db.sessions) (h : r.claimable now (hashNonce P nonce) = true) :
    findClaimable P now db nonce = some r := by
  refine Table.find_eq hr h fun x _ hx => ?_
  have hhash : ∀ y : AttestationSession, y.claimable now (hashNonce P nonce) = true →
      y.nonceHash = hashNonce P nonce := fun y hy => by
    simp only [AttestationSession.claimable, Bool.and_eq_true, beq_iff_eq] at hy
    exact hy.1.1
  simp [Row.clash, Row.key, hhash x hx, hhash r h]

theorem terminatedStays_of_unrevived {e : Event} (hg : Unrevived P s e)
    (he : System.step P e s = some s') : TerminatedStays s s' := by
  intro r hr hs
  obtain ⟨w, hw, hissue⟩ := System.step_write he
  refine ⟨_, (Write.mem_sessions hw).mpr (.inl ⟨r, hr, rfl⟩), Write.onSession_id _ _ _, ?_⟩
  obtain hstay | ⟨digest, ip, rfl, hclaim⟩ | ⟨tenantId, sessionId, v, rfl, hid, htid, hallow⟩ :=
    @Write.onSession_terminated s.now w r hs
  · exact hstay
  · obtain h0 | h0 | ⟨pid, uuid, t, t', hc, ht, hexec, _⟩ := hissue
    · cases h0
    · cases h0
    obtain ⟨a, pt, rfl, hp, rfl, hip, _⟩ := Task.exec_consumeNonce hexec
    exact absurd hs (hg.claim pid a ip r hc ht hp hip (findClaimable_of_claimable hr hclaim))
  · obtain h0 | h0 | ⟨pid, uuid, t, t', hc, ht, hexec, _⟩ := hissue
    · cases h0
    · cases h0
    obtain ⟨a, session, ba, outcome, rfl, hp, _, rfl, rfl, _⟩ |
      ⟨q, auth, deadline, session, verdict, rfl, hp, _, rfl, rfl, _⟩ :=
      Task.exec_recordVerdict hexec
    · exact absurd hs (hg.attestation pid a session ba outcome hc ht hp hallow r hr hid)
    · exact absurd hs (hg.timeout pid q auth deadline session verdict hc ht hp
        (timeoutUpdate_decision hallow) r hr hid)

/-- **A revival changes the state**, so the condition is exact. -/
theorem unrevived_of_stays (h : Reachable P s) {e : Event} (he : System.step P e s = some s')
    (hstay : TerminatedStays s s') : Unrevived P s e := by
  -- the row after the statement is the only one with its id
  have hrow : ∀ r ∈ s.db.sessions, ∀ w : Write, w.exec s.now s.db = .ok s'.db →
      r.state = .terminated → (w.onSession s.now r).state = .terminated := by
    intro r hr w hw hs
    obtain ⟨x, hx, hid, hxs⟩ := hstay r hr hs
    have hmem := (Write.mem_sessions hw).mpr (.inl ⟨r, hr, rfl⟩)
    rwa [Db.eq_of_id hx hmem (hid.trans (Write.onSession_id _ _ _).symm)] at hxs
  refine ⟨?_, ?_, ?_⟩
  · intro pid a ip r hc ht hp hip hfind hs
    have hexec : ∀ uuid, (Task.attest a).exec P s.now uuid s.db = .ok
        (.consumeNonce (hashNonce P a.request.nonce) ip, .attest { a with
          point := .storeSnapshot ((r.claim s.now ip).columns P) }) :=
      fun _ => Task.exec_of_claim hp hip hfind
    have hw : (Write.consumeNonce (hashNonce P a.request.nonce) ip).exec s.now s.db =
        .ok s'.db := by
      rw [(System.step_of_commits hc ht hexec rfl he).1]
      rfl
    obtain ⟨hr, _⟩ := of_findClaimable P hfind
    have hend := hrow r hr _ hw hs
    rw [onSession_consumeNonce P hfind hr, if_pos rfl] at hend
    cases hend
  · intro pid a session ba outcome hc ht hp hallow r hr hid hs
    have hout : a.point.outcome? = some (session, ba, outcome) := by
      rw [hp]
      rfl
    have hclaim := claim?_of_consumed h.losers ht (AttestPoint.session?_of_outcome hout).2
    obtain ⟨x, hx, hof⟩ := h.redemption.claimed pid _ hclaim
    have hxr : x = r := Db.eq_of_id hx hr (hof.id.symm.trans hid.symm)
    have hw : (Write.recordVerdict session.tenantId session.id outcome.update).exec s.now s.db =
        .ok s'.db := by
      rw [(System.step_of_commits hc ht (fun _ => Task.exec_of_recordVerdict hp) rfl he).1]
      rfl
    have hend := hrow r hr _ hw hs
    rw [show (Write.recordVerdict session.tenantId session.id outcome.update).onSession s.now r =
      r.judge s.now outcome.update from if_pos ⟨hid, hxr ▸ hof.tenantId.symm⟩] at hend
    simp [AttestationSession.judge, PolicyOutcome.update, hallow] at hend
  · intro pid q auth deadline session v hc ht hp hallow r hr hid hs
    obtain ⟨_, ⟨x, hx, hxid, hxt⟩, _⟩ :=
      (congrArg (Polled s.now s.db) hp).mp (h.established.verdict pid q ht)
    have hxr : x = r := Db.eq_of_id hx hr (hxid.trans hid.symm)
    have hw : (Write.recordVerdict auth.tenant.id session.id (timeoutUpdate v)).exec s.now s.db =
        .ok s'.db := by
      rw [(System.step_of_commits hc ht (fun _ => Task.exec_of_write hp) rfl he).1]
      rfl
    have hend := hrow r hr _ hw hs
    rw [show (Write.recordVerdict auth.tenant.id session.id (timeoutUpdate v)).onSession s.now r =
      r.judge s.now (timeoutUpdate v) from if_pos ⟨hid, hxr ▸ hxt⟩] at hend
    simp [AttestationSession.judge, timeoutUpdate, hallow] at hend

/-! ## heartbeats -/

/-- the session a heartbeat has read -/
def HeartbeatPoint.session? : HeartbeatPoint → Option SessionRow
  | .currentBuildHash session => some session
  | .terminateSession session _ => some session
  | .recordHeartbeat session => some session
  | _ => none

theorem HeartbeatTask.exec_session {db : Db} {w : Write} {t : HeartbeatTask} {pt : HeartbeatPoint}
    {session : SessionRow} (h : t.exec P db = .ok (w, pt)) (hs : pt.session? = some session) :
    t.point.session? = some session ∨ Uuid.ofText t.beat.sessionId = some session.id := by
  unfold exec at h
  split at h
  · split at h
    · cases h
    · cases h
      cases hs
    · rename_i row hf
      obtain ⟨r, _, rfl, hid⟩ := findByIdUnscoped_some P hf
      cases h
      cases hs
      exact .inr hid
  · rename_i row hp
    left
    rw [hp]
    split at h
    · cases h
      exact hs
    · cases h
      exact hs
  all_goals
    cases h
    cases hs

/-- where an answer comes from -/
theorem HeartbeatTask.exec_answered {db : Db} {w : Write} {t : HeartbeatTask}
    {answer : HeartbeatResponse} (h : t.exec P db = .ok (w, .answered answer)) :
    t.point = .answered answer ∨
      (∃ session reason, t.point = .terminateSession session reason ∧
        answer = terminateResponse reason) ∨
      ∃ session, t.point = .recordHeartbeat session ∧
        answer = if extended db session.id then acknowledgeResponse
          else terminateResponse .heartbeat_lost := by
  unfold exec at h
  split at h
  · split at h <;> cases h
  · split at h <;> cases h
  · rename_i session reason hp
    cases h
    exact .inr (.inl ⟨session, reason, hp, rfl⟩)
  · rename_i session hp
    cases h
    exact .inr (.inr ⟨session, hp, rfl⟩)
  · rename_i hp
    cases h
    exact .inl hp
  · cases h

/-- a heartbeat works on the session it names -/
def Named (s : System) : Prop :=
  ∀ pid t session, s.task pid = some (.heartbeat t) → t.point.session? = some session →
    Uuid.ofText t.beat.sessionId = some session.id

theorem Task.exec_heartbeat {now : Time} {uuid : Uuid} {db : Db} {w : Write} {t : Task}
    {b : HeartbeatTask} (h : t.exec P now uuid db = .ok (w, .heartbeat b)) :
    ∃ b₀ pt, t = .heartbeat b₀ ∧ b = { b₀ with point := pt } ∧ b₀.exec P db = .ok (w, pt) := by
  cases t with
  | heartbeat b₀ =>
    obtain ⟨⟨w', pt⟩, hx, he⟩ := map_ok h
    cases he
    exact ⟨b₀, pt, rfl, rfl, hx⟩
  | refused e => cases h
  | _ =>
    obtain ⟨_, _, he⟩ := map_ok h
    cases he

theorem Request.start_heartbeat {now : Time} {rq : Request} {b : HeartbeatTask}
    (h : rq.start now = .heartbeat b) : b.point = .read := by
  cases rq <;> simp only [Request.start] at h
  all_goals
    try split at h
    all_goals cases h
    all_goals rfl

theorem Reachable.named (h : Reachable P s) : Named s := by
  refine h.inv _ (fun s h0 pid t session ht => ?_) fun s s' hi hm pid t session ht hs => ?_
  · rw [System.task, h0.procs] at ht
    cases ht
  · obtain hsame | ⟨rq, hstart, _⟩ | ⟨uuid, w, t₀, ht₀, hexec, _⟩ := hm.of_task_some ht
    · exact hi pid t session hsame hs
    · rw [Request.start_heartbeat hstart.symm] at hs
      cases hs
    · obtain ⟨b, pt, rfl, rfl, hx⟩ := Task.exec_heartbeat hexec
      obtain hp | hid := HeartbeatTask.exec_session hx hs
      · exact hi pid b session ht₀ hp
      · exact hid

/-- the request `pid` is a heartbeat for the session `id`, and was acknowledged -/
def Acknowledged (s : System) (pid : Nat) (id : Uuid) : Prop :=
  ∃ t answer, s.task pid = some (.heartbeat t) ∧ Uuid.ofText t.beat.sessionId = some id ∧
    s.response pid = some (.heartbeat answer) ∧ answer.acknowledged = true

/-- an acknowledgement that a step adds is for an active session -/
theorem acknowledged_of_step (h : Reachable P s) {e : Event} (he : System.step P e s = some s')
    {pid : Nat} {id : Uuid} (hack : Acknowledged s' pid id) :
    Acknowledged s pid id ∨ ∃ r ∈ s.db.sessions, r.id = id ∧ r.state = .active := by
  obtain ⟨t, answer, ht, hid, hres, htrue⟩ := hack
  obtain ⟨hres₀, htask⟩ | ⟨er, her⟩ | ⟨uuid, w, t₀, t', hc, ht₀, hrun, hexec, ht', hans⟩ :=
    System.response_cases he hres
  · exact .inl ⟨t, answer, htask.symm.trans ht, hid, hres₀, htrue⟩
  · cases her
  · rw [ht] at ht'
    cases ht'
    obtain ⟨b, pt, rfl, rfl, hx⟩ := Task.exec_heartbeat hexec
    have hpt : pt = .answered answer := by
      cases pt <;> simp_all [Task.response]
    subst hpt
    obtain hp | ⟨session, reason, _, hpt⟩ | ⟨session, hp, hpt⟩ := HeartbeatTask.exec_answered hx
    · rw [Task.response, hp] at hrun
      cases hrun
    · rw [hpt] at htrue
      cases htrue
    · rw [hpt] at htrue
      right
      split at htrue
      · rename_i hext
        obtain ⟨r, hr⟩ := Option.isSome_iff_exists.mp hext
        obtain ⟨hmem, hpr⟩ := Table.mem_of_find hr
        simp only [Bool.and_eq_true, beq_iff_eq, decide_eq_true_eq] at hpr
        have hname := h.named pid b session ht₀ (by rw [hp]; rfl)
        exact ⟨r, hmem, by rw [hpr.1]; exact Option.some.inj (hname.symm.trans hid), hpr.2⟩
      · cases htrue

/-! ## the claim on termination -/

/-- what was terminated in `s` is terminated in `s'`, and no heartbeat for it was acknowledged in
between -/
structure TerminatedFrom (s s' : System) : Prop where
  state : TerminatedStays s s'
  acknowledged : ∀ r ∈ s.db.sessions, r.state = .terminated → ∀ pid, Acknowledged s' pid r.id →
    Acknowledged s pid r.id

theorem TerminatedFrom.refl (s : System) : TerminatedFrom s s :=
  ⟨fun r hr hs => ⟨r, hr, rfl, hs⟩, fun _ _ _ _ => id⟩

theorem TerminatedFrom.trans {a b c : System} (h : TerminatedFrom a b)
    (h' : TerminatedFrom b c) : TerminatedFrom a c := by
  refine ⟨h.state.trans h'.state, fun r hr hs pid hack => ?_⟩
  obtain ⟨x, hx, hid, hxs⟩ := h.state r hr hs
  rw [← hid] at hack
  have hb := h'.acknowledged x hx hxs pid hack
  rw [hid] at hb
  exact h.acknowledged r hr hs pid hb

theorem TerminatedFrom.of_step (h : Reachable P s) {e : Event} (hg : Unrevived P s e)
    (he : System.step P e s = some s') : TerminatedFrom s s' := by
  refine ⟨terminatedStays_of_unrevived hg he, fun r hr hs pid hack => ?_⟩
  obtain hbefore | ⟨x, hx, hid, hactive⟩ := acknowledged_of_step h he hack
  · exact hbefore
  · rw [Db.eq_of_id hx hr hid, hs] at hactive
    cases hactive

/-- terminated is final, in all runs whose steps meet `G` -/
def TerminatedFinal (P : Platform) (G : System → Event → Prop) : Prop :=
  ∀ s₀ s s' : System, s₀.Initial → Machine.Steps (System.step P) G s₀ s →
    Machine.Steps (System.step P) G s s' → TerminatedFrom s s'

/-- **Terminated is final, in every run without a revival**, and a step keeps the terminated rows
exactly if it is none. -/
theorem terminated_final (P : Platform) : TerminatedFinal P (Unrevived P) ∧
    ∀ s s' e, Reachable P s → System.step P e s = some s' →
      (TerminatedStays s s' ↔ Unrevived P s e) := by
  refine ⟨fun s₀ s s' h0 hs hs' => ?_, fun s s' e h he => ?_⟩
  · exact hs'.keeps (Reachable P) TerminatedFrom (fun _ _ _ h _ he => h.step he)
      TerminatedFrom.refl (fun _ _ _ => TerminatedFrom.trans)
      (fun _ _ _ h hg he => TerminatedFrom.of_step h hg he) ⟨s₀, h0, hs.toFree⟩
  · exact ⟨unrevived_of_stays h he, fun hg => terminatedStays_of_unrevived hg he⟩

open Deployment in
/-- a poll times out and denies the player; the attestation that follows ten seconds before the
nonce expires makes the session active -/
theorem terminated_revived : ¬ TerminatedFinal platform Machine.free := by
  intro h
  obtain ⟨s, hs, hrest⟩ := (Option.any_eq_true _ _).mp (show (after .fail_closed (issue ++
    pollToDeadline)).any (fun s =>
      decide (∃ r ∈ s.db.sessions.rows, r.state = .terminated) &&
      (Machine.run (System.step platform) (attest []) s).any fun s' =>
        decide (∀ r ∈ s'.db.sessions.rows, r.state = .active)) = true by
      simp only [attest, run_attest no_notes (Nat.zero_le 32)]
      decide +kernel)
  obtain ⟨hbefore, hlater⟩ := Bool.and_eq_true_iff.mp hrest
  obtain ⟨s', hs', hafter⟩ := (Option.any_eq_true _ _).mp hlater
  obtain ⟨r, hr, hstate⟩ := of_decide_eq_true hbefore
  have hfinal := h _ s s' (deployment_initial .fail_closed) (Machine.Steps.of_run _ _ _ hs)
    (Machine.Steps.of_run _ _ _ hs')
  obtain ⟨r', hr', _, hstate'⟩ := hfinal.state r hr hstate
  rw [of_decide_eq_true hafter r' hr'] at hstate'
  cases hstate'

end Backend
