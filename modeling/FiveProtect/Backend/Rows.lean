import FiveProtect.Backend.Deployment
import FiveProtect.Backend.Turns

/-!
# Backend: the rows of `attestation_sessions`

What the columns of a session say together.  The schema leaves it open: a `CHECK` on any of this would never fire.

* `AttestationSession.Sound`     the columns of a row at a time of the clock;
* `Write.onSession_sound`        every statement keeps it;
* `SessionState.Next`            the changes of `state` there are;
* `Reachable.rows`               what holds of every row in every run, and of every step.
-/

namespace Backend
open Protocol Function

namespace AttestationSession

/-- nothing has happened to the row -/
def Untouched (r : AttestationSession) : Prop :=
  r.consumedAt = none ∧ r.verdictDecision = .pending ∧ r.terminatedAt = none

/-- what `state` says of the other columns -/
def InState (now : Time) (r : AttestationSession) : Prop :=
  match r.state with
  | .pending => r.Untouched
  | .expired => r.Untouched ∧ r.expiresAt < now
  | .attested => r.consumedAt ≠ none
  | .active => r.verdictDecision = .allow ∧
      ∃ e l, r.evaluatedAt = some e ∧ r.lastHeartbeatAt = some l ∧ e ≤ l
  | .terminated => r.verdictDecision = .deny ∨ r.terminatedAt ≠ none

/-- a time that lies between the issue of the row and now -/
def Since (now : Time) (r : AttestationSession) (column : Option Time) : Prop :=
  ∀ t, column = some t → r.issuedAt ≤ t ∧ t ≤ now

structure Sound (now : Time) (r : AttestationSession) : Prop where
  window : r.expiresAt = r.issuedAt + nonceTtlSeconds * 1000
  issued : r.issuedAt ≤ now
  /-- the columns of the claiming `UPDATE` -/
  claimed : r.attestedAt = r.consumedAt ∧ r.attestationIp.isSome = r.consumedAt.isSome ∧
    r.nonceSealed.isNone = r.consumedAt.isSome
  consumed : r.Since now r.consumedAt ∧ ∀ t, r.consumedAt = some t → t < r.expiresAt
  judged : r.evaluatedAt = none ↔ r.verdictDecision = .pending
  evaluated : r.Since now r.evaluatedAt
  unjudged : r.verdictDecision = .pending → r.verdict = (.pending, [], [], none, false) ∧
    r.lastHeartbeatAt = none
  beaten : r.Since now r.lastHeartbeatAt
  grace : ∀ g, r.graceExpiresAt = some g →
    ∃ l, r.lastHeartbeatAt = some l ∧ g ≤ l + heartbeatGraceSeconds * 1000
  ended : r.terminatedAt.isSome = r.terminationReason.isSome ∧ r.Since now r.terminatedAt
  state : r.InState now

variable {now later : Time} {r : AttestationSession}

theorem Since.none : r.Since now none := fun _ h => by cases h

theorem Since.of_now {column : Option Time} (h : r.issuedAt ≤ now) (hc : column = some now) : r.Since now column := by
  intro t ht
  rw [hc] at ht
  cases ht
  exact ⟨h, le_refl now⟩

theorem Since.mono {column : Option Time} (h : r.Since now column) (hle : now ≤ later) : r.Since later column :=
  fun t ht => ⟨(h t ht).1, (h t ht).2.trans hle⟩

theorem InState.mono (h : r.InState now) (hle : now ≤ later) : r.InState later := by
  unfold InState at h ⊢
  cases hstate : r.state with
  | expired =>
    rw [hstate] at h
    exact ⟨h.1, h.2.trans_le hle⟩
  | _ =>
    rw [hstate] at h
    exact h

/-- time passes -/
theorem Sound.mono (h : r.Sound now) (hle : now ≤ later) : r.Sound later where
  window := h.window
  issued := h.issued.trans hle
  claimed := h.claimed
  consumed := ⟨h.consumed.1.mono hle, h.consumed.2⟩
  judged := h.judged
  evaluated := h.evaluated.mono hle
  unjudged := h.unjudged
  beaten := h.beaten.mono hle
  grace := h.grace
  ended := ⟨h.ended.1, h.ended.2.mono hle⟩
  state := h.state.mono hle

theorem Sound.claim (h : r.Sound now) (hlive : now < r.expiresAt) (ip : Inet) : (r.claim now ip).Sound now where
  window := h.window
  issued := h.issued
  claimed := ⟨rfl, rfl, rfl⟩
  consumed := ⟨Since.of_now h.issued rfl, fun t ht => by cases ht; exact hlive⟩
  judged := h.judged
  evaluated := h.evaluated
  unjudged := h.unjudged
  beaten := h.beaten
  grace := h.grace
  ended := h.ended
  state := by
    show some now ≠ none
    exact Option.some_ne_none now

theorem Sound.judge (h : r.Sound now) (v : VerdictUpdate) : (r.judge now v).Sound now := by
  have hdecided : v.decision.verdict ≠ .pending := by
    cases v.decision with
    | allow => exact fun h => by cases h
    | deny => exact fun h => by cases h
  refine ⟨h.window, h.issued, h.claimed, h.consumed, ?_, Since.of_now h.issued rfl, ?_, ?_, ?_, h.ended, ?_⟩
  · exact ⟨fun hnone => absurd hnone (Option.some_ne_none now), fun hpending => absurd hpending hdecided⟩
  · exact fun hpending => absurd hpending hdecided
  · show r.Since now (if v.decision = .allow then some now else r.lastHeartbeatAt)
    split
    · exact Since.of_now h.issued rfl
    · exact h.beaten
  · -- a heartbeat that was there is not later than this one
    intro g hg
    obtain ⟨l, hl, hle⟩ := h.grace g hg
    show ∃ l, (if v.decision = .allow then some now else r.lastHeartbeatAt) = some l ∧ _
    split
    · exact ⟨now, rfl, hle.trans (Nat.add_le_add_right (h.beaten l hl).2 _)⟩
    · exact ⟨l, hl, hle⟩
  · unfold InState AttestationSession.judge
    cases hv : v.decision with
    | allow => exact ⟨rfl, now, now, rfl, rfl, le_refl now⟩
    | deny => exact .inl rfl

theorem Sound.beat (h : r.Sound now) (hactive : r.state = .active) :
    (r.beat now heartbeatGraceSeconds).Sound now := by
  have hstate := h.state
  unfold InState at hstate
  rw [hactive] at hstate
  obtain ⟨hallow, e, l, he, hl, hle⟩ := hstate
  refine ⟨h.window, h.issued, h.claimed, h.consumed, h.judged, h.evaluated, fun hpending => ?_,
    Since.of_now h.issued rfl, fun g hg => ⟨now, rfl, ?_⟩, h.ended, ?_⟩
  · have hp : r.verdictDecision = .pending := hpending
    rw [hallow] at hp
    cases hp
  · cases hg
    exact le_refl _
  · unfold InState
    rw [show (r.beat now heartbeatGraceSeconds).state = .active from hactive]
    exact ⟨hallow, e, now, he, rfl, (h.evaluated e he).2⟩

theorem Sound.terminate (h : r.Sound now) (reason : DenyReason) : (r.terminate now reason).Sound now :=
  ⟨h.window, h.issued, h.claimed, h.consumed, h.judged, h.evaluated, h.unjudged, h.beaten, h.grace,
    ⟨rfl, Since.of_now h.issued rfl⟩, .inr (Option.some_ne_none now)⟩

theorem Sound.expire (h : r.Sound now) (hpending : r.state = .pending) (hpast : r.expiresAt < now) :
    r.expire.Sound now := by
  have hstate := h.state
  unfold InState at hstate
  rw [hpending] at hstate
  exact ⟨h.window, h.issued, h.claimed, h.consumed, h.judged, h.evaluated, h.unjudged, h.beaten, h.grace, h.ended,
    ⟨hstate, hpast⟩⟩

end AttestationSession

/-! ## statements -/

/-- a statement with the parameters the routes give it -/
def Write.Timely (now : Time) : Write → Prop
  | .createSession row => row.Sound now
  | .recordHeartbeat _ graceSeconds => graceSeconds = heartbeatGraceSeconds
  | _ => True

section
variable {P : Platform} {now : Time} {uuid : Uuid} {db : Db} {w : Write} {t t' : Task} {r : AttestationSession}

/-- **One statement.**  It keeps what the columns of a row say together. -/
theorem Write.onSession_sound (h : r.Sound now) (hw : w.Timely now) : (w.onSession now r).Sound now := by
  cases w with
  | consumeNonce digest ip =>
    simp only [onSession]
    split
    · rename_i hclaimable
      simp only [AttestationSession.claimable, Bool.and_eq_true, decide_eq_true_eq] at hclaimable
      exact h.claim hclaimable.2 ip
    · exact h
  | recordVerdict tenantId sessionId verdict =>
    simp only [onSession]
    split
    · exact h.judge verdict
    · exact h
  | recordHeartbeat sessionId graceSeconds =>
    cases hw
    simp only [onSession]
    split
    · rename_i hactive
      exact h.beat hactive.2
    · exact h
  | terminateSession sessionId reason =>
    simp only [onSession]
    split
    · exact h.terminate reason
    · exact h
  | expireStaleSessions =>
    simp only [onSession]
    split
    · rename_i hstale
      exact h.expire hstale.1 hstale.2
    · exact h
  | _ => exact h

theorem NonceTask.newSession_sound (n : NonceTask) (auth : AuthenticatedServer) (playerIdentityId : Uuid)
    (gameIp : Inet) : (n.newSession P now uuid auth playerIdentityId gameIp).Sound now where
  window := rfl
  issued := le_refl now
  claimed := ⟨rfl, rfl, rfl⟩
  consumed := ⟨AttestationSession.Since.none, fun _ h => by cases h⟩
  judged := ⟨fun _ => rfl, fun _ => rfl⟩
  evaluated := AttestationSession.Since.none
  unjudged := fun _ => ⟨rfl, rfl⟩
  beaten := AttestationSession.Since.none
  grace := fun _ h => by cases h
  ended := ⟨rfl, AttestationSession.Since.none⟩
  state := ⟨rfl, rfl, rfl⟩

theorem Task.exec_timely (h : t.exec P now uuid db = .ok (w, t')) : w.Timely now := by
  obtain ⟨a, pt, rfl, _, hturn⟩ | ⟨q, pt, rfl, _, hturn⟩ | ⟨n, pt, rfl, _, hturn⟩ | ⟨_, _, hw⟩ := Task.exec_cases h
  · cases hturn <;> trivial
  · cases hturn <;> trivial
  · cases hturn with
    | created hp hip => exact NonceTask.newSession_sound n _ _ _
    | _ => trivial
  · rcases hw with rfl | ⟨id, reason, rfl⟩ | ⟨id, rfl⟩
    · trivial
    · trivial
    · exact rfl

end

/-! ## runs -/

section
variable {P : Platform} {s s' : System}

theorem Move.timely (h : Move P s s') : ∃ w : Write, w.exec s.now s.db = .ok s'.db ∧ w.Timely s.now := by
  obtain ⟨w, hw, rfl | rfl | ⟨pid, uuid, t, t', _, hexec, _⟩⟩ := h.write
  · exact ⟨.none, hw, trivial⟩
  · exact ⟨.expireStaleSessions, hw, trivial⟩
  · exact ⟨w, hw, Task.exec_timely hexec⟩

theorem Move.sound (hinv : ∀ r ∈ s.db.sessions, r.Sound s.now) (h : Move P s s') :
    ∀ r ∈ s'.db.sessions, r.Sound s'.now := by
  intro r' hr'
  obtain ⟨w, hw, htimely⟩ := h.timely
  apply AttestationSession.Sound.mono _ h.now_le
  rcases (Write.mem_sessions hw).mp hr' with ⟨r, hr, rfl⟩ | hnew
  · exact Write.onSession_sound (hinv r hr) htimely
  · cases w with
    | createSession row =>
      cases hnew
      exact htimely
    | _ => cases hnew

theorem Reachable.sound (h : Reachable P s) : ∀ r ∈ s.db.sessions, r.Sound s.now := by
  refine h.inv (fun s => ∀ r ∈ s.db.sessions, r.Sound s.now) (fun s h0 r hr => ?_) fun _ _ hs hm => hm.sound hs
  rw [h0.sessions] at hr
  exact absurd hr (Table.not_mem_empty r)

end

/-! ## the state column -/

/-- the changes of `state` that statements make -/
inductive SessionState.Next : SessionState → SessionState → Prop
  | same (x : SessionState) : Next x x
  | expired : Next .pending .expired
  /-- the claiming `UPDATE` asks for `consumed_at` and `expires_at`, not for the state -/
  | claimed (x : SessionState) (h : x ≠ .expired) (h' : x ≠ .attested) : Next x .attested
  | admitted (x : SessionState) : Next x .active
  | ended (x : SessionState) : Next x .terminated

section
variable {P : Platform} {s s' : System}

theorem Write.onSession_next {now : Time} {w : Write} {r : AttestationSession} (h : r.Sound now) :
    SessionState.Next r.state (w.onSession now r).state := by
  have hstate := h.state
  unfold AttestationSession.InState at hstate
  cases w with
  | consumeNonce digest ip =>
    simp only [onSession]
    split
    · rename_i hclaimable
      simp only [AttestationSession.claimable, Bool.and_eq_true, decide_eq_true_eq, Option.isNone_iff_eq_none]
        at hclaimable
      obtain ⟨⟨_, hnone⟩, hlive⟩ := hclaimable
      refine .claimed r.state (fun hexpired => ?_) fun hattested => ?_
      · rw [hexpired] at hstate
        exact absurd hlive (not_lt.mpr hstate.2.le)
      · rw [hattested] at hstate
        exact hstate hnone
    · exact .same _
  | recordVerdict tenantId sessionId verdict =>
    simp only [onSession]
    split
    · simp only [AttestationSession.judge]
      split
      · exact .admitted _
      · exact .ended _
    · exact .same _
  | recordHeartbeat sessionId graceSeconds =>
    simp only [onSession]
    split
    · exact .same _
    · exact .same _
  | terminateSession sessionId reason =>
    simp only [onSession]
    split
    · exact .ended _
    · exact .same _
  | expireStaleSessions =>
    simp only [onSession]
    split
    · rename_i hstale
      rw [hstale.1]
      exact .expired
    · exact .same _
  | _ => exact .same _

/-- **Sessions.**  Whatever requests, faults and sweeps run at the same time, the columns of every row agree with each
other and with the clock; and a step leaves every session there with its keys, and changes its state as `Next` says:
none goes back to `pending`, and none that has expired is attested. -/
theorem Reachable.rows (h : Reachable P s) : (∀ r ∈ s.db.sessions, r.Sound s.now) ∧
    ∀ e s', System.step P e s = some s' → ∀ r ∈ s.db.sessions,
      ∃ r' ∈ s'.db.sessions, r'.fixed = r.fixed ∧ SessionState.Next r.state r'.state := by
  refine ⟨h.sound, fun e s' he r hr => ?_⟩
  obtain ⟨w, hw⟩ := (System.step_move he).exists_write
  exact ⟨w.onSession s.now r, (Write.mem_sessions hw).mpr (.inl ⟨r, hr, rfl⟩), Write.onSession_fixed s.now w r,
    Write.onSession_next (h.sound r hr)⟩

end

/-- the row of an admitted player -/
theorem Reachable.rows_admitted : ∃ s, Reachable Deployment.platform s ∧
    Deployment.admittedRow ∈ s.db.sessions ∧ Deployment.admittedRow.Sound s.now := by
  obtain ⟨s, hrun, _, hdb⟩ := Deployment.attested .fail_open
  have hmem : Deployment.admittedRow ∈ s.db.sessions := by
    rw [hdb]
    exact List.mem_singleton.mpr rfl
  have hreach := Deployment.reachable_after hrun
  exact ⟨s, hreach, hmem, (Reachable.rows hreach).1 _ hmem⟩

end Backend
