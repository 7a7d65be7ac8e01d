import FiveProtect.Backend.Deployment
import FiveProtect.Companion.Worker

/-!
# The heartbeats of the companion and the patience of the backend

The worker with one session and no other jobs, composed with the row of that session: a heartbeat is
attempted the moment it is due, and extends the row if the backend records it.  An attempt that fails
is made up for an interval later, not within the grace period.

* `Composed.Started`    the worker and the row after an attestation that was allowed;
* `after_scheduled`     the attempts are an interval apart, whether they fail or not;
* `never_kicked_iff`    no attempt may be lost but within the last 90 seconds.
-/

namespace Companion
open Protocol Backend

/-! ## worker and row -/

/-- how an attempt ends; a failed one may have been recorded all the same -/
inductive Attempt where
  | acknowledged
  | failed (error : BackendError) (recorded : Bool)

def Attempt.recorded : Attempt → Bool
  | .acknowledged => true
  | .failed _ recorded => recorded

/-- the answer of the backend, as received -/
def received (answer : Protocol.HeartbeatResponse) : HeartbeatResponse :=
  ⟨answer.nextIntervalSeconds, answer.terminate⟩

def Attempt.answer : Attempt → Except BackendError HeartbeatResponse
  | .acknowledged => .ok (received acknowledgeResponse)
  | .failed error _ => .error error

/-- the variables of the worker, the row of its session, and the instant of its last turn -/
structure Composed where
  loop : Loop
  row : AttestationSession
  instant : Time

/-- a turn in which the next heartbeat is due -/
def beatTurn (now : Time) (snapshot : SystemSnapshot) (a : Attempt) : Turn where
  received := .timeout
  now := now
  scan := .ok snapshot
  rescan := .ok snapshot
  attest := .error (.malformed "")
  outcome := .ok none
  heartbeat := a.answer

/-- the next heartbeat -/
def Composed.beat (w : Worker) (snapshot : SystemSnapshot) (a : Attempt) (c : Composed) : Composed :=
  match c.loop.active with
  | none => c
  | some session =>
    { loop := (w.turn (beatTurn session.nextBeat snapshot a) c.loop).2.getD c.loop
      row := if a.recorded then
          (Write.recordHeartbeat c.row.id heartbeatGraceSeconds).onSession session.nextBeat c.row
        else c.row
      instant := session.nextBeat }

/-- after `k` attempts -/
def Composed.after (w : Worker) (snapshot : SystemSnapshot) (attempts : Nat → Attempt)
    (c : Composed) : Nat → Composed
  | 0 => c
  | k + 1 => (c.after w snapshot attempts k).beat w snapshot (attempts k)

/-- the session of an attestation that was allowed at `t₀` -/
structure Composed.Started (t₀ : Nat) (c : Composed) : Prop where
  active : ∃ sessionId, c.loop.active = some ⟨sessionId, heartbeatIntervalMs, t₀ + heartbeatIntervalMs⟩
  state : c.row.state = .active
  lastHeartbeatAt : c.row.lastHeartbeatAt = some t₀
  instant : c.instant = t₀

/-- an attestation that the backend acknowledged and allowed at `t₀` starts the schedule -/
theorem Composed.Started.of_allowed {w : Worker} {t : Turn} {s : Loop} {pending : Pending}
    {snapshot : SystemSnapshot} {sessionId : String} {verdict : Verdict} {r : AttestationSession}
    {update : VerdictUpdate} (hjob : t.received = .job (.collected pending))
    (hnew : s.lastNonce ≠ some pending.nonce) (hscan : t.scan = .ok snapshot)
    (hattest : t.attest = .ok ⟨sessionId, heartbeatIntervalSeconds⟩)
    (houtcome : t.outcome = .ok (some verdict)) (hallow : verdict.decision = .allow)
    (hupdate : update.decision = .allow) :
    Composed.Started t.now ⟨(w.turn t s).2.getD s, r.judge t.now update, t.now⟩ := by
  have hne : verdict.decision ≠ .deny := by
    rw [hallow]
    decide
  have hloop : ((w.turn t s).2.getD s).active =
      some (Worker.activate t.now ⟨sessionId, heartbeatIntervalSeconds⟩) := by
    simp [Worker.turn, hjob, Job.nonce, hnew, Worker.onNonce, hscan, Worker.onScanned, hattest,
      Worker.onAck, houtcome, hne]
  exact ⟨⟨sessionId, hloop⟩, if_pos hupdate, if_pos hupdate, rfl⟩

section
variable {P : Platform} {w : Worker} {snapshot : SystemSnapshot} {attempts : Nat → Attempt}
  {t₀ : Nat} {c : Composed}

/-! ## the schedule -/

/-- the instant of attempt `k`; attempt 0 is the attestation -/
def due (t₀ k : Nat) : Nat := t₀ + k * 120000

theorem due_succ (t₀ k : Nat) : due t₀ (k + 1) = due t₀ k + 120000 := by
  show t₀ + (k + 1) * 120000 = t₀ + k * 120000 + 120000
  omega

/-- the instant of the last attempt up to `k` that the backend recorded -/
def lastRecorded (attempts : Nat → Attempt) (t₀ : Nat) : Nat → Nat
  | 0 => t₀
  | k + 1 => if (attempts k).recorded then due t₀ (k + 1) else lastRecorded attempts t₀ k

/-- a beat that is acknowledged or fails puts the next one an interval later -/
theorem beat_active {sessionId : String} {next : Nat} (a : Attempt)
    (h : c.loop.active = some ⟨sessionId, heartbeatIntervalMs, next⟩) :
    (c.beat w snapshot a).loop.active =
      some ⟨sessionId, heartbeatIntervalMs, next + heartbeatIntervalMs⟩ := by
  simp only [Composed.beat, h, Worker.turn, beatTurn, Worker.onBeat]
  cases a with
  | acknowledged => rfl
  | failed error recorded => rfl

variable (w snapshot) in
/-- what a beat does to the row -/
theorem beat_row {session : Active} (a : Attempt) (h : c.loop.active = some session)
    (hs : c.row.state = .active) :
    (c.beat w snapshot a).row.state = .active ∧ (c.beat w snapshot a).row.lastHeartbeatAt =
      if a.recorded then some session.nextBeat else c.row.lastHeartbeatAt := by
  have hrow : (Write.recordHeartbeat c.row.id heartbeatGraceSeconds).onSession session.nextBeat c.row =
      c.row.beat session.nextBeat heartbeatGraceSeconds := if_pos ⟨rfl, hs⟩
  simp only [Composed.beat, h]
  by_cases hr : a.recorded = true
  · rw [if_pos hr, if_pos hr, hrow]
    exact ⟨hs, rfl⟩
  · rw [if_neg hr, if_neg hr]
    exact ⟨hs, rfl⟩

variable (w snapshot attempts) in
/-- **The schedule.** The attempts are an interval apart, whether they fail or not. -/
theorem after_scheduled (h : c.Started t₀) (k : Nat) :
    (∃ sessionId, (c.after w snapshot attempts k).loop.active =
      some ⟨sessionId, heartbeatIntervalMs, due t₀ (k + 1)⟩) ∧
    (c.after w snapshot attempts k).instant = due t₀ k ∧
    (c.after w snapshot attempts k).row.state = .active ∧
    (c.after w snapshot attempts k).row.lastHeartbeatAt = some (lastRecorded attempts t₀ k) := by
  induction k with
  | zero =>
    obtain ⟨sessionId, hactive⟩ := h.active
    refine ⟨⟨sessionId, ?_⟩, ?_, h.state, h.lastHeartbeatAt⟩
    · show c.loop.active = _
      rw [hactive]
      rfl
    · show c.instant = _
      rw [h.instant, due, Nat.zero_mul, Nat.add_zero]
  | succ k ih =>
    obtain ⟨⟨sessionId, hactive⟩, _, hstate, hlast⟩ := ih
    obtain ⟨hstate', hlast'⟩ := beat_row w snapshot (attempts k) hactive hstate
    refine ⟨⟨sessionId, ?_⟩, ?_, hstate', ?_⟩
    · rw [due_succ t₀ (k + 1)]
      exact beat_active (attempts k) hactive
    · show (Composed.beat w snapshot (attempts k) _).instant = _
      simp only [Composed.beat, hactive]
    · show (Composed.beat w snapshot (attempts k) _).row.lastHeartbeatAt = _
      rw [hlast', hlast, lastRecorded]
      split
      · rfl
      · rfl

/-! ## the kick -/

/-- no moment of the run up to the horizon, between an attempt and the next, is one to kick -/
def NeverKicked (P : Platform) (w : Worker) (snapshot : SystemSnapshot) (attempts : Nat → Attempt)
    (c : Composed) (horizon : Nat) : Prop :=
  ∀ k session now, (c.after w snapshot attempts k).loop.active = some session →
    (c.after w snapshot attempts k).instant ≤ now → now ≤ session.nextBeat → now ≤ horizon →
      (buildLiveness ((c.after w snapshot attempts k).row.columns P) now).shouldKick = false

theorem neverKicked_iff (h : c.Started t₀) {horizon : Nat} :
    NeverKicked P w snapshot attempts c horizon ↔ ∀ k now, due t₀ k ≤ now → now ≤ due t₀ (k + 1) →
      now ≤ horizon → now < lastRecorded attempts t₀ k + 210000 := by
  have hkick : ∀ k now, (buildLiveness ((c.after w snapshot attempts k).row.columns P) now).shouldKick
      = false ↔ now < lastRecorded attempts t₀ k + 210000 := by
    intro k now
    obtain ⟨_, _, hstate, hlast⟩ := after_scheduled w snapshot attempts h k
    rw [← Bool.not_eq_true, buildLiveness_active hstate hlast]
    exact Nat.not_le
  constructor
  · intro hnever k now hfrom hto hhorizon
    obtain ⟨⟨sessionId, hactive⟩, hinstant, _⟩ := after_scheduled w snapshot attempts h k
    exact (hkick k now).mp (hnever k _ now hactive (hinstant ▸ hfrom) hto hhorizon)
  · intro hbound k session now hsession hfrom hto hhorizon
    obtain ⟨⟨sessionId, hactive⟩, hinstant, _⟩ := after_scheduled w snapshot attempts h k
    rw [hactive] at hsession
    cases hsession
    exact (hkick k now).mpr (hbound k now (hinstant ▸ hfrom) hto hhorizon)

theorem lastRecorded_le (attempts : Nat → Attempt) (t₀ k : Nat) :
    lastRecorded attempts t₀ k ≤ due t₀ k := by
  induction k with
  | zero => exact Nat.le_add_right t₀ _
  | succ k ih =>
    rw [lastRecorded]
    split
    · exact le_refl _
    · rw [due_succ]
      omega

/-- while no earlier attempt is lost, the last one recorded is at most one behind -/
theorem lastRecorded_of_kept {horizon : Nat} (hkept : ∀ k, (attempts k).recorded = false →
    horizon < due t₀ (k + 1) + 90000) (k : Nat) (hk : due t₀ k ≤ horizon) :
    lastRecorded attempts t₀ k = due t₀ k ∨
      ∃ j, k = j + 1 ∧ (attempts j).recorded = false ∧ lastRecorded attempts t₀ k = due t₀ j := by
  induction k with
  | zero => exact .inl (by rw [lastRecorded, due, Nat.zero_mul, Nat.add_zero])
  | succ k ih =>
    by_cases hr : (attempts k).recorded = true
    · exact .inl (if_pos hr)
    · have hlost : (attempts k).recorded = false := Bool.eq_false_iff.mpr hr
      have hsame : lastRecorded attempts t₀ (k + 1) = lastRecorded attempts t₀ k := if_neg hr
      have hnext := due_succ t₀ k
      have hprev : due t₀ k ≤ horizon := by omega
      rcases ih hprev with hlast | ⟨j, rfl, hj, _⟩
      · exact .inr ⟨k, rfl, hlost, hsame.trans hlast⟩
      · -- the attempt before was lost as well, too long ago for the horizon
        have hearly := hkept j hj
        omega

/-- **A failed heartbeat costs the session** exactly if the backend did not record it and the run
goes on for the grace period: the next attempt comes an interval later. -/
theorem never_kicked_iff (h : c.Started t₀) (horizon : Nat) :
    NeverKicked P w snapshot attempts c horizon ↔
      ∀ k, (attempts k).recorded = false → horizon < due t₀ (k + 1) + 90000 := by
  rw [neverKicked_iff h]
  constructor
  · intro hbound k hlost
    by_contra hlate
    have hlast : lastRecorded attempts t₀ (k + 1) ≤ due t₀ k := by
      have hsame : lastRecorded attempts t₀ (k + 1) = lastRecorded attempts t₀ k :=
        if_neg (Bool.eq_false_iff.mp hlost)
      rw [hsame]
      exact lastRecorded_le attempts t₀ k
    have hnext := due_succ t₀ k
    have hafter := due_succ t₀ (k + 1)
    have hnow := hbound (k + 1) (due t₀ (k + 1) + 90000) (by omega) (by omega) (by omega)
    omega
  · intro hkept k now hfrom hto hhorizon
    rcases lastRecorded_of_kept hkept k (hfrom.trans hhorizon) with hlast | ⟨j, rfl, hj, hlast⟩
    · have hnext := due_succ t₀ k
      omega
    · have hearly := hkept j hj
      have hnext := due_succ t₀ j
      omega

end

/-! ## one failed heartbeat -/

section
open Backend.Deployment

def worker : Worker := ⟨"1.0.0", buildHash, 1785852500000⟩

/-- right after the attestation of `redeemed` was allowed -/
def allowed : Composed where
  loop := ⟨{ Presentation.new with state := .ready },
    some ⟨redeemed.id.toText, heartbeatIntervalMs, 1785852581412 + heartbeatIntervalMs⟩, some nonce⟩
  row := redeemed.judge 1785852581412 ⟨.allow, [], [], none, false⟩
  instant := 1785852581412

theorem allowed_started : allowed.Started 1785852581412 := ⟨⟨_, rfl⟩, rfl, rfl, rfl⟩

/-- the first heartbeat fails, the others are acknowledged -/
def firstFails (recorded : Bool) : Nat → Attempt
  | 0 => .failed (.unreachable "connection reset") recorded
  | _ + 1 => .acknowledged

/-- no two attempts in a row fail, and the player is kicked after 210 seconds -/
theorem short_outage_kicked : allowed.Started 1785852581412 ∧
    (∀ k, firstFails false (k + 1) = .acknowledged) ∧
      ¬ NeverKicked platform worker snapshot (firstFails false) allowed 1785852791412 := by
  refine ⟨allowed_started, fun _ => rfl, ?_⟩
  rw [neverKicked_iff allowed_started]
  intro hbound
  have hnow := hbound 1 1785852791412 (by decide) (by decide) (le_refl _)
  exact absurd hnow (by decide)

/-- the answer to the first heartbeat is lost, but the backend recorded it: for 100 hours nobody is
kicked -/
theorem never_kicked_recorded : allowed.Started 1785852581412 ∧
    NeverKicked platform worker snapshot (firstFails true) allowed 1786212581412 := by
  refine ⟨allowed_started, (never_kicked_iff allowed_started 1786212581412).mpr fun k hlost => ?_⟩
  cases k with
  | zero => cases hlost
  | succ k => cases hlost

end

end Companion
