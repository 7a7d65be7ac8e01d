import FiveProtect.Backend.Deployment
import FiveProtect.Backend.Turns

/-!
# Backend: every request is answered

The polls look at a row again and again until their deadline.  Whatever else runs at the same time:

* `Task.turnsLeft`        how many turns a handler still takes at most; `Task.exec_turnsLeft`: each turn uses one up;
* `System.progress`       so a request takes a bounded number of turns in all, and can always take the next one after a
                          quarter of a second;
* `Task.deadline`         until when a handler goes to sleep; `Task.exec_waits`: no turn moves it;
* `System.prompt_answer`  so a request that is given its turns as they come is answered in time.
-/

namespace Backend
open Protocol Function

/-! ## turns -/

/-- how often a handler can go to sleep before its deadline -/
def sleepsLeft (now deadline : Nat) : Nat := (deadline - now + (pollIntervalMs - 1)) / pollIntervalMs

def NoncePoint.turnsLeft : NoncePoint → Nat
  | .auth => 4
  | .upsertPlayer _ _ => 3
  | .createSession _ _ _ => 2
  | .touchServer _ _ => 1
  | .issued _ _ => 0
  | .refused _ => 0

/-- `read`, `check` and `sleep` of each round; the last round ends with `write` -/
def VerdictPoint.turnsLeft (now : Time) : VerdictPoint → Nat
  | .auth => 4 + 3 * sleepsLeft now (now + verdictPollTimeoutSeconds * 1000)
  | .read _ _ deadline => 3 + 3 * sleepsLeft now deadline
  | .check _ _ deadline _ => 2 + 3 * sleepsLeft now deadline
  | .sleep _ _ deadline wakeAt => 4 + 3 * sleepsLeft (max now wakeAt) deadline
  | .write _ _ _ _ => 1
  | .timedOut _ _ _ _ => 0
  | .answered _ => 0
  | .refused _ => 0

def LivenessPoint.turnsLeft : LivenessPoint → Nat
  | .auth => 4
  | .read _ => 3
  | .decide _ => 2
  | .terminate _ _ => 1
  | .answered _ => 0
  | .refused _ => 0

def PendingPoint.turnsLeft (now deadline : Time) : PendingPoint → Nat
  | .read => 2 + 3 * sleepsLeft now deadline
  | .check => 1 + 3 * sleepsLeft now deadline
  | .sleep wakeAt => 3 + 3 * sleepsLeft (max now wakeAt) deadline
  | .answered _ => 0
  | .refused _ => 0

def OutcomePoint.turnsLeft (now deadline : Time) : OutcomePoint → Nat
  | .read => 2 + 3 * sleepsLeft now deadline
  | .check => 1 + 3 * sleepsLeft now deadline
  | .sleep wakeAt => 3 + 3 * sleepsLeft (max now wakeAt) deadline
  | .answered _ => 0
  | .pending => 0
  | .refused _ => 0

def AttestPoint.turnsLeft : AttestPoint → Nat
  | .claim => 5
  | .storeSnapshot _ => 4
  | .isBuildAccepted _ => 3
  | .evaluatePolicy _ _ => 2
  | .recordVerdict _ _ _ => 1
  | .accepted _ _ _ _ => 0
  | .classify => 1
  | .rejected _ _ => 0

def HeartbeatPoint.turnsLeft : HeartbeatPoint → Nat
  | .read => 3
  | .currentBuildHash _ => 2
  | .terminateSession _ _ => 1
  | .recordHeartbeat _ => 1
  | .answered _ => 0
  | .refused _ => 0

namespace Task

/-- the turns a request takes at most from `now` on -/
def turnsLeft (now : Time) : Task → Nat
  | .nonce t => t.point.turnsLeft
  | .verdict t => t.point.turnsLeft now
  | .liveness t => t.point.turnsLeft
  | .pending t => t.point.turnsLeft now t.deadline
  | .outcome t => t.point.turnsLeft now t.deadline
  | .attest t => t.point.turnsLeft
  | .heartbeat t => t.point.turnsLeft
  | .refused _ => 0

/-- until when a handler may go to sleep -/
def deadline (now : Time) : Task → Time
  | .verdict ⟨_, _, .auth⟩ => now + verdictPollTimeoutSeconds * 1000
  | .verdict ⟨_, _, .read _ _ deadline⟩ => deadline
  | .verdict ⟨_, _, .check _ _ deadline _⟩ => deadline
  | .verdict ⟨_, _, .sleep _ _ deadline _⟩ => deadline
  | .verdict ⟨_, _, .write _ deadline _ _⟩ => deadline
  | .pending t => t.deadline
  | .outcome t => t.deadline
  | _ => now

end Task

theorem sleepsLeft_mono {now later : Nat} (h : now ≤ later) (deadline : Nat) :
    sleepsLeft later deadline ≤ sleepsLeft now deadline := by
  unfold sleepsLeft pollIntervalMs
  omega

/-- before the deadline, going to sleep uses up one of the sleeps that are left -/
theorem sleepsLeft_sleep {now deadline : Nat} (h : now < deadline) :
    sleepsLeft (max now (now + pollIntervalMs)) deadline + 1 ≤ sleepsLeft now deadline := by
  unfold sleepsLeft pollIntervalMs
  omega

section
variable {P : Platform} {now later : Time} {uuid : Uuid} {db : Db} {w : Write} {t t' : Task}

/-- a handler that is not through has a turn left -/
theorem Task.turnsLeft_pos (h : t.response = none) : 0 < t.turnsLeft now := by
  cases t with
  | refused e => cases h
  | nonce t =>
    obtain ⟨_, _, _, _, _, point⟩ := t
    cases point with
    | issued | refused => cases h
    | _ => exact Nat.succ_pos _
  | liveness t =>
    obtain ⟨_, _, point⟩ := t
    cases point with
    | answered | refused => cases h
    | _ => exact Nat.succ_pos _
  | attest t =>
    obtain ⟨_, _, _, point⟩ := t
    cases point with
    | accepted | rejected => cases h
    | _ => exact Nat.succ_pos _
  | heartbeat t =>
    obtain ⟨_, point⟩ := t
    cases point with
    | answered | refused => cases h
    | _ => exact Nat.succ_pos _
  | verdict t =>
    obtain ⟨_, _, point⟩ := t
    cases point with
    | timedOut | answered | refused => cases h
    | write => exact Nat.one_pos
    | _ => exact Nat.add_pos_left (Nat.succ_pos _) _
  | pending t =>
    obtain ⟨_, _, _, point⟩ := t
    cases point with
    | answered | refused => cases h
    | _ => exact Nat.add_pos_left (Nat.succ_pos _) _
  | outcome t =>
    obtain ⟨_, _, _, point⟩ := t
    cases point with
    | answered | pending | refused => cases h
    | _ => exact Nat.add_pos_left (Nat.succ_pos _) _

/-- time does not add turns -/
theorem Task.turnsLeft_mono (hle : now ≤ later) : t.turnsLeft later ≤ t.turnsLeft now := by
  have hread := sleepsLeft_mono hle
  have hsleep : ∀ wakeAt deadline,
      sleepsLeft (max later wakeAt) deadline ≤ sleepsLeft (max now wakeAt) deadline :=
    fun wakeAt => sleepsLeft_mono (max_le_max hle (le_refl wakeAt))
  cases t with
  | verdict t =>
    obtain ⟨_, _, point⟩ := t
    cases point with
    | auth =>
      show 4 + 3 * sleepsLeft later (later + _) ≤ 4 + 3 * sleepsLeft now (now + _)
      rw [sleepsLeft, sleepsLeft, Nat.add_sub_cancel_left, Nat.add_sub_cancel_left]
    | read auth nonce deadline => exact Nat.add_le_add_left (Nat.mul_le_mul_left 3 (hread deadline)) 3
    | check auth nonce deadline session => exact Nat.add_le_add_left (Nat.mul_le_mul_left 3 (hread deadline)) 2
    | sleep auth nonce deadline wakeAt =>
      exact Nat.add_le_add_left (Nat.mul_le_mul_left 3 (hsleep wakeAt deadline)) 4
    | _ => exact le_refl _
  | pending t =>
    obtain ⟨_, _, deadline, point⟩ := t
    cases point with
    | read => exact Nat.add_le_add_left (Nat.mul_le_mul_left 3 (hread deadline)) 2
    | check => exact Nat.add_le_add_left (Nat.mul_le_mul_left 3 (hread deadline)) 1
    | sleep wakeAt => exact Nat.add_le_add_left (Nat.mul_le_mul_left 3 (hsleep wakeAt deadline)) 3
    | _ => exact le_refl _
  | outcome t =>
    obtain ⟨_, _, deadline, point⟩ := t
    cases point with
    | read => exact Nat.add_le_add_left (Nat.mul_le_mul_left 3 (hread deadline)) 2
    | check => exact Nat.add_le_add_left (Nat.mul_le_mul_left 3 (hread deadline)) 1
    | sleep wakeAt => exact Nat.add_le_add_left (Nat.mul_le_mul_left 3 (hsleep wakeAt deadline)) 3
    | _ => exact le_refl _
  | _ => exact le_refl _

/-! ## one turn uses up a turn -/

theorem NonceTask.Turn.turnsLeft {n : NonceTask} {pt : NoncePoint} (h : n.Turn P now uuid db w pt)
    (hopen : 0 < n.point.turnsLeft) : pt.turnsLeft < n.point.turnsLeft := by
  cases h <;> simp_all [NoncePoint.turnsLeft]

theorem AttestTask.Turn.turnsLeft {a : AttestTask} {pt : AttestPoint} (h : a.Turn P now uuid db w pt)
    (hopen : 0 < a.point.turnsLeft) : pt.turnsLeft < a.point.turnsLeft := by
  cases h <;> simp_all [AttestPoint.turnsLeft]

theorem LivenessTask.Turn.turnsLeft {l : LivenessTask} {pt : LivenessPoint} (h : l.Turn P now db w pt)
    (hopen : 0 < l.point.turnsLeft) : pt.turnsLeft < l.point.turnsLeft := by
  cases h <;> simp_all [LivenessPoint.turnsLeft]

theorem HeartbeatTask.Turn.turnsLeft {b : HeartbeatTask} {pt : HeartbeatPoint} (h : b.Turn P db w pt)
    (hopen : 0 < b.point.turnsLeft) : pt.turnsLeft < b.point.turnsLeft := by
  cases h <;> simp_all [HeartbeatPoint.turnsLeft]

theorem VerdictTask.Turn.turnsLeft {q : VerdictTask} {pt : VerdictPoint} (h : q.Turn P now db w pt)
    (hopen : 0 < q.point.turnsLeft now) (hready : (Task.verdict q).wakeAt ≤ now) :
    pt.turnsLeft now < q.point.turnsLeft now := by
  obtain ⟨_, _, point⟩ := q
  cases h with
  | timedOut hp | answered hp | refused hp =>
    cases hp
    cases hopen
  | unauthorized hp | malformed hp | unknown hp | decided hp | recorded hp =>
    cases hp
    exact hopen
  | authorized hp ha hq =>
    cases hp
    exact Nat.add_lt_add_right (Nat.lt_succ_self 3) _
  | undecided hp hf hd =>
    cases hp
    exact Nat.add_lt_add_right (Nat.lt_succ_self 2) _
  | overdue hp hd =>
    cases hp
    exact Nat.lt_of_lt_of_le (Nat.lt_succ_self 1) (Nat.le_add_right 2 _)
  | early hp hd =>
    cases hp
    have hsleep := sleepsLeft_sleep hd
    show 4 + 3 * _ < 2 + 3 * _
    omega
  | @awake auth nonce deadline wakeAt hp =>
    cases hp
    have hmax : max now wakeAt = now := max_eq_left hready
    show 3 + 3 * sleepsLeft now deadline < 4 + 3 * sleepsLeft (max now wakeAt) deadline
    rw [hmax]
    exact Nat.add_lt_add_right (Nat.lt_succ_self 3) _

theorem PendingTask.exec_turnsLeft {t : PendingTask} {pt : PendingPoint} (h : t.exec P now db = .ok (w, pt))
    (hopen : 0 < t.point.turnsLeft now t.deadline) (hready : (Task.pending t).wakeAt ≤ now) :
    pt.turnsLeft now t.deadline < t.point.turnsLeft now t.deadline := by
  obtain ⟨clientIp, config, deadline, point⟩ := t
  cases point with
  | read =>
    simp only [PendingTask.exec] at h
    have hread : 1 + 3 * sleepsLeft now deadline < 2 + 3 * sleepsLeft now deadline :=
      Nat.add_lt_add_right (Nat.lt_succ_self 1) _
    repeat' split at h
    all_goals cases h
    · exact hread
    · exact hread
    · exact hopen
    · exact hopen
    · exact hopen
  | check =>
    simp only [PendingTask.exec] at h
    split at h
    · cases h
      exact hopen
    · rename_i hdeadline
      cases h
      have hsleep := sleepsLeft_sleep (Nat.lt_of_not_le hdeadline)
      show 3 + 3 * sleepsLeft (max now (now + pollIntervalMs)) deadline < 1 + 3 * sleepsLeft now deadline
      omega
  | sleep wakeAt =>
    cases h
    have hmax : max now wakeAt = now := max_eq_left hready
    show 2 + 3 * sleepsLeft now deadline < 3 + 3 * sleepsLeft (max now wakeAt) deadline
    rw [hmax]
    exact Nat.add_lt_add_right (Nat.lt_succ_self 2) _
  | answered | refused => cases hopen

theorem OutcomeTask.exec_turnsLeft {t : OutcomeTask} {pt : OutcomePoint} (h : t.exec now P db = .ok (w, pt))
    (hopen : 0 < t.point.turnsLeft now t.deadline) (hready : (Task.outcome t).wakeAt ≤ now) :
    pt.turnsLeft now t.deadline < t.point.turnsLeft now t.deadline := by
  obtain ⟨request, clientIp, deadline, point⟩ := t
  cases point with
  | read =>
    simp only [OutcomeTask.exec] at h
    have hread : 1 + 3 * sleepsLeft now deadline < 2 + 3 * sleepsLeft now deadline :=
      Nat.add_lt_add_right (Nat.lt_succ_self 1) _
    repeat' split at h
    all_goals cases h
    · exact hopen
    · exact hopen
    · exact hopen
    · exact hread
  | check =>
    simp only [OutcomeTask.exec] at h
    split at h
    · cases h
      exact hopen
    · rename_i hdeadline
      cases h
      have hsleep := sleepsLeft_sleep (Nat.lt_of_not_le hdeadline)
      show 3 + 3 * sleepsLeft (max now (now + pollIntervalMs)) deadline < 1 + 3 * sleepsLeft now deadline
      omega
  | sleep wakeAt =>
    cases h
    have hmax : max now wakeAt = now := max_eq_left hready
    show 2 + 3 * sleepsLeft now deadline < 3 + 3 * sleepsLeft (max now wakeAt) deadline
    rw [hmax]
    exact Nat.add_lt_add_right (Nat.lt_succ_self 2) _
  | answered | pending | refused => cases hopen

/-- **One turn** uses up a turn. -/
theorem Task.exec_turnsLeft (hopen : t.response = none) (hready : t.wakeAt ≤ now)
    (h : t.exec P now uuid db = .ok (w, t')) : t'.turnsLeft now < t.turnsLeft now := by
  have hpos : 0 < t.turnsLeft now := turnsLeft_pos hopen
  cases t with
  | refused e => cases hopen
  | nonce n =>
    obtain ⟨pt, rfl, hturn⟩ := exec_nonce h
    exact hturn.turnsLeft hpos
  | attest a =>
    obtain ⟨pt, rfl, hturn⟩ := exec_attest h
    exact hturn.turnsLeft hpos
  | liveness l =>
    obtain ⟨pt, rfl, hturn⟩ := exec_liveness h
    exact hturn.turnsLeft hpos
  | heartbeat b =>
    obtain ⟨pt, rfl, hturn⟩ := exec_beat h
    exact hturn.turnsLeft hpos
  | verdict q =>
    obtain ⟨pt, rfl, hturn⟩ := exec_verdict h
    exact hturn.turnsLeft hpos hready
  | pending t =>
    obtain ⟨⟨_, pt⟩, hexec, heq⟩ := map_ok h
    cases heq
    exact PendingTask.exec_turnsLeft hexec hpos hready
  | outcome t =>
    obtain ⟨⟨_, pt⟩, hexec, heq⟩ := map_ok h
    cases heq
    exact OutcomeTask.exec_turnsLeft hexec hpos hready

/-! ## the waits of a handler -/

theorem PendingTask.exec_waits {p : PendingTask} {pt : PendingPoint} (h : p.exec P now db = .ok (w, pt)) :
    Task.wakeAt (.pending { p with point := pt }) = 0 ∨
      Task.wakeAt (.pending { p with point := pt }) = now + pollIntervalMs ∧ now < p.deadline := by
  obtain ⟨clientIp, config, deadline, point⟩ := p
  cases point with
  | check =>
    simp only [exec] at h
    split at h
    · cases h
      exact .inl rfl
    · rename_i hdeadline
      cases h
      exact .inr ⟨rfl, Nat.lt_of_not_le hdeadline⟩
  | read =>
    simp only [exec] at h
    repeat' split at h
    all_goals cases h
    all_goals exact .inl rfl
  | _ =>
    cases h
    exact .inl rfl

theorem OutcomeTask.exec_waits {o : OutcomeTask} {pt : OutcomePoint} (h : o.exec now P db = .ok (w, pt)) :
    Task.wakeAt (.outcome { o with point := pt }) = 0 ∨
      Task.wakeAt (.outcome { o with point := pt }) = now + pollIntervalMs ∧ now < o.deadline := by
  obtain ⟨request, clientIp, deadline, point⟩ := o
  cases point with
  | check =>
    simp only [exec] at h
    split at h
    · cases h
      exact .inl rfl
    · rename_i hdeadline
      cases h
      exact .inr ⟨rfl, Nat.lt_of_not_le hdeadline⟩
  | read =>
    simp only [exec] at h
    repeat' split at h
    all_goals cases h
    all_goals exact .inl rfl
  | _ =>
    cases h
    exact .inl rfl

/-- **One turn** moves no deadline, and no handler goes to sleep after its own. -/
theorem Task.exec_waits (h : t.exec P now uuid db = .ok (w, t')) :
    (t'.wakeAt = 0 ∨ t'.wakeAt = now + pollIntervalMs ∧ now < t.deadline now) ∧
      (t'.response = none → t'.deadline now = t.deadline now) := by
  cases t with
  | refused e =>
    cases h
    exact ⟨.inl rfl, fun _ => rfl⟩
  | nonce n =>
    obtain ⟨pt, rfl, _⟩ := exec_nonce h
    exact ⟨.inl rfl, fun _ => rfl⟩
  | attest a =>
    obtain ⟨pt, rfl, _⟩ := exec_attest h
    exact ⟨.inl rfl, fun _ => rfl⟩
  | liveness l =>
    obtain ⟨pt, rfl, _⟩ := exec_liveness h
    exact ⟨.inl rfl, fun _ => rfl⟩
  | heartbeat b =>
    obtain ⟨pt, rfl, _⟩ := exec_beat h
    exact ⟨.inl rfl, fun _ => rfl⟩
  | verdict q =>
    obtain ⟨pt, rfl, hturn⟩ := exec_verdict h
    obtain ⟨_, _, point⟩ := q
    cases hturn with
    | unauthorized | malformed | unknown | decided | recorded | timedOut | answered | refused =>
      exact ⟨.inl rfl, fun hopen => by cases hopen⟩
    | authorized hp | undecided hp | overdue hp | awake hp =>
      cases hp
      exact ⟨.inl rfl, fun _ => rfl⟩
    | early hp hd =>
      cases hp
      exact ⟨.inr ⟨rfl, hd⟩, fun _ => rfl⟩
  | pending p =>
    obtain ⟨⟨_, pt⟩, hexec, heq⟩ := map_ok h
    cases heq
    exact ⟨PendingTask.exec_waits hexec, fun _ => rfl⟩
  | outcome o =>
    obtain ⟨⟨_, pt⟩, hexec, heq⟩ := map_ok h
    cases heq
    exact ⟨OutcomeTask.exec_waits hexec, fun _ => rfl⟩

/-- as long as a handler sleeps, its deadline stays as well -/
theorem Task.deadline_of_le (hle : now ≤ later) (hlater : later ≤ max now t.wakeAt) :
    t.deadline later = t.deadline now := by
  have hawake : t.wakeAt = 0 → later = now := by
    intro hzero
    rw [hzero, Nat.max_zero] at hlater
    exact Nat.le_antisymm hlater hle
  cases t with
  | pending | outcome => rfl
  | verdict q =>
    obtain ⟨_, _, point⟩ := q
    cases point with
    | read | check | sleep | write => rfl
    | _ => rw [hawake rfl]
  | _ => rw [hawake rfl]

end

/-! ## the start of a request -/

namespace Request

/-- how many turns a request takes at most -/
def maxTurns : Request → Nat
  | .nonce .. => 4
  | .verdict .. => 244
  | .liveness .. => 4
  | .pending .. => 362
  | .outcome .. => 122
  | .attest .. => 5
  | .heartbeat .. => 3

/-- how long its handler waits at most, in milliseconds -/
def patience : Request → Nat
  | .verdict .. => 20000
  | .pending .. => 30000
  | .outcome .. => 10000
  | _ => 0

variable {now : Time}

theorem maxTurns_le (rq : Request) : rq.maxTurns ≤ 362 := by
  unfold maxTurns
  split <;> decide

theorem waitDeadline_le (now : Time) (waitSeconds : Int) (limit : Nat) :
    waitDeadline now waitSeconds limit ≤ now + limit * 1000 := by
  have hmin : (min waitSeconds limit).toNat ≤ limit := Int.toNat_le.mpr (min_le_right _ _)
  exact Nat.add_le_add_left (Nat.mul_le_mul_right 1000 hmin) now

/-- the sleeps of a poll that waits until then -/
theorem sleepsLeft_le {start deadline limit : Nat} (h : deadline ≤ start + limit * 1000) :
    sleepsLeft start deadline ≤ 4 * limit := by
  unfold sleepsLeft pollIntervalMs
  omega

/-- what holds of a request that has just come in -/
structure Fresh (rq : Request) (now : Time) (t : Task) : Prop where
  turns : t.turnsLeft now ≤ rq.maxTurns
  deadline : t.deadline now ≤ now + rq.patience
  awake : t.wakeAt = 0

theorem refused_fresh (rq : Request) (e : ApiError) : rq.Fresh now (.refused e) :=
  ⟨Nat.zero_le _, Nat.le_add_right _ _, rfl⟩

theorem start_fresh (rq : Request) : rq.Fresh now (rq.start now) := by
  cases rq with
  | nonce | liveness => exact ⟨le_refl 4, le_refl now, rfl⟩
  | verdict authorization body =>
    have hsleeps : sleepsLeft now (now + verdictPollTimeoutSeconds * 1000) ≤ 4 * 20 := sleepsLeft_le (le_refl _)
    refine ⟨?_, le_refl _, rfl⟩
    show 4 + 3 * sleepsLeft now (now + verdictPollTimeoutSeconds * 1000) ≤ 4 + 3 * (4 * 20)
    exact Nat.add_le_add_left (Nat.mul_le_mul_left 3 hsleeps) 4
  | pending clientIp body config =>
    rw [start]
    cases CompanionPollRequest.safeParse body with
    | none => exact refused_fresh _ _
    | some poll =>
      have hle := waitDeadline_le now poll.waitSeconds 30
      exact ⟨Nat.add_le_add_left (Nat.mul_le_mul_left 3 (sleepsLeft_le hle)) 2, hle, rfl⟩
  | outcome clientIp body =>
    rw [start]
    cases CompanionOutcomeRequest.safeParse body with
    | none => exact refused_fresh _ _
    | some request =>
      have hle := waitDeadline_le now request.waitSeconds 10
      exact ⟨Nat.add_le_add_left (Nat.mul_le_mul_left 3 (sleepsLeft_le hle)) 2, hle, rfl⟩
  | attest clientIp body =>
    rw [start]
    cases AttestationRequest.safeParse body with
    | none => exact refused_fresh _ _
    | some request => exact ⟨le_refl 5, le_refl now, rfl⟩
  | heartbeat body =>
    rw [start]
    cases HeartbeatRequest.safeParse body with
    | none => exact refused_fresh _ _
    | some beat => exact ⟨le_refl 3, le_refl now, rfl⟩

end Request

/-! ## the runs -/

theorem Proc.task_open {p : Proc} (h : p.response = none) : p.task.response = none := by
  unfold Proc.response at h
  split at h
  · cases h
  · exact h

namespace System

variable {P : Platform} {s s' : System} {pid : Nat} {rq : Request}

/-- **One step**, as a request sees it: nothing happens to it, it comes in, or it takes a turn. -/
theorem step_proc {e : Event} (h : step P e s = some s') (pid : Nat) :
    (e.pid? ≠ some pid ∧ s'.procs pid = s.procs pid) ∨
      (e.pid? ≠ some pid ∧ s'.now = s.now ∧ s.procs pid = none ∧
        ∃ rq, s'.procs pid = some ⟨Request.start s.now rq, false⟩) ∨
      (e.pid? = some pid ∧ s'.now = s.now ∧ ∃ p p', s.procs pid = some p ∧ p.ready s.now = true ∧
        s'.procs pid = some p' ∧ (p'.crashed = true ∧ p'.task = p.task ∨
          ∃ uuid w, p.task.exec P s.now uuid s.db = .ok (w, p'.task))) := by
  have hother : ∀ q p, q ≠ pid → (s.put q p).procs pid = s.procs pid := fun q p hq =>
    update_of_ne (Ne.symm hq) _ _
  have hself : ∀ p, (s.put pid p).procs pid = some p := fun p => update_self _ _ _
  cases e with
  | tick | sweep =>
    cases h
    exact .inl ⟨(fun heq => by cases heq), rfl⟩
  | request q rq =>
    simp only [step] at h
    split at h
    · rename_i hnone
      cases h
      by_cases hq : q = pid
      · subst hq
        exact .inr (.inl ⟨(fun heq => by cases heq), rfl, Option.isNone_iff_eq_none.mp hnone, rq, hself _⟩)
      · exact .inl ⟨(fun heq => by cases heq), hother q _ hq⟩
    · cases h
  | fail q =>
    obtain ⟨p, hp, rfl⟩ := Option.map_eq_some_iff.mp h
    by_cases hq : q = pid
    · subst hq
      exact .inr (.inr ⟨rfl, rfl, p, _, (of_readyProc hp).1, (of_readyProc hp).2, hself _, .inl ⟨rfl, rfl⟩⟩)
    · exact .inl ⟨fun heq => hq (Option.some.inj heq), hother q _ hq⟩
  | exec q uuid | lost q uuid =>
    obtain ⟨p, hp, rfl⟩ := Option.map_eq_some_iff.mp h
    by_cases hq : q = pid
    · subst hq
      refine .inr (.inr ⟨rfl, ?_⟩)
      obtain ⟨_, heq⟩ | ⟨w, t', db, hexec, _, heq⟩ := turn_eq P s q p uuid _
      · rw [heq]
        exact ⟨rfl, p, _, (of_readyProc hp).1, (of_readyProc hp).2, hself _, .inl ⟨rfl, rfl⟩⟩
      · rw [heq]
        exact ⟨rfl, p, _, (of_readyProc hp).1, (of_readyProc hp).2, hself _, .inr ⟨uuid, w, hexec⟩⟩
    · refine .inl ⟨fun heq => hq (Option.some.inj heq), ?_⟩
      obtain ⟨_, heq⟩ | ⟨w, t', db, _, _, heq⟩ := turn_eq P s q p uuid _
      · rw [heq]
        exact hother q _ hq
      · rw [heq]
        exact hother q _ hq

/-- the turns a request has left, from before it comes in until it is answered -/
def turnsLeft (pid : Nat) (s : System) : Nat :=
  match s.procs pid with
  | none => 362
  | some p => if p.response.isSome then 0 else p.task.turnsLeft s.now

theorem turnsLeft_le {p : Proc} (hp : s.procs pid = some p) : s.turnsLeft pid ≤ p.task.turnsLeft s.now := by
  simp only [turnsLeft, hp]
  split
  · exact Nat.zero_le _
  · exact le_refl _

theorem turnsLeft_open {p : Proc} (hp : s.procs pid = some p) (hopen : p.response = none) :
    s.turnsLeft pid = p.task.turnsLeft s.now := by
  simp [turnsLeft, hp, hopen]

theorem turnsLeft_crashed {p : Proc} (hp : s.procs pid = some p) (hcrashed : p.crashed = true) :
    s.turnsLeft pid = 0 := by
  simp [turnsLeft, hp, Proc.response, hcrashed]

theorem turnsLeft_frame (hprocs : s'.procs pid = s.procs pid) (hnow : s.now ≤ s'.now) :
    s'.turnsLeft pid ≤ s.turnsLeft pid := by
  unfold turnsLeft
  rw [hprocs]
  cases s.procs pid with
  | none => exact le_refl _
  | some p =>
    show (if p.response.isSome then 0 else p.task.turnsLeft s'.now) ≤
      (if p.response.isSome then 0 else p.task.turnsLeft s.now)
    split
    · exact le_refl _
    · exact Task.turnsLeft_mono hnow

/-- **One step**: the turns of a request are used up, and by nothing else than its turns. -/
theorem step_turnsLeft {e : Event} (h : step P e s = some s') (pid : Nat) :
    s'.turnsLeft pid ≤ s.turnsLeft pid ∧ (e.pid? = some pid → s'.turnsLeft pid < s.turnsLeft pid) := by
  obtain ⟨hne, hprocs⟩ | ⟨hne, hnow, hnone, rq, hstart⟩ | ⟨_, hnow, p, p', hp, hready, hp', hturn⟩ :=
    step_proc h pid
  · exact ⟨turnsLeft_frame hprocs (step_move h).now_le, fun heq => absurd heq hne⟩
  · refine ⟨?_, fun heq => absurd heq hne⟩
    have hleft : s.turnsLeft pid = 362 := by simp [turnsLeft, hnone]
    rw [hleft]
    calc s'.turnsLeft pid ≤ (rq.start s.now).turnsLeft s'.now := turnsLeft_le hstart
      _ = (rq.start s.now).turnsLeft s.now := by rw [hnow]
      _ ≤ rq.maxTurns := rq.start_fresh.turns
      _ ≤ 362 := rq.maxTurns_le
  · simp only [Proc.ready, Bool.and_eq_true, Option.isNone_iff_eq_none, decide_eq_true_eq] at hready
    have hopen : p.task.response = none := Proc.task_open hready.1
    have hlt : s'.turnsLeft pid < s.turnsLeft pid := by
      rw [turnsLeft_open hp hready.1]
      obtain ⟨hcrashed, _⟩ | ⟨uuid, w, hexec⟩ := hturn
      · rw [turnsLeft_crashed hp' hcrashed]
        exact Task.turnsLeft_pos hopen
      · refine (turnsLeft_le hp').trans_lt ?_
        rw [hnow]
        exact Task.exec_turnsLeft hopen hready.2 hexec
    exact ⟨hlt.le, fun _ => hlt⟩

/-- a request that came in is awake within a quarter of a second -/
def Waking (pid : Nat) (s : System) : Prop :=
  ∃ p, s.procs pid = some p ∧ p.task.wakeAt ≤ s.now + pollIntervalMs

theorem step_waking {e : Event} (h : step P e s = some s') (hwaking : s.Waking pid) : s'.Waking pid := by
  obtain ⟨p, hp, hwake⟩ := hwaking
  obtain ⟨_, hprocs⟩ | ⟨_, _, hnone, _⟩ | ⟨_, hnow, q, p', hq, _, hp', hturn⟩ := step_proc h pid
  · refine ⟨p, hprocs.trans hp, hwake.trans ?_⟩
    exact Nat.add_le_add_right (step_move h).now_le _
  · rw [hp] at hnone
    cases hnone
  · rw [hp] at hq
    cases hq
    refine ⟨p', hp', ?_⟩
    rw [hnow]
    obtain ⟨_, htask⟩ | ⟨uuid, w, hexec⟩ := hturn
    · rw [htask]
      exact hwake
    · obtain ⟨hzero | ⟨hlater, _⟩, _⟩ := Task.exec_waits hexec
      · rw [hzero]
        exact Nat.zero_le _
      · exact hlater.le

/-- a request comes in under a new number -/
theorem step_request (h : step P (.request pid rq) s = some s') :
    s.procs pid = none ∧ s'.now = s.now ∧ s'.procs pid = some ⟨rq.start s.now, false⟩ := by
  simp only [step] at h
  split at h
  · rename_i hnone
    cases h
    exact ⟨Option.isNone_iff_eq_none.mp hnone, rfl, update_self _ _ _⟩
  · cases h

theorem response_of_proc {p : Proc} (hp : s.procs pid = some p) : s.response pid = p.response := by
  rw [response, hp]
  rfl

/-- it takes a turn once it is awake -/
theorem exec_enabled {p : Proc} (hp : s.procs pid = some p) (hopen : p.response = none)
    (hwake : p.task.wakeAt ≤ s.now) (uuid : Uuid) : ∃ s', step P (.exec pid uuid) s = some s' := by
  have hready : s.readyProc pid = some p := by
    rw [readyProc, hp]
    simp [Proc.ready, hopen, hwake]
  exact ⟨s.turn P pid p uuid false, by rw [step, hready]; rfl⟩

/-- the events of a run that are turns of a request -/
def turnsOf (pid : Nat) (es : List Event) : Nat := es.countP fun e => decide (e.pid? = some pid)

/-- **Progress.** Whatever runs at the same time and whatever fails, a request takes at most so many turns in a
run, is answered once it had them, and until then takes another after any quarter of a second. -/
theorem progress {es : List Event} (h : Machine.run (step P) (.request pid rq :: es) s = some s') :
    turnsOf pid es ≤ rq.maxTurns ∧ (turnsOf pid es = rq.maxTurns → s'.response pid ≠ none) ∧
      (s'.response pid = none → ∀ ms uuid, pollIntervalMs ≤ ms →
        ∃ s'', Machine.run (step P) [.tick ms, .exec pid uuid] s' = some s'') := by
  obtain ⟨s₁, hreq, hrun⟩ := Option.bind_eq_some_iff.mp h
  obtain ⟨_, hnow, hstart⟩ := step_request hreq
  have hfirst : s₁.turnsLeft pid ≤ rq.maxTurns := by
    refine (turnsLeft_le hstart).trans ?_
    rw [hnow]
    exact rq.start_fresh.turns
  have hused : turnsOf pid es + s'.turnsLeft pid ≤ s₁.turnsLeft pid := by
    refine Machine.run_variant (turnsLeft pid) _ ?_ ?_ es s₁ s' hrun
    · intro t e u hstep hown
      exact (step_turnsLeft hstep pid).2 (of_decide_eq_true hown)
    · intro t e u hstep
      exact (step_turnsLeft hstep pid).1
  have hwaking : s'.Waking pid := by
    refine (Machine.Steps.of_run es s₁ s' hrun).inv (Waking pid) (fun t e u hw _ hstep => step_waking hstep hw) ?_
    refine ⟨_, hstart, ?_⟩
    show (rq.start s.now).wakeAt ≤ s₁.now + pollIntervalMs
    rw [rq.start_fresh.awake]
    exact Nat.zero_le _
  obtain ⟨p, hp, hwake⟩ := hwaking
  have hopen : s'.response pid = none → p.response = none := fun hnone => (response_of_proc hp).symm.trans hnone
  refine ⟨?_, ?_, ?_⟩
  · omega
  · intro hall hnone
    have hleft : s'.turnsLeft pid = p.task.turnsLeft s'.now := turnsLeft_open hp (hopen hnone)
    have hpos : 0 < p.task.turnsLeft s'.now := Task.turnsLeft_pos (Proc.task_open (hopen hnone))
    omega
  · intro hnone ms uuid hms
    have hlater : p.task.wakeAt ≤ s'.now + ms := hwake.trans (Nat.add_le_add_left hms _)
    have hsame : ({ s' with now := s'.now + ms } : System).procs pid = some p := hp
    obtain ⟨s'', hexec⟩ := exec_enabled (P := P) hsame (hopen hnone) hlater uuid
    refine ⟨s'', ?_⟩
    show ((some { s' with now := s'.now + ms }).bind fun t => (step P (.exec pid uuid) t).bind some) = some s''
    rw [Option.bind_some, hexec]
    rfl

/-! ## in time -/

/-- the request gets its turns as they come: time passes only while it sleeps, or when it is answered -/
def prompt (pid : Nat) (s : System) : Event → Bool
  | .tick ms => (s.procs pid).all fun p => p.response.isSome || decide (s.now + ms ≤ max s.now p.task.wakeAt)
  | _ => true

/-- an open request has a deadline, and is awake at most a quarter of a second later -/
def Timely (deadline : Time) (pid : Nat) (s : System) : Prop :=
  ∃ p, s.procs pid = some p ∧ (p.response = none →
    p.task.deadline s.now ≤ deadline ∧ max s.now p.task.wakeAt < deadline + pollIntervalMs)

/-- nothing but a tick takes time -/
theorem step_now {e : Event} (h : step P e s = some s') (htick : ∀ ms, e ≠ .tick ms) : s'.now = s.now := by
  cases e with
  | tick ms => exact absurd rfl (htick ms)
  | request pid rq => exact (step_request h).2.1
  | exec | lost => exact now_of_commits rfl h
  | fail pid =>
    obtain ⟨p, _, rfl⟩ := Option.map_eq_some_iff.mp h
    rfl
  | sweep =>
    cases h
    rfl

theorem turn_timely {deadline : Time} {e : Event} (h : step P e s = some s') (hnow : s'.now = s.now)
    (htimely : s.Timely deadline pid) : s'.Timely deadline pid := by
  obtain ⟨p, hp, hopen⟩ := htimely
  obtain ⟨_, hprocs⟩ | ⟨_, _, hnone, _⟩ | ⟨_, _, q, p', hq, hready, hp', hturn⟩ := step_proc h pid
  · refine ⟨p, hprocs.trans hp, ?_⟩
    rw [hnow]
    exact hopen
  · rw [hp] at hnone
    cases hnone
  · rw [hp] at hq
    cases hq
    refine ⟨p', hp', fun hnone => ?_⟩
    rw [hnow]
    have hrunning : p.response = none := by
      simp only [Proc.ready, Bool.and_eq_true, Option.isNone_iff_eq_none] at hready
      exact hready.1
    obtain ⟨hdeadline, hmax⟩ := hopen hrunning
    obtain ⟨hcrashed, _⟩ | ⟨uuid, w, hexec⟩ := hturn
    · simp [Proc.response, hcrashed] at hnone
    · obtain ⟨hwake, hkept⟩ := Task.exec_waits hexec
      refine ⟨(hkept (Proc.task_open hnone)).trans_le hdeadline, ?_⟩
      have hpast : s.now < deadline + pollIntervalMs := (le_max_left _ _).trans_lt hmax
      obtain hzero | ⟨hlater, hearly⟩ := hwake
      · rw [hzero]
        exact max_lt hpast (Nat.zero_lt_of_lt hpast)
      · rw [hlater]
        have hbefore : s.now < deadline := hearly.trans_le hdeadline
        exact max_lt hpast (Nat.add_lt_add_right hbefore _)

theorem step_timely {deadline : Time} {e : Event} (h : step P e s = some s') (hprompt : prompt pid s e = true)
    (htimely : s.Timely deadline pid) : s'.Timely deadline pid := by
  cases e with
  | tick ms =>
    obtain ⟨p, hp, hopen⟩ := htimely
    cases h
    refine ⟨p, hp, fun hnone => ?_⟩
    obtain ⟨hdeadline, hmax⟩ := hopen hnone
    have hms : s.now + ms ≤ max s.now p.task.wakeAt := by
      simpa [prompt, hp, hnone] using hprompt
    constructor
    · show p.task.deadline (s.now + ms) ≤ deadline
      rw [Task.deadline_of_le (Nat.le_add_right _ _) hms]
      exact hdeadline
    · exact (max_le hms (le_max_right _ _)).trans_lt hmax
  | _ => exact turn_timely h (step_now h fun ms heq => by cases heq) htimely

/-- **In time.** A request that gets its turns as they come is not open longer than its handler waits, and a
quarter of a second: 20 seconds for a verdict, 30 for a nonce, 10 for an outcome. -/
theorem prompt_answer {s₁ : System} (hreq : step P (.request pid rq) s = some s₁)
    (h : Machine.Steps (step P) (fun t e => prompt pid t e = true) s₁ s') (hopen : s'.response pid = none) :
    s'.now < s.now + rq.patience + pollIntervalMs := by
  obtain ⟨_, hnow, hstart⟩ := step_request hreq
  have hfresh : rq.Fresh s.now (rq.start s.now) := rq.start_fresh
  have hfirst : s₁.Timely (s.now + rq.patience) pid := by
    refine ⟨_, hstart, fun _ => ?_⟩
    rw [hnow]
    refine ⟨hfresh.deadline, ?_⟩
    show max s.now (rq.start s.now).wakeAt < _
    rw [hfresh.awake, Nat.max_zero, Nat.add_assoc]
    exact Nat.lt_add_of_pos_right (Nat.add_pos_right _ (by decide))
  obtain ⟨p, hp, htimely⟩ := h.inv (Timely (s.now + rq.patience) pid)
    (fun t e u ht hg hstep => step_timely hstep hg ht) hfirst
  exact (le_max_left _ _).trans_lt (htimely ((response_of_proc hp).symm.trans hopen)).2

end System

namespace Deployment

def poll : Event := .request 1 (.pending "203.0.113.42" pendingBody config)

theorem progress_poll : ∃ s s', after .fail_closed (poll :: turns 1 2) = some s ∧ s.response 1 = none ∧
    Machine.run (System.step platform) [.tick 250, .exec 1 (Uuid.small 7)] s = some s' := by
  have hrun : (after .fail_closed (poll :: turns 1 2)).any (fun s => (s.response 1).isNone) = true := by
    decide +kernel
  obtain ⟨s, hs, hopen⟩ := (Option.any_eq_true _ _).mp hrun
  have hnone : s.response 1 = none := Option.isNone_iff_eq_none.mp hopen
  obtain ⟨s', hs'⟩ := (System.progress hs).2.2 hnone 250 (Uuid.small 7) (le_refl 250)
  exact ⟨s, s', hs, hnone, hs'⟩

theorem prompt_poll : ∃ s s', System.step platform poll (deployment .fail_closed) = some s ∧
    Machine.Steps (System.step platform) (fun t e => System.prompt 1 t e = true) s s' ∧
    s'.response 1 = none ∧ s'.now < (deployment .fail_closed).now + 30250 := by
  have hrun : ((System.step platform poll (deployment .fail_closed)).any fun s =>
      (Machine.run (Machine.guarded (System.step platform) fun t e => System.prompt 1 t e = true)
        (turns 1 2 ++ [.tick 250]) s).any fun s' => (s'.response 1).isNone) = true := by
    decide +kernel
  obtain ⟨s, hreq, hrest⟩ := (Option.any_eq_true _ _).mp hrun
  obtain ⟨s', hsteps, hopen⟩ := (Option.any_eq_true _ _).mp hrest
  have hprompt := Machine.Steps.of_guarded _ s s' hsteps
  have hnone : s'.response 1 = none := Option.isNone_iff_eq_none.mp hopen
  exact ⟨s, s', hreq, hprompt, hnone, System.prompt_answer hreq hprompt hnone⟩

end Deployment

end Backend
