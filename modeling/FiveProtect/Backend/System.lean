import FiveProtect.Backend.CompanionRoutes
import FiveProtect.Backend.ServerRoutes
import FiveProtect.Lib.Run
import Mathlib.Logic.Function.Basic

/-!
# Backend: the system

All requests in flight, the database and one clock.  A step is one turn of one request (at most one
SQL statement, committed on its own), a fault in it, a new request, a sweep of
`expireStaleSessions` or time passing; any order of steps is a run.

* `Task`            a request with what its handler holds between two waits;
* `Task.exec`       one turn of it;
* `System.step`     the step function, executable;
* `Reachable`       the states of all runs that start without sessions, over any tenants, servers,
                    players and builds;
* `Move`            what a step does to the clock, the database and the tasks;
* `Reachable.inv`   the induction rule for invariants.
-/

namespace Backend
open Protocol Function

/-! ## requests -/

/-- what reaches a route: the parts of the request it reads, and what the runtime gives it -/
inductive Request where
  | nonce (authorization : Option String) (body : Json) (config : Config) (entropy : NonceBytes)
      (iv : SealIv)
  | verdict (authorization : Option String) (body : Json)
  | liveness (authorization : Option String) (sessionId : String)
  | pending (clientIp : String) (body : Json) (config : Config)
  | outcome (clientIp : String) (body : Json)
  | attest (clientIp : String) (body : Json)
  | heartbeat (body : Json)

inductive Task where
  | nonce (t : NonceTask)
  | verdict (t : VerdictTask)
  | liveness (t : LivenessTask)
  | pending (t : PendingTask)
  | outcome (t : OutcomeTask)
  | attest (t : AttestTask)
  | heartbeat (t : HeartbeatTask)
  /-- refused before the first wait -/
  | refused (e : ApiError)

/-- `Date.now() + Math.min(waitSeconds, limit) * 1000` -/
def waitDeadline (now : Time) (waitSeconds : Int) (limit : Int) : Time :=
  now + (min waitSeconds limit).toNat * 1000

/-- a handler up to its first wait -/
def Request.start (now : Time) : Request → Task
  | .nonce authorization body config entropy iv =>
    .nonce ⟨authorization, body, config, entropy, iv, .auth⟩
  | .verdict authorization body => .verdict ⟨authorization, body, .auth⟩
  | .liveness authorization sessionId => .liveness ⟨authorization, sessionId, .auth⟩
  | .pending clientIp body config =>
    match CompanionPollRequest.safeParse body with
    | none => .refused (.badRequest "malformed_request" "the poll did not match the protocol")
    | some poll => .pending ⟨clientIp, config, waitDeadline now poll.waitSeconds 30, .read⟩
  | .outcome clientIp body =>
    match CompanionOutcomeRequest.safeParse body with
    | none => .refused (.badRequest "malformed_request" "the request did not match the protocol")
    | some request =>
      .outcome ⟨request, clientIp, waitDeadline now request.waitSeconds 10, .read⟩
  | .attest clientIp body =>
    match AttestationRequest.safeParse body with
    | none => .refused
        (.badRequest "attestation_invalid" "the attestation did not match the protocol")
    | some request =>
      .attest ⟨request, clientIp, (body.get? "snapshot").all Json.wellFormed, .claim⟩
  | .heartbeat body =>
    match HeartbeatRequest.safeParse body with
    | none => .refused (.badRequest "malformed_request" "the heartbeat did not match the protocol")
    | some beat => .heartbeat ⟨beat, .read⟩

namespace Task

/-- one turn; `uuid` is what `gen_random_uuid()` returns in it -/
def exec (P : Platform) (now : Time) (uuid : Uuid) (db : Db) :
    Task → Except SqlError (Write × Task)
  | .nonce t => (t.exec P now uuid db).map fun r => (r.1, .nonce { t with point := r.2 })
  | .verdict t => (t.exec P now db).map fun r => (r.1, .verdict { t with point := r.2 })
  | .liveness t => (t.exec P now db).map fun r => (r.1, .liveness { t with point := r.2 })
  | .pending t => (t.exec P now db).map fun r => (r.1, .pending { t with point := r.2 })
  | .outcome t => (t.exec now P db).map fun r => (r.1, .outcome { t with point := r.2 })
  | .attest t => (t.exec P now uuid db).map fun r => (r.1, .attest { t with point := r.2 })
  | .heartbeat t => (t.exec P db).map fun r => (r.1, .heartbeat { t with point := r.2 })
  | .refused e => .ok (.none, .refused e)

/-- the answer, once the handler is through -/
def response : Task → Option Response
  | .nonce t => match t.point with
    | .issued _ answer => some (.nonce answer)
    | .refused e => some (.error e)
    | _ => none
  | .verdict t => match t.point with
    | .timedOut _ _ _ v => some (.verdict v)
    | .answered v => some (.verdict v)
    | .refused e => some (.error e)
    | _ => none
  | .liveness t => match t.point with
    | .answered answer => some (.liveness answer)
    | .refused e => some (.error e)
    | _ => none
  | .pending t => match t.point with
    | .answered answer => some (.pending answer)
    | .refused e => some (.error e)
    | _ => none
  | .outcome t => match t.point with
    | .answered v => some (.verdict v)
    | .pending => some .verdictPending
    | .refused e => some (.error e)
    | _ => none
  | .attest t => match t.point with
    | .accepted _ _ _ ack => some (.ack ack)
    | .rejected _ e => some (.error e)
    | _ => none
  | .heartbeat t => match t.point with
    | .answered answer => some (.heartbeat answer)
    | .refused e => some (.error e)
    | _ => none
  | .refused e => some (.error e)

/-- until when a handler sleeps -/
def wakeAt : Task → Time
  | .verdict ⟨_, _, .sleep _ _ _ wakeAt⟩ => wakeAt
  | .pending ⟨_, _, _, .sleep wakeAt⟩ => wakeAt
  | .outcome ⟨_, _, _, .sleep wakeAt⟩ => wakeAt
  | _ => 0

end Task

/-! ## the step function -/

/-- a request in flight; `crashed`: an error reached the error handler -/
structure Proc where
  task : Task
  crashed : Bool

namespace Proc

def response (p : Proc) : Option Response :=
  if p.crashed then some (.error .internal) else p.task.response

def ready (now : Time) (p : Proc) : Bool := p.response.isNone && decide (p.task.wakeAt ≤ now)

theorem of_ready {now : Time} {p : Proc} (h : p.ready now = true) : p.task.response = none := by
  simp only [ready, response, Bool.and_eq_true, Option.isNone_iff_eq_none] at h
  split at h
  · cases h.1
  · exact h.1

end Proc

structure System where
  now : Time
  db : Db
  procs : Nat → Option Proc

inductive Event where
  | tick (ms : Nat)
  | request (pid : Nat) (rq : Request)
  /-- one turn of a request -/
  | exec (pid : Nat) (uuid : Uuid)
  /-- the turn raises an error, nothing is committed -/
  | fail (pid : Nat)
  /-- the statement of the turn is committed, but its result never arrives -/
  | lost (pid : Nat) (uuid : Uuid)
  | sweep

/-- the request whose turn an event is -/
def Event.pid? : Event → Option Nat
  | .exec pid _ => some pid
  | .fail pid => some pid
  | .lost pid _ => some pid
  | _ => none

/-- the request whose statement an event may commit -/
def Event.commits? : Event → Option Nat
  | .exec pid _ => some pid
  | .lost pid _ => some pid
  | _ => none

namespace System

def task (s : System) (pid : Nat) : Option Task := (s.procs pid).map Proc.task

def response (s : System) (pid : Nat) : Option Response := (s.procs pid).bind Proc.response

def put (s : System) (pid : Nat) (p : Proc) : System :=
  { s with procs := update s.procs pid (some p) }

/-- a turn of a request; `crashed` if its result is lost -/
def turn (P : Platform) (s : System) (pid : Nat) (p : Proc) (uuid : Uuid) (crashed : Bool) :
    System :=
  match p.task.exec P s.now uuid s.db with
  | .error _ => s.put pid { p with crashed := true }
  | .ok (w, task) =>
    match w.exec s.now s.db with
    | .error _ => s.put pid { p with crashed := true }
    | .ok db => { s.put pid ⟨task, crashed⟩ with db := db }

/-- the request `pid`, if it can take a turn -/
def readyProc (s : System) (pid : Nat) : Option Proc := (s.procs pid).filter (·.ready s.now)

def step (P : Platform) (e : Event) (s : System) : Option System :=
  match e with
  | .tick ms => some { s with now := s.now + ms }
  | .request pid rq =>
    if (s.procs pid).isNone then some (s.put pid ⟨rq.start s.now, false⟩) else none
  | .exec pid uuid => (s.readyProc pid).map fun p => s.turn P pid p uuid false
  | .fail pid => (s.readyProc pid).map fun p => s.put pid { p with crashed := true }
  | .lost pid uuid => (s.readyProc pid).map fun p => s.turn P pid p uuid true
  | .sweep => some { s with
      db := (Write.expireStaleSessions.exec s.now s.db).toOption.getD s.db }

/-- any deployment before its first request -/
structure Initial (s : System) : Prop where
  sessions : s.db.sessions = Table.empty
  snapshots : s.db.snapshots = Table.empty
  procs : s.procs = fun _ => none

end System

/-- the states of all runs -/
def Reachable (P : Platform) (s : System) : Prop :=
  ∃ s₀ : System, s₀.Initial ∧ Machine.Steps (System.step P) Machine.free s₀ s

/-! ## what a step does -/

/-- a step, as far as the clock, the database and the tasks go: a crash keeps the task -/
inductive Move (P : Platform) (s s' : System) : Prop
  | idle (hdb : s'.db = s.db) (hnow : s.now ≤ s'.now) (htask : s'.task = s.task)
  | start (pid : Nat) (rq : Request) (hnone : s.task pid = none) (hdb : s'.db = s.db)
      (hnow : s'.now = s.now) (htask : s'.task = update s.task pid (some (rq.start s.now)))
  | turn (pid : Nat) (uuid : Uuid) (t t' : Task) (w : Write) (ht : s.task pid = some t)
      (hexec : t.exec P s.now uuid s.db = .ok (w, t')) (hw : w.exec s.now s.db = .ok s'.db)
      (hnow : s'.now = s.now) (htask : s'.task = update s.task pid (some t'))
  | sweep (hw : Write.expireStaleSessions.exec s.now s.db = .ok s'.db) (hnow : s'.now = s.now)
      (htask : s'.task = s.task)

namespace System

variable {P : Platform} {s s' : System}

theorem put_task (s : System) (pid : Nat) (p : Proc) :
    (s.put pid p).task = update s.task pid (some p.task) := by
  funext q
  by_cases h : q = pid
  · subst h
    simp [task, put]
  · simp [task, put, h]

theorem task_of_proc {pid : Nat} {p : Proc} (h : s.procs pid = some p) :
    s.task pid = some p.task := by
  rw [task, h]
  rfl

theorem put_crashed_task {pid : Nat} {p : Proc} (h : s.procs pid = some p) :
    (s.put pid { p with crashed := true }).task = s.task := by
  rw [put_task]
  exact update_eq_self_iff.mpr (task_of_proc h).symm

theorem of_readyProc {pid : Nat} {p : Proc} (h : s.readyProc pid = some p) :
    s.procs pid = some p ∧ p.ready s.now = true := Option.filter_eq_some_iff.mp h

/-- a turn of `t` raises: a parameter is refused, or the statement is -/
def Raises (P : Platform) (s : System) (uuid : Uuid) (t : Task) : Prop :=
  (∃ er, t.exec P s.now uuid s.db = .error er) ∨
    ∃ w t' er, t.exec P s.now uuid s.db = .ok (w, t') ∧ w.exec s.now s.db = .error er

/-- a turn raises and crashes the request, or goes through -/
theorem turn_eq (P : Platform) (s : System) (pid : Nat) (p : Proc) (uuid : Uuid) (crashed : Bool) :
    (Raises P s uuid p.task ∧ s.turn P pid p uuid crashed = s.put pid { p with crashed := true }) ∨
      ∃ w t' db, p.task.exec P s.now uuid s.db = .ok (w, t') ∧ w.exec s.now s.db = .ok db ∧
        s.turn P pid p uuid crashed = { s.put pid ⟨t', crashed⟩ with db := db } := by
  unfold turn
  split
  · rename_i er hexec
    exact .inl ⟨.inl ⟨er, hexec⟩, rfl⟩
  · rename_i w t' hexec
    split
    · rename_i er hw
      exact .inl ⟨.inr ⟨w, t', er, hexec, hw⟩, rfl⟩
    · rename_i db hw
      exact .inr ⟨w, t', db, hexec, hw, rfl⟩

theorem turn_move {pid : Nat} {p : Proc} (h : s.procs pid = some p) (uuid : Uuid)
    (crashed : Bool) : Move P s (s.turn P pid p uuid crashed) := by
  obtain ⟨_, hs'⟩ | ⟨w, t', db, hexec, hw, hs'⟩ := turn_eq P s pid p uuid crashed
  · rw [hs']
    exact .idle rfl (le_refl _) (put_crashed_task h)
  · rw [hs']
    exact .turn pid uuid p.task t' w (task_of_proc h) hexec hw rfl (put_task s pid ⟨t', crashed⟩)

/-- **Every step is a move.** -/
theorem step_move {e : Event} (h : step P e s = some s') : Move P s s' := by
  cases e with
  | tick ms =>
    cases h
    exact .idle rfl (Nat.le_add_right _ _) rfl
  | request pid rq =>
    simp only [step] at h
    split at h
    · rename_i hnone
      cases h
      have hp : s.procs pid = none := Option.isNone_iff_eq_none.mp hnone
      exact .start pid rq (by rw [task, hp]; rfl) rfl rfl (put_task s pid _)
    · cases h
  | exec pid uuid =>
    obtain ⟨p, hp, rfl⟩ := Option.map_eq_some_iff.mp h
    exact turn_move (of_readyProc hp).1 uuid false
  | fail pid =>
    obtain ⟨p, hp, rfl⟩ := Option.map_eq_some_iff.mp h
    exact .idle rfl (le_refl _) (put_crashed_task (of_readyProc hp).1)
  | lost pid uuid =>
    obtain ⟨p, hp, rfl⟩ := Option.map_eq_some_iff.mp h
    exact turn_move (of_readyProc hp).1 uuid true
  | sweep =>
    cases h
    exact .sweep rfl rfl rfl

theorem turn_cases {pid : Nat} {p : Proc} (h : s.procs pid = some p) (uuid : Uuid)
    (crashed : Bool) : ((s.turn P pid p uuid crashed).db = s.db ∧
        (s.turn P pid p uuid crashed).task = s.task) ∨
      ∃ w t', p.task.exec P s.now uuid s.db = .ok (w, t') ∧
        w.exec s.now s.db = .ok (s.turn P pid p uuid crashed).db ∧
        (s.turn P pid p uuid crashed).task = update s.task pid (some t') := by
  obtain ⟨_, hs'⟩ | ⟨w, t', db, hexec, hw, hs'⟩ := turn_eq P s pid p uuid crashed
  · rw [hs']
    exact .inl ⟨rfl, put_crashed_task h⟩
  · rw [hs']
    exact .inr ⟨w, t', hexec, hw, put_task s pid ⟨t', crashed⟩⟩

/-- a turn of the request `pid`: nothing but a crash, or its statement is committed -/
theorem step_of_pid {e : Event} {pid : Nat} (he : e.pid? = some pid) (h : step P e s = some s') :
    ∃ t, s.task pid = some t ∧ (s'.db = s.db ∧ s'.task = s.task ∨
      ∃ uuid w t', t.exec P s.now uuid s.db = .ok (w, t') ∧ w.exec s.now s.db = .ok s'.db ∧
        s'.task = update s.task pid (some t')) := by
  cases e with
  | tick | request | sweep => cases he
  | fail q =>
    cases he
    obtain ⟨p, hp, rfl⟩ := Option.map_eq_some_iff.mp h
    have hproc := (of_readyProc hp).1
    exact ⟨p.task, task_of_proc hproc, .inl ⟨rfl, put_crashed_task hproc⟩⟩
  | exec q uuid | lost q uuid =>
    cases he
    obtain ⟨p, hp, rfl⟩ := Option.map_eq_some_iff.mp h
    have hproc := (of_readyProc hp).1
    refine ⟨p.task, task_of_proc hproc, ?_⟩
    obtain hsame | ⟨w, t', hexec, hw, htask⟩ := turn_cases (P := P) hproc uuid _
    · exact .inl hsame
    · exact .inr ⟨uuid, w, t', hexec, hw, htask⟩

/-- a turn that raises nothing -/
theorem step_of_commits {e : Event} {pid : Nat} {t t' : Task} {w : Write} {db : Db}
    (hc : e.commits? = some pid) (ht : s.task pid = some t)
    (hexec : ∀ uuid, t.exec P s.now uuid s.db = .ok (w, t')) (hw : w.exec s.now s.db = .ok db)
    (h : step P e s = some s') : s'.db = db ∧ s'.task = update s.task pid (some t') := by
  cases e with
  | tick | request | sweep | fail => cases hc
  | exec q uuid | lost q uuid =>
    cases hc
    obtain ⟨p, hp, rfl⟩ := Option.map_eq_some_iff.mp h
    have hproc := (of_readyProc hp).1
    rw [task_of_proc hproc] at ht
    cases ht
    simp only [turn, hexec uuid, hw]
    exact ⟨trivial, put_task s _ _⟩

/-- a turn takes no time -/
theorem now_of_commits {e : Event} {pid : Nat} (hc : e.commits? = some pid)
    (h : step P e s = some s') : s'.now = s.now := by
  cases e with
  | tick | request | sweep | fail => cases hc
  | exec q uuid | lost q uuid =>
    obtain ⟨p, _, rfl⟩ := Option.map_eq_some_iff.mp h
    obtain ⟨_, heq⟩ | ⟨_, _, _, _, _, heq⟩ := turn_eq P s q p uuid _
    · rw [heq]
      rfl
    · rw [heq]
      rfl

/-- the statement a step commits and who issued it -/
theorem step_write {e : Event} (h : step P e s = some s') :
    ∃ w : Write, w.exec s.now s.db = .ok s'.db ∧ (w = .none ∨ w = .expireStaleSessions ∨
      ∃ pid uuid t t', e.commits? = some pid ∧ s.task pid = some t ∧
        t.exec P s.now uuid s.db = .ok (w, t') ∧ s'.task = update s.task pid (some t')) := by
  cases e with
  | tick ms =>
    cases h
    exact ⟨.none, rfl, .inl rfl⟩
  | request pid rq =>
    simp only [step] at h
    split at h
    · cases h
      exact ⟨.none, rfl, .inl rfl⟩
    · cases h
  | sweep =>
    cases h
    exact ⟨_, rfl, .inr (.inl rfl)⟩
  | fail pid =>
    obtain ⟨p, hp, rfl⟩ := Option.map_eq_some_iff.mp h
    exact ⟨.none, rfl, .inl rfl⟩
  | exec pid uuid | lost pid uuid =>
    obtain ⟨t, ht, ⟨hdb, _⟩ | ⟨uuid', w, t', hexec, hw, htask⟩⟩ := step_of_pid rfl h
    · exact ⟨.none, congrArg Except.ok hdb.symm, .inl rfl⟩
    · exact ⟨w, hw, .inr (.inr ⟨pid, uuid', t, t', rfl, ht, hexec, htask⟩)⟩

theorem response_put (s : System) (pid q : Nat) (p : Proc) :
    (s.put pid p).response q = if q = pid then p.response else s.response q := by
  by_cases h : q = pid
  · subst h
    simp [response, put]
  · simp [response, put, h]

/-- a finished request stays as it is -/
theorem procs_of_finished {e : Event} (h : step P e s = some s') {pid : Nat}
    (hfin : s.response pid ≠ none) : s'.procs pid = s.procs pid := by
  have hsome : ∃ p, s.procs pid = some p ∧ p.response ≠ none := by
    cases hp : s.procs pid with
    | none =>
      rw [response, hp] at hfin
      exact absurd rfl hfin
    | some p =>
      rw [response, hp] at hfin
      exact ⟨p, rfl, hfin⟩
  obtain ⟨p, hp, hresp⟩ := hsome
  have hother : ∀ q x, q ≠ pid → (s.put q x).procs pid = s.procs pid := fun q x hq =>
    update_of_ne (Ne.symm hq) _ _
  have hnot : ∀ q x, s.readyProc q = some x → q ≠ pid := by
    rintro q x hx rfl
    obtain ⟨hx', hready⟩ := of_readyProc hx
    rw [hp] at hx'
    cases hx'
    simp only [Proc.ready, Bool.and_eq_true, Option.isNone_iff_eq_none] at hready
    exact hresp hready.1
  cases e with
  | tick | sweep =>
    cases h
    rfl
  | request q rq =>
    simp only [step] at h
    split at h
    · rename_i hnone
      cases h
      refine hother q _ ?_
      rintro rfl
      rw [hp] at hnone
      cases hnone
    · cases h
  | fail q =>
    obtain ⟨x, hx, rfl⟩ := Option.map_eq_some_iff.mp h
    exact hother q _ (hnot q x hx)
  | exec q uuid | lost q uuid =>
    obtain ⟨x, hx, rfl⟩ := Option.map_eq_some_iff.mp h
    obtain ⟨_, heq⟩ | ⟨w, t', db, _, _, heq⟩ := turn_eq P s q x uuid _
    · rw [heq]
      exact hother q _ (hnot q x hx)
    · rw [heq]
      exact hother q ⟨t', _⟩ (hnot q x hx)

/-- a request that finishes in a step: the step is its turn, or its start -/
theorem pid_of_response {e : Event} (h : step P e s = some s') {pid : Nat}
    (hrun : s.response pid = none) (hfin : s'.response pid ≠ none) :
    e.pid? = some pid ∨ ∃ rq : Request, s'.task pid = some (rq.start s.now) := by
  -- whatever happens to another process
  have hother : ∀ q p, (s.put q p).response pid ≠ none → q = pid := by
    intro q p hne
    by_contra hq
    rw [response_put, if_neg (Ne.symm hq)] at hne
    exact hne hrun
  have hturn : ∀ q p uuid crashed, (s.turn P q p uuid crashed).response pid ≠ none → q = pid := by
    intro q p uuid crashed hne
    obtain ⟨_, heq⟩ | ⟨w, t', db, _, _, heq⟩ := turn_eq P s q p uuid crashed
    · rw [heq] at hne
      exact hother q _ hne
    · rw [heq] at hne
      exact hother q ⟨t', crashed⟩ hne
  cases e with
  | tick ms =>
    cases h
    exact absurd hrun hfin
  | sweep =>
    cases h
    exact absurd hrun hfin
  | request q rq =>
    simp only [step] at h
    split at h
    · cases h
      have hq := hother q _ hfin
      subst hq
      exact .inr ⟨rq, by rw [put_task, update_self]⟩
    · cases h
  | fail q =>
    obtain ⟨p, hp, rfl⟩ := Option.map_eq_some_iff.mp h
    exact .inl (congrArg some (hother q _ hfin))
  | exec q uuid | lost q uuid =>
    obtain ⟨p, hp, rfl⟩ := Option.map_eq_some_iff.mp h
    exact .inl (congrArg some (hturn q p uuid _ hfin))

/-- **Answers.** An answer was there before, is an error, or is the end of this turn. -/
theorem response_cases {e : Event} (h : step P e s = some s') {pid : Nat} {res : Response}
    (hres : s'.response pid = some res) :
    (s.response pid = some res ∧ s'.task pid = s.task pid) ∨ (∃ er, res = .error er) ∨
      ∃ uuid w t t', e.commits? = some pid ∧ s.task pid = some t ∧ t.response = none ∧
        t.exec P s.now uuid s.db = .ok (w, t') ∧ s'.task pid = some t' ∧
        t'.response = some res := by
  -- one process is replaced, and keeps its task if it crashes
  have hcrash : ∀ q p, s.procs q = some p → s' = s.put q { p with crashed := true } →
      (s.response pid = some res ∧ s'.task pid = s.task pid) ∨ ∃ er, res = .error er := by
    rintro q p hp rfl
    rw [put_crashed_task hp]
    rw [response_put] at hres
    split at hres
    · cases hres
      exact .inr ⟨_, rfl⟩
    · exact .inl ⟨hres, rfl⟩
  have hturn : ∀ q p uuid crashed, s.readyProc q = some p → e.commits? = some q →
      s' = s.turn P q p uuid crashed →
      (s.response pid = some res ∧ s'.task pid = s.task pid) ∨ (∃ er, res = .error er) ∨
        ∃ uuid w t t', e.commits? = some pid ∧ s.task pid = some t ∧ t.response = none ∧
          t.exec P s.now uuid s.db = .ok (w, t') ∧ s'.task pid = some t' ∧
          t'.response = some res := by
    intro q p uuid crashed hready hc hs'
    obtain ⟨hp, hr⟩ := of_readyProc hready
    obtain ⟨_, heq⟩ | ⟨w, t', db, hexec, _, heq⟩ := turn_eq P s q p uuid crashed
    · exact (hcrash q p hp (hs'.trans heq)).imp_right .inl
    · rw [heq] at hs'
      subst hs'
      have hres' : (s.put q ⟨t', crashed⟩).response pid = some res := hres
      rw [response_put] at hres'
      split at hres'
      · rename_i hq
        subst hq
        unfold Proc.response at hres'
        split at hres'
        · cases hres'
          exact .inr (.inl ⟨_, rfl⟩)
        · refine .inr (.inr ⟨uuid, w, p.task, t', hc, task_of_proc hp, Proc.of_ready hr, hexec, ?_,
            hres'⟩)
          exact (congrFun (put_task s pid ⟨t', crashed⟩) pid).trans (update_self ..)
      · rename_i hq
        refine .inl ⟨hres', ?_⟩
        exact (congrFun (put_task s q ⟨t', crashed⟩) pid).trans (update_of_ne hq _ _)
  cases e with
  | tick ms =>
    cases h
    exact .inl ⟨hres, rfl⟩
  | sweep =>
    cases h
    exact .inl ⟨hres, rfl⟩
  | request q rq =>
    simp only [step] at h
    split at h
    · cases h
      rw [response_put] at hres
      split at hres
      · -- a request that is answered at once is a malformed one
        right
        left
        have hstart : (rq.start s.now).response = some res := hres
        cases rq <;> simp only [Request.start] at hstart
        all_goals
          try split at hstart
          all_goals cases hstart
          all_goals exact ⟨_, rfl⟩
      · rename_i hq
        refine .inl ⟨hres, ?_⟩
        rw [put_task, update_of_ne hq]
    · cases h
  | fail q =>
    obtain ⟨p, hp, hs'⟩ := Option.map_eq_some_iff.mp h
    exact (hcrash q p (of_readyProc hp).1 hs'.symm).imp_right .inl
  | exec q uuid | lost q uuid =>
    obtain ⟨p, hp, hs'⟩ := Option.map_eq_some_iff.mp h
    exact hturn q p uuid _ hp rfl hs'.symm

end System

variable {P : Platform} {s s' : System}

/-- **Invariants of the system**: true before the first request and kept by every move. -/
theorem Reachable.inv (I : System → Prop) (h0 : ∀ s, s.Initial → I s)
    (hI : ∀ s s', I s → Move P s s' → I s') (h : Reachable P s) : I s := by
  obtain ⟨s₀, hs₀, hrun⟩ := h
  exact hrun.inv I (fun _ _ _ hs _ he => hI _ _ hs (System.step_move he)) (h0 s₀ hs₀)

theorem Reachable.step {e : Event} (h : Reachable P s) (he : System.step P e s = some s') :
    Reachable P s' := by
  obtain ⟨s₀, hs₀, hrun⟩ := h
  exact ⟨s₀, hs₀, hrun.tail trivial he⟩

theorem Reachable.steps {G : System → Event → Prop} (h : Reachable P s)
    (hrun : Machine.Steps (System.step P) G s s') : Reachable P s' := by
  obtain ⟨s₀, hs₀, h0⟩ := h
  exact ⟨s₀, hs₀, h0.trans hrun.toFree⟩

namespace Move

theorem now_le (h : Move P s s') : s.now ≤ s'.now := by
  cases h with
  | idle _ hnow _ => exact hnow
  | start _ _ _ _ hnow _ | turn _ _ _ _ _ _ _ _ hnow _ | sweep _ hnow _ => exact hnow.ge

/-- the statement a move commits -/
theorem exists_write (h : Move P s s') : ∃ w : Write, w.exec s.now s.db = .ok s'.db := by
  cases h with
  | idle hdb _ _ | start _ _ _ hdb _ _ => exact ⟨.none, by rw [hdb]; rfl⟩
  | turn _ _ _ _ w _ _ hw _ _ => exact ⟨w, hw⟩
  | sweep hw _ _ => exact ⟨_, hw⟩

/-- a request stays, at its place or one turn further -/
theorem task_some (h : Move P s s') {pid : Nat} {t : Task} (ht : s.task pid = some t) :
    s'.task pid = some t ∨ ∃ uuid w t', t.exec P s.now uuid s.db = .ok (w, t') ∧
      w.exec s.now s.db = .ok s'.db ∧ s'.task pid = some t' := by
  cases h with
  | idle _ _ htask | sweep _ _ htask =>
    left
    rw [htask, ht]
  | start q rq hnone _ _ htask =>
    left
    have hne : pid ≠ q := by
      rintro rfl
      rw [ht] at hnone
      cases hnone
    rw [htask, update_of_ne hne, ht]
  | turn q uuid t₁ t' w ht₁ hexec hw _ htask =>
    by_cases hq : pid = q
    · subst hq
      rw [ht] at ht₁
      cases ht₁
      exact .inr ⟨uuid, w, t', hexec, hw, by rw [htask, update_self]⟩
    · left
      rw [htask, update_of_ne hq, ht]

/-- where a request of the new state comes from -/
theorem of_task_some (h : Move P s s') {pid : Nat} {t' : Task} (ht : s'.task pid = some t') :
    s.task pid = some t' ∨ (∃ rq : Request, t' = rq.start s.now ∧ s'.db = s.db) ∨
      ∃ uuid w t, s.task pid = some t ∧ t.exec P s.now uuid s.db = .ok (w, t') ∧
        w.exec s.now s.db = .ok s'.db ∧ s'.now = s.now ∧
        s'.task = update s.task pid (some t') := by
  cases h with
  | idle _ _ htask | sweep _ _ htask =>
    left
    rw [← htask, ht]
  | start q rq _ hdb _ htask =>
    by_cases hq : pid = q
    · subst hq
      rw [htask, update_self] at ht
      cases ht
      exact .inr (.inl ⟨rq, rfl, hdb⟩)
    · left
      rw [htask, update_of_ne hq] at ht
      exact ht
  | turn q uuid t₁ t₂ w ht₁ hexec hw hnow htask =>
    by_cases hq : pid = q
    · subst hq
      have ht₂ := ht
      rw [htask, update_self] at ht₂
      cases ht₂
      exact .inr (.inr ⟨uuid, w, t₁, ht₁, hexec, hw, hnow, htask⟩)
    · left
      rw [htask, update_of_ne hq] at ht
      exact ht

end Move

end Backend
