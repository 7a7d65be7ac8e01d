import FiveProtect.Backend.Liveness

/-!
# Heartbeats and polls, one at a time

A heartbeat or a liveness request on its own, from its first turn to its answer, and what a sequence
of them does to a session that is active.

* `Task.serve`   the turns of one request without any other in between;
* `Call`         a heartbeat or a liveness request; `Call.serve_steps`: to serve it is a run of the
                 system;
* `Stands`       the session is active with its last heartbeat, or terminated;
* `serve_prolongs`, `serve_ends`, `serve_polls`, `serve_other`   what each kind of call does to it,
                 and `serve_next` what any call does, as a function of how the session stands.
-/

namespace Backend
open Protocol Function

variable {P : Platform}

/-! ## one request on its own -/

/-- at most `n` turns of a request; a turn that raises ends it -/
def Task.serve (P : Platform) (now : Time) (uuid : Uuid) : Nat → Task → Db → Db × Option Response
  | 0, t, db => (db, t.response)
  | n + 1, t, db =>
    if t.response.isSome then (db, t.response)
    else match t.exec P now uuid db with
      | .error _ => (db, some (.error .internal))
      | .ok (w, t') => match w.exec now db with
        | .error _ => (db, some (.error .internal))
        | .ok db' => t'.serve P now uuid n db'

section
variable {now : Time} {uuid : Uuid} {n : Nat} {t u : Task} {db db' : Db} {w : Write}

theorem Task.serve_succ (hr : t.response = none) (hx : t.exec P now uuid db = .ok (w, u))
    (hw : w.exec now db = .ok db') :
    t.serve P now uuid (n + 1) db = u.serve P now uuid n db' := by
  rw [serve, hr, hx]
  dsimp only
  rw [hw]
  rfl

theorem Task.serve_error {e : SqlError} (hr : t.response = none)
    (hx : t.exec P now uuid db = .error e) :
    t.serve P now uuid (n + 1) db = (db, some (.error .internal)) := by
  rw [serve, hr, hx]
  rfl

theorem Task.serve_answered {res : Response} (hr : t.response = some res) :
    t.serve P now uuid n db = (db, some res) := by
  cases n with
  | zero => rw [serve, hr]
  | succ n =>
    rw [serve, hr]
    rfl

/-- a request that is answered after its first turn, without a statement -/
theorem Task.serve_refused {res : Response} (hr : t.response = none)
    (hx : t.exec P now uuid db = .ok (.none, u)) (hu : u.response = some res) :
    (t.serve P now uuid (n + 1) db).1 = db := by
  rw [Task.serve_succ hr hx rfl, Task.serve_answered hu]

end

/-- a heartbeat of a companion, or a poll of a server -/
inductive Call where
  | heartbeat (beat : HeartbeatRequest)
  | liveness (authorization : Option String) (sessionId : String)

namespace Call

def task : Call → Task
  | .heartbeat beat => .heartbeat ⟨beat, .read⟩
  | .liveness authorization sessionId => .liveness ⟨authorization, sessionId, .auth⟩

/-- to serve a call; it has at most four turns, and none of them draws a UUID -/
def serve (P : Platform) (now : Time) (c : Call) (db : Db) : Db × Option Response :=
  c.task.serve P now (Uuid.small 0) 4 db

end Call

/-! ## a call is a run of the system -/

/-- the requests of calls -/
def Task.ofCall : Task → Bool
  | .heartbeat _ => true
  | .liveness _ => true
  | _ => false

theorem Task.exec_ofCall {now : Time} {uuid : Uuid} {db : Db} {w : Write} {t t' : Task}
    (ht : t.ofCall = true) (h : t.exec P now uuid db = .ok (w, t')) : t'.ofCall = true := by
  cases t with
  | heartbeat b =>
    obtain ⟨pt, rfl, _⟩ := Task.exec_beat h
    rfl
  | liveness l =>
    obtain ⟨pt, rfl, _⟩ := Task.exec_liveness h
    rfl
  | _ => cases ht

theorem Task.serve_steps {pid : Nat} {uuid : Uuid} {n : Nat} : ∀ {t : Task} {s : System},
    t.ofCall = true → s.procs pid = some ⟨t, false⟩ →
    ∃ s', Machine.Steps (System.step P) Machine.free s s' ∧ s'.now = s.now ∧
      s'.db = (t.serve P s.now uuid n s.db).1 ∧
      s'.response pid = (t.serve P s.now uuid n s.db).2 := by
  induction n with
  | zero =>
    intro t s _ hp
    refine ⟨s, .refl s, rfl, rfl, ?_⟩
    rw [System.response, hp]
    rfl
  | succ n ih =>
    intro t s ht hp
    cases hr : t.response with
    | some res =>
      rw [Task.serve_answered hr]
      refine ⟨s, .refl s, rfl, rfl, ?_⟩
      rw [System.response, hp]
      exact hr
    | none =>
      have hready : s.readyProc pid = some ⟨t, false⟩ := by
        have hwake : t.wakeAt = 0 := by
          cases t with
          | heartbeat | liveness => rfl
          | _ => cases ht
        rw [System.readyProc, hp]
        simp [Option.filter, Proc.ready, Proc.response, hr, hwake]
      have hstep : ∀ s', s.turn P pid ⟨t, false⟩ uuid false = s' →
          System.step P (.exec pid uuid) s = some s' := by
        rintro s' rfl
        show (s.readyProc pid).map _ = _
        rw [hready]
        rfl
      cases hx : t.exec P s.now uuid s.db with
      | error er =>
        rw [Task.serve_error hr hx]
        refine ⟨s.put pid ⟨t, true⟩, .single trivial (hstep _ ?_), rfl, rfl, ?_⟩
        · simp only [System.turn, hx]
        · rw [System.response_put, if_pos rfl]
          rfl
      | ok r =>
        obtain ⟨w, t'⟩ := r
        cases hw : w.exec s.now s.db with
        | error er =>
          refine ⟨s.put pid ⟨t, true⟩, .single trivial (hstep _ ?_), rfl, ?_, ?_⟩
          · simp only [System.turn, hx, hw]
          · rw [Task.serve, hr, hx]
            dsimp only
            rw [hw]
            rfl
          · rw [System.response_put, if_pos rfl, Task.serve, hr, hx]
            dsimp only
            rw [hw]
            rfl
        | ok db =>
          rw [Task.serve_succ hr hx hw]
          have hturn : s.turn P pid ⟨t, false⟩ uuid false =
              { s.put pid ⟨t', false⟩ with db := db } := by
            simp only [System.turn, hx, hw]
          obtain ⟨s', hsteps, hnow, hdb, hres⟩ := ih (Task.exec_ofCall ht hx)
            (show (System.procs { s.put pid ⟨t', false⟩ with db := db }) pid = some ⟨t', false⟩ from
              update_self ..)
          exact ⟨s', (Machine.Steps.single trivial (hstep _ hturn)).trans hsteps, hnow, hdb, hres⟩

/-- **To serve a call is a run of the system.** -/
theorem Call.serve_steps (c : Call) {pid : Nat} {s : System} (hp : s.procs pid = some ⟨c.task, false⟩) :
    ∃ s', Machine.Steps (System.step P) Machine.free s s' ∧ s'.now = s.now ∧
      s'.db = (c.serve P s.now s.db).1 ∧ s'.response pid = (c.serve P s.now s.db).2 := by
  refine Task.serve_steps ?_ hp
  cases c with
  | heartbeat | liveness => rfl

/-! ## what a call does to a session -/

/-- a heartbeat for the session that does not end it -/
def Call.prolongs (db : Db) (id : Uuid) : Call → Bool
  | .heartbeat beat => Uuid.ofText beat.sessionId == some id &&
      (HeartbeatTask.ending beat (currentBuildHash db id)).isNone
  | _ => false

/-- a heartbeat that ends the session -/
def Call.ends (db : Db) (id : Uuid) : Call → Bool
  | .heartbeat beat => Uuid.ofText beat.sessionId == some id &&
      (HeartbeatTask.ending beat (currentBuildHash db id)).isSome
  | _ => false

/-- a poll by a server of the session's tenant -/
def Call.polls (P : Platform) (db : Db) (r : AttestationSession) : Call → Bool
  | .liveness authorization sessionId =>
      (requireServer P db authorization).toOption.any (fun auth => auth.tenant.id == r.tenantId) &&
        Uuid.ofText sessionId == some r.id
  | _ => false

/-- active with its last heartbeat, or terminated -/
def AttestationSession.Stands (r : AttestationSession) : Option Time → Prop
  | some last => r.state = .active ∧ r.lastHeartbeatAt = some last
  | none => r.state = .terminated

/-- a database as `db₀`, but for the sessions, in which the session `r₀` stands so -/
structure Stands (db₀ : Db) (r₀ : AttestationSession) (last : Option Time) (db : Db) : Prop where
  tenants : db.tenants = db₀.tenants
  gameServers : db.gameServers = db₀.gameServers
  snapshots : db.snapshots = db₀.snapshots
  row : ∃ r ∈ db.sessions, r.fixed = r₀.fixed ∧ r.Stands last

theorem requireServer_congr {db db' : Db} (ht : db'.tenants = db.tenants)
    (hg : db'.gameServers = db.gameServers) (authorization : Option String) :
    requireServer P db' authorization = requireServer P db authorization := by
  have hkey : authenticateServerKey P db' = authenticateServerKey P db := by
    funext key
    unfold authenticateServerKey
    rw [ht, hg]
  rw [requireServer, hkey, requireServer]

section
variable {db₀ db : Db} {r₀ : AttestationSession} {last last' : Option Time} {u : Time}

theorem Stands.refl {db : Db} {r : AttestationSession} {last : Option Time} (hr : r ∈ db.sessions)
    (h : r.Stands last) : Stands db r last db := ⟨rfl, rfl, rfl, r, hr, rfl, h⟩

/-- a statement on the sessions -/
theorem Stands.onSessions (h : Stands db₀ r₀ last db) (w : Write)
    (hrow : ∀ r ∈ db.sessions, r.fixed = r₀.fixed → r.Stands last →
      (w.onSession u r).Stands last') :
    Stands db₀ r₀ last' { db with
      sessions := db.sessions.map (w.onSession u) (w.onSession_key u) } := by
  obtain ⟨r, hr, hfixed, hstands⟩ := h.row
  refine ⟨h.tenants, h.gameServers, h.snapshots, w.onSession u r, ?_, ?_, hrow r hr hfixed hstands⟩
  · show _ ∈ db.sessions.map (w.onSession u) (w.onSession_key u)
    exact Table.mem_map.mpr ⟨r, hr, rfl⟩
  · rw [Write.onSession_fixed, hfixed]

theorem serve_heartbeat_found {beat : HeartbeatRequest} {session : SessionRow}
    (hf : findByIdUnscoped P db beat.sessionId = .ok (some session)) :
    (∃ reason, HeartbeatTask.ending beat (currentBuildHash db session.id) = some reason ∧
      (Call.heartbeat beat).serve P u db = ({ db with
        sessions := db.sessions.map ((Write.terminateSession session.id reason).onSession u)
          (Write.onSession_key u _) }, some (.heartbeat (terminateResponse reason)))) ∨
    (HeartbeatTask.ending beat (currentBuildHash db session.id) = none ∧
      (Call.heartbeat beat).serve P u db = ({ db with
        sessions := db.sessions.map
          ((Write.recordHeartbeat session.id heartbeatGraceSeconds).onSession u)
          (Write.onSession_key u _) },
        some (.heartbeat (if HeartbeatTask.extended db session.id then acknowledgeResponse
          else terminateResponse .heartbeat_lost)))) := by
  have hread : (Call.heartbeat beat).serve P u db =
      (Task.heartbeat ⟨beat, .currentBuildHash session⟩).serve P u (Uuid.small 0) 3 db := by
    refine Task.serve_succ (w := .none) rfl ?_ rfl
    simp only [Call.task, Task.exec, HeartbeatTask.exec, hf]
    rfl
  cases he : HeartbeatTask.ending beat (currentBuildHash db session.id) with
  | some reason =>
    refine .inl ⟨reason, rfl, hread.trans ?_⟩
    rw [Task.serve_succ (w := .none) (u := .heartbeat ⟨beat, .terminateSession session reason⟩) rfl
      (by simp only [Task.exec, HeartbeatTask.exec, he]; rfl) rfl]
    rw [Task.serve_succ rfl (Task.exec_of_terminateSession rfl) rfl]
    exact Task.serve_answered rfl
  | none =>
    refine .inr ⟨rfl, hread.trans ?_⟩
    rw [Task.serve_succ (w := .none) (u := .heartbeat ⟨beat, .recordHeartbeat session⟩) rfl
      (by simp only [Task.exec, HeartbeatTask.exec, he]; rfl) rfl]
    rw [Task.serve_succ rfl (Task.exec_of_recordHeartbeat rfl) rfl]
    exact Task.serve_answered rfl

theorem serve_liveness_found {authorization : Option String} {sessionId : String}
    {auth : AuthenticatedServer} {session : SessionRow}
    (ha : requireServer P db authorization = .ok auth)
    (hf : findById P db auth.tenant.id sessionId = .ok (some session)) :
    (((buildLiveness session u).shouldKick = true ∧ session.state ≠ .terminated) ∧
      (Call.liveness authorization sessionId).serve P u db = ({ db with
        sessions := db.sessions.map ((Write.terminateSession session.id
          ((buildLiveness session u).reason.getD .heartbeat_lost)).onSession u)
          (Write.onSession_key u _) }, some (.liveness (buildLiveness session u)))) ∨
    (¬ ((buildLiveness session u).shouldKick = true ∧ session.state ≠ .terminated) ∧
      (Call.liveness authorization sessionId).serve P u db =
        (db, some (.liveness (buildLiveness session u)))) := by
  have hread : (Call.liveness authorization sessionId).serve P u db =
      (Task.liveness ⟨authorization, sessionId, .decide session⟩).serve P u (Uuid.small 0) 2 db := by
    refine (Task.serve_succ (w := .none) (u := .liveness ⟨authorization, sessionId, .read auth⟩) rfl
      ?_ rfl).trans (Task.serve_succ (w := .none) rfl ?_ rfl)
    · simp only [Call.task, Task.exec, LivenessTask.exec, ha]
      rfl
    · simp only [Task.exec, LivenessTask.exec, hf]
      rfl
  by_cases hk : (buildLiveness session u).shouldKick = true ∧ session.state ≠ .terminated
  · refine .inl ⟨hk, hread.trans ?_⟩
    rw [Task.serve_succ (w := .none) (u := .liveness ⟨authorization, sessionId,
      .terminate session (buildLiveness session u)⟩) rfl
      (by simp only [Task.exec, LivenessTask.exec]; rw [if_pos hk]; rfl) rfl]
    rw [Task.serve_succ (w := .terminateSession session.id
      ((buildLiveness session u).reason.getD .heartbeat_lost)) (u := .liveness ⟨authorization,
      sessionId, .answered (buildLiveness session u)⟩) rfl rfl rfl]
    exact Task.serve_answered rfl
  · refine .inr ⟨hk, hread.trans ?_⟩
    rw [Task.serve_succ (w := .none) (u := .liveness ⟨authorization, sessionId,
      .answered (buildLiveness session u)⟩) rfl
      (by simp only [Task.exec, LivenessTask.exec]; rw [if_neg hk]; rfl) rfl]
    exact Task.serve_answered rfl

/-! ## the four kinds of calls -/

variable {c : Call}

/-- the id is a column that is never written -/
theorem AttestationSession.id_of_fixed {r r' : AttestationSession} (h : r.fixed = r'.fixed) :
    r.id = r'.id ∧ r.tenantId = r'.tenantId := ⟨congrArg (·.1) h, congrArg (·.2.1) h⟩

/-- **A heartbeat that ends the session** leaves it terminated. -/
theorem serve_ends (h : Stands db₀ r₀ last db) (hc : c.ends db₀ r₀.id = true) :
    Stands db₀ r₀ none (c.serve P u db).1 ∧
      ∃ reason, (c.serve P u db).2 = some (.heartbeat (terminateResponse reason)) := by
  cases c with
  | liveness => cases hc
  | heartbeat beat =>
    obtain ⟨r, hr, hfixed, _⟩ := h.row
    have hid := (AttestationSession.id_of_fixed hfixed).1
    simp only [Call.ends, Bool.and_eq_true, beq_iff_eq] at hc
    obtain ⟨hname, hend⟩ := hc
    have hbuild : currentBuildHash db r.id = currentBuildHash db₀ r₀.id := by
      rw [currentBuildHash, h.snapshots, hid, currentBuildHash]
    obtain ⟨reason, _, hserve⟩ | ⟨hnone, _⟩ := serve_heartbeat_found (P := P) (u := u)
      (findByIdUnscoped_of_mem P hr (hid ▸ hname))
    · rw [hserve]
      refine ⟨h.onSessions _ fun x hx hxf _ => ?_, reason, rfl⟩
      have hxid : x.id = r.id := (AttestationSession.id_of_fixed hxf).1.trans hid.symm
      simp only [Write.onSession]
      split
      · rfl
      · rename_i hrow
        exact not_not.mp fun hs => hrow ⟨hxid, hs⟩
    · rw [show (r.columns P).id = r.id from rfl, hbuild] at hnone
      rw [hnone] at hend
      cases hend

/-- **A heartbeat that does not end the session** is recorded if it is active. -/
theorem serve_prolongs (h : Stands db₀ r₀ last db) (hc : c.prolongs db₀ r₀.id = true) :
    Stands db₀ r₀ (last.map fun _ => u) (c.serve P u db).1 ∧
      (c.serve P u db).2 = some (.heartbeat (if last.isSome then acknowledgeResponse
        else terminateResponse .heartbeat_lost)) := by
  cases c with
  | liveness => cases hc
  | heartbeat beat =>
    obtain ⟨r, hr, hfixed, hstands⟩ := h.row
    have hid := (AttestationSession.id_of_fixed hfixed).1
    simp only [Call.prolongs, Bool.and_eq_true, beq_iff_eq] at hc
    obtain ⟨hname, hend⟩ := hc
    have hbuild : currentBuildHash db r.id = currentBuildHash db₀ r₀.id := by
      rw [currentBuildHash, h.snapshots, hid, currentBuildHash]
    obtain ⟨reason, hsome, _⟩ | ⟨_, hserve⟩ := serve_heartbeat_found (P := P) (u := u)
      (findByIdUnscoped_of_mem P hr (hid ▸ hname))
    · rw [show (r.columns P).id = r.id from rfl, hbuild] at hsome
      rw [hsome] at hend
      cases hend
    · have hext : HeartbeatTask.extended db r.id = last.isSome := by
        unfold HeartbeatTask.extended
        cases last with
        | some t =>
          rw [Table.find_eq hr (by simp [hstands.1]) fun x _ hx => by
            rw [Bool.and_eq_true, beq_iff_eq] at hx
            simp [Row.clash, Row.key, hx.1]]
          rfl
        | none =>
          rw [Table.find_eq_none fun x hx => ?_]
          · rfl
          · by_cases hxid : x.id = r.id
            · rw [Db.eq_of_id hx hr hxid, show r.state = .terminated from hstands]
              simp
            · simp [hxid]
      rw [hserve, show (r.columns P).id = r.id from rfl, hext]
      refine ⟨h.onSessions _ fun x hx hxf hxs => ?_, rfl⟩
      have hxid : x.id = r.id := (AttestationSession.id_of_fixed hxf).1.trans hid.symm
      cases last with
      | some t =>
        rw [show (Write.recordHeartbeat r.id heartbeatGraceSeconds).onSession u x =
          x.beat u heartbeatGraceSeconds from if_pos ⟨hxid, hxs.1⟩]
        exact ⟨hxs.1, rfl⟩
      | none =>
        have hactive : ¬ (x.id = r.id ∧ x.state = .active) := by
          rw [show x.state = .terminated from hxs]
          simp
        rw [show (Write.recordHeartbeat r.id heartbeatGraceSeconds).onSession u x = x from
          if_neg hactive]
        exact hxs

/-- **A poll** terminates the session if its last heartbeat is too old. -/
theorem serve_polls (h : Stands db₀ r₀ last db) (hc : c.polls P db₀ r₀ = true) :
    Stands db₀ r₀ (last.filter fun t => u < t + heartbeatLimitMs) (c.serve P u db).1 ∧
      ∃ r : AttestationSession, r.fixed = r₀.fixed ∧ r.Stands last ∧
        (c.serve P u db).2 = some (.liveness (buildLiveness (r.columns P) u)) := by
  cases c with
  | heartbeat => cases hc
  | liveness authorization sessionId =>
    obtain ⟨r, hr, hfixed, hstands⟩ := h.row
    obtain ⟨hid, htenant⟩ := AttestationSession.id_of_fixed hfixed
    simp only [Call.polls, Bool.and_eq_true, beq_iff_eq] at hc
    obtain ⟨hserver, hname⟩ := hc
    obtain ⟨auth, hauth, ht⟩ := (Option.any_eq_true _ _).mp hserver
    have hok : requireServer P db authorization = .ok auth := by
      rw [requireServer_congr h.tenants h.gameServers]
      cases hx : requireServer P db₀ authorization with
      | error e =>
        rw [hx] at hauth
        cases hauth
      | ok auth' =>
        rw [hx] at hauth
        cases hauth
        rfl
    have hfind := findById_of_mem P hr (hid ▸ hname) (htenant.trans (beq_iff_eq.mp ht).symm)
    obtain ⟨⟨hkick, hs⟩, hserve⟩ | ⟨hkept, hserve⟩ := serve_liveness_found (u := u) hok hfind
    · rw [hserve]
      refine ⟨h.onSessions _ fun x hx hxf _ => ?_, r, hfixed, hstands, rfl⟩
      have hxid : x.id = r.id := (AttestationSession.id_of_fixed hxf).1.trans hid.symm
      have hnone : (last.filter fun t => u < t + heartbeatLimitMs) = none := by
        obtain hterm | ⟨_, t, ht, hle⟩ := buildLiveness_kick.mp hkick
        · exact absurd hterm hs
        · cases last with
          | none => exact absurd hstands hs
          | some t' =>
            rw [show (r.columns P).lastHeartbeatAt = r.lastHeartbeatAt from rfl, hstands.2] at ht
            cases ht
            simp [Option.filter, Nat.not_lt.mpr hle]
      rw [hnone]
      simp only [Write.onSession]
      split
      · rfl
      · rename_i hrow
        exact not_not.mp fun hxs => hrow ⟨hxid, hxs⟩
    · rw [hserve]
      refine ⟨?_, r, hfixed, hstands, rfl⟩
      have hsame : (last.filter fun t => u < t + heartbeatLimitMs) = last := by
        cases last with
        | none => rfl
        | some t =>
          have hlt : u < t + heartbeatLimitMs := by
            by_contra hle
            refine hkept ⟨buildLiveness_kick.mpr (.inr ⟨hstands.1, t, hstands.2,
              Nat.not_lt.mp hle⟩), ?_⟩
            rw [show (r.columns P).state = r.state from rfl, hstands.1]
            decide
          simp [Option.filter, hlt]
      rw [hsame]
      exact h

/-- a statement on another session -/
theorem Stands.onOther (h : Stands db₀ r₀ last db) (w : Write)
    (hrow : ∀ r ∈ db.sessions, r.id = r₀.id → w.onSession u r = r) : Stands db₀ r₀ last { db with
      sessions := db.sessions.map (w.onSession u) (w.onSession_key u) } := by
  refine h.onSessions w fun r hr hfixed hstands => ?_
  rw [hrow r hr (AttestationSession.id_of_fixed hfixed).1]
  exact hstands

/-- the first turn of a poll -/
theorem serve_liveness_auth {authorization : Option String} (sessionId : String)
    {auth : AuthenticatedServer} (ha : requireServer P db authorization = .ok auth) :
    (Call.liveness authorization sessionId).serve P u db =
      (Task.liveness ⟨authorization, sessionId, .read auth⟩).serve P u (Uuid.small 0) 3 db := by
  refine Task.serve_succ (w := .none) rfl ?_ rfl
  simp only [Call.task, Task.exec, LivenessTask.exec, ha]
  rfl

/-- what another poll finds is another session -/
theorem Stands.id_ne_of_not_polls (h : Stands db₀ r₀ last db) {authorization : Option String}
    {sessionId : String} {auth : AuthenticatedServer} {session : SessionRow}
    (ha : requireServer P db authorization = .ok auth)
    (hf : findById P db auth.tenant.id sessionId = .ok (some session))
    (hl : (Call.liveness authorization sessionId).polls P db₀ r₀ = false) : r₀.id ≠ session.id := by
  obtain ⟨x, hx, rfl, hname, htenant⟩ := findById_some P hf
  intro hid
  obtain ⟨r, hr, hfixed, _⟩ := h.row
  obtain ⟨hrid, hrt⟩ := AttestationSession.id_of_fixed hfixed
  obtain rfl := Db.eq_of_id hx hr (hid.symm.trans hrid.symm)
  rw [requireServer_congr h.tenants h.gameServers] at ha
  have hid' : r₀.id = x.id := hid
  simp [Call.polls, ha, hname, Except.toOption, ← hrt, htenant, hid'] at hl

/-- **Any other call** leaves the session alone. -/
theorem serve_other (h : Stands db₀ r₀ last db) (hp : c.prolongs db₀ r₀.id = false)
    (he : c.ends db₀ r₀.id = false) (hl : c.polls P db₀ r₀ = false) :
    Stands db₀ r₀ last (c.serve P u db).1 := by
  cases c with
  | heartbeat beat =>
    -- the heartbeat names another session, if any
    have hname : Uuid.ofText beat.sessionId ≠ some r₀.id := by
      intro hname
      simp only [Call.prolongs, Call.ends, hname, beq_self_eq_true, Bool.true_and] at hp he
      cases hx : HeartbeatTask.ending beat (currentBuildHash db₀ r₀.id) with
      | none => simp [hx] at hp
      | some reason => simp [hx] at he
    cases hf : findByIdUnscoped P db beat.sessionId with
    | error er =>
      have hserve : (Call.heartbeat beat).serve P u db = (db, some (.error .internal)) := by
        refine Task.serve_error (e := er) rfl ?_
        simp only [Call.task, Task.exec, HeartbeatTask.exec, hf]
        rfl
      rw [hserve]
      exact h
    | ok found =>
      cases found with
      | none =>
        have hserve : ((Call.heartbeat beat).serve P u db).1 = db := by
          refine Task.serve_refused (u := .heartbeat ⟨beat, .refused
            (.notFound "session_unknown" "no such session")⟩) rfl ?_ rfl
          simp only [Call.task, Task.exec, HeartbeatTask.exec, hf]
          rfl
        rw [hserve]
        exact h
      | some session =>
        obtain ⟨x, _, rfl, hx⟩ := findByIdUnscoped_some P hf
        have hne : r₀.id ≠ x.id := fun heq => hname (heq ▸ hx)
        obtain ⟨reason, _, hserve⟩ | ⟨_, hserve⟩ := serve_heartbeat_found (P := P) (u := u) hf
        · rw [hserve]
          exact h.onOther _ fun r _ hid => if_neg fun hrow => hne (hid.symm.trans hrow.1)
        · rw [hserve]
          exact h.onOther _ fun r _ hid => if_neg fun hrow => hne (hid.symm.trans hrow.1)
  | liveness authorization sessionId =>
    cases ha : requireServer P db authorization with
    | error e =>
      have hserve : ((Call.liveness authorization sessionId).serve P u db).1 = db := by
        refine Task.serve_refused (u := .liveness ⟨authorization, sessionId, .refused e⟩) rfl ?_ rfl
        simp only [Call.task, Task.exec, LivenessTask.exec, ha]
        rfl
      rw [hserve]
      exact h
    | ok auth =>
      have hread := serve_liveness_auth (u := u) sessionId ha
      cases hf : findById P db auth.tenant.id sessionId with
      | error er =>
        have hserve : ((Call.liveness authorization sessionId).serve P u db).1 = db := by
          rw [hread]
          refine congrArg Prod.fst (Task.serve_error (e := er) rfl ?_)
          simp only [Task.exec, LivenessTask.exec, hf]
          rfl
        rw [hserve]
        exact h
      | ok found =>
        cases found with
        | none =>
          have hserve : ((Call.liveness authorization sessionId).serve P u db).1 = db := by
            rw [hread]
            refine Task.serve_refused (u := .liveness ⟨authorization, sessionId, .refused
              (.notFound "session_unknown" "no such session")⟩) rfl ?_ rfl
            simp only [Task.exec, LivenessTask.exec, hf]
            rfl
          rw [hserve]
          exact h
        | some session =>
          have hne := h.id_ne_of_not_polls ha hf hl
          obtain ⟨_, hserve⟩ | ⟨_, hserve⟩ := serve_liveness_found (u := u) ha hf
          · rw [hserve]
            exact h.onOther _ fun r _ hid => if_neg fun hrow => hne (hid.symm.trans hrow.1)
          · rw [hserve]
            exact h

/-- a poll for the session that is not by a server of its tenant is answered with an error -/
theorem serve_refused (h : Stands db₀ r₀ last db) {authorization : Option String} {sessionId : String}
    (hname : Uuid.ofText sessionId = some r₀.id)
    (hl : (Call.liveness authorization sessionId).polls P db₀ r₀ = false) :
    ∃ e : ApiError, ((Call.liveness authorization sessionId).serve P u db).2 = some (.error e) ∧
      e.status ≠ 200 := by
  cases ha : requireServer P db authorization with
  | error e =>
    refine ⟨e, ?_, ?_⟩
    · rw [Call.serve, Task.serve_succ (w := .none)
        (u := .liveness ⟨authorization, sessionId, .refused e⟩) rfl
        (by simp only [Call.task, Task.exec, LivenessTask.exec, ha]; rfl) rfl]
      rw [Task.serve_answered rfl]
    · unfold requireServer at ha
      split at ha
      · cases ha
        decide
      · split at ha
        · cases ha
        · cases ha
          show (403 : Nat) ≠ 200
          decide
  | ok auth =>
    have hread := serve_liveness_auth (u := u) sessionId ha
    cases hf : findById P db auth.tenant.id sessionId with
    | error er =>
      refine ⟨.internal, ?_, by decide⟩
      rw [hread]
      refine congrArg Prod.snd (Task.serve_error (e := er) rfl ?_)
      simp only [Task.exec, LivenessTask.exec, hf]
      rfl
    | ok found =>
      cases found with
      | none =>
        refine ⟨.notFound "session_unknown" "no such session", ?_, by decide⟩
        rw [hread, Task.serve_succ (w := .none) (u := .liveness ⟨authorization, sessionId, .refused
          (.notFound "session_unknown" "no such session")⟩) rfl
          (by simp only [Task.exec, LivenessTask.exec, hf]; rfl) rfl]
        rw [Task.serve_answered rfl]
      | some session =>
        have hne := h.id_ne_of_not_polls ha hf hl
        obtain ⟨x, _, rfl, hx, _⟩ := findById_some P hf
        rw [hname] at hx
        exact absurd (Option.some.inj hx) hne

/-- the heartbeat was for the session, and was acknowledged -/
def Call.acknowledged (id : Uuid) : Call → Option Response → Bool
  | .heartbeat beat, some (.heartbeat answer) =>
    Uuid.ofText beat.sessionId == some id && !answer.terminate
  | _, _ => false

/-- how the session stands after a call -/
def Call.next (P : Platform) (db : Db) (r : AttestationSession) (now : Time) (c : Call)
    (last : Option Time) : Option Time :=
  if c.prolongs db r.id then last.map fun _ => now
  else if c.ends db r.id then none
  else if c.polls P db r then last.filter fun t => now < t + heartbeatLimitMs
  else last

/-- **One call.** -/
theorem serve_next (h : Stands db₀ r₀ last db) (now : Time) (c : Call) :
    Stands db₀ r₀ (c.next P db₀ r₀ now last) (c.serve P now db).1 ∧
      c.acknowledged r₀.id (c.serve P now db).2 = (c.prolongs db₀ r₀.id && last.isSome) := by
  unfold Call.next
  by_cases hp : c.prolongs db₀ r₀.id = true
  · obtain ⟨hstands, hres⟩ := serve_prolongs (P := P) (u := now) h hp
    rw [if_pos hp, hres, hp]
    refine ⟨hstands, ?_⟩
    cases c with
    | liveness => cases hp
    | heartbeat beat =>
      simp only [Call.prolongs, Bool.and_eq_true] at hp
      rw [Call.acknowledged, hp.1]
      cases last with
      | none => rfl
      | some t => rfl
  · have hp' := Bool.eq_false_iff.mpr hp
    rw [if_neg hp, hp', Bool.false_and]
    by_cases he : c.ends db₀ r₀.id = true
    · obtain ⟨hstands, reason, hres⟩ := serve_ends (P := P) (u := now) h he
      rw [if_pos he, hres]
      refine ⟨hstands, ?_⟩
      cases c with
      | liveness => cases he
      | heartbeat beat => exact Bool.and_false _
    · have he' := Bool.eq_false_iff.mpr he
      have hack : c.acknowledged r₀.id (c.serve P now db).2 = false := by
        cases c with
        | liveness => rfl
        | heartbeat beat =>
          by_cases hname : Uuid.ofText beat.sessionId = some r₀.id
          · simp only [Call.prolongs, Call.ends, hname, beq_self_eq_true, Bool.true_and] at hp' he'
            cases hx : HeartbeatTask.ending beat (currentBuildHash db₀ r₀.id) with
            | none => simp [hx] at hp'
            | some reason => simp [hx] at he'
          · unfold Call.acknowledged
            split
            · rename_i hb _
              cases hb
              rw [beq_eq_false_iff_ne.mpr hname, Bool.false_and]
            · rfl
      rw [if_neg he]
      refine ⟨?_, hack⟩
      by_cases hl : c.polls P db₀ r₀ = true
      · rw [if_pos hl]
        exact (serve_polls h hl).1
      · rw [if_neg hl]
        exact serve_other h hp' he' (Bool.eq_false_iff.mpr hl)

end

end Backend
