import FiveProtect.Backend.Deployment
import FiveProtect.Backend.Operators
import FiveProtect.Backend.Turns
import FiveProtect.Lib.ForeignKey

/-!
# Backend: what rows refer to

The foreign keys of `migrations/0001_initial.sql`, and what they leave out: the server and the player of a session
are of the tenant of the session, and so is the session of a snapshot.  `Write.exec` and `Admin.exec` do not check
foreign keys; no statement is ever refused by one, whatever requests and commands run at the same time.

* `Db.References`          every row refers to rows that are there;
* `Write.Refers`, `Admin.Refers`   what the database asks of a statement;
* `Task.Refers`, `Command.Refers`  what a request or a command holds from earlier statements is still there;
* `Task.exec_refers`       one turn;
* `operated_references`    all runs, from the empty database.
-/

namespace Backend
open Protocol Function

/-! ## keys -/

/-- a row and its tenant -/
def GameServer.owned (g : GameServer) : Uuid × Uuid := (g.id, g.tenantId)

def PlayerIdentity.owned (p : PlayerIdentity) : Uuid × Uuid := (p.id, p.tenantId)

def AttestationSession.owned (r : AttestationSession) : Uuid × Uuid := (r.id, r.tenantId)

def AttestationSession.serverRef (r : AttestationSession) : Uuid × Uuid := (r.gameServerId, r.tenantId)

def AttestationSession.playerRef (r : AttestationSession) : Uuid × Uuid := (r.playerIdentityId, r.tenantId)

def StoredSnapshot.sessionRef (x : StoredSnapshot) : Uuid × Uuid := (x.sessionId, x.tenantId)

namespace Db

/-- every row refers to rows that are there, and of its tenant -/
structure References (db : Db) : Prop where
  server : Table.Refers GameServer.tenantId TenantRow.id db.gameServers db.tenants
  player : Table.Refers PlayerIdentity.tenantId TenantRow.id db.players db.tenants
  session : Table.Refers AttestationSession.tenantId TenantRow.id db.sessions db.tenants
  sessionServer : Table.Refers AttestationSession.serverRef GameServer.owned db.sessions db.gameServers
  sessionPlayer : Table.Refers AttestationSession.playerRef PlayerIdentity.owned db.sessions db.players
  snapshot : Table.Refers StoredSnapshot.tenantId TenantRow.id db.snapshots db.tenants
  snapshotSession : Table.Refers StoredSnapshot.sessionRef AttestationSession.owned db.snapshots db.sessions

/-- nothing that can be referred to goes away -/
structure Keeps (db db' : Db) : Prop where
  tenants : Table.Keeps TenantRow.id db.tenants db'.tenants
  gameServers : Table.Keeps GameServer.owned db.gameServers db'.gameServers
  players : Table.Keeps PlayerIdentity.owned db.players db'.players
  sessions : Table.Keeps AttestationSession.owned db.sessions db'.sessions

theorem Keeps.refl (db : Db) : db.Keeps db := ⟨.refl _ _, .refl _ _, .refl _ _, .refl _ _⟩

end Db

/-! ## the statements of requests -/

namespace Write

/-- what the foreign keys ask of a statement, tenant included -/
def Refers (db : Db) : Write → Prop
  | .upsertPlayer _ tenantId _ _ _ => db.tenants.Has TenantRow.id tenantId
  | .createSession row => db.tenants.Has TenantRow.id row.tenantId ∧
      db.gameServers.Has GameServer.owned row.serverRef ∧ db.players.Has PlayerIdentity.owned row.playerRef
  | .storeSnapshot row => db.tenants.Has TenantRow.id row.tenantId ∧
      db.sessions.Has AttestationSession.owned row.sessionRef
  | _ => True

variable {now : Time} {w : Write} {db db' : Db}

theorem onPlayer_owned (tenantId : Uuid) (license : String) (steam discord : Option String) (p : PlayerIdentity) :
    (onPlayer now tenantId license steam discord p).owned = p.owned := by
  unfold onPlayer
  split
  · rfl
  · rfl

theorem onServer_owned (tenantId serverId : Uuid) (g : GameServer) :
    (onServer now tenantId serverId g).owned = g.owned := by
  unfold onServer
  split
  · rfl
  · rfl

/-- the columns that refer to other rows are set by the `INSERT` -/
theorem onSession_refs (w : Write) (r : AttestationSession) : (w.onSession now r).owned = r.owned ∧
    (w.onSession now r).serverRef = r.serverRef ∧ (w.onSession now r).playerRef = r.playerRef := by
  have hplayer : (w.onSession now r).playerIdentityId = r.playerIdentityId := by
    cases w <;> simp only [onSession]
    all_goals
      try split
      all_goals rfl
  refine ⟨?_, ?_, ?_⟩
  · rw [AttestationSession.owned, onSession_id, onSession_tenantId]
    rfl
  · rw [AttestationSession.serverRef, onSession_gameServerId, onSession_tenantId]
    rfl
  · rw [AttestationSession.playerRef, hplayer, onSession_tenantId]
    rfl

/-- an `UPDATE` of the sessions leaves every reference as it is -/
theorem onSession_references (hdb : db.References) (w : Write)
    (h : db' = { db with sessions := db.sessions.map (w.onSession now) (w.onSession_key now) }) :
    db.Keeps db' ∧ db'.References := by
  have hkey := onSession_key now w
  have hkeep : Table.Keeps AttestationSession.owned db.sessions (db.sessions.map (w.onSession now) hkey) :=
    .map hkey fun r => (onSession_refs w r).1
  rw [h]
  exact ⟨⟨.refl _ _, .refl _ _, .refl _ _, hkeep⟩, hdb.server, hdb.player,
    hdb.session.map hkey fun r => congrArg Prod.snd (onSession_refs w r).1,
    hdb.sessionServer.map hkey fun r => (onSession_refs w r).2.1,
    hdb.sessionPlayer.map hkey fun r => (onSession_refs w r).2.2, hdb.snapshot, hdb.snapshotSession.keep hkeep⟩

/-- what a statement does to the tables that are referred to, and to the references -/
theorem exec_references (hdb : db.References) (hw : w.Refers db) (h : w.exec now db = .ok db') :
    db.Keeps db' ∧ db'.References := by
  cases w with
  | none =>
    cases h
    exact ⟨.refl db, hdb⟩
  | upsertPlayer id tenantId license steam discord =>
    simp only [exec] at h
    split at h
    · cases h
      have hkeep : Table.Keeps PlayerIdentity.owned db.players (db.players.map
          (onPlayer now tenantId license steam discord) (onPlayer_key now tenantId license steam discord)) :=
        .map _ (onPlayer_owned tenantId license steam discord)
      exact ⟨⟨.refl _ _, .refl _ _, hkeep, .refl _ _⟩, hdb.server,
        hdb.player.map (onPlayer_key now tenantId license steam discord) fun p =>
          congrArg Prod.snd (onPlayer_owned tenantId license steam discord p),
        hdb.session, hdb.sessionServer, hdb.sessionPlayer.keep hkeep, hdb.snapshot, hdb.snapshotSession⟩
    · obtain ⟨t', ht', rfl⟩ := inserted_ok h
      have hkeep : Table.Keeps PlayerIdentity.owned db.players t' := .insert ht'
      exact ⟨⟨.refl _ _, .refl _ _, hkeep, .refl _ _⟩, hdb.server, hdb.player.insert ht' hw, hdb.session,
        hdb.sessionServer, hdb.sessionPlayer.keep hkeep, hdb.snapshot, hdb.snapshotSession⟩
  | createSession row =>
    obtain ⟨t', ht', rfl⟩ := inserted_ok h
    obtain ⟨htenant, hserver, hplayer⟩ := hw
    have hkeep : Table.Keeps AttestationSession.owned db.sessions t' := .insert ht'
    exact ⟨⟨.refl _ _, .refl _ _, .refl _ _, hkeep⟩, hdb.server, hdb.player, hdb.session.insert ht' htenant,
      hdb.sessionServer.insert ht' hserver, hdb.sessionPlayer.insert ht' hplayer, hdb.snapshot,
      hdb.snapshotSession.keep hkeep⟩
  | touchServer tenantId serverId =>
    cases h
    have hkeep : Table.Keeps GameServer.owned db.gameServers (db.gameServers.map
        (onServer now tenantId serverId) (onServer_key now tenantId serverId)) :=
      .map _ (onServer_owned tenantId serverId)
    exact ⟨⟨.refl _ _, hkeep, .refl _ _, .refl _ _⟩,
      hdb.server.map (onServer_key now tenantId serverId) fun g =>
        congrArg Prod.snd (onServer_owned tenantId serverId g), hdb.player, hdb.session,
      hdb.sessionServer.keep hkeep, hdb.sessionPlayer, hdb.snapshot, hdb.snapshotSession⟩
  | storeSnapshot row =>
    obtain ⟨t', ht', rfl⟩ := inserted_ok h
    exact ⟨⟨.refl _ _, .refl _ _, .refl _ _, .refl _ _⟩, hdb.server, hdb.player, hdb.session, hdb.sessionServer,
      hdb.sessionPlayer, hdb.snapshot.insert ht' hw.1, hdb.snapshotSession.insert ht' hw.2⟩
  | consumeNonce | recordVerdict | recordHeartbeat | terminateSession | expireStaleSessions =>
    cases h
    exact onSession_references hdb _ rfl

end Write

/-! ## the statements of commands -/

namespace Admin

def Refers (db : Db) : Admin → Prop
  | .insertServer row => db.tenants.Has TenantRow.id row.tenantId
  | _ => True

theorem exec_references {a : Admin} {db db' : Db} (hdb : db.References) (ha : a.Refers db)
    (h : a.exec db = .ok db') : db.Keeps db' ∧ db'.References := by
  have htenants : ∀ t', Table.Keeps TenantRow.id db.tenants t' → db' = { db with tenants := t' } →
      db.Keeps db' ∧ db'.References := by
    intro t' hkeep heq
    rw [heq]
    exact ⟨⟨hkeep, .refl _ _, .refl _ _, .refl _ _⟩, hdb.server.keep hkeep, hdb.player.keep hkeep,
      hdb.session.keep hkeep, hdb.sessionServer, hdb.sessionPlayer, hdb.snapshot.keep hkeep, hdb.snapshotSession⟩
  have hbuilds : ∀ t', db' = { db with builds := t' } → db.Keeps db' ∧ db'.References := by
    intro t' heq
    rw [heq]
    exact ⟨⟨.refl _ _, .refl _ _, .refl _ _, .refl _ _⟩, hdb.server, hdb.player, hdb.session, hdb.sessionServer,
      hdb.sessionPlayer, hdb.snapshot, hdb.snapshotSession⟩
  cases a with
  | none =>
    cases h
    exact ⟨.refl db, hdb⟩
  | insertTenant row =>
    obtain ⟨t', ht', heq⟩ := Write.inserted_ok h
    exact htenants t' (.insert ht') heq
  | insertServer row =>
    obtain ⟨t', ht', rfl⟩ := Write.inserted_ok h
    have hkeep : Table.Keeps GameServer.owned db.gameServers t' := .insert ht'
    exact ⟨⟨.refl _ _, hkeep, .refl _ _, .refl _ _⟩, hdb.server.insert ht' ha, hdb.player, hdb.session,
      hdb.sessionServer.keep hkeep, hdb.sessionPlayer, hdb.snapshot, hdb.snapshotSession⟩
  | updateTenant id tier failMode =>
    cases h
    exact htenants _ (.map _ (onTenant_id id tier failMode)) rfl
  | revokeBuild buildHash =>
    cases h
    exact hbuilds _ rfl
  | upsertBuild buildHash =>
    simp only [exec] at h
    split at h
    · cases h
      exact hbuilds _ rfl
    · obtain ⟨t', _, heq⟩ := Write.inserted_ok h
      exact hbuilds t' heq

end Admin

/-! ## what is in flight -/

/-- the tenant and the server of an authorized request are there -/
def AuthenticatedServer.Stands (db : Db) (auth : AuthenticatedServer) : Prop :=
  db.tenants.Has TenantRow.id auth.tenant.id ∧
    db.gameServers.Has GameServer.owned (auth.server.id, auth.tenant.id)

def NoncePoint.Refers (db : Db) : NoncePoint → Prop
  | .upsertPlayer server _ => server.Stands db
  | .createSession server _ playerIdentityId =>
    server.Stands db ∧ db.players.Has PlayerIdentity.owned (playerIdentityId, server.tenant.id)
  | _ => True

def AttestPoint.Refers (db : Db) : AttestPoint → Prop
  | .storeSnapshot session => db.tenants.Has TenantRow.id session.tenantId ∧
      db.sessions.Has AttestationSession.owned (session.id, session.tenantId)
  | _ => True

/-- what a request holds for its next insert is there -/
def Task.Refers (db : Db) : Task → Prop
  | .nonce t => t.point.Refers db
  | .attest t => t.point.Refers db
  | _ => True

def Command.Refers (db : Db) : Command → Prop
  | .insertServer _ _ tenantId => db.tenants.Has TenantRow.id tenantId
  | .updateTenant target _ _ => db.tenants.Has TenantRow.id target.id
  | _ => True

section
variable {P : Platform} {now : Time} {uuid : Uuid} {db db' : Db} {w : Write}

theorem AuthenticatedServer.Stands.keep {auth : AuthenticatedServer} (h : auth.Stands db) (hkeep : db.Keeps db') :
    auth.Stands db' := ⟨h.1.keep hkeep.tenants, h.2.keep hkeep.gameServers⟩

theorem Task.Refers.keep {t : Task} (h : t.Refers db) (hkeep : db.Keeps db') : t.Refers db' := by
  cases t with
  | nonce t =>
    obtain ⟨_, _, _, _, _, point⟩ := t
    cases point with
    | upsertPlayer auth body => exact AuthenticatedServer.Stands.keep h hkeep
    | createSession auth body id => exact ⟨h.1.keep hkeep, h.2.keep hkeep.players⟩
    | _ => trivial
  | attest t =>
    obtain ⟨_, _, _, point⟩ := t
    cases point with
    | storeSnapshot session => exact ⟨h.1.keep hkeep.tenants, h.2.keep hkeep.sessions⟩
    | _ => trivial
  | _ => trivial

theorem Command.Refers.keep {cmd : Command} (h : cmd.Refers db) (hkeep : db.Keeps db') : cmd.Refers db' := by
  cases cmd with
  | insertServer | updateTenant => exact Table.Has.keep h hkeep.tenants
  | _ => trivial

theorem Request.start_refers (rq : Request) : (rq.start now).Refers db := by
  cases rq <;> simp only [Request.start]
  all_goals
    try split
    all_goals trivial

theorem Cli.start_refers (c : Ir.CaseMapping) (cli : Cli) : (cli.start c).Refers db := by
  cases cli <;> simp only [Cli.start]
  all_goals
    repeat' split
    all_goals trivial

/-- no statement takes a player away, or gives him another license -/
theorem Write.players_keep {w : Write} (h : w.exec now db = .ok db') :
    Table.Keeps Row.key db.players db'.players := by
  cases w with
  | upsertPlayer id tenantId license steam discord =>
    simp only [exec] at h
    split at h
    · cases h
      have hkey := onPlayer_key now tenantId license steam discord
      exact .map hkey hkey
    · obtain ⟨t', ht', rfl⟩ := inserted_ok h
      exact .insert ht'
  | createSession | storeSnapshot =>
    obtain ⟨t', _, rfl⟩ := inserted_ok h
    exact .refl _ _
  | _ =>
    cases h
    exact .refl _ _

/-- the player a session is about to refer to: the one that was there, or the new one -/
theorem Write.upsertPlayer_player {tenantId : Uuid} {license : String} {steam discord : Option String}
    (h : (Write.upsertPlayer uuid tenantId license steam discord).exec now db = .ok db') :
    db'.players.Has Row.key ((hasPlayer db tenantId license).elim uuid PlayerIdentity.id, tenantId, license) := by
  have hkeep := players_keep h
  simp only [exec] at h
  cases hplayer : hasPlayer db tenantId license with
  | some p =>
    obtain ⟨hmem, hp⟩ := Table.mem_of_find hplayer
    rw [Bool.and_eq_true, beq_iff_eq, beq_iff_eq] at hp
    rw [← hp.1, ← hp.2]
    exact hkeep p hmem
  | none =>
    simp only [hplayer] at h
    obtain ⟨t', ht', rfl⟩ := inserted_ok h
    exact Table.Has.insert ht'

theorem upsertPlayer_has {tenantId : Uuid} {license : String} {steam discord : Option String}
    (h : (Write.upsertPlayer uuid tenantId license steam discord).exec now db = .ok db') :
    db'.players.Has PlayerIdentity.owned
      ((Write.hasPlayer db tenantId license).elim uuid PlayerIdentity.id, tenantId) := by
  obtain ⟨p, hp, hkey⟩ := Write.upsertPlayer_player h
  exact ⟨p, hp, congrArg (fun key : Uuid × Uuid × String => (key.1, key.2.1)) hkey⟩

/-- **One turn of a request.**  Its statement refers to rows that are there, and what it holds afterwards is there. -/
theorem Task.exec_refers {t t' : Task} (hdb : db.References) (ht : t.Refers db)
    (h : t.exec P now uuid db = .ok (w, t')) :
    w.Refers db ∧ ∀ db', w.exec now db = .ok db' → db.Keeps db' → t'.Refers db' := by
  obtain ⟨a, pt, rfl, rfl, hturn⟩ | ⟨q, pt, rfl, rfl, hturn⟩ | ⟨n, pt, rfl, rfl, hturn⟩ |
    ⟨_, hother, hw⟩ := Task.exec_cases h
  · cases hturn with
    | @claimed ip r hp hip hr =>
      refine ⟨trivial, fun db' _ hkeep => ?_⟩
      have hmem := (Table.mem_of_find hr).1
      exact ⟨(hdb.session r hmem).keep hkeep.tenants, hkeep.sessions r hmem⟩
    | @stored session _ hp _ _ =>
      have hrefers : a.point.Refers db := ht
      rw [hp] at hrefers
      exact ⟨hrefers, fun _ _ _ => trivial⟩
    | _ => exact ⟨trivial, fun _ _ _ => trivial⟩
  · cases hturn with
    | _ => exact ⟨trivial, fun _ _ _ => trivial⟩
  · cases hturn with
    | @authorized auth body hp ha hb hid =>
      refine ⟨trivial, fun db' _ hkeep => ?_⟩
      obtain ⟨htenant, hserver, heq, _⟩ := mem_of_requireServer ha
      exact ⟨hkeep.tenants _ htenant, heq ▸ hkeep.gameServers _ hserver⟩
    | @upserted auth body hp hn =>
      have hrefers : n.point.Refers db := ht
      rw [hp] at hrefers
      exact ⟨hrefers.1, fun db' hexec hkeep => ⟨hrefers.keep hkeep, upsertPlayer_has hexec⟩⟩
    | @created auth body playerIdentityId gameIp hp hip =>
      have hrefers : n.point.Refers db := ht
      rw [hp] at hrefers
      exact ⟨⟨hrefers.1.1, hrefers.1.2, hrefers.2⟩, fun _ _ _ => trivial⟩
    | _ => exact ⟨trivial, fun _ _ _ => trivial⟩
  · have hrefers : ∀ db', t'.Refers db' := by
      cases t' with
      | nonce _ | attest _ => cases hother
      | _ => exact fun _ => trivial
    rcases hw with rfl | ⟨id, reason, rfl⟩ | ⟨id, rfl⟩
    · exact ⟨trivial, fun db' _ _ => hrefers db'⟩
    · exact ⟨trivial, fun db' _ _ => hrefers db'⟩
    · exact ⟨trivial, fun db' _ _ => hrefers db'⟩

/-- **One turn of a command.** -/
theorem Command.exec_refers {cmd : Command} (hcmd : cmd.Refers db) :
    (cmd.exec P uuid db).1.Refers db ∧
      ∀ db', (cmd.exec P uuid db).1.exec db = .ok db' → (cmd.exec P uuid db).2.Refers db' := by
  cases cmd with
  | insertTenant p serverKey =>
    refine ⟨trivial, fun db' h => ?_⟩
    obtain ⟨t', ht', rfl⟩ := Write.inserted_ok h
    exact Table.Has.insert ht'
  | insertServer p serverKey tenantId => exact ⟨hcmd, fun _ _ => trivial⟩
  | selectTenants tier failMode =>
    simp only [Command.exec]
    split
    · exact ⟨trivial, fun _ _ => trivial⟩
    · rename_i target rest hrows
      split
      · exact ⟨trivial, fun _ _ => trivial⟩
      · split
        · exact ⟨trivial, fun _ _ => trivial⟩
        · refine ⟨trivial, fun db' h => ?_⟩
          cases h
          have hmem : target ∈ db.tenants.rows := hrows ▸ List.mem_cons_self
          exact ⟨target, hmem, rfl⟩
  | _ => exact ⟨trivial, fun _ _ => trivial⟩

end

/-! ## all runs -/

/-- rows refer to rows, and what is in flight does -/
structure Site.Refers (s : Site) : Prop where
  db : s.system.db.References
  tasks : ∀ pid t, s.system.task pid = some t → t.Refers s.system.db
  commands : ∀ cid cmd, s.commands cid = some cmd → cmd.Refers s.system.db

variable {P : Platform} {c : Ir.CaseMapping} {s s' : Site}

theorem Site.Initial.refers (h : s.Initial) : s.Refers := by
  have hdb := h.db
  refine ⟨?_, fun pid t ht => ?_, fun cid cmd hcmd => ?_⟩
  · rw [hdb]
    exact ⟨.empty, .empty, .empty, .empty, .empty, .empty, .empty⟩
  · rw [System.task, h.procs] at ht
    cases ht
  · rw [h.commands] at hcmd
    cases hcmd

/-- a statement that keeps what is there, and the requests that hold on to it -/
theorem System.move_refers {x x' : System} (hdb : x.db.References)
    (htasks : ∀ pid t, x.task pid = some t → t.Refers x.db) (h : Move P x x') :
    x.db.Keeps x'.db ∧ x'.db.References ∧ ∀ pid t, x'.task pid = some t → t.Refers x'.db := by
  have hwrite : x.db.Keeps x'.db ∧ x'.db.References := by
    obtain ⟨w, hw, rfl | rfl | ⟨pid, uuid, t, t', ht, hexec, _, _⟩⟩ := h.write
    · exact Write.exec_references (w := .none) hdb trivial hw
    · exact Write.exec_references (w := .expireStaleSessions) hdb trivial hw
    · exact Write.exec_references hdb (Task.exec_refers hdb (htasks pid t ht) hexec).1 hw
  refine ⟨hwrite.1, hwrite.2, fun pid t' ht' => ?_⟩
  obtain hsame | ⟨rq, rfl, _⟩ | ⟨uuid, w, t, ht, hexec, hw, _, _⟩ := h.of_task_some ht'
  · exact (htasks pid t' hsame).keep hwrite.1
  · exact Request.start_refers rq
  · exact (Task.exec_refers hdb (htasks pid t ht) hexec).2 _ hw hwrite.1

/-- a command that takes the place of another, or is new -/
theorem refers_update {db : Db} {commands : Nat → Option Command} {cid : Nat} {next : Command}
    (hcommands : ∀ q cmd, commands q = some cmd → cmd.Refers db) (hnext : next.Refers db) :
    ∀ q cmd, update commands cid (some next) q = some cmd → cmd.Refers db := by
  intro q cmd hq
  by_cases heq : q = cid
  · rw [heq, update_self] at hq
    cases hq
    exact hnext
  · rw [update_of_ne heq] at hq
    exact hcommands q cmd hq

theorem Site.Move.refers {e : SiteEvent} (hinv : s.Refers) (h : Site.Move P e s s') : s'.Refers := by
  cases h with
  | system h hcommands =>
    obtain ⟨hkeep, hdb, htasks⟩ := System.move_refers hinv.db hinv.tasks h
    refine ⟨hdb, htasks, fun cid cmd hcmd => ?_⟩
    rw [hcommands] at hcmd
    exact (hinv.commands cid cmd hcmd).keep hkeep
  | idle cid cmd hcmd hsystem hcommands =>
    have hnext : cmd.Refers s.system.db := by
      rcases hcmd with rfl | ⟨c, cli, rfl⟩
      · trivial
      · exact Cli.start_refers c cli
    refine ⟨hsystem ▸ hinv.db, hsystem ▸ hinv.tasks, ?_⟩
    rw [hcommands, hsystem]
    exact refers_update hinv.commands hnext
  | turn cid uuid cmd next _ hcmd hnext hadmin hsystem hcommands =>
    have hturn : (cmd.exec P uuid s.system.db).1.Refers s.system.db ∧ _ :=
      Command.exec_refers (hinv.commands cid cmd hcmd)
    obtain ⟨hadminRefers, hafter⟩ := hturn
    obtain ⟨hkeep, hdb⟩ := Admin.exec_references hinv.db hadminRefers hadmin
    have htask : s'.system.task = s.system.task := by
      rw [hsystem]
      rfl
    refine ⟨hdb, fun pid t ht => ?_, ?_⟩
    · rw [htask] at ht
      exact (hinv.tasks pid t ht).keep hkeep
    · rw [hcommands]
      refine refers_update (fun q cmd hq => (hinv.commands q cmd hq).keep hkeep) ?_
      rcases hnext with rfl | rfl
      · trivial
      · exact hafter _ hadmin

theorem Operated.refers (h : Operated P c s) : s.Refers :=
  h.inv Site.Refers (fun _ h0 => h0.refers) fun _ _ _ hs hm => hm.refers hs

/-- **Foreign keys.**  From the empty database on, whatever requests, commands, faults and sweeps run at the same time,
every row refers to rows that are there and of its own tenant, and so does every row that a statement of a request
or of a command is about to insert: no statement is ever refused by a foreign key. -/
theorem operated_references (h : Operated P c s) : s.system.db.References ∧
    (∀ pid t uuid w t', s.system.task pid = some t → t.exec P s.system.now uuid s.system.db = .ok (w, t') →
      w.Refers s.system.db) ∧
    ∀ cid cmd uuid, s.commands cid = some cmd → (cmd.exec P uuid s.system.db).1.Refers s.system.db := by
  have hinv := h.refers
  refine ⟨hinv.db, fun pid t uuid w t' ht hexec => ?_, fun cid cmd uuid hcmd => ?_⟩
  · exact (Task.exec_refers hinv.db (hinv.tasks pid t ht) hexec).1
  · exact (Command.exec_refers (hinv.commands cid cmd hcmd)).1

namespace Deployment

/-- a tenant is provisioned, and request 0 of its server is issued a nonce -/
def provisionAndIssue : List SiteEvent :=
  [.command 0 (.provision ["tenant"] (some "postgres://localhost") entropy), .exec 0 (Uuid.small 1),
    .exec 0 (Uuid.small 2),
    .system (.request 0 (.nonce (some ("Bearer " ++ nonce)) nonceBody config entropy sealIv))] ++
    (turns 0 4).map .system

def site : Site where
  system := ⟨admittedAt, ⟨Table.empty, Table.empty, Table.empty, Table.empty, Table.empty, Table.empty⟩,
    fun _ => none⟩
  commands := fun _ => none

theorem operated_references_issued : ∃ s, Machine.run (Site.step platform .ascii) provisionAndIssue site = some s ∧
    s.system.db.sessions.rows.length = 1 ∧ s.system.db.References := by
  have hrun : (Machine.run (Site.step platform .ascii) provisionAndIssue site).any
      (fun s => s.system.db.sessions.rows.length == 1) = true := by decide +kernel
  obtain ⟨s, hs, hlength⟩ := (Option.any_eq_true _ _).mp hrun
  have hreach : Operated platform .ascii s := ⟨site, ⟨rfl, rfl, rfl⟩, Machine.Steps.of_run _ _ _ hs⟩
  exact ⟨s, hs, beq_iff_eq.mp hlength, (operated_references hreach).1⟩

end Deployment

end Backend
