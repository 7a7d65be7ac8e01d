import FiveProtect.Backend.Deployment
import FiveProtect.Backend.Turns

/-!
# Tenant isolation

Two runs of the same requests of one tenant `T`, on databases that have the same rows of `T` and
may differ in everything else.

* `Agree T a b`      the databases have the same rows of `T`;
* `Scoped`           what a request of a server of `T` holds at each of its points;
* `Within`           the statements such a request issues;
* `exec_agree`       its turns do not see foreign rows; `Within.same` and `Within.others`: its
                     statements keep the rows of `T` equal and change none of another tenant;
* `Alike`            the relation of the two runs, kept by every step (`Alike.step`).
-/

namespace Backend
open Protocol Function

variable {P : Platform} {T : Uuid} {a b a' b' db db' : Db}

/-! ## the rows of a tenant -/

structure Agree (T : Uuid) (a b : Db) : Prop where
  tenants : Table.Same (fun r : TenantRow => r.id = T) a.tenants b.tenants
  gameServers : Table.Same (fun r : GameServer => r.tenantId = T) a.gameServers b.gameServers
  players : Table.Same (fun r : PlayerIdentity => r.tenantId = T) a.players b.players
  sessions : Table.Same (fun r : AttestationSession => r.tenantId = T) a.sessions b.sessions

theorem Agree.refl (T : Uuid) (a : Db) : Agree T a a :=
  ⟨.refl _ _, .refl _ _, .refl _ _, .refl _ _⟩

theorem Agree.symm (h : Agree T a b) : Agree T b a :=
  ⟨h.tenants.symm, h.gameServers.symm, h.players.symm, h.sessions.symm⟩

theorem Agree.trans {c : Db} (h : Agree T a b) (h' : Agree T b c) : Agree T a c :=
  ⟨h.tenants.trans h'.tenants, h.gameServers.trans h'.gameServers, h.players.trans h'.players,
    h.sessions.trans h'.sessions⟩

/-- the header carries the key of a server of the tenant -/
def KeyOf (P : Platform) (T : Uuid) (db : Db) (authorization : Option String) : Prop :=
  ∃ key, bearerKey authorization = some key ∧
    ∃ g ∈ db.gameServers, g.tenantId = T ∧ g.serverKeyHash = hashServerKey P key

/-- `server_key_hash UNIQUE`: a key has one server -/
theorem find_server {key : String} {g : GameServer} (hg : g ∈ db.gameServers)
    (hkey : g.serverKeyHash = hashServerKey P key) :
    db.gameServers.find (fun s => s.serverKeyHash == hashServerKey P key) = some g := by
  refine Table.find_eq hg (beq_iff_eq.mpr hkey) ?_
  intro x _ hx
  have hhash : x.serverKeyHash = g.serverKeyHash := (beq_iff_eq.mp hx).trans hkey.symm
  simp [Row.clash, Row.key, hhash]

theorem Agree.find_tenant (h : Agree T a b) : a.tenants.find (fun t => t.id == T) =
    b.tenants.find (fun t => t.id == T) := by
  apply h.tenants.find
  · intro r hr
    exact beq_iff_eq.mp hr
  · intro r x hr hx
    rw [beq_iff_eq] at hr hx
    simp [Row.clash, Row.key, hr, hx]

theorem Agree.requireServer (h : Agree T a b) {authorization : Option String}
    (hk : KeyOf P T a authorization) :
    requireServer P a authorization = requireServer P b authorization := by
  obtain ⟨key, hkey, g, hg, hgT, hhash⟩ := hk
  have ha := find_server hg hhash
  have hb := find_server ((h.gameServers g hgT).mp hg) hhash
  have hauth : authenticateServerKey P a key = authenticateServerKey P b key := by
    simp only [authenticateServerKey, ha, hb, Option.bind_eq_bind, Option.bind_some, hgT,
      h.find_tenant]
  rw [Backend.requireServer, Backend.requireServer, hkey, Option.bind_some, Option.bind_some, hauth]

theorem requireServer_tenant {authorization : Option String} {auth : AuthenticatedServer}
    (hk : KeyOf P T a authorization) (h : requireServer P a authorization = .ok auth) :
    auth.tenant.id = T := by
  obtain ⟨key, hkey, g, hg, hgT, hhash⟩ := hk
  have hauth : authenticateServerKey P a key =
      (a.tenants.find fun t => t.id == T).map fun t => ⟨t, g⟩ := by
    simp only [authenticateServerKey, find_server hg hhash, Option.bind_eq_bind, Option.bind_some,
      hgT]
    exact Option.map_eq_bind.symm
  unfold requireServer at h
  rw [hkey, Option.bind_some, hauth] at h
  split at h
  · cases h
  · rename_i found hfound
    split at h
    · cases h
      obtain ⟨tenant, htenant, rfl⟩ := Option.map_eq_some_iff.mp hfound
      exact beq_iff_eq.mp (Table.mem_of_find htenant).2
    · cases h

theorem Agree.hasPlayer (h : Agree T a b) (license : String) :
    Write.hasPlayer a T license = Write.hasPlayer b T license := by
  apply h.players.find
  · intro r hr
    rw [Bool.and_eq_true, beq_iff_eq] at hr
    exact hr.1
  · intro r x hr hx
    rw [Bool.and_eq_true, beq_iff_eq, beq_iff_eq] at hr hx
    simp [Row.clash, Row.key, hr, hx]

theorem Agree.findByNonce (h : Agree T a b) (nonce : String) :
    findByNonce P a T nonce = findByNonce P b T nonce := by
  have hfind : a.sessions.find (fun r => r.nonceHash == hashNonce P nonce && r.tenantId == T) =
      b.sessions.find (fun r => r.nonceHash == hashNonce P nonce && r.tenantId == T) := by
    apply h.sessions.find
    · intro r hr
      rw [Bool.and_eq_true, beq_iff_eq, beq_iff_eq] at hr
      exact hr.2
    · intro r x hr hx
      rw [Bool.and_eq_true, beq_iff_eq, beq_iff_eq] at hr hx
      simp [Row.clash, Row.key, hr, hx]
  rw [Backend.findByNonce, hfind, Backend.findByNonce]

theorem Agree.findById (h : Agree T a b) (sessionId : String) :
    findById P a T sessionId = findById P b T sessionId := by
  have hfind : ∀ id, a.sessions.find (fun r => r.id == id && r.tenantId == T) =
      b.sessions.find (fun r => r.id == id && r.tenantId == T) := by
    intro id
    apply h.sessions.find
    · intro r hr
      rw [Bool.and_eq_true, beq_iff_eq, beq_iff_eq] at hr
      exact hr.2
    · intro r x hr hx
      rw [Bool.and_eq_true, beq_iff_eq, beq_iff_eq] at hr hx
      simp [Row.clash, Row.key, hr, hx]
  simp only [Backend.findById, hfind]

/-! ## requests of the tenant -/

/-- the session with this id is one of the tenant -/
def SessionOf (T : Uuid) (db : Db) (id : Uuid) : Prop :=
  ∃ r ∈ db.sessions, r.id = id ∧ r.tenantId = T

def NonceTask.Scoped (P : Platform) (T : Uuid) (db : Db) (t : NonceTask) : Prop :=
  match t.point with
  | .auth => KeyOf P T db t.authorization
  | .upsertPlayer auth _ => auth.tenant.id = T
  | .createSession auth _ _ => auth.tenant.id = T
  | .touchServer auth _ => auth.tenant.id = T
  | _ => True

def VerdictTask.Scoped (P : Platform) (T : Uuid) (db : Db) (t : VerdictTask) : Prop :=
  match t.point with
  | .auth => KeyOf P T db t.authorization
  | .read auth _ _ => auth.tenant.id = T
  | .check auth _ _ _ => auth.tenant.id = T
  | .sleep auth _ _ _ => auth.tenant.id = T
  | .write auth _ _ _ => auth.tenant.id = T
  | _ => True

def LivenessTask.Scoped (P : Platform) (T : Uuid) (db : Db) (t : LivenessTask) : Prop :=
  match t.point with
  | .auth => KeyOf P T db t.authorization
  | .read auth => auth.tenant.id = T
  | .decide session => SessionOf T db session.id
  | .terminate session _ => SessionOf T db session.id
  | _ => True

/-- no other tenant has a session with this nonce -/
def NonceFree (P : Platform) (T : Uuid) (db : Db) (nonce : String) : Prop :=
  ∀ r ∈ db.sessions, r.tenantId ≠ T → r.nonceHash ≠ hashNonce P nonce

/-- no other tenant has a session or a player with this id -/
def IdFree (T : Uuid) (db : Db) (uuid : Uuid) : Prop :=
  (∀ r ∈ db.sessions, r.tenantId ≠ T → r.id ≠ uuid) ∧
    ∀ p ∈ db.players, p.tenantId ≠ T → p.id ≠ uuid

/-- a request of a server of `T`, at any of its points -/
def Scoped (P : Platform) (T : Uuid) (db : Db) : Task → Prop
  | .nonce t => t.Scoped P T db ∧ NonceFree P T db t.nonce
  | .verdict t => t.Scoped P T db
  | .liveness t => t.Scoped P T db
  | _ => False

/-- **Its turns do not see foreign rows.** -/
theorem exec_agree (h : Agree T a b) {t : Task} (ht : Scoped P T a t) (now : Time) (uuid : Uuid) :
    t.exec P now uuid a = t.exec P now uuid b := by
  cases t with
  | nonce t =>
    have hexec : t.exec P now uuid a = t.exec P now uuid b := by
      have hscope : t.Scoped P T a := ht.1
      unfold NonceTask.Scoped at hscope
      unfold NonceTask.exec
      split
      · rename_i hp
        rw [hp] at hscope
        rw [h.requireServer hscope]
      · rename_i auth body hp
        rw [hp] at hscope
        rw [show auth.tenant.id = T from hscope, h.hasPlayer]
      all_goals rfl
    simp only [Task.exec, hexec]
  | verdict t =>
    have hexec : t.exec P now a = t.exec P now b := by
      have hscope : t.Scoped P T a := ht
      unfold VerdictTask.Scoped at hscope
      unfold VerdictTask.exec
      split
      · rename_i hp
        rw [hp] at hscope
        rw [h.requireServer hscope]
      · rename_i auth nonce deadline hp
        rw [hp] at hscope
        rw [show auth.tenant.id = T from hscope, h.findByNonce]
      all_goals rfl
    simp only [Task.exec, hexec]
  | liveness t =>
    have hexec : t.exec P now a = t.exec P now b := by
      have hscope : t.Scoped P T a := ht
      unfold LivenessTask.Scoped at hscope
      unfold LivenessTask.exec
      split
      · rename_i hp
        rw [hp] at hscope
        rw [h.requireServer hscope]
      · rename_i auth hp
        rw [hp] at hscope
        rw [show auth.tenant.id = T from hscope, h.findById]
      all_goals rfl
    simp only [Task.exec, hexec]
  | _ => exact ht.elim

/-! ## statements of the tenant -/

/-- the statements that stay within the rows of the tenant -/
def Within (T : Uuid) (db : Db) : Write → Prop
  | .none => True
  | .upsertPlayer _ tenantId _ _ _ => tenantId = T
  | .createSession row => row.tenantId = T
  | .touchServer tenantId _ => tenantId = T
  | .recordVerdict tenantId _ _ => tenantId = T
  | .terminateSession id _ => SessionOf T db id
  | _ => False

theorem NonceTask.Turn.within {t : NonceTask} {now : Time} {uuid : Uuid} {w : Write}
    {pt : NoncePoint} (ht : t.Scoped P T db) (h : t.Turn P now uuid db w pt) :
    Within T db w ∧ NonceTask.Scoped P T db { t with point := pt } := by
  unfold NonceTask.Scoped at ht
  cases h with
  | authorized hp ha hb hid =>
    rw [hp] at ht
    exact ⟨trivial, requireServer_tenant ht ha⟩
  | upserted hp | created hp | touched hp =>
    rw [hp] at ht
    exact ⟨ht, by first | exact ht | exact trivial⟩
  | unauthorized | malformed | mismatch | issued | refused => exact ⟨trivial, trivial⟩

theorem VerdictTask.Turn.within {t : VerdictTask} {now : Time} {w : Write} {pt : VerdictPoint}
    (ht : t.Scoped P T db) (h : t.Turn P now db w pt) :
    Within T db w ∧ VerdictTask.Scoped P T db { t with point := pt } := by
  unfold VerdictTask.Scoped at ht
  cases h with
  | authorized hp ha hq =>
    rw [hp] at ht
    exact ⟨trivial, requireServer_tenant ht ha⟩
  | undecided hp | overdue hp | early hp | awake hp =>
    rw [hp] at ht
    exact ⟨trivial, ht⟩
  | recorded hp =>
    rw [hp] at ht
    exact ⟨ht, trivial⟩
  | unauthorized | malformed | unknown | decided | timedOut | answered | refused =>
    exact ⟨trivial, trivial⟩

/-- what the liveness route read is a row of the tenant: `terminateSession` has no tenant of its
own -/
theorem LivenessTask.exec_within {t : LivenessTask} {now : Time} {w : Write} {pt : LivenessPoint}
    (ht : t.Scoped P T db) (h : t.exec P now db = .ok (w, pt)) :
    Within T db w ∧ LivenessTask.Scoped P T db { t with point := pt } := by
  unfold LivenessTask.Scoped at ht
  unfold LivenessTask.exec at h
  split at h
  · rename_i hp
    rw [hp] at ht
    split at h
    · cases h
      exact ⟨trivial, trivial⟩
    · rename_i auth ha
      cases h
      exact ⟨trivial, requireServer_tenant ht ha⟩
  · rename_i auth hp
    rw [hp] at ht
    split at h
    · cases h
    · cases h
      exact ⟨trivial, trivial⟩
    · rename_i session hf
      cases h
      obtain ⟨r, hr, rfl, _, hrT⟩ := findById_some P hf
      exact ⟨trivial, r, hr, rfl, hrT.trans ht⟩
  · rename_i session hp
    rw [hp] at ht
    dsimp only at h
    split at h
    · cases h
      exact ⟨trivial, ht⟩
    · cases h
      exact ⟨trivial, trivial⟩
  · rename_i session answer hp
    rw [hp] at ht
    cases h
    exact ⟨ht, trivial⟩
  · cases h
    exact ⟨trivial, trivial⟩
  · cases h
    exact ⟨trivial, trivial⟩

/-- **Its statements are within the tenant.** -/
theorem exec_within {t t' : Task} {now : Time} {uuid : Uuid} {w : Write} (ht : Scoped P T db t)
    (h : t.exec P now uuid db = .ok (w, t')) : Within T db w ∧ Scoped P T db t' := by
  cases t with
  | nonce t =>
    obtain ⟨pt, rfl, hturn⟩ := Task.exec_nonce h
    obtain ⟨hw, ht'⟩ := hturn.within ht.1
    exact ⟨hw, ht', ht.2⟩
  | verdict t =>
    obtain ⟨pt, rfl, hturn⟩ := Task.exec_verdict h
    exact hturn.within ht
  | liveness t =>
    obtain ⟨⟨w', pt⟩, hexec, he⟩ := map_ok h
    cases he
    exact LivenessTask.exec_within ht hexec
  | _ => exact ht.elim

/-- every other tenant has its rows as they were, and the tables without a tenant of their own are
as they were -/
structure OthersKept (T : Uuid) (a b : Db) : Prop where
  agree : ∀ U, U ≠ T → Agree U a b
  snapshots : b.snapshots = a.snapshots
  builds : b.builds = a.builds

theorem OthersKept.refl (T : Uuid) (a : Db) : OthersKept T a a := ⟨fun U _ => .refl U a, rfl, rfl⟩

theorem OthersKept.trans {c : Db} (h : OthersKept T a b) (h' : OthersKept T b c) :
    OthersKept T a c :=
  ⟨fun U hU => (h.agree U hU).trans (h'.agree U hU), h'.snapshots.trans h.snapshots,
    h'.builds.trans h.builds⟩

/-- an update of sessions that leaves the rows of other tenants alone -/
theorem othersKept_onSession {now : Time} {w : Write}
    (hfix : ∀ r ∈ db.sessions, r.tenantId ≠ T → w.onSession now r = r) :
    OthersKept T db
      { db with sessions := db.sessions.map (w.onSession now) (w.onSession_key now) } := by
  refine ⟨fun U hU => ⟨.refl _ _, .refl _ _, .refl _ _, ?_⟩, rfl, rfl⟩
  refine Table.Same.of_map (w.onSession_key now) ?_ ?_
  · intro r hr
    exact (w.onSession_tenantId now r).symm.trans hr
  · intro r hmem hr
    exact hfix r hmem fun hT => hU (hr.symm.trans hT)

/-- **No row of another tenant changes.** -/
theorem Within.others {w : Write} {now : Time} (h : Within T db w)
    (hw : w.exec now db = .ok db') : OthersKept T db db' := by
  cases w with
  | none =>
    cases hw
    exact .refl T db
  | upsertPlayer id tenantId license steam discord =>
    have hT : tenantId = T := h
    simp only [Write.exec] at hw
    split at hw
    · cases hw
      refine ⟨fun U hU => ⟨.refl _ _, .refl _ _, ?_, .refl _ _⟩, rfl, rfl⟩
      have hown : ∀ p, (Write.onPlayer now tenantId license steam discord p).tenantId =
          p.tenantId := by
        intro p
        unfold Write.onPlayer
        split <;> rfl
      refine Table.Same.of_map (Write.onPlayer_key now tenantId license steam discord) ?_ ?_
      · intro p hp
        exact (hown p).symm.trans hp
      · intro p _ hp
        apply if_neg
        intro hrow
        exact hU (hp.symm.trans (hrow.1.trans hT))
    · obtain ⟨t, ht, rfl⟩ := Write.inserted_ok hw
      refine ⟨fun U hU => ⟨.refl _ _, .refl _ _, ?_, .refl _ _⟩, rfl, rfl⟩
      apply Table.Same.of_insert ht
      intro hown
      exact hU (hown.symm.trans hT)
  | createSession row =>
    have hT : row.tenantId = T := h
    obtain ⟨t, ht, rfl⟩ := Write.inserted_ok hw
    refine ⟨fun U hU => ⟨.refl _ _, .refl _ _, .refl _ _, ?_⟩, rfl, rfl⟩
    apply Table.Same.of_insert ht
    intro hown
    exact hU (hown.symm.trans hT)
  | touchServer tenantId serverId =>
    have hT : tenantId = T := h
    cases hw
    refine ⟨fun U hU => ⟨.refl _ _, ?_, .refl _ _, .refl _ _⟩, rfl, rfl⟩
    have hown : ∀ g, (Write.onServer now tenantId serverId g).tenantId = g.tenantId := by
      intro g
      unfold Write.onServer
      split <;> rfl
    refine Table.Same.of_map (Write.onServer_key now tenantId serverId) ?_ ?_
    · intro g hg
      exact (hown g).symm.trans hg
    · intro g _ hg
      apply if_neg
      intro hrow
      exact hU (hg.symm.trans (hrow.2.trans hT))
  | recordVerdict tenantId sessionId v =>
    have hT : tenantId = T := h
    cases hw
    apply othersKept_onSession
    intro r _ hr
    apply if_neg
    intro hrow
    exact hr (hrow.2.trans hT)
  | terminateSession id reason =>
    obtain ⟨x, hx, hid, hT⟩ := h
    cases hw
    apply othersKept_onSession
    intro r hmem hr
    apply if_neg
    intro hrow
    -- the row with this id is one of the tenant
    have hrx : r = x := Db.eq_of_id hmem hx (hrow.1.trans hid.symm)
    exact hr (hrx ▸ hT)
  | _ => exact h.elim

/-- what the statement inserts clashes with no row of another tenant -/
def FreshOutside (T : Uuid) (db : Db) : Write → Prop
  | .upsertPlayer id _ _ _ _ => ∀ p ∈ db.players, p.tenantId ≠ T → p.id ≠ id
  | .createSession row => ∀ r ∈ db.sessions, r.tenantId ≠ T →
      r.id ≠ row.id ∧ r.nonceHash ≠ row.nonceHash
  | _ => True

theorem Agree.onSession (h : Agree T a b) (now : Time) (w : Write) : Agree T
    { a with sessions := a.sessions.map (w.onSession now) (w.onSession_key now) }
    { b with sessions := b.sessions.map (w.onSession now) (w.onSession_key now) } := by
  refine ⟨h.tenants, h.gameServers, h.players, h.sessions.map (w.onSession_key now) ?_⟩
  intro r hr
  exact (w.onSession_tenantId now r).symm.trans hr

/-- **The rows of the tenant stay the same on both sides.** -/
theorem Within.same {w : Write} {now : Time} (h : Agree T a b) (hw : Within T a w)
    (hfresh : FreshOutside T b w) (ha : w.exec now a = .ok a') :
    ∃ b', w.exec now b = .ok b' ∧ Agree T a' b' := by
  cases w with
  | none =>
    cases ha
    exact ⟨b, rfl, h⟩
  | upsertPlayer id tenantId license steam discord =>
    obtain rfl : tenantId = T := hw
    have hplayer := h.hasPlayer license
    simp only [Write.exec] at ha ⊢
    rw [← hplayer]
    split at ha
    · cases ha
      refine ⟨_, rfl, h.tenants, h.gameServers,
        h.players.map (Write.onPlayer_key now tenantId license steam discord) ?_, h.sessions⟩
      intro p hp
      unfold Write.onPlayer at hp
      split at hp
      · exact hp
      · exact hp
    · obtain ⟨t, ht, rfl⟩ := Write.inserted_ok ha
      obtain ⟨u, hu⟩ := h.players.exists_insert ht fun p hp hT => by
        have hid := hfresh p hp hT
        simp [Row.clash, Row.key, hid, hT]
      refine ⟨{ b with players := u }, ?_, h.tenants, h.gameServers, h.players.insert ht hu,
        h.sessions⟩
      simp only [Write.inserted, hu]
  | createSession row =>
    obtain ⟨t, ht, rfl⟩ := Write.inserted_ok ha
    obtain ⟨u, hu⟩ := h.sessions.exists_insert ht fun r hr hT => by
      obtain ⟨hid, hhash⟩ := hfresh r hr hT
      simp [Row.clash, Row.key, hid, hhash]
    refine ⟨{ b with sessions := u }, ?_, h.tenants, h.gameServers, h.players,
      h.sessions.insert ht hu⟩
    simp only [Write.exec, Write.inserted, hu]
  | touchServer tenantId serverId =>
    cases ha
    refine ⟨_, rfl, h.tenants, h.gameServers.map (Write.onServer_key now tenantId serverId) ?_,
      h.players, h.sessions⟩
    intro g hg
    unfold Write.onServer at hg
    split at hg
    · exact hg
    · exact hg
  | recordVerdict tenantId sessionId v =>
    cases ha
    exact ⟨_, rfl, h.onSession now _⟩
  | terminateSession id reason =>
    cases ha
    exact ⟨_, rfl, h.onSession now _⟩
  | _ => exact hw.elim

/-- random values that no other tenant has make an insert that clashes with none of its rows -/
theorem freshOutside_of_exec {t t' : Task} {now : Time} {uuid : Uuid} {w : Write}
    (ht : Scoped P T db t) (hid : IdFree T db uuid) (h : t.exec P now uuid db = .ok (w, t')) :
    FreshOutside T db w := by
  cases t with
  | nonce t =>
    obtain ⟨pt, _, hturn⟩ := Task.exec_nonce h
    cases hturn with
    | upserted => exact hid.2
    | created => exact fun r hr hT => ⟨hid.1 r hr hT, ht.2 r hr hT⟩
    | _ => exact trivial
  | verdict t =>
    obtain ⟨pt, _, hturn⟩ := Task.exec_verdict h
    cases hturn with
    | _ => exact trivial
  | liveness t =>
    obtain ⟨⟨w', pt⟩, hexec, he⟩ := map_ok h
    cases he
    obtain rfl | ⟨_, _, _, _, rfl⟩ := LivenessTask.exec_write hexec
    · exact trivial
    · exact trivial
  | _ => exact ht.elim

theorem KeyOf.next {now : Time} {w : Write} (hw : w.exec now db = .ok db')
    {authorization : Option String} (h : KeyOf P T db authorization) :
    KeyOf P T db' authorization := by
  obtain ⟨key, hkey, g, hg, hT, hhash⟩ := h
  obtain ⟨_, hg'⟩ := Write.server_stays hw hg
  exact ⟨key, hkey, _, hg', hT, hhash⟩

theorem SessionOf.next {now : Time} {w : Write} (hw : w.exec now db = .ok db') {id : Uuid}
    (h : SessionOf T db id) : SessionOf T db' id := by
  obtain ⟨r, hr, hid, hT⟩ := h
  refine ⟨_, (Write.mem_sessions hw).mpr (.inl ⟨r, hr, rfl⟩), ?_, ?_⟩
  · exact (w.onSession_id now r).trans hid
  · exact (w.onSession_tenantId now r).trans hT

theorem NonceFree.next (ho : OthersKept T db db') {nonce : String}
    (h : NonceFree P T db nonce) : NonceFree P T db' nonce := by
  intro r hr hT
  exact h r (((ho.agree r.tenantId hT).sessions r rfl).mpr hr) hT

theorem IdFree.next (ho : OthersKept T db db') {uuid : Uuid} (h : IdFree T db uuid) :
    IdFree T db' uuid := by
  constructor
  · intro r hr hT
    exact h.1 r (((ho.agree r.tenantId hT).sessions r rfl).mpr hr) hT
  · intro p hp hT
    exact h.2 p (((ho.agree p.tenantId hT).players p rfl).mpr hp) hT

/-- what a request holds is not lost by statements of the tenant -/
theorem Scoped.next {t : Task} {now : Time} {w : Write} (hw : w.exec now db = .ok db')
    (ho : OthersKept T db db') (h : Scoped P T db t) : Scoped P T db' t := by
  cases t with
  | nonce t =>
    refine ⟨?_, h.2.next ho⟩
    have ht : t.Scoped P T db := h.1
    unfold NonceTask.Scoped at ht ⊢
    split at ht
    · exact ht.next hw
    all_goals exact ht
  | verdict t =>
    have ht : t.Scoped P T db := h
    show t.Scoped P T db'
    unfold VerdictTask.Scoped at ht ⊢
    split at ht
    · exact ht.next hw
    all_goals exact ht
  | liveness t =>
    have ht : t.Scoped P T db := h
    show t.Scoped P T db'
    unfold LivenessTask.Scoped at ht ⊢
    split at ht
    · exact ht.next hw
    · exact ht
    · exact ht.next hw
    · exact ht.next hw
    · exact ht
  | _ => exact h.elim

/-! ## runs of the tenant -/

/-- the requests that carry a key of the tenant -/
def Request.OfTenant (P : Platform) (T : Uuid) (db : Db) : Request → Prop
  | .nonce authorization _ _ _ _ => KeyOf P T db authorization
  | .verdict authorization _ => KeyOf P T db authorization
  | .liveness authorization _ => KeyOf P T db authorization
  | _ => False

namespace Event

/-- nothing but requests of the tenant, their turns and their faults, and time -/
def OfTenant (P : Platform) (T : Uuid) (db : Db) : Event → Prop
  | .request _ rq => rq.OfTenant P T db
  | .sweep => False
  | _ => True

/-- the nonces and ids the event brings are new to all other tenants -/
def RandomFree (P : Platform) (T : Uuid) (db : Db) : Event → Prop
  | .request _ (.nonce _ _ _ entropy _) => NonceFree P T db (generateNonce entropy)
  | .exec _ uuid => IdFree T db uuid
  | .lost _ uuid => IdFree T db uuid
  | _ => True

end Event

theorem Request.OfTenant.scoped {rq : Request} (h : rq.OfTenant P T db) {pid : Nat}
    (hf : (Event.request pid rq).RandomFree P T db) (now : Time) : Scoped P T db (rq.start now) := by
  cases rq with
  | nonce => exact ⟨h, hf⟩
  | verdict | liveness => exact h
  | _ => exact h.elim

/-- all requests in flight are of the tenant -/
def Tended (P : Platform) (T : Uuid) (s : System) : Prop :=
  ∀ pid t, s.task pid = some t → Scoped P T s.db t

variable {s s' s₁ s₂ : System} {e : Event}

theorem Tended.put (h : Tended P T s) {pid : Nat} {p : Proc} (hp : Scoped P T s.db p.task) :
    Tended P T (s.put pid p) := by
  intro q t ht
  rw [System.put_task] at ht
  by_cases hq : q = pid
  · subst hq
    rw [update_self] at ht
    cases ht
    exact hp
  · rw [update_of_ne hq] at ht
    exact h q t ht

/-- a turn of a request of the tenant -/
theorem Tended.turn (h : Tended P T s) {pid : Nat} {p : Proc} (hp : s.procs pid = some p)
    (uuid : Uuid) (crashed : Bool) : Tended P T (s.turn P pid p uuid crashed) ∧
      OthersKept T s.db (s.turn P pid p uuid crashed).db := by
  have hscope := h pid p.task (System.task_of_proc hp)
  obtain ⟨_, heq⟩ | ⟨w, t', db, hexec, hw, heq⟩ := System.turn_eq P s pid p uuid crashed
  · rw [heq]
    exact ⟨h.put hscope, .refl T s.db⟩
  · rw [heq]
    obtain ⟨hwithin, hscope'⟩ := exec_within hscope hexec
    have hothers := hwithin.others hw
    refine ⟨fun q t ht => ?_, hothers⟩
    have hput : Tended P T (s.put pid ⟨t', crashed⟩) := h.put hscope'
    exact (hput q t ht).next hw hothers

theorem Tended.step (h : Tended P T s) (ho : e.OfTenant P T s.db) (hf : e.RandomFree P T s.db)
    (he : System.step P e s = some s') : Tended P T s' ∧ OthersKept T s.db s'.db := by
  cases e with
  | tick ms =>
    cases he
    exact ⟨h, .refl T s.db⟩
  | request pid rq =>
    simp only [System.step] at he
    split at he
    · cases he
      exact ⟨h.put (Request.OfTenant.scoped ho hf s.now), .refl T s.db⟩
    · cases he
  | exec pid uuid | lost pid uuid =>
    obtain ⟨p, hp, rfl⟩ := Option.map_eq_some_iff.mp he
    exact h.turn (System.of_readyProc hp).1 uuid _
  | fail pid =>
    obtain ⟨p, hp, rfl⟩ := Option.map_eq_some_iff.mp he
    have hproc := (System.of_readyProc hp).1
    exact ⟨h.put (h pid p.task (System.task_of_proc hproc)), .refl T s.db⟩
  | sweep => exact ho.elim

/-- two runs of the same requests of the tenant -/
structure Alike (P : Platform) (T : Uuid) (s₁ s₂ : System) : Prop where
  now : s₂.now = s₁.now
  procs : s₂.procs = s₁.procs
  agree : Agree T s₁.db s₂.db
  left : Tended P T s₁
  right : Tended P T s₂

theorem Agree.within (h : Agree T a b) {w : Write} (hw : Within T a w) : Within T b w := by
  cases w with
  | terminateSession id reason =>
    obtain ⟨r, hr, hid, hT⟩ := hw
    exact ⟨r, (h.sessions r hT).mp hr, hid, hT⟩
  | _ => exact hw

theorem Alike.turn (h : Alike P T s₁ s₂) {pid : Nat} {p : Proc} (hp : s₁.procs pid = some p)
    {uuid : Uuid} (hid₁ : IdFree T s₁.db uuid) (hid₂ : IdFree T s₂.db uuid) (crashed : Bool) :
    Alike P T (s₁.turn P pid p uuid crashed) (s₂.turn P pid p uuid crashed) := by
  have hp₂ : s₂.procs pid = some p := by rw [h.procs, hp]
  have hscope := h.left pid p.task (System.task_of_proc hp)
  have hleft := (h.left.turn hp uuid crashed).1
  have hright := (h.right.turn hp₂ uuid crashed).1
  have hput : ∀ x, (s₂.put pid x).procs = (s₁.put pid x).procs := by
    intro x
    simp only [System.put, h.procs]
  -- both sides take the same turn
  have hexec : p.task.exec P s₂.now uuid s₂.db = p.task.exec P s₁.now uuid s₁.db := by
    rw [h.now, exec_agree h.agree hscope]
  unfold System.turn at hleft hright ⊢
  rw [hexec] at hright ⊢
  cases he : p.task.exec P s₁.now uuid s₁.db with
  | error er =>
    simp only [he] at hleft hright ⊢
    exact ⟨h.now, hput _, h.agree, hleft, hright⟩
  | ok x =>
    obtain ⟨w, t'⟩ := x
    have hwithin := (exec_within hscope he).1
    have hfree₁ := freshOutside_of_exec hscope hid₁ he
    have hfree₂ : FreshOutside T s₂.db w := by
      rw [← hexec] at he
      exact freshOutside_of_exec (h.right pid p.task (System.task_of_proc hp₂)) hid₂ he
    simp only [he] at hleft hright ⊢
    cases ha : w.exec s₁.now s₁.db with
    | error er =>
      cases hb : w.exec s₂.now s₂.db with
      | error er' =>
        simp only [ha] at hleft ⊢
        simp only [hb] at hright ⊢
        exact ⟨h.now, hput _, h.agree, hleft, hright⟩
      | ok b' =>
        -- a statement that goes through on the right goes through on the left
        rw [h.now] at hb
        obtain ⟨a', ha', _⟩ := Within.same h.agree.symm (h.agree.within hwithin) hfree₁ hb
        rw [ha] at ha'
        cases ha'
    | ok a' =>
      obtain ⟨b', hb, hsame⟩ := Within.same h.agree hwithin hfree₂ ha
      rw [← h.now] at hb
      simp only [ha] at hleft ⊢
      simp only [hb] at hright ⊢
      exact ⟨h.now, hput _, hsame, hleft, hright⟩

theorem KeyOf.agree (h : Agree T a b) {authorization : Option String}
    (hk : KeyOf P T a authorization) : KeyOf P T b authorization := by
  obtain ⟨key, hkey, g, hg, hT, hhash⟩ := hk
  exact ⟨key, hkey, g, (h.gameServers g hT).mp hg, hT, hhash⟩

theorem Event.OfTenant.agree (h : Agree T a b) (he : e.OfTenant P T a) : e.OfTenant P T b := by
  cases e with
  | request pid rq =>
    cases rq with
    | nonce | verdict | liveness => exact KeyOf.agree h he
    | _ => exact he
  | _ => exact he

/-- **Unwinding.** A step on the left is a step on the right. -/
theorem Alike.step (h : Alike P T s₁ s₂) (ho : e.OfTenant P T s₁.db)
    (hf₁ : e.RandomFree P T s₁.db) (hf₂ : e.RandomFree P T s₂.db) {s₁' : System}
    (he : System.step P e s₁ = some s₁') :
    ∃ s₂', System.step P e s₂ = some s₂' ∧ Alike P T s₁' s₂' := by
  have hready : ∀ pid, s₂.readyProc pid = s₁.readyProc pid := by
    intro pid
    simp only [System.readyProc, h.procs, h.now]
  cases e with
  | tick ms =>
    cases he
    exact ⟨_, rfl, by simp only [h.now], h.procs, h.agree, h.left, h.right⟩
  | request pid rq =>
    have hleft := (h.left.step ho hf₁ he).1
    simp only [System.step] at he ⊢
    split at he
    · rename_i hnone
      cases he
      have hnone₂ : (s₂.procs pid).isNone = true := by rw [h.procs, hnone]
      have hright := (h.right.step (ho.agree h.agree) hf₂ (if_pos hnone₂)).1
      refine ⟨_, if_pos hnone₂, h.now, ?_, h.agree, hleft, hright⟩
      simp only [System.put, h.procs, h.now]
    · cases he
  | exec pid uuid | lost pid uuid =>
    obtain ⟨p, hp, rfl⟩ := Option.map_eq_some_iff.mp he
    refine ⟨_, Option.map_eq_some_iff.mpr ⟨p, (hready pid).trans hp, rfl⟩, ?_⟩
    exact h.turn (System.of_readyProc hp).1 hf₁ hf₂ _
  | fail pid =>
    obtain ⟨p, hp, rfl⟩ := Option.map_eq_some_iff.mp he
    have hp₂ := (hready pid).trans hp
    refine ⟨_, Option.map_eq_some_iff.mpr ⟨p, hp₂, rfl⟩, h.now, ?_, h.agree, ?_, ?_⟩
    · simp only [System.put, h.procs]
    · exact h.left.put (h.left pid p.task (System.task_of_proc (System.of_readyProc hp).1))
    · exact h.right.put (h.right pid p.task (System.task_of_proc (System.of_readyProc hp₂).1))
  | sweep => exact ho.elim

theorem Event.OfTenant.next {now : Time} {w : Write} (hw : w.exec now db = .ok db')
    (he : e.OfTenant P T db) : e.OfTenant P T db' := by
  cases e with
  | request pid rq =>
    cases rq with
    | nonce | verdict | liveness => exact KeyOf.next hw he
    | _ => exact he
  | _ => exact he

theorem Event.RandomFree.next (ho : OthersKept T db db') (he : e.RandomFree P T db) :
    e.RandomFree P T db' := by
  cases e with
  | request pid rq =>
    cases rq with
    | nonce => exact NonceFree.next ho he
    | _ => exact he
  | exec | lost => exact IdFree.next ho he
  | _ => exact he

theorem Alike.run {es : List Event} : ∀ {s₁ s₂ s₁' : System}, Alike P T s₁ s₂ →
    (∀ e ∈ es, e.OfTenant P T s₁.db) → (∀ e ∈ es, e.RandomFree P T s₁.db) →
    (∀ e ∈ es, e.RandomFree P T s₂.db) → Machine.run (System.step P) es s₁ = some s₁' →
    ∃ s₂', Machine.run (System.step P) es s₂ = some s₂' ∧ Alike P T s₁' s₂' ∧
      OthersKept T s₁.db s₁'.db ∧ OthersKept T s₂.db s₂'.db := by
  induction es with
  | nil =>
    intro s₁ s₂ s₁' h _ _ _ hrun
    cases hrun
    exact ⟨s₂, rfl, h, .refl _ _, .refl _ _⟩
  | cons e es ih =>
    intro s₁ s₂ s₁' h ho hf₁ hf₂ hrun
    obtain ⟨u₁, he₁, hrest⟩ := Option.bind_eq_some_iff.mp hrun
    have hoe := ho e List.mem_cons_self
    have hfe₁ := hf₁ e List.mem_cons_self
    have hfe₂ := hf₂ e List.mem_cons_self
    obtain ⟨u₂, he₂, hu⟩ := h.step hoe hfe₁ hfe₂ he₁
    have hk₁ := (h.left.step hoe hfe₁ he₁).2
    have hk₂ := (h.right.step (hoe.agree h.agree) hfe₂ he₂).2
    obtain ⟨w, hw⟩ := (System.step_move he₁).exists_write
    obtain ⟨s₂', hrun₂, halike, hkept₁, hkept₂⟩ := ih hu
      (fun x hx => (ho x (List.mem_cons_of_mem e hx)).next hw)
      (fun x hx => (hf₁ x (List.mem_cons_of_mem e hx)).next hk₁)
      (fun x hx => (hf₂ x (List.mem_cons_of_mem e hx)).next hk₂) hrest
    refine ⟨s₂', ?_, halike, hk₁.trans hkept₁, hk₂.trans hkept₂⟩
    exact Option.bind_eq_some_iff.mpr ⟨u₂, he₂, hrun₂⟩

/-- **Tenant isolation.** Requests with a key of `T` run the same on any two databases with the same
rows of `T`: they get the same answers, leave the rows of `T` equal and change no row of another
tenant. -/
theorem tenant_isolation {es : List Event} {s₁' : System} (hnow : s₂.now = s₁.now)
    (hidle₁ : s₁.procs = fun _ => none) (hidle₂ : s₂.procs = fun _ => none)
    (hagree : Agree T s₁.db s₂.db) (hown : ∀ e ∈ es, e.OfTenant P T s₁.db)
    (hfree₁ : ∀ e ∈ es, e.RandomFree P T s₁.db) (hfree₂ : ∀ e ∈ es, e.RandomFree P T s₂.db)
    (hrun : Machine.run (System.step P) es s₁ = some s₁') :
    ∃ s₂', Machine.run (System.step P) es s₂ = some s₂' ∧
      (∀ pid, s₂'.response pid = s₁'.response pid) ∧ Agree T s₁'.db s₂'.db ∧
      OthersKept T s₁.db s₁'.db ∧ OthersKept T s₂.db s₂'.db := by
  have htended : ∀ s : System, (s.procs = fun _ => none) → Tended P T s := by
    intro s hidle pid t ht
    rw [System.task, hidle] at ht
    cases ht
  have halike : Alike P T s₁ s₂ :=
    ⟨hnow, hidle₂.trans hidle₁.symm, hagree, htended s₁ hidle₁, htended s₂ hidle₂⟩
  obtain ⟨s₂', hrun₂, h', hkept₁, hkept₂⟩ := halike.run hown hfree₁ hfree₂ hrun
  refine ⟨s₂', hrun₂, fun pid => ?_, h'.agree, hkept₁, hkept₂⟩
  rw [System.response, h'.procs, System.response]

namespace Deployment

/-- a session of another tenant -/
def otherSession : AttestationSession where
  id := Uuid.small 5
  tenantId := Uuid.small 3
  gameServerId := Uuid.small 4
  playerIdentityId := Uuid.small 6
  nonceHash := platform.sha256 otherNonce
  nonceSealed := none
  gameIp := gameIp
  policyTier := .strict
  state := .active
  issuedAt := 1785852500000
  expiresAt := 1785852530000
  consumedAt := some 1785852510000
  attestedAt := some 1785852510000
  attestationIp := some gameIp
  verdictDecision := .allow
  verdictReasons := []
  verdictRequirements := []
  verdictRemediation := none
  failOpen := false
  evaluatedAt := some 1785852510000
  lastHeartbeatAt := some 1785852510000
  graceExpiresAt := none
  terminatedAt := none
  terminationReason := none

/-- the same deployment, with another tenant in it -/
def shared : System where
  now := (deployment .fail_open).now
  db :=
    { tenants := ⟨[tenant .fail_open, { tenant .fail_closed with id := Uuid.small 3 }], by decide⟩
      gameServers := ⟨[server, { server with
        id := Uuid.small 4
        tenantId := Uuid.small 3
        serverKeyHash := "d9298a10d1b0735837dc4bd85dac641b0f3cef27a47e5d53a54f2f3f5b2fcffa" }],
        by decide⟩
      players := Table.empty
      builds := Table.empty
      sessions := only otherSession
      snapshots := Table.empty }
  procs := fun _ => none

/-- a connect, then a poll for the nonce and a liveness poll for the session of another tenant -/
def intrusion : List Event := issue ++
  [.request 1 (.verdict authorization (.obj [("nonce", .str otherNonce)]))] ++ turns 1 2 ++
  [.request 2 (.liveness authorization (Uuid.small 5).toText)] ++ turns 2 2

theorem shared_agree : Agree (Uuid.small 1) (deployment .fail_open).db shared.db := by
  refine ⟨?_, ?_, .refl _ _, ?_⟩
  · exact .of_append rfl (by decide)
  · exact .of_append rfl (by decide)
  · exact .of_append rfl (by decide)

end Deployment

open Deployment in
/-- the other tenant's session is there on the right and not on the left: both polls for it get the
same 404 -/
theorem tenant_isolation_shared : ∃ s₁ s₂, after .fail_open intrusion = some s₁ ∧
    Machine.run (System.step platform) intrusion shared = some s₂ ∧
    s₁.response 2 = some (.error (.notFound "session_unknown" "no such session")) ∧
    (∀ pid, s₂.response pid = s₁.response pid) ∧ Agree (Uuid.small 1) s₁.db s₂.db ∧
    OthersKept (Uuid.small 1) shared.db s₂.db := by
  obtain ⟨s₁, hs₁, hres⟩ := (Option.any_eq_true _ _).mp (show (after .fail_open intrusion).any
    (fun s => decide (s.response 2 =
      some (.error (.notFound "session_unknown" "no such session")))) = true by decide +kernel)
  have hkey : KeyOf platform (Uuid.small 1) (deployment .fail_open).db authorization :=
    ⟨"k", by decide, server, List.mem_singleton_self _, rfl, rfl⟩
  have hown : ∀ e ∈ intrusion, e.OfTenant platform (Uuid.small 1) (deployment .fail_open).db := by
    simp only [intrusion, issue, turns, List.forall_mem_append, List.forall_mem_cons]
    simp [Event.OfTenant, Request.OfTenant, hkey]
  have hleft : ∀ e ∈ intrusion, e.RandomFree platform (Uuid.small 1)
      (deployment .fail_open).db := by
    simp only [intrusion, issue, turns, List.forall_mem_append, List.forall_mem_cons]
    simp [Event.RandomFree, NonceFree, IdFree, deployment]
  have hright : ∀ e ∈ intrusion, e.RandomFree platform (Uuid.small 1) shared.db := by
    have hnonce : NonceFree platform (Uuid.small 1) shared.db (generateNonce entropy) := by
      intro r hr _
      rw [List.mem_singleton.mp hr]
      decide
    have hid : IdFree (Uuid.small 1) shared.db (Uuid.small 7) := by
      refine ⟨fun r hr _ => ?_, fun p hp => absurd hp List.not_mem_nil⟩
      rw [List.mem_singleton.mp hr]
      decide
    simp only [intrusion, issue, turns, List.forall_mem_append, List.forall_mem_cons]
    simp [Event.RandomFree, hnonce, hid]
  have hnow : shared.now = (deployment .fail_open).now := rfl
  obtain ⟨s₂, hs₂, hsame, hagree, _, hkept⟩ :=
    tenant_isolation hnow rfl rfl shared_agree hown hleft hright hs₁
  exact ⟨s₁, s₂, hs₁, hs₂, of_decide_eq_true hres, hsame, hagree, hkept⟩

end Backend
