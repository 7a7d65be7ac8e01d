import FiveProtect.Backend.Delivery
import FiveProtect.Backend.FailClosed
import FiveProtect.Backend.GateSoundness
import FiveProtect.Backend.References

/-!
# Backend: what a command changes, and for whom

`policy` says of a change that it applies from the next connection on and leaves running sessions alone, and
`accept-build --revoke` takes a build off the list while attestations of it are on their way.

* `Task.auth?`         the tenant a request creates or judges sessions for, as it was when it was authorized;
* `Site.Since`         what a tenant's row decides as long as no `policy` command writes it, `Since.move`;
* `policy_change`      the sessions and timeout verdicts after a change, in every run;
* `Site.Revoked`       the same for a build that is not accepted, `Revoked.move`;
* `revoked_build`      the verdicts on a revoked build, in every run.

In both results the exceptions are the requests that had read the old row before the change.
-/

namespace Backend
open Protocol Function

/-! ## what a request holds -/

def VerdictPoint.auth? : VerdictPoint → Option AuthenticatedServer
  | .read server _ _ => some server
  | .check server _ _ _ => some server
  | .sleep server _ _ _ => some server
  | .write server _ _ _ => some server
  | .timedOut server _ _ _ => some server
  | _ => none

/-- the authorization under which a request creates or judges sessions -/
def Task.auth? : Task → Option AuthenticatedServer
  | .nonce t => t.point.auth?
  | .verdict t => t.point.auth?
  | _ => none

/-- what a poll writes after its deadline follows from its authorization -/
def VerdictPoint.Follows : VerdictPoint → Prop
  | .write server _ session verdict => ∃ t, verdict = timeoutVerdict session server.tenant.failMode t
  | _ => True

/-- an outcome is an evaluation of what the lookup of the build returned -/
def AttestPoint.Follows (point : AttestPoint) : Prop :=
  ∀ session buildAccepted outcome, point.outcome? = some (session, buildAccepted, outcome) →
    ∃ input, outcome = Backend.evaluatePolicy input ∧ input.buildAccepted = buildAccepted

theorem AttestPoint.buildAccepted_of_outcome {point : AttestPoint} {session : SessionRow} {buildAccepted : Bool}
    {outcome : PolicyOutcome} (h : point.outcome? = some (session, buildAccepted, outcome)) :
    point.buildAccepted? = some (session, buildAccepted) := by
  cases point with
  | recordVerdict | accepted =>
    cases h
    rfl
  | _ => cases h

def Task.Follows : Task → Prop
  | .verdict t => t.point.Follows
  | .attest t => t.point.Follows
  | _ => True

section
variable {P : Platform} {now : Time} {uuid : Uuid} {db : Db} {w : Write} {t t' : Task}

theorem Task.auth?_other (h : t.other = true) : t.auth? = none := by
  cases t with
  | nonce _ | verdict _ => cases h
  | _ => rfl

/-- an authorization is kept, or it is the tenant's row as it stands now -/
theorem Task.exec_auth (h : t.exec P now uuid db = .ok (w, t')) {server : AuthenticatedServer}
    (hserver : t'.auth? = some server) : t.auth? = some server ∨ server.tenant ∈ db.tenants := by
  obtain ⟨a, pt, rfl, rfl, _⟩ | ⟨q, pt, rfl, rfl, hturn⟩ | ⟨n, pt, rfl, rfl, hturn⟩ | ⟨_, hother, _⟩ :=
    Task.exec_cases h
  · cases hserver
  · show q.point.auth? = some server ∨ _
    cases hturn with
    | authorized hp ha hq =>
      cases hserver
      exact .inr (mem_of_requireServer ha).1
    | undecided hp | overdue hp | early hp | awake hp | recorded hp | timedOut hp =>
      rw [hp]
      exact .inl hserver
    | _ => cases hserver
  · show n.point.auth? = some server ∨ _
    cases hturn with
    | authorized hp ha hb hid =>
      cases hserver
      exact .inr (mem_of_requireServer ha).1
    | upserted hp | created hp =>
      rw [hp]
      exact .inl hserver
    | _ => cases hserver
  · rw [Task.auth?_other hother] at hserver
    cases hserver

theorem Task.exec_follows (ht : t.Follows) (h : t.exec P now uuid db = .ok (w, t')) : t'.Follows := by
  obtain ⟨a, pt, rfl, rfl, hturn⟩ | ⟨q, pt, rfl, rfl, hturn⟩ | ⟨n, pt, rfl, rfl, _⟩ | ⟨_, hother, _⟩ :=
    Task.exec_cases h
  · cases hturn with
    | evaluated hp =>
      intro _ _ _ houtcome
      cases houtcome
      exact ⟨_, rfl, rfl⟩
    | recorded hp | accepted hp =>
      intro session buildAccepted outcome houtcome
      have hfollows : a.point.Follows := ht
      rw [hp] at hfollows
      exact hfollows session buildAccepted outcome houtcome
    | _ =>
      intro _ _ _ houtcome
      cases houtcome
  · cases hturn with
    | overdue hp hd => exact ⟨now, rfl⟩
    | _ => trivial
  · trivial
  · cases t' with
    | verdict _ | attest _ => cases hother
    | _ => trivial

theorem Request.start_held (rq : Request) : (rq.start now).auth? = none ∧ (rq.start now).Follows := by
  cases rq <;> simp only [Request.start]
  all_goals
    try split
    all_goals exact ⟨rfl, by first | trivial | (intro _ _ _ h; cases h)⟩

end

/-! ## the tenant's row -/

namespace Admin

variable {a : Admin} {db db' : Db}

/-- nothing but the `UPDATE` of `policy` changes a tenant's row -/
theorem tenant_stays (h : a.exec db = .ok db') (ha : ∀ id tier failMode, a ≠ .updateTenant id tier failMode)
    {t : TenantRow} (ht : t ∈ db.tenants) : t ∈ db'.tenants := by
  cases a with
  | insertTenant row =>
    obtain ⟨t', ht', rfl⟩ := Write.inserted_ok h
    exact (Table.mem_insert ht').mpr (.inl ht)
  | insertServer row =>
    obtain ⟨t', _, rfl⟩ := Write.inserted_ok h
    exact ht
  | updateTenant id tier failMode => exact absurd rfl (ha id tier failMode)
  | upsertBuild buildHash =>
    simp only [exec] at h
    split at h
    · cases h
      exact ht
    · obtain ⟨t', _, rfl⟩ := Write.inserted_ok h
      exact ht
  | _ =>
    cases h
    exact ht

/-- nothing but `accept-build` of a build puts it on the list -/
theorem build_stays (h : a.exec db = .ok db') {buildHash : String} (ha : a ≠ .upsertBuild buildHash)
    (hdb : ∀ b ∈ db.builds, b.buildHash = buildHash → b.accepted = false) :
    ∀ b ∈ db'.builds, b.buildHash = buildHash → b.accepted = false := by
  have hset : ∀ hash accepted, (hash = buildHash → accepted = false) →
      ∀ b ∈ db.builds.map (onBuild hash accepted) (onBuild_hash hash accepted),
        b.buildHash = buildHash → b.accepted = false := by
    intro hash accepted haccepted b hb hhash
    obtain ⟨x, hx, rfl⟩ := Table.mem_map.mp hb
    rw [onBuild_hash] at hhash
    unfold onBuild
    split
    · rename_i heq
      exact haccepted (heq.symm.trans hhash)
    · exact hdb x hx hhash
  cases a with
  | revokeBuild hash =>
    cases h
    exact hset hash false fun _ => rfl
  | upsertBuild hash =>
    have hne : hash ≠ buildHash := fun heq => ha (heq ▸ rfl)
    simp only [exec] at h
    split at h
    · cases h
      exact hset hash true fun heq => absurd heq hne
    · obtain ⟨t', ht', rfl⟩ := Write.inserted_ok h
      intro b hb hhash
      rcases (Table.mem_insert ht').mp hb with hb | rfl
      · exact hdb b hb hhash
      · exact absurd hhash hne
  | insertTenant row | insertServer row =>
    obtain ⟨t', _, rfl⟩ := Write.inserted_ok h
    exact hdb
  | _ =>
    cases h
    exact hdb

end Admin

/-- which command issues a statement -/
theorem Command.exec_updateTenant {P : Platform} {uuid : Uuid} {db : Db} {cmd : Command} {id : Uuid}
    {tier : PolicyTier} {failMode : FailMode} (h : (cmd.exec P uuid db).1 = .updateTenant id tier failMode) :
    ∃ target tier failMode, cmd = .updateTenant target tier failMode := by
  cases cmd with
  | updateTenant target tier failMode => exact ⟨target, tier, failMode, rfl⟩
  | selectTenants tier failMode =>
    simp only [Command.exec] at h
    split at h
    · cases h
    · split at h
      · cases h
      · split at h <;> cases h
  | _ => cases h

theorem Command.exec_upsertBuild {P : Platform} {uuid : Uuid} {db : Db} {cmd : Command} {buildHash : String}
    (h : (cmd.exec P uuid db).1 = .upsertBuild buildHash) :
    ∃ target version channel, cmd = .upsertBuild target version channel buildHash := by
  cases cmd with
  | upsertBuild target version channel hash =>
    cases h
    exact ⟨target, version, channel, rfl⟩
  | selectTenants tier failMode =>
    simp only [Command.exec] at h
    split at h
    · cases h
    · split at h
      · cases h
      · split at h <;> cases h
  | _ => cases h

namespace Site

/-- the request `pid` acts under this authorization -/
def Holds (s : Site) (pid : Nat) (server : AuthenticatedServer) : Prop :=
  ∃ t, s.system.task pid = some t ∧ t.auth? = some server

/-- the nonce request `pid` is authorized and has not created its session yet -/
def Waits (s : Site) (pid : Nat) (server : AuthenticatedServer) : Prop :=
  ∃ n, s.system.task pid = some (.nonce n) ∧ n.point.auth? = some server ∧ n.point.session? = none

/-- the nonce request `pid` has created the session -/
def Issued (P : Platform) (s : Site) (pid : Nat) (r : AttestationSession) : Prop :=
  ∃ n, s.system.task pid = some (.nonce n) ∧ IssuedBy P n r

/-- no command changes a tenant's row in this step -/
def NoUpdate (s : Site) (e : SiteEvent) : Prop := ∀ cid, e.commits? = some cid →
  ∀ target tier failMode, s.commands cid ≠ some (.updateTenant target tier failMode)

/-- no command accepts the build in this step -/
def NoAccept (buildHash : String) (s : Site) (e : SiteEvent) : Prop := ∀ cid, e.commits? = some cid →
  ∀ target version channel, s.commands cid ≠ some (.upsertBuild target version channel buildHash)

/-- what has been decided for a tenant since `s₀`, where its row was `t` already -/
structure Since (P : Platform) (t : TenantRow) (s₀ s : Site) : Prop where
  tenant : t ∈ s.system.db.tenants
  held : ∀ pid server, s.Holds pid server → server.tenant.id = t.id → server.tenant = t ∨ s₀.Holds pid server
  waiting : ∀ pid server, s.Waits pid server → server.tenant.id = t.id → server.tenant = t ∨ s₀.Waits pid server
  sessions : ∀ r ∈ s.system.db.sessions, r.tenantId = t.id → r.policyTier = t.policyTier ∨
    (∃ r₀ ∈ s₀.system.db.sessions, r₀.id = r.id ∧ r₀.policyTier = r.policyTier) ∨
      ∃ pid server, s₀.Waits pid server ∧ s.Issued P pid r ∧ server.tenant.id = t.id ∧
        r.policyTier = server.tenant.policyTier

variable {P : Platform} {c : Ir.CaseMapping} {s₀ s s' : Site} {e : SiteEvent}

theorem Since.refl {t : TenantRow} (ht : t ∈ s.system.db.tenants) : Since P t s s :=
  ⟨ht, fun _ _ h _ => .inr h, fun _ _ h _ => .inr h, fun r hr _ => .inr (.inl ⟨r, hr, rfl, rfl⟩)⟩

/-- a nonce request that waits was waiting, or is authorized by the tenant's row as it stands now -/
theorem Waits.of_move (hm : Backend.Move P s.system s'.system) {pid : Nat} {server : AuthenticatedServer}
    (h : s'.Waits pid server) : s.Waits pid server ∨ server.tenant ∈ s.system.db.tenants := by
  obtain ⟨n, hn, hserver, hnone⟩ := h
  obtain hsame | ⟨hstart, _⟩ | ⟨uuid, w, m, pt, hm₀, rfl, hturn, _⟩ := hm.of_nonce hn
  · exact .inl ⟨n, hsame, hserver, hnone⟩
  · rw [hstart] at hserver
    cases hserver
  · rcases hturn.auth?_eq hserver with hbefore | hauth
    · rcases hturn.session?_eq with hsession | ⟨_, _, _, _, _, _, rfl⟩
      · exact .inl ⟨m, hm₀, hbefore, hsession ▸ hnone⟩
      · cases hnone
    · exact .inr (mem_of_requireServer hauth).1

theorem Since.system {t : TenantRow} (h : Since P t s₀ s) (hm : Backend.Move P s.system s'.system) :
    Since P t s₀ s' := by
  obtain ⟨w, hw, hissue⟩ := hm.write
  have hframe := Write.exec_frame hw
  have hrow : ∀ server : AuthenticatedServer, server.tenant ∈ s.system.db.tenants → server.tenant.id = t.id →
      server.tenant = t := fun server hmem hid =>
    s.system.db.tenants.eq_of_clash hmem h.tenant (by simp [Row.clash, Row.key, hid])
  refine ⟨hframe.1 ▸ h.tenant, fun pid server hheld hid => ?_, fun pid server hwaits hid => ?_,
    fun r hr hid => ?_⟩
  · obtain ⟨x', hx', hserver⟩ := hheld
    obtain hsame | ⟨rq, rfl, _⟩ | ⟨uuid, w, x, hx, hexec, _⟩ := hm.of_task_some hx'
    · exact h.held pid server ⟨x', hsame, hserver⟩ hid
    · rw [(Request.start_held rq).1] at hserver
      cases hserver
    · rcases Task.exec_auth hexec hserver with hold | hmem
      · exact h.held pid server ⟨x, hx, hold⟩ hid
      · exact .inl (hrow server hmem hid)
  · rcases hwaits.of_move hm with hbefore | hmem
    · exact h.waiting pid server hbefore hid
    · exact .inl (hrow server hmem hid)
  · rcases (Write.mem_sessions hw).mp hr with ⟨r₀, hr₀, rfl⟩ | hnew
    · rw [Write.onSession_tenantId] at hid
      rw [Write.onSession_policyTier, Write.onSession_id]
      rcases h.sessions r₀ hr₀ hid with htier | hold | ⟨pid, server, hwaits, ⟨n, hn, hby⟩, hserver, htier⟩
      · exact .inl htier
      · exact .inr (.inl hold)
      · exact .inr (.inr ⟨pid, server, hwaits, hby.move hm hn w, hserver, htier⟩)
    · -- a new row has the tier of the authorization it was issued under
      cases w with
      | createSession row =>
        cases hnew
        obtain h0 | h0 | ⟨pid, uuid, x, x', hx, hexec, _, htask⟩ := hissue
        · cases h0
        · cases h0
        obtain ⟨n, server, body, id, ip, rfl, hp, _, rfl, rfl⟩ := Task.exec_createSession hexec
        have hwaits : s.Waits pid server := ⟨n, hx, by rw [hp]; rfl, by rw [hp]; rfl⟩
        rcases h.waiting pid server hwaits hid with heq | hbefore
        · left
          rw [← heq]
          rfl
        · refine .inr (.inr ⟨pid, server, hbefore, ⟨_, (congrFun htask pid).trans (update_self ..), ?_⟩, hid,
            rfl⟩)
          exact ⟨⟨_, rfl, rfl⟩, rfl, .inr rfl⟩
      | _ => cases hnew

theorem Since.move {t : TenantRow} (h : Since P t s₀ s) (hquiet : NoUpdate s e) (hm : Site.Move P e s s') :
    Since P t s₀ s' := by
  cases hm with
  | system hm _ => exact h.system hm
  | idle cid cmd _ hsystem _ =>
    obtain ⟨tenant, held, waiting, sessions⟩ := h
    unfold Holds Waits at *
    unfold Issued at sessions
    rw [← hsystem] at tenant held waiting sessions
    exact ⟨tenant, held, waiting, sessions⟩
  | turn cid uuid cmd next he hcmd _ hadmin hsystem _ =>
    have hne : ∀ id tier failMode, (cmd.exec P uuid s.system.db).1 ≠ .updateTenant id tier failMode := by
      intro id tier failMode heq
      obtain ⟨target, tier, failMode, rfl⟩ := Command.exec_updateTenant heq
      exact hquiet cid he target tier failMode hcmd
    have htask : s'.system.task = s.system.task := by
      rw [hsystem]
      rfl
    refine ⟨Admin.tenant_stays hadmin hne h.tenant, fun pid server hheld => ?_, fun pid server hwaits => ?_, ?_⟩
    · unfold Holds at hheld
      rw [htask] at hheld
      exact h.held pid server hheld
    · unfold Waits at hwaits
      rw [htask] at hwaits
      exact h.waiting pid server hwaits
    · rw [(Admin.exec_frame hadmin).2.1]
      unfold Issued
      rw [htask]
      exact h.sessions

/-- every request in flight follows what it has read -/
def Follows (s : Site) : Prop := ∀ pid t, s.system.task pid = some t → t.Follows

theorem Follows.move (h : s.Follows) (hm : Site.Move P e s s') : s'.Follows := by
  intro pid t' ht'
  cases hm with
  | system hm _ =>
    obtain hsame | ⟨rq, rfl, _⟩ | ⟨uuid, w, t, ht, hexec, _⟩ := hm.of_task_some ht'
    · exact h pid t' hsame
    · exact (Request.start_held rq).2
    · exact Task.exec_follows (h pid t ht) hexec
  | idle cid cmd _ hsystem _ =>
    rw [hsystem] at ht'
    exact h pid t' ht'
  | turn cid uuid cmd next _ _ _ _ hsystem _ =>
    rw [hsystem] at ht'
    exact h pid t' ht'

end Site

section
variable {P : Platform} {c : Ir.CaseMapping} {s₀ s s' : Site}

theorem Operated.follows (h : Operated P c s) : s.Follows := by
  refine h.inv Site.Follows (fun s h0 pid t ht => ?_) fun _ _ _ hs hm => hs.move hm
  rw [System.task, h0.procs] at ht
  cases ht

theorem Operated.steps {G : Site → SiteEvent → Prop} (h : Operated P c s)
    (hrun : Machine.Steps (Site.step P c) G s s') : Operated P c s' := by
  obtain ⟨s₀, hs₀, h0⟩ := h
  exact ⟨s₀, hs₀, h0.trans hrun.toFree⟩

/-- what a command's statement leaves, when its turn goes through -/
theorem Site.step_exec {cid : Nat} {uuid : Uuid} {cmd : Command} {db : Db} (hcmd : s₀.commands cid = some cmd)
    (hadmin : (cmd.exec P uuid s₀.system.db).1.exec s₀.system.db = .ok db)
    (hstep : Site.step P c (.exec cid uuid) s₀ = some s) : s.system = { s₀.system with db := db } := by
  obtain ⟨x, hx, rfl⟩ := Option.map_eq_some_iff.mp hstep
  have hsame := (Site.of_running hx).1
  rw [hcmd] at hsame
  cases hsame
  unfold Site.turn
  simp only [hadmin]
  rfl

/-- **A change of the policy.**  After `policy` has updated a tenant's row, and until the next `policy` command writes,
a session of the tenant has the new tier, unless it is an older one, which keeps its own, or is created by a nonce
request that was authorized before the change; and a poll decides a timeout by the new fail mode, unless it was
authorized before the change. -/
theorem policy_change (hreach : Operated P c s₀) {cid : Nat} {uuid : Uuid} {target : TenantRow}
    {tier : Option PolicyTier} {failMode : Option FailMode}
    (hcmd : s₀.commands cid = some (.updateTenant target tier failMode))
    (hstep : Site.step P c (.exec cid uuid) s₀ = some s)
    (hrun : Machine.Steps (Site.step P c) Site.NoUpdate s s') :
    ∃ t ∈ s'.system.db.tenants, t.id = target.id ∧ t.policyTier = tier.getD target.policyTier ∧
      t.failMode = failMode.getD target.failMode ∧
      (∀ r ∈ s'.system.db.sessions, r.tenantId = target.id → r.policyTier = t.policyTier ∨
        (∃ r₀ ∈ s.system.db.sessions, r₀.id = r.id ∧ r₀.policyTier = r.policyTier) ∨
          ∃ pid server, s.Waits pid server ∧ s'.Issued P pid r ∧ server.tenant.id = target.id ∧
            r.policyTier = server.tenant.policyTier) ∧
      ∀ pid q server deadline session v, s'.system.task pid = some (.verdict q) →
        q.point = .write server deadline session v → server.tenant.id = target.id →
          (∃ now, v = timeoutVerdict session t.failMode now) ∨ s.Holds pid server := by
  obtain ⟨row, hrow, hid⟩ := hreach.refers.commands cid _ hcmd
  have hsystem := Site.step_exec hcmd rfl hstep
  let t : TenantRow := { row with
    policyTier := tier.getD target.policyTier
    failMode := failMode.getD target.failMode }
  have ht : t ∈ s.system.db.tenants := by
    have hmem := List.mem_map_of_mem (f := Admin.onTenant target.id (tier.getD target.policyTier)
      (failMode.getD target.failMode)) hrow
    rw [Admin.onTenant, if_pos hid] at hmem
    rw [hsystem]
    exact hmem
  have hsince : Site.Since P t s s' := hrun.inv (Site.Since P t s)
    (fun x e y hx hquiet he => hx.move hquiet (Site.step_move he)) (.refl ht)
  have hfollows := ((hreach.steps (Machine.Steps.single trivial hstep : Machine.Steps _ Machine.free s₀ s)).steps
    hrun).follows
  refine ⟨t, hsince.tenant, hid, rfl, rfl, fun r hr hr' => ?_, ?_⟩
  · have hsession := hsince.sessions r hr (hr'.trans hid.symm)
    rwa [show t.id = target.id from hid] at hsession
  · intro pid q server deadline session v hq hp hserver
    have hheld : s'.Holds pid server := ⟨_, hq, by rw [Task.auth?, hp]; rfl⟩
    rcases hsince.held pid server hheld (hserver.trans hid.symm) with heq | hbefore
    · left
      have hv : q.point.Follows := hfollows pid _ hq
      rw [hp] at hv
      obtain ⟨now, hv⟩ := hv
      exact ⟨now, heq ▸ hv⟩
    · exact .inr hbefore

/-! ## revoked builds -/

theorem isBuildAccepted_eq_false {db : Db} {buildHash : String}
    (h : ∀ b ∈ db.builds, b.buildHash = buildHash → b.accepted = false) : isBuildAccepted db buildHash = false := by
  unfold isBuildAccepted
  cases hfind : db.builds.find fun b => b.buildHash == buildHash with
  | none => rfl
  | some b =>
    obtain ⟨hmem, hhash⟩ := Table.mem_of_find hfind
    exact h b hmem (beq_iff_eq.mp hhash)

namespace Site

/-- the build is not on the list, and has not been since `s₀` -/
structure Revoked (buildHash : String) (s₀ s : Site) : Prop where
  build : ∀ b ∈ s.system.db.builds, b.buildHash = buildHash → b.accepted = false
  tasks : ∀ pid a session, s.system.task pid = some (.attest a) →
    a.request.snapshot.companionBuildHash = buildHash → a.point.buildAccepted? = some (session, true) →
      ∃ a₀ session₀, s₀.system.task pid = some (.attest a₀) ∧ a₀.point.buildAccepted? = some (session₀, true)

theorem Revoked.refl {buildHash : String}
    (h : ∀ b ∈ s.system.db.builds, b.buildHash = buildHash → b.accepted = false) : Revoked buildHash s s :=
  ⟨h, fun _ a session ha _ haccepted => ⟨a, session, ha, haccepted⟩⟩

/-- one turn of an attestation: what it knows of the build it knew before, or reads now -/
theorem exec_buildAccepted {now : Time} {uuid : Uuid} {db : Db} {w : Write} {t : Task} {a' : AttestTask}
    {session : SessionRow} (h : t.exec P now uuid db = .ok (w, .attest a'))
    (haccepted : a'.point.buildAccepted? = some (session, true)) :
    ∃ a, t = .attest a ∧ a'.request = a.request ∧ (a.point.buildAccepted? = some (session, true) ∨
      isBuildAccepted db a.request.snapshot.companionBuildHash = true) := by
  obtain ⟨a, pt, rfl, heq, hturn⟩ | ⟨q, pt, _, heq, _⟩ | ⟨n, pt, _, heq, _⟩ | ⟨_, hother, _⟩ := Task.exec_cases h
  · cases heq
    refine ⟨a, rfl, rfl, ?_⟩
    cases hturn with
    | lookedUp hp =>
      right
      exact congrArg Prod.snd (Option.some.inj haccepted)
    | evaluated hp | recorded hp | accepted hp =>
      left
      rw [hp]
      exact haccepted
    | _ => cases haccepted
  · cases heq
  · cases heq
  · cases hother

theorem Revoked.move {buildHash : String} {e : SiteEvent} (h : Revoked buildHash s₀ s)
    (hquiet : NoAccept buildHash s e) (hm : Site.Move P e s s') : Revoked buildHash s₀ s' := by
  cases hm with
  | system hm _ =>
    obtain ⟨w, hw⟩ := hm.exists_write
    refine ⟨(Write.exec_frame hw).2 ▸ h.build, fun pid a' session ha' hhash haccepted => ?_⟩
    obtain hsame | ⟨rq, heq, _⟩ | ⟨uuid, w, t, ht, hexec, _⟩ := hm.of_task_some ha'
    · exact h.tasks pid a' session hsame hhash haccepted
    · rw [Request.start_attest heq.symm] at haccepted
      cases haccepted
    · obtain ⟨a, rfl, hrequest, hbefore | hread⟩ := exec_buildAccepted hexec haccepted
      · exact h.tasks pid a session ht (hrequest ▸ hhash) hbefore
      · rw [← hrequest, hhash, isBuildAccepted_eq_false h.build] at hread
        cases hread
  | idle cid cmd _ hsystem _ => exact ⟨hsystem ▸ h.build, hsystem ▸ h.tasks⟩
  | turn cid uuid cmd next he hcmd _ hadmin hsystem _ =>
    have hne : (cmd.exec P uuid s.system.db).1 ≠ .upsertBuild buildHash := by
      intro heq
      obtain ⟨target, version, channel, rfl⟩ := Command.exec_upsertBuild heq
      exact hquiet cid he target version channel hcmd
    have htask : s'.system.task = s.system.task := by
      rw [hsystem]
      rfl
    exact ⟨Admin.build_stays hadmin hne h.build, htask ▸ h.tasks⟩

end Site

/-- **A revoked build.**  After `accept-build --revoke` has updated the list, and until the build is accepted again,
every attestation of the build is denied, whatever it reports, unless it had looked the build up before. -/
theorem revoked_build (hreach : Operated P c s₀) {cid : Nat} {uuid : Uuid} {target buildHash : String}
    (hcmd : s₀.commands cid = some (.revokeBuild target buildHash))
    (hstep : Site.step P c (.exec cid uuid) s₀ = some s)
    (hrun : Machine.Steps (Site.step P c) (Site.NoAccept buildHash) s s') :
    ∀ pid a session buildAccepted outcome, s'.system.task pid = some (.attest a) →
      a.request.snapshot.companionBuildHash = buildHash →
        a.point.outcome? = some (session, buildAccepted, outcome) → outcome.decision = .deny ∨
          ∃ a₀ session₀, s.system.task pid = some (.attest a₀) ∧
            a₀.point.buildAccepted? = some (session₀, true) := by
  intro pid a session buildAccepted outcome ha hhash houtcome
  have hsystem := Site.step_exec hcmd rfl hstep
  have hbuild : ∀ b ∈ s.system.db.builds, b.buildHash = buildHash → b.accepted = false := by
    rw [hsystem]
    intro b hb hhash
    have hrow : b ∈ s₀.system.db.builds.rows.map (Admin.onBuild buildHash false) := hb
    obtain ⟨x, _, rfl⟩ := List.mem_map.mp hrow
    rw [Admin.onBuild_hash] at hhash
    rw [Admin.onBuild, if_pos hhash]
  have hrevoked : Site.Revoked buildHash s s' := hrun.inv (Site.Revoked buildHash s)
    (fun x e y hx hquiet he => hx.move hquiet (Site.step_move he)) (.refl hbuild)
  have hfollows := ((hreach.steps (Machine.Steps.single trivial hstep : Machine.Steps _ Machine.free s₀ s)).steps
    hrun).follows
  have hpoint : a.point.Follows := hfollows pid _ ha
  obtain ⟨input, rfl, haccepted⟩ := hpoint session buildAccepted outcome houtcome
  cases hdecision : (evaluatePolicy input).decision with
  | deny => exact .inl rfl
  | allow =>
    right
    have hlisted := AttestPoint.buildAccepted_of_outcome houtcome
    rw [← haccepted, ((allow_iff input).mp hdecision).2] at hlisted
    exact hrevoked.tasks pid a session ha hhash hlisted

/-! ## two changes -/

/-- a run of the service alone: no command takes a turn in it -/
theorem Site.steps_system {G : Site → SiteEvent → Prop} (hG : ∀ s e, G s (.system e)) {system : System} :
    ∀ (es : List Event) (s : Site), Machine.run (System.step P) es s.system = some system →
      Machine.Steps (Site.step P c) G s { s with system := system } := by
  intro es
  induction es with
  | nil =>
    intro s h
    cases h
    exact .refl s
  | cons e es ih =>
    intro s h
    obtain ⟨next, hnext, hrest⟩ := Option.bind_eq_some_iff.mp h
    have hstep : Site.step P c (.system e) s = some { s with system := next } := by
      simp only [Site.step, hnext, Option.map_some]
    exact (Machine.Steps.single (hG s e) hstep).trans (ih { s with system := next } hrest)

end

namespace Deployment

/-- then command 1 is about to make the tenant's tier `strict` -/
def beforeStrict : List SiteEvent := provisionAndIssue ++
  [.command 1 (.policy ["--tier", "strict"] (some "postgres://localhost")), .exec 1 (Uuid.small 0)]

/-- the tenant as `provision` has left it -/
def provisioned : TenantRow := ⟨Uuid.small 1, "tenant", .relaxed, .fail_open, .active, false⟩

/-- request 1 is issued another nonce -/
def issueAnother : List Event :=
  .request 1 (.nonce (some ("Bearer " ++ nonce)) nonceBody config ⟨List.replicate 32 255, rfl⟩ sealIv) ::
    List.replicate 4 (.exec 1 (Uuid.small 8))

/-- the next session is `strict`, the one before stays `relaxed` -/
theorem policy_change_strict : ∃ s s' : Site,
    s.system.db.sessions.rows.map AttestationSession.policyTier = [.relaxed] ∧
      s'.system.db.sessions.rows.map AttestationSession.policyTier = [.relaxed, .strict] ∧
      ∃ t ∈ s'.system.db.tenants, t.id = Uuid.small 1 ∧ t.policyTier = .strict ∧
        ∀ r ∈ s'.system.db.sessions, r.tenantId = Uuid.small 1 → r.policyTier = t.policyTier ∨
          (∃ r₀ ∈ s.system.db.sessions, r₀.id = r.id ∧ r₀.policyTier = r.policyTier) ∨
            ∃ pid server, s.Waits pid server ∧ s'.Issued platform pid r ∧ server.tenant.id = Uuid.small 1 ∧
              r.policyTier = server.tenant.policyTier := by
  have hrun : (Machine.run (Site.step platform .ascii) beforeStrict site).any (fun s₀ =>
      decide (s₀.commands 1 = some (.updateTenant provisioned (some .strict) none)) &&
        (Site.step platform .ascii (.exec 1 (Uuid.small 0)) s₀).any fun s =>
          decide (s.system.db.sessions.rows.map AttestationSession.policyTier = [.relaxed]) &&
            (Machine.run (System.step platform) issueAnother s.system).any fun system =>
              decide (system.db.sessions.rows.map AttestationSession.policyTier = [.relaxed, .strict])) = true := by
    decide +kernel
  obtain ⟨s₀, hs₀, hrun⟩ := (Option.any_eq_true _ _).mp hrun
  obtain ⟨hcmd, hrun⟩ := Bool.and_eq_true_iff.mp hrun
  obtain ⟨s, hs, hrun⟩ := (Option.any_eq_true _ _).mp hrun
  obtain ⟨hbefore, hrun⟩ := Bool.and_eq_true_iff.mp hrun
  obtain ⟨system, hsystem, hafter⟩ := (Option.any_eq_true _ _).mp hrun
  have hreach : Operated platform .ascii s₀ := ⟨site, ⟨rfl, rfl, rfl⟩, Machine.Steps.of_run _ _ _ hs₀⟩
  obtain ⟨t, ht, hid, htier, _, hsessions, _⟩ := policy_change hreach (of_decide_eq_true hcmd) hs
    (Site.steps_system (fun _ _ _ he => by cases he) issueAnother s hsystem)
  exact ⟨s, _, of_decide_eq_true hbefore, of_decide_eq_true hafter, t, ht, hid, htier, hsessions⟩

/-- a build is accepted, and command 3 is about to take it off the list again -/
def beforeRevoke : List SiteEvent := provisionAndIssue ++
  [.command 2 (.acceptBuild ["FiveProtect.exe", "0.1.0"] (some "postgres://localhost") (some buildHash)),
    .exec 2 (Uuid.small 0), .command 3 (.acceptBuild ["--revoke", buildHash] (some "postgres://localhost") none)]

/-- an attestation of `snapshot` that is decided -/
def judgedSnapshot : Task → Bool
  | .attest a => decide (a.request.snapshot = snapshot) && a.point.outcome?.isSome
  | _ => false

/-- the player of request 0 is denied, though his computer meets every requirement -/
theorem revoked_build_attested : ∃ s' : Site, ∃ a session buildAccepted outcome,
    s'.system.task 2 = some (.attest a) ∧ a.request.snapshot = snapshot ∧
      a.point.outcome? = some (session, buildAccepted, outcome) ∧ outcome.decision = .deny := by
  have hrun : (Machine.run (Site.step platform .ascii) beforeRevoke site).any (fun s₀ =>
      decide (s₀.commands 3 = some (.revokeBuild buildHash buildHash)) &&
        (Site.step platform .ascii (.exec 3 (Uuid.small 0)) s₀).any fun s =>
          (s.system.procs 2).isNone && (Machine.run (System.step platform) (turns 2 5) (s.system.put 2
            ⟨.attest ⟨⟨nonce, snapshotWith .enabled [], none, 1⟩, "203.0.113.42", true, .claim⟩, false⟩)).any
              fun system => (system.task 2).any judgedSnapshot) = true := by decide +kernel
  obtain ⟨s₀, hs₀, hrun⟩ := (Option.any_eq_true _ _).mp hrun
  obtain ⟨hcmd, hrun⟩ := Bool.and_eq_true_iff.mp hrun
  obtain ⟨s, hs, hrun⟩ := (Option.any_eq_true _ _).mp hrun
  obtain ⟨hnone, hrun⟩ := Bool.and_eq_true_iff.mp hrun
  obtain ⟨system, hsystem, htask⟩ := (Option.any_eq_true _ _).mp hrun
  obtain ⟨t, ht, hfacts⟩ := (Option.any_eq_true _ _).mp htask
  have hreach : Operated platform .ascii s₀ := ⟨site, ⟨rfl, rfl, rfl⟩, Machine.Steps.of_run _ _ _ hs₀⟩
  have hrun : Machine.run (System.step platform) (attest []) s.system = some system := by
    rw [attest, run_attest no_notes (Nat.zero_le 32), if_pos hnone]
    exact hsystem
  cases t with
  | attest a =>
    obtain ⟨hsnapshot, hsome⟩ := Bool.and_eq_true_iff.mp hfacts
    obtain ⟨⟨session, buildAccepted, outcome⟩, houtcome⟩ := Option.isSome_iff_exists.mp hsome
    have hhash : a.request.snapshot.companionBuildHash = buildHash := by rw [of_decide_eq_true hsnapshot]; rfl
    have hdeny := revoked_build hreach (of_decide_eq_true hcmd) hs
      (Site.steps_system (fun _ _ _ he => by cases he) (attest []) s hrun) 2 a session buildAccepted outcome
      ht hhash houtcome
    rcases hdeny with hdeny | ⟨a₀, _, ha₀, _⟩
    · exact ⟨{ s with system := system }, a, session, buildAccepted, outcome, ht, of_decide_eq_true hsnapshot,
        houtcome, hdeny⟩
    · rw [System.task, Option.isNone_iff_eq_none.mp hnone] at ha₀
      cases ha₀
  | _ => cases hfacts

end Deployment

end Backend
