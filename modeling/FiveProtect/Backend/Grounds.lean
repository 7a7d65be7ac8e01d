import FiveProtect.Backend.Delivery
import FiveProtect.Backend.GateSoundness
import FiveProtect.Backend.References

/-!
# Why a poll is answered `allow`, and about whom

The row of a session is written again after a poll has read it, so what was once answered is not in the database any
more.  It is in the requests: an attestation keeps its evaluation, a poll that timed out its tenant.

* `Granted`            an attestation of the session was evaluated to `allow`, or its tenant admits players whose
                       poll ran into its deadline; no move takes it back (`Granted.move`);
* `VerdictPoint.Asks`  what a poll for a nonce knows at each of its points;
* `Reachable.asks`     every poll knows it;
* `Granted.sound`      what `Granted` says about the row of the session, whenever one looks;
* `Reachable.issues`   whose session a nonce request has created.
-/

namespace Backend
open Protocol Function

variable {P : Platform} {s s' : System}

/-! ## grounds -/

/-- the session was evaluated to `allow`, or not at all in a tenant that is `fail_open` -/
inductive Granted (s : System) (id : Uuid) : Prop
  | attestation (pid : Nat) (a : AttestTask) (session : SessionRow) (buildAccepted : Bool) (outcome : PolicyOutcome)
      (ht : s.task pid = some (.attest a)) (hout : a.point.outcome? = some (session, buildAccepted, outcome))
      (hallow : outcome.decision = .allow) (hid : session.id = id)
  | timeout (pid : Nat) (q : VerdictTask) (auth : AuthenticatedServer) (deadline : Time) (session : SessionRow)
      (v : Verdict) (ht : s.task pid = some (.verdict q)) (hp : q.point = .timedOut auth deadline session v)
      (hopen : auth.tenant.failMode = .fail_open) (hid : session.id = id)

/-- an evaluation is kept -/
theorem AttestTask.Turn.outcome?_eq {now : Time} {uuid : Uuid} {db : Db} {w : Write} {a : AttestTask}
    {pt : AttestPoint} (h : a.Turn P now uuid db w pt) {found : SessionRow × Bool × PolicyOutcome}
    (hout : a.point.outcome? = some found) : pt.outcome? = some found := by
  cases h with
  | recorded hp | accepted hp =>
    rw [hp] at hout
    exact hout
  | claimed hp | unclaimed hp | classified hp | stored hp | lookedUp hp | evaluated hp | rejected hp =>
    rw [hp] at hout
    cases hout

theorem Granted.move {id : Uuid} (h : Granted s id) (hm : Move P s s') : Granted s' id := by
  cases h with
  | attestation pid a session buildAccepted outcome ht hout hallow hid =>
    obtain hsame | ⟨uuid, w, t', hexec, _, ht'⟩ := hm.task_some ht
    · exact .attestation pid a session buildAccepted outcome hsame hout hallow hid
    · obtain ⟨pt, rfl, hturn⟩ := Task.exec_attest hexec
      exact .attestation pid _ session buildAccepted outcome ht' (hturn.outcome?_eq hout) hallow hid
  | timeout pid q auth deadline session v ht hp hopen hid =>
    exact .timeout pid q auth deadline session v (hm.timedOut_mono ht hp) hp hopen hid

/-- a row that says `allow` has its grounds -/
theorem Reachable.granted (h : Reachable P s) {r : AttestationSession} (hr : r ∈ s.db.sessions)
    (hallow : r.verdictDecision = .allow) : Granted s r.id := by
  cases (h.judged r hr).source with
  | undecided hpending =>
    rw [hpending] at hallow
    cases hallow
  | attestation pid a session buildAccepted outcome ack ht hp hid hv =>
    have hdecision : outcome.decision = .allow :=
      decision_verdict_allow ((congrArg (·.1) hv).symm.trans hallow)
    refine .attestation pid a session buildAccepted outcome ht ?_ hdecision hid
    rw [hp]
    rfl
  | timeout pid q auth deadline session v ht hp hid hv =>
    have hpolled := h.established.verdict pid q ht
    rw [hp] at hpolled
    obtain ⟨_, _, _, t, _, _, rfl⟩ := hpolled
    have hdecision := decision_verdict_allow ((congrArg (·.1) hv).symm.trans hallow)
    exact .timeout pid q auth deadline session _ ht hp (timeoutUpdate_allow hdecision).1 hid

/-! ## polls -/

/-- the session is the one with the nonce -/
def HasNonce (P : Platform) (db : Db) (nonce : String) (id : Uuid) : Prop :=
  ∃ r ∈ db.sessions, r.id = id ∧ r.nonceHash = hashNonce P nonce

theorem HasNonce.move {nonce : String} {id : Uuid} (h : HasNonce P s.db nonce id) (hm : Move P s s') :
    HasNonce P s'.db nonce id := by
  obtain ⟨r, hr, hid, hhash⟩ := h
  obtain ⟨r', hr', hfixed⟩ := hm.row hr
  exact ⟨r', hr', (congrArg (·.1) hfixed).trans hid, (congrArg (·.2.2.1) hfixed).trans hhash⟩

/-- what a poll for `nonce` knows -/
def VerdictPoint.Asks (P : Platform) (s : System) (nonce : String) : VerdictPoint → Prop
  | .read _ asked _ => asked = nonce
  | .check _ asked _ session => asked = nonce ∧ HasNonce P s.db nonce session.id
  | .sleep _ asked _ _ => asked = nonce
  | .write _ _ session v => HasNonce P s.db nonce session.id ∧ v.sessionId = session.id
  | .timedOut _ _ session v => HasNonce P s.db nonce session.id ∧ v.sessionId = session.id
  | .answered v => HasNonce P s.db nonce v.sessionId ∧ (v.decision = .allow → Granted s v.sessionId)
  | _ => True

theorem VerdictPoint.Asks.move {nonce : String} {pt : VerdictPoint} (h : pt.Asks P s nonce) (hm : Move P s s') :
    pt.Asks P s' nonce := by
  cases pt with
  | auth | refused => exact trivial
  | read | sleep => exact h
  | check => exact ⟨h.1, h.2.move hm⟩
  | write | timedOut => exact ⟨h.1.move hm, h.2⟩
  | answered v => exact ⟨h.1.move hm, fun hallow => (h.2 hallow).move hm⟩

theorem timeoutVerdict_sessionId (session : SessionRow) (failMode : FailMode) (now : Time) :
    (timeoutVerdict session failMode now).sessionId = session.id := by
  cases failMode <;> rfl

/-- one turn of a poll -/
theorem VerdictTask.Turn.asks (hs : Reachable P s) {w : Write} {q : VerdictTask} {pt : VerdictPoint} {nonce : String}
    (hq : VerdictTask.parseQuery q.body = some nonce) (h : q.point.Asks P s nonce)
    (hturn : q.Turn P s.now s.db w pt) : pt.Asks P s nonce := by
  cases hturn with
  | unauthorized | malformed | unknown | refused => exact trivial
  | authorized hp ha hparse =>
    rw [hq] at hparse
    exact (Option.some.inj hparse).symm
  | decided hp hf hd =>
    rw [hp] at h
    obtain ⟨r, hr, rfl, hhash, _⟩ := findByNonce_some P hf
    refine ⟨⟨r, hr, rfl, ?_⟩, fun hallow => hs.granted hr hallow⟩
    rw [hhash, h]
  | undecided hp hf hd =>
    rw [hp] at h
    obtain ⟨r, hr, rfl, hhash, _⟩ := findByNonce_some P hf
    refine ⟨h, r, hr, rfl, ?_⟩
    rw [hhash, h]
  | overdue hp hd =>
    rw [hp] at h
    exact ⟨h.2, timeoutVerdict_sessionId _ _ _⟩
  | early hp hd =>
    rw [hp] at h
    exact h.1
  | awake hp | recorded hp | timedOut hp | answered hp =>
    rw [hp] at h
    exact h

/-- **Every poll knows it.** -/
theorem Reachable.asks (h : Reachable P s) {pid : Nat} {q : VerdictTask} {nonce : String}
    (ht : s.task pid = some (.verdict q)) (hq : VerdictTask.parseQuery q.body = some nonce) :
    q.point.Asks P s nonce := by
  obtain ⟨s₀, hs₀, hrun⟩ := h
  induction hrun generalizing pid q with
  | refl =>
    rw [System.task, hs₀.procs] at ht
    cases ht
  | @tail t u e hsteps _ hstep ih =>
    have hm : Move P t u := System.step_move hstep
    obtain hsame | ⟨hauth, _⟩ | ⟨w, b, pt, hb, rfl, hturn, _⟩ := hm.of_verdict ht
    · exact (ih hsame hq).move hm
    · rw [hauth]
      exact trivial
    · have hbody : VerdictTask.parseQuery b.body = some nonce := hq
      exact (hturn.asks ⟨s₀, hs₀, hsteps⟩ hbody (ih hb hbody)).move hm

/-- a poll that is answered `allow` asks for a session that was granted -/
theorem Reachable.allowed (h : Reachable P s) {pid : Nat} {q : VerdictTask} {nonce : String} {v : Verdict}
    (ht : s.task pid = some (.verdict q)) (hq : VerdictTask.parseQuery q.body = some nonce)
    (hv : (Task.verdict q).response = some (.verdict v)) (hallow : v.decision = .allow) :
    HasNonce P s.db nonce v.sessionId ∧ Granted s v.sessionId := by
  have hasks := h.asks ht hq
  obtain ⟨authorization, body, point⟩ := q
  cases point with
  | answered v' =>
    cases hv
    exact ⟨hasks.1, hasks.2 hallow⟩
  | timedOut auth deadline session v' =>
    cases hv
    obtain ⟨_, _, _, t, _, _, heq⟩ := h.established.verdict pid _ ht
    have hopen : auth.tenant.failMode = .fail_open := by
      cases hmode : auth.tenant.failMode with
      | fail_open => rfl
      | fail_closed =>
        rw [hmode] at heq
        rw [heq] at hallow
        cases hallow
    rw [hasks.2]
    exact ⟨hasks.1, .timeout pid _ auth deadline session v ht rfl hopen rfl⟩
  | auth | read | check | sleep | write | refused => cases hv

/-! ## what they say about the row -/

/-- the attestation that admitted the player of a row -/
structure AttestedBy (P : Platform) (s : System) (r : AttestationSession) (pid : Nat) (a : AttestTask) : Prop where
  consumed : ConsumedBy s r pid a
  nonce : hashNonce P a.request.nonce = r.nonceHash
  address : r.attestationIp = P.inetIn a.clientIp
  build : isBuildAccepted s.db a.request.snapshot.companionBuildHash = true
  /-- on the computer that sent it every requirement that blocks was met -/
  allow : (evaluatePolicy
    { tier := r.policyTier
      snapshot := a.request.snapshot
      gameIp := P.inetHost r.gameIp
      attestationIp := a.clientIp
      buildAccepted := true }).decision = .allow

/-- **What the grounds say about the row**, in the state they are looked at. -/
theorem Granted.sound (hs : Reachable P s) {r : AttestationSession} (hr : r ∈ s.db.sessions) (h : Granted s r.id) :
    (∃ pid a, AttestedBy P s r pid a) ∨ ∃ tenant ∈ s.db.tenants, tenant.id = r.tenantId ∧
      tenant.failMode = .fail_open := by
  cases h with
  | attestation pid a session buildAccepted outcome ht hout hallow hid =>
    left
    obtain ⟨hsession, hcons⟩ := AttestPoint.session?_of_outcome hout
    obtain ⟨hbuild, heval⟩ := (hs.established.attest pid a ht).outcome session buildAccepted outcome hout
    obtain ⟨x, hx, hof⟩ := hs.redemption.claimed pid _ (claim?_of_consumed hs.losers ht hcons)
    have hxr : x = r := Db.eq_of_id hx hr (hof.id.symm.trans hid)
    subst hxr
    rw [heval] at hallow
    have haccepted : buildAccepted = true := buildAccepted_of_allow hallow
    subst haccepted
    refine ⟨pid, a, ⟨ht, session, hcons, hid⟩, hof.nonceHash.symm, ?_, hbuild.symm, ?_⟩
    · obtain ⟨ip, hin, hrow⟩ := hof.attestationIp
      exact hrow.trans hin.symm
    · rw [← hof.policyTier, ← hof.gameIp]
      exact hallow
  | timeout pid q auth deadline session v ht hp hopen hid =>
    right
    have hpolled := hs.established.verdict pid q ht
    rw [hp] at hpolled
    obtain ⟨htenant, ⟨x, hx, hxid, hxtenant⟩, _⟩ := hpolled
    have hxr : x = r := Db.eq_of_id hx hr (hxid.trans hid)
    subst hxr
    exact ⟨auth.tenant, htenant, hxtenant.symm, hopen⟩

/-! ## whose session it is -/

/-- the session is for the player of a nonce request, on the server it came from -/
structure ForPlayer (P : Platform) (db : Db) (auth : AuthenticatedServer) (body : NonceRequest)
    (r : AttestationSession) : Prop where
  server : r.gameServerId = auth.server.id
  tenant : r.tenantId = auth.tenant.id
  address : P.inetIn body.player.ip = some r.gameIp
  player : db.players.Has Row.key (r.playerIdentityId, auth.tenant.id, body.player.license)

/-- the body of a nonce request that was authorized -/
structure NonceTask.Reads (n : NonceTask) (auth : AuthenticatedServer) (body : NonceRequest) : Prop where
  parsed : NonceRequest.safeParse n.body = some body
  server : body.serverId = auth.server.id.toText

/-- what a nonce request knows -/
def NonceTask.Issues (P : Platform) (db : Db) (n : NonceTask) : Prop :=
  match n.point with
  | .upsertPlayer auth body => n.Reads auth body
  | .createSession auth body playerIdentityId => n.Reads auth body ∧
      db.players.Has Row.key (playerIdentityId, auth.tenant.id, body.player.license)
  | .touchServer auth session => ∃ body, n.Reads auth body ∧
      ∃ r ∈ db.sessions, r.id = session.id ∧ ForPlayer P db auth body r
  | .issued session _ => ∃ auth body, n.Reads auth body ∧
      ∃ r ∈ db.sessions, r.id = session.id ∧ ForPlayer P db auth body r
  | _ => True

theorem ForPlayer.move {auth : AuthenticatedServer} {body : NonceRequest} {id : Uuid}
    (h : ∃ r ∈ s.db.sessions, r.id = id ∧ ForPlayer P s.db auth body r) (hm : Move P s s') :
    ∃ r ∈ s'.db.sessions, r.id = id ∧ ForPlayer P s'.db auth body r := by
  obtain ⟨w, hw⟩ := hm.exists_write
  obtain ⟨r, hr, hid, hfor⟩ := h
  obtain ⟨_, _, hplayer⟩ := @Write.onSession_refs s.now w r
  refine ⟨_, (Write.mem_sessions hw).mpr (.inl ⟨r, hr, rfl⟩), (Write.onSession_id _ _ _).trans hid, ?_, ?_, ?_, ?_⟩
  · rw [Write.onSession_gameServerId, hfor.server]
  · rw [Write.onSession_tenantId, hfor.tenant]
  · rw [Write.onSession_gameIp, hfor.address]
  · have hsame : (w.onSession s.now r).playerIdentityId = r.playerIdentityId := congrArg Prod.fst hplayer
    rw [hsame]
    exact hfor.player.keep (Write.players_keep hw)

theorem NonceTask.Issues.move {n : NonceTask} (h : n.Issues P s.db) (hm : Move P s s') : n.Issues P s'.db := by
  obtain ⟨w, hw⟩ := hm.exists_write
  unfold NonceTask.Issues at h ⊢
  cases hp : n.point with
  | auth | refused => exact trivial
  | upsertPlayer auth body =>
    rw [hp] at h
    exact h
  | createSession auth body playerIdentityId =>
    rw [hp] at h
    exact ⟨h.1, h.2.keep (Write.players_keep hw)⟩
  | touchServer auth session =>
    rw [hp] at h
    obtain ⟨body, hreads, hrow⟩ := h
    exact ⟨body, hreads, ForPlayer.move hrow hm⟩
  | issued session answer =>
    rw [hp] at h
    obtain ⟨auth, body, hreads, hrow⟩ := h
    exact ⟨auth, body, hreads, ForPlayer.move hrow hm⟩

/-- one turn of a nonce request -/
theorem NonceTask.Turn.issues {uuid : Uuid} {w : Write} {n : NonceTask} {pt : NoncePoint} (h : n.Issues P s.db)
    (hturn : n.Turn P s.now uuid s.db w pt) (hw : w.exec s.now s.db = .ok s'.db) (hm : Move P s s') :
    NonceTask.Issues P s'.db { n with point := pt } := by
  cases hturn with
  | unauthorized | malformed | mismatch | refused => exact trivial
  | authorized hp ha hb hid => exact ⟨hb, hid⟩
  | @upserted auth body hp hn =>
    have hreads : n.Reads auth body := by
      unfold NonceTask.Issues at h
      rw [hp] at h
      exact h
    exact ⟨⟨hreads.parsed, hreads.server⟩, Write.upsertPlayer_player hw⟩
  | @created auth body playerIdentityId gameIp hp hip =>
    have hknown : n.Reads auth body ∧
        s.db.players.Has Row.key (playerIdentityId, auth.tenant.id, body.player.license) := by
      unfold NonceTask.Issues at h
      rw [hp] at h
      exact h
    obtain ⟨hreads, hplayer⟩ := hknown
    exact ⟨body, ⟨hreads.parsed, hreads.server⟩, _, (createSession_fresh hw).1, rfl, rfl, rfl, hip,
      hplayer.keep (Write.players_keep hw)⟩
  | @touched auth session hp =>
    have hnext := h.move hm
    unfold NonceTask.Issues at hnext
    rw [hp] at hnext
    obtain ⟨body, hreads, hrow⟩ := hnext
    exact ⟨auth, body, ⟨hreads.parsed, hreads.server⟩, hrow⟩
  | @issued session answer hp =>
    have hnext := h.move hm
    unfold NonceTask.Issues at hnext
    rw [hp] at hnext
    obtain ⟨auth, body, hreads, hrow⟩ := hnext
    exact ⟨auth, body, ⟨hreads.parsed, hreads.server⟩, hrow⟩

/-- **Every nonce request knows it.** -/
theorem Reachable.issues (h : Reachable P s) : ∀ pid n, s.task pid = some (.nonce n) → n.Issues P s.db := by
  refine h.inv (fun s => ∀ pid n, s.task pid = some (.nonce n) → n.Issues P s.db) ?_ ?_
  · intro s hs pid n ht
    rw [System.task, hs.procs] at ht
    cases ht
  · intro s s' hi hm pid n ht
    obtain hsame | ⟨hauth, _⟩ | ⟨uuid, w, m, pt, hmt, rfl, hturn, hw, _⟩ := hm.of_nonce ht
    · exact (hi pid n hsame).move hm
    · unfold NonceTask.Issues
      rw [hauth]
      exact trivial
    · exact hturn.issues (hi pid m hmt) hw hm

/-- the session a request has created has the nonce it was answered with -/
theorem Reachable.issued_nonce (h : Reachable P s) {pid : Nat} {n : NonceTask} {session : SessionRow}
    (hn : s.task pid = some (.nonce n)) (hs : n.point.session? = some session) :
    HasNonce P s.db n.nonce session.id := by
  have hissuance := h.issuance
  obtain ⟨r, hr, hid⟩ := hissuance.row pid n session hn hs
  obtain ⟨q, m, hm, hby⟩ := hissuance.issuer r hr
  obtain ⟨session', hs', hid'⟩ := hby.session
  have hpid : pid = q := hissuance.unique pid q n m session session' hn hm hs hs' (hid.symm.trans hid'.symm)
  subst hpid
  rw [hn] at hm
  cases hm
  exact ⟨r, hr, hid, hby.nonceHash⟩

end Backend
