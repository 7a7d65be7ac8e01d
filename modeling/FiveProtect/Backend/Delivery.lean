import FiveProtect.Backend.Redemption

/-!
# Nonce delivery answers the right session

A nonce is stored twice, as a digest and sealed under the deployment key.  `Issuance` ties both to
the request that issued the session, through every later statement; the poll of the companion opens
the sealed copy of the only pending session of its address.
-/

namespace Backend
open Protocol Function

variable {P : Platform} {s s' : System}

/-! ## issued sessions -/

/-- the session a nonce request has created -/
def NoncePoint.session? : NoncePoint → Option SessionRow
  | .touchServer _ session => some session
  | .issued session _ => some session
  | _ => none

/-- the server a nonce request was authorized for -/
def NoncePoint.auth? : NoncePoint → Option AuthenticatedServer
  | .upsertPlayer server _ => some server
  | .createSession server _ _ => some server
  | .touchServer server _ => some server
  | _ => none

/-- both stored forms of the nonce of a row are those of the request `n` -/
structure IssuedBy (P : Platform) (n : NonceTask) (r : AttestationSession) : Prop where
  session : ∃ session, n.point.session? = some session ∧ session.id = r.id
  nonceHash : r.nonceHash = hashNonce P n.nonce
  nonceSealed : r.nonceSealed = none ∨
    r.nonceSealed = some (sealNonce P.aes n.config.nonceSealKey n.iv n.nonce)

structure Issuance (P : Platform) (s : System) : Prop where
  /-- every row was issued by a request -/
  issuer : ∀ r ∈ s.db.sessions, ∃ pid n, s.task pid = some (.nonce n) ∧ IssuedBy P n r
  /-- every request that created a session has its row -/
  row : ∀ pid n session, s.task pid = some (.nonce n) → n.point.session? = some session →
    ∃ r ∈ s.db.sessions, r.id = session.id
  /-- and is the only one with it -/
  unique : ∀ p q n m ses ses', s.task p = some (.nonce n) → s.task q = some (.nonce m) →
    n.point.session? = some ses → m.point.session? = some ses' → ses.id = ses'.id → p = q
  /-- what it answers -/
  answer : ∀ pid n session a, s.task pid = some (.nonce n) → n.point = .issued session a →
    a = n.answer session
  /-- servers are not deleted -/
  server : ∀ pid n auth, s.task pid = some (.nonce n) → n.point.auth? = some auth →
    ∃ g ∈ s.db.gameServers, g.id = auth.server.id
  game : ∀ r ∈ s.db.sessions, ∃ g ∈ s.db.gameServers, g.id = r.gameServerId

/-- only the claiming `UPDATE` writes the sealed nonce, and only to clear it -/
theorem Write.onSession_nonceSealed {now : Time} {w : Write} {r : AttestationSession} :
    (w.onSession now r).nonceSealed = r.nonceSealed ∨ (w.onSession now r).nonceSealed = Option.none := by
  by_cases hw : ∃ digest ip, w = .consumeNonce digest ip
  · obtain ⟨digest, ip, rfl⟩ := hw
    simp only [onSession]
    split
    · exact .inr rfl
    · exact .inl rfl
  · exact .inl (onSession_unclaimed fun d i he => hw ⟨d, i, he⟩).2.2

theorem IssuedBy.next {n : NonceTask} {r : AttestationSession} (h : IssuedBy P n r) (now : Time)
    (w : Write) : IssuedBy P n (w.onSession now r) := by
  obtain ⟨session, hs, hid⟩ := h.session
  refine ⟨⟨session, hs, hid.trans (Write.onSession_id _ _ _).symm⟩, ?_, ?_⟩
  · rw [Write.onSession_nonceHash, h.nonceHash]
  · obtain heq | hnone := @Write.onSession_nonceSealed now w r
    · rw [heq]
      exact h.nonceSealed
    · exact .inl hnone

/-- servers keep their ids -/
theorem Move.server (h : Move P s s') {id : Uuid} (hg : ∃ g ∈ s.db.gameServers, g.id = id) :
    ∃ g ∈ s'.db.gameServers, g.id = id := by
  obtain ⟨w, hw⟩ := h.exists_write
  obtain ⟨g, hg, hid⟩ := hg
  obtain ⟨_, hg'⟩ := Write.server_stays hw hg
  exact ⟨_, hg', hid⟩

/-- a request that has created its session goes on without touching it -/
theorem NonceTask.Turn.session?_eq {now : Time} {uuid : Uuid} {db : Db} {w : Write}
    {n : NonceTask} {pt : NoncePoint} (h : n.Turn P now uuid db w pt) :
    pt.session? = n.point.session? ∨ ∃ auth playerIdentityId gameIp,
      n.point.auth? = some auth ∧ n.point.session? = none ∧
      w = .createSession (n.newSession P now uuid auth playerIdentityId gameIp) ∧
      pt = .touchServer auth ((n.newSession P now uuid auth playerIdentityId gameIp).columns P) := by
  cases h with
  | @created auth body playerIdentityId gameIp hp hip =>
    refine .inr ⟨auth, playerIdentityId, gameIp, ?_, ?_, rfl, rfl⟩ <;>
    · rw [hp]
      rfl
  | unauthorized hp | malformed hp | authorized hp | mismatch hp | upserted hp | touched hp =>
    left
    rw [hp]
    rfl
  | issued hp | refused hp =>
    left
    rw [hp]

theorem NonceTask.Turn.auth?_eq {now : Time} {uuid : Uuid} {db : Db} {w : Write}
    {n : NonceTask} {pt : NoncePoint} {auth : AuthenticatedServer}
    (h : n.Turn P now uuid db w pt) (ha : pt.auth? = some auth) :
    n.point.auth? = some auth ∨ requireServer P db n.authorization = .ok auth := by
  cases h with
  | authorized hp hauth =>
    cases ha
    exact .inr hauth
  | upserted hp | created hp =>
    cases ha
    left
    rw [hp]
    rfl
  | unauthorized | malformed | mismatch | touched | issued | refused => cases ha

theorem Issuance.initial (h : s.Initial) : Issuance P s := by
  have htask : ∀ pid, s.task pid = none := fun pid => by
    rw [System.task, h.procs]
    rfl
  have hrows : ∀ r, ¬ r ∈ s.db.sessions := fun r => by
    rw [h.sessions]
    exact Table.not_mem_empty r
  refine ⟨fun r hr => absurd hr (hrows r), fun _ _ _ ht => ?_, fun _ _ _ _ _ _ ht => ?_,
    fun _ _ _ _ ht => ?_, fun _ _ _ ht => ?_, fun r hr => absurd hr (hrows r)⟩ <;>
  · rw [htask] at ht
    cases ht

/-- a request that issued a session stays the issuer -/
theorem Move.issued_mono (h : Move P s s') {pid : Nat} {n : NonceTask} {session : SessionRow}
    (ht : s.task pid = some (.nonce n)) (hs : n.point.session? = some session) :
    ∃ pt, s'.task pid = some (.nonce { n with point := pt }) ∧ pt.session? = some session := by
  obtain hsame | ⟨uuid, w, t', hexec, _, ht'⟩ := h.task_some ht
  · exact ⟨n.point, hsame, hs⟩
  · obtain ⟨pt, rfl, hturn⟩ := Task.exec_nonce hexec
    refine ⟨pt, ht', ?_⟩
    obtain heq | ⟨_, _, _, _, hnone, _⟩ := hturn.session?_eq
    · rw [heq, hs]
    · rw [hs] at hnone
      cases hnone

/-- through every later statement -/
theorem IssuedBy.move {pid : Nat} {n : NonceTask} {r : AttestationSession} (h : IssuedBy P n r)
    (hm : Move P s s') (ht : s.task pid = some (.nonce n)) (w : Write) :
    ∃ m, s'.task pid = some (.nonce m) ∧ IssuedBy P m (w.onSession s.now r) := by
  obtain ⟨session, hs, hid⟩ := h.session
  obtain ⟨pt, ht', hs'⟩ := hm.issued_mono ht hs
  have hnext := h.next s.now w
  exact ⟨_, ht', ⟨session, hs', hid.trans (Write.onSession_id _ _ _).symm⟩, hnext.nonceHash,
    hnext.nonceSealed⟩

/-- a created session: it was there, or this is the turn that inserts it -/
theorem Move.of_created (h : Move P s s') {pid : Nat} {n : NonceTask} {session : SessionRow}
    (ht : s'.task pid = some (.nonce n)) (hs : n.point.session? = some session) :
    (∃ m, s.task pid = some (.nonce m) ∧ m.point.session? = some session) ∨
      ∃ m row, s.task pid = some (.nonce m) ∧ m.point.session? = none ∧
        (Write.createSession row).exec s.now s.db = .ok s'.db ∧ session.id = row.id ∧
        ∀ q, q ≠ pid → s'.task q = s.task q := by
  obtain hsame | ⟨hstart, _⟩ | ⟨uuid, w, m, pt, ht₀, rfl, hturn, hw, _, htask⟩ := h.of_nonce ht
  · exact .inl ⟨n, hsame, hs⟩
  · rw [hstart] at hs
    cases hs
  · obtain heq | ⟨auth, player, gameIp, _, hnone, rfl, rfl⟩ := hturn.session?_eq
    · exact .inl ⟨m, ht₀, heq ▸ hs⟩
    · cases hs
      exact .inr ⟨m, _, ht₀, hnone, hw, rfl, fun q hq => by rw [htask, update_of_ne hq]⟩

/-- an inserted row is new -/
theorem createSession_fresh {now : Time} {db db' : Db} {row : AttestationSession}
    (h : (Write.createSession row).exec now db = .ok db') :
    row ∈ db'.sessions ∧ ∀ r ∈ db.sessions, r.id ≠ row.id := by
  refine ⟨(Write.mem_sessions h).mpr (.inr rfl), fun r hr hid => ?_⟩
  obtain ⟨t', ht, _⟩ := Write.inserted_ok h
  unfold Table.insert at ht
  split at ht
  · rename_i hclash
    exact hclash r hr (by simp [Row.clash, Row.key, hid])
  · cases ht

theorem Issuance.move (hi : Issuance P s) (h : Move P s s') : Issuance P s' := by
  obtain ⟨w, hw, hissue⟩ := h.write
  have hmem : ∀ r ∈ s.db.sessions, w.onSession s.now r ∈ s'.db.sessions := fun r hr =>
    (Write.mem_sessions hw).mpr (.inl ⟨r, hr, rfl⟩)
  refine ⟨?_, ?_, ?_, ?_, ?_, ?_⟩
  · intro r' hr'
    obtain ⟨r, hr, rfl⟩ | hins := (Write.mem_sessions hw).mp hr'
    · obtain ⟨pid, n, ht, hby⟩ := hi.issuer r hr
      exact ⟨pid, hby.move h ht w⟩
    · cases w with
      | createSession row =>
        cases hins
        obtain h0 | h0 | ⟨pid, uuid, t, t', ht, hexec, _, htask⟩ := hissue
        · cases h0
        · cases h0
        obtain ⟨n, auth, body, player, gameIp, rfl, _, _, rfl, rfl⟩ :=
          Task.exec_createSession hexec
        refine ⟨pid, _, (congrFun htask pid).trans (update_self ..), ?_⟩
        exact ⟨⟨_, rfl, rfl⟩, rfl, .inr rfl⟩
      | _ => cases hins
  · intro pid n session ht hs
    obtain ⟨m, ht₀, hs₀⟩ | ⟨m, row, _, _, hw', hid, _⟩ := h.of_created ht hs
    · obtain ⟨r, hr, hid⟩ := hi.row pid m session ht₀ hs₀
      exact ⟨_, hmem r hr, (Write.onSession_id _ _ _).trans hid⟩
    · exact ⟨row, (createSession_fresh hw').1, hid.symm⟩
  · intro p q n m ses ses' hp hq hn hm hid
    obtain ⟨n₀, hp₀, hn₀⟩ | ⟨n₀, row, hp₀, hnone, hw', hrow, hrest⟩ := h.of_created hp hn
    · obtain ⟨m₀, hq₀, hm₀⟩ | ⟨m₀, row, _, _, hw', hrow, _⟩ := h.of_created hq hm
      · exact hi.unique p q n₀ m₀ ses ses' hp₀ hq₀ hn₀ hm₀ hid
      · obtain ⟨r, hr, hrid⟩ := hi.row p n₀ ses hp₀ hn₀
        exact absurd (hrid.trans (hid.trans hrow)) ((createSession_fresh hw').2 r hr)
    · obtain ⟨m₀, hq₀, hm₀⟩ | ⟨m₀, _, hq₀, hnone', _, _, _⟩ := h.of_created hq hm
      · obtain ⟨r, hr, hrid⟩ := hi.row q m₀ ses' hq₀ hm₀
        exact absurd (hrid.trans (hid.symm.trans hrow)) ((createSession_fresh hw').2 r hr)
      · by_contra hne
        rw [hrest q (Ne.symm hne), hq₀] at hq
        cases hq
        rw [hm] at hnone'
        cases hnone'
  · intro pid n session a ht hp
    obtain hsame | ⟨hstart, _⟩ | ⟨uuid, w', m, pt, ht₀, rfl, hturn, _⟩ := h.of_nonce ht
    · exact hi.answer pid n session a hsame hp
    · rw [hstart] at hp
      cases hp
    · subst hp
      cases hturn with
      | touched _ => rfl
      | issued hp => exact hi.answer pid m session a ht₀ hp
  · intro pid n auth ht ha
    obtain hsame | ⟨hstart, _⟩ | ⟨uuid, w', m, pt, ht₀, rfl, hturn, _⟩ := h.of_nonce ht
    · exact h.server (hi.server pid n auth hsame ha)
    · rw [hstart] at ha
      cases ha
    · obtain ha₀ | hauth := hturn.auth?_eq ha
      · exact h.server (hi.server pid m auth ht₀ ha₀)
      · exact h.server ⟨auth.server, (mem_of_requireServer hauth).2.1, rfl⟩
  · intro r' hr'
    obtain ⟨r, hr, rfl⟩ | hins := (Write.mem_sessions hw).mp hr'
    · rw [Write.onSession_gameServerId]
      exact h.server (hi.game r hr)
    · cases w with
      | createSession row =>
        cases hins
        obtain h0 | h0 | ⟨pid, uuid, t, t', ht, hexec, _, htask⟩ := hissue
        · cases h0
        · cases h0
        obtain ⟨n, auth, body, player, gameIp, rfl, hp, _, rfl, _⟩ :=
          Task.exec_createSession hexec
        exact h.server (hi.server pid n auth ht (by rw [hp]; rfl))
      | _ => cases hins

theorem Reachable.issuance (h : Reachable P s) : Issuance P s :=
  h.inv _ (fun _ => Issuance.initial) fun _ _ => Issuance.move

/-! ## the poll of the companion -/

theorem PendingTask.exec_found {now : Time} {db : Db} {w : Write} {t : PendingTask}
    {answer : CompanionPollResponse} (h : t.exec P now db = .ok (w, .answered answer))
    (hp : answer.pending = true) : t.point = .answered answer ∨
      t.point = .read ∧ ∃ x sealed nonce, findPendingByGameIp P now db t.origin = .ok [x] ∧
        x.nonceSealed = some sealed ∧ openNonce P.aes t.config.nonceSealKey sealed = some nonce ∧
        answer = found x nonce := by
  unfold exec at h
  split at h
  · rename_i hpt
    split at h
    · cases h
    · cases h
    · rename_i x hf
      split at h
      · cases h
      · rename_i sealed hs
        split at h
        · cases h
        · rename_i nonce ho
          cases h
          exact .inr ⟨hpt, x, sealed, nonce, hf, hs, ho, rfl⟩
    · cases h
  · split at h
    · cases h
      cases hp
    · cases h
  · cases h
  · rename_i hpt
    cases h
    exact .inl hpt
  · cases h

theorem Task.exec_pending_answer {now : Time} {uuid : Uuid} {db : Db} {w : Write} {t t' : Task}
    {answer : CompanionPollResponse} (h : t.exec P now uuid db = .ok (w, t'))
    (ha : t'.response = some (.pending answer)) :
    ∃ b, t = .pending b ∧ b.exec P now db = .ok (w, .answered answer) := by
  cases t with
  | pending b =>
    obtain ⟨⟨w', pt⟩, hx, he⟩ := map_ok h
    cases he
    refine ⟨b, rfl, ?_⟩
    have hpt : pt = .answered answer := by
      cases pt <;> simp_all [Task.response]
    rw [hx, hpt]
  | refused e =>
    cases h
    cases ha
  | nonce b | verdict b | liveness b | outcome b | attest b | heartbeat b =>
    obtain ⟨⟨w', pt⟩, _, he⟩ := map_ok h
    cases he
    cases pt <;> simp_all [Task.response]

theorem System.nonce_of_response {pid : Nat} {a : NonceResponse}
    (h : s.response pid = some (.nonce a)) : ∃ n session, s.task pid = some (.nonce n) ∧
      n.point = .issued session a := by
  obtain ⟨p, hp, hv⟩ := Option.bind_eq_some_iff.mp h
  unfold Proc.response at hv
  split at hv
  · cases hv
  · cases ht : p.task with
    | nonce n =>
      rw [ht] at hv
      refine ⟨n, ?_⟩
      rw [System.task_of_proc hp, ht]
      cases hpt : n.point with
      | issued session answer =>
        simp only [Task.response, hpt, Option.some.injEq, Response.nonce.injEq] at hv
        exact ⟨session, rfl, by rw [hv]⟩
      | _ => simp [Task.response, hpt] at hv
    | refused e =>
      rw [ht] at hv
      cases hv
    | verdict b | liveness b | pending b | outcome b | attest b | heartbeat b =>
      rw [ht] at hv
      simp only [Task.response] at hv
      split at hv <;> simp at hv

/-- what opens is what was sealed -/
theorem openNonce_eq (hA : P.aes.Lawful) {n : NonceTask} {key : SealKey} {nonce : String}
    (h : openNonce P.aes key (sealNonce P.aes n.config.nonceSealKey n.iv n.nonce) = some nonce) :
    nonce = n.nonce := by
  have hne : n.nonce ≠ "" := generateNonce_ne_empty n.entropy
  by_cases hk : n.config.nonceSealKey = key
  · rw [← hk, openNonce_sealNonce hA n.config.nonceSealKey n.iv hne] at h
    exact (Option.some.inj h).symm
  · rw [openNonce_other hA n.iv hne hk] at h
    cases h

/-- the answer `nonce` to a poll from `origin`, read in `s`, answers the right session -/
structure Delivers (P : Platform) (s : System) (origin nonce : String) : Prop where
  /-- one session in the whole database is unconsumed, unexpired and of this address -/
  one : ∃ ip, P.inetIn origin = some ip ∧ ∃! r, r ∈ s.db.sessions ∧ r.gameIp = ip ∧
    r.consumedAt = none ∧ s.now < r.expiresAt
  /-- it is the one an attestation with the nonce claims -/
  claims : ∃ ip r, P.inetIn origin = some ip ∧ r ∈ s.db.sessions ∧ r.gameIp = ip ∧
    findClaimable P s.now s.db nonce = some r ∧
    /- the nonce is the one of its `NonceResponse` -/
    (∃ pid n session, s.task pid = some (.nonce n) ∧ n.point.session? = some session ∧
      session.id = r.id ∧ n.nonce = nonce) ∧
    (∀ pid a, s.response pid = some (.nonce a) → a.sessionId = r.id → a.nonce = nonce) ∧
    /- and no other session is ever claimed with it -/
    ∀ s', Machine.Steps (System.step P) Machine.free s s' → ∀ x,
      findClaimable P s'.now s'.db nonce = some x → x.id = r.id

theorem pendingAt_iff {r : AttestationSession} {now : Time} {ip : Inet} :
    r.pendingAt now ip = true ↔ r.gameIp = ip ∧ r.consumedAt = none ∧ now < r.expiresAt := by
  simp only [AttestationSession.pendingAt, Bool.and_eq_true, beq_iff_eq, decide_eq_true_eq,
    Option.isNone_iff_eq_none, and_assoc]

/-- rows keep their digests in all later states -/
theorem row_of_steps {G : System → Event → Prop} (h : Machine.Steps (System.step P) G s s')
    {r : AttestationSession} (hr : r ∈ s.db.sessions) :
    ∃ r' ∈ s'.db.sessions, r'.id = r.id ∧ r'.nonceHash = r.nonceHash := by
  induction h with
  | refl => exact ⟨r, hr, rfl, rfl⟩
  | tail _ _ he ih =>
    obtain ⟨x, hx, hid, hhash⟩ := ih
    obtain ⟨w, hw⟩ := (System.step_move he).exists_write
    exact ⟨_, (Write.mem_sessions hw).mpr (.inl ⟨x, hx, rfl⟩),
      (Write.onSession_id _ _ _).trans hid, (Write.onSession_nonceHash _ _ _).trans hhash⟩

/-- a consumed session has no sealed nonce any more -/
theorem sealed_of_consumed (h : Reachable P s) {r : AttestationSession} (hr : r ∈ s.db.sessions)
    (hc : r.consumedAt ≠ none) : r.nonceSealed = none := by
  obtain ⟨pid, c, hclaim, hid⟩ := h.redemption.source r hr hc
  obtain ⟨x, hx, hof⟩ := h.redemption.claimed pid c hclaim
  rw [← Db.eq_of_id hx hr (hof.id.symm.trans hid)]
  exact hof.nonceSealed

theorem delivers_of_found (hA : P.aes.Lawful) (h : Reachable P s) {origin nonce : String}
    {key : SealKey} {x : PendingSessionRow} {sealed : List UInt8}
    (hf : findPendingByGameIp P s.now s.db origin = .ok [x]) (hs : x.nonceSealed = some sealed)
    (ho : openNonce P.aes key sealed = some nonce) : Delivers P s origin nonce := by
  have hiss := h.issuance
  obtain ⟨ip, hip, r, hr, hp, honly, hx⟩ := findPendingByGameIp_one P hiss.game hf
  obtain ⟨hgame, hnone, hlt⟩ := pendingAt_iff.mp hp
  obtain ⟨pid, n, ht, hby⟩ := hiss.issuer r hr
  obtain ⟨session, hses, hid⟩ := hby.session
  have hseal : sealed = sealNonce P.aes n.config.nonceSealKey n.iv n.nonce := by
    obtain h0 | h1 := hby.nonceSealed
    · rw [← hx, hs] at h0
      cases h0
    · rw [← hx, hs] at h1
      exact Option.some.inj h1
  subst hseal
  have hnonce : nonce = n.nonce := openNonce_eq hA ho
  subst hnonce
  refine ⟨⟨ip, hip, r, ⟨hr, hgame, hnone, hlt⟩, fun y hy => ?_⟩, ip, r, hip, hr, hgame, ?_,
    ⟨pid, n, session, ht, hses, hid, rfl⟩, ?_, ?_⟩
  · exact honly y hy.1 (pendingAt_iff.mpr hy.2)
  · refine Table.find_eq hr ?_ fun y _ hy => ?_
    · simp [AttestationSession.claimable, hby.nonceHash, hnone, hlt]
    · simp only [AttestationSession.claimable, Bool.and_eq_true, beq_iff_eq] at hy
      simp [Row.clash, Row.key, hy.1.1, hby.nonceHash]
  · intro q a hres hsid
    obtain ⟨m, ses, htm, hm⟩ := System.nonce_of_response hres
    obtain rfl := hiss.answer q m ses a htm hm
    have hq : q = pid := hiss.unique q pid m n ses session htm ht (by rw [hm]; rfl) hses
      (hsid.trans hid.symm)
    subst hq
    rw [ht] at htm
    cases htm
    rfl
  · intro s' hrun y hy
    obtain ⟨hys, hyhash, _⟩ := of_findClaimable P hy
    obtain ⟨r', hr', hid', hhash'⟩ := row_of_steps hrun hr
    rw [Db.eq_of_nonceHash hys hr' (hyhash.trans (hby.nonceHash.symm.trans hhash'.symm)), hid']

/-- **Nonce delivery answers the right session.** -/
theorem delivery_right (hA : P.aes.Lawful) (h : Reachable P s) :
    (∀ r ∈ s.db.sessions, r.consumedAt ≠ none → r.nonceSealed = none) ∧
    ∀ s' e pid answer, System.step P e s = some s' → s.response pid = none →
      s'.response pid = some (.pending answer) → answer.pending = true →
      ∃ t nonce, s.task pid = some (.pending t) ∧ answer.nonce = some nonce ∧
        Delivers P s t.origin nonce := by
  refine ⟨fun r hr hc => sealed_of_consumed h hr hc, fun s' e pid answer he hrun hres hp => ?_⟩
  obtain ⟨hres₀, _⟩ | ⟨er, her⟩ | ⟨uuid, w, t, t', _, ht, hgo, hexec, _, hans⟩ :=
    System.response_cases he hres
  · rw [hrun] at hres₀
    cases hres₀
  · cases her
  · obtain ⟨b, rfl, hx⟩ := Task.exec_pending_answer hexec hans
    obtain hpt | ⟨_, x, sealed, nonce, hf, hs, ho, rfl⟩ := PendingTask.exec_found hx hp
    · rw [Task.response, hpt] at hgo
      cases hgo
    · exact ⟨b, nonce, ht, rfl, delivers_of_found hA h hf hs ho⟩

/-- what the companion is told -/
def Deployment.delivered : CompanionPollResponse where
  pending := true
  nonce := some nonce
  serverName := some "server"
  policyTier := some .standard
  expiresAt := some "2026-08-04T14:10:11.412Z"
  protocolVersion := 1

open Deployment in
/-- the companion polls from the address of the only pending session -/
theorem delivery_right_polled : ∃ s s' t, after .fail_open (issue ++
      [.request 1 (.pending "203.0.113.42" pendingBody config)]) = some s ∧
    System.step platform (.exec 1 (Uuid.small 7)) s = some s' ∧
    s.task 1 = some (.pending t) ∧ s'.response 1 = some (.pending delivered) ∧
    delivered.nonce = some nonce ∧ Delivers platform s t.origin nonce := by
  obtain ⟨s, hs, hrest⟩ := (Option.any_eq_true _ _).mp (show (after .fail_open (issue ++
    [.request 1 (.pending "203.0.113.42" pendingBody config)])).any (fun s =>
      decide (s.response 1 = none) &&
      (System.step platform (.exec 1 (Uuid.small 7)) s).any fun s' =>
        decide (s'.response 1 = some (.pending delivered))) = true by decide +kernel)
  obtain ⟨hrun, hlater⟩ := Bool.and_eq_true_iff.mp hrest
  obtain ⟨s', hs', hres⟩ := (Option.any_eq_true _ _).mp hlater
  obtain ⟨t, n, ht, hn, hdeliver⟩ := (delivery_right gcm_lawful (reachable_after hs)).2 s' _ 1
    delivered hs' (of_decide_eq_true hrun) (of_decide_eq_true hres) rfl
  cases hn
  exact ⟨s, s', t, hs, hs', ht, of_decide_eq_true hres, rfl, hdeliver⟩

end Backend
