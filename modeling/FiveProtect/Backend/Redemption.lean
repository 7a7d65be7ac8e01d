import FiveProtect.Backend.Deployment
import FiveProtect.Backend.Turns

/-!
# A nonce is redeemed at most once

`consumeNonce` is a conditional `UPDATE` and, when that finds no row, a `SELECT`; other requests and
the sweep write the row in between.  The invariant ties the claims (`System.claim?`) to the rows:

* `Claim.Of`      what a claim knows of its row, kept by every later statement;
* `Redemption`    every claim has its row, a row has at most one claim, a consumed row has one;
* `Stored`        a snapshot belongs to a claim, a session has at most one;
* `Losers`        what a call that claimed nothing returns.
-/

namespace Backend
open Protocol Function

variable {P : Platform} {s s' : System}

/-! ## claims and rows -/

/-- what a claim knows of its row -/
structure Claim.Of (P : Platform) (now : Time) (c : Claim) (r : AttestationSession) : Prop where
  id : c.session.id = r.id
  tenantId : c.session.tenantId = r.tenantId
  policyTier : c.session.policyTier = r.policyTier
  gameIp : c.session.gameIp = P.inetHost r.gameIp
  expiresAt : c.session.expiresAt = r.expiresAt
  nonceHash : r.nonceHash = hashNonce P c.request.nonce
  attestationIp : ∃ ip, P.inetIn c.clientIp = some ip ∧ r.attestationIp = some ip
  consumedAt : ∃ t, c.session.consumedAt = some t ∧ r.consumedAt = some t ∧ t < r.expiresAt ∧ t ≤ now
  nonceSealed : r.nonceSealed = none

theorem Claim.Of.consumed {now : Time} {c : Claim} {r : AttestationSession} (h : c.Of P now r) :
    r.consumedAt ≠ none := by
  obtain ⟨t, _, ht, _⟩ := h.consumedAt
  rw [ht]
  exact Option.some_ne_none t

/-- a statement keeps it, and so does time -/
theorem Claim.Of.next {now now' : Time} {c : Claim} {r : AttestationSession} (h : c.Of P now r)
    (hle : now ≤ now') (w : Write) : c.Of P now' (w.onSession now r) := by
  obtain ⟨hconsumed, hip, hsealed⟩ := @Write.onSession_consumed now w _ h.consumed
  refine ⟨?_, ?_, ?_, ?_, ?_, ?_, ?_, ?_, ?_⟩
  · rw [Write.onSession_id, h.id]
  · rw [Write.onSession_tenantId, h.tenantId]
  · rw [Write.onSession_policyTier, h.policyTier]
  · rw [Write.onSession_gameIp, h.gameIp]
  · rw [Write.onSession_expiresAt, h.expiresAt]
  · rw [Write.onSession_nonceHash, h.nonceHash]
  · rw [hip]
    exact h.attestationIp
  · obtain ⟨t, h1, h2, h3, h4⟩ := h.consumedAt
    exact ⟨t, h1, hconsumed.trans h2, by rwa [Write.onSession_expiresAt], h4.trans hle⟩
  · rw [hsealed, h.nonceSealed]

/-- the claim of a claiming `UPDATE` -/
theorem Claim.of_claim {now : Time} {db : Db} {a : AttestTask} {ip : Inet} {r : AttestationSession}
    (hip : P.inetIn a.clientIp = some ip) (hr : findClaimable P now db a.request.nonce = some r) :
    Claim.Of P now ⟨a.request, a.clientIp, (r.claim now ip).columns P⟩ (r.claim now ip) := by
  obtain ⟨_, hhash, _, hlt⟩ := of_findClaimable P hr
  exact ⟨rfl, rfl, rfl, rfl, rfl, hhash, ⟨ip, hip, rfl⟩, ⟨now, rfl, rfl, hlt, le_refl now⟩, rfl⟩

structure Redemption (P : Platform) (s : System) : Prop where
  /-- every claim has its row -/
  claimed : ∀ pid c, s.claim? pid = some c → ∃ r ∈ s.db.sessions, c.Of P s.now r
  /-- a row has at most one claim -/
  unique : ∀ p q c d, s.claim? p = some c → s.claim? q = some d → c.session.id = d.session.id →
    p = q
  /-- a consumed row has one -/
  source : ∀ r ∈ s.db.sessions, r.consumedAt ≠ none →
    ∃ pid c, s.claim? pid = some c ∧ c.session.id = r.id

/-- a move that makes no claim consumes no row -/
theorem Move.consumedAt_eq (h : Move P s s') (hclaims : s'.claim? = s.claim?) :
    ∀ r' ∈ s'.db.sessions, r'.consumedAt ≠ none →
      ∃ r ∈ s.db.sessions, r.id = r'.id ∧ r.consumedAt ≠ none := by
  intro r' hr' hne
  obtain ⟨w, hw, hissue⟩ := h.write
  by_cases hc : ∃ digest ip, w = .consumeNonce digest ip
  · obtain ⟨digest, ip, rfl⟩ := hc
    obtain h0 | h0 | ⟨pid, uuid, t, t', ht, hexec, _, htask⟩ := hissue
    · cases h0
    · cases h0
    obtain ⟨a, pt, rfl, hp, rfl, hip, rfl, hcase⟩ := Task.exec_consumeNonce hexec
    obtain ⟨_, hfind⟩ | ⟨r, _, rfl⟩ := hcase
    · rw [consumeNonce_of_none P hfind hw] at hr'
      exact ⟨r', hr', rfl, hne⟩
    · have hnew := congrFun (System.claim?_update htask) pid
      rw [update_self, hclaims, System.claim?_of_task ht] at hnew
      simp [Task.claim?, AttestTask.claim?, AttestPoint.session?, hp] at hnew
  · obtain ⟨r, hr, rfl⟩ | hins := (Write.mem_sessions hw).mp hr'
    · rw [(Write.onSession_unclaimed fun d i he => hc ⟨d, i, he⟩).1] at hne
      exact ⟨r, hr, (Write.onSession_id _ _ _).symm, hne⟩
    · exact absurd (Move.newSession_fresh hissue hins).consumedAt hne

theorem Redemption.initial (h : s.Initial) : Redemption P s := by
  have hclaim : ∀ pid, s.claim? pid = none := fun pid => by
    rw [System.claim?, System.task, h.procs]
    rfl
  have hrows : ∀ r, ¬ r ∈ s.db.sessions := fun r => by
    rw [h.sessions]
    exact Table.not_mem_empty r
  refine ⟨fun pid c hc => ?_, fun p q c d hc => ?_, fun r hr => absurd hr (hrows r)⟩
  · rw [hclaim] at hc
    cases hc
  · rw [hclaim] at hc
    cases hc

theorem Redemption.move (hi : Redemption P s) (h : Move P s s') : Redemption P s' := by
  obtain ⟨w, hw⟩ := h.exists_write
  have hmem : ∀ r ∈ s.db.sessions, w.onSession s.now r ∈ s'.db.sessions := fun r hr =>
    (Write.mem_sessions hw).mpr (.inl ⟨r, hr, rfl⟩)
  have hold : ∀ pid c, s.claim? pid = some c → ∃ r ∈ s'.db.sessions, c.Of P s'.now r := by
    intro pid c hc
    obtain ⟨r, hr, hof⟩ := hi.claimed pid c hc
    exact ⟨_, hmem r hr, hof.next h.now_le w⟩
  obtain hclaims | ⟨pid, a, ip, r, new⟩ := h.claims
  · refine ⟨?_, ?_, ?_⟩
    · rw [hclaims]
      exact hold
    · rw [hclaims]
      exact hi.unique
    · intro r' hr' hne
      obtain ⟨r, hr, hid, hc⟩ := h.consumedAt_eq hclaims r' hr' hne
      rw [hclaims, ← hid]
      exact hi.source r hr hc
  · obtain ⟨hr, _, hunconsumed, _⟩ := of_findClaimable P new.found
    -- the new claim is the first one of its row
    have hfirst : ∀ q d, s.claim? q = some d → d.session.id ≠ r.id := by
      intro q d hd hid
      obtain ⟨x, hx, hof⟩ := hi.claimed q d hd
      have hxr : x = r := Db.eq_of_id hx hr (hof.id.symm.trans hid)
      exact hof.consumed (hxr ▸ hunconsumed)
    refine ⟨?_, ?_, ?_⟩
    · intro q c hc
      rw [new.claim'] at hc
      by_cases hq : q = pid
      · subst hq
        rw [update_self] at hc
        cases hc
        refine ⟨r.claim s.now ip, ?_, ?_⟩
        · have := (Write.mem_sessions new.exec).mpr (.inl ⟨r, hr, rfl⟩)
          rwa [onSession_consumeNonce P new.found hr, if_pos rfl] at this
        · rw [new.now]
          exact Claim.of_claim new.inet new.found
      · rw [update_of_ne hq] at hc
        exact hold q c hc
    · intro p q c d hc hd hid
      rw [new.claim'] at hc hd
      by_cases hp : p = pid
      · by_cases hq : q = pid
        · rw [hp, hq]
        · subst hp
          rw [update_self] at hc
          rw [update_of_ne hq] at hd
          cases hc
          exact absurd hid.symm (hfirst q d hd)
      · rw [update_of_ne hp] at hc
        by_cases hq : q = pid
        · subst hq
          rw [update_self] at hd
          cases hd
          exact absurd hid (hfirst p c hc)
        · rw [update_of_ne hq] at hd
          exact hi.unique p q c d hc hd hid
    · intro r' hr' hne
      obtain ⟨x, hx, rfl⟩ | hins := (Write.mem_sessions new.exec).mp hr'
      · rw [onSession_consumeNonce P new.found hx] at hne ⊢
        rw [new.claim']
        split at hne
        · rename_i hid
          rw [if_pos hid]
          exact ⟨pid, _, update_self .., rfl⟩
        · rename_i hid
          rw [if_neg hid]
          obtain ⟨q, c, hc, hcid⟩ := hi.source x hx hne
          have hq : q ≠ pid := by
            rintro rfl
            rw [new.claim_none] at hc
            cases hc
          exact ⟨q, c, by rw [update_of_ne hq, hc], hcid⟩
      · cases hins

theorem Reachable.redemption (h : Reachable P s) : Redemption P s :=
  h.inv _ (fun _ => Redemption.initial) fun _ _ => Redemption.move

/-! ## snapshots -/

/-- the snapshots after a move: one more, from the turn after a claim, or the same -/
theorem Move.snapshots (h : Move P s s') : s'.db.snapshots.rows = s.db.snapshots.rows ∨
    ∃ pid a session row, s.task pid = some (.attest a) ∧ a.point = .storeSnapshot session ∧
      row.sessionId = session.id ∧ row.tenantId = session.tenantId ∧
      row.payload = a.request.snapshot ∧
      s'.db.snapshots.rows = s.db.snapshots.rows ++ [row] ∧
      s'.task = update s.task pid (some (.attest { a with point := .isBuildAccepted session })) := by
  obtain ⟨w, hw, hissue⟩ := h.write
  have hrows := Write.mem_snapshots hw
  cases w with
  | storeSnapshot row =>
    obtain h0 | h0 | ⟨pid, uuid, t, t', ht, hexec, _, htask⟩ := hissue
    · cases h0
    · cases h0
    obtain ⟨a, session, rfl, hp, hsession, htenant, hpayload, _, rfl⟩ :=
      Task.exec_storeSnapshot hexec
    exact .inr ⟨pid, a, session, row, ht, hp, hsession, htenant, hpayload, hrows, htask⟩
  | _ => exact .inl (hrows.trans (List.append_nil _))

/-- where an attestation that is about to store its snapshot came from -/
theorem Move.of_storing (h : Move P s s') {pid : Nat} {a' : AttestTask} {session : SessionRow}
    (ht : s'.task pid = some (.attest a')) (hp : a'.point = .storeSnapshot session) :
    s.task pid = some (.attest a') ∨
      ∃ a ip r, NewClaim P s s' pid a ip r ∧ session = (r.claim s.now ip).columns P := by
  obtain hsame | ⟨hstart, _⟩ | ⟨uuid, w, a, pt, ht₀, rfl, hturn, hw, hnow, htask⟩ := h.of_attest ht
  · exact .inl hsame
  · rw [hstart] at hp
    cases hp
  · cases hturn with
    | @claimed ip r hpc hip hr =>
      cases hp
      exact .inr ⟨a, ip, r, ⟨ht₀, hpc, hip, hr, hw, hnow, htask, System.claim?_update htask⟩, rfl⟩
    | unclaimed | classified | stored | lookedUp | evaluated | recorded | rejected | accepted =>
      cases hp

structure Stored (s : System) : Prop where
  /-- a snapshot belongs to a claim -/
  owner : ∀ p ∈ s.db.snapshots, ∃ pid c, s.claim? pid = some c ∧ c.session.id = p.sessionId ∧
    c.session.tenantId = p.tenantId ∧ c.request.snapshot = p.payload
  /-- a session has at most one -/
  once : s.db.snapshots.rows.Pairwise fun p q => p.sessionId ≠ q.sessionId
  /-- and none before its attestation stores it -/
  fresh : ∀ pid a session, s.task pid = some (.attest a) → a.point = .storeSnapshot session →
    ∀ p ∈ s.db.snapshots, p.sessionId ≠ session.id

theorem Stored.initial (h : s.Initial) : Stored s := by
  have hrows : s.db.snapshots.rows = [] := by rw [h.snapshots]; rfl
  refine ⟨?_, ?_, ?_⟩
  · intro p hp
    rw [Table.mem_def, hrows] at hp
    cases hp
  · rw [hrows]
    exact List.Pairwise.nil
  · intro _ _ _ _ _ p hp
    rw [Table.mem_def, hrows] at hp
    cases hp

theorem claim?_of_storing {pid : Nat} {a : AttestTask} {session : SessionRow}
    (ht : s.task pid = some (.attest a)) (hp : a.point = .storeSnapshot session) :
    s.claim? pid = some ⟨a.request, a.clientIp, session⟩ := by
  rw [System.claim?_of_task ht, Task.claim?, AttestTask.claim?, hp]
  rfl

/-- claims are kept -/
theorem Move.claim_mono (h : Move P s s') {pid : Nat} {c : Claim} (hc : s.claim? pid = some c) :
    s'.claim? pid = some c := by
  obtain hclaims | ⟨q, a, ip, r, new⟩ := h.claims
  · rw [hclaims, hc]
  · have hq : pid ≠ q := by
      rintro rfl
      rw [new.claim_none] at hc
      cases hc
    rw [new.claim', update_of_ne hq, hc]

theorem Stored.move (hr : Redemption P s) (hi : Stored s) (h : Move P s s') : Stored s' := by
  -- an attestation about to store: no snapshot of its session was there before this move
  have hfresh : ∀ pid a session, s'.task pid = some (.attest a) →
      a.point = .storeSnapshot session → ∀ p ∈ s.db.snapshots, p.sessionId ≠ session.id := by
    intro pid a session ht hp p hps
    obtain hsame | ⟨a₀, ip, r, new, rfl⟩ := h.of_storing ht hp
    · exact hi.fresh pid a session hsame hp p hps
    · rintro hid
      obtain ⟨q, c, hc, hcid, _⟩ := hi.owner p hps
      obtain ⟨x, hx, hof⟩ := hr.claimed q c hc
      obtain ⟨hrs, _, hnone, _⟩ := of_findClaimable P new.found
      have hxr : x = r := Db.eq_of_id hx hrs (hof.id.symm.trans (hcid.trans hid))
      exact hof.consumed (hxr ▸ hnone)
  obtain hrows | ⟨pid, a, session, row, ht, hp, hsession, htenant, hpayload, hrows, htask⟩ :=
    h.snapshots
  · refine ⟨?_, ?_, ?_⟩
    · intro p hps
      rw [Table.mem_def, hrows] at hps
      obtain ⟨q, c, hc, hrest⟩ := hi.owner p hps
      exact ⟨q, c, h.claim_mono hc, hrest⟩
    · rw [hrows]
      exact hi.once
    · intro pid a session ht hp p hps
      rw [Table.mem_def, hrows] at hps
      exact hfresh pid a session ht hp p hps
  · have hclaim := claim?_of_storing ht hp
    refine ⟨?_, ?_, ?_⟩
    · intro p hps
      rw [Table.mem_def, hrows, List.mem_append, List.mem_singleton] at hps
      obtain hps | rfl := hps
      · obtain ⟨q, c, hc, hrest⟩ := hi.owner p hps
        exact ⟨q, c, h.claim_mono hc, hrest⟩
      · exact ⟨pid, _, h.claim_mono hclaim, hsession.symm, htenant.symm, hpayload.symm⟩
    · rw [hrows, List.pairwise_append]
      refine ⟨hi.once, List.pairwise_singleton _ _, fun p hps x hx => ?_⟩
      rw [List.mem_singleton] at hx
      rw [hx, hsession]
      exact hi.fresh pid a session ht hp p hps
    · intro q b session' ht' hp' p hps
      rw [Table.mem_def, hrows, List.mem_append, List.mem_singleton] at hps
      obtain hps | rfl := hps
      · exact hfresh q b session' ht' hp' p hps
      · intro hid
        -- two claims of one session would be one request, which is a turn further by now
        have hclaim' := claim?_of_storing ht' hp'
        have hq : pid = q := (hr.move h).unique pid q _ _ (h.claim_mono hclaim) hclaim'
          (hsession.symm.trans hid)
        subst hq
        rw [htask, update_self] at ht'
        cases ht'
        cases hp'

theorem Reachable.stored (h : Reachable P s) : Stored s :=
  (h.inv (fun s => Redemption P s ∧ Stored s)
    (fun _ h0 => ⟨Redemption.initial h0, Stored.initial h0⟩)
    fun _ _ hi hm => ⟨hi.1.move hm, hi.2.move hi.1 hm⟩).2

/-! ## calls that claim nothing -/

/-- what `consumeNonce` returned to a request, once it has returned -/
def AttestPoint.consumeResult? : AttestPoint → Option ConsumeResult
  | .rejected result _ => some result
  | pt => pt.session?.map .consumed

/-- what a rejected call was told is so: the row it names has the digest of its nonce, and it is
consumed if the call was told so -/
def Told (P : Platform) (db : Db) (nonce : String) : ConsumeResult → Prop
  | .consumed _ => False
  | .unknown => True
  | .already_consumed row => ∃ r ∈ db.sessions, r.id = row.id ∧ r.nonceHash = hashNonce P nonce ∧
      r.consumedAt ≠ none
  | .expired row => row.consumedAt = none ∧
      ∃ r ∈ db.sessions, r.id = row.id ∧ r.nonceHash = hashNonce P nonce

theorem findByHash_some {db : Db} {nonce : String} {session : SessionRow}
    (h : findByHash P db nonce = some session) : ∃ r ∈ db.sessions, session = r.columns P ∧
      r.nonceHash = hashNonce P nonce := by
  obtain ⟨r, hr, rfl⟩ := Option.map_eq_some_iff.mp h
  obtain ⟨hmem, hhash⟩ := Table.mem_of_find hr
  exact ⟨r, hmem, rfl, beq_iff_eq.mp hhash⟩

theorem told_classify (db : Db) (nonce : String) :
    Told P db nonce (AttestTask.classify (findByHash P db nonce)) := by
  cases hf : findByHash P db nonce with
  | none => exact trivial
  | some row =>
    obtain ⟨r, hr, rfl, hhash⟩ := findByHash_some hf
    by_cases hc : r.consumedAt = none
    · simp only [AttestTask.classify, AttestationSession.columns, hc, ne_eq, not_true_eq_false,
        if_false]
      exact ⟨rfl, r, hr, rfl, hhash⟩
    · simp only [AttestTask.classify, AttestationSession.columns, hc, ne_eq, not_false_eq_true,
        if_true]
      exact ⟨r, hr, rfl, hhash, hc⟩

/-- a statement keeps it -/
theorem Told.next {db db' : Db} {nonce : String} {result : ConsumeResult} {now : Time} {w : Write}
    (h : Told P db nonce result) (hw : w.exec now db = .ok db') : Told P db' nonce result := by
  cases result with
  | consumed _ => exact h
  | unknown => exact trivial
  | already_consumed row =>
    obtain ⟨r, hr, hid, hhash, hc⟩ := h
    refine ⟨_, (Write.mem_sessions hw).mpr (.inl ⟨r, hr, rfl⟩), ?_, ?_, ?_⟩
    · rw [Write.onSession_id, hid]
    · rw [Write.onSession_nonceHash, hhash]
    · rw [(Write.onSession_consumed hc).1]
      exact hc
  | expired row =>
    obtain ⟨hnone, r, hr, hid, hhash⟩ := h
    refine ⟨hnone, _, (Write.mem_sessions hw).mpr (.inl ⟨r, hr, rfl⟩), ?_, ?_⟩
    · rw [Write.onSession_id, hid]
    · rw [Write.onSession_nonceHash, hhash]

def Losers (P : Platform) (s : System) : Prop :=
  ∀ pid a result e, s.task pid = some (.attest a) → a.point = .rejected result e →
    Told P s.db a.request.nonce result

theorem Losers.initial (h : s.Initial) : Losers P s := by
  intro pid _ _ _ ht
  rw [System.task, h.procs] at ht
  cases ht

theorem Losers.move (hi : Losers P s) (h : Move P s s') : Losers P s' := by
  obtain ⟨w₀, hw₀⟩ := h.exists_write
  intro pid a result e ht hp
  obtain hsame | ⟨hstart, _⟩ | ⟨uuid, w, b, pt, ht₀, rfl, hturn, hw, _⟩ := h.of_attest ht
  · exact (hi pid a result e hsame hp).next hw₀
  · rw [hstart] at hp
    cases hp
  · subst hp
    cases hturn with
    | rejected hp => exact (hi pid b result e ht₀ hp).next hw₀
    | classified _ => exact (told_classify s.db b.request.nonce).next hw

theorem Reachable.losers (h : Reachable P s) : Losers P s :=
  h.inv _ (fun _ => Losers.initial) fun _ _ => Losers.move

/-- a turn that leaves a request without a claim commits nothing, if the request is an
attestation -/
theorem unchanged_of_no_claim {e : Event} {pid : Nat} {a : AttestTask} (he : e.pid? = some pid)
    (ha : s.task pid = some (.attest a)) (h : System.step P e s = some s')
    (hc : s'.claim? pid = none) : s'.db = s.db := by
  obtain ⟨t, ht, ⟨hdb, _⟩ | ⟨uuid, w, t', hexec, hw, htask⟩⟩ := System.step_of_pid he h
  · exact hdb
  · rw [ha] at ht
    cases ht
    obtain ⟨pt, rfl, hturn⟩ := Task.exec_attest hexec
    have hpt : pt.session? = none := by
      rw [System.claim?_update htask, update_self] at hc
      exact Option.map_eq_none_iff.mp hc
    cases hturn with
    | unclaimed _ _ hnone => exact consumeNonce_of_none P hnone hw
    | classified _ | rejected _ => exact (Except.ok.inj hw).symm
    | claimed | stored | lookedUp | evaluated | recorded | accepted => cases hpt

/-! ## the claim on single use -/

/-- single use, for one state of a run; results stay, so "ever" is "in the state" -/
structure RedeemedOnce (P : Platform) (s : System) : Prop where
  /-- at most one call with a nonce returned `consumed` -/
  once : ∀ p q a b ses ses', s.task p = some (.attest a) → s.task q = some (.attest b) →
    a.point.consumeResult? = some (.consumed ses) →
    b.point.consumeResult? = some (.consumed ses') → a.request.nonce = b.request.nonce → p = q
  /-- strictly before the nonce expired -/
  in_time : ∀ p a ses, s.task p = some (.attest a) →
    a.point.consumeResult? = some (.consumed ses) →
    ∃ t, ses.consumedAt = some t ∧ t < ses.expiresAt ∧ t ≤ s.now
  /-- every other call returned `unknown`, `expired` or `already_consumed`, and rightly so -/
  others : ∀ p a result, s.task p = some (.attest a) → a.point.consumeResult? = some result →
    (∀ ses, result ≠ .consumed ses) → Told P s.db a.request.nonce result
  /-- and changes nothing, in no turn -/
  unchanged : ∀ p a e s', s.task p = some (.attest a) → e.pid? = some p →
    System.step P e s = some s' →
    (∀ b ses, s'.task p = some (.attest b) → b.point.consumeResult? ≠ some (.consumed ses)) →
    s'.db = s.db
  /-- a session has at most one snapshot, the one its winning request sent -/
  snapshot : ∀ r ∈ s.db.sessions, (s.db.snapshots.select fun p => p.sessionId == r.id).length ≤ 1 ∧
    ∀ snap ∈ s.db.snapshots, snap.sessionId = r.id → ∃ p a ses, s.task p = some (.attest a) ∧
      a.point.consumeResult? = some (.consumed ses) ∧ ses.id = r.id ∧
      snap.payload = a.request.snapshot

/-- a call that returned `consumed` has a claim -/
theorem claim?_of_consumed (hl : Losers P s) {pid : Nat} {a : AttestTask} {session : SessionRow}
    (ht : s.task pid = some (.attest a))
    (h : a.point.consumeResult? = some (.consumed session)) :
    s.claim? pid = some ⟨a.request, a.clientIp, session⟩ := by
  have hs : a.point.session? = some session := by
    cases hp : a.point with
    | rejected result e =>
      rw [hp] at h
      cases h
      exact absurd (hl pid a _ e ht hp) id
    | claim | classify =>
      rw [hp] at h
      cases h
    | _ =>
      rw [hp] at h
      cases h
      rfl
  rw [System.claim?_of_task ht, Task.claim?, AttestTask.claim?, hs]
  rfl

/-- a claim is a call that returned `consumed` -/
theorem consumed_of_claim? {pid : Nat} {c : Claim} (h : s.claim? pid = some c) :
    ∃ a, s.task pid = some (.attest a) ∧
      a.point.consumeResult? = some (.consumed c.session) ∧ a.request = c.request ∧
      a.clientIp = c.clientIp := by
  obtain ⟨t, ht, hc⟩ := Option.bind_eq_some_iff.mp h
  cases t with
  | attest a =>
    obtain ⟨session, hs, rfl⟩ := Option.map_eq_some_iff.mp hc
    refine ⟨a, ht, ?_, rfl, rfl⟩
    cases hp : a.point with
    | claim | classify | rejected =>
      rw [hp] at hs
      cases hs
    | _ =>
      rw [hp] at hs
      cases hs
      rfl
  | _ => cases hc

/-- at most one element of a list with pairwise different images has a given image -/
theorem length_filter_le_one {α β : Type} [DecidableEq β] {f : α → β} {l : List α} (b : β)
    (h : l.Pairwise fun x y => f x ≠ f y) : (l.filter fun x => f x == b).length ≤ 1 := by
  induction l with
  | nil => exact Nat.zero_le 1
  | cons x l ih =>
    obtain ⟨hx, hl⟩ := List.pairwise_cons.mp h
    by_cases hb : f x = b
    · have hnil : l.filter (fun y => f y == b) = [] :=
        List.filter_eq_nil_iff.mpr fun y hy => by
          rw [beq_iff_eq]
          exact fun he => hx y hy (hb.trans he.symm)
      simp [hb, hnil]
    · simpa [hb] using ih hl

/-- **A nonce is redeemed at most once.** -/
theorem nonce_redeemed_once (h : Reachable P s) : RedeemedOnce P s := by
  have hr := h.redemption
  have hl := h.losers
  have hs := h.stored
  refine ⟨?_, ?_, ?_, ?_, ?_⟩
  · intro p q a b ses ses' hp hq ha hb hnonce
    have hcp := claim?_of_consumed hl hp ha
    have hcq := claim?_of_consumed hl hq hb
    obtain ⟨r, hrs, hof⟩ := hr.claimed p _ hcp
    obtain ⟨x, hxs, hof'⟩ := hr.claimed q _ hcq
    -- one digest, one row, one claim
    have hhash : r.nonceHash = x.nonceHash := by
      rw [hof.nonceHash, hof'.nonceHash, hnonce]
    have hrx : r = x := Db.eq_of_nonceHash hrs hxs hhash
    exact hr.unique p q _ _ hcp hcq (hof.id.trans (hrx ▸ hof'.id.symm))
  · intro p a ses hp ha
    obtain ⟨r, _, hof⟩ := hr.claimed p _ (claim?_of_consumed hl hp ha)
    obtain ⟨t, ht, _, hlt, hle⟩ := hof.consumedAt
    exact ⟨t, ht, hof.expiresAt.symm ▸ hlt, hle⟩
  · intro p a result hp ha hne
    cases hpt : a.point with
    | rejected result' e =>
      rw [hpt] at ha
      cases ha
      exact hl p a result e hp hpt
    | claim | classify =>
      rw [hpt] at ha
      cases ha
    | _ =>
      rw [hpt] at ha
      cases ha
      exact absurd rfl (hne _)
  · intro p a e s' hp he hstep hloser
    refine unchanged_of_no_claim he hp hstep ?_
    cases hc : s'.claim? p with
    | none => rfl
    | some c =>
      obtain ⟨b, hb, hcons, _⟩ := consumed_of_claim? hc
      exact absurd hcons (hloser b c.session hb)
  · intro r _
    refine ⟨length_filter_le_one r.id hs.once, fun snap hsnap hid => ?_⟩
    obtain ⟨p, c, hc, hcid, _, hpayload⟩ := hs.owner snap hsnap
    obtain ⟨a, ha, hcons, hreq, _⟩ := consumed_of_claim? hc
    exact ⟨p, a, c.session, ha, hcons, hcid.trans hid, by rw [hreq, hpayload]⟩

open Deployment in
/-- the same attestation sent twice: the second is told so -/
theorem nonce_redeemed_once_sent_twice : ∃ s, after .fail_open (issue ++ attest [] ++
      [.request 3 (.attest "203.0.113.42" (attestBody []))] ++ turns 3 2) = some s ∧
    s.response 3 = some (.error (.conflict "nonce_reused" "the nonce was already used")) ∧
    s.db.snapshots.rows.length = 1 ∧ RedeemedOnce platform s := by
  obtain ⟨s, hs, hfacts⟩ := (Option.any_eq_true _ _).mp (show (after .fail_open (issue ++
    attest [] ++ [.request 3 (.attest "203.0.113.42" (attestBody []))] ++ turns 3 2)).any (fun s =>
      decide (s.response 3 =
        some (.error (.conflict "nonce_reused" "the nonce was already used")) ∧
          s.db.snapshots.rows.length = 1)) = true by
      simp only [after, attest, List.append_assoc, List.cons_append, Machine.run_append,
        run_attest no_notes (Nat.zero_le 32)]
      decide +kernel)
  obtain ⟨hres, hlen⟩ := of_decide_eq_true hfacts
  exact ⟨s, hs, hres, hlen, nonce_redeemed_once (reachable_after hs)⟩

end Backend
