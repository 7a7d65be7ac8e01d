import FiveProtect.Backend.Stranded
import FiveProtect.Protocol.Formats

/-!
# What the schema lets in and the database does not take

A statement that raises ends its request in the last branch of `setErrorHandler`, with status 500.  The
schemas keep a UUID from doing so, but they look at an address only character by character, know no
U+0000 and no calendar of PostgreSQL, and there is no schema for a path parameter and for the address
of a client.

* `Task.Taken`     what PostgreSQL has to take in the next turn of a request;
* `runs_iff`       a turn goes through exactly if that is taken;
* `uuid_ofText`    every text that Zod takes for a UUID is one for PostgreSQL;
* `Handled`        no request has ended in the last branch;
* `handled_iff`    a run without faults keeps it exactly if every turn is taken.
-/

namespace Backend
open Protocol Function

variable {P : Platform} {now : Time} {uuid : Uuid} {db : Db}

/-! ## what is taken -/

/-- the texts of the player, his address, and new ids -/
def NonceTask.Taken (P : Platform) (uuid : Uuid) (db : Db) (t : NonceTask) : Prop :=
  match t.point with
  | .upsertPlayer auth body => (playerTexts body.player).all Text.noNul = true ∧
      (Write.hasPlayer db auth.tenant.id body.player.license = none → ∀ p ∈ db.players, p.id ≠ uuid)
  | .createSession _ body _ => (P.inetIn body.player.ip).isSome ∧
      ∀ r ∈ db.sessions, r.id ≠ uuid ∧ r.nonceHash ≠ hashNonce P t.nonce
  | _ => True

/-- the path parameter -/
def LivenessTask.Taken (t : LivenessTask) : Prop :=
  match t.point with
  | .read _ => (Uuid.ofText t.sessionId).isSome
  | _ => True

/-- the address of the client, without the prefix of a mapped one -/
def PendingTask.Taken (P : Platform) (t : PendingTask) : Prop :=
  match t.point with
  | .read => (P.inetIn t.origin).isSome
  | _ => True

/-- the address of the client, then the snapshot -/
def AttestTask.Taken (P : Platform) (uuid : Uuid) (db : Db) (t : AttestTask) : Prop :=
  match t.point with
  | .claim => (P.inetIn t.clientIp).isSome
  | .storeSnapshot _ => Storable P db uuid t
  | _ => True

/-- what PostgreSQL has to take in the next turn of a request -/
def Task.Taken (P : Platform) (uuid : Uuid) (db : Db) : Task → Prop
  | .nonce t => t.Taken P uuid db
  | .liveness t => t.Taken
  | .pending t => t.Taken P
  | .attest t => t.Taken P uuid db
  | _ => True

/-! ## UUIDs -/

theorem hexVal_isSome {c : Char} (h : Zod.isHex c = true) : ∃ d, Uuid.hexVal c = some d := by
  unfold Uuid.hexVal
  by_cases hdigit : '0' ≤ c ∧ c ≤ '9'
  · rw [if_pos hdigit]
    exact ⟨_, rfl⟩
  · by_cases hlower : 'a' ≤ c ∧ c ≤ 'f'
    · rw [if_neg hdigit, if_pos hlower]
      exact ⟨_, rfl⟩
    · have hupper : 'A' ≤ c ∧ c ≤ 'F' := by
        simp only [Zod.isHex, Zod.isLowerHex, Zod.isDigit, Bool.or_eq_true, Bool.and_eq_true,
          decide_eq_true_eq] at h
        exact h.resolve_left fun h => h.elim hdigit hlower
      rw [if_neg hdigit, if_neg hlower, if_pos hupper]
      exact ⟨_, rfl⟩

/-- the digits of a text -/
theorem exists_digits {cs : List Char} (h : ∀ c ∈ cs, Zod.isHex c = true) :
    ∃ ds : List (Fin 16), cs.map Uuid.hexVal = ds.map some := by
  induction cs with
  | nil => exact ⟨[], rfl⟩
  | cons c cs ih =>
    obtain ⟨d, hd⟩ := hexVal_isSome (h c List.mem_cons_self)
    obtain ⟨ds, hds⟩ := ih fun x hx => h x (List.mem_cons_of_mem c hx)
    exact ⟨d :: ds, by rw [List.map_cons, List.map_cons, hd, hds]⟩

/-- **UUIDs.** What the schema takes for a UUID the database does. -/
theorem uuid_ofText {s : String} (h : Zod.uuid s = true) : ∃ id, Uuid.ofText s = some id := by
  obtain ⟨a, b, c, d, e, hs, ⟨hla, hlb, hlc, hld, hle⟩, hall⟩ := uuid_pieces h
  simp only [List.forall_mem_append] at hall
  obtain ⟨ha, hb, hc, hd, he⟩ := hall
  have hrun : ∀ {cs : List Char} {m : Nat}, (∀ x ∈ cs, Zod.isHex x = true) → cs.length = m → m ≠ 0 →
      ∃ ds : List (Fin 16), ds.length = m ∧ ∀ n hyphen l, Uuid.scan (m + n) hyphen (cs ++ l) =
        (Uuid.scan n (n % 4 == 0) l).map fun r => (ds ++ r.1, r.2) := by
    intro cs m hcs hlen hm
    obtain ⟨ds, hds⟩ := exists_digits hcs
    have hsame : ds.length = m := by
      have := congrArg List.length hds
      rw [List.length_map, List.length_map, hlen] at this
      exact this.symm
    refine ⟨ds, hsame, fun n hyphen l => ?_⟩
    rw [← hsame]
    apply Uuid.scan_run hds
    rintro rfl
    exact hm hsame.symm
  obtain ⟨da, hda, qa⟩ := hrun ha hla (by decide)
  obtain ⟨db, hdb, qb⟩ := hrun hb hlb (by decide)
  obtain ⟨dc, hdc, qc⟩ := hrun hc hlc (by decide)
  obtain ⟨dd, hdd, qd⟩ := hrun hd hld (by decide)
  obtain ⟨de, hde, qe⟩ := hrun he hle (by decide)
  have hlast : Uuid.scan 12 false e = some (de, []) := by
    have h := qe 0 false []
    rw [List.append_nil] at h
    rw [h]
    simp [Uuid.scan]
  have hscan : Uuid.scan 32 false s.toList = some (da ++ (db ++ (dc ++ (dd ++ de))), []) := by
    rw [hs, qa 24]
    show Option.map _ (Uuid.scan 24 true _) = _
    rw [Uuid.scan_hyphen 23, qb 20]
    show Option.map _ (Option.map _ (Uuid.scan 20 true _)) = _
    rw [Uuid.scan_hyphen 19, qc 16]
    show Option.map _ (Option.map _ (Option.map _ (Uuid.scan 16 true _))) = _
    rw [Uuid.scan_hyphen 15, qd 12]
    show Option.map _ (Option.map _ (Option.map _ (Option.map _ (Uuid.scan 12 true _)))) = _
    rw [Uuid.scan_hyphen 11, hlast]
    rfl
  have hlen : (da ++ (db ++ (dc ++ (dd ++ de)))).length = 32 := by
    simp only [List.length_append]
    omega
  refine ⟨⟨_, hlen⟩, ?_⟩
  unfold Uuid.ofText
  split
  · -- a brace is no digit
    rename_i l hbrace
    rw [hbrace] at hscan
    simp [Uuid.scan, Uuid.hexVal] at hscan
  · rw [hscan]
    show Uuid.ofDigits _ = _
    rw [Uuid.ofDigits, dif_pos hlen]

/-- a field with a format, of a body that the schema takes -/
theorem format_of_accepts {name key : String} {fields : List (String × FieldType)}
    {format : StringFormat} {maxLength : Option Nat} {body : Json} {s : String}
    (hfield : (key, formatted format maxLength) ∈ fields)
    (h : Zod.accepts (.struct name fields) body = true) (hs : body.field key Json.text? = some s) :
    Zod.formatOk format s = true := by
  obtain ⟨members, rfl, _, hall⟩ := Zod.accepts_struct h
  obtain ⟨v, hget, hv⟩ := Option.bind_eq_some_iff.mp hs
  obtain ⟨t, ht, htext⟩ := Zod.accepts_string.mp ((hall _ hfield).1 v hget)
  rw [ht] at hv
  cases hv
  rw [Zod.text, Bool.and_eq_true, Bool.and_eq_true] at htext
  exact htext.1.1

theorem of_safeParse {α : Type} {schema : FieldType} {decode : Json → Option α} {body : Json} {x : α}
    (h : Protocol.safeParse schema decode body = some x) :
    Zod.accepts schema body = true ∧ decode body = some x := by
  unfold Protocol.safeParse at h
  split at h
  · rename_i haccepts
    exact ⟨haccepts, h⟩
  · cases h

theorem outcome_uuid {body : Json} {request : CompanionOutcomeRequest}
    (h : CompanionOutcomeRequest.safeParse body = some request) :
    ∃ id, Uuid.ofText request.sessionId = some id := by
  obtain ⟨haccepts, hdecode⟩ := of_safeParse h
  obtain ⟨sessionId, hs, hdecode⟩ := Option.bind_eq_some_iff.mp hdecode
  obtain ⟨waitSeconds, _, hdecode⟩ := Option.bind_eq_some_iff.mp hdecode
  obtain ⟨protocolVersion, _, hdecode⟩ := Option.bind_eq_some_iff.mp hdecode
  cases hdecode
  exact uuid_ofText (format_of_accepts List.mem_cons_self haccepts hs)

theorem heartbeat_uuid {body : Json} {beat : HeartbeatRequest}
    (h : HeartbeatRequest.safeParse body = some beat) : ∃ id, Uuid.ofText beat.sessionId = some id := by
  obtain ⟨haccepts, hdecode⟩ := of_safeParse h
  obtain ⟨sessionId, hs, hdecode⟩ := Option.bind_eq_some_iff.mp hdecode
  obtain ⟨companionBuildHash, _, hdecode⟩ := Option.bind_eq_some_iff.mp hdecode
  obtain ⟨uptimeSeconds, _, hdecode⟩ := Option.bind_eq_some_iff.mp hdecode
  obtain ⟨gameProcessPresent, _, hdecode⟩ := Option.bind_eq_some_iff.mp hdecode
  obtain ⟨closing, _, hdecode⟩ := Option.bind_eq_some_iff.mp hdecode
  obtain ⟨protocolVersion, _, hdecode⟩ := Option.bind_eq_some_iff.mp hdecode
  cases hdecode
  exact uuid_ofText (format_of_accepts List.mem_cons_self haccepts hs)

/-- the session of the request is a UUID, as its schema asks for -/
def Task.Parsed : Task → Prop
  | .outcome t => ∃ id, Uuid.ofText t.request.sessionId = some id
  | .heartbeat t => ∃ id, Uuid.ofText t.beat.sessionId = some id
  | _ => True

theorem Request.start_parsed (now : Time) (rq : Request) : (rq.start now).Parsed := by
  cases rq with
  | outcome clientIp body =>
    unfold start
    dsimp only
    split
    · trivial
    · rename_i request hrequest
      exact outcome_uuid hrequest
  | heartbeat body =>
    unfold start
    dsimp only
    split
    · trivial
    · rename_i beat hbeat
      exact heartbeat_uuid hbeat
  | pending clientIp body config =>
    unfold start
    dsimp only
    split <;> trivial
  | attest clientIp body =>
    unfold start
    dsimp only
    split <;> trivial
  | nonce authorization body config entropy iv => trivial
  | verdict authorization body => trivial
  | liveness authorization sessionId => trivial

theorem Task.Parsed.exec {t t' : Task} {w : Write} (h : t.Parsed)
    (hexec : t.exec P now uuid db = .ok (w, t')) : t'.Parsed := by
  cases t with
  | refused e =>
    cases hexec
    trivial
  | nonce | verdict | liveness | pending | attest =>
    obtain ⟨r, _, heq⟩ := map_ok hexec
    cases heq
    trivial
  | outcome t | heartbeat t =>
    obtain ⟨r, _, heq⟩ := map_ok hexec
    cases heq
    exact h

theorem Reachable.parsed {s : System} (h : Reachable P s) :
    ∀ pid t, s.task pid = some t → t.Parsed := by
  refine h.inv (fun s => ∀ pid t, s.task pid = some t → t.Parsed) (fun s h0 pid t ht => ?_)
    fun s s' hi hm pid t ht => ?_
  · rw [System.task, h0.procs] at ht
    cases ht
  · obtain hsame | ⟨rq, rfl, _⟩ | ⟨uuid, w, t₀, ht₀, hexec, _⟩ := hm.of_task_some ht
    · exact hi pid t hsame
    · exact rq.start_parsed s.now
    · exact (hi pid t₀ ht₀).exec hexec

/-! ## one turn -/

section
variable {α β : Type}

/-- a turn goes through, and its statement too -/
def Runs (now : Time) (db : Db) (x : Except SqlError (Write × α)) : Prop :=
  ∃ w a db', x = .ok (w, a) ∧ w.exec now db = .ok db'

theorem not_runs_error {e : SqlError} : ¬ Runs now db (.error e : Except SqlError (Write × α)) := by
  rintro ⟨w, a, db', h, _⟩
  cases h

theorem runs_ok {w : Write} {a : α} :
    Runs now db (.ok (w, a)) ↔ ∃ db', w.exec now db = .ok db' := by
  constructor
  · rintro ⟨_, _, db', h, hw⟩
    cases h
    exact ⟨db', hw⟩
  · rintro ⟨db', hw⟩
    exact ⟨w, a, db', rfl, hw⟩

theorem runs_map (f : α → β) {x : Except SqlError (Write × α)} :
    Runs now db (x.map fun r => (r.1, f r.2)) ↔ Runs now db x := by
  cases x with
  | error e => exact iff_of_false not_runs_error not_runs_error
  | ok r =>
    show Runs now db (.ok (r.1, f r.2)) ↔ Runs now db (.ok (r.1, r.2))
    rw [runs_ok, runs_ok]

/-- statements that insert nothing are never refused -/
theorem runs_update {w : Write} {a : α} (h : ∀ db, ∃ db', w.exec now db = .ok db') :
    Runs now db (.ok (w, a)) := runs_ok.mpr (h db)

theorem inserted_iff {R : Type} [Row R] {t : Table R} {r : R} {put : Table R → Db} :
    (∃ db', Write.inserted t r put = .ok db') ↔ ∀ x ∈ t, ¬ Row.clash (Row.key x) (Row.key r) := by
  rw [← Table.exists_insert]
  unfold Write.inserted
  cases t.insert r with
  | none => simp
  | some t' => simp

end

theorem NonceTask.runs_iff {t : NonceTask} :
    Runs now db (t.exec P now uuid db) ↔ t.Taken P uuid db := by
  unfold exec Taken
  cases t.point with
  | auth =>
    refine iff_of_true ?_ trivial
    dsimp only
    split
    · exact runs_update fun db => ⟨db, rfl⟩
    · split
      · exact runs_update fun db => ⟨db, rfl⟩
      · split <;> exact runs_update fun db => ⟨db, rfl⟩
  | upsertPlayer auth body =>
    dsimp only
    by_cases htexts : (playerTexts body.player).all Text.noNul = true
    · rw [if_pos htexts, runs_ok, and_iff_right htexts]
      unfold Write.exec
      dsimp only
      cases hplayer : Write.hasPlayer db auth.tenant.id body.player.license with
      | some player => simp
      | none =>
        dsimp only
        rw [inserted_iff]
        have hnone := Table.find_none hplayer
        refine ⟨fun h _ p hp heq => h p hp (by simp [Row.clash, Row.key, heq]), fun h p hp => ?_⟩
        have hkey := hnone p hp
        have hid := h rfl p hp
        simp only [Row.clash, Row.key, Bool.or_eq_true, beq_iff_eq, Prod.mk.injEq]
        rintro (heq | ⟨htenant, hlicense⟩)
        · exact hid heq
        · rw [htenant, hlicense, beq_self_eq_true, beq_self_eq_true] at hkey
          cases hkey
    · rw [if_neg htexts]
      exact iff_of_false not_runs_error fun h => htexts h.1
  | createSession auth body playerIdentityId =>
    dsimp only
    unfold inetParam
    cases hip : P.inetIn body.player.ip with
    | none => exact iff_of_false not_runs_error fun h => by cases h.1
    | some ip =>
      dsimp only
      rw [runs_ok]
      show (∃ db', Write.inserted db.sessions _ _ = .ok db') ↔ _
      rw [inserted_iff, and_iff_right (by rfl)]
      simp [Row.clash, Row.key, newSession]
  | touchServer auth session => exact iff_of_true (runs_update fun db => ⟨_, rfl⟩) trivial
  | issued session answer => exact iff_of_true (runs_update fun db => ⟨db, rfl⟩) trivial
  | refused e => exact iff_of_true (runs_update fun db => ⟨db, rfl⟩) trivial

theorem LivenessTask.runs_iff {t : LivenessTask} :
    Runs now db (t.exec P now db) ↔ t.Taken := by
  unfold exec Taken
  cases t.point with
  | auth =>
    refine iff_of_true ?_ trivial
    dsimp only
    split <;> exact runs_update fun db => ⟨db, rfl⟩
  | read auth =>
    dsimp only
    cases hfind : findById P db auth.tenant.id t.sessionId with
    | error e =>
      refine iff_of_false not_runs_error fun hid => ?_
      obtain ⟨id, hid⟩ := Option.isSome_iff_exists.mp hid
      rw [findById, uuidParam, hid] at hfind
      cases hfind
    | ok found =>
      refine iff_of_true ?_ ?_
      · split
        · rename_i heq
          cases heq
        · exact runs_update fun db => ⟨db, rfl⟩
        · exact runs_update fun db => ⟨db, rfl⟩
      · cases hid : Uuid.ofText t.sessionId with
        | some id => rfl
        | none =>
          rw [findById, uuidParam, hid] at hfind
          cases hfind
  | decide session =>
    refine iff_of_true ?_ trivial
    dsimp only
    split <;> exact runs_update fun db => ⟨db, rfl⟩
  | terminate session answer => exact iff_of_true (runs_update fun db => ⟨_, rfl⟩) trivial
  | answered answer => exact iff_of_true (runs_update fun db => ⟨db, rfl⟩) trivial
  | refused e => exact iff_of_true (runs_update fun db => ⟨db, rfl⟩) trivial

theorem PendingTask.runs_iff {t : PendingTask} : Runs now db (t.exec P now db) ↔ t.Taken P := by
  unfold exec Taken
  cases t.point with
  | read =>
    dsimp only
    cases hfind : findPendingByGameIp P now db t.origin with
    | error e =>
      refine iff_of_false not_runs_error fun hip => ?_
      obtain ⟨ip, hip⟩ := Option.isSome_iff_exists.mp hip
      rw [findPendingByGameIp, inetParam, hip] at hfind
      cases hfind
    | ok rows =>
      refine iff_of_true ?_ ?_
      · split
        · rename_i heq
          cases heq
        · exact runs_update fun db => ⟨db, rfl⟩
        · split
          · exact runs_update fun db => ⟨db, rfl⟩
          · split <;> exact runs_update fun db => ⟨db, rfl⟩
        · exact runs_update fun db => ⟨db, rfl⟩
      · cases hip : P.inetIn t.origin with
        | some ip => rfl
        | none =>
          rw [findPendingByGameIp, inetParam, hip] at hfind
          cases hfind
  | check =>
    refine iff_of_true ?_ trivial
    dsimp only
    split <;> exact runs_update fun db => ⟨db, rfl⟩
  | sleep wakeAt => exact iff_of_true (runs_update fun db => ⟨db, rfl⟩) trivial
  | answered answer => exact iff_of_true (runs_update fun db => ⟨db, rfl⟩) trivial
  | refused e => exact iff_of_true (runs_update fun db => ⟨db, rfl⟩) trivial

theorem AttestTask.runs_iff {t : AttestTask} :
    Runs now db (t.exec P now uuid db) ↔ t.Taken P uuid db := by
  unfold exec Taken
  cases t.point with
  | claim =>
    dsimp only
    unfold inetParam
    cases P.inetIn t.clientIp with
    | none => exact iff_of_false not_runs_error fun h => by cases h
    | some ip =>
      refine iff_of_true ?_ rfl
      dsimp only
      split <;> exact runs_update fun db => ⟨_, rfl⟩
  | storeSnapshot session =>
    dsimp only
    unfold Storable
    cases P.timestamptzIn t.request.snapshot.collectedAt with
    | none => exact iff_of_false not_runs_error fun h => by cases h.1
    | some collectedAt =>
      dsimp only
      rw [and_iff_right (by rfl)]
      by_cases htexts : t.storable = true
      · rw [if_pos htexts, and_iff_right htexts, runs_ok]
        show (∃ db', Write.inserted db.snapshots _ _ = .ok db') ↔ _
        rw [inserted_iff]
        simp [Row.clash, Row.key]
      · rw [if_neg htexts]
        exact iff_of_false not_runs_error fun h => htexts h.1
  | evaluatePolicy session buildAccepted => exact iff_of_true (runs_update fun db => ⟨db, rfl⟩) trivial
  | recordVerdict session buildAccepted outcome =>
    exact iff_of_true (runs_update fun db => ⟨_, rfl⟩) trivial
  | _ => exact iff_of_true (runs_update fun db => ⟨db, rfl⟩) trivial

theorem VerdictTask.runs (t : VerdictTask) : Runs now db (t.exec P now db) := by
  unfold exec
  cases t.point with
  | auth =>
    dsimp only
    split
    · exact runs_update fun db => ⟨db, rfl⟩
    · split <;> exact runs_update fun db => ⟨db, rfl⟩
  | read auth nonce deadline =>
    dsimp only
    split
    · exact runs_update fun db => ⟨db, rfl⟩
    · split <;> exact runs_update fun db => ⟨db, rfl⟩
  | check auth nonce deadline session =>
    dsimp only
    split <;> exact runs_update fun db => ⟨db, rfl⟩
  | write auth deadline session verdict => exact runs_update fun db => ⟨_, rfl⟩
  | _ => exact runs_update fun db => ⟨db, rfl⟩

theorem OutcomeTask.runs (t : OutcomeTask) (h : ∃ id, Uuid.ofText t.request.sessionId = some id) :
    Runs now db (t.exec now P db) := by
  obtain ⟨id, hid⟩ := h
  unfold exec
  cases t.point with
  | read =>
    dsimp only
    cases hfind : findByIdUnscoped P db t.request.sessionId with
    | error e =>
      rw [findByIdUnscoped, uuidParam, hid] at hfind
      cases hfind
    | ok found =>
      split
      · rename_i heq
        cases heq
      · exact runs_update fun db => ⟨db, rfl⟩
      · split
        · exact runs_update fun db => ⟨db, rfl⟩
        · split <;> exact runs_update fun db => ⟨db, rfl⟩
  | check =>
    dsimp only
    split <;> exact runs_update fun db => ⟨db, rfl⟩
  | _ => exact runs_update fun db => ⟨db, rfl⟩

theorem HeartbeatTask.runs (t : HeartbeatTask) (h : ∃ id, Uuid.ofText t.beat.sessionId = some id) :
    Runs now db (t.exec P db) := by
  obtain ⟨id, hid⟩ := h
  unfold exec
  cases t.point with
  | read =>
    dsimp only
    cases hfind : findByIdUnscoped P db t.beat.sessionId with
    | error e =>
      rw [findByIdUnscoped, uuidParam, hid] at hfind
      cases hfind
    | ok found =>
      split
      · rename_i heq
        cases heq
      · exact runs_update fun db => ⟨db, rfl⟩
      · exact runs_update fun db => ⟨db, rfl⟩
  | currentBuildHash session =>
    dsimp only
    split <;> exact runs_update fun db => ⟨db, rfl⟩
  | terminateSession session reason => exact runs_update fun db => ⟨_, rfl⟩
  | recordHeartbeat session => exact runs_update fun db => ⟨_, rfl⟩
  | _ => exact runs_update fun db => ⟨db, rfl⟩

/-- **A turn goes through** exactly if what it hands to PostgreSQL is taken. -/
theorem Task.runs_iff {t : Task} (h : t.Parsed) :
    Runs now db (t.exec P now uuid db) ↔ t.Taken P uuid db := by
  cases t with
  | nonce t => exact (runs_map fun pt => Task.nonce { t with point := pt }).trans t.runs_iff
  | liveness t => exact (runs_map fun pt => Task.liveness { t with point := pt }).trans t.runs_iff
  | pending t => exact (runs_map fun pt => Task.pending { t with point := pt }).trans t.runs_iff
  | attest t => exact (runs_map fun pt => Task.attest { t with point := pt }).trans t.runs_iff
  | verdict t =>
    exact iff_of_true ((runs_map fun pt => Task.verdict { t with point := pt }).mpr t.runs) trivial
  | outcome t =>
    exact iff_of_true ((runs_map fun pt => Task.outcome { t with point := pt }).mpr (t.runs h)) trivial
  | heartbeat t =>
    exact iff_of_true ((runs_map fun pt => Task.heartbeat { t with point := pt }).mpr (t.runs h)) trivial
  | refused e => exact iff_of_true (runs_update fun db => ⟨db, rfl⟩) trivial

/-! ## every run -/

/-- the database is available -/
def Event.faultless : Event → Bool
  | .fail _ => false
  | .lost _ _ => false
  | _ => true

/-- no request has ended in the last branch of the error handler -/
def Handled (s : System) : Prop := ∀ pid p, s.procs pid = some p → p.crashed = false

/-- every turn of a run hands to PostgreSQL what it takes -/
def AllTaken (P : Platform) (s₀ : System) (events : List Event) : Prop :=
  ∀ before pid uuid s p, before ++ [.exec pid uuid] <+: events →
    Machine.run (System.step P) before s₀ = some s → s.procs pid = some p → p.task.Taken P uuid s.db

section
variable {s₀ s s' : System} {e : Event} {events : List Event}

theorem Handled.put (h : Handled s) {pid : Nat} {p : Proc} (hp : p.crashed = false) :
    Handled (s.put pid p) := by
  intro q x hx
  have hx : update s.procs pid (some p) q = some x := hx
  by_cases hq : q = pid
  · subst hq
    rw [update_self] at hx
    cases hx
    exact hp
  · rw [update_of_ne hq] at hx
    exact h q x hx

theorem not_handled_put {pid : Nat} {p : Proc} (hp : p.crashed = true) : ¬ Handled (s.put pid p) := by
  intro h
  have hcrashed := h pid p (update_self ..)
  rw [hp] at hcrashed
  cases hcrashed

theorem handled_turn (h : Handled s) (pid : Nat) {p : Proc} (hparsed : p.task.Parsed) :
    Handled (s.turn P pid p uuid false) ↔ p.task.Taken P uuid s.db := by
  have hruns : Runs s.now s.db (p.task.exec P s.now uuid s.db) ↔ p.task.Taken P uuid s.db :=
    Task.runs_iff hparsed
  rw [← hruns]
  obtain ⟨hraises, heq⟩ | ⟨w, t', db, hexec, hw, heq⟩ := System.turn_eq P s pid p uuid false
  · rw [heq]
    refine iff_of_false (not_handled_put rfl) ?_
    rintro ⟨w, t', db', hexec, hw⟩
    rcases hraises with ⟨er, hraise⟩ | ⟨w', u, er, hraise, hw'⟩
    · rw [hexec] at hraise
      cases hraise
    · rw [hexec] at hraise
      cases hraise
      rw [hw] at hw'
      cases hw'
  · rw [heq]
    exact iff_of_true (h.put rfl) ⟨w, t', db, hexec, hw⟩

theorem handled_step (h : Handled s) (hparsed : ∀ pid t, s.task pid = some t → t.Parsed)
    (hfault : e.faultless = true) (he : System.step P e s = some s') : Handled s' ↔
      ∀ pid uuid p, e = .exec pid uuid → s.procs pid = some p → p.task.Taken P uuid s.db := by
  cases e with
  | tick ms =>
    cases he
    exact iff_of_true h fun _ _ _ heq => by cases heq
  | sweep =>
    cases he
    exact iff_of_true h fun _ _ _ heq => by cases heq
  | fail pid => cases hfault
  | lost pid uuid => cases hfault
  | request pid rq =>
    simp only [System.step] at he
    split at he
    · cases he
      exact iff_of_true (h.put rfl) fun _ _ _ heq => by cases heq
    · cases he
  | exec pid uuid =>
    obtain ⟨p, hp, rfl⟩ := Option.map_eq_some_iff.mp he
    have hproc := (System.of_readyProc hp).1
    rw [handled_turn h pid (hparsed pid _ (System.task_of_proc hproc))]
    constructor
    · intro htaken q u x heq hx
      cases heq
      rw [hproc] at hx
      cases hx
      exact htaken
    · exact fun hall => hall pid uuid p rfl hproc

/-- an error stays unhandled -/
theorem Handled.of_step (h : Handled s') (he : System.step P e s = some s') : Handled s := by
  intro pid p hp
  cases hcrashed : p.crashed with
  | false => rfl
  | true =>
    have hfin : s.response pid ≠ none := by
      rw [System.response, hp, Option.bind_some, Proc.response, hcrashed, if_pos rfl]
      exact Option.some_ne_none _
    have hstays := System.procs_of_finished he hfin
    rw [← hcrashed]
    exact h pid p (hstays.trans hp)

theorem allTaken_append : AllTaken P s₀ (events ++ [e]) ↔ AllTaken P s₀ events ∧
    ∀ pid uuid s p, e = .exec pid uuid → Machine.run (System.step P) events s₀ = some s →
      s.procs pid = some p → p.task.Taken P uuid s.db := by
  constructor
  · intro h
    refine ⟨fun before pid uuid s p hpre => h before pid uuid s p (hpre.trans (List.prefix_append _ _)), ?_⟩
    rintro pid uuid s p rfl
    exact h events pid uuid s p List.prefix_rfl
  · rintro ⟨hold, hlast⟩ before pid uuid s p hpre
    rcases List.prefix_concat_iff.mp hpre with heq | hpre
    · obtain ⟨hevents, hexec⟩ := List.append_inj' heq rfl
      rw [hevents]
      exact hlast pid uuid s p (List.singleton_inj.mp hexec).symm
    · exact hold before pid uuid s p hpre

/-- **What the schema lets in, the database takes**: in a run without faults no request ends in the last
branch of the error handler, exactly if every turn hands to PostgreSQL what it takes. -/
theorem handled_iff (h0 : s₀.Initial) (hfaults : ∀ e ∈ events, e.faultless = true)
    (hrun : Machine.run (System.step P) events s₀ = some s) : Handled s ↔ AllTaken P s₀ events := by
  induction events using List.reverseRecOn generalizing s with
  | nil =>
    cases hrun
    refine iff_of_true (fun pid p hp => ?_) fun before pid uuid s p hpre => ?_
    · rw [h0.procs] at hp
      cases hp
    · have hnil := List.prefix_nil.mp hpre
      cases before <;> cases hnil
  | append_singleton events e ih =>
    rw [Machine.run_append] at hrun
    obtain ⟨t, ht, hstep⟩ := Option.bind_eq_some_iff.mp hrun
    obtain ⟨s', hs', hrest⟩ := Option.bind_eq_some_iff.mp hstep
    cases hrest
    have hbefore := ih (fun e he => hfaults e (List.mem_append_left _ he)) ht
    have hlast := hfaults e (List.mem_append_right _ (List.mem_singleton_self e))
    have hreach : Reachable P t := ⟨s₀, h0, Machine.Steps.of_run events s₀ t ht⟩
    rw [allTaken_append, ← hbefore]
    constructor
    · intro h
      refine ⟨h.of_step hs', fun pid uuid x p heq hx => ?_⟩
      rw [ht] at hx
      cases hx
      exact (handled_step (h.of_step hs') hreach.parsed hlast hs').mp h pid uuid p heq
    · rintro ⟨h, htaken⟩
      exact (handled_step h hreach.parsed hlast hs').mpr fun pid uuid p heq => htaken pid uuid t p heq ht

end

/-! ## a snapshot with U+0000 -/

open Deployment

/-- a note of a probe contains U+0000; the nonce is redeemed, and the snapshot is refused -/
def nulAttested : List Event :=
  issue ++ [.request 2 (.attest "203.0.113.42" (attestBody ["\x00"]))] ++ turns 2 2

theorem nulAttested_crashed : ∃ s p, after .fail_open nulAttested = some s ∧ s.procs 2 = some p ∧
    p.crashed = true := by
  obtain ⟨s, hs, hp⟩ := (Option.any_eq_true _ _).mp (show (after .fail_open nulAttested).any
    (fun s => (s.procs 2).any Proc.crashed) = true by
      simp only [after, nulAttested, List.append_assoc, List.cons_append, Machine.run_append,
        @run_attest ["\x00"] (by decide) (by decide)]
      decide +kernel)
  obtain ⟨p, hp, hcrashed⟩ := (Option.any_eq_true _ _).mp hp
  exact ⟨s, p, hs, hp, hcrashed⟩

theorem nulAttested_faultless : ∀ e ∈ nulAttested, e.faultless = true :=
  List.all_eq_true.mp (by decide)

theorem handled_iff_nulAttested : ¬ AllTaken platform (deployment .fail_open) nulAttested := by
  obtain ⟨s, p, hs, hp, hcrashed⟩ := nulAttested_crashed
  rw [← handled_iff (deployment_initial .fail_open) nulAttested_faultless hs]
  intro h
  rw [h 2 p hp] at hcrashed
  cases hcrashed

theorem schema_lets_in : ¬ ∀ events s, (∀ e ∈ events, e.faultless = true) →
    after .fail_open events = some s → Handled s := by
  intro hall
  obtain ⟨s, p, hs, hp, hcrashed⟩ := nulAttested_crashed
  rw [hall nulAttested s nulAttested_faultless hs 2 p hp] at hcrashed
  cases hcrashed

end Backend
