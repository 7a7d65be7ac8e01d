import FiveProtect.Backend.Delivery
import FiveProtect.Backend.Terminated

/-!
# What a liveness request holds

A liveness request reads the row, decides on its copy and terminates in a second statement.  What
is known of the copy at each of these points:

* `buildLiveness_kick`   when a copy says that the player is to be kicked;
* `buildLiveness_grace`  when it says that he is to be warned;
* `Watched`              the copy a request holds is of a row, a session that was active has been
                         judged, and a request about to terminate has a copy that says so;
* `Reachable.watched`    every liveness request of every run.
-/

namespace Backend
open Protocol

variable {P : Platform} {s s' : System}

/-- **When a player is kicked**: the session is terminated, or it is active and its last heartbeat
is older than interval and grace together. -/
theorem buildLiveness_kick {session : SessionRow} {now : Time} :
    (buildLiveness session now).shouldKick = true ↔ session.state = .terminated ∨
      session.state = .active ∧ ∃ last, session.lastHeartbeatAt = some last ∧
        last + heartbeatLimitMs ≤ now := by
  by_cases ht : session.state = .terminated
  · simp [buildLiveness, ht]
  · rw [or_iff_right ht]
    cases hl : session.lastHeartbeatAt with
    | none =>
      constructor
      · intro h
        unfold buildLiveness at h
        rw [if_neg ht, hl] at h
        split at h
        · simp_all
        · cases h
      · rintro ⟨_, _, h, _⟩
        cases h
    | some last =>
      by_cases hs : session.state = .active
      · rw [buildLiveness_active hs hl]
        constructor
        · exact fun h => ⟨hs, last, rfl, h⟩
        · rintro ⟨_, _, h, hle⟩
          cases h
          exact hle
      · constructor
        · intro h
          unfold buildLiveness at h
          rw [if_neg ht] at h
          split at h
          · rename_i hactive _
            exact absurd hactive hs
          · cases h
        · exact fun h => absurd h.1 hs

/-- **When a player is to be warned**, if he is not to be kicked. -/
theorem buildLiveness_grace {session : SessionRow} {last now : Time} (hs : session.state = .active)
    (hl : session.lastHeartbeatAt = some last) :
    (buildLiveness session now).graceExpiresAt.isSome = true ↔ last + heartbeatIntervalMs < now := by
  have hne : session.state ≠ .terminated := by
    rw [hs]
    decide
  unfold buildLiveness
  rw [if_neg hne, hs, hl]
  by_cases h : now ≤ last + heartbeatIntervalMs
  · simp [h]
  · simp [h, Nat.not_le.mp h]

/-- the answer about a session that is not terminated gives no other reason -/
theorem buildLiveness_reason {session : SessionRow} {now : Time} (hs : session.state ≠ .terminated)
    (hk : (buildLiveness session now).shouldKick = true) :
    (buildLiveness session now).reason = some .heartbeat_lost := by
  obtain h | ⟨hactive, last, hl, hle⟩ := buildLiveness_kick.mp hk
  · exact absurd h hs
  · have hlate : ¬ now ≤ last + heartbeatIntervalMs := by
      have hlimit : heartbeatIntervalMs < heartbeatLimitMs := by decide
      intro h
      exact absurd (hle.trans h) (Nat.not_le.mpr (Nat.add_lt_add_left hlimit last))
    unfold buildLiveness
    rw [if_neg hs, hactive, hl]
    simp [hlate, hle]

theorem buildLiveness_sessionId (session : SessionRow) (now : Time) :
    (buildLiveness session now).sessionId = session.id := by
  unfold buildLiveness
  split
  · rfl
  · split
    · split
      · rfl
      · rfl
    · rfl

/-! ## the copies in flight -/

/-- the copy of the row a request holds -/
def LivenessPoint.session? : LivenessPoint → Option SessionRow
  | .decide session => some session
  | .terminate session _ => some session
  | _ => none

/-- what is known of the copies of a request -/
structure Watched (s : System) (l : LivenessTask) : Prop where
  row : ∀ session, l.point.session? = some session →
    ∃ r ∈ s.db.sessions, r.id = session.id ∧
      (session.state = .active → r.verdictDecision ≠ .pending)
  terminate : ∀ session answer, l.point = .terminate session answer → session.state = .active ∧
    (buildLiveness session s.now).shouldKick = true ∧ answer.sessionId = session.id ∧
    answer.reason = some .heartbeat_lost

theorem Watched.move (hm : Move P s s') {l : LivenessTask} (h : Watched s l) : Watched s' l := by
  obtain ⟨w, hw⟩ := hm.exists_write
  refine ⟨fun session hs => ?_, fun session answer hp => ?_⟩
  · obtain ⟨r, hr, hid, hjudged⟩ := h.row session hs
    exact ⟨_, (Write.mem_sessions hw).mpr (.inl ⟨r, hr, rfl⟩), (Write.onSession_id _ _ _).trans hid,
      fun hactive => Write.onSession_decided (hjudged hactive)⟩
  · obtain ⟨hactive, hkick, hsame⟩ := h.terminate session answer hp
    refine ⟨hactive, ?_, hsame⟩
    obtain hterm | ⟨_, last, hl, hle⟩ := buildLiveness_kick.mp hkick
    · exact buildLiveness_kick.mpr (.inl hterm)
    · exact buildLiveness_kick.mpr (.inr ⟨hactive, last, hl, hle.trans hm.now_le⟩)

theorem Watched.turn (hj : ∀ r ∈ s.db.sessions, Judged s r) {l : LivenessTask} {w : Write} {pt : LivenessPoint}
    (hi : Watched s l) (ht : l.Turn P s.now s.db w pt) : Watched s { l with point := pt } := by
  cases ht with
  | unauthorized | authorized | unknown | kept | terminated | answered | refused =>
    exact ⟨fun _ hs => (by cases hs), fun _ _ hp => (by cases hp)⟩
  | found hp hf =>
    refine ⟨fun session hs => ?_, fun _ _ hp => (by cases hp)⟩
    cases hs
    obtain ⟨r, hr, rfl, _, _⟩ := findById_some P hf
    refine ⟨r, hr, rfl, fun hactive hpending => ?_⟩
    have hallow := ((hj r hr).active hactive).1
    rw [hpending] at hallow
    cases hallow
  | lapsed hp hk hs =>
    refine ⟨fun session hses => ?_, fun session answer hpt => ?_⟩
    · cases hses
      exact hi.row _ (by rw [hp]; rfl)
    · cases hpt
      obtain hterm | ⟨hactive, _⟩ := buildLiveness_kick.mp hk
      · exact absurd hterm hs
      · exact ⟨hactive, hk, buildLiveness_sessionId _ _, buildLiveness_reason hs hk⟩

theorem Watched.step (hj : ∀ r ∈ s.db.sessions, Judged s r)
    (hi : ∀ pid l, s.task pid = some (.liveness l) → Watched s l) (hm : Move P s s') :
    ∀ pid l, s'.task pid = some (.liveness l) → Watched s' l := by
  intro pid l ht
  obtain hsame | hauth | ⟨w, l₀, pt, ht₀, rfl, hturn, _⟩ := hm.of_liveness ht
  · exact (hi pid l hsame).move hm
  · refine ⟨fun _ hs => ?_, fun _ _ hp => ?_⟩
    · rw [hauth] at hs
      cases hs
    · rw [hauth] at hp
      cases hp
  · exact ((hi pid l₀ ht₀).turn hj hturn).move hm

theorem Reachable.watched (h : Reachable P s) :
    ∀ pid l, s.task pid = some (.liveness l) → Watched s l := by
  refine (h.inv (fun s => (∀ r ∈ s.db.sessions, Judged s r) ∧
      ∀ pid l, s.task pid = some (.liveness l) → Watched s l)
    (fun s h0 => ⟨fun r hr => ?_, fun pid l ht => ?_⟩)
    fun _ _ hi hm => ⟨Judged.move hi.1 hm, Watched.step hi.1 hi.2 hm⟩).2
  · rw [h0.sessions] at hr
    exact absurd hr (Table.not_mem_empty r)
  · rw [System.task, h0.procs] at ht
    cases ht

end Backend
