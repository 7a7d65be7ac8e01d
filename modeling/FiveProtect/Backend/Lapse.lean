import FiveProtect.Backend.Calls
import FiveProtect.Backend.Deployment

/-!
# Lapsed sessions

Only a poll looks at the age of the last heartbeat, `recordHeartbeat` looks at the state of the row:
a heartbeat that comes after interval and grace is acknowledged, unless a poll has come first.

* `acks`           the heartbeats that are acknowledged in a sequence of calls;
* `EndedBy`        a call of the sequence has ended the session;
* `EndedInTime`    every heartbeat that comes too late finds the session ended, a condition on the
                   times of the calls alone.
-/

namespace Backend
open Protocol

variable {P : Platform}

/-- the times of the heartbeats for the session that are acknowledged -/
def acks (P : Platform) (id : Uuid) : List (Time × Call) → Db → List Time
  | [], _ => []
  | x :: calls, db =>
    if x.2.acknowledged id (x.2.serve P x.1 db).2 then x.1 :: acks P id calls (x.2.serve P x.1 db).1
    else acks P id calls (x.2.serve P x.1 db).1

/-- from each heartbeat to the next one that is acknowledged it is at most interval and grace, so
that none is acknowledged once they have passed -/
def NotResumed (last : Time) (acks : List Time) : Prop :=
  (last :: acks).IsChain fun h h' => h' ≤ h + heartbeatLimitMs

/-! ## the condition -/

section
variable (P : Platform) (db : Db) (r : AttestationSession)

/-- when the last heartbeat came -/
def lastBeat (last : Time) (calls : List (Time × Call)) : Time :=
  calls.foldl (fun last x => if x.2.prolongs db r.id then x.1 else last) last

/-- the call ends the session: a heartbeat that says so, or a poll that comes too late -/
def EndsAt (last : Time) (x : Time × Call) : Prop :=
  x.2.ends db r.id = true ∨ x.2.polls P db r = true ∧ last + heartbeatLimitMs ≤ x.1

def EndedBy (last : Time) (calls : List (Time × Call)) : Prop :=
  ∃ before x after, calls = before ++ x :: after ∧ EndsAt P db r (lastBeat db r last before) x

/-- **Ended in time.** Before every heartbeat that comes more than interval and grace after the last
one, a poll has come that late, or a heartbeat that ends the session. -/
def EndedInTime (last : Time) (calls : List (Time × Call)) : Prop :=
  ∀ before x after, calls = before ++ x :: after → x.2.prolongs db r.id = true →
    lastBeat db r last before + heartbeatLimitMs < x.1 → EndedBy P db r last before

end

variable {db : Db} {r : AttestationSession} {last : Time} {x : Time × Call}
  {calls : List (Time × Call)}

theorem endedBy_cons : EndedBy P db r last (x :: calls) ↔
    EndsAt P db r last x ∨ EndedBy P db r (lastBeat db r last [x]) calls := by
  constructor
  · rintro ⟨before, y, after, he, hends⟩
    cases before with
    | nil =>
      cases he
      exact .inl hends
    | cons z before =>
      cases he
      exact .inr ⟨before, y, after, rfl, hends⟩
  · rintro (hends | ⟨before, y, after, rfl, hends⟩)
    · exact ⟨[], x, calls, rfl, hends⟩
    · exact ⟨x :: before, y, after, rfl, hends⟩

theorem endedInTime_cons : EndedInTime P db r last (x :: calls) ↔
    (x.2.prolongs db r.id = true → x.1 ≤ last + heartbeatLimitMs) ∧
      (EndsAt P db r last x ∨ EndedInTime P db r (lastBeat db r last [x]) calls) := by
  constructor
  · intro h
    refine ⟨fun hp => ?_, ?_⟩
    · by_contra hlate
      obtain ⟨before, y, after, he, _⟩ := h [] x calls rfl hp (Nat.not_le.mp hlate)
      cases before <;> cases he
    · by_cases hends : EndsAt P db r last x
      · exact .inl hends
      · refine .inr fun before y after he hp hlate => ?_
        have hended := h (x :: before) y after (by rw [he]; rfl) hp hlate
        exact (endedBy_cons.mp hended).resolve_left hends
  · rintro ⟨hnow, hrest⟩ before y after he hp hlate
    cases before with
    | nil =>
      cases he
      exact absurd (hnow hp) (Nat.not_le.mpr hlate)
    | cons z before =>
      cases he
      rw [endedBy_cons]
      exact hrest.imp_right fun h => h before y after rfl hp hlate

theorem not_endsAt_of_prolongs (hp : x.2.prolongs db r.id = true) : ¬ EndsAt P db r last x := by
  obtain ⟨t, c⟩ := x
  cases c with
  | liveness => cases hp
  | heartbeat beat =>
    rintro (hends | ⟨hpolls, _⟩)
    · simp only [Call.prolongs, Call.ends, Bool.and_eq_true] at hp hends
      obtain ⟨reason, hreason⟩ := Option.isSome_iff_exists.mp hends.2
      rw [hreason] at hp
      cases hp.2
    · cases hpolls

/-- the calls after which the session is still active, and those that end it -/
theorem next_of_endsAt (hp : x.2.prolongs db r.id = false) :
    (EndsAt P db r last x → x.2.next P db r x.1 (some last) = none) ∧
      (¬ EndsAt P db r last x → x.2.next P db r x.1 (some last) = some last) := by
  unfold Call.next
  rw [hp, if_neg Bool.false_ne_true]
  by_cases he : x.2.ends db r.id = true
  · rw [if_pos he]
    exact ⟨fun _ => rfl, fun hnot => absurd (.inl he) hnot⟩
  · rw [if_neg he]
    by_cases hl : x.2.polls P db r = true
    · rw [if_pos hl]
      constructor
      · rintro (hends | ⟨_, hle⟩)
        · exact absurd hends he
        · simp [Option.filter, Nat.not_lt.mpr hle]
      · intro hnot
        have hlt : x.1 < last + heartbeatLimitMs := by
          by_contra hle
          exact hnot (.inr ⟨hl, Nat.not_lt.mp hle⟩)
        simp [Option.filter, hlt]
    · rw [if_neg hl]
      constructor
      · rintro (hends | ⟨hpolls, _⟩)
        · exact absurd hends he
        · exact absurd hpolls hl
      · exact fun _ => rfl

/-! ## the claim on lapsed sessions -/

section
variable {db₀ : Db} {r₀ : AttestationSession}

/-- a terminated session stays so -/
theorem acks_ended (calls : List (Time × Call)) : ∀ {db : Db}, Stands db₀ r₀ none db →
    acks P r₀.id calls db = [] := by
  induction calls with
  | nil =>
    intro db _
    rfl
  | cons x calls ih =>
    intro db h
    obtain ⟨hstands, hack⟩ := serve_next (P := P) h x.1 x.2
    have hnone : x.2.next P db₀ r₀ x.1 none = none := by
      unfold Call.next
      simp
    rw [hnone] at hstands
    rw [acks, hack, Option.isSome_none, Bool.and_false, if_neg Bool.false_ne_true]
    exact ih hstands

theorem notResumed_iff (calls : List (Time × Call)) : ∀ {last : Time} {db : Db},
    Stands db₀ r₀ (some last) db →
    (NotResumed last (acks P r₀.id calls db) ↔ EndedInTime P db₀ r₀ last calls) := by
  induction calls with
  | nil =>
    intro last db _
    constructor
    · intro _ before x after he
      cases before <;> cases he
    · intro _
      exact .singleton _
  | cons x calls ih =>
    intro last db h
    obtain ⟨hstands, hack⟩ := serve_next (P := P) h x.1 x.2
    rw [acks, hack, Option.isSome_some, Bool.and_true, endedInTime_cons]
    by_cases hp : x.2.prolongs db₀ r₀.id = true
    · -- the heartbeat is acknowledged, in time or not
      have hnext : x.2.next P db₀ r₀ x.1 (some last) = some x.1 := if_pos hp
      have hbeat : lastBeat db₀ r₀ last [x] = x.1 := if_pos hp
      rw [hnext] at hstands
      rw [if_pos hp, hbeat, NotResumed, List.isChain_cons_cons]
      have hrest := ih hstands
      constructor
      · rintro ⟨hle, hchain⟩
        exact ⟨fun _ => hle, .inr (hrest.mp hchain)⟩
      · rintro ⟨hle, hends⟩
        exact ⟨hle hp, hrest.mpr (hends.resolve_left (not_endsAt_of_prolongs hp))⟩
    · have hp' := Bool.eq_false_iff.mpr hp
      have hbeat : lastBeat db₀ r₀ last [x] = last := if_neg hp
      rw [if_neg hp, hbeat]
      by_cases hends : EndsAt P db₀ r₀ last x
      · -- from here on nothing is acknowledged
        rw [(next_of_endsAt hp').1 hends] at hstands
        rw [acks_ended calls hstands]
        exact ⟨fun _ => ⟨fun h => absurd h hp, .inl hends⟩, fun _ => .singleton _⟩
      · rw [(next_of_endsAt hp').2 hends] at hstands
        rw [ih hstands]
        exact ⟨fun h => ⟨fun h' => absurd h' hp, .inr h⟩, fun h => h.2.resolve_left hends⟩

end

/-- **A lapsed session is not resumed** exactly if it is ended in time, for every sequence of
heartbeats and polls. -/
theorem lapsed_not_resumed_iff (hr : r ∈ db.sessions) (hs : r.state = .active)
    (hl : r.lastHeartbeatAt = some last) (calls : List (Time × Call)) :
    NotResumed last (acks P r.id calls db) ↔ EndedInTime P db r last calls :=
  notResumed_iff calls (Stands.refl hr ⟨hs, hl⟩)

open Deployment in
/-- a player in game, as the backend and the two calls see it -/
theorem admitted_row : ∃ s, after .fail_closed (issue ++ attest []) = some s ∧
    ∃ r ∈ s.db.sessions, r.state = .active ∧ r.lastHeartbeatAt = some admittedAt ∧
      (Call.heartbeat beat).prolongs s.db r.id = true ∧
      (Call.liveness authorization sessionId).polls platform s.db r = true := by
  obtain ⟨s, hs, _, hdb⟩ := attested .fail_closed
  refine ⟨s, hs, ?_⟩
  rw [hdb]
  have hfacts : (Call.heartbeat beat).prolongs (admittedDb .fail_closed) admittedRow.id = true ∧
      (Call.liveness authorization sessionId).polls platform (admittedDb .fail_closed) admittedRow =
        true := by decide +kernel
  exact ⟨admittedRow, List.mem_singleton_self _, rfl, rfl, hfacts⟩

open Deployment in
/-- the resource polls when the grace has run out, the heartbeat a millisecond later is refused -/
theorem lapsed_not_resumed_polled : ∃ s, after .fail_closed (issue ++ attest []) = some s ∧
    ∃ r ∈ s.db.sessions, NotResumed admittedAt (acks platform r.id
      [(admittedAt + 210000, .liveness authorization sessionId),
        (admittedAt + 210001, .heartbeat beat)] s.db) := by
  obtain ⟨s, hs, r, hr, hactive, hl, _, hpolls⟩ := admitted_row
  refine ⟨s, hs, r, hr, (lapsed_not_resumed_iff hr hactive hl _).mpr ?_⟩
  exact endedInTime_cons.mpr ⟨fun h => (by cases h), .inl (.inr ⟨hpolls, by decide⟩)⟩

open Deployment in
/-- nobody polls, and the companion comes back after 210.001 seconds -/
theorem lapsed_session_resumed : ¬ ∀ s, Reachable platform s → ∀ r ∈ s.db.sessions, ∀ last,
    r.state = .active → r.lastHeartbeatAt = some last → ∀ calls : List (Time × Call),
      NotResumed last (acks platform r.id calls s.db) := by
  intro h
  obtain ⟨s, hs, r, hr, hactive, hl, hprolongs, _⟩ := admitted_row
  have hchain := h s (reachable_after hs) r hr admittedAt hactive hl
    [(admittedAt + 210001, .heartbeat beat)]
  obtain ⟨hle, _⟩ := endedInTime_cons.mp
    ((notResumed_iff _ (Stands.refl hr ⟨hactive, hl⟩)).mp hchain)
  exact absurd (hle hprolongs) (by decide)

end Backend
