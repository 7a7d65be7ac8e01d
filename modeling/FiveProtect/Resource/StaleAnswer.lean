import FiveProtect.Lib.Run
import FiveProtect.Resource.GracePeriod
import FiveProtect.Resource.Lifecycle

/-!
# Answers about sessions that are over

`Liveness.poll` goes through the players that were tracked when it began, and between the request for a
player and its answer anything may happen to him: he leaves, or another one gets his source.  The
answer is applied to the source all the same.

* `Acts`            the answer warns, drops or forgets;
* `OwnSession`      an answer acts only on the session it was asked for;
* `Unreplaced`     what happened to the source since the poll began leaves its session;
* `Snapshot`        the entries that are left are tracked exactly if nothing replaced their sessions;
* `own_session_iff` a run has the property exactly if no answer that warns or kicks comes for a
                    source whose session has ended or changed since the poll began.
-/

namespace Resource
open Protocol Machine

/-- something is sent to the source of the entry, he is dropped, or an entry is forgotten -/
def Acts (l : Liveness) (entry : Entry) (result : HttpResult) : Prop :=
  (l.handle entry result).2 ≠ [] ∨ ∃ e ∈ l.tracked, e ∉ (l.handle entry result).1.tracked

/-- whenever an answer acts, its source is tracked with the session of the request -/
def OwnSession (events : List PollEvent) : Prop :=
  ∀ before result s, before ++ [.answer result] <+: events → run Polls.step before .start = some s →
    ∀ entry ∈ s.todo.head?, Acts s.liveness entry result → entry ∈ s.liveness.tracked

/-- the answer kicks, or it warns a player who is not warned -/
def Urgent (l : Liveness) (entry : Entry) (result : HttpResult) : Prop :=
  ∃ body ∈ Liveness.answer? result,
    (Liveness.decide body (l.warned entry.source)).kick = true ∨
      (Liveness.decide body (l.warned entry.source)).warn = true

/-! ## the events about a source -/

/-- the session that an event leaves to a source, `none` if it is not about the source -/
def PollEvent.leaves (source : Source) : PollEvent → Option (Option String)
  | .track entry => if entry.source = source then some (some entry.sessionId) else none
  | .forget other => if other = source then some none else none
  | .poll _ => none
  | .answer _ => none

def PollEvent.isPoll : PollEvent → Bool
  | .poll _ => true
  | _ => false

/-- what the events since the last poll leave to a source, `none` if none of them is about it -/
def leftSince (source : Source) (events : List PollEvent) : Option (Option String) :=
  (events.reverse.takeWhile fun e => !e.isPoll).findSome? (PollEvent.leaves source)

/-- since the poll began the source was neither forgotten nor tracked with another session, or the last
of these events tracked it with the same one -/
def Unreplaced (events : List PollEvent) (entry : Entry) : Prop :=
  ∀ left ∈ leftSince entry.source events, left = some entry.sessionId

/-- no answer that warns or kicks comes for a source that was disturbed since the poll began -/
def InTime (events : List PollEvent) : Prop :=
  ∀ before result s, before ++ [.answer result] <+: events → run Polls.step before .start = some s →
    ∀ entry ∈ s.todo.head?, Urgent s.liveness entry result → Unreplaced before entry

section
variable {events : List PollEvent} {e : PollEvent} {entry : Entry} {source : Source}

theorem leftSince_poll (h : e.isPoll = true) : leftSince source (events ++ [e]) = none := by
  unfold leftSince
  rw [List.reverse_concat, List.takeWhile_cons, h]
  rfl

theorem leftSince_append (h : e.isPoll = false) :
    leftSince source (events ++ [e]) = (e.leaves source).or (leftSince source events) := by
  unfold leftSince
  rw [List.reverse_concat, List.takeWhile_cons, h, Bool.not_false, if_pos rfl, List.findSome?_cons]
  cases e.leaves source with
  | none => rfl
  | some left => rfl

theorem unreplaced_poll (h : e.isPoll = true) : Unreplaced (events ++ [e]) entry := by
  intro left hleft
  rw [leftSince_poll h] at hleft
  cases hleft

/-- an event about another source does not disturb -/
theorem unreplaced_other (h : e.isPoll = false) (hother : e.leaves entry.source = none) :
    Unreplaced (events ++ [e]) entry ↔ Unreplaced events entry := by
  unfold Unreplaced
  rw [leftSince_append h, hother, Option.none_or]

theorem unreplaced_about (h : e.isPoll = false) {left : Option String}
    (habout : e.leaves entry.source = some left) :
    Unreplaced (events ++ [e]) entry ↔ left = some entry.sessionId := by
  unfold Unreplaced
  rw [leftSince_append h, habout, Option.some_or]
  constructor
  · intro hall
    exact hall left rfl
  · intro heq other hother
    cases hother
    exact heq

end

/-! ## what an answer does -/

section
variable {l : Liveness} {entry : Entry} {result : HttpResult}

/-- an answer acts exactly if it kicks or warns -/
theorem acts_iff : Acts l entry result ↔ Urgent l entry result := by
  unfold Acts Urgent Liveness.handle
  cases Liveness.answer? result with
  | none => simp
  | some body =>
    have hbody : ∀ P : LuaValue → Prop, (∃ b ∈ some body, P b) ↔ P body := by simp
    rw [hbody]
    dsimp only
    cases hkick : (Liveness.decide body (l.warned entry.source)).kick with
    | true => simp
    | false =>
      cases hwarn : (Liveness.decide body (l.warned entry.source)).warn with
      | true => simp
      | false => simp [Liveness.tracked]

/-- the other sources keep their entries -/
theorem mem_handle {e : Entry} (h : e.source ≠ entry.source) :
    e ∈ (l.handle entry result).1.tracked ↔ e ∈ l.tracked := by
  cases hkicks : result.kicks with
  | true =>
    rw [(handle_kicks l entry hkicks).1, mem_forget]
    exact and_iff_left h
  | false => rw [(handle_stays l entry hkicks).1]

theorem handle_tracked_sublist : ((l.handle entry result).1.tracked).Sublist l.tracked := by
  cases hkicks : result.kicks with
  | true =>
    rw [(handle_kicks l entry hkicks).1]
    exact List.filter_sublist
  | false =>
    rw [(handle_stays l entry hkicks).1]

end

/-! ## every run -/

/-- the sources of the table and of what is left of the loop are distinct, and an entry that is left is
tracked exactly if its source was not disturbed -/
structure Snapshot (events : List PollEvent) (s : Polls) : Prop where
  tracked : (s.liveness.tracked.map Entry.source).Nodup
  left : (s.todo.map Entry.source).Nodup
  unreplaced : ∀ entry ∈ s.todo, entry ∈ s.liveness.tracked ↔ Unreplaced events entry

section
variable {events : List PollEvent} {s s' : Polls} {e : PollEvent}

theorem Snapshot.start : Snapshot [] .start where
  tracked := List.nodup_nil
  left := List.nodup_nil
  unreplaced _ h := absurd h List.not_mem_nil

theorem nodup_forget {l : Liveness} (h : (l.tracked.map Entry.source).Nodup) (source : Source) :
    ((l.forget source).tracked.map Entry.source).Nodup :=
  h.sublist (List.filter_sublist.map _)

theorem nodup_track {l : Liveness} (h : (l.tracked.map Entry.source).Nodup) (source : Source)
    (sessionId : String) : ((l.track source sessionId).tracked.map Entry.source).Nodup := by
  show (source :: (l.forget source).tracked.map Entry.source).Nodup
  refine List.nodup_cons.mpr ⟨fun hmem => ?_, nodup_forget h source⟩
  obtain ⟨e, he, heq⟩ := List.mem_map.mp hmem
  exact (mem_forget.mp he).2 heq

theorem Snapshot.track (h : Snapshot events s) (new : Entry)
    (he : Polls.step (.track new) s = some s') : Snapshot (events ++ [.track new]) s' := by
  cases he
  refine ⟨nodup_track h.tracked _ _, h.left, fun entry hentry => ?_⟩
  show entry ∈ (s.liveness.track new.source new.sessionId).tracked ↔ _
  rw [mem_track]
  by_cases hsource : new.source = entry.source
  · have hleaves : (PollEvent.track new).leaves entry.source = some (some new.sessionId) :=
      if_pos hsource
    rw [unreplaced_about rfl hleaves]
    constructor
    · rintro (heq | ⟨_, hne⟩)
      · rw [heq]
      · exact absurd hsource.symm hne
    · intro heq
      left
      rw [hsource, Option.some.inj heq]
  · have hleaves : (PollEvent.track new).leaves entry.source = none := if_neg hsource
    rw [unreplaced_other rfl hleaves, ← h.unreplaced entry hentry]
    constructor
    · rintro (heq | ⟨hmem, _⟩)
      · exact absurd (congrArg Entry.source heq).symm hsource
      · exact hmem
    · exact fun hmem => .inr ⟨hmem, fun heq => hsource heq.symm⟩

theorem Snapshot.forget (h : Snapshot events s) (source : Source)
    (he : Polls.step (.forget source) s = some s') : Snapshot (events ++ [.forget source]) s' := by
  cases he
  refine ⟨nodup_forget h.tracked _, h.left, fun entry hentry => ?_⟩
  show entry ∈ (s.liveness.forget source).tracked ↔ _
  rw [mem_forget]
  by_cases hsource : source = entry.source
  · have hleaves : (PollEvent.forget source).leaves entry.source = some none := if_pos hsource
    rw [unreplaced_about rfl hleaves]
    refine iff_of_false (fun hmem => hmem.2 hsource.symm) ?_
    exact fun heq => by cases heq
  · have hleaves : (PollEvent.forget source).leaves entry.source = none := if_neg hsource
    rw [unreplaced_other rfl hleaves, ← h.unreplaced entry hentry]
    exact and_iff_left fun heq => hsource heq.symm

theorem Snapshot.poll (h : Snapshot events s) (entries : List Entry)
    (he : Polls.step (.poll entries) s = some s') : Snapshot (events ++ [.poll entries]) s' := by
  unfold Polls.step at he
  dsimp only at he
  split at he
  · rename_i hpoll
    cases he
    refine ⟨h.tracked, ?_, fun entry hentry => ?_⟩
    · exact (hpoll.2.map Entry.source).nodup_iff.mpr h.tracked
    · exact iff_of_true (hpoll.2.mem_iff.mp hentry) (unreplaced_poll rfl)
  · cases he

theorem Snapshot.answer (h : Snapshot events s) (result : HttpResult)
    (he : Polls.step (.answer result) s = some s') : Snapshot (events ++ [.answer result]) s' := by
  unfold Polls.step at he
  dsimp only at he
  split at he
  · cases he
  · rename_i first rest htodo
    cases he
    have hleft := h.left
    rw [htodo, List.map_cons, List.nodup_cons] at hleft
    refine ⟨h.tracked.sublist (handle_tracked_sublist.map _), hleft.2, fun entry hentry => ?_⟩
    show entry ∈ (s.liveness.handle first result).1.tracked ↔ _
    -- the entries after the first one are about other sources
    have hne : entry.source ≠ first.source := by
      intro heq
      apply hleft.1
      rw [← heq]
      exact List.mem_map_of_mem hentry
    have hmem : entry ∈ s.todo := by
      rw [htodo]
      exact List.mem_cons_of_mem _ hentry
    rw [mem_handle hne, unreplaced_other rfl rfl]
    exact h.unreplaced entry hmem

theorem Snapshot.step (h : Snapshot events s) (he : Polls.step e s = some s') :
    Snapshot (events ++ [e]) s' := by
  cases e with
  | track new => exact h.track new he
  | forget source => exact h.forget source he
  | poll entries => exact h.poll entries he
  | answer result => exact h.answer result he

theorem Snapshot.run (h : run Polls.step events .start = some s) : Snapshot events s :=
  run_inv Snapshot (fun _ _ _ _ hs he => hs.step he) Snapshot.start events s h

/-- the entry an answer is for is tracked exactly if its source was not disturbed -/
theorem tracked_iff_unreplaced (h : Machine.run Polls.step events .start = some s) {entry : Entry}
    (hentry : entry ∈ s.todo.head?) : entry ∈ s.liveness.tracked ↔ Unreplaced events entry :=
  (Snapshot.run h).unreplaced entry (List.mem_of_head? hentry)

/-- **Answers for their sessions**, exactly if no answer that warns or kicks comes for a source whose
session has ended or changed since the poll began. -/
theorem own_session_iff (events : List PollEvent) : OwnSession events ↔ InTime events := by
  unfold OwnSession InTime
  constructor
  · intro hown before result s hprefix hrun entry hentry hurgent
    exact (tracked_iff_unreplaced hrun hentry).mp
      (hown before result s hprefix hrun entry hentry (acts_iff.mpr hurgent))
  · intro htime before result s hprefix hrun entry hentry hacts
    exact (tracked_iff_unreplaced hrun hentry).mpr
      (htime before result s hprefix hrun entry hentry (acts_iff.mp hacts))

end

/-! ## a source that is used again -/

/-- the session is lost -/
def lostResult : HttpResult := .ok 200 (LuaValue.ofJson
  ({ sessionId := Uuid.small 5
     state := .expired
     lastHeartbeatAt := some "2026-08-04T14:09:41.412Z"
     graceExpiresAt := none
     shouldKick := true
     reason := some .heartbeat_lost } : LivenessResponse).toJson)

/-- while the poll waits the player leaves, and another one gets his source -/
def reused : List PollEvent :=
  [.track player, .poll [player], .forget player.source, .track ⟨player.source, "t"⟩]

/-- the other player is dropped for the session that is lost -/
theorem stale_drop : ¬ OwnSession (reused ++ [.answer lostResult]) := by
  intro hown
  have hkick : (Liveness.answer? lostResult).any
      (fun body => (Liveness.decide body false).kick) = true := by decide +kernel
  obtain ⟨body, hanswer, hkick⟩ := (Option.any_eq_true _ _).mp hkick
  obtain ⟨s, hrun, htodo, htracked, hwarned⟩ : ∃ s, Machine.run Polls.step reused .start = some s ∧
      s.todo = [player] ∧ s.liveness.tracked = [⟨player.source, "t"⟩] ∧
      s.liveness.warned player.source = false := ⟨_, rfl, rfl, rfl, rfl⟩
  have hurgent : Urgent s.liveness player lostResult := by
    refine ⟨body, hanswer, .inl ?_⟩
    rw [hwarned]
    exact hkick
  have hmem := hown reused lostResult s List.prefix_rfl hrun player (by rw [htodo]; rfl)
    (acts_iff.mpr hurgent)
  rw [htracked] at hmem
  have hne : player ≠ ⟨player.source, "t"⟩ := by decide
  exact hne (List.mem_singleton.mp hmem)

end Resource
