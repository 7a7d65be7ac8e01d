import FiveProtect.Backend.Deployment
import FiveProtect.Lib.Run
import FiveProtect.Resource.Polling

/-!
# A player is warned before he is kicked

Whatever the heartbeats and the polls of a player are, a kick for lost heartbeats comes after a warning
that was sent after the last acknowledged heartbeat, if the answered polls are less than the grace
period apart and the first of them does not come too late itself.

* `Standing.serve`     what the requests that are served do to the session;
* `Answers`            what is known of an answer on its way;
* `Kept`               what is known of the whole, with the `Alarm` of the player;
* `Kept.step`          every event that meets the conditions keeps it;
* `kick_warned`        every run, and `kick_unwarned`: without the condition on the first poll the
                       player may be kicked by the first answer the resource gets.
-/

namespace Resource
open Protocol Backend Function

/-! ## the log -/

section
variable {id : Uuid} {source : Source} {last : Time} {log : List Act} {a : Act}

theorem lastAck_append :
    lastAck id last (log ++ [a]) = (a.ackedAt id).getD (lastAck id last log) := by
  unfold lastAck
  rw [List.filterMap_append, List.getLast?_append]
  cases h : a.ackedAt id with
  | none => simp [h]
  | some t => simp [h]

theorem lastAnswer_append :
    lastAnswer source (log ++ [a]) = (a.answeredAt source).or (lastAnswer source log) := by
  unfold lastAnswer
  rw [List.filterMap_append, List.getLast?_append]
  cases h : a.answeredAt source with
  | none => simp [h]
  | some t => simp [h]

theorem warnedSince_warn : WarnedSince id source (log ++ [.effect (.warn source)]) :=
  ⟨log, [], rfl, fun _ h => absurd h List.not_mem_nil⟩

theorem KicksWarned.append (h : KicksWarned id source log)
    (ha : ∀ reason, a = .effect (.dropPlayer source reason) → WarnedSince id source log) :
    KicksWarned id source (log ++ [a]) := by
  intro before reason after he hreason
  rcases List.eq_nil_or_concat after with rfl | ⟨after, b, rfl⟩
  · obtain ⟨rfl, hlast⟩ := List.append_inj' he rfl
    exact ha reason (List.singleton_inj.mp hlast)
  · rw [List.concat_eq_append, ← List.cons_append, ← List.append_assoc] at he
    obtain ⟨rfl, _⟩ := List.append_inj' he rfl
    exact h before reason after rfl hreason

variable {acts : List Act}

/-- acts without a heartbeat -/
theorem lastAck_quiet (h : ∀ a ∈ acts, a.ackedAt id = none) :
    lastAck id last (log ++ acts) = lastAck id last log := by
  unfold lastAck
  rw [List.filterMap_append, List.filterMap_eq_nil_iff.mpr h, List.append_nil]

theorem lastAnswer_quiet (h : ∀ a ∈ acts, a.answeredAt source = none) :
    lastAnswer source (log ++ acts) = lastAnswer source log := by
  unfold lastAnswer
  rw [List.filterMap_append, List.filterMap_eq_nil_iff.mpr h, List.append_nil]

theorem WarnedSince.quiet (h : WarnedSince id source log) (ha : ∀ a ∈ acts, a.ackedAt id = none) :
    WarnedSince id source (log ++ acts) := by
  obtain ⟨before, after, rfl, hafter⟩ := h
  refine ⟨before, after ++ acts, by simp, fun b hb => ?_⟩
  rcases List.mem_append.mp hb with hb | hb
  · exact hafter b hb
  · exact ha b hb

theorem KicksWarned.quiet (h : KicksWarned id source log)
    (ha : ∀ a ∈ acts, ∀ reason, a ≠ .effect (.dropPlayer source reason)) :
    KicksWarned id source (log ++ acts) := by
  induction acts generalizing log with
  | nil => rwa [List.append_nil]
  | cons a acts ih =>
    rw [← List.singleton_append, ← List.append_assoc]
    refine ih (h.append fun reason he => ?_) fun b hb => ha b (List.mem_cons_of_mem a hb)
    exact absurd he (ha a List.mem_cons_self reason)

end

/-! ## the session -/

section
variable {P : Platform} {db₀ db : Db} {r : AttestationSession} {last t t' u : Time} {c : Call}

/-- active with its last heartbeat, or terminated after interval and grace -/
def Standing (db₀ : Db) (r : AttestationSession) (last now : Time) (db : Db) : Prop :=
  Stands db₀ r (some last) db ∨ Stands db₀ r none db ∧ last + heartbeatLimitMs ≤ now

theorem Standing.later (h : Standing db₀ r last t db) (ht : t ≤ t') : Standing db₀ r last t' db :=
  h.imp_right fun h => ⟨h.1, h.2.trans ht⟩

theorem Stands.ends_eq {stand : Option Time} (h : Stands db₀ r stand db) :
    c.ends db r.id = c.ends db₀ r.id := by
  cases c with
  | liveness => rfl
  | heartbeat beat =>
    have hbuild : currentBuildHash db r.id = currentBuildHash db₀ r.id := by
      rw [currentBuildHash, h.snapshots, currentBuildHash]
    simp only [Call.ends, hbuild]

/-- a terminated session stays so, and none of its heartbeats is acknowledged -/
theorem serve_terminated (h : Stands db₀ r none db) : Stands db₀ r none (c.serve P t db).1 ∧
    c.acknowledged r.id (c.serve P t db).2 = false := by
  obtain ⟨hstands, hack⟩ := serve_next (P := P) h t c
  have hnone : c.next P db₀ r t none = none := by
    unfold Call.next
    simp
  rw [hnone] at hstands
  rw [Option.isSome_none, Bool.and_false] at hack
  exact ⟨hstands, hack⟩

/-- **A request is served.** -/
theorem Standing.serve (h : Standing db₀ r last t db)
    (hends : c.ends db r.id = true → ∀ x ∈ db.sessions, x.id = r.id → x.state = .terminated) :
    (c.acknowledged r.id (c.serve P t db).2 = true ∧ Standing db₀ r t t (c.serve P t db).1) ∨
      (c.acknowledged r.id (c.serve P t db).2 = false ∧
        Standing db₀ r last t (c.serve P t db).1) := by
  obtain hactive | ⟨hterm, hle⟩ := h
  · obtain ⟨hstands, hack⟩ := serve_next (P := P) hactive t c
    rw [Option.isSome_some, Bool.and_true] at hack
    have hnot : c.ends db₀ r.id ≠ true := by
      intro he
      obtain ⟨x, hx, hfixed, hxs⟩ := hactive.row
      rw [← Stands.ends_eq hactive] at he
      have hstate := hends he x hx (AttestationSession.id_of_fixed hfixed).1
      rw [hxs.1] at hstate
      cases hstate
    unfold Call.next at hstands
    by_cases hp : c.prolongs db₀ r.id = true
    · rw [if_pos hp] at hstands
      exact .inl ⟨hack.trans hp, .inl hstands⟩
    · rw [if_neg hp, if_neg hnot] at hstands
      refine .inr ⟨hack.trans (Bool.eq_false_iff.mpr hp), ?_⟩
      by_cases hl : c.polls P db₀ r = true
      · rw [if_pos hl] at hstands
        by_cases hlt : t < last + heartbeatLimitMs
        · left
          simpa [Option.filter, hlt] using hstands
        · right
          refine ⟨?_, Nat.not_lt.mp hlt⟩
          simpa [Option.filter, hlt] using hstands
      · rw [if_neg hl] at hstands
        exact .inl hstands
  · obtain ⟨hstands, hack⟩ := serve_terminated (P := P) (t := t) (c := c) hterm
    exact .inr ⟨hack, .inr ⟨hstands, hle⟩⟩

/-! ## the answer -/

/-- what is known of an answer to the poll at `u`: it was right when it was given -/
structure Answers (db₀ : Db) (r : AttestationSession) (last : Time) (db : Db) (u : Time)
    (x : Exchange) : Prop where
  body : ∀ body, Liveness.answer? (Http.finish x) = some body → ∃ a : LivenessResponse,
    body = LuaValue.ofJson a.toJson ∧
      (a.shouldKick = true → last + heartbeatLimitMs ≤ u ∧ Stands db₀ r none db) ∧
      (a.graceExpiresAt.isSome = false → a.shouldKick = false → u ≤ last + heartbeatIntervalMs) ∧
      (a.graceExpiresAt.isSome = true → last + heartbeatIntervalMs < u ∨ u ≤ last)

/-- a request meanwhile -/
theorem Answers.serve {x : Exchange} (h : Answers db₀ r last db u x) (hu : u ≤ t) :
    (c.acknowledged r.id (c.serve P t db).2 = true → Answers db₀ r t (c.serve P t db).1 u x) ∧
      (c.acknowledged r.id (c.serve P t db).2 = false →
        Answers db₀ r last (c.serve P t db).1 u x) := by
  refine ⟨fun hack => ⟨fun body hb => ?_⟩, fun hack => ⟨fun body hb => ?_⟩⟩
  · obtain ⟨a, ha, hkick, _, _⟩ := h.body body hb
    refine ⟨a, ha, fun hk => ?_, fun _ _ => hu.trans (Nat.le_add_right _ _), fun _ => .inr hu⟩
    have hnone := (serve_terminated (P := P) (t := t) (c := c) (hkick hk).2).2
    rw [hack] at hnone
    cases hnone
  · obtain ⟨a, ha, hkick, hrest⟩ := h.body body hb
    exact ⟨a, ha, fun hk => ⟨(hkick hk).1, (serve_terminated (hkick hk).2).1⟩, hrest⟩

/-- **The answer to a poll.** -/
theorem Standing.answers (h : Standing db₀ r last t db) (authorization : Option String) :
    let c := Call.liveness authorization r.id.toText
    Answers db₀ r last (c.serve P t db).1 t (livenessExchange (c.serve P t db).2) := by
  intro c
  have hname : Uuid.ofText r.id.toText = some r.id := Uuid.ofText_toText r.id
  by_cases hl : c.polls P db₀ r = true
  · refine ⟨fun body hb => ?_⟩
    obtain hactive | ⟨hterm, hle⟩ := h
    · obtain ⟨hstands, r', _, ⟨hs, hbeat⟩, hres⟩ := serve_polls (P := P) (u := t) hactive hl
      rw [hres] at hb
      have hkick : (buildLiveness (r'.columns P) t).shouldKick = true ↔
          last + heartbeatLimitMs ≤ t := buildLiveness_active hs hbeat t
      have hgrace : (buildLiveness (r'.columns P) t).graceExpiresAt.isSome = true ↔
          last + heartbeatIntervalMs < t := buildLiveness_grace hs hbeat
      refine ⟨buildLiveness (r'.columns P) t, ?_, fun hk => ?_, fun hg _ => ?_, fun hg => ?_⟩
      · exact answer?_eq hb
      · have hle := hkick.mp hk
        refine ⟨hle, ?_⟩
        simpa [Option.filter, Nat.not_lt.mpr hle] using hstands
      · by_contra hlate
        rw [hgrace.mpr (Nat.not_le.mp hlate)] at hg
        cases hg
      · exact .inl (hgrace.mp hg)
    · obtain ⟨hstands, r', _, hs, hres⟩ := serve_polls (P := P) (u := t) hterm hl
      rw [hres] at hb
      have hkick : (buildLiveness (r'.columns P) t).shouldKick = true :=
        buildLiveness_kick.mpr (.inl hs)
      have hlate : last + heartbeatIntervalMs < t :=
        lt_of_lt_of_le (Nat.add_lt_add_left (by decide) last) hle
      refine ⟨buildLiveness (r'.columns P) t, answer?_eq hb, fun _ => ⟨hle, hstands⟩,
        fun _ hk => ?_, fun _ => .inl hlate⟩
      rw [hkick] at hk
      cases hk
  · have hl' := Bool.eq_false_iff.mpr hl
    refine ⟨fun body hb => ?_⟩
    have hrefused : ∃ e : ApiError, (c.serve P t db).2 = some (.error e) ∧ e.status ≠ 200 := by
      obtain hactive | ⟨hterm, _⟩ := h
      · exact serve_refused hactive hname hl'
      · exact serve_refused hterm hname hl'
    obtain ⟨e, hres, hstatus⟩ := hrefused
    rw [hres] at hb
    exact absurd hb (answer?_error hstatus)

end

/-! ## the whole -/

section
variable {P : Platform} {authorization : Option String} {db₀ : Db} {r : AttestationSession}
  {source : Source} {last : Time} {s s' : Watch}

/-- what is known of the whole -/
structure Kept (db₀ : Db) (r : AttestationSession) (source : Source) (last : Time) (s : Watch) :
    Prop where
  entries : ∀ e ∈ s.liveness.sessions ++ s.todo, e.source = source → e.sessionId = r.id.toText
  idle : s.todo = [] → s.reply = none
  standing : Standing db₀ r (lastAck r.id last s.log) s.now s.db
  reply : ∀ e rest u x, s.todo = e :: rest → s.reply = some (u, x) → e.source = source →
    u ≤ s.now ∧ Answers db₀ r (lastAck r.id last s.log) s.db u x
  answered : ∀ a, lastAnswer source s.log = some a → a ≤ s.now
  alarm : Alarm heartbeatIntervalMs (lastAck r.id last s.log) (lastAnswer source s.log)
    (s.liveness.warned source) (WarnedSince r.id source s.log)
  kicks : KicksWarned r.id source s.log

theorem Joined.kept (h : Joined r source last s) : Kept s.db r source last s where
  entries e he hsource := by
    rcases List.mem_append.mp he with he | he
    · exact h.entries e he hsource
    · exact absurd hsource (h.todo e he)
  idle := h.idle
  standing := by
    rw [h.log]
    exact .inl (Stands.refl h.row ⟨h.active, h.beat⟩)
  reply e rest u x htodo _ hsource := absurd hsource (h.todo e (by rw [htodo]; exact List.mem_cons_self))
  answered a ha := by
    rw [h.log] at ha
    cases ha
  alarm := by
    rw [h.log, h.unwarned]
    exact .start
  kicks before reason after he := by
    rw [h.log] at he
    cases before <;> cases he

theorem Kept.later (h : Kept db₀ r source last s) {t : Time} (ht : s.now ≤ t) :
    Kept db₀ r source last { s with now := t } where
  entries := h.entries
  idle := h.idle
  standing := h.standing.later ht
  reply e rest u x htodo hreply hsource := by
    obtain ⟨hu, hanswers⟩ := h.reply e rest u x htodo hreply hsource
    exact ⟨hu.trans ht, hanswers⟩
  answered a ha := (h.answered a ha).trans ht
  alarm := h.alarm
  kicks := h.kicks

/-- a request is served -/
theorem Kept.serve (h : Kept db₀ r source last s) {c : Call}
    (hends : c.ends s.db r.id = true → ∀ x ∈ s.db.sessions, x.id = r.id → x.state = .terminated) :
    Kept db₀ r source last (s.serve P s.now c) := by
  have hanswer : lastAnswer source (s.serve P s.now c).log = lastAnswer source s.log :=
    lastAnswer_append.trans (by rfl)
  have hkicks : KicksWarned r.id source (s.serve P s.now c).log :=
    h.kicks.append fun _ he => (by cases he)
  have hacked : (Act.served s.now c (c.serve P s.now s.db).2).ackedAt r.id =
      if c.acknowledged r.id (c.serve P s.now s.db).2 then some s.now else none := rfl
  obtain ⟨hack, hstanding⟩ | ⟨hack, hstanding⟩ := h.standing.serve (P := P) hends
  · rw [if_pos hack] at hacked
    have hlast : lastAck r.id last (s.serve P s.now c).log = s.now := by
      rw [show (s.serve P s.now c).log = s.log ++ [.served s.now c (c.serve P s.now s.db).2] from rfl,
        lastAck_append, hacked]
      rfl
    refine ⟨h.entries, h.idle, ?_, fun e rest u x htodo hreply hsource => ?_, ?_, ?_, hkicks⟩
    · rw [hlast]
      exact hstanding
    · obtain ⟨hu, hanswers⟩ := h.reply e rest u x htodo hreply hsource
      rw [hlast]
      exact ⟨hu, (hanswers.serve hu).1 hack⟩
    · rw [hanswer]
      exact h.answered
    · rw [hlast, hanswer]
      exact h.alarm.beat h.answered
  · rw [if_neg (Bool.eq_false_iff.mp hack)] at hacked
    have hlast : lastAck r.id last (s.serve P s.now c).log = lastAck r.id last s.log := by
      rw [show (s.serve P s.now c).log = s.log ++ [.served s.now c (c.serve P s.now s.db).2] from rfl,
        lastAck_append, hacked]
      rfl
    refine ⟨h.entries, h.idle, ?_, fun e rest u x htodo hreply hsource => ?_, ?_, ?_, hkicks⟩
    · rw [hlast]
      exact hstanding
    · obtain ⟨hu, hanswers⟩ := h.reply e rest u x htodo hreply hsource
      rw [hlast]
      exact ⟨hu, (hanswers.serve hu).2 hack⟩
    · rw [hanswer]
      exact h.answered
    · rw [hlast, hanswer]
      exact h.alarm.mono fun hw => hw.quiet fun a ha => by
        rw [List.mem_singleton.mp ha]
        exact hacked

/-- the thread goes on, having left something in the log -/
theorem Kept.goOn (h : Kept db₀ r source last s) {liveness : Liveness} {acts : List Act}
    {rest : List Entry} (hsessions : ∀ e ∈ liveness.sessions, e ∈ s.liveness.sessions)
    (hrest : ∀ e ∈ rest, e ∈ s.todo) (hquiet : ∀ a ∈ acts, a.ackedAt r.id = none)
    (hanswered : ∀ a, lastAnswer source (s.log ++ acts) = some a → a ≤ s.now)
    (halarm : Alarm heartbeatIntervalMs (lastAck r.id last s.log)
      (lastAnswer source (s.log ++ acts)) (liveness.warned source)
      (WarnedSince r.id source (s.log ++ acts)))
    (hkicks : KicksWarned r.id source (s.log ++ acts)) :
    Kept db₀ r source last
      { s with liveness := liveness, log := s.log ++ acts, todo := rest, reply := none } where
  entries e he hsource := by
    refine h.entries e ?_ hsource
    rcases List.mem_append.mp he with he | he
    · exact List.mem_append_left _ (hsessions e he)
    · exact List.mem_append_right _ (hrest e he)
  idle _ := rfl
  standing := by
    show Standing db₀ r (lastAck r.id last (s.log ++ acts)) s.now s.db
    rw [lastAck_quiet hquiet]
    exact h.standing
  reply _ _ _ _ _ hreply := by cases hreply
  answered := hanswered
  alarm := by
    show Alarm _ (lastAck r.id last (s.log ++ acts)) _ _ _
    rw [lastAck_quiet hquiet]
    exact halarm
  kicks := hkicks

theorem effects_acked {id : Uuid} (effects : List LivenessEffect) :
    ∀ a ∈ effects.map Act.effect, a.ackedAt id = none := by
  intro a ha
  obtain ⟨e, _, rfl⟩ := List.mem_map.mp ha
  rfl

theorem effects_answered {source : Source} (effects : List LivenessEffect) :
    ∀ a ∈ effects.map Act.effect, a.answeredAt source = none := by
  intro a ha
  obtain ⟨e, _, rfl⟩ := List.mem_map.mp ha
  rfl

theorem take_eq {entry : Entry} {u : Time} {x : Exchange} {body : LuaValue}
    {liveness : Liveness} {effects : List LivenessEffect}
    (hb : Liveness.answer? (Http.finish x) = some body)
    (hh : s.liveness.handle entry (Http.finish x) = (liveness, effects)) :
    s.take entry u x = { s with
      liveness := liveness
      log := s.log ++ (.answered entry.source u :: effects.map .effect) } := by
  unfold Watch.take
  rw [hh, hb]
  simp

/-- **The resource takes an answer for the player.** -/
theorem Kept.take_own (h : Kept db₀ r source last s) {entry : Entry} {rest : List Entry} {u : Time}
    {x : Exchange} {body : LuaValue} (htodo : s.todo = entry :: rest)
    (hreply : s.reply = some (u, x)) (hsource : entry.source = source)
    (hb : Liveness.answer? (Http.finish x) = some body)
    (hspaced : ∀ a, lastAnswer source s.log = some a → u < a + heartbeatGraceMs)
    (hprompt : lastAnswer source s.log = none → u < lastAck r.id last s.log + heartbeatLimitMs) :
    Kept db₀ r source last { s.take entry u x with todo := rest, reply := none } := by
  obtain ⟨hu, hanswers⟩ := h.reply entry rest u x htodo hreply hsource
  obtain ⟨a, rfl, hkick, hwell, hlate⟩ := hanswers.body body hb
  have hlimit : heartbeatLimitMs = heartbeatIntervalMs + heartbeatGraceMs := by decide
  rw [hlimit] at hprompt hkick
  subst hsource
  have hlast : ∀ effects : List LivenessEffect, lastAnswer entry.source
      (s.log ++ (.answered entry.source u :: effects.map .effect)) = some u := by
    intro effects
    rw [List.append_cons, lastAnswer_quiet (effects_answered effects), lastAnswer_append]
    simp [Act.answeredAt]
  have hquiet : ∀ effects : List LivenessEffect,
      ∀ b ∈ Act.answered entry.source u :: effects.map .effect, b.ackedAt r.id = none := by
    intro effects b hmem
    rcases List.mem_cons.mp hmem with rfl | hmem
    · rfl
    · exact effects_acked effects b hmem
  have hgoOn : ∀ {liveness : Liveness} {effects : List LivenessEffect},
      s.liveness.handle entry (Http.finish x) = (liveness, effects) →
      Alarm heartbeatIntervalMs (lastAck r.id last s.log) (some u)
        (liveness.warned entry.source) (WarnedSince r.id entry.source
          (s.log ++ (.answered entry.source u :: effects.map .effect))) →
      KicksWarned r.id entry.source
        (s.log ++ (.answered entry.source u :: effects.map .effect)) →
      Kept db₀ r entry.source last { s.take entry u x with todo := rest, reply := none } := by
    intro liveness effects hh halarm hkicks
    rw [take_eq hb hh]
    refine h.goOn ?_ (fun e he => ?_) (hquiet effects) (fun b hmem => ?_) ?_ hkicks
    · have hsub := handle_sessions s.liveness entry (Http.finish x)
      rwa [hh] at hsub
    · rw [htodo]
      exact List.mem_cons_of_mem entry he
    · rw [hlast effects] at hmem
      cases hmem
      exact hu
    · rw [hlast effects]
      exact halarm
  have hnone : KicksWarned r.id entry.source (s.log ++ [.answered entry.source u]) :=
    h.kicks.append fun _ he => (by cases he)
  cases hk : a.shouldKick with
  | true =>
    -- the kick comes after a warning, and the player is forgotten
    have htold : WarnedSince r.id entry.source s.log :=
      h.alarm.expired hspaced hprompt (hkick hk).1
    refine hgoOn (handle_kick hb hk) (.warn (htold.quiet (hquiet _))) ?_
    rw [List.append_cons]
    refine hnone.append fun _ _ => htold.quiet fun b hmem => ?_
    rw [List.mem_singleton.mp hmem]
    rfl
  | false =>
    cases hg : a.graceExpiresAt.isSome with
    | false =>
      refine hgoOn (handle_keep hb hk (.inl hg)) ?_ hnone
      show Alarm _ _ _ (update s.liveness.warned entry.source false entry.source) _
      rw [update_self]
      exact .well (hwell hg hk)
    | true =>
      cases hw : s.liveness.warned entry.source with
      | false =>
        refine hgoOn (handle_warn hb hk hg hw) (.warn ?_) ?_
        · rw [List.append_cons]
          exact warnedSince_warn
        · rw [List.append_cons]
          exact hnone.append fun _ he => (by cases he)
      | true =>
        refine hgoOn (handle_keep hb hk (.inr hw)) ?_ hnone
        have halarm := h.alarm
        rw [hw] at halarm
        have hlate' : Alarm heartbeatIntervalMs (lastAck r.id last s.log) (some u) false
            (WarnedSince r.id entry.source s.log) :=
          halarm.overdue (by decide) hspaced (hlate hg)
        show Alarm _ _ _ (update s.liveness.warned entry.source false entry.source) _
        rw [update_self]
        refine hlate'.mono fun htold => htold.quiet (hquiet [])

/-- the resource takes an answer for another player, or does not take it -/
theorem Kept.take_other (h : Kept db₀ r source last s) {entry : Entry} {rest : List Entry}
    {u : Time} {x : Exchange} (htodo : s.todo = entry :: rest)
    (hother : entry.source = source → Liveness.answer? (Http.finish x) = none) :
    Kept db₀ r source last { s.take entry u x with todo := rest, reply := none } := by
  have hrest : ∀ e ∈ rest, e ∈ s.todo := by
    rw [htodo]
    exact fun e he => List.mem_cons_of_mem entry he
  cases hb : Liveness.answer? (Http.finish x) with
  | none =>
    have htake : s.take entry u x = { s with log := s.log ++ [] } := by
      unfold Watch.take
      rw [handle_none hb, hb]
      simp
    rw [htake]
    refine h.goOn (fun _ he => he) hrest (fun _ ha => absurd ha List.not_mem_nil) ?_ ?_ ?_
    · rw [List.append_nil]
      exact h.answered
    · rw [List.append_nil]
      exact h.alarm
    · rw [List.append_nil]
      exact h.kicks
  | some body =>
    have hne : entry.source ≠ source := fun he => by
      rw [hother he] at hb
      cases hb
    obtain ⟨hwarned, hkicks⟩ := handle_other s.liveness (Http.finish x) hne
    have hsessions := handle_sessions s.liveness entry (Http.finish x)
    obtain ⟨liveness, effects, hh⟩ : ∃ liveness effects,
        s.liveness.handle entry (Http.finish x) = (liveness, effects) := ⟨_, _, rfl⟩
    rw [hh] at hwarned hkicks hsessions
    rw [take_eq hb hh]
    have hquiet : ∀ a ∈ Act.answered entry.source u :: effects.map .effect,
        a.ackedAt r.id = none ∧ a.answeredAt source = none ∧
          ∀ reason, a ≠ .effect (.dropPlayer source reason) := by
      intro a ha
      rcases List.mem_cons.mp ha with rfl | ha
      · exact ⟨rfl, if_neg hne, fun _ he => (by cases he)⟩
      · obtain ⟨e, he, rfl⟩ := List.mem_map.mp ha
        refine ⟨rfl, rfl, fun reason heq => ?_⟩
        cases heq
        exact hkicks _ he reason rfl
    have halarm := h.alarm
    refine h.goOn hsessions hrest (fun a ha => (hquiet a ha).1) ?_ ?_
      (h.kicks.quiet fun a ha => (hquiet a ha).2.2)
    · rw [lastAnswer_quiet fun a ha => (hquiet a ha).2.1]
      exact h.answered
    · rw [lastAnswer_quiet fun a ha => (hquiet a ha).2.1]
      rw [← hwarned] at halarm
      exact halarm.mono fun hw => hw.quiet fun a ha => (hquiet a ha).1

/-- the player is tracked, or forgotten -/
theorem Kept.remember (h : Kept db₀ r source last s) {liveness : Liveness} {source' : Source}
    (hsessions : ∀ e ∈ liveness.sessions, e.source = source → e.sessionId = r.id.toText)
    (hwarned : liveness.warned = update s.liveness.warned source' false) :
    Kept db₀ r source last { s with liveness := liveness } where
  entries e he hsource := by
    rcases List.mem_append.mp he with he | he
    · exact hsessions e he hsource
    · exact h.entries e (List.mem_append_right _ he) hsource
  idle := h.idle
  standing := h.standing
  reply := h.reply
  answered := h.answered
  alarm := by
    show Alarm _ _ _ (liveness.warned source) _
    rw [hwarned]
    by_cases hs : source = source'
    · rw [hs, update_self]
      rw [← hs]
      exact h.alarm.reset
    · rw [update_of_ne hs]
      exact h.alarm
  kicks := h.kicks

/-- **One event.** -/
theorem Kept.step (h : Kept db₀ r source last s) {e : Time × WatchEvent}
    (hu : Undisturbed r source s e) (hspaced : Spaced source s e) (hprompt : Prompt r source last s e)
    (hs : Watch.step P authorization e s = some s') : Kept db₀ r source last s' := by
  obtain ⟨t, e⟩ := e
  unfold Watch.step at hs
  split at hs
  · rename_i ht
    have hk := h.later ht
    have hentries : ∀ e ∈ s.liveness.sessions, e.source = source → e.sessionId = r.id.toText :=
      fun e he => h.entries e (List.mem_append_left _ he)
    cases e with
    | request c =>
      cases hs
      exact hk.serve hu
    | track entry =>
      cases hs
      refine hk.remember (fun e he hsource => ?_) rfl
      rcases List.mem_cons.mp he with rfl | he
      · exact hu hsource
      · exact hentries e (List.mem_filter.mp he).1 hsource
    | forget source' =>
      cases hs
      exact hk.remember (fun e he => hentries e (List.mem_filter.mp he).1) rfl
    | poll entries =>
      simp only [Watch.exec] at hs
      split at hs
      · rename_i hperm
        cases hs
        have hnone := hk.idle hperm.1
        refine ⟨fun e he => ?_, fun _ => hnone, hk.standing, fun _ _ _ _ _ hreply => ?_, hk.answered,
          hk.alarm, hk.kicks⟩
        · rcases List.mem_append.mp he with he | he
          · exact hentries e he
          · exact hentries e (hperm.2.mem_iff.mp he)
        · rw [show s.reply = none from hnone] at hreply
          cases hreply
      · cases hs
    | ask =>
      simp only [Watch.exec] at hs
      split at hs
      · rename_i entry rest htodo hnone
        cases hs
        have hserved := hk.serve (P := P) (c := .liveness authorization entry.sessionId) fun he => by
          cases he
        have hmem : entry ∈ s.todo := by
          rw [show s.todo = entry :: rest from htodo]
          exact List.mem_cons_self
        have hsame : lastAck r.id last (Watch.serve P t (.liveness authorization entry.sessionId)
            { s with now := t }).log = lastAck r.id last s.log := by
          refine lastAck_quiet fun a ha => ?_
          rw [List.mem_singleton.mp ha]
          rfl
        refine ⟨hserved.entries, fun hnil => ?_, hserved.standing,
          fun e rest' u x he hreply hsource => ?_, hserved.answered, hserved.alarm, hserved.kicks⟩
        · rw [show s.todo = [] from hnil] at htodo
          cases htodo
        · cases hreply
          rw [show s.todo = e :: rest' from he] at htodo
          cases htodo
          have hid := h.entries entry (List.mem_append_right _ hmem) hsource
          refine ⟨le_refl t, ?_⟩
          rw [hid] at hsame ⊢
          rw [hsame]
          exact hk.standing.answers (P := P) authorization
      · cases hs
    | answer =>
      simp only [Watch.exec] at hs
      split at hs
      · rename_i entry rest u x htodo hreply
        cases hs
        by_cases hown : entry.source = source ∧ Liveness.answer? (Http.finish x) ≠ none
        · obtain ⟨body, hb⟩ := Option.ne_none_iff_exists'.mp hown.2
          have hanswering : s.answering source = some u := by
            unfold Watch.answering
            rw [show s.todo = entry :: rest from htodo, show s.reply = some (u, x) from hreply]
            simp [hown.1, hb]
          exact hk.take_own htodo hreply hown.1 hb (fun a ha => hspaced u hanswering a ha)
            (hprompt u hanswering)
        · refine hk.take_other htodo fun hsource => ?_
          by_contra hne
          exact hown ⟨hsource, hne⟩
      · cases hs
    | fail =>
      simp only [Watch.exec] at hs
      split at hs
      · rename_i entry rest htodo
        cases hs
        refine ⟨fun e he => ?_, fun _ => rfl, hk.standing, fun _ _ _ _ _ hreply => (by cases hreply),
          hk.answered, hk.alarm, hk.kicks⟩
        refine hk.entries e ?_
        rcases List.mem_append.mp he with he | he
        · exact List.mem_append_left _ he
        · refine List.mem_append_right _ ?_
          rw [show s.todo = entry :: rest from htodo]
          exact List.mem_cons_of_mem entry he
      · cases hs
  · cases hs

/-- **A player is warned before he is kicked**, in every run of heartbeats and polls. -/
theorem kick_warned (h0 : Joined r source last s)
    (h : Machine.Steps (Watch.step P authorization) (fun s e =>
      Undisturbed r source s e ∧ Spaced source s e ∧ Prompt r source last s e) s s') :
    KicksWarned r.id source s'.log :=
  (h.inv (Kept s.db r source last)
    (fun _ _ _ hk hg hs => hk.step hg.1 hg.2.1 hg.2.2 hs) h0.kept).kicks

end

/-! ## two players -/

/-- the player of `admitted_row` in game: the resource has just tracked him as player 1 -/
def watch (s : System) : Watch where
  now := s.now
  db := s.db
  liveness := Liveness.track 1 Deployment.sessionId ⟨[], fun _ => false⟩
  todo := []
  reply := none
  log := []

/-- a poll whose answer the resource gets at once -/
def pollAt (t : Time) : List (Time × WatchEvent) :=
  [(t, .poll [⟨1, Deployment.sessionId⟩]), (t, .ask), (t, .answer)]

theorem watch_joined {s : System} {r : AttestationSession} {last : Time} (hr : r ∈ s.db.sessions)
    (hs : r.state = .active) (hl : r.lastHeartbeatAt = some last)
    (hid : r.id.toText = Deployment.sessionId) : Joined r 1 last (watch s) where
  row := hr
  active := hs
  beat := hl
  unwarned := rfl
  entries e he _ := by
    rw [List.mem_singleton.mp he, hid]
  todo _ he := absurd he List.not_mem_nil
  idle _ := rfl
  log := rfl

open Deployment in
/-- the admitted player in game -/
theorem watch_attested : ∃ s, after .fail_closed (issue ++ attest []) = some s ∧
    admittedRow ∈ s.db.sessions ∧ Joined admittedRow 1 admittedAt (watch s) ∧
    watch s = watch ⟨admittedAt, admittedDb .fail_closed, fun _ => none⟩ := by
  obtain ⟨s, hs, hnow, hdb⟩ := attested .fail_closed
  have hr : admittedRow ∈ s.db.sessions := by
    rw [hdb]
    exact List.mem_singleton_self _
  refine ⟨s, hs, hr, watch_joined hr rfl rfl (by decide), ?_⟩
  simp only [watch, hnow, hdb]

open Deployment in
/-- three polls, 60, 130 and 210 seconds after the player was admitted: the second warns him and the
third kicks him -/
theorem kick_warned_polled : ∃ s, after .fail_closed (issue ++ attest []) = some s ∧
    ∃ r ∈ s.db.sessions, ∃ s', Machine.Steps (Watch.step platform authorization) (fun s e =>
      Undisturbed r 1 s e ∧ Spaced 1 s e ∧ Prompt r 1 admittedAt s e) (watch s) s' ∧
        s'.log.any (Act.kicks 1) = true ∧ KicksWarned r.id 1 s'.log := by
  obtain ⟨s, hs, hr, hjoined, hwatch⟩ := watch_attested
  have hrun : (Machine.run (Machine.guarded (Watch.step platform authorization) fun s e =>
      Undisturbed admittedRow 1 s e ∧ Spaced 1 s e ∧ Prompt admittedRow 1 admittedAt s e)
      (pollAt (admittedAt + 60000) ++ pollAt (admittedAt + 130000) ++ pollAt (admittedAt + 210000))
      (watch ⟨admittedAt, admittedDb .fail_closed, fun _ => none⟩)).any
        (fun s' => s'.log.any (Act.kicks 1)) = true := by decide +kernel
  rw [← hwatch] at hrun
  obtain ⟨s', hs', hkick⟩ := (Option.any_eq_true _ _).mp hrun
  have hsteps := Machine.Steps.of_guarded _ _ _ hs'
  exact ⟨s, hs, admittedRow, hr, s', hsteps, hkick, kick_warned hjoined hsteps⟩

theorem KicksWarned.warns {id : Uuid} {source : Source} {log : List Act}
    (h : KicksWarned id source log) (hk : log.any (Act.kicks source) = true) :
    log.any (Act.warns source) = true := by
  obtain ⟨a, ha, hkick⟩ := List.any_eq_true.mp hk
  obtain ⟨before, after, rfl⟩ := List.append_of_mem ha
  unfold Act.kicks at hkick
  split at hkick
  · rename_i source' reason
    simp only [Bool.and_eq_true, decide_eq_true_eq] at hkick
    obtain ⟨rfl, hreason⟩ := hkick
    obtain ⟨first, rest, rfl, _⟩ := h before reason after rfl hreason
    simp [Act.warns]
  · cases hkick

open Deployment in
/-- one poll, 210 seconds after the player was admitted: there is no poll before it -/
theorem kick_unwarned : ¬ ∀ (system : System), Reachable platform system →
    ∀ (r : AttestationSession) (source : Source) (last : Time) (s s' : Watch),
      s.db = system.db → Joined r source last s →
      Machine.Steps (Watch.step platform authorization) (fun s e =>
        Undisturbed r source s e ∧ Spaced source s e) s s' → KicksWarned r.id source s'.log := by
  intro h
  obtain ⟨s, hs, hr, hjoined, hwatch⟩ := watch_attested
  have hrun : (Machine.run (Machine.guarded (Watch.step platform authorization) fun s e =>
      Undisturbed admittedRow 1 s e ∧ Spaced 1 s e) (pollAt (admittedAt + 210000))
      (watch ⟨admittedAt, admittedDb .fail_closed, fun _ => none⟩)).any
        (fun s' => s'.log.any (Act.kicks 1) && !s'.log.any (Act.warns 1)) = true := by decide +kernel
  rw [← hwatch] at hrun
  obtain ⟨s', hs', hkick⟩ := (Option.any_eq_true _ _).mp hrun
  rw [Bool.and_eq_true, Bool.not_eq_true'] at hkick
  have hwarned := h s (reachable_after hs) admittedRow 1 admittedAt (watch s) s' rfl hjoined
    (Machine.Steps.of_guarded _ _ _ hs')
  have hwarns := hwarned.warns hkick.1
  rw [hkick.2] at hwarns
  cases hwarns

end Resource
