import FiveProtect.Lib.Period
import FiveProtect.Lib.Run
import FiveProtect.Resource.Liveness

/-!
# One warning for each grace period

`resources/fiveprotect/server/liveness.lua` from the start of the resource: players are tracked and
forgotten while `Liveness.poll` goes through those that were tracked when it began.  What happens to a
player is noted, and a response without `graceExpiresAt` and a new tracking end a grace period.

* `Polls.step`      the events;
* `OneWarning`      a grace period has one warning;
* `Overpolled`      three responses of one grace period, or two with the player forgotten in between;
* `Marked`          what the flag of the player says about the notes of the current period;
* `one_warning`     the flag is cleared by the second response of a grace period, so that the third
                    brings a second warning.
-/

namespace Resource
open Protocol Function Machine

/-- what happens to a player -/
inductive Note where
  | tracked
  | forgotten
  /-- a valid response: does it have `graceExpiresAt`, does it say `shouldKick`? -/
  | response (grace kick : Bool)
  | warned
  deriving DecidableEq

/-- a grace period is over -/
def Note.ends : Note → Bool
  | .tracked => true
  | .response grace _ => !grace
  | _ => false

structure Polls where
  liveness : Liveness
  /-- what is left of the loop in `Liveness.poll` -/
  todo : List Entry
  notes : Source → List Note

inductive PollEvent where
  | track (entry : Entry)
  | forget (source : Source)
  /-- `Liveness.poll` is called; the order of `pairs` is not specified -/
  | poll (entries : List Entry)
  /-- the result for the first that is left -/
  | answer (result : HttpResult)

/-- what is noted about a result -/
def HttpResult.notes (result : HttpResult) : List Note :=
  match Liveness.answer? result with
  | none => []
  | some body => [.response (!Lua.isNil (body.field "graceExpiresAt"))
      (Gate.isTruthy (body.field "shouldKick"))]

/-- what is noted about an effect; a player who is dropped is forgotten as well -/
def LivenessEffect.note : LivenessEffect → Note
  | .warn _ => .warned
  | .dropPlayer _ _ => .forgotten

namespace Polls

def start : Polls where
  liveness := ⟨[], fun _ => false⟩
  todo := []
  notes _ := []

def note (source : Source) (notes : List Note) (s : Polls) : Polls :=
  { s with notes := update s.notes source (s.notes source ++ notes) }

def step (e : PollEvent) (s : Polls) : Option Polls :=
  match e with
  | .track entry =>
    some ({ s with liveness := s.liveness.track entry.source entry.sessionId }.note entry.source
      [.tracked])
  | .forget source => some ({ s with liveness := s.liveness.forget source }.note source [.forgotten])
  | .poll entries =>
    if s.todo = [] ∧ entries.Perm s.liveness.tracked then some { s with todo := entries } else none
  | .answer result =>
    match s.todo with
    | [] => none
    | entry :: rest =>
      let (liveness, effects) := s.liveness.handle entry result
      some ({ s with liveness := liveness, todo := rest }.note entry.source
        (result.notes ++ effects.map LivenessEffect.note))

end Polls

/-- each grace period has exactly one warning: between any two of them a period ends, and a response
with `graceExpiresAt` comes with a warning or after one of its period -/
structure OneWarning (notes : List Note) : Prop where
  apart : Period.Apart Note.ends .warned notes
  warned : ∀ before after, notes = before ++ .response true false :: after →
    after.head? = some .warned ∨ .warned ∈ Period.current Note.ends before

/-- three responses of a grace period, or two with the player forgotten in between -/
def Recurs (notes : List Note) : Prop :=
  [.response true false, .response true false, .response true false].Sublist notes ∨
    [.response true false, .forgotten, .response true false].Sublist notes

/-- a grace period is polled more than twice, or the player is forgotten between two of its responses -/
def Overpolled (notes : List Note) : Prop := Period.Contains Note.ends Recurs notes

/-! ## the notes -/

/-- two responses of a grace period, or one and then the player is forgotten -/
def Twice (notes : List Note) : Prop :=
  [.response true false, .response true false].Sublist notes ∨
    [.response true false, .forgotten].Sublist notes

section
variable {notes : List Note} {a b : Note}

theorem sublist_concat {l p : List Note} :
    (l ++ [a]).Sublist (p ++ [b]) ↔ (l ++ [a]).Sublist p ∨ a = b ∧ l.Sublist p := by
  rw [← List.reverse_sublist, List.reverse_concat, List.reverse_concat, List.cons_sublist_cons',
    ← List.reverse_concat, List.reverse_sublist, List.reverse_sublist]

theorem twice_append : Twice (notes ++ [b]) ↔
    Twice notes ∨ (b = .response true false ∨ b = .forgotten) ∧ .response true false ∈ notes := by
  have hpair : ∀ a, [.response true false, a].Sublist (notes ++ [b]) ↔
      [.response true false, a].Sublist notes ∨ a = b ∧ .response true false ∈ notes := by
    intro a
    rw [← List.singleton_sublist]
    exact sublist_concat (l := [.response true false])
  unfold Twice
  rw [hpair, hpair]
  constructor
  · rintro ((h | ⟨rfl, h⟩) | h | ⟨rfl, h⟩)
    · exact .inl (.inl h)
    · exact .inr ⟨.inl rfl, h⟩
    · exact .inl (.inr h)
    · exact .inr ⟨.inr rfl, h⟩
  · rintro ((h | h) | ⟨rfl | rfl, h⟩)
    · exact .inl (.inl h)
    · exact .inr (.inl h)
    · exact .inl (.inr ⟨rfl, h⟩)
    · exact .inr (.inr ⟨rfl, h⟩)

theorem recurs_append :
    Recurs (notes ++ [b]) ↔ Recurs notes ∨ b = .response true false ∧ Twice notes := by
  have htriple : ∀ a, [.response true false, a, .response true false].Sublist (notes ++ [b]) ↔
      [.response true false, a, .response true false].Sublist notes ∨
        .response true false = b ∧ [.response true false, a].Sublist notes := by
    intro a
    exact sublist_concat (l := [.response true false, a])
  unfold Recurs Twice
  rw [htriple, htriple]
  constructor
  · rintro ((h | ⟨rfl, h⟩) | h | ⟨rfl, h⟩)
    · exact .inl (.inl h)
    · exact .inr ⟨rfl, .inl h⟩
    · exact .inl (.inr h)
    · exact .inr ⟨rfl, .inr h⟩
  · rintro ((h | h) | ⟨rfl, h | h⟩)
    · exact .inl (.inl h)
    · exact .inr (.inl h)
    · exact .inl (.inr ⟨rfl, h⟩)
    · exact .inr (.inr ⟨rfl, h⟩)

theorem recurs_mono {x y : List Note} (h : x <:+: y) (hx : Recurs x) : Recurs y :=
  hx.imp (fun hs => hs.trans h.sublist) fun hs => hs.trans h.sublist

theorem overpolled_append : Overpolled (notes ++ [b]) ↔
    Overpolled notes ∨ b = .response true false ∧ Twice (Period.current Note.ends notes) := by
  have hnil : ¬ Recurs [] := by
    rintro (h | h) <;> cases h
  unfold Overpolled
  rw [Period.contains_append (fun _ _ => recurs_mono) hnil, recurs_append]
  constructor
  · rintro (h | ⟨_, h | h⟩)
    · exact .inl h
    · exact .inl ⟨_, Period.stretch_current, h⟩
    · exact .inr h
  · rintro (h | ⟨rfl, h⟩)
    · exact .inl h
    · exact .inr ⟨rfl, .inr ⟨rfl, h⟩⟩

end

/-! ## the flag -/

/-- what the flag of a player says about the notes of the current period -/
structure Marked (notes : List Note) (flag : Bool) : Prop where
  seen : .warned ∈ Period.current Note.ends notes ↔
    .response true false ∈ Period.current Note.ends notes
  set : flag = true → .warned ∈ Period.current Note.ends notes ∧
    (Twice (Period.current Note.ends notes) → Overpolled notes)
  unset : flag = false → .warned ∈ Period.current Note.ends notes →
    Twice (Period.current Note.ends notes)
  apart : Period.Apart Note.ends .warned notes ↔ ¬ Overpolled notes
  warned : ∀ before after, notes = before ++ .response true false :: after →
    after.head? = some .warned ∨ .warned ∈ Period.current Note.ends before

section
variable {notes : List Note} {a : Note} {flag : Bool}

theorem Marked.start : Marked [] false where
  seen := by
    refine iff_of_false ?_ ?_ <;> exact List.not_mem_nil
  set h := by cases h
  unset _ h := absurd h List.not_mem_nil
  apart := by
    refine iff_of_true Period.apart_nil ?_
    rintro ⟨mid, ⟨before, after, hl, _⟩, h⟩
    have hmid : mid = [] := by
      cases before <;> cases mid <;> cases hl
      rfl
    subst hmid
    rcases h with h | h <;> cases h
  warned before after h := by
    cases before <;> cases h

/-- a note other than a warning keeps what was said about the responses before it -/
theorem Marked.warned_append (h : Marked notes flag)
    (ha : a = .response true false → .warned ∈ Period.current Note.ends notes) :
    ∀ before after, notes ++ [a] = before ++ .response true false :: after →
      after.head? = some .warned ∨ .warned ∈ Period.current Note.ends before := by
  intro before after he
  rcases List.eq_nil_or_concat after with rfl | ⟨after, b, rfl⟩
  · obtain ⟨rfl, hlast⟩ := List.append_inj' he rfl
    exact .inr (ha (List.singleton_inj.mp hlast))
  · rw [List.concat_eq_append, ← List.cons_append, ← List.append_assoc] at he
    obtain ⟨hnotes, _⟩ := List.append_inj' he rfl
    refine (h.warned before after hnotes).imp_left fun hhead => ?_
    rw [List.concat_eq_append, List.head?_append, hhead]
    rfl

theorem Marked.apart_append (h : Marked notes flag) (hne : a ≠ .warned)
    (ha : a = .response true false → Twice (Period.current Note.ends notes) → Overpolled notes) :
    Period.Apart Note.ends .warned (notes ++ [a]) ↔ ¬ Overpolled (notes ++ [a]) := by
  rw [Period.apart_append rfl, overpolled_append, h.apart]
  constructor
  · rintro ⟨hnot, _⟩ (hover | ⟨heq, htwice⟩)
    · exact hnot hover
    · exact hnot (ha heq htwice)
  · intro hnot
    exact ⟨fun hover => hnot (.inl hover), fun heq => absurd heq hne⟩

/-- a period ends -/
theorem Marked.ended (h : Marked notes flag) (ha : a.ends = true) : Marked (notes ++ [a]) false := by
  have hne : a ≠ .response true false := by
    rintro rfl
    cases ha
  refine ⟨?_, fun hf => (by cases hf), fun _ hmem => ?_, ?_, ?_⟩
  · rw [Period.current_ended ha]
    refine iff_of_false ?_ ?_ <;> exact List.not_mem_nil
  · rw [Period.current_ended ha] at hmem
    exact absurd hmem List.not_mem_nil
  · apply h.apart_append
    · rintro rfl
      cases ha
    · exact fun heq => absurd heq hne
  · exact h.warned_append fun heq => absurd heq hne

/-- a response that kicks -/
theorem Marked.kick (h : Marked notes flag) : Marked (notes ++ [.response true true]) flag := by
  have hcur : Period.current Note.ends (notes ++ [.response true true]) =
      Period.current Note.ends notes ++ [.response true true] := Period.current_open rfl
  have htwice : Twice (Period.current Note.ends (notes ++ [.response true true])) ↔
      Twice (Period.current Note.ends notes) := by
    rw [hcur, twice_append]
    simp
  have hover : Overpolled (notes ++ [.response true true]) ↔ Overpolled notes := by
    rw [overpolled_append]
    simp
  refine ⟨?_, ?_, ?_, ?_, ?_⟩
  · rw [hcur]
    simpa using h.seen
  · rw [htwice, hover, hcur]
    intro hf
    exact ⟨List.mem_append_left _ (h.set hf).1, (h.set hf).2⟩
  · rw [htwice, hcur]
    intro hf hmem
    exact h.unset hf (by simpa using hmem)
  · exact h.apart_append (fun heq => by cases heq) fun heq => by cases heq
  · exact h.warned_append fun heq => by cases heq

theorem Marked.forgotten (h : Marked notes flag) : Marked (notes ++ [.forgotten]) false := by
  have hcur : Period.current Note.ends (notes ++ [.forgotten]) =
      Period.current Note.ends notes ++ [.forgotten] := Period.current_open rfl
  refine ⟨?_, fun hf => (by cases hf), fun _ hmem => ?_, ?_, ?_⟩
  · rw [hcur]
    simpa using h.seen
  · rw [hcur] at hmem ⊢
    have hmem : Note.warned ∈ Period.current Note.ends notes := by simpa using hmem
    exact twice_append.mpr (.inr ⟨.inr rfl, h.seen.mp hmem⟩)
  · exact h.apart_append (fun heq => by cases heq) fun heq => by cases heq
  · exact h.warned_append fun heq => by cases heq

/-- a response of a grace period that clears the flag -/
theorem Marked.cleared (h : Marked notes true) : Marked (notes ++ [.response true false]) false := by
  have hcur : Period.current Note.ends (notes ++ [.response true false]) =
      Period.current Note.ends notes ++ [.response true false] := Period.current_open rfl
  obtain ⟨hwarned, htwice⟩ := h.set rfl
  refine ⟨?_, fun hf => (by cases hf), fun _ _ => ?_, ?_, ?_⟩
  · rw [hcur]
    refine iff_of_true (List.mem_append_left _ hwarned) ?_
    exact List.mem_append_right _ (List.mem_singleton_self _)
  · rw [hcur]
    exact twice_append.mpr (.inr ⟨.inl rfl, h.seen.mp hwarned⟩)
  · exact h.apart_append (fun heq => by cases heq) fun _ => htwice
  · exact h.warned_append fun _ => hwarned

/-- a response of a grace period that brings a warning -/
theorem Marked.warn (h : Marked notes false) :
    Marked (notes ++ [.response true false, .warned]) true := by
  have hsplit : notes ++ [.response true false, .warned] =
      (notes ++ [.response true false]) ++ [.warned] := by simp
  have hcur : Period.current Note.ends (notes ++ [.response true false]) =
      Period.current Note.ends notes ++ [.response true false] := Period.current_open rfl
  have hcur' : Period.current Note.ends (notes ++ [.response true false] ++ [.warned]) =
      Period.current Note.ends (notes ++ [.response true false]) ++ [.warned] := Period.current_open rfl
  have hover : Overpolled ((notes ++ [.response true false]) ++ [.warned]) ↔
      Overpolled notes ∨ Twice (Period.current Note.ends notes) := by
    rw [overpolled_append, overpolled_append]
    simp
  -- the response itself is the first of the period, or it recurs
  have hagain : Note.warned ∈ Period.current Note.ends notes ↔
      Twice (Period.current Note.ends notes) := by
    refine ⟨h.unset rfl, fun htwice => h.seen.mpr ?_⟩
    rcases htwice with hs | hs
    · exact hs.subset List.mem_cons_self
    · exact hs.subset List.mem_cons_self
  rw [hsplit]
  refine ⟨?_, fun _ => ⟨?_, ?_⟩, fun hf => (by cases hf), ?_, ?_⟩
  · rw [hcur', hcur]
    refine iff_of_true ?_ ?_ <;> simp
  · rw [hcur', hcur]
    simp
  · rw [hover, hcur', hcur, twice_append, twice_append]
    intro htwice
    right
    simpa [← hagain, h.seen] using htwice
  · rw [Period.apart_append rfl, Period.apart_append rfl, hover, h.apart, hcur, ← hagain, not_or]
    simp
  · intro before after he
    rcases List.eq_nil_or_concat after with rfl | ⟨after, b, rfl⟩
    · obtain ⟨_, hlast⟩ := List.append_inj' he rfl
      cases List.singleton_inj.mp hlast
    · rw [List.concat_eq_append, ← List.cons_append, ← List.append_assoc] at he
      obtain ⟨hnotes, hb⟩ := List.append_inj' he rfl
      rcases List.eq_nil_or_concat after with rfl | ⟨after, c, rfl⟩
      · left
        rw [List.concat_eq_append, ← hb]
        rfl
      · rw [List.concat_eq_append, ← List.cons_append, ← List.append_assoc] at hnotes
        obtain ⟨hnotes, _⟩ := List.append_inj' hnotes rfl
        refine (h.warned before after hnotes).imp_left fun hhead => ?_
        rw [List.concat_eq_append, List.concat_eq_append, List.head?_append, List.head?_append, hhead]
        rfl

end

/-! ## one event -/

/-- what a result does to the flag of its player, and what is noted -/
inductive Taken : Bool → List Note → Bool → Prop
  | nothing (flag : Bool) : Taken flag [] flag
  | kick (flag grace : Bool) : Taken flag [.response grace true, .forgotten] false
  | well (flag : Bool) : Taken flag [.response false false] false
  | warn : Taken false [.response true false, .warned] true
  | cleared : Taken true [.response true false] false

theorem handle_taken (l : Liveness) (entry : Entry) (result : HttpResult) :
    Taken (l.warned entry.source)
      (result.notes ++ (l.handle entry result).2.map LivenessEffect.note)
      ((l.handle entry result).1.warned entry.source) := by
  unfold HttpResult.notes Liveness.handle
  cases Liveness.answer? result with
  | none => exact .nothing _
  | some body =>
    dsimp only
    unfold Liveness.decide
    cases hkick : Gate.isTruthy (body.field "shouldKick") with
    | true => simpa [Liveness.forget, LivenessEffect.note] using Taken.kick _ _
    | false =>
      cases hgrace : Lua.isNil (body.field "graceExpiresAt") with
      | true => simpa using Taken.well _
      | false =>
        cases hflag : l.warned entry.source with
        | true => simpa [hflag] using Taken.cleared
        | false => simpa [LivenessEffect.note] using Taken.warn

theorem Marked.taken {notes new : List Note} {flag flag' : Bool} (h : Marked notes flag)
    (ht : Taken flag new flag') : Marked (notes ++ new) flag' := by
  cases ht with
  | nothing =>
    rw [List.append_nil]
    exact h
  | kick _ grace =>
    rw [← List.singleton_append, ← List.append_assoc]
    cases grace with
    | true => exact h.kick.forgotten
    | false => exact (h.ended rfl).forgotten
  | well => exact h.ended rfl
  | warn => exact h.warn
  | cleared => exact h.cleared

/-! ## every run -/

/-- what is known of all players -/
def Polls.Marked (s : Polls) : Prop := ∀ source, Resource.Marked (s.notes source) (s.liveness.warned source)

section
variable {s s' : Polls} {e : PollEvent}

/-- something is noted about one player, and the flags of the others stay as they are -/
theorem Polls.Marked.note (h : s.Marked) {source : Source} {notes : List Note} {liveness : Liveness}
    {todo : List Entry}
    (hown : Resource.Marked (s.notes source ++ notes) (liveness.warned source))
    (hother : ∀ other, other ≠ source → liveness.warned other = s.liveness.warned other) :
    (Polls.note source notes { s with liveness := liveness, todo := todo }).Marked := by
  intro other
  by_cases ho : other = source
  · subst ho
    show Resource.Marked (update s.notes other (s.notes other ++ notes) other) _
    rw [update_self]
    exact hown
  · show Resource.Marked (update s.notes source (s.notes source ++ notes) other) _
    rw [update_of_ne ho]
    show Resource.Marked _ (liveness.warned other)
    rw [hother other ho]
    exact h other

theorem Polls.Marked.step (h : s.Marked) (he : Polls.step e s = some s') : s'.Marked := by
  cases e with
  | track entry =>
    cases he
    apply h.note
    · show Resource.Marked _ (update s.liveness.warned entry.source false entry.source)
      rw [update_self]
      exact (h entry.source).ended rfl
    · exact fun other ho => update_of_ne ho _ _
  | forget source =>
    cases he
    apply h.note
    · show Resource.Marked _ (update s.liveness.warned source false source)
      rw [update_self]
      exact (h source).forgotten
    · exact fun other ho => update_of_ne ho _ _
  | poll entries =>
    unfold Polls.step at he
    dsimp only at he
    split at he
    · cases he
      exact h
    · cases he
  | answer result =>
    unfold Polls.step at he
    dsimp only at he
    split at he
    · cases he
    · rename_i entry rest _
      cases he
      apply h.note
      · exact (h entry.source).taken (handle_taken s.liveness entry result)
      · intro other ho
        exact (handle_other s.liveness result fun heq => ho heq.symm).1

theorem Polls.Marked.run {events : List PollEvent} (h : run Polls.step events .start = some s) :
    s.Marked :=
  run_inv (fun _ s => s.Marked) (fun _ _ _ _ hs he => hs.step he) (fun _ => .start) events s h

/-- **One warning for each grace period**, exactly if no grace period of the player is polled more than
twice and he is not forgotten between two of its responses. -/
theorem one_warning {events : List PollEvent} (h : Machine.run Polls.step events .start = some s)
    (source : Source) : OneWarning (s.notes source) ↔ ¬ Overpolled (s.notes source) := by
  have hmarked := Polls.Marked.run h source
  exact ⟨fun hone => hmarked.apart.mp hone.apart, fun hnot => ⟨hmarked.apart.mpr hnot, hmarked.warned⟩⟩

end

/-! ## three polls of a grace period -/

def player : Entry := ⟨7, (Uuid.small 5).toText⟩

/-- a response in the grace period -/
def graceResult : HttpResult := .ok 200 (LuaValue.ofJson
  ({ sessionId := Uuid.small 5
     state := .active
     lastHeartbeatAt := some "2026-08-04T14:09:41.412Z"
     graceExpiresAt := some "2026-08-04T14:13:11.412Z"
     shouldKick := false
     reason := none } : LivenessResponse).toJson)

/-- the player is tracked, and his grace period is polled twice -/
def polledTwice : List PollEvent :=
  [.track player, .poll [player], .answer graceResult, .poll [player], .answer graceResult]

theorem Overpolled.recurs {notes : List Note} (h : Overpolled notes) : Recurs notes := by
  obtain ⟨mid, ⟨before, after, rfl, _⟩, hrecurs⟩ := h
  exact recurs_mono ⟨before, after, by simp⟩ hrecurs

theorem one_warning_twice : ∃ s, Machine.run Polls.step polledTwice .start = some s ∧
    s.notes player.source =
      [.tracked, .response true false, .warned, .response true false] ∧
    OneWarning (s.notes player.source) := by
  obtain ⟨s, hrun, hnotes⟩ := (Option.any_eq_true _ _).mp
    (show (Machine.run Polls.step polledTwice .start).any (fun s => s.notes player.source =
      [.tracked, .response true false, .warned, .response true false]) = true by decide +kernel)
  have hnotes := of_decide_eq_true hnotes
  refine ⟨s, hrun, hnotes, (one_warning hrun player.source).mpr fun hover => ?_⟩
  rw [hnotes] at hover
  rcases hover.recurs with h | h
  · exact absurd h (by decide)
  · exact absurd h (by decide)

/-- the third poll warns again -/
theorem warned_twice :
    ∃ s, Machine.run Polls.step (polledTwice ++ [.poll [player], .answer graceResult]) .start = some s ∧
      ¬ OneWarning (s.notes player.source) := by
  obtain ⟨s, hrun, hnotes⟩ := (Option.any_eq_true _ _).mp
    (show (Machine.run Polls.step (polledTwice ++ [.poll [player], .answer graceResult]) .start).any
      (fun s => s.notes player.source =
        [.tracked, .response true false, .warned, .response true false, .response true false,
          .warned]) = true by decide +kernel)
  have hnotes := of_decide_eq_true hnotes
  refine ⟨s, hrun, fun hone => ?_⟩
  rw [hnotes] at hone
  obtain ⟨a, ha, hends⟩ := hone.apart [.tracked, .response true false]
    [.response true false, .response true false] [] rfl
  have hgrace : a = .response true false := by simpa using ha
  rw [hgrace] at hends
  cases hends

end Resource
