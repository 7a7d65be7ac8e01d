import Mathlib.Data.Option.Basic
import Mathlib.Order.Basic

/-!
# Warnings before a removal

A watcher polls for the last sign of life of somebody.  A sign of life is good for `interval`; after
that a poll finds it overdue and the watcher warns, unless it remembers that it has warned (`flag`);
after another `grace` a poll finds it expired.  When a poll finds everything well, the watcher forgets
the warning; it may forget it at any other time too.

* `Alarm`           what holds at any time of the flag and of the last poll;
* `Alarm.beat`, `Alarm.well`, `Alarm.overdue`, `Alarm.warn`, `Alarm.reset`   it is kept;
* `Alarm.expired`   a poll that finds the sign of life expired comes after a warning, if the polls are
                    less than `grace` apart.
-/

/-- `last` is the last sign of life, `poll` the last poll, `flag` what the watcher remembers and `told`
says that it has warned since `last` -/
structure Alarm (interval last : Nat) (poll : Option Nat) (flag : Bool) (told : Prop) : Prop where
  flagged : flag = true → ∃ a, poll = some a ∧ (told ∨ a ≤ last)
  late : ∀ a, poll = some a → last + interval < a → told

namespace Alarm

variable {interval grace last t : Nat} {poll : Option Nat} {flag : Bool} {told told' : Prop}

/-- nothing has happened since the sign of life -/
theorem start : Alarm interval last none false told :=
  ⟨fun h => (by cases h), fun _ h => (by cases h)⟩

/-- a new sign of life; a warning before it does not count -/
theorem beat (h : Alarm interval last poll flag told) (ht : ∀ a, poll = some a → a ≤ t) :
    Alarm interval t poll flag told' := by
  refine ⟨fun hf => ?_, fun a ha hlate => ?_⟩
  · obtain ⟨a, ha, _⟩ := h.flagged hf
    exact ⟨a, ha, .inr (ht a ha)⟩
  · have hle := ht a ha
    omega

/-- the watcher forgets the warning -/
theorem reset (h : Alarm interval last poll flag told) : Alarm interval last poll false told :=
  ⟨fun hf => (by cases hf), h.late⟩

theorem mono (h : Alarm interval last poll flag told) (hm : told → told') :
    Alarm interval last poll flag told' := by
  refine ⟨fun hf => ?_, fun a ha hlate => hm (h.late a ha hlate)⟩
  obtain ⟨a, ha, hor⟩ := h.flagged hf
  exact ⟨a, ha, hor.imp_left hm⟩

/-- a poll that finds everything well -/
theorem well (ht : t ≤ last + interval) : Alarm interval last (some t) false told := by
  refine ⟨fun hf => (by cases hf), fun a ha hlate => ?_⟩
  cases ha
  omega

/-- a poll after which the watcher has warned -/
theorem warn (ht : told) : Alarm interval last (some t) flag told :=
  ⟨fun _ => ⟨t, rfl, .inl ht⟩, fun _ _ _ => ht⟩

/-- a poll that finds it overdue when the watcher remembers a warning: the poll before was less than
`grace` ago, so the warning is not from before the sign of life, unless that has come meanwhile -/
theorem overdue (h : Alarm interval last poll true told) (hgrace : grace ≤ interval)
    (hspaced : ∀ a, poll = some a → t < a + grace) (ht : last + interval < t ∨ t ≤ last) :
    Alarm interval last (some t) flag told := by
  obtain ⟨a, ha, htold | hle⟩ := h.flagged rfl
  · exact warn htold
  · have hlt := hspaced a ha
    have htl : t ≤ last := by omega
    refine ⟨fun _ => ⟨t, rfl, .inr htl⟩, fun b hb hlate => ?_⟩
    cases hb
    omega

/-- **A poll that finds it expired comes after a warning.** -/
theorem expired (h : Alarm interval last poll flag told)
    (hspaced : ∀ a, poll = some a → t < a + grace)
    (hfirst : poll = none → t < last + (interval + grace)) (ht : last + (interval + grace) ≤ t) :
    told := by
  cases hp : poll with
  | none =>
    have hlt := hfirst hp
    omega
  | some a =>
    have hlt := hspaced a hp
    exact h.late a hp (by omega)

end Alarm
