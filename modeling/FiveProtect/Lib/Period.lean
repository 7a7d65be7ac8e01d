import Mathlib.Data.List.DropRight
import Mathlib.Data.List.Infix

/-!
# Periods of a log

Some entries of a log end a period.  A stretch is a part of the log without such an entry, and what has
been logged since the last one is the current period.

* `current`            the current period, and how it grows;
* `Apart`              between any two marks a period ends;
* `Contains`           some stretch has a property;
* `apart_append`, `contains_append`   both are read off the current period as the log grows.
-/

namespace Period

variable {α : Type} (ends : α → Bool)

/-- what was logged since the last period ended -/
def current (l : List α) : List α := l.rtakeWhile fun a => !ends a

/-- a part of the log without an end of a period -/
def Stretch (l mid : List α) : Prop :=
  ∃ before after, l = before ++ (mid ++ after) ∧ ∀ a ∈ mid, ends a = false

/-- between any two marks a period ends -/
def Apart (mark : α) (l : List α) : Prop :=
  ∀ before mid after, l = before ++ mark :: (mid ++ mark :: after) → ∃ a ∈ mid, ends a = true

/-- some stretch has the property -/
def Contains (p : List α → Prop) (l : List α) : Prop := ∃ mid, Stretch ends l mid ∧ p mid

variable {ends} {l mid : List α} {a mark : α}

theorem current_open (ha : ends a = false) : current ends (l ++ [a]) = current ends l ++ [a] := by
  unfold current
  rw [List.rtakeWhile_concat, ha]
  rfl

theorem current_ended (ha : ends a = true) : current ends (l ++ [a]) = [] := by
  unfold current
  rw [List.rtakeWhile_concat, ha]
  rfl

theorem not_ends_of_mem (h : a ∈ current ends l) : ends a = false := by
  have hnot := List.mem_rtakeWhile_imp h
  rwa [Bool.not_eq_true'] at hnot

theorem stretch_current : Stretch ends l (current ends l) := by
  obtain ⟨before, hbefore⟩ := List.rtakeWhile_suffix (fun a => !ends a) l
  refine ⟨before, [], ?_, fun a ha => not_ends_of_mem ha⟩
  rw [List.append_nil]
  exact hbefore.symm

/-- a stretch at the end belongs to the current period -/
theorem suffix_current {before : List α} (hl : l = before ++ mid) (hmid : ∀ a ∈ mid, ends a = false) :
    mid <:+ current ends l := by
  subst hl
  induction mid using List.reverseRecOn with
  | nil => exact List.nil_suffix
  | append_singleton mid a ih =>
    have ha : ends a = false := hmid a (List.mem_append_right _ (List.mem_singleton_self a))
    obtain ⟨rest, hrest⟩ := ih fun x hx => hmid x (List.mem_append_left _ hx)
    rw [← List.append_assoc, current_open ha]
    refine ⟨rest, ?_⟩
    rw [← List.append_assoc, hrest]

/-- an entry of the current period has no end after it -/
theorem mem_current (h : a ∈ current ends l) :
    ∃ before after, l = before ++ a :: after ∧ ∀ x ∈ after, ends x = false := by
  obtain ⟨first, last, hsplit⟩ := List.append_of_mem h
  obtain ⟨start, hstart⟩ := List.rtakeWhile_suffix (fun a => !ends a) l
  refine ⟨start ++ first, last, ?_, fun x hx => not_ends_of_mem (l := l) ?_⟩
  · rw [← hstart]
    show start ++ current ends l = _
    rw [hsplit, List.append_assoc]
  · rw [hsplit]
    exact List.mem_append_right _ (List.mem_cons_of_mem _ hx)

theorem apart_nil : Apart ends mark [] := by
  intro before mid after h
  cases before <;> cases h

theorem apart_append (hmark : ends mark = false) : Apart ends mark (l ++ [a]) ↔
    Apart ends mark l ∧ (a = mark → mark ∉ current ends l) := by
  constructor
  · intro h
    refine ⟨fun before mid after hl => ?_, fun ha hmem => ?_⟩
    · apply h before mid (after ++ [a])
      rw [hl]
      simp
    · obtain ⟨before, after, hl, hafter⟩ := mem_current hmem
      obtain ⟨x, hx, hends⟩ := h before after [] (by rw [hl, ha]; simp)
      rw [hafter x hx] at hends
      cases hends
  · rintro ⟨h, hlast⟩ before mid after hl
    rcases List.eq_nil_or_concat after with rfl | ⟨after, b, rfl⟩
    · have hsplit : l ++ [a] = (before ++ mark :: mid) ++ [mark] := by
        rw [hl]
        simp
      obtain ⟨hl, ha⟩ := List.append_inj' hsplit rfl
      by_contra hnone
      have hopen : ∀ x ∈ mark :: mid, ends x = false := by
        intro x hx
        rcases List.mem_cons.mp hx with rfl | hx
        · exact hmark
        · by_contra hx'
          exact hnone ⟨x, hx, Bool.not_eq_false _ ▸ hx'⟩
      have hsub := suffix_current hl hopen
      exact hlast (List.singleton_inj.mp ha) (hsub.subset List.mem_cons_self)
    · have hsplit : l ++ [a] = (before ++ mark :: (mid ++ mark :: after)) ++ [b] := by
        rw [hl]
        simp
      exact h before mid after (List.append_inj' hsplit rfl).1

theorem contains_append {p : List α → Prop} (hp : ∀ x y, x <:+: y → p x → p y) (hnil : ¬ p []) :
    Contains ends p (l ++ [a]) ↔
      Contains ends p l ∨ ends a = false ∧ p (current ends l ++ [a]) := by
  constructor
  · rintro ⟨mid, ⟨before, after, hl, hmid⟩, hpmid⟩
    rcases List.eq_nil_or_concat after with rfl | ⟨after, b, rfl⟩
    · rcases List.eq_nil_or_concat mid with rfl | ⟨mid, b, rfl⟩
      · exact absurd hpmid hnil
      · have hsplit : l ++ [a] = (before ++ mid) ++ [b] := by
          rw [hl]
          simp
        obtain ⟨hl, ha⟩ := List.append_inj' hsplit rfl
        have hab := List.singleton_inj.mp ha
        rw [List.concat_eq_append] at hmid hpmid
        have hb := hmid b (List.mem_append_right _ (List.mem_singleton_self b))
        have hsub := suffix_current hl fun x hx => hmid x (List.mem_append_left _ hx)
        obtain ⟨first, hfirst⟩ := hsub
        refine .inr ⟨hab ▸ hb, hp _ _ ?_ hpmid⟩
        rw [← hfirst, hab]
        exact ⟨first, [], by simp⟩
    · have hsplit : l ++ [a] = (before ++ (mid ++ after)) ++ [b] := by
        rw [hl]
        simp
      exact .inl ⟨mid, ⟨before, after, (List.append_inj' hsplit rfl).1, hmid⟩, hpmid⟩
  · rintro (⟨mid, ⟨before, after, hl, hmid⟩, hpmid⟩ | ⟨ha, hpcur⟩)
    · exact ⟨mid, ⟨before, after ++ [a], by rw [hl]; simp, hmid⟩, hpmid⟩
    · refine ⟨_, ?_, hpcur⟩
      rw [← current_open ha]
      exact stretch_current

end Period
