import Mathlib.Data.List.Basic

/-!
# Attempts with a growing size

A loop makes an attempt with some size, and another one with the size that the attempt asks for, until
one of them ends it.  The attempts are numbered, and no two of them need to agree about anything.

* `tries`          the sizes tried and the answer, executable; `none` where `fuel` attempts do not do;
* `Tried`          the same as a relation, and `Tried.tries`, that enough fuel gives it;
* `Grows`          an attempt asks for more than it had, and for no more than there is;
* `exists_tried`   then the loop ends, whatever the attempts say;
* `Tried.growing`  the sizes it tries grow, within the limit;
* `Tried.last`     and its answer is that of its last attempt.
-/

namespace Grow

/-- what an attempt comes to -/
inductive Attempt (σ β : Type) where
  | done (answer : β)
  | again (size : σ)

variable {σ β : Type}

/-- the sizes tried and the answer, from the attempt with number `k` on -/
def tries (attempt : Nat → σ → Attempt σ β) : Nat → Nat → σ → Option (List σ × β)
  | 0, _, _ => none
  | fuel + 1, k, size =>
    match attempt k size with
    | .done answer => some ([size], answer)
    | .again next => (tries attempt fuel (k + 1) next).map fun r => (size :: r.1, r.2)

/-- from the attempt with number `k` on, `sizes` are tried and the answer is `answer` -/
inductive Tried (attempt : Nat → σ → Attempt σ β) : Nat → σ → List σ → β → Prop
  | done {k : Nat} {size : σ} {answer : β} (h : attempt k size = .done answer) :
      Tried attempt k size [size] answer
  | again {k : Nat} {size next : σ} {sizes : List σ} {answer : β} (h : attempt k size = .again next)
      (rest : Tried attempt (k + 1) next sizes answer) : Tried attempt k size (size :: sizes) answer

/-- an attempt with a size asks for a larger one, and for none above the limit -/
def Grows (measure : σ → Nat) (limit : Nat) (attempt : Nat → σ → Attempt σ β) : Prop :=
  ∀ k size next, attempt k size = .again next → measure size < measure next ∧ measure next ≤ limit

variable {attempt : Nat → σ → Attempt σ β} {measure : σ → Nat} {limit k : Nat} {size : σ}
  {sizes : List σ} {answer : β}

/-- as much fuel as there are attempts is enough -/
theorem Tried.tries (h : Tried attempt k size sizes answer) :
    ∀ fuel, sizes.length ≤ fuel → Grow.tries attempt fuel k size = some (sizes, answer) := by
  induction h with
  | done hdone =>
    intro fuel hfuel
    cases fuel with
    | zero => exact absurd hfuel (Nat.not_succ_le_zero 0)
    | succ fuel => rw [Grow.tries, hdone]
  | again hagain _ ih =>
    intro fuel hfuel
    cases fuel with
    | zero => exact absurd hfuel (Nat.not_succ_le_zero _)
    | succ fuel =>
      rw [Grow.tries, hagain]
      show Option.map _ (Grow.tries attempt fuel _ _) = _
      rw [ih fuel (Nat.le_of_succ_le_succ hfuel)]
      rfl

/-- **Termination.** Each attempt leaves fewer sizes to try. -/
theorem exists_tried (h : Grows measure limit attempt) (k : Nat) (size : σ) :
    ∃ sizes answer, Tried attempt k size sizes answer ∧
      sizes.length ≤ limit - measure size + 1 := by
  induction hleft : limit - measure size using Nat.strongRecOn generalizing k size with
  | ind left ih =>
    cases hattempt : attempt k size with
    | done answer => exact ⟨[size], answer, .done hattempt, Nat.le_add_left 1 left⟩
    | again next =>
      obtain ⟨hlarger, hlimit⟩ := h k size next hattempt
      obtain ⟨sizes, answer, htried, hlength⟩ :=
        ih (limit - measure next) (by omega) (k + 1) next rfl
      refine ⟨size :: sizes, answer, .again hattempt htried, ?_⟩
      rw [List.length_cons]
      omega

/-- **Sizes.** They grow, and none is above the limit, unless the first is. -/
theorem Tried.growing (hgrows : Grows measure limit attempt) (h : Tried attempt k size sizes answer) :
    sizes.Pairwise (measure · < measure ·) ∧
      ∀ s ∈ sizes, measure size ≤ measure s ∧ measure s ≤ max (measure size) limit := by
  induction h with
  | done =>
    refine ⟨List.pairwise_singleton _ _, fun s hs => ?_⟩
    rw [List.mem_singleton.mp hs]
    exact ⟨Nat.le_refl _, Nat.le_max_left _ _⟩
  | again hagain _ ih =>
    obtain ⟨hlarger, hlimit⟩ := hgrows _ _ _ hagain
    obtain ⟨hpairwise, hbounds⟩ := ih
    refine ⟨List.pairwise_cons.mpr ⟨?_, hpairwise⟩, List.forall_mem_cons.mpr ⟨?_, ?_⟩⟩
    · exact fun s hs => Nat.lt_of_lt_of_le hlarger (hbounds s hs).1
    · exact ⟨Nat.le_refl _, Nat.le_max_left _ _⟩
    · intro s hs
      obtain ⟨hlow, hhigh⟩ := hbounds s hs
      omega

/-- the attempts before the last did not end the loop, and the last one did -/
theorem Tried.last (h : Tried attempt k size sizes answer) :
    ∃ front last, sizes = front ++ [last] ∧ attempt (k + front.length) last = .done answer := by
  induction h with
  | done hdone => exact ⟨[], _, rfl, hdone⟩
  | @again k size next sizes answer _ _ ih =>
    obtain ⟨front, last, hsizes, hdone⟩ := ih
    refine ⟨size :: front, last, by rw [hsizes]; rfl, ?_⟩
    rw [List.length_cons, Nat.add_comm front.length 1, ← Nat.add_assoc]
    exact hdone

end Grow
