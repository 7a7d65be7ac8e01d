import Mathlib.Data.List.Basic

/-!
# Readers

A reader takes what it understands from the front of a text.  `repeatedly step` is a loop of a parser: a
step goes on with a new state (`inl`) or ends the loop with a result (`inr`).

* `repeatedly_next`, `repeatedly_last`   one step of the loop, if a step always takes something; so the
                      bound on the number of steps is never met;
* `repeatedly_shortens`   then the loop takes something too;
* `repeatedly_reads`      the induction rule: what holds of a last step, and of a step before what is read after
                      it, holds of the loop.
-/

namespace Reader

variable {σ α β ε : Type}

/-- at most `n` steps -/
def loop (step : σ → List β → Except ε ((σ ⊕ α) × List β)) (stuck : ε) :
    Nat → σ → List β → Except ε (α × List β)
  | 0, _, _ => .error stuck
  | n + 1, s, text =>
    match step s text with
    | .error e => .error e
    | .ok (.inl s, rest) => loop step stuck n s rest
    | .ok (.inr a, rest) => .ok (a, rest)

def repeatedly (step : σ → List β → Except ε ((σ ⊕ α) × List β)) (stuck : ε) (s : σ)
    (text : List β) : Except ε (α × List β) :=
  loop step stuck (text.length + 1) s text

/-- what is read was there -/
def Shortens (read : List β → Except ε (α × List β)) : Prop :=
  ∀ text a rest, read text = .ok (a, rest) → rest.length < text.length

section
variable {step : σ → List β → Except ε ((σ ⊕ α) × List β)} {stuck : ε}
  (hstep : ∀ s, Shortens (step s))
include hstep

theorem loop_enough {n m : Nat} {s : σ} {text : List β} (hn : text.length < n)
    (hm : text.length < m) : loop step stuck n s text = loop step stuck m s text := by
  induction n generalizing m s text with
  | zero => omega
  | succ n ih =>
    obtain ⟨m, rfl⟩ : ∃ k, m = k + 1 := ⟨m - 1, by omega⟩
    rw [loop, loop]
    cases h : step s text with
    | error e => rfl
    | ok read =>
      obtain ⟨next, rest⟩ := read
      have hrest := hstep s text next rest h
      cases next with
      | inl s => exact ih (by omega) (by omega)
      | inr a => rfl

theorem repeatedly_next {s s' : σ} {text rest : List β} (h : step s text = .ok (.inl s', rest)) :
    repeatedly step stuck s text = repeatedly step stuck s' rest := by
  have hrest := hstep s text _ rest h
  rw [repeatedly, loop, h]
  exact loop_enough hstep (by omega) (by omega)

theorem repeatedly_shortens (s : σ) : Shortens (repeatedly step stuck s) := by
  have hloop : ∀ n s, Shortens (loop step stuck n s) := by
    intro n
    induction n with
    | zero =>
      intro s text a rest h
      cases h
    | succ n ih =>
      intro s text a rest h
      rw [loop] at h
      cases hs : step s text with
      | error e =>
        rw [hs] at h
        cases h
      | ok read =>
        obtain ⟨next, left⟩ := read
        have hleft := hstep s text next left hs
        rw [hs] at h
        cases next with
        | inl s => exact Nat.lt_trans (ih s left a rest h) hleft
        | inr b =>
          cases h
          exact hleft
  exact fun text => hloop (text.length + 1) s text

end

theorem repeatedly_last {step : σ → List β → Except ε ((σ ⊕ α) × List β)} {stuck : ε} {s : σ}
    {a : α} {text rest : List β} (h : step s text = .ok (.inr a, rest)) :
    repeatedly step stuck s text = .ok (a, rest) := by
  rw [repeatedly, loop, h]

/-- **Induction.** A loop that has read something has made a last step, after steps that went on. -/
theorem repeatedly_reads {step : σ → List β → Except ε ((σ ⊕ α) × List β)} {stuck : ε}
    (P : σ → List β → α → List β → Prop)
    (hnext : ∀ s text s' left a rest, step s text = .ok (.inl s', left) → P s' left a rest →
      P s text a rest)
    (hlast : ∀ s text a rest, step s text = .ok (.inr a, rest) → P s text a rest) {s : σ}
    {text : List β} {a : α} {rest : List β} (h : repeatedly step stuck s text = .ok (a, rest)) :
    P s text a rest := by
  unfold repeatedly at h
  generalize text.length + 1 = n at h
  induction n generalizing s text with
  | zero => cases h
  | succ n ih =>
    rw [loop] at h
    cases hs : step s text with
    | error e =>
      rw [hs] at h
      cases h
    | ok read =>
      obtain ⟨next, left⟩ := read
      rw [hs] at h
      cases next with
      | inl s' => exact hnext s text s' left a rest hs (ih h)
      | inr b =>
        cases h
        exact hlast s text a rest hs

end Reader
