import Mathlib.Data.List.Induction

/-!
# Runs of a labelled step function

A system is a step function `step : ε → σ → Option σ`; `none` means that the event is not enabled.

* `run step es s`        the state after the events `es`, executable;
* `Steps step G s t`     `t` is reached from `s` by enabled events, each of which meets the guard
                         `G` in the state it is taken in;
* `run_inv`              the induction rule for a state and the events that led to it;
* `Steps.inv`            the induction rule: what every guarded step preserves, every guarded run
                         preserves;
* `Steps.keeps`          the same for a relation between the first and the last state;
* `run_variant`          a measure that some events use up bounds how many of them a run has;
* `guarded step G`       a step that checks the guard, executable too.
-/

namespace Machine

variable {σ ε : Type}

/-- the state after a list of events, `none` as soon as one of them is not enabled -/
def run (step : ε → σ → Option σ) : List ε → σ → Option σ
  | [], s => some s
  | e :: es, s => (step e s).bind (run step es)

theorem run_append {step : ε → σ → Option σ} (es fs : List ε) (s : σ) :
    run step (es ++ fs) s = (run step es s).bind (run step fs) := by
  induction es generalizing s with
  | nil => rfl
  | cons e es ih =>
    show (step e s).bind (run step (es ++ fs)) = ((step e s).bind (run step es)).bind (run step fs)
    rw [Option.bind_assoc]
    congr 1
    funext t
    exact ih t

/-- **Histories.** What relates the events so far to the state they led to is an invariant of runs. -/
theorem run_inv {step : ε → σ → Option σ} (I : List ε → σ → Prop) {s : σ}
    (hI : ∀ es t e u, I es t → step e t = some u → I (es ++ [e]) u) (h0 : I [] s) :
    ∀ (es : List ε) (t : σ), run step es s = some t → I es t := by
  intro es
  induction es using List.reverseRecOn with
  | nil =>
    intro t h
    cases h
    exact h0
  | append_singleton es e ih =>
    intro u h
    rw [run_append] at h
    obtain ⟨t, ht, hu⟩ := Option.bind_eq_some_iff.mp h
    obtain ⟨u', hu', hrest⟩ := Option.bind_eq_some_iff.mp hu
    cases hrest
    exact hI es t e u (ih t ht) hu'

/-- states reached by enabled events that meet the guard `G` -/
inductive Steps (step : ε → σ → Option σ) (G : σ → ε → Prop) : σ → σ → Prop
  | refl (s : σ) : Steps step G s s
  | tail {s t u : σ} {e : ε} : Steps step G s t → G t e → step e t = some u → Steps step G s u

/-- no guard at all -/
def free : σ → ε → Prop := fun _ _ => True

variable {step : ε → σ → Option σ} {G H : σ → ε → Prop} {s t u : σ}

theorem Steps.single {e : ε} (hg : G s e) (he : step e s = some t) : Steps step G s t :=
  .tail (.refl s) hg he

theorem Steps.trans (h : Steps step G s t) (h' : Steps step G t u) : Steps step G s u := by
  induction h' with
  | refl => exact h
  | tail _ hg he ih => exact .tail ih hg he

theorem Steps.mono (hGH : ∀ s e, G s e → H s e) (h : Steps step G s t) : Steps step H s t := by
  induction h with
  | refl => exact .refl _
  | tail _ hg he ih => exact .tail ih (hGH _ _ hg) he

/-- a guarded run is in particular a run -/
theorem Steps.toFree (h : Steps step G s t) : Steps step free s t := h.mono fun _ _ _ => trivial

/-- **Invariants.** What every guarded step preserves holds after every guarded run. -/
theorem Steps.inv (I : σ → Prop) (hI : ∀ s e t, I s → G s e → step e s = some t → I t)
    (h : Steps step G s t) (h0 : I s) : I t := by
  induction h with
  | refl => exact h0
  | tail _ hg he ih => exact hI _ _ _ ih hg he

/-- **Two-state invariants.** A transitive relation that every guarded step out of a state with
`I` establishes holds between the ends of every guarded run. -/
theorem Steps.keeps (I : σ → Prop) (R : σ → σ → Prop) (hI : ∀ s e t, I s → G s e →
    step e s = some t → I t) (hrefl : ∀ s, R s s) (htrans : ∀ a b c, R a b → R b c → R a c)
    (hR : ∀ s e t, I s → G s e → step e s = some t → R s t)
    (h : Steps step G s t) (h0 : I s) : R s t := by
  induction h with
  | refl => exact hrefl _
  | tail hs hg he ih => exact htrans _ _ _ ih (hR _ _ _ (hs.inv I hI h0) hg he)

/-- an executed list of events is a run -/
theorem Steps.of_run : ∀ (es : List ε) (s t : σ), run step es s = some t → Steps step free s t
  | [], s, t, h => by
    cases h
    exact .refl s
  | e :: es, s, t, h => by
    obtain ⟨u, he, hu⟩ := Option.bind_eq_some_iff.mp h
    exact (Steps.single trivial he).trans (Steps.of_run es u t hu)

/-! ## measures -/

/-- **Variants.** A measure that no step increases, and that the events with `own` decrease, is an upper bound of how
many such events a run has. -/
theorem run_variant (measure : σ → Nat) (own : ε → Bool)
    (hown : ∀ s e t, step e s = some t → own e = true → measure t < measure s)
    (hle : ∀ s e t, step e s = some t → measure t ≤ measure s) :
    ∀ (es : List ε) (s t : σ), run step es s = some t → es.countP own + measure t ≤ measure s := by
  intro es
  induction es with
  | nil =>
    intro s t h
    cases h
    exact Nat.le_of_eq (Nat.zero_add _)
  | cons e es ih =>
    intro s t h
    obtain ⟨u, he, hu⟩ := Option.bind_eq_some_iff.mp h
    have hrest := ih u t hu
    have hmono := hle s e u he
    rw [List.countP_cons]
    split
    · have hlt := hown s e u he (by assumption)
      omega
    · omega

/-! ## guards that are checked -/

/-- an event is enabled only if it meets the guard -/
def guarded (step : ε → σ → Option σ) (G : σ → ε → Prop) [∀ s e, Decidable (G s e)] (e : ε) (s : σ) :
    Option σ := if G s e then step e s else none

/-- an executed list of events that meet the guard is a guarded run -/
theorem Steps.of_guarded [∀ s e, Decidable (G s e)] : ∀ (es : List ε) (s t : σ),
    run (guarded step G) es s = some t → Steps step G s t
  | [], s, t, h => by
    cases h
    exact .refl s
  | e :: es, s, t, h => by
    obtain ⟨u, he, hu⟩ := Option.bind_eq_some_iff.mp h
    unfold guarded at he
    split at he
    · rename_i hg
      exact (Steps.single hg he).trans (Steps.of_guarded es u t hu)
    · cases he

end Machine
