import Mathlib.Data.List.Basic

/-!
# Checks

A check is an `Except ε Unit`: it passes, or says what it found.

* `bind_ok`, `forM_ok`   several checks pass if each of them does;
* `bind_isOk`, `unit_isOk`, `mapM_isOk`   the same for computations that return something;
* `foldlM_push`   a loop that pushes its results is a map;
* `mapM_some`   a list of results, each with a property.
-/

namespace Check

variable {ε α β : Type}

theorem bind_ok {a b : Except ε Unit} :
    (a >>= fun _ => b) = .ok () ↔ a = .ok () ∧ b = .ok () := by
  cases a with
  | error e =>
    constructor
    · intro h
      cases h
    · intro h
      cases h.1
  | ok u => exact ⟨fun h => ⟨rfl, h⟩, fun h => h.2⟩

theorem forM_ok {f : α → Except ε Unit} {xs : List α} :
    xs.forM f = .ok () ↔ ∀ x ∈ xs, f x = .ok () := by
  induction xs with
  | nil => exact ⟨fun _ _ hx => absurd hx List.not_mem_nil, fun _ => rfl⟩
  | cons x xs ih =>
    show (f x >>= fun _ => xs.forM f) = .ok () ↔ _
    rw [bind_ok, ih, List.forall_mem_cons]

theorem isOk_iff {x : Except ε α} : x.isOk = true ↔ ∃ a, x = .ok a := by
  cases x with
  | error e => exact ⟨fun h => (by cases h), fun ⟨_, h⟩ => (by cases h)⟩
  | ok a => exact ⟨fun _ => ⟨a, rfl⟩, fun _ => rfl⟩

theorem bind_isOk {x : Except ε α} {f : α → Except ε β} :
    (x >>= f).isOk = true ↔ ∃ a, x = .ok a ∧ (f a).isOk = true := by
  cases x with
  | error e => exact ⟨fun h => (by cases h), fun ⟨_, h, _⟩ => (by cases h)⟩
  | ok a =>
    constructor
    · intro h
      exact ⟨a, rfl, h⟩
    · rintro ⟨b, hb, h⟩
      cases hb
      exact h

theorem bind_eq_ok {x : Except ε α} {f : α → Except ε β} {b : β} :
    x >>= f = .ok b ↔ ∃ a, x = .ok a ∧ f a = .ok b := by
  cases x with
  | error e => exact ⟨fun h => (by cases h), fun ⟨_, h, _⟩ => (by cases h)⟩
  | ok a =>
    constructor
    · intro h
      exact ⟨a, rfl, h⟩
    · rintro ⟨a', ha, h⟩
      cases ha
      exact h

theorem unit_isOk {a : Except ε Unit} {b : Except ε β} :
    (a >>= fun _ => b).isOk = true ↔ a = .ok () ∧ b.isOk = true := by
  rw [bind_isOk]
  constructor
  · rintro ⟨⟨⟩, ha, hb⟩
    exact ⟨ha, hb⟩
  · rintro ⟨ha, hb⟩
    exact ⟨(), ha, hb⟩

theorem mapM_isOk {f : α → Except ε β} {xs : List α} :
    (xs.mapM f).isOk = true ↔ ∀ x ∈ xs, (f x).isOk = true := by
  induction xs with
  | nil => exact ⟨fun _ _ hx => absurd hx List.not_mem_nil, fun _ => rfl⟩
  | cons x xs ih =>
    rw [List.mapM_cons, List.forall_mem_cons, ← ih, bind_isOk]
    constructor
    · rintro ⟨a, ha, h⟩
      obtain ⟨as, has, _⟩ := bind_isOk.mp h
      rw [ha, has]
      exact ⟨rfl, rfl⟩
    · rintro ⟨hx, hxs⟩
      obtain ⟨a, ha⟩ := isOk_iff.mp hx
      obtain ⟨as, has⟩ := isOk_iff.mp hxs
      exact ⟨a, ha, by rw [has]; rfl⟩

/-- what every step of a loop keeps, the loop keeps -/
theorem foldlM_inv {P : β → Prop} {f : β → α → Except ε β}
    (hstep : ∀ b x b', P b → f b x = .ok b' → P b') {xs : List α} {b b' : β} (hb : P b)
    (h : xs.foldlM f b = .ok b') : P b' := by
  induction xs generalizing b with
  | nil =>
    cases h
    exact hb
  | cons x xs ih =>
    rw [List.foldlM_cons] at h
    obtain ⟨middle, hmiddle, h⟩ := bind_eq_ok.mp h
    exact ih (hstep b x middle hb hmiddle) h

/-- each result is that of the element in its place -/
theorem mapM_forall₂ {f : α → Except ε β} {xs : List α} {ys : List β} (h : xs.mapM f = .ok ys) :
    List.Forall₂ (fun x y => f x = .ok y) xs ys := by
  induction xs generalizing ys with
  | nil =>
    cases h
    exact .nil
  | cons x xs ih =>
    rw [List.mapM_cons] at h
    obtain ⟨y, hy, h⟩ := bind_eq_ok.mp h
    obtain ⟨rest, hrest, h⟩ := bind_eq_ok.mp h
    cases h
    exact .cons hy (ih hrest)

/-- a loop that pushes its results onto a list -/
theorem foldlM_push (f : α → Except ε β) (acc : List β) (xs : List α) :
    (xs.foldlM (fun acc x => f x >>= fun y => .ok (acc ++ [y])) acc) = (xs.mapM f).map (acc ++ ·) := by
  induction xs generalizing acc with
  | nil =>
    show Except.ok acc = .ok (acc ++ [])
    rw [List.append_nil]
  | cons x xs ih =>
    rw [List.foldlM_cons, List.mapM_cons]
    cases f x with
    | error e => rfl
    | ok y =>
      show xs.foldlM _ (acc ++ [y]) = _
      rw [ih]
      cases xs.mapM f with
      | error e => rfl
      | ok ys =>
        show Except.ok (acc ++ [y] ++ ys) = .ok (acc ++ y :: ys)
        rw [List.append_assoc, List.singleton_append]

theorem mapM_some {f : α → Option β} {P : β → Prop} {xs : List α} :
    (∃ ys, xs.mapM f = some ys ∧ ∀ y ∈ ys, P y) ↔ ∀ x ∈ xs, ∃ y, f x = some y ∧ P y := by
  induction xs with
  | nil => exact ⟨fun _ _ hx => absurd hx List.not_mem_nil,
      fun _ => ⟨[], rfl, fun _ hy => absurd hy List.not_mem_nil⟩⟩
  | cons x xs ih =>
    rw [List.mapM_cons, List.forall_mem_cons, ← ih]
    constructor
    · rintro ⟨ys, hys, hall⟩
      obtain ⟨y, hy, hys⟩ := Option.bind_eq_some_iff.mp hys
      obtain ⟨rest, hrest, hys⟩ := Option.bind_eq_some_iff.mp hys
      cases hys
      rw [List.forall_mem_cons] at hall
      exact ⟨⟨y, hy, hall.1⟩, ⟨rest, hrest, hall.2⟩⟩
    · rintro ⟨⟨y, hy, hPy⟩, ⟨rest, hrest, hall⟩⟩
      refine ⟨y :: rest, ?_, List.forall_mem_cons.mpr ⟨hPy, hall⟩⟩
      rw [hy, hrest]
      rfl

/-- a list of lookups succeeds if each of them does -/
theorem mapM_isSome {f : α → Option β} {xs : List α} :
    (xs.mapM f).isSome = true ↔ ∀ x ∈ xs, (f x).isSome = true := by
  have h : (∃ ys, xs.mapM f = some ys ∧ ∀ y ∈ ys, True) ↔ _ := mapM_some
  simp only [and_true, implies_true] at h
  rw [Option.isSome_iff_exists, h]
  exact forall₂_congr fun x _ => Option.isSome_iff_exists.symm

theorem mapM_congr {f g : α → Option β} {xs : List α} (h : ∀ x ∈ xs, f x = g x) : xs.mapM f = xs.mapM g := by
  induction xs with
  | nil => rfl
  | cons x xs ih =>
    rw [List.mapM_cons, List.mapM_cons, h x List.mem_cons_self, ih fun y hy => h y (List.mem_cons_of_mem _ hy)]

theorem mapM_length {f : α → Option β} {xs : List α} {ys : List β} (h : xs.mapM f = some ys) :
    ys.length = xs.length := by
  induction xs generalizing ys with
  | nil =>
    cases h
    rfl
  | cons x xs ih =>
    rw [List.mapM_cons] at h
    obtain ⟨y, _, h⟩ := Option.bind_eq_some_iff.mp h
    obtain ⟨rest, hrest, h⟩ := Option.bind_eq_some_iff.mp h
    cases h
    rw [List.length_cons, ih hrest, List.length_cons]

end Check
