import Mathlib.Data.List.Basic
import Mathlib.Data.List.Nodup

/-!
# Declarations that refer to each other by name

A program is a list of declarations, each a name and a body.  A `Language` says which names a body refers to,
and what it means once these names mean something.  There are two ways to run a program:

* `Language.call`   the names are looked up when they are used, so a body may use one that stands behind it;
                    the number bounds how deep the uses nest;
* `Language.load`   the declarations are evaluated in their order, each with those before it.

If every declaration refers to earlier ones only (`Language.Ordered`), the two agree: `call_stable` says how
deep is deep enough, `load_ordered` that nothing is missing when it is needed, `load_call` that the values are the
same.  `call_rel` carries a relation between the values of two languages over to whole programs, which is how a
translation is proved to keep the meaning.
-/

namespace Linking

/-- bodies, the names in them, and what they mean -/
structure Language (Body Value : Type*) where
  refers : Body → String → Prop
  undefined : Value
  meaning : (String → Value) → Body → Value
  meaning_congr : ∀ body env env', (∀ name, refers body name → env name = env' name) →
    meaning env body = meaning env' body

abbrev Program (Body : Type*) := List (String × Body)

/-- the names of a program -/
def names {Body : Type*} (program : Program Body) : List String := program.map Prod.fst

namespace Language

variable {Body Value : Type*} (L : Language Body Value)

/-! ## late binding -/

/-- one unfolding of a name -/
def unfold (program : Program Body) (env : String → Value) (name : String) : Value :=
  match program.lookup name with
  | some body => L.meaning env body
  | none => L.undefined

def call (program : Program Body) : Nat → String → Value
  | 0 => fun _ => L.undefined
  | n + 1 => L.unfold program (call program n)

/-- each name is used by declarations of a larger rank only -/
def Ranked (program : Program Body) (rank : String → Nat) : Prop :=
  ∀ name body, program.lookup name = some body → ∀ used, L.refers body used → rank used < rank name

/-- each declaration refers to names of `seen`, or to declarations before it -/
def Ordered (seen : List String) : Program Body → Prop
  | [] => True
  | (name, body) :: program => (∀ used, L.refers body used → used ∈ seen) ∧ Ordered (seen ++ [name]) program

section
variable {L} {program : Program Body}

theorem lookup_name {name : String} {body : Body} (h : program.lookup name = some body) :
    (name, body) ∈ program := by
  induction program with
  | nil => cases h
  | cons d program ih =>
    obtain ⟨first, x⟩ := d
    rw [List.lookup_cons] at h
    by_cases heq : name = first
    · rw [heq, beq_self_eq_true] at h
      cases h
      rw [heq]
      exact List.mem_cons_self
    · rw [beq_eq_false_iff_ne.mpr heq] at h
      exact List.mem_cons_of_mem _ (ih h)

theorem lookup_of_mem (hdistinct : (names program).Nodup) {name : String} {body : Body}
    (h : (name, body) ∈ program) : program.lookup name = some body := by
  induction program with
  | nil => exact absurd h List.not_mem_nil
  | cons d program ih =>
    obtain ⟨first, x⟩ := d
    obtain ⟨hnew, hrest⟩ := List.nodup_cons.mp hdistinct
    rw [List.lookup_cons]
    rcases List.mem_cons.mp h with heq | h
    · cases heq
      rw [beq_self_eq_true]
    · have hname : name ∈ names program := List.mem_map_of_mem h
      have hne : name ≠ first := fun heq => hnew (heq ▸ hname)
      rw [beq_eq_false_iff_ne.mpr hne]
      exact ih hrest h

/-- a meaning that agrees with its own unfolding is what calls compute, however it was found -/
theorem call_of_fixed {rank : String → Nat} (hrank : L.Ranked program rank) {env : String → Value}
    (hfixed : ∀ name, env name = L.unfold program env name) (n : Nat) :
    ∀ name, rank name < n → L.call program n name = env name := by
  induction n with
  | zero => exact fun name h => absurd h (Nat.not_lt_zero _)
  | succ n ih =>
    intro name h
    rw [hfixed name]
    show L.unfold program (L.call program n) name = _
    unfold unfold
    cases hbody : program.lookup name with
    | none => rfl
    | some body =>
      apply L.meaning_congr
      intro used hused
      have hlt := hrank name body hbody used hused
      exact ih used (by omega)

/-- calls deeper than the rank of a name change nothing -/
theorem call_stable {rank : String → Nat} (hrank : L.Ranked program rank) (n : Nat) :
    ∀ m name, rank name < n → rank name < m → L.call program n name = L.call program m name := by
  induction n with
  | zero => exact fun m name h => absurd h (Nat.not_lt_zero _)
  | succ n ih =>
    intro m name hn hm
    obtain ⟨m, rfl⟩ := Nat.exists_eq_succ_of_ne_zero (Nat.ne_of_gt (Nat.zero_lt_of_lt hm))
    show L.unfold program (L.call program n) name = L.unfold program (L.call program m) name
    unfold unfold
    cases hbody : program.lookup name with
    | none => rfl
    | some body =>
      apply L.meaning_congr
      intro used hused
      have hlt := hrank name body hbody used hused
      exact ih m used (by omega) (by omega)

theorem ordered_append {more : Program Body} {seen : List String} :
    L.Ordered seen (program ++ more) ↔ L.Ordered seen program ∧ L.Ordered (seen ++ names program) more := by
  induction program generalizing seen with
  | nil =>
    show L.Ordered seen more ↔ True ∧ L.Ordered (seen ++ []) more
    rw [List.append_nil, true_and]
  | cons d program ih =>
    obtain ⟨name, body⟩ := d
    have hnames : seen ++ names ((name, body) :: program) = (seen ++ [name]) ++ names program := by
      rw [List.append_assoc]
      rfl
    rw [List.cons_append, Ordered, Ordered, ih, hnames, and_assoc]

/-- the place of a declaration is its rank -/
theorem Ordered.ranked_from {seen : List String} (h : L.Ordered seen program)
    (hdistinct : (seen ++ names program).Nodup) :
    L.Ranked program fun name => (seen ++ names program).idxOf name := by
  induction program generalizing seen with
  | nil =>
    intro name body hbody
    cases hbody
  | cons d program ih =>
    obtain ⟨first, x⟩ := d
    have hnames : seen ++ names ((first, x) :: program) = (seen ++ [first]) ++ names program := by
      rw [List.append_assoc]
      rfl
    intro name body hbody used hused
    rw [List.lookup_cons] at hbody
    by_cases heq : name = first
    · rw [heq, beq_self_eq_true] at hbody
      cases hbody
      have hseen := h.1 used hused
      have hfirst : first ∉ seen := fun hmem =>
        (List.nodup_append.mp hdistinct).2.2 first hmem first List.mem_cons_self rfl
      show (seen ++ first :: names program).idxOf used < (seen ++ first :: names program).idxOf name
      rw [heq, List.idxOf_append_of_mem hseen, List.idxOf_append_of_notMem hfirst]
      exact Nat.lt_of_lt_of_le (List.idxOf_lt_length_of_mem hseen) (Nat.le_add_right _ _)
    · rw [beq_eq_false_iff_ne.mpr heq] at hbody
      have hrest := ih h.2 (hnames ▸ hdistinct) name body hbody used hused
      rw [hnames]
      exact hrest

theorem Ordered.ranked (h : L.Ordered [] program) (hdistinct : (names program).Nodup) :
    L.Ranked program fun name => (names program).idxOf name :=
  h.ranked_from hdistinct

/-- as many nested uses as there are declarations are enough -/
theorem Ordered.call_eq (h : L.Ordered [] program) (hdistinct : (names program).Nodup) {n : Nat}
    (hn : program.length ≤ n) {name : String} (hname : name ∈ names program) :
    L.call program n name = L.call program program.length name := by
  have hlt : (names program).idxOf name < program.length := by
    have hidx := List.idxOf_lt_length_of_mem hname
    rwa [names, List.length_map] at hidx
  exact call_stable (h.ranked hdistinct) n _ name (Nat.lt_of_lt_of_le hlt hn) hlt

/-- what a declared name means is what its body means -/
theorem Ordered.call_unfold (h : L.Ordered [] program) (hdistinct : (names program).Nodup) {name : String}
    {body : Body} (hbody : (name, body) ∈ program) :
    L.call program program.length name = L.meaning (L.call program program.length) body := by
  have hname : name ∈ names program := List.mem_map_of_mem hbody
  have hstep : L.call program (program.length + 1) name = L.meaning (L.call program program.length) body := by
    show L.unfold program (L.call program program.length) name = _
    rw [unfold, lookup_of_mem hdistinct hbody]
  rw [← hstep]
  exact (h.call_eq hdistinct (Nat.le_succ _) hname).symm

end

/-! ## translations -/

/-- two declarations of one name whose bodies keep a relation between values -/
def Translates {Body' Value' : Type*} (L' : Language Body' Value') (R : Value → Value' → Prop)
    (d : String × Body) (d' : String × Body') : Prop :=
  d.1 = d'.1 ∧ ∀ env env', (∀ name, R (env name) (env' name)) → R (L.meaning env d.2) (L'.meaning env' d'.2)

/-- **Simulation.** If the declarations keep a relation between values, so do the programs, at every depth. -/
theorem call_rel {Body' Value' : Type*} {L' : Language Body' Value'} {R : Value → Value' → Prop}
    {program : Program Body} {program' : Program Body'} (hundefined : R L.undefined L'.undefined)
    (h : List.Forall₂ (L.Translates L' R) program program') (n : Nat) :
    ∀ name, R (L.call program n name) (L'.call program' n name) := by
  have hunfold : ∀ env env', (∀ name, R (env name) (env' name)) →
      ∀ name, R (L.unfold program env name) (L'.unfold program' env' name) := by
    intro env env' henv name
    unfold unfold
    induction h with
    | nil => exact hundefined
    | @cons d d' _ _ hd _ ih =>
      rw [List.lookup_cons, List.lookup_cons, ← hd.1]
      cases name == d.1 with
      | true => exact hd.2 env env' henv
      | false => exact ih
  induction n with
  | zero => exact fun _ => hundefined
  | succ n ih => exact hunfold _ _ ih

end Language

/-! ## early binding -/

namespace Language

variable {Body Value : Type*} (L : Language Body (Option Value))

/-- what the names evaluated so far stand for -/
def env (loaded : List (String × Value)) (name : String) : Option Value := loaded.lookup name

/-- the declarations in their order; `none` if one has no value when it is reached -/
def load (loaded : List (String × Value)) : Program Body → Option (List (String × Value))
  | [] => some loaded
  | (name, body) :: program =>
    (L.meaning (env loaded) body).bind fun value => load (loaded ++ [(name, value)]) program

/-- a body has a value exactly if its names have values -/
def Needs (body : Body) : Prop :=
  ∀ env, (L.meaning env body).isSome = true ↔ ∀ used, L.refers body used → (env used).isSome = true

section
variable {L} {program : Program Body}

theorem env_isSome {loaded : List (String × Value)} {name : String} :
    (env loaded name).isSome = true ↔ name ∈ names loaded := by
  unfold env
  induction loaded with
  | nil => exact ⟨fun h => (by cases h), fun h => absurd h List.not_mem_nil⟩
  | cons d loaded ih =>
    rw [List.lookup_cons]
    show _ ↔ name ∈ d.1 :: names loaded
    rw [List.mem_cons]
    by_cases heq : name = d.1
    · rw [heq, beq_self_eq_true]
      exact ⟨fun _ => .inl rfl, fun _ => rfl⟩
    · rw [beq_eq_false_iff_ne.mpr heq, ih]
      exact ⟨.inr, fun h => h.resolve_left heq⟩

theorem env_append {loaded more : List (String × Value)} {name : String} (h : name ∈ names loaded) :
    env (loaded ++ more) name = env loaded name := by
  unfold env
  rw [List.lookup_append]
  obtain ⟨value, hvalue⟩ := Option.isSome_iff_exists.mp (env_isSome.mpr h)
  unfold env at hvalue
  rw [hvalue]
  rfl

/-- **When a program loads.** Exactly if every declaration refers to earlier ones. -/
theorem load_ordered (hneeds : ∀ d ∈ program, L.Needs d.2) (loaded : List (String × Value)) :
    (L.load loaded program).isSome = true ↔ L.Ordered (names loaded) program := by
  induction program generalizing loaded with
  | nil => exact ⟨fun _ => trivial, fun _ => rfl⟩
  | cons d program ih =>
    obtain ⟨name, body⟩ := d
    have hbody : (L.meaning (env loaded) body).isSome = true ↔
        ∀ used, L.refers body used → used ∈ names loaded := by
      rw [hneeds (name, body) List.mem_cons_self]
      exact forall₂_congr fun used _ => env_isSome
    rw [load, Ordered, ← hbody]
    cases hvalue : L.meaning (env loaded) body with
    | none => exact ⟨fun h => (by cases h), fun h => (by cases h.1)⟩
    | some value =>
      have hnames : names (loaded ++ [(name, value)]) = names loaded ++ [name] := List.map_append
      show (L.load (loaded ++ [(name, value)]) program).isSome = true ↔ _
      rw [ih fun d hd => hneeds d (List.mem_cons_of_mem _ hd), hnames]
      exact ⟨fun h => ⟨rfl, h⟩, fun h => h.2⟩

/-- loading leaves what is there, and gives each declaration what its body means in the end -/
theorem load_fixed (hneeds : ∀ d ∈ program, L.Needs d.2) {loaded result : List (String × Value)}
    (hdistinct : (names loaded ++ names program).Nodup) (h : L.load loaded program = some result) :
    names result = names loaded ++ names program ∧
      (∀ name ∈ names loaded, env result name = env loaded name) ∧
        ∀ d ∈ program, env result d.1 = L.meaning (env result) d.2 := by
  induction program generalizing loaded with
  | nil =>
    cases h
    exact ⟨(List.append_nil _).symm, fun _ _ => rfl, fun d hd => absurd hd List.not_mem_nil⟩
  | cons d program ih =>
    obtain ⟨name, body⟩ := d
    obtain ⟨value, hvalue, hload⟩ := Option.bind_eq_some_iff.mp h
    have hnames : names (loaded ++ [(name, value)]) = names loaded ++ [name] := List.map_append
    have hsame : names loaded ++ names ((name, body) :: program) =
        names (loaded ++ [(name, value)]) ++ names program := by
      rw [hnames, List.append_assoc]
      rfl
    have hnew : name ∉ names loaded := fun hmem =>
      (List.nodup_append.mp hdistinct).2.2 name hmem name List.mem_cons_self rfl
    obtain ⟨hresult, hold, hrest⟩ :=
      ih (fun d hd => hneeds d (List.mem_cons_of_mem _ hd)) (hsame ▸ hdistinct) hload
    have hkeep : ∀ x ∈ names loaded, env result x = env loaded x := by
      intro x hx
      rw [hold x (hnames ▸ List.mem_append_left _ hx), env_append hx]
    refine ⟨hresult.trans hsame.symm, hkeep, fun d hd => ?_⟩
    rcases List.mem_cons.mp hd with rfl | hd
    · have hmine : env result name = some value := by
        rw [hold name (hnames ▸ List.mem_append_right _ (List.mem_singleton.mpr rfl))]
        have hnone : loaded.lookup name = none := by
          apply Option.eq_none_iff_forall_ne_some.mpr
          intro x hx
          exact hnew (env_isSome.mp (Option.isSome_iff_exists.mpr ⟨x, hx⟩))
        unfold env
        rw [List.lookup_append, hnone]
        show List.lookup name [(name, value)] = _
        rw [List.lookup_cons, beq_self_eq_true]
      show env result name = L.meaning (env result) body
      rw [hmine, ← hvalue]
      apply L.meaning_congr
      intro used hused
      have hisSome := (hneeds (name, body) List.mem_cons_self (env loaded)).mp
        (Option.isSome_iff_exists.mpr ⟨value, hvalue⟩) used hused
      exact (hkeep used (env_isSome.mp hisSome)).symm
    · exact hrest d hd

/-- **Early and late binding agree** on a program that loads. -/
theorem load_call (hneeds : ∀ d ∈ program, L.Needs d.2) (hundefined : L.undefined = none)
    (hdistinct : (names program).Nodup) {result : List (String × Value)} (h : L.load [] program = some result)
    {n : Nat} (hn : program.length ≤ n) (name : String) (hname : name ∈ names program) :
    env result name = L.call program n name := by
  have hordered : L.Ordered [] program :=
    (load_ordered hneeds []).mp (Option.isSome_iff_exists.mpr ⟨result, h⟩)
  have hnames : (names ([] : List (String × Value)) ++ names program).Nodup := hdistinct
  obtain ⟨hresult, _, hfixed⟩ := load_fixed hneeds hnames h
  have hunfold : ∀ x, env result x = L.unfold program (env result) x := by
    intro x
    unfold unfold
    cases hbody : program.lookup x with
    | some body => exact hfixed (x, body) (lookup_name hbody)
    | none =>
      rw [hundefined]
      apply Option.eq_none_iff_forall_ne_some.mpr
      intro value hvalue
      have hmem := env_isSome.mp (Option.isSome_iff_exists.mpr ⟨value, hvalue⟩)
      rw [hresult] at hmem
      obtain ⟨d, hd, rfl⟩ := List.mem_map.mp hmem
      rw [lookup_of_mem hdistinct hd] at hbody
      cases hbody
  have hlt : (names program).idxOf name < program.length := by
    have hidx := List.idxOf_lt_length_of_mem hname
    rwa [names, List.length_map] at hidx
  exact (call_of_fixed (hordered.ranked hdistinct) hunfold n name (Nat.lt_of_lt_of_le hlt hn)).symm

end

end Language

end Linking
