import Mathlib.Data.List.Pairwise

/-!
# Tables with unique constraints

A table is a list of rows no two of which clash.  `Row R` says what the key columns of a row are
and when two keys clash (one primary key, or a primary key and a further unique column).  The
constraint is a field of the table, so that a table that breaks it cannot be built:

* `Table.insert`   fails on a clash, as `INSERT` does;
* `Table.map`      an `UPDATE`: row by row, with a function that leaves the key columns alone;
* `Table.find`, `Table.select`   the first row, or all rows, of a condition.

`Table.mem_insert`, `Table.mem_map` say what the rows are afterwards, `Table.eq_of_clash` that a
key determines the row.  `Table.Same own a b` says that `a` and `b` have the same rows of a kind and
may differ in all others; queries and statements that look at rows of that kind only do not see the
difference.
-/

/-- the key columns of a row and the relation the unique constraints rule out -/
class Row (R : Type) where
  Key : Type
  key : R → Key
  clash : Key → Key → Bool
  clash_symm : ∀ k l, clash k l = clash l k

/-- rows, pairwise without a clash -/
structure Table (R : Type) [Row R] where
  rows : List R
  unique : rows.Pairwise fun a b => ¬ Row.clash (Row.key a) (Row.key b)

namespace Table

variable {R : Type} [Row R]

instance : Membership R (Table R) := ⟨fun t r => r ∈ t.rows⟩

theorem mem_def {t : Table R} {r : R} : r ∈ t ↔ r ∈ t.rows := Iff.rfl

def empty : Table R := ⟨[], List.Pairwise.nil⟩

@[simp] theorem not_mem_empty (r : R) : ¬ r ∈ (empty : Table R) := List.not_mem_nil

/-- the first row with `p` -/
def find (t : Table R) (p : R → Bool) : Option R := t.rows.find? p

/-- all rows with `p`, in insertion order -/
def select (t : Table R) (p : R → Bool) : List R := t.rows.filter p

/-- `INSERT`: fails on a unique violation -/
def insert (t : Table R) (r : R) : Option (Table R) :=
  if h : ∀ x ∈ t.rows, ¬ Row.clash (Row.key x) (Row.key r) then
    some ⟨t.rows ++ [r], by
      rw [List.pairwise_append]
      exact ⟨t.unique, List.pairwise_singleton _ _, fun a ha b hb => by
        rw [List.mem_singleton] at hb
        subst hb
        exact h a ha⟩⟩
  else none

/-- `UPDATE`: `f` on every row (rows outside the condition are left alone by `f`) -/
def map (t : Table R) (f : R → R) (hf : ∀ r, Row.key (f r) = Row.key r) : Table R :=
  ⟨t.rows.map f, by
    rw [List.pairwise_map]
    exact t.unique.imp fun {a b} h => by rwa [hf a, hf b]⟩

theorem mem_of_find {t : Table R} {p : R → Bool} {r : R} (h : t.find p = some r) :
    r ∈ t ∧ p r = true :=
  ⟨List.mem_of_find?_eq_some h, List.find?_some h⟩

theorem find_none {t : Table R} {p : R → Bool} (h : t.find p = none) :
    ∀ r ∈ t, p r = false := fun r hr => by
  have h' := List.find?_eq_none.mp h r hr
  simpa using h'

theorem find_eq_none {t : Table R} {p : R → Bool} (h : ∀ r ∈ t, p r = false) : t.find p = none :=
  List.find?_eq_none.mpr fun r hr => by rw [h r hr]; exact Bool.false_ne_true

theorem mem_select {t : Table R} {p : R → Bool} {r : R} :
    r ∈ t.select p ↔ r ∈ t ∧ p r = true := List.mem_filter

/-- a key determines the row -/
theorem eq_of_clash (t : Table R) {a b : R} (ha : a ∈ t) (hb : b ∈ t)
    (h : Row.clash (Row.key a) (Row.key b)) : a = b := by
  by_contra hne
  have : Std.Symm fun a b : R => ¬ Row.clash (Row.key a) (Row.key b) :=
    ⟨fun a b hab => by rwa [Row.clash_symm]⟩
  exact t.unique.forall ha hb hne h

/-- at most one row meets a condition that implies a clash, so `find` finds it -/
theorem find_eq {t : Table R} {p : R → Bool} {r : R} (hr : r ∈ t) (hp : p r = true)
    (h : ∀ x ∈ t, p x = true → Row.clash (Row.key x) (Row.key r)) : t.find p = some r := by
  cases hf : t.find p with
  | none =>
    have h' := find_none hf r hr
    rw [hp] at h'
    cases h'
  | some x =>
    obtain ⟨hx, hpx⟩ := mem_of_find hf
    rw [t.eq_of_clash hx hr (h x hx hpx)]

theorem insert_some {t t' : Table R} {r : R} (h : t.insert r = some t') :
    t'.rows = t.rows ++ [r] := by
  unfold insert at h
  split at h
  · cases h
    rfl
  · cases h

/-- an insert goes through exactly if no row clashes -/
theorem exists_insert {t : Table R} {r : R} :
    (∃ t', t.insert r = some t') ↔ ∀ x ∈ t, ¬ Row.clash (Row.key x) (Row.key r) := by
  unfold insert
  constructor
  · rintro ⟨t', h⟩
    split at h
    · assumption
    · cases h
  · intro h
    rw [dif_pos (show ∀ x ∈ t.rows, _ from h)]
    exact ⟨_, rfl⟩

theorem mem_insert {t t' : Table R} {r x : R} (h : t.insert r = some t') :
    x ∈ t' ↔ x ∈ t ∨ x = r := by
  rw [mem_def, insert_some h, List.mem_append, List.mem_singleton, mem_def]

theorem mem_map {t : Table R} {f : R → R} {hf : ∀ r, Row.key (f r) = Row.key r} {x : R} :
    x ∈ t.map f hf ↔ ∃ r ∈ t, f r = x := List.mem_map

theorem ext {t t' : Table R} (h : t.rows = t'.rows) : t = t' := by
  cases t
  cases t'
  cases h
  rfl

/-- an update that changes no row changes nothing -/
theorem map_id {t : Table R} {f : R → R} {hf : ∀ r, Row.key (f r) = Row.key r}
    (h : ∀ r ∈ t, f r = r) : t.map f hf = t :=
  ext ((List.map_congr_left h).trans (List.map_id _))

/-! ## tables with the same rows of a kind -/

/-- the rows with `own` are the same -/
def Same (own : R → Prop) (a b : Table R) : Prop := ∀ r, own r → (r ∈ a ↔ r ∈ b)

variable {own : R → Prop} {a b a' b' : Table R}

theorem Same.refl (own : R → Prop) (a : Table R) : Same own a a := fun _ _ => Iff.rfl

theorem Same.symm (h : Same own a b) : Same own b a := fun r hr => (h r hr).symm

theorem Same.trans {c : Table R} (h : Same own a b) (h' : Same own b c) : Same own a c :=
  fun r hr => (h r hr).trans (h' r hr)

/-- a lookup by key among the rows with `own` -/
theorem Same.find {p : R → Bool} (h : Same own a b) (hown : ∀ r, p r = true → own r)
    (hkey : ∀ r x, p r = true → p x = true → Row.clash (Row.key x) (Row.key r)) :
    a.find p = b.find p := by
  cases ha : a.find p with
  | some r =>
    obtain ⟨hr, hp⟩ := mem_of_find ha
    have hb : r ∈ b := (h r (hown r hp)).mp hr
    exact (find_eq hb hp fun x _ hx => hkey r x hp hx).symm
  | none =>
    cases hb : b.find p with
    | none => rfl
    | some r =>
      obtain ⟨hr, hp⟩ := mem_of_find hb
      have hfalse := find_none ha r ((h r (hown r hp)).mpr hr)
      rw [hp] at hfalse
      cases hfalse

/-- the same update on both sides -/
theorem Same.map {f : R → R} (hf : ∀ r, Row.key (f r) = Row.key r) (h : Same own a b)
    (hown : ∀ r, own (f r) → own r) : Same own (a.map f hf) (b.map f hf) := by
  intro r hr
  constructor
  · intro hmem
    obtain ⟨x, hx, rfl⟩ := mem_map.mp hmem
    exact List.mem_map.mpr ⟨x, (h x (hown x hr)).mp hx, rfl⟩
  · intro hmem
    obtain ⟨x, hx, rfl⟩ := mem_map.mp hmem
    exact List.mem_map.mpr ⟨x, (h x (hown x hr)).mpr hx, rfl⟩

/-- an update that leaves the rows with `own` alone -/
theorem Same.of_map {f : R → R} (hf : ∀ r, Row.key (f r) = Row.key r)
    (hown : ∀ r, own (f r) → own r) (hfix : ∀ r ∈ a, own r → f r = r) :
    Same own a (a.map f hf) := by
  intro r hr
  constructor
  · intro hmem
    exact List.mem_map.mpr ⟨r, hmem, hfix r hmem hr⟩
  · intro hmem
    obtain ⟨x, hx, rfl⟩ := mem_map.mp hmem
    rw [hfix x hx (hown x hr)]
    exact hx

/-- more rows of another kind -/
theorem Same.of_append {rows : List R} (h : b.rows = a.rows ++ rows) (hx : ∀ x ∈ rows, ¬ own x) :
    Same own a b := by
  intro r hr
  rw [mem_def, mem_def, h, List.mem_append]
  constructor
  · exact Or.inl
  · rintro (hmem | hmem)
    · exact hmem
    · exact absurd hr (hx r hmem)

/-- an insert of another kind of row -/
theorem Same.of_insert {x : R} (h : a.insert x = some a') (hx : ¬ own x) : Same own a a' := by
  apply Same.of_append (insert_some h)
  intro r hr
  rwa [List.mem_singleton.mp hr]

theorem Same.insert {x : R} (h : Same own a b) (ha : a.insert x = some a')
    (hb : b.insert x = some b') : Same own a' b' := by
  intro r hr
  rw [mem_insert ha, mem_insert hb, h r hr]

/-- whether an insert clashes, if no row of another kind does -/
theorem Same.exists_insert {x : R} (h : Same own a b) (ha : a.insert x = some a')
    (hfree : ∀ r ∈ b, ¬ own r → ¬ Row.clash (Row.key r) (Row.key x)) :
    ∃ b', b.insert x = some b' := by
  have hclash := Table.exists_insert.mp ⟨a', ha⟩
  apply Table.exists_insert.mpr
  intro r hr
  by_cases hown : own r
  · exact hclash r ((h r hown).mpr hr)
  · exact hfree r hr hown

end Table
