import FiveProtect.Lib.Table

/-!
# Foreign keys

A row of one table refers to a row of another.  `ref` reads the reference of a row and `key` what it is compared
with; both may hold more columns than the one a database checks.

* `Table.Has key t k`          a row of `t` has the key `k`;
* `Table.Keeps key t t'`       the keys of `t` are keys of `t'`;
* `Table.Refers ref key t u`   every row of `t` refers to a row of `u`.

An update that leaves `ref` and `key` alone keeps references, and so does an insert whose row refers to something
that is there: these are the two conditions a database checks, and `Refers.map`, `Refers.insert` say that they
are enough.
-/

namespace Table

variable {R S K : Type} [Row R] [Row S]

def Has (key : R → K) (t : Table R) (k : K) : Prop := ∃ r ∈ t, key r = k

def Keeps (key : R → K) (t t' : Table R) : Prop := ∀ r ∈ t, t'.Has key (key r)

def Refers (ref : R → K) (key : S → K) (t : Table R) (u : Table S) : Prop := ∀ r ∈ t, u.Has key (ref r)

section
variable {key : R → K} {t t' : Table R}

theorem Has.keep {k : K} (h : t.Has key k) (hkeep : Keeps key t t') : t'.Has key k := by
  obtain ⟨r, hr, rfl⟩ := h
  exact hkeep r hr

theorem Keeps.refl (key : R → K) (t : Table R) : Keeps key t t := fun r hr => ⟨r, hr, rfl⟩

theorem Keeps.map {f : R → R} (hf : ∀ r, Row.key (f r) = Row.key r) (hkey : ∀ r, key (f r) = key r) :
    Keeps key t (t.map f hf) := fun r hr => ⟨f r, mem_map.mpr ⟨r, hr, rfl⟩, hkey r⟩

theorem Keeps.insert {x : R} (h : t.insert x = some t') : Keeps key t t' :=
  fun r hr => ⟨r, (mem_insert h).mpr (.inl hr), rfl⟩

theorem Has.insert {x : R} (h : t.insert x = some t') : t'.Has key (key x) :=
  ⟨x, (mem_insert h).mpr (.inr rfl), rfl⟩

end

section
variable {ref : R → K} {key : S → K} {t t' : Table R} {u u' : Table S}

theorem Refers.empty : Refers ref key (Table.empty : Table R) u := fun r hr => absurd hr (not_mem_empty r)

theorem Refers.keep (h : Refers ref key t u) (hkeep : Keeps key u u') : Refers ref key t u' :=
  fun r hr => (h r hr).keep hkeep

theorem Refers.map {f : R → R} (h : Refers ref key t u) (hf : ∀ r, Row.key (f r) = Row.key r)
    (href : ∀ r, ref (f r) = ref r) : Refers ref key (t.map f hf) u := by
  intro r hr
  obtain ⟨x, hx, rfl⟩ := mem_map.mp hr
  rw [href x]
  exact h x hx

theorem Refers.insert {x : R} (h : Refers ref key t u) (ht : t.insert x = some t') (hx : u.Has key (ref x)) :
    Refers ref key t' u := by
  intro r hr
  rcases (mem_insert ht).mp hr with hr | rfl
  · exact h r hr
  · exact hx

end

end Table
