import FiveProtect.Lib.Json
import FiveProtect.Protocol.Schema

/-!
# Protocol: what a schema says

A JSON value conforms to a field type if its objects have the declared members and no others, its
arrays are short enough, and each string, number, boolean and enumerator in it is one that `leaf`
takes.  The checks of a language are compared with it one field type at a time.

* `Conforms.intro`   what every check asks of a value that conforms, it asks of all of it;
* `Conforms.elim`    a check that takes the leaves takes every value that conforms;
* `Conforms.and`     two conditions on the leaves.
-/

namespace Protocol

/-- a declared member: checked if it is there, and only an optional one may be missing -/
def HasField (A : FieldType → Json → Prop) (j : Json) (f : String × FieldType) : Prop :=
  (∀ v, j.get? f.1 = some v → A f.2 v) ∧ (j.get? f.1 = none → f.2.isOptional = true)

theorem hasField_congr {A B : FieldType → Json → Prop} {j : Json} {f : String × FieldType}
    (h : ∀ v, j.get? f.1 = some v → (A f.2 v ↔ B f.2 v)) : HasField A j f ↔ HasField B j f :=
  and_congr_left fun _ => forall₂_congr h

mutual
def Conforms (leaf : FieldType → Json → Prop) : FieldType → Json → Prop
  | .struct _ fields, j => ∃ members, j = .obj members ∧
      (∀ m ∈ members, m.1 ∈ fields.map Prod.fst) ∧ ConformsFields leaf fields j
  | .array items maxItems, j => ∃ xs, j = .arr xs ∧ (∀ n, maxItems = some n → xs.length ≤ n) ∧
      ∀ x ∈ xs, Conforms leaf items x
  | .optional inner, j => Conforms leaf inner j
  | type, j => leaf type j
def ConformsFields (leaf : FieldType → Json → Prop) : List (String × FieldType) → Json → Prop
  | [], _ => True
  | (key, type) :: fields, j => ((∀ v, j.get? key = some v → Conforms leaf type v) ∧
      (j.get? key = none → type.isOptional = true)) ∧ ConformsFields leaf fields j
end

/-- neither members nor items -/
def FieldType.isScalar : FieldType → Bool
  | .struct _ _ => false
  | .array _ _ => false
  | .optional _ => false
  | _ => true

section
variable {leaf : FieldType → Json → Prop} {A : FieldType → Json → Prop}

theorem conformsFields_iff (fields : List (String × FieldType)) (j : Json) :
    ConformsFields leaf fields j ↔ ∀ f ∈ fields, HasField (Conforms leaf) j f := by
  induction fields with
  | nil => exact ⟨fun _ _ hf => absurd hf List.not_mem_nil, fun _ => trivial⟩
  | cons f fields ih =>
    rw [List.forall_mem_cons, ← ih, ConformsFields]
    rfl

theorem conforms_scalar {type : FieldType} (h : type.isScalar = true) (j : Json) :
    Conforms leaf type j ↔ leaf type j := by
  cases type with
  | string format minLength maxLength => rw [Conforms] <;> intros <;> simp_all
  | int min max => rw [Conforms] <;> intros <;> simp_all
  | bool => rw [Conforms] <;> intros <;> simp_all
  | enum ref => rw [Conforms] <;> intros <;> simp_all
  | struct name fields => cases h
  | array items maxItems => cases h
  | optional inner => cases h

theorem conforms_struct {name : String} {fields : List (String × FieldType)} {j : Json} :
    Conforms leaf (.struct name fields) j ↔ ∃ members, j = .obj members ∧
      (∀ m ∈ members, m.1 ∈ fields.map Prod.fst) ∧ ∀ f ∈ fields, HasField (Conforms leaf) j f := by
  rw [Conforms, conformsFields_iff]

theorem conforms_array {items : FieldType} {maxItems : Option Nat} {j : Json} :
    Conforms leaf (.array items maxItems) j ↔ ∃ xs, j = .arr xs ∧
      (∀ n, maxItems = some n → xs.length ≤ n) ∧ ∀ x ∈ xs, Conforms leaf items x := by
  rw [Conforms]

theorem conforms_optional {inner : FieldType} {j : Json} :
    Conforms leaf (.optional inner) j ↔ Conforms leaf inner j := by
  rw [Conforms]

theorem Conforms.elim (hscalar : ∀ type j, type.isScalar = true → leaf type j → A type j)
    (hstruct : ∀ name fields members, (∀ m ∈ members, m.1 ∈ fields.map Prod.fst) →
      (∀ f ∈ fields, HasField A (.obj members) f) → A (.struct name fields) (.obj members))
    (harray : ∀ items maxItems xs, (∀ n, maxItems = some n → xs.length ≤ n) →
      (∀ x ∈ xs, A items x) → A (.array items maxItems) (.arr xs))
    (hoptional : ∀ inner j, A inner j → A (.optional inner) j)
    {type : FieldType} {j : Json} (h : Conforms leaf type j) : A type j := by
  induction type using FieldType.induct generalizing j with
  | string format minLength maxLength => exact hscalar _ j rfl ((conforms_scalar rfl j).mp h)
  | int min max => exact hscalar _ j rfl ((conforms_scalar rfl j).mp h)
  | bool => exact hscalar _ j rfl ((conforms_scalar rfl j).mp h)
  | enum ref => exact hscalar _ j rfl ((conforms_scalar rfl j).mp h)
  | struct name fields ih =>
    obtain ⟨members, rfl, hkeys, hfields⟩ := conforms_struct.mp h
    refine hstruct name fields members hkeys fun f hf => ?_
    have hfield := hfields f hf
    exact ⟨fun v hv => ih f hf (hfield.1 v hv), hfield.2⟩
  | array items maxItems ih =>
    obtain ⟨xs, rfl, hlen, hitems⟩ := conforms_array.mp h
    exact harray items maxItems xs hlen fun x hx => ih (hitems x hx)
  | optional inner ih => exact hoptional inner j (ih (conforms_optional.mp h))

theorem Conforms.intro (hscalar : ∀ type j, type.isScalar = true → A type j → leaf type j)
    (hstruct : ∀ name fields j, A (.struct name fields) j → ∃ members, j = .obj members ∧
      (∀ m ∈ members, m.1 ∈ fields.map Prod.fst) ∧ ∀ f ∈ fields, HasField A j f)
    (harray : ∀ items maxItems j, A (.array items maxItems) j → ∃ xs, j = .arr xs ∧
      (∀ n, maxItems = some n → xs.length ≤ n) ∧ ∀ x ∈ xs, A items x)
    (hoptional : ∀ inner j, A (.optional inner) j → A inner j)
    {type : FieldType} {j : Json} (h : A type j) : Conforms leaf type j := by
  induction type using FieldType.induct generalizing j with
  | string format minLength maxLength => exact (conforms_scalar rfl j).mpr (hscalar _ j rfl h)
  | int min max => exact (conforms_scalar rfl j).mpr (hscalar _ j rfl h)
  | bool => exact (conforms_scalar rfl j).mpr (hscalar _ j rfl h)
  | enum ref => exact (conforms_scalar rfl j).mpr (hscalar _ j rfl h)
  | struct name fields ih =>
    obtain ⟨members, rfl, hkeys, hfields⟩ := hstruct name fields j h
    refine conforms_struct.mpr ⟨members, rfl, hkeys, fun f hf => ?_⟩
    have hfield := hfields f hf
    exact ⟨fun v hv => ih f hf (hfield.1 v hv), hfield.2⟩
  | array items maxItems ih =>
    obtain ⟨xs, rfl, hlen, hitems⟩ := harray items maxItems j h
    exact conforms_array.mpr ⟨xs, rfl, hlen, fun x hx => ih (hitems x hx)⟩
  | optional inner ih => exact conforms_optional.mpr (ih (hoptional inner j h))

theorem Conforms.and {leaf' : FieldType → Json → Prop} {type : FieldType} {j : Json}
    (h : Conforms leaf type j) (h' : Conforms leaf' type j) :
    Conforms (fun t v => leaf t v ∧ leaf' t v) type j := by
  refine Conforms.intro (A := fun t v => Conforms leaf t v ∧ Conforms leaf' t v) ?_ ?_ ?_ ?_ ⟨h, h'⟩
  · rintro type j hscalar ⟨h, h'⟩
    exact ⟨(conforms_scalar hscalar j).mp h, (conforms_scalar hscalar j).mp h'⟩
  · rintro name fields j ⟨h, h'⟩
    obtain ⟨members, rfl, hkeys, hfields⟩ := conforms_struct.mp h
    obtain ⟨_, _, _, hfields'⟩ := conforms_struct.mp h'
    refine ⟨members, rfl, hkeys, fun f hf => ?_⟩
    exact ⟨fun v hv => ⟨(hfields f hf).1 v hv, (hfields' f hf).1 v hv⟩, (hfields f hf).2⟩
  · rintro items maxItems j ⟨h, h'⟩
    obtain ⟨xs, rfl, hlen, hitems⟩ := conforms_array.mp h
    obtain ⟨xs', hxs, _, hitems'⟩ := conforms_array.mp h'
    cases hxs
    exact ⟨xs, rfl, hlen, fun x hx => ⟨hitems x hx, hitems' x hx⟩⟩
  · rintro inner j ⟨h, h'⟩
    exact ⟨conforms_optional.mp h, conforms_optional.mp h'⟩

end

end Protocol
