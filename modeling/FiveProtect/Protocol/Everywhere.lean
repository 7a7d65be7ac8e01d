import FiveProtect.Protocol.Conforms

/-!
# Protocol: every position of a value

A condition on a field type and a value holds everywhere in a value if it holds at every position that
the schema gives a type: the value itself, the declared members of its objects, the items of its arrays.
An array in the place of a struct is read as the fields in order.

* `below`                     the positions right below one;
* `position_induct`           the induction over them;
* `Everywhere`, `Somewhere`   the condition holds at every position, at some position;
* `everywhere_and`, `everywhere_forall`   several conditions.
-/

namespace Protocol

/-- the positions right below one -/
def below : FieldType → Json → List (FieldType × Json)
  | .struct _ fields, .obj members =>
    fields.filterMap fun f => (Json.get? f.1 (.obj members)).map (f.2, ·)
  | .struct _ fields, .arr items => (fields.zip items).map fun p => (p.1.2, p.2)
  | .array items _, .arr xs => xs.map (items, ·)
  | .optional inner, j => [(inner, j)]
  | _, _ => []

theorem mem_below_obj {name : String} {fields : List (String × FieldType)}
    {members : List (String × Json)} {p : FieldType × Json} :
    p ∈ below (.struct name fields) (.obj members) ↔
      ∃ f ∈ fields, Json.get? f.1 (.obj members) = some p.2 ∧ p.1 = f.2 := by
  rw [below, List.mem_filterMap]
  refine exists_congr fun f => and_congr_right fun _ => ?_
  rw [Option.map_eq_some_iff]
  constructor
  · rintro ⟨v, hv, rfl⟩
    exact ⟨hv, rfl⟩
  · rintro ⟨hv, htype⟩
    exact ⟨p.2, hv, by rw [← htype]⟩

/-- what is below a position is of a type inside its type -/
theorem position_induct {P : FieldType → Json → Prop}
    (step : ∀ type j, (∀ p ∈ below type j, P p.1 p.2) → P type j) (type : FieldType) (j : Json) :
    P type j := by
  induction type using FieldType.induct generalizing j with
  | string format minLength maxLength => exact step _ j fun p hp => absurd hp List.not_mem_nil
  | int min max => exact step _ j fun p hp => absurd hp List.not_mem_nil
  | bool => exact step _ j fun p hp => absurd hp List.not_mem_nil
  | enum ref => exact step _ j fun p hp => absurd hp List.not_mem_nil
  | struct name fields ih =>
    refine step _ j fun p hp => ?_
    cases j with
    | obj members =>
      obtain ⟨f, hf, _, htype⟩ := mem_below_obj.mp hp
      rw [htype]
      exact ih f hf p.2
    | arr items =>
      obtain ⟨q, hq, rfl⟩ := List.mem_map.mp hp
      exact ih q.1 (List.of_mem_zip hq).1 q.2
    | _ => exact absurd hp List.not_mem_nil
  | array items maxItems ih =>
    refine step _ j fun p hp => ?_
    cases j with
    | arr xs =>
      obtain ⟨x, _, rfl⟩ := List.mem_map.mp hp
      exact ih x
    | _ => exact absurd hp List.not_mem_nil
  | optional inner ih =>
    refine step _ j fun p hp => ?_
    rw [List.mem_singleton.mp hp]
    exact ih j

/-! ## conditions -/

/-- the condition holds at every position -/
inductive Everywhere (Q : FieldType → Json → Prop) : FieldType → Json → Prop
  | intro {type : FieldType} {j : Json} (here : Q type j)
      (parts : ∀ p ∈ below type j, Everywhere Q p.1 p.2) : Everywhere Q type j

/-- it holds at some position -/
inductive Somewhere (P : FieldType → Json → Prop) : FieldType → Json → Prop
  | here {type : FieldType} {j : Json} (h : P type j) : Somewhere P type j
  | part {type : FieldType} {j : Json} (p : FieldType × Json) (hp : p ∈ below type j)
      (h : Somewhere P p.1 p.2) : Somewhere P type j

theorem everywhere_iff {Q : FieldType → Json → Prop} {type : FieldType} {j : Json} :
    Everywhere Q type j ↔ Q type j ∧ ∀ p ∈ below type j, Everywhere Q p.1 p.2 := by
  constructor
  · rintro ⟨here, parts⟩
    exact ⟨here, parts⟩
  · intro h
    exact .intro h.1 h.2

theorem not_somewhere {P : FieldType → Json → Prop} {type : FieldType} {j : Json} :
    ¬ Somewhere P type j ↔ Everywhere (fun t v => ¬ P t v) type j := by
  constructor
  · intro h
    induction type, j using position_induct with
    | step type j ih =>
      exact .intro (fun hP => h (.here hP)) fun p hp => ih p hp fun hbelow => h (.part p hp hbelow)
  · intro h hsome
    induction hsome with
    | here hP => exact (everywhere_iff.mp h).1 hP
    | part p hp _ ih => exact ih ((everywhere_iff.mp h).2 p hp)

theorem everywhere_of {Q : FieldType → Json → Prop} (h : ∀ t v, Q t v) (type : FieldType) (j : Json) :
    Everywhere Q type j := by
  induction type, j using position_induct with
  | step type j ih => exact .intro (h type j) ih

theorem everywhere_and {Q R : FieldType → Json → Prop} {type : FieldType} {j : Json} :
    Everywhere (fun t v => Q t v ∧ R t v) type j ↔ Everywhere Q type j ∧ Everywhere R type j := by
  induction type, j using position_induct with
  | step type j ih =>
    constructor
    · rintro ⟨⟨hQ, hR⟩, parts⟩
      exact ⟨.intro hQ fun p hp => ((ih p hp).mp (parts p hp)).1,
        .intro hR fun p hp => ((ih p hp).mp (parts p hp)).2⟩
    · rintro ⟨⟨hQ, partsQ⟩, ⟨hR, partsR⟩⟩
      exact .intro ⟨hQ, hR⟩ fun p hp => (ih p hp).mpr ⟨partsQ p hp, partsR p hp⟩

/-- two conditions that say the same of every type of a kind that its parts are of, too -/
theorem everywhere_congr {Q R : FieldType → Json → Prop} {C : FieldType → Prop}
    (hbelow : ∀ t v, C t → ∀ p ∈ below t v, C p.1) (h : ∀ t v, C t → (Q t v ↔ R t v))
    {type : FieldType} (htype : C type) (j : Json) : Everywhere Q type j ↔ Everywhere R type j := by
  induction type, j using position_induct with
  | step type j ih =>
    rw [everywhere_iff, everywhere_iff, h type j htype]
    exact and_congr_right fun _ => forall₂_congr fun p hp => ih p hp (hbelow type j htype p hp)

theorem everywhere_forall {ι : Type} {Q : ι → FieldType → Json → Prop} {type : FieldType} {j : Json} :
    Everywhere (fun t v => ∀ i, Q i t v) type j ↔ ∀ i, Everywhere (Q i) type j := by
  induction type, j using position_induct with
  | step type j ih =>
    constructor
    · rintro ⟨here, parts⟩ i
      exact .intro (here i) fun p hp => (ih p hp).mp (parts p hp) i
    · intro h
      refine .intro (fun i => (everywhere_iff.mp (h i)).1) fun p hp => (ih p hp).mpr fun i => ?_
      exact (everywhere_iff.mp (h i)).2 p hp

end Protocol
