import FiveProtect.Protocol.Everywhere

/-!
# Protocol: a reading of the schema

What the checks of the generated languages have in common: a value is taken if it is taken at each of its
positions, and at one position a check looks at the kind of the value, the declared keys, the length of
an array, the bounds and the format.  `Reading` is what they differ in.

* `Reading.Here`     what a reading asks at one position;
* `Reading.Takes`    at every position;
* `takes_scalar`, `takes_obj`, ...   one kind of position at a time.
-/

namespace Protocol

structure Reading where
  format : StringFormat → String → Bool
  /-- the integer that a number stands for -/
  int : JsonNumber → Option Int
  /-- a struct may be an array of its fields, in order -/
  inOrder : Bool
  /-- an array may be an object without members -/
  emptyTable : Bool
  /-- a text may have half of a surrogate pair, by whether one is a first half -/
  half : Bool → Bool

namespace Reading

/-- between the bounds, if there are any -/
def inBounds (min max : Option Int) (i : Int) : Bool := min.all (· ≤ i) && max.all (i ≤ ·)

def text (r : Reading) (f : Option StringFormat) (min max : Option Nat) (s : String) : Bool :=
  min.all (· ≤ Text.utf8Length s) && max.all (Text.utf8Length s ≤ ·) && f.all fun g => r.format g s

def leaf (r : Reading) : FieldType → Json → Bool
  | .string f min max, .str s => r.text f min max s
  | .string f min max, .illFormed s high => r.half high && r.text f min max s
  | .int min max, .num n => (r.int n).any (inBounds min max)
  | .bool, .bool _ => true
  | .enum ref, .str s => ref.values.contains s
  | .enum ref, .illFormed s high => r.half high && ref.values.contains s
  | _, _ => false

def Here (r : Reading) : FieldType → Json → Prop
  | .struct _ fields, .obj members => (∀ m ∈ members, m.1 ∈ fields.map Prod.fst) ∧
      ∀ f ∈ fields, Json.get? f.1 (.obj members) = none → f.2.isOptional = true
  | .struct _ fields, .arr items => r.inOrder = true ∧ items.length ≤ fields.length ∧
      ∀ f ∈ fields.drop items.length, f.2.isOptional = true
  | .struct _ _, _ => False
  | .array _ maxItems, .arr xs => ∀ n, maxItems = some n → xs.length ≤ n
  | .array _ _, .obj members => r.emptyTable = true ∧ members = []
  | .array _ _, _ => False
  | .optional _, _ => True
  | type, j => r.leaf type j = true

def Takes (r : Reading) : FieldType → Json → Prop := Everywhere r.Here

variable {r : Reading}

theorem here_scalar {type : FieldType} (h : type.isScalar = true) {j : Json} :
    r.Here type j ↔ r.leaf type j = true := by
  cases type with
  | struct name fields => cases h
  | array items maxItems => cases h
  | optional inner => cases h
  | _ => exact Iff.rfl

theorem takes_scalar {type : FieldType} (h : type.isScalar = true) {j : Json} :
    r.Takes type j ↔ r.leaf type j = true := by
  have hbelow : below type j = [] := by
    cases type with
    | struct name fields => cases h
    | array items maxItems => cases h
    | optional inner => cases h
    | _ => rfl
  rw [Takes, everywhere_iff, hbelow, here_scalar h]
  exact and_iff_left fun p hp => absurd hp List.not_mem_nil

/-- a declared member is taken if it is there -/
theorem takes_obj {name : String} {fields : List (String × FieldType)}
    {members : List (String × Json)} : r.Takes (.struct name fields) (.obj members) ↔
      (∀ m ∈ members, m.1 ∈ fields.map Prod.fst) ∧ ∀ f ∈ fields, HasField r.Takes (.obj members) f := by
  rw [Takes, everywhere_iff]
  constructor
  · rintro ⟨⟨hkeys, hmissing⟩, hbelow⟩
    refine ⟨hkeys, fun f hf => ⟨fun v hv => ?_, hmissing f hf⟩⟩
    exact hbelow (f.2, v) (mem_below_obj.mpr ⟨f, hf, hv, rfl⟩)
  · rintro ⟨hkeys, hfields⟩
    refine ⟨⟨hkeys, fun f hf => (hfields f hf).2⟩, fun p hp => ?_⟩
    obtain ⟨f, hf, hget, htype⟩ := mem_below_obj.mp hp
    rw [htype]
    exact (hfields f hf).1 p.2 hget

theorem takes_inOrder {name : String} {fields : List (String × FieldType)} {items : List Json} :
    r.Takes (.struct name fields) (.arr items) ↔ (r.inOrder = true ∧ items.length ≤ fields.length ∧
      ∀ f ∈ fields.drop items.length, f.2.isOptional = true) ∧
      ∀ p ∈ fields.zip items, r.Takes p.1.2 p.2 := by
  rw [Takes, everywhere_iff, below, List.forall_mem_map]
  rfl

theorem takes_arr {items : FieldType} {maxItems : Option Nat} {xs : List Json} :
    r.Takes (.array items maxItems) (.arr xs) ↔ (∀ n, maxItems = some n → xs.length ≤ n) ∧
      ∀ x ∈ xs, r.Takes items x := by
  rw [Takes, everywhere_iff, below, List.forall_mem_map]
  rfl

theorem takes_optional {inner : FieldType} {j : Json} :
    r.Takes (.optional inner) j ↔ r.Takes inner j := by
  rw [Takes, everywhere_iff, below, List.forall_mem_singleton]
  exact and_iff_right trivial

theorem takes_table {items : FieldType} {maxItems : Option Nat} {members : List (String × Json)} :
    r.Takes (.array items maxItems) (.obj members) ↔ r.emptyTable = true ∧ members = [] := by
  rw [Takes, everywhere_iff]
  exact and_iff_left fun p hp => absurd hp List.not_mem_nil

/-- a value of no kind that a struct or an array may have -/
theorem not_takes {type : FieldType} {j : Json} (h : ¬ r.Here type j) : ¬ r.Takes type j :=
  fun htakes => h (everywhere_iff.mp htakes).1

theorem bool_here {b : Bool} : r.Here .bool (.bool b) := rfl

theorem leaf_string {f : Option StringFormat} {min max : Option Nat} {s : String} :
    r.leaf (.string f min max) (.str s) = true ↔
      ((∀ n, min = some n → n ≤ Text.utf8Length s) ∧ ∀ n, max = some n → Text.utf8Length s ≤ n) ∧
        ∀ g, f = some g → r.format g s = true := by
  simp only [leaf, text, Bool.and_eq_true, Option.all_eq_true, decide_eq_true_eq]

/-- a text with a half is read as one without -/
theorem leaf_half {type : FieldType} {s : String} {high : Bool} :
    r.leaf type (.illFormed s high) = true ↔ r.half high = true ∧ r.leaf type (.str s) = true := by
  cases type with
  | string f min max => rw [leaf, leaf, Bool.and_eq_true]
  | enum ref => rw [leaf, leaf, Bool.and_eq_true]
  | _ => exact iff_of_false (fun h => by cases h) fun h => by cases h.2

theorem leaf_arr {type : FieldType} {items : List Json} : r.leaf type (.arr items) = false := by
  cases type <;> rfl

theorem leaf_obj {type : FieldType} {members : List (String × Json)} :
    r.leaf type (.obj members) = false := by
  cases type <;> rfl

/-- the same, with other halves -/
def keeping (r : Reading) (keeps : Bool → Bool) : Reading := { r with half := keeps }

theorem leaf_keeping {keeps : Bool → Bool} (hhalf : ∀ high, r.half high = true) {type : FieldType}
    {j : Json} :
    (r.keeping keeps).leaf type j = true ↔ r.leaf type j = true ∧ j.readable keeps = true := by
  cases j with
  | illFormed s high =>
    have htext : (r.keeping keeps).leaf type (.str s) = r.leaf type (.str s) := by
      cases type <;> rfl
    rw [leaf_half, leaf_half, htext, and_iff_right (hhalf high)]
    exact and_comm
  | arr items =>
    rw [leaf_arr, leaf_arr]
    exact (and_iff_left_of_imp fun h => by cases h).symm
  | obj members =>
    rw [leaf_obj, leaf_obj]
    exact (and_iff_left_of_imp fun h => by cases h).symm
  | _ => cases type <;> exact (and_iff_left rfl).symm

/-- the members of an object are all declared, so that each of them is read -/
theorem keeping_obj {keeps : Bool → Bool} {name : String} {fields : List (String × FieldType)}
    {members : List (String × Json)} (hvalid : (Json.obj members).valid = true)
    (ih : ∀ f ∈ fields, ∀ v : Json, v.valid = true →
      ((r.keeping keeps).Takes f.2 v ↔ r.Takes f.2 v ∧ v.readable keeps = true)) :
    (r.keeping keeps).Takes (.struct name fields) (.obj members) ↔
      r.Takes (.struct name fields) (.obj members) ∧ (Json.obj members).readable keeps = true := by
  rw [Json.valid, Bool.and_eq_true, decide_eq_true_eq, Json.validMembers_iff] at hvalid
  obtain ⟨hdistinct, hvalid⟩ := hvalid
  rw [takes_obj, takes_obj, Json.readable, Json.readableMembers_iff, and_assoc]
  refine and_congr_right fun hkeys => ?_
  constructor
  · intro h
    refine ⟨fun f hf => ⟨fun v hv => ?_, (h f hf).2⟩, fun m hm => ?_⟩
    · have hmem := Json.mem_of_get? hv
      exact ((ih f hf v (hvalid _ hmem)).mp ((h f hf).1 v hv)).1
    · obtain ⟨f, hf, hfm⟩ := List.mem_map.mp (hkeys m hm)
      have hget : Json.get? f.1 (.obj members) = some m.2 := by
        rw [hfm]
        exact Json.get?_of_mem hdistinct hm
      exact ((ih f hf m.2 (hvalid m hm)).mp ((h f hf).1 m.2 hget)).2
  · rintro ⟨h, hreadable⟩ f hf
    refine ⟨fun v hv => ?_, (h f hf).2⟩
    have hmem := Json.mem_of_get? hv
    exact (ih f hf v (hvalid _ hmem)).mpr ⟨(h f hf).1 v hv, hreadable _ hmem⟩

/-- a value is taken with other halves if all of them are ones that are kept -/
theorem takes_keeping {keeps : Bool → Bool} (hhalf : ∀ high, r.half high = true)
    (horder : r.inOrder = false) {type : FieldType} {j : Json} (hvalid : j.valid = true) :
    (r.keeping keeps).Takes type j ↔ r.Takes type j ∧ j.readable keeps = true := by
  have hscalar : ∀ {type : FieldType} {j : Json}, type.isScalar = true →
      ((r.keeping keeps).Takes type j ↔ r.Takes type j ∧ j.readable keeps = true) := by
    intro type j h
    rw [takes_scalar h, takes_scalar h]
    exact leaf_keeping hhalf
  induction type using FieldType.induct generalizing j with
  | struct name fields ih =>
    cases j with
    | obj members => exact keeping_obj hvalid fun f hf v hv => ih f hf hv
    | arr items =>
      have hnot : ¬ r.inOrder = true := by
        rw [horder]
        exact Bool.false_ne_true
      rw [takes_inOrder, takes_inOrder]
      exact iff_of_false (fun h => hnot h.1.1) fun h => hnot h.1.1.1
    | _ =>
      exact iff_of_false (not_takes fun h => by cases h) fun h => not_takes (fun h => by cases h) h.1
  | array items maxItems ih =>
    cases j with
    | arr xs =>
      rw [Json.valid, Json.validItems_iff] at hvalid
      rw [takes_arr, takes_arr, Json.readable, Json.readableItems_iff, and_assoc]
      refine and_congr_right fun _ => ?_
      rw [← forall₂_and]
      exact forall₂_congr fun x hx => ih (hvalid x hx)
    | obj members =>
      rw [takes_table, takes_table]
      refine (and_iff_left_of_imp fun h => ?_).symm
      rw [h.2]
      rfl
    | _ =>
      exact iff_of_false (not_takes fun h => by cases h) fun h => not_takes (fun h => by cases h) h.1
  | optional inner ih =>
    rw [takes_optional, takes_optional]
    exact ih hvalid
  | string f min max => exact hscalar rfl
  | int min max => exact hscalar rfl
  | bool => exact hscalar rfl
  | enum ref => exact hscalar rfl

theorem inBounds_iff {min max : Option Int} {i : Int} : inBounds min max i = true ↔
    (∀ m, min = some m → m ≤ i) ∧ ∀ m, max = some m → i ≤ m := by
  simp only [inBounds, Bool.and_eq_true, Option.all_eq_true, decide_eq_true_eq]

theorem leaf_int {min max : Option Int} {n : JsonNumber} : r.leaf (.int min max) (.num n) = true ↔
    ∃ i, r.int n = some i ∧ inBounds min max i = true := by
  rw [leaf, Option.any_eq_true]

end Reading

end Protocol
