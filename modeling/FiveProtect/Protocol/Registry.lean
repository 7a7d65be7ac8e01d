import FiveProtect.Lib.Check
import FiveProtect.Protocol.Schema
import Mathlib.Data.List.Nodup
import Mathlib.Order.WellFounded

/-!
# Protocol: the registry

The intermediate representation of `packages/protocol/src/ir.ts` as it is written, with references by name, and
the checks that run before any generator.

* `defineEnum`, `defineStruct`, `defineConstant`   how a registry is built;
* `validateRegistry`   the walk over the fields of the structs in their order;
* `walk_ok`, `validateFields_ok`, `validateStructs_ok`   what each loop lets pass;
* `validateRegistry_iff`   the registries that pass, and that no struct depends on itself.
-/

namespace Protocol.Ir

inductive FieldType
  | string (format : Option StringFormat) (minLength maxLength : Option Nat)
  | int (min max : Option Int)
  | bool
  | enum (ref : String)
  | struct (ref : String)
  | array (items : FieldType) (maxItems : Option Nat)
  | optional (inner : FieldType)

structure FieldDef where
  name : String
  type : FieldType

structure StructDef where
  name : String
  fields : List FieldDef

structure ConstantDef where
  name : String
  value : Int

structure Registry where
  enums : List EnumDef
  structs : List StructDef
  constants : List ConstantDef

/-! ## building -/

def quoted (name : String) : String := "\"" ++ name ++ "\""

def assertUnique (kind name : String) (taken : List String) : Except String Unit :=
  if taken.contains name then .error ("duplicate " ++ kind ++ " " ++ quoted name ++ " in protocol registry")
  else .ok ()

def defineEnum (defn : EnumDef) (reg : Registry) : Except String Registry := do
  assertUnique "enum" defn.name (reg.enums.map (·.name))
  if defn.values.length = 0 then .error ("enum " ++ quoted defn.name ++ " has no values")
  else .ok { reg with enums := reg.enums ++ [defn] }

def defineStruct (defn : StructDef) (reg : Registry) : Except String Registry := do
  assertUnique "struct" defn.name (reg.structs.map (·.name))
  return { reg with structs := reg.structs ++ [defn] }

def defineConstant (defn : ConstantDef) (reg : Registry) : Except String Registry := do
  assertUnique "constant" defn.name (reg.constants.map (·.name))
  return { reg with constants := reg.constants ++ [defn] }

/-- what the schema files can make -/
inductive Built : Registry → Prop
  | empty : Built ⟨[], [], []⟩
  | enum {reg reg' : Registry} {defn : EnumDef} : Built reg → defineEnum defn reg = .ok reg' → Built reg'
  | struct {reg reg' : Registry} {defn : StructDef} : Built reg → defineStruct defn reg = .ok reg' →
    Built reg'
  | constant {reg reg' : Registry} {defn : ConstantDef} : Built reg → defineConstant defn reg = .ok reg' →
    Built reg'

/-! ## validation -/

def walk (enumNames seenStructs : List String) : FieldType → String → Except String Unit
  | .enum ref, place =>
    if enumNames.contains ref then .ok () else .error (place ++ " references unknown enum " ++ quoted ref)
  | .struct ref, place =>
    if seenStructs.contains ref then .ok ()
    else .error (place ++ " references struct " ++ quoted ref ++
      " before it is declared — reorder the schema files so dependencies come first")
  | .array items _, place => walk enumNames seenStructs items place
  | .optional inner, place => walk enumNames seenStructs inner place
  | _, _ => .ok ()

/-- the fields of a struct, with the names so far -/
def validateFields (enumNames seenStructs : List String) (struct : String) :
    List String → List FieldDef → Except String Unit
  | _, [] => .ok ()
  | fieldNames, f :: fields =>
    if fieldNames.contains f.name then
      .error ("struct " ++ quoted struct ++ " declares field " ++ quoted f.name ++ " twice")
    else do
      walk enumNames seenStructs f.type (struct ++ "." ++ f.name)
      validateFields enumNames seenStructs struct (fieldNames ++ [f.name]) fields

/-- the structs, with those declared before -/
def validateStructs (enumNames : List String) : List String → List StructDef → Except String Unit
  | _, [] => .ok ()
  | seenStructs, s :: structs =>
    if s.fields.length = 0 then .error ("struct " ++ quoted s.name ++ " has no fields")
    else do
      validateFields enumNames seenStructs s.name [] s.fields
      validateStructs enumNames (seenStructs ++ [s.name]) structs

def validateRegistry (reg : Registry) : Except String Unit :=
  validateStructs (reg.enums.map (·.name)) [] reg.structs

/-! ## what passes -/

/-- a type occurs in another one, under arrays and optionals -/
inductive Within (leaf : FieldType) : FieldType → Prop
  | here : Within leaf leaf
  | items {items : FieldType} {maxItems : Option Nat} : Within leaf items → Within leaf (.array items maxItems)
  | inner {inner : FieldType} : Within leaf inner → Within leaf (.optional inner)

/-- every reference has been declared -/
structure Declared (enumNames seenStructs : List String) (type : FieldType) : Prop where
  enums : ∀ ref, Within (.enum ref) type → ref ∈ enumNames
  structs : ∀ ref, Within (.struct ref) type → ref ∈ seenStructs

/-- a struct that may stand behind `seenStructs` -/
structure StructDef.Fits (enumNames seenStructs : List String) (s : StructDef) : Prop where
  nonempty : s.fields ≠ []
  distinct : (s.fields.map (·.name)).Nodup
  declared : ∀ f ∈ s.fields, Declared enumNames seenStructs f.type

/-- every struct refers to enums, and to structs that are declared strictly earlier -/
def Registry.Ordered (reg : Registry) : Prop :=
  ∀ before s behind, reg.structs = before ++ s :: behind →
    s.Fits (reg.enums.map (·.name)) (before.map (·.name))

/-- the struct `a` is referenced by the struct `b` -/
def Registry.ReferencedBy (reg : Registry) (a b : String) : Prop :=
  ∃ s ∈ reg.structs, s.name = b ∧ ∃ f ∈ s.fields, Within (.struct a) f.type

section
variable {enumNames seenStructs : List String}

/-- a check that passes on a condition -/
theorem if_ok {c : Prop} [Decidable c] {text : String} :
    (if c then Except.ok () else .error text) = .ok () ↔ c := by
  by_cases h : c
  · rw [if_pos h]
    exact ⟨fun _ => h, fun _ => rfl⟩
  · rw [if_neg h]
    exact ⟨fun heq => (by cases heq), fun hc => absurd hc h⟩

/-- a check that fails on a condition, before others -/
theorem if_error_ok {c : Prop} [Decidable c] {text : String} {rest : Except String Unit} :
    (if c then .error text else rest) = .ok () ↔ ¬c ∧ rest = .ok () := by
  by_cases h : c
  · rw [if_pos h]
    exact ⟨fun heq => (by cases heq), fun hc => absurd h hc.1⟩
  · rw [if_neg h]
    exact ⟨fun hrest => ⟨h, hrest⟩, fun hrest => hrest.2⟩

theorem within_leaf {leaf type : FieldType} (harray : ∀ items maxItems, type ≠ .array items maxItems)
    (hoptional : ∀ inner, type ≠ .optional inner) (h : Within leaf type) : leaf = type := by
  cases h with
  | here => rfl
  | items h => exact absurd rfl (harray _ _)
  | inner h => exact absurd rfl (hoptional _)

/-- under arrays and optionals, the references are those of what they hold -/
theorem declared_array {items : FieldType} {maxItems : Option Nat} :
    Declared enumNames seenStructs (.array items maxItems) ↔ Declared enumNames seenStructs items := by
  constructor
  · intro h
    exact ⟨fun ref hr => h.enums ref (.items hr), fun ref hr => h.structs ref (.items hr)⟩
  · intro h
    refine ⟨fun ref hr => ?_, fun ref hr => ?_⟩
    · cases hr with
      | items hr => exact h.enums ref hr
    · cases hr with
      | items hr => exact h.structs ref hr

theorem declared_optional {inner : FieldType} :
    Declared enumNames seenStructs (.optional inner) ↔ Declared enumNames seenStructs inner := by
  constructor
  · intro h
    exact ⟨fun ref hr => h.enums ref (.inner hr), fun ref hr => h.structs ref (.inner hr)⟩
  · intro h
    refine ⟨fun ref hr => ?_, fun ref hr => ?_⟩
    · cases hr with
      | inner hr => exact h.enums ref hr
    · cases hr with
      | inner hr => exact h.structs ref hr

theorem declared_leaf {type : FieldType} (henum : ∀ ref, type ≠ .enum ref)
    (hstruct : ∀ ref, type ≠ .struct ref) (harray : ∀ items maxItems, type ≠ .array items maxItems)
    (hoptional : ∀ inner, type ≠ .optional inner) : Declared enumNames seenStructs type :=
  ⟨fun ref hr => absurd (within_leaf harray hoptional hr).symm (henum ref),
    fun ref hr => absurd (within_leaf harray hoptional hr).symm (hstruct ref)⟩

/-- the walk looks at every reference -/
theorem walk_ok {type : FieldType} {place : String} :
    walk enumNames seenStructs type place = .ok () ↔ Declared enumNames seenStructs type := by
  induction type with
  | string format minLength maxLength =>
    exact ⟨fun _ => declared_leaf (by simp) (by simp) (by simp) (by simp), fun _ => rfl⟩
  | int min max => exact ⟨fun _ => declared_leaf (by simp) (by simp) (by simp) (by simp), fun _ => rfl⟩
  | bool => exact ⟨fun _ => declared_leaf (by simp) (by simp) (by simp) (by simp), fun _ => rfl⟩
  | enum ref =>
    rw [walk, if_ok, List.contains_iff_mem]
    refine ⟨fun hmem => ⟨fun r hr => ?_, fun r hr => ?_⟩, fun h => h.enums ref .here⟩
    · cases within_leaf (by simp) (by simp) hr
      exact hmem
    · cases within_leaf (by simp) (by simp) hr
  | struct ref =>
    rw [walk, if_ok, List.contains_iff_mem]
    refine ⟨fun hmem => ⟨fun r hr => ?_, fun r hr => ?_⟩, fun h => h.structs ref .here⟩
    · cases within_leaf (by simp) (by simp) hr
    · cases within_leaf (by simp) (by simp) hr
      exact hmem
  | array items maxItems ih =>
    rw [walk, declared_array]
    exact ih
  | optional inner ih =>
    rw [walk, declared_optional]
    exact ih

/-- the names of the fields, from those before on, are different -/
theorem validateFields_ok {struct : String} {fieldNames : List String} {fields : List FieldDef} :
    validateFields enumNames seenStructs struct fieldNames fields = .ok () ↔
      (fields.map (·.name)).Nodup ∧ (∀ f ∈ fields, f.name ∉ fieldNames) ∧
        ∀ f ∈ fields, Declared enumNames seenStructs f.type := by
  induction fields generalizing fieldNames with
  | nil =>
    exact ⟨fun _ => ⟨List.nodup_nil, fun f hf => absurd hf List.not_mem_nil,
      fun f hf => absurd hf List.not_mem_nil⟩, fun _ => rfl⟩
  | cons f fields ih =>
    have hunfold : validateFields enumNames seenStructs struct fieldNames (f :: fields) = .ok () ↔
        f.name ∉ fieldNames ∧ Declared enumNames seenStructs f.type ∧
          validateFields enumNames seenStructs struct (fieldNames ++ [f.name]) fields = .ok () := by
      rw [validateFields, if_error_ok, Check.bind_ok, walk_ok, List.contains_iff_mem]
    rw [hunfold, ih, List.map_cons, List.nodup_cons, List.forall_mem_cons, List.forall_mem_cons]
    constructor
    · intro h
      obtain ⟨hnew, hdeclared, hnodup, hothers, hrest⟩ := h
      refine ⟨⟨fun hmem => ?_, hnodup⟩, ⟨hnew, fun g hg hold => ?_⟩, hdeclared, hrest⟩
      · obtain ⟨g, hg, hname⟩ := List.mem_map.mp hmem
        exact hothers g hg (List.mem_append_right _ (List.mem_singleton.mpr hname))
      · exact hothers g hg (List.mem_append_left _ hold)
    · intro h
      obtain ⟨⟨hnot, hnodup⟩, ⟨hnew, hothers⟩, hdeclared, hrest⟩ := h
      refine ⟨hnew, hdeclared, hnodup, fun g hg hmem => ?_, hrest⟩
      rcases List.mem_append.mp hmem with hold | hsame
      · exact hothers g hg hold
      · rw [← List.mem_singleton.mp hsame] at hnot
        exact hnot (List.mem_map_of_mem hg)

/-- each struct is checked against those before it -/
theorem validateStructs_ok {structs : List StructDef} :
    validateStructs enumNames seenStructs structs = .ok () ↔
      ∀ before s behind, structs = before ++ s :: behind →
        s.Fits enumNames (seenStructs ++ before.map (·.name)) := by
  induction structs generalizing seenStructs with
  | nil =>
    refine ⟨fun _ before s behind hsplit => ?_, fun _ => rfl⟩
    exact absurd hsplit.symm (List.append_ne_nil_of_right_ne_nil _ (List.cons_ne_nil _ _))
  | cons x structs ih =>
    have hfits : x.Fits enumNames seenStructs ↔ ¬x.fields.length = 0 ∧
        validateFields enumNames seenStructs x.name [] x.fields = .ok () := by
      rw [validateFields_ok, List.length_eq_zero_iff]
      constructor
      · intro h
        exact ⟨h.nonempty, h.distinct, fun f _ => List.not_mem_nil, h.declared⟩
      · intro h
        exact ⟨h.1, h.2.1, h.2.2.2⟩
    rw [validateStructs, if_error_ok, Check.bind_ok, ← and_assoc, ← hfits, ih]
    constructor
    · intro h before s behind hsplit
      cases before with
      | nil =>
        cases hsplit
        rw [List.map_nil, List.append_nil]
        exact h.1
      | cons y before =>
        cases hsplit
        have hrest := h.2 before s behind rfl
        rw [List.append_assoc] at hrest
        exact hrest
    · intro h
      refine ⟨?_, fun before s behind hsplit => ?_⟩
      · have hfirst := h [] x structs rfl
        rw [List.map_nil, List.append_nil] at hfirst
        exact hfirst
      · have hrest := h (x :: before) s behind (by rw [hsplit]; rfl)
        rw [List.append_assoc]
        exact hrest

/-- the place of a struct in the list decreases along its references -/
theorem referencedBy_wellFounded {reg : Registry} (hdistinct : (reg.structs.map (·.name)).Nodup)
    (h : reg.Ordered) : WellFounded reg.ReferencedBy := by
  have hsub : Subrelation reg.ReferencedBy
      (InvImage (· < ·) fun name => (reg.structs.map (·.name)).idxOf name) := by
    rintro a b ⟨s, hs, rfl, f, hf, hwithin⟩
    obtain ⟨before, behind, hsplit⟩ := List.append_of_mem hs
    have hdeclared := ((h before s behind hsplit).declared f hf).structs a hwithin
    have hnames : reg.structs.map (·.name) = before.map (·.name) ++ s.name :: behind.map (·.name) := by
      rw [hsplit, List.map_append, List.map_cons]
    rw [hnames] at hdistinct
    have hnot : s.name ∉ before.map (·.name) := fun hmem =>
      (List.nodup_append.mp hdistinct).2.2 _ hmem _ List.mem_cons_self rfl
    show (reg.structs.map (·.name)).idxOf a < (reg.structs.map (·.name)).idxOf s.name
    rw [hnames, List.idxOf_append_of_mem hdeclared, List.idxOf_append_of_notMem hnot]
    exact (List.idxOf_lt_length_of_mem hdeclared).trans_le (Nat.le_add_right _ _)
  exact hsub.wf (InvImage.wf _ wellFounded_lt)

/-- **The registries that pass.**  A registry is accepted exactly if each struct has fields, with different names,
that refer to declared enums and, through any nesting, to structs declared strictly earlier; then no struct
depends on itself. -/
theorem validateRegistry_iff (reg : Registry) (hdistinct : (reg.structs.map (·.name)).Nodup) :
    (validateRegistry reg = .ok () ↔ reg.Ordered) ∧
      (validateRegistry reg = .ok () → WellFounded reg.ReferencedBy) := by
  have hiff : validateRegistry reg = .ok () ↔ reg.Ordered := by
    rw [validateRegistry, validateStructs_ok]
    rfl
  exact ⟨hiff, fun h => referencedBy_wellFounded hdistinct (hiff.mp h)⟩

/-- a session refers to the server before it, and to its tier -/
def twoStructs : Registry where
  enums := [⟨"Tier", ["basic", "full"]⟩]
  structs := [⟨"Server", [⟨"tier", .enum "Tier"⟩]⟩,
    ⟨"Session", [⟨"servers", .optional (.array (.struct "Server") none)⟩]⟩]
  constants := []

theorem validateRegistry_iff_twoStructs :
    validateRegistry twoStructs = .ok () ∧ twoStructs.Ordered ∧ WellFounded twoStructs.ReferencedBy := by
  have hok : validateRegistry twoStructs = .ok () := by decide
  obtain ⟨hiff, hwf⟩ := validateRegistry_iff twoStructs (by decide)
  exact ⟨hok, hiff.mp hok, hwf hok⟩

/-! ## what the schema files make -/

theorem assertUnique_ok {kind name : String} {taken : List String}
    (h : assertUnique kind name taken = .ok ()) : name ∉ taken := by
  unfold assertUnique at h
  split at h
  · cases h
  · rename_i hnot
    exact fun hmem => hnot (List.contains_iff_mem.mpr hmem)

theorem nodup_push {names : List String} {name : String} (h : names.Nodup) (hnew : name ∉ names) :
    (names ++ [name]).Nodup := by
  refine List.nodup_append.mpr ⟨h, List.nodup_singleton _, fun a ha b hb hab => ?_⟩
  rw [List.mem_singleton.mp hb] at hab
  exact hnew (hab ▸ ha)

/-- structs and enums have names of their own -/
theorem Built.distinct {reg : Registry} (h : Built reg) :
    (reg.structs.map (·.name)).Nodup ∧ (reg.enums.map (·.name)).Nodup := by
  induction h with
  | empty => exact ⟨List.nodup_nil, List.nodup_nil⟩
  | enum _ hdefine ih =>
    obtain ⟨_, hunique, hrest⟩ := Check.bind_eq_ok.mp hdefine
    split at hrest
    · cases hrest
    · cases hrest
      refine ⟨ih.1, ?_⟩
      rw [List.map_append]
      exact nodup_push ih.2 (assertUnique_ok hunique)
  | struct _ hdefine ih =>
    obtain ⟨_, hunique, hrest⟩ := Check.bind_eq_ok.mp hdefine
    cases hrest
    refine ⟨?_, ih.2⟩
    rw [List.map_append]
    exact nodup_push ih.1 (assertUnique_ok hunique)
  | constant _ hdefine ih =>
    obtain ⟨_, _, hrest⟩ := Check.bind_eq_ok.mp hdefine
    cases hrest
    exact ih

end

end Protocol.Ir
