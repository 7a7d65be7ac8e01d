import FiveProtect.Protocol.Link
import FiveProtect.Protocol.Names
import FiveProtect.Protocol.Zod

/-!
# Protocol: the generated TypeScript module

`packages/protocol/src/generators/typescript.ts` as a compiler.  The module is a list of `export const`, evaluated
from top to bottom: a name that is used before its declaration is reached is a `ReferenceError`, a name that is
declared twice a `SyntaxError`.  The value of a struct is a Zod schema, built by calls on other schemas.

* `zodExpr`, `generateTypeScript`   the expression of a type, and the module;
* `Expr.eval`, `Body.eval`          the schema an expression builds, from the names declared so far;
* `load_iff`     the module of a registry that passes loads exactly if it declares no name twice;
* `load_accepts` the schemas it exports accept what the trees of their structs say.
-/

namespace Protocol.ZodModule
open Ir (CaseMapping FieldDef StructDef Registry findEnum resolve)

/-! ## typescript.ts -/

inductive StringMethod
  /-- `.uuid()`, `.datetime(..)`, or the `.regex(..)` of a format -/
  | format (format : StringFormat)
  | min (n : Nat)
  | max (n : Nat)

inductive NumberMethod
  | int
  | min (n : Int)
  | max (n : Int)

inductive Expr
  /-- `z.string()` and what is called on it -/
  | string (methods : List StringMethod)
  | number (methods : List NumberMethod)
  | boolean
  | ref (name : String)
  | array (items : Expr) (max : Option Nat)
  | optional (inner : Expr)

/-- what stands behind `export const name =` -/
inductive Body
  | constant (value : Int)
  /-- `z.enum([..])` -/
  | enum (values : List String)
  /-- `ref.options` -/
  | options (ref : String)
  /-- `z.object({..}).strict()` -/
  | object (fields : List (String × Expr))
  /-- `{ .. } as const` -/
  | schemas (refs : List String)

abbrev Module := Linking.Program Body

def zodExpr : Ir.FieldType → Expr
  | .string format minLength maxLength =>
    .string (format.toList.map .format ++ minLength.toList.map .min ++ maxLength.toList.map .max)
  | .int min max => .number (.int :: (min.toList.map .min ++ max.toList.map .max))
  | .bool => .boolean
  | .enum ref => .ref ref
  | .struct ref => .ref ref
  | .array items maxItems => .array (zodExpr items) maxItems
  | .optional inner => .optional (zodExpr inner)

def screamingSnakeCase (c : CaseMapping) (value : List Char) : List Char :=
  (Ir.snakeCase c value).flatMap c.toUpper

def valuesName (c : CaseMapping) (name : String) : String :=
  String.ofList (screamingSnakeCase c name.toList) ++ "_VALUES"

def enumDecls (c : CaseMapping) (e : EnumDef) : Module :=
  [(e.name, .enum e.values), (valuesName c e.name, .options e.name)]

def structDecl (s : StructDef) : String × Body := (s.name, .object (s.fields.map fun f => (f.name, zodExpr f.type)))

def generateTypeScript (c : CaseMapping) (reg : Registry) : Module :=
  reg.constants.map (fun d => (d.name, .constant d.value)) ++ reg.enums.flatMap (enumDecls c) ++
    reg.structs.map structDecl ++ [("SCHEMAS", .schemas (reg.structs.map (·.name)))]

/-! ## its values -/

/-- what a schema does with a value; `none` is `undefined` -/
abbrev ZodType := Option Json → Bool

inductive Value
  | number (n : Int)
  | enum (values : List String)
  | options (values : List String)
  | schema (z : ZodType)
  | schemas (entries : List (String × Value))

/-- a value where a schema is expected; parsing with anything else is an error -/
def Value.zod : Value → ZodType
  | .enum values => fun
    | some (.str s) => values.contains s
    | _ => false
  | .schema z => z
  | _ => fun _ => false

def StringMethod.test (s : String) : StringMethod → Bool
  | .format f => Zod.formatOk f s
  | .min n => n ≤ Text.utf16Length s
  | .max n => Text.utf16Length s ≤ n

def NumberMethod.test (n : JsonNumber) : NumberMethod → Bool
  | .int => n.toInt?.isSome
  | .min m => (m : ℚ) ≤ n.val
  | .max m => n.val ≤ (m : ℚ)

def Expr.eval (env : String → Option Value) : Expr → Option ZodType
  | .string methods => some fun
    | some (.str s) => methods.all (StringMethod.test s)
    | some (.illFormed s _) => methods.all (StringMethod.test s)
    | _ => false
  | .number methods => some fun
    | some (.num n) => methods.all (NumberMethod.test n)
    | _ => false
  | .boolean => some fun
    | some (.bool _) => true
    | _ => false
  | .ref name => (env name).map Value.zod
  | .array items max => (items.eval env).map fun item => fun
    | some (.arr xs) => (xs.all fun x => item (some x)) && max.all fun n => xs.length ≤ n
    | _ => false
  | .optional inner => (inner.eval env).map fun z v => v.isNone || z v

/-- the names an expression is made of -/
def Expr.names : Expr → List String
  | .ref name => [name]
  | .array items _ => items.names
  | .optional inner => inner.names
  | _ => []

/-- `z.object({..}).strict()`: no other keys, and each property fits, be it there or `undefined` -/
def strictObject (properties : List (String × ZodType)) : ZodType
  | some (.obj members) => (members.all fun m => (properties.map Prod.fst).contains m.1) &&
      properties.all fun p => p.2 (Json.get? p.1 (.obj members))
  | _ => false

/-- `.options` of what is no enum is `undefined` -/
def Value.options? : Value → List String
  | .enum values => values
  | _ => []

/-- the properties of `z.object({..})` -/
def evalFields (env : String → Option Value) (fields : List (String × Expr)) : Option (List (String × ZodType)) :=
  fields.mapM fun f => (f.2.eval env).map fun z => (f.1, z)

/-- `{ .. }` -/
def evalRefs (env : String → Option Value) (refs : List String) : Option (List (String × Value)) :=
  refs.mapM fun ref => (env ref).map fun value => (ref, value)

def Body.eval (env : String → Option Value) : Body → Option Value
  | .constant value => some (.number value)
  | .enum values => some (.enum values)
  | .options ref => (env ref).map fun value => .options value.options?
  | .object fields => (evalFields env fields).map fun properties => .schema (strictObject properties)
  | .schemas refs => (evalRefs env refs).map .schemas

/-- a body uses a name -/
def Body.Refers : Body → String → Prop
  | .constant _, _ => False
  | .enum _, _ => False
  | .options ref, used => used = ref
  | .object fields, used => ∃ f ∈ fields, used ∈ f.2.names
  | .schemas refs, used => used ∈ refs

/-! ## what an expression needs -/

section
variable {env env' : String → Option Value}

theorem eval_congr {e : Expr} (h : ∀ used ∈ e.names, env used = env' used) : e.eval env = e.eval env' := by
  induction e with
  | ref name =>
    show Option.map _ _ = Option.map _ _
    rw [h name (List.mem_singleton.mpr rfl)]
  | array items max ih =>
    show Option.map _ _ = Option.map _ _
    rw [ih h]
  | optional inner ih =>
    show Option.map _ _ = Option.map _ _
    rw [ih h]
  | _ => rfl

theorem eval_isSome {e : Expr} : (e.eval env).isSome = true ↔ ∀ used ∈ e.names, (env used).isSome = true := by
  induction e with
  | ref name =>
    rw [Expr.eval, Option.isSome_map, Expr.names]
    exact ⟨fun h used hused => (List.mem_singleton.mp hused) ▸ h, fun h => h name (List.mem_singleton.mpr rfl)⟩
  | array items max ih => rw [Expr.eval, Option.isSome_map, ih, Expr.names]
  | optional inner ih => rw [Expr.eval, Option.isSome_map, ih, Expr.names]
  | _ => exact ⟨fun _ used hused => absurd hused List.not_mem_nil, fun _ => rfl⟩

end

/-- the module as declarations that are evaluated in their order -/
def values : Linking.Language Body (Option Value) where
  refers := Body.Refers
  undefined := none
  meaning := Body.eval
  meaning_congr := by
    intro body env env' h
    cases body with
    | constant value => rfl
    | enum values => rfl
    | options ref =>
      show Option.map _ _ = Option.map _ _
      rw [h ref rfl]
    | object fields =>
      have hfields : evalFields env fields = evalFields env' fields := Check.mapM_congr fun f hf => by
        rw [eval_congr fun used hused => h used ⟨f, hf, hused⟩]
      rw [Body.eval, Body.eval, hfields]
    | schemas refs =>
      have hrefs : evalRefs env refs = evalRefs env' refs := Check.mapM_congr fun ref href => by rw [h ref href]
      rw [Body.eval, Body.eval, hrefs]

/-- a declaration has a value exactly if the names it uses have values -/
theorem needs (body : Body) : values.Needs body := by
  intro env
  show (body.eval env).isSome = true ↔ ∀ used, body.Refers used → _
  cases body with
  | constant value => exact ⟨fun _ used hused => absurd hused id, fun _ => rfl⟩
  | enum values => exact ⟨fun _ used hused => absurd hused id, fun _ => rfl⟩
  | options ref =>
    rw [Body.eval, Option.isSome_map]
    exact ⟨fun h used hused => hused ▸ h, fun h => h ref rfl⟩
  | object fields =>
    rw [Body.eval, Option.isSome_map, evalFields, Check.mapM_isSome]
    constructor
    · rintro h used ⟨f, hf, hused⟩
      have hf' := h f hf
      rw [Option.isSome_map] at hf'
      exact eval_isSome.mp hf' used hused
    · intro h f hf
      rw [Option.isSome_map]
      exact eval_isSome.mpr fun used hused => h used ⟨f, hf, hused⟩
  | schemas refs =>
    rw [Body.eval, Option.isSome_map, evalRefs, Check.mapM_isSome]
    exact forall₂_congr fun ref _ => by rw [Option.isSome_map]

/-- importing the module: no name may be declared twice, and `z` is imported -/
def Module.load (m : Module) : Option (List (String × Value)) :=
  if ("z" :: Linking.names m).Nodup then values.load [] m else none

/-! ## loading -/

section
variable {c : CaseMapping} {reg : Registry}

theorem names_zodExpr {type : Ir.FieldType} {used : String} :
    used ∈ (zodExpr type).names ↔ Ir.Within (.enum used) type ∨ Ir.Within (.struct used) type := by
  induction type with
  | enum ref =>
    rw [zodExpr, Expr.names, List.mem_singleton]
    constructor
    · rintro rfl
      exact .inl .here
    · rintro (h | h)
      · cases h
        rfl
      · cases h
  | struct ref =>
    rw [zodExpr, Expr.names, List.mem_singleton]
    constructor
    · rintro rfl
      exact .inr .here
    · rintro (h | h)
      · cases h
      · cases h
        rfl
  | array items maxItems ih =>
    rw [zodExpr, Expr.names, ih, Ir.within_array (by simp), Ir.within_array (by simp)]
  | optional inner ih =>
    rw [zodExpr, Expr.names, ih, Ir.within_optional (by simp), Ir.within_optional (by simp)]
  | _ =>
    refine ⟨fun h => absurd h List.not_mem_nil, ?_⟩
    rintro (h | h)
    · cases h
    · cases h

theorem ordered_constants (seen : List String) :
    values.Ordered seen (reg.constants.map fun d => (d.name, Body.constant d.value)) := by
  induction reg.constants generalizing seen with
  | nil => trivial
  | cons d constants ih => exact ⟨fun used hused => absurd hused id, ih _⟩

theorem ordered_enums (enums : List EnumDef) (seen : List String) :
    values.Ordered seen (enums.flatMap (enumDecls c)) := by
  induction enums generalizing seen with
  | nil => trivial
  | cons e enums ih =>
    refine ⟨fun used hused => absurd hused id, fun used hused => ?_, ih _⟩
    exact List.mem_append_right _ (List.mem_singleton.mpr hused)

/-- the enums and the structs that are declared before have been evaluated -/
theorem ordered_structs {enumNames seenStructs : List String} {structs : List StructDef} {seen : List String}
    (h : ∀ before s behind, structs = before ++ s :: behind →
      s.Fits enumNames (seenStructs ++ before.map (·.name)))
    (henums : ∀ name ∈ enumNames, name ∈ seen) (hseen : ∀ name ∈ seenStructs, name ∈ seen) :
    values.Ordered seen (structs.map structDecl) := by
  induction structs generalizing seenStructs seen with
  | nil => trivial
  | cons s structs ih =>
    have hfits := h [] s structs rfl
    rw [List.map_nil, List.append_nil] at hfits
    have hrest : ∀ before x behind, structs = before ++ x :: behind →
        x.Fits enumNames ((seenStructs ++ [s.name]) ++ before.map (·.name)) := by
      intro before x behind hsplit
      have hx := h (s :: before) x behind (by rw [hsplit]; rfl)
      rwa [List.append_assoc]
    refine ⟨?_, ih hrest (fun name hname => List.mem_append_left _ (henums name hname)) fun name hname => ?_⟩
    · rintro used ⟨f, hf, hused⟩
      obtain ⟨field, hfield, rfl⟩ := List.mem_map.mp hf
      rcases names_zodExpr.mp hused with hused | hused
      · exact henums used ((hfits.declared field hfield).enums used hused)
      · exact hseen used ((hfits.declared field hfield).structs used hused)
    · rcases List.mem_append.mp hname with hname | hname
      · exact List.mem_append_left _ (hseen name hname)
      · exact List.mem_append_right _ hname

theorem names_structs : Linking.names (reg.structs.map structDecl) = reg.structs.map (·.name) := by
  rw [Linking.names, List.map_map]
  rfl

theorem mem_names_enums {name : String} (h : name ∈ reg.enums.map (·.name)) :
    name ∈ Linking.names (reg.enums.flatMap (enumDecls c)) := by
  obtain ⟨e, he, rfl⟩ := List.mem_map.mp h
  exact List.mem_map.mpr ⟨(e.name, .enum e.values), List.mem_flatMap.mpr ⟨e, he, List.mem_cons_self⟩, rfl⟩

theorem ordered_module (h : reg.Ordered) : values.Ordered [] (generateTypeScript c reg) := by
  rw [generateTypeScript, Linking.Language.ordered_append, Linking.Language.ordered_append,
    Linking.Language.ordered_append]
  refine ⟨⟨⟨ordered_constants _, ordered_enums _ _⟩, ?_⟩, ?_, trivial⟩
  · have hfits : ∀ before s behind, reg.structs = before ++ s :: behind →
        s.Fits (reg.enums.map (·.name)) ([] ++ before.map (·.name)) := fun before s behind hsplit =>
      h before s behind hsplit
    refine ordered_structs hfits (fun name hname => ?_) fun name hname => absurd hname List.not_mem_nil
    rw [Linking.names, List.map_append]
    exact List.mem_append_right _ (List.mem_append_right _ (mem_names_enums hname))
  · intro used hused
    have hnames : Linking.names (reg.structs.map structDecl) = reg.structs.map (·.name) := names_structs
    rw [← hnames] at hused
    rw [Linking.names, List.map_append]
    exact List.mem_append_right _ (List.mem_append_right _ hused)

theorem load_of_nodup (hpass : Ir.validateRegistry reg = .ok ())
    (hnodup : ("z" :: Linking.names (generateTypeScript c reg)).Nodup) :
    (Module.load (generateTypeScript c reg)).isSome = true := by
  have hordered := ordered_module (c := c) (Ir.ordered_of_pass hpass)
  rw [Module.load, if_pos hnodup]
  exact (Linking.Language.load_ordered (fun d _ => needs d.2) []).mpr hordered

/-- **When the TypeScript module loads.**  The module of a registry that passes loads exactly if no name is declared
twice: constants, enums, their values and structs share one scope, with `z` and `SCHEMAS`. -/
theorem load_iff (hpass : Ir.validateRegistry reg = .ok ()) :
    (Module.load (generateTypeScript c reg)).isSome = true ↔
      ("z" :: Linking.names (generateTypeScript c reg)).Nodup := by
  refine ⟨fun hload => ?_, load_of_nodup hpass⟩
  unfold Module.load at hload
  split at hload
  · rename_i h
    exact h
  · cases hload

/-! ## what the schemas accept -/

/-- a property of a tree, as an object checks it -/
def parse (tree : FieldType) : ZodType
  | some j => Zod.accepts tree j
  | none => tree.isOptional

theorem toInt?_val {n : JsonNumber} {i : Int} (h : n.toInt? = some i) : n.val = i := by
  rw [JsonNumber.toInt?] at h
  split at h
  · rename_i hden
    cases h
    exact (Rat.den_eq_one_iff n.val).mp hden |>.symm
  · cases h

/-- the methods of a number, together -/
theorem number_methods (n : JsonNumber) (min max : Option Int) :
    (NumberMethod.int :: (min.toList.map .min ++ max.toList.map .max)).all (NumberMethod.test n) =
      n.toInt?.any fun i => (min.all fun m => m ≤ i) && (max.all fun m => i ≤ m) := by
  rw [List.all_cons, List.all_append]
  cases hn : n.toInt? with
  | none =>
    rw [NumberMethod.test, hn]
    rfl
  | some i =>
    have hmin : ∀ m, NumberMethod.test n (.min m) = decide (m ≤ i) := by
      intro m
      rw [NumberMethod.test, toInt?_val hn]
      exact decide_eq_decide.mpr Rat.intCast_le_intCast
    have hmax : ∀ m, NumberMethod.test n (.max m) = decide (i ≤ m) := by
      intro m
      rw [NumberMethod.test, toInt?_val hn]
      exact decide_eq_decide.mpr Rat.intCast_le_intCast
    rw [NumberMethod.test, hn]
    cases min with
    | none =>
      cases max with
      | none => rfl
      | some b => simp [hmax]
    | some a =>
      cases max with
      | none => simp [hmin]
      | some b => simp [hmin, hmax]

/-- the methods of a text, together -/
theorem string_methods (s : String) (format : Option StringFormat) (minLength maxLength : Option Nat) :
    (format.toList.map StringMethod.format ++ minLength.toList.map StringMethod.min ++
        maxLength.toList.map StringMethod.max).all
        (StringMethod.test s) =
      Zod.text format minLength maxLength s := by
  rw [List.all_append, List.all_append, Zod.text]
  cases format with
  | none => cases minLength <;> cases maxLength <;> simp [StringMethod.test]
  | some f => cases minLength <;> cases maxLength <;> simp [StringMethod.test]

section
variable {env : String → Option Value} {link : String → Option FieldType} {enums : List EnumDef}

/-- a value of the module checks what a tree says -/
def Checks (value : Option Value) (tree : FieldType) : Prop :=
  ∃ x, value = some x ∧ ∀ v, x.zod v = parse tree v

/-- **The expression of a type.**  It builds a schema that accepts what the tree of the type says. -/
theorem eval_spec {type : Ir.FieldType} {tree : FieldType} (htree : resolve enums link type = some tree)
    (henums : ∀ ref, Ir.Within (.enum ref) type → ∀ defn, findEnum enums ref = some defn →
      Checks (env ref) (.enum defn))
    (hstructs : ∀ ref, Ir.Within (.struct ref) type → ∀ t, link ref = some t → Checks (env ref) t) :
    ∃ z, (zodExpr type).eval env = some z ∧ ∀ v, z v = parse tree v := by
  induction type generalizing tree with
  | string format minLength maxLength =>
    cases htree
    refine ⟨_, rfl, fun v => ?_⟩
    cases v with
    | none => rfl
    | some j =>
      cases j with
      | str s => exact (string_methods s format minLength maxLength).trans (by rw [parse, Zod.accepts])
      | illFormed s high =>
        exact (string_methods s format minLength maxLength).trans (by rw [parse, Zod.accepts])
      | _ => rfl
  | int min max =>
    cases htree
    refine ⟨_, rfl, fun v => ?_⟩
    cases v with
    | none => rfl
    | some j =>
      cases j with
      | num n => exact (number_methods n min max).trans (by rw [parse, Zod.accepts])
      | _ => rfl
  | bool =>
    cases htree
    refine ⟨_, rfl, fun v => ?_⟩
    cases v with
    | none => rfl
    | some j => cases j <;> rfl
  | enum ref =>
    obtain ⟨defn, hdefn, rfl⟩ := Option.map_eq_some_iff.mp htree
    obtain ⟨x, hx, hzod⟩ := henums ref .here defn hdefn
    exact ⟨x.zod, by rw [zodExpr, Expr.eval, hx]; rfl, hzod⟩
  | struct ref =>
    obtain ⟨x, hx, hzod⟩ := hstructs ref .here tree htree
    exact ⟨x.zod, by rw [zodExpr, Expr.eval, hx]; rfl, hzod⟩
  | array items maxItems ih =>
    obtain ⟨itemTree, hitem, rfl⟩ := Option.map_eq_some_iff.mp htree
    obtain ⟨z, hz, hparse⟩ := ih hitem (fun ref h => henums ref (.items h)) fun ref h => hstructs ref (.items h)
    refine ⟨_, by rw [zodExpr, Expr.eval, hz]; rfl, fun v => ?_⟩
    cases v with
    | none => rfl
    | some j =>
      cases j with
      | arr xs =>
        show ((xs.all fun x => z (some x)) && maxItems.all fun n => xs.length ≤ n) = _
        rw [parse, Zod.accepts]
        simp only [hparse, parse]
      | _ => rfl
  | optional inner ih =>
    obtain ⟨innerTree, hinner, rfl⟩ := Option.map_eq_some_iff.mp htree
    obtain ⟨z, hz, hparse⟩ := ih hinner (fun ref h => henums ref (.inner h)) fun ref h => hstructs ref (.inner h)
    refine ⟨_, by rw [zodExpr, Expr.eval, hz]; rfl, fun v => ?_⟩
    cases v with
    | none => rfl
    | some j =>
      show (false || z (some j)) = _
      rw [Bool.false_or, hparse, parse, parse, Zod.accepts_optional]

/-- a property of the schema stands for a field of the tree -/
def Property (p : String × ZodType) (tree : String × FieldType) : Prop :=
  p.1 = tree.1 ∧ ∀ v, p.2 v = parse tree.2 v

/-- the properties of an object check what its fields say -/
theorem properties_all {properties : List (String × ZodType)} {trees : List (String × FieldType)}
    (h : List.Forall₂ Property properties trees) (j : Json) :
    (properties.all fun p => p.2 (Json.get? p.1 j)) = Zod.acceptsFields trees j := by
  induction h with
  | nil => rfl
  | @cons p tree properties trees hp _ ih =>
    obtain ⟨key, type⟩ := tree
    obtain ⟨hkey, hparse⟩ := hp
    rw [List.all_cons, ih, hparse, hkey]
    cases type with
    | optional inner =>
      rw [Zod.acceptsFields]
      cases Json.get? key j with
      | none => rfl
      | some v => rw [parse, Zod.accepts_optional, Option.all_some]
    | _ =>
      rw [Zod.acceptsFields]
      · cases Json.get? key j with
        | none => rfl
        | some v => rfl
      · intro inner hinner
        cases hinner

theorem strictObject_spec {properties : List (String × ZodType)} {trees : List (String × FieldType)}
    (h : List.Forall₂ Property properties trees) (name : String) (v : Option Json) :
    strictObject properties v = parse (.struct name trees) v := by
  have hnames : properties.map Prod.fst = trees.map Prod.fst := by
    induction h with
    | nil => rfl
    | cons hp _ ih => rw [List.map_cons, List.map_cons, hp.1, ih]
  cases v with
  | none => rfl
  | some j =>
    cases j with
    | obj members => rw [strictObject, parse, Zod.accepts, hnames, properties_all h]
    | _ => rfl

/-- the fields of a struct, whose expressions have been evaluated -/
theorem evalFields_spec {fields : List FieldDef} {trees : List (String × FieldType)}
    (h : List.Forall₂ (fun f tree => tree.1 = f.name ∧ ∃ z, (zodExpr f.type).eval env = some z ∧
      ∀ v, z v = parse tree.2 v) fields trees) :
    ∃ properties, evalFields env (fields.map fun f => (f.name, zodExpr f.type)) = some properties ∧
      List.Forall₂ Property properties trees := by
  induction h with
  | nil => exact ⟨[], rfl, .nil⟩
  | @cons f _ _ _ hd _ ih =>
    obtain ⟨hname, z, hz, hparse⟩ := hd
    obtain ⟨rest, hrest, hproperties⟩ := ih
    have hproperty : Property (f.name, z) _ := ⟨hname.symm, hparse⟩
    refine ⟨_, ?_, .cons hproperty hproperties⟩
    unfold evalFields at hrest ⊢
    rw [List.map_cons, List.mapM_cons, hz, hrest]
    rfl

end

theorem findEnum_mem {enums : List EnumDef} {ref : String} {defn : EnumDef} (h : findEnum enums ref = some defn) :
    defn ∈ enums ∧ defn.name = ref := by
  have hmem := List.mem_of_find?_eq_some h
  have hname := List.find?_some h
  exact ⟨hmem, of_decide_eq_true hname⟩

theorem mem_enum {e : EnumDef} (he : e ∈ reg.enums) : (e.name, .enum e.values) ∈ generateTypeScript c reg := by
  apply List.mem_append_left
  apply List.mem_append_left
  apply List.mem_append_right
  exact List.mem_flatMap.mpr ⟨e, he, List.mem_cons_self⟩

theorem mem_struct {s : StructDef} (hs : s ∈ reg.structs) : structDecl s ∈ generateTypeScript c reg := by
  apply List.mem_append_left
  apply List.mem_append_right
  exact List.mem_map_of_mem hs

variable {m : Module} {result : List (String × Value)}

/-- in a module that has loaded, a name has the value of its body -/
theorem load_eval (hload : Module.load m = some result) {d : String × Body} (hd : d ∈ m) :
    Linking.Language.env result d.1 = d.2.eval (Linking.Language.env result) := by
  unfold Module.load at hload
  split at hload
  · rename_i hnodup
    have hnames : (Linking.names ([] : List (String × Value)) ++ Linking.names m).Nodup :=
      (List.nodup_cons.mp hnodup).2
    obtain ⟨_, _, hfixed⟩ := Linking.Language.load_fixed (fun d _ => needs d.2) hnames hload
    exact hfixed d hd
  · cases hload

/-- the schema of an enum -/
theorem enum_loaded (hload : Module.load (generateTypeScript c reg) = some result) {ref : String} {defn : EnumDef}
    (hfind : findEnum reg.enums ref = some defn) : Checks (Linking.Language.env result ref) (.enum defn) := by
  obtain ⟨hmem, rfl⟩ := findEnum_mem hfind
  refine ⟨.enum defn.values, load_eval hload (mem_enum hmem), fun v => ?_⟩
  cases v with
  | none => rfl
  | some j => cases j <;> rfl

/-- the schema of a struct; along the references, which lead to earlier structs -/
theorem struct_loaded (hbuilt : Ir.Built reg) (hpass : Ir.validateRegistry reg = .ok ())
    (hload : Module.load (generateTypeScript c reg) = some result) (name : String) :
    ∀ s ∈ reg.structs, s.name = name → ∃ trees properties, reg.link s.name = some (.struct s.name trees) ∧
      Linking.Language.env result s.name = some (.schema (strictObject properties)) ∧
        List.Forall₂ Property properties trees := by
  have hdistinct := hbuilt.distinct.1
  have hordered := Ir.ordered_of_pass hpass
  induction name using (Ir.referencedBy_wellFounded hdistinct hordered).induction with
  | _ name ih =>
    rintro s hs rfl
    obtain ⟨trees, hlink, htrees⟩ := Ir.link_spec hdistinct hpass hs
    obtain ⟨before, behind, hsplit⟩ := List.append_of_mem hs
    have hfits := hordered before s behind hsplit
    have hfields : List.Forall₂ (fun f tree => tree.1 = f.name ∧ ∃ z,
        (zodExpr f.type).eval (Linking.Language.env result) = some z ∧ ∀ v, z v = parse tree.2 v)
        s.fields trees := by
      refine ((List.forall₂_and_left _ _).mpr ⟨fun f hf => hf, htrees⟩).imp fun f tree h => ?_
      obtain ⟨hf, hname, htree⟩ := h
      refine ⟨hname, eval_spec htree (fun ref _ _ => enum_loaded hload) fun ref hwithin t ht => ?_⟩
      obtain ⟨used, hused, hname⟩ := List.mem_map.mp ((hfits.declared f hf).structs ref hwithin)
      have hmem : used ∈ reg.structs := hsplit ▸ List.mem_append_left _ hused
      obtain ⟨usedTrees, properties, hlink, hvalue, hproperties⟩ :=
        ih ref ⟨s, hs, rfl, f, hf, hwithin⟩ used hmem hname
      rw [hname] at hlink hvalue
      rw [hlink] at ht
      cases ht
      exact ⟨_, hvalue, strictObject_spec hproperties ref⟩
    obtain ⟨properties, heval, hproperties⟩ := evalFields_spec hfields
    refine ⟨trees, properties, hlink, (load_eval hload (mem_struct hs)).trans ?_, hproperties⟩
    show (evalFields _ _).map _ = _
    rw [heval]
    rfl

/-- **The TypeScript module is correct.**  If the module of a registry that passes loads, the schema it exports for
a struct accepts exactly what the tree of the struct says. -/
theorem load_accepts (hbuilt : Ir.Built reg) (hpass : Ir.validateRegistry reg = .ok ())
    {result : List (String × Value)} (hload : Module.load (generateTypeScript c reg) = some result)
    {s : StructDef} (hs : s ∈ reg.structs) : ∃ tree z, reg.link s.name = some tree ∧
      Linking.Language.env result s.name = some (.schema z) ∧ ∀ j, z (some j) = Zod.accepts tree j := by
  obtain ⟨trees, properties, hlink, hvalue, hproperties⟩ := struct_loaded hbuilt hpass hload s.name s hs rfl
  exact ⟨_, _, hlink, hvalue, fun j => strictObject_spec hproperties s.name (some j)⟩

end

theorem load_iff_twoStructs : (Module.load (generateTypeScript .ascii Ir.twoStructs)).isSome = true := by
  rw [load_iff (by decide)]
  decide +kernel

end Protocol.ZodModule
