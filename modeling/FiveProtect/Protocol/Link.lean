import FiveProtect.Lib.Linking
import FiveProtect.Protocol.Registry

/-!
# Protocol: from names to trees

The checks and parsers of the generated code recurse on trees (`Schema.lean`), the registry refers to enums and
structs by name (`Registry.lean`).  `Registry.link` follows the names.

* `resolve`             the tree of a type, given those of the structs it names;
* `link_spec`           every struct of a registry that passes has a tree, and its fields are the declared ones.
-/

namespace Protocol.Ir

/-- `isOptional` of `emit.ts` -/
def FieldType.isOptional : FieldType → Bool
  | .optional _ => true
  | _ => false

/-- one layer of `optional` less -/
def unwrapOptional : FieldType → FieldType
  | .optional inner => inner
  | type => type

/-! ## linking -/

def findEnum (enums : List EnumDef) (ref : String) : Option EnumDef := enums.find? fun e => e.name = ref

/-- the tree of a type, with the trees of the structs -/
def resolve (enums : List EnumDef) (env : String → Option Protocol.FieldType) :
    FieldType → Option Protocol.FieldType
  | .string format minLength maxLength => some (.string format minLength maxLength)
  | .int min max => some (.int min max)
  | .bool => some .bool
  | .enum ref => (findEnum enums ref).map .enum
  | .struct ref => env ref
  | .array items maxItems => (resolve enums env items).map fun items => .array items maxItems
  | .optional inner => (resolve enums env inner).map .optional

def resolveFields (enums : List EnumDef) (env : String → Option Protocol.FieldType) (fields : List FieldDef) :
    Option (List (String × Protocol.FieldType)) :=
  fields.mapM fun f => (resolve enums env f.type).map fun type => (f.name, type)

def StructDef.resolve (enums : List EnumDef) (env : String → Option Protocol.FieldType) (s : StructDef) :
    Option Protocol.FieldType :=
  (resolveFields enums env s.fields).map fun fields => .struct s.name fields

/-- a field of the struct names another struct -/
def StructDef.Refers (s : StructDef) (used : String) : Prop :=
  ∃ f ∈ s.fields, Within (.struct used) f.type

theorem findEnum_of_mem {enums : List EnumDef} (hdistinct : (enums.map (·.name)).Nodup) {e : EnumDef}
    (he : e ∈ enums) : findEnum enums e.name = some e := by
  induction enums with
  | nil => exact absurd he List.not_mem_nil
  | cons first enums ih =>
    rw [List.map_cons, List.nodup_cons] at hdistinct
    rw [findEnum, List.find?_cons]
    rcases List.mem_cons.mp he with rfl | he
    · rw [decide_eq_true rfl]
    · have hne : first.name ≠ e.name := fun heq => hdistinct.1 (heq ▸ List.mem_map_of_mem he)
      rw [decide_eq_false hne]
      exact ih hdistinct.2 he

section
variable {enums : List EnumDef} {env env' : String → Option Protocol.FieldType}

theorem resolve_congr {type : FieldType} (h : ∀ used, Within (.struct used) type → env used = env' used) :
    resolve enums env type = resolve enums env' type := by
  induction type with
  | struct ref => exact h ref .here
  | array items maxItems ih =>
    show Option.map _ _ = Option.map _ _
    rw [ih fun used hused => h used (.items hused)]
  | optional inner ih =>
    show Option.map _ _ = Option.map _ _
    rw [ih fun used hused => h used (.inner hused)]
  | _ => rfl

theorem resolveFields_congr {fields : List FieldDef}
    (h : ∀ used, (∃ f ∈ fields, Within (.struct used) f.type) → env used = env' used) :
    resolveFields enums env fields = resolveFields enums env' fields := by
  apply Check.mapM_congr
  intro f hf
  rw [resolve_congr fun used hused => h used ⟨f, hf, hused⟩]

theorem findEnum_isSome {ref : String} : (findEnum enums ref).isSome = true ↔ ref ∈ enums.map (·.name) := by
  rw [findEnum, List.find?_isSome]
  simp only [decide_eq_true_eq, List.mem_map]

theorem within_array {leaf items : FieldType} {maxItems : Option Nat} (hleaf : leaf ≠ .array items maxItems) :
    Within leaf (.array items maxItems) ↔ Within leaf items := by
  refine ⟨fun h => ?_, .items⟩
  cases h with
  | here => exact absurd rfl hleaf
  | items h => exact h

theorem within_optional {leaf inner : FieldType} (hleaf : leaf ≠ .optional inner) :
    Within leaf (.optional inner) ↔ Within leaf inner := by
  refine ⟨fun h => ?_, .inner⟩
  cases h with
  | here => exact absurd rfl hleaf
  | inner h => exact h

/-- a type has a tree if its enums are declared and its structs have trees -/
theorem resolve_isSome {type : FieldType} : (resolve enums env type).isSome = true ↔
    (∀ ref, Within (.enum ref) type → ref ∈ enums.map (·.name)) ∧
      ∀ used, Within (.struct used) type → (env used).isSome = true := by
  induction type with
  | enum ref =>
    rw [resolve, Option.isSome_map, findEnum_isSome]
    constructor
    · intro h
      refine ⟨fun r hr => ?_, fun r hr => ?_⟩
      · cases within_leaf (by simp) (by simp) hr
        exact h
      · cases within_leaf (by simp) (by simp) hr
    · exact fun h => h.1 ref .here
  | struct ref =>
    rw [resolve]
    constructor
    · intro h
      refine ⟨fun r hr => ?_, fun r hr => ?_⟩
      · cases within_leaf (by simp) (by simp) hr
      · cases within_leaf (by simp) (by simp) hr
        exact h
    · exact fun h => h.2 ref .here
  | array items maxItems ih =>
    rw [resolve, Option.isSome_map, ih]
    simp only [within_array, ne_eq, reduceCtorEq, not_false_eq_true]
  | optional inner ih =>
    rw [resolve, Option.isSome_map, ih]
    simp only [within_optional, ne_eq, reduceCtorEq, not_false_eq_true]
  | _ =>
    refine ⟨fun _ => ⟨fun r hr => ?_, fun r hr => ?_⟩, fun _ => rfl⟩
    · cases within_leaf (by simp) (by simp) hr
    · cases within_leaf (by simp) (by simp) hr

/-- a field stays optional, if no struct is -/
theorem resolve_isOptional (henv : ∀ ref tree, env ref = some tree → tree.isOptional = false) {type : FieldType}
    {tree : Protocol.FieldType} (h : resolve enums env type = some tree) : tree.isOptional = type.isOptional := by
  cases type with
  | struct ref => exact henv ref tree h
  | enum ref =>
    obtain ⟨defn, _, rfl⟩ := Option.map_eq_some_iff.mp h
    rfl
  | array items maxItems =>
    obtain ⟨itemTree, _, rfl⟩ := Option.map_eq_some_iff.mp h
    rfl
  | optional inner =>
    obtain ⟨innerTree, _, rfl⟩ := Option.map_eq_some_iff.mp h
    rfl
  | _ =>
    cases h
    rfl

theorem resolveFields_isSome {fields : List FieldDef} : (resolveFields enums env fields).isSome = true ↔
    ∀ f ∈ fields, (resolve enums env f.type).isSome = true := by
  rw [resolveFields, Check.mapM_isSome]
  exact forall₂_congr fun f _ => by rw [Option.isSome_map]

/-- the fields of a tree are those of the struct, in their order -/
theorem resolveFields_eq {fields : List FieldDef} {trees : List (String × Protocol.FieldType)} :
    resolveFields enums env fields = some trees ↔
      List.Forall₂ (fun f tree => tree.1 = f.name ∧ resolve enums env f.type = some tree.2) fields trees := by
  induction fields generalizing trees with
  | nil =>
    constructor
    · intro h
      cases h
      exact .nil
    · intro h
      cases h
      rfl
  | cons f fields ih =>
    unfold resolveFields at ih ⊢
    rw [List.mapM_cons]
    constructor
    · intro h
      obtain ⟨tree, htree, h⟩ := Option.bind_eq_some_iff.mp h
      obtain ⟨rest, hrest, h⟩ := Option.bind_eq_some_iff.mp h
      cases h
      obtain ⟨type, htype, htree⟩ := Option.map_eq_some_iff.mp htree
      cases htree
      exact .cons ⟨rfl, htype⟩ (ih.mp hrest)
    · intro h
      cases h with
      | @cons _ tree _ rest hd hrest =>
        obtain ⟨name, type⟩ := tree
        obtain ⟨hname, htype⟩ := hd
        rw [htype, ih.mpr hrest, ← hname]
        rfl

theorem resolveFields_names {fields : List FieldDef} {trees : List (String × Protocol.FieldType)}
    (h : resolveFields enums env fields = some trees) : trees.map Prod.fst = fields.map (·.name) := by
  induction resolveFields_eq.mp h with
  | nil => rfl
  | cons hd hrest ih => rw [List.map_cons, List.map_cons, hd.1, ih (resolveFields_eq.mpr hrest)]

end

/-! ## the registry -/

/-- structs as declarations that mean trees -/
def trees (enums : List EnumDef) : Linking.Language StructDef (Option Protocol.FieldType) where
  refers := StructDef.Refers
  undefined := none
  meaning := fun env s => s.resolve enums env
  meaning_congr := by
    intro s env env' h
    show Option.map _ _ = Option.map _ _
    rw [resolveFields_congr h]

def Registry.program (reg : Registry) : Linking.Program StructDef := reg.structs.map fun s => (s.name, s)

/-- the tree of a struct -/
def Registry.link (reg : Registry) : String → Option Protocol.FieldType :=
  (trees reg.enums).call reg.program reg.structs.length

section
variable {reg : Registry}

theorem names_program : Linking.names reg.program = reg.structs.map (·.name) := by
  rw [Linking.names, Registry.program, List.map_map]
  rfl

theorem length_program : reg.program.length = reg.structs.length := List.length_map _

/-- a struct has a tree if its enums are declared and the structs it names have trees -/
theorem needs_of_fits {enums : List EnumDef} {s : StructDef} {seenStructs : List String}
    (h : s.Fits (enums.map (·.name)) seenStructs) : (trees enums).Needs s := by
  intro env
  show (s.resolve enums env).isSome = true ↔ _
  rw [StructDef.resolve, Option.isSome_map, resolveFields_isSome]
  constructor
  · rintro hsome used ⟨f, hf, hused⟩
    exact (resolve_isSome.mp (hsome f hf)).2 used hused
  · intro hsome f hf
    exact resolve_isSome.mpr ⟨(h.declared f hf).enums, fun used hused => hsome used ⟨f, hf, hused⟩⟩

theorem ordered_from {enums : List EnumDef} {structs : List StructDef} (seenStructs : List String)
    (h : ∀ before s behind, structs = before ++ s :: behind →
      s.Fits (enums.map (·.name)) (seenStructs ++ before.map (·.name))) :
    (trees enums).Ordered seenStructs (structs.map fun s => (s.name, s)) := by
  induction structs generalizing seenStructs with
  | nil => trivial
  | cons s structs ih =>
    refine ⟨?_, ih _ fun before x behind hsplit => ?_⟩
    · rintro used ⟨f, hf, hused⟩
      have hfits := h [] s structs rfl
      rw [List.map_nil, List.append_nil] at hfits
      exact (hfits.declared f hf).structs used hused
    · have hfits := h (s :: before) x behind (by rw [hsplit]; rfl)
      rwa [List.append_assoc]

theorem ordered_of_pass (hpass : validateRegistry reg = .ok ()) : reg.Ordered := by
  rwa [validateRegistry, validateStructs_ok] at hpass

/-- in a registry that passes, every struct refers to earlier ones -/
theorem Registry.Ordered.linking (h : reg.Ordered) : (trees reg.enums).Ordered [] reg.program :=
  ordered_from [] h

/-- **Linking.**  In a registry that passes, every struct has a tree: its fields are the declared ones, and the
structs in them have their own trees. -/
theorem link_spec (hdistinct : (reg.structs.map (·.name)).Nodup) (hpass : validateRegistry reg = .ok ())
    {s : StructDef} (hs : s ∈ reg.structs) : ∃ fields, reg.link s.name = some (.struct s.name fields) ∧
      List.Forall₂ (fun f tree => tree.1 = f.name ∧ resolve reg.enums reg.link f.type = some tree.2)
        s.fields fields := by
  have hordered := ordered_of_pass hpass
  have hnames : (Linking.names reg.program).Nodup := names_program ▸ hdistinct
  have hmem : (s.name, s) ∈ reg.program := List.mem_map_of_mem hs
  have hunfold : reg.link s.name = s.resolve reg.enums reg.link := by
    have hcall := hordered.linking.call_unfold hnames hmem
    rw [length_program] at hcall
    exact hcall
  -- in their order, the structs have their trees when they are needed
  have hneeds : ∀ d ∈ reg.program, (trees reg.enums).Needs d.2 := by
    intro d hd
    obtain ⟨x, hx, rfl⟩ := List.mem_map.mp hd
    obtain ⟨before, behind, hsplit⟩ := List.append_of_mem hx
    exact needs_of_fits (hordered before x behind hsplit)
  obtain ⟨loaded, hload⟩ := Option.isSome_iff_exists.mp
    ((Linking.Language.load_ordered hneeds []).mpr hordered.linking)
  have hmine : s.name ∈ Linking.names reg.program := List.mem_map_of_mem hmem
  have hlinked := Linking.Language.load_call hneeds rfl hnames hload (le_of_eq length_program) s.name hmine
  have hloaded : s.name ∈ Linking.names loaded := by
    rw [(Linking.Language.load_fixed hneeds (by exact hnames) hload).1]
    exact hmine
  obtain ⟨tree, htree⟩ := Option.isSome_iff_exists.mp (Linking.Language.env_isSome.mpr hloaded)
  have hlink : reg.link s.name = some tree := hlinked.symm.trans htree
  obtain ⟨fields, hfields, htree⟩ := Option.map_eq_some_iff.mp (hunfold.symm.trans hlink)
  exact ⟨fields, by rw [hlink, htree], resolveFields_eq.mp hfields⟩

end

end Protocol.Ir
