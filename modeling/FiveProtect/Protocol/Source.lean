import FiveProtect.Protocol.LuaModule
import FiveProtect.Protocol.ZodModule

/-!
# Protocol: the registry of this repository

`packages/protocol/src/schemas/*.ts`, as `loadRegistry` returns it, and the trees of `Schema.lean` that everything
else is stated on.

* `forget`           a tree with its enums and structs by name;
* `link_forget`      trees whose structs stand before them are what their declarations link to;
* `loadRegistry_ok`  the schema files make a registry that passes;
* `link_source`      and it links to the trees of `Schema.lean`;
* `validate_source`, `load_source`   so `protocol.lua` and `protocol.ts` check what the models of the resource and
                     of the backend take them to check.
-/

namespace Protocol.Ir

/-! ## forgetting -/

def forget : Protocol.FieldType → FieldType
  | .string format minLength maxLength => .string format minLength maxLength
  | .int min max => .int min max
  | .bool => .bool
  | .enum ref => .enum ref.name
  | .struct name _ => .struct name
  | .array items maxItems => .array (forget items) maxItems
  | .optional inner => .optional (forget inner)

/-- a struct of the schema, with its fields -/
abbrev Tree := String × List (String × Protocol.FieldType)

def declare (tree : Tree) : StructDef := ⟨tree.1, tree.2.map fun f => ⟨f.1, forget f.2⟩⟩

/-- the enums and structs a type holds are among those given -/
def Uses (enums : List EnumDef) (trees : List Tree) : Protocol.FieldType → Prop
  | .enum ref => ref ∈ enums
  | .struct name fields => (name, fields) ∈ trees
  | .array items _ => Uses enums trees items
  | .optional inner => Uses enums trees inner
  | _ => True

/-- each struct holds structs of `seen`, or structs before it -/
def Closed (enums : List EnumDef) (seen : List Tree) : List Tree → Prop
  | [] => True
  | tree :: rest => (∀ f ∈ tree.2, Uses enums seen f.2) ∧ Closed enums (seen ++ [tree]) rest

section
variable {enums : List EnumDef} {seen : List Tree}

theorem resolve_forget {env : String → Option Protocol.FieldType}
    (henums : ∀ e ∈ enums, findEnum enums e.name = some e)
    (henv : ∀ tree ∈ seen, env tree.1 = some (.struct tree.1 tree.2)) {type : Protocol.FieldType}
    (h : Uses enums seen type) : resolve enums env (forget type) = some type := by
  induction type using Protocol.FieldType.induct with
  | string format minLength maxLength => rfl
  | int min max => rfl
  | bool => rfl
  | enum ref =>
    rw [forget, resolve, henums ref h]
    rfl
  | struct name fields _ => exact henv (name, fields) h
  | array items maxItems ih =>
    rw [forget, resolve, ih h]
    rfl
  | optional inner ih =>
    rw [forget, resolve, ih h]
    rfl

theorem resolveFields_forget (env : String → Option Protocol.FieldType)
    (henums : ∀ e ∈ enums, findEnum enums e.name = some e)
    (henv : ∀ tree ∈ seen, env tree.1 = some (.struct tree.1 tree.2)) {fields : List (String × Protocol.FieldType)}
    (h : ∀ f ∈ fields, Uses enums seen f.2) :
    resolveFields enums env (fields.map fun f => ⟨f.1, forget f.2⟩) = some fields := by
  apply resolveFields_eq.mpr
  rw [List.forall₂_map_left_iff, List.forall₂_same]
  exact fun f hf => ⟨rfl, resolve_forget henums henv (h f hf)⟩

/-- the structs a declaration names stand among those it holds -/
theorem within_forget {type : Protocol.FieldType} (h : Uses enums seen type) {used : String}
    (hused : Within (.struct used) (forget type)) : used ∈ seen.map Prod.fst := by
  induction type using Protocol.FieldType.induct with
  | string format minLength maxLength => cases hused
  | int min max => cases hused
  | bool => cases hused
  | enum ref => cases hused
  | struct name fields _ =>
    cases hused
    exact List.mem_map_of_mem (f := Prod.fst) h
  | array items maxItems ih =>
    cases hused with
    | items hused => exact ih h hused
  | optional inner ih =>
    cases hused with
    | inner hused => exact ih h hused

theorem Uses.mono {more : List Tree} (hsub : ∀ tree ∈ seen, tree ∈ more) {type : Protocol.FieldType}
    (h : Uses enums seen type) : Uses enums more type := by
  induction type using Protocol.FieldType.induct with
  | struct name fields _ => exact hsub _ h
  | array items maxItems ih => exact ih h
  | optional inner ih => exact ih h
  | _ => exact h

/-- what a closed list of structs holds is in the list -/
theorem Closed.uses {list : List Tree} (h : Closed enums seen list) {tree : Tree} (hmem : tree ∈ list) :
    ∀ f ∈ tree.2, Uses enums (seen ++ list) f.2 := by
  induction list generalizing seen with
  | nil => exact absurd hmem List.not_mem_nil
  | cons first list ih =>
    intro f hf
    rcases List.mem_cons.mp hmem with rfl | hmem
    · exact (h.1 f hf).mono fun x hx => List.mem_append_left _ hx
    · have hrest := ih h.2 hmem f hf
      rwa [List.append_assoc] at hrest

theorem Closed.ordered {list : List Tree} (h : Closed enums seen list) :
    (trees enums).Ordered (seen.map Prod.fst) (list.map fun tree => (tree.1, declare tree)) := by
  induction list generalizing seen with
  | nil => trivial
  | cons tree list ih =>
    refine ⟨?_, ?_⟩
    · rintro used ⟨f, hf, hused⟩
      obtain ⟨g, hg, rfl⟩ := List.mem_map.mp hf
      exact within_forget (h.1 g hg) hused
    · have hrest := ih h.2
      rwa [List.map_append] at hrest

end

theorem lookup_declare (list : List Tree) (name : String) :
    (list.map fun tree => (tree.1, declare tree)).lookup name =
      (list.lookup name).map fun fields => declare (name, fields) := by
  induction list with
  | nil => rfl
  | cons tree list ih =>
    obtain ⟨first, fields⟩ := tree
    rw [List.map_cons, List.lookup_cons, List.lookup_cons, ih]
    by_cases heq : name = first
    · rw [heq, beq_self_eq_true]
      rfl
    · rw [beq_eq_false_iff_ne.mpr heq]

/-- **Declarations and trees.**  Structs that hold enums of the registry and structs before them are what their
declarations link to. -/
theorem link_forget {reg : Registry} {list : List Tree} (hstructs : reg.structs = list.map declare)
    (henums : (reg.enums.map (·.name)).Nodup) (hdistinct : (list.map Prod.fst).Nodup)
    (hclosed : Closed reg.enums [] list) {tree : Tree} (htree : tree ∈ list) :
    reg.link tree.1 = some (.struct tree.1 tree.2) := by
  have hprogram : reg.program = list.map fun tree => (tree.1, declare tree) := by
    rw [Registry.program, hstructs, List.map_map]
    rfl
  have hnames : Linking.names reg.program = list.map Prod.fst := by
    rw [hprogram, Linking.names, List.map_map]
    rfl
  have hfind : ∀ e ∈ reg.enums, findEnum reg.enums e.name = some e := fun e he => findEnum_of_mem henums he
  have hlookup : ∀ tree ∈ list, list.lookup tree.1 = some tree.2 := fun tree h =>
    Linking.Language.lookup_of_mem hdistinct h
  -- the trees are a meaning of the declarations
  have hfixed : ∀ name, (list.lookup name).map (Protocol.FieldType.struct name) =
      (trees reg.enums).unfold reg.program (fun name => (list.lookup name).map (.struct name)) name := by
    intro name
    unfold Linking.Language.unfold
    rw [hprogram, lookup_declare]
    cases hfields : list.lookup name with
    | none => rfl
    | some fields =>
      have hmem : (name, fields) ∈ list := Linking.Language.lookup_name hfields
      have hresolve := resolveFields_forget (fun name => (list.lookup name).map (.struct name)) hfind
        (fun tree h => by rw [hlookup tree h]; rfl) (hclosed.uses hmem)
      exact (congrArg (Option.map (Protocol.FieldType.struct name)) hresolve).symm
  have hordered : (trees reg.enums).Ordered [] reg.program := hprogram ▸ hclosed.ordered
  have hmine : tree.1 ∈ Linking.names reg.program := hnames ▸ List.mem_map_of_mem htree
  have hlt := List.idxOf_lt_length_of_mem hmine
  have hcall := Linking.Language.call_of_fixed (hordered.ranked (hnames ▸ hdistinct)) hfixed reg.structs.length
    tree.1 (by rwa [Linking.names, List.length_map, length_program] at hlt)
  rw [Registry.link, hcall, hlookup tree htree]
  rfl

/-! ## schemas/*.ts -/

def enumDef (α : Type) [WireEnum α] : EnumDef := ⟨WireEnum.name α, wireValues α⟩

def enums : List EnumDef := [
  enumDef PolicyTier,
  ⟨"FailMode", ["fail_open", "fail_closed"]⟩,
  enumDef FeatureState,
  enumDef SessionState,
  enumDef VerdictDecision,
  enumDef RequirementId,
  enumDef RequirementStatus,
  enumDef DenyReason]

def constants : List ConstantDef := [
  ⟨"PROTOCOL_VERSION", 1⟩,
  ⟨"NONCE_TTL_SECONDS", 30⟩,
  ⟨"HEARTBEAT_INTERVAL_SECONDS", 120⟩,
  ⟨"HEARTBEAT_GRACE_SECONDS", 90⟩,
  ⟨"VERDICT_POLL_TIMEOUT_SECONDS", 20⟩,
  ⟨"COMPANION_POLL_TIMEOUT_SECONDS", 25⟩,
  ⟨"LOCAL_PORT_RANGE_START", 52800⟩,
  ⟨"LOCAL_PORT_RANGE_END", 52899⟩]

/-- the trees of the structs, in the order of their declaration -/
def structs : List Tree := Schema.registry.filterMap fun
  | .struct name fields => some (name, fields)
  | _ => none

/-- the schema files, one definition after the other, and the check of the registry they make -/
def loadRegistry : Except String Registry := do
  let reg ← constants.foldlM (fun reg defn => defineConstant defn reg) ⟨[], [], []⟩
  let reg ← enums.foldlM (fun reg defn => defineEnum defn reg) reg
  let reg ← (structs.map declare).foldlM (fun reg defn => defineStruct defn reg) reg
  validateRegistry reg
  return reg

def source : Registry := ⟨enums, structs.map declare, constants⟩

deriving instance DecidableEq for EnumDef, FieldType, FieldDef, StructDef, ConstantDef, Registry

/-- what the schema files leave is built, and has passed -/
theorem loadRegistry_built {reg : Registry} (h : loadRegistry = .ok reg) :
    Built reg ∧ validateRegistry reg = .ok () := by
  obtain ⟨first, hfirst, h⟩ := Check.bind_eq_ok.mp h
  obtain ⟨second, hsecond, h⟩ := Check.bind_eq_ok.mp h
  obtain ⟨third, hthird, h⟩ := Check.bind_eq_ok.mp h
  obtain ⟨_, hpass, h⟩ := Check.bind_eq_ok.mp h
  cases h
  have hconstants := Check.foldlM_inv (fun _ _ _ => Built.constant) .empty hfirst
  have henums := Check.foldlM_inv (fun _ _ _ => Built.enum) hconstants hsecond
  exact ⟨Check.foldlM_inv (fun _ _ _ => Built.struct) henums hthird, hpass⟩

theorem loadRegistry_toOption : loadRegistry.toOption = some source := by decide +kernel

theorem loadRegistry_ok : loadRegistry = .ok source := by
  have h := loadRegistry_toOption
  cases hload : loadRegistry with
  | error message =>
    rw [hload] at h
    cases h
  | ok reg =>
    rw [hload] at h
    cases h
    rfl

/-- a struct of the schema keeps to the enums and to the structs before it -/
theorem closed_source : Closed enums [] structs := by
  simp [Closed, structs, Schema.registry, Schema.SecurityFeatures, Schema.TpmInfo, Schema.GameProcessEvidence,
    Schema.SystemSnapshot, Schema.AttestationQuote, Schema.PlayerIdentifiers, Schema.NonceRequest,
    Schema.NonceResponse, Schema.AttestationRequest, Schema.AttestationAck, Schema.RequirementResult,
    Schema.Verdict, Schema.LivenessResponse, Schema.LocalAttestCommand, Schema.LocalAttestAck,
    Schema.CompanionPollRequest, Schema.CompanionPollResponse, Schema.CompanionOutcomeRequest,
    Schema.HeartbeatRequest, Schema.HeartbeatResponse, Schema.ProtocolError, Uses, enumRef, text, formatted,
    hex64, atLeast, enums, enumDef]

theorem registry_eq : Schema.registry = structs.map fun tree => .struct tree.1 tree.2 := rfl

/-- the registry of the schema files links to the trees of the schema -/
theorem link_source {tree : Tree} (htree : tree ∈ structs) :
    source.link tree.1 = some (.struct tree.1 tree.2) := by
  have hdistinct := (loadRegistry_built loadRegistry_ok).1.distinct
  have hnames : source.structs.map (·.name) = structs.map Prod.fst := by
    rw [source, List.map_map]
    rfl
  exact link_forget rfl hdistinct.2 (hnames ▸ hdistinct.1) closed_source htree

theorem generateLua_source : (LuaModule.generateLua source).isOk = true := by decide +kernel

/-- **`protocol.lua`.**  The generator makes a module of the schema files, and its `M.validate` of each message,
whatever the value and the path, returns what the check of the message's schema says. -/
theorem validate_source : ∃ m, LuaModule.generateLua source = .ok m ∧
    ∀ name fields, Protocol.FieldType.struct name fields ∈ Schema.registry →
      ∀ n, Schema.registry.length ≤ n → ∀ value path, m.validate n name value path = some (LuaModule.returned
        (Lua.check (.struct name fields) value (path.getD (Text.utf8 name)))) := by
  obtain ⟨m, hm⟩ := Check.isOk_iff.mp generateLua_source
  obtain ⟨hbuilt, hpass⟩ := loadRegistry_built loadRegistry_ok
  refine ⟨m, hm, fun name fields hmessage n hn value path => ?_⟩
  rw [registry_eq] at hmessage hn
  obtain ⟨tree, htree, heq⟩ := List.mem_map.mp hmessage
  cases heq
  have hs : declare tree ∈ source.structs := List.mem_map_of_mem htree
  obtain ⟨type, hlink, hvalidate⟩ := LuaModule.validate_correct hbuilt hpass hm hs
  have htype : type = .struct tree.1 tree.2 := Option.some.inj (hlink.symm.trans (link_source htree))
  have hlength : source.structs.length = (structs.map fun tree =>
      Protocol.FieldType.struct tree.1 tree.2).length := by
    rw [source, List.length_map, List.length_map]
  rw [← htype]
  exact hvalidate n (hlength.trans_le hn) value path

/-- **`protocol.ts`.**  The module of the schema files loads, and the schema it exports for each message accepts
exactly what the message's schema says. -/
theorem load_source : ∃ result, ZodModule.Module.load (ZodModule.generateTypeScript .ascii source) = some result ∧
    ∀ name fields, Protocol.FieldType.struct name fields ∈ Schema.registry →
      ∃ z, Linking.Language.env result name = some (.schema z) ∧
        ∀ j, z (some j) = Zod.accepts (.struct name fields) j := by
  obtain ⟨hbuilt, hpass⟩ := loadRegistry_built loadRegistry_ok
  have hnodup : ("z" :: Linking.names (ZodModule.generateTypeScript .ascii source)).Nodup := by decide +kernel
  have hsome := ZodModule.load_of_nodup hpass hnodup
  obtain ⟨result, hload⟩ := Option.isSome_iff_exists.mp hsome
  refine ⟨result, hload, fun name fields hmessage => ?_⟩
  rw [registry_eq] at hmessage
  obtain ⟨tree, htree, heq⟩ := List.mem_map.mp hmessage
  cases heq
  obtain ⟨type, z, hlink, hvalue, haccepts⟩ := ZodModule.load_accepts hbuilt hpass hload
    (List.mem_map_of_mem (f := declare) htree)
  have htype : type = .struct tree.1 tree.2 := Option.some.inj (hlink.symm.trans (link_source htree))
  rw [← htype]
  exact ⟨z, hvalue, haccepts⟩

end Protocol.Ir
