import FiveProtect.Protocol.Cpp
import FiveProtect.Protocol.LuaCheck
import FiveProtect.Protocol.Rust
import FiveProtect.Protocol.Zod

/-!
# Protocol: nothing undeclared

`Declared other type j`: every object in `j`, at any depth, stands where a struct is declared, has
only keys of its fields and all the required ones, and these are not `null`; `other` says which
objects may stand elsewhere.  serde also takes a struct from an array of its fields in order, so an
array in the place of a struct is read that way.  An array elsewhere has no objects in it.

* `Declared.intro`   from what a check says of one type at a time;
* `zod_declared`, `rust_declared`, `cpp_declared`, `lua_declared`   what each language accepts.
-/

namespace Protocol

mutual
def Declared (other : FieldType → List (String × Json) → Prop) : FieldType → Json → Prop
  | .struct _ fields, .obj members => (∀ m ∈ members, m.1 ∈ fields.map Prod.fst) ∧
      DeclaredFields other fields (.obj members)
  | .struct _ fields, .arr items => DeclaredItems other fields items
  | .array items _, .arr xs => ∀ x ∈ xs, Declared other items x
  | .optional inner, j => Declared other inner j
  | type, .obj members => other type members
  | _, j => j.objectFree = true
def DeclaredFields (other : FieldType → List (String × Json) → Prop) :
    List (String × FieldType) → Json → Prop
  | [], _ => True
  | (key, type) :: fields, j =>
    ((∀ v, j.get? key = some v → (v = .null → type.isOptional = true) ∧ Declared other type v) ∧
      (j.get? key = none → type.isOptional = true)) ∧ DeclaredFields other fields j
/-- the fields in order; those after the last item are missing -/
def DeclaredItems (other : FieldType → List (String × Json) → Prop) :
    List (String × FieldType) → List Json → Prop
  | [], items => items = []
  | (_, type) :: fields, [] => type.isOptional = true ∧ DeclaredItems other fields []
  | (_, type) :: fields, v :: items =>
    ((v = .null → type.isOptional = true) ∧ Declared other type v) ∧
      DeclaredItems other fields items
end

/-- no object stands elsewhere -/
def noOther (_ : FieldType) (members : List (String × Json)) : Prop := members = []

/-- serde's other spelling of an enumerator, `{"name": null}` -/
def enumerator (type : FieldType) (members : List (String × Json)) : Prop :=
  ∃ ref name, type = .enum ref ∧ name ∈ ref.values ∧ members = [(name, .null)]

section
variable {other : FieldType → List (String × Json) → Prop} {A : FieldType → Json → Prop}

/-- a field that is there: `null` only where it may be missing -/
def Present (A : FieldType → Json → Prop) (type : FieldType) (v : Json) : Prop :=
  v = .null ∧ type.isOptional = true ∨ v ≠ .null ∧ A type v

/-- the fields in order -/
def InOrder (A : FieldType → Json → Prop) : List (String × FieldType) → List Json → Prop
  | [], items => items = []
  | f :: fields, [] => f.2.isOptional = true ∧ InOrder A fields []
  | f :: fields, v :: items => Present A f.2 v ∧ InOrder A fields items

theorem declaredFields_iff (fields : List (String × FieldType)) (j : Json) :
    DeclaredFields other fields j ↔ ∀ f ∈ fields, HasField (fun t v =>
      (v = .null → t.isOptional = true) ∧ Declared other t v) j f := by
  induction fields with
  | nil => exact ⟨fun _ _ hf => absurd hf List.not_mem_nil, fun _ => trivial⟩
  | cons f fields ih =>
    rw [List.forall_mem_cons, ← ih, DeclaredFields]
    rfl

theorem declared_null (type : FieldType) : Declared other type .null := by
  induction type using FieldType.induct with
  | optional inner ih =>
    rw [Declared]
    exact ih
  | _ => rfl

/-- a value that is there, if `A` of its type makes it declared -/
theorem Present.declared {type : FieldType} {v : Json}
    (ih : ∀ j, A type j → Declared other type j) (h : Present A type v) :
    (v = .null → type.isOptional = true) ∧ Declared other type v := by
  rcases h with ⟨rfl, hoptional⟩ | ⟨hne, hA⟩
  · exact ⟨fun _ => hoptional, declared_null type⟩
  · exact ⟨fun hnull => absurd hnull hne, ih v hA⟩

theorem InOrder.declared {fields : List (String × FieldType)} {items : List Json}
    (ih : ∀ f ∈ fields, ∀ j, A f.2 j → Declared other f.2 j) (h : InOrder A fields items) :
    DeclaredItems other fields items := by
  induction fields generalizing items with
  | nil =>
    rw [DeclaredItems]
    exact h
  | cons f fields ihfields =>
    have ih' : ∀ x ∈ fields, ∀ j, A x.2 j → Declared other x.2 j := fun x hx =>
      ih x (List.mem_cons_of_mem f hx)
    cases items with
    | nil =>
      rw [DeclaredItems]
      exact ⟨h.1, ihfields ih' h.2⟩
    | cons v items =>
      rw [DeclaredItems]
      exact ⟨h.1.declared (ih f List.mem_cons_self), ihfields ih' h.2⟩

theorem Declared.intro
    (hscalar : ∀ type members, type.isScalar = true → A type (.obj members) → other type members)
    (hlist : ∀ type items, type.isScalar = true → ¬ A type (.arr items))
    (hstruct : ∀ name fields j, A (.struct name fields) j →
      (∃ members, j = .obj members ∧ (∀ m ∈ members, m.1 ∈ fields.map Prod.fst) ∧
        ∀ f ∈ fields, HasField (Present A) j f) ∨ ∃ items, j = .arr items ∧ InOrder A fields items)
    (harray : ∀ items maxItems j, A (.array items maxItems) j →
      (∃ xs, j = .arr xs ∧ ∀ x ∈ xs, x = .null ∨ A items x) ∨
        ∃ members, j = .obj members ∧ other (.array items maxItems) members)
    (hoptional : ∀ inner j, A (.optional inner) j → j = .null ∨ A inner j)
    {type : FieldType} {j : Json} (h : A type j) : Declared other type j := by
  have hscalar' : ∀ {type : FieldType} {j : Json}, type.isScalar = true → A type j →
      Declared other type j := by
    intro type j ht h
    cases j with
    | obj members =>
      have hother := hscalar type members ht h
      cases type with
      | struct name fields => cases ht
      | array items maxItems => cases ht
      | optional inner => cases ht
      | _ => exact hother
    | arr items => exact absurd h (hlist type items ht)
    | _ =>
      cases type with
      | struct name fields => cases ht
      | array items maxItems => cases ht
      | optional inner => cases ht
      | _ => rfl
  induction type using FieldType.induct generalizing j with
  | string f min max => exact hscalar' rfl h
  | int min max => exact hscalar' rfl h
  | bool => exact hscalar' rfl h
  | enum ref => exact hscalar' rfl h
  | struct name fields ih =>
    rcases hstruct name fields j h with ⟨members, rfl, hkeys, hfields⟩ | ⟨items, rfl, hitems⟩
    · rw [Declared, declaredFields_iff]
      refine ⟨hkeys, fun f hf => ⟨fun v hv => ?_, (hfields f hf).2⟩⟩
      exact ((hfields f hf).1 v hv).declared fun j => ih f hf
    · rw [Declared]
      exact hitems.declared fun f hf j => ih f hf
  | array items maxItems ih =>
    rcases harray items maxItems j h with ⟨xs, rfl, hitems⟩ | ⟨members, rfl, hother⟩
    · rw [Declared]
      intro x hx
      rcases hitems x hx with rfl | hx
      · exact declared_null items
      · exact ih hx
    · exact hother
  | optional inner ih =>
    rw [Declared]
    rcases hoptional inner j h with rfl | h
    · exact declared_null inner
    · exact ih h

end

/-! ## Zod -/

theorem zod_declared {type : FieldType} {j : Json} (h : Zod.accepts type j = true) :
    Declared noOther type j := by
  have hpresent : ∀ {t v}, Zod.accepts t v = true → Present (fun t v => Zod.accepts t v = true) t v := by
    intro t v hv
    refine Or.inr ⟨?_, hv⟩
    rintro rfl
    rw [Zod.accepts_null] at hv
    cases hv
  refine Declared.intro (A := fun t v => Zod.accepts t v = true) ?_ ?_ ?_ ?_ ?_ h
  · intro type members hscalar h
    cases type with
    | struct name fields => cases hscalar
    | array items maxItems => cases hscalar
    | optional inner => cases hscalar
    | _ => cases h
  · intro type items hscalar h
    cases type with
    | struct name fields => cases hscalar
    | array items maxItems => cases hscalar
    | optional inner => cases hscalar
    | _ => cases h
  · intro name fields j h
    obtain ⟨members, rfl, hkeys, hfields⟩ := Zod.accepts_struct h
    refine Or.inl ⟨members, rfl, hkeys, fun f hf => ?_⟩
    exact ⟨fun v hv => hpresent ((hfields f hf).1 v hv), (hfields f hf).2⟩
  · intro items maxItems j h
    obtain ⟨xs, rfl, _, hitems⟩ := Zod.accepts_array h
    exact Or.inl ⟨xs, rfl, fun x hx => Or.inr (hitems x hx)⟩
  · intro inner j h
    rw [Zod.accepts_optional] at h
    exact Or.inr h

/-! ## serde and `validate` -/

theorem rust_null {type : FieldType} (h : Rust.accepts type .null = true) :
    type.isOptional = true := by
  obtain ⟨value, hvalue, _⟩ := Rust.accepts_iff.mp h
  cases type with
  | optional inner => rfl
  | _ => cases hvalue

theorem rust_present {type : FieldType} {v : Json} (h : Rust.accepts type v = true) :
    Present (fun t v => Rust.accepts t v = true) type v := by
  by_cases hnull : v = .null
  · rw [hnull] at h
    exact Or.inl ⟨hnull, rust_null h⟩
  · exact Or.inr ⟨hnull, h⟩

/-- a struct from an array of its fields -/
theorem rust_inOrder {name : String} {fields : List (String × FieldType)} {items : List Json}
    {values : TypedFields String fields} (h : Rust.decodeSeq fields items = some values)
    (hok : Rust.validateFields name fields values = .ok ()) :
    InOrder (fun t v => Rust.accepts t v = true) fields items := by
  induction fields generalizing items with
  | nil =>
    cases items with
    | nil => rfl
    | cons v items => cases h
  | cons f fields ih =>
    obtain ⟨key, type⟩ := f
    cases items with
    | nil =>
      obtain ⟨value, hvalue, h⟩ := Option.bind_eq_some_iff.mp h
      obtain ⟨rest, hrest, h⟩ := Option.bind_eq_some_iff.mp h
      cases h
      rw [Rust.validateFields, Check.bind_ok] at hok
      refine ⟨Rust.missing_iff.mp ⟨value, hvalue, Rust.validate_path hok.1⟩, ih hrest hok.2⟩
    | cons v items =>
      obtain ⟨value, hvalue, h⟩ := Option.bind_eq_some_iff.mp h
      obtain ⟨rest, hrest, h⟩ := Option.bind_eq_some_iff.mp h
      cases h
      rw [Rust.validateFields, Check.bind_ok] at hok
      have hv : Rust.accepts type v = true :=
        Rust.accepts_iff.mpr ⟨value, hvalue, Rust.validate_path hok.1⟩
      exact ⟨rust_present hv, ih hrest hok.2⟩

theorem rust_declared {type : FieldType} {j : Json} (h : Rust.accepts type j = true) :
    Declared enumerator type j := by
  refine Declared.intro (A := fun t v => Rust.accepts t v = true) ?_ ?_ ?_ ?_ ?_ h
  · intro type members hscalar h
    obtain ⟨value, hvalue, _⟩ := Rust.accepts_iff.mp h
    cases type with
    | enum ref =>
      rcases members with _ | ⟨⟨name, v⟩, _ | ⟨m, rest⟩⟩
      · cases hvalue
      · cases v with
        | null =>
          refine ⟨ref, name, rfl, ?_, rfl⟩
          by_contra hname
          have hnone : Rust.decode (.enum ref) (.obj [(name, .null)]) = none := dif_neg hname
          rw [hnone] at hvalue
          cases hvalue
        | _ => cases hvalue
      · cases v <;> cases hvalue
    | struct name fields => cases hscalar
    | array items maxItems => cases hscalar
    | optional inner => cases hscalar
    | _ => cases hvalue
  · intro type items hscalar h
    obtain ⟨value, hvalue, _⟩ := Rust.accepts_iff.mp h
    cases type with
    | struct name fields => cases hscalar
    | array items maxItems => cases hscalar
    | optional inner => cases hscalar
    | _ => cases hvalue
  · intro name fields j h
    cases j with
    | obj members =>
      obtain ⟨hkeys, hfields⟩ := Rust.accepts_struct.mp h
      refine Or.inl ⟨members, rfl, hkeys, fun f hf => ?_⟩
      exact ⟨fun v hv => rust_present ((hfields f hf).1 v hv), (hfields f hf).2⟩
    | arr items =>
      obtain ⟨values, hvalues, hok⟩ := Rust.accepts_iff.mp h
      exact Or.inr ⟨items, rfl, rust_inOrder hvalues (hok "")⟩
    | _ =>
      obtain ⟨values, hvalues, _⟩ := Rust.accepts_iff.mp h
      cases hvalues
  · intro items maxItems j h
    cases j with
    | arr xs =>
      have hitems := (Rust.accepts_array.mp h).2
      exact Or.inl ⟨xs, rfl, fun x hx => Or.inr (hitems x hx)⟩
    | _ =>
      obtain ⟨values, hvalues, _⟩ := Rust.accepts_iff.mp h
      cases hvalues
  · intro inner j h
    exact Rust.accepts_optional.mp h

/-! ## C++ -/

/-- parsed and taken -/
def CppTaken (type : FieldType) (j : Json) : Prop :=
  j.valid = true ∧ ∃ depth v path, Cpp.Value.ofJson depth j = some v ∧
    (Cpp.fromJson type v path).isOk = true

theorem cpp_struct_taken {name : String} {fields : List (String × FieldType)} {j : Json}
    (h : CppTaken (.struct name fields) j) : ∃ members, j = .obj members ∧
      (∀ m ∈ members, m.1 ∈ fields.map Prod.fst) ∧
        ∀ f ∈ fields, HasField (Present CppTaken) j f := by
  obtain ⟨hvalid, depth, v, path, hv, hok⟩ := h
  cases v with
  | object vs =>
    obtain ⟨members, rfl, hvs⟩ := (Cpp.Value.ofJson_kind hv).2.2 vs rfl
    rw [Json.valid, Bool.and_eq_true, decide_eq_true_eq, Json.validMembers_iff] at hvalid
    rw [Cpp.struct_ok, Cpp.members_ok] at hok
    have hparsed := Cpp.Value.ofMembers_parsed hvs
    have hfind : ∀ {key v w}, Json.get? key (.obj members) = some v →
        Cpp.Value.ofJson (depth + 1) v = some w →
        (Cpp.Value.object vs).find (Text.utf8 key) = some w := by
      intro key v w hget hw
      rw [Cpp.Value.find, Cpp.Value.find_ofMembers hvs hvalid.1, hget, Option.elim_some, hw]
    refine ⟨members, rfl, fun m hm => ?_, fun f hf => ?_⟩
    · -- the member is in the map under its key, so the key is a known one
      obtain ⟨w, hw⟩ := hparsed m hm
      obtain ⟨x, hx, hxkey⟩ := Cpp.Value.mem_of_lookup (hfind (Json.get?_of_mem hvalid.1 hm) hw)
      obtain ⟨f, hf, hkey⟩ := hok.1 x hx
      rw [hxkey] at hkey
      rw [Text.utf8_injective hkey]
      exact List.mem_map_of_mem hf
    · have hread := Cpp.readField_ok.mp (hok.2 f hf)
      constructor
      · intro v hget
        have hmem := Json.mem_of_get? hget
        obtain ⟨w, hw⟩ := hparsed _ hmem
        have hnull := (Cpp.Value.ofJson_kind hw).1
        rcases hread.1 w (hfind hget hw) with ⟨hwnull, hoptional⟩ | ⟨hwnull, hwok⟩
        · exact Or.inl ⟨hnull.mp hwnull, hoptional⟩
        · refine Or.inr ⟨fun hv => ?_, hvalid.2 _ hmem, depth + 1, w, _, hw, hwok⟩
          rw [hnull.mpr hv] at hwnull
          cases hwnull
      · intro hget
        refine hread.2 ?_
        rw [Cpp.Value.find, Cpp.Value.find_ofMembers hvs hvalid.1, hget]
        rfl
  | _ => exact absurd hok (by simp [Cpp.fromJson.eq_def, Cpp.setError, Except.isOk, Except.toBool])

theorem cpp_array_taken {items : FieldType} {maxItems : Option Nat} {j : Json}
    (h : CppTaken (.array items maxItems) j) : ∃ xs, j = .arr xs ∧
      (∀ n, maxItems = some n → xs.length ≤ n) ∧ ∀ x ∈ xs, CppTaken items x := by
  obtain ⟨hvalid, depth, v, path, hv, hok⟩ := h
  cases v with
  | array elements =>
    obtain ⟨xs, rfl, hxs⟩ := (Cpp.Value.ofJson_kind hv).2.1 elements rfl
    rw [Json.valid, Json.validItems_iff] at hvalid
    rw [Cpp.array_ok, Check.mapM_length hxs] at hok
    refine ⟨xs, rfl, hok.1, fun x hx => ?_⟩
    obtain ⟨w, hw, hwok⟩ := Check.mapM_some.mp ⟨elements, hxs, hok.2⟩ x hx
    exact ⟨hvalid x hx, depth + 1, w, _, hw, hwok⟩
  | _ => exact absurd hok (by simp [Cpp.fromJson.eq_def, Cpp.setError, Except.isOk, Except.toBool])

/-- a scalar is read neither from an array nor from an object -/
theorem cpp_scalar_taken {type : FieldType} {j : Json} (hscalar : type.isScalar = true)
    (h : CppTaken type j) : (∀ items, j ≠ .arr items) ∧ ∀ members, j ≠ .obj members := by
  obtain ⟨_, depth, v, path, hv, hok⟩ := h
  have hdepth := Cpp.Value.ofJson_shallow hv
  have hleaf : (∀ vs, v ≠ .array vs) ∧ ∀ vs, v ≠ .object vs := by
    cases type with
    | struct name fields => cases hscalar
    | array items maxItems => cases hscalar
    | optional inner => cases hscalar
    | _ =>
      constructor
      · rintro vs rfl
        simp [Cpp.fromJson.eq_def, Cpp.setError, Cpp.Value.asInt, Except.isOk, Except.toBool] at hok
      · rintro vs rfl
        simp [Cpp.fromJson.eq_def, Cpp.setError, Cpp.Value.asInt, Except.isOk, Except.toBool] at hok
  constructor
  · rintro items rfl
    rw [Cpp.Value.ofJson_arr hdepth] at hv
    obtain ⟨vs, _, rfl⟩ := Option.map_eq_some_iff.mp hv
    exact hleaf.1 vs rfl
  · rintro members rfl
    rw [Cpp.Value.ofJson_obj hdepth] at hv
    obtain ⟨vs, _, rfl⟩ := Option.map_eq_some_iff.mp hv
    exact hleaf.2 vs rfl

theorem cpp_declared {type : FieldType} {j : Json} (hvalid : j.valid = true)
    (h : Cpp.accepts type j = true) : Declared noOther type j := by
  obtain ⟨v, hv, hok⟩ := (Option.any_eq_true _ _).mp h
  refine Declared.intro (A := CppTaken) ?_ ?_ ?_ ?_ ?_ ⟨hvalid, 0, v, "", hv, hok⟩
  · intro type members hscalar h
    exact absurd rfl ((cpp_scalar_taken hscalar h).2 members)
  · intro type items hscalar h
    exact absurd rfl ((cpp_scalar_taken hscalar h).1 items)
  · intro name fields j h
    exact Or.inl (cpp_struct_taken h)
  · intro items maxItems j h
    obtain ⟨xs, rfl, _, hxs⟩ := cpp_array_taken h
    exact Or.inl ⟨xs, rfl, fun x hx => Or.inr (hxs x hx)⟩
  · rintro inner j ⟨hvalid, depth, v, path, hv, hok⟩
    rw [Cpp.optional_ok] at hok
    exact Or.inr ⟨hvalid, depth, v, path, hv, hok⟩

/-! ## Lua -/

/-- the check of a table, whatever it is called in the message -/
def LuaTaken (type : FieldType) (j : Json) : Prop :=
  j.nullFree = true ∧ ∃ path, Lua.check type (LuaValue.ofJson j) path = .ok ()

theorem lua_struct_taken {name : String} {fields : List (String × FieldType)}
    {members : List (String × Json)} (h : LuaTaken (.struct name fields) (.obj members)) :
    (∀ m ∈ members, m.1 ∈ fields.map Prod.fst) ∧
      ∀ f ∈ fields, HasField (Present LuaTaken) (.obj members) f := by
  obtain ⟨hnull, path, hcheck⟩ := h
  rw [Json.nullFree, Json.nullFreeMembers_iff] at hnull
  have hkeys : ∀ m ∈ members, m.1 ∈ fields.map Prod.fst := by
    rw [LuaValue.ofJson, Lua.check] at hcheck
    intro m hm
    have hpair : (LuaKey.str m.1, LuaValue.ofJson m.2) ∈ LuaValue.ofMembers members := by
      rw [LuaValue.ofMembers_eq]
      exact List.mem_map_of_mem hm
    have hkey := Lua.checkNoExtraKeys_iff.mp (Check.bind_ok.mp hcheck).1 _ hpair
    obtain ⟨k, hk, hkm⟩ := List.mem_map.mp hkey
    cases hkm
    exact hk
  rw [Lua.check_struct hkeys, Lua.checkFields_ok] at hcheck
  refine ⟨hkeys, fun f hf => ⟨fun v hv => ?_, (hcheck f hf).2⟩⟩
  have hvnull := hnull _ (Json.mem_of_get? hv)
  rcases (hcheck f hf).1 v hv with ⟨rfl, _⟩ | ⟨hne, hv⟩
  · cases hvnull
  · exact Or.inr ⟨hne, hvnull, _, hv⟩

theorem inOrder_nil {A : FieldType → Json → Prop} {fields : List (String × FieldType)}
    (h : ∀ f ∈ fields, f.2.isOptional = true) : InOrder A fields [] := by
  induction fields with
  | nil => rfl
  | cons f fields ih =>
    exact ⟨h f List.mem_cons_self, ih fun x hx => h x (List.mem_cons_of_mem f hx)⟩

/-- an empty array is an empty table, which is a struct without required fields -/
theorem lua_struct_array {name : String} {fields : List (String × FieldType)} {xs : List Json}
    (h : LuaTaken (.struct name fields) (.arr xs)) :
    xs = [] ∧ ∀ f ∈ fields, f.2.isOptional = true := by
  obtain ⟨_, path, hcheck⟩ := h
  cases xs with
  | nil =>
    have hobj : LuaTaken (.struct name fields) (.obj []) := ⟨rfl, path, hcheck⟩
    exact ⟨rfl, fun f hf => ((lua_struct_taken hobj).2 f hf).2 rfl⟩
  | cons x xs =>
    rw [LuaValue.ofJson, Lua.check] at hcheck
    have hkey := Lua.checkNoExtraKeys_iff.mp (Check.bind_ok.mp hcheck).1 (.num 1, LuaValue.ofJson x)
      List.mem_cons_self
    obtain ⟨k, _, hk⟩ := List.mem_map.mp hkey
    cases hk

theorem lua_scalar_table {type : FieldType} {pairs : List (LuaKey × LuaValue)} {border : Nat}
    {path : Bytes} (hscalar : type.isScalar = true) :
    Lua.check type (.table pairs border) path ≠ .ok () := by
  intro hcheck
  cases type with
  | struct name fields => cases hscalar
  | array items maxItems => cases hscalar
  | optional inner => cases hscalar
  | _ =>
    rw [Lua.check] at hcheck
    cases hcheck

theorem lua_declared {type : FieldType} {j : Json} (hnull : j.nullFree = true)
    (h : Lua.accepts type j = true) : Declared noOther type j := by
  obtain ⟨⟨⟩, hok⟩ := Check.isOk_iff.mp h
  refine Declared.intro (A := LuaTaken) ?_ ?_ ?_ ?_ ?_ ⟨hnull, _, hok⟩
  · rintro type members hscalar ⟨_, path, hcheck⟩
    rw [LuaValue.ofJson] at hcheck
    exact absurd hcheck (lua_scalar_table hscalar)
  · rintro type items hscalar ⟨_, path, hcheck⟩
    rw [LuaValue.ofJson] at hcheck
    exact absurd hcheck (lua_scalar_table hscalar)
  · intro name fields j h
    cases j with
    | obj members => exact Or.inl ⟨members, rfl, lua_struct_taken h⟩
    | arr xs =>
      obtain ⟨rfl, hoptional⟩ := lua_struct_array h
      exact Or.inr ⟨[], rfl, inOrder_nil hoptional⟩
    | _ =>
      obtain ⟨_, path, hcheck⟩ := h
      cases hcheck
  · rintro items maxItems j ⟨hnull, path, hcheck⟩
    rw [Lua.check] at hcheck
    cases j with
    | arr xs =>
      rw [Json.nullFree, Json.nullFreeItems_iff] at hnull
      have heach := Lua.checkArray_each hcheck
      exact Or.inl ⟨xs, rfl, fun x hx => Or.inr ⟨hnull x hx, heach x hx⟩⟩
    | obj members =>
      rw [LuaValue.ofJson] at hcheck
      have hkeys := Lua.checkArray_keys hcheck
      refine Or.inr ⟨members, rfl, ?_⟩
      cases members with
      | nil => rfl
      | cons m members =>
        have hkey := hkeys (.str m.1, LuaValue.ofJson m.2) List.mem_cons_self
        cases hkey
    | _ => cases hcheck
  · rintro inner j ⟨hnull, path, hcheck⟩
    rw [Lua.check] at hcheck
    exact Or.inr ⟨hnull, path, hcheck⟩

/-! ## the registry -/

/-- **Nothing undeclared.** A Lua table has no members that are `null`. -/
theorem undeclared_refused : ∀ type ∈ Schema.registry, ∀ j : Json, j.valid = true →
    (Zod.accepts type j = true → Declared noOther type j) ∧
    (Rust.accepts type j = true → Declared enumerator type j) ∧
    (Cpp.accepts type j = true → Declared noOther type j) ∧
    (j.dropNulls.nullFree = true → Lua.accepts type j.dropNulls = true →
      Declared noOther type j.dropNulls) := by
  intro type _ j hvalid
  exact ⟨zod_declared, rust_declared, cpp_declared hvalid, lua_declared⟩

/-- features of a machine, the first of them as an object -/
def boxedFeature : Json := .obj [
  ("secureBoot", .obj [("enabled", .null)]),
  ("hvci", .str "enabled"),
  ("testSigning", .str "disabled"),
  ("kernelDebugging", .str "disabled"),
  ("driverBlocklist", .str "enabled"),
  ("iommu", .str "enabled"),
  ("virtualizationBasedSecurity", .str "enabled")]

/-- an answer with a judgement that is `null` -/
def nullJudgement : Json := .obj [
  ("acknowledged", .bool true),
  ("clean", .null),
  ("nextIntervalSeconds", .num (.int 60)),
  ("terminate", .bool false)]

theorem undeclared_refused_boxed :
    Schema.SecurityFeatures ∈ Schema.registry ∧ boxedFeature.valid = true ∧
    (Zod.accepts Schema.SecurityFeatures boxedFeature = true →
      Declared noOther Schema.SecurityFeatures boxedFeature) ∧
    (Rust.accepts Schema.SecurityFeatures boxedFeature = true →
      Declared enumerator Schema.SecurityFeatures boxedFeature) ∧
    (Cpp.accepts Schema.SecurityFeatures boxedFeature = true →
      Declared noOther Schema.SecurityFeatures boxedFeature) ∧
    (boxedFeature.dropNulls.nullFree = true →
      Lua.accepts Schema.SecurityFeatures boxedFeature.dropNulls = true →
      Declared noOther Schema.SecurityFeatures boxedFeature.dropNulls) := by
  have hmem : Schema.SecurityFeatures ∈ Schema.registry := by simp [Schema.registry]
  have hvalid : boxedFeature.valid = true := by decide +kernel
  exact ⟨hmem, hvalid, undeclared_refused _ hmem _ hvalid⟩

/-- serde takes an enumerator from an object, and Lua does not see a member that is `null` -/
theorem undeclared_accepted :
    (boxedFeature.valid = true ∧ Rust.accepts Schema.SecurityFeatures boxedFeature = true ∧
      ¬ Declared noOther Schema.SecurityFeatures boxedFeature) ∧
    nullJudgement.valid = true ∧
      Lua.accepts Schema.HeartbeatResponse nullJudgement.dropNulls = true ∧
      ¬ Declared noOther Schema.HeartbeatResponse nullJudgement := by
  refine ⟨⟨by decide +kernel, by decide +kernel, ?_⟩, by decide +kernel, by decide +kernel, ?_⟩
  · intro h
    unfold Schema.SecurityFeatures boxedFeature at h
    rw [Declared, declaredFields_iff] at h
    have hfirst := (h.2 _ List.mem_cons_self).1 (.obj [("enabled", .null)]) rfl
    exact absurd hfirst.2 (by simp [enumRef, Declared, noOther])
  · intro h
    unfold Schema.HeartbeatResponse nullJudgement at h
    rw [Declared] at h
    have hclean := h.1 ("clean", .null) (by simp)
    exact absurd hclean (by simp)

end Protocol
