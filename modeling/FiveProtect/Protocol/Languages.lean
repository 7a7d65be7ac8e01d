import FiveProtect.Protocol.Portable
import FiveProtect.Protocol.Reading
import FiveProtect.Protocol.Strict

/-!
# Protocol: three readings of the schema

The checks of Rust, C++ and Lua, each as a `Reading`, on values without `null`.

* `rust_takes`   serde and `validate`; a struct may also be an array of its fields;
* `lua_takes`    `M.validate` of the decoded table, if the type is `ordinary`: an empty table could be a
                 struct without required fields;
* `cpp_read`, `cpp_of_read`   `from_json` of the parsed text.
-/

namespace Protocol

/-! ## Rust -/

def rustInt : JsonNumber → Option Int
  | .int i => if isInt64 i then some i else none
  | _ => none

def rustReading : Reading :=
  ⟨fun f s => (Rust.format f).1 s, rustInt, true, false, fun _ => false⟩

theorem rust_missing {type : FieldType} {name key : String} {fields : List (String × FieldType)}
    {v : Option (Typed String type)} {rest : Option (TypedFields String fields)} :
    (∃ values : TypedFields String ((key, type) :: fields),
      (v.bind fun x => rest.bind fun rest => some (x, rest)) = some values ∧
      Rust.validateFields name ((key, type) :: fields) values = .ok ()) ↔
    (∃ x, v = some x ∧ ∀ path, Rust.validate type x path = .ok ()) ∧
      ∃ values, rest = some values ∧ Rust.validateFields name fields values = .ok () := by
  constructor
  · rintro ⟨values, hvalues, hok⟩
    obtain ⟨x, hx, hvalues⟩ := Option.bind_eq_some_iff.mp hvalues
    obtain ⟨rest', hrest, hvalues⟩ := Option.bind_eq_some_iff.mp hvalues
    cases hvalues
    rw [Rust.validateFields_cons] at hok
    exact ⟨⟨x, hx, Rust.validate_path hok.1⟩, rest', hrest, hok.2⟩
  · rintro ⟨⟨x, rfl, hok⟩, rest', rfl, hoks⟩
    exact ⟨(x, rest'), rfl, Rust.validateFields_cons.mpr ⟨hok _, hoks⟩⟩

/-- the fields of a struct from the items of an array -/
theorem rust_seq {fields : List (String × FieldType)} {items : List Json} (name : String) :
    (∃ values, Rust.decodeSeq fields items = some values ∧
      Rust.validateFields name fields values = .ok ()) ↔
    (items.length ≤ fields.length ∧ ∀ f ∈ fields.drop items.length, f.2.isOptional = true) ∧
      ∀ p ∈ fields.zip items, Rust.accepts p.1.2 p.2 = true := by
  induction fields generalizing items with
  | nil =>
    cases items with
    | nil => exact iff_of_true ⟨(), rfl, rfl⟩ (by simp)
    | cons v items => exact iff_of_false (by rintro ⟨_, h, _⟩; cases h) (by simp)
  | cons f fields ih =>
    obtain ⟨key, type⟩ := f
    cases items with
    | nil =>
      refine Iff.trans (rust_missing (v := Typed.missing String type)) ?_
      rw [Rust.missing_iff, ih]
      simp
    | cons v items =>
      refine Iff.trans (rust_missing (v := Rust.decode type v)) ?_
      rw [← Rust.accepts_iff, ih]
      simp only [List.length_cons, Nat.add_le_add_iff_right, List.drop_succ_cons, List.zip_cons_cons,
        List.forall_mem_cons]
      exact and_left_comm

/-- what is taken decodes -/
theorem rust_decodes {type : FieldType} {j : Json} (h : Rust.accepts type j = true) :
    ∃ value, Rust.decode type j = some value := by
  obtain ⟨value, hvalue, _⟩ := Rust.accepts_iff.mp h
  exact ⟨value, hvalue⟩

theorem rust_leaf {type : FieldType} (hscalar : type.isScalar = true) {j : Json}
    (hnull : j.nullFree = true) :
    Rust.accepts type j = true ↔ rustReading.leaf type j = true := by
  cases type with
  | string f min max =>
    cases j with
    | str s => rw [Rust.accepts_string, Reading.leaf_string, rustReading]
    | _ => exact iff_of_false (fun h => by cases h) fun h => by cases h
  | int min max =>
    cases j with
    | num n =>
      rw [Rust.accepts_int, Reading.leaf_int]
      simp only [Reading.inBounds_iff, rustReading]
      cases n with
      | int i =>
        rw [rustInt]
        by_cases hi : isInt64 i = true
        · simp [hi]
        · simp [hi]
      | _ => simp [rustInt]
    | _ => exact iff_of_false (fun h => by cases h) fun h => by cases h
  | bool =>
    cases j with
    | bool b => exact iff_of_true rfl rfl
    | _ => exact iff_of_false (fun h => by cases h) fun h => by cases h
  | enum ref =>
    cases j with
    | str s =>
      show _ ↔ ref.values.contains s = true
      rw [List.contains_iff_mem]
      constructor
      · intro h
        obtain ⟨value, hvalue⟩ := rust_decodes h
        by_contra hs
        have hnone : Rust.decode (.enum ref) (.str s) = none := dif_neg hs
        rw [hnone] at hvalue
        cases hvalue
      · exact Rust.accepts_enum
    | obj members =>
      -- the other spelling of an enumerator has a `null` in it
      refine iff_of_false (fun h => ?_) fun h => by cases h
      obtain ⟨value, hvalue⟩ := rust_decodes h
      rcases members with _ | ⟨⟨name, v⟩, _ | ⟨m, rest⟩⟩
      · cases hvalue
      · cases v with
        | null => cases hnull
        | _ => cases hvalue
      · cases v <;> cases hvalue
    | _ => exact iff_of_false (fun h => by cases h) fun h => by cases h
  | struct name fields => cases hscalar
  | array items maxItems => cases hscalar
  | optional inner => cases hscalar

theorem rust_takes {type : FieldType} {j : Json} (hnull : j.nullFree = true) :
    Rust.accepts type j = true ↔ rustReading.Takes type j := by
  induction type using FieldType.induct generalizing j with
  | struct name fields ih =>
    cases j with
    | obj members =>
      rw [Rust.accepts_struct, Reading.takes_obj]
      rw [Json.nullFree, Json.nullFreeMembers_iff] at hnull
      refine and_congr_right fun _ => forall₂_congr fun f hf => ?_
      exact hasField_congr fun v hv => ih f hf (hnull _ (Json.mem_of_get? hv))
    | arr items =>
      rw [Json.nullFree, Json.nullFreeItems_iff] at hnull
      have hvalidate : Rust.accepts (.struct name fields) (.arr items) = true ↔
          ∃ values, Rust.decodeSeq fields items = some values ∧
            Rust.validateFields name fields values = .ok () := by
        rw [Rust.accepts_iff]
        refine exists_congr fun values => and_congr_right fun _ => ?_
        exact ⟨fun h => h "", fun h _ => h⟩
      rw [hvalidate, rust_seq, Reading.takes_inOrder]
      refine and_congr (and_iff_right rfl).symm (forall₂_congr fun p hp => ?_)
      obtain ⟨hfield, hitem⟩ := List.of_mem_zip hp
      exact ih p.1 hfield (hnull p.2 hitem)
    | _ =>
      refine iff_of_false (fun h => ?_) (Reading.not_takes fun h => h)
      cases (rust_decodes h).choose_spec
  | array items maxItems ih =>
    cases j with
    | arr xs =>
      rw [Rust.accepts_array, Reading.takes_arr]
      rw [Json.nullFree, Json.nullFreeItems_iff] at hnull
      exact and_congr_right fun _ => forall₂_congr fun x hx => ih (hnull x hx)
    | obj members =>
      rw [Reading.takes_table]
      refine iff_of_false (fun h => ?_) fun h => by cases h.1
      cases (rust_decodes h).choose_spec
    | _ =>
      refine iff_of_false (fun h => ?_) (Reading.not_takes fun h => h)
      cases (rust_decodes h).choose_spec
  | optional inner ih =>
    rw [Rust.accepts_optional, Reading.takes_optional, ih hnull]
    refine or_iff_right fun hj => ?_
    rw [hj] at hnull
    cases hnull
  | string f min max => rw [rust_leaf rfl hnull, Reading.takes_scalar rfl]
  | int min max => rw [rust_leaf rfl hnull, Reading.takes_scalar rfl]
  | bool => rw [rust_leaf rfl hnull, Reading.takes_scalar rfl]
  | enum ref => rw [rust_leaf rfl hnull, Reading.takes_scalar rfl]

/-! ## Lua -/

mutual
/-- a struct has a required field, and an integer a lower bound that is not negative -/
def FieldType.ordinary : FieldType → Bool
  | .int min _ => min.any (0 ≤ ·)
  | .struct _ fields => (fields.any fun f => !f.2.isOptional) && ordinaryFields fields
  | .array items _ => items.ordinary
  | .optional inner => inner.ordinary
  | _ => true
def ordinaryFields : List (String × FieldType) → Bool
  | [] => true
  | (_, type) :: fields => type.ordinary && ordinaryFields fields
end

theorem ordinaryFields_iff {fields : List (String × FieldType)} :
    ordinaryFields fields = true ↔ ∀ f ∈ fields, f.2.ordinary = true := by
  induction fields with
  | nil => exact ⟨fun _ _ hf => absurd hf List.not_mem_nil, fun _ => rfl⟩
  | cons f fields ih => rw [ordinaryFields, Bool.and_eq_true, ih, List.forall_mem_cons]

theorem ordinary_struct {name : String} {fields : List (String × FieldType)}
    (h : (FieldType.struct name fields).ordinary = true) :
    (¬ ∀ f ∈ fields, f.2.isOptional = true) ∧ ∀ f ∈ fields, f.2.ordinary = true := by
  rw [FieldType.ordinary, Bool.and_eq_true, ordinaryFields_iff, List.any_eq_true] at h
  obtain ⟨⟨f, hf, hrequired⟩, hfields⟩ := h
  refine ⟨fun hall => ?_, hfields⟩
  rw [hall f hf] at hrequired
  cases hrequired

def luaReading : Reading :=
  ⟨fun f s => LuaPattern.test (Lua.luaPattern f).1 (Text.utf8 s), JsonNumber.toInt?, false, true,
    fun _ => true⟩

theorem lua_leaf {type : FieldType} (hscalar : type.isScalar = true) (j : Json) (path : Bytes) :
    Lua.check type (LuaValue.ofJson j) path = .ok () ↔ luaReading.leaf type j = true := by
  cases type with
  | string f min max =>
    have htext : ∀ s, Lua.check (.string f min max) (.string (Text.utf8 s)) path = .ok () ↔
        luaReading.leaf (.string f min max) (.str s) = true := by
      intro s
      rw [Lua.check, Reading.leaf_string]
      refine Lua.checkString_ok.trans ?_
      rw [and_assoc]
      refine and_congr_right fun _ => and_congr_right fun _ => ?_
      constructor
      · intro h g hg
        exact h _ (by rw [hg]; rfl)
      · intro h p hp
        obtain ⟨g, hg, rfl⟩ := Option.map_eq_some_iff.mp hp
        exact h g hg
    cases j with
    | str s => exact htext s
    | illFormed s high => exact (htext s).trans (Reading.leaf_half.trans (and_iff_right rfl)).symm
    | _ =>
      refine iff_of_false (fun h => ?_) fun h => by cases h
      rw [LuaValue.ofJson, Lua.check] at h
      cases h
  | int min max =>
    cases j with
    | num n =>
      rw [Lua.check, Reading.leaf_int]
      simp only [Reading.inBounds_iff]
      cases hn : n.toInt? with
      | none =>
        refine iff_of_false (fun h => ?_) ?_
        · rw [LuaValue.ofJson, Lua.checkInt, hn] at h
          cases h
        · rintro ⟨i, hi, _⟩
          have hi' : n.toInt? = some i := hi
          rw [hn] at hi'
          cases hi'
      | some i =>
        refine (Lua.checkInt_ok hn).trans ⟨fun h => ⟨i, hn, h⟩, ?_⟩
        rintro ⟨i', hi, h⟩
        have hi' : n.toInt? = some i' := hi
        rw [hn] at hi'
        cases hi'
        exact h
    | _ =>
      refine iff_of_false (fun h => ?_) fun h => by cases h
      rw [LuaValue.ofJson, Lua.check] at h
      cases h
  | bool =>
    cases j with
    | bool b => exact iff_of_true rfl rfl
    | _ =>
      refine iff_of_false (fun h => ?_) fun h => by cases h
      rw [LuaValue.ofJson, Lua.check] at h
      cases h
  | enum ref =>
    have htext : ∀ s, Lua.check (.enum ref) (.string (Text.utf8 s)) path = .ok () ↔
        luaReading.leaf (.enum ref) (.str s) = true := by
      intro s
      have hmem : Text.utf8 s ∈ ref.values.map Text.utf8 ↔ s ∈ ref.values := by
        rw [List.mem_map]
        constructor
        · rintro ⟨value, hvalue, heq⟩
          rwa [← Text.utf8_injective heq]
        · intro hs
          exact ⟨s, hs, rfl⟩
      show _ ↔ ref.values.contains s = true
      rw [List.contains_iff_mem, ← hmem, Lua.check, Lua.checkEnum]
      by_cases hs : Text.utf8 s ∈ ref.values.map Text.utf8
      · exact iff_of_true (if_pos hs) hs
      · rw [if_neg hs]
        exact iff_of_false (fun h => by cases h) hs
    cases j with
    | str s => exact htext s
    | illFormed s high => exact (htext s).trans (Reading.leaf_half.trans (and_iff_right rfl)).symm
    | _ =>
      refine iff_of_false (fun h => ?_) fun h => by cases h
      rw [LuaValue.ofJson, Lua.check] at h
      cases h
  | struct name fields => cases hscalar
  | array items maxItems => cases hscalar
  | optional inner => cases hscalar

theorem lua_takes {type : FieldType} (hordinary : type.ordinary = true) {j : Json}
    (hnull : j.nullFree = true) (path : Bytes) :
    Lua.check type (LuaValue.ofJson j) path = .ok () ↔ luaReading.Takes type j := by
  induction type using FieldType.induct generalizing j path with
  | struct name fields ih =>
    obtain ⟨hrequired, hfields⟩ := ordinary_struct hordinary
    cases j with
    | obj members =>
      rw [Reading.takes_obj]
      by_cases hkeys : ∀ m ∈ members, m.1 ∈ fields.map Prod.fst
      · rw [Lua.check_struct hkeys, Lua.checkFields_ok, and_iff_right hkeys]
        rw [Json.nullFree, Json.nullFreeMembers_iff] at hnull
        refine forall₂_congr fun f hf => hasField_congr fun v hv => ?_
        have hv := hnull _ (Json.mem_of_get? hv)
        have hne : v ≠ .null := by
          rintro rfl
          cases hv
        rw [or_iff_right fun h => hne h.1, and_iff_right hne]
        exact ih f hf (hfields f hf) hv _
      · exact iff_of_false (fun h => hkeys (lua_struct_taken ⟨hnull, path, h⟩).1) fun h => hkeys h.1
    | arr items =>
      rw [Reading.takes_inOrder]
      exact iff_of_false (fun h => hrequired (lua_struct_array ⟨hnull, path, h⟩).2)
        fun h => by cases h.1.1
    | _ => exact iff_of_false (fun h => by cases h) (Reading.not_takes fun h => h)
  | array items maxItems ih =>
    rw [Lua.check]
    cases j with
    | arr xs =>
      rw [Json.nullFree, Json.nullFreeItems_iff] at hnull
      rw [Reading.takes_arr]
      exact Lua.checkArray_ok fun x hx itemPath => ih hordinary (hnull x hx) itemPath
    | obj members =>
      have htable : luaReading.emptyTable = true := rfl
      rw [Reading.takes_table, and_iff_right htable]
      cases members with
      | nil => exact iff_of_true (by cases maxItems <;> rfl) rfl
      | cons m members =>
        refine iff_of_false (fun h => ?_) fun h => by cases h
        rw [LuaValue.ofJson] at h
        cases Lua.checkArray_keys h (.str m.1, LuaValue.ofJson m.2) List.mem_cons_self
    | _ => exact iff_of_false (fun h => by cases h) (Reading.not_takes fun h => h)
  | optional inner ih =>
    rw [Lua.check, Reading.takes_optional]
    exact ih hordinary hnull path
  | string f min max => rw [lua_leaf rfl, Reading.takes_scalar rfl]
  | int min max => rw [lua_leaf rfl, Reading.takes_scalar rfl]
  | bool => rw [lua_leaf rfl, Reading.takes_scalar rfl]
  | enum ref => rw [lua_leaf rfl, Reading.takes_scalar rfl]

/-! ## C++ -/

def cppReading : Reading :=
  ⟨fun f s => (Cpp.formatCheck f).1 (Text.utf8 s),
    fun n => (Cpp.Value.ofJson 0 (.num n)).bind Cpp.Value.asInt, false, false, fun high => !high⟩

theorem cppReading_int {depth : Nat} (h : depth ≤ 32) (n : JsonNumber) :
    cppReading.int n = (Cpp.Value.ofJson depth (.num n)).bind Cpp.Value.asInt := by
  show (Cpp.Value.ofJson 0 (.num n)).bind Cpp.Value.asInt = _
  cases n with
  | int i => rw [Cpp.Value.ofJson_int h, Cpp.Value.ofJson_int (Nat.zero_le 32)]
  | minusZero => rw [Cpp.Value.ofJson_minusZero h, Cpp.Value.ofJson_minusZero (Nat.zero_le 32)]
  | dec q tiny => rw [Cpp.Value.ofJson_dec h, Cpp.Value.ofJson_dec (Nat.zero_le 32)]

/-- a second half alone is read as U+FFFD is -/
theorem cpp_text {type : FieldType} {j : Json} {t : String} (hj : j = .str t ∨ j = .illFormed t false)
    (h : cppReading.leaf type (.str t) = true) : cppReading.leaf type j = true := by
  rcases hj with rfl | rfl
  · exact h
  · exact Reading.leaf_half.mpr ⟨rfl, h⟩

/-- what is read from a text, a boolean or a number -/
theorem cpp_leaf {type : FieldType} (hscalar : type.isScalar = true) {j : Json} {depth : Nat}
    {v : Cpp.Value} (hv : Cpp.Value.ofJson depth j = some v) {path : String}
    (hok : (Cpp.fromJson type v path).isOk = true) : cppReading.leaf type j = true := by
  have hdepth := Cpp.Value.ofJson_shallow hv
  obtain ⟨htext, hbool, hnumber⟩ := Cpp.Value.ofJson_leaf hv
  cases type with
  | string f min max =>
    cases v with
    | string s =>
      obtain ⟨t, hj, rfl⟩ := htext s rfl
      rw [Cpp.string_ok, ← and_assoc] at hok
      exact cpp_text hj (Reading.leaf_string.mpr hok)
    | _ => cases hok
  | int min max =>
    have hsome : ∃ i, v.asInt = some i := by
      cases v with
      | int i => exact ⟨i, rfl⟩
      | double q => exact ⟨_, rfl⟩
      | _ => cases hok
    obtain ⟨i, hi⟩ := hsome
    obtain ⟨n, rfl⟩ := hnumber i hi
    have hint : cppReading.int n = some i := by
      rw [cppReading_int hdepth, hv]
      exact hi
    exact Reading.leaf_int.mpr ⟨i, hint, Reading.inBounds_iff.mpr ((Cpp.int_ok hi).mp hok)⟩
  | bool =>
    cases v with
    | bool b => rw [hbool b rfl, Reading.leaf]
    | _ => cases hok
  | enum ref =>
    cases v with
    | string s =>
      obtain ⟨t, hj, rfl⟩ := htext s rfl
      rw [Cpp.enum_ok, Cpp.fromWire_isSome] at hok
      obtain ⟨value, hvalue, heq⟩ := hok
      have hleaf : cppReading.leaf (.enum ref) (.str t) = true := by
        rw [← Text.utf8_injective heq]
        exact List.contains_iff_mem.mpr hvalue
      exact cpp_text hj hleaf
    | _ => cases hok
  | struct name fields => cases hscalar
  | array items maxItems => cases hscalar
  | optional inner => cases hscalar

theorem cpp_half {depth : Nat} (hdepth : depth ≤ 32) (s : String) {high : Bool}
    (h : cppReading.half high = true) :
    Cpp.Value.ofJson depth (.illFormed s high) = some (.string (Text.utf8 s)) := by
  cases high with
  | true => cases h
  | false => exact Cpp.Value.ofJson_illFormed hdepth s false

theorem cpp_of_leaf {type : FieldType} (hscalar : type.isScalar = true) {j : Json} {depth : Nat}
    (hdepth : depth ≤ 32) (h : cppReading.leaf type j = true) : CppTakes depth type j := by
  cases type with
  | string f min max =>
    cases j with
    | str s =>
      refine ⟨_, Cpp.Value.ofJson_str hdepth s, rfl, fun path => ?_⟩
      rw [Cpp.string_ok, ← and_assoc]
      exact Reading.leaf_string.mp h
    | illFormed s high =>
      obtain ⟨hhalf, hleaf⟩ := Reading.leaf_half.mp h
      refine ⟨_, cpp_half hdepth s hhalf, rfl, fun path => ?_⟩
      rw [Cpp.string_ok, ← and_assoc]
      exact Reading.leaf_string.mp hleaf
    | _ => cases h
  | int min max =>
    cases j with
    | num n =>
      obtain ⟨i, hi, hbounds⟩ := Reading.leaf_int.mp h
      rw [cppReading_int hdepth] at hi
      obtain ⟨v, hv, hi⟩ := Option.bind_eq_some_iff.mp hi
      refine ⟨v, hv, ?_, fun path => (Cpp.int_ok hi).mpr (Reading.inBounds_iff.mp hbounds)⟩
      cases v with
      | null => cases hi
      | _ => rfl
    | _ => cases h
  | bool =>
    cases j with
    | bool b => exact ⟨_, Cpp.Value.ofJson_bool hdepth b, rfl, fun path => rfl⟩
    | _ => cases h
  | enum ref =>
    cases j with
    | str s =>
      refine ⟨_, Cpp.Value.ofJson_str hdepth s, rfl, fun path => ?_⟩
      rw [Cpp.enum_ok, Cpp.fromWire_isSome]
      exact ⟨s, List.contains_iff_mem.mp h, rfl⟩
    | illFormed s high =>
      obtain ⟨hhalf, hleaf⟩ := Reading.leaf_half.mp h
      refine ⟨_, cpp_half hdepth s hhalf, rfl, fun path => ?_⟩
      rw [Cpp.enum_ok, Cpp.fromWire_isSome]
      exact ⟨s, List.contains_iff_mem.mp hleaf, rfl⟩
    | _ => cases h
  | struct name fields => cases hscalar
  | array items maxItems => cases hscalar
  | optional inner => cases hscalar

theorem cpp_read {type : FieldType} {j : Json} (hnull : j.nullFree = true) (h : CppTaken type j) :
    cppReading.Takes type j := by
  have hleaf : ∀ {type : FieldType} {j : Json}, type.isScalar = true → CppTaken type j →
      cppReading.Takes type j := by
    rintro type j hscalar ⟨_, depth, v, path, hv, hok⟩
    exact (Reading.takes_scalar hscalar).mpr (cpp_leaf hscalar hv hok)
  induction type using FieldType.induct generalizing j with
  | struct name fields ih =>
    obtain ⟨members, rfl, hkeys, hfields⟩ := cpp_struct_taken h
    rw [Json.nullFree, Json.nullFreeMembers_iff] at hnull
    refine Reading.takes_obj.mpr ⟨hkeys, fun f hf => ⟨fun v hv => ?_, (hfields f hf).2⟩⟩
    have hvnull := hnull _ (Json.mem_of_get? hv)
    rcases (hfields f hf).1 v hv with ⟨rfl, _⟩ | ⟨_, htaken⟩
    · cases hvnull
    · exact ih f hf hvnull htaken
  | array items maxItems ih =>
    obtain ⟨xs, rfl, hlen, hitems⟩ := cpp_array_taken h
    rw [Json.nullFree, Json.nullFreeItems_iff] at hnull
    exact Reading.takes_arr.mpr ⟨hlen, fun x hx => ih (hnull x hx) (hitems x hx)⟩
  | optional inner ih =>
    obtain ⟨hvalid, depth, v, path, hv, hok⟩ := h
    rw [Cpp.optional_ok] at hok
    exact Reading.takes_optional.mpr (ih hnull ⟨hvalid, depth, v, path, hv, hok⟩)
  | string f min max => exact hleaf rfl h
  | int min max => exact hleaf rfl h
  | bool => exact hleaf rfl h
  | enum ref => exact hleaf rfl h

/-- a value that is read is not nested too deep -/
theorem cpp_of_read {type : FieldType} {j : Json} (hvalid : j.valid = true) {depth : Nat}
    (hdepth : depth + type.depth ≤ 32) (h : cppReading.Takes type j) : CppTakes depth type j := by
  have hleaf : ∀ {type : FieldType} {j : Json} {depth : Nat}, type.isScalar = true → depth ≤ 32 →
      cppReading.Takes type j → CppTakes depth type j := by
    intro type j depth hscalar hdepth h
    exact cpp_of_leaf hscalar hdepth ((Reading.takes_scalar hscalar).mp h)
  induction type using FieldType.induct generalizing j depth with
  | struct name fields ih =>
    rw [FieldType.depth] at hdepth
    cases j with
    | obj members =>
      obtain ⟨hkeys, hfields⟩ := Reading.takes_obj.mp h
      rw [Json.valid, Bool.and_eq_true, decide_eq_true_eq, Json.validMembers_iff] at hvalid
      refine cpp_struct (by omega) hvalid.1 hkeys fun f hf => ⟨fun v hv => ?_, (hfields f hf).2⟩
      have hf' := depth_le_fields hf
      exact ih f hf (hvalid.2 _ (Json.mem_of_get? hv)) (by omega) ((hfields f hf).1 v hv)
    | arr items => cases (Reading.takes_inOrder.mp h).1.1
    | _ => exact absurd h (Reading.not_takes fun h => h)
  | array items maxItems ih =>
    rw [FieldType.depth] at hdepth
    cases j with
    | arr xs =>
      obtain ⟨hlen, hitems⟩ := Reading.takes_arr.mp h
      rw [Json.valid, Json.validItems_iff] at hvalid
      exact cpp_array (by omega) hlen fun x hx => ih (hvalid x hx) (by omega) (hitems x hx)
    | obj members => cases (Reading.takes_table.mp h).1
    | _ => exact absurd h (Reading.not_takes fun h => h)
  | optional inner ih =>
    rw [FieldType.depth] at hdepth
    obtain ⟨v, hv, hvnull, hok⟩ := ih hvalid hdepth (Reading.takes_optional.mp h)
    refine ⟨v, hv, hvnull, fun path => ?_⟩
    rw [Cpp.optional_ok]
    exact hok path
  | string f min max => exact hleaf rfl hdepth h
  | int min max => exact hleaf rfl hdepth h
  | bool => exact hleaf rfl hdepth h
  | enum ref => exact hleaf rfl hdepth h

end Protocol
