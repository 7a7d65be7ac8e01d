import FiveProtect.Protocol.Formats

/-!
# Protocol: what Zod accepts, in the other languages

The schema is checked four times: by Zod in the backend, by serde and `validate` in the companion, by
`from_json` in the scan engine and by `M.validate` in the resource.  The four agree on a value that
Zod accepts if it is `Portable`: its texts have no half of a surrogate pair and are as short in UTF-8
bytes as Zod asks of UTF-16 units, its timestamps have their seconds, its integers are written as
integers and fit `i64`.

* `rust_of_portable`, `cpp_of_portable`, `lua_of_portable`   such a value is accepted;
* `portable_of_rust`   the companion accepts no other.
-/

namespace Protocol

/-! ## portable values -/

/-- what is asked of a text or a number beyond Zod -/
def portableLeaf : FieldType → Json → Bool
  | .string format _ maxLength, .str s =>
    (maxLength.all fun n => Text.utf8Length s ≤ n) && (format != some .datetime || hasSeconds s)
  | .string _ _ _, .illFormed _ _ => false
  | .int _ _, .num (.int i) => isInt64 i
  | .int _ _, .num _ => false
  | _, _ => true

def Portable (type : FieldType) (j : Json) : Prop :=
  Conforms (fun t v => portableLeaf t v = true) type j

/-- accepted by Zod, and portable -/
def PortableLeaf (type : FieldType) (j : Json) : Prop :=
  Zod.accepts type j = true ∧ portableLeaf type j = true

theorem portableLeaf_string {f : Option StringFormat} {min max : Option Nat} {j : Json}
    (h : PortableLeaf (.string f min max) j) : ∃ s, j = .str s ∧
      (∀ n, min = some n → n ≤ Text.utf8Length s) ∧ (∀ n, max = some n → Text.utf8Length s ≤ n) ∧
      ∀ g, f = some g → (Rust.format g).1 s = true ∧ (Cpp.formatCheck g).1 (Text.utf8 s) = true ∧
        LuaPattern.test (Lua.luaPattern g).1 (Text.utf8 s) = true := by
  obtain ⟨hz, hp⟩ := h
  cases j with
  | str s =>
    simp only [Zod.accepts, Zod.text, portableLeaf, Bool.and_eq_true, Option.all_eq_true,
      decide_eq_true_eq] at hz hp
    refine ⟨s, rfl, fun n hn => (hz.1.2 n hn).trans (Text.utf16Length_le s), hp.1, fun g hg => ?_⟩
    refine format_portable (hz.1.1 g hg) fun hdatetime => ?_
    rw [hg, hdatetime] at hp
    simpa using hp.2
  | illFormed s high => cases hp
  | _ => cases hz

theorem portableLeaf_int {min max : Option Int} {j : Json} (h : PortableLeaf (.int min max) j) :
    ∃ i, j = .num (.int i) ∧ isInt64 i = true ∧ (∀ m, min = some m → m ≤ i) ∧
      ∀ m, max = some m → i ≤ m := by
  obtain ⟨hz, hp⟩ := h
  cases j with
  | num n =>
    cases n with
    | int i =>
      simp only [Zod.accepts, JsonNumber.toInt?_int, Option.any_some, Bool.and_eq_true,
        Option.all_eq_true, decide_eq_true_eq] at hz
      exact ⟨i, rfl, hp, hz⟩
    | _ => cases hp
  | _ => cases hz

theorem portableLeaf_bool {j : Json} (h : PortableLeaf .bool j) : ∃ b, j = .bool b := by
  obtain ⟨hz, _⟩ := h
  cases j with
  | bool b => exact ⟨b, rfl⟩
  | _ => cases hz

theorem portableLeaf_enum {ref : EnumDef} {j : Json} (h : PortableLeaf (.enum ref) j) :
    ∃ s ∈ ref.values, j = .str s := by
  obtain ⟨hz, _⟩ := h
  cases j with
  | str s => exact ⟨s, List.contains_iff_mem.mp hz, rfl⟩
  | _ => cases hz

theorem PortableLeaf.ne_null {type : FieldType} {j : Json} (h : PortableLeaf type j) : j ≠ .null := by
  rintro rfl
  have hz := h.1
  rw [Zod.accepts_null] at hz
  cases hz

/-! ## the companion -/

theorem rust_of_portable {type : FieldType} {j : Json} (h : Conforms PortableLeaf type j) :
    Rust.accepts type j = true := by
  refine h.elim (A := fun t v => Rust.accepts t v = true) ?_ ?_ ?_ ?_
  · intro type j hscalar h
    cases type with
    | string f min max =>
      obtain ⟨s, rfl, hmin, hmax, hformat⟩ := portableLeaf_string h
      exact Rust.accepts_string.mpr ⟨⟨hmin, hmax⟩, fun g hg => (hformat g hg).1⟩
    | int min max =>
      obtain ⟨i, rfl, hi, hrange⟩ := portableLeaf_int h
      exact Rust.accepts_int.mpr ⟨i, rfl, hi, hrange⟩
    | bool =>
      obtain ⟨b, rfl⟩ := portableLeaf_bool h
      rfl
    | enum ref =>
      obtain ⟨s, hs, rfl⟩ := portableLeaf_enum h
      exact Rust.accepts_enum hs
    | _ => cases hscalar
  · intro name fields members hkeys hfields
    exact Rust.accepts_struct.mpr ⟨hkeys, hfields⟩
  · intro items maxItems xs hlen hitems
    exact Rust.accepts_array.mpr ⟨hlen, hitems⟩
  · intro inner j h
    exact Rust.accepts_optional.mpr (Or.inr h)

/-- the companion takes no other value -/
theorem portable_of_rust {type : FieldType} {j : Json} (hz : Zod.accepts type j = true)
    (hr : Rust.accepts type j = true) : Portable type j := by
  refine Conforms.intro (A := fun t v => Zod.accepts t v = true ∧ Rust.accepts t v = true)
    ?_ ?_ ?_ ?_ ⟨hz, hr⟩
  · rintro type j hscalar ⟨hz, hr⟩
    cases type with
    | string f min max =>
      cases j with
      | str s =>
        obtain ⟨⟨_, hmax⟩, hformat⟩ := Rust.accepts_string.mp hr
        simp only [portableLeaf, Bool.and_eq_true, Option.all_eq_true, decide_eq_true_eq]
        refine ⟨hmax, ?_⟩
        by_cases hdatetime : f = some .datetime
        · rw [hdatetime, Zod.accepts, Zod.text, Bool.and_eq_true, Bool.and_eq_true] at hz
          have hseconds := datetime_seconds (s := s) hz.1.1 (hformat _ hdatetime)
          rw [hseconds, Bool.or_true]
        · rw [bne_iff_ne.mpr hdatetime, Bool.true_or]
      | illFormed s high =>
        obtain ⟨value, hvalue, _⟩ := Rust.accepts_iff.mp hr
        cases hvalue
      | _ => rfl
    | int min max =>
      cases j with
      | num n =>
        obtain ⟨i, rfl, hi, _⟩ := Rust.accepts_int.mp hr
        exact hi
      | _ => rfl
    | bool => rfl
    | enum ref => rfl
    | _ => cases hscalar
  · rintro name fields j ⟨hz, hr⟩
    obtain ⟨members, rfl, hkeys, hfields⟩ := Zod.accepts_struct hz
    have hfields' := (Rust.accepts_struct.mp hr).2
    refine ⟨members, rfl, hkeys, fun f hf => ?_⟩
    exact ⟨fun v hv => ⟨(hfields f hf).1 v hv, (hfields' f hf).1 v hv⟩, (hfields f hf).2⟩
  · rintro items maxItems j ⟨hz, hr⟩
    obtain ⟨xs, rfl, hlen, hitems⟩ := Zod.accepts_array hz
    have hitems' := (Rust.accepts_array.mp hr).2
    exact ⟨xs, rfl, hlen, fun x hx => ⟨hitems x hx, hitems' x hx⟩⟩
  · rintro inner j ⟨hz, hr⟩
    rw [Zod.accepts_optional] at hz
    rcases Rust.accepts_optional.mp hr with rfl | hr
    · rw [Zod.accepts_null] at hz
      cases hz
    · exact ⟨hz, hr⟩

/-! ## the resource -/

theorem lua_of_portable {type : FieldType} {j : Json} (h : Conforms PortableLeaf type j) :
    j ≠ .null ∧ ∀ path, Lua.check type (LuaValue.ofJson j) path = .ok () := by
  refine h.elim (A := fun t v => v ≠ .null ∧ ∀ path, Lua.check t (LuaValue.ofJson v) path = .ok ())
    ?_ ?_ ?_ ?_
  · intro type j hscalar h
    refine ⟨h.ne_null, fun path => ?_⟩
    cases type with
    | string f min max =>
      obtain ⟨s, rfl, hmin, hmax, hformat⟩ := portableLeaf_string h
      rw [Lua.check]
      refine Lua.checkString_ok.mpr ⟨hmin, hmax, fun p hp => ?_⟩
      obtain ⟨g, hg, rfl⟩ := Option.map_eq_some_iff.mp hp
      exact (hformat g hg).2.2
    | int min max =>
      obtain ⟨i, rfl, _, hmin, hmax⟩ := portableLeaf_int h
      rw [Lua.check]
      exact (Lua.checkInt_ok (JsonNumber.toInt?_int i)).mpr ⟨hmin, hmax⟩
    | bool =>
      obtain ⟨b, rfl⟩ := portableLeaf_bool h
      rfl
    | enum ref =>
      obtain ⟨s, hs, rfl⟩ := portableLeaf_enum h
      rw [Lua.check]
      exact if_pos (List.mem_map_of_mem hs)
    | _ => cases hscalar
  · intro name fields members hkeys hfields
    refine ⟨by rintro ⟨⟩, fun path => ?_⟩
    rw [Lua.check_struct hkeys, Lua.checkFields_ok]
    intro f hf
    exact ⟨fun v hv => Or.inr ⟨((hfields f hf).1 v hv).1, ((hfields f hf).1 v hv).2 _⟩,
      (hfields f hf).2⟩
  · intro items maxItems xs hlen hitems
    refine ⟨by rintro ⟨⟩, fun path => ?_⟩
    rw [Lua.check, Lua.checkArray_ok (P := fun _ => True)]
    · exact ⟨hlen, fun _ _ => trivial⟩
    · intro x hx itemPath
      exact iff_of_true ((hitems x hx).2 itemPath) trivial
  · intro inner j h
    refine ⟨h.1, fun path => ?_⟩
    rw [Lua.check]
    exact h.2 path

/-! ## the scan engine -/

/-- parsed at a depth and taken -/
def CppTakes (depth : Nat) (type : FieldType) (j : Json) : Prop :=
  ∃ v, Cpp.Value.ofJson depth j = some v ∧ v.isNull = false ∧
    ∀ path, (Cpp.fromJson type v path).isOk = true

theorem cpp_scalar {type : FieldType} {j : Json} (hscalar : type.isScalar = true)
    (h : PortableLeaf type j) {depth : Nat} (hdepth : depth ≤ 32) : CppTakes depth type j := by
  have hnot : ¬ 32 < depth := Nat.not_lt.mpr hdepth
  cases type with
  | string f min max =>
    obtain ⟨s, rfl, hmin, hmax, hformat⟩ := portableLeaf_string h
    refine ⟨.string (Text.utf8 s), if_neg hnot, rfl, fun path => ?_⟩
    exact Cpp.string_ok.mpr ⟨hmin, hmax, fun g hg => (hformat g hg).2.1⟩
  | int min max =>
    obtain ⟨i, rfl, hi, hrange⟩ := portableLeaf_int h
    refine ⟨.int i, ?_, rfl, fun path => (Cpp.int_ok rfl).mpr hrange⟩
    exact (if_neg hnot).trans (if_pos hi)
  | bool =>
    obtain ⟨b, rfl⟩ := portableLeaf_bool h
    exact ⟨.bool b, if_neg hnot, rfl, fun path => rfl⟩
  | enum ref =>
    obtain ⟨s, hs, rfl⟩ := portableLeaf_enum h
    refine ⟨.string (Text.utf8 s), if_neg hnot, rfl, fun path => ?_⟩
    rw [Cpp.enum_ok, Cpp.fromWire_isSome]
    exact ⟨s, hs, rfl⟩
  | _ => cases hscalar

/-- the members of an object become a map from which each declared one is read -/
theorem cpp_struct {name : String} {fields : List (String × FieldType)}
    {members : List (String × Json)} {depth : Nat} (hdepth : depth ≤ 32)
    (hn : (members.map Prod.fst).Nodup) (hkeys : ∀ m ∈ members, m.1 ∈ fields.map Prod.fst)
    (hfields : ∀ f ∈ fields, HasField (CppTakes (depth + 1)) (.obj members) f) :
    CppTakes depth (.struct name fields) (.obj members) := by
  have hparsed : ∀ m ∈ members, ∃ v, Cpp.Value.ofJson (depth + 1) m.2 = some v := by
    intro m hm
    obtain ⟨f, hf, hfm⟩ := List.mem_map.mp (hkeys m hm)
    have hget : Json.get? f.1 (.obj members) = some m.2 := by
      rw [hfm]
      exact Json.get?_of_mem hn hm
    obtain ⟨v, hv, _⟩ := (hfields f hf).1 m.2 hget
    exact ⟨v, hv⟩
  obtain ⟨vs, hvs⟩ : ∃ vs, Cpp.Value.ofMembers (depth + 1) members [] = some vs :=
    Cpp.Value.ofMembers_some hparsed
  refine ⟨.object vs, ?_, rfl, fun path => ?_⟩
  · rw [Cpp.Value.ofJson_obj hdepth, hvs]
    rfl
  · rw [Cpp.struct_ok, Cpp.members_ok]
    constructor
    · intro m hm
      rcases Cpp.Value.mem_ofMembers hvs hm with ⟨k, hk, hmk⟩ | hnil
      · obtain ⟨x, hx, rfl⟩ := List.mem_map.mp hk
        obtain ⟨f, hf, hfx⟩ := List.mem_map.mp (hkeys x hx)
        exact ⟨f, hf, by rw [hmk, hfx]⟩
      · exact absurd hnil List.not_mem_nil
    · intro f hf
      have hfind : (Cpp.Value.object vs).find (Text.utf8 f.1) =
          (Json.get? f.1 (.obj members)).elim none (Cpp.Value.ofJson (depth + 1)) :=
        Cpp.Value.find_ofMembers hvs hn f.1
      rw [Cpp.readField_ok, hfind]
      cases hget : Json.get? f.1 (.obj members) with
      | none => exact ⟨fun v hv => (by cases hv), fun _ => (hfields f hf).2 hget⟩
      | some v =>
        obtain ⟨w, hw, hnull, hok⟩ := (hfields f hf).1 v hget
        rw [Option.elim_some, hw]
        refine ⟨fun x hx => ?_, fun hnone => by cases hnone⟩
        cases hx
        exact Or.inr ⟨hnull, hok _⟩

theorem cpp_array {items : FieldType} {maxItems : Option Nat} {xs : List Json} {depth : Nat}
    (hdepth : depth ≤ 32) (hlen : ∀ n, maxItems = some n → xs.length ≤ n)
    (hitems : ∀ x ∈ xs, CppTakes (depth + 1) items x) :
    CppTakes depth (.array items maxItems) (.arr xs) := by
  obtain ⟨vs, hvs, hall⟩ := Check.mapM_some.mpr hitems
  refine ⟨.array vs, ?_, rfl, fun path => ?_⟩
  · rw [Cpp.Value.ofJson_arr hdepth, hvs]
    rfl
  · rw [Cpp.array_ok, Check.mapM_length hvs]
    exact ⟨hlen, fun v hv => (hall v hv).2 _⟩

theorem cpp_of_portable {type : FieldType} {j : Json} (h : Conforms PortableLeaf type j)
    (hvalid : j.valid = true) {depth : Nat} (hdepth : depth + type.depth ≤ 32) :
    CppTakes depth type j := by
  refine h.elim (A := fun t v => v.valid = true → ∀ d, d + t.depth ≤ 32 → CppTakes d t v)
    ?_ ?_ ?_ ?_ hvalid depth hdepth
  · intro type j hscalar h _ d hd
    exact cpp_scalar hscalar h (by omega)
  · intro name fields members hkeys hfields hvalid d hd
    rw [Json.valid, Bool.and_eq_true, decide_eq_true_eq, Json.validMembers_iff] at hvalid
    rw [FieldType.depth] at hd
    refine cpp_struct (by omega) hvalid.1 hkeys fun f hf => ⟨fun v hv => ?_, (hfields f hf).2⟩
    have hf' := depth_le_fields hf
    exact (hfields f hf).1 v hv (hvalid.2 _ (Json.mem_of_get? hv)) (d + 1) (by omega)
  · intro items maxItems xs hlen hitems hvalid d hd
    rw [Json.valid, Json.validItems_iff] at hvalid
    rw [FieldType.depth] at hd
    exact cpp_array (by omega) hlen fun x hx => hitems x hx (hvalid x hx) (d + 1) (by omega)
  · intro inner j h hvalid d hd
    rw [FieldType.depth] at hd
    obtain ⟨v, hv, hnull, hok⟩ := h hvalid d hd
    refine ⟨v, hv, hnull, fun path => ?_⟩
    rw [Cpp.optional_ok]
    exact hok path

/-! ## the registry -/

theorem accepted_iff_portable {type : FieldType} (hdepth : type.depth ≤ 32) {j : Json}
    (hvalid : j.valid = true) (hz : Zod.accepts type j = true) :
    (Rust.accepts type j = true ∧ Cpp.accepts type j = true ∧ Lua.accepts type j = true) ↔
      Portable type j := by
  constructor
  · intro h
    exact portable_of_rust hz h.1
  · intro hp
    have h : Conforms PortableLeaf type j := (Zod.conforms_of_accepts hz).and hp
    have hzero : 0 + type.depth ≤ 32 := by omega
    obtain ⟨v, hv, _, hok⟩ := cpp_of_portable h hvalid hzero
    refine ⟨rust_of_portable h, ?_, ?_⟩
    · rw [Cpp.accepts, hv]
      exact hok ""
    · rw [Lua.accepts, (lua_of_portable h).2]
      rfl

theorem registry_depth : ∀ type ∈ Schema.registry, type.depth ≤ 32 := by decide

/-- **What Zod accepts, the others accept, exactly when it is portable.** -/
theorem zod_refined_iff_portable :
    ∀ type ∈ Schema.registry, ∀ j : Json, j.valid = true →
      ((Zod.accepts type j = true →
          Rust.accepts type j = true ∧ Cpp.accepts type j = true ∧ Lua.accepts type j = true) ↔
        (Zod.accepts type j = true → Portable type j)) := by
  intro type htype j hvalid
  have hdepth := registry_depth type htype
  exact forall_congr' fun hz => accepted_iff_portable hdepth hvalid hz

/-- no session is pending -/
def nothingPending : Json := .obj [("pending", .bool false), ("protocolVersion", .num (.int 1))]

theorem zod_refined_nothingPending : Schema.CompanionPollResponse ∈ Schema.registry ∧
    nothingPending.valid = true ∧
    ((Zod.accepts Schema.CompanionPollResponse nothingPending = true →
        Rust.accepts Schema.CompanionPollResponse nothingPending = true ∧
        Cpp.accepts Schema.CompanionPollResponse nothingPending = true ∧
        Lua.accepts Schema.CompanionPollResponse nothingPending = true) ↔
      (Zod.accepts Schema.CompanionPollResponse nothingPending = true →
        Portable Schema.CompanionPollResponse nothingPending)) := by
  have hmem : Schema.CompanionPollResponse ∈ Schema.registry := by simp [Schema.registry]
  have hvalid : nothingPending.valid = true := by decide +kernel
  exact ⟨hmem, hvalid, zod_refined_iff_portable _ hmem _ hvalid⟩

/-- the name of a server in 65 characters of two bytes each -/
def wideServerName : Json := .obj [
  ("pending", .bool true),
  ("serverName", .str (String.ofList (List.replicate 65 'ü'))),
  ("protocolVersion", .num (.int 1))]

/-- Zod takes it, and none of the others does -/
theorem zod_refined_refuted : ∃ type ∈ Schema.registry, ∃ j : Json, j.valid = true ∧
    Zod.accepts type j = true ∧ Rust.accepts type j = false ∧ Cpp.accepts type j = false ∧
      Lua.accepts type j = false := by
  refine ⟨Schema.CompanionPollResponse, by simp [Schema.registry], wideServerName, ?_, ?_, ?_, ?_, ?_⟩
  · decide +kernel
  · decide +kernel
  · decide +kernel
  · decide +kernel
  · decide +kernel

end Protocol
