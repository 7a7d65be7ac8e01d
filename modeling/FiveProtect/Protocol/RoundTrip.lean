import FiveProtect.Protocol.Cpp
import FiveProtect.Protocol.ReadBack

/-!
# Protocol: the generated C++ encoder

`packages/protocol/src/generators/cpp.ts`: `to_json`, and `from_json` into an object that may hold
something already.

* `fromJsonInto_eq`   what the object held does not show in what is read;
* `encodes`           every value that meets its constraints has a JSON value, and is read back from it;
* `decode_encode`     for the messages of the registry, through the text.
-/

namespace Protocol.Cpp

/-! ## to_json -/

/-- an optional field without a value -/
def absent : (type : FieldType) → Typed Bytes type → Bool
  | .optional _, x => Option.isNone x
  | _, _ => false

mutual
/-- `toJsonExpr`, and `to_json` of a struct; `none` where `.value()` would throw -/
def toJson : (type : FieldType) → Typed Bytes type → Option Value
  | .string _ _ _, s => some (.string s)
  | .int _ _, i => some (.int i)
  | .bool, b => some (.bool b)
  | .enum _, e => some (.string (Text.utf8 e.1))
  | .struct _ fields, x => (toMembers fields x []).map .object
  | .array items _, xs => (List.mapM (toJson items) xs).map .array
  | .optional inner, x => Option.bind x (toJson inner)
def toMembers : (fields : List (String × FieldType)) → TypedFields Bytes fields →
    List (Bytes × Value) → Option (List (Bytes × Value))
  | [], _, object => some object
  | (key, type) :: fields, (x, rest), object =>
    if absent type x then toMembers fields rest object
    else do
      let v ← toJson type x
      toMembers fields rest (Value.insertOrAssign (Text.utf8 key) v object)
end

/-! ## from_json, into an object -/

mutual
/-- `T{}`, with `defaultInitializer`; `none` for an enumeration without enumerators -/
def initial : (type : FieldType) → Option (Typed Bytes type)
  | .string _ _ _ => some ([] : Bytes)
  | .int _ _ => some (0 : Int)
  | .bool => some false
  | .enum ref => ref.values.attach.head?
  | .struct _ fields => initialFields fields
  | .array items _ => some ([] : List (Typed Bytes items))
  | .optional inner => some (none : Option (Typed Bytes inner))
def initialFields : (fields : List (String × FieldType)) → Option (TypedFields Bytes fields)
  | [] => some ()
  | (_, type) :: fields => do
    let x ← initial type
    let rest ← initialFields fields
    return (x, rest)
end

/-- `dst.clear()` -/
def clear {α : Type} (_ : Option (List α)) : List α := []

mutual
/-- `emitFieldParse` where `dst` holds `out`: a scalar is assigned, an array cleared and filled, an
optional assigned an object parsed apart -/
def fromJsonInto : (type : FieldType) → Value → String → Option (Typed Bytes type) →
    Except Bytes (Typed Bytes type)
  | .string format minLength maxLength, value, path, _ =>
    fromJson (.string format minLength maxLength) value path
  | .int min max, value, path, _ => fromJson (.int min max) value path
  | .bool, value, path, _ => fromJson .bool value path
  | .enum ref, value, path, _ => fromJson (.enum ref) value path
  | .struct name fields, value, _, out =>
    match value with
    | .object members => do
      rejectUnknownFields members name fields
      membersInto name fields (.object members) out
    | _ => setError (Text.utf8 s!"{name}: expected an object")
  | .array items maxItems, value, path, out =>
    match value with
    | .array elements => do
      match maxItems with
      | some n => checkThat (elements.length ≤ n) (Text.utf8 s!"{path}: holds more than {n} items")
      | none => .ok ()
      List.foldlM (fun (dst : List (Typed Bytes items)) element => do
        let item ← fromJsonInto items element s!"{path}[]" (initial items)
        return dst ++ [item]) (clear out) elements
    | _ => setError (Text.utf8 s!"{path}: expected an array")
  | .optional inner, value, path, _ => (fromJsonInto inner value path (initial inner)).map some
def membersInto (name : String) : (fields : List (String × FieldType)) → Value →
    Option (TypedFields Bytes fields) → Except Bytes (TypedFields Bytes fields)
  | [], _, _ => .ok ()
  | (key, type) :: fields, value, out => do
    let x ← readField value key s!"{name}.{key}" fun v =>
      fromJsonInto type v s!"{name}.{key}" (out.map Prod.fst)
    let rest ← membersInto name fields value (out.map Prod.snd)
    return (x, rest)
end

/-! ## what a value must meet -/

def textMeets (format : Option StringFormat) (minLength maxLength : Option Nat) (s : Bytes) : Bool :=
  minLength.all (· ≤ s.length) && maxLength.all (s.length ≤ ·) && format.all fun f => (formatCheck f).1 s

/-- the value is a `std::int64_t` -/
def intMeets (min max : Option Int) (i : Int) : Bool :=
  isInt64 i && min.all (· ≤ i) && max.all (i ≤ ·)

mutual
/-- the declared constraints, as the generated C++ checks them -/
def meets : (type : FieldType) → Typed Bytes type → Bool
  | .string format minLength maxLength, s => textMeets format minLength maxLength s
  | .int min max, i => intMeets min max i
  | .bool, _ => true
  | .enum _, _ => true
  | .struct _ fields, x => meetsFields fields x
  | .array items maxItems, xs => maxItems.all (List.length xs ≤ ·) && List.all xs (meets items)
  | .optional inner, x => Option.all (meets inner) x
def meetsFields : (fields : List (String × FieldType)) → TypedFields Bytes fields → Bool
  | [], _ => true
  | (_, type) :: fields, (x, rest) => meets type x && meetsFields fields rest
end

/-! ## what the object held -/

theorem membersInto_eq {name : String} {fields : List (String × FieldType)}
    (h : ∀ f ∈ fields, ∀ value path out, fromJsonInto f.2 value path out = fromJson f.2 value path)
    (value : Value) (out : Option (TypedFields Bytes fields)) :
    membersInto name fields value out = fromMembers name fields value := by
  induction fields with
  | nil => rfl
  | cons f fields ih =>
    obtain ⟨key, type⟩ := f
    have hread : (fun v => fromJsonInto type v s!"{name}.{key}" (out.map Prod.fst)) =
        fun v => fromJson type v s!"{name}.{key}" := by
      funext v
      exact h _ List.mem_cons_self v _ _
    rw [membersInto, fromMembers, hread, ih fun g hg => h g (List.mem_cons_of_mem _ hg)]

/-- **Independence.** What the object held does not show. -/
theorem fromJsonInto_eq (type : FieldType) (value : Value) (path : String)
    (out : Option (Typed Bytes type)) : fromJsonInto type value path out = fromJson type value path := by
  induction type using FieldType.induct generalizing value path with
  | string format minLength maxLength => rfl
  | int min max => rfl
  | bool => rfl
  | enum ref => rfl
  | struct name fields ih =>
    cases value with
    | object members =>
      have hmembers := @membersInto_eq name fields ih (.object members) out
      exact congrArg (fun read => rejectUnknownFields members name fields >>= fun _ => read) hmembers
    | _ => rfl
  | array items maxItems ih =>
    cases value with
    | array elements =>
      have hloop : List.foldlM (fun (dst : List (Typed Bytes items)) element =>
          fromJsonInto items element s!"{path}[]" (initial items) >>= fun item =>
            Except.ok (dst ++ [item])) (clear out) elements =
          elements.mapM fun element => fromJson items element s!"{path}[]" := by
        rw [Check.foldlM_push]
        simp only [ih]
        cases elements.mapM fun element => fromJson items element s!"{path}[]" with
        | error e => rfl
        | ok xs => rfl
      cases maxItems with
      | none => exact hloop
      | some n =>
        exact congrArg (fun read => checkThat (elements.length ≤ n)
          (Text.utf8 s!"{path}: holds more than {n} items") >>= fun _ => read) hloop
    | _ => rfl
  | optional inner ih =>
    show (fromJsonInto inner value path (initial inner)).map some = _
    rw [ih]
    rfl

/-! ## what is read back -/

mutual
/-- the fields of a struct have different names, and only a field is optional -/
def regular : FieldType → Bool
  | .struct _ fields => decide (fields.map Prod.fst).Nodup && regularFields fields
  | .array items _ => !items.isOptional && regular items
  | .optional inner => !inner.isOptional && regular inner
  | _ => true
def regularFields : List (String × FieldType) → Bool
  | [] => true
  | (_, type) :: fields => regular type && regularFields fields
end

/-- the JSON value of a field that is there: not null, fit for a text, and read as `x` -/
structure Encodes (type : FieldType) (x : Typed Bytes type) (v : Value) : Prop where
  there : v.isNull = false
  plain : ∀ room, type.depth < room → Plain room v
  read : ∀ path, fromJson type v path = .ok x

/-- the members that the fields of a struct add to `object` -/
structure Adds (fields : List (String × FieldType)) (x : TypedFields Bytes fields)
    (object members : List (Bytes × Value)) : Prop where
  sorted : members.Pairwise fun a b => Value.less a.1 b.1 = true
  known : ∀ m ∈ members, m ∈ object ∨
    ∃ f ∈ fields, m.1 = Text.utf8 f.1 ∧ ∀ room, f.2.depth < room → Plain room m.2
  kept : ∀ key, (∀ f ∈ fields, key ≠ Text.utf8 f.1) →
    Value.lookup key members = Value.lookup key object
  read : ∀ name, fromMembers name fields (.object members) = .ok x

theorem plain_leaf {v : Value} (h : ∀ room, Plain (room + 1) v) (n : Nat) :
    ∀ room, n < room → Plain room v := by
  intro room hroom
  obtain ⟨k, rfl⟩ : ∃ k, room = k + 1 := ⟨room - 1, by omega⟩
  exact h k

theorem encodes_string {format : Option StringFormat} {minLength maxLength : Option Nat} {s : Bytes}
    (h : textMeets format minLength maxLength s = true) :
    Encodes (.string format minLength maxLength) s (.string s) where
  there := rfl
  plain := plain_leaf (fun room => .string room s) _
  read path := by
    have hcheck : stringCheck s path format minLength maxLength = .ok () := by
      rw [textMeets, Bool.and_eq_true, Bool.and_eq_true, Option.all_eq_true, Option.all_eq_true,
        Option.all_eq_true] at h
      refine stringCheck_ok.mpr ⟨fun n hn => ?_, fun n hn => ?_, fun f hf => h.2 f hf⟩
      · exact of_decide_eq_true (h.1.1 n hn)
      · exact of_decide_eq_true (h.1.2 n hn)
    show (stringCheck s path format minLength maxLength >>= fun _ => .ok s) = .ok s
    rw [hcheck]
    rfl

theorem encodes_int {min max : Option Int} {i : Int} (h : intMeets min max i = true) :
    Encodes (.int min max) i (.int i) where
  there := rfl
  plain := by
    rw [intMeets, Bool.and_eq_true, Bool.and_eq_true] at h
    exact plain_leaf (fun room => .int room h.1.1) _
  read path := by
    have hcheck : intCheck i path min max = .ok () := by
      rw [intMeets, Bool.and_eq_true, Bool.and_eq_true, Option.all_eq_true, Option.all_eq_true] at h
      refine intCheck_ok.mpr ⟨fun m hm => ?_, fun m hm => ?_⟩
      · exact of_decide_eq_true (h.1.2 m hm)
      · exact of_decide_eq_true (h.2 m hm)
    show (intCheck i path min max >>= fun _ => .ok i) = .ok i
    rw [hcheck]
    rfl

theorem fromWire_utf8 (ref : EnumDef) (e : { value : String // value ∈ ref.values }) :
    fromWire ref (Text.utf8 e.1) = some e := by
  cases hwire : fromWire ref (Text.utf8 e.1) with
  | none =>
    have hsome := fromWire_isSome.mpr ⟨e.1, e.2, rfl⟩
    rw [hwire] at hsome
    cases hsome
  | some d =>
    have hd := List.find?_some hwire
    exact congrArg some (Subtype.ext (Text.utf8_injective (beq_iff_eq.mp hd)))

theorem encodes_enum (ref : EnumDef) (e : { value : String // value ∈ ref.values }) :
    Encodes (.enum ref) e (.string (Text.utf8 e.1)) where
  there := rfl
  plain := plain_leaf (fun room => .string room _) _
  read path := by
    rw [fromJson.eq_def]
    dsimp only
    rw [fromWire_utf8]

section
variable {type : FieldType} {value : Value} {key path : String} {x : Typed Bytes type}
  {read : Value → Except Bytes (Typed Bytes type)}

theorem readField_absent (hx : absent type x = true) (hfind : value.find (Text.utf8 key) = none) :
    readField value key path read = .ok x := by
  cases type with
  | optional inner =>
    have hnone : x = (none : Option (Typed Bytes inner)) := Option.isNone_iff_eq_none.mp hx
    unfold readField
    rw [hfind, hnone]
    rfl
  | _ => cases hx

theorem readField_there {v : Value} (hfind : value.find (Text.utf8 key) = some v)
    (hv : v.isNull = false) (hread : read v = .ok x) : readField value key path read = .ok x := by
  unfold readField
  rw [hfind]
  cases Typed.missing Bytes type with
  | none =>
    dsimp only
    rw [hv]
    exact hread
  | some y =>
    dsimp only
    rw [hv]
    exact hread

end

/-- **Fields.** If the fields are read back one by one, so are all of them together. -/
theorem adds {fields : List (String × FieldType)}
    (hfields : ∀ f ∈ fields, ∀ x, meets f.2 x = true → absent f.2 x = false →
      ∃ v, toJson f.2 x = some v ∧ Encodes f.2 x v)
    (hnodup : (fields.map Prod.fst).Nodup) {x : TypedFields Bytes fields}
    (hx : meetsFields fields x = true) {object : List (Bytes × Value)}
    (hsorted : object.Pairwise fun a b => Value.less a.1 b.1 = true)
    (hfresh : ∀ f ∈ fields, Value.lookup (Text.utf8 f.1) object = none) :
    ∃ members, toMembers fields x object = some members ∧ Adds fields x object members := by
  induction fields generalizing object with
  | nil => exact ⟨object, rfl, hsorted, fun m hm => Or.inl hm, fun _ _ => rfl, fun _ => rfl⟩
  | cons f fields ih =>
    obtain ⟨key, type⟩ := f
    obtain ⟨y, rest⟩ := x
    obtain ⟨hkey, hnodup⟩ := List.nodup_cons.mp hnodup
    obtain ⟨hy, hrest⟩ := Bool.and_eq_true_iff.mp hx
    have hother : ∀ f ∈ fields, Text.utf8 key ≠ Text.utf8 f.1 := by
      intro f hf h
      exact hkey (List.mem_map.mpr ⟨f, hf, (Text.utf8_injective h).symm⟩)
    have hfields' := fun f hf => hfields f (List.mem_cons_of_mem _ hf)
    by_cases habsent : absent type y = true
    · obtain ⟨members, hmembers, hadds⟩ := ih hfields' hnodup hrest hsorted
        fun f hf => hfresh f (List.mem_cons_of_mem _ hf)
      refine ⟨members, ?_, hadds.sorted, fun m hm => ?_, fun k hk => ?_, fun name => ?_⟩
      · rw [toMembers, if_pos habsent]
        exact hmembers
      · refine (hadds.known m hm).imp_right fun ⟨f, hf, h⟩ => ⟨f, List.mem_cons_of_mem _ hf, h⟩
      · exact hadds.kept k fun f hf => hk f (List.mem_cons_of_mem _ hf)
      · have hfind : (Value.object members).find (Text.utf8 key) = none := by
          show Value.lookup (Text.utf8 key) members = none
          rw [hadds.kept _ hother]
          exact hfresh (key, type) List.mem_cons_self
        rw [fromMembers, readField_absent habsent hfind, hadds.read name]
        rfl
    · obtain ⟨v, hv, hencodes⟩ := hfields _ List.mem_cons_self y hy (Bool.not_eq_true _ ▸ habsent)
      have hlookup := Value.lookup_insertOrAssign (Text.utf8 key)
      obtain ⟨members, hmembers, hadds⟩ := ih hfields' hnodup hrest
        (Value.insertOrAssign_sorted (Text.utf8 key) v hsorted) fun f hf => by
          rw [hlookup, if_neg (hother f hf).symm]
          exact hfresh f (List.mem_cons_of_mem _ hf)
      refine ⟨members, ?_, hadds.sorted, fun m hm => ?_, fun k hk => ?_, fun name => ?_⟩
      · rw [toMembers, if_neg habsent, hv]
        exact hmembers
      · rcases hadds.known m hm with hm | ⟨f, hf, h⟩
        · rcases Value.mem_insertOrAssign hm with rfl | hm
          · exact Or.inr ⟨_, List.mem_cons_self, rfl, hencodes.plain⟩
          · exact Or.inl hm
        · exact Or.inr ⟨f, List.mem_cons_of_mem _ hf, h⟩
      · rw [hadds.kept k fun f hf => hk f (List.mem_cons_of_mem _ hf), hlookup,
          if_neg (hk _ List.mem_cons_self)]
      · have hfind : (Value.object members).find (Text.utf8 key) = some v := by
          show Value.lookup (Text.utf8 key) members = some v
          rw [hadds.kept _ hother, hlookup, if_pos rfl]
        rw [fromMembers, readField_there hfind hencodes.there (hencodes.read _), hadds.read name]
        rfl

theorem regularFields_iff {fields : List (String × FieldType)} :
    regularFields fields = true ↔ ∀ f ∈ fields, regular f.2 = true := by
  induction fields with
  | nil => exact ⟨fun _ _ hf => absurd hf List.not_mem_nil, fun _ => rfl⟩
  | cons f fields ih => rw [regularFields, Bool.and_eq_true, ih, List.forall_mem_cons]

theorem absent_of_required {type : FieldType} (h : type.isOptional = false) (x : Typed Bytes type) :
    absent type x = false := by
  cases type with
  | optional inner => cases h
  | _ => rfl

/-- the items of an array are read back one by one -/
theorem items_back {items : FieldType}
    (h : ∀ x, meets items x = true → ∃ v, toJson items x = some v ∧ Encodes items x v)
    {xs : List (Typed Bytes items)} (hxs : ∀ x ∈ xs, meets items x = true) :
    ∃ vs, xs.mapM (toJson items) = some vs ∧ vs.length = xs.length ∧
      (∀ v ∈ vs, ∀ room, items.depth < room → Plain room v) ∧
      ∀ path, (vs.mapM fun v => fromJson items v path) = .ok xs := by
  induction xs with
  | nil => exact ⟨[], rfl, rfl, fun v hv => absurd hv List.not_mem_nil, fun _ => rfl⟩
  | cons x xs ih =>
    rw [List.forall_mem_cons] at hxs
    obtain ⟨v, hv, hencodes⟩ := h x hxs.1
    obtain ⟨vs, hvs, hlength, hplain, hread⟩ := ih hxs.2
    refine ⟨v :: vs, ?_, by rw [List.length_cons, hlength, List.length_cons],
      List.forall_mem_cons.mpr ⟨hencodes.plain, hplain⟩, fun path => ?_⟩
    · rw [List.mapM_cons, hv, hvs]
      rfl
    · rw [List.mapM_cons, hencodes.read path, hread path]
      rfl

/-- **Round trip.** A value that meets its constraints is read back from its JSON value. -/
theorem encodes {type : FieldType} (hregular : regular type = true) (x : Typed Bytes type)
    (hx : meets type x = true) (hthere : absent type x = false) :
    ∃ v, toJson type x = some v ∧ Encodes type x v := by
  induction type using FieldType.induct with
  | string format minLength maxLength => exact ⟨_, rfl, encodes_string hx⟩
  | int min max => exact ⟨_, rfl, encodes_int hx⟩
  | bool => exact ⟨_, rfl, rfl, plain_leaf (fun room => .bool room x) _, fun _ => rfl⟩
  | enum ref => exact ⟨_, rfl, encodes_enum ref x⟩
  | struct name fields ih =>
    obtain ⟨hnodup, hfields⟩ := Bool.and_eq_true_iff.mp hregular
    obtain ⟨members, hmembers, hadds⟩ := adds
      (fun f hf y => ih f hf (regularFields_iff.mp hfields f hf) y) (of_decide_eq_true hnodup) hx
      List.Pairwise.nil fun _ _ => rfl
    refine ⟨.object members, by rw [toJson, hmembers]; rfl, rfl, fun room hroom => ?_, fun path => ?_⟩
    · rw [FieldType.depth] at hroom
      obtain ⟨k, rfl⟩ : ∃ k, room = k + 1 := ⟨room - 1, by omega⟩
      refine .object (fun m hm => ?_) hadds.sorted
      obtain hm | ⟨f, hf, _, hplain⟩ := hadds.known m hm
      · cases hm
      · have hdepth := depth_le_fields hf
        exact hplain k (by omega)
    · have hknown : rejectUnknownFields members name fields = .ok () := by
        refine rejectUnknownFields_ok.mpr fun m hm => ?_
        obtain hm | ⟨f, hf, hkey, _⟩ := hadds.known m hm
        · cases hm
        · exact ⟨f, hf, hkey⟩
      show (rejectUnknownFields members name fields >>= fun _ =>
        fromMembers name fields (.object members)) = .ok x
      rw [hknown]
      exact hadds.read name
  | array items maxItems ih =>
    obtain ⟨hrequired, hitems⟩ := Bool.and_eq_true_iff.mp hregular
    obtain ⟨hmax, hall⟩ := Bool.and_eq_true_iff.mp hx
    rw [Bool.not_eq_true'] at hrequired
    obtain ⟨vs, hvs, hlength, hplain, hread⟩ := items_back
      (fun y hy => ih hitems y hy (absent_of_required hrequired y))
      (List.all_eq_true.mp hall)
    refine ⟨.array vs, congrArg (Option.map Value.array) hvs, rfl, fun room hroom => ?_, fun path => ?_⟩
    · rw [FieldType.depth] at hroom
      obtain ⟨k, rfl⟩ : ∃ k, room = k + 1 := ⟨room - 1, by omega⟩
      exact .array fun v hv => hplain v hv k (by omega)
    · cases maxItems with
      | none => exact hread _
      | some n =>
        have hlen : checkThat (vs.length ≤ n) (Text.utf8 s!"{path}: holds more than {n} items") = .ok () := by
          rw [checkThat_ok, hlength]
          exact hmax
        show (checkThat (vs.length ≤ n) (Text.utf8 s!"{path}: holds more than {n} items") >>=
          fun _ => vs.mapM fun v => fromJson items v s!"{path}[]") = .ok x
        rw [hlen]
        exact hread _
  | optional inner ih =>
    obtain ⟨hrequired, hinner⟩ := Bool.and_eq_true_iff.mp hregular
    obtain ⟨y, hy⟩ : ∃ y, x = (some y : Option (Typed Bytes inner)) :=
      Option.isSome_iff_exists.mp (Option.isNone_eq_false_iff.mp hthere)
    subst hy
    rw [Bool.not_eq_true'] at hrequired
    obtain ⟨v, hv, hencodes⟩ := ih hinner y hx (absent_of_required hrequired y)
    refine ⟨v, hv, hencodes.there, hencodes.plain, fun path => ?_⟩
    show (fromJson inner v path).map some = _
    rw [hencodes.read path]
    rfl

/-! ## the messages -/

theorem registry_regular : (Schema.registry.all fun type =>
    regular type && !type.isOptional && decide (type.depth < 33)) = true := by decide

/-- **Round trip.** A message that meets its constraints comes back from its text, whatever the object it
is read into held. -/
theorem decode_encode (D : Doubles) {type : FieldType} (htype : type ∈ Schema.registry)
    {x : Typed Bytes type} (hx : meets type x = true) (out : Typed Bytes type) :
    ∃ v, toJson type x = some v ∧ parse D (serialize D v) = .ok v ∧
      fromJsonInto type v "" (some out) = .ok x := by
  have hall := List.all_eq_true.mp registry_regular type htype
  rw [Bool.and_eq_true, Bool.and_eq_true, Bool.not_eq_true'] at hall
  obtain ⟨⟨hregular, hrequired⟩, hdepth⟩ := hall
  obtain ⟨v, hv, hencodes⟩ := encodes hregular x hx (absent_of_required hrequired x)
  refine ⟨v, hv, parse_serialize D (hencodes.plain 33 (of_decide_eq_true hdepth)), ?_⟩
  rw [fromJsonInto_eq]
  exact hencodes.read ""

/-- a library that is not asked about doubles -/
def noDoubles : Doubles := ⟨fun _ => [], fun _ => none⟩

/-- with a quote, a control character and a byte that is no UTF-8 in a text -/
def knownTpm : Typed Bytes Schema.TpmInfo :=
  (true, some ([73, 34, 7, 255] : Bytes), (none : Option Bytes), some (Text.utf8 "00ff"), ())

def otherTpm : Typed Bytes Schema.TpmInfo :=
  (false, (none : Option Bytes), some (Text.utf8 "2.0"), (none : Option Bytes), ())

/-- the `specVersion` that the object held is gone -/
theorem decode_encode_tpm : ∃ v, toJson Schema.TpmInfo knownTpm = some v ∧
    parse noDoubles (serialize noDoubles v) = .ok v ∧
      fromJsonInto Schema.TpmInfo v "" (some otherTpm) = .ok knownTpm := by
  have hmem : Schema.TpmInfo ∈ Schema.registry := by simp [Schema.registry]
  exact decode_encode noDoubles hmem (by decide) otherTpm

end Protocol.Cpp
