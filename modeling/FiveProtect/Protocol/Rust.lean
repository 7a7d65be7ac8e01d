import FiveProtect.Lib.Check
import FiveProtect.Protocol.Conforms
import FiveProtect.Protocol.Typed
import FiveProtect.Protocol.Zod

/-!
# Protocol: the generated Rust messages

`packages/protocol/src/generators/rust.ts`: what `serde_json` decodes into the generated structs, and
their `validate`.

* `Rust.decode`    `#[derive(Deserialize)]` with `deny_unknown_fields`; a struct may also be an array of
                   its fields in order, and an enumerator an object with its name and `null`, as serde
                   takes them; it takes no escape of half a surrogate pair;
* `Rust.validate`  the emitted statements, with the texts of their errors;
* `accepts_struct`, `accepts_array`, ...   what is accepted, one field type at a time.
-/

namespace Protocol.Rust
open Zod (isDigit isHex isAlnum)

/-! ## serde -/

/-- `serde_json::from_str` for a name of the enum -/
def variant (ref : EnumDef) (name : String) : Option { value : String // value ∈ ref.values } :=
  if h : name ∈ ref.values then some ⟨name, h⟩ else none

mutual
def decode : (type : FieldType) → Json → Option (Typed String type)
  | .string _ _ _, j => j.str?
  | .int _ _, j =>
    match j with
    | .num (.int i) => if isInt64 i then some i else none
    | _ => none
  | .bool, j => j.bool?
  | .enum ref, j =>
    match j with
    | .str name => variant ref name
    | .obj [(name, .null)] => variant ref name
    | _ => none
  | .struct _ fields, j =>
    match j with
    | .obj members =>
      if members.all fun m => (fields.map Prod.fst).contains m.1 then
        decodeMembers fields (.obj members)
      else none
    | .arr items => decodeSeq fields items
    | _ => none
  | .array items _, j => j.arr?.bind fun xs => xs.mapM (decode items)
  | .optional inner, j =>
    match j with
    | .null => some none
    | j => (decode inner j).map some
/-- the fields from the members of an object -/
def decodeMembers : (fields : List (String × FieldType)) → Json → Option (TypedFields String fields)
  | [], _ => some ()
  | (key, type) :: fields, j => do
    let x ← match j.get? key with
      | some v => decode type v
      | none => Typed.missing String type
    let rest ← decodeMembers fields j
    return (x, rest)
/-- the fields from the items of an array -/
def decodeSeq : (fields : List (String × FieldType)) → List Json → Option (TypedFields String fields)
  | [], [] => some ()
  | [], _ :: _ => none
  | (_, type) :: fields, v :: items => do
    let x ← decode type v
    let rest ← decodeSeq fields items
    return (x, rest)
  | (_, type) :: fields, [] => do
    let x ← Typed.missing String type
    let rest ← decodeSeq fields []
    return (x, rest)
end

/-! ## mod check -/

abbrev Check := Except String Unit

def checkThat (ok : Bool) (message : String) : Check := if ok then .ok () else .error message

def length (value path : String) (min max : Option Nat) : Check := do
  match min with
  | some min => checkThat (min ≤ Text.utf8Length value) s!"{path}: shorter than {min} characters"
  | none => .ok ()
  match max with
  | some max => checkThat (Text.utf8Length value ≤ max) s!"{path}: longer than {max} characters"
  | none => .ok ()

def range (value : Int) (path : String) (min max : Option Int) : Check := do
  match min with
  | some min => checkThat (min ≤ value) s!"{path}: below the minimum of {min}"
  | none => .ok ()
  match max with
  | some max => checkThat (value ≤ max) s!"{path}: above the maximum of {max}"
  | none => .ok ()

def maxItems (count : Nat) (path : String) (max : Nat) : Check :=
  checkThat (count ≤ max) s!"{path}: holds more than {max} items"

def hex (value : String) : Bool := value.toList.all isHex

def base64 (value : String) : Bool :=
  value.toList.all fun c => isAlnum c || c == '+' || c == '/' || c == '='

def ip (value : String) : Bool :=
  !value.toList.isEmpty && value.toList.all fun c => isHex c || c == '.' || c == ':'

def uuid (value : String) : Bool := uuidShaped (Text.utf8 value)

def datetime (value : String) : Bool := datetimeShaped (Text.utf8 value)

/-- not empty, and digits only -/
def numeric (part : List Char) : Bool := !part.isEmpty && part.all isDigit

/-- the part of `value.split(['-', '+']).next()` -/
def release (value : String) : List Char := value.toList.takeWhile fun c => !(c == '-' || c == '+')

/-- the first three parts between dots; what follows the third dot is not looked at -/
def semver (value : String) : Bool :=
  match (release value).splitOnP (· == '.') with
  | major :: minor :: patch :: _ => numeric major && numeric minor && numeric patch
  | _ => false

/-- `FORMAT_FUNCTIONS`, and what the value does not look like if the check fails -/
def format : StringFormat → (String → Bool) × String
  | .uuid => (uuid, "a UUID")
  | .hex => (hex, "hex")
  | .base64 => (base64, "base64")
  | .ip => (ip, "an IP address")
  | .datetime => (datetime, "an ISO 8601 timestamp")
  | .semver => (semver, "a semantic version")

def looksLike (value path : String) (f : StringFormat) : Check :=
  checkThat ((format f).1 value) s!"{path}: does not look like {(format f).2}"

/-! ## validate -/

mutual
/-- `validationStatements`, and `validate` of a struct -/
def validate : (type : FieldType) → Typed String type → String → Check
  | .string f minLength maxLength, value, path => do
    length value path minLength maxLength
    match f with
    | some f => looksLike value path f
    | none => .ok ()
  | .int min max, value, path => range value path min max
  | .bool, _, _ => .ok ()
  | .enum _, _, _ => .ok ()
  | .struct name fields, value, _ => validateFields name fields value
  | .array items max, value, path => do
    match max with
    | some max => maxItems value.length path max
    | none => .ok ()
    value.forM fun item => validate items item s!"{path}[]"
  | .optional inner, value, path =>
    match value with
    | some value => validate inner value path
    | none => .ok ()
def validateFields (name : String) :
    (fields : List (String × FieldType)) → TypedFields String fields → Check
  | [], _ => .ok ()
  | (key, type) :: fields, (value, rest) => do
    validate type value s!"{name}.{key}"
    validateFields name fields rest
end

/-- what decodes and passes `validate` -/
def accepts (type : FieldType) (j : Json) : Bool :=
  (decode type j).any fun value => (validate type value "").isOk

/-! ## what is accepted -/

theorem checkThat_ok {ok : Bool} {message : String} : checkThat ok message = .ok () ↔ ok = true := by
  cases ok with
  | true => exact ⟨fun _ => rfl, fun _ => rfl⟩
  | false => exact ⟨fun h => (by cases h), fun h => (by cases h)⟩

theorem length_ok {value path : String} {min max : Option Nat} :
    length value path min max = .ok () ↔ (∀ n, min = some n → n ≤ Text.utf8Length value) ∧
      ∀ n, max = some n → Text.utf8Length value ≤ n := by
  unfold length
  cases min with
  | none =>
    cases max with
    | none => simp [Check.bind_ok]
    | some n => simp [checkThat_ok, Check.bind_ok]
  | some m =>
    cases max with
    | none => simp [checkThat_ok, Check.bind_ok]
    | some n => simp [checkThat_ok, Check.bind_ok]

theorem range_ok {value : Int} {path : String} {min max : Option Int} :
    range value path min max = .ok () ↔ (∀ m, min = some m → m ≤ value) ∧
      ∀ m, max = some m → value ≤ m := by
  unfold range
  cases min with
  | none =>
    cases max with
    | none => simp [Check.bind_ok]
    | some n => simp [checkThat_ok, Check.bind_ok]
  | some m =>
    cases max with
    | none => simp [checkThat_ok, Check.bind_ok]
    | some n => simp [checkThat_ok, Check.bind_ok]

theorem validate_string {f : Option StringFormat} {min max : Option Nat} {value path : String} :
    validate (.string f min max) value path = .ok () ↔
      ((∀ n, min = some n → n ≤ Text.utf8Length value) ∧
        ∀ n, max = some n → Text.utf8Length value ≤ n) ∧
      ∀ g, f = some g → (format g).1 value = true := by
  cases f with
  | none =>
    show (length value path min max >>= fun _ => .ok ()) = .ok () ↔ _
    rw [Check.bind_ok, length_ok]
    simp
  | some f =>
    show (length value path min max >>= fun _ => looksLike value path f) = .ok () ↔ _
    rw [Check.bind_ok, length_ok]
    simp [looksLike, checkThat_ok]

theorem validate_int {min max : Option Int} {value : Int} {path : String} :
    validate (.int min max) value path = .ok () ↔ (∀ m, min = some m → m ≤ value) ∧
      ∀ m, max = some m → value ≤ m :=
  range_ok

theorem validate_array {items : FieldType} {max : Option Nat}
    {value : List (Typed String items)} {path : String} :
    validate (.array items max) value path = .ok () ↔
      (∀ n, max = some n → value.length ≤ n) ∧
        ∀ item ∈ value, validate items item s!"{path}[]" = .ok () := by
  cases max with
  | none =>
    show (Except.ok () >>= fun _ => value.forM fun item => validate items item s!"{path}[]") =
      .ok () ↔ _
    rw [Check.bind_ok, Check.forM_ok]
    simp
  | some n =>
    show (maxItems value.length path n >>= fun _ =>
      value.forM fun item => validate items item s!"{path}[]") = .ok () ↔ _
    rw [Check.bind_ok, Check.forM_ok]
    simp [maxItems, checkThat_ok]

theorem validateFields_cons {name key : String} {type : FieldType}
    {fields : List (String × FieldType)} {value : Typed String type}
    {rest : TypedFields String fields} : validateFields name ((key, type) :: fields) (value, rest) =
      .ok () ↔ validate type value s!"{name}.{key}" = .ok () ∧
        validateFields name fields rest = .ok () := by
  rw [validateFields, Check.bind_ok]

/-- the path is in the message only -/
theorem validate_path {type : FieldType} {value : Typed String type} {p : String}
    (h : validate type value p = .ok ()) (q : String) : validate type value q = .ok () := by
  induction type using FieldType.induct generalizing p q with
  | string f min max => exact validate_string.mpr (validate_string.mp h)
  | int min max => exact validate_int.mpr (validate_int.mp h)
  | bool => rw [validate]
  | enum ref => rw [validate]
  | struct name fields _ =>
    rw [validate] at h
    rwa [validate]
  | array items max ih =>
    obtain ⟨hlen, hitems⟩ := validate_array.mp h
    exact validate_array.mpr ⟨hlen, fun item hitem => ih (hitems item hitem) _⟩
  | optional inner ih =>
    cases value with
    | none => rw [validate]
    | some value =>
      rw [validate] at h ⊢
      exact ih h q

theorem accepts_iff {type : FieldType} {j : Json} : accepts type j = true ↔
    ∃ value, decode type j = some value ∧ ∀ path, validate type value path = .ok () := by
  rw [accepts, Option.any_eq_true]
  constructor
  · rintro ⟨value, hdecode, h⟩
    obtain ⟨⟨⟩, h⟩ := Check.isOk_iff.mp h
    exact ⟨value, hdecode, validate_path h⟩
  · rintro ⟨value, hdecode, h⟩
    exact ⟨value, hdecode, Check.isOk_iff.mpr ⟨(), h ""⟩⟩

theorem missing_iff {type : FieldType} :
    (∃ value, Typed.missing String type = some value ∧ ∀ path, validate type value path = .ok ()) ↔
      type.isOptional = true := by
  cases type with
  | optional inner =>
    refine ⟨fun _ => rfl, fun _ => ⟨none, rfl, fun path => ?_⟩⟩
    rw [validate]
  | _ =>
    constructor
    · rintro ⟨value, hvalue, _⟩
      cases hvalue
    · intro h
      cases h

/-- the fields of a struct from the members of an object -/
theorem members_iff {fields : List (String × FieldType)} {j : Json} (name : String) :
    (∃ values, decodeMembers fields j = some values ∧ validateFields name fields values = .ok ()) ↔
      ∀ f ∈ fields, HasField (fun t v => accepts t v = true) j f := by
  induction fields with
  | nil => exact ⟨fun _ _ hf => absurd hf List.not_mem_nil, fun _ => ⟨(), rfl, rfl⟩⟩
  | cons f fields ih =>
    obtain ⟨key, type⟩ := f
    have hfirst : HasField (fun t v => accepts t v = true) j (key, type) ↔
        ∃ value, (j.get? key).elim (Typed.missing String type) (decode type) = some value ∧
          ∀ path, validate type value path = .ok () := by
      unfold HasField
      cases hget : j.get? key with
      | none => simp [missing_iff]
      | some v => simp [accepts_iff]
    have hdecode : decodeMembers ((key, type) :: fields) j =
        ((j.get? key).elim (Typed.missing String type) (decode type)).bind fun value =>
          (decodeMembers fields j).bind fun rest => some (value, rest) := by
      rw [decodeMembers]
      cases j.get? key with
      | none => rfl
      | some v => rfl
    rw [List.forall_mem_cons, ← ih, hfirst, hdecode]
    constructor
    · rintro ⟨values, hvalues, hok⟩
      obtain ⟨value, hvalue, hvalues⟩ := Option.bind_eq_some_iff.mp hvalues
      obtain ⟨rest, hrest, hvalues⟩ := Option.bind_eq_some_iff.mp hvalues
      cases hvalues
      rw [validateFields, Check.bind_ok] at hok
      exact ⟨⟨value, hvalue, validate_path hok.1⟩, ⟨rest, hrest, hok.2⟩⟩
    · rintro ⟨⟨value, hvalue, hok⟩, ⟨rest, hrest, hoks⟩⟩
      refine ⟨(value, rest), ?_, ?_⟩
      · rw [hvalue, hrest]
        rfl
      · rw [validateFields, Check.bind_ok]
        exact ⟨hok _, hoks⟩

theorem decode_struct (name : String) (fields : List (String × FieldType))
    (members : List (String × Json)) : decode (.struct name fields) (.obj members) =
      if members.all fun m => (fields.map Prod.fst).contains m.1 then
        decodeMembers fields (.obj members)
      else none := rfl

theorem decode_optional {inner : FieldType} {j : Json} (h : j ≠ .null) :
    decode (.optional inner) j = (decode inner j).map some := by
  cases j with
  | null => exact absurd rfl h
  | _ => rfl

/-- an object is taken if it has no other members and each declared one is taken -/
theorem accepts_struct {name : String} {fields : List (String × FieldType)}
    {members : List (String × Json)} : accepts (.struct name fields) (.obj members) = true ↔
      (∀ m ∈ members, m.1 ∈ fields.map Prod.fst) ∧
        ∀ f ∈ fields, HasField (fun t v => accepts t v = true) (.obj members) f := by
  rw [accepts_iff, ← members_iff name, decode_struct]
  by_cases h : ∀ m ∈ members, m.1 ∈ fields.map Prod.fst
  · rw [if_pos (by simpa only [List.all_eq_true, List.contains_iff_mem] using h)]
    constructor
    · rintro ⟨values, hvalues, hok⟩
      exact ⟨h, values, hvalues, hok ""⟩
    · rintro ⟨_, values, hvalues, hok⟩
      exact ⟨values, hvalues, fun _ => hok⟩
  · rw [if_neg (by simpa only [List.all_eq_true, List.contains_iff_mem] using h)]
    constructor
    · rintro ⟨values, hvalues, _⟩
      cases hvalues
    · intro hall
      exact absurd hall.1 h

theorem accepts_array {items : FieldType} {max : Option Nat} {xs : List Json} :
    accepts (.array items max) (.arr xs) = true ↔
      (∀ n, max = some n → xs.length ≤ n) ∧ ∀ x ∈ xs, accepts items x = true := by
  have hitems : (∀ x ∈ xs, accepts items x = true) ↔ ∃ ys, xs.mapM (decode items) = some ys ∧
      ∀ y ∈ ys, ∀ path, validate items y path = .ok () := by
    rw [Check.mapM_some]
    simp only [accepts_iff]
  rw [accepts_iff, hitems]
  constructor
  · rintro ⟨ys, hys, hok⟩
    have hlen := Check.mapM_length hys
    obtain ⟨hmax, hall⟩ := validate_array.mp (hok "")
    rw [hlen] at hmax
    exact ⟨hmax, ys, hys, fun y hy => validate_path (hall y hy)⟩
  · rintro ⟨hmax, ys, hys, hall⟩
    rw [← Check.mapM_length hys] at hmax
    exact ⟨ys, hys, fun path => validate_array.mpr ⟨hmax, fun y hy => hall y hy _⟩⟩

theorem accepts_optional {inner : FieldType} {j : Json} :
    accepts (.optional inner) j = true ↔ j = .null ∨ accepts inner j = true := by
  by_cases hnull : j = .null
  · rw [hnull, accepts_iff]
    exact ⟨fun _ => Or.inl rfl, fun _ => ⟨none, rfl, fun _ => rfl⟩⟩
  · rw [accepts_iff, accepts_iff, decode_optional hnull, or_iff_right hnull]
    constructor
    · rintro ⟨value, hvalue, hok⟩
      obtain ⟨inside, hinside, rfl⟩ := Option.map_eq_some_iff.mp hvalue
      exact ⟨inside, hinside, hok⟩
    · rintro ⟨inside, hinside, hok⟩
      refine ⟨some inside, ?_, hok⟩
      rw [hinside]
      rfl

theorem accepts_string {f : Option StringFormat} {min max : Option Nat} {s : String} :
    accepts (.string f min max) (.str s) = true ↔
      ((∀ n, min = some n → n ≤ Text.utf8Length s) ∧ ∀ n, max = some n → Text.utf8Length s ≤ n) ∧
        ∀ g, f = some g → (format g).1 s = true := by
  rw [accepts_iff]
  constructor
  · rintro ⟨value, hvalue, hok⟩
    cases hvalue
    exact validate_string.mp (hok "")
  · intro h
    exact ⟨s, rfl, fun _ => validate_string.mpr h⟩

theorem accepts_enum {ref : EnumDef} {name : String} (h : name ∈ ref.values) :
    accepts (.enum ref) (.str name) = true := by
  rw [accepts_iff]
  exact ⟨⟨name, h⟩, dif_pos h, fun _ => rfl⟩

theorem accepts_int {min max : Option Int} {n : JsonNumber} :
    accepts (.int min max) (.num n) = true ↔ ∃ i, n = .int i ∧ isInt64 i = true ∧
      (∀ m, min = some m → m ≤ i) ∧ ∀ m, max = some m → i ≤ m := by
  rw [accepts_iff]
  cases n with
  | int i =>
    have hdecode : decode (.int min max) (.num (.int i)) = if isInt64 i then some i else none := rfl
    rw [hdecode]
    by_cases hi : isInt64 i = true
    · rw [if_pos hi]
      constructor
      · rintro ⟨value, hvalue, hok⟩
        cases hvalue
        exact ⟨i, rfl, hi, validate_int.mp (hok "")⟩
      · rintro ⟨i', hi', _, hok⟩
        cases hi'
        exact ⟨i, rfl, fun _ => validate_int.mpr hok⟩
    · rw [if_neg hi]
      constructor
      · rintro ⟨value, hvalue, _⟩
        cases hvalue
      · rintro ⟨i', hi', h, _⟩
        cases hi'
        exact absurd h hi
  | _ =>
    constructor
    · rintro ⟨value, hvalue, _⟩
      cases hvalue
    · rintro ⟨i, hi, _⟩
      cases hi

end Protocol.Rust
