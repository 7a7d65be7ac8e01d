import FiveProtect.Lib.Check
import FiveProtect.Protocol.CppValue

/-!
# Protocol: the generated C++ messages

`packages/protocol/src/generators/cpp.ts`: `from_json` of the generated structs, with the texts of its
errors.  A field of an optional type is parsed as the type inside when it is there.

* `struct_ok`, `array_ok`, ...   when a value is taken, one field type at a time.
-/

namespace Protocol.Cpp
open LuaPattern (isDigit isHex byteOf)

abbrev Check := Except Bytes Unit

/-- `set_error` -/
def setError {α : Type} (message : Bytes) : Except Bytes α := .error message

def checkThat (ok : Bool) (message : Bytes) : Check := if ok then .ok () else setError message

/-! ## formats -/

/-- `is_hex_digit` -/
def isHexDigit : UInt8 → Bool := isHex

def isBase64Char (c : UInt8) : Bool :=
  (65 ≤ c && c ≤ 90) || (97 ≤ c && c ≤ 122) || isDigit c || c == byteOf '+' || c == byteOf '/' ||
    c == byteOf '='

def isIpChar (c : UInt8) : Bool := isHexDigit c || c == byteOf '.' || c == byteOf ':'

/-- the loop of `is_semver` -/
def semverLoop : Bytes → Nat → Bool → Bool
  | [], dots, digitInPart => 2 ≤ dots && digitInPart
  | c :: text, dots, digitInPart =>
    if isDigit c then semverLoop text dots true
    else if c = byteOf '.' then
      if !digitInPart then false
      -- the third dot breaks the loop, with no digit after it
      else if 2 < dots + 1 then false
      else semverLoop text (dots + 1) false
    else 2 ≤ dots && digitInPart

def isSemver (text : Bytes) : Bool := semverLoop text 0 false

/-- `emitFormatCheck` -/
def formatCheck : StringFormat → (Bytes → Bool) × String
  | .hex => (fun s => s.all isHexDigit, "hex")
  | .base64 => (fun s => s.all isBase64Char, "base64")
  | .ip => (fun s => s.all isIpChar, "an IP address")
  | .uuid => (uuidShaped, "a UUID")
  | .datetime => (datetimeShaped, "an ISO 8601 timestamp")
  | .semver => (isSemver, "a semantic version")

/-! ## from_json -/

/-- the first constraint a text does not meet -/
def stringCheck (s : Bytes) (path : String) (format : Option StringFormat)
    (minLength maxLength : Option Nat) : Check := do
  match minLength with
  | some n => checkThat (n ≤ s.length) (Text.utf8 s!"{path}: shorter than {n} characters")
  | none => .ok ()
  match maxLength with
  | some n => checkThat (s.length ≤ n) (Text.utf8 s!"{path}: longer than {n} characters")
  | none => .ok ()
  match format with
  | some f =>
    checkThat ((formatCheck f).1 s) (Text.utf8 s!"{path}: does not look like {(formatCheck f).2}")
  | none => .ok ()

def intCheck (i : Int) (path : String) (min max : Option Int) : Check := do
  match min with
  | some m => checkThat (m ≤ i) (Text.utf8 s!"{path}: below the minimum of {m}")
  | none => .ok ()
  match max with
  | some m => checkThat (i ≤ m) (Text.utf8 s!"{path}: above the maximum of {m}")
  | none => .ok ()

/-- `from_wire` -/
def fromWire (ref : EnumDef) (s : Bytes) : Option { value : String // value ∈ ref.values } :=
  ref.values.attach.find? fun value => Text.utf8 value.1 == s

/-- `reject_unknown_fields` -/
def rejectUnknownFields (members : List (Bytes × Value)) (name : String)
    (fields : List (String × FieldType)) : Check :=
  match members.find? fun m => !(fields.map fun f => Text.utf8 f.1).contains m.1 with
  | none => .ok ()
  | some m => setError (Text.utf8 s!"{name}: unexpected field \"" ++ m.1 ++ Text.utf8 "\"")

/-- a field of a struct: an optional one may be absent or null, another one may not -/
def readField {type : FieldType} (value : Value) (key path : String)
    (read : Value → Except Bytes (Typed Bytes type)) : Except Bytes (Typed Bytes type) :=
  match Typed.missing Bytes type, value.find (Text.utf8 key) with
  | some absent, some v => if v.isNull then .ok absent else read v
  | some absent, none => .ok absent
  | none, some v => if v.isNull then setError (Text.utf8 s!"{path}: missing") else read v
  | none, none => setError (Text.utf8 s!"{path}: missing")

mutual
/-- `emitFieldParse`, and `from_json` of a struct -/
def fromJson : (type : FieldType) → Value → String → Except Bytes (Typed Bytes type)
  | .string format minLength maxLength, value, path =>
    match value with
    | .string s => do
      stringCheck s path format minLength maxLength
      return s
    | _ => setError (Text.utf8 s!"{path}: expected a string")
  | .int min max, value, path =>
    match value.asInt with
    | some i => do
      intCheck i path min max
      return i
    | none => setError (Text.utf8 s!"{path}: expected a number")
  | .bool, value, path =>
    match value with
    | .bool b => .ok b
    | _ => setError (Text.utf8 s!"{path}: expected a boolean")
  | .enum ref, value, path =>
    match value with
    | .string s =>
      match fromWire ref s with
      | some e => .ok e
      | none => setError (Text.utf8 s!"{path}: unknown value \"" ++ s ++ Text.utf8 "\"")
    | _ => setError (Text.utf8 s!"{path}: expected a string")
  | .struct name fields, value, _ =>
    match value with
    | .object members => do
      rejectUnknownFields members name fields
      fromMembers name fields (.object members)
    | _ => setError (Text.utf8 s!"{name}: expected an object")
  | .array items maxItems, value, path =>
    match value with
    | .array elements => do
      match maxItems with
      | some n => checkThat (elements.length ≤ n) (Text.utf8 s!"{path}: holds more than {n} items")
      | none => .ok ()
      elements.mapM fun element => fromJson items element s!"{path}[]"
    | _ => setError (Text.utf8 s!"{path}: expected an array")
  | .optional inner, value, path => (fromJson inner value path).map some
def fromMembers (name : String) : (fields : List (String × FieldType)) → Value →
    Except Bytes (TypedFields Bytes fields)
  | [], _ => .ok ()
  | (key, type) :: fields, value => do
    let x ← readField value key s!"{name}.{key}" fun v => fromJson type v s!"{name}.{key}"
    let rest ← fromMembers name fields value
    return (x, rest)
end

/-- what `json::parse` and `from_json` take -/
def accepts (type : FieldType) (j : Json) : Bool :=
  (Value.ofJson 0 j).any fun value => (fromJson type value "").isOk

/-! ## what is accepted -/

theorem checkThat_ok {ok : Bool} {message : Bytes} : checkThat ok message = .ok () ↔ ok = true := by
  cases ok with
  | true => exact ⟨fun _ => rfl, fun _ => rfl⟩
  | false => exact ⟨fun h => (by cases h), fun h => (by cases h)⟩

theorem stringCheck_ok {s : Bytes} {path : String} {format : Option StringFormat}
    {minLength maxLength : Option Nat} :
    stringCheck s path format minLength maxLength = .ok () ↔
      (∀ n, minLength = some n → n ≤ s.length) ∧ (∀ n, maxLength = some n → s.length ≤ n) ∧
        ∀ f, format = some f → (formatCheck f).1 s = true := by
  unfold stringCheck
  cases minLength with
  | none =>
    cases maxLength with
    | none => cases format <;> simp [checkThat_ok, Check.bind_ok]
    | some n => cases format <;> simp [checkThat_ok, Check.bind_ok]
  | some m =>
    cases maxLength with
    | none => cases format <;> simp [checkThat_ok, Check.bind_ok]
    | some n => cases format <;> simp [checkThat_ok, Check.bind_ok]

theorem intCheck_ok {i : Int} {path : String} {min max : Option Int} :
    intCheck i path min max = .ok () ↔
      (∀ m, min = some m → m ≤ i) ∧ ∀ m, max = some m → i ≤ m := by
  unfold intCheck
  cases min with
  | none => cases max <;> simp [checkThat_ok, Check.bind_ok]
  | some m => cases max <;> simp [checkThat_ok, Check.bind_ok]

theorem string_ok {format : Option StringFormat} {minLength maxLength : Option Nat} {s : Bytes}
    {path : String} : (fromJson (.string format minLength maxLength) (.string s) path).isOk = true ↔
      (∀ n, minLength = some n → n ≤ s.length) ∧ (∀ n, maxLength = some n → s.length ≤ n) ∧
        ∀ f, format = some f → (formatCheck f).1 s = true := by
  show (stringCheck s path format minLength maxLength >>= fun _ => .ok s).isOk = true ↔ _
  rw [Check.unit_isOk, stringCheck_ok]
  exact and_iff_left rfl

theorem int_ok {min max : Option Int} {value : Value} {i : Int} (h : value.asInt = some i)
    {path : String} : (fromJson (.int min max) value path).isOk = true ↔
      (∀ m, min = some m → m ≤ i) ∧ ∀ m, max = some m → i ≤ m := by
  have hread : (fromJson (.int min max) value path).isOk =
      (intCheck i path min max >>= fun _ => .ok i).isOk := by
    rw [fromJson.eq_def]
    simp only [h]
    rfl
  rw [hread, Check.unit_isOk, intCheck_ok]
  exact and_iff_left rfl

theorem fromWire_isSome {ref : EnumDef} {s : Bytes} :
    (fromWire ref s).isSome = true ↔ ∃ v ∈ ref.values, Text.utf8 v = s := by
  simp [fromWire, List.find?_isSome]

theorem enum_ok {ref : EnumDef} {s : Bytes} {path : String} :
    (fromJson (.enum ref) (.string s) path).isOk = (fromWire ref s).isSome := by
  rw [fromJson.eq_def]
  cases hwire : fromWire ref s with
  | none =>
    simp only [hwire]
    rfl
  | some e =>
    simp only [hwire]
    rfl

theorem array_ok {items : FieldType} {maxItems : Option Nat} {elements : List Value}
    {path : String} : (fromJson (.array items maxItems) (.array elements) path).isOk = true ↔
      (∀ n, maxItems = some n → elements.length ≤ n) ∧
        ∀ element ∈ elements, (fromJson items element s!"{path}[]").isOk = true := by
  cases maxItems with
  | none =>
    show (Except.ok () >>= fun _ => elements.mapM fun element =>
      fromJson items element s!"{path}[]").isOk = true ↔ _
    rw [Check.unit_isOk]
    simp [Check.mapM_isOk]
  | some n =>
    show (checkThat (elements.length ≤ n) (Text.utf8 s!"{path}: holds more than {n} items") >>=
      fun _ => elements.mapM fun element => fromJson items element s!"{path}[]").isOk = true ↔ _
    rw [Check.unit_isOk]
    simp [Check.mapM_isOk, checkThat_ok]

theorem optional_ok {inner : FieldType} {value : Value} {path : String} :
    (fromJson (.optional inner) value path).isOk = (fromJson inner value path).isOk := by
  show ((fromJson inner value path).map some).isOk = _
  cases fromJson inner value path with
  | error e => rfl
  | ok x => rfl

theorem missing_isSome (type : FieldType) :
    (Typed.missing Bytes type).isSome = type.isOptional := by
  cases type <;> rfl

/-- a field that is null counts as missing -/
theorem readField_ok {type : FieldType} {value : Value} {key path : String}
    {read : Value → Except Bytes (Typed Bytes type)} :
    (readField value key path read).isOk = true ↔
      (∀ v, value.find (Text.utf8 key) = some v →
        v.isNull = true ∧ type.isOptional = true ∨ v.isNull = false ∧ (read v).isOk = true) ∧
      (value.find (Text.utf8 key) = none → type.isOptional = true) := by
  rw [← missing_isSome]
  unfold readField
  cases hmissing : Typed.missing Bytes type with
  | none =>
    cases hfind : value.find (Text.utf8 key) with
    | none => simp [setError, Except.isOk, Except.toBool]
    | some v => cases hnull : v.isNull <;> simp [hnull, setError, Except.isOk, Except.toBool]
  | some absent =>
    cases hfind : value.find (Text.utf8 key) with
    | none => simp [Except.isOk, Except.toBool]
    | some v => cases hnull : v.isNull <;> simp [hnull, Except.isOk, Except.toBool]

theorem members_ok {name : String} {fields : List (String × FieldType)} {value : Value} :
    (fromMembers name fields value).isOk = true ↔ ∀ f ∈ fields,
      (readField value f.1 s!"{name}.{f.1}" fun v =>
        fromJson f.2 v s!"{name}.{f.1}").isOk = true := by
  induction fields with
  | nil => exact ⟨fun _ _ hf => absurd hf List.not_mem_nil, fun _ => rfl⟩
  | cons f fields ih =>
    obtain ⟨key, type⟩ := f
    show (readField value key s!"{name}.{key}" (fun v => fromJson type v s!"{name}.{key}") >>=
      fun x => fromMembers name fields value >>= fun rest => .ok (x, rest)).isOk = true ↔ _
    rw [List.forall_mem_cons, ← ih, Check.bind_isOk]
    constructor
    · rintro ⟨x, hx, h⟩
      obtain ⟨rest, hrest, _⟩ := Check.bind_isOk.mp h
      exact ⟨Check.isOk_iff.mpr ⟨x, hx⟩, Check.isOk_iff.mpr ⟨rest, hrest⟩⟩
    · rintro ⟨hx, hrest⟩
      obtain ⟨x, hx⟩ := Check.isOk_iff.mp hx
      obtain ⟨rest, hrest⟩ := Check.isOk_iff.mp hrest
      exact ⟨x, hx, Check.bind_isOk.mpr ⟨rest, hrest, rfl⟩⟩

theorem rejectUnknownFields_ok {name : String} {fields : List (String × FieldType)}
    {members : List (Bytes × Value)} : rejectUnknownFields members name fields = .ok () ↔
      ∀ m ∈ members, ∃ f ∈ fields, m.1 = Text.utf8 f.1 := by
  have hnone : (members.find? fun m => !(fields.map fun f => Text.utf8 f.1).contains m.1) = none ↔
      ∀ m ∈ members, ∃ f ∈ fields, m.1 = Text.utf8 f.1 := by
    rw [List.find?_eq_none]
    refine forall₂_congr fun m _ => ?_
    rw [Bool.not_eq_true', Bool.not_eq_false, List.contains_iff_mem, List.mem_map]
    exact exists_congr fun f => and_congr_right fun _ => eq_comm
  rw [← hnone, rejectUnknownFields]
  cases members.find? fun m => !(fields.map fun f => Text.utf8 f.1).contains m.1 with
  | none => exact ⟨fun _ => rfl, fun _ => rfl⟩
  | some m => exact ⟨fun h => (by cases h), fun h => (by cases h)⟩

theorem struct_ok {name : String} {fields : List (String × FieldType)}
    {members : List (Bytes × Value)} {path : String} :
    (fromJson (.struct name fields) (.object members) path).isOk = true ↔
      (∀ m ∈ members, ∃ f ∈ fields, m.1 = Text.utf8 f.1) ∧
        (fromMembers name fields (.object members)).isOk = true := by
  show (rejectUnknownFields members name fields >>= fun _ =>
    fromMembers name fields (.object members)).isOk = true ↔ _
  rw [Check.unit_isOk, rejectUnknownFields_ok]

end Protocol.Cpp
