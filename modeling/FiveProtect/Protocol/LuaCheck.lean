import FiveProtect.Lib.Check
import FiveProtect.Lib.IsoTime
import FiveProtect.Lib.LuaPattern
import FiveProtect.Lib.LuaValue
import FiveProtect.Protocol.Conforms
import FiveProtect.Protocol.Messages

/-!
# Protocol: the generated Lua validators

`packages/protocol/src/generators/lua.ts` and the `protocol.lua` it writes: `check_string` and its
siblings, and `check type`, the expression emitted for a field type.  A check returns the message
`path: text` of the first thing it finds wrong; lengths count bytes.

* `checkString_ok`, `checkEnum_ok`, ... : when a check of one kind passes;
* `check_struct`    an object passes if it has no other members and each declared member passes;
* `checkArray_ok`   a decoded array passes if it is short enough and each item passes.
-/

namespace Protocol.Lua
open LuaPattern (Pattern)

/-! ## formats -/

def hexDigits (n : Nat) : List (LuaPattern.Class × LuaPattern.Rep) := LuaPattern.times n .hex

def digits (n : Nat) : List (LuaPattern.Class × LuaPattern.Rep) := LuaPattern.times n .digit

/-- `^%x%x%x%x%x%x%x%x%-%x%x%x%x%-%x%x%x%x%-%x%x%x%x%-%x%x%x%x%x%x%x%x%x%x%x%x$` -/
def uuidPattern : Pattern :=
  ⟨hexDigits 8 ++ LuaPattern.lit '-' ++ hexDigits 4 ++ LuaPattern.lit '-' ++ hexDigits 4 ++
    LuaPattern.lit '-' ++ hexDigits 4 ++ LuaPattern.lit '-' ++ hexDigits 12, true⟩

/-- `^%x*$` -/
def hexPattern : Pattern := ⟨[(.hex, .star)], true⟩

/-- `^[A-Za-z0-9+/=]*$` -/
def base64Pattern : Pattern :=
  ⟨[(.set false [.range 'A' 'Z', .range 'a' 'z', .range '0' '9', .char '+', .char '/', .char '='],
    .star)], true⟩

/-- `^[%x%.:]+$` -/
def ipPattern : Pattern := ⟨[(.set false [.hex, .char '.', .char ':'], .plus)], true⟩

/-- `^%d%d%d%d%-%d%d%-%d%dT%d%d:%d%d:%d%d` -/
def datetimePattern : Pattern :=
  ⟨digits 4 ++ LuaPattern.lit '-' ++ digits 2 ++ LuaPattern.lit '-' ++ digits 2 ++
    LuaPattern.lit 'T' ++ digits 2 ++ LuaPattern.lit ':' ++ digits 2 ++ LuaPattern.lit ':' ++
    digits 2, false⟩

/-- `^%d+%.%d+%.%d+` -/
def semverPattern : Pattern :=
  ⟨[(.digit, .plus)] ++ LuaPattern.lit '.' ++ [(.digit, .plus)] ++ LuaPattern.lit '.' ++
    [(.digit, .plus)], false⟩

def luaPattern : StringFormat → Pattern × String
  | .uuid => (uuidPattern, "a UUID")
  | .hex => (hexPattern, "hex")
  | .base64 => (base64Pattern, "base64")
  | .ip => (ipPattern, "an IP address")
  | .datetime => (datetimePattern, "an ISO 8601 timestamp")
  | .semver => (semverPattern, "a semantic version")

/-! ## checks -/

abbrev Check := Except Bytes Unit

def fail (path message : Bytes) : Check := .error (path ++ Text.utf8 ": " ++ message)

/-- a decimal number in a message -/
def decimal (i : Int) : Bytes := Text.utf8 (toString i)

def expected (what : String) (value : LuaValue) (path : Bytes) : Check :=
  fail path (Text.utf8 ("expected " ++ what ++ ", got " ++ value.typeName))

/-- `if bound and wrong(bound) then return fail(..) end` -/
def guardBound {β : Type} (bound : Option β) (wrong : β → Bool) (path : Bytes) (message : β → Bytes) :
    Check :=
  match bound.filter wrong with
  | none => .ok ()
  | some b => fail path (message b)

def checkString (value : LuaValue) (path : Bytes) (pattern : Option (Pattern × String))
    (minLength maxLength : Option Nat) : Check :=
  match value with
  | .string s => do
    guardBound minLength (fun n => decide (s.length < n)) path
      fun n => Text.utf8 "shorter than " ++ decimal n ++ Text.utf8 " characters"
    guardBound maxLength (fun n => decide (n < s.length)) path
      fun n => Text.utf8 "longer than " ++ decimal n ++ Text.utf8 " characters"
    guardBound pattern (fun p => !LuaPattern.test p.1 s) path
      fun p => Text.utf8 "does not look like " ++ Text.utf8 p.2
  | value => expected "a string" value path

def checkInt (value : LuaValue) (path : Bytes) (minValue maxValue : Option Int) : Check :=
  match value with
  | .number n =>
    match n.toInt? with
    | none => fail path (Text.utf8 "expected an integer")
    | some i => do
      guardBound minValue (fun m => decide (i < m)) path
        fun m => Text.utf8 "below the minimum of " ++ decimal m
      guardBound maxValue (fun m => decide (m < i)) path
        fun m => Text.utf8 "above the maximum of " ++ decimal m
  | value => expected "a number" value path

def checkBoolean (value : LuaValue) (path : Bytes) : Check :=
  match value with
  | .boolean _ => .ok ()
  | value => expected "a boolean" value path

def checkEnum (value : LuaValue) (path : Bytes) (ref : EnumDef) : Check :=
  match value with
  | .string s =>
    if s ∈ ref.values.map Text.utf8 then .ok ()
    else fail path (Text.utf8 "'" ++ s ++ Text.utf8 "' is not a valid " ++ Text.utf8 ref.name)
  | value => expected "a string" value path

/-- `tostring(key)` -/
def keyText : LuaKey → Bytes
  | .num i => decimal i
  | .str s => Text.utf8 s

def isNumberKey : LuaKey → Bool
  | .num _ => true
  | .str _ => false

def checkItems (path : Bytes) (checkItem : LuaValue → Bytes → Check) :
    Nat → List LuaValue → Check
  | _, [] => .ok ()
  | i, x :: xs => do
    checkItem x (path ++ Text.utf8 "[" ++ decimal i ++ Text.utf8 "]")
    checkItems path checkItem (i + 1) xs

def checkArray (value : LuaValue) (path : Bytes) (maxItems : Option Nat)
    (checkItem : LuaValue → Bytes → Check) : Check :=
  match value with
  | .table pairs border =>
    match pairs.find? fun p => !isNumberKey p.1 with
    | some p => fail path
        (Text.utf8 "expected an array, found the key '" ++ keyText p.1 ++ Text.utf8 "'")
    | none => do
      guardBound (some border) (fun n => pairs.length != n) path
        fun _ => Text.utf8 "array has holes"
      guardBound maxItems (fun n => decide (n < pairs.length)) path
        fun n => Text.utf8 "holds more than " ++ decimal n ++ Text.utf8 " items"
      checkItems path checkItem 1 (LuaValue.ipairs pairs)
  | value => expected "a table" value path

def checkNoExtraKeys (pairs : List (LuaKey × LuaValue)) (path : Bytes) (allowed : List String) :
    Check :=
  match pairs.find? fun p => decide (p.1 ∉ allowed.map LuaKey.str) with
  | none => .ok ()
  | some p => fail path (Text.utf8 "unexpected field '" ++ keyText p.1 ++ Text.utf8 "'")

/-- `path .. '.name'` -/
def member (path : Bytes) (name : String) : Bytes := path ++ Text.utf8 ("." ++ name)

def isNil : LuaValue → Bool
  | .nil => true
  | _ => false

/-- `if value.name == nil then return fail(..) end`, and the check of the value -/
def checkRequired (value : LuaValue) (path : Bytes) (name : String)
    (checkValue : LuaValue → Bytes → Check) : Check :=
  if isNil (value.field name) then fail (member path name) (Text.utf8 "is required")
  else checkValue (value.field name) (member path name)

/-- `if value.name ~= nil then .. end` around the check of the value -/
def checkOptional (value : LuaValue) (path : Bytes) (name : String)
    (checkValue : LuaValue → Bytes → Check) : Check :=
  if isNil (value.field name) then .ok ()
  else checkValue (value.field name) (member path name)

mutual
/-- `checkExpr`: the check emitted for a value of a type -/
def check : FieldType → LuaValue → Bytes → Check
  | .string format minLength maxLength, value, path =>
    checkString value path (format.map luaPattern) minLength maxLength
  | .int min max, value, path => checkInt value path min max
  | .bool, value, path => checkBoolean value path
  | .enum ref, value, path => checkEnum value path ref
  | .struct _ fields, value, path =>
    match value with
    | .table pairs border => do
      checkNoExtraKeys pairs path (fields.map Prod.fst)
      checkFields fields (.table pairs border) path
    | value => expected "a table" value path
  | .array items maxItems, value, path =>
    checkArray value path maxItems fun item itemPath => check items item itemPath
  | .optional inner, value, path => check inner value path
/-- the checks of the members of a struct, in order -/
def checkFields : List (String × FieldType) → LuaValue → Bytes → Check
  | [], _, _ => .ok ()
  | (name, .optional inner) :: fields, value, path => do
    checkOptional value path name fun x xPath => check inner x xPath
    checkFields fields value path
  | (name, type) :: fields, value, path => do
    checkRequired value path name fun x xPath => check type x xPath
    checkFields fields value path
end

/-- `path or 'Name'` -/
def defaultPath : FieldType → Bytes
  | .struct name _ => Text.utf8 name
  | _ => []

/-- what `M.validate` of a struct takes -/
def accepts (type : FieldType) (j : Json) : Bool :=
  (check type (LuaValue.ofJson j) (defaultPath type)).isOk

/-- `M.validate.Verdict(value)` -/
def validateVerdict (value : LuaValue) : Check :=
  check Schema.Verdict value (Text.utf8 "Verdict")

/-- `M.validate.LivenessResponse(value)` -/
def validateLivenessResponse (value : LuaValue) : Check :=
  check Schema.LivenessResponse value (Text.utf8 "LivenessResponse")

/-- `M.validate.NonceResponse(value)` -/
def validateNonceResponse (value : LuaValue) : Check :=
  check Schema.NonceResponse value (Text.utf8 "NonceResponse")

/-! ## when a check passes -/

theorem guardBound_ok {β : Type} {bound : Option β} {wrong : β → Bool} {path : Bytes}
    {message : β → Bytes} :
    guardBound bound wrong path message = .ok () ↔ ∀ b, bound = some b → wrong b = false := by
  unfold guardBound
  cases bound with
  | none => exact ⟨fun _ _ h => (by cases h), fun _ => rfl⟩
  | some b =>
    cases hb : wrong b with
    | false =>
      constructor
      · intro _ c hc
        cases hc
        exact hb
      · intro _
        simp [Option.filter, hb]
    | true =>
      constructor
      · intro h
        simp [Option.filter, hb, fail] at h
      · intro h
        rw [h b rfl] at hb
        cases hb

theorem checkString_ok {s : Bytes} {path : Bytes} {pattern : Option (Pattern × String)}
    {minLength maxLength : Option Nat} :
    checkString (.string s) path pattern minLength maxLength = .ok () ↔
      (∀ n, minLength = some n → n ≤ s.length) ∧ (∀ n, maxLength = some n → s.length ≤ n) ∧
        ∀ p, pattern = some p → LuaPattern.test p.1 s = true := by
  simp only [checkString, Check.bind_ok, guardBound_ok, decide_eq_false_iff_not, not_lt,
    Bool.not_eq_false']

theorem checkInt_ok {n : JsonNumber} {i : Int} (hn : n.toInt? = some i) {path : Bytes}
    {minValue maxValue : Option Int} : checkInt (.number n) path minValue maxValue = .ok () ↔
      (∀ m, minValue = some m → m ≤ i) ∧ ∀ m, maxValue = some m → i ≤ m := by
  rw [checkInt, hn]
  simp only [Check.bind_ok, guardBound_ok, decide_eq_false_iff_not, not_lt]

theorem checkEnum_ok {α : Type} [WireEnum α] (a : α) (path : Bytes) :
    checkEnum (.string (Text.utf8 (wire a))) path ⟨WireEnum.name α, wireValues α⟩ = .ok () :=
  if_pos (List.mem_map.mpr ⟨_, wire_mem a, rfl⟩)

theorem checkNoExtraKeys_iff {pairs : List (LuaKey × LuaValue)} {path : Bytes}
    {allowed : List String} : checkNoExtraKeys pairs path allowed = .ok () ↔
      ∀ p ∈ pairs, p.1 ∈ allowed.map LuaKey.str := by
  have hnone : pairs.find? (fun p => decide (p.1 ∉ allowed.map LuaKey.str)) = none ↔
      ∀ p ∈ pairs, p.1 ∈ allowed.map LuaKey.str := by
    simp only [List.find?_eq_none, decide_eq_true_eq, not_not]
  rw [← hnone, checkNoExtraKeys]
  cases pairs.find? (fun p => decide (p.1 ∉ allowed.map LuaKey.str)) with
  | none => exact ⟨fun _ => rfl, fun _ => rfl⟩
  | some p => exact ⟨fun h => (by cases h), fun h => (by cases h)⟩

theorem checkNoExtraKeys_ok {members : List (String × Json)} {path : Bytes}
    {allowed : List String} (h : ∀ m ∈ members, m.1 ∈ allowed) :
    checkNoExtraKeys (LuaValue.ofMembers members) path allowed = .ok () := by
  rw [checkNoExtraKeys_iff]
  intro p hp
  rw [LuaValue.ofMembers_eq] at hp
  obtain ⟨m, hm, rfl⟩ := List.mem_map.mp hp
  exact List.mem_map_of_mem (h m hm)

/-- a table with a key that is not a number is no array -/
theorem checkArray_keys {pairs : List (LuaKey × LuaValue)} {border : Nat} {path : Bytes}
    {maxItems : Option Nat} {checkItem : LuaValue → Bytes → Check}
    (h : checkArray (.table pairs border) path maxItems checkItem = .ok ()) :
    ∀ p ∈ pairs, isNumberKey p.1 = true := by
  rw [checkArray] at h
  split at h
  · cases h
  · rename_i hnone
    intro p hp
    have hp' := List.find?_eq_none.mp hnone p hp
    simpa using hp'

/-- an object without other members passes if its members do -/
theorem check_struct {name : String} {fields : List (String × FieldType)}
    {members : List (String × Json)} {path : Bytes}
    (h : ∀ m ∈ members, m.1 ∈ fields.map Prod.fst) :
    check (.struct name fields) (LuaValue.ofJson (.obj members)) path =
      checkFields fields (LuaValue.ofJson (.obj members)) path := by
  rw [LuaValue.ofJson, check]
  simp only [checkNoExtraKeys_ok h]
  rfl

theorem isNil_ofJson (j : Json) : isNil (LuaValue.ofJson j) = true ↔ j = .null := by
  cases j <;> simp [LuaValue.ofJson, isNil]

/-- a member is checked if it is there, and only an optional one may be missing -/
theorem checkFields_ok {fields : List (String × FieldType)} {members : List (String × Json)}
    {path : Bytes} : checkFields fields (LuaValue.ofJson (.obj members)) path = .ok () ↔
      ∀ f ∈ fields, HasField (fun t v => v = .null ∧ t.isOptional = true ∨
        v ≠ .null ∧ check t (LuaValue.ofJson v) (member path f.1) = .ok ()) (.obj members) f := by
  induction fields with
  | nil => exact ⟨fun _ _ hf => absurd hf List.not_mem_nil, fun _ => rfl⟩
  | cons f fields ih =>
    obtain ⟨key, type⟩ := f
    rw [List.forall_mem_cons, ← ih, HasField]
    have hfield := LuaValue.field_ofJson members key
    cases type with
    | optional inner =>
      rw [checkFields, Check.bind_ok, checkOptional, hfield]
      refine and_congr ?_ Iff.rfl
      cases hget : Json.get? key (.obj members) with
      | none => simp [isNil, FieldType.isOptional]
      | some v => by_cases hnull : v = .null <;> simp [isNil_ofJson, hnull, check, FieldType.isOptional]
    | _ =>
      rw [checkFields, Check.bind_ok, checkRequired, hfield]
      · refine and_congr ?_ Iff.rfl
        cases hget : Json.get? key (.obj members) with
        | none => simp [isNil, FieldType.isOptional, fail]
        | some v => by_cases hnull : v = .null <;> simp [isNil_ofJson, hnull, fail, FieldType.isOptional]
      · intro inner hinner
        cases hinner

@[simp] theorem isNil_str (s : String) : isNil (LuaValue.ofJson (.str s)) = false := rfl

@[simp] theorem isNil_bool (b : Bool) : isNil (LuaValue.ofJson (.bool b)) = false := rfl

@[simp] theorem isNil_arr (items : List Json) : isNil (LuaValue.ofJson (.arr items)) = false := by
  rw [LuaValue.ofJson]
  rfl

theorem checkItems_ok {path : Bytes} {checkItem : LuaValue → Bytes → Check} {P : Json → Prop}
    {items : List Json}
    (hitem : ∀ x ∈ items, ∀ itemPath, checkItem (LuaValue.ofJson x) itemPath = .ok () ↔ P x)
    (i : Nat) :
    checkItems path checkItem i (items.map LuaValue.ofJson) = .ok () ↔ ∀ x ∈ items, P x := by
  induction items generalizing i with
  | nil => simp [checkItems]
  | cons x items ih =>
    have hrest := ih (fun y hy => hitem y (List.mem_cons_of_mem x hy)) (i + 1)
    rw [List.map_cons, checkItems, Check.bind_ok, hitem x List.mem_cons_self, hrest,
      List.forall_mem_cons]

theorem checkItems_each {path : Bytes} {checkItem : LuaValue → Bytes → Check} {i : Nat}
    {xs : List LuaValue} (h : checkItems path checkItem i xs = .ok ()) :
    ∀ x ∈ xs, ∃ itemPath, checkItem x itemPath = .ok () := by
  induction xs generalizing i with
  | nil => exact fun x hx => absurd hx List.not_mem_nil
  | cons x xs ih =>
    rw [checkItems, Check.bind_ok] at h
    exact List.forall_mem_cons.mpr ⟨⟨_, h.1⟩, ih h.2⟩

/-- each item of an array that passes has passed -/
theorem checkArray_each {items : List Json} {path : Bytes} {maxItems : Option Nat}
    {checkItem : LuaValue → Bytes → Check}
    (h : checkArray (LuaValue.ofJson (.arr items)) path maxItems checkItem = .ok ()) :
    ∀ x ∈ items, ∃ itemPath, checkItem (LuaValue.ofJson x) itemPath = .ok () := by
  rw [LuaValue.ofJson, checkArray] at h
  split at h
  · cases h
  · rw [Check.bind_ok, Check.bind_ok, LuaValue.ipairs_ofItems] at h
    intro x hx
    exact checkItems_each h.2.2 _ (List.mem_map_of_mem hx)

/-- an array passes if it is short enough and its items do -/
theorem checkArray_ok {items : List Json} {path : Bytes} {maxItems : Option Nat}
    {checkItem : LuaValue → Bytes → Check} {P : Json → Prop}
    (hitem : ∀ x ∈ items, ∀ itemPath, checkItem (LuaValue.ofJson x) itemPath = .ok () ↔ P x) :
    checkArray (LuaValue.ofJson (.arr items)) path maxItems checkItem = .ok () ↔
      (∀ n, maxItems = some n → items.length ≤ n) ∧ ∀ x ∈ items, P x := by
  have hnum : (LuaValue.ofItems 1 items).find? (fun p => !isNumberKey p.1) = none := by
    rw [List.find?_eq_none]
    intro p hp
    obtain ⟨k, _, hk⟩ := LuaValue.mem_ofItems hp
    simp [hk, isNumberKey]
  rw [LuaValue.ofJson, checkArray, hnum]
  simp only [Check.bind_ok, guardBound_ok, LuaValue.length_ofItems, LuaValue.ipairs_ofItems,
    checkItems_ok hitem, Option.some.injEq, forall_eq', bne_self_eq_false,
    decide_eq_false_iff_not, not_lt, true_and]

/-! ## requirements and verdicts -/

/-- a requirement passes if its detail has at most 200 bytes -/
theorem check_requirement (r : RequirementResult) (path : Bytes) :
    check Schema.RequirementResult (LuaValue.ofJson r.toJson) path = .ok () ↔
      ∀ detail, r.detail = some detail → Text.utf8Length detail ≤ 200 := by
  unfold Schema.RequirementResult RequirementResult.toJson
  obtain ⟨requirement, status, detail⟩ := r
  cases detail with
  | none =>
    rw [check_struct (by simp [Json.member?])]
    simp [checkFields, checkRequired, checkOptional, Check.bind_ok, LuaValue.field_ofJson, Json.get?,
      Json.member?, enumRef, text]
    simp [check, LuaValue.ofJson, isNil, checkEnum_ok]
  | some detail =>
    rw [check_struct (by simp [Json.member?])]
    simp [checkFields, checkRequired, checkOptional, Check.bind_ok, LuaValue.field_ofJson, Json.get?,
      Json.member?, enumRef, text]
    simp [check, LuaValue.ofJson, checkEnum_ok, checkString_ok, Text.utf8Length]

theorem check_reasons (reasons : List DenyReason) (path : Bytes) :
    check (.array (.enum ⟨WireEnum.name DenyReason, wireValues DenyReason⟩) (some 16))
        (LuaValue.ofJson (.arr (reasons.map fun r => .str (wire r)))) path = .ok () ↔
      reasons.length ≤ 16 := by
  rw [check, checkArray_ok (P := fun _ => True)]
  · simp
  · intro x hx itemPath
    obtain ⟨r, _, rfl⟩ := List.mem_map.mp hx
    simp [check, LuaValue.ofJson, checkEnum_ok]

theorem check_requirements (requirements : List RequirementResult) (path : Bytes) :
    check (.array Schema.RequirementResult (some 32))
        (LuaValue.ofJson (.arr (requirements.map RequirementResult.toJson))) path = .ok () ↔
      requirements.length ≤ 32 ∧ ∀ r ∈ requirements, ∀ detail, r.detail = some detail →
        Text.utf8Length detail ≤ 200 := by
  have hitem : ∀ x ∈ requirements.map RequirementResult.toJson, ∀ itemPath,
      check Schema.RequirementResult (LuaValue.ofJson x) itemPath = .ok () ↔
        check Schema.RequirementResult (LuaValue.ofJson x) [] = .ok () := by
    intro x hx itemPath
    obtain ⟨r, _, rfl⟩ := List.mem_map.mp hx
    rw [check_requirement, check_requirement]
  rw [check, checkArray_ok hitem, List.length_map, List.forall_mem_map]
  simp only [check_requirement, Option.some.injEq, forall_eq']

/-- **What the Lua validator asks of a verdict.** -/
structure Fits (v : Verdict) : Prop where
  sessionId : LuaPattern.test uuidPattern (Text.utf8 v.sessionId.toText) = true
  reasons : v.reasons.length ≤ 16
  requirements : v.requirements.length ≤ 32
  details : ∀ r ∈ v.requirements, ∀ detail, r.detail = some detail → Text.utf8Length detail ≤ 200
  remediation : ∀ t, v.remediation = some t → Text.utf8Length t ≤ 500
  evaluatedAt : LuaPattern.test datetimePattern (Text.utf8 v.evaluatedAt) = true

theorem validateVerdict_ok (v : Verdict) :
    validateVerdict (LuaValue.ofJson v.toJson) = .ok () ↔ Fits v := by
  obtain ⟨decision, sessionId, reasons, requirements, remediation, policyTier, evaluatedAt,
    failOpen⟩ := v
  have hfits : Fits ⟨decision, sessionId, reasons, requirements, remediation, policyTier,
      evaluatedAt, failOpen⟩ ↔ LuaPattern.test uuidPattern (Text.utf8 sessionId.toText) = true ∧
        reasons.length ≤ 16 ∧ (requirements.length ≤ 32 ∧ ∀ r ∈ requirements, ∀ detail,
          r.detail = some detail → Text.utf8Length detail ≤ 200) ∧
        (∀ t, remediation = some t → Text.utf8Length t ≤ 500) ∧
        LuaPattern.test datetimePattern (Text.utf8 evaluatedAt) = true :=
    ⟨fun h => ⟨h.1, h.2, ⟨h.3, h.4⟩, h.5, h.6⟩, fun h => ⟨h.1, h.2.1, h.2.2.1.1, h.2.2.1.2,
      h.2.2.2.1, h.2.2.2.2⟩⟩
  rw [hfits]
  unfold validateVerdict Schema.Verdict Verdict.toJson
  cases remediation with
  | none =>
    rw [check_struct (by simp [Json.member?])]
    simp [checkFields, checkRequired, checkOptional, Check.bind_ok, LuaValue.field_ofJson, Json.get?,
      Json.member?, enumRef, text, formatted, check_reasons, check_requirements]
    simp [check, LuaValue.ofJson, isNil, checkEnum_ok, checkString_ok, checkBoolean, luaPattern]
  | some t =>
    rw [check_struct (by simp [Json.member?])]
    simp [checkFields, checkRequired, checkOptional, Check.bind_ok, LuaValue.field_ofJson, Json.get?,
      Json.member?, enumRef, text, formatted, check_reasons, check_requirements]
    simp [check, LuaValue.ofJson, checkEnum_ok, checkString_ok, checkBoolean, luaPattern,
      Text.utf8Length]

/-! ## ids and instants -/

/-- characters of one byte of a class are a run of the class -/
theorem run_of_chars {c : LuaPattern.Class} {l : List Char}
    (h : ∀ x ∈ l, ∃ b, Text.utf8Chars [x] = [b] ∧ c.test b = true) :
    (Text.utf8Chars l).length = l.length ∧ ∀ b ∈ Text.utf8Chars l, c.test b = true := by
  induction l with
  | nil => exact ⟨rfl, fun b hb => absurd hb List.not_mem_nil⟩
  | cons x l ih =>
    obtain ⟨b, hb, hc⟩ := h x List.mem_cons_self
    obtain ⟨hlen, hall⟩ := ih fun y hy => h y (List.mem_cons_of_mem x hy)
    have hcons : Text.utf8Chars (x :: l) = b :: Text.utf8Chars l := by
      rw [← List.singleton_append, Text.utf8Chars_append, hb, List.singleton_append]
    rw [hcons]
    refine ⟨by rw [List.length_cons, hlen, List.length_cons], ?_⟩
    intro y hy
    rcases List.mem_cons.mp hy with rfl | hy
    · exact hc
    · exact hall y hy

theorem run_of_group (u : Uuid) (i n : Nat) (h : i + n ≤ 32) :
    (Text.utf8Chars (u.group i n)).length = n ∧
      ∀ b ∈ Text.utf8Chars (u.group i n), LuaPattern.Class.hex.test b = true := by
  have hhex : ∀ d : Fin 16, ∃ b, Text.utf8Chars [Uuid.hexChar d] = [b] ∧
      LuaPattern.Class.hex.test b = true := by
    have hbyte : ∀ d : Fin 16, Text.utf8Chars [Uuid.hexChar d] =
        [LuaPattern.byteOf (Uuid.hexChar d)] ∧
          LuaPattern.Class.hex.test (LuaPattern.byteOf (Uuid.hexChar d)) = true := by decide
    exact fun d => ⟨_, hbyte d⟩
  have hlen : (u.group i n).length = n := by
    have h32 := u.len
    rw [Uuid.group, List.length_map, List.length_take, List.length_drop, h32]
    omega
  obtain ⟨hrun, hall⟩ := run_of_chars (c := .hex) (l := u.group i n) fun x hx => by
    obtain ⟨d, _, rfl⟩ := List.mem_map.mp hx
    exact hhex d
  exact ⟨hrun.trans hlen, hall⟩

/-- every id the backend writes is a UUID to the resource -/
theorem test_uuid (u : Uuid) : LuaPattern.test uuidPattern (Text.utf8 u.toText) = true := by
  have hdash : Text.utf8Chars ['-'] = [LuaPattern.byteOf '-'] := by decide
  have h8 := run_of_group u 0 8 (by decide)
  have h12 := run_of_group u 8 4 (by decide)
  have h16 := run_of_group u 12 4 (by decide)
  have h20 := run_of_group u 16 4 (by decide)
  have h32 := run_of_group u 20 12 (by decide)
  rw [Uuid.toText, Text.utf8, String.toList_ofList]
  simp only [Text.utf8Chars_append, List.append_assoc, LuaPattern.test, uuidPattern, hexDigits]
  rw [LuaPattern.matchItems_times h8.1 h8.2, LuaPattern.matchItems_lit hdash,
    LuaPattern.matchItems_times h12.1 h12.2, LuaPattern.matchItems_lit hdash,
    LuaPattern.matchItems_times h16.1 h16.2, LuaPattern.matchItems_lit hdash,
    LuaPattern.matchItems_times h20.1 h20.2, LuaPattern.matchItems_lit hdash]
  rw [← List.append_nil (LuaPattern.times 12 .hex), ← List.append_nil (Text.utf8Chars _),
    LuaPattern.matchItems_times h32.1 h32.2]
  rfl

theorem run_of_digits {l : List Char} (h : ∀ x ∈ l, ∃ n, x = IsoTime.digit n) :
    (Text.utf8Chars l).length = l.length ∧
      ∀ b ∈ Text.utf8Chars l, LuaPattern.Class.digit.test b = true := by
  apply run_of_chars
  intro x hx
  obtain ⟨n, rfl⟩ := h x hx
  refine ⟨_, IsoTime.utf8_digit n, ?_⟩
  have hdigit : ∀ d < 10, LuaPattern.Class.digit.test (UInt8.ofNat (48 + d)) = true := by decide
  exact hdigit (n % 10) (Nat.mod_lt n (by decide))

theorem run_of_pad2 (n : Nat) : (Text.utf8Chars (IsoTime.pad2 n)).length = 2 ∧
    ∀ b ∈ Text.utf8Chars (IsoTime.pad2 n), LuaPattern.Class.digit.test b = true := by
  apply run_of_digits
  intro x hx
  rcases List.mem_pair.mp hx with rfl | rfl
  · exact ⟨_, rfl⟩
  · exact ⟨_, rfl⟩

theorem run_of_pad4 (n : Nat) : (Text.utf8Chars (IsoTime.pad4 n)).length = 4 ∧
    ∀ b ∈ Text.utf8Chars (IsoTime.pad4 n), LuaPattern.Class.digit.test b = true := by
  apply run_of_digits
  intro x hx
  simp only [IsoTime.pad4, List.mem_cons, List.not_mem_nil, or_false] at hx
  rcases hx with rfl | rfl | rfl | rfl
  · exact ⟨_, rfl⟩
  · exact ⟨_, rfl⟩
  · exact ⟨_, rfl⟩
  · exact ⟨_, rfl⟩

/-- an instant is an ISO 8601 timestamp to the resource up to the year 9999 -/
theorem test_datetime (t : Time) :
    LuaPattern.test datetimePattern (Text.utf8 (IsoTime.toISOString t)) = true ↔
      IsoTime.year t ≤ 9999 := by
  rw [IsoTime.toISOString, Text.utf8, String.toList_ofList]
  simp only [Text.utf8Chars_append, List.append_assoc, LuaPattern.test, datetimePattern, digits,
    IsoTime.isoYear]
  by_cases hy : IsoTime.year t ≤ 9999
  · rw [if_pos hy]
    have hdash : Text.utf8Chars ['-'] = [LuaPattern.byteOf '-'] := by decide
    have hT : Text.utf8Chars ['T'] = [LuaPattern.byteOf 'T'] := by decide
    have hcolon : Text.utf8Chars [':'] = [LuaPattern.byteOf ':'] := by decide
    have hyear := run_of_pad4 (IsoTime.year t)
    have hmonth := run_of_pad2 (IsoTime.month t)
    have hday := run_of_pad2 (IsoTime.day t)
    have hhour := run_of_pad2 (t / 3600000 % 24)
    have hminute := run_of_pad2 (t / 60000 % 60)
    have hsecond := run_of_pad2 (t / 1000 % 60)
    rw [LuaPattern.matchItems_times hyear.1 hyear.2, LuaPattern.matchItems_lit hdash,
      LuaPattern.matchItems_times hmonth.1 hmonth.2, LuaPattern.matchItems_lit hdash,
      LuaPattern.matchItems_times hday.1 hday.2, LuaPattern.matchItems_lit hT,
      LuaPattern.matchItems_times hhour.1 hhour.2, LuaPattern.matchItems_lit hcolon,
      LuaPattern.matchItems_times hminute.1 hminute.2, LuaPattern.matchItems_lit hcolon]
    rw [← List.append_nil (LuaPattern.times 2 .digit),
      LuaPattern.matchItems_times hsecond.1 hsecond.2]
    simp [LuaPattern.matchItems, hy]
  · -- the sign of a longer year is not a digit
    have hplus : Text.utf8Chars ['+'] = [LuaPattern.byteOf '+'] := by decide
    have hyear : Text.utf8Chars ('+' :: IsoTime.pad6 (IsoTime.year t)) =
        LuaPattern.byteOf '+' :: Text.utf8Chars (IsoTime.pad6 (IsoTime.year t)) := by
      rw [← List.singleton_append, Text.utf8Chars_append, hplus, List.singleton_append]
    have hsign : LuaPattern.Class.digit.test (LuaPattern.byteOf '+') = false := by decide
    have hdigits : LuaPattern.times 4 .digit = (.digit, .one) :: LuaPattern.times 3 .digit := rfl
    rw [if_neg hy, hyear, hdigits, List.cons_append, List.cons_append, LuaPattern.matchItems, hsign,
      Bool.false_and]
    exact iff_of_false Bool.false_ne_true hy

end Protocol.Lua
