import FiveProtect.Lib.Json

/-!
# Lua values

The values a JSON decoder makes of a text.  A table is its pairs, and the border the length operator
finds in it.  `LuaValue.ofJson` is the value of a JSON text without `null`: objects become tables with
text keys, arrays tables with the keys `1` to `n`; half of a surrogate pair is three bytes, as U+FFFD is.
-/

inductive LuaKey where
  | num (i : Nat)
  | str (s : String)
  deriving DecidableEq

inductive LuaValue where
  | nil
  | boolean (b : Bool)
  | number (n : JsonNumber)
  | string (s : Bytes)
  | table (pairs : List (LuaKey × LuaValue)) (border : Nat)

namespace LuaValue

/-- `type(value)` -/
def typeName : LuaValue → String
  | .nil => "nil"
  | .boolean _ => "boolean"
  | .number _ => "number"
  | .string _ => "string"
  | .table _ _ => "table"

/-- `rawget` of a key -/
def lookup (pairs : List (LuaKey × LuaValue)) (key : LuaKey) : Option LuaValue :=
  (pairs.find? fun p => p.1 = key).map Prod.snd

/-- `value.key` of a table; `nil` for any other value -/
def field (value : LuaValue) (key : String) : LuaValue :=
  match value with
  | .table pairs _ => (lookup pairs (.str key)).getD .nil
  | _ => .nil

/-- what `ipairs` runs over, from `i` on: at most `n` items, up to the first key that is missing -/
def itemsFrom (pairs : List (LuaKey × LuaValue)) : Nat → Nat → List LuaValue
  | _, 0 => []
  | i, n + 1 =>
    match lookup pairs (.num i) with
    | none => []
    | some x => x :: itemsFrom pairs (i + 1) n

/-- `ipairs(value)` -/
def ipairs (pairs : List (LuaKey × LuaValue)) : List LuaValue := itemsFrom pairs 1 pairs.length

mutual
def ofJson : Json → LuaValue
  | .null => .nil
  | .bool b => .boolean b
  | .num n => .number n
  | .str s => .string (Text.utf8 s)
  | .illFormed s _ => .string (Text.utf8 s)
  | .arr items => .table (ofItems 1 items) items.length
  | .obj members => .table (ofMembers members) 0
def ofItems : Nat → List Json → List (LuaKey × LuaValue)
  | _, [] => []
  | i, x :: xs => (.num i, ofJson x) :: ofItems (i + 1) xs
def ofMembers : List (String × Json) → List (LuaKey × LuaValue)
  | [] => []
  | (key, x) :: xs => (.str key, ofJson x) :: ofMembers xs
end

theorem ofMembers_eq (members : List (String × Json)) :
    ofMembers members = members.map fun m => (.str m.1, ofJson m.2) := by
  induction members with
  | nil => rfl
  | cons m members ih =>
    obtain ⟨key, x⟩ := m
    rw [ofMembers, ih, List.map_cons]

theorem lookup_cons (pairs : List (LuaKey × LuaValue)) (key k : LuaKey) (x : LuaValue) :
    lookup ((key, x) :: pairs) k = if key = k then some x else lookup pairs k := by
  unfold lookup
  rw [List.find?_cons]
  by_cases h : key = k
  · simp [h]
  · simp [h]

/-- a member of an object -/
theorem field_ofJson (members : List (String × Json)) (key : String) :
    (ofJson (.obj members)).field key =
      ((Json.get? key (.obj members)).map ofJson).getD .nil := by
  rw [ofJson, ofMembers_eq, field, Json.get?]
  congr 1
  induction members with
  | nil => rfl
  | cons m members ih =>
    rw [List.map_cons, lookup_cons, List.find?_cons]
    by_cases h : m.1 = key
    · simp [h]
    · have hkey : (m.1 == key) = false := beq_eq_false_iff_ne.mpr h
      simpa [h, hkey] using ih

theorem length_ofItems (i : Nat) (items : List Json) : (ofItems i items).length = items.length := by
  induction items generalizing i with
  | nil => rfl
  | cons x items ih => rw [ofItems, List.length_cons, ih, List.length_cons]

/-- array keys are numbers -/
theorem mem_ofItems {i : Nat} {items : List Json} {p : LuaKey × LuaValue}
    (h : p ∈ ofItems i items) : ∃ k, i ≤ k ∧ p.1 = .num k := by
  induction items generalizing i with
  | nil => exact absurd h List.not_mem_nil
  | cons x items ih =>
    rw [ofItems] at h
    rcases List.mem_cons.mp h with rfl | h
    · exact ⟨i, le_refl i, rfl⟩
    · obtain ⟨k, hk, hp⟩ := ih h
      exact ⟨k, by omega, hp⟩

/-- an array has no fields -/
theorem field_ofJson_arr (items : List Json) (key : String) : (ofJson (.arr items)).field key = .nil := by
  have hnone : (ofItems 1 items).find? (fun p => p.1 = .str key) = none := by
    rw [List.find?_eq_none]
    intro p hp hkey
    obtain ⟨k, _, hk⟩ := mem_ofItems hp
    rw [hk] at hkey
    cases of_decide_eq_true hkey
  rw [ofJson, field, lookup, hnone]
  rfl

/-- items before `i` do not hide those from `i` on -/
theorem itemsFrom_cons (pairs : List (LuaKey × LuaValue)) (x : LuaValue) (i j n : Nat)
    (h : j < i) : itemsFrom ((.num j, x) :: pairs) i n = itemsFrom pairs i n := by
  induction n generalizing i with
  | zero => rfl
  | succ n ih =>
    have hne : LuaKey.num j ≠ .num i := by
      intro he
      cases he
      omega
    rw [itemsFrom, itemsFrom, lookup_cons, if_neg hne]
    cases lookup pairs (.num i) with
    | none => rfl
    | some y =>
      show y :: _ = y :: _
      rw [ih (i + 1) (by omega)]

theorem itemsFrom_ofItems (i : Nat) (items : List Json) :
    itemsFrom (ofItems i items) i items.length = items.map ofJson := by
  induction items generalizing i with
  | nil => rfl
  | cons x items ih =>
    rw [ofItems, List.length_cons, itemsFrom, lookup_cons, if_pos rfl]
    show ofJson x :: _ = _
    rw [itemsFrom_cons _ _ _ _ _ (Nat.lt_succ_self i), ih, List.map_cons]

/-- an array is run over in order -/
theorem ipairs_ofItems (items : List Json) : ipairs (ofItems 1 items) = items.map ofJson := by
  rw [ipairs, length_ofItems, itemsFrom_ofItems]

end LuaValue
