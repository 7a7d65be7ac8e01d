import FiveProtect.Lib.Text
import Mathlib.Algebra.Group.Nat.Defs
import Mathlib.Algebra.Order.Ring.Unbundled.Rat

/-!
# JSON values

`Json` is a parsed JSON text.  A number keeps apart how it is written, since some decoders look at
that: as an integer (`JsonNumber.int`), as `-0`, or with a fraction or an exponent (`JsonNumber.dec`);
its value is `JsonNumber.val`.  A text may have an escape of half a surrogate pair, such as `\ud800`:
then it is not a sequence of Unicode characters (`Json.illFormed`), and decoders differ in what they
make of it.

`Json.Valid` says what holds of every JSON value: the members of an object have different keys, and
the numbers are finite as doubles.  `Json.nullFree` says that there is no `null` in it,
`Json.wellFormed` no half of a pair, `Json.objectFree` no object; `Json.dropNulls` leaves out the
members that are `null`, as a Lua table does.
-/

inductive JsonNumber where
  | int (i : Int)
  | minusZero
  /-- the double that the text stands for; `tiny`: `strtod` reports the text as out of range, as it does
  of a number that is not zero but smaller than every normal double -/
  | dec (q : ℚ) (tiny : Bool)
  deriving DecidableEq

namespace JsonNumber

def val : JsonNumber → ℚ
  | .int i => i
  | .minusZero => 0
  | .dec q _ => q

/-- the integer a number is equal to, if it is integral -/
def toInt? (n : JsonNumber) : Option Int := if n.val.den = 1 then some n.val.num else none

@[simp] theorem toInt?_int (i : Int) : (JsonNumber.int i).toInt? = some i := by
  simp [toInt?, val]

@[simp] theorem toInt?_minusZero : minusZero.toInt? = some 0 := by simp [toInt?, val]

end JsonNumber

inductive Json where
  | null
  | bool (b : Bool)
  | num (n : JsonNumber)
  | str (s : String)
  /-- `s` has U+FFFD in the place of each surrogate without a partner; `high`: one of them is a first
  half -/
  | illFormed (s : String) (high : Bool)
  | arr (items : List Json)
  | obj (members : List (String × Json))

namespace Json

/-- `value[key]`, `none` for `undefined` -/
def get? (key : String) : Json → Option Json
  | .obj members => (members.find? fun m => m.1 == key).map Prod.snd
  | _ => none

def str? : Json → Option String
  | .str s => some s
  | _ => none

/-- any text, as it is encoded -/
def text? : Json → Option String
  | .str s => some s
  | .illFormed s _ => some s
  | _ => none

def int? : Json → Option Int
  | .num n => n.toInt?
  | _ => none

def bool? : Json → Option Bool
  | .bool b => some b
  | _ => none

def arr? : Json → Option (List Json)
  | .arr items => some items
  | _ => none

/-- a required member, decoded -/
def field {α : Type} (j : Json) (key : String) (decode : Json → Option α) : Option α :=
  (j.get? key).bind decode

/-- an optional member, decoded -/
def optional {α : Type} (j : Json) (key : String) (decode : Json → Option α) : Option (Option α) :=
  match j.get? key with
  | none => some none
  | some v => (decode v).map some

/-- a member that is left out of the text when it is `undefined` -/
def member? (key : String) (v : Option Json) : List (String × Json) :=
  match v with
  | none => []
  | some j => [(key, j)]

/-- the greatest double -/
def maxDouble : Nat := (Nat.pow 2 53 - 1) * Nat.pow 2 971

mutual
def valid : Json → Bool
  | .num n => |n.val| ≤ maxDouble
  | .arr items => validItems items
  | .obj members => (members.map Prod.fst).Nodup && validMembers members
  | _ => true
def validItems : List Json → Bool
  | [] => true
  | x :: xs => valid x && validItems xs
def validMembers : List (String × Json) → Bool
  | [] => true
  | (_, x) :: xs => valid x && validMembers xs
end

mutual
def nullFree : Json → Bool
  | .null => false
  | .arr items => nullFreeItems items
  | .obj members => nullFreeMembers members
  | _ => true
def nullFreeItems : List Json → Bool
  | [] => true
  | x :: xs => nullFree x && nullFreeItems xs
def nullFreeMembers : List (String × Json) → Bool
  | [] => true
  | (_, x) :: xs => nullFree x && nullFreeMembers xs
end

mutual
/-- the texts with half of a pair are ones that `keeps` takes, by whether one is a first half -/
def readable (keeps : Bool → Bool) : Json → Bool
  | .illFormed _ high => keeps high
  | .arr items => readableItems keeps items
  | .obj members => readableMembers keeps members
  | _ => true
def readableItems (keeps : Bool → Bool) : List Json → Bool
  | [] => true
  | x :: xs => readable keeps x && readableItems keeps xs
def readableMembers (keeps : Bool → Bool) : List (String × Json) → Bool
  | [] => true
  | (_, x) :: xs => readable keeps x && readableMembers keeps xs
end

def wellFormed (j : Json) : Bool := j.readable fun _ => false

mutual
def objectFree : Json → Bool
  | .arr items => objectFreeItems items
  | .obj _ => false
  | _ => true
def objectFreeItems : List Json → Bool
  | [] => true
  | x :: xs => objectFree x && objectFreeItems xs
end

mutual
/-- without the members that are `null` -/
def dropNulls : Json → Json
  | .arr items => .arr (dropItems items)
  | .obj members => .obj (dropMembers members)
  | j => j
def dropItems : List Json → List Json
  | [] => []
  | x :: xs => dropNulls x :: dropItems xs
def dropMembers : List (String × Json) → List (String × Json)
  | [] => []
  | (_, .null) :: xs => dropMembers xs
  | (key, x) :: xs => (key, dropNulls x) :: dropMembers xs
end

theorem validItems_iff (items : List Json) : validItems items = true ↔ ∀ x ∈ items, valid x = true := by
  induction items with
  | nil => simp [validItems]
  | cons x xs ih => rw [validItems, Bool.and_eq_true, ih, List.forall_mem_cons]

theorem validMembers_iff (members : List (String × Json)) :
    validMembers members = true ↔ ∀ m ∈ members, valid m.2 = true := by
  induction members with
  | nil => simp [validMembers]
  | cons m xs ih => rw [validMembers, Bool.and_eq_true, ih, List.forall_mem_cons]

theorem nullFreeItems_iff (items : List Json) :
    nullFreeItems items = true ↔ ∀ x ∈ items, nullFree x = true := by
  induction items with
  | nil => simp [nullFreeItems]
  | cons x xs ih => rw [nullFreeItems, Bool.and_eq_true, ih, List.forall_mem_cons]

theorem nullFreeMembers_iff (members : List (String × Json)) :
    nullFreeMembers members = true ↔ ∀ m ∈ members, nullFree m.2 = true := by
  induction members with
  | nil => simp [nullFreeMembers]
  | cons m xs ih => rw [nullFreeMembers, Bool.and_eq_true, ih, List.forall_mem_cons]

theorem readableItems_iff (keeps : Bool → Bool) (items : List Json) :
    readableItems keeps items = true ↔ ∀ x ∈ items, readable keeps x = true := by
  induction items with
  | nil => simp [readableItems]
  | cons x xs ih => rw [readableItems, Bool.and_eq_true, ih, List.forall_mem_cons]

theorem readableMembers_iff (keeps : Bool → Bool) (members : List (String × Json)) :
    readableMembers keeps members = true ↔ ∀ m ∈ members, readable keeps m.2 = true := by
  induction members with
  | nil => simp [readableMembers]
  | cons m xs ih => rw [readableMembers, Bool.and_eq_true, ih, List.forall_mem_cons]

/-- a member is found under its key -/
theorem mem_of_get? {members : List (String × Json)} {key : String} {v : Json}
    (h : get? key (.obj members) = some v) : (key, v) ∈ members := by
  unfold get? at h
  obtain ⟨m, hm, rfl⟩ := Option.map_eq_some_iff.mp h
  have hkey := List.find?_some hm
  rw [← beq_iff_eq.mp hkey]
  exact List.mem_of_find?_eq_some hm

theorem get?_of_mem {members : List (String × Json)} (hn : (members.map Prod.fst).Nodup)
    {m : String × Json} (hm : m ∈ members) : get? m.1 (.obj members) = some m.2 := by
  induction members with
  | nil => exact absurd hm List.not_mem_nil
  | cons x xs ih =>
    rw [List.map_cons, List.nodup_cons] at hn
    rcases List.mem_cons.mp hm with rfl | hm
    · simp [get?]
    · have hne : (x.1 == m.1) = false := by
        refine beq_eq_false_iff_ne.mpr fun he => hn.1 ?_
        rw [he]
        exact List.mem_map_of_mem hm
      have hrest := ih hn.2 hm
      simp only [get?, List.find?_cons, hne] at hrest ⊢
      exact hrest

end Json
