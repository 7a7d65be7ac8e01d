import FiveProtect.Protocol.Conforms

/-!
# Protocol: the generated TypeScript validators

`packages/protocol/src/generators/typescript.ts`, with the meaning Zod 3 gives to what it emits:
lengths count UTF-16 code units, `int()` accepts any integral number, objects are `strict()`, an
optional member may be missing but not `null`.  `Zod.accepts type j` says whether the emitted schema
accepts `j`; what it accepts conforms to the schema (`conforms_of_accepts`).
-/

namespace Protocol.Zod

/-! ## formats -/

def isDigit (c : Char) : Bool := '0' ≤ c && c ≤ '9'

def isLowerHex (c : Char) : Bool := isDigit c || ('a' ≤ c && c ≤ 'f')

def isHex (c : Char) : Bool := isLowerHex c || ('A' ≤ c && c ≤ 'F')

def isAlnum (c : Char) : Bool := isDigit c || ('a' ≤ c && c ≤ 'z') || ('A' ≤ c && c ≤ 'Z')

/-- what is left after `n` characters of a class -/
def skip (p : Char → Bool) : Nat → List Char → Option (List Char)
  | 0, l => some l
  | _ + 1, [] => none
  | n + 1, c :: l => if p c then skip p n l else none

/-- what is left after one literal character -/
def lit (c : Char) : List Char → Option (List Char) := skip (· == c) 1

/-- what is left after one or more characters of a class -/
def some1 (p : Char → Bool) (l : List Char) : Option (List Char) :=
  (skip p 1 l).map (List.dropWhile p)

def uuid (s : String) : Bool :=
  ((skip isHex 8 s.toList).bind fun l => (lit '-' l).bind fun l =>
    (skip isHex 4 l).bind fun l => (lit '-' l).bind fun l =>
    (skip isHex 4 l).bind fun l => (lit '-' l).bind fun l =>
    (skip isHex 4 l).bind fun l => (lit '-' l).bind fun l => skip isHex 12 l) == some []

/-- `/^[0-9a-f]*$/` -/
def hex (s : String) : Bool := s.toList.all isLowerHex

/-- `/^[A-Za-z0-9+/]*={0,2}$/` -/
def base64 (s : String) : Bool :=
  let rest := s.toList.dropWhile fun c => isAlnum c || c == '+' || c == '/'
  rest == [] || rest == ['='] || rest == ['=', '=']

/-- `/^[0-9a-fA-F.:]+$/` -/
def ip (s : String) : Bool :=
  !s.toList.isEmpty && s.toList.all fun c => isHex c || c == '.' || c == ':'

/-- `/^\d+\.\d+\.\d+(?:[-+][0-9A-Za-z.-]+)?$/` -/
def semver (s : String) : Bool :=
  match (some1 isDigit s.toList).bind fun l => (lit '.' l).bind fun l =>
      (some1 isDigit l).bind fun l => (lit '.' l).bind (some1 isDigit) with
  | none => false
  | some [] => true
  | some (c :: l) =>
    (c == '-' || c == '+') && !l.isEmpty && l.all fun c => isAlnum c || c == '.' || c == '-'

def number (l : List Char) : Nat := l.foldl (fun n c => 10 * n + (c.toNat - 48)) 0

def daysIn (y m : Nat) : Nat :=
  if m = 2 then (if y % 4 = 0 ∧ (y % 100 ≠ 0 ∨ y % 400 = 0) then 29 else 28)
  else if m = 4 ∨ m = 6 ∨ m = 9 ∨ m = 11 then 30 else 31

/-- `dateRegexSource`: a day of the Gregorian calendar; what is left after it -/
def date (l : List Char) : Option (List Char) :=
  let y := number (l.take 4)
  let m := number ((l.drop 5).take 2)
  let d := number ((l.drop 8).take 2)
  ((skip isDigit 4 l).bind fun l => (lit '-' l).bind fun l => (skip isDigit 2 l).bind fun l =>
    (lit '-' l).bind (skip isDigit 2)).filter
      fun _ => 1 ≤ m && m ≤ 12 && 1 ≤ d && decide (d ≤ daysIn y m)

/-- two digits below `n` -/
def below (n : Nat) (l : List Char) : Option (List Char) :=
  (skip isDigit 2 l).filter fun _ => decide (number (l.take 2) < n)

/-- `(:[0-5]\d(\.\d+)?)?Z` to the end -/
def secondsZ (l : List Char) : Bool :=
  l == ['Z'] ||
  match (lit ':' l).bind (below 60) with
  | none => false
  | some l => l == ['Z'] || ((lit '.' l).bind (some1 isDigit)) == some ['Z']

/-- `.datetime({ offset: false })` -/
def datetime (s : String) : Bool :=
  match (date s.toList).bind fun l => (lit 'T' l).bind fun l => (below 24 l).bind fun l =>
      (lit ':' l).bind (below 60) with
  | none => false
  | some l => secondsZ l

def formatOk : StringFormat → String → Bool
  | .uuid => uuid
  | .hex => hex
  | .base64 => base64
  | .ip => ip
  | .datetime => datetime
  | .semver => semver

example : datetime "2028-02-29T14:09:41.412Z" = true := by decide
example : datetime "2027-02-29T14:09:41Z" = false := by decide
example : semver "0.1.0-rc.1" = true := by decide

/-! ## zodExpr -/

/-- a text.  Half a pair is one UTF-16 unit, as U+FFFD is, and no format has either -/
def text (format : Option StringFormat) (minLength maxLength : Option Nat) (s : String) : Bool :=
  (format.all fun f => formatOk f s) && (minLength.all fun n => n ≤ Text.utf16Length s) &&
    (maxLength.all fun n => Text.utf16Length s ≤ n)

mutual
def accepts : FieldType → Json → Bool
  | .string format minLength maxLength, .str s => text format minLength maxLength s
  | .string format minLength maxLength, .illFormed s _ => text format minLength maxLength s
  | .int min max, .num n =>
    n.toInt?.any fun i => (min.all fun m => m ≤ i) && (max.all fun m => i ≤ m)
  | .bool, .bool _ => true
  | .enum ref, .str s => ref.values.contains s
  | .struct _ fields, .obj members =>
    (members.all fun m => (fields.map Prod.fst).contains m.1) && acceptsFields fields (.obj members)
  | .array items maxItems, .arr xs =>
    (xs.all fun x => accepts items x) && (maxItems.all fun n => xs.length ≤ n)
  | .optional inner, j => accepts inner j
  | _, _ => false
/-- the declared members of an object, each against its own schema -/
def acceptsFields : List (String × FieldType) → Json → Bool
  | [], _ => true
  | (key, .optional inner) :: fields, j =>
    ((j.get? key).all fun v => accepts inner v) && acceptsFields fields j
  | (key, type) :: fields, j =>
    ((j.get? key).any fun v => accepts type v) && acceptsFields fields j
end

/-! ## what is accepted -/

theorem accepts_string {format : Option StringFormat} {minLength maxLength : Option Nat} {j : Json} :
    accepts (.string format minLength maxLength) j = true ↔
      ∃ s, j.text? = some s ∧ text format minLength maxLength s = true := by
  cases j with
  | str s => simp [accepts, Json.text?]
  | illFormed s high => simp [accepts, Json.text?]
  | _ => exact iff_of_false (fun h => by cases h) fun ⟨s, hs, _⟩ => by cases hs

theorem accepts_optional (inner : FieldType) (j : Json) :
    accepts (.optional inner) j = accepts inner j := by
  rw [accepts]

theorem accepts_null (type : FieldType) : accepts type .null = false := by
  induction type using FieldType.induct with
  | optional inner ih => rw [accepts_optional, ih]
  | _ => rfl

theorem acceptsFields_iff (fields : List (String × FieldType)) (j : Json) :
    acceptsFields fields j = true ↔ ∀ f ∈ fields, HasField (fun t v => accepts t v = true) j f := by
  induction fields with
  | nil => exact ⟨fun _ _ hf => absurd hf List.not_mem_nil, fun _ => rfl⟩
  | cons f fields ih =>
    obtain ⟨key, type⟩ := f
    rw [List.forall_mem_cons, ← ih, HasField]
    cases type with
    | optional inner =>
      rw [acceptsFields, Bool.and_eq_true, Option.all_eq_true]
      simp only [accepts_optional, FieldType.isOptional, implies_true, and_true]
    | _ =>
      rw [acceptsFields, Bool.and_eq_true, Option.any_eq_true]
      · cases hget : j.get? key with
        | none => simp [FieldType.isOptional]
        | some v => simp
      · intro inner hinner
        cases hinner

theorem accepts_obj {name : String} {fields : List (String × FieldType)}
    {members : List (String × Json)} : accepts (.struct name fields) (.obj members) = true ↔
      (∀ m ∈ members, m.1 ∈ fields.map Prod.fst) ∧
        ∀ f ∈ fields, HasField (fun t v => accepts t v = true) (.obj members) f := by
  rw [accepts, Bool.and_eq_true, List.all_eq_true, acceptsFields_iff]
  simp only [List.contains_iff_mem]

theorem accepts_struct {name : String} {fields : List (String × FieldType)} {j : Json}
    (h : accepts (.struct name fields) j = true) : ∃ members, j = .obj members ∧
      (∀ m ∈ members, m.1 ∈ fields.map Prod.fst) ∧
        ∀ f ∈ fields, HasField (fun t v => accepts t v = true) j f := by
  cases j with
  | obj members => exact ⟨members, rfl, accepts_obj.mp h⟩
  | _ => cases h

theorem accepts_array {items : FieldType} {maxItems : Option Nat} {j : Json}
    (h : accepts (.array items maxItems) j = true) : ∃ xs, j = .arr xs ∧
      (∀ n, maxItems = some n → xs.length ≤ n) ∧ ∀ x ∈ xs, accepts items x = true := by
  cases j with
  | arr xs =>
    rw [accepts, Bool.and_eq_true, List.all_eq_true] at h
    refine ⟨xs, rfl, fun n hn => ?_, h.1⟩
    rw [hn] at h
    exact of_decide_eq_true h.2
  | _ => cases h

theorem conforms_of_accepts {type : FieldType} {j : Json} (h : accepts type j = true) :
    Conforms (fun t v => accepts t v = true) type j := by
  refine Conforms.intro (fun _ _ _ h => h) (fun _ _ _ h => accepts_struct h)
    (fun _ _ _ h => accepts_array h) (fun inner j h => ?_) h
  rwa [accepts_optional] at h

end Protocol.Zod
