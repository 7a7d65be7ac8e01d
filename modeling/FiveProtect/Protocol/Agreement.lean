import FiveProtect.Protocol.Languages

/-!
# Protocol: where Rust, C++ and Lua agree

The three checks differ on a few kinds of values only: `Irregularity` lists them, with who refuses which.
Lua sees a value only if the JSON decoder of the resource takes it (`luaAccepts`).

* `here_iff`   a language takes at one position what any of them takes, but for the irregularities it
               refuses;
* `takes_iff`  the same of a whole value;
* `agree_iff`  the three agree on a value unless it is taken so far, has an irregularity and one of the
               three refuses none of those it has.
-/

namespace Protocol

inductive Language where
  | rust
  | cpp
  | lua
  deriving DecidableEq

/-- `keeps`: which texts with half of a surrogate pair the JSON decoder of the resource takes -/
def reading (keeps : Bool → Bool) : Language → Reading
  | .rust => rustReading
  | .cpp => cppReading
  | .lua => luaReading.keeping keeps

/-! ## irregularities -/

inductive Irregularity where
  | arrayForStruct
  | objectForArray
  | emptyAddress
  /-- a dot after the third number of a version -/
  | fourthPart
  /-- anything else there, but `-` and `+` -/
  | trailingText
  /-- halves of surrogate pairs, all of them second ones -/
  | secondHalf
  | firstHalf
  /-- a number with a fraction or an exponent, even if it is integral, or `-0` -/
  | decimal
  /-- a number that is not zero, but too small for a normal double -/
  | underflow
  | fraction
  | beyondInt64
  deriving DecidableEq

namespace Irregularity

/-- what it looks like at its position -/
def occurs : Irregularity → FieldType → Json → Bool
  | .arrayForStruct, .struct _ _, .arr _ => true
  | .objectForArray, .array _ _, .obj _ => true
  | .emptyAddress, .string (some .ip) _ _, j => j.text?.any fun s => s.toList.isEmpty
  | .fourthPart, .string (some .semver) _ _, j =>
    (j.text?.bind afterPatch).any fun rest => rest.head?.any fun c => c == '.'
  | .trailingText, .string (some .semver) _ _, j => (j.text?.bind afterPatch).any fun rest =>
      rest.head?.any fun c => !(c == '.' || c == '-' || c == '+')
  | .secondHalf, type, .illFormed _ high => type.isScalar && !high
  | .firstHalf, type, .illFormed _ high => type.isScalar && high
  | .decimal, .int _ _, .num .minusZero => true
  | .decimal, .int _ _, .num (.dec _ _) => true
  | .underflow, .int _ _, .num (.dec _ tiny) => tiny
  | .fraction, .int _ _, .num n => n.toInt?.isNone
  | .beyondInt64, .int _ _, .num n => n.toInt?.any fun i => !isInt64 i
  | _, _, _ => false

def refusedBy (keeps : Bool → Bool) : Irregularity → Language → Bool
  | .arrayForStruct, l => l != .rust
  | .objectForArray, l => l != .lua
  | .emptyAddress, l => l != .cpp
  | .fourthPart, l => l == .cpp
  | .trailingText, l => l == .rust
  | .secondHalf, l => l == .rust || l == .lua && !keeps false
  | .firstHalf, l => l != .lua || !keeps true
  | .decimal, l => l == .rust
  | .underflow, l => l == .cpp
  | .fraction, l => l == .lua
  | .beyondInt64, l => l != .lua

theorem refused (keeps : Bool → Bool) (k : Irregularity) : ∃ l, k.refusedBy keeps l = true := by
  cases k with
  | arrayForStruct => exact ⟨.cpp, rfl⟩
  | objectForArray => exact ⟨.cpp, rfl⟩
  | emptyAddress => exact ⟨.lua, rfl⟩
  | fourthPart => exact ⟨.cpp, rfl⟩
  | trailingText => exact ⟨.rust, rfl⟩
  | secondHalf => exact ⟨.rust, rfl⟩
  | firstHalf => exact ⟨.cpp, rfl⟩
  | decimal => exact ⟨.rust, rfl⟩
  | underflow => exact ⟨.cpp, rfl⟩
  | fraction => exact ⟨.lua, rfl⟩
  | beyondInt64 => exact ⟨.cpp, rfl⟩

end Irregularity

variable {keeps : Bool → Bool}

/-- none that the language refuses -/
def Spared (keeps : Bool → Bool) (l : Language) (type : FieldType) (j : Json) : Prop :=
  ∀ k : Irregularity, k.refusedBy keeps l = true → k.occurs type j = false

/-- what some language takes at one position -/
def SomeHere (keeps : Bool → Bool) (type : FieldType) (j : Json) : Prop :=
  ∃ l, (reading keeps l).Here type j

section
variable {type : FieldType} {j : Json} {P : Prop}

theorem here_of (hhere : ∀ l, (reading keeps l).Here type j ↔ P ∧ Spared keeps l type j)
    (hsome : P → ∃ l, Spared keeps l type j) (l : Language) :
    (reading keeps l).Here type j ↔ SomeHere keeps type j ∧ Spared keeps l type j := by
  rw [hhere l]
  refine and_congr_left fun _ => ⟨fun hP => ?_, fun ⟨m, hm⟩ => ((hhere m).mp hm).1⟩
  obtain ⟨m, hm⟩ := hsome hP
  exact ⟨m, (hhere m).mpr ⟨hP, hm⟩⟩

/-- nobody takes it -/
theorem here_none (h : ∀ l, ¬ (reading keeps l).Here type j) (l : Language) :
    (reading keeps l).Here type j ↔ SomeHere keeps type j ∧ Spared keeps l type j := by
  refine iff_of_false (h l) ?_
  rintro ⟨⟨m, hm⟩, _⟩
  exact h m hm

/-- nothing irregular, and the three say the same -/
theorem here_regular (hhere : ∀ l, (reading keeps l).Here type j ↔ P)
    (hregular : ∀ k : Irregularity, k.occurs type j = false) (l : Language) :
    (reading keeps l).Here type j ↔ SomeHere keeps type j ∧ Spared keeps l type j := by
  have hspared : ∀ l, Spared keeps l type j := fun l k _ => hregular k
  exact here_of (fun l => (hhere l).trans (and_iff_left (hspared l)).symm)
    (fun _ => ⟨.rust, hspared .rust⟩) l

end

/-! ## texts -/

section
variable {min max : Option Nat} {s : String}

/-- what the check of a format is, if it is one of characters only -/
def lenient : StringFormat → String → Bool
  | .ip, s => s.toList.all isIp
  | .semver, s => (afterPatch s).isSome
  | f, s => (Rust.format f).1 s

theorem spared_ip {l : Language} : Spared keeps l (.string (some .ip) min max) (.str s) ↔
    (l ≠ .cpp → s.toList.isEmpty = false) := by
  constructor
  · intro h hl
    exact h .emptyAddress (bne_iff_ne.mpr hl)
  · intro h k hk
    cases k with
    | emptyAddress => exact h (bne_iff_ne.mp hk)
    | _ => rfl

theorem spared_semver {l : Language} : Spared keeps l (.string (some .semver) min max) (.str s) ↔
    (l = .cpp → (afterPatch s).any (fun rest => rest.head?.any fun c => c == '.') = false) ∧
    (l = .rust → (afterPatch s).any (fun rest => rest.head?.any fun c =>
      !(c == '.' || c == '-' || c == '+')) = false) := by
  constructor
  · intro h
    exact ⟨fun hl => h .fourthPart (beq_iff_eq.mpr hl), fun hl => h .trailingText (beq_iff_eq.mpr hl)⟩
  · intro h k hk
    cases k with
    | fourthPart => exact h.1 (beq_iff_eq.mp hk)
    | trailingText => exact h.2 (beq_iff_eq.mp hk)
    | _ => rfl

theorem format_ip (l : Language) : (reading keeps l).format .ip s = true ↔
    s.toList.all isIp = true ∧ (l ≠ .cpp → s.toList.isEmpty = false) := by
  have hrust : Rust.ip s = true ↔ s.toList.all isIp = true ∧ s.toList.isEmpty = false := by
    rw [Rust.ip, Bool.and_eq_true, Bool.not_eq_true', and_comm]
    rfl
  cases l with
  | rust => exact hrust.trans (and_congr_right fun _ => by simp)
  | cpp =>
    have hall : (Text.utf8 s).all Cpp.isIpChar = s.toList.all isIp := ipClass.all_utf8 s.toList
    show (Text.utf8 s).all Cpp.isIpChar = true ↔ _
    rw [hall]
    simp
  | lua =>
    have hsame : LuaPattern.test Lua.ipPattern (Text.utf8 s) = Rust.ip s :=
      (ip_iff s).2.trans (ip_iff s).1.symm
    show LuaPattern.test Lua.ipPattern (Text.utf8 s) = true ↔ _
    rw [hsame, hrust]
    simp

theorem format_semver (l : Language) : (reading keeps l).format .semver s = true ↔
    (afterPatch s).isSome = true ∧ Spared keeps l (.string (some .semver) min max) (.str s) := by
  rw [spared_semver]
  cases l with
  | rust =>
    show Rust.semver s = true ↔ _
    rw [semver_rust_iff]
    cases afterPatch s with
    | none => simp
    | some rest =>
      cases rest with
      | nil => simp
      | cons c rest =>
        simp only [Option.any_some, List.head?_cons, Option.all_some, Bool.not_eq_false']
        simp
  | cpp =>
    show Cpp.isSemver (Text.utf8 s) = true ↔ _
    rw [semver_cpp_iff]
    cases afterPatch s with
    | none => simp
    | some rest => cases rest <;> simp
  | lua =>
    show LuaPattern.test Lua.semverPattern (Text.utf8 s) = true ↔ _
    rw [semver_lua_iff]
    simp

theorem format_same {f : StringFormat} (hip : f ≠ .ip) (hsemver : f ≠ .semver) (l : Language) :
    (reading keeps l).format f s = (Rust.format f).1 s := by
  cases l with
  | rust => rfl
  | cpp =>
    cases f with
    | uuid => rfl
    | hex => exact (hex_iff s).1.symm
    | base64 => exact (base64_iff s).1.symm
    | ip => exact absurd rfl hip
    | datetime => rfl
    | semver => exact absurd rfl hsemver
  | lua =>
    cases f with
    | uuid => exact uuid_iff _
    | hex => exact (hex_iff s).2.trans (hex_iff s).1.symm
    | base64 => exact (base64_iff s).2.trans (base64_iff s).1.symm
    | ip => exact absurd rfl hip
    | datetime => exact datetime_iff _
    | semver => exact absurd rfl hsemver

theorem format_here (f : StringFormat) (l : Language) : (reading keeps l).format f s = true ↔
    lenient f s = true ∧ Spared keeps l (.string (some f) min max) (.str s) := by
  cases f with
  | ip => rw [format_ip, spared_ip, lenient]
  | semver => exact format_semver l
  | _ =>
    rw [format_same (by decide) (by decide) l]
    exact (and_iff_left fun k _ => by cases k <;> rfl).symm

/-- no format is refused by all three for an irregularity -/
theorem string_spared (f : StringFormat) :
    ∃ l, Spared keeps l (.string (some f) min max) (.str s) := by
  cases f with
  | ip => exact ⟨.cpp, spared_ip.mpr fun h => absurd rfl h⟩
  | semver => exact ⟨.lua, spared_semver.mpr ⟨fun h => (by cases h), fun h => by cases h⟩⟩
  | _ => exact ⟨.rust, fun k _ => by cases k <;> rfl⟩

theorem string_here {f : Option StringFormat} (l : Language) :
    (reading keeps l).Here (.string f min max) (.str s) ↔
      SomeHere keeps (.string f min max) (.str s) ∧ Spared keeps l (.string f min max) (.str s) := by
  have hleaf : ∀ l, (reading keeps l).Here (.string f min max) (.str s) ↔
      ((∀ n, min = some n → n ≤ Text.utf8Length s) ∧ ∀ n, max = some n → Text.utf8Length s ≤ n) ∧
        ∀ g, f = some g → (reading keeps l).format g s = true := fun l => Reading.leaf_string
  cases f with
  | none =>
    refine here_regular (fun l => (hleaf l).trans (and_iff_left fun g hg => by cases hg)) ?_ l
    intro k
    cases k <;> rfl
  | some f =>
    refine here_of (P := ((∀ n, min = some n → n ≤ Text.utf8Length s) ∧
      ∀ n, max = some n → Text.utf8Length s ≤ n) ∧ lenient f s = true) (fun l => ?_)
      (fun _ => string_spared f) l
    rw [hleaf l]
    refine Iff.trans (and_congr_right fun _ => ?_) and_assoc.symm
    rw [← format_here]
    refine ⟨fun h => h f rfl, fun h g hg => ?_⟩
    cases hg
    exact h

end

theorem enum_here {ref : EnumDef} {s : String} (l : Language) :
    (reading keeps l).Here (.enum ref) (.str s) ↔
      SomeHere keeps (.enum ref) (.str s) ∧ Spared keeps l (.enum ref) (.str s) :=
  here_regular (P := ref.values.contains s = true) (fun l => Iff.rfl) (fun k => by cases k <;> rfl) l

/-- a text with a half has what the text without it has -/
theorem occurs_half {k : Irregularity} (hsecond : k ≠ .secondHalf) (hfirst : k ≠ .firstHalf)
    (type : FieldType) (s : String) (high : Bool) :
    k.occurs type (.illFormed s high) = k.occurs type (.str s) := by
  cases type with
  | string f min max =>
    cases f with
    | none => cases k <;> first | rfl | contradiction
    | some f => cases k <;> first | contradiction | (cases f <;> rfl)
  | _ => cases k <;> first | rfl | contradiction

theorem occurs_text (type : FieldType) (s : String) :
    Irregularity.secondHalf.occurs type (.str s) = false ∧
      Irregularity.firstHalf.occurs type (.str s) = false := by
  cases type with
  | string f min max =>
    cases f with
    | none => exact ⟨rfl, rfl⟩
    | some f => cases f <;> exact ⟨rfl, rfl⟩
  | _ => exact ⟨rfl, rfl⟩

/-- which halves a language takes -/
theorem refused_half (l : Language) :
    Irregularity.secondHalf.refusedBy keeps l = !(reading keeps l).half false ∧
      Irregularity.firstHalf.refusedBy keeps l = !(reading keeps l).half true := by
  cases l with
  | rust => exact ⟨rfl, rfl⟩
  | cpp => exact ⟨rfl, rfl⟩
  | lua => exact ⟨Bool.false_or _, Bool.false_or _⟩

/-- what the language makes of halves, and the rest -/
theorem spared_split {type : FieldType} {j : Json} {l : Language} : Spared keeps l type j ↔
    ((Irregularity.secondHalf.refusedBy keeps l = true → Irregularity.secondHalf.occurs type j = false) ∧
      (Irregularity.firstHalf.refusedBy keeps l = true → Irregularity.firstHalf.occurs type j = false)) ∧
      ∀ k : Irregularity, k ≠ .secondHalf → k ≠ .firstHalf → k.refusedBy keeps l = true →
        k.occurs type j = false := by
  constructor
  · intro h
    exact ⟨⟨h .secondHalf, h .firstHalf⟩, fun k _ _ => h k⟩
  · rintro ⟨⟨hsecond, hfirst⟩, hrest⟩ k
    cases k with
    | secondHalf => exact hsecond
    | firstHalf => exact hfirst
    | _ => exact hrest _ (by decide) (by decide)

/-- a half is one more thing that a language may refuse -/
theorem spared_half {type : FieldType} {s : String} {high : Bool} {l : Language}
    (hscalar : type.isScalar = true) : Spared keeps l type (.illFormed s high) ↔
      (reading keeps l).half high = true ∧ Spared keeps l type (.str s) := by
  have hsecond : Irregularity.secondHalf.occurs type (.illFormed s high) = !high := by
    rw [Irregularity.occurs, hscalar, Bool.true_and]
  have hfirst : Irregularity.firstHalf.occurs type (.illFormed s high) = high := by
    rw [Irregularity.occurs, hscalar, Bool.true_and]
  rw [spared_split, spared_split (j := .str s), hsecond, hfirst, (refused_half l).1, (refused_half l).2]
  refine and_congr ?_ ?_
  · cases high <;> simp
  · rw [and_iff_right ⟨fun _ => (occurs_text type s).1, fun _ => (occurs_text type s).2⟩]
    refine forall₃_congr fun k hk₂ hk₁ => ?_
    rw [occurs_half hk₂ hk₁]

theorem half_here {type : FieldType} {s : String} {high : Bool} (hscalar : type.isScalar = true)
    (h : ∀ l, (reading keeps l).Here type (.str s) ↔
      SomeHere keeps type (.str s) ∧ Spared keeps l type (.str s))
    (l : Language) : (reading keeps l).Here type (.illFormed s high) ↔
      SomeHere keeps type (.illFormed s high) ∧ Spared keeps l type (.illFormed s high) := by
  have hhere : ∀ l, (reading keeps l).Here type (.illFormed s high) ↔
      (reading keeps l).half high = true ∧ (reading keeps l).Here type (.str s) := by
    intro l
    rw [Reading.here_scalar hscalar, Reading.here_scalar hscalar]
    exact Reading.leaf_half
  constructor
  · intro hl
    obtain ⟨hhalf, hstr⟩ := (hhere l).mp hl
    exact ⟨⟨l, hl⟩, (spared_half hscalar).mpr ⟨hhalf, ((h l).mp hstr).2⟩⟩
  · rintro ⟨⟨m, hm⟩, hspared⟩
    obtain ⟨hhalf, hstr⟩ := (spared_half hscalar).mp hspared
    exact (hhere l).mpr ⟨hhalf, (h l).mpr ⟨⟨m, ((hhere m).mp hm).2⟩, hstr⟩⟩

/-! ## numbers -/

/-- an integral number is rounded to itself -/
theorem truncate_integral {q : ℚ} {tiny : Bool} {i : Int}
    (hq : (JsonNumber.dec q tiny).toInt? = some i) :
    Cpp.Value.truncate q = if isInt64 i then i else -2 ^ 63 := by
  unfold JsonNumber.toInt? at hq
  split at hq
  · rename_i hden
    have hint : ((i : Int) : ℚ) = q := by
      cases hq
      exact (Rat.den_eq_one_iff q).mp hden
    have hround : (if 0 ≤ q then q.floor else q.ceil) = i := by
      rw [← hint]
      split
      · exact Rat.floor_intCast i
      · exact Rat.ceil_intCast i
    rw [Cpp.Value.truncate, hround]
  · cases hq

theorem spared_int {min max : Option Int} {n : JsonNumber} {l : Language} :
    Spared keeps l (.int min max) (.num n) ↔
      (l = .rust → Irregularity.decimal.occurs (.int min max) (.num n) = false) ∧
      (l = .cpp → Irregularity.underflow.occurs (.int min max) (.num n) = false) ∧
      (l = .lua → n.toInt?.isNone = false) ∧
      (l ≠ .lua → n.toInt?.any (fun i => !isInt64 i) = false) := by
  constructor
  · intro h
    exact ⟨fun hl => h .decimal (beq_iff_eq.mpr hl), fun hl => h .underflow (beq_iff_eq.mpr hl),
      fun hl => h .fraction (beq_iff_eq.mpr hl), fun hl => h .beyondInt64 (bne_iff_ne.mpr hl)⟩
  · intro h k hk
    cases k with
    | decimal => exact h.1 (beq_iff_eq.mp hk)
    | underflow => exact h.2.1 (beq_iff_eq.mp hk)
    | fraction => exact h.2.2.1 (beq_iff_eq.mp hk)
    | beyondInt64 => exact h.2.2.2 (bne_iff_ne.mp hk)
    | _ => rfl

/-- the integer that a language reads -/
theorem int_here {min max : Option Int} {n : JsonNumber} (l : Language) :
    (reading keeps l).Here (.int min max) (.num n) ↔
      ∃ i, (reading keeps l).int n = some i ∧ Reading.inBounds min max i = true := Reading.leaf_int

/-- an integer in the text -/
theorem integer_here {min max : Option Int} (i : Int) (l : Language) :
    (reading keeps l).Here (.int min max) (.num (.int i)) ↔
      SomeHere keeps (.int min max) (.num (.int i)) ∧ Spared keeps l (.int min max) (.num (.int i)) := by
  have hint : (JsonNumber.int i).toInt? = some i := JsonNumber.toInt?_int i
  have hread : ∀ l, (reading keeps l).int (.int i) = if l = .lua ∨ isInt64 i then some i else none := by
    intro l
    cases l with
    | rust => simp [reading, rustReading, rustInt]
    | cpp =>
      show (Cpp.Value.ofJson 0 (.num (.int i))).bind Cpp.Value.asInt = _
      rw [Cpp.Value.ofJson_int (Nat.zero_le 32)]
      cases isInt64 i <;> rfl
    | lua => exact hint
  have hspared : ∀ l, Spared keeps l (.int min max) (.num (.int i)) ↔ l = .lua ∨ isInt64 i = true := by
    intro l
    rw [spared_int, hint]
    refine (and_iff_right fun _ => rfl).trans ((and_iff_right fun _ => rfl).trans ?_)
    refine (and_iff_right fun _ => rfl).trans ?_
    simp [or_iff_not_imp_left]
  refine here_of (P := Reading.inBounds min max i = true) (fun l => ?_)
    (fun _ => ⟨.lua, (hspared .lua).mpr (.inl rfl)⟩) l
  rw [int_here, hread, hspared]
  by_cases h : l = .lua ∨ isInt64 i = true
  · simp [h]
  · simp [h]

theorem minusZero_here {min max : Option Int} (l : Language) :
    (reading keeps l).Here (.int min max) (.num .minusZero) ↔
      SomeHere keeps (.int min max) (.num .minusZero) ∧
        Spared keeps l (.int min max) (.num .minusZero) := by
  have hint : JsonNumber.minusZero.toInt? = some 0 := JsonNumber.toInt?_minusZero
  have hread : ∀ l, (reading keeps l).int .minusZero = if l = .rust then none else some 0 := by
    intro l
    cases l with
    | rust => rfl
    | cpp => rfl
    | lua => exact hint
  have hspared : ∀ l, Spared keeps l (.int min max) (.num .minusZero) ↔ l ≠ .rust := by
    intro l
    rw [spared_int, hint]
    constructor
    · intro h hl
      cases h.1 hl
    · intro hl
      exact ⟨fun h => absurd h hl, fun _ => rfl, fun _ => rfl, fun _ => rfl⟩
  refine here_of (P := Reading.inBounds min max 0 = true) (fun l => ?_)
    (fun _ => ⟨.lua, (hspared .lua).mpr (by decide)⟩) l
  rw [int_here, hread, hspared]
  by_cases h : l = .rust
  · simp [h]
  · simp [h]

/-- any other number -/
theorem decimal_here {min max : Option Int} (hordinary : (FieldType.int min max).ordinary = true)
    (q : ℚ) (tiny : Bool) (l : Language) : (reading keeps l).Here (.int min max) (.num (.dec q tiny)) ↔
      SomeHere keeps (.int min max) (.num (.dec q tiny)) ∧
        Spared keeps l (.int min max) (.num (.dec q tiny)) := by
  have hnonneg : ∀ i, Reading.inBounds min max i = true → 0 ≤ i := by
    intro i hi
    obtain ⟨m, hm, hle⟩ := (Option.any_eq_true _ _).mp hordinary
    exact (of_decide_eq_true hle).trans ((Reading.inBounds_iff.mp hi).1 m hm)
  have hrust : (reading keeps .rust).int (.dec q tiny) = none := rfl
  have hrefused : ¬ Spared keeps .rust (.int min max) (.num (.dec q tiny)) := by
    intro h
    cases h .decimal rfl
  have hcpp : (reading keeps .cpp).int (.dec q tiny) =
      if tiny then none else some (Cpp.Value.truncate q) := by
    cases tiny <;> rfl
  have hlua : (reading keeps .lua).int (.dec q tiny) = (JsonNumber.dec q tiny).toInt? := rfl
  cases hint : (JsonNumber.dec q tiny).toInt? with
  | none =>
    cases tiny with
    | true =>
      refine here_none (fun l => ?_) l
      rw [int_here]
      cases l with
      | rust => simp [hrust]
      | cpp => simp [hcpp]
      | lua => simp [hlua, hint]
    | false =>
      have hspared : Spared keeps .cpp (.int min max) (.num (.dec q false)) := by
        rw [spared_int, hint]
        exact ⟨fun h => (by cases h), fun _ => rfl, fun h => (by cases h), fun _ => rfl⟩
      refine here_of (P := Reading.inBounds min max (Cpp.Value.truncate q) = true) (fun l => ?_)
        (fun _ => ⟨.cpp, hspared⟩) l
      rw [int_here]
      cases l with
      | rust => simp [hrust, hrefused]
      | cpp => simp [hcpp, hspared]
      | lua => simp [hlua, hint, spared_int]
  | some i =>
    have hspared : Spared keeps .lua (.int min max) (.num (.dec q tiny)) := by
      rw [spared_int, hint]
      exact ⟨fun h => (by cases h), fun h => (by cases h), fun _ => rfl, fun h => absurd rfl h⟩
    refine here_of (P := Reading.inBounds min max i = true) (fun l => ?_)
      (fun _ => ⟨.lua, hspared⟩) l
    rw [int_here]
    cases l with
    | rust => simp [hrust, hrefused]
    | cpp =>
      have hout : Reading.inBounds min max (-9223372036854775808) = false :=
        Bool.eq_false_iff.mpr fun h => absurd (hnonneg _ h) (by decide)
      rw [hcpp, truncate_integral hint, spared_int, hint]
      cases tiny with
      | true => simp [Irregularity.occurs]
      | false =>
        by_cases hi : isInt64 i = true
        · simp [hi, Irregularity.occurs]
        · simp [hi, hout]
    | lua => simp [hlua, hint, hspared]

/-! ## every position -/

theorem inOrder_here {name : String} {fields : List (String × FieldType)} {items : List Json}
    (l : Language) : (reading keeps l).Here (.struct name fields) (.arr items) ↔
      SomeHere keeps (.struct name fields) (.arr items) ∧
        Spared keeps l (.struct name fields) (.arr items) := by
  have hspared : Spared keeps .rust (.struct name fields) (.arr items) := by
    intro k hk
    cases k with
    | arrayForStruct => cases hk
    | _ => rfl
  have hrefused : ∀ l, l ≠ .rust → ¬ Spared keeps l (.struct name fields) (.arr items) := by
    intro l hl h
    cases h .arrayForStruct (bne_iff_ne.mpr hl)
  refine here_of (P := (reading keeps .rust).Here (.struct name fields) (.arr items)) (fun l => ?_)
    (fun _ => ⟨.rust, hspared⟩) l
  cases l with
  | rust => exact (and_iff_left hspared).symm
  | cpp => exact iff_of_false (fun h => by cases h.1) fun h => hrefused .cpp (by decide) h.2
  | lua => exact iff_of_false (fun h => by cases h.1) fun h => hrefused .lua (by decide) h.2

theorem table_here {items : FieldType} {maxItems : Option Nat} {members : List (String × Json)}
    (l : Language) : (reading keeps l).Here (.array items maxItems) (.obj members) ↔
      SomeHere keeps (.array items maxItems) (.obj members) ∧
        Spared keeps l (.array items maxItems) (.obj members) := by
  have hspared : Spared keeps .lua (.array items maxItems) (.obj members) := by
    intro k hk
    cases k with
    | objectForArray => cases hk
    | _ => rfl
  have hrefused : ∀ l, l ≠ .lua → ¬ Spared keeps l (.array items maxItems) (.obj members) := by
    intro l hl h
    cases h .objectForArray (bne_iff_ne.mpr hl)
  refine here_of (P := (reading keeps .lua).Here (.array items maxItems) (.obj members)) (fun l => ?_)
    (fun _ => ⟨.lua, hspared⟩) l
  cases l with
  | rust => exact iff_of_false (fun h => by cases h.1) fun h => hrefused .rust (by decide) h.2
  | cpp => exact iff_of_false (fun h => by cases h.1) fun h => hrefused .cpp (by decide) h.2
  | lua => exact (and_iff_left hspared).symm

theorem here_iff {type : FieldType} (hordinary : type.ordinary = true) (j : Json) (l : Language) :
    (reading keeps l).Here type j ↔ SomeHere keeps type j ∧ Spared keeps l type j := by
  cases type with
  | string f min max =>
    cases j with
    | str s => exact string_here l
    | illFormed s high => exact half_here rfl string_here l
    | _ => exact here_none (fun l h => by cases h) l
  | int min max =>
    cases j with
    | num n =>
      cases n with
      | int i => exact integer_here i l
      | minusZero => exact minusZero_here l
      | dec q tiny => exact decimal_here hordinary q tiny l
    | _ => exact here_none (fun l h => by cases h) l
  | bool =>
    cases j with
    | bool b =>
      have hbool : ∀ l, (reading keeps l).Here .bool (.bool b) := fun l => Reading.bool_here
      exact here_regular (P := True) (fun l => iff_true_intro (hbool l)) (fun k => by cases k <;> rfl) l
    | _ => exact here_none (fun l h => by cases h) l
  | enum ref =>
    cases j with
    | str s => exact enum_here l
    | illFormed s high => exact half_here rfl enum_here l
    | _ => exact here_none (fun l h => by cases h) l
  | struct name fields =>
    cases j with
    | obj members =>
      exact here_regular (P := (reading keeps .rust).Here (.struct name fields) (.obj members))
        (fun l => Iff.rfl) (fun k => by cases k <;> rfl) l
    | arr items => exact inOrder_here l
    | _ => exact here_none (fun l h => by cases h) l
  | array items maxItems =>
    cases j with
    | arr xs =>
      exact here_regular (P := (reading keeps .rust).Here (.array items maxItems) (.arr xs))
        (fun l => Iff.rfl) (fun k => by cases k <;> rfl) l
    | obj members => exact table_here l
    | _ => exact here_none (fun l h => by cases h) l
  | optional inner =>
    refine here_regular (P := True) (fun l => Iff.rfl) (fun k => ?_) l
    cases k with
    | secondHalf => cases j <;> rfl
    | firstHalf => cases j <;> rfl
    | _ => rfl

/-- taken by some language at every position -/
def Lax (keeps : Bool → Bool) : FieldType → Json → Prop := Everywhere (SomeHere keeps)

/-- there is one of the kind somewhere in the value -/
def Has (k : Irregularity) : FieldType → Json → Prop := Somewhere fun t v => k.occurs t v = true

theorem ordinary_below {type : FieldType} (h : type.ordinary = true) {j : Json}
    {p : FieldType × Json} (hp : p ∈ below type j) : p.1.ordinary = true := by
  cases type with
  | struct name fields =>
    obtain ⟨_, hfields⟩ := ordinary_struct h
    cases j with
    | obj members =>
      obtain ⟨f, hf, _, htype⟩ := mem_below_obj.mp hp
      rw [htype]
      exact hfields f hf
    | arr items =>
      obtain ⟨q, hq, rfl⟩ := List.mem_map.mp hp
      exact hfields q.1 (List.of_mem_zip hq).1
    | _ => exact absurd hp List.not_mem_nil
  | array items maxItems =>
    cases j with
    | arr xs =>
      obtain ⟨x, _, rfl⟩ := List.mem_map.mp hp
      exact h
    | _ => exact absurd hp List.not_mem_nil
  | optional inner =>
    rw [List.mem_singleton.mp hp]
    exact h
  | _ => exact absurd hp List.not_mem_nil

theorem takes_iff {type : FieldType} (hordinary : type.ordinary = true) (j : Json) (l : Language) :
    (reading keeps l).Takes type j ↔
      Lax keeps type j ∧ ∀ k : Irregularity, k.refusedBy keeps l = true → ¬ Has k type j := by
  have hspared : Everywhere (Spared keeps l) type j ↔
      ∀ k : Irregularity, k.refusedBy keeps l = true → ¬ Has k type j := by
    unfold Spared
    rw [everywhere_forall]
    refine forall_congr' fun k => ?_
    rw [Has, not_somewhere]
    cases k.refusedBy keeps l with
    | true => simp
    | false => exact iff_of_true (everywhere_of (fun _ _ h => by cases h) type j) fun h => by cases h
  rw [← hspared, Reading.Takes, Lax, ← everywhere_and]
  exact everywhere_congr (C := fun t => t.ordinary = true) (fun _ _ h _ hp => ordinary_below h hp)
    (fun _ v h => here_iff h v l) hordinary j

/-! ## the three languages -/

/-- the decoder takes the text, and `M.validate` the table -/
def luaAccepts (keeps : Bool → Bool) (type : FieldType) (j : Json) : Bool :=
  j.readable keeps && Lua.accepts type j

def accepts (keeps : Bool → Bool) : Language → FieldType → Json → Bool
  | .rust => Rust.accepts
  | .cpp => Cpp.accepts
  | .lua => luaAccepts keeps

theorem accepts_iff {type : FieldType} (hordinary : type.ordinary = true) (hdepth : type.depth ≤ 32)
    {j : Json} (hvalid : j.valid = true) (hnull : j.nullFree = true) (l : Language) :
    accepts keeps l type j = true ↔ (reading keeps l).Takes type j := by
  cases l with
  | rust => exact rust_takes hnull
  | cpp =>
    constructor
    · intro h
      obtain ⟨v, hv, hok⟩ := (Option.any_eq_true _ _).mp h
      exact cpp_read hnull ⟨hvalid, 0, v, "", hv, hok⟩
    · intro h
      have hzero : 0 + type.depth ≤ 32 := by omega
      obtain ⟨v, hv, _, hok⟩ := cpp_of_read hvalid hzero h
      exact (Option.any_eq_true _ _).mpr ⟨v, hv, hok ""⟩
  | lua =>
    have hcheck : Lua.accepts type j = true ↔ luaReading.Takes type j := by
      rw [← lua_takes hordinary hnull (Lua.defaultPath type), Lua.accepts, Check.isOk_iff]
      constructor
      · rintro ⟨_, h⟩
        exact h
      · intro h
        exact ⟨(), h⟩
    show (j.readable keeps && Lua.accepts type j) = true ↔ (luaReading.keeping keeps).Takes type j
    rw [Reading.takes_keeping (fun _ => rfl) rfl hvalid, Bool.and_eq_true, hcheck]
    exact and_comm

theorem agree_cases {type : FieldType} {j : Json} :
    (Rust.accepts type j = Cpp.accepts type j ∧ Cpp.accepts type j = luaAccepts keeps type j) ↔
      (∀ l, accepts keeps l type j = true) ∨ ∀ l, accepts keeps l type j = false := by
  constructor
  · rintro ⟨hcpp, hlua⟩
    have hsame : ∀ l, accepts keeps l type j = Rust.accepts type j := by
      intro l
      cases l with
      | rust => rfl
      | cpp => exact hcpp.symm
      | lua => exact (hcpp.trans hlua).symm
    cases hrust : Rust.accepts type j with
    | true => exact .inl fun l => (hsame l).trans hrust
    | false => exact .inr fun l => (hsame l).trans hrust
  · rintro (h | h)
    · exact ⟨(h .rust).trans (h .cpp).symm, (h .cpp).trans (h .lua).symm⟩
    · exact ⟨(h .rust).trans (h .cpp).symm, (h .cpp).trans (h .lua).symm⟩

theorem agree_iff {type : FieldType} (hordinary : type.ordinary = true) (hdepth : type.depth ≤ 32)
    {j : Json} (hvalid : j.valid = true) (hnull : j.nullFree = true) :
    (Rust.accepts type j = Cpp.accepts type j ∧ Cpp.accepts type j = luaAccepts keeps type j) ↔
      (Lax keeps type j → (∀ k, ¬ Has k type j) ∨
        ∀ l, ∃ k : Irregularity, k.refusedBy keeps l = true ∧ Has k type j) := by
  have haccepts : ∀ l, accepts keeps l type j = true ↔
      Lax keeps type j ∧ ∀ k : Irregularity, k.refusedBy keeps l = true → ¬ Has k type j :=
    fun l => (accepts_iff hordinary hdepth hvalid hnull l).trans (takes_iff hordinary j l)
  rw [agree_cases]
  by_cases hlax : Lax keeps type j
  · have hall : (∀ l, accepts keeps l type j = true) ↔ ∀ k, ¬ Has k type j := by
      constructor
      · intro h k
        obtain ⟨l, hl⟩ := k.refused keeps
        exact ((haccepts l).mp (h l)).2 k hl
      · intro h l
        exact (haccepts l).mpr ⟨hlax, fun k _ => h k⟩
    have hnone : (∀ l, accepts keeps l type j = false) ↔
        ∀ l, ∃ k : Irregularity, k.refusedBy keeps l = true ∧ Has k type j := by
      refine forall_congr' fun l => ?_
      rw [← Bool.not_eq_true, haccepts l, and_iff_right hlax]
      push Not
      rfl
    rw [hall, hnone]
    exact (imp_iff_right hlax).symm
  · refine iff_of_true (.inr fun l => ?_) fun h => absurd h hlax
    rw [← Bool.not_eq_true, haccepts l]
    exact fun h => hlax h.1

/-! ## the registry -/

theorem registry_ordinary : ∀ type ∈ Schema.registry, type.ordinary = true := by decide

/-- **Where the three agree.** -/
theorem validators_agree_iff (keeps : Bool → Bool) :
    ∀ type ∈ Schema.registry, ∀ j : Json, j.valid = true → j.nullFree = true →
      ((Rust.accepts type j = Cpp.accepts type j ∧ Cpp.accepts type j = luaAccepts keeps type j) ↔
        (Lax keeps type j → (∀ k, ¬ Has k type j) ∨
          ∀ l, ∃ k : Irregularity, k.refusedBy keeps l = true ∧ Has k type j)) := by
  intro type htype j hvalid hnull
  exact agree_iff (registry_ordinary type htype) (registry_depth type htype) hvalid hnull

/-- a player whose address is not known -/
def addressless : Json := .obj [("license", .str "license:1f"), ("ip", .str "")]

theorem validators_agree_addressless : Schema.PlayerIdentifiers ∈ Schema.registry ∧
    ((Rust.accepts Schema.PlayerIdentifiers addressless =
        Cpp.accepts Schema.PlayerIdentifiers addressless ∧
      Cpp.accepts Schema.PlayerIdentifiers addressless =
        luaAccepts (fun _ => false) Schema.PlayerIdentifiers addressless) ↔
      (Lax (fun _ => false) Schema.PlayerIdentifiers addressless →
        (∀ k, ¬ Has k Schema.PlayerIdentifiers addressless) ∨
          ∀ l, ∃ k : Irregularity, k.refusedBy (fun _ => false) l = true ∧
            Has k Schema.PlayerIdentifiers addressless)) := by
  have hmem : Schema.PlayerIdentifiers ∈ Schema.registry := by simp [Schema.registry]
  have hvalid : addressless.valid = true := by decide +kernel
  have hnull : addressless.nullFree = true := by decide +kernel
  exact ⟨hmem, validators_agree_iff (fun _ => false) _ hmem _ hvalid hnull⟩

/-- C++ takes it, and the others do not -/
theorem validators_disagree : ∃ type ∈ Schema.registry, ∃ j : Json, j.valid = true ∧
    j.nullFree = true ∧ Cpp.accepts type j = true ∧ Rust.accepts type j = false ∧
      Lua.accepts type j = false := by
  refine ⟨Schema.PlayerIdentifiers, by simp [Schema.registry], addressless, ?_, ?_, ?_, ?_, ?_⟩
  · decide +kernel
  · decide +kernel
  · decide +kernel
  · decide +kernel
  · decide +kernel

end Protocol
