import FiveProtect.Lib.AsciiClass
import FiveProtect.Protocol.Cpp
import FiveProtect.Protocol.LuaCheck
import FiveProtect.Protocol.Rust
import Mathlib.Data.List.Zip

/-!
# Protocol: a format on every text

The generators for Rust, C++ and Lua each write their own check of a format.  What the three say of an
arbitrary text:

* `hex_iff`, `base64_iff`, `uuid_iff`, `datetime_iff`   the same;
* `ip_iff`       C++ takes the empty text, too;
* `semver_lua_iff`, `semver_cpp_iff`, `semver_rust_iff`   Lua is content with three numbers, C++ wants no fourth dot
                 after them and Rust nothing else, unless after `-` or `+`.
-/

namespace Protocol
open Zod (isDigit isLowerHex isHex isAlnum)
open LuaPattern (byteOf)

/-! ## classes -/

theorem isDigit_ascii {c : Char} (h : isDigit c = true) : c.toNat < 128 := by
  simp only [isDigit, Bool.and_eq_true, decide_eq_true_eq, Char.le_def, UInt32.le_iff_toNat_le] at h
  have hle : c.toNat ≤ 57 := h.2
  omega

theorem isHex_ascii {c : Char} (h : isHex c = true) : c.toNat < 128 := by
  simp only [isHex, isLowerHex, Bool.or_eq_true, Bool.and_eq_true, decide_eq_true_eq, Char.le_def,
    UInt32.le_iff_toNat_le] at h
  rcases h with (h | ⟨_, h⟩) | ⟨_, h⟩
  · exact isDigit_ascii h
  · exact lt_of_le_of_lt h (by decide)
  · exact lt_of_le_of_lt h (by decide)

theorem isAlnum_ascii {c : Char} (h : isAlnum c = true) : c.toNat < 128 := by
  simp only [isAlnum, Bool.or_eq_true, Bool.and_eq_true, decide_eq_true_eq, Char.le_def,
    UInt32.le_iff_toNat_le] at h
  rcases h with (h | ⟨_, h⟩) | ⟨_, h⟩
  · exact isDigit_ascii h
  · exact lt_of_le_of_lt h (by decide)
  · exact lt_of_le_of_lt h (by decide)

def isBase64 (c : Char) : Bool := isAlnum c || c == '+' || c == '/' || c == '='

def isIp (c : Char) : Bool := isHex c || c == '.' || c == ':'

theorem isBase64_ascii {c : Char} (h : isBase64 c = true) : c.toNat < 128 := by
  simp only [isBase64, Bool.or_eq_true, beq_iff_eq] at h
  rcases h with ((h | rfl) | rfl) | rfl
  · exact isAlnum_ascii h
  · decide
  · decide
  · decide

theorem isIp_ascii {c : Char} (h : isIp c = true) : c.toNat < 128 := by
  simp only [isIp, Bool.or_eq_true, beq_iff_eq] at h
  rcases h with (h | rfl) | rfl
  · exact isHex_ascii h
  · decide
  · decide

def digitClass : AsciiClass :=
  ⟨isDigit, LuaPattern.isDigit, by decide, by decide, fun _ => isDigit_ascii⟩

def hexClass : AsciiClass := ⟨isHex, LuaPattern.isHex, by decide, by decide, fun _ => isHex_ascii⟩

def base64Class : AsciiClass :=
  ⟨isBase64, Cpp.isBase64Char, by decide, by decide, fun _ => isBase64_ascii⟩

def ipClass : AsciiClass := ⟨isIp, Cpp.isIpChar, by decide, by decide, fun _ => isIp_ascii⟩

def dotClass : AsciiClass := by
  refine ⟨(· == '.'), (· == byteOf '.'), by decide, by decide, fun c hc => ?_⟩
  rw [beq_iff_eq.mp hc]
  decide

/-! ## texts of one class -/

theorem byte_ext {p q : UInt8 → Bool} (h : ∀ n < 256, p (UInt8.ofNat n) = q (UInt8.ofNat n)) :
    p = q := by
  funext b
  have hb := h b.toNat b.toNat_lt
  rwa [UInt8.ofNat_toNat] at hb

theorem hex_iff (s : String) : Rust.hex s = (Text.utf8 s).all Cpp.isHexDigit ∧
    LuaPattern.test Lua.hexPattern (Text.utf8 s) = (Text.utf8 s).all Cpp.isHexDigit :=
  ⟨(hexClass.all_utf8 s.toList).symm, LuaPattern.test_star _⟩

theorem base64_iff (s : String) : Rust.base64 s = (Text.utf8 s).all Cpp.isBase64Char ∧
    LuaPattern.test Lua.base64Pattern (Text.utf8 s) = (Text.utf8 s).all Cpp.isBase64Char := by
  refine ⟨(base64Class.all_utf8 s.toList).symm, ?_⟩
  have hset : (LuaPattern.Class.set false [.range 'A' 'Z', .range 'a' 'z', .range '0' '9', .char '+',
      .char '/', .char '=']).test = Cpp.isBase64Char := byte_ext (by decide +kernel)
  rw [Lua.base64Pattern, LuaPattern.test_star, hset]

theorem utf8Chars_isEmpty (l : List Char) : (Text.utf8Chars l).isEmpty = l.isEmpty := by
  cases l with
  | nil => rfl
  | cons c l =>
    obtain ⟨b, bs, hbs⟩ := List.exists_cons_of_ne_nil (String.utf8EncodeChar_ne_nil (c := c))
    show (String.utf8EncodeChar c ++ Text.utf8Chars l).isEmpty = false
    rw [hbs]
    rfl

theorem ip_iff (s : String) :
    Rust.ip s = (!(Text.utf8 s).isEmpty && (Text.utf8 s).all Cpp.isIpChar) ∧
      LuaPattern.test Lua.ipPattern (Text.utf8 s) =
        (!(Text.utf8 s).isEmpty && (Text.utf8 s).all Cpp.isIpChar) := by
  constructor
  · have hall : (Text.utf8Chars s.toList).all Cpp.isIpChar = s.toList.all isIp :=
      ipClass.all_utf8 s.toList
    rw [Text.utf8, utf8Chars_isEmpty, hall]
    rfl
  · have hset : (LuaPattern.Class.set false [.hex, .char '.', .char ':']).test = Cpp.isIpChar :=
      byte_ext (by decide +kernel)
    rw [Lua.ipPattern, LuaPattern.test_plus, hset]

/-! ## texts of a fixed shape -/

/-- the class of each position of a UUID -/
def uuidClasses : List LuaPattern.Class :=
  (List.range 36).map fun i => if isDashPosition i then .char '-' else .hex

theorem uuid_iff (b : Bytes) : LuaPattern.test Lua.uuidPattern b = uuidShaped b := by
  have hitems : Lua.uuidPattern.items = uuidClasses.map (·, LuaPattern.Rep.one) := rfl
  show LuaPattern.matchItems true Lua.uuidPattern.items b = _
  rw [hitems, LuaPattern.matchItems_map, uuidShaped]
  have hlen : uuidClasses.length = 36 := rfl
  rw [hlen]
  by_cases hb : b.length = 36
  · have hzip : b.zipIdx = b.zip (List.range 36) := by
      rw [List.zipIdx_eq_zip_range', hb, List.range_eq_range']
    have hswap : (List.range 36).zip b = (b.zip (List.range 36)).map Prod.swap :=
      (List.zip_swap _ _).symm
    rw [hzip, uuidClasses, List.zip_map_left, List.all_map, hswap, List.all_map, hb]
    simp only [Nat.le_refl, decide_true, Bool.true_and, Bool.not_true, Bool.false_or, Bool.and_true,
      beq_self_eq_true]
    congr 1
    funext p
    obtain ⟨x, i⟩ := p
    show LuaPattern.Class.test (if isDashPosition i then _ else _) x = _
    cases hdash : isDashPosition i with
    | true => rfl
    | false => rfl
  · rw [beq_eq_false_iff_ne.mpr hb]
    have hne : ¬ (36 ≤ b.length ∧ b.length ≤ 36) := by omega
    cases hle : decide (36 ≤ b.length) with
    | false => rfl
    | true =>
      have hgt : decide (b.length ≤ 36) = false :=
        decide_eq_false fun h => hne ⟨of_decide_eq_true hle, h⟩
      rw [hgt]
      simp

/-- the class of a byte of `datetimeShape` -/
def shapeClass (b : UInt8) : LuaPattern.Class :=
  if b = byteOf '0' then .digit else .char (Char.ofNat b.toNat)

theorem shapeClass_test (b x : UInt8) : (shapeClass b).test x =
    if b = byteOf '0' then LuaPattern.isDigit x else x == b := by
  unfold shapeClass
  by_cases hb : b = byteOf '0'
  · rw [if_pos hb, if_pos hb]
    rfl
  · have hall : ∀ n < 256, byteOf (Char.ofNat n) = UInt8.ofNat n := by
      decide +kernel
    rw [if_neg hb, if_neg hb]
    show (x == byteOf (Char.ofNat b.toNat)) = _
    rw [hall b.toNat b.toNat_lt, UInt8.ofNat_toNat]

theorem datetime_iff (b : Bytes) : LuaPattern.test Lua.datetimePattern b = datetimeShaped b := by
  have hitems : Lua.datetimePattern.items =
      (datetimeShape.map shapeClass).map (·, LuaPattern.Rep.one) := rfl
  show LuaPattern.matchItems false Lua.datetimePattern.items b = _
  rw [hitems, LuaPattern.matchItems_map, datetimeShaped, List.length_map, List.zip_map_left,
    List.all_map]
  simp only [Bool.not_false, Bool.true_or, Bool.and_true]
  congr 2
  funext p
  exact shapeClass_test p.1 p.2

/-! ## versions -/

section
variable {α : Type}

/-- what follows the three numbers a text starts with -/
def afterNumbers (digit dot : α → Bool) (l : List α) : Option (List α) :=
  (Scan.some1 digit l).bind fun l => (Scan.one dot l).bind fun l =>
    (Scan.some1 digit l).bind fun l => (Scan.one dot l).bind (Scan.some1 digit)

/-- what follows the three numbers of a version -/
def afterPatch (s : String) : Option (List Char) := afterNumbers isDigit (· == '.') s.toList

theorem afterNumbers_utf8 (l : List Char) :
    afterNumbers LuaPattern.isDigit (· == byteOf '.') (Text.utf8Chars l) =
      (afterNumbers isDigit (· == '.') l).map Text.utf8Chars := by
  have hdigit : ∀ l, Scan.some1 LuaPattern.isDigit (Text.utf8Chars l) =
      (Scan.some1 isDigit l).map Text.utf8Chars := digitClass.some1_utf8
  have hdot : ∀ l, Scan.one (· == byteOf '.') (Text.utf8Chars l) =
      (Scan.one (· == '.') l).map Text.utf8Chars := dotClass.one_utf8
  simp only [afterNumbers, hdigit, hdot, Option.bind_map, Option.map_bind, Function.comp_def]

end

/-! ### Lua -/

theorem digit_not_dot_byte {b : UInt8} (h : LuaPattern.isDigit b = true) : (b == byteOf '.') = false := by
  refine beq_eq_false_iff_ne.mpr fun he => ?_
  rw [he] at h
  exact absurd h (by decide)

theorem test_semver (b : Bytes) : LuaPattern.test Lua.semverPattern b =
    (afterNumbers LuaPattern.isDigit (· == byteOf '.') b).isSome := by
  have hstop : ∀ {p : List (LuaPattern.Class × LuaPattern.Rep)} (b : UInt8) (s : Bytes),
      LuaPattern.Class.digit.test b = true →
        LuaPattern.matchItems false ((.char '.', .one) :: p) (b :: s) = false := by
    intro p b s hb
    rw [LuaPattern.matchItems]
    show ((b == byteOf '.') && _) = false
    rw [digit_not_dot_byte hb, Bool.false_and]
  show LuaPattern.matchItems false [(.digit, .plus), (.char '.', .one), (.digit, .plus),
    (.char '.', .one), (.digit, .plus)] b = _
  rw [afterNumbers, LuaPattern.matchItems_plus_iff hstop, Option.isSome_bind]
  congr 1
  funext l
  rw [LuaPattern.matchItems_one_iff, Option.isSome_bind]
  congr 1
  funext l
  rw [LuaPattern.matchItems_plus_iff hstop, Option.isSome_bind]
  congr 1
  funext l
  rw [LuaPattern.matchItems_one_iff, Option.isSome_bind]
  congr 1
  funext l
  exact LuaPattern.matchItems_plus_last l

theorem semver_lua_iff (s : String) :
    LuaPattern.test Lua.semverPattern (Text.utf8 s) = (afterPatch s).isSome := by
  rw [test_semver, Text.utf8, afterNumbers_utf8, Option.isSome_map, afterPatch]

/-! ### C++ -/

theorem semverLoop_run (b : Bytes) (dots : Nat) :
    Cpp.semverLoop b dots true = Cpp.semverLoop (b.dropWhile LuaPattern.isDigit) dots true := by
  induction b with
  | nil => rfl
  | cons x b ih =>
    rw [List.dropWhile_cons]
    cases hx : LuaPattern.isDigit x with
    | true => rw [if_pos rfl, Cpp.semverLoop, if_pos hx, ih]
    | false => rfl

/-- a number, at least one digit of it -/
theorem semverLoop_number (b : Bytes) (dots : Nat) : Cpp.semverLoop b dots false =
    (Scan.some1 LuaPattern.isDigit b).any fun rest => Cpp.semverLoop rest dots true := by
  cases b with
  | nil => exact Bool.and_false _
  | cons x b =>
    rw [Scan.some1, Scan.one]
    cases hx : LuaPattern.isDigit x with
    | true =>
      rw [Cpp.semverLoop, if_pos hx, semverLoop_run]
      rfl
    | false =>
      rw [Cpp.semverLoop, if_neg (by rw [hx]; exact Bool.false_ne_true)]
      by_cases hdot : x = byteOf '.'
      · rw [if_pos hdot]
        rfl
      · rw [if_neg hdot]
        exact Bool.and_false _

/-- after a number that is not the last -/
theorem semverLoop_dot_iff {b : Bytes} {dots : Nat} (hdots : dots < 2)
    (hb : b.head?.any LuaPattern.isDigit = false) : Cpp.semverLoop b dots true =
      (Scan.one (· == byteOf '.') b).any fun rest => Cpp.semverLoop rest (dots + 1) false := by
  have hle : decide (2 ≤ dots) = false := decide_eq_false (Nat.not_le.mpr hdots)
  cases b with
  | nil =>
    rw [Cpp.semverLoop, hle]
    rfl
  | cons x b =>
    have hx : ¬ LuaPattern.isDigit x = true := Bool.eq_false_iff.mp hb
    rw [Cpp.semverLoop, if_neg hx, Scan.one]
    by_cases hdot : x = byteOf '.'
    · have hthird : ¬ 2 < dots + 1 := Nat.not_lt.mpr hdots
      rw [if_pos hdot, if_pos (beq_iff_eq.mpr hdot), if_neg hthird]
      rfl
    · rw [if_neg hdot, hle, if_neg (by rwa [beq_iff_eq])]
      rfl

/-- after the last number -/
theorem semverLoop_last {b : Bytes} (hb : b.head?.any LuaPattern.isDigit = false) :
    Cpp.semverLoop b 2 true = !b.head?.any (· == byteOf '.') := by
  cases b with
  | nil => rfl
  | cons x b =>
    have hx : ¬ LuaPattern.isDigit x = true := Bool.eq_false_iff.mp hb
    rw [Cpp.semverLoop, if_neg hx, List.head?_cons, Option.any_some]
    by_cases hdot : x = byteOf '.'
    · rw [if_pos hdot, beq_iff_eq.mpr hdot]
      rfl
    · rw [if_neg hdot, beq_eq_false_iff_ne.mpr hdot]
      rfl

theorem some1_head {α : Type} {p : α → Bool} {l rest : List α} (h : Scan.some1 p l = some rest) :
    rest.head?.any p = false := by
  obtain ⟨l', _, rfl⟩ := Option.map_eq_some_iff.mp h
  cases hd : l'.dropWhile p with
  | nil => rfl
  | cons x l =>
    have hx := List.head?_dropWhile_not p l'
    rw [hd] at hx
    simpa using hx

theorem isSemver_eq (b : Bytes) : Cpp.isSemver b =
    (afterNumbers LuaPattern.isDigit (· == byteOf '.') b).any fun rest =>
      !rest.head?.any (· == byteOf '.') := by
  unfold Cpp.isSemver afterNumbers
  rw [semverLoop_number]
  cases h₁ : Scan.some1 LuaPattern.isDigit b with
  | none => rfl
  | some l₁ =>
    rw [Option.any_some, Option.bind_some, semverLoop_dot_iff (by decide) (some1_head h₁)]
    cases Scan.one (· == byteOf '.') l₁ with
    | none => rfl
    | some l₂ =>
      rw [Option.any_some, Option.bind_some, semverLoop_number]
      cases h₃ : Scan.some1 LuaPattern.isDigit l₂ with
      | none => rfl
      | some l₃ =>
        rw [Option.any_some, Option.bind_some, semverLoop_dot_iff (by decide) (some1_head h₃)]
        cases Scan.one (· == byteOf '.') l₃ with
        | none => rfl
        | some l₄ =>
          rw [Option.any_some, Option.bind_some, semverLoop_number]
          cases h₅ : Scan.some1 LuaPattern.isDigit l₄ with
          | none => rfl
          | some l₅ => exact semverLoop_last (some1_head h₅)

theorem semver_cpp_iff (s : String) : Cpp.isSemver (Text.utf8 s) =
    (afterPatch s).any fun rest => !rest.head?.any (· == '.') := by
  have hhead : ∀ l : List Char, (Text.utf8Chars l).head?.any (· == byteOf '.') =
      l.head?.any (· == '.') := dotClass.head_utf8
  rw [isSemver_eq, Text.utf8, afterNumbers_utf8, afterPatch, Option.any_map]
  congr 1
  funext rest
  exact congrArg _ (hhead rest)

/-! ### Rust -/

section
variable {α : Type} {p q : α → Bool}

theorem one_takeWhile (h : ∀ x, p x = true → q x = true) (l : List α) :
    Scan.one p (l.takeWhile q) = (Scan.one p l).map (List.takeWhile q) := by
  cases l with
  | nil => rfl
  | cons x l =>
    rw [List.takeWhile_cons, Scan.one]
    cases hp : p x with
    | true =>
      rw [h x hp, if_pos rfl, Scan.one, hp]
      rfl
    | false =>
      split
      · rw [Scan.one, hp]
        rfl
      · rfl

theorem some1_takeWhile (h : ∀ x, p x = true → q x = true) (l : List α) :
    Scan.some1 p (l.takeWhile q) = (Scan.some1 p l).map (List.takeWhile q) := by
  have hdrop : ∀ l : List α, (l.takeWhile q).dropWhile p = (l.dropWhile p).takeWhile q := by
    intro l
    induction l with
    | nil => rfl
    | cons x l ih =>
      rw [List.takeWhile_cons, List.dropWhile_cons]
      cases hp : p x with
      | true => rw [h x hp, if_pos rfl, List.dropWhile_cons, hp, if_pos rfl, if_pos rfl, ih]
      | false =>
        rw [if_neg Bool.false_ne_true, List.takeWhile_cons]
        split
        · rw [List.dropWhile_cons, hp, if_neg Bool.false_ne_true]
        · rfl
  rw [Scan.some1, one_takeWhile h, Scan.some1, Option.map_map, Option.map_map]
  congr 1
  funext l
  exact hdrop l

end

theorem digit_not_dot {c : Char} (h : isDigit c = true) : (!(c == '.')) = true := by
  rw [Bool.not_eq_true']
  refine beq_eq_false_iff_ne.mpr fun he => ?_
  rw [he] at h
  exact absurd h (by decide)

theorem digit_in_release {c : Char} (h : isDigit c = true) : (!(c == '-' || c == '+')) = true := by
  have hdash : c ≠ '-' := fun he => absurd (he ▸ h) (by decide)
  have hplus : c ≠ '+' := fun he => absurd (he ▸ h) (by decide)
  rw [beq_eq_false_iff_ne.mpr hdash, beq_eq_false_iff_ne.mpr hplus]
  rfl

/-- the first part between dots -/
theorem splitOnP_dot (l : List Char) : l.splitOnP (· == '.') =
    l.takeWhile (fun c => !(c == '.')) ::
      (Scan.one (· == '.') (l.dropWhile fun c => !(c == '.'))).elim [] (List.splitOnP (· == '.')) := by
  have hpart : ∀ c ∈ l.takeWhile (fun c => !(c == '.')), (c == '.') = false := by
    intro c hc
    rw [← Bool.not_eq_true']
    exact List.mem_takeWhile_imp (p := fun c => !(c == '.')) hc
  have hl := List.takeWhile_append_dropWhile (p := fun c => !(c == '.')) (l := l)
  cases hd : l.dropWhile fun c => !(c == '.') with
  | nil =>
    rw [hd, List.append_nil] at hl
    rw [hl] at hpart ⊢
    exact List.splitOnP_eq_singleton hpart
  | cons x rest =>
    have hx : (x == '.') = true := by
      have hhead := List.head?_dropWhile_not (fun c => !(c == '.')) l
      rw [hd] at hhead
      simpa using hhead
    rw [hd] at hl
    conv_lhs => rw [← hl]
    rw [List.splitOnP_append_cons_of_forall_mem hpart x hx, Scan.one, hx]
    rfl

/-- a part that is a number -/
theorem numeric_part (l : List Char) : Rust.numeric (l.takeWhile fun c => !(c == '.')) =
    (Scan.some1 isDigit l).any fun rest => rest.head?.all (· == '.') := by
  have hrun : ∀ l : List Char, (l.takeWhile fun c => !(c == '.')).all isDigit =
      (l.dropWhile isDigit).head?.all (· == '.') := by
    intro l
    induction l with
    | nil => rfl
    | cons c l ih =>
      rw [List.takeWhile_cons, List.dropWhile_cons]
      cases hc : isDigit c with
      | true => rw [digit_not_dot hc, if_pos rfl, if_pos rfl, List.all_cons, hc, ih, Bool.true_and]
      | false =>
        rw [if_neg Bool.false_ne_true, List.head?_cons, Option.all_some]
        cases hdot : c == '.' with
        | true => rfl
        | false => rw [Bool.not_false, if_pos rfl, List.all_cons, hc, Bool.false_and]
  cases l with
  | nil => rfl
  | cons c l =>
    rw [List.takeWhile_cons, Scan.some1, Scan.one]
    cases hc : isDigit c with
    | true =>
      rw [digit_not_dot hc, if_pos rfl, Rust.numeric, List.all_cons, hc, hrun]
      rfl
    | false =>
      cases hdot : c == '.' with
      | true => rfl
      | false =>
        rw [Bool.not_false, if_pos rfl, Rust.numeric, List.all_cons, hc, Bool.false_and,
          Bool.and_false]
        rfl

theorem dropWhile_number {l rest : List Char} (h : Scan.some1 isDigit l = some rest)
    (hrest : rest.head?.all (· == '.') = true) : (l.dropWhile fun c => !(c == '.')) = rest := by
  obtain ⟨l', h', rfl⟩ := Option.map_eq_some_iff.mp h
  obtain ⟨x, hx, rfl⟩ := Scan.one_eq h'
  have hrun : ∀ c ∈ l'.takeWhile isDigit, (!(c == '.')) = true :=
    fun c hc => digit_not_dot (List.mem_takeWhile_imp hc)
  rw [List.dropWhile_cons, digit_not_dot hx, if_pos rfl]
  conv_lhs => rw [← List.takeWhile_append_dropWhile (p := isDigit) (l := l')]
  rw [List.dropWhile_append_of_pos hrun]
  cases hd : l'.dropWhile isDigit with
  | nil => rfl
  | cons c rest =>
    rw [hd, List.head?_cons, Option.all_some] at hrest
    rw [List.dropWhile_cons, hrest]
    rfl

/-- the first `n` parts are numbers -/
def numbers : Nat → List (List Char) → Bool
  | 0, _ => true
  | _ + 1, [] => false
  | n + 1, part :: parts => Rust.numeric part && numbers n parts

theorem numbers_one (l : List Char) : numbers 1 (l.splitOnP (· == '.')) =
    (Scan.some1 isDigit l).any fun rest => rest.head?.all (· == '.') := by
  rw [splitOnP_dot, numbers, numeric_part]
  exact Bool.and_true _

theorem numbers_succ (n : Nat) (l : List Char) : numbers (n + 2) (l.splitOnP (· == '.')) =
    (Scan.some1 isDigit l).any fun rest => (Scan.one (· == '.') rest).any fun rest =>
      numbers (n + 1) (rest.splitOnP (· == '.')) := by
  rw [splitOnP_dot, numbers, numeric_part]
  cases h : Scan.some1 isDigit l with
  | none => rfl
  | some rest =>
    rw [Option.any_some, Option.any_some]
    cases hrest : rest.head?.all (· == '.') with
    | true =>
      rw [dropWhile_number h hrest, Bool.true_and]
      cases Scan.one (· == '.') rest with
      | none => rfl
      | some rest => rfl
    | false =>
      cases rest with
      | nil => cases hrest
      | cons c rest =>
        have hc : (c == '.') = false := hrest
        rw [Scan.one, hc]
        rfl

theorem semver_numbers (s : String) :
    Rust.semver s = numbers 3 ((Rust.release s).splitOnP (· == '.')) := by
  unfold Rust.semver
  generalize (Rust.release s).splitOnP (· == '.') = parts
  rcases parts with _ | ⟨a, _ | ⟨b, _ | ⟨c, parts⟩⟩⟩
  · rfl
  · exact (Bool.and_false _).symm
  · exact ((congrArg _ (Bool.and_false _)).trans (Bool.and_false _)).symm
  · simp [numbers, Bool.and_assoc]

theorem semver_rust_iff (s : String) : Rust.semver s =
    (afterPatch s).any fun rest => rest.head?.all fun c => c == '.' || c == '-' || c == '+' := by
  have hdigit := some1_takeWhile (p := isDigit) (q := fun c => !(c == '-' || c == '+'))
    fun _ => digit_in_release
  have hdot := one_takeWhile (p := (· == '.')) (q := fun c => !(c == '-' || c == '+'))
    fun c hc => by rw [beq_iff_eq.mp hc]; rfl
  have hlast : ∀ rest : List Char, (rest.takeWhile fun c => !(c == '-' || c == '+')).head?.all (· == '.') =
      rest.head?.all fun c => c == '.' || c == '-' || c == '+' := by
    intro rest
    cases rest with
    | nil => rfl
    | cons c rest =>
      rw [List.takeWhile_cons, List.head?_cons, Option.all_some, Bool.or_assoc]
      cases hc : c == '-' || c == '+' with
      | true => simp
      | false => simp
  rw [semver_numbers, numbers_succ, Rust.release, hdigit, afterPatch, afterNumbers]
  cases Scan.some1 isDigit s.toList with
  | none => rfl
  | some l₁ =>
    rw [Option.map_some, Option.any_some, hdot, Option.bind_some]
    cases Scan.one (· == '.') l₁ with
    | none => rfl
    | some l₂ =>
      rw [Option.map_some, Option.any_some, numbers_succ, hdigit, Option.bind_some]
      cases Scan.some1 isDigit l₂ with
      | none => rfl
      | some l₃ =>
        rw [Option.map_some, Option.any_some, hdot, Option.bind_some]
        cases Scan.one (· == '.') l₃ with
        | none => rfl
        | some l₄ =>
          rw [Option.map_some, Option.any_some, numbers_one, hdigit, Option.bind_some]
          cases Scan.some1 isDigit l₄ with
          | none => rfl
          | some l₅ => exact hlast l₅

end Protocol
