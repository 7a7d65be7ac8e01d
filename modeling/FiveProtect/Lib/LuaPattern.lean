import FiveProtect.Lib.Text

/-!
# Lua patterns

A part of Lua's pattern language: a sequence of single character classes, each taken once or repeated with
`*`, `+` or `?`, anchored at the start and possibly at the end.  `LuaPattern.test p s` is
`string.match(s, p) ~= nil`, and `capturePlus` matches a pattern that captures the run it starts with.
-/

namespace LuaPattern

/-- a single character class -/
inductive Class where
  | char (c : Char)
  | digit
  | hex
  | set (negated : Bool) (chars : List Class)
  | range (lo hi : Char)

def byteOf (c : Char) : UInt8 := UInt8.ofNat c.toNat

def isDigit (b : UInt8) : Bool := 48 ≤ b && b ≤ 57

/-- `isxdigit` of the C locale -/
def isHex (b : UInt8) : Bool := isDigit b || (65 ≤ b && b ≤ 70) || (97 ≤ b && b ≤ 102)

mutual
def Class.test : Class → UInt8 → Bool
  | .char c, b => b == byteOf c
  | .digit, b => isDigit b
  | .hex, b => isHex b
  | .set negated cs, b => testAny cs b != negated
  | .range lo hi, b => byteOf lo ≤ b && b ≤ byteOf hi
def testAny : List Class → UInt8 → Bool
  | [], _ => false
  | c :: cs, b => c.test b || testAny cs b
end

inductive Rep where
  | one
  | star
  | plus
  | opt

/-- `^items` or `^items$` -/
structure Pattern where
  items : List (Class × Rep)
  toEnd : Bool

/-- `c*` followed by what `k` accepts, longest match first -/
def star (c : Class) (k : Bytes → Bool) : Bytes → Bool
  | [] => k []
  | b :: s => (c.test b && star c k s) || k (b :: s)

def matchItems (toEnd : Bool) : List (Class × Rep) → Bytes → Bool
  | [], s => !toEnd || s.isEmpty
  | (c, .one) :: p, s =>
    match s with
    | [] => false
    | b :: s => c.test b && matchItems toEnd p s
  | (c, .plus) :: p, s =>
    match s with
    | [] => false
    | b :: s => c.test b && star c (matchItems toEnd p) s
  | (c, .star) :: p, s => star c (matchItems toEnd p) s
  | (c, .opt) :: p, s =>
    match s with
    | [] => matchItems toEnd p []
    | b :: s => (c.test b && matchItems toEnd p s) || matchItems toEnd p (b :: s)

def test (p : Pattern) (s : Bytes) : Bool := matchItems p.toEnd p.items s

/-- `(c*)` followed by what `k` accepts: what is captured, longest match first -/
def captureStar (c : Class) (k : Bytes → Bool) : Bytes → Option Bytes
  | [] => if k [] then some [] else none
  | b :: s =>
    ((if c.test b then captureStar c k s else none).map (b :: ·)).or
      (if k (b :: s) then some [] else none)

/-- `string.match(s, '^(c+)…')` -/
def capturePlus (c : Class) (p : Pattern) : Bytes → Option Bytes
  | [] => none
  | b :: s =>
    if c.test b then (captureStar c (matchItems p.toEnd p.items) s).map (b :: ·) else none

/-- the class `c`, `n` times -/
def times (n : Nat) (c : Class) : List (Class × Rep) := List.replicate n (c, .one)

/-- a literal character -/
def lit (c : Char) : List (Class × Rep) := [(.char c, .one)]

theorem matchItems_one {toEnd : Bool} {c : Class} {p : List (Class × Rep)} {b : UInt8} {s : Bytes}
    (hb : c.test b = true) : matchItems toEnd ((c, .one) :: p) (b :: s) = matchItems toEnd p s := by
  simp [matchItems, hb]

/-- a run of bytes of one class is a run of its items -/
theorem matchItems_times {toEnd : Bool} {c : Class} {p : List (Class × Rep)} {bs : Bytes} {n : Nat}
    {s : Bytes} (hn : bs.length = n) (h : ∀ b ∈ bs, c.test b = true) :
    matchItems toEnd (times n c ++ p) (bs ++ s) = matchItems toEnd p s := by
  subst hn
  induction bs with
  | nil => rfl
  | cons b bs ih =>
    show matchItems toEnd ((c, .one) :: (times bs.length c ++ p)) (b :: (bs ++ s)) = _
    rw [matchItems_one (h b List.mem_cons_self)]
    exact ih fun x hx => h x (List.mem_cons_of_mem _ hx)

/-- an ASCII character matches itself -/
theorem matchItems_lit {toEnd : Bool} {c : Char} {p : List (Class × Rep)} {s : Bytes}
    (hc : Text.utf8Chars [c] = [byteOf c]) :
    matchItems toEnd (lit c ++ p) (Text.utf8Chars [c] ++ s) = matchItems toEnd p s := by
  have hb : (Class.char c).test (byteOf c) = true := by simp [Class.test]
  rw [hc]
  show matchItems toEnd ((.char c, .one) :: p) (byteOf c :: s) = _
  rw [matchItems_one hb]

/-- literal characters match themselves and nothing else -/
theorem matchItems_lits {toEnd : Bool} {text : List Char} {p : List (Class × Rep)} {s : Bytes} :
    matchItems toEnd (text.flatMap lit ++ p) s = true ↔
      ∃ rest, s = text.map byteOf ++ rest ∧ matchItems toEnd p rest = true := by
  induction text generalizing s with
  | nil =>
    constructor
    · exact fun h => ⟨s, rfl, h⟩
    · rintro ⟨rest, rfl, h⟩
      exact h
  | cons c text ih =>
    show matchItems toEnd ((.char c, .one) :: (text.flatMap lit ++ p)) s = true ↔ _
    cases s with
    | nil =>
      refine iff_of_false (fun h => by cases h) ?_
      rintro ⟨rest, h, -⟩
      cases h
    | cons b s =>
      rw [matchItems, Bool.and_eq_true, ih]
      constructor
      · rintro ⟨hb, rest, rfl, h⟩
        exact ⟨rest, by rw [eq_of_beq hb]; rfl, h⟩
      · rintro ⟨rest, heq, h⟩
        obtain ⟨rfl, rfl⟩ := List.cons.inj heq
        exact ⟨beq_self_eq_true _, rest, rfl, h⟩

/-- what is captured is a run of the class, and the rest of the pattern follows it -/
theorem captureStar_some {c : Class} {k : Bytes → Bool} {s run : Bytes}
    (h : captureStar c k s = some run) :
    ∃ rest, s = run ++ rest ∧ (∀ b ∈ run, c.test b = true) ∧ k rest = true := by
  induction s generalizing run with
  | nil =>
    obtain ⟨hk, hrun⟩ := Option.ite_none_right_eq_some.mp h
    cases hrun
    exact ⟨[], rfl, fun b hb => absurd hb List.not_mem_nil, hk⟩
  | cons b s ih =>
    rcases Option.or_eq_some_iff.mp h with h | ⟨-, h⟩
    · obtain ⟨run', hrun, rfl⟩ := Option.map_eq_some_iff.mp h
      obtain ⟨hb, hrun⟩ := Option.ite_none_right_eq_some.mp hrun
      obtain ⟨rest, rfl, hall, hk⟩ := ih hrun
      exact ⟨rest, rfl, List.forall_mem_cons.mpr ⟨hb, hall⟩, hk⟩
    · obtain ⟨hk, hrun⟩ := Option.ite_none_right_eq_some.mp h
      cases hrun
      exact ⟨b :: s, rfl, fun b hb => absurd hb List.not_mem_nil, hk⟩

/-- a run of the class that cannot go on is captured -/
theorem captureStar_run {c : Class} {k : Bytes → Bool} {run rest : Bytes}
    (hrun : ∀ b ∈ run, c.test b = true) (hstop : ∀ b ∈ rest.head?, c.test b = false)
    (hk : k rest = true) : captureStar c k (run ++ rest) = some run := by
  induction run with
  | nil =>
    cases rest with
    | nil => exact if_pos hk
    | cons b rest =>
      rw [List.nil_append, captureStar, hstop b rfl, if_neg Bool.false_ne_true, if_pos hk]
      rfl
  | cons b run ih =>
    rw [List.forall_mem_cons] at hrun
    rw [List.cons_append, captureStar, if_pos hrun.1, ih hrun.2]
    rfl

end LuaPattern
