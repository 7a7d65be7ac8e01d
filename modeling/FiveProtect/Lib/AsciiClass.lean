import FiveProtect.Lib.LuaPattern
import Mathlib.Data.List.TakeWhile

/-!
# Classes of ASCII characters

A check that reads characters and one that reads UTF-8 bytes agree on a text as long as all they look at
are classes of ASCII characters: a byte of any other character has its high bit set.

* `AsciiClass`          such a class, of characters and of bytes;
* `all_utf8`            a text of one class;
* `dropWhile_utf8`, `one_utf8`, `head_utf8`   reading a text from its start;
* `matchItems_plus_iff`, `matchItems_one_iff`      the same for a Lua pattern.
-/

/-! ## UTF-8 -/

theorem Text.utf8Encode_ascii {c : Char} (h : c.toNat < 128) :
    String.utf8EncodeChar c = [LuaPattern.byteOf c] := by
  have hall : ∀ n < 128,
      String.utf8EncodeChar (Char.ofNat n) = [LuaPattern.byteOf (Char.ofNat n)] := by decide
  have hn := hall c.toNat h
  rwa [Char.ofNat_toNat] at hn

/-- every byte of a character outside of ASCII has its high bit set -/
theorem Text.utf8Encode_high {c : Char} (h : 128 ≤ c.toNat) :
    ∀ b ∈ String.utf8EncodeChar c, 128 ≤ b.toNat := by
  have hv : c.val.toNat = c.toNat := rfl
  have hmax : c.toNat < 1114112 := by
    rcases c.valid with hlow | ⟨_, hlt⟩
    · have hlow' : c.toNat < 55296 := hlow
      omega
    · exact hlt
  intro b hb
  unfold String.utf8EncodeChar at hb
  simp only [hv] at hb
  split at hb
  · omega
  · split at hb
    · simp only [List.mem_cons, List.not_mem_nil, or_false] at hb
      rcases hb with rfl | rfl <;> simp <;> omega
    · split at hb
      · simp only [List.mem_cons, List.not_mem_nil, or_false] at hb
        rcases hb with rfl | rfl | rfl <;> simp <;> omega
      · simp only [List.mem_cons, List.not_mem_nil, or_false] at hb
        rcases hb with rfl | rfl | rfl | rfl <;> simp <;> omega

/-- a character of ASCII is one code unit and one byte -/
theorem Text.lengths_ascii {s : String} (h : ∀ c ∈ s.toList, c.toNat < 128) :
    Text.utf16Length s = s.toList.length ∧ Text.utf8Length s = s.toList.length := by
  rw [Text.utf16Length, Text.utf8Length, Text.utf8]
  generalize s.toList = l at h ⊢
  induction l with
  | nil => exact ⟨rfl, rfl⟩
  | cons c l ih =>
    rw [List.forall_mem_cons] at h
    obtain ⟨h16, h8⟩ := ih h.2
    have hunit : Text.utf16Units c = 1 := if_pos (by omega)
    rw [Text.utf16Chars, h16, hunit, Text.utf8Chars, List.flatMap_cons, Text.utf8Encode_ascii h.1,
      List.length_append, List.length_cons]
    exact ⟨Nat.add_comm _ _, (congrArg (1 + ·) h8).trans (Nat.add_comm _ _)⟩

theorem Text.byteOf_toNat {c : Char} (h : c.toNat < 128) : (LuaPattern.byteOf c).toNat = c.toNat := by
  show (UInt8.ofNat c.toNat).toNat = c.toNat
  rw [UInt8.toNat_ofNat']
  omega

theorem Text.byteOf_inj {c d : Char} (hc : c.toNat < 128) (hd : d.toNat < 128) :
    LuaPattern.byteOf c = LuaPattern.byteOf d ↔ c = d := by
  constructor
  · intro h
    have hnat : c.toNat = d.toNat := by
      rw [← Text.byteOf_toNat hc, h, Text.byteOf_toNat hd]
    rw [← Char.ofNat_toNat c, hnat, Char.ofNat_toNat]
  · exact fun h => congrArg LuaPattern.byteOf h

/-- an ASCII character is as often in a text as its byte is in the bytes -/
theorem Text.count_utf8Chars {d : Char} (hd : d.toNat < 128) (l : List Char) :
    (utf8Chars l).count (LuaPattern.byteOf d) = l.count d := by
  induction l with
  | nil => rfl
  | cons c l ih =>
    show (String.utf8EncodeChar c ++ utf8Chars l).count _ = _
    rw [List.count_append, ih, List.count_cons, Nat.add_comm]
    congr 1
    by_cases hc : c.toNat < 128
    · rw [Text.utf8Encode_ascii hc, List.count_singleton]
      simp only [beq_iff_eq, Text.byteOf_inj hc hd]
    · have hne : c ≠ d := fun heq => hc (heq ▸ hd)
      rw [if_neg (by simpa using hne), List.count_eq_zero]
      intro hmem
      have hhigh := Text.utf8Encode_high (Nat.le_of_not_lt hc) _ hmem
      rw [Text.byteOf_toNat hd] at hhigh
      omega

/-! ## reading from the start -/

namespace Scan
variable {α : Type}

/-- what is left after one element of a class -/
def one (p : α → Bool) : List α → Option (List α)
  | [] => none
  | x :: l => if p x then some l else none

/-- what is left after one or more of them -/
def some1 (p : α → Bool) (l : List α) : Option (List α) := (one p l).map (List.dropWhile p)

theorem one_eq {p : α → Bool} {l rest : List α} (h : one p l = some rest) :
    ∃ x, p x = true ∧ l = x :: rest := by
  cases l with
  | nil => cases h
  | cons x l =>
    rw [one] at h
    split at h
    · rename_i hx
      cases h
      exact ⟨x, hx, rfl⟩
    · cases h

end Scan

/-! ## classes -/

structure AsciiClass where
  chars : Char → Bool
  bytes : UInt8 → Bool
  ascii : ∀ n < 128, bytes (UInt8.ofNat n) = chars (Char.ofNat n)
  bytes_high : ∀ n < 128, bytes (UInt8.ofNat (128 + n)) = false
  chars_high : ∀ c, chars c = true → c.toNat < 128

namespace AsciiClass
open Text (utf8Chars)

variable (A : AsciiClass)

theorem bytes_ascii {c : Char} (h : c.toNat < 128) : A.bytes (LuaPattern.byteOf c) = A.chars c := by
  have hn := A.ascii c.toNat h
  rwa [Char.ofNat_toNat] at hn

theorem bytes_of_high {b : UInt8} (h : 128 ≤ b.toNat) : A.bytes b = false := by
  have hlt := b.toNat_lt
  have hn := A.bytes_high (b.toNat - 128) (by omega)
  rwa [Nat.add_sub_cancel' h, UInt8.ofNat_toNat] at hn

theorem chars_of_high {c : Char} (h : ¬ c.toNat < 128) : A.chars c = false :=
  Bool.eq_false_iff.mpr fun hc => h (A.chars_high c hc)

/-- a character of the class is one byte of it, any other starts with a byte that is not -/
theorem utf8Chars_cons (c : Char) (l : List Char) :
    A.chars c = true ∧ utf8Chars (c :: l) = LuaPattern.byteOf c :: utf8Chars l ∧
        A.bytes (LuaPattern.byteOf c) = true ∨
      A.chars c = false ∧ ∃ b bs, utf8Chars (c :: l) = b :: bs ∧ A.bytes b = false := by
  have hcons : utf8Chars (c :: l) = String.utf8EncodeChar c ++ utf8Chars l := rfl
  by_cases hc : c.toNat < 128
  · rw [hcons, Text.utf8Encode_ascii hc, List.singleton_append]
    have hbyte := A.bytes_ascii hc
    cases hclass : A.chars c with
    | true => exact .inl ⟨rfl, rfl, hbyte.trans hclass⟩
    | false => exact .inr ⟨rfl, _, _, rfl, hbyte.trans hclass⟩
  · refine .inr ⟨A.chars_of_high hc, ?_⟩
    obtain ⟨b, bs, hbs⟩ := List.exists_cons_of_ne_nil (String.utf8EncodeChar_ne_nil (c := c))
    refine ⟨b, bs ++ utf8Chars l, by rw [hcons, hbs, List.cons_append], A.bytes_of_high ?_⟩
    exact Text.utf8Encode_high (Nat.le_of_not_lt hc) b (by rw [hbs]; exact List.mem_cons_self)

theorem all_utf8 (l : List Char) : (utf8Chars l).all A.bytes = l.all A.chars := by
  induction l with
  | nil => rfl
  | cons c l ih =>
    rcases A.utf8Chars_cons c l with ⟨hc, hl, hb⟩ | ⟨hc, b, bs, hl, hb⟩
    · rw [hl, List.all_cons, List.all_cons, ih, hb, hc]
    · rw [hl, List.all_cons, List.all_cons, hb, hc, Bool.false_and, Bool.false_and]

theorem length_utf8 {l : List Char} (h : ∀ c ∈ l, A.chars c = true) :
    (utf8Chars l).length = l.length := by
  induction l with
  | nil => rfl
  | cons c l ih =>
    rw [List.forall_mem_cons] at h
    rcases A.utf8Chars_cons c l with ⟨_, hl, _⟩ | ⟨hc, _⟩
    · rw [hl, List.length_cons, List.length_cons, ih h.2]
    · rw [h.1] at hc
      cases hc

/-- a run of the class is as many bytes of it -/
theorem run_utf8 {l : List Char} (h : ∀ c ∈ l, A.chars c = true) :
    (utf8Chars l).length = l.length ∧ ∀ b ∈ utf8Chars l, A.bytes b = true :=
  ⟨A.length_utf8 h, List.all_eq_true.mp ((A.all_utf8 l).trans (List.all_eq_true.mpr h))⟩

theorem dropWhile_utf8 (l : List Char) :
    (utf8Chars l).dropWhile A.bytes = utf8Chars (l.dropWhile A.chars) := by
  induction l with
  | nil => rfl
  | cons c l ih =>
    rcases A.utf8Chars_cons c l with ⟨hc, hl, hb⟩ | ⟨hc, b, bs, hl, hb⟩
    · rw [hl, List.dropWhile_cons, List.dropWhile_cons, hb, hc, if_pos rfl, if_pos rfl, ih]
    · rw [List.dropWhile_cons, hc, if_neg Bool.false_ne_true, hl, List.dropWhile_cons, hb,
        if_neg Bool.false_ne_true]

theorem one_utf8 (l : List Char) :
    Scan.one A.bytes (utf8Chars l) = (Scan.one A.chars l).map utf8Chars := by
  cases l with
  | nil => rfl
  | cons c l =>
    rcases A.utf8Chars_cons c l with ⟨hc, hl, hb⟩ | ⟨hc, b, bs, hl, hb⟩
    · rw [hl, Scan.one, Scan.one, hb, hc]
      rfl
    · rw [hl, Scan.one, Scan.one, hb, hc]
      rfl

theorem some1_utf8 (l : List Char) :
    Scan.some1 A.bytes (utf8Chars l) = (Scan.some1 A.chars l).map utf8Chars := by
  rw [Scan.some1, Scan.some1, one_utf8]
  cases Scan.one A.chars l with
  | none => rfl
  | some l => exact congrArg some (A.dropWhile_utf8 l)

/-- what a text starts with -/
theorem head_utf8 (l : List Char) : (utf8Chars l).head?.any A.bytes = l.head?.any A.chars := by
  cases l with
  | nil => rfl
  | cons c l =>
    rcases A.utf8Chars_cons c l with ⟨hc, hl, hb⟩ | ⟨hc, b, bs, hl, hb⟩
    · rw [hl, List.head?_cons, List.head?_cons, Option.any_some, Option.any_some, hb, hc]
    · rw [hl, List.head?_cons, List.head?_cons, Option.any_some, Option.any_some, hb, hc]

end AsciiClass

/-! ## Lua patterns -/

namespace LuaPattern
variable {c : Class} {k : Bytes → Bool} {toEnd : Bool} {p : List (Class × Rep)}

/-- the longest run of the class, if what follows cannot start with it -/
theorem star_iff (hk : ∀ b s, c.test b = true → k (b :: s) = false) (s : Bytes) :
    star c k s = k (s.dropWhile c.test) := by
  induction s with
  | nil => rfl
  | cons b s ih =>
    rw [star, ih, List.dropWhile_cons]
    cases hb : c.test b with
    | true => rw [hk b s hb, Bool.or_false, Bool.true_and, if_pos rfl]
    | false => rw [Bool.false_and, Bool.false_or, if_neg Bool.false_ne_true]

theorem matchItems_plus_iff
    (hk : ∀ b s, c.test b = true → matchItems toEnd p (b :: s) = false) (s : Bytes) :
    matchItems toEnd ((c, .plus) :: p) s = (Scan.some1 c.test s).any (matchItems toEnd p) := by
  cases s with
  | nil => rfl
  | cons b s =>
    rw [matchItems, star_iff hk, Scan.some1, Scan.one]
    cases c.test b with
    | true => rfl
    | false => rfl

/-- a run at the end of a pattern that need not reach the end -/
theorem matchItems_plus_last (s : Bytes) :
    matchItems false [(c, .plus)] s = (Scan.some1 c.test s).isSome := by
  have hstar : ∀ s, star c (matchItems false []) s = true := by
    intro s
    induction s with
    | nil => rfl
    | cons b s _ =>
      have hnil : matchItems false [] (b :: s) = true := rfl
      rw [star, hnil, Bool.or_true]
  cases s with
  | nil => rfl
  | cons b s =>
    rw [matchItems, hstar, Scan.some1, Scan.one]
    cases c.test b with
    | true => rfl
    | false => rfl

theorem matchItems_one_iff (s : Bytes) :
    matchItems toEnd ((c, .one) :: p) s = (Scan.one c.test s).any (matchItems toEnd p) := by
  cases s with
  | nil => rfl
  | cons b s =>
    rw [matchItems, Scan.one]
    cases c.test b with
    | true => rfl
    | false => rfl

/-- `^c*$` is nothing but bytes of the class -/
theorem test_star (s : Bytes) : test ⟨[(c, .star)], true⟩ s = s.all c.test := by
  show star c (matchItems true []) s = _
  rw [star_iff (fun _ _ _ => rfl)]
  cases hs : s.all c.test with
  | true =>
    rw [List.dropWhile_eq_nil_iff.mpr (List.all_eq_true.mp hs)]
    rfl
  | false =>
    obtain ⟨b, rest, hrest⟩ : ∃ b rest, s.dropWhile c.test = b :: rest := by
      apply List.exists_cons_of_ne_nil
      rw [Ne, List.dropWhile_eq_nil_iff, ← List.all_eq_true, hs]
      exact Bool.false_ne_true
    rw [hrest]
    rfl

/-- `^c+$` is the same, but for the empty text -/
theorem test_plus (s : Bytes) : test ⟨[(c, .plus)], true⟩ s = (!s.isEmpty && s.all c.test) := by
  cases s with
  | nil => rfl
  | cons b s =>
    show (c.test b && test ⟨[(c, .star)], true⟩ s) = _
    rw [test_star]
    rfl

/-- a sequence of classes, one byte each -/
theorem matchItems_map (cs : List Class) (s : Bytes) :
    matchItems toEnd (cs.map (·, .one)) s =
      (decide (cs.length ≤ s.length) && (cs.zip s).all (fun q => q.1.test q.2) &&
        (!toEnd || decide (s.length ≤ cs.length))) := by
  induction cs generalizing s with
  | nil => cases s <;> simp [matchItems]
  | cons c cs ih =>
    cases s with
    | nil => rfl
    | cons b s =>
      rw [List.map_cons, matchItems, ih]
      simp [Bool.and_assoc, Bool.and_left_comm]

end LuaPattern
