import Mathlib.Data.List.Basic

/-!
# Text: JavaScript strings, Lua strings

A JavaScript string is a `String` here (a list of Unicode scalar values); its `length` counts
UTF-16 code units, `Text.utf16Length`.  A Lua string is a list of bytes, and text reaches Lua as
UTF-8: `Text.utf8`.

`Text.codeUnits` are the code units themselves, by which JavaScript orders: no two texts have the same.  Nor
have two numbers the same digits (`Text.decimal_injective`), and a text that is joined of parts without the
separator is joined of them alone (`Text.joined_injective`).

Functions of the JavaScript library that the backend uses on text are written on the list of
characters, so that they compute: `startsWith`, `slice`, `trim`, `toLowerCase`.
-/

/-- a Lua string -/
abbrev Bytes := List UInt8

namespace Text

def utf16Units (c : Char) : Nat := if c.toNat < 0x10000 then 1 else 2

def utf16Chars : List Char → Nat
  | [] => 0
  | c :: l => utf16Units c + utf16Chars l

/-- `s.length` of JavaScript -/
def utf16Length (s : String) : Nat := utf16Chars s.toList

/-- the UTF-8 bytes of a list of characters -/
def utf8Chars (l : List Char) : Bytes := l.flatMap String.utf8EncodeChar

/-- the UTF-8 bytes of a text -/
def utf8 (s : String) : Bytes := utf8Chars s.toList

/-- `#value` of Lua for a text that arrived as UTF-8 -/
def utf8Length (s : String) : Nat := (utf8 s).length

/-- the UTF-16 code units of a character -/
def codeUnitsOf (c : Char) : List Nat :=
  if c.toNat < 0x10000 then [c.toNat]
  else [0xD800 + (c.toNat - 0x10000) / 0x400, 0xDC00 + (c.toNat - 0x10000) % 0x400]

/-- the UTF-16 code units of a text, by which JavaScript orders -/
def codeUnits (s : String) : List Nat := s.toList.flatMap codeUnitsOf

theorem not_surrogate (c : Char) : ¬(0xD800 ≤ c.toNat ∧ c.toNat < 0xE000) := by
  have h := c.valid
  have hval : c.val.toNat = c.toNat := rfl
  unfold UInt32.isValidChar Nat.isValidChar at h
  omega

/-- the first character can be read off -/
theorem codeUnitsOf_append {c d : Char} {a b : List Nat}
    (h : codeUnitsOf c ++ a = codeUnitsOf d ++ b) : c = d ∧ a = b := by
  have hc := not_surrogate c
  have hd := not_surrogate d
  have hlast : ∀ e : Char, e.toNat < 0x110000 := fun e => by
    have h := e.valid
    have hval : e.val.toNat = e.toNat := rfl
    unfold UInt32.isValidChar Nat.isValidChar at h
    omega
  have hc' := hlast c
  have hd' := hlast d
  unfold codeUnitsOf at h
  split at h
  · split at h
    · injection h with hhead htail
      exact ⟨Char.toNat_inj.mp hhead, htail⟩
    · injection h with hhead htail
      omega
  · split at h
    · injection h with hhead htail
      omega
    · injection h with hhead hrest
      injection hrest with hsecond htail
      exact ⟨Char.toNat_inj.mp (by omega), htail⟩

theorem codeUnitsOf_ne_nil (c : Char) : codeUnitsOf c ≠ [] := by
  unfold codeUnitsOf
  split
  · exact List.cons_ne_nil _ _
  · exact List.cons_ne_nil _ _

theorem codeUnits_injective {s t : String} (h : codeUnits s = codeUnits t) : s = t := by
  have hchars : ∀ a b : List Char, a.flatMap codeUnitsOf = b.flatMap codeUnitsOf → a = b := by
    intro a
    induction a with
    | nil =>
      intro b hb
      cases b with
      | nil => rfl
      | cons d b => exact absurd (List.append_eq_nil_iff.mp hb.symm).1 (codeUnitsOf_ne_nil d)
    | cons c a ih =>
      intro b hb
      cases b with
      | nil => exact absurd (List.append_eq_nil_iff.mp hb).1 (codeUnitsOf_ne_nil c)
      | cons d b =>
        obtain ⟨rfl, hrest⟩ := codeUnitsOf_append hb
        rw [ih b hrest]
  exact String.toList_injective (hchars _ _ h)

theorem utf8Chars_append (a b : List Char) : utf8Chars (a ++ b) = utf8Chars a ++ utf8Chars b := by
  simp [utf8Chars, List.flatMap_append]

theorem utf8_append (s t : String) : utf8 (s ++ t) = utf8 s ++ utf8 t := by
  rw [utf8, String.toList_append, utf8Chars_append, utf8, utf8]

theorem utf8Length_append (s t : String) : utf8Length (s ++ t) = utf8Length s + utf8Length t := by
  rw [utf8Length, utf8_append, List.length_append, utf8Length, utf8Length]

/-- the length of a literal is that of its characters -/
theorem utf8Length_ofList (l : List Char) : utf8Length (String.ofList l) = (utf8Chars l).length := by
  rw [utf8Length, utf8, String.toList_ofList]

/-- the bytes of a text are counted without decoding it -/
theorem utf8Length_eq (s : String) : utf8Length s = s.utf8ByteSize := by
  rw [← String.ofList_toList (s := s), utf8Length_ofList]
  simp [utf8Chars, String.utf8ByteSize, String.ofList, List.utf8Encode]

theorem utf16Length_ofList (l : List Char) : utf16Length (String.ofList l) = utf16Chars l := by
  rw [utf16Length, String.toList_ofList]

theorem utf16Length_append (s t : String) : utf16Length (s ++ t) = utf16Length s + utf16Length t := by
  have hchars : ∀ a b, utf16Chars (a ++ b) = utf16Chars a + utf16Chars b := by
    intro a b
    induction a with
    | nil => exact (Nat.zero_add _).symm
    | cons c a ih => rw [List.cons_append, utf16Chars, ih, utf16Chars, Nat.add_assoc]
  rw [utf16Length, String.toList_append, hchars, utf16Length, utf16Length]

theorem toByteArray_utf8 (s : String) : (utf8 s).toByteArray = s.toByteArray := by
  conv_rhs => rw [← String.ofList_toList (s := s)]
  exact String.toByteArray_ofList.symm

theorem utf8_injective {s t : String} (h : utf8 s = utf8 t) : s = t := by
  rw [← String.toByteArray_inj, ← toByteArray_utf8 s, ← toByteArray_utf8 t, h]

theorem utf8_ne_nil {s : String} (h : s ≠ "") : utf8 s ≠ [] := fun hnil => h (utf8_injective hnil)

theorem utf16Units_le (c : Char) : utf16Units c ≤ (String.utf8EncodeChar c).length := by
  rw [String.length_utf8EncodeChar, utf16Units]
  by_cases h : c.toNat < 0x10000
  · rw [if_pos h]
    exact c.utf8Size_pos
  · have hfour : c.utf8Size = 4 := by
      rw [Char.utf8Size_eq_four_iff, UInt32.lt_iff_toNat_lt]
      exact Nat.lt_of_not_le fun hle => h (Nat.lt_succ_of_le hle)
    rw [if_neg h, hfour]
    decide

/-- a code unit of UTF-16 takes at least one byte -/
theorem utf16Length_le (s : String) : utf16Length s ≤ utf8Length s := by
  have hchars : ∀ l, utf16Chars l ≤ (utf8Chars l).length := by
    intro l
    induction l with
    | nil => exact Nat.le_refl 0
    | cons c l ih =>
      have hc := utf16Units_le c
      rw [utf16Chars, utf8Chars, List.flatMap_cons, List.length_append]
      exact Nat.add_le_add hc ih
  exact hchars s.toList

/-! ## numbers -/

theorem toList_decimal (n : Nat) : (toString n).toList = Nat.toDigits 10 n := Nat.toList_repr

theorem decimal_injective {n k : Nat} (h : toString n = toString k) : n = k := by
  have hdigits := congrArg (fun s => Nat.ofDigitChars 10 (String.toList s) 0) h
  simp only [toList_decimal, Nat.ofDigitChars_ten_toDigits] at hdigits
  exact hdigits

/-! ## joined texts -/

section
variable {α : Type} [BEq α] [LawfulBEq α] {x : α} {parts : List (List α)}

/-- every part of a joined text adds its separators to the ones between the parts -/
theorem count_joined_ge {l : List α} (hl : l ∈ parts) :
    l.count x + parts.length ≤ ([x].intercalate parts).count x + 1 := by
  have hcount : ∀ parts : List (List α), parts.length ≤ ([x].intercalate parts).count x + 1 := by
    intro parts
    induction parts with
    | nil => exact Nat.zero_le _
    | cons m parts ih =>
      cases parts with
      | nil => simp
      | cons k parts =>
        rw [List.intercalate_cons_cons, List.count_append, List.count_append, List.count_singleton_self]
        rw [List.length_cons]
        omega
  induction parts with
  | nil => cases hl
  | cons m parts ih =>
    cases parts with
    | nil =>
      rw [List.mem_singleton.mp hl]
      simp
    | cons k parts =>
      rw [List.intercalate_cons_cons, List.count_append, List.count_append, List.count_singleton_self,
        List.length_cons]
      rcases List.mem_cons.mp hl with rfl | hl
      · have hrest := hcount (k :: parts)
        omega
      · have hrest := ih hl
        omega

theorem count_joined (h : ∀ l ∈ parts, x ∉ l) (hne : parts ≠ []) :
    ([x].intercalate parts).count x + 1 = parts.length := by
  induction parts with
  | nil => exact absurd rfl hne
  | cons m parts ih =>
    rw [List.forall_mem_cons] at h
    have hm := List.count_eq_zero.mpr h.1
    cases parts with
    | nil => simp [hm]
    | cons k parts =>
      have hrest := ih h.2 (List.cons_ne_nil k parts)
      rw [List.intercalate_cons_cons, List.count_append, List.count_append, List.count_singleton_self,
        hm, List.length_cons]
      omega

/-- a text that is joined of parts without the separator is joined of no other parts, as many as they are -/
theorem joined_injective {parts' : List (List α)} (hlen : parts.length = parts'.length)
    (h : ∀ l ∈ parts, x ∉ l) (heq : [x].intercalate parts = [x].intercalate parts') :
    parts = parts' := by
  by_cases hne : parts = []
  · rw [hne] at hlen ⊢
    exact (List.eq_nil_of_length_eq_zero hlen.symm).symm
  have hne' : parts' ≠ [] := by
    rw [← List.length_pos_iff, ← hlen]
    exact List.length_pos_iff.mpr hne
  have h' : ∀ l ∈ parts', x ∉ l := by
    intro l hl
    have hcount := count_joined h hne
    have hge := count_joined_ge (x := x) hl
    rw [heq] at hcount
    exact List.count_eq_zero.mp (by omega)
  rw [← List.splitOn_intercalate x h hne, heq, List.splitOn_intercalate x h' hne']

end

/-- `s.startsWith(p)` -/
def startsWith (s p : String) : Bool := p.toList.isPrefixOf s.toList

/-- `s.slice(n)` for a text whose first `n` characters are one code unit each -/
def slice (s : String) (n : Nat) : String := String.ofList (s.toList.drop n)

/-- a text that starts with `p` is `p` followed by its slice -/
theorem startsWith_slice {s p : String} (h : startsWith s p = true) :
    p ++ slice s p.toList.length = s := by
  obtain ⟨t, ht⟩ := List.isPrefixOf_iff_prefix.mp h
  apply String.toList_injective
  rw [String.toList_append, slice, String.toList_ofList, ← ht, List.drop_left]

theorem startsWith_append (p text : String) : startsWith (p ++ text) p = true := by
  unfold startsWith
  rw [String.toList_append, List.isPrefixOf_iff_prefix]
  exact List.prefix_append _ _

theorem slice_append (p text : String) : slice (p ++ text) p.toList.length = text := by
  unfold slice
  rw [String.toList_append, List.drop_left, String.ofList_toList]

/-- white space and line terminators that `s.trim()` strips -/
def isJsSpace (c : Char) : Bool :=
  [0x09, 0x0A, 0x0B, 0x0C, 0x0D, 0x20, 0xA0, 0x1680, 0x2028, 0x2029, 0x202F, 0x205F, 0x3000,
    0xFEFF].contains c.toNat || (0x2000 ≤ c.toNat && c.toNat ≤ 0x200A)

/-- `s.trim()` -/
def trim (s : String) : String :=
  String.ofList ((s.toList.dropWhile isJsSpace).reverse.dropWhile isJsSpace).reverse

/-- `s.toLowerCase()` on the letters an address can contain -/
def toLowerCase (s : String) : String := String.ofList (s.toList.map Char.toLower)

/-- two lower case hexadecimal digits -/
def hexByte (b : UInt8) : List Char :=
  [Nat.digitChar (b.toNat / 16), Nat.digitChar (b.toNat % 16)]

/-- `buffer.toString('hex')` -/
def hex (bytes : List UInt8) : String := String.ofList (bytes.flatMap hexByte)

/-- no U+0000, which PostgreSQL refuses in `text` and in `jsonb` -/
def noNul (s : String) : Bool := !s.toList.contains (Char.ofNat 0)

end Text

instance : Coe String Bytes := ⟨Text.utf8⟩
