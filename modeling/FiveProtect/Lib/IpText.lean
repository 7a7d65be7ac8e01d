import Mathlib.Data.List.Basic

/-!
# IP addresses in text

The textual forms of RFC 4291: an IPv4 address is four numbers up to 255; an IPv6 address is eight groups of
up to four hexadecimal digits, where the last two may be written as an IPv4 address and one run of zero groups
may be left out as `::`.

* `IsIPv4`, `IsIPv6`      the forms;
* `isAddressChar`         what they are written with;
* `IsIPv4.no_colon`, `IsIPv6.colons`   they tell the families apart.
-/

namespace IpText

def isDigit (c : Char) : Bool := '0' ≤ c && c ≤ '9'

def isHex (c : Char) : Bool := (isDigit c || ('a' ≤ c && c ≤ 'f')) || ('A' ≤ c && c ≤ 'F')

def isAddressChar (c : Char) : Bool := isHex c || c == '.' || c == ':'

/-- the number that decimal digits stand for -/
def number (text : List Char) : Nat := text.foldl (fun n c => 10 * n + (c.toNat - 48)) 0

structure IsOctet (text : List Char) : Prop where
  digits : text.all isDigit = true
  short : 1 ≤ text.length ∧ text.length ≤ 3
  small : number text ≤ 255

structure IsGroup (text : List Char) : Prop where
  digits : text.all isHex = true
  short : 1 ≤ text.length ∧ text.length ≤ 4

def IsIPv4 (text : List Char) : Prop :=
  ∃ a b c d, IsOctet a ∧ IsOctet b ∧ IsOctet c ∧ IsOctet d ∧
    text = a ++ '.' :: (b ++ '.' :: (c ++ '.' :: d))

/-- groups, the last of which may be an IPv4 address, and how many they stand for -/
inductive Groups : List (List Char) → Nat → Prop where
  | nil : Groups [] 0
  | embedded {q : List Char} (h : IsIPv4 q) : Groups [q] 2
  | cons {g : List Char} {gs : List (List Char)} {n : Nat} (hg : IsGroup g) (h : Groups gs n) :
    Groups (g :: gs) (n + 1)

/-- written with `:` between them -/
def join : List (List Char) → List Char
  | [] => []
  | [g] => g
  | g :: h :: gs => g ++ ':' :: join (h :: gs)

def IsIPv6 (text : List Char) : Prop :=
  (∃ gs, Groups gs 8 ∧ text = join gs) ∨
  ∃ left right n, (∀ g ∈ left, IsGroup g) ∧ Groups right n ∧ left.length + n ≤ 7 ∧
    text = join left ++ ':' :: ':' :: join right

/-! ## characters -/

theorem isAddressChar_of_digits {text : List Char} (h : text.all isDigit = true) :
    ∀ c ∈ text, isAddressChar c = true := by
  intro c hc
  simp [isAddressChar, isHex, List.all_eq_true.mp h c hc]

theorem isAddressChar_of_hex {text : List Char} (h : text.all isHex = true) :
    ∀ c ∈ text, isAddressChar c = true := by
  intro c hc
  simp [isAddressChar, List.all_eq_true.mp h c hc]

theorem IsIPv4.chars {text : List Char} (h : IsIPv4 text) :
    text ≠ [] ∧ ∀ c ∈ text, isAddressChar c = true := by
  obtain ⟨a, b, c, d, ha, hb, hc, hd, rfl⟩ := h
  refine ⟨by simp, ?_⟩
  simp only [List.forall_mem_append, List.forall_mem_cons]
  exact ⟨isAddressChar_of_digits ha.digits, rfl, isAddressChar_of_digits hb.digits, rfl,
    isAddressChar_of_digits hc.digits, rfl, isAddressChar_of_digits hd.digits⟩

theorem IsIPv4.no_colon {text : List Char} (h : IsIPv4 text) : ':' ∉ text := by
  obtain ⟨a, b, c, d, ha, hb, hc, hd, rfl⟩ := h
  have hdigits : ∀ {l : List Char}, IsOctet l → ':' ∉ l := fun hl hmem =>
    absurd (List.all_eq_true.mp hl.digits ':' hmem) (by decide)
  simp [hdigits ha, hdigits hb, hdigits hc, hdigits hd]

theorem join_cons (g : List Char) (gs : List (List Char)) :
    join (g :: gs) = g ∨ join (g :: gs) = g ++ ':' :: join gs := by
  cases gs with
  | nil => exact .inl rfl
  | cons h gs => exact .inr rfl

theorem join_chars {gs : List (List Char)} (h : ∀ g ∈ gs, ∀ c ∈ g, isAddressChar c = true) :
    ∀ c ∈ join gs, isAddressChar c = true := by
  induction gs with
  | nil => exact fun c hc => absurd hc List.not_mem_nil
  | cons g gs ih =>
    rw [List.forall_mem_cons] at h
    rcases join_cons g gs with heq | heq
    · rw [heq]
      exact h.1
    · rw [heq, List.forall_mem_append, List.forall_mem_cons]
      exact ⟨h.1, rfl, ih h.2⟩

theorem Groups.chars {gs : List (List Char)} {n : Nat} (h : Groups gs n) :
    ∀ g ∈ gs, ∀ c ∈ g, isAddressChar c = true := by
  induction h with
  | nil => exact fun g hg => absurd hg List.not_mem_nil
  | embedded hq =>
    intro g hg
    rw [List.mem_singleton.mp hg]
    exact hq.chars.2
  | cons hg _ ih =>
    rw [List.forall_mem_cons]
    exact ⟨isAddressChar_of_hex hg.digits, ih⟩

theorem IsIPv6.chars {text : List Char} (h : IsIPv6 text) : ∀ c ∈ text, isAddressChar c = true := by
  rcases h with ⟨gs, hgs, rfl⟩ | ⟨left, right, n, hleft, hright, -, rfl⟩
  · exact join_chars hgs.chars
  · rw [List.forall_mem_append, List.forall_mem_cons, List.forall_mem_cons]
    exact ⟨join_chars fun g hg => isAddressChar_of_hex (hleft g hg).digits, rfl, rfl,
      join_chars hright.chars⟩

/-! ## colons -/

theorem count_join (gs : List (List Char)) : gs.length ≤ (join gs).count ':' + 1 := by
  induction gs with
  | nil => exact Nat.zero_le _
  | cons g gs ih =>
    cases gs with
    | nil => exact Nat.le_add_left 1 _
    | cons h gs =>
      show _ ≤ (g ++ ':' :: join (h :: gs)).count ':' + 1
      rw [List.count_append, List.count_cons_self, List.length_cons]
      omega

theorem Groups.length {gs : List (List Char)} {n : Nat} (h : Groups gs n) : n ≤ gs.length + 1 := by
  induction h with
  | nil => exact Nat.zero_le _
  | embedded _ => exact Nat.le_refl 2
  | cons _ _ ih =>
    rw [List.length_cons]
    omega

/-- an IPv6 address has two colons at least -/
theorem IsIPv6.colons {text : List Char} (h : IsIPv6 text) : 2 ≤ text.count ':' := by
  rcases h with ⟨gs, hgs, rfl⟩ | ⟨left, right, n, -, -, -, rfl⟩
  · have hlength := hgs.length
    have hcount := count_join gs
    omega
  · rw [List.count_append, List.count_cons_self, List.count_cons_self]
    omega

end IpText
