import FiveProtect.Companion.Updater
import FiveProtect.Lib.Uuid
import Mathlib.Algebra.Group.Nat.Defs

/-!
# Companion: the text of a signature

`base64` of `apps/companion/crates/fiveprotect-companion/src/shell.rs`, and what `decode_signature` of the
updater makes of a text in either encoding.

* `Waiting`              the bits that wait in the buffer, whatever lies above them;
* `first_byte`           four letters are three bytes, and none waits any more;
* `base64Decode_base64`  so a text is read back, padded or not;
* `signature_texts`      a signature is read back from both encodings.
-/

namespace Companion

/-! ## shell.rs -/

def triple (b0 b1 b2 : UInt8) : UInt32 := (b0.toUInt32 <<< 16) ||| (b1.toUInt32 <<< 8) ||| b2.toUInt32

/-- `char::from(ALPHABET[(triple >> shift) as usize & 0x3f])` -/
def letter (triple shift : UInt32) : Char :=
  Char.ofNat (alphabet.getD ((triple >>> shift) &&& 0x3f).toNat 0).toNat

/-- the chunks of three bytes -/
def base64Chunks : Bytes → List Char
  | [] => []
  | [b0] => [letter (triple b0 0 0) 18, letter (triple b0 0 0) 12, '=', '=']
  | [b0, b1] =>
    [letter (triple b0 b1 0) 18, letter (triple b0 b1 0) 12, letter (triple b0 b1 0) 6, '=']
  | b0 :: b1 :: b2 :: bytes =>
    [letter (triple b0 b1 b2) 18, letter (triple b0 b1 b2) 12, letter (triple b0 b1 b2) 6,
      letter (triple b0 b1 b2) 0] ++ base64Chunks bytes

def base64 (bytes : Bytes) : String := String.ofList (base64Chunks bytes)

/-- `trim_end_matches('=')` -/
def withoutPadding (text : String) : String := String.ofList (text.toList.rdropWhile (· == '='))

example : base64 [102, 111, 111, 98] = "Zm9vYg==" := by decide

/-! ## letters -/

/-- the letter for six bits -/
def letterOf (index : Nat) : Char := Char.ofNat (alphabet.getD index 0).toNat

theorem letterOf_facts : ((List.range 64).all fun i =>
    Text.utf8Chars [letterOf i] == [alphabet.getD i 0] && alphabet.idxOf? (alphabet.getD i 0) == some i &&
      letterOf i != '=') = true := by decide

theorem letterOf_spec {index : Nat} (h : index < 64) : ∃ byte,
    Text.utf8Chars [letterOf index] = [byte] ∧ alphabet.idxOf? byte = some index ∧
      letterOf index ≠ '=' := by
  have hall := List.all_eq_true.mp letterOf_facts index (List.mem_range.mpr h)
  rw [Bool.and_eq_true, Bool.and_eq_true, beq_iff_eq, beq_iff_eq, bne_iff_ne] at hall
  exact ⟨_, hall.1.1, hall.1.2, hall.2⟩

/-- bits that do not meet are added -/
theorem or_toNat {a b : UInt32} {n : Nat} (hb : b.toNat < 2 ^ n) (ha : 2 ^ n ∣ a.toNat) :
    (a ||| b).toNat = a.toNat + b.toNat := by
  obtain ⟨k, hk⟩ := ha
  rw [UInt32.toNat_or, hk, Nat.mul_comm, ← Nat.shiftLeft_eq, Nat.shiftLeft_add_eq_or_of_lt hb]

theorem triple_toNat (b0 b1 b2 : UInt8) :
    (triple b0 b1 b2).toNat = b0.toNat * 65536 + b1.toNat * 256 + b2.toNat := by
  have h0 := b0.toNat_lt
  have h1 := b1.toNat_lt
  have h2 := b2.toNat_lt
  have hfirst : (b0.toUInt32 <<< 16).toNat = b0.toNat * 65536 := by
    rw [UInt32.toNat_shiftLeft, UInt8.toNat_toUInt32]
    show b0.toNat <<< 16 % 4294967296 = _
    rw [Nat.shiftLeft_eq]
    omega
  have hsecond : (b1.toUInt32 <<< 8).toNat = b1.toNat * 256 := by
    rw [UInt32.toNat_shiftLeft, UInt8.toNat_toUInt32]
    show b1.toNat <<< 8 % 4294967296 = _
    rw [Nat.shiftLeft_eq]
    omega
  have htwo : (b0.toUInt32 <<< 16 ||| b1.toUInt32 <<< 8).toNat = b0.toNat * 65536 + b1.toNat * 256 := by
    rw [or_toNat (n := 16) (by omega) (by omega), hfirst, hsecond]
  rw [triple, or_toNat (n := 8) (by rw [UInt8.toNat_toUInt32]; omega) (by omega), htwo,
    UInt8.toNat_toUInt32]

/-- the six bits that are shifted down -/
theorem letter_eq (x shift : UInt32) (h : shift.toNat < 32) :
    letter x shift = letterOf (x.toNat / 2 ^ shift.toNat % 64) := by
  have hmask : (0x3F : UInt32).toNat = 2 ^ 6 - 1 := rfl
  unfold letter letterOf
  rw [UInt32.toNat_and, UInt32.toNat_shiftRight, Nat.mod_eq_of_lt h, Nat.shiftRight_eq_div_pow, hmask,
    Nat.and_two_pow_sub_one_eq_mod]

/-- the letters of three bytes -/
theorem letter_triple (b0 b1 b2 : UInt8) :
    letter (triple b0 b1 b2) 18 = letterOf (b0.toNat / 4) ∧
    letter (triple b0 b1 b2) 12 = letterOf (b0.toNat % 4 * 16 + b1.toNat / 16) ∧
    letter (triple b0 b1 b2) 6 = letterOf (b1.toNat % 16 * 4 + b2.toNat / 64) ∧
    letter (triple b0 b1 b2) 0 = letterOf (b2.toNat % 64) := by
  have h0 := b0.toNat_lt
  have h1 := b1.toNat_lt
  have h2 := b2.toNat_lt
  refine ⟨?_, ?_, ?_, ?_⟩
  · rw [letter_eq _ 18 (by decide), triple_toNat]
    show letterOf (_ / 262144 % 64) = _
    exact congrArg letterOf (by omega)
  · rw [letter_eq _ 12 (by decide), triple_toNat]
    show letterOf (_ / 4096 % 64) = _
    exact congrArg letterOf (by omega)
  · rw [letter_eq _ 6 (by decide), triple_toNat]
    show letterOf (_ / 64 % 64) = _
    exact congrArg letterOf (by omega)
  · rw [letter_eq _ 0 (by decide), triple_toNat]
    show letterOf (_ / 1 % 64) = _
    exact congrArg letterOf (by omega)

/-! ## the buffer -/

/-- six bits go into the buffer, whatever was left in it -/
theorem buffer_six (buffer : UInt32) {index : Nat} (h : index < 64) :
    ((buffer <<< 6) ||| UInt32.ofNat index).toNat = buffer.toNat * 64 % 4294967296 + index := by
  have hbuffer := buffer.toNat_lt
  have hshift : (buffer <<< 6).toNat = buffer.toNat * 64 % 4294967296 := by
    rw [UInt32.toNat_shiftLeft]
    show buffer.toNat <<< 6 % 4294967296 = _
    rw [Nat.shiftLeft_eq]
  have hindex : (UInt32.ofNat index).toNat = index := by
    rw [UInt32.toNat_ofNat']
    exact Nat.mod_eq_of_lt (by omega)
  rw [or_toNat (n := 6) (by omega) (by omega), hshift, hindex]

/-- the byte that is taken out -/
theorem byte_of_buffer (buffer bits : UInt32) (h : bits.toNat < 32) :
    ((buffer >>> bits) &&& 0xFF).toUInt8 = UInt8.ofNat (buffer.toNat / 2 ^ bits.toNat) := by
  apply UInt8.toNat_inj.mp
  rw [UInt32.toNat_toUInt8, UInt32.toNat_and, UInt32.toNat_shiftRight, Nat.mod_eq_of_lt h,
    Nat.shiftRight_eq_div_pow]
  show (_ &&& 2 ^ 8 - 1) % 2 ^ 8 = _
  rw [Nat.and_two_pow_sub_one_eq_mod, Nat.mod_mod, UInt8.toNat_ofNat']

/-- `count` bits wait in the buffer, and they are `bits`; what lies above them is never read again -/
structure Waiting (s : UInt32 × UInt32 × Bytes) (count bits : Nat) (out : Bytes) : Prop where
  waits : s.2.1.toNat = count
  buffered : s.1.toNat % 2 ^ count = bits
  decoded : s.2.2 = out

/-- `text` takes the decoder from `s` to `s'` -/
def Decodes (s : UInt32 × UInt32 × Bytes) (text : List Char) (s' : UInt32 × UInt32 × Bytes) : Prop :=
  (Text.utf8Chars text).foldlM base64Step s = some s'

theorem Decodes.append {s s' s'' : UInt32 × UInt32 × Bytes} {text rest : List Char}
    (h : Decodes s text s') (hrest : Decodes s' rest s'') : Decodes s (text ++ rest) s'' := by
  unfold Decodes at *
  rw [Text.utf8Chars_append, List.foldlM_append, h]
  exact hrest

theorem base64Step_letter (s : UInt32 × UInt32 × Bytes) {index : Nat} (h : index < 64) :
    Decodes s [letterOf index] (if 8 ≤ s.2.1 + 6 then
        ((s.1 <<< 6) ||| UInt32.ofNat index, s.2.1 + 6 - 8,
          s.2.2 ++ [((((s.1 <<< 6) ||| UInt32.ofNat index) >>> (s.2.1 + 6 - 8)) &&& 0xFF).toUInt8])
      else ((s.1 <<< 6) ||| UInt32.ofNat index, s.2.1 + 6, s.2.2)) := by
  obtain ⟨byte, htext, hidx, _⟩ := letterOf_spec h
  unfold Decodes
  rw [htext, List.foldlM_cons]
  simp only [base64Step, hidx, Option.map_some, List.foldlM_nil]
  rfl

/-- the first letter of a group waits -/
theorem first_letter {s : UInt32 × UInt32 × Bytes} {out : Bytes} (hs : Waiting s 0 0 out) (index : Nat)
    (h : index < 64) : ∃ s', Decodes s [letterOf index] s' ∧ Waiting s' 6 index out := by
  have hcount : s.2.1 = 0 := UInt32.toNat_inj.mp hs.waits
  have hstep := base64Step_letter s h
  rw [hcount, if_neg (by decide)] at hstep
  refine ⟨_, hstep, rfl, ?_, hs.decoded⟩
  show (s.1 <<< 6 ||| UInt32.ofNat index).toNat % 64 = index
  rw [buffer_six s.1 h]
  omega

/-- every other letter completes a byte -/
theorem next_letter {s : UInt32 × UInt32 × Bytes} {count bits : Nat} {out : Bytes}
    (hs : Waiting s count bits out) (hcount : count = 2 ∨ count = 4 ∨ count = 6) (index : Nat)
    (h : index < 64) : ∃ s', Decodes s [letterOf index] s' ∧
      Waiting s' (count - 2) (index % 2 ^ (count - 2))
        (out ++ [UInt8.ofNat ((bits * 64 + index) / 2 ^ (count - 2))]) := by
  have hfull : s.2.1 + 6 - 8 = UInt32.ofNat (count - 2) ∧ 8 ≤ s.2.1 + 6 := by
    have heq : s.2.1 = UInt32.ofNat count := by
      apply UInt32.toNat_inj.mp
      rw [hs.waits, UInt32.toNat_ofNat']
      omega
    rw [heq]
    rcases hcount with rfl | rfl | rfl
    · decide
    · decide
    · decide
  have hleft : (UInt32.ofNat (count - 2)).toNat = count - 2 := by
    rw [UInt32.toNat_ofNat']
    omega
  have hbits := hs.buffered
  have hstep := base64Step_letter s h
  rw [if_pos hfull.2, hfull.1] at hstep
  refine ⟨_, hstep, hleft, ?_, ?_⟩
  · show (s.1 <<< 6 ||| UInt32.ofNat index).toNat % 2 ^ (count - 2) = _
    rw [buffer_six s.1 h]
    rcases hcount with rfl | rfl | rfl
    · omega
    · omega
    · omega
  · show s.2.2 ++ [_] = _
    rw [hs.decoded, byte_of_buffer _ _ (by omega), hleft, buffer_six s.1 h]
    congr 2
    apply UInt8.toNat_inj.mp
    rw [UInt8.toNat_ofNat', UInt8.toNat_ofNat']
    rcases hcount with rfl | rfl | rfl
    · omega
    · omega
    · omega

/-! ## groups -/

/-- two letters hold a byte and four bits of the next one -/
theorem first_byte {s : UInt32 × UInt32 × Bytes} {out : Bytes} (hs : Waiting s 0 0 out) (b : UInt8)
    (bits : Nat) (h : bits < 16) :
    ∃ s', Decodes s [letterOf (b.toNat / 4), letterOf (b.toNat % 4 * 16 + bits)] s' ∧
      Waiting s' 4 bits (out ++ [b]) := by
  have hb := b.toNat_lt
  obtain ⟨s', hfirst, hs'⟩ := first_letter hs (b.toNat / 4) (by omega)
  obtain ⟨s'', hsecond, hs''⟩ := next_letter hs' (by decide) (b.toNat % 4 * 16 + bits) (by omega)
  have hbyte : UInt8.ofNat ((b.toNat / 4 * 64 + (b.toNat % 4 * 16 + bits)) / 2 ^ 4) = b := by
    apply UInt8.toNat_inj.mp
    rw [UInt8.toNat_ofNat']
    omega
  have hleft : (b.toNat % 4 * 16 + bits) % 2 ^ 4 = bits := by omega
  rw [hbyte, hleft] at hs''
  exact ⟨s'', hfirst.append hsecond, hs''⟩

/-- a third letter completes the second byte -/
theorem second_byte {s : UInt32 × UInt32 × Bytes} {out : Bytes} {b : UInt8}
    (hs : Waiting s 4 (b.toNat / 16) out) (bits : Nat) (h : bits < 4) :
    ∃ s', Decodes s [letterOf (b.toNat % 16 * 4 + bits)] s' ∧ Waiting s' 2 bits (out ++ [b]) := by
  have hb := b.toNat_lt
  obtain ⟨s', hletter, hs'⟩ := next_letter hs (by decide) (b.toNat % 16 * 4 + bits) (by omega)
  have hbyte : UInt8.ofNat ((b.toNat / 16 * 64 + (b.toNat % 16 * 4 + bits)) / 2 ^ 2) = b := by
    apply UInt8.toNat_inj.mp
    rw [UInt8.toNat_ofNat']
    omega
  have hleft : (b.toNat % 16 * 4 + bits) % 2 ^ 2 = bits := by omega
  rw [hbyte, hleft] at hs'
  exact ⟨s', hletter, hs'⟩

/-- and a fourth one the third -/
theorem third_byte {s : UInt32 × UInt32 × Bytes} {out : Bytes} {b : UInt8}
    (hs : Waiting s 2 (b.toNat / 64) out) :
    ∃ s', Decodes s [letterOf (b.toNat % 64)] s' ∧ Waiting s' 0 0 (out ++ [b]) := by
  have hb := b.toNat_lt
  obtain ⟨s', hletter, hs'⟩ := next_letter hs (by decide) (b.toNat % 64) (by omega)
  have hbyte : UInt8.ofNat ((b.toNat / 64 * 64 + b.toNat % 64) / 2 ^ 0) = b := by
    apply UInt8.toNat_inj.mp
    rw [UInt8.toNat_ofNat']
    omega
  have hleft : b.toNat % 64 % 2 ^ 0 = 0 := by omega
  rw [hbyte, hleft] at hs'
  exact ⟨s', hletter, hs'⟩

/-- letters, then padding, and the letters are the bytes -/
structure Encoded (text : List Char) (bytes : Bytes) (letters : List Char) : Prop where
  padded : ∃ n, text = letters ++ List.replicate n '='
  plain : ∀ c ∈ letters, c ≠ '='
  decodes : ∀ s out, Waiting s 0 0 out → ∃ s', Decodes s letters s' ∧ s'.2.2 = out ++ bytes

theorem letters_plain {indexes : List Nat} (h : ∀ i ∈ indexes, i < 64) :
    ∀ c ∈ indexes.map letterOf, c ≠ '=' := by
  intro c hc
  obtain ⟨i, hi, rfl⟩ := List.mem_map.mp hc
  obtain ⟨_, _, _, hne⟩ := letterOf_spec (h i hi)
  exact hne

/-- what the encoder writes, group after group -/
theorem encoded_base64Chunks (bytes : Bytes) : ∃ letters, Encoded (base64Chunks bytes) bytes letters := by
  have hzero : (0 : UInt8).toNat = 0 := rfl
  induction bytes using base64Chunks.induct with
  | case1 =>
    refine ⟨[], ⟨0, rfl⟩, fun c hc => absurd hc List.not_mem_nil, fun s out hs => ⟨s, rfl, ?_⟩⟩
    rw [hs.decoded, List.append_nil]
  | case2 b0 =>
    have h0 := b0.toNat_lt
    obtain ⟨hfirst, hsecond, _, _⟩ := letter_triple b0 0 0
    refine ⟨[b0.toNat / 4, b0.toNat % 4 * 16 + 0].map letterOf, ⟨2, ?_⟩, letters_plain ?_, ?_⟩
    · rw [base64Chunks, hfirst, hsecond, hzero]
      rfl
    · intro i hi
      simp only [List.mem_cons, List.not_mem_nil, or_false] at hi
      omega
    · intro s out hs
      obtain ⟨s', hletters, hs'⟩ := first_byte hs b0 0 (by decide)
      exact ⟨s', hletters, hs'.decoded⟩
  | case3 b0 b1 =>
    have h0 := b0.toNat_lt
    have h1 := b1.toNat_lt
    obtain ⟨hfirst, hsecond, hthird, _⟩ := letter_triple b0 b1 0
    refine ⟨[b0.toNat / 4, b0.toNat % 4 * 16 + b1.toNat / 16, b1.toNat % 16 * 4 + 0].map letterOf,
      ⟨1, ?_⟩, letters_plain ?_, ?_⟩
    · rw [base64Chunks, hfirst, hsecond, hthird, hzero]
      rfl
    · intro i hi
      simp only [List.mem_cons, List.not_mem_nil, or_false] at hi
      omega
    · intro s out hs
      obtain ⟨s', hletters, hs'⟩ := first_byte hs b0 (b1.toNat / 16) (by omega)
      obtain ⟨s'', hletter, hs''⟩ := second_byte hs' 0 (by decide)
      refine ⟨s'', hletters.append hletter, ?_⟩
      rw [hs''.decoded, List.append_assoc]
      rfl
  | case4 b0 b1 b2 bytes ih =>
    have h0 := b0.toNat_lt
    have h1 := b1.toNat_lt
    have h2 := b2.toNat_lt
    obtain ⟨hfirst, hsecond, hthird, hfourth⟩ := letter_triple b0 b1 b2
    obtain ⟨letters, ⟨n, hpadded⟩, hplain, hdecodes⟩ := ih
    let group := [b0.toNat / 4, b0.toNat % 4 * 16 + b1.toNat / 16, b1.toNat % 16 * 4 + b2.toNat / 64,
      b2.toNat % 64].map letterOf
    have hgroup : ∀ c ∈ group, c ≠ '=' := by
      apply letters_plain
      intro i hi
      simp only [List.mem_cons, List.not_mem_nil, or_false] at hi
      omega
    refine ⟨group ++ letters, ⟨n, ?_⟩, ?_, ?_⟩
    · rw [base64Chunks, hfirst, hsecond, hthird, hfourth, hpadded, List.append_assoc]
      rfl
    · intro c hc
      rcases List.mem_append.mp hc with hc | hc
      · exact hgroup c hc
      · exact hplain c hc
    · intro s out hs
      obtain ⟨s₁, hletters, hs₁⟩ := first_byte hs b0 (b1.toNat / 16) (by omega)
      obtain ⟨s₂, hletter, hs₂⟩ := second_byte hs₁ (b2.toNat / 64) (by omega)
      obtain ⟨s₃, hlast, hs₃⟩ := third_byte hs₂
      obtain ⟨s₄, hrest, hs₄⟩ := hdecodes s₃ _ hs₃
      refine ⟨s₄, ((hletters.append hletter).append hlast).append hrest, ?_⟩
      rw [hs₄]
      simp only [List.append_assoc, List.cons_append, List.nil_append]

/-- padding comes off, and letters stay -/
theorem rdropWhile_padding {letters : List Char} (h : ∀ c ∈ letters, c ≠ '=') (n : Nat) :
    (letters ++ List.replicate n '=').rdropWhile (· == '=') = letters := by
  have hpad : ∀ c ∈ (List.replicate n '=').reverse, (c == '=') = true := by
    intro c hc
    rw [List.mem_reverse] at hc
    exact beq_iff_eq.mpr (List.eq_of_mem_replicate hc)
  rw [List.rdropWhile, List.reverse_append, List.dropWhile_append_of_pos hpad]
  show letters.rdropWhile (· == '=') = letters
  rw [List.rdropWhile_eq_self_iff]
  intro hne heq
  exact h _ (List.getLast_mem hne) (beq_iff_eq.mp heq)

theorem base64Decode_base64 (bytes : Bytes) : base64Decode (base64 bytes) = some bytes ∧
    base64Decode (withoutPadding (base64 bytes)) = some bytes := by
  obtain ⟨letters, ⟨n, hpadded⟩, hplain, hdecodes⟩ := encoded_base64Chunks bytes
  obtain ⟨s', hletters, hs'⟩ := hdecodes (0, 0, []) [] ⟨rfl, rfl, rfl⟩
  have hread : ∀ text : List Char, text.rdropWhile (· == '=') = letters →
      base64Decode (String.ofList text) = some bytes := by
    intro text htext
    rw [base64Decode, String.toList_ofList, htext, hletters, Option.map_some, hs', List.nil_append]
  have htrim := rdropWhile_padding hplain n
  rw [← hpadded] at htrim
  refine ⟨hread _ htrim, ?_⟩
  rw [withoutPadding, base64, String.toList_ofList]
  exact hread _ (by rw [List.rdropWhile_idempotent, htrim])

/-! ## both encodings -/

/-- what is relied on of `hex::decode` -/
structure HexDecode (hexDecode : String → Option Bytes) : Prop where
  empty : hexDecode "" = some []
  pair : ∀ hi lo x y rest, Uuid.hexVal hi = some x → Uuid.hexVal lo = some y →
    hexDecode (String.ofList (hi :: lo :: rest)) =
      (hexDecode (String.ofList rest)).map (UInt8.ofNat (16 * x + y) :: ·)
  other : ∀ text c, c ∈ text.toList → Uuid.hexVal c = none → hexDecode text = none

/-- `hex::decode` on the characters -/
def hexChars : List Char → Option Bytes
  | [] => some []
  | [_] => none
  | hi :: lo :: rest =>
    match Uuid.hexVal hi, Uuid.hexVal lo with
    | some x, some y => (hexChars rest).map (UInt8.ofNat (16 * x + y) :: ·)
    | _, _ => none

def hexBytes (text : String) : Option Bytes := hexChars text.toList

theorem hexChars_other {text : List Char} {c : Char} (hc : c ∈ text) (h : Uuid.hexVal c = none) :
    hexChars text = none := by
  induction text using hexChars.induct with
  | case1 => exact absurd hc List.not_mem_nil
  | case2 d => rfl
  | case3 hi lo rest y x hlo hhi ih =>
    have hrest : c ∈ rest := by
      rcases List.mem_cons.mp hc with rfl | hc
      · rw [h] at hhi
        cases hhi
      · rcases List.mem_cons.mp hc with rfl | hc
        · rw [h] at hlo
          cases hlo
        · exact hc
    rw [hexChars, hhi, hlo]
    show (hexChars rest).map _ = none
    rw [ih hrest, Option.map_none]
  | case4 hi lo rest hno =>
    rw [hexChars]
    split
    · rename_i x y hhi hlo
      exact absurd hlo (hno x y hhi)
    · rfl

theorem hexBytes_decode : HexDecode hexBytes := by
  refine ⟨rfl, ?_, fun text c hc h => hexChars_other hc h⟩
  intro hi lo x y rest hhi hlo
  rw [hexBytes, hexBytes, String.toList_ofList, String.toList_ofList, hexChars, hhi, hlo]

section
variable {hexDecode : String → Option Bytes}

/-- digit by digit -/
theorem HexDecode.hex (h : HexDecode hexDecode) (bytes : Bytes) :
    hexDecode (Text.hex bytes) = some bytes := by
  induction bytes with
  | nil => exact h.empty
  | cons b bytes ih =>
    have hb := b.toNat_lt
    have hhi := Uuid.hexVal_hexChar ⟨b.toNat / 16, by omega⟩
    have hlo := Uuid.hexVal_hexChar ⟨b.toNat % 16, by omega⟩
    have hpair := h.pair _ _ _ _ (bytes.flatMap Text.hexByte) hhi hlo
    have hbyte : UInt8.ofNat (16 * (b.toNat / 16) + b.toNat % 16) = b := by
      rw [Nat.div_add_mod, UInt8.ofNat_toNat]
    rw [Text.hex] at ih
    rw [ih, Option.map_some] at hpair
    show hexDecode (String.ofList (_ :: _ :: bytes.flatMap Text.hexByte)) = _
    exact hpair.trans (by rw [hbyte])

/-- the text of 64 bytes is padded -/
theorem padding_mem (bytes : Bytes) (h : bytes.length % 3 ≠ 0) : '=' ∈ (base64 bytes).toList := by
  rw [base64, String.toList_ofList]
  induction bytes using base64Chunks.induct with
  | case1 => exact absurd rfl h
  | case2 b0 => simp [base64Chunks]
  | case3 b0 b1 => simp [base64Chunks]
  | case4 b0 b1 b2 bytes ih =>
    rw [base64Chunks]
    simp only [List.length_cons] at h
    exact List.mem_append_right _ (ih (by omega))

/-- **Both encodings.**  Every text that the encoder writes is read back, padded or not, and a signature is
read back from its hexadecimal text as from its base64 text, whose padding is no hexadecimal digit. -/
theorem signature_texts :
    (∀ bytes : Bytes, base64Decode (base64 bytes) = some bytes ∧
      base64Decode (withoutPadding (base64 bytes)) = some bytes) ∧
    ∀ hexDecode : String → Option Bytes, HexDecode hexDecode → ∀ signature : Bytes,
      signature.length = 64 →
      decodeSignature hexDecode (Text.hex signature) = some signature ∧
      decodeSignature hexDecode (base64 signature) = some signature := by
  refine ⟨base64Decode_base64, fun hexDecode hhex signature hlength => ⟨?_, ?_⟩⟩
  · rw [decodeSignature, hhex.hex, Option.some_or]
  · have hpadding := padding_mem signature (by rw [hlength]; decide)
    rw [decodeSignature, hhex.other _ _ hpadding (by decide), Option.none_or]
    exact (base64Decode_base64 signature).1

/-- the signature of 64 zero bytes -/
theorem signature_texts_zeros :
    (base64Decode (base64 [0]) = some [0] ∧ base64Decode (withoutPadding (base64 [0])) = some [0]) ∧
    decodeSignature hexBytes (Text.hex (List.replicate 64 0)) = some (List.replicate 64 0) ∧
    decodeSignature hexBytes (base64 (List.replicate 64 0)) = some (List.replicate 64 0) :=
  ⟨signature_texts.1 [0],
    signature_texts.2 hexBytes hexBytes_decode (List.replicate 64 0) List.length_replicate⟩

end

end Companion
