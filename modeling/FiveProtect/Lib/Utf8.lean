import FiveProtect.Lib.AsciiClass

/-!
# UTF-8

Bytes are valid UTF-8 if they are the encoding of some characters: so no surrogate is encoded, nothing is
longer than it has to be, and no sequence ends too early.

* `Utf8.encode_append`      the first character of a text can be read off its bytes;
* `Utf8.valid_append`       behind valid bytes, the rest is valid or not on its own;
* `Utf8.valid_ascii`, `Utf8.valid_split`   an ASCII byte starts a character and ends one;
* `Utf8.surrogate_invalid`  what an encoded surrogate starts with starts no character.
-/

namespace Utf8

def Valid (bytes : Bytes) : Prop := ∃ chars, Text.utf8Chars chars = bytes

theorem valid_nil : Valid [] := ⟨[], rfl⟩

theorem valid_utf8 (s : String) : Valid (Text.utf8 s) := ⟨s.toList, rfl⟩

theorem valid_char (c : Char) : Valid (String.utf8EncodeChar c) := ⟨[c], List.append_nil _⟩

/-- the first character can be read off -/
theorem encode_append {c d : Char} {a b : Bytes}
    (h : String.utf8EncodeChar c ++ a = String.utf8EncodeChar d ++ b) : c = d ∧ a = b := by
  have hdecode : ∀ (e : Char) (rest : Bytes),
      ByteArray.utf8DecodeChar? (String.utf8EncodeChar e ++ rest).toByteArray 0 = some e := by
    intro e rest
    rw [List.toByteArray_append]
    exact ByteArray.utf8DecodeChar?_utf8EncodeChar_append
  have hc := hdecode c a
  rw [h, hdecode d b] at hc
  cases hc
  exact ⟨rfl, List.append_cancel_left h⟩

theorem valid_encode (c : Char) (rest : Bytes) : Valid (String.utf8EncodeChar c ++ rest) ↔ Valid rest := by
  constructor
  · rintro ⟨chars, hchars⟩
    cases chars with
    | nil =>
      have hnil : String.utf8EncodeChar c = [] := (List.append_eq_nil_iff.mp hchars.symm).1
      exact absurd hnil String.utf8EncodeChar_ne_nil
    | cons d chars => exact ⟨chars, (encode_append hchars).2⟩
  · rintro ⟨chars, hchars⟩
    exact ⟨c :: chars, by rw [← hchars]; rfl⟩

theorem valid_append {front : Bytes} (h : Valid front) (rest : Bytes) :
    Valid (front ++ rest) ↔ Valid rest := by
  obtain ⟨chars, rfl⟩ := h
  induction chars with
  | nil => exact Iff.rfl
  | cons c chars ih =>
    show Valid ((String.utf8EncodeChar c ++ Text.utf8Chars chars) ++ rest) ↔ _
    rw [List.append_assoc, valid_encode, ih]

theorem toNat_ofNat {n : Nat} (h : n.isValidChar) : (Char.ofNat n).toNat = n := by
  unfold Char.ofNat
  rw [dif_pos h]
  rfl

theorem encode_ascii {b : UInt8} (h : b < 0x80) : String.utf8EncodeChar (Char.ofNat b.toNat) = [b] := by
  have hlt : b.toNat < 128 := UInt8.lt_iff_toNat_lt.mp h
  have hchar : (Char.ofNat b.toNat).toNat = b.toNat := toNat_ofNat (.inl (by omega))
  rw [Text.utf8Encode_ascii (by rw [hchar]; exact hlt)]
  show [UInt8.ofNat (Char.ofNat b.toNat).toNat] = [b]
  rw [hchar, UInt8.ofNat_toNat]

theorem valid_ascii {b : UInt8} (h : b < 0x80) (rest : Bytes) : Valid (b :: rest) ↔ Valid rest := by
  have hchar := valid_encode (Char.ofNat b.toNat) rest
  rwa [encode_ascii h] at hchar

/-- an ASCII byte is no part of another character -/
theorem valid_split {front rest : Bytes} {b : UInt8} (hb : b < 0x80) (h : Valid (front ++ b :: rest)) :
    Valid front ∧ Valid rest := by
  obtain ⟨chars, hchars⟩ := h
  induction chars generalizing front with
  | nil => exact absurd hchars.symm (List.append_ne_nil_of_right_ne_nil _ (List.cons_ne_nil b rest))
  | cons c chars ih =>
    have hcons : String.utf8EncodeChar c ++ Text.utf8Chars chars = front ++ b :: rest := hchars
    rcases List.append_eq_append_iff.mp hcons with ⟨more, hfront, hmore⟩ | ⟨more, hc, hmore⟩
    · obtain ⟨hvalid, hrest⟩ := ih hmore
      rw [hfront]
      exact ⟨(valid_encode c more).mpr hvalid, hrest⟩
    · cases more with
      | nil =>
        rw [List.append_nil] at hc
        obtain ⟨hvalid, hrest⟩ := @ih [] hmore.symm
        exact ⟨hc ▸ valid_char c, hrest⟩
      | cons b' more =>
        injection hmore with hb' hrest
        have hmem : b ∈ String.utf8EncodeChar c := by
          rw [hc, hb']
          exact List.mem_append_right _ List.mem_cons_self
        have hascii : c.toNat < 128 := by
          by_contra hhigh
          have hbyte := Text.utf8Encode_high (Nat.le_of_not_lt hhigh) b hmem
          have hlow : b.toNat < 128 := UInt8.lt_iff_toNat_lt.mp hb
          omega
        rw [Text.utf8Encode_ascii hascii] at hc
        rcases List.append_eq_singleton_iff.mp hc.symm with ⟨hfront, hmore'⟩ | ⟨_, hnil⟩
        · injection hmore' with _ hnil
          rw [hfront, hrest, hnil]
          exact ⟨valid_nil, chars, rfl⟩
        · cases hnil

/-- ASCII bytes in front of a text -/
theorem valid_ascii_append {ascii : Bytes} (h : ∀ b ∈ ascii, b < 0x80) (rest : Bytes) :
    Valid (ascii ++ rest) ↔ Valid rest := by
  induction ascii with
  | nil => exact Iff.rfl
  | cons b ascii ih =>
    rw [List.forall_mem_cons] at h
    rw [List.cons_append, valid_ascii h.1, ih h.2]

/-- and behind it -/
theorem valid_append_ascii {front ascii : Bytes} (h : ∀ b ∈ ascii, b < 0x80) (hv : Valid (front ++ ascii)) :
    Valid front := by
  cases ascii with
  | nil => rwa [List.append_nil] at hv
  | cons b ascii => exact (valid_split (h b List.mem_cons_self) hv).1

/-- what an encoded surrogate starts with -/
theorem surrogate_invalid {b : UInt8} (hb : 0xA0 ≤ b) (rest : Bytes) : ¬Valid (0xED :: b :: rest) := by
  rintro ⟨chars, hchars⟩
  cases chars with
  | nil => cases hchars
  | cons c chars =>
    have hcons : String.utf8EncodeChar c ++ Text.utf8Chars chars = 0xED :: b :: rest := hchars
    have hsurrogate := Text.not_surrogate c
    have hval : c.val.toNat = c.toNat := rfl
    have hb' : 160 ≤ b.toNat := UInt8.le_iff_toNat_le.mp hb
    unfold String.utf8EncodeChar at hcons
    dsimp only at hcons
    rw [hval] at hcons
    have hed : ∀ {n : Nat}, UInt8.ofNat n = 0xED → n % 256 = 237 := by
      intro n hn
      rw [← UInt8.toNat_ofNat', hn]
      rfl
    split at hcons
    · injection hcons with hbyte _
      have hfirst := hed hbyte
      omega
    split at hcons
    · injection hcons with hbyte _
      have hfirst := hed hbyte
      omega
    split at hcons
    · injection hcons with hbyte hcons
      injection hcons with hbyte' _
      have hfirst := hed hbyte
      have hsecond := congrArg UInt8.toNat hbyte'
      rw [UInt8.toNat_ofNat'] at hsecond
      omega
    · injection hcons with hbyte _
      have hfirst := hed hbyte
      omega

end Utf8
