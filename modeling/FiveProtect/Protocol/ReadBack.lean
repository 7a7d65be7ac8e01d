import FiveProtect.Protocol.CppText

/-!
# Protocol: the scan engine reads what it wrote

`json::parse` of `json::serialize`, for the values the encoder builds.

* `stringStep_escape`, `parseString_escape`   a byte, a text;
* `parseNumber_int`     an integer;
* `arrayLoop`, `objectLoop`   the loops of the parser, item by item;
* `parse_serialize`     every value that is `Plain`: no double, no integer out of range, no object with
                        its keys out of order, not nested too deep.
-/

namespace Protocol.Cpp
open LuaPattern (isDigit byteOf)

/-! ## texts -/

theorem stringStep_quote (out rest : Bytes) :
    stringStep out (quote :: rest) = .ok (.inr out, rest) := rfl

/-- the escape of a control character -/
theorem parseHex4_control {c : UInt8} (hc : c < 0x20) (rest : Bytes) :
    parseHex4 (Text.utf8 "00" ++ (Text.hexByte c).map byteOf ++ rest) = .ok (c.toNat, rest) := by
  have hdigits : ((List.range 32).all fun n =>
      ((Text.utf8 "00" ++ (Text.hexByte (UInt8.ofNat n)).map byteOf).mapM hexValue).any fun digits =>
        digits.foldl (fun out digit => out <<< 4 ||| digit) 0 == n) = true := by decide
  have hn : c.toNat < 32 := UInt8.lt_iff_toNat_lt.mp hc
  have hthis := List.all_eq_true.mp hdigits c.toNat (List.mem_range.mpr hn)
  rw [UInt8.ofNat_toNat] at hthis
  obtain ⟨digits, hsome, hvalue⟩ := (Option.any_eq_true _ _).mp hthis
  have hlen : (Text.utf8 "00" ++ (Text.hexByte c).map byteOf).length = 4 := rfl
  have hlong : ¬ (Text.utf8 "00" ++ (Text.hexByte c).map byteOf ++ rest).length < 4 := by
    rw [List.length_append, hlen]
    omega
  rw [parseHex4, if_neg hlong, List.take_left' hlen, List.drop_left' hlen, hsome]
  show Except.ok (_, rest) = _
  rw [beq_iff_eq.mp hvalue]

/-- **Step.** A byte is read back from its escape. -/
theorem stringStep_escape (out : Bytes) (c : UInt8) (rest : Bytes) :
    stringStep out (escapeByte c ++ rest) = .ok (.inl (out ++ [c]), rest) := by
  by_cases hquote : c = quote
  · subst hquote
    rfl
  by_cases hbackslash : c = backslash
  · subst hbackslash
    rfl
  by_cases hb : c = 8
  · subst hb
    rfl
  by_cases hf : c = 12
  · subst hf
    rfl
  by_cases hn : c = 10
  · subst hn
    rfl
  by_cases hr : c = 13
  · subst hr
    rfl
  by_cases ht : c = 9
  · subst ht
    rfl
  unfold escapeByte
  rw [if_neg hquote, if_neg hbackslash, if_neg hb, if_neg hf, if_neg hn, if_neg hr, if_neg ht]
  by_cases hcontrol : c < 0x20
  · rw [if_pos hcontrol]
    have hlt : c.toNat < 32 := UInt8.lt_iff_toNat_lt.mp hcontrol
    have hlow : parseSurrogates c.toNat rest = .ok (c.toNat, rest) := if_neg (by omega)
    have hchar : appendUtf8 c.toNat out = out ++ [c] := by
      rw [appendUtf8, if_pos (by omega), UInt8.ofNat_toNat]
    show (parseHex4 (Text.utf8 "00" ++ (Text.hexByte c).map byteOf ++ rest) >>= fun read =>
      parseSurrogates read.1 read.2 >>= fun read => Except.ok (Sum.inl (appendUtf8 read.1 out), read.2)) = _
    rw [parseHex4_control hcontrol]
    show (parseSurrogates c.toNat rest >>= fun read =>
      Except.ok (Sum.inl (appendUtf8 read.1 out), read.2)) = _
    rw [hlow]
    show Except.ok (Sum.inl (appendUtf8 c.toNat out), rest) = _
    rw [hchar]
  · rw [if_neg hcontrol]
    show stringStep out (c :: rest) = _
    unfold stringStep
    dsimp only
    rw [if_neg hquote, if_pos hbackslash]

/-- a text is read back -/
theorem parseString_escape (s rest : Bytes) : parseString (escape s ++ rest) = .ok (s, rest) := by
  have hloop : ∀ out, Reader.repeatedly stringStep stuck out
      (s.flatMap escapeByte ++ quote :: rest) = .ok (out ++ s, rest) := by
    induction s with
    | nil =>
      intro out
      rw [List.append_nil]
      exact Reader.repeatedly_last (stringStep_quote out rest)
    | cons c s ih =>
      intro out
      rw [List.flatMap_cons, List.append_assoc,
        Reader.repeatedly_next stringStep_shortens (stringStep_escape out c _), ih,
        List.append_assoc, List.singleton_append]
  have htext : escape s ++ rest = quote :: (s.flatMap escapeByte ++ quote :: rest) := by
    rw [escape, List.cons_append, List.cons_append, List.append_assoc, List.singleton_append]
  rw [htext, parseString, if_pos rfl]
  exact hloop []

/-! ## numbers -/

theorem isDigit_byteOf {c : Char} (h : c.isDigit = true) :
    isDigit (byteOf c) = true ∧ (byteOf c).toNat = c.toNat ∧ String.utf8EncodeChar c = [byteOf c] := by
  obtain ⟨hlo, hhi⟩ : 48 ≤ c.toNat ∧ c.toNat ≤ 57 := Char.isDigit_iff_toNat.mp h
  have hascii : c.toNat < 128 := by omega
  have hbyte := Text.byteOf_toNat hascii
  refine ⟨?_, hbyte, Text.utf8Encode_ascii hascii⟩
  rw [isDigit, Bool.and_eq_true, decide_eq_true_iff, decide_eq_true_iff, UInt8.le_iff_toNat_le,
    UInt8.le_iff_toNat_le, hbyte]
  exact ⟨hlo, hhi⟩

/-- the digits of a number, as bytes -/
def digitsOf (n : Nat) : Bytes := (Nat.toDigits 10 n).map byteOf

theorem isDigit_digitsOf (n : Nat) : ∀ b ∈ digitsOf n, isDigit b = true := by
  intro b hb
  obtain ⟨c, hc, rfl⟩ := List.mem_map.mp hb
  exact (isDigit_byteOf (Nat.isDigit_of_mem_toDigits (by omega) (by omega) hc)).1

theorem digitsOf_ne_nil (n : Nat) : digitsOf n ≠ [] :=
  fun h => Nat.toDigits_ne_nil (List.map_eq_nil_iff.mp h)

theorem utf8_nat (n : Nat) : Text.utf8 n.repr = digitsOf n := by
  rw [Text.utf8, Nat.toList_repr, Text.utf8Chars, digitsOf, List.map_eq_flatMap]
  refine List.flatMap_congr fun c hc => ?_
  exact (isDigit_byteOf (Nat.isDigit_of_mem_toDigits (by omega) (by omega) hc)).2.2

def minus (i : Int) : Bytes := if i < 0 then [byteOf '-'] else []

theorem utf8_int (i : Int) : Text.utf8 (toString i) = minus i ++ digitsOf i.natAbs := by
  cases i with
  | ofNat n =>
    have hn : ¬ Int.ofNat n < 0 := Int.not_lt.mpr (Int.natCast_nonneg n)
    rw [minus, if_neg hn]
    exact utf8_nat n
  | negSucc n =>
    rw [minus, if_pos (Int.negSucc_lt_zero n)]
    show Text.utf8 ("-" ++ (n + 1).repr) = _
    rw [Text.utf8_append, utf8_nat]
    rfl

theorem foldl_digitsOf (n : Nat) :
    (digitsOf n).foldl (fun n c => 10 * n + (c.toNat - 48)) 0 = n := by
  rw [digitsOf, List.foldl_map]
  refine Eq.trans ?_ (Nat.ofDigitChars_ten_toDigits (n := n))
  rw [Nat.ofDigitChars_eq_foldl]
  refine List.foldl_ext _ _ _ fun m c hc => ?_
  rw [(isDigit_byteOf (Nat.isDigit_of_mem_toDigits (by omega) (by omega) hc)).2.1]
  rfl

theorem isSign_digit {b : UInt8} (h : isDigit b = true) : isSign b = false := by
  rw [isDigit, Bool.and_eq_true, decide_eq_true_iff, decide_eq_true_iff] at h
  rw [isSign, Bool.or_eq_false_iff, decide_eq_false_iff_not, decide_eq_false_iff_not]
  constructor
  · rintro rfl
    exact absurd h (by decide)
  · rintro rfl
    exact absurd h (by decide)

theorem minus_sign (i : Int) {digits : Bytes} (h : ∀ b ∈ digits, isDigit b = true) :
    ((minus i ++ digits).take 1).takeWhile isSign = minus i ∧
      (minus i ++ digits).dropWhile isSign = digits := by
  have hdigits : (digits.take 1).takeWhile isSign = [] ∧ digits.dropWhile isSign = digits := by
    cases digits with
    | nil => exact ⟨rfl, rfl⟩
    | cons d digits =>
      have hd := isSign_digit (h d List.mem_cons_self)
      simp [hd]
  unfold minus
  by_cases hi : i < 0
  · rw [if_pos hi]
    exact ⟨rfl, hdigits.2⟩
  · rw [if_neg hi]
    exact hdigits

theorem stoll_int {i : Int} (h : isInt64 i = true) : stoll (minus i ++ digitsOf i.natAbs) = some i := by
  have hdigits := (minus_sign i (isDigit_digitsOf i.natAbs)).2
  have hsigned : (if (minus i ++ digitsOf i.natAbs).head? = some (byteOf '-') then
      -(i.natAbs : Int) else i.natAbs) = i := by
    unfold minus
    by_cases hi : i < 0
    · rw [if_pos hi, List.singleton_append, List.head?_cons, if_pos rfl]
      omega
    · have hhead : (digitsOf i.natAbs).head? ≠ some (byteOf '-') := by
        intro hhead
        exact absurd (isDigit_digitsOf _ _ (List.mem_of_head? hhead)) (by decide)
      rw [if_neg hi, List.nil_append, if_neg hhead]
      omega
  unfold stoll
  rw [hdigits]
  dsimp only
  rw [foldl_digitsOf, hsigned, if_neg (digitsOf_ne_nil _), if_pos h]

/-- an integer is read back, if no other number follows -/
theorem parseNumber_int (D : Doubles) {i : Int} (hi : isInt64 i = true) {rest : Bytes}
    (hrest : ∀ c ∈ rest.head?, isNumberChar c = false) :
    parseNumber D (Text.utf8 (toString i) ++ rest) = .ok (.int i, rest) := by
  have hdigits := isDigit_digitsOf i.natAbs
  have hnumber : ∀ b ∈ digitsOf i.natAbs, isNumberChar b = true := by
    intro b hb
    simp [isNumberChar, hdigits b hb]
  have hstop : rest.takeWhile isNumberChar = [] ∧ rest.dropWhile isNumberChar = rest := by
    cases rest with
    | nil => exact ⟨rfl, rfl⟩
    | cons c rest =>
      have hc := hrest c rfl
      simp [hc]
  have hsign : ((minus i ++ (digitsOf i.natAbs ++ rest)).take 1).takeWhile isSign = minus i := by
    rw [← List.append_assoc, List.take_append_of_le_length]
    · exact (minus_sign i hdigits).1
    · rw [List.length_append]
      have hpos := List.length_pos_iff.mpr (digitsOf_ne_nil i.natAbs)
      omega
  have htoken : minus i ++ digitsOf i.natAbs ≠ [] := fun h =>
    digitsOf_ne_nil _ (List.append_eq_nil_iff.mp h).2
  rw [utf8_int, List.append_assoc, parseNumber]
  dsimp only
  rw [hsign, List.drop_left, List.takeWhile_append_of_pos hnumber, hstop.1, List.append_nil,
    List.dropWhile_append_of_pos hnumber, hstop.2, if_neg htoken, if_pos (List.all_eq_true.mpr hdigits),
    stoll_int hi]
  rfl

/-! ## values -/

/-- a value as the encoder builds it: no double, integers in range, the keys of an object in order, and no
more than `room` levels -/
inductive Plain : Nat → Value → Prop where
  | null (room : Nat) : Plain (room + 1) .null
  | bool (room : Nat) (b : Bool) : Plain (room + 1) (.bool b)
  | int (room : Nat) {i : Int} (h : isInt64 i = true) : Plain (room + 1) (.int i)
  | string (room : Nat) (s : Bytes) : Plain (room + 1) (.string s)
  | array {room : Nat} {items : List Value} (h : ∀ v ∈ items, Plain room v) :
    Plain (room + 1) (.array items)
  | object {room : Nat} {members : List (Bytes × Value)} (h : ∀ m ∈ members, Plain room m.2)
    (sorted : members.Pairwise fun a b => Value.less a.1 b.1 = true) :
    Plain (room + 1) (.object members)

/-- no number goes on here -/
def Stops (rest : Bytes) : Prop := ∀ c ∈ rest.head?, isNumberChar c = false

theorem stops_cons {c : UInt8} (h : isNumberChar c = false) (rest : Bytes) : Stops (c :: rest) := by
  intro d hd
  cases hd
  exact h

theorem skipWs_cons {c : UInt8} (h : isWs c = false) (text : Bytes) : skipWs (c :: text) = c :: text := by
  rw [skipWs, List.dropWhile_cons, h]
  rfl

theorem escape_append (s rest : Bytes) :
    escape s ++ rest = quote :: (s.flatMap escapeByte ++ ([quote] ++ rest)) := by
  rw [escape, List.cons_append, List.cons_append, List.append_assoc]

/-- a minus or a digit -/
theorem int_head (i : Int) (rest : Bytes) : ∃ c text, Text.utf8 (toString i) ++ rest = c :: text ∧
    (c = byteOf '-' ∨ isDigit c = true) := by
  rw [utf8_int, minus]
  by_cases hi : i < 0
  · rw [if_pos hi]
    exact ⟨_, _, rfl, Or.inl rfl⟩
  · obtain ⟨d, digits, hdigits⟩ := List.exists_cons_of_ne_nil (digitsOf_ne_nil i.natAbs)
    have hd : isDigit d = true := by
      apply isDigit_digitsOf i.natAbs
      rw [hdigits]
      exact List.mem_cons_self
    rw [if_neg hi, hdigits]
    exact ⟨d, _, rfl, Or.inr hd⟩

theorem ne_of_int_head {c d : UInt8} (hc : c = byteOf '-' ∨ isDigit c = true)
    (hd : (d == byteOf '-' || isDigit d) = false) : c ≠ d := by
  rintro rfl
  rw [Bool.or_eq_false_iff] at hd
  rcases hc with rfl | hc
  · exact absurd hd.1 (by decide)
  · rw [hc] at hd
    exact absurd hd.2 (by decide)

theorem isWs_of_int_head {c : UInt8} (hc : c = byteOf '-' ∨ isDigit c = true) : isWs c = false := by
  have hspace : c ≠ 32 := ne_of_int_head hc (by decide)
  have htab : c ≠ 9 := ne_of_int_head hc (by decide)
  have hline : c ≠ 10 := ne_of_int_head hc (by decide)
  have hreturn : c ≠ 13 := ne_of_int_head hc (by decide)
  simp [isWs, hspace, htab, hline, hreturn]

/-- no value starts with white space or closes an array -/
theorem serialize_head (D : Doubles) {room : Nat} {v : Value} (h : Plain room v) (rest : Bytes) :
    ∃ c text, serialize D v ++ rest = c :: text ∧ isWs c = false ∧ c ≠ byteOf ']' := by
  cases h with
  | null room => exact ⟨byteOf 'n', _, rfl, by decide, by decide⟩
  | bool room b =>
    cases b with
    | true => exact ⟨byteOf 't', _, rfl, by decide, by decide⟩
    | false => exact ⟨byteOf 'f', _, rfl, by decide, by decide⟩
  | string room s => exact ⟨quote, _, escape_append s rest, by decide, by decide⟩
  | array h => exact ⟨byteOf '[', _, rfl, by decide, by decide⟩
  | object h sorted => exact ⟨openBrace, _, rfl, by decide, by decide⟩
  | int room h =>
    rename_i i
    obtain ⟨c, text, htext, hc⟩ := int_head i rest
    exact ⟨c, text, htext, isWs_of_int_head hc, ne_of_int_head hc (by decide)⟩

section
variable {read : Bytes → Except Failure (Value × Bytes)} {D : Doubles} {v : Value}
  (hv : ∀ rest, Stops rest → read (serialize D v ++ rest) = .ok (v, rest))
include hv

theorem arrayStep_more (array : List Value) (text : Bytes) :
    arrayStep read array (serialize D v ++ byteOf ',' :: text) = .ok (.inl (array ++ [v]), text) := by
  unfold arrayStep
  rw [hv _ (stops_cons (by decide) text)]
  rfl

theorem arrayStep_last (array : List Value) (text : Bytes) :
    arrayStep read array (serialize D v ++ byteOf ']' :: text) =
      .ok (.inr (.array (array ++ [v])), text) := by
  unfold arrayStep
  rw [hv _ (stops_cons (by decide) text)]
  rfl

theorem objectStep_more (key : Bytes) (object : List (Bytes × Value)) (text : Bytes) :
    objectStep read object (escape key ++ byteOf ':' :: (serialize D v ++ byteOf ',' :: text)) =
      .ok (.inl (Value.insertOrAssign key v object), text) := by
  unfold objectStep
  rw [escape_append, skipWs_cons (by decide), ← escape_append, parseString_escape]
  show (read (serialize D v ++ byteOf ',' :: text) >>= _) = _
  rw [hv _ (stops_cons (by decide) text)]
  rfl

theorem objectStep_last (key : Bytes) (object : List (Bytes × Value)) (text : Bytes) :
    objectStep read object (escape key ++ byteOf ':' :: (serialize D v ++ closeBrace :: text)) =
      .ok (.inr (.object (Value.insertOrAssign key v object)), text) := by
  unfold objectStep
  rw [escape_append, skipWs_cons (by decide), ← escape_append, parseString_escape]
  show (read (serialize D v ++ closeBrace :: text) >>= _) = _
  rw [hv _ (stops_cons (by decide) text)]
  rfl

end

/-- **Loop.** The rest of an array is read back. -/
theorem arrayLoop {read : Bytes → Except Failure (Value × Bytes)} (hread : Reader.Shortens read)
    {D : Doubles} {v : Value} {items : List Value} (rest : Bytes)
    (hv : ∀ x ∈ v :: items, ∀ rest, Stops rest → read (serialize D x ++ rest) = .ok (x, rest))
    (array : List Value) :
    Reader.repeatedly (arrayStep read) stuck array
      (serialize D v ++ (serializeItems D false items ++ byteOf ']' :: rest)) =
      .ok (.array (array ++ v :: items), rest) := by
  induction items generalizing array v with
  | nil => exact Reader.repeatedly_last (arrayStep_last (hv v List.mem_cons_self) array rest)
  | cons w items ih =>
    have hmore := arrayStep_more (hv v List.mem_cons_self) array
      (serialize D w ++ (serializeItems D false items ++ byteOf ']' :: rest))
    have hw : ∀ x ∈ w :: items, ∀ rest, Stops rest → read (serialize D x ++ rest) = .ok (x, rest) :=
      fun x hx => hv x (List.mem_cons_of_mem v hx)
    have htext : serializeItems D false (w :: items) ++ byteOf ']' :: rest =
        byteOf ',' :: (serialize D w ++ (serializeItems D false items ++ byteOf ']' :: rest)) := by
      rw [serializeItems, List.append_assoc, List.append_assoc]
      rfl
    rw [htext, Reader.repeatedly_next (arrayStep_shortens hread) hmore, ih hw, List.append_assoc,
      List.singleton_append]

/-- **Loop.** So is the rest of an object, into the map. -/
theorem objectLoop {read : Bytes → Except Failure (Value × Bytes)} (hread : Reader.Shortens read)
    {D : Doubles} {m : Bytes × Value} {members : List (Bytes × Value)} (rest : Bytes)
    (hm : ∀ x ∈ m :: members, ∀ rest, Stops rest → read (serialize D x.2 ++ rest) = .ok (x.2, rest))
    (object : List (Bytes × Value))
    (hsorted : (object ++ m :: members).Pairwise fun a b => Value.less a.1 b.1 = true) :
    Reader.repeatedly (objectStep read) stuck object
      (escape m.1 ++ byteOf ':' :: (serialize D m.2 ++
        (serializeMembers D false members ++ closeBrace :: rest))) =
      .ok (.object (object ++ m :: members), rest) := by
  have hlast : Value.insertOrAssign m.1 m.2 object = object ++ [m] :=
    Value.insertOrAssign_last fun x hx =>
      (List.pairwise_append.mp hsorted).2.2 x hx m List.mem_cons_self
  induction members generalizing object m with
  | nil =>
    have hstep := objectStep_last (hm m List.mem_cons_self) m.1 object rest
    rw [hlast] at hstep
    exact Reader.repeatedly_last hstep
  | cons n members ih =>
    have hstep := objectStep_more (hm m List.mem_cons_self) m.1 object
      (escape n.1 ++ byteOf ':' :: (serialize D n.2 ++
        (serializeMembers D false members ++ closeBrace :: rest)))
    have hn : ∀ x ∈ n :: members, ∀ rest, Stops rest →
        read (serialize D x.2 ++ rest) = .ok (x.2, rest) := fun x hx => hm x (List.mem_cons_of_mem m hx)
    have hsorted' : ((object ++ [m]) ++ n :: members).Pairwise
        fun a b => Value.less a.1 b.1 = true := by
      rw [List.append_assoc, List.singleton_append]
      exact hsorted
    have htext : serializeMembers D false (n :: members) ++ closeBrace :: rest =
        byteOf ',' :: (escape n.1 ++ byteOf ':' :: (serialize D n.2 ++
          (serializeMembers D false members ++ closeBrace :: rest))) := by
      rw [serializeMembers, List.append_assoc, List.append_assoc, List.append_assoc,
        List.cons_append]
      rfl
    rw [hlast] at hstep
    rw [htext, Reader.repeatedly_next (objectStep_shortens hread) hstep, ih hn _ hsorted',
      List.append_assoc, List.singleton_append]
    exact Value.insertOrAssign_last fun x hx =>
      (List.pairwise_append.mp hsorted').2.2 x hx n List.mem_cons_self

/-- **Round trip.** A plain value is read back, whatever follows it. -/
theorem parseValue_serialize (D : Doubles) {room : Nat} {v : Value} (h : Plain room v) {rest : Bytes}
    (hrest : Stops rest) : parseValue D room (serialize D v ++ rest) = .ok (v, rest) := by
  induction h generalizing rest with
  | null room => rfl
  | bool room b =>
    cases b with
    | true => rfl
    | false => rfl
  | int room hi =>
    rename_i i
    obtain ⟨c, text, htext, hc⟩ := int_head i rest
    have hws := skipWs_cons (isWs_of_int_head hc) text
    rw [serialize, ← parseNumber_int D hi hrest, htext]
    unfold parseValue
    rw [hws]
    dsimp only
    rw [if_neg (ne_of_int_head hc (by decide)), if_neg (ne_of_int_head hc (by decide)),
      if_neg (ne_of_int_head hc (by decide)), if_neg (ne_of_int_head hc (by decide)),
      if_neg (ne_of_int_head hc (by decide)), if_neg (ne_of_int_head hc (by decide))]
  | string room s =>
    rw [serialize, escape_append]
    show (parseString _).map _ = _
    rw [← escape_append, parseString_escape]
    rfl
  | array h ih =>
    rename_i room items
    show parseArray (parseValue D room) (serializeItems D true items ++ [byteOf ']'] ++ rest) = _
    rw [List.append_assoc, List.singleton_append]
    cases items with
    | nil => rfl
    | cons v items =>
      obtain ⟨c, text, htext, hws, hclose⟩ := serialize_head D (h v List.mem_cons_self)
        (serializeItems D false items ++ byteOf ']' :: rest)
      have hloop := arrayLoop (parseValue_shortens D room) rest (fun x hx rest => @ih x hx rest) []
      have hitems : serializeItems D true (v :: items) ++ byteOf ']' :: rest = c :: text := by
        rw [serializeItems, if_pos rfl, List.nil_append, List.append_assoc]
        exact htext
      have hhead : (c :: text).head? ≠ some (byteOf ']') := fun h => hclose (Option.some.inj h)
      rw [hitems, parseArray, skipWs_cons hws, if_neg hhead, ← htext]
      exact hloop
  | object h sorted ih =>
    rename_i room members
    show parseObject (parseValue D room) (serializeMembers D true members ++ [closeBrace] ++ rest) = _
    rw [List.append_assoc, List.singleton_append]
    cases members with
    | nil => rfl
    | cons m members =>
      have hloop := objectLoop (parseValue_shortens D room) rest (fun x hx rest => @ih x hx rest)
        [] sorted
      have hmembers : serializeMembers D true (m :: members) ++ closeBrace :: rest =
          escape m.1 ++ byteOf ':' :: (serialize D m.2 ++
            (serializeMembers D false members ++ closeBrace :: rest)) := by
        rw [serializeMembers, if_pos rfl, List.nil_append, List.append_assoc, List.append_assoc,
          List.cons_append]
      rw [hmembers, parseObject, escape_append, skipWs_cons (by decide), ← escape_append]
      exact hloop

/-- `json::parse` undoes `json::serialize` -/
theorem parse_serialize (D : Doubles) {v : Value} (h : Plain 33 v) : parse D (serialize D v) = .ok v := by
  have hstops : Stops [] := fun c hc => by cases hc
  have hread := parseValue_serialize D h hstops
  rw [List.append_nil] at hread
  rw [parse, hread]
  rfl

end Protocol.Cpp
