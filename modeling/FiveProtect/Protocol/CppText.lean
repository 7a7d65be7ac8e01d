import FiveProtect.Lib.AsciiClass
import FiveProtect.Lib.Check
import FiveProtect.Lib.Reader
import FiveProtect.Protocol.CppValue

/-!
# Protocol: JSON texts of the scan engine

`packages/protocol/cpp/include/fiveprotect_json.hpp`: `serialize` and `parse`, on bytes.  `room` is
how many levels of nesting are left, `33 - depth`.

Doubles are printed and read by the library (`std::ostringstream`, `std::stod`): a parameter.

* `stringStep_ok`, `arrayStep_ok`, `objectStep_ok`   what one step of a loop has read, and `parseHex4_ok`,
                          `parseSurrogates_ok`, `parseNumber_ok` what these have;
* `parseValue_shortens`   whatever is read was there, so the loops of the parser end.
-/

namespace Protocol.Cpp
open LuaPattern (isDigit byteOf)

def quote : UInt8 := 34

def backslash : UInt8 := 92

def openBrace : UInt8 := 123

def closeBrace : UInt8 := 125

/-- how the library prints and reads doubles; `stod` may throw -/
structure Doubles where
  print : ℚ → Bytes
  stod : Bytes → Option ℚ

/-! ## serialize -/

/-- the `switch` of `escape_into` -/
def escapeByte (c : UInt8) : Bytes :=
  if c = quote then [backslash, quote]
  else if c = backslash then [backslash, backslash]
  else if c = 8 then [backslash, byteOf 'b']
  else if c = 12 then [backslash, byteOf 'f']
  else if c = 10 then [backslash, byteOf 'n']
  else if c = 13 then [backslash, byteOf 'r']
  else if c = 9 then [backslash, byteOf 't']
  else if c < 0x20 then backslash :: Text.utf8 "u00" ++ (Text.hexByte c).map byteOf
  else [c]

/-- `escape_into` -/
def escape (s : Bytes) : Bytes := quote :: s.flatMap escapeByte ++ [quote]

mutual
/-- `serialize_into` -/
def serialize (D : Doubles) : Value → Bytes
  | .null => Text.utf8 "null"
  | .bool b => Text.utf8 (if b then "true" else "false")
  | .int i => Text.utf8 (toString i)
  | .double d => D.print d
  | .string s => escape s
  | .array items => byteOf '[' :: serializeItems D true items ++ [byteOf ']']
  | .object members => openBrace :: serializeMembers D true members ++ [closeBrace]
def serializeItems (D : Doubles) : Bool → List Value → Bytes
  | _, [] => []
  | first, item :: items =>
    (if first then [] else [byteOf ',']) ++ serialize D item ++ serializeItems D false items
def serializeMembers (D : Doubles) : Bool → List (Bytes × Value) → Bytes
  | _, [] => []
  | first, (key, item) :: members =>
    (if first then [] else [byteOf ',']) ++ escape key ++ byteOf ':' :: serialize D item ++
      serializeMembers D false members
end

/-! ## the parser -/

/-- the message of `fail`, and how much of the text is left there -/
structure Failure where
  message : String
  left : Nat

def fail {α : Type} (message : String) (text : Bytes) : Except Failure α :=
  .error ⟨message, text.length⟩

/-- where a loop of the parser would stop if it could make more steps than the text has bytes -/
def stuck : Failure := ⟨"", 0⟩

def isWs (c : UInt8) : Bool := c = 32 || c = 9 || c = 10 || c = 13

/-- `skip_ws` -/
def skipWs (text : Bytes) : Bytes := text.dropWhile isWs

def literal (word : String) (value : Value) (text : Bytes) : Except Failure (Value × Bytes) :=
  if (Text.utf8 word).isPrefixOf text then .ok (value, text.drop (Text.utf8 word).length)
  else fail "unexpected token" text

/-- `append_utf8` -/
def appendUtf8 (cp : Nat) (out : Bytes) : Bytes :=
  if cp ≤ 0x7F then out ++ [UInt8.ofNat cp]
  else if cp ≤ 0x7FF then
    out ++ [UInt8.ofNat (0xC0 ||| cp >>> 6), UInt8.ofNat (0x80 ||| cp &&& 0x3F)]
  else if cp ≤ 0xFFFF then
    out ++ [UInt8.ofNat (0xE0 ||| cp >>> 12), UInt8.ofNat (0x80 ||| cp >>> 6 &&& 0x3F),
      UInt8.ofNat (0x80 ||| cp &&& 0x3F)]
  else
    out ++ [UInt8.ofNat (0xF0 ||| cp >>> 18), UInt8.ofNat (0x80 ||| cp >>> 12 &&& 0x3F),
      UInt8.ofNat (0x80 ||| cp >>> 6 &&& 0x3F), UInt8.ofNat (0x80 ||| cp &&& 0x3F)]

def hexValue (c : UInt8) : Option Nat :=
  if 48 ≤ c && c ≤ 57 then some (c.toNat - 48)
  else if 97 ≤ c && c ≤ 102 then some (c.toNat - 97 + 10)
  else if 65 ≤ c && c ≤ 70 then some (c.toNat - 65 + 10)
  else none

/-- `parse_hex4` -/
def parseHex4 (text : Bytes) : Except Failure (Nat × Bytes) :=
  if text.length < 4 then fail "truncated \\u escape" text
  else match (text.take 4).mapM hexValue with
    | some digits => .ok (digits.foldl (fun out digit => out <<< 4 ||| digit) 0, text.drop 4)
    | none => fail "invalid \\u escape" text

/-- a high surrogate, and the low surrogate that must follow -/
def parseSurrogates (cp : Nat) (text : Bytes) : Except Failure (Nat × Bytes) :=
  if 0xD800 ≤ cp ∧ cp ≤ 0xDBFF then
    if [backslash, byteOf 'u'].isPrefixOf text then do
      let (low, text) ← parseHex4 (text.drop 2)
      if low < 0xDC00 ∨ 0xDFFF < low then fail "invalid low surrogate" text
      else .ok (0x10000 + (cp - 0xD800) <<< 10 + (low - 0xDC00), text)
    else fail "lone high surrogate" text
  else .ok (cp, text)

/-- the escapes of one character -/
def unescape (esc : UInt8) : Option UInt8 :=
  if esc = quote then some quote
  else if esc = backslash then some backslash
  else if esc = byteOf '/' then some (byteOf '/')
  else if esc = byteOf 'b' then some 8
  else if esc = byteOf 'f' then some 12
  else if esc = byteOf 'n' then some 10
  else if esc = byteOf 'r' then some 13
  else if esc = byteOf 't' then some 9
  else none

/-- the loop of `parse_string` -/
def stringStep (out : Bytes) : Bytes → Except Failure ((Bytes ⊕ Bytes) × Bytes)
  | [] => fail "unterminated string" []
  | c :: text =>
    if c = quote then .ok (.inr out, text)
    else if c ≠ backslash then .ok (.inl (out ++ [c]), text)
    else match text with
      | [] => fail "unterminated escape" []
      | esc :: text =>
        match unescape esc with
        | some b => .ok (.inl (out ++ [b]), text)
        | none =>
          if esc = byteOf 'u' then do
            let (cp, text) ← parseHex4 text
            let (cp, text) ← parseSurrogates cp text
            .ok (.inl (appendUtf8 cp out), text)
          else fail "unknown escape" text

/-- `parse_string` -/
def parseString : Bytes → Except Failure (Bytes × Bytes)
  | [] => fail "expected string" []
  | c :: text =>
    if c = quote then Reader.repeatedly stringStep stuck [] text
    else fail "expected string" (c :: text)

/-- a digit, or what makes a number a double -/
def isNumberChar (c : UInt8) : Bool :=
  isDigit c || c = byteOf '.' || c = byteOf 'e' || c = byteOf 'E' || c = byteOf '+' || c = byteOf '-'

def isSign (c : UInt8) : Bool := c = byteOf '-' || c = byteOf '+'

/-- `std::stoll` of a sign, if there is one, and digits; it may throw -/
def stoll (token : Bytes) : Option Int :=
  let digits := token.dropWhile isSign
  let n : Nat := digits.foldl (fun n c => 10 * n + (c.toNat - 48)) 0
  let i : Int := if token.head? = some (byteOf '-') then -n else n
  if digits = [] then none else if isInt64 i then some i else none

/-- `parse_number` -/
def parseNumber (D : Doubles) (text : Bytes) : Except Failure (Value × Bytes) :=
  let sign := (text.take 1).takeWhile isSign
  let rest := text.drop sign.length
  let body := rest.takeWhile isNumberChar
  let token := sign ++ body
  let text' := rest.dropWhile isNumberChar
  if token = [] then fail "expected number" text
  else
    let value := if body.all isDigit then (stoll token).map .int else (D.stod token).map .double
    match value with
    | some value => .ok (value, text')
    | none => fail "number out of range" text'

/-- the loop of an array -/
def arrayStep (read : Bytes → Except Failure (Value × Bytes)) (array : List Value) (text : Bytes) :
    Except Failure ((List Value ⊕ Value) × Bytes) := do
  let (item, text) ← read text
  match skipWs text with
  | [] => fail "unterminated array" []
  | c :: text =>
    if c = byteOf ',' then .ok (.inl (array ++ [item]), text)
    else if c = byteOf ']' then .ok (.inr (.array (array ++ [item])), text)
    else fail "expected , or ] in array" (c :: text)

/-- what follows the `[` -/
def parseArray (read : Bytes → Except Failure (Value × Bytes)) (text : Bytes) :
    Except Failure (Value × Bytes) :=
  let text := skipWs text
  if text.head? = some (byteOf ']') then .ok (.array [], text.tail)
  else Reader.repeatedly (arrayStep read) stuck [] text

/-- the loop of an object -/
def objectStep (read : Bytes → Except Failure (Value × Bytes)) (object : List (Bytes × Value))
    (text : Bytes) : Except Failure ((List (Bytes × Value) ⊕ Value) × Bytes) := do
  let (key, text) ← parseString (skipWs text)
  let text := skipWs text
  if text.head? = some (byteOf ':') then do
    let (item, text) ← read text.tail
    let object := Value.insertOrAssign key item object
    match skipWs text with
    | [] => fail "unterminated object" []
    | c :: text =>
      if c = byteOf ',' then .ok (.inl object, text)
      else if c = closeBrace then .ok (.inr (.object object), text)
      else fail "expected , or \x7d in object" (c :: text)
  else fail "expected : after key" text

def parseObject (read : Bytes → Except Failure (Value × Bytes)) (text : Bytes) :
    Except Failure (Value × Bytes) :=
  let text := skipWs text
  if text.head? = some closeBrace then .ok (.object [], text.tail)
  else Reader.repeatedly (objectStep read) stuck [] text

/-- `parse_value` -/
def parseValue (D : Doubles) : Nat → Bytes → Except Failure (Value × Bytes)
  | 0, text => fail "nesting too deep" text
  | room + 1, text =>
    match skipWs text with
    | [] => fail "unexpected end of input" []
    | c :: text =>
      if c = byteOf 'n' then literal "null" .null (c :: text)
      else if c = byteOf 't' then literal "true" (.bool true) (c :: text)
      else if c = byteOf 'f' then literal "false" (.bool false) (c :: text)
      else if c = quote then (parseString (c :: text)).map fun read => (.string read.1, read.2)
      else if c = byteOf '[' then parseArray (parseValue D room) text
      else if c = openBrace then parseObject (parseValue D room) text
      else parseNumber D (c :: text)

/-- `json::parse`, with the text of its error -/
def parse (D : Doubles) (text : Bytes) : Except String Value :=
  match parseValue D 33 text with
  | .error e => .error s!"{e.message} at offset {text.length - e.left}"
  | .ok (value, rest) =>
    if skipWs rest = [] then .ok value else .error "trailing content after JSON value"

/-! ## what one step has read -/

/-- the code unit of four hexadecimal digits -/
def hex4 (digits : Bytes) : Option Nat :=
  (digits.mapM hexValue).map fun values => values.foldl (fun out digit => out <<< 4 ||| digit) 0

def High (cp : Nat) : Prop := 0xD800 ≤ cp ∧ cp ≤ 0xDBFF

def Low (cp : Nat) : Prop := 0xDC00 ≤ cp ∧ cp ≤ 0xDFFF

/-- the code point of two surrogates -/
def pair (high low : Nat) : Nat := 0x10000 + (high - 0xD800) <<< 10 + (low - 0xDC00)

def unicode (digits : Bytes) : Bytes := backslash :: byteOf 'u' :: digits

theorem literal_ok {word : String} {value v : Value} {text rest : Bytes}
    (h : literal word value text = .ok (v, rest)) : v = value ∧ text = Text.utf8 word ++ rest := by
  unfold literal at h
  by_cases hstart : (Text.utf8 word).isPrefixOf text = true
  · rw [if_pos hstart] at h
    obtain ⟨rest', hrest'⟩ := List.isPrefixOf_iff_prefix.mp hstart
    cases h
    refine ⟨rfl, ?_⟩
    rw [← hrest', List.drop_left]
  · rw [if_neg hstart] at h
    cases h

theorem parseHex4_ok {text rest : Bytes} {cp : Nat} (h : parseHex4 text = .ok (cp, rest)) :
    ∃ digits, text = digits ++ rest ∧ digits.length = 4 ∧ hex4 digits = some cp := by
  unfold parseHex4 at h
  by_cases hlen : text.length < 4
  · rw [if_pos hlen] at h
    cases h
  rw [if_neg hlen] at h
  cases hdigits : (text.take 4).mapM hexValue with
  | none =>
    rw [hdigits] at h
    cases h
  | some values =>
    rw [hdigits] at h
    injection h with h
    injection h with hcp hrest
    refine ⟨text.take 4, ?_, ?_, ?_⟩
    · rw [← hrest, List.take_append_drop]
    · rw [List.length_take]
      omega
    · rw [hex4, hdigits, Option.map_some, hcp]

/-- a code point that is no high surrogate, or a high surrogate and the low one behind it -/
theorem parseSurrogates_ok {cp cp' : Nat} {text rest : Bytes}
    (h : parseSurrogates cp text = .ok (cp', rest)) : (¬High cp ∧ cp' = cp ∧ text = rest) ∨
      (High cp ∧ ∃ digits low, text = unicode digits ++ rest ∧ digits.length = 4 ∧
        hex4 digits = some low ∧ Low low ∧ cp' = pair cp low) := by
  unfold parseSurrogates at h
  by_cases hhigh : 0xD800 ≤ cp ∧ cp ≤ 0xDBFF
  · rw [if_pos hhigh] at h
    by_cases hu : [backslash, byteOf 'u'].isPrefixOf text = true
    · rw [if_pos hu] at h
      obtain ⟨⟨low, left⟩, hlow, h⟩ := Check.bind_eq_ok.mp h
      obtain ⟨digits, hdigits, hlen, hhex⟩ := parseHex4_ok hlow
      obtain ⟨text', htext⟩ := List.isPrefixOf_iff_prefix.mp hu
      dsimp only at h
      by_cases hrange : low < 0xDC00 ∨ 0xDFFF < low
      · rw [if_pos hrange] at h
        cases h
      · rw [if_neg hrange] at h
        injection h with h
        injection h with hcp hrest
        refine .inr ⟨hhigh, digits, low, ?_, hlen, hhex, ?_, hcp.symm⟩
        · rw [← htext, List.cons_append, List.cons_append, List.nil_append, List.drop_succ_cons,
            List.drop_succ_cons, List.drop_zero] at hdigits
          rw [← htext, hdigits, hrest]
          rfl
        · unfold Low
          omega
    · rw [if_neg hu] at h
      cases h
  · rw [if_neg hhigh] at h
    cases h
    exact .inl ⟨hhigh, rfl, rfl⟩

theorem isDigit_number {c : UInt8} (h : isDigit c = true) : isNumberChar c = true := by
  simp [isNumberChar, h]

theorem isSign_number {c : UInt8} (h : isSign c = true) : isNumberChar c = true := by
  rw [isSign, Bool.or_eq_true, decide_eq_true_eq, decide_eq_true_eq] at h
  rcases h with rfl | rfl
  · decide
  · decide

/-- a number: all number characters that follow, behind a sign -/
theorem parseNumber_ok {D : Doubles} {text rest : Bytes} {v : Value}
    (h : parseNumber D text = .ok (v, rest)) : ∃ token, text = token ++ rest ∧ token ≠ [] ∧
      (∀ c ∈ token, isNumberChar c = true) ∧
      ((∃ i, stoll token = some i ∧ v = .int i) ∨ ∃ d, D.stod token = some d ∧ v = .double d) := by
  unfold parseNumber at h
  extract_lets sign left body token text' value at h
  have htext : text = token ++ text' := by
    have hsign : sign ++ left = text := by
      obtain ⟨t, ht⟩ := (List.takeWhile_prefix (p := isSign) (l := text.take 1)).trans
        (List.take_prefix 1 text)
      show sign ++ text.drop sign.length = text
      rw [← ht, List.drop_left]
    rw [List.append_assoc, ← hsign]
    congr 1
    exact (List.takeWhile_append_dropWhile (p := isNumberChar)).symm
  have hchars : ∀ c ∈ token, isNumberChar c = true := by
    intro c hc
    rcases List.mem_append.mp hc with hc | hc
    · exact isSign_number (List.mem_takeWhile_imp hc)
    · exact List.mem_takeWhile_imp hc
  by_cases htoken : token = []
  · rw [if_pos htoken] at h
    cases h
  rw [if_neg htoken] at h
  cases hvalue : value with
  | none =>
    rw [hvalue] at h
    cases h
  | some v' =>
    rw [hvalue] at h
    injection h with h
    injection h with hv hrest
    refine ⟨token, by rw [← hrest]; exact htext, htoken, hchars, ?_⟩
    rw [← hv]
    by_cases hdigits : body.all isDigit = true
    · have hint : (stoll token).map Value.int = some v' := by
        rw [← hvalue]
        exact (if_pos hdigits).symm
      obtain ⟨i, hi, rfl⟩ := Option.map_eq_some_iff.mp hint
      exact .inl ⟨i, hi, rfl⟩
    · have hdouble : (D.stod token).map Value.double = some v' := by
        rw [← hvalue]
        exact (if_neg hdigits).symm
      obtain ⟨d, hd, rfl⟩ := Option.map_eq_some_iff.mp hdouble
      exact .inr ⟨d, hd, rfl⟩

/-- a step of a string: its end, a byte, an escape, or an escaped code point -/
theorem stringStep_ok {out text rest : Bytes} {next : Bytes ⊕ Bytes}
    (h : stringStep out text = .ok (next, rest)) :
    (text = quote :: rest ∧ next = .inr out) ∨
    (∃ c, c ≠ quote ∧ c ≠ backslash ∧ text = c :: rest ∧ next = .inl (out ++ [c])) ∨
    (∃ esc b, text = backslash :: esc :: rest ∧ unescape esc = some b ∧ next = .inl (out ++ [b])) ∨
    ∃ text' cp left cp', text = backslash :: byteOf 'u' :: text' ∧ parseHex4 text' = .ok (cp, left) ∧
      parseSurrogates cp left = .ok (cp', rest) ∧ next = .inl (appendUtf8 cp' out) := by
  cases text with
  | nil => cases h
  | cons c text =>
    unfold stringStep at h
    dsimp only at h
    by_cases hquote : c = quote
    · rw [if_pos hquote] at h
      cases h
      exact .inl ⟨by rw [hquote], rfl⟩
    rw [if_neg hquote] at h
    by_cases hplain : c ≠ backslash
    · rw [if_pos hplain] at h
      cases h
      exact .inr (.inl ⟨c, hquote, hplain, rfl, rfl⟩)
    rw [if_neg hplain] at h
    rw [not_not.mp hplain]
    cases text with
    | nil => cases h
    | cons esc text =>
      dsimp only at h
      cases hesc : unescape esc with
      | some b =>
        rw [hesc] at h
        cases h
        exact .inr (.inr (.inl ⟨esc, b, rfl, hesc, rfl⟩))
      | none =>
        rw [hesc] at h
        dsimp only at h
        by_cases hu : esc = byteOf 'u'
        · rw [if_pos hu] at h
          obtain ⟨⟨cp, left⟩, hcp, h⟩ := Check.bind_eq_ok.mp h
          obtain ⟨⟨cp', left'⟩, hcp', h⟩ := Check.bind_eq_ok.mp h
          cases h
          exact .inr (.inr (.inr ⟨text, cp, left, cp', by rw [hu], hcp, hcp', rfl⟩))
        · rw [if_neg hu] at h
          cases h

section
variable {read : Bytes → Except Failure (Value × Bytes)}

/-- a step of an array: an item, and a comma or the bracket -/
theorem arrayStep_ok {array : List Value} {text rest : Bytes} {next : List Value ⊕ Value}
    (h : arrayStep read array text = .ok (next, rest)) : ∃ item left, read text = .ok (item, left) ∧
      ((skipWs left = byteOf ',' :: rest ∧ next = .inl (array ++ [item])) ∨
        (skipWs left = byteOf ']' :: rest ∧ next = .inr (.array (array ++ [item])))) := by
  obtain ⟨⟨item, left⟩, hitem, h⟩ := Check.bind_eq_ok.mp h
  refine ⟨item, left, hitem, ?_⟩
  dsimp only at h
  cases hnext : skipWs left with
  | nil =>
    rw [hnext] at h
    cases h
  | cons c text' =>
    rw [hnext] at h
    dsimp only at h
    by_cases hcomma : c = byteOf ','
    · rw [if_pos hcomma] at h
      cases h
      exact .inl ⟨by rw [hcomma], rfl⟩
    rw [if_neg hcomma] at h
    by_cases hclose : c = byteOf ']'
    · rw [if_pos hclose] at h
      cases h
      exact .inr ⟨by rw [hclose], rfl⟩
    · rw [if_neg hclose] at h
      cases h

/-- a step of an object: a key, a colon and an item, and a comma or the brace -/
theorem objectStep_ok {object : List (Bytes × Value)} {text rest : Bytes}
    {next : List (Bytes × Value) ⊕ Value} (h : objectStep read object text = .ok (next, rest)) :
    ∃ key left text' item left', parseString (skipWs text) = .ok (key, left) ∧
      skipWs left = byteOf ':' :: text' ∧ read text' = .ok (item, left') ∧
      ((skipWs left' = byteOf ',' :: rest ∧ next = .inl (Value.insertOrAssign key item object)) ∨
        (skipWs left' = closeBrace :: rest ∧
          next = .inr (.object (Value.insertOrAssign key item object)))) := by
  obtain ⟨⟨key, left⟩, hkey, h⟩ := Check.bind_eq_ok.mp h
  dsimp only at h
  by_cases hhead : (skipWs left).head? = some (byteOf ':')
  · rw [if_pos hhead] at h
    obtain ⟨⟨item, left'⟩, hitem, h⟩ := Check.bind_eq_ok.mp h
    refine ⟨key, left, _, item, left', hkey, List.eq_cons_of_mem_head? hhead, hitem, ?_⟩
    dsimp only at h
    cases hnext : skipWs left' with
    | nil =>
      rw [hnext] at h
      cases h
    | cons c text' =>
      rw [hnext] at h
      dsimp only at h
      by_cases hcomma : c = byteOf ','
      · rw [if_pos hcomma] at h
        cases h
        exact .inl ⟨by rw [hcomma], rfl⟩
      rw [if_neg hcomma] at h
      by_cases hclose : c = closeBrace
      · rw [if_pos hclose] at h
        cases h
        exact .inr ⟨by rw [hclose], rfl⟩
      · rw [if_neg hclose] at h
        cases h
  · rw [if_neg hhead] at h
    cases h

end

/-! ## every step reads something -/

section
open Reader (Shortens)

theorem length_skipWs (text : Bytes) : (skipWs text).length ≤ text.length :=
  (List.dropWhile_suffix _).length_le

theorem literal_shortens {word : String} {value : Value} (h : Text.utf8 word ≠ []) :
    Shortens (literal word value) := by
  intro text v rest hread
  obtain ⟨_, rfl⟩ := literal_ok hread
  have hpos := List.length_pos_iff.mpr h
  rw [List.length_append]
  omega

theorem parseHex4_shortens : Shortens parseHex4 := by
  intro text cp rest h
  obtain ⟨digits, rfl, hlen, _⟩ := parseHex4_ok h
  rw [List.length_append]
  omega

theorem parseSurrogates_length {cp cp' : Nat} {text rest : Bytes}
    (h : parseSurrogates cp text = .ok (cp', rest)) : rest.length ≤ text.length := by
  rcases parseSurrogates_ok h with ⟨_, _, rfl⟩ | ⟨_, digits, low, rfl, _⟩
  · exact Nat.le_refl _
  · rw [List.length_append]
    omega

theorem stringStep_shortens (out : Bytes) : Shortens (stringStep out) := by
  intro text next rest h
  rcases stringStep_ok h with ⟨rfl, _⟩ | ⟨c, _, _, rfl, _⟩ | ⟨esc, b, rfl, _⟩ |
    ⟨text', cp, left, cp', rfl, hcp, hcp', _⟩
  · exact Nat.lt_succ_self _
  · exact Nat.lt_succ_self _
  · rw [List.length_cons, List.length_cons]
    omega
  · have hleft := parseHex4_shortens _ _ _ hcp
    have hrest := parseSurrogates_length hcp'
    rw [List.length_cons, List.length_cons]
    omega

theorem parseString_shortens : Shortens parseString := by
  intro text s rest h
  cases text with
  | nil => cases h
  | cons c text =>
    rw [parseString] at h
    by_cases hquote : c = quote
    · rw [if_pos hquote] at h
      have hrest := Reader.repeatedly_shortens stringStep_shortens [] text s rest h
      exact Nat.lt_succ_of_lt hrest
    · rw [if_neg hquote] at h
      cases h

theorem parseNumber_shortens (D : Doubles) : Shortens (parseNumber D) := by
  intro text v rest h
  obtain ⟨token, rfl, htoken, _⟩ := parseNumber_ok h
  have hpos := List.length_pos_iff.mpr htoken
  rw [List.length_append]
  omega

section
variable {read : Bytes → Except Failure (Value × Bytes)} (hread : Shortens read)
include hread

theorem arrayStep_shortens (array : List Value) : Shortens (arrayStep read array) := by
  intro text next rest h
  obtain ⟨item, left, hitem, hnext⟩ := arrayStep_ok h
  have hleft := hread _ _ _ hitem
  have hws := length_skipWs left
  rcases hnext with ⟨hcomma, _⟩ | ⟨hclose, _⟩
  · rw [hcomma, List.length_cons] at hws
    omega
  · rw [hclose, List.length_cons] at hws
    omega

theorem objectStep_shortens (object : List (Bytes × Value)) :
    Shortens (objectStep read object) := by
  intro text next rest h
  obtain ⟨key, left, text', item, left', hkey, hcolon, hitem, hnext⟩ := objectStep_ok h
  have hfirst := length_skipWs text
  have hleft := parseString_shortens _ _ _ hkey
  have hmore := length_skipWs left
  have hleft' := hread _ _ _ hitem
  have hws := length_skipWs left'
  rw [hcolon, List.length_cons] at hmore
  rcases hnext with ⟨hcomma, _⟩ | ⟨hclose, _⟩
  · rw [hcomma, List.length_cons] at hws
    omega
  · rw [hclose, List.length_cons] at hws
    omega

theorem parseArray_shortens : Shortens (parseArray read) := by
  intro text v rest h
  have hws := length_skipWs text
  unfold parseArray at h
  dsimp only at h
  by_cases hclose : (skipWs text).head? = some (byteOf ']')
  · rw [if_pos hclose] at h
    have hpos := List.length_pos_iff.mpr fun hnil : skipWs text = [] => by simp [hnil] at hclose
    cases h
    rw [List.length_tail]
    omega
  · rw [if_neg hclose] at h
    have hrest := Reader.repeatedly_shortens (arrayStep_shortens hread) [] _ v rest h
    omega

theorem parseObject_shortens : Shortens (parseObject read) := by
  intro text v rest h
  have hws := length_skipWs text
  unfold parseObject at h
  dsimp only at h
  by_cases hclose : (skipWs text).head? = some closeBrace
  · rw [if_pos hclose] at h
    have hpos := List.length_pos_iff.mpr fun hnil : skipWs text = [] => by simp [hnil] at hclose
    cases h
    rw [List.length_tail]
    omega
  · rw [if_neg hclose] at h
    have hrest := Reader.repeatedly_shortens (objectStep_shortens hread) [] _ v rest h
    omega

end

/-- **Progress.** A value that is read was there, however deep it may be. -/
theorem parseValue_shortens (D : Doubles) (room : Nat) : Shortens (parseValue D room) := by
  induction room with
  | zero =>
    intro text v rest h
    cases h
  | succ room ih =>
    intro text v rest h
    have hws := length_skipWs text
    unfold parseValue at h
    cases hfirst : skipWs text with
    | nil =>
      rw [hfirst] at h
      cases h
    | cons c text' =>
      rw [hfirst] at hws h
      dsimp only at h
      refine Nat.lt_of_lt_of_le ?_ hws
      by_cases hn : c = byteOf 'n'
      · rw [if_pos hn] at h
        exact literal_shortens (by decide) _ v rest h
      rw [if_neg hn] at h
      by_cases ht : c = byteOf 't'
      · rw [if_pos ht] at h
        exact literal_shortens (by decide) _ v rest h
      rw [if_neg ht] at h
      by_cases hf : c = byteOf 'f'
      · rw [if_pos hf] at h
        exact literal_shortens (by decide) _ v rest h
      rw [if_neg hf] at h
      by_cases hquote : c = quote
      · rw [if_pos hquote] at h
        cases hs : parseString (c :: text') with
        | error e =>
          rw [hs] at h
          cases h
        | ok s =>
          rw [hs] at h
          cases h
          exact parseString_shortens _ s.1 s.2 hs
      rw [if_neg hquote] at h
      by_cases harray : c = byteOf '['
      · rw [if_pos harray] at h
        exact Nat.lt_succ_of_lt (parseArray_shortens ih text' v rest h)
      rw [if_neg harray] at h
      by_cases hobject : c = openBrace
      · rw [if_pos hobject] at h
        exact Nat.lt_succ_of_lt (parseObject_shortens ih text' v rest h)
      rw [if_neg hobject] at h
      exact parseNumber_shortens D _ v rest h

end

end Protocol.Cpp
