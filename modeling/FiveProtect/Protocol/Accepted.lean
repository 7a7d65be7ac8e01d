import FiveProtect.Protocol.JsonText

/-!
# Protocol: what the scan engine accepts

Every text that `json::parse` takes is written by the loose grammar, and its value is what the tree of the text
means.

* `Piece`, `Decodes`   what the loop of a string reads at once, and makes of what stands between the quotes;
* `Means`              what the tree of a text means: members with one key are one member, the last of them;
* `parseString_reads`, `parseValue_reads`   what is read at the front of a text;
* `parse_reads`        a whole text;
* `accepted_iff_tidy`   the RFC has the tidy ones among them.
-/

namespace Protocol.Cpp
open LuaPattern (isDigit byteOf)

/-! ## what is between the quotes -/

/-- what the loop of a string reads at once, with what it stands for -/
inductive Piece
  | plain (c : UInt8)
  | escape (esc b : UInt8)
  | unicode (digits : Bytes) (cp : Nat)
  | surrogates (digits digits' : Bytes) (high low : Nat)

namespace Piece

def text : Piece → Bytes
  | .plain c => [c]
  | .escape esc _ => [backslash, esc]
  | .unicode digits _ => Cpp.unicode digits
  | .surrogates digits digits' _ _ => Cpp.unicode digits ++ Cpp.unicode digits'

def decoded : Piece → Bytes
  | .plain c => [c]
  | .escape _ b => [b]
  | .unicode _ cp => appendUtf8 cp []
  | .surrogates _ _ high low => appendUtf8 (pair high low) []

def Ok : Piece → Prop
  | .plain c => c ≠ quote ∧ c ≠ backslash
  | .escape esc b => unescape esc = some b
  | .unicode digits cp => digits.length = 4 ∧ hex4 digits = some cp ∧ ¬High cp
  | .surrogates digits digits' high low =>
    (digits.length = 4 ∧ hex4 digits = some high ∧ High high) ∧
      digits'.length = 4 ∧ hex4 digits' = some low ∧ Low low

end Piece

structure Decodes (pieces : List Piece) (body s : Bytes) : Prop where
  ok : ∀ piece ∈ pieces, piece.Ok
  text : body = pieces.flatMap Piece.text
  decoded : s = pieces.flatMap Piece.decoded

theorem Decodes.nil : Decodes [] [] [] := ⟨fun _ h => absurd h List.not_mem_nil, rfl, rfl⟩

theorem Decodes.cons {piece : Piece} {pieces : List Piece} {body s : Bytes} (hpiece : piece.Ok)
    (h : Decodes pieces body s) : Decodes (piece :: pieces) (piece.text ++ body) (piece.decoded ++ s) := by
  refine ⟨List.forall_mem_cons.mpr ⟨hpiece, h.ok⟩, ?_, ?_⟩
  · rw [List.flatMap_cons, ← h.text]
  · rw [List.flatMap_cons, ← h.decoded]

theorem appendUtf8_eq (cp : Nat) (out : Bytes) : appendUtf8 cp out = out ++ appendUtf8 cp [] := by
  unfold appendUtf8
  split
  · rfl
  · split
    · rfl
    · split
      · rfl
      · rfl

theorem isHexChar_of_hex4 {digits : Bytes} {cp : Nat} (h : hex4 digits = some cp) :
    ∀ c ∈ digits, isHexChar c = true := by
  obtain ⟨values, hvalues, _⟩ := Option.map_eq_some_iff.mp h
  intro c hc
  obtain ⟨value, hvalue, _⟩ :=
    (Check.mapM_some (P := fun _ => True)).mp ⟨values, hvalues, fun _ _ => trivial⟩ c hc
  rw [isHexChar, hvalue]
  rfl

/-- an escape of one character is one of a character of ASCII -/
theorem unescape_ok {esc b : UInt8} (h : unescape esc = some b) : esc ∈ escapable ∧ b < 0x80 := by
  unfold unescape at h
  split_ifs at h
  all_goals
    cases h
    subst_vars
    decide

/-- one step of the loop that goes on has read one piece -/
theorem stringStep_piece {out out' text rest : Bytes} (h : stringStep out text = .ok (.inl out', rest)) :
    ∃ piece : Piece, piece.Ok ∧ text = piece.text ++ rest ∧ out' = out ++ piece.decoded := by
  rcases stringStep_ok h with ⟨_, hnext⟩ | ⟨c, hquote, hplain, htext, hnext⟩ | ⟨esc, b, htext, hesc, hnext⟩ |
    ⟨text', cp, left, cp', htext, hcp, hcp', hnext⟩
  · cases hnext
  · cases hnext
    exact ⟨.plain c, ⟨hquote, hplain⟩, htext, rfl⟩
  · cases hnext
    exact ⟨.escape esc b, hesc, htext, rfl⟩
  · cases hnext
    obtain ⟨digits, hdigits, hlen, hhex⟩ := parseHex4_ok hcp
    rcases parseSurrogates_ok hcp' with ⟨hhigh, hsame, hleft⟩ |
      ⟨hhigh, digits', low, hleft, hlen', hhex', hlow, hpair⟩
    · refine ⟨.unicode digits cp, ⟨hlen, hhex, hhigh⟩, ?_, hsame ▸ appendUtf8_eq _ _⟩
      rw [htext, hdigits, hleft]
      rfl
    · refine ⟨.surrogates digits digits' cp low, ⟨⟨hlen, hhex, hhigh⟩, hlen', hhex', hlow⟩, ?_,
        hpair ▸ appendUtf8_eq _ _⟩
      rw [htext, hdigits, hleft, Piece.text, List.append_assoc]
      rfl

/-- **What is read as a string** stands between quotes, and is decoded piece by piece. -/
theorem parseString_reads {text s rest : Bytes} (h : parseString text = .ok (s, rest)) :
    ∃ body pieces, text = quotes body ++ rest ∧ Decodes pieces body s := by
  cases text with
  | nil => cases h
  | cons c text =>
    rw [parseString] at h
    by_cases hquote : c = quote
    · rw [if_pos hquote] at h
      have hloop := Reader.repeatedly_reads (fun out text s rest =>
        ∃ body pieces s', text = body ++ quote :: rest ∧ Decodes pieces body s' ∧ s = out ++ s') ?_ ?_ h
      · obtain ⟨body, pieces, s', htext, hbody, hs⟩ := hloop
        refine ⟨body, pieces, ?_, hs ▸ hbody⟩
        rw [hquote, htext, quotes, List.cons_append, List.append_assoc, List.singleton_append]
      · intro out text out' left s rest hstep hrest
        obtain ⟨body, pieces, s', hleft, hbody, hs⟩ := hrest
        obtain ⟨piece, hpiece, htext, hout⟩ := stringStep_piece hstep
        refine ⟨_, _, _, ?_, hbody.cons hpiece, ?_⟩
        · rw [htext, hleft, List.append_assoc]
        · rw [hs, hout, List.append_assoc]
      · intro out text s rest hstep
        rcases stringStep_ok hstep with ⟨htext, hnext⟩ | ⟨_, _, _, _, hnext⟩ | ⟨_, _, _, _, hnext⟩ |
          ⟨_, _, _, _, _, _, _, hnext⟩
        · cases hnext
          exact ⟨[], [], [], htext, .nil, (List.append_nil out).symm⟩
        · cases hnext
        · cases hnext
        · cases hnext
    · rw [if_neg hquote] at h
      cases h

/-- what is decoded is written as a string may be, if any byte may stand there -/
theorem Decodes.loose {pieces : List Piece} {body s : Bytes} (h : Decodes pieces body s) :
    Body loose body := by
  have hok := h.ok
  rw [h.text]
  clear h
  induction pieces with
  | nil => exact .nil
  | cons piece pieces ih =>
    obtain ⟨hpiece, hpieces⟩ := List.forall_mem_cons.mp hok
    have hmore := ih hpieces
    rw [List.flatMap_cons]
    cases piece with
    | plain c => exact .plain hpiece.1 hpiece.2 trivial hmore
    | escape esc b => exact .escape (unescape_ok hpiece).1 hmore
    | unicode digits cp => exact .unicode hpiece.1 (isHexChar_of_hex4 hpiece.2.1) hmore
    | surrogates digits digits' high low =>
      obtain ⟨⟨hlen, hhex, _⟩, hlen', hhex', _⟩ := hpiece
      rw [Piece.text, List.append_assoc]
      exact .unicode hlen (isHexChar_of_hex4 hhex) (.unicode hlen' (isHexChar_of_hex4 hhex') hmore)

/-! ## values -/

/-- what a phrase is read as; the members of an object in the order of the text -/
inductive Reading
  | value (tree : Tree) (v : Value)
  | items (trees : List Tree) (vs : List Value)
  | members (trees : List (Bytes × Tree)) (members : List (Bytes × Value))

/-- the loop of an object: every member is put into the map -/
def assign (object members : List (Bytes × Value)) : List (Bytes × Value) :=
  members.foldl (fun object m => Value.insertOrAssign m.1 m.2 object) object

inductive Means (D : Doubles) : Reading → Prop
  | null : Means D (.value .null .null)
  | bool (b : Bool) : Means D (.value (.bool b) (.bool b))
  | int {token : Bytes} {i : Int} : stoll token = some i → Means D (.value (.number token) (.int i))
  | double {token : Bytes} {d : ℚ} : D.stod token = some d →
    Means D (.value (.number token) (.double d))
  | string {pieces : List Piece} {body s : Bytes} : Decodes pieces body s →
    Means D (.value (.string body) (.string s))
  | array {trees : List Tree} {vs : List Value} : Means D (.items trees vs) →
    Means D (.value (.array trees) (.array vs))
  | object {trees : List (Bytes × Tree)} {members : List (Bytes × Value)} :
    Means D (.members trees members) → Means D (.value (.object trees) (.object (assign [] members)))
  | noItems : Means D (.items [] [])
  | item {tree : Tree} {v : Value} {trees : List Tree} {vs : List Value} : Means D (.value tree v) →
    Means D (.items trees vs) → Means D (.items (tree :: trees) (v :: vs))
  | noMembers : Means D (.members [] [])
  | member {pieces : List Piece} {body key : Bytes} {tree : Tree} {v : Value}
    {trees : List (Bytes × Tree)} {members : List (Bytes × Value)} : Decodes pieces body key →
    Means D (.value tree v) → Means D (.members trees members) →
    Means D (.members ((body, tree) :: trees) ((key, v) :: members))

/-- `v` is read at the front of a text -/
def Reads (D : Doubles) (text : Bytes) (v : Value) (rest : Bytes) : Prop :=
  ∃ before tree word, Blank before ∧ text = before ++ (word ++ rest) ∧
    Spells loose (.value tree) word ∧ Means D (.value tree v)

theorem skipWs_blank (text : Bytes) : ∃ blank, Blank blank ∧ text = blank ++ skipWs text :=
  ⟨text.takeWhile isWs, fun _ hc => List.mem_takeWhile_imp hc,
    (List.takeWhile_append_dropWhile (p := isWs)).symm⟩

/-- white space and what follows it -/
theorem skipWs_found {text rest : Bytes} {c : UInt8} (h : skipWs text = c :: rest) :
    ∃ blank, Blank blank ∧ text = blank ++ c :: rest := by
  obtain ⟨blank, hblank, htext⟩ := skipWs_blank text
  exact ⟨blank, hblank, by rw [← h, ← htext]⟩

/-- a number is read whole -/
theorem parseNumber_reads {D : Doubles} {text rest : Bytes} {v : Value}
    (h : parseNumber D text = .ok (v, rest)) : ∃ token, text = token ++ rest ∧
      Spells loose (.value (.number token)) token ∧ Means D (.value (.number token) v) := by
  obtain ⟨token, htext, htoken, hchars, ⟨i, hi, rfl⟩ | ⟨d, hd, rfl⟩⟩ := parseNumber_ok h
  · exact ⟨token, htext, .number ⟨htoken, hchars⟩, .int hi⟩
  · exact ⟨token, htext, .number ⟨htoken, hchars⟩, .double hd⟩

section
variable {D : Doubles} {read : Bytes → Except Failure (Value × Bytes)}
  (hread : ∀ text v rest, read text = .ok (v, rest) → Reads D text v rest)
include hread

theorem parseArray_reads {text rest : Bytes} {v : Value} (h : parseArray read text = .ok (v, rest)) :
    ∃ tree word, byteOf '[' :: text = word ++ rest ∧ Spells loose (.value tree) word ∧
      Means D (.value tree v) := by
  obtain ⟨blank, hblank, htext⟩ := skipWs_blank text
  unfold parseArray at h
  dsimp only at h
  by_cases hclose : (skipWs text).head? = some (byteOf ']')
  · rw [if_pos hclose] at h
    cases h
    refine ⟨_, _, ?_, .noItems hblank, .array .noItems⟩
    rw [List.cons_append, List.append_assoc, List.singleton_append,
      ← List.eq_cons_of_mem_head? hclose, ← htext]
  rw [if_neg hclose] at h
  have hloop := Reader.repeatedly_reads (fun array text v rest => ∃ trees vs word,
    text = word ++ byteOf ']' :: rest ∧ Spells loose (.items trees) word ∧
      Means D (.items trees vs) ∧ v = .array (array ++ vs)) ?_ ?_ h
  · obtain ⟨trees, vs, word, hword, hspells, hmeans, rfl⟩ := hloop
    rw [hword] at htext
    refine ⟨.array trees, byteOf '[' :: (blank ++ word ++ [byteOf ']']), ?_, .array ?_, .array hmeans⟩
    · rw [htext, List.cons_append, List.append_assoc, List.append_assoc, List.singleton_append]
    · exact hspells.blankItems hblank
  · intro array text array' left v rest hstep hrest
    obtain ⟨trees, vs, word, hleft, hspells, hmeans, hv⟩ := hrest
    obtain ⟨item, left', hitem, hnext⟩ := arrayStep_ok hstep
    obtain ⟨before, tree, word', hbefore, htext, hspells', hmeans'⟩ := hread _ _ _ hitem
    rcases hnext with ⟨hcomma, hnext⟩ | ⟨_, hnext⟩
    · cases hnext
      obtain ⟨behind, hbehind, hleft'⟩ := skipWs_found hcomma
      refine ⟨tree :: trees, item :: vs, _, ?_, .moreItems hbefore hbehind hspells' hspells,
        .item hmeans' hmeans, ?_⟩
      · rw [htext, hleft', hleft]
        simp only [List.append_assoc, List.cons_append]
      · rw [hv, List.append_assoc, List.singleton_append]
    · cases hnext
  · intro array text v rest hstep
    obtain ⟨item, left', hitem, hnext⟩ := arrayStep_ok hstep
    obtain ⟨before, tree, word', hbefore, htext, hspells', hmeans'⟩ := hread _ _ _ hitem
    rcases hnext with ⟨_, hnext⟩ | ⟨hclose, hnext⟩
    · cases hnext
    · cases hnext
      obtain ⟨behind, hbehind, hleft'⟩ := skipWs_found hclose
      refine ⟨[tree], [item], _, ?_, .lastItem hbefore hbehind hspells', .item hmeans' .noItems, rfl⟩
      rw [htext, hleft']
      simp only [List.append_assoc]

theorem parseObject_reads {text rest : Bytes} {v : Value} (h : parseObject read text = .ok (v, rest)) :
    ∃ tree word, openBrace :: text = word ++ rest ∧ Spells loose (.value tree) word ∧
      Means D (.value tree v) := by
  obtain ⟨blank, hblank, htext⟩ := skipWs_blank text
  unfold parseObject at h
  dsimp only at h
  by_cases hclose : (skipWs text).head? = some closeBrace
  · rw [if_pos hclose] at h
    cases h
    refine ⟨_, _, ?_, .noMembers hblank, .object .noMembers⟩
    rw [List.cons_append, List.append_assoc, List.singleton_append,
      ← List.eq_cons_of_mem_head? hclose, ← htext]
  rw [if_neg hclose] at h
  have hloop := Reader.repeatedly_reads (fun object text v rest => ∃ trees members word,
    text = word ++ closeBrace :: rest ∧ Spells loose (.members trees) word ∧
      Means D (.members trees members) ∧ v = .object (assign object members)) ?_ ?_ h
  · obtain ⟨trees, members, word, hword, hspells, hmeans, rfl⟩ := hloop
    rw [hword] at htext
    refine ⟨.object trees, openBrace :: (blank ++ word ++ [closeBrace]), ?_, .object ?_, .object hmeans⟩
    · rw [htext, List.cons_append, List.append_assoc, List.append_assoc, List.singleton_append]
    · exact hspells.blankMembers hblank
  · intro object text object' left v rest hstep hrest
    obtain ⟨trees, members, word, hleft, hspells, hmeans, hv⟩ := hrest
    obtain ⟨key, afterKey, afterColon, item, left', hkey, hcolon, hitem, hnext⟩ := objectStep_ok hstep
    obtain ⟨before, hbefore, htext⟩ := skipWs_blank text
    obtain ⟨body, pieces, hquotes, hbody⟩ := parseString_reads hkey
    obtain ⟨colon, hblankColon, hafterKey⟩ := skipWs_found hcolon
    obtain ⟨before', tree, word', hbefore', hafterColon, hspells', hmeans'⟩ := hread _ _ _ hitem
    rcases hnext with ⟨hcomma, hnext⟩ | ⟨_, hnext⟩
    · cases hnext
      obtain ⟨behind, hbehind, hleft'⟩ := skipWs_found hcomma
      refine ⟨(body, tree) :: trees, (key, item) :: members, _, ?_, .moreMembers hbefore
        hbody.loose hblankColon hbefore' hbehind hspells' hspells, .member hbody hmeans' hmeans, hv⟩
      rw [htext, hquotes, hafterKey, hafterColon, hleft', hleft]
      simp only [List.append_assoc, List.cons_append]
    · cases hnext
  · intro object text v rest hstep
    obtain ⟨key, afterKey, afterColon, item, left', hkey, hcolon, hitem, hnext⟩ := objectStep_ok hstep
    obtain ⟨before, hbefore, htext⟩ := skipWs_blank text
    obtain ⟨body, pieces, hquotes, hbody⟩ := parseString_reads hkey
    obtain ⟨colon, hblankColon, hafterKey⟩ := skipWs_found hcolon
    obtain ⟨before', tree, word', hbefore', hafterColon, hspells', hmeans'⟩ := hread _ _ _ hitem
    rcases hnext with ⟨_, hnext⟩ | ⟨hclose, hnext⟩
    · cases hnext
    · cases hnext
      obtain ⟨behind, hbehind, hleft'⟩ := skipWs_found hclose
      refine ⟨[(body, tree)], [(key, item)], _, ?_, .lastMember hbefore hbody.loose hblankColon
        hbefore' hbehind hspells', .member hbody hmeans' .noMembers, rfl⟩
      rw [htext, hquotes, hafterKey, hafterColon, hleft']
      simp only [List.append_assoc, List.cons_append]

end

/-- **What is read as a value** is written by the loose grammar, behind white space. -/
theorem parseValue_reads (D : Doubles) (room : Nat) : ∀ text v rest,
    parseValue D room text = .ok (v, rest) → Reads D text v rest := by
  induction room with
  | zero =>
    intro text v rest h
    cases h
  | succ room ih =>
    intro text v rest h
    unfold parseValue at h
    cases hfirst : skipWs text with
    | nil =>
      rw [hfirst] at h
      cases h
    | cons c text' =>
      obtain ⟨blank, hblank, htext⟩ := skipWs_found hfirst
      have hword : (∃ tree word, c :: text' = word ++ rest ∧ Spells loose (.value tree) word ∧
          Means D (.value tree v)) → Reads D text v rest := by
        rintro ⟨tree, word, hword, hspells, hmeans⟩
        exact ⟨blank, tree, word, hblank, by rw [htext, hword], hspells, hmeans⟩
      apply hword
      rw [hfirst] at h
      dsimp only at h
      by_cases hn : c = byteOf 'n'
      · rw [if_pos hn] at h
        obtain ⟨rfl, hnull⟩ := literal_ok h
        exact ⟨.null, _, hnull, .null, .null⟩
      rw [if_neg hn] at h
      by_cases ht : c = byteOf 't'
      · rw [if_pos ht] at h
        obtain ⟨rfl, htrue⟩ := literal_ok h
        exact ⟨.bool true, _, htrue, .bool true, .bool true⟩
      rw [if_neg ht] at h
      by_cases hf : c = byteOf 'f'
      · rw [if_pos hf] at h
        obtain ⟨rfl, hfalse⟩ := literal_ok h
        exact ⟨.bool false, _, hfalse, .bool false, .bool false⟩
      rw [if_neg hf] at h
      by_cases hquote : c = quote
      · rw [if_pos hquote] at h
        cases hs : parseString (c :: text') with
        | error e =>
          rw [hs] at h
          cases h
        | ok s =>
          rw [hs] at h
          cases h
          obtain ⟨body, pieces, hbody, hdecodes⟩ := parseString_reads hs
          exact ⟨.string body, _, hbody, .string hdecodes.loose, .string hdecodes⟩
      rw [if_neg hquote] at h
      by_cases harray : c = byteOf '['
      · rw [if_pos harray] at h
        rw [harray]
        exact parseArray_reads ih h
      rw [if_neg harray] at h
      by_cases hobject : c = openBrace
      · rw [if_pos hobject] at h
        rw [hobject]
        exact parseObject_reads ih h
      rw [if_neg hobject] at h
      obtain ⟨token, htoken, hspells, hmeans⟩ := parseNumber_reads h
      exact ⟨.number token, token, htoken, hspells, hmeans⟩

/-- a whole text -/
theorem parse_reads {D : Doubles} {text : Bytes} {v : Value} (h : parse D text = .ok v) :
    ∃ tree, IsJson loose tree text ∧ Means D (.value tree v) := by
  unfold parse at h
  cases hread : parseValue D 33 text with
  | error e =>
    rw [hread] at h
    cases h
  | ok read =>
    obtain ⟨v', rest⟩ := read
    rw [hread] at h
    dsimp only at h
    by_cases hrest : skipWs rest = []
    · rw [if_pos hrest] at h
      cases h
      obtain ⟨before, tree, word, hbefore, htext, hspells, hmeans⟩ := parseValue_reads D 33 text v rest hread
      obtain ⟨blank, hblank, hbehind⟩ := skipWs_blank rest
      rw [hrest, List.append_nil] at hbehind
      exact ⟨tree, ⟨before, word, rest, hbefore, hbehind ▸ hblank, hspells, htext⟩, hmeans⟩
    · rw [if_neg hrest] at h
      cases h

/-- **What is accepted is loose.** An accepted text is one of RFC 8259 exactly if it is tidy: number characters
outside the strings are numbers, and no control character stands in a string. -/
theorem accepted_iff_tidy (D : Doubles) (text : Bytes) (v : Value) (h : parse D text = .ok v) :
    (∃ tree, IsJson rfc tree text) ↔ Tidy text := by
  obtain ⟨tree, hloose, _⟩ := parse_reads h
  exact isJson_tidy hloose

theorem accepted_iff_tidy_array : ((∃ tree, IsJson rfc tree (Text.utf8 "[-1]")) ↔
    Tidy (Text.utf8 "[-1]")) ∧ Tidy (Text.utf8 "[-1]") := by
  have hdigits : Digits [byteOf '1'] := ⟨List.cons_ne_nil _ _, fun c hc => List.mem_singleton.mp hc ▸ rfl⟩
  have hone : Number ([byteOf '-'] ++ ([byteOf '1'] ++ ([] ++ []))) :=
    .mk (.inr rfl) (.inr ⟨hdigits, by decide⟩) (.inl rfl) (.inl rfl)
  have hparse : parse ⟨fun _ => [], fun _ => none⟩ (Text.utf8 "[-1]") = .ok (.array [.int (-1)]) := rfl
  refine ⟨accepted_iff_tidy _ _ _ hparse, ?_⟩
  exact ⟨.inl rfl, .inr (.inr (.inr (.inr hone))), .inl rfl⟩

/-- a plus sign in front of a number, and a line feed in a string -/
theorem accepts_untidy : (∀ D : Doubles, parse D (Text.utf8 "+1") = .ok (.int 1) ∧
      parse D [quote, 10, quote] = .ok (.string [10])) ∧
    (¬∃ tree, IsJson rfc tree (Text.utf8 "+1")) ∧ ¬∃ tree, IsJson rfc tree [quote, 10, quote] := by
  have haccepted : ∀ D : Doubles, parse D (Text.utf8 "+1") = .ok (.int 1) ∧
      parse D [quote, 10, quote] = .ok (.string [10]) := fun D => ⟨rfl, rfl⟩
  have hanyDoubles := haccepted ⟨fun _ => [], fun _ => none⟩
  refine ⟨haccepted, ?_, ?_⟩
  · obtain ⟨tree, hloose, _⟩ := parse_reads hanyDoubles.1
    rw [isJson_tidy hloose]
    intro htidy
    rcases htidy with hword | hword | hword | hword | hword
    · exact absurd hword (by decide)
    · exact absurd hword (by decide)
    · exact absurd hword (by decide)
    · exact absurd hword (by decide)
    · obtain ⟨c, hc, hminus⟩ := hword.head
      cases hc
      exact absurd hminus (by decide)
  · obtain ⟨tree, hloose, _⟩ := parse_reads hanyDoubles.2
    rw [isJson_tidy hloose]
    intro htidy
    exact absurd htidy.2.1 (by decide)

end Protocol.Cpp
