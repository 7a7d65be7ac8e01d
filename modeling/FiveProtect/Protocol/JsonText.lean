import FiveProtect.Protocol.CppText

/-!
# Protocol: JSON texts

The grammar of RFC 8259 on bytes, UTF-8 aside, with a syntax tree for each text: what stands between the quotes
is kept as it is written, and so is a number.

* `Lexis`              what a number and what an unescaped byte of a string may be: `rfc` has those of the RFC,
                       `loose` takes any number characters and any byte;
* `Spells`             what a tree, the items of an array and the members of an object are written as;
* `IsJson`             a JSON text, with white space around it;
* `Tidy`               a scan of a text that knows nothing of its structure: the words outside the strings are
                       literals or numbers, and no control character stands in a string;
* `tidy_of_rfc`, `rfc_of_tidy`   these are the texts of the RFC among the loose ones.
-/

namespace Protocol.Cpp
open LuaPattern (isDigit byteOf)

/-! ## the grammar -/

inductive Tree
  | null
  | bool (b : Bool)
  | number (token : Bytes)
  | string (body : Bytes)
  | array (items : List Tree)
  | object (members : List (Bytes × Tree))

/-- the words of a grammar: what is a number, and what may stand in a string as it is -/
structure Lexis where
  number : Bytes → Prop
  plain : UInt8 → Prop

/-- the bytes that may be escaped by a backslash alone -/
def escapable : Bytes :=
  [quote, backslash, byteOf '/', byteOf 'b', byteOf 'f', byteOf 'n', byteOf 'r', byteOf 't']

def isHexChar (c : UInt8) : Bool := (hexValue c).isSome

/-- what stands between the quotes of a string -/
inductive Body (L : Lexis) : Bytes → Prop
  | nil : Body L []
  | plain {c : UInt8} {body : Bytes} : c ≠ quote → c ≠ backslash → L.plain c → Body L body →
    Body L (c :: body)
  | escape {c : UInt8} {body : Bytes} : c ∈ escapable → Body L body → Body L (backslash :: c :: body)
  | unicode {digits body : Bytes} : digits.length = 4 → (∀ c ∈ digits, isHexChar c = true) → Body L body →
    Body L (backslash :: byteOf 'u' :: (digits ++ body))

def quotes (body : Bytes) : Bytes := quote :: (body ++ [quote])

def Blank (text : Bytes) : Prop := ∀ c ∈ text, isWs c = true

/-- what may be written: a value, or what stands between the brackets of one that is not empty -/
inductive Phrase
  | value (tree : Tree)
  | items (trees : List Tree)
  | members (trees : List (Bytes × Tree))

inductive Spells (L : Lexis) : Phrase → Bytes → Prop
  | null : Spells L (.value .null) (Text.utf8 "null")
  | bool (b : Bool) : Spells L (.value (.bool b)) (Text.utf8 (if b then "true" else "false"))
  | number {token : Bytes} : L.number token → Spells L (.value (.number token)) token
  | string {body : Bytes} : Body L body → Spells L (.value (.string body)) (quotes body)
  | noItems {blank : Bytes} : Blank blank →
    Spells L (.value (.array [])) (byteOf '[' :: (blank ++ [byteOf ']']))
  | array {items : List Tree} {text : Bytes} : Spells L (.items items) text →
    Spells L (.value (.array items)) (byteOf '[' :: (text ++ [byteOf ']']))
  | noMembers {blank : Bytes} : Blank blank →
    Spells L (.value (.object [])) (openBrace :: (blank ++ [closeBrace]))
  | object {members : List (Bytes × Tree)} {text : Bytes} : Spells L (.members members) text →
    Spells L (.value (.object members)) (openBrace :: (text ++ [closeBrace]))
  | lastItem {tree : Tree} {text before behind : Bytes} : Blank before → Blank behind →
    Spells L (.value tree) text → Spells L (.items [tree]) (before ++ (text ++ behind))
  | moreItems {tree : Tree} {trees : List Tree} {text more before behind : Bytes} : Blank before →
    Blank behind → Spells L (.value tree) text → Spells L (.items trees) more →
    Spells L (.items (tree :: trees)) (before ++ (text ++ (behind ++ byteOf ',' :: more)))
  | lastMember {key : Bytes} {tree : Tree} {text before colon front behind : Bytes} : Blank before →
    Body L key → Blank colon → Blank front → Blank behind → Spells L (.value tree) text →
    Spells L (.members [(key, tree)])
      (before ++ (quotes key ++ (colon ++ byteOf ':' :: (front ++ (text ++ behind)))))
  | moreMembers {key : Bytes} {tree : Tree} {trees : List (Bytes × Tree)}
    {text more before colon front behind : Bytes} : Blank before → Body L key → Blank colon →
    Blank front → Blank behind → Spells L (.value tree) text → Spells L (.members trees) more →
    Spells L (.members ((key, tree) :: trees)) (before ++ (quotes key ++
      (colon ++ byteOf ':' :: (front ++ (text ++ (behind ++ byteOf ',' :: more))))))

def IsJson (L : Lexis) (tree : Tree) (text : Bytes) : Prop :=
  ∃ before value behind, Blank before ∧ Blank behind ∧ Spells L (.value tree) value ∧
    text = before ++ (value ++ behind)

theorem Blank.append {a b : Bytes} (ha : Blank a) (hb : Blank b) : Blank (a ++ b) := by
  intro c hc
  rcases List.mem_append.mp hc with hc | hc
  · exact ha c hc
  · exact hb c hc

/-- white space in front of the items of an array -/
theorem Spells.blankItems {L : Lexis} {blank : Bytes} (hblank : Blank blank) {items : List Tree}
    {text : Bytes} (h : Spells L (.items items) text) : Spells L (.items items) (blank ++ text) := by
  cases h with
  | lastItem hbefore hbehind hitem =>
    rw [← List.append_assoc]
    exact .lastItem (hblank.append hbefore) hbehind hitem
  | moreItems hbefore hbehind hitem hmore =>
    rw [← List.append_assoc]
    exact .moreItems (hblank.append hbefore) hbehind hitem hmore

/-- and of the members of an object -/
theorem Spells.blankMembers {L : Lexis} {blank : Bytes} (hblank : Blank blank)
    {members : List (Bytes × Tree)} {text : Bytes} (h : Spells L (.members members) text) :
    Spells L (.members members) (blank ++ text) := by
  cases h with
  | lastMember hbefore hkey hcolon hfront hbehind hitem =>
    rw [← List.append_assoc]
    exact .lastMember (hblank.append hbefore) hkey hcolon hfront hbehind hitem
  | moreMembers hbefore hkey hcolon hfront hbehind hitem hmore =>
    rw [← List.append_assoc]
    exact .moreMembers (hblank.append hbefore) hkey hcolon hfront hbehind hitem hmore

/-! ## words -/

def Digits (text : Bytes) : Prop := text ≠ [] ∧ ∀ c ∈ text, isDigit c = true

/-- `[ minus ] int [ frac ] [ exp ]` -/
inductive Number : Bytes → Prop
  | mk {minus int frac exp : Bytes} : (minus = [] ∨ minus = [byteOf '-']) →
    (int = [byteOf '0'] ∨ Digits int ∧ int.head? ≠ some (byteOf '0')) →
    (frac = [] ∨ ∃ digits, Digits digits ∧ frac = byteOf '.' :: digits) →
    (exp = [] ∨ ∃ e sign digits, (e = byteOf 'e' ∨ e = byteOf 'E') ∧
      (sign = [] ∨ sign = [byteOf '+'] ∨ sign = [byteOf '-']) ∧ Digits digits ∧
        exp = e :: (sign ++ digits)) →
    Number (minus ++ (int ++ (frac ++ exp)))

def rfc : Lexis := ⟨Number, fun c => 0x20 ≤ c⟩

/-- any characters that occur in numbers, and any byte -/
def loose : Lexis := ⟨fun token => token ≠ [] ∧ ∀ c ∈ token, isNumberChar c = true, fun _ => True⟩

/-! ## tidy texts -/

/-- white space and punctuation, which end a word -/
def isDelimiter (c : UInt8) : Bool :=
  isWs c || [byteOf '[', byteOf ']', openBrace, closeBrace, byteOf ',', byteOf ':'].contains c

/-- a word outside the strings; between two delimiters there may be none -/
def TidyWord (word : Bytes) : Prop :=
  word = [] ∨ word = Text.utf8 "null" ∨ word = Text.utf8 "true" ∨ word = Text.utf8 "false" ∨ Number word

/-- where the scan is: in a word, of which it has seen some, in a string, or behind a backslash -/
inductive Place
  | outside (word : Bytes)
  | inside
  | escaped

/-- the scan, byte by byte -/
def TidyFrom : Place → Bytes → Prop
  | .outside word, [] => TidyWord word
  | .outside word, c :: text =>
    if c = quote then TidyWord word ∧ TidyFrom .inside text
    else if isDelimiter c = true then TidyWord word ∧ TidyFrom (.outside []) text
    else TidyFrom (.outside (word ++ [c])) text
  | .inside, [] => True
  | .inside, c :: text =>
    0x20 ≤ c ∧
      if c = quote then TidyFrom (.outside []) text
      else if c = backslash then TidyFrom .escaped text
      else TidyFrom .inside text
  | .escaped, [] => True
  | .escaped, _ :: text => TidyFrom .inside text

/-- a text whose words are tidy -/
def Tidy (text : Bytes) : Prop := TidyFrom (.outside []) text

/-- what may follow a word -/
def Ends (rest : Bytes) : Prop := ∀ c, rest.head? = some c → isDelimiter c = true

theorem ends_cons {c : UInt8} (h : isDelimiter c = true) (rest : Bytes) : Ends (c :: rest) := by
  intro d hd
  cases hd
  exact h

theorem isDelimiter_ne_quote {c : UInt8} (h : isDelimiter c = true) : c ≠ quote := by
  rintro rfl
  exact absurd h (by decide)

theorem tidy_delimiter {c : UInt8} (h : isDelimiter c = true) (rest : Bytes) :
    Tidy (c :: rest) ↔ Tidy rest := by
  unfold Tidy
  rw [TidyFrom, if_neg (isDelimiter_ne_quote h), if_pos h]
  exact ⟨fun hrest => hrest.2, fun hrest => ⟨.inl rfl, hrest⟩⟩

theorem isDelimiter_isWs {c : UInt8} (h : isWs c = true) : isDelimiter c = true := by
  rw [isDelimiter, h, Bool.true_or]

theorem tidy_blank {blank : Bytes} (h : Blank blank) (rest : Bytes) : Tidy (blank ++ rest) ↔ Tidy rest := by
  induction blank with
  | nil => exact Iff.rfl
  | cons c blank ih =>
    rw [List.cons_append, tidy_delimiter (isDelimiter_isWs (h c List.mem_cons_self)),
      ih fun d hd => h d (List.mem_cons_of_mem _ hd)]

theorem ends_blank {blank rest : Bytes} (h : Blank blank) (hrest : Ends rest) : Ends (blank ++ rest) := by
  cases blank with
  | nil => exact hrest
  | cons c blank => exact ends_cons (isDelimiter_isWs (h c List.mem_cons_self)) _

/-- a word is seen whole -/
theorem tidy_word {word : Bytes} (hword : ∀ c ∈ word, c ≠ quote ∧ isDelimiter c = false) {rest : Bytes}
    (hrest : Ends rest) : Tidy (word ++ rest) ↔ TidyWord word ∧ Tidy rest := by
  have hscan : ∀ seen, TidyFrom (.outside seen) (word ++ rest) ↔ TidyWord (seen ++ word) ∧ Tidy rest := by
    induction word with
    | nil =>
      intro seen
      rw [List.nil_append, List.append_nil]
      cases rest with
      | nil => exact ⟨fun h => ⟨h, .inl rfl⟩, fun h => h.1⟩
      | cons c rest =>
        have hc := hrest c rfl
        rw [tidy_delimiter hc, TidyFrom, if_neg (isDelimiter_ne_quote hc), if_pos hc]
        exact Iff.rfl
    | cons c word ih =>
      intro seen
      obtain ⟨hquote, hdelimiter⟩ := hword c List.mem_cons_self
      rw [List.cons_append, TidyFrom, if_neg hquote, if_neg (by rw [hdelimiter]; decide),
        ih fun d hd => hword d (List.mem_cons_of_mem _ hd), List.append_assoc, List.singleton_append]
  exact hscan []

theorem hexChar_range {c : UInt8} (h : isHexChar c = true) :
    48 ≤ c.toNat ∧ c.toNat ≤ 57 ∨ 97 ≤ c.toNat ∧ c.toNat ≤ 102 ∨ 65 ≤ c.toNat ∧ c.toNat ≤ 70 := by
  unfold isHexChar hexValue at h
  split_ifs at h with h09 haf hAF
  · rw [Bool.and_eq_true, decide_eq_true_eq, decide_eq_true_eq] at h09
    exact .inl ⟨UInt8.le_iff_toNat_le.mp h09.1, UInt8.le_iff_toNat_le.mp h09.2⟩
  · rw [Bool.and_eq_true, decide_eq_true_eq, decide_eq_true_eq] at haf
    exact .inr (.inl ⟨UInt8.le_iff_toNat_le.mp haf.1, UInt8.le_iff_toNat_le.mp haf.2⟩)
  · rw [Bool.and_eq_true, decide_eq_true_eq, decide_eq_true_eq] at hAF
    exact .inr (.inr ⟨UInt8.le_iff_toNat_le.mp hAF.1, UInt8.le_iff_toNat_le.mp hAF.2⟩)
  · cases h

/-- hexadecimal digits are seen as any bytes in a string -/
theorem hexChar_inside {c : UInt8} (h : isHexChar c = true) : 0x20 ≤ c ∧ c ≠ quote ∧ c ≠ backslash := by
  have hc := hexChar_range h
  refine ⟨UInt8.le_iff_toNat_le.mpr ?_, ?_, ?_⟩
  · show 32 ≤ c.toNat
    omega
  · rintro rfl
    exact absurd hc (by decide)
  · rintro rfl
    exact absurd hc (by decide)

theorem tidy_inside {c : UInt8} (hquote : c ≠ quote) (hbackslash : c ≠ backslash) (text : Bytes) :
    TidyFrom .inside (c :: text) ↔ 0x20 ≤ c ∧ TidyFrom .inside text := by
  rw [TidyFrom, if_neg hquote, if_neg hbackslash]

theorem tidy_escaped (c : UInt8) (text : Bytes) :
    TidyFrom .inside (backslash :: c :: text) ↔ TidyFrom .inside text := by
  rw [TidyFrom, if_neg (by decide), if_pos rfl, TidyFrom]
  exact ⟨fun h => h.2, fun h => ⟨by decide, h⟩⟩

theorem tidy_hex {digits : Bytes} (h : ∀ c ∈ digits, isHexChar c = true) (text : Bytes) :
    TidyFrom .inside (digits ++ text) ↔ TidyFrom .inside text := by
  induction digits with
  | nil => exact Iff.rfl
  | cons c digits ih =>
    obtain ⟨hplain, hquote, hbackslash⟩ := hexChar_inside (h c List.mem_cons_self)
    rw [List.cons_append, tidy_inside hquote hbackslash, ih fun d hd => h d (List.mem_cons_of_mem _ hd),
      and_iff_right hplain]

theorem tidy_quote (text : Bytes) : TidyFrom .inside (quote :: text) ↔ Tidy text := by
  rw [TidyFrom, if_pos rfl]
  exact ⟨fun h => h.2, fun h => ⟨by decide, h⟩⟩

theorem tidy_quotes (body rest : Bytes) :
    Tidy (quotes body ++ rest) ↔ TidyFrom .inside (body ++ quote :: rest) := by
  rw [quotes, List.cons_append, List.append_assoc, List.singleton_append]
  unfold Tidy
  rw [TidyFrom, if_pos rfl]
  exact ⟨fun h => h.2, fun h => ⟨.inl rfl, h⟩⟩

/-! ## the words of the RFC are tidy -/

theorem isDelimiter_word {word : Bytes} (h : word.all (fun c => c != quote && !isDelimiter c) = true) :
    ∀ c ∈ word, c ≠ quote ∧ isDelimiter c = false := by
  intro c hc
  have hc' := List.all_eq_true.mp h c hc
  rw [Bool.and_eq_true, bne_iff_ne, Bool.not_eq_true'] at hc'
  exact hc'

theorem isNumberChar_word {c : UInt8} (h : isNumberChar c = true) : c ≠ quote ∧ isDelimiter c = false := by
  have hall : ((List.range 256).all fun n => !isNumberChar (UInt8.ofNat n) ||
      (UInt8.ofNat n != quote && !isDelimiter (UInt8.ofNat n))) = true := by decide +kernel
  have hc := List.all_eq_true.mp hall c.toNat (List.mem_range.mpr c.toNat_lt)
  rw [UInt8.ofNat_toNat, h, Bool.not_true, Bool.false_or, Bool.and_eq_true, bne_iff_ne,
    Bool.not_eq_true'] at hc
  exact hc

theorem Number.word {token : Bytes} (h : Number token) : ∀ c ∈ token, isNumberChar c = true := by
  cases h with
  | mk hminus hint hfrac hexp =>
    rename_i minus int frac exp
    have hdigits : ∀ digits : Bytes, Digits digits → ∀ c ∈ digits, isNumberChar c = true :=
      fun digits hd c hc => isDigit_number (hd.2 c hc)
    have hone : ∀ c d : UInt8, isNumberChar d = true → c ∈ [d] → isNumberChar c = true := by
      intro c d hd hc
      rw [List.mem_singleton.mp hc]
      exact hd
    intro c hc
    rcases List.mem_append.mp hc with hc | hc
    · rcases hminus with rfl | rfl
      · exact absurd hc List.not_mem_nil
      · exact hone c _ (by decide) hc
    rcases List.mem_append.mp hc with hc | hc
    · rcases hint with rfl | ⟨hd, _⟩
      · exact hone c _ (by decide) hc
      · exact hdigits _ hd c hc
    rcases List.mem_append.mp hc with hc | hc
    · rcases hfrac with rfl | ⟨digits, hd, rfl⟩
      · exact absurd hc List.not_mem_nil
      · rcases List.mem_cons.mp hc with rfl | hc
        · decide
        · exact hdigits _ hd c hc
    · rcases hexp with rfl | ⟨e, sign, digits, he, hsign, hd, rfl⟩
      · exact absurd hc List.not_mem_nil
      · rcases List.mem_cons.mp hc with rfl | hc
        · rcases he with rfl | rfl
          · decide
          · decide
        · rcases List.mem_append.mp hc with hc | hc
          · rcases hsign with rfl | rfl | rfl
            · exact absurd hc List.not_mem_nil
            · exact hone c _ (by decide) hc
            · exact hone c _ (by decide) hc
          · exact hdigits _ hd c hc

/-- a number starts with a minus or a digit -/
theorem Number.head {token : Bytes} (h : Number token) :
    ∃ c, token.head? = some c ∧ (c = byteOf '-' ∨ isDigit c = true) := by
  cases h with
  | mk hminus hint _ _ =>
    rename_i minus int frac exp
    rcases hminus with rfl | rfl
    · rcases hint with rfl | ⟨hd, _⟩
      · exact ⟨byteOf '0', rfl, .inr (by decide)⟩
      · obtain ⟨c, digits, rfl⟩ := List.exists_cons_of_ne_nil hd.1
        exact ⟨c, rfl, .inr (hd.2 c List.mem_cons_self)⟩
    · exact ⟨byteOf '-', rfl, .inl rfl⟩

theorem body_tidy {body : Bytes} (h : Body rfc body) {rest : Bytes} (hrest : Tidy rest) :
    TidyFrom .inside (body ++ quote :: rest) := by
  induction h with
  | nil => exact (tidy_quote rest).mpr hrest
  | plain hquote hbackslash hplain _ ih => exact (tidy_inside hquote hbackslash _).mpr ⟨hplain, ih⟩
  | escape _ _ ih => exact (tidy_escaped _ _).mpr ih
  | unicode _ hhex _ ih =>
    rw [List.cons_append, List.cons_append, tidy_escaped, List.append_assoc, tidy_hex hhex]
    exact ih

/-- a literal is seen whole -/
theorem tidy_literal {word : Bytes} (hword : word.all (fun c => c != quote && !isDelimiter c) = true)
    (htidy : TidyWord word) {rest : Bytes} (hends : Ends rest) : Tidy (word ++ rest) ↔ Tidy rest := by
  rw [tidy_word (isDelimiter_word hword) hends, and_iff_right htidy]

theorem tidy_null {rest : Bytes} (hends : Ends rest) : Tidy (Text.utf8 "null" ++ rest) ↔ Tidy rest :=
  tidy_literal (by decide) (.inr (.inl rfl)) hends

theorem tidy_bool (b : Bool) {rest : Bytes} (hends : Ends rest) :
    Tidy (Text.utf8 (if b then "true" else "false") ++ rest) ↔ Tidy rest := by
  cases b with
  | true => exact tidy_literal (by decide) (.inr (.inr (.inl rfl))) hends
  | false => exact tidy_literal (by decide) (.inr (.inr (.inr (.inl rfl)))) hends

/-- **What is written by the grammar of the RFC is tidy.** -/
theorem tidy_of_rfc {phrase : Phrase} {text : Bytes} (h : Spells rfc phrase text) {rest : Bytes}
    (hends : Ends rest) (hrest : Tidy rest) : Tidy (text ++ rest) := by
  induction h generalizing rest with
  | null => exact (tidy_null hends).mpr hrest
  | bool b => exact (tidy_bool b hends).mpr hrest
  | number hnumber =>
    rw [tidy_word (fun c hc => isNumberChar_word (Number.word hnumber c hc)) hends]
    exact ⟨.inr (.inr (.inr (.inr hnumber))), hrest⟩
  | string hbody =>
    rw [tidy_quotes]
    exact body_tidy hbody hrest
  | noItems hblank =>
    rw [List.cons_append, tidy_delimiter (by decide), List.append_assoc, tidy_blank hblank]
    exact (tidy_delimiter (by decide) rest).mpr hrest
  | array _ ih =>
    rw [List.cons_append, tidy_delimiter (by decide), List.append_assoc]
    exact ih (ends_cons (by decide) _) ((tidy_delimiter (by decide) rest).mpr hrest)
  | noMembers hblank =>
    rw [List.cons_append, tidy_delimiter (by decide), List.append_assoc, tidy_blank hblank]
    exact (tidy_delimiter (by decide) rest).mpr hrest
  | object _ ih =>
    rw [List.cons_append, tidy_delimiter (by decide), List.append_assoc]
    exact ih (ends_cons (by decide) _) ((tidy_delimiter (by decide) rest).mpr hrest)
  | lastItem hbefore hbehind _ ih =>
    rw [List.append_assoc, tidy_blank hbefore, List.append_assoc]
    exact ih (ends_blank hbehind hends) ((tidy_blank hbehind rest).mpr hrest)
  | moreItems hbefore hbehind _ _ ih ihmore =>
    rw [List.append_assoc, tidy_blank hbefore, List.append_assoc, List.append_assoc, List.cons_append]
    have hmore := ihmore hends hrest
    exact ih (ends_blank hbehind (ends_cons (by decide) _))
      ((tidy_blank hbehind _).mpr ((tidy_delimiter (by decide) _).mpr hmore))
  | lastMember hbefore hkey hcolon hfront hbehind _ ih =>
    rw [List.append_assoc, tidy_blank hbefore, List.append_assoc, tidy_quotes, List.append_assoc,
      List.cons_append, List.append_assoc, List.append_assoc]
    apply body_tidy hkey
    rw [tidy_blank hcolon, tidy_delimiter (by decide), tidy_blank hfront]
    exact ih (ends_blank hbehind hends) ((tidy_blank hbehind rest).mpr hrest)
  | moreMembers hbefore hkey hcolon hfront hbehind _ _ ih ihmore =>
    rw [List.append_assoc, tidy_blank hbefore, List.append_assoc, tidy_quotes, List.append_assoc,
      List.cons_append, List.append_assoc, List.append_assoc, List.append_assoc, List.cons_append]
    apply body_tidy hkey
    rw [tidy_blank hcolon, tidy_delimiter (by decide), tidy_blank hfront]
    have hmore := ihmore hends hrest
    exact ih (ends_blank hbehind (ends_cons (by decide) _))
      ((tidy_blank hbehind _).mpr ((tidy_delimiter (by decide) _).mpr hmore))

/-! ## a tidy text is one of the RFC -/

theorem body_of_tidy {body : Bytes} (h : Body loose body) {rest : Bytes}
    (htidy : TidyFrom .inside (body ++ quote :: rest)) : Body rfc body ∧ Tidy rest := by
  induction h with
  | nil => exact ⟨.nil, (tidy_quote rest).mp htidy⟩
  | plain hquote hbackslash _ _ ih =>
    obtain ⟨hplain, hmore⟩ := (tidy_inside hquote hbackslash _).mp htidy
    obtain ⟨hbody, hrest⟩ := ih hmore
    exact ⟨.plain hquote hbackslash hplain hbody, hrest⟩
  | escape hc _ ih =>
    obtain ⟨hbody, hrest⟩ := ih ((tidy_escaped _ _).mp htidy)
    exact ⟨.escape hc hbody, hrest⟩
  | unicode hlength hhex _ ih =>
    rw [List.cons_append, List.cons_append, tidy_escaped, List.append_assoc, tidy_hex hhex] at htidy
    obtain ⟨hbody, hrest⟩ := ih htidy
    exact ⟨.unicode hlength hhex hbody, hrest⟩

/-- a word of number characters is no literal -/
theorem number_of_tidy {token : Bytes} (h : loose.number token) (htidy : TidyWord token) : Number token := by
  have hfirst : ∀ c, token.head? = some c → isNumberChar c = true := fun c hc =>
    h.2 c (List.mem_of_head? hc)
  rcases htidy with hnil | hnull | htrue | hfalse | hnumber
  · exact absurd hnil h.1
  · exact absurd (hfirst (byteOf 'n') (by rw [hnull]; rfl)) (by decide)
  · exact absurd (hfirst (byteOf 't') (by rw [htrue]; rfl)) (by decide)
  · exact absurd (hfirst (byteOf 'f') (by rw [hfalse]; rfl)) (by decide)
  · exact hnumber

/-- **What is written loosely and is tidy is written by the grammar of the RFC.** -/
theorem rfc_of_tidy {phrase : Phrase} {text : Bytes} (h : Spells loose phrase text) {rest : Bytes}
    (hends : Ends rest) (htidy : Tidy (text ++ rest)) : Spells rfc phrase text ∧ Tidy rest := by
  induction h generalizing rest with
  | null => exact ⟨.null, (tidy_null hends).mp htidy⟩
  | bool b => exact ⟨.bool b, (tidy_bool b hends).mp htidy⟩
  | number hnumber =>
    rw [tidy_word (fun c hc => isNumberChar_word (hnumber.2 c hc)) hends] at htidy
    exact ⟨.number (number_of_tidy hnumber htidy.1), htidy.2⟩
  | string hbody =>
    rw [tidy_quotes] at htidy
    obtain ⟨hbody', hrest⟩ := body_of_tidy hbody htidy
    exact ⟨.string hbody', hrest⟩
  | noItems hblank =>
    rw [List.cons_append, tidy_delimiter (by decide), List.append_assoc, tidy_blank hblank] at htidy
    exact ⟨.noItems hblank, (tidy_delimiter (by decide) rest).mp htidy⟩
  | array _ ih =>
    rw [List.cons_append, tidy_delimiter (by decide), List.append_assoc] at htidy
    obtain ⟨hitems, hrest⟩ := ih (ends_cons (by decide) _) htidy
    exact ⟨.array hitems, (tidy_delimiter (by decide) rest).mp hrest⟩
  | noMembers hblank =>
    rw [List.cons_append, tidy_delimiter (by decide), List.append_assoc, tidy_blank hblank] at htidy
    exact ⟨.noMembers hblank, (tidy_delimiter (by decide) rest).mp htidy⟩
  | object _ ih =>
    rw [List.cons_append, tidy_delimiter (by decide), List.append_assoc] at htidy
    obtain ⟨hmembers, hrest⟩ := ih (ends_cons (by decide) _) htidy
    exact ⟨.object hmembers, (tidy_delimiter (by decide) rest).mp hrest⟩
  | lastItem hbefore hbehind _ ih =>
    rw [List.append_assoc, tidy_blank hbefore, List.append_assoc] at htidy
    obtain ⟨hitem, hrest⟩ := ih (ends_blank hbehind hends) htidy
    exact ⟨.lastItem hbefore hbehind hitem, (tidy_blank hbehind rest).mp hrest⟩
  | moreItems hbefore hbehind _ _ ih ihmore =>
    rw [List.append_assoc, tidy_blank hbefore, List.append_assoc, List.append_assoc,
      List.cons_append] at htidy
    obtain ⟨hitem, hmore⟩ := ih (ends_blank hbehind (ends_cons (by decide) _)) htidy
    rw [tidy_blank hbehind, tidy_delimiter (by decide)] at hmore
    obtain ⟨hitems, hrest⟩ := ihmore hends hmore
    exact ⟨.moreItems hbefore hbehind hitem hitems, hrest⟩
  | lastMember hbefore hkey hcolon hfront hbehind _ ih =>
    rw [List.append_assoc, tidy_blank hbefore, List.append_assoc, tidy_quotes, List.append_assoc,
      List.cons_append, List.append_assoc, List.append_assoc] at htidy
    obtain ⟨hkey', hmore⟩ := body_of_tidy hkey htidy
    rw [tidy_blank hcolon, tidy_delimiter (by decide), tidy_blank hfront] at hmore
    obtain ⟨hitem, hrest⟩ := ih (ends_blank hbehind hends) hmore
    exact ⟨.lastMember hbefore hkey' hcolon hfront hbehind hitem, (tidy_blank hbehind rest).mp hrest⟩
  | moreMembers hbefore hkey hcolon hfront hbehind _ _ ih ihmore =>
    rw [List.append_assoc, tidy_blank hbefore, List.append_assoc, tidy_quotes, List.append_assoc,
      List.cons_append, List.append_assoc, List.append_assoc, List.append_assoc, List.cons_append] at htidy
    obtain ⟨hkey', hmore⟩ := body_of_tidy hkey htidy
    rw [tidy_blank hcolon, tidy_delimiter (by decide), tidy_blank hfront] at hmore
    obtain ⟨hitem, hmore⟩ := ih (ends_blank hbehind (ends_cons (by decide) _)) hmore
    rw [tidy_blank hbehind, tidy_delimiter (by decide)] at hmore
    obtain ⟨hmembers, hrest⟩ := ihmore hends hmore
    exact ⟨.moreMembers hbefore hkey' hcolon hfront hbehind hitem hmembers, hrest⟩

/-- a JSON text is one of the RFC exactly if it is tidy -/
theorem isJson_tidy {tree : Tree} {text : Bytes} (h : IsJson loose tree text) :
    (∃ tree, IsJson rfc tree text) ↔ Tidy text := by
  have hnil : Ends [] := fun c hc => by cases hc
  have hends : ∀ behind, Blank behind → Ends behind ∧ Tidy behind := by
    intro behind hbehind
    rw [← List.append_nil behind]
    exact ⟨ends_blank hbehind hnil, (tidy_blank hbehind []).mpr (.inl rfl)⟩
  constructor
  · intro hrfc
    obtain ⟨tree', before, value, behind, hbefore, hbehind, hvalue, rfl⟩ := hrfc
    rw [tidy_blank hbefore]
    exact tidy_of_rfc hvalue (hends behind hbehind).1 (hends behind hbehind).2
  · intro htidy
    obtain ⟨before, value, behind, hbefore, hbehind, hvalue, rfl⟩ := h
    rw [tidy_blank hbefore] at htidy
    exact ⟨tree, before, value, behind, hbefore, hbehind,
      (rfc_of_tidy hvalue (hends behind hbehind).1 htidy).1, rfl⟩

end Protocol.Cpp
