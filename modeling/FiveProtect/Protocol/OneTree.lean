import FiveProtect.Protocol.JsonText

/-!
# Protocol: a JSON text has one tree

The loose grammar is unambiguous.

* `body_unique`      a string ends at its first quote that is not escaped;
* `Tree.kind`        the first byte of a value tells its kind;
* `Agree`, `agree`   how much of a text is a value, and what its tree is, can be read off the text;
* `isJson_unique`    two trees of one text are the same.
-/

namespace Protocol.Cpp
open LuaPattern (byteOf)

/-! ## white space, words and strings -/

/-- white space ends where something else begins -/
theorem blank_unique {a b x y : Bytes} {c d : UInt8} (ha : Blank a) (hb : Blank b) (hc : isWs c = false)
    (hd : isWs d = false) (h : a ++ c :: x = b ++ d :: y) : c = d ∧ x = y := by
  have hstrip : ∀ {blank rest : Bytes} {e : UInt8}, Blank blank → isWs e = false →
      skipWs (blank ++ e :: rest) = e :: rest := by
    intro blank rest e hblank he
    unfold skipWs
    rw [List.dropWhile_append_of_pos hblank, List.dropWhile_cons_of_neg (by rw [he]; exact Bool.false_ne_true)]
  have hskip := congrArg skipWs h
  rw [hstrip ha hc, hstrip hb hd] at hskip
  injection hskip with hhead htail
  exact ⟨hhead, htail⟩

/-- a word ends where a delimiter stands -/
theorem word_unique {a b x y : Bytes} (ha : ∀ c ∈ a, isDelimiter c = false)
    (hb : ∀ c ∈ b, isDelimiter c = false) (hx : Ends x) (hy : Ends y) (h : a ++ x = b ++ y) :
    a = b ∧ x = y := by
  have htake : ∀ {word rest : Bytes}, (∀ c ∈ word, isDelimiter c = false) → Ends rest →
      (word ++ rest).takeWhile (fun c => !isDelimiter c) = word := by
    intro word rest hword hrest
    rw [List.takeWhile_append_of_pos fun c hc => by rw [hword c hc]; rfl]
    cases rest with
    | nil => rw [List.takeWhile_nil, List.append_nil]
    | cons c rest =>
      rw [List.takeWhile_cons_of_neg (by rw [hrest c rfl]; exact Bool.false_ne_true), List.append_nil]
  have hab := congrArg (List.takeWhile fun c => !isDelimiter c) h
  rw [htake ha hx, htake hb hy] at hab
  subst hab
  exact ⟨rfl, List.append_cancel_left h⟩

theorem not_escapable {c : UInt8} (h : c ∈ escapable) : c ≠ byteOf 'u' := by
  rintro rfl
  exact absurd h (by decide)

/-- a string ends at its first quote that is not escaped -/
theorem body_unique {L : Lexis} {a b x y : Bytes} (ha : Body L a) (hb : Body L b)
    (h : a ++ quote :: x = b ++ quote :: y) : a = b ∧ x = y := by
  induction ha generalizing b with
  | nil =>
    cases hb with
    | nil =>
      injection h with _ hrest
      exact ⟨rfl, hrest⟩
    | plain hquote _ _ _ =>
      injection h with hc _
      exact absurd hc.symm hquote
    | escape _ _ =>
      injection h with hc _
      exact absurd hc (by decide)
    | unicode _ _ _ =>
      injection h with hc _
      exact absurd hc (by decide)
  | plain hquote hbackslash _ _ ih =>
    cases hb with
    | nil =>
      injection h with hc _
      exact absurd hc hquote
    | plain _ _ _ hbody =>
      injection h with hc hrest
      obtain ⟨hab, hxy⟩ := ih hbody hrest
      exact ⟨by rw [hc, hab], hxy⟩
    | escape _ _ =>
      injection h with hc _
      exact absurd hc hbackslash
    | unicode _ _ _ =>
      injection h with hc _
      exact absurd hc hbackslash
  | escape hesc _ ih =>
    cases hb with
    | nil =>
      injection h with hc _
      exact absurd hc (by decide)
    | plain _ hbackslash _ _ =>
      injection h with hc _
      exact absurd hc.symm hbackslash
    | escape _ hbody =>
      injection h with _ h
      injection h with hc hrest
      obtain ⟨hab, hxy⟩ := ih hbody hrest
      exact ⟨by rw [hc, hab], hxy⟩
    | unicode _ _ _ =>
      injection h with _ h
      injection h with hc _
      exact absurd hc (not_escapable hesc)
  | unicode hlen _ _ ih =>
    cases hb with
    | nil =>
      injection h with hc _
      exact absurd hc (by decide)
    | plain _ hbackslash _ _ =>
      injection h with hc _
      exact absurd hc.symm hbackslash
    | escape hesc _ =>
      injection h with _ h
      injection h with hc _
      exact absurd hc.symm (not_escapable hesc)
    | unicode hlen' _ hbody =>
      injection h with _ h
      injection h with _ h
      simp only [List.append_eq, List.append_assoc] at h
      obtain ⟨hdigits, hrest⟩ := List.append_inj h (hlen.trans hlen'.symm)
      obtain ⟨hab, hxy⟩ := ih hbody hrest
      exact ⟨by rw [hdigits, hab], hxy⟩

theorem quotes_unique {L : Lexis} {a b x y : Bytes} (ha : Body L a) (hb : Body L b)
    (h : quotes a ++ x = quotes b ++ y) : a = b ∧ x = y := by
  rw [quotes, quotes, List.cons_append, List.cons_append, List.append_assoc, List.append_assoc] at h
  injection h with _ h
  exact body_unique ha hb h

/-! ## the first byte -/

def Tree.kind : Tree → Nat
  | .null => 0
  | .bool true => 1
  | .bool false => 2
  | .number _ => 3
  | .string _ => 4
  | .array _ => 5
  | .object _ => 6

/-- the kind of the values that start with a byte; no value starts with a byte of the kind 7 -/
def kindOf (c : UInt8) : Nat :=
  if c = byteOf 'n' then 0
  else if c = byteOf 't' then 1
  else if c = byteOf 'f' then 2
  else if isNumberChar c = true then 3
  else if c = quote then 4
  else if c = byteOf '[' then 5
  else if c = openBrace then 6
  else 7

theorem kindOf_number {c : UInt8} (h : isNumberChar c = true) : kindOf c = 3 := by
  have hn : c ≠ byteOf 'n' := by
    rintro rfl
    exact absurd h (by decide)
  have ht : c ≠ byteOf 't' := by
    rintro rfl
    exact absurd h (by decide)
  have hf : c ≠ byteOf 'f' := by
    rintro rfl
    exact absurd h (by decide)
  rw [kindOf, if_neg hn, if_neg ht, if_neg hf, if_pos h]

theorem Spells.front {tree : Tree} {text : Bytes} (h : Spells loose (.value tree) text) :
    ∃ c rest, text = c :: rest ∧ kindOf c = tree.kind := by
  cases h with
  | null => exact ⟨_, _, rfl, rfl⟩
  | bool b =>
    cases b with
    | true => exact ⟨_, _, rfl, rfl⟩
    | false => exact ⟨_, _, rfl, rfl⟩
  | number hnumber =>
    obtain ⟨c, token, rfl⟩ := List.exists_cons_of_ne_nil hnumber.1
    exact ⟨c, token, rfl, kindOf_number (hnumber.2 c List.mem_cons_self)⟩
  | string _ => exact ⟨_, _, rfl, rfl⟩
  | noItems _ => exact ⟨_, _, rfl, rfl⟩
  | array _ => exact ⟨_, _, rfl, rfl⟩
  | noMembers _ => exact ⟨_, _, rfl, rfl⟩
  | object _ => exact ⟨_, _, rfl, rfl⟩

theorem Tree.kind_lt (tree : Tree) : tree.kind < 7 := by
  cases tree with
  | bool b =>
    cases b with
    | true => exact Nat.lt_of_sub_eq_succ rfl
    | false => exact Nat.lt_of_sub_eq_succ rfl
  | null => exact Nat.lt_of_sub_eq_succ rfl
  | number _ => exact Nat.lt_of_sub_eq_succ rfl
  | string _ => exact Nat.lt_of_sub_eq_succ rfl
  | array _ => exact Nat.lt_of_sub_eq_succ rfl
  | object _ => exact Nat.lt_of_sub_eq_succ rfl

theorem isWs_kind {c : UInt8} (h : kindOf c < 7) : isWs c = false := by
  by_contra hws
  rw [Bool.not_eq_false, isWs] at hws
  simp only [Bool.or_eq_true, decide_eq_true_eq] at hws
  rcases hws with ((rfl | rfl) | rfl) | rfl
  · exact absurd h (by decide)
  · exact absurd h (by decide)
  · exact absurd h (by decide)
  · exact absurd h (by decide)

/-- white space in front of a value ends where the value begins -/
theorem front_unique {a b text text' x y : Bytes} {tree tree' : Tree} (ha : Blank a) (hb : Blank b)
    (htext : Spells loose (.value tree) text) (htext' : Spells loose (.value tree') text')
    (h : a ++ (text ++ x) = b ++ (text' ++ y)) : text ++ x = text' ++ y := by
  obtain ⟨c, rest, rfl, hc⟩ := htext.front
  obtain ⟨d, rest', rfl, hd⟩ := htext'.front
  obtain ⟨hcd, hrest⟩ := blank_unique ha hb (isWs_kind (hc ▸ tree.kind_lt)) (isWs_kind (hd ▸ tree'.kind_lt)) h
  exact congrArg₂ List.cons hcd hrest

/-! ## the tree -/

/-- how much of a text a phrase is, and which it is, can be read off -/
def Agree (text : Bytes) : Phrase → Prop
  | .value tree => ∀ tree' text' rest rest', Spells loose (.value tree') text' → Ends rest → Ends rest' →
    text ++ rest = text' ++ rest' → tree = tree' ∧ rest = rest'
  | .items trees => ∀ trees' text' rest rest', Spells loose (.items trees') text' →
    text ++ byteOf ']' :: rest = text' ++ byteOf ']' :: rest' → trees = trees' ∧ rest = rest'
  | .members trees => ∀ trees' text' rest rest', Spells loose (.members trees') text' →
    text ++ closeBrace :: rest = text' ++ closeBrace :: rest' → trees = trees' ∧ rest = rest'

/-- two values at one place are of one kind -/
theorem kind_unique {tree tree' : Tree} {text text' x y : Bytes} (h : Spells loose (.value tree) text)
    (h' : Spells loose (.value tree') text') (heq : text ++ x = text' ++ y) : tree.kind = tree'.kind := by
  obtain ⟨c, rest, rfl, hc⟩ := h.front
  obtain ⟨d, rest', rfl, hd⟩ := h'.front
  injection heq with hcd _
  rw [← hc, ← hd, hcd]

/-- what stands between the brackets of an array that is not empty -/
theorem items_front {items : List Tree} {text : Bytes} (h : Spells loose (.items items) text) :
    ∃ blank c rest, Blank blank ∧ kindOf c < 7 ∧ text = blank ++ c :: rest := by
  cases h with
  | lastItem hbefore _ hitem =>
    obtain ⟨c, rest, rfl, hc⟩ := hitem.front
    exact ⟨_, c, _, hbefore, hc ▸ Tree.kind_lt _, rfl⟩
  | moreItems hbefore _ hitem _ =>
    obtain ⟨c, rest, rfl, hc⟩ := hitem.front
    exact ⟨_, c, _, hbefore, hc ▸ Tree.kind_lt _, rfl⟩

theorem members_front {members : List (Bytes × Tree)} {text : Bytes}
    (h : Spells loose (.members members) text) :
    ∃ blank rest, Blank blank ∧ text = blank ++ quote :: rest := by
  cases h with
  | lastMember hbefore _ _ _ _ _ => exact ⟨_, _, hbefore, rfl⟩
  | moreMembers hbefore _ _ _ _ _ _ => exact ⟨_, _, hbefore, rfl⟩

/-- an array with items does not look empty -/
theorem bracket_items {items : List Tree} {text blank x y : Bytes} (h : Spells loose (.items items) text)
    (hblank : Blank blank) : blank ++ byteOf ']' :: x ≠ text ++ y := by
  obtain ⟨front, c, rest, hfront, hc, rfl⟩ := items_front h
  rw [List.append_assoc]
  intro heq
  obtain ⟨rfl, _⟩ := blank_unique hblank hfront (by decide) (isWs_kind hc) heq
  exact absurd hc (by decide)

theorem brace_members {members : List (Bytes × Tree)} {text blank x y : Bytes}
    (h : Spells loose (.members members) text) (hblank : Blank blank) :
    blank ++ closeBrace :: x ≠ text ++ y := by
  obtain ⟨front, rest, hfront, rfl⟩ := members_front h
  rw [List.append_assoc]
  intro heq
  obtain ⟨hc, _⟩ := blank_unique hblank hfront (by decide) (by decide) heq
  exact absurd hc (by decide)

section
variable {text text' before before' behind behind' x y : Bytes} {tree tree' : Tree} {c d : UInt8}
  (hagree : Agree text (.value tree)) (htext : Spells loose (.value tree) text)
  (htext' : Spells loose (.value tree') text') (hbefore : Blank before) (hbefore' : Blank before')
  (hbehind : Blank behind) (hbehind' : Blank behind') (hc : isDelimiter c = true ∧ isWs c = false)
  (hd : isDelimiter d = true ∧ isWs d = false)
include hagree htext htext' hbefore hbefore' hbehind hbehind' hc hd

/-- an item with white space around it, and what ends it -/
theorem item_unique
    (h : before ++ (text ++ (behind ++ c :: x)) = before' ++ (text' ++ (behind' ++ d :: y))) :
    tree = tree' ∧ c = d ∧ x = y := by
  have hvalue := front_unique hbefore hbefore' htext htext' h
  obtain ⟨htree, hrest⟩ := hagree tree' text' _ _ htext' (ends_blank hbehind (ends_cons hc.1 x))
    (ends_blank hbehind' (ends_cons hd.1 y)) hvalue
  exact ⟨htree, blank_unique hbehind hbehind' hc.2 hd.2 hrest⟩

/-- a member with white space around it, and what ends it -/
theorem member_unique {key key' front front' colon colon' : Bytes} (hkey : Body loose key)
    (hkey' : Body loose key') (hfront : Blank front) (hfront' : Blank front') (hcolon : Blank colon)
    (hcolon' : Blank colon')
    (h : front ++ (quotes key ++ (colon ++ byteOf ':' :: (before ++ (text ++ (behind ++ c :: x))))) =
      front' ++ (quotes key' ++ (colon' ++ byteOf ':' :: (before' ++ (text' ++ (behind' ++ d :: y)))))) :
    (key, tree) = (key', tree') ∧ c = d ∧ x = y := by
  have hquotes : quotes key ++ (colon ++ byteOf ':' :: (before ++ (text ++ (behind ++ c :: x)))) =
      quotes key' ++ (colon' ++ byteOf ':' :: (before' ++ (text' ++ (behind' ++ d :: y)))) :=
    congrArg (List.cons quote) (blank_unique hfront hfront' (by decide) (by decide) h).2
  obtain ⟨rfl, hcolons⟩ := quotes_unique hkey hkey' hquotes
  have hitems := (blank_unique hcolon hcolon' (by decide) (by decide) hcolons).2
  obtain ⟨rfl, hrest⟩ := item_unique hagree htext htext' hbefore hbefore' hbehind hbehind' hc hd hitems
  exact ⟨rfl, hrest⟩

end

/-- **Unambiguity.** -/
theorem agree {phrase : Phrase} {text : Bytes} (h : Spells loose phrase text) : Agree text phrase := by
  have hcomma : isDelimiter (byteOf ',') = true ∧ isWs (byteOf ',') = false := by decide
  have hbracket : isDelimiter (byteOf ']') = true ∧ isWs (byteOf ']') = false := by decide
  have hbrace : isDelimiter closeBrace = true ∧ isWs closeBrace = false := by decide
  induction h with
  | null =>
    intro tree' text' rest rest' h' _ _ heq
    have hkind := kind_unique .null h' heq
    cases h' with
    | null => exact ⟨rfl, List.append_cancel_left heq⟩
    | bool b => cases b <;> cases hkind
    | _ => cases hkind
  | bool b =>
    intro tree' text' rest rest' h' _ _ heq
    have hkind := kind_unique (.bool b) h' heq
    cases h' with
    | bool b' =>
      have hb : b = b' := by cases b <;> cases b' <;> first | rfl | cases hkind
      subst hb
      exact ⟨rfl, List.append_cancel_left heq⟩
    | _ => cases b <;> cases hkind
  | number hnumber =>
    intro tree' text' rest rest' h' hends hends' heq
    have hkind := kind_unique (.number hnumber) h' heq
    cases h' with
    | number hnumber' =>
      obtain ⟨rfl, hrest⟩ := word_unique (fun c hc => (isNumberChar_word (hnumber.2 c hc)).2)
        (fun c hc => (isNumberChar_word (hnumber'.2 c hc)).2) hends hends' heq
      exact ⟨rfl, hrest⟩
    | bool b => cases b <;> cases hkind
    | _ => cases hkind
  | string hbody =>
    intro tree' text' rest rest' h' _ _ heq
    have hkind := kind_unique (.string hbody) h' heq
    cases h' with
    | string hbody' =>
      obtain ⟨rfl, hrest⟩ := quotes_unique hbody hbody' heq
      exact ⟨rfl, hrest⟩
    | bool b => cases b <;> cases hkind
    | _ => cases hkind
  | noItems hblank =>
    intro tree' text' rest rest' h' _ _ heq
    have hkind := kind_unique (.noItems hblank) h' heq
    cases h' with
    | noItems hblank' =>
      simp only [List.cons_append, List.append_assoc, List.cons.injEq] at heq
      exact ⟨rfl, (blank_unique hblank hblank' hbracket.2 hbracket.2 heq.2).2⟩
    | array hitems' =>
      simp only [List.cons_append, List.append_assoc, List.cons.injEq] at heq
      exact absurd heq.2 (bracket_items hitems' hblank)
    | bool b => cases b <;> cases hkind
    | _ => cases hkind
  | array hitems ih =>
    intro tree' text' rest rest' h' _ _ heq
    have hkind := kind_unique (.array hitems) h' heq
    cases h' with
    | noItems hblank' =>
      simp only [List.cons_append, List.append_assoc, List.cons.injEq] at heq
      exact absurd heq.2.symm (bracket_items hitems hblank')
    | array hitems' =>
      simp only [List.cons_append, List.append_assoc, List.cons.injEq] at heq
      obtain ⟨rfl, hrest⟩ := ih _ _ _ _ hitems' heq.2
      exact ⟨rfl, hrest⟩
    | bool b => cases b <;> cases hkind
    | _ => cases hkind
  | noMembers hblank =>
    intro tree' text' rest rest' h' _ _ heq
    have hkind := kind_unique (.noMembers hblank) h' heq
    cases h' with
    | noMembers hblank' =>
      simp only [List.cons_append, List.append_assoc, List.cons.injEq] at heq
      exact ⟨rfl, (blank_unique hblank hblank' hbrace.2 hbrace.2 heq.2).2⟩
    | object hmembers' =>
      simp only [List.cons_append, List.append_assoc, List.cons.injEq] at heq
      exact absurd heq.2 (brace_members hmembers' hblank)
    | bool b => cases b <;> cases hkind
    | _ => cases hkind
  | object hmembers ih =>
    intro tree' text' rest rest' h' _ _ heq
    have hkind := kind_unique (.object hmembers) h' heq
    cases h' with
    | noMembers hblank' =>
      simp only [List.cons_append, List.append_assoc, List.cons.injEq] at heq
      exact absurd heq.2.symm (brace_members hmembers hblank')
    | object hmembers' =>
      simp only [List.cons_append, List.append_assoc, List.cons.injEq] at heq
      obtain ⟨rfl, hrest⟩ := ih _ _ _ _ hmembers' heq.2
      exact ⟨rfl, hrest⟩
    | bool b => cases b <;> cases hkind
    | _ => cases hkind
  | lastItem hbefore hbehind hitem ih =>
    intro trees' text' rest rest' h' heq
    cases h' with
    | lastItem hbefore' hbehind' hitem' =>
      simp only [List.append_assoc] at heq
      obtain ⟨rfl, _, hrest⟩ := item_unique ih hitem hitem' hbefore hbefore' hbehind hbehind' hbracket
        hbracket heq
      exact ⟨rfl, hrest⟩
    | moreItems hbefore' hbehind' hitem' _ =>
      simp only [List.append_assoc, List.cons_append] at heq
      obtain ⟨_, hends, _⟩ := item_unique ih hitem hitem' hbefore hbefore' hbehind hbehind' hbracket
        hcomma heq
      exact absurd hends (by decide)
  | moreItems hbefore hbehind hitem _ ih ihmore =>
    intro trees' text' rest rest' h' heq
    cases h' with
    | lastItem hbefore' hbehind' hitem' =>
      simp only [List.append_assoc, List.cons_append] at heq
      obtain ⟨_, hends, _⟩ := item_unique ih hitem hitem' hbefore hbefore' hbehind hbehind' hcomma
        hbracket heq
      exact absurd hends (by decide)
    | moreItems hbefore' hbehind' hitem' hmore' =>
      simp only [List.append_assoc, List.cons_append] at heq
      obtain ⟨rfl, _, hrest⟩ := item_unique ih hitem hitem' hbefore hbefore' hbehind hbehind' hcomma
        hcomma heq
      obtain ⟨rfl, hrest⟩ := ihmore _ _ _ _ hmore' hrest
      exact ⟨rfl, hrest⟩
  | lastMember hfront hkey hcolon hbefore hbehind hitem ih =>
    intro trees' text' rest rest' h' heq
    cases h' with
    | lastMember hfront' hkey' hcolon' hbefore' hbehind' hitem' =>
      simp only [List.append_assoc, List.cons_append] at heq
      obtain ⟨hmember, _, hrest⟩ := member_unique ih hitem hitem' hbefore hbefore' hbehind hbehind' hbrace
        hbrace hkey hkey' hfront hfront' hcolon hcolon' heq
      exact ⟨by rw [hmember], hrest⟩
    | moreMembers hfront' hkey' hcolon' hbefore' hbehind' hitem' _ =>
      simp only [List.append_assoc, List.cons_append] at heq
      obtain ⟨_, hends, _⟩ := member_unique ih hitem hitem' hbefore hbefore' hbehind hbehind' hbrace
        hcomma hkey hkey' hfront hfront' hcolon hcolon' heq
      exact absurd hends (by decide)
  | moreMembers hfront hkey hcolon hbefore hbehind hitem _ ih ihmore =>
    intro trees' text' rest rest' h' heq
    cases h' with
    | lastMember hfront' hkey' hcolon' hbefore' hbehind' hitem' =>
      simp only [List.append_assoc, List.cons_append] at heq
      obtain ⟨_, hends, _⟩ := member_unique ih hitem hitem' hbefore hbefore' hbehind hbehind' hcomma
        hbrace hkey hkey' hfront hfront' hcolon hcolon' heq
      exact absurd hends (by decide)
    | moreMembers hfront' hkey' hcolon' hbefore' hbehind' hitem' hmore' =>
      simp only [List.append_assoc, List.cons_append] at heq
      obtain ⟨hmember, _, hrest⟩ := member_unique ih hitem hitem' hbefore hbefore' hbehind hbehind' hcomma
        hcomma hkey hkey' hfront hfront' hcolon hcolon' heq
      obtain ⟨rfl, hrest⟩ := ihmore _ _ _ _ hmore' hrest
      exact ⟨by rw [hmember], hrest⟩

/-- a JSON text has one tree -/
theorem isJson_unique {tree tree' : Tree} {text : Bytes} (h : IsJson loose tree text)
    (h' : IsJson loose tree' text) : tree = tree' := by
  have hends : ∀ behind, Blank behind → Ends behind := by
    intro behind hbehind
    rw [← List.append_nil behind]
    exact ends_blank hbehind fun c hc => by cases hc
  obtain ⟨before, value, behind, hbefore, hbehind, hvalue, htext⟩ := h
  obtain ⟨before', value', behind', hbefore', hbehind', hvalue', rfl⟩ := h'
  have hfront := front_unique hbefore hbefore' hvalue hvalue' htext.symm
  exact (agree hvalue _ _ _ _ hvalue' (hends behind hbehind) (hends behind' hbehind') hfront).1

end Protocol.Cpp
