import FiveProtect.Lib.Utf8
import FiveProtect.Protocol.Accepted
import FiveProtect.Protocol.OneTree

/-!
# Protocol: the texts of a parsed value

The strings and keys that `json::parse` makes of a text, and when they are UTF-8.

* `Piece.text_unique`, `Decodes.unique`   what stands between quotes is read in one way;
* `Paired`             every escaped surrogate is one of a pair;
* `valid_decoded`      a string that is UTF-8 decodes to UTF-8 exactly if it is paired;
* `HasText`, `Kept`    the strings and keys of a value, and those of a tree that come into it;
* `hasText_iff`        the ones are the others, decoded;
* `parsed_texts_valid`   so the texts of the value are UTF-8 exactly if what is kept is paired.
-/

namespace Protocol.Cpp
open LuaPattern (byteOf)

/-! ## pieces -/

theorem unicode_unique {digits digits' x y : Bytes} (h : digits.length = digits'.length)
    (heq : unicode digits ++ x = unicode digits' ++ y) : digits = digits' ∧ x = y := by
  simp only [unicode, List.cons_append, List.cons.injEq, true_and] at heq
  exact List.append_inj heq h

theorem unescape_ne {esc b : UInt8} (h : unescape esc = some b) : esc ≠ byteOf 'u' := by
  rintro rfl
  cases h

namespace Piece

/-- the first piece can be read off -/
theorem text_unique {p q : Piece} (hp : p.Ok) (hq : q.Ok) {x y : Bytes} (h : p.text ++ x = q.text ++ y) :
    p = q ∧ x = y := by
  cases p with
  | plain c =>
    cases q with
    | plain d =>
      injection h with hc hrest
      exact ⟨by rw [hc], hrest⟩
    | escape _ _ =>
      injection h with hc _
      exact absurd hc hp.2
    | unicode _ _ =>
      injection h with hc _
      exact absurd hc hp.2
    | surrogates _ _ _ _ =>
      injection h with hc _
      exact absurd hc hp.2
  | escape esc b =>
    cases q with
    | plain d =>
      injection h with hc _
      exact absurd hc.symm hq.2
    | escape esc' b' =>
      injection h with _ h
      injection h with hesc hrest
      subst hesc
      have hb : b = b' := Option.some.inj (hp.symm.trans hq)
      exact ⟨by rw [hb], hrest⟩
    | unicode _ _ =>
      injection h with _ h
      injection h with hesc _
      exact absurd hesc (unescape_ne hp)
    | surrogates _ _ _ _ =>
      injection h with _ h
      injection h with hesc _
      exact absurd hesc (unescape_ne hp)
  | unicode digits cp =>
    obtain ⟨hlen, hhex, hhigh⟩ := hp
    cases q with
    | plain d =>
      injection h with hc _
      exact absurd hc.symm hq.2
    | escape _ _ =>
      injection h with _ h
      injection h with hesc _
      exact absurd hesc.symm (unescape_ne hq)
    | unicode digits' cp' =>
      obtain ⟨hlen', hhex', _⟩ := hq
      obtain ⟨rfl, hrest⟩ := unicode_unique (hlen.trans hlen'.symm) h
      have hcp : cp = cp' := Option.some.inj (hhex.symm.trans hhex')
      exact ⟨by rw [hcp], hrest⟩
    | surrogates digits' _ high _ =>
      obtain ⟨⟨hlen', hhex', hhigh'⟩, _⟩ := hq
      rw [text, text, List.append_assoc] at h
      obtain ⟨rfl, _⟩ := unicode_unique (hlen.trans hlen'.symm) h
      have hcp : cp = high := Option.some.inj (hhex.symm.trans hhex')
      exact absurd (hcp ▸ hhigh') hhigh
  | surrogates digits digits₂ high low =>
    obtain ⟨⟨hlen, hhex, hhigh⟩, hlen₂, hhex₂, _⟩ := hp
    cases q with
    | plain d =>
      injection h with hc _
      exact absurd hc.symm hq.2
    | escape _ _ =>
      injection h with _ h
      injection h with hesc _
      exact absurd hesc.symm (unescape_ne hq)
    | unicode digits' cp' =>
      obtain ⟨hlen', hhex', hhigh'⟩ := hq
      rw [text, text, List.append_assoc] at h
      obtain ⟨rfl, _⟩ := unicode_unique (hlen.trans hlen'.symm) h
      have hcp : high = cp' := Option.some.inj (hhex.symm.trans hhex')
      exact absurd (hcp ▸ hhigh) hhigh'
    | surrogates digits' digits₂' high' low' =>
      obtain ⟨⟨hlen', hhex', _⟩, hlen₂', hhex₂', _⟩ := hq
      rw [text, text, List.append_assoc, List.append_assoc] at h
      obtain ⟨rfl, hsecond⟩ := unicode_unique (hlen.trans hlen'.symm) h
      obtain ⟨rfl, hrest⟩ := unicode_unique (hlen₂.trans hlen₂'.symm) hsecond
      have hhighs : high = high' := Option.some.inj (hhex.symm.trans hhex')
      have hlows : low = low' := Option.some.inj (hhex₂.symm.trans hhex₂')
      exact ⟨by rw [hhighs, hlows], hrest⟩

theorem text_ne_nil (p : Piece) : p.text ≠ [] := by
  cases p with
  | plain c => exact List.cons_ne_nil _ _
  | escape esc b => exact List.cons_ne_nil _ _
  | unicode digits cp => exact List.cons_ne_nil _ _
  | surrogates digits digits' high low => exact List.cons_ne_nil _ _

theorem pieces_unique {ps qs : List Piece} (hp : ∀ p ∈ ps, p.Ok) (hq : ∀ q ∈ qs, q.Ok)
    (h : ps.flatMap text = qs.flatMap text) : ps = qs := by
  induction ps generalizing qs with
  | nil =>
    cases qs with
    | nil => rfl
    | cons q qs => exact absurd (List.append_eq_nil_iff.mp h.symm).1 q.text_ne_nil
  | cons p ps ih =>
    cases qs with
    | nil => exact absurd (List.append_eq_nil_iff.mp h).1 p.text_ne_nil
    | cons q qs =>
      rw [List.forall_mem_cons] at hp hq
      obtain ⟨rfl, hrest⟩ := text_unique hp.1 hq.1 h
      rw [ih hp.2 hq.2 hrest]

end Piece

theorem Decodes.unique {ps qs : List Piece} {body s t : Bytes} (hs : Decodes ps body s)
    (ht : Decodes qs body t) : ps = qs ∧ s = t := by
  have hpieces : ps = qs := Piece.pieces_unique hs.ok ht.ok (by rw [← hs.text, ht.text])
  exact ⟨hpieces, by rw [hs.decoded, ht.decoded, hpieces]⟩

/-! ## code points -/

theorem hexValue_lt {c : UInt8} {n : Nat} (h : hexValue c = some n) : n < 16 := by
  unfold hexValue at h
  split_ifs at h with h1 h2 h3
  · rw [Bool.and_eq_true, decide_eq_true_eq, decide_eq_true_eq] at h1
    have hc : c.toNat ≤ 57 := UInt8.le_iff_toNat_le.mp h1.2
    injection h with h
    omega
  · rw [Bool.and_eq_true, decide_eq_true_eq, decide_eq_true_eq] at h2
    have hc : c.toNat ≤ 102 := UInt8.le_iff_toNat_le.mp h2.2
    injection h with h
    omega
  · rw [Bool.and_eq_true, decide_eq_true_eq, decide_eq_true_eq] at h3
    have hc : c.toNat ≤ 70 := UInt8.le_iff_toNat_le.mp h3.2
    injection h with h
    omega

theorem hex4_lt {digits : Bytes} {cp : Nat} (hlen : digits.length = 4) (h : hex4 digits = some cp) :
    cp < 0x10000 := by
  obtain ⟨values, hvalues, rfl⟩ := Option.map_eq_some_iff.mp h
  have hlt : ∀ v ∈ values, v < 16 := by
    obtain ⟨values', hvalues', hall⟩ := (Check.mapM_some (P := (· < 16))).mpr fun c hc => by
      obtain ⟨n, hn, _⟩ := (Check.mapM_some (P := fun _ => True)).mp ⟨values, hvalues, fun _ _ => trivial⟩ c hc
      exact ⟨n, hn, hexValue_lt hn⟩
    cases hvalues.symm.trans hvalues'
    exact hall
  have hfold : ∀ (values : List Nat) (out n : Nat), (∀ v ∈ values, v < 16) → out < 2 ^ n →
      values.foldl (fun out digit => out <<< 4 ||| digit) out < 2 ^ (n + 4 * values.length) := by
    intro values
    induction values with
    | nil => exact fun out n _ hout => hout
    | cons v values ih =>
      intro out n hall hout
      rw [List.forall_mem_cons] at hall
      have hstep : out <<< 4 ||| v < 2 ^ (n + 4) := by
        apply Nat.or_lt_two_pow
        · rw [Nat.shiftLeft_eq, Nat.pow_add]
          exact (Nat.mul_lt_mul_right (Nat.two_pow_pos 4)).mpr hout
        · exact Nat.lt_of_lt_of_le hall.1 (Nat.pow_le_pow_right Nat.two_pos (Nat.le_add_left 4 n))
      rw [List.foldl_cons, List.length_cons, Nat.mul_succ, Nat.add_comm (4 * _) 4, ← Nat.add_assoc]
      exact ih _ _ hall.2 hstep
  have hbound := hfold values 0 0 hlt (by decide)
  rwa [Check.mapM_length hvalues, hlen] at hbound

/-- the encoder is right at all its ranges -/
theorem appendUtf8_char {cp : Nat} (h : cp.isValidChar) :
    appendUtf8 cp [] = String.utf8EncodeChar (Char.ofNat cp) := by
  have hval : (Char.ofNat cp).val.toNat = cp := Utf8.toNat_ofNat h
  have hmask : ∀ n : Nat, n &&& 0x3F = n % 0x40 := fun n => Nat.and_two_pow_sub_one_eq_mod n 6
  have hor : ∀ (i : Nat) {b : Nat} (a : Nat), b < 2 ^ i → 2 ^ i * a ||| b = b + 2 ^ i * a := fun i b a hb => by
    rw [← Nat.two_pow_add_eq_or_of_lt hb, Nat.add_comm]
  have htail : ∀ n : Nat, 0x80 ||| n % 0x40 = n % 0x40 + 0x80 := fun n =>
    hor 6 2 (Nat.mod_lt n (by decide))
  have hmax : cp < 0x110000 := by
    rcases h with hlow | ⟨_, hhigh⟩
    · omega
    · exact hhigh
  unfold appendUtf8 String.utf8EncodeChar
  dsimp only
  rw [hval]
  simp only [hmask, htail, Nat.shiftRight_eq_div_pow, List.nil_append]
  by_cases hone : cp ≤ 0x7F
  · rw [if_pos hone, if_pos hone]
  rw [if_neg hone, if_neg hone]
  by_cases htwo : cp ≤ 0x7FF
  · have hfirst : 0xC0 ||| cp / 2 ^ 6 = cp / 64 % 0x20 + 0xC0 := by
      rw [Nat.mod_eq_of_lt (by omega)]
      exact hor 5 6 (by omega)
    rw [if_pos htwo, if_pos htwo, hfirst]
  rw [if_neg htwo, if_neg htwo]
  by_cases hthree : cp ≤ 0xFFFF
  · have hfirst : 0xE0 ||| cp / 2 ^ 12 = cp / 4096 % 0x10 + 0xE0 := by
      rw [Nat.mod_eq_of_lt (by omega)]
      exact hor 4 14 (by omega)
    rw [if_pos hthree, if_pos hthree, hfirst]
  · have hfirst : 0xF0 ||| cp / 2 ^ 18 = cp / 262144 % 0x08 + 0xF0 := by
      rw [Nat.mod_eq_of_lt (by omega)]
      exact hor 3 30 (by omega)
    rw [if_neg hthree, if_neg hthree, hfirst]

/-- the encoding of a low surrogate is none -/
theorem appendUtf8_low {cp : Nat} (h : Low cp) (rest : Bytes) : ¬Utf8.Valid (appendUtf8 cp [] ++ rest) := by
  obtain ⟨hlow, hhigh⟩ := h
  have hfirst : 0xE0 ||| cp >>> 12 = 0xED := by
    have hshift : cp >>> 12 = 13 := by
      rw [Nat.shiftRight_eq_div_pow]
      omega
    rw [hshift]
    rfl
  have hsecond : (0xA0 : UInt8) ≤ UInt8.ofNat (0x80 ||| cp >>> 6 &&& 0x3F) := by
    have hmask : cp >>> 6 &&& 0x3F = cp / 64 % 64 := by
      rw [Nat.shiftRight_eq_div_pow]
      exact Nat.and_two_pow_sub_one_eq_mod _ 6
    have hor : 0x80 ||| cp / 64 % 64 = 0x80 + cp / 64 % 64 :=
      (Nat.two_pow_add_eq_or_of_lt (i := 6) (Nat.mod_lt _ (by decide)) 2).symm
    rw [hmask, hor, UInt8.le_iff_toNat_le, UInt8.toNat_ofNat']
    show 160 ≤ _
    omega
  have hed : UInt8.ofNat 0xED = 0xED := rfl
  unfold appendUtf8
  rw [if_neg (by omega), if_neg (by omega), if_pos (by omega), hfirst, hed, List.nil_append,
    List.cons_append, List.cons_append]
  exact Utf8.surrogate_invalid hsecond _

theorem pair_valid {high low : Nat} (hhigh : High high) (hlow : Low low) : (pair high low).isValidChar := by
  have hpair : pair high low = 0x10000 + (high - 0xD800) * 2 ^ 10 + (low - 0xDC00) :=
    congrArg (fun n => 0x10000 + n + (low - 0xDC00)) (Nat.shiftLeft_eq (high - 0xD800) 10)
  unfold High at hhigh
  unfold Low at hlow
  exact .inr ⟨by omega, by omega⟩

/-! ## what is decoded is UTF-8 or not -/

/-- an escaped low surrogate without a high one before it -/
def Piece.LoneLow : Piece → Prop
  | .unicode _ cp => Low cp
  | _ => False

/-- what stands between quotes has no lone surrogate -/
def Paired (body : Bytes) : Prop :=
  ∃ pieces : List Piece, (∀ piece ∈ pieces, piece.Ok ∧ ¬piece.LoneLow) ∧ body = pieces.flatMap Piece.text

theorem Decodes.paired {pieces : List Piece} {body s : Bytes} (h : Decodes pieces body s) :
    Paired body ↔ ∀ piece ∈ pieces, ¬piece.LoneLow := by
  constructor
  · rintro ⟨pieces', hall, hbody⟩
    have hsame : pieces = pieces' :=
      Piece.pieces_unique h.ok (fun p hp => (hall p hp).1) (by rw [← h.text, hbody])
    rw [hsame]
    exact fun p hp => (hall p hp).2
  · exact fun hall => ⟨pieces, fun p hp => ⟨h.ok p hp, hall p hp⟩, h.text⟩

theorem unicode_ascii {digits : Bytes} {cp : Nat} (h : hex4 digits = some cp) :
    ∀ b ∈ unicode digits, b < 0x80 := by
  intro b hb
  rcases List.mem_cons.mp hb with rfl | hb
  · decide
  rcases List.mem_cons.mp hb with rfl | hb
  · decide
  · have hrange := hexChar_range (isHexChar_of_hex4 h b hb)
    rw [UInt8.lt_iff_toNat_lt]
    show b.toNat < 128
    omega

theorem escapable_ascii {esc : UInt8} (h : esc ∈ escapable) : esc < 0x80 := by
  have hall : (escapable.all fun b => decide (b < 0x80)) = true := by decide
  exact of_decide_eq_true (List.all_eq_true.mp hall esc h)

/-- an escape is ASCII, and stands for a character or for a low surrogate -/
theorem Piece.escaped {piece : Piece} (hok : piece.Ok) : (∃ c, piece = .plain c) ∨
    ((∃ more, piece.text = backslash :: more ∧ ∀ b ∈ more, b < 0x80) ∧
      ((¬piece.LoneLow ∧ ∃ c, piece.decoded = String.utf8EncodeChar c) ∨
        (piece.LoneLow ∧ ∀ rest, ¬Utf8.Valid (piece.decoded ++ rest)))) := by
  cases piece with
  | plain c => exact .inl ⟨c, rfl⟩
  | escape esc b =>
    obtain ⟨hesc, hb⟩ := unescape_ok hok
    refine .inr ⟨⟨[esc], rfl, fun b hb => List.mem_singleton.mp hb ▸ escapable_ascii hesc⟩,
      .inl ⟨id, Char.ofNat b.toNat, ?_⟩⟩
    exact (Utf8.encode_ascii hb).symm
  | unicode digits cp =>
    obtain ⟨hlen, hhex, hhigh⟩ := hok
    refine .inr ⟨⟨_, rfl, fun b hb => unicode_ascii hhex b (List.mem_cons_of_mem _ hb)⟩, ?_⟩
    by_cases hlow : Low cp
    · exact .inr ⟨hlow, appendUtf8_low hlow⟩
    · refine .inl ⟨hlow, _, appendUtf8_char ?_⟩
      have hlt := hex4_lt hlen hhex
      unfold High at hhigh
      unfold Low at hlow
      unfold Nat.isValidChar
      omega
  | surrogates digits digits' high low =>
    obtain ⟨⟨_, hhex, hhigh⟩, _, hhex', hlow⟩ := hok
    refine .inr ⟨⟨_, rfl, fun b hb => ?_⟩, .inl ⟨id, _, appendUtf8_char (pair_valid hhigh hlow)⟩⟩
    have hmem : b ∈ Cpp.unicode digits ++ Cpp.unicode digits' := List.mem_cons_of_mem backslash hb
    rcases List.mem_append.mp hmem with hb | hb
    · exact unicode_ascii hhex b hb
    · exact unicode_ascii hhex' b hb

/-- behind the bytes of a character that is not yet complete -/
theorem valid_pieces {pieces : List Piece} (hok : ∀ piece ∈ pieces, piece.Ok) {front : Bytes}
    (h : Utf8.Valid (front ++ pieces.flatMap Piece.text)) :
    Utf8.Valid (front ++ pieces.flatMap Piece.decoded) ↔ ∀ piece ∈ pieces, ¬piece.LoneLow := by
  induction pieces generalizing front with
  | nil => exact ⟨fun _ p hp => absurd hp List.not_mem_nil, fun _ => h⟩
  | cons piece pieces ih =>
    rw [List.forall_mem_cons] at hok ⊢
    rw [List.flatMap_cons] at h ⊢
    rcases piece.escaped hok.1 with ⟨c, rfl⟩ | ⟨⟨more, htext, hmore⟩, hdecoded⟩
    · have hplain := @ih hok.2 (front ++ [c]) (by rw [List.append_assoc]; exact h)
      rw [List.append_assoc] at hplain
      exact hplain.trans (and_iff_right id).symm
    · rw [htext, List.cons_append] at h
      obtain ⟨hfront, hrest⟩ := Utf8.valid_split (by decide) h
      rw [Utf8.valid_ascii_append hmore] at hrest
      rw [Utf8.valid_append hfront]
      rcases hdecoded with ⟨hpaired, c, hc⟩ | ⟨hlone, hinvalid⟩
      · rw [hc, Utf8.valid_encode, and_iff_right hpaired]
        exact @ih hok.2 [] hrest
      · exact iff_of_false (hinvalid _) fun hall => hall.1 hlone

/-- **A string that is UTF-8 decodes to UTF-8** exactly if its surrogates are paired. -/
theorem valid_decoded {pieces : List Piece} {body s : Bytes} (h : Decodes pieces body s)
    (hbody : Utf8.Valid body) : Utf8.Valid s ↔ Paired body := by
  rw [h.paired, h.decoded]
  rw [h.text] at hbody
  exact @valid_pieces pieces h.ok [] hbody

/-! ## the strings and keys of a value -/

/-- `s` is a string or a key somewhere in a value -/
inductive HasText (s : Bytes) : Value → Prop
  | string : HasText s (.string s)
  | item {items : List Value} {v : Value} : v ∈ items → HasText s v → HasText s (.array items)
  | key {members : List (Bytes × Value)} {v : Value} : (s, v) ∈ members → HasText s (.object members)
  | member {members : List (Bytes × Value)} {key : Bytes} {v : Value} : (key, v) ∈ members →
    HasText s v → HasText s (.object members)

/-- two keys that are decoded to the same bytes -/
def SameKey (a b : Bytes) : Prop := ∃ ps qs s, Decodes ps a s ∧ Decodes qs b s

/-- a string or a key that comes into the value: no later member of its object has the same key -/
inductive Kept (body : Bytes) : Phrase → Prop
  | string : Kept body (.value (.string body))
  | array {trees : List Tree} : Kept body (.items trees) → Kept body (.value (.array trees))
  | object {trees : List (Bytes × Tree)} : Kept body (.members trees) → Kept body (.value (.object trees))
  | item {tree : Tree} {trees : List Tree} : Kept body (.value tree) → Kept body (.items (tree :: trees))
  | laterItem {tree : Tree} {trees : List Tree} : Kept body (.items trees) →
    Kept body (.items (tree :: trees))
  | key {tree : Tree} {trees : List (Bytes × Tree)} : (∀ m ∈ trees, ¬SameKey body m.1) →
    Kept body (.members ((body, tree) :: trees))
  | member {key : Bytes} {tree : Tree} {trees : List (Bytes × Tree)} : (∀ m ∈ trees, ¬SameKey key m.1) →
    Kept body (.value tree) → Kept body (.members ((key, tree) :: trees))
  | laterMember {m : Bytes × Tree} {trees : List (Bytes × Tree)} : Kept body (.members trees) →
    Kept body (.members (m :: trees))

/-- the last member with a key is the one that stays -/
theorem mem_assign {object members : List (Bytes × Value)}
    (h : object.Pairwise fun a b => Value.less a.1 b.1 = true) (m : Bytes × Value) :
    m ∈ assign object members ↔ m ∈ assign [] members ∨ m ∈ object ∧ ∀ m' ∈ members, m'.1 ≠ m.1 := by
  induction members generalizing object with
  | nil => simp [assign]
  | cons x members ih =>
    show m ∈ assign (Value.insertOrAssign x.1 x.2 object) members ↔ m ∈ assign [(x.1, x.2)] members ∨ _
    rw [ih (Value.insertOrAssign_sorted x.1 x.2 h), ih (List.pairwise_singleton _ _),
      Value.mem_insertOrAssign_iff x.1 x.2 h, List.forall_mem_cons, List.mem_singleton]
    constructor
    · rintro (hm | ⟨hm | ⟨hm, hne⟩, hlast⟩)
      · exact .inl (.inl hm)
      · exact .inl (.inr ⟨hm, hlast⟩)
      · exact .inr ⟨hm, fun heq => hne heq.symm, hlast⟩
    · rintro ((hm | ⟨hm, hlast⟩) | ⟨hm, hne, hlast⟩)
      · exact .inl hm
      · exact .inr ⟨.inl hm, hlast⟩
      · exact .inr ⟨.inr ⟨hm, fun heq => hne heq.symm⟩, hlast⟩

theorem mem_assign_cons (x m : Bytes × Value) (members : List (Bytes × Value)) :
    m ∈ assign [] (x :: members) ↔
      m ∈ assign [] members ∨ m = x ∧ ∀ m' ∈ members, m'.1 ≠ x.1 := by
  show m ∈ assign [(x.1, x.2)] members ↔ _
  rw [mem_assign (List.pairwise_singleton _ _), List.mem_singleton]
  refine or_congr_right ⟨?_, ?_⟩
  · rintro ⟨rfl, hlast⟩
    exact ⟨rfl, hlast⟩
  · rintro ⟨rfl, hlast⟩
    exact ⟨rfl, hlast⟩

/-- a string or a key of what is read -/
def HasTextIn (s : Bytes) : Reading → Prop
  | .value _ v => HasText s v
  | .items _ vs => ∃ v ∈ vs, HasText s v
  | .members _ members => ∃ m ∈ assign [] members, s = m.1 ∨ HasText s m.2

def Reading.phrase : Reading → Phrase
  | .value tree _ => .value tree
  | .items trees _ => .items trees
  | .members trees _ => .members trees

/-- the keys of the members, decoded -/
theorem Means.keys {D : Doubles} {trees : List (Bytes × Tree)} {members : List (Bytes × Value)}
    (h : Means D (.members trees members)) {body key : Bytes} {pieces : List Piece}
    (hkey : Decodes pieces body key) :
    (∀ m ∈ members, m.1 ≠ key) ↔ ∀ m ∈ trees, ¬SameKey body m.1 := by
  induction trees generalizing members with
  | nil =>
    cases h
    exact ⟨fun _ m hm => absurd hm List.not_mem_nil, fun _ m hm => absurd hm List.not_mem_nil⟩
  | cons m trees ih =>
    cases h with
    | member hbody _ hmore =>
      rw [List.forall_mem_cons, List.forall_mem_cons, ih hmore]
      refine and_congr_left' (not_congr ⟨fun heq => ?_, fun heq => ?_⟩)
      · cases heq
        exact ⟨_, _, _, hkey, hbody⟩
      · obtain ⟨ps, qs, s, hs, hs'⟩ := heq
        rw [(hkey.unique hs).2, (hbody.unique hs').2]

/-- what is kept was decoded -/
theorem kept_decodes {D : Doubles} {reading : Reading} (h : Means D reading) {body : Bytes}
    (hkept : Kept body reading.phrase) : ∃ pieces s, Decodes pieces body s := by
  induction h with
  | null => cases hkept
  | bool b => cases hkept
  | int _ => cases hkept
  | double _ => cases hkept
  | string hbody =>
    cases hkept
    exact ⟨_, _, hbody⟩
  | array _ ih =>
    cases hkept with
    | array hkept => exact ih hkept
  | object _ ih =>
    cases hkept with
    | object hkept => exact ih hkept
  | noItems => cases hkept
  | item _ _ ih ihmore =>
    cases hkept with
    | item hkept => exact ih hkept
    | laterItem hkept => exact ihmore hkept
  | noMembers => cases hkept
  | member hkey _ _ ih ihmore =>
    cases hkept with
    | key _ => exact ⟨_, _, hkey⟩
    | member _ hkept => exact ih hkept
    | laterMember hkept => exact ihmore hkept

/-- **The texts of a value** are the ones that are kept, decoded. -/
theorem hasText_iff {D : Doubles} {reading : Reading} (h : Means D reading) (s : Bytes) :
    HasTextIn s reading ↔ ∃ body pieces, Kept body reading.phrase ∧ Decodes pieces body s := by
  induction h with
  | null => exact iff_of_false nofun fun ⟨_, _, hkept, _⟩ => nomatch hkept
  | bool b => exact iff_of_false nofun fun ⟨_, _, hkept, _⟩ => nomatch hkept
  | int _ => exact iff_of_false nofun fun ⟨_, _, hkept, _⟩ => nomatch hkept
  | double _ => exact iff_of_false nofun fun ⟨_, _, hkept, _⟩ => nomatch hkept
  | string hbody =>
    constructor
    · intro hs
      cases hs
      exact ⟨_, _, .string, hbody⟩
    · rintro ⟨body, pieces, hkept, hdecodes⟩
      cases hkept
      rw [(hdecodes.unique hbody).2]
      exact .string
  | array _ ih =>
    constructor
    · intro hs
      cases hs with
      | item hv hs =>
        obtain ⟨body, pieces, hkept, hdecodes⟩ := ih.mp ⟨_, hv, hs⟩
        exact ⟨body, pieces, .array hkept, hdecodes⟩
    · rintro ⟨body, pieces, hkept, hdecodes⟩
      cases hkept with
      | array hkept =>
        obtain ⟨v, hv, hs⟩ := ih.mpr ⟨body, pieces, hkept, hdecodes⟩
        exact .item hv hs
  | object _ ih =>
    constructor
    · intro hs
      cases hs with
      | key hm =>
        obtain ⟨body, pieces, hkept, hdecodes⟩ := ih.mp ⟨_, hm, .inl rfl⟩
        exact ⟨body, pieces, .object hkept, hdecodes⟩
      | member hm hs =>
        obtain ⟨body, pieces, hkept, hdecodes⟩ := ih.mp ⟨_, hm, .inr hs⟩
        exact ⟨body, pieces, .object hkept, hdecodes⟩
    · rintro ⟨body, pieces, hkept, hdecodes⟩
      cases hkept with
      | object hkept =>
        obtain ⟨m, hm, rfl | hs⟩ := ih.mpr ⟨body, pieces, hkept, hdecodes⟩
        · exact .key hm
        · exact .member hm hs
  | noItems =>
    refine iff_of_false ?_ fun ⟨_, _, hkept, _⟩ => nomatch hkept
    rintro ⟨v, hv, _⟩
    exact absurd hv List.not_mem_nil
  | item _ _ ih ihmore =>
    constructor
    · rintro ⟨v, hv, hs⟩
      rcases List.mem_cons.mp hv with rfl | hv
      · obtain ⟨body, pieces, hkept, hdecodes⟩ := ih.mp hs
        exact ⟨body, pieces, .item hkept, hdecodes⟩
      · obtain ⟨body, pieces, hkept, hdecodes⟩ := ihmore.mp ⟨v, hv, hs⟩
        exact ⟨body, pieces, .laterItem hkept, hdecodes⟩
    · rintro ⟨body, pieces, hkept, hdecodes⟩
      cases hkept with
      | item hkept => exact ⟨_, List.mem_cons_self, ih.mpr ⟨body, pieces, hkept, hdecodes⟩⟩
      | laterItem hkept =>
        obtain ⟨v, hv, hs⟩ := ihmore.mpr ⟨body, pieces, hkept, hdecodes⟩
        exact ⟨v, List.mem_cons_of_mem _ hv, hs⟩
  | noMembers =>
    refine iff_of_false ?_ fun ⟨_, _, hkept, _⟩ => nomatch hkept
    rintro ⟨m, hm, _⟩
    exact absurd hm List.not_mem_nil
  | member hkey _ hmore ih ihmore =>
    have hlast := hmore.keys hkey
    constructor
    · rintro ⟨m, hm, hs⟩
      rcases (mem_assign_cons _ m _).mp hm with hm | ⟨rfl, hstays⟩
      · obtain ⟨body, pieces, hkept, hdecodes⟩ := ihmore.mp ⟨m, hm, hs⟩
        exact ⟨body, pieces, .laterMember hkept, hdecodes⟩
      · rcases hs with rfl | hs
        · exact ⟨_, _, .key (hlast.mp hstays), hkey⟩
        · obtain ⟨body, pieces, hkept, hdecodes⟩ := ih.mp hs
          exact ⟨body, pieces, .member (hlast.mp hstays) hkept, hdecodes⟩
    · rintro ⟨body, pieces, hkept, hdecodes⟩
      cases hkept with
      | key hstays =>
        exact ⟨_, (mem_assign_cons _ _ _).mpr (.inr ⟨rfl, hlast.mpr hstays⟩), .inl (hdecodes.unique hkey).2⟩
      | member hstays hkept =>
        exact ⟨_, (mem_assign_cons _ _ _).mpr (.inr ⟨rfl, hlast.mpr hstays⟩),
          .inr (ih.mpr ⟨body, pieces, hkept, hdecodes⟩)⟩
      | laterMember hkept =>
        obtain ⟨m, hm, hs⟩ := ihmore.mpr ⟨body, pieces, hkept, hdecodes⟩
        exact ⟨m, (mem_assign_cons _ m _).mpr (.inl hm), hs⟩

/-! ## the strings of a text that is UTF-8 -/

theorem blank_ascii {blank : Bytes} (h : Blank blank) : ∀ b ∈ blank, b < 0x80 := by
  intro b hb
  have hws := h b hb
  rw [isWs] at hws
  simp only [Bool.or_eq_true, decide_eq_true_eq] at hws
  rcases hws with ((rfl | rfl) | rfl) | rfl
  · decide
  · decide
  · decide
  · decide

theorem valid_blank {blank rest : Bytes} (h : Blank blank) (hvalid : Utf8.Valid (blank ++ rest)) :
    Utf8.Valid rest := (Utf8.valid_ascii_append (blank_ascii h) rest).mp hvalid

theorem valid_quotes {body rest : Bytes} (h : Utf8.Valid (quotes body ++ rest)) :
    Utf8.Valid body ∧ Utf8.Valid rest := by
  rw [quotes, List.cons_append, List.append_assoc, List.singleton_append] at h
  exact Utf8.valid_split (by decide) ((Utf8.valid_ascii (by decide) _).mp h)

/-- a value with white space behind it, and what follows the delimiter -/
theorem valid_item {text behind more : Bytes} {c : UInt8} (hc : c < 0x80) (hbehind : Blank behind)
    (h : Utf8.Valid (text ++ (behind ++ c :: more))) : Utf8.Valid text ∧ Utf8.Valid more := by
  rw [← List.append_assoc] at h
  obtain ⟨hitem, hmore⟩ := Utf8.valid_split hc h
  exact ⟨Utf8.valid_append_ascii (blank_ascii hbehind) hitem, hmore⟩

/-- the strings and keys of a text that is UTF-8 are UTF-8 -/
theorem kept_valid {phrase : Phrase} {text : Bytes} (h : Spells loose phrase text)
    (hvalid : Utf8.Valid text) {body : Bytes} (hkept : Kept body phrase) : Utf8.Valid body := by
  induction h with
  | null => cases hkept
  | bool b => cases hkept
  | number _ => cases hkept
  | string _ =>
    cases hkept
    rw [← List.append_nil (quotes body)] at hvalid
    exact (valid_quotes hvalid).1
  | noItems _ =>
    cases hkept with
    | array hkept => cases hkept
  | array _ ih =>
    cases hkept with
    | array hkept =>
      have hitems := (Utf8.valid_ascii (by decide) _).mp hvalid
      exact ih (Utf8.valid_split (by decide) hitems).1 hkept
  | noMembers _ =>
    cases hkept with
    | object hkept => cases hkept
  | object _ ih =>
    cases hkept with
    | object hkept =>
      have hmembers := (Utf8.valid_ascii (by decide) _).mp hvalid
      exact ih (Utf8.valid_split (by decide) hmembers).1 hkept
  | lastItem hbefore hbehind _ ih =>
    cases hkept with
    | item hkept => exact ih (Utf8.valid_append_ascii (blank_ascii hbehind) (valid_blank hbefore hvalid)) hkept
    | laterItem hkept => cases hkept
  | moreItems hbefore hbehind _ _ ih ihmore =>
    obtain ⟨hitem, hmore⟩ := valid_item (by decide) hbehind (valid_blank hbefore hvalid)
    cases hkept with
    | item hkept => exact ih hitem hkept
    | laterItem hkept => exact ihmore hmore hkept
  | lastMember hbefore _ hcolon hfront hbehind _ ih =>
    obtain ⟨hkey, hrest⟩ := valid_quotes (valid_blank hbefore hvalid)
    have hitem := valid_blank hfront ((Utf8.valid_ascii (by decide) _).mp (valid_blank hcolon hrest))
    cases hkept with
    | key _ => exact hkey
    | member _ hkept => exact ih (Utf8.valid_append_ascii (blank_ascii hbehind) hitem) hkept
    | laterMember hkept => cases hkept
  | moreMembers hbefore _ hcolon hfront hbehind _ _ ih ihmore =>
    obtain ⟨hkey, hrest⟩ := valid_quotes (valid_blank hbefore hvalid)
    have hitems := valid_blank hfront ((Utf8.valid_ascii (by decide) _).mp (valid_blank hcolon hrest))
    obtain ⟨hitem, hmore⟩ := valid_item (by decide) hbehind hitems
    cases hkept with
    | key _ => exact hkey
    | member _ hkept => exact ih hitem hkept
    | laterMember hkept => exact ihmore hmore hkept

/-- and so are those of a whole text -/
theorem IsJson.keptValid {tree : Tree} {text : Bytes} (h : IsJson loose tree text) (hvalid : Utf8.Valid text)
    {body : Bytes} (hkept : Kept body (.value tree)) : Utf8.Valid body := by
  obtain ⟨before, value, behind, hbefore, hbehind, hvalue, rfl⟩ := h
  exact kept_valid hvalue (Utf8.valid_append_ascii (blank_ascii hbehind) (valid_blank hbefore hvalid)) hkept

/-- **Parsed strings.** All strings and keys of the value of a text that is UTF-8 are UTF-8 exactly if those
of the tree of the text that come into the value have their escaped surrogates in pairs. -/
theorem parsed_texts_valid (D : Doubles) (text : Bytes) (v : Value) (hvalid : Utf8.Valid text)
    (h : parse D text = .ok v) : ∃ tree, (∀ tree', IsJson loose tree' text ↔ tree' = tree) ∧
      ((∀ s, HasText s v → Utf8.Valid s) ↔ ∀ body, Kept body (.value tree) → Paired body) := by
  obtain ⟨tree, htree, hmeans⟩ := parse_reads h
  refine ⟨tree, fun tree' => ⟨fun h' => isJson_unique h' htree, fun heq => heq ▸ htree⟩, ?_, ?_⟩
  · intro hall body hkept
    obtain ⟨pieces, s, hdecodes⟩ := kept_decodes hmeans hkept
    have hs := hall s ((hasText_iff hmeans s).mpr ⟨body, pieces, hkept, hdecodes⟩)
    exact (valid_decoded hdecodes (htree.keptValid hvalid hkept)).mp hs
  · intro hall s hs
    obtain ⟨body, pieces, hkept, hdecodes⟩ := (hasText_iff hmeans s).mp hs
    exact (valid_decoded hdecodes (htree.keptValid hvalid hkept)).mpr (hall body hkept)

theorem parsed_texts_valid_accent : ∃ tree,
    (∀ tree', IsJson loose tree' (Text.utf8 "[\"\\u00e9\"]") ↔ tree' = tree) ∧
      ((∀ s, HasText s (.array [.string [0xC3, 0xA9]]) → Utf8.Valid s) ↔
        ∀ body, Kept body (.value tree) → Paired body) := by
  have hparse : parse ⟨fun _ => [], fun _ => none⟩ (Text.utf8 "[\"\\u00e9\"]") =
      .ok (.array [.string [0xC3, 0xA9]]) := by rfl
  exact parsed_texts_valid _ _ _ (Utf8.valid_utf8 _) hparse

/-- a low surrogate on its own is encoded -/
theorem parsed_lone_low : (∀ D : Doubles,
      parse D (Text.utf8 "\"\\udc00\"") = .ok (.string [0xED, 0xB0, 0x80])) ∧
    Utf8.Valid (Text.utf8 "\"\\udc00\"") ∧ HasText [0xED, 0xB0, 0x80] (.string [0xED, 0xB0, 0x80]) ∧
    ¬Utf8.Valid [0xED, 0xB0, 0x80] :=
  ⟨fun _ => rfl, Utf8.valid_utf8 _, .string, Utf8.surrogate_invalid (by decide) _⟩

end Protocol.Cpp
