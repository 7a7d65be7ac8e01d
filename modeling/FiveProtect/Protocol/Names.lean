import FiveProtect.Lib.Text
import FiveProtect.Protocol.Registry
import Mathlib.Data.List.Chain
import Mathlib.Logic.Relation

/-!
# Protocol: the names of the generated code

`pascalCase` and `snakeCase` of `generators/emit.ts`, which make the enumerators and the Rust fields.  Nothing
looks at the names they make.  Two names are made one exactly if edits lead from one to the other that the
two functions are blind to.

* `CaseMapping`            what is relied on of `toUpperCase` and `toLowerCase`;
* `PascalEdit`             a separator between words, or the case of the first letter of a word;
* `SnakeEdit`              an underscore before a capital, a run of hyphens or white space, or upper case;
* `pascalCase_eq_iff`, `snakeCase_eq_iff`   these edits, and no others, are lost;
* `namesDistinct_iff`      so a registry keeps its names apart if no two of them are the same up to edits.
-/

namespace Protocol.Ir

/-! ## emit.ts -/

/-- `/[_\-\s]/` -/
def isSeparator (c : Char) : Bool := c == '_' || c == '-' || Text.isJsSpace c

/-- `/[-\s]/` -/
def isDash (c : Char) : Bool := c == '-' || Text.isJsSpace c

/-- `/[a-z0-9]/` -/
def isSmall (c : Char) : Bool := (97 ≤ c.toNat && c.toNat ≤ 122) || (48 ≤ c.toNat && c.toNat ≤ 57)

/-- `/[A-Z]/` -/
def isCapital (c : Char) : Bool := 65 ≤ c.toNat && c.toNat ≤ 90

/-- the case mappings of Unicode: a character may become several, a text is made small as a whole -/
structure CaseMapping where
  toUpper : Char → List Char
  toLower : List Char → List Char
  /-- a separator has no case -/
  upper_word : ∀ c, ∀ d ∈ toUpper c, isSeparator d = true → d = c
  /-- what has been made large is not made larger -/
  upper_upper : ∀ c, ∃ d behind, toUpper c = d :: behind ∧ toUpper d = [d]
  /-- what has been made small is not made smaller -/
  lower_lower : ∀ l, toLower (toLower l) = toLower l
  lower_small : ∀ l, ∀ c ∈ toLower l, isCapital c = false
  lower_word : ∀ l, ∀ c ∈ toLower l, isDash c = true → c ∈ l

section
variable (m : CaseMapping)

/-- `part.charAt(0).toUpperCase()`, where `charAt` takes one code unit of a pair, which has no case -/
def upperFirst (c : Char) : List Char := if c.toNat < 0x10000 then m.toUpper c else [c]

def capitalise : List Char → List Char
  | [] => []
  | c :: rest => upperFirst m c ++ rest

def pascalCase (value : List Char) : List Char :=
  ((value.splitOnP isSeparator).filter (· ≠ [])).flatMap (capitalise m)

/-- `.replace(/([a-z0-9])([A-Z])/g, '$1_$2')` -/
def separateHumps : List Char → List Char
  | c :: d :: rest =>
    if isSmall c && isCapital d then c :: '_' :: d :: separateHumps rest else c :: separateHumps (d :: rest)
  | rest => rest

/-- `.replace(/[-\s]+/g, '_')`; `inside` a run, the underscore has been written -/
def replaceDashes : Bool → List Char → List Char
  | _, [] => []
  | inside, c :: rest =>
    if isDash c then if inside then replaceDashes true rest else '_' :: replaceDashes true rest
    else c :: replaceDashes false rest

def snakeCase (value : List Char) : List Char := m.toLower (replaceDashes false (separateHumps value))

end

/-! ## the last character -/

/-- a property of the last character, or of what comes before a text that is empty -/
def lastIs (p : Char → Bool) (first : Bool) (l : List Char) : Bool := (l.getLast?.map p).getD first

theorem lastIs_cons (p : Char → Bool) (first : Bool) (c : Char) (l : List Char) :
    lastIs p first (c :: l) = lastIs p (p c) l := by
  unfold lastIs
  rw [List.getLast?_cons]
  cases l.getLast? with
  | none => rfl
  | some d => rfl

theorem lastIs_append_singleton (p : Char → Bool) (first : Bool) (l : List Char) (c : Char) :
    lastIs p first (l ++ [c]) = p c := by
  unfold lastIs
  rw [List.getLast?_append, List.getLast?_singleton]
  rfl

/-! ## pascalCase -/

section
variable (m : CaseMapping)

/-- character by character; `start` says that a word starts -/
def pascalFrom : Bool → List Char → List Char
  | _, [] => []
  | start, c :: rest =>
    if isSeparator c then pascalFrom true rest
    else (if start then upperFirst m c else [c]) ++ pascalFrom false rest

/-- an edit that `pascalCase` is blind to: the case of a letter that starts a word; a separator that is not
needed, since nothing stands behind it, another separator, or what has no other case -/
inductive PascalEdit : List Char → List Char → Prop
  | case (before : List Char) (c : Char) (behind : List Char) : lastIs isSeparator true before = true →
    isSeparator c = false → PascalEdit (before ++ c :: behind) (before ++ (upperFirst m c ++ behind))
  | separator (before : List Char) (c : Char) (behind : List Char) : isSeparator c = true →
    (∀ d, behind.head? = some d → isSeparator d = true ∨ upperFirst m d = [d]) →
    PascalEdit (before ++ c :: behind) (before ++ behind)

end

section
variable {m : CaseMapping}

theorem pascalFrom_splitOnP {l head : List Char} {parts : List (List Char)}
    (h : l.splitOnP isSeparator = head :: parts) :
    pascalFrom m false l = head ++ (parts.filter (· ≠ [])).flatMap (capitalise m) ∧
      pascalFrom m true l = capitalise m head ++ (parts.filter (· ≠ [])).flatMap (capitalise m) := by
  induction l generalizing head parts with
  | nil =>
    cases h
    exact ⟨rfl, rfl⟩
  | cons c l ih =>
    obtain ⟨head', parts', hl⟩ := List.exists_cons_of_ne_nil (List.splitOnP_ne_nil isSeparator l)
    obtain ⟨hinside, hstart⟩ := ih hl
    rw [List.splitOnP_cons_eq_if_modifyHead, hl] at h
    unfold pascalFrom
    by_cases hc : isSeparator c = true
    · rw [if_pos hc] at h
      cases h
      rw [if_pos hc, if_pos hc, hstart]
      have hskip : capitalise m head' ++ (parts'.filter (· ≠ [])).flatMap (capitalise m) =
          ((head' :: parts').filter (· ≠ [])).flatMap (capitalise m) := by
        cases head' with
        | nil => rfl
        | cons d head' => rfl
      exact ⟨hskip, hskip⟩
    · rw [if_neg hc] at h
      cases h
      rw [if_neg hc, if_neg hc, hinside]
      refine ⟨rfl, ?_⟩
      show upperFirst m c ++ (head' ++ _) = (upperFirst m c ++ head') ++ _
      rw [List.append_assoc]

theorem pascalCase_eq (l : List Char) : pascalCase m l = pascalFrom m true l := by
  obtain ⟨head, parts, hl⟩ := List.exists_cons_of_ne_nil (List.splitOnP_ne_nil isSeparator l)
  rw [(pascalFrom_splitOnP hl).2, pascalCase, hl]
  cases head with
  | nil => rfl
  | cons c head => rfl

theorem pascalFrom_append (start : Bool) (a b : List Char) :
    pascalFrom m start (a ++ b) = pascalFrom m start a ++ pascalFrom m (lastIs isSeparator start a) b := by
  induction a generalizing start with
  | nil => rfl
  | cons c a ih =>
    rw [List.cons_append, pascalFrom, pascalFrom, lastIs_cons]
    by_cases hc : isSeparator c = true
    · rw [if_pos hc, if_pos hc, ih, hc]
    · rw [if_neg hc, if_neg hc, ih, Bool.eq_false_of_not_eq_true hc, List.append_assoc]

/-- a text without separators is kept inside a word -/
theorem pascalFrom_plain {l : List Char} (h : ∀ c ∈ l, isSeparator c = false) (rest : List Char) :
    pascalFrom m false (l ++ rest) = l ++ pascalFrom m false rest := by
  induction l with
  | nil => rfl
  | cons c l ih =>
    rw [List.cons_append, pascalFrom, if_neg (by rw [h c List.mem_cons_self]; decide),
      ih fun d hd => h d (List.mem_cons_of_mem _ hd)]
    rfl

/-- a first letter is made no larger than it has been made, and no separator comes of it -/
theorem upperFirst_first {c : Char} (hc : isSeparator c = false) : ∃ d behind,
    upperFirst m c = d :: behind ∧ upperFirst m d = [d] ∧ ∀ x ∈ d :: behind, isSeparator x = false := by
  unfold upperFirst
  by_cases hbmp : c.toNat < 0x10000
  · rw [if_pos hbmp]
    obtain ⟨d, behind, hupper, hd⟩ := m.upper_upper c
    refine ⟨d, behind, hupper, ?_, fun x hx => ?_⟩
    · rw [hd, ite_self]
    · rw [← hupper] at hx
      by_contra hsep
      rw [Bool.not_eq_false] at hsep
      rw [m.upper_word c x hx hsep, hc] at hsep
      cases hsep
  · rw [if_neg hbmp]
    refine ⟨c, [], rfl, if_neg hbmp, fun x hx => ?_⟩
    rw [List.mem_singleton.mp hx]
    exact hc

/-- what has no other case is the same at the start of a word -/
theorem pascalFrom_keeps {l : List Char}
    (h : ∀ d, l.head? = some d → isSeparator d = true ∨ upperFirst m d = [d]) (start : Bool) :
    pascalFrom m start l = pascalFrom m true l := by
  cases l with
  | nil => rfl
  | cons d l =>
    unfold pascalFrom
    rcases h d rfl with hd | hd
    · rw [if_pos hd, if_pos hd]
    · rw [hd, ite_self, ite_self]

theorem PascalEdit.pascalFrom_eq {a b : List Char} (h : PascalEdit m a b) :
    pascalFrom m true a = pascalFrom m true b := by
  cases h with
  | case before c behind hstart hc =>
    obtain ⟨d, more, hupper, hd, hplain⟩ := upperFirst_first (m := m) hc
    have hword : ∀ x rest, isSeparator x = false →
        pascalFrom m true (x :: rest) = upperFirst m x ++ pascalFrom m false rest := by
      intro x rest hx
      rw [pascalFrom, if_neg (by rw [hx]; decide), if_pos rfl]
    rw [pascalFrom_append, pascalFrom_append, hstart, hword c behind hc, hupper]
    show _ = _ ++ pascalFrom m true (d :: (more ++ behind))
    rw [hword d _ (hplain d List.mem_cons_self), hd,
      pascalFrom_plain fun x hx => hplain x (List.mem_cons_of_mem _ hx)]
    rfl
  | separator before c behind hc hkeeps =>
    rw [pascalFrom_append, pascalFrom_append, pascalFrom, if_pos hc, pascalFrom_keeps hkeeps (lastIs _ _ _)]

/-- the first character of what is made is not made larger -/
theorem pascalFrom_head (l : List Char) : ∀ d, (pascalFrom m true l).head? = some d →
    isSeparator d = true ∨ upperFirst m d = [d] := by
  induction l with
  | nil =>
    intro d hd
    cases hd
  | cons c l ih =>
    intro d hd
    rw [pascalFrom] at hd
    by_cases hc : isSeparator c = true
    · rw [if_pos hc] at hd
      exact ih d hd
    · rw [if_neg hc, if_pos rfl] at hd
      obtain ⟨x, more, hupper, hx, _⟩ := upperFirst_first (m := m) (Bool.eq_false_of_not_eq_true hc)
      rw [hupper] at hd
      cases hd
      exact .inr hx

/-- edits lead from a text to what is made of it -/
theorem pascal_edits (l before : List Char) : ∀ start, lastIs isSeparator true before = start →
    Relation.EqvGen (PascalEdit m) (before ++ l) (before ++ pascalFrom m start l) := by
  induction l generalizing before with
  | nil => exact fun start _ => .refl _
  | cons c l ih =>
    intro start hstart
    have hsplit : before ++ c :: l = (before ++ [c]) ++ l := (List.append_cons _ _ _)
    rw [pascalFrom]
    by_cases hc : isSeparator c = true
    · rw [if_pos hc]
      have hmore := ih (before ++ [c]) true (by rw [lastIs_append_singleton, hc])
      rw [← hsplit, ← List.append_cons] at hmore
      exact hmore.trans _ _ _ (.rel _ _ (.separator before c _ hc (pascalFrom_head l)))
    · rw [if_neg hc]
      have hplain := Bool.eq_false_of_not_eq_true hc
      cases start with
      | false =>
        have hmore := ih (before ++ [c]) false (by rw [lastIs_append_singleton, hplain])
        rw [← hsplit, ← List.append_cons] at hmore
        exact hmore
      | true =>
        obtain ⟨d, more, hupper, _, hwords⟩ := upperFirst_first (m := m) hplain
        have hlast : lastIs isSeparator true (before ++ upperFirst m c) = false := by
          obtain ⟨rest, x, hx⟩ : ∃ rest x, upperFirst m c = rest ++ [x] := by
            rw [hupper]
            exact ⟨_, _, (List.dropLast_concat_getLast (List.cons_ne_nil d more)).symm⟩
          rw [hx, ← List.append_assoc, lastIs_append_singleton]
          apply hwords
          rw [← hupper, hx]
          exact List.mem_append_right _ List.mem_cons_self
        have hmore := ih (before ++ upperFirst m c) false hlast
        rw [List.append_assoc, List.append_assoc] at hmore
        exact (Relation.EqvGen.rel _ _ (.case before c l hstart hplain)).trans _ _ _ hmore

/-- **`pascalCase` is blind to these edits, and to no others.** -/
theorem pascalCase_eq_iff {a b : List Char} :
    pascalCase m a = pascalCase m b ↔ Relation.EqvGen (PascalEdit m) a b := by
  rw [pascalCase_eq, pascalCase_eq]
  constructor
  · intro h
    have ha := pascal_edits (m := m) a [] true rfl
    have hb := pascal_edits (m := m) b [] true rfl
    rw [h] at ha
    exact ha.trans _ _ _ (hb.symm _ _)
  · intro h
    induction h with
    | rel a b h => exact h.pascalFrom_eq
    | refl a => rfl
    | symm a b _ ih => exact ih.symm
    | trans a b c _ _ hab hbc => exact hab.trans hbc

end

/-! ## snakeCase -/

/-- two characters between which `snakeCase` writes an underscore -/
def Hump (c d : Char) : Prop := isSmall c = true ∧ isCapital d = true

instance (c d : Char) : Decidable (Hump c d) := inferInstanceAs (Decidable (_ ∧ _))

/-- an edit that `snakeCase` is blind to: an underscore in a hump; a run of hyphens and white space, as a whole,
for an underscore; upper case, where there is neither a hump nor such a run -/
inductive SnakeEdit (m : CaseMapping) : List Char → List Char → Prop
  | hump (before : List Char) (c d : Char) (behind : List Char) : Hump c d →
    SnakeEdit m (before ++ c :: d :: behind) (before ++ c :: '_' :: d :: behind)
  | dashes (before run behind : List Char) : lastIs isDash false before = false → run ≠ [] →
    (∀ c ∈ run, isDash c = true) → (∀ d, behind.head? = some d → isDash d = false) →
    SnakeEdit m (before ++ (run ++ behind)) (before ++ '_' :: behind)
  | lower (l : List Char) : l.IsChain (fun c d => ¬Hump c d) → (∀ c ∈ l, isDash c = false) →
    SnakeEdit m l (m.toLower l)

theorem capital_not_small {c : Char} (h : isCapital c = true) : isSmall c = false := by
  simp only [isCapital, isSmall, Bool.and_eq_true, decide_eq_true_eq, Bool.or_eq_false_iff,
    Bool.and_eq_false_iff, decide_eq_false_iff_not] at h ⊢
  omega

theorem not_hump_underscore (c : Char) : ¬Hump c '_' ∧ ¬Hump '_' c :=
  ⟨fun h => absurd h.2 (by decide), fun h => absurd h.1 (by decide)⟩

/-- hyphens and white space are neither small nor capital -/
theorem isDash_caseless {c : Char} (h : isDash c = true) : isSmall c = false ∧ isCapital c = false := by
  simp only [isDash, Text.isJsSpace, Bool.or_eq_true, beq_iff_eq, List.contains_cons, Bool.and_eq_true,
    decide_eq_true_eq, List.contains_nil, Bool.or_false] at h
  simp only [isSmall, isCapital, Bool.or_eq_false_iff, Bool.and_eq_false_iff, decide_eq_false_iff_not]
  rcases h with rfl | h
  · decide
  · omega

theorem separateHumps_cons (c d : Char) (l : List Char) : separateHumps (c :: d :: l) =
    if Hump c d then c :: '_' :: separateHumps (d :: l) else c :: separateHumps (d :: l) := by
  have hiff : (isSmall c && isCapital d) = true ↔ Hump c d := Bool.and_eq_true_iff
  rw [separateHumps]
  by_cases h : Hump c d
  · rw [if_pos h, if_pos (hiff.mpr h)]
    -- a capital starts no hump
    have hd := capital_not_small h.2
    cases l with
    | nil => rfl
    | cons e l =>
      show _ = c :: '_' :: separateHumps (d :: e :: l)
      rw [separateHumps, hd, Bool.false_and, if_neg Bool.false_ne_true]
  · rw [if_neg h, if_neg fun hh => h (hiff.mp hh)]

theorem separateHumps_head? (l : List Char) : (separateHumps l).head? = l.head? := by
  cases l with
  | nil => rfl
  | cons c l =>
    cases l with
    | nil => rfl
    | cons d l =>
      rw [separateHumps_cons]
      split
      · rfl
      · rfl

/-- two texts may be separated apart unless there is a hump between them -/
theorem separateHumps_append {a b : List Char}
    (h : ∀ c d, a.getLast? = some c → b.head? = some d → ¬Hump c d) :
    separateHumps (a ++ b) = separateHumps a ++ separateHumps b := by
  induction a with
  | nil => rfl
  | cons c a ih =>
    cases a with
    | nil =>
      cases b with
      | nil => rfl
      | cons d b =>
        show separateHumps (c :: d :: b) = c :: separateHumps (d :: b)
        rw [separateHumps_cons, if_neg (h c d rfl rfl)]
    | cons d a =>
      have hrest := ih fun x y hx hy => h x y (by rw [List.getLast?_cons_cons]; exact hx) hy
      show separateHumps (c :: d :: (a ++ b)) = _
      rw [separateHumps_cons, separateHumps_cons, ← List.cons_append, hrest]
      split
      · rfl
      · rfl

/-- and a hump between them is separated -/
theorem separateHumps_hump {c d : Char} (h : Hump c d) (before behind : List Char) :
    separateHumps (before ++ c :: d :: behind) =
      separateHumps (before ++ [c]) ++ '_' :: separateHumps (d :: behind) := by
  induction before with
  | nil =>
    show separateHumps (c :: d :: behind) = c :: '_' :: separateHumps (d :: behind)
    rw [separateHumps_cons, if_pos h]
  | cons x before ih =>
    cases before with
    | nil =>
      show separateHumps (x :: c :: d :: behind) = separateHumps [x, c] ++ '_' :: separateHumps (d :: behind)
      rw [separateHumps_cons, separateHumps_cons c d, separateHumps_cons x c [], if_pos h]
      split
      · rfl
      · rfl
    | cons y before =>
      show separateHumps (x :: y :: (before ++ c :: d :: behind)) =
        separateHumps (x :: y :: (before ++ [c])) ++ _
      rw [separateHumps_cons, separateHumps_cons, ← List.cons_append, ih]
      split
      · rfl
      · rfl

theorem separateHumps_getLast? (l : List Char) : (separateHumps l).getLast? = l.getLast? := by
  induction l with
  | nil => rfl
  | cons c l ih =>
    cases l with
    | nil => rfl
    | cons d l =>
      rw [separateHumps_cons, List.getLast?_cons_cons, ← ih]
      have hhead := separateHumps_head? (d :: l)
      cases hrest : separateHumps (d :: l) with
      | nil =>
        rw [hrest] at hhead
        cases hhead
      | cons x rest =>
        split
        · rw [List.getLast?_cons_cons, List.getLast?_cons_cons]
        · rw [List.getLast?_cons_cons]

/-- where there is no hump, nothing is separated -/
theorem separateHumps_chain {l : List Char} (h : l.IsChain fun c d => ¬Hump c d) : separateHumps l = l := by
  induction l with
  | nil => rfl
  | cons c l ih =>
    cases l with
    | nil => rfl
    | cons d l =>
      rw [List.isChain_cons_cons] at h
      rw [separateHumps_cons, if_neg h.1, ih h.2]

/-- and afterwards there is none -/
theorem chain_separateHumps (l : List Char) : (separateHumps l).IsChain fun c d => ¬Hump c d := by
  induction l with
  | nil => exact .nil
  | cons c l ih =>
    cases l with
    | nil => exact .singleton c
    | cons d l =>
      rw [separateHumps_cons]
      split
      · exact .cons_cons (not_hump_underscore c).1 (List.isChain_cons.mpr
          ⟨fun x _ => (not_hump_underscore x).2, ih⟩)
      · rename_i hno
        refine List.isChain_cons.mpr ⟨fun x hx => ?_, ih⟩
        rw [separateHumps_head?] at hx
        cases hx
        exact hno

theorem replaceDashes_append (inside : Bool) (a b : List Char) :
    replaceDashes inside (a ++ b) = replaceDashes inside a ++ replaceDashes (lastIs isDash inside a) b := by
  induction a generalizing inside with
  | nil => rfl
  | cons c a ih =>
    rw [List.cons_append, replaceDashes, replaceDashes, lastIs_cons]
    by_cases hc : isDash c = true
    · rw [if_pos hc, if_pos hc, ih, hc]
      cases inside with
      | true => rfl
      | false => rfl
    · rw [if_neg hc, if_neg hc, ih, Bool.eq_false_of_not_eq_true hc]
      rfl

/-- a run is one underscore -/
theorem replaceDashes_run {run : List Char} (h : ∀ c ∈ run, isDash c = true) :
    replaceDashes true run = [] ∧ (run ≠ [] → replaceDashes false run = ['_']) := by
  induction run with
  | nil => exact ⟨rfl, fun hne => absurd rfl hne⟩
  | cons c run ih =>
    have hrest := (ih fun d hd => h d (List.mem_cons_of_mem _ hd)).1
    rw [replaceDashes, replaceDashes, if_pos (h c List.mem_cons_self), if_pos (h c List.mem_cons_self), hrest]
    exact ⟨rfl, fun _ => rfl⟩

/-- a run ends where something else begins -/
theorem replaceDashes_other {l : List Char} (h : ∀ d, l.head? = some d → isDash d = false) (inside : Bool) :
    replaceDashes inside l = replaceDashes false l := by
  cases l with
  | nil => rfl
  | cons d l =>
    have hd : ¬isDash d = true := by
      rw [h d rfl]
      decide
    rw [replaceDashes, replaceDashes, if_neg hd, if_neg hd]

theorem replaceDashes_plain {l : List Char} (h : ∀ c ∈ l, isDash c = false) : replaceDashes false l = l := by
  induction l with
  | nil => rfl
  | cons c l ih =>
    rw [replaceDashes, if_neg (by rw [h c List.mem_cons_self]; decide),
      ih fun d hd => h d (List.mem_cons_of_mem _ hd)]

theorem mem_replaceDashes {inside : Bool} {l : List Char} {c : Char} (hc : c ∈ replaceDashes inside l) :
    isDash c = false := by
  induction l generalizing inside with
  | nil => exact absurd hc List.not_mem_nil
  | cons d l ih =>
    rw [replaceDashes] at hc
    split at hc
    · split at hc
      · exact ih hc
      · rcases List.mem_cons.mp hc with rfl | hc
        · decide
        · exact ih hc
    · rename_i hd
      rcases List.mem_cons.mp hc with rfl | hc
      · exact Bool.eq_false_of_not_eq_true hd
      · exact ih hc

/-- an underscore for a run makes no hump -/
theorem chain_replaceDashes {l : List Char} (h : l.IsChain fun c d => ¬Hump c d) (inside : Bool) :
    (replaceDashes inside l).IsChain fun c d => ¬Hump c d := by
  induction l generalizing inside with
  | nil => exact .nil
  | cons c l ih =>
    have hl := (List.isChain_cons.mp h).2
    rw [replaceDashes]
    split
    · split
      · exact ih hl true
      · exact List.isChain_cons.mpr ⟨fun x _ => (not_hump_underscore x).2, ih hl true⟩
    · refine List.isChain_cons.mpr ⟨fun x hx => ?_, ih hl false⟩
      cases l with
      | nil => cases hx
      | cons d l =>
        rw [replaceDashes] at hx
        split at hx
        · cases hx
          exact (not_hump_underscore c).1
        · cases hx
          exact (List.isChain_cons_cons.mp h).1

section
variable {m : CaseMapping}

/-- what is left of a run, wherever it stands -/
theorem replaceDashes_separate {before run behind : List Char} (hbefore : lastIs isDash false before = false)
    (hne : run ≠ []) (hrun : ∀ c ∈ run, isDash c = true)
    (hbehind : ∀ d, behind.head? = some d → isDash d = false) :
    replaceDashes false (separateHumps (before ++ (run ++ behind))) =
      replaceDashes false (separateHumps before) ++ '_' :: replaceDashes false (separateHumps behind) := by
  have hcaseless : ∀ c ∈ run, isSmall c = false ∧ isCapital c = false := fun c hc =>
    isDash_caseless (hrun c hc)
  have hsmall : ∀ c d, run.getLast? = some c → behind.head? = some d → ¬Hump c d := by
    intro c d hc _ hh
    rw [Hump, (hcaseless c (List.mem_of_getLast? hc)).1] at hh
    exact Bool.false_ne_true hh.1
  have hcapital : ∀ c d, before.getLast? = some c → (run ++ behind).head? = some d → ¬Hump c d := by
    intro c d _ hd hh
    obtain ⟨x, rest, rfl⟩ := List.exists_cons_of_ne_nil hne
    cases hd
    rw [Hump, (hcaseless d List.mem_cons_self).2] at hh
    exact Bool.false_ne_true hh.2
  have hchain : run.IsChain fun c d => ¬Hump c d := by
    apply List.Pairwise.isChain
    apply List.pairwise_of_forall_mem_list
    intro c hc d _ hh
    rw [Hump, (hcaseless c hc).1] at hh
    exact Bool.false_ne_true hh.1
  have hlast : lastIs isDash false (separateHumps before) = false := by
    unfold lastIs
    rw [separateHumps_getLast?]
    exact hbefore
  rw [separateHumps_append hcapital, separateHumps_append hsmall, separateHumps_chain hchain,
    replaceDashes_append, replaceDashes_append, hlast, (replaceDashes_run hrun).2 hne]
  rw [replaceDashes_other (l := separateHumps behind)]
  · rfl
  · intro d hd
    rw [separateHumps_head?] at hd
    exact hbehind d hd

/-- an underscore that stands where no hump is -/
theorem replaceDashes_underscore (before behind : List Char) :
    replaceDashes false (separateHumps (before ++ '_' :: behind)) =
      replaceDashes false (separateHumps before) ++ '_' :: replaceDashes false (separateHumps behind) := by
  have hbefore : ∀ c d, before.getLast? = some c → ('_' :: behind).head? = some d → ¬Hump c d := by
    intro c d _ hd
    cases hd
    exact (not_hump_underscore c).1
  have hbehind : separateHumps ('_' :: behind) = '_' :: separateHumps behind := by
    cases behind with
    | nil => rfl
    | cons d behind => rw [separateHumps_cons, if_neg (not_hump_underscore d).2]
  rw [separateHumps_append hbefore, hbehind, replaceDashes_append, replaceDashes, if_neg (by decide)]

theorem SnakeEdit.snakeCase_eq {a b : List Char} (h : SnakeEdit m a b) : snakeCase m a = snakeCase m b := by
  cases h with
  | hump before c d behind hhump =>
    apply congrArg fun l => m.toLower (replaceDashes false l)
    have hunderscore : separateHumps ('_' :: d :: behind) = '_' :: separateHumps (d :: behind) := by
      rw [separateHumps_cons, if_neg (not_hump_underscore d).2]
    rw [separateHumps_hump hhump, ← hunderscore]
    rw [List.append_cons before c ('_' :: d :: behind)]
    refine (separateHumps_append fun x y _ hy => ?_).symm
    cases hy
    exact (not_hump_underscore x).1
  | dashes before run behind hbefore hne hrun hbehind =>
    apply congrArg m.toLower
    rw [replaceDashes_separate hbefore hne hrun hbehind, replaceDashes_underscore]
  | lower _ hchain hplain =>
    have hsmall : (m.toLower a).IsChain fun c d => ¬Hump c d := by
      apply List.Pairwise.isChain
      apply List.pairwise_of_forall_mem_list
      intro c _ d hd hh
      rw [Hump, m.lower_small a d hd] at hh
      exact Bool.false_ne_true hh.2
    have hdashes : ∀ c ∈ m.toLower a, isDash c = false := by
      intro c hc
      by_contra hdash
      rw [Bool.not_eq_false] at hdash
      have hmem := hplain c (m.lower_word a c hc hdash)
      rw [hdash] at hmem
      cases hmem
    rw [snakeCase, snakeCase, separateHumps_chain hchain, separateHumps_chain hsmall,
      replaceDashes_plain hplain, replaceDashes_plain hdashes, m.lower_lower]

theorem humps_edits (l before : List Char) :
    Relation.EqvGen (SnakeEdit m) (before ++ l) (before ++ separateHumps l) := by
  induction l generalizing before with
  | nil => exact .refl _
  | cons c l ih =>
    cases l with
    | nil => exact .refl _
    | cons d l =>
      rw [separateHumps_cons]
      split
      · rename_i h
        have hmore := ih (before ++ [c, '_'])
        rw [List.append_assoc, List.append_assoc] at hmore
        exact (Relation.EqvGen.rel _ _ (.hump before c d l h)).trans _ _ _ hmore
      · have hmore := ih (before ++ [c])
        rw [← List.append_cons, ← List.append_cons] at hmore
        exact hmore

theorem dashes_edits (n : Nat) : ∀ (l before : List Char), l.length ≤ n →
    lastIs isDash false before = false →
    Relation.EqvGen (SnakeEdit m) (before ++ l) (before ++ replaceDashes false l) := by
  induction n with
  | zero =>
    intro l before hl _
    rw [List.length_eq_zero_iff.mp (Nat.le_zero.mp hl)]
    exact .refl _
  | succ n ih =>
    intro l before hl hbefore
    cases l with
    | nil => exact .refl _
    | cons c l =>
      by_cases hc : isDash c = true
      · -- the whole run is one edit
        have hrun : ∀ x ∈ c :: l.takeWhile isDash, isDash x = true := by
          intro x hx
          rcases List.mem_cons.mp hx with rfl | hx
          · exact hc
          · exact List.all_eq_true.mp List.all_takeWhile x hx
        have hbehind : ∀ d, (l.dropWhile isDash).head? = some d → isDash d = false := by
          intro d hd
          have hnot := List.head?_dropWhile_not isDash l
          rw [hd] at hnot
          exact hnot
        have hsplit : c :: l = (c :: l.takeWhile isDash) ++ l.dropWhile isDash := by
          rw [List.cons_append, List.takeWhile_append_dropWhile]
        have hreplaced : replaceDashes false (c :: l) = '_' :: replaceDashes false (l.dropWhile isDash) := by
          rw [hsplit, replaceDashes_append, (replaceDashes_run hrun).2 (List.cons_ne_nil _ _),
            replaceDashes_other hbehind]
          rfl
        have hlength : (l.dropWhile isDash).length ≤ n := by
          have hle := (List.dropWhile_suffix (p := isDash) (l := l)).length_le
          rw [List.length_cons] at hl
          omega
        have hedit := SnakeEdit.dashes (m := m) before (c :: l.takeWhile isDash) (l.dropWhile isDash) hbefore
          (List.cons_ne_nil _ _) hrun hbehind
        have hmore := ih (l.dropWhile isDash) (before ++ ['_']) hlength (lastIs_append_singleton ..)
        rw [← List.append_cons, ← List.append_cons] at hmore
        rw [hreplaced, hsplit]
        exact (Relation.EqvGen.rel _ _ hedit).trans _ _ _ hmore
      · have hmore := ih l (before ++ [c]) (Nat.le_of_succ_le_succ hl)
          (by rw [lastIs_append_singleton, Bool.eq_false_of_not_eq_true hc])
        rw [← List.append_cons, ← List.append_cons] at hmore
        rw [replaceDashes, if_neg hc]
        exact hmore

/-- edits lead from a name to what is made of it -/
theorem snake_edits (l : List Char) : Relation.EqvGen (SnakeEdit m) l (snakeCase m l) := by
  have hhumps := humps_edits (m := m) l []
  have hdashes := dashes_edits (m := m) _ (separateHumps l) [] (le_refl _) rfl
  have hlower := SnakeEdit.lower (m := m) (replaceDashes false (separateHumps l))
    (chain_replaceDashes (chain_separateHumps l) false) fun c hc => mem_replaceDashes hc
  exact (hhumps.trans _ _ _ hdashes).trans _ _ _ (.rel _ _ hlower)

/-- **`snakeCase` is blind to these edits, and to no others.** -/
theorem snakeCase_eq_iff {a b : List Char} :
    snakeCase m a = snakeCase m b ↔ Relation.EqvGen (SnakeEdit m) a b := by
  constructor
  · intro h
    have ha := snake_edits (m := m) a
    have hb := snake_edits (m := m) b
    rw [h] at ha
    exact ha.trans _ _ _ (hb.symm _ _)
  · intro h
    induction h with
    | rel a b h => exact h.snakeCase_eq
    | refl a => rfl
    | symm a b _ ih => exact ih.symm
    | trans a b c _ _ hab hbc => exact hab.trans hbc

end

/-! ## registries -/

section
variable (m : CaseMapping)

/-- the enumerators of each enum are different, and so are the Rust fields of each struct -/
def Registry.NamesDistinct (reg : Registry) : Prop :=
  (∀ e ∈ reg.enums, (e.values.map fun value => pascalCase m value.toList).Nodup) ∧
    ∀ s ∈ reg.structs, (s.fields.map fun f => snakeCase m f.name.toList).Nodup

/-- no edits lead from a value to another of its enum, or from a field to another of its struct -/
def Registry.KeptApart (reg : Registry) : Prop :=
  (∀ e ∈ reg.enums, e.values.Pairwise fun a b => ¬Relation.EqvGen (PascalEdit m) a.toList b.toList) ∧
    ∀ s ∈ reg.structs, s.fields.Pairwise fun f g =>
      ¬Relation.EqvGen (SnakeEdit m) f.name.toList g.name.toList

/-- **The names of a registry stay distinct** exactly if no two of one enum or struct are the same up to edits. -/
theorem namesDistinct_iff (reg : Registry) : reg.NamesDistinct m ↔ reg.KeptApart m := by
  unfold Registry.NamesDistinct Registry.KeptApart
  simp only [List.Nodup, List.pairwise_map, ne_eq, pascalCase_eq_iff, snakeCase_eq_iff]

end

/-! ## ASCII -/

theorem toUpper_cases (c : Char) : c.toUpper = c ∧ ¬(97 ≤ c.toNat ∧ c.toNat ≤ 122) ∨
    97 ≤ c.toNat ∧ c.toNat ≤ 122 ∧ c.toUpper.toNat = c.toNat - 32 := by
  unfold Char.toUpper
  split
  · rename_i h
    have hlo : 97 ≤ c.toNat := UInt32.le_iff_toNat_le.mp h.1
    have hhi : c.toNat ≤ 122 := UInt32.le_iff_toNat_le.mp h.2
    refine .inr ⟨hlo, hhi, ?_⟩
    show (c.val + ('A'.val - 'a'.val)).toNat = c.toNat - 32
    rw [UInt32.toNat_add]
    show (c.toNat + 4294967264) % 4294967296 = c.toNat - 32
    omega
  · rename_i h
    exact .inl ⟨rfl, fun hc => h ⟨UInt32.le_iff_toNat_le.mpr hc.1, UInt32.le_iff_toNat_le.mpr hc.2⟩⟩

theorem toLower_cases (c : Char) : c.toLower = c ∧ ¬(65 ≤ c.toNat ∧ c.toNat ≤ 90) ∨
    65 ≤ c.toNat ∧ c.toNat ≤ 90 ∧ c.toLower.toNat = c.toNat + 32 := by
  unfold Char.toLower
  split
  · rename_i h
    have hlo : 65 ≤ c.toNat := UInt32.le_iff_toNat_le.mp h.1
    have hhi : c.toNat ≤ 90 := UInt32.le_iff_toNat_le.mp h.2
    refine .inr ⟨hlo, hhi, ?_⟩
    show (c.val + ('a'.val - 'A'.val)).toNat = c.toNat + 32
    rw [UInt32.toNat_add]
    show (c.toNat + 32) % 4294967296 = c.toNat + 32
    omega
  · rename_i h
    exact .inl ⟨rfl, fun hc => h ⟨UInt32.le_iff_toNat_le.mpr hc.1, UInt32.le_iff_toNat_le.mpr hc.2⟩⟩

/-- letters are no separators -/
theorem letter_plain : ((List.range 26).all fun n =>
    !isSeparator (Char.ofNat (65 + n)) && !isSeparator (Char.ofNat (97 + n))) = true := by decide

theorem letter_not_separator {c : Char} (h : (65 ≤ c.toNat ∧ c.toNat ≤ 90) ∨ (97 ≤ c.toNat ∧ c.toNat ≤ 122)) :
    isSeparator c = false := by
  have hall := List.all_eq_true.mp letter_plain
  rcases h with h | h
  · have hc := hall (c.toNat - 65) (List.mem_range.mpr (by omega))
    rw [show 65 + (c.toNat - 65) = c.toNat by omega, Char.ofNat_toNat, Bool.and_eq_true] at hc
    exact Bool.not_eq_true' _ ▸ hc.1
  · have hc := hall (c.toNat - 97) (List.mem_range.mpr (by omega))
    rw [show 97 + (c.toNat - 97) = c.toNat by omega, Char.ofNat_toNat, Bool.and_eq_true] at hc
    exact Bool.not_eq_true' _ ▸ hc.2

/-- the case mapping on texts in ASCII -/
def CaseMapping.ascii : CaseMapping where
  toUpper := fun c => [c.toUpper]
  toLower := fun l => l.map Char.toLower
  upper_word := by
    intro c d hd hsep
    rw [List.mem_singleton.mp hd] at hsep ⊢
    rcases toUpper_cases c with h | h
    · exact h.1
    · rw [letter_not_separator (.inl (by omega))] at hsep
      cases hsep
  upper_upper := by
    intro c
    refine ⟨c.toUpper, [], rfl, congrArg (fun d => [d]) ?_⟩
    rcases toUpper_cases c.toUpper with h | h
    · exact h.1
    · rcases toUpper_cases c with hc | hc
      · rw [hc.1] at h
        omega
      · omega
  lower_lower := by
    intro l
    rw [List.map_map]
    refine List.map_congr_left fun c _ => ?_
    show c.toLower.toLower = c.toLower
    rcases toLower_cases c.toLower with h | h
    · exact h.1
    · rcases toLower_cases c with hc | hc
      · rw [hc.1] at h
        omega
      · omega
  lower_small := by
    intro l d hd
    obtain ⟨c, _, rfl⟩ := List.mem_map.mp hd
    rw [isCapital, Bool.and_eq_false_iff, decide_eq_false_iff_not, decide_eq_false_iff_not]
    rcases toLower_cases c with hc | hc
    · rw [hc.1]
      omega
    · omega
  lower_word := by
    intro l d hd hdash
    obtain ⟨c, hc, rfl⟩ := List.mem_map.mp hd
    rcases toLower_cases c with h | h
    · rw [h.1]
      exact hc
    · have hsep : isSeparator c.toLower = false := letter_not_separator (.inr (by omega))
      rw [isDash] at hdash
      rw [isSeparator, Bool.or_assoc, hdash] at hsep
      cases (Bool.or_true _).symm.trans hsep

/-! ## names that become one -/

def clashing : Registry where
  enums := [⟨"Access", ["read-only", "read_only"]⟩]
  structs := [⟨"Server", [⟨"serverName", .bool⟩, ⟨"server_name", .bool⟩]⟩]
  constants := []

theorem clashing_built : Built clashing :=
  .struct (.enum .empty (rfl : defineEnum ⟨"Access", ["read-only", "read_only"]⟩ ⟨[], [], []⟩ = .ok _))
    (rfl : defineStruct ⟨"Server", [⟨"serverName", .bool⟩, ⟨"server_name", .bool⟩]⟩ _ = .ok clashing)

/-- the registry is accepted, and neither its enumerators nor its fields stay distinct -/
theorem names_clash : Built clashing ∧ validateRegistry clashing = .ok () ∧
    ¬(∀ e ∈ clashing.enums, (e.values.map fun value => pascalCase .ascii value.toList).Nodup) ∧
    ¬(∀ s ∈ clashing.structs, (s.fields.map fun f => snakeCase .ascii f.name.toList).Nodup) := by
  refine ⟨clashing_built, by decide, fun h => ?_, fun h => ?_⟩
  · exact absurd (h _ List.mem_cons_self) (by decide)
  · exact absurd (h _ List.mem_cons_self) (by decide)

end Protocol.Ir
