import Mathlib.Data.List.Infix
import Mathlib.Data.List.TakeWhile

/-!
# URLs cut into their parts

RFC 3986 cuts a URL by its delimiters: the scheme ends at the first `:`, after `//` the authority ends at
the first `/`, `?` or `#`, the userinfo ends at the last `@` of the authority, and the port is the digits
after the last `:` of what is left.  The characters may be of any type that has the ASCII ones.

* `splitLast`          a text cut at the last occurrence of a character;
* `Parts`, `read`      the parts of a URL;
* `read_scheme`        a URL that is written out to its authority;
* `cutPort_host`       when the host is a given name;
* `read_map`           a map that keeps the delimiters maps the parts.
-/

namespace Url

/-! ## the last occurrence -/

/-- a text is cut at the last of its occurrences -/
theorem exists_last {α : Type} {d : α} {text : List α} (h : d ∈ text) :
    ∃ before after, text = before ++ d :: after ∧ d ∉ after := by
  obtain ⟨after, before, heq, hafter⟩ := List.eq_append_cons_of_mem (List.mem_reverse.mpr h)
  refine ⟨before.reverse, after.reverse, ?_, mt List.mem_reverse.mp hafter⟩
  rw [← List.reverse_reverse text, heq, List.reverse_append, List.reverse_cons, List.append_assoc]
  rfl

section
variable {α β : Type} [DecidableEq α] [DecidableEq β]

/-- what is before the last `d`, and what is after it -/
def splitLast (d : α) : List α → Option (List α × List α)
  | [] => none
  | c :: text =>
    match splitLast d text with
    | some (before, after) => some (c :: before, after)
    | none => if c = d then some ([], text) else none

theorem splitLast_some {d : α} {text : List α} {cut : List α × List α} (h : splitLast d text = some cut) :
    text = cut.1 ++ d :: cut.2 := by
  induction text generalizing cut with
  | nil => cases h
  | cons c text ih =>
    unfold splitLast at h
    split at h
    · rename_i before after hcut
      cases h
      rw [ih hcut]
      rfl
    · split at h
      · rename_i hc
        cases h
        rw [hc]
        rfl
      · cases h

theorem splitLast_none {d : α} {text : List α} (h : d ∉ text) : splitLast d text = none := by
  cases hcut : splitLast d text with
  | none => rfl
  | some cut => exact absurd (splitLast_some hcut ▸ List.mem_append_right _ List.mem_cons_self) h

theorem splitLast_eq {d : α} {after : List α} (hafter : d ∉ after) (before : List α) :
    splitLast d (before ++ d :: after) = some (before, after) := by
  induction before with
  | nil =>
    rw [List.nil_append]
    unfold splitLast
    rw [splitLast_none hafter]
    exact if_pos rfl
  | cons b before ih =>
    rw [List.cons_append]
    unfold splitLast
    rw [ih]

theorem splitLast_map {f : α → β} {d : α} {e : β} (hf : ∀ c, f c = e ↔ c = d) (text : List α) :
    splitLast e (text.map f) =
      (splitLast d text).map fun cut => (cut.1.map f, cut.2.map f) := by
  induction text with
  | nil => rfl
  | cons c text ih =>
    rw [List.map_cons]
    unfold splitLast
    rw [ih]
    cases splitLast d text with
    | some cut => rfl
    | none =>
      by_cases hc : c = d
      · rw [if_pos hc]
        simp [(hf c).mpr hc]
      · rw [if_neg hc]
        simp [mt (hf c).mp hc]

end

/-! ## the parts -/

structure Parts (α : Type) where
  scheme : List α
  userinfo : Option (List α)
  host : List α
  port : Option (List α)
  deriving DecidableEq

def Parts.map {α β : Type} (f : α → β) (parts : Parts α) : Parts β where
  scheme := parts.scheme.map f
  userinfo := parts.userinfo.map (List.map f)
  host := parts.host.map f
  port := parts.port.map (List.map f)

section
variable {α β : Type} [DecidableEq α] [DecidableEq β] (of : Char → α)

def endsAuthority (c : α) : Bool := c = of '/' || c = of '?' || c = of '#'

def digits : List Char := ['0', '1', '2', '3', '4', '5', '6', '7', '8', '9']

def isDigit (c : α) : Bool := (digits.map of).contains c

/-- the userinfo of an authority, and its host and port -/
def cutUserinfo (authority : List α) : Option (List α) × List α :=
  match splitLast (of '@') authority with
  | some (userinfo, rest) => (some userinfo, rest)
  | none => (none, authority)

/-- the host, and the port -/
def cutPort (rest : List α) : List α × Option (List α) :=
  match splitLast (of ':') rest with
  | some (host, port) => if port.all (isDigit of) then (host, some port) else (rest, none)
  | none => (rest, none)

def ofAuthority (scheme authority : List α) : Parts α where
  scheme := scheme
  userinfo := (cutUserinfo of authority).1
  host := (cutPort of (cutUserinfo of authority).2).1
  port := (cutPort of (cutUserinfo of authority).2).2

/-- the authority that a text starts with -/
def authorityOf (rest : List α) : List α := rest.takeWhile fun c => !endsAuthority of c

def read (text : List α) : Option (Parts α) :=
  ([of ':', of '/', of '/'].isPrefixOf? (text.dropWhile (· ≠ of ':'))).map fun rest =>
    ofAuthority of (text.takeWhile (· ≠ of ':')) (authorityOf of rest)

/-- a URL that is written out to its authority -/
theorem read_scheme {scheme : List α} (h : of ':' ∉ scheme) (rest : List α) :
    read of (scheme ++ of ':' :: of '/' :: of '/' :: rest) =
      some (ofAuthority of scheme (authorityOf of rest)) := by
  have hall : ∀ c ∈ scheme, (decide (c ≠ of ':')) = true := by
    intro c hc
    refine decide_eq_true fun heq => h (heq ▸ hc)
  unfold read
  rw [List.dropWhile_append_of_pos hall, List.takeWhile_append_of_pos hall,
    List.dropWhile_cons_of_neg (by simp), List.takeWhile_cons_of_neg (by simp), List.append_nil]
  have hcut : [of ':', of '/', of '/'].isPrefixOf? (of ':' :: of '/' :: of '/' :: rest) = some rest :=
    List.isPrefixOf?_eq_some_iff_append_eq.mpr rfl
  rw [hcut, Option.map_some]

theorem authorityOf_plain {name : List α} (h : ∀ c ∈ name, (!endsAuthority of c) = true) (rest : List α) :
    authorityOf of (name ++ rest) = name ++ authorityOf of rest :=
  List.takeWhile_append_of_pos h

theorem authorityOf_append {path : List α} (h : path.head? = some (of '/')) (rest : List α) :
    authorityOf of (rest ++ path) = authorityOf of rest := by
  unfold authorityOf
  induction rest with
  | nil =>
    cases path with
    | nil => cases h
    | cons c path =>
      rw [Option.some.inj h, List.nil_append, List.takeWhile_cons_of_neg (by simp [endsAuthority])]
      rfl
  | cons c rest ih => rw [List.cons_append, List.takeWhile_cons, List.takeWhile_cons, ih]

theorem cutUserinfo_none {authority : List α} (h : of '@' ∉ authority) :
    cutUserinfo of authority = (none, authority) := by
  unfold cutUserinfo
  rw [splitLast_none h]

theorem cutUserinfo_last {rest : List α} (h : of '@' ∉ rest) (userinfo : List α) :
    cutUserinfo of (userinfo ++ of '@' :: rest) = (some userinfo, rest) := by
  unfold cutUserinfo
  rw [splitLast_eq h]

/-- nothing, or a `:` and digits -/
def IsPort (text : List α) : Prop :=
  text = [] ∨ ∃ port, text = of ':' :: port ∧ port.all (isDigit of) = true

/-- the host of a text is a name if nothing but a port follows it -/
theorem cutPort_host {name : List α} (hname : of ':' ∉ name) (hcolon : isDigit of (of ':') = false)
    (rest : List α) : (cutPort of rest).1 = name ↔ ∃ port, rest = name ++ port ∧ IsPort of port := by
  have hdigits : ∀ {port : List α}, port.all (isDigit of) = true → of ':' ∉ port := by
    intro port hport hmem
    rw [List.all_eq_true.mp hport _ hmem] at hcolon
    cases hcolon
  constructor
  · unfold cutPort
    intro h
    split at h
    · rename_i host port hcut
      have hrest : rest = host ++ of ':' :: port := splitLast_some hcut
      split at h
      · rename_i hport
        have hhost : host = name := h
        exact ⟨of ':' :: port, hhost ▸ hrest, .inr ⟨port, rfl, hport⟩⟩
      · have hname' : rest = name := h
        exact ⟨[], by rw [List.append_nil, hname'], .inl rfl⟩
    · have hname' : rest = name := h
      exact ⟨[], by rw [List.append_nil, hname'], .inl rfl⟩
  · rintro ⟨text, rfl, rfl | ⟨port, rfl, hport⟩⟩
    · unfold cutPort
      rw [List.append_nil, splitLast_none hname]
    · unfold cutPort
      rw [splitLast_eq (hdigits hport)]
      dsimp only
      rw [if_pos hport]

/-! ## letter case and other maps -/

theorem isPrefixOf?_map {f : α → α} {keys : List α} (hkeys : ∀ d ∈ keys, ∀ c, f c = d ↔ c = d) (text : List α) :
    keys.isPrefixOf? (text.map f) = (keys.isPrefixOf? text).map (List.map f) := by
  apply Option.ext
  intro rest
  rw [List.isPrefixOf?_eq_some_iff_append_eq, Option.map_eq_some_iff]
  simp only [List.isPrefixOf?_eq_some_iff_append_eq]
  constructor
  · intro h
    obtain ⟨l, tail, rfl, hl, htail⟩ := List.map_eq_append_iff.mp h.symm
    have hfix : l.map f = l.map id := by
      refine List.map_congr_left fun c hc => ((hkeys (f c) ?_ c).mp rfl).symm
      rw [← hl]
      exact List.mem_map_of_mem hc
    rw [hl, List.map_id] at hfix
    exact ⟨tail, by rw [hfix], htail⟩
  · rintro ⟨tail, rfl, rfl⟩
    have hfix : keys.map f = keys.map id :=
      List.map_congr_left fun d hd => (hkeys d hd d).mpr rfl
    rw [List.map_append, hfix, List.map_id]

/-- the map keeps the delimiters and the digits apart from everything else -/
def Keeps (f : α → α) : Prop :=
  ∀ d ∈ ':' :: '/' :: '?' :: '#' :: '@' :: digits, ∀ c, f c = of d ↔ c = of d

variable {of} {f : α → α} (hf : Keeps of f)
include hf

theorem Keeps.isDigit (c : α) : isDigit of (f c) = isDigit of c := by
  rw [Bool.eq_iff_iff]
  unfold Url.isDigit
  rw [List.contains_iff_mem, List.contains_iff_mem, List.mem_map, List.mem_map]
  constructor
  · rintro ⟨d, hd, h⟩
    exact ⟨d, hd, ((hf d (by simp [hd]) c).mp h.symm).symm⟩
  · rintro ⟨d, hd, h⟩
    exact ⟨d, hd, ((hf d (by simp [hd]) c).mpr h.symm).symm⟩

theorem Keeps.endsAuthority (c : α) : endsAuthority of (f c) = endsAuthority of c := by
  unfold Url.endsAuthority
  rw [decide_eq_decide.mpr (hf '/' (by simp) c), decide_eq_decide.mpr (hf '?' (by simp) c),
    decide_eq_decide.mpr (hf '#' (by simp) c)]

theorem cutUserinfo_map (authority : List α) :
    cutUserinfo of (authority.map f) =
      ((cutUserinfo of authority).1.map (List.map f), (cutUserinfo of authority).2.map f) := by
  unfold cutUserinfo
  rw [splitLast_map (hf '@' (by simp))]
  cases splitLast (of '@') authority with
  | none => rfl
  | some cut => rfl

theorem cutPort_map (rest : List α) :
    cutPort of (rest.map f) = ((cutPort of rest).1.map f, (cutPort of rest).2.map (List.map f)) := by
  unfold cutPort
  rw [splitLast_map (hf ':' (by simp))]
  cases splitLast (of ':') rest with
  | none => rfl
  | some cut =>
    have hall : (cut.2.map f).all (isDigit of) = cut.2.all (isDigit of) := by
      rw [List.all_map]
      congr 1
      exact funext hf.isDigit
    dsimp only [Option.map_some]
    rw [hall]
    split <;> rfl

theorem ofAuthority_map (scheme authority : List α) :
    ofAuthority of (scheme.map f) (authority.map f) = (ofAuthority of scheme authority).map f := by
  unfold ofAuthority Parts.map
  rw [cutUserinfo_map hf, cutPort_map hf]

theorem authorityOf_map (rest : List α) :
    authorityOf of (rest.map f) = (authorityOf of rest).map f := by
  unfold authorityOf
  rw [List.takeWhile_map]
  congr 2
  exact funext fun c => congrArg Bool.not (hf.endsAuthority c)

/-- the parts of a mapped URL -/
theorem read_map (text : List α) : read of (text.map f) = (read of text).map (Parts.map f) := by
  have hcolon : (fun c => decide (c ≠ of ':')) ∘ f = fun c => decide (c ≠ of ':') :=
    funext fun c => decide_eq_decide.mpr (not_congr (hf ':' (by simp) c))
  unfold read
  have hkeys : ∀ d ∈ [of ':', of '/', of '/'], ∀ c, f c = d ↔ c = d := by
    simp only [List.mem_cons, List.not_mem_nil, or_false]
    rintro d (rfl | rfl | rfl)
    · exact hf ':' (by simp)
    · exact hf '/' (by simp)
    · exact hf '/' (by simp)
  rw [List.dropWhile_map, List.takeWhile_map, hcolon, isPrefixOf?_map hkeys, Option.map_map,
    Option.map_map]
  congr 1
  funext rest
  show ofAuthority of _ (authorityOf of (rest.map f)) = (ofAuthority of _ (authorityOf of rest)).map f
  rw [authorityOf_map hf, ofAuthority_map hf]

end

end Url
