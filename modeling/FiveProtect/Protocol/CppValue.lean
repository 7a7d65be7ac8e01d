import FiveProtect.Lib.Json
import FiveProtect.Protocol.Typed

/-!
# Protocol: JSON values of the scan engine

`packages/protocol/cpp/include/fiveprotect_json.hpp`: `Value`, with texts as bytes and objects sorted by
their keys.

* `Value.find`, `Value.has`, `Value.asInt`   what `from_json` reads values with;
* `Value.ofJson`      what `json::parse` makes of the text of a JSON value: integers become
                      `std::int64_t`, other numbers doubles; it fails on a number that does not fit, on
                      a first half of a surrogate pair alone and on anything nested deeper than 32;
* `find_ofMembers`    the members of an object with different keys are found.
-/

namespace Protocol.Cpp

inductive Value where
  | null
  | bool (b : Bool)
  | int (i : Int)
  | double (d : ℚ)
  | string (s : Bytes)
  | array (items : List Value)
  | object (members : List (Bytes × Value))

namespace Value

def isNull : Value → Bool
  | .null => true
  | _ => false

/-- `static_cast<std::int64_t>`: toward zero.  Out of range it is undefined in C++, and what the x86-64
instruction gives here -/
def truncate (d : ℚ) : Int :=
  let i := if 0 ≤ d then d.floor else d.ceil
  if isInt64 i then i else -2 ^ 63

/-- `as_int` of a number -/
def asInt : Value → Option Int
  | .int i => some i
  | .double d => some (truncate d)
  | _ => none

/-- the member with a key, in a map -/
def lookup (key : Bytes) (members : List (Bytes × Value)) : Option Value :=
  (members.find? fun m => m.1 == key).map Prod.snd

def find (value : Value) (key : Bytes) : Option Value :=
  match value with
  | .object members => lookup key members
  | _ => none

/-- absent and explicit null are the same -/
def has (value : Value) (key : Bytes) : Bool := (value.find key).any fun v => !v.isNull

/-- the order of `std::string` -/
def less : Bytes → Bytes → Bool
  | _, [] => false
  | [], _ :: _ => true
  | a :: as, b :: bs => a < b || a == b && less as bs

/-- `std::map::insert_or_assign` -/
def insertOrAssign (key : Bytes) (value : Value) : List (Bytes × Value) → List (Bytes × Value)
  | [] => [(key, value)]
  | m :: members =>
    if m.1 = key then (key, value) :: members
    else if less key m.1 then (key, value) :: m :: members
    else m :: insertOrAssign key value members

/-! ## parse -/

mutual
/-- `parse_value` -/
def ofJson (depth : Nat) (j : Json) : Option Value :=
  if 32 < depth then none
  else match j with
    | .null => some .null
    | .bool b => some (.bool b)
    | .num (.int i) => if isInt64 i then some (.int i) else none
    | .num .minusZero => some (.int 0)
    -- `std::stod` throws
    | .num (.dec q tiny) => if tiny then none else some (.double q)
    | .str s => some (.string (Text.utf8 s))
    -- a second half alone is written in three bytes, as U+FFFD is
    | .illFormed s high => if high then none else some (.string (Text.utf8 s))
    | .arr items => (ofItems (depth + 1) items).map .array
    | .obj members => (ofMembers (depth + 1) members []).map .object
def ofItems (depth : Nat) : List Json → Option (List Value)
  | [] => some []
  | x :: xs => do
    let v ← ofJson depth x
    let vs ← ofItems depth xs
    return v :: vs
/-- the members in the order of the text, into a map -/
def ofMembers (depth : Nat) : List (String × Json) → List (Bytes × Value) →
    Option (List (Bytes × Value))
  | [], members => some members
  | (key, x) :: xs, members => do
    let v ← ofJson depth x
    ofMembers depth xs (insertOrAssign (Text.utf8 key) v members)
end

theorem lookup_insertOrAssign (key k : Bytes) (value : Value) (members : List (Bytes × Value)) :
    lookup k (insertOrAssign key value members) =
      if k = key then some value else lookup k members := by
  unfold lookup
  induction members with
  | nil =>
    by_cases hk : k = key
    · simp [insertOrAssign, hk]
    · have hne : (key == k) = false := beq_eq_false_iff_ne.mpr fun h => hk h.symm
      simp [insertOrAssign, hk, hne]
  | cons m members ih =>
    unfold insertOrAssign
    by_cases hm : m.1 = key
    · rw [if_pos hm]
      by_cases hk : k = key
      · simp [hk]
      · have hne : (key == k) = false := beq_eq_false_iff_ne.mpr fun h => hk h.symm
        simp [hk, hne, hm]
    · rw [if_neg hm]
      by_cases hless : less key m.1
      · rw [if_pos hless]
        by_cases hk : k = key
        · simp [hk]
        · have hne : (key == k) = false := beq_eq_false_iff_ne.mpr fun h => hk h.symm
          simp [hk, hne]
      · rw [if_neg hless, List.find?_cons]
        by_cases hmk : m.1 = k
        · have hk : k ≠ key := fun h => hm (hmk.trans h)
          simp [hmk, hk]
        · have hne : (m.1 == k) = false := beq_eq_false_iff_ne.mpr hmk
          rw [hne]
          simp only [List.find?_cons, hne]
          exact ih

theorem mem_of_lookup {key : Bytes} {members : List (Bytes × Value)} {v : Value}
    (h : lookup key members = some v) : ∃ m ∈ members, m.1 = key := by
  obtain ⟨m, hm, _⟩ := Option.map_eq_some_iff.mp h
  have hkey := List.find?_some hm
  exact ⟨m, List.mem_of_find?_eq_some hm, beq_iff_eq.mp hkey⟩

theorem mem_insertOrAssign {key : Bytes} {value : Value} {members : List (Bytes × Value)}
    {m : Bytes × Value} (h : m ∈ insertOrAssign key value members) :
    m = (key, value) ∨ m ∈ members := by
  induction members with
  | nil => exact Or.inl (List.mem_singleton.mp h)
  | cons x members ih =>
    unfold insertOrAssign at h
    split at h
    · exact (List.mem_cons.mp h).imp_right (List.mem_cons_of_mem x)
    · split at h
      · exact List.mem_cons.mp h
      · rcases List.mem_cons.mp h with rfl | h
        · exact Or.inr List.mem_cons_self
        · exact (ih h).imp_right (List.mem_cons_of_mem x)

/-! ## the order of the keys -/

theorem less_asymm {a b : Bytes} (h : less a b = true) : less b a = false := by
  induction a generalizing b with
  | nil =>
    cases b with
    | nil => rfl
    | cons y b => rfl
  | cons x a ih =>
    cases b with
    | nil => cases h
    | cons y b =>
      rw [less, Bool.or_eq_true, decide_eq_true_iff, Bool.and_eq_true, beq_iff_eq] at h
      rw [less, Bool.or_eq_false_iff, decide_eq_false_iff_not, Bool.and_eq_false_iff]
      rcases h with hlt | ⟨rfl, h⟩
      · exact ⟨UInt8.not_lt.mpr (UInt8.le_of_lt hlt), Or.inl (beq_eq_false_iff_ne.mpr (UInt8.ne_of_lt hlt).symm)⟩
      · exact ⟨UInt8.lt_irrefl x, Or.inr (ih h)⟩

theorem less_trans {a b c : Bytes} (hab : less a b = true) (hbc : less b c = true) :
    less a c = true := by
  induction a generalizing b c with
  | nil =>
    cases c with
    | nil =>
      cases b with
      | nil => cases hbc
      | cons y b => cases hbc
    | cons z c => rfl
  | cons x a ih =>
    cases b with
    | nil => cases hab
    | cons y b =>
      cases c with
      | nil => cases hbc
      | cons z c =>
        rw [less, Bool.or_eq_true, decide_eq_true_iff, Bool.and_eq_true, beq_iff_eq] at hab hbc ⊢
        rcases hab with hxy | ⟨rfl, hab⟩
        · rcases hbc with hyz | ⟨rfl, _⟩
          · exact Or.inl (UInt8.lt_trans hxy hyz)
          · exact Or.inl hxy
        · rcases hbc with hyz | ⟨rfl, hbc⟩
          · exact Or.inl hyz
          · exact Or.inr ⟨rfl, ih hab hbc⟩

theorem less_of_not {a b : Bytes} (hne : a ≠ b) (h : ¬ less b a = true) : less a b = true := by
  induction a generalizing b with
  | nil =>
    cases b with
    | nil => exact absurd rfl hne
    | cons y b => rfl
  | cons x a ih =>
    cases b with
    | nil => exact absurd rfl h
    | cons y b =>
      rw [less, Bool.or_eq_true, decide_eq_true_iff, Bool.and_eq_true, beq_iff_eq, not_or] at h
      rw [less, Bool.or_eq_true, decide_eq_true_iff, Bool.and_eq_true, beq_iff_eq]
      by_cases hxy : x = y
      · subst hxy
        exact Or.inr ⟨rfl, ih (fun hab => hne (by rw [hab])) fun hba => h.2 ⟨rfl, hba⟩⟩
      · exact Or.inl (UInt8.lt_of_le_of_ne (UInt8.not_lt.mp h.1) hxy)

/-- a map keeps its keys in order -/
theorem insertOrAssign_sorted (key : Bytes) (value : Value) {members : List (Bytes × Value)}
    (h : members.Pairwise fun a b => less a.1 b.1 = true) :
    (insertOrAssign key value members).Pairwise fun a b => less a.1 b.1 = true := by
  induction members with
  | nil => exact List.pairwise_singleton _ _
  | cons m members ih =>
    obtain ⟨hm, hmembers⟩ := List.pairwise_cons.mp h
    unfold insertOrAssign
    by_cases hkey : m.1 = key
    · rw [if_pos hkey]
      refine List.pairwise_cons.mpr ⟨fun x hx => ?_, hmembers⟩
      rw [← hkey]
      exact hm x hx
    rw [if_neg hkey]
    by_cases hless : less key m.1 = true
    · rw [if_pos hless]
      refine List.pairwise_cons.mpr ⟨fun x hx => ?_, h⟩
      rcases List.mem_cons.mp hx with rfl | hx
      · exact hless
      · exact less_trans hless (hm x hx)
    · rw [if_neg hless]
      refine List.pairwise_cons.mpr ⟨fun x hx => ?_, ih hmembers⟩
      rcases mem_insertOrAssign hx with rfl | hx
      · exact less_of_not hkey hless
      · exact hm x hx

theorem less_ne {a b : Bytes} (h : less a b = true) : b ≠ a := by
  rintro rfl
  have hasymm := less_asymm h
  rw [h] at hasymm
  cases hasymm

/-- a map has one member with a key -/
theorem mem_insertOrAssign_iff (key : Bytes) (value : Value) {members : List (Bytes × Value)}
    (h : members.Pairwise fun a b => less a.1 b.1 = true) (m : Bytes × Value) :
    m ∈ insertOrAssign key value members ↔ m = (key, value) ∨ m ∈ members ∧ m.1 ≠ key := by
  induction members with
  | nil => simp [insertOrAssign]
  | cons x members ih =>
    obtain ⟨hx, hmembers⟩ := List.pairwise_cons.mp h
    unfold insertOrAssign
    by_cases hkey : x.1 = key
    · have hother : m ∈ members → m.1 ≠ key := fun hm => hkey ▸ less_ne (hx m hm)
      rw [if_pos hkey, List.mem_cons, List.mem_cons]
      constructor
      · rintro (hm | hm)
        · exact .inl hm
        · exact .inr ⟨.inr hm, hother hm⟩
      · rintro (hm | ⟨rfl | hm, hne⟩)
        · exact .inl hm
        · exact absurd hkey hne
        · exact .inr hm
    rw [if_neg hkey]
    by_cases hless : less key x.1 = true
    · have hother : m ∈ x :: members → m.1 ≠ key := by
        intro hm
        rcases List.mem_cons.mp hm with rfl | hm
        · exact hkey
        · exact less_ne (less_trans hless (hx m hm))
      rw [if_pos hless, List.mem_cons]
      exact or_congr_right ⟨fun hm => ⟨hm, hother hm⟩, fun hm => hm.1⟩
    · rw [if_neg hless, List.mem_cons, List.mem_cons, ih hmembers]
      constructor
      · rintro (rfl | hm | hm)
        · exact .inr ⟨.inl rfl, hkey⟩
        · exact .inl hm
        · exact .inr ⟨.inr hm.1, hm.2⟩
      · rintro (hm | ⟨hm | hm, hne⟩)
        · exact .inr (.inl hm)
        · exact .inl hm
        · exact .inr (.inr ⟨hm, hne⟩)

/-- a key that is greater than the ones before it comes last -/
theorem insertOrAssign_last {key : Bytes} {value : Value} {members : List (Bytes × Value)}
    (h : ∀ m ∈ members, less m.1 key = true) :
    insertOrAssign key value members = members ++ [(key, value)] := by
  induction members with
  | nil => rfl
  | cons m members ih =>
    have hm := h m List.mem_cons_self
    have hafter := less_asymm hm
    have hne : m.1 ≠ key := by
      rintro rfl
      rw [hm] at hafter
      cases hafter
    have hnot : ¬ less key m.1 = true := by
      rw [hafter]
      exact Bool.false_ne_true
    rw [insertOrAssign, if_neg hne, if_neg hnot, ih fun x hx => h x (List.mem_cons_of_mem m hx),
      List.cons_append]

/-! ## what is parsed -/

section
variable {depth : Nat} {members : List (String × Json)} {acc vs : List (Bytes × Value)}

theorem ofItems_eq (depth : Nat) (xs : List Json) : ofItems depth xs = xs.mapM (ofJson depth) := by
  induction xs with
  | nil => rfl
  | cons x xs ih =>
    rw [List.mapM_cons, ← ih]
    rfl

theorem ofJson_arr (h : depth ≤ 32) (items : List Json) :
    ofJson depth (.arr items) = (items.mapM (ofJson (depth + 1))).map .array := by
  rw [← ofItems_eq]
  exact if_neg (Nat.not_lt.mpr h)

theorem ofJson_obj (h : depth ≤ 32) (members : List (String × Json)) :
    ofJson depth (.obj members) = (ofMembers (depth + 1) members []).map .object :=
  if_neg (Nat.not_lt.mpr h)

theorem ofJson_shallow {j : Json} {v : Value} (h : ofJson depth j = some v) : depth ≤ 32 := by
  by_contra hdepth
  have hnone : ofJson depth j = none := by
    rw [ofJson.eq_def]
    exact if_pos (Nat.lt_of_not_le hdepth)
  rw [hnone] at h
  cases h

theorem ofJson_null (h : depth ≤ 32) : ofJson depth .null = some .null := if_neg (Nat.not_lt.mpr h)

theorem ofJson_bool (h : depth ≤ 32) (b : Bool) : ofJson depth (.bool b) = some (.bool b) :=
  if_neg (Nat.not_lt.mpr h)

theorem ofJson_str (h : depth ≤ 32) (s : String) :
    ofJson depth (.str s) = some (.string (Text.utf8 s)) := if_neg (Nat.not_lt.mpr h)

theorem ofJson_int (h : depth ≤ 32) (i : Int) :
    ofJson depth (.num (.int i)) = if isInt64 i then some (.int i) else none :=
  if_neg (Nat.not_lt.mpr h)

theorem ofJson_minusZero (h : depth ≤ 32) : ofJson depth (.num .minusZero) = some (.int 0) :=
  if_neg (Nat.not_lt.mpr h)

theorem ofJson_dec (h : depth ≤ 32) (q : ℚ) (tiny : Bool) :
    ofJson depth (.num (.dec q tiny)) = if tiny then none else some (.double q) :=
  if_neg (Nat.not_lt.mpr h)

theorem ofJson_illFormed (h : depth ≤ 32) (s : String) (high : Bool) :
    ofJson depth (.illFormed s high) = if high then none else some (.string (Text.utf8 s)) :=
  if_neg (Nat.not_lt.mpr h)

/-- a number is an integer or a double -/
theorem ofJson_num {n : JsonNumber} {v : Value} (h : ofJson depth (.num n) = some v) :
    (∃ i, v = .int i) ∨ ∃ q, v = .double q := by
  have hdepth := ofJson_shallow h
  cases n with
  | int i =>
    rw [ofJson_int hdepth] at h
    split at h
    · cases h
      exact .inl ⟨i, rfl⟩
    · cases h
  | minusZero =>
    rw [ofJson_minusZero hdepth] at h
    cases h
    exact .inl ⟨0, rfl⟩
  | dec q tiny =>
    rw [ofJson_dec hdepth] at h
    cases tiny with
    | true => cases h
    | false =>
      cases h
      exact .inr ⟨q, rfl⟩

/-- what a JSON value of each kind becomes -/
theorem ofJson_kind {j : Json} {v : Value} (h : ofJson depth j = some v) :
    (v.isNull = true ↔ j = .null) ∧
    (∀ items, v = .array items → ∃ xs, j = .arr xs ∧ xs.mapM (ofJson (depth + 1)) = some items) ∧
    ∀ members, v = .object members →
      ∃ xs, j = .obj xs ∧ ofMembers (depth + 1) xs [] = some members := by
  have hdepth := ofJson_shallow h
  cases j with
  | arr xs =>
    rw [ofJson_arr hdepth] at h
    obtain ⟨vs, hvs, rfl⟩ := Option.map_eq_some_iff.mp h
    refine ⟨iff_of_false (by simp [isNull]) (by simp), fun items hitems => ?_,
      fun members hmembers => by cases hmembers⟩
    cases hitems
    exact ⟨xs, rfl, hvs⟩
  | obj xs =>
    rw [ofJson_obj hdepth] at h
    obtain ⟨vs, hvs, rfl⟩ := Option.map_eq_some_iff.mp h
    refine ⟨iff_of_false (by simp [isNull]) (by simp), fun items hitems => (by cases hitems),
      fun members hmembers => ?_⟩
    cases hmembers
    exact ⟨xs, rfl, hvs⟩
  | null =>
    rw [ofJson_null hdepth] at h
    cases h
    simp [isNull]
  | bool b =>
    rw [ofJson_bool hdepth] at h
    cases h
    simp [isNull]
  | str s =>
    rw [ofJson_str hdepth] at h
    cases h
    simp [isNull]
  | illFormed s high =>
    rw [ofJson_illFormed hdepth] at h
    split at h
    · cases h
    · cases h
      simp [isNull]
  | num n =>
    rcases ofJson_num h with ⟨i, rfl⟩ | ⟨q, rfl⟩
    · simp [isNull]
    · simp [isNull]

/-- what a text, a boolean and a number come from -/
theorem ofJson_leaf {j : Json} {v : Value} (h : ofJson depth j = some v) :
    (∀ s, v = .string s → ∃ t, (j = .str t ∨ j = .illFormed t false) ∧ Text.utf8 t = s) ∧
      (∀ b, v = .bool b → j = .bool b) ∧ ∀ i, v.asInt = some i → ∃ n, j = .num n := by
  have hdepth := ofJson_shallow h
  cases j with
  | arr xs =>
    rw [ofJson_arr hdepth] at h
    obtain ⟨vs, _, rfl⟩ := Option.map_eq_some_iff.mp h
    simp [asInt]
  | obj xs =>
    rw [ofJson_obj hdepth] at h
    obtain ⟨vs, _, rfl⟩ := Option.map_eq_some_iff.mp h
    simp [asInt]
  | null =>
    rw [ofJson_null hdepth] at h
    cases h
    simp [asInt]
  | bool b =>
    rw [ofJson_bool hdepth] at h
    cases h
    simp [asInt]
  | str s =>
    rw [ofJson_str hdepth] at h
    cases h
    simp [asInt]
  | illFormed s high =>
    rw [ofJson_illFormed hdepth] at h
    cases high with
    | true => cases h
    | false =>
      cases h
      simp [asInt]
  | num n =>
    rcases ofJson_num h with ⟨i, rfl⟩ | ⟨q, rfl⟩
    · exact ⟨fun s hs => (by cases hs), fun b hb => (by cases hb), fun _ _ => ⟨n, rfl⟩⟩
    · exact ⟨fun s hs => (by cases hs), fun b hb => (by cases hb), fun _ _ => ⟨n, rfl⟩⟩

theorem ofMembers_cons (depth : Nat) (m : String × Json) (members : List (String × Json))
    (acc : List (Bytes × Value)) : ofMembers depth (m :: members) acc =
      (ofJson depth m.2).bind fun v =>
        ofMembers depth members (insertOrAssign (Text.utf8 m.1) v acc) := rfl

theorem ofMembers_some (h : ∀ m ∈ members, ∃ v, ofJson depth m.2 = some v) :
    ∃ vs, ofMembers depth members acc = some vs := by
  induction members generalizing acc with
  | nil => exact ⟨acc, rfl⟩
  | cons m members ih =>
    obtain ⟨v, hv⟩ := h m List.mem_cons_self
    rw [ofMembers_cons, hv]
    exact ih fun x hx => h x (List.mem_cons_of_mem m hx)

theorem ofMembers_parsed (h : ofMembers depth members acc = some vs) :
    ∀ m ∈ members, ∃ v, ofJson depth m.2 = some v := by
  induction members generalizing acc with
  | nil => exact fun m hm => absurd hm List.not_mem_nil
  | cons m members ih =>
    rw [ofMembers_cons] at h
    obtain ⟨v, hv, h⟩ := Option.bind_eq_some_iff.mp h
    exact List.forall_mem_cons.mpr ⟨⟨v, hv⟩, ih h⟩

/-- a member of the text is the member of the map under its key -/
theorem find_ofMembers (h : ofMembers depth members acc = some vs)
    (hn : (members.map Prod.fst).Nodup) (key : String) : lookup (Text.utf8 key) vs =
      (Json.get? key (.obj members)).elim (lookup (Text.utf8 key) acc) (ofJson depth) := by
  induction members generalizing acc with
  | nil =>
    cases h
    rfl
  | cons m members ih =>
    rw [ofMembers_cons] at h
    obtain ⟨v, hv, h⟩ := Option.bind_eq_some_iff.mp h
    rw [List.map_cons, List.nodup_cons] at hn
    have hrest := ih h hn.2
    rw [lookup_insertOrAssign] at hrest
    by_cases hkey : key = m.1
    · have hnone : Json.get? key (.obj members) = none := by
        rw [Json.get?, Option.map_eq_none_iff, List.find?_eq_none]
        intro x hx hxk
        refine hn.1 ?_
        rw [← hkey, ← beq_iff_eq.mp hxk]
        exact List.mem_map_of_mem hx
      have hsome : Json.get? key (.obj (m :: members)) = some m.2 := by
        simp [Json.get?, hkey]
      rw [hrest, hnone, hsome, hkey, Option.elim_none, if_pos rfl, Option.elim_some, hv]
    · have hne : (m.1 == key) = false := beq_eq_false_iff_ne.mpr fun h => hkey h.symm
      have hbytes : Text.utf8 key ≠ Text.utf8 m.1 := fun h => hkey (Text.utf8_injective h)
      have hget : Json.get? key (.obj (m :: members)) = Json.get? key (.obj members) := by
        simp only [Json.get?, List.find?_cons, hne]
      rw [hrest, hget, if_neg hbytes]

theorem mem_ofMembers (h : ofMembers depth members acc = some vs) {m : Bytes × Value}
    (hm : m ∈ vs) : (∃ k ∈ members.map Prod.fst, m.1 = Text.utf8 k) ∨ m ∈ acc := by
  induction members generalizing acc with
  | nil =>
    cases h
    exact Or.inr hm
  | cons x members ih =>
    rw [ofMembers_cons] at h
    obtain ⟨v, hv, h⟩ := Option.bind_eq_some_iff.mp h
    rcases ih h with ⟨k, hk, hmk⟩ | hacc
    · exact Or.inl ⟨k, List.mem_cons_of_mem _ hk, hmk⟩
    · rcases mem_insertOrAssign hacc with rfl | hacc
      · exact Or.inl ⟨x.1, List.mem_cons_self, rfl⟩
      · exact Or.inr hacc

end

end Value

end Protocol.Cpp
