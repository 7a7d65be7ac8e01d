import FiveProtect.Lib.Text

/-!
# UUIDs as PostgreSQL reads and writes them

A value is 32 hexadecimal digits.  `Uuid.toText` is the canonical text (lower case, groups of
8-4-4-4-12); `Uuid.ofText` is what the `uuid` type accepts: digits of either case, a hyphen allowed
after any group of four digits, the whole optionally in braces.  `Uuid.ofText_toText`: the canonical
text of a value is read as the value.
-/

structure Uuid where
  digits : List (Fin 16)
  len : digits.length = 32
  deriving DecidableEq

namespace Uuid

def hexChar (d : Fin 16) : Char := Nat.digitChar d

def hexVal (c : Char) : Option (Fin 16) :=
  if '0' ≤ c ∧ c ≤ '9' then some (Fin.ofNat 16 (c.toNat - 48))
  else if 'a' ≤ c ∧ c ≤ 'f' then some (Fin.ofNat 16 (c.toNat - 87))
  else if 'A' ≤ c ∧ c ≤ 'F' then some (Fin.ofNat 16 (c.toNat - 55))
  else none

/-- the digits from `i` on, `n` of them -/
def group (u : Uuid) (i n : Nat) : List Char := ((u.digits.drop i).take n).map hexChar

def toText (u : Uuid) : String :=
  String.ofList (u.group 0 8 ++ ['-'] ++ u.group 8 4 ++ ['-'] ++ u.group 12 4 ++ ['-'] ++
    u.group 16 4 ++ ['-'] ++ u.group 20 12)

/-- `n` digits and what is left after them; `hyphen` says whether one may come first, which is so
after every fourth digit but the last -/
def scan : Nat → Bool → List Char → Option (List (Fin 16) × List Char)
  | 0, _, l => some ([], l)
  | _ + 1, _, [] => none
  | n + 1, hyphen, c :: l =>
    if hyphen && c == '-' then scan (n + 1) false l
    else match hexVal c with
      | none => none
      | some d => (scan n (n % 4 == 0) l).map fun r => (d :: r.1, r.2)

def ofDigits (ds : List (Fin 16)) : Option Uuid :=
  if h : ds.length = 32 then some ⟨ds, h⟩ else none

/-- `$1::uuid` -/
def ofText (s : String) : Option Uuid :=
  match s.toList with
  | '{' :: l => match scan 32 false l with
    | some (ds, ['}']) => ofDigits ds
    | _ => none
  | l => match scan 32 false l with
    | some (ds, []) => ofDigits ds
    | _ => none

/-! ## the text of a value is read as the value -/

theorem hexVal_hexChar (d : Fin 16) : hexVal (hexChar d) = some d := by
  revert d
  decide

/-- a run of digits, of either case -/
theorem scan_run {cs : List Char} {ds : List (Fin 16)} (h : cs.map hexVal = ds.map some) (n : Nat)
    (hyphen : Bool) (l : List Char) (hne : ds ≠ []) : scan (ds.length + n) hyphen (cs ++ l) =
      (scan n (n % 4 == 0) l).map fun r => (ds ++ r.1, r.2) := by
  induction ds generalizing cs hyphen with
  | nil => exact absurd rfl hne
  | cons d ds ih =>
    obtain ⟨c, cs, rfl⟩ : ∃ c tail, cs = c :: tail := by
      cases cs with
      | nil => cases h
      | cons c cs => exact ⟨c, cs, rfl⟩
    obtain ⟨hc, hcs⟩ := List.cons_eq_cons.mp h
    have hdash : (c == '-') = false := by
      refine beq_eq_false_iff_ne.mpr fun heq => ?_
      rw [heq] at hc
      cases hc
    rw [List.length_cons, Nat.succ_add, List.cons_append, scan, hdash, Bool.and_false,
      if_neg Bool.false_ne_true, hc]
    by_cases hds : ds = []
    · subst hds
      rw [List.map_nil, List.map_eq_nil_iff] at hcs
      subst hcs
      simp
    · dsimp only
      rw [ih hcs _ hds, Option.map_map]
      rfl

theorem group_append (u : Uuid) (i n : Nat) (l : List Char) (k : Nat) (hyphen : Bool)
    (hn : n ≠ 0) (hi : i + n ≤ 32) : scan (n + k) hyphen (u.group i n ++ l) =
      (scan k (k % 4 == 0) l).map fun r => ((u.digits.drop i).take n ++ r.1, r.2) := by
  have hlen : ((u.digits.drop i).take n).length = n := by
    rw [List.length_take, List.length_drop, u.len]
    omega
  have hne : (u.digits.drop i).take n ≠ [] := by
    intro h
    rw [h] at hlen
    exact hn hlen.symm
  have hchars : (u.group i n).map hexVal = ((u.digits.drop i).take n).map some := by
    rw [group, List.map_map]
    exact List.map_congr_left fun d _ => hexVal_hexChar d
  have hscan := scan_run hchars k hyphen l hne
  rw [hlen] at hscan
  exact hscan

theorem scan_hyphen (n : Nat) (l : List Char) :
    scan (n + 1) true ('-' :: l) = scan (n + 1) false l := rfl

/-- the groups are all digits -/
theorem groups_eq (u : Uuid) : (u.digits.drop 0).take 8 ++ ((u.digits.drop 8).take 4 ++
    ((u.digits.drop 12).take 4 ++ ((u.digits.drop 16).take 4 ++ (u.digits.drop 20).take 12))) =
      u.digits := by
  have hlast : (u.digits.drop 20).take 12 = u.digits.drop 20 := by
    apply List.take_of_length_le
    have hdrop : (u.digits.drop 20).length = u.digits.length - 20 := List.length_drop
    have hlen := u.len
    omega
  have hjoin : ∀ i n, (u.digits.drop i).take n ++ u.digits.drop (i + n) = u.digits.drop i := by
    intro i n
    rw [← List.drop_drop, List.take_append_drop]
  rw [hlast, hjoin 16 4, hjoin 12 4, hjoin 8 4, hjoin 0 8]
  rfl

theorem scan_toText (u : Uuid) : scan 32 false u.toText.toList = some (u.digits, []) := by
  have hlast : scan 12 false (u.group 20 12) = some ((u.digits.drop 20).take 12, []) := by
    have h := u.group_append 20 12 [] 0 false (by decide) (by decide)
    rw [List.append_nil] at h
    rw [h]
    simp [scan]
  rw [toText, String.toList_ofList]
  simp only [List.append_assoc, List.cons_append, List.nil_append]
  rw [u.group_append 0 8 _ 24 _ (by decide) (by decide)]
  show Option.map _ (scan 24 true _) = _
  rw [scan_hyphen 23, u.group_append 8 4 _ 20 _ (by decide) (by decide)]
  show Option.map _ (Option.map _ (scan 20 true _)) = _
  rw [scan_hyphen 19, u.group_append 12 4 _ 16 _ (by decide) (by decide)]
  show Option.map _ (Option.map _ (Option.map _ (scan 16 true _))) = _
  rw [scan_hyphen 15, u.group_append 16 4 _ 12 _ (by decide) (by decide)]
  show Option.map _ (Option.map _ (Option.map _ (Option.map _ (scan 12 true _)))) = _
  rw [scan_hyphen 11, hlast]
  simp only [Option.map_some, u.groups_eq]

/-- **The round trip.** -/
theorem ofText_toText (u : Uuid) : ofText u.toText = some u := by
  have hscan := u.scan_toText
  unfold ofText
  split
  · -- the text does not start with a brace
    rename_i l hbrace
    rw [hbrace] at hscan
    simp [scan, hexVal] at hscan
  · rw [hscan]
    show ofDigits u.digits = some u
    rw [ofDigits, dif_pos u.len]

/-- a UUID with a given last digit, for examples -/
def small (n : Nat) : Uuid :=
  ⟨List.replicate 31 0 ++ [⟨n % 16, Nat.mod_lt n (by decide)⟩], by simp⟩

example : (small 10).toText = "00000000-0000-0000-0000-00000000000a" := by decide
example : ofText "{00000000-0000-0000-0000-00000000000A}" = some (small 10) := by decide

end Uuid
