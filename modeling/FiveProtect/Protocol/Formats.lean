import FiveProtect.Protocol.TextFormats

/-!
# Protocol: the formats in four languages

What a format of the schema accepts consists of ASCII characters, and the checks of the other
languages, which look at bytes, accept it too; a timestamp needs its seconds for that.

* `skip_eq`, ...     what the readers of the schema's formats have read;
* `uuid_bytes`, `datetime_bytes`   the pieces of a text, as bytes;
* `format_portable`  the checks of the other languages on it;
* `datetime_seconds` no other language takes a timestamp without seconds.
-/

namespace Protocol
open Zod (isDigit isLowerHex isHex isAlnum skip lit)
open LuaPattern (byteOf)

/-! ## what is read -/

section
variable {p : Char → Bool} {n : Nat} {c : Char} {l rest : List Char}

theorem skip_eq (h : skip p n l = some rest) :
    ∃ run, l = run ++ rest ∧ run.length = n ∧ ∀ c ∈ run, p c = true := by
  induction n generalizing l with
  | zero =>
    cases h
    exact ⟨[], rfl, rfl, fun _ hc => absurd hc List.not_mem_nil⟩
  | succ n ih =>
    cases l with
    | nil => cases h
    | cons c l =>
      rw [skip] at h
      split at h
      · rename_i hc
        obtain ⟨run, rfl, hlen, hall⟩ := ih h
        refine ⟨c :: run, rfl, by rw [List.length_cons, hlen], fun x hx => ?_⟩
        rcases List.mem_cons.mp hx with rfl | hx
        · exact hc
        · exact hall x hx
      · cases h

theorem lit_eq (h : lit c l = some rest) : l = c :: rest := by
  obtain ⟨run, rfl, hlen, hall⟩ := skip_eq h
  obtain ⟨x, rfl⟩ := List.length_eq_one_iff.mp hlen
  rw [beq_iff_eq.mp (hall x List.mem_cons_self)]
  rfl

end

/-! ## classes of characters -/

theorem hex_all {s : String} (h : Zod.hex s = true) : ∀ c ∈ s.toList, isHex c = true := by
  intro c hc
  have hlower := List.all_eq_true.mp h c hc
  rw [isHex, hlower, Bool.true_or]

theorem base64_all {s : String} (h : Zod.base64 s = true) : ∀ c ∈ s.toList, isBase64 c = true := by
  intro c hc
  rw [← List.takeWhile_append_dropWhile (p := fun c => isAlnum c || c == '+' || c == '/')
    (l := s.toList)] at hc
  rcases List.mem_append.mp hc with hc | hc
  · have hbody := List.mem_takeWhile_imp hc
    unfold isBase64
    rw [hbody, Bool.true_or]
  · unfold Zod.base64 at h
    simp only [Bool.or_eq_true, beq_iff_eq] at h
    have heq : c = '=' := by
      rcases h with (h | h) | h
      · rw [h] at hc
        exact absurd hc List.not_mem_nil
      · rw [h] at hc
        exact List.mem_singleton.mp hc
      · rw [h] at hc
        rcases List.mem_cons.mp hc with rfl | hc
        · rfl
        · exact List.mem_singleton.mp hc
    rw [heq]
    decide

theorem ip_all {s : String} (h : Zod.ip s = true) : ∀ c ∈ s.toList, isIp c = true := by
  unfold Zod.ip at h
  rw [Bool.and_eq_true] at h
  exact List.all_eq_true.mp h.2

/-! ## UUIDs -/

theorem uuid_pieces {s : String} (h : Zod.uuid s = true) : ∃ a b c d e : List Char,
    s.toList = a ++ ('-' :: (b ++ '-' :: (c ++ '-' :: (d ++ '-' :: e)))) ∧
      (a.length = 8 ∧ b.length = 4 ∧ c.length = 4 ∧ d.length = 4 ∧ e.length = 12) ∧
      ∀ x ∈ a ++ (b ++ (c ++ (d ++ e))), isHex x = true := by
  unfold Zod.uuid at h
  rw [beq_iff_eq] at h
  obtain ⟨l₁, h₁, h⟩ := Option.bind_eq_some_iff.mp h
  obtain ⟨l₂, h₂, h⟩ := Option.bind_eq_some_iff.mp h
  obtain ⟨l₃, h₃, h⟩ := Option.bind_eq_some_iff.mp h
  obtain ⟨l₄, h₄, h⟩ := Option.bind_eq_some_iff.mp h
  obtain ⟨l₅, h₅, h⟩ := Option.bind_eq_some_iff.mp h
  obtain ⟨l₆, h₆, h⟩ := Option.bind_eq_some_iff.mp h
  obtain ⟨l₇, h₇, h⟩ := Option.bind_eq_some_iff.mp h
  obtain ⟨l₈, h₈, h⟩ := Option.bind_eq_some_iff.mp h
  obtain ⟨a, ha, hla, hpa⟩ := skip_eq h₁
  obtain ⟨b, hb, hlb, hpb⟩ := skip_eq h₃
  obtain ⟨c, hc, hlc, hpc⟩ := skip_eq h₅
  obtain ⟨d, hd, hld, hpd⟩ := skip_eq h₇
  obtain ⟨e, he, hle, hpe⟩ := skip_eq h
  refine ⟨a, b, c, d, e, ?_, ⟨hla, hlb, hlc, hld, hle⟩, ?_⟩
  · rw [ha, lit_eq h₂, hb, lit_eq h₄, hc, lit_eq h₆, hd, lit_eq h₈, he, List.append_nil]
  · simp only [List.forall_mem_append]
    exact ⟨hpa, hpb, hpc, hpd, hpe⟩

/-- the bytes of a text with a separator -/
theorem utf8_sep {a b : List Char} {c : Char} (hc : c.toNat < 128) :
    Text.utf8Chars (a ++ c :: b) = Text.utf8Chars a ++ ([byteOf c] ++ Text.utf8Chars b) := by
  rw [Text.utf8Chars_append, ← Text.utf8Encode_ascii hc]
  rfl

/-- a run of digits between dashes -/
theorem zipIdx_run {run : Bytes} {k : Nat} (h : ∀ b ∈ run, LuaPattern.isHex b = true)
    (hk : ∀ i, k ≤ i → i < k + run.length → isDashPosition i = false) :
    (run.zipIdx k).all (fun p => if isDashPosition p.2 then p.1 == byteOf '-'
      else LuaPattern.isHex p.1) = true := by
  rw [List.all_eq_true]
  rintro ⟨b, i⟩ hmem
  obtain ⟨hle, hlt, hb⟩ := List.mem_zipIdx hmem
  rw [if_neg (by rw [hk i hle (by omega)]; decide)]
  rw [hb]
  exact h _ (List.getElem_mem _)

theorem uuid_bytes {s : String} (h : Zod.uuid s = true) : ∃ a b c d e : Bytes,
    Text.utf8 s = a ++ ([byteOf '-'] ++ (b ++ ([byteOf '-'] ++ (c ++ ([byteOf '-'] ++
      (d ++ ([byteOf '-'] ++ e))))))) ∧
      (a.length = 8 ∧ b.length = 4 ∧ c.length = 4 ∧ d.length = 4 ∧ e.length = 12) ∧
      (∀ x ∈ a, LuaPattern.isHex x = true) ∧ (∀ x ∈ b, LuaPattern.isHex x = true) ∧
      (∀ x ∈ c, LuaPattern.isHex x = true) ∧ (∀ x ∈ d, LuaPattern.isHex x = true) ∧
      ∀ x ∈ e, LuaPattern.isHex x = true := by
  obtain ⟨a, b, c, d, e, hs, ⟨hla, hlb, hlc, hld, hle⟩, hall⟩ := uuid_pieces h
  simp only [List.forall_mem_append] at hall
  obtain ⟨ha, hb, hc, hd, he⟩ := hall
  obtain ⟨la, qa⟩ := hexClass.run_utf8 ha
  obtain ⟨lb, qb⟩ := hexClass.run_utf8 hb
  obtain ⟨lc, qc⟩ := hexClass.run_utf8 hc
  obtain ⟨ld, qd⟩ := hexClass.run_utf8 hd
  obtain ⟨le, qe⟩ := hexClass.run_utf8 he
  have hdash : ('-' : Char).toNat < 128 := by decide
  refine ⟨_, _, _, _, _, ?_, ⟨la.trans hla, lb.trans hlb, lc.trans hlc, ld.trans hld, le.trans hle⟩,
    qa, qb, qc, qd, qe⟩
  rw [Text.utf8, hs, utf8_sep hdash, utf8_sep hdash, utf8_sep hdash, utf8_sep hdash]

theorem uuid_shaped {s : String} (h : Zod.uuid s = true) : uuidShaped (Text.utf8 s) = true := by
  obtain ⟨a, b, c, d, e, hs, ⟨la, lb, lc, ld, le⟩, ha, hb, hc, hd, he⟩ := uuid_bytes h
  rw [hs, uuidShaped]
  simp only [List.zipIdx_append, List.all_append, Bool.and_eq_true, beq_iff_eq, List.length_append,
    List.length_singleton, la, lb, lc, ld, le]
  refine ⟨trivial, zipIdx_run ha ?_, rfl, zipIdx_run hb ?_, rfl, zipIdx_run hc ?_, rfl,
    zipIdx_run hd ?_, rfl, zipIdx_run he ?_⟩
  all_goals
    intro i hlo hhi
    simp only [isDashPosition, Bool.or_eq_false_iff, decide_eq_false_iff_not]
    omega

/-! ## timestamps -/

/-- a byte against the byte of `datetimeShape` in its place -/
def shapeMatch (p : UInt8 × UInt8) : Bool :=
  if p.1 = byteOf '0' then LuaPattern.isDigit p.2 else p.2 == p.1

theorem shape_digits {run shape s : Bytes} {n : Nat} (hn : run.length = n)
    (h : ∀ b ∈ run, LuaPattern.isDigit b = true) :
    ((List.replicate n (byteOf '0') ++ shape).zip (run ++ s)).all shapeMatch =
      (shape.zip s).all shapeMatch := by
  subst hn
  induction run with
  | nil => rfl
  | cons b run ih =>
    have hb : shapeMatch (byteOf '0', b) = true := by
      rw [shapeMatch, if_pos rfl]
      exact h b List.mem_cons_self
    show (shapeMatch (byteOf '0', b) && _) = _
    rw [hb, Bool.true_and]
    exact ih fun x hx => h x (List.mem_cons_of_mem b hx)

theorem shape_lit {c : UInt8} {shape s : Bytes} (hc : c ≠ byteOf '0') :
    ((c :: shape).zip ([c] ++ s)).all shapeMatch = (shape.zip s).all shapeMatch := by
  have hmatch : shapeMatch (c, c) = true := by
    rw [shapeMatch, if_neg hc]
    exact beq_self_eq_true c
  show (shapeMatch (c, c) && _) = _
  rw [hmatch, Bool.true_and]
  rfl

theorem date_pieces {l rest : List Char} (h : Zod.date l = some rest) : ∃ y m d : List Char,
    l = y ++ '-' :: (m ++ '-' :: (d ++ rest)) ∧ (y.length = 4 ∧ m.length = 2 ∧ d.length = 2) ∧
      ∀ x ∈ y ++ (m ++ d), isDigit x = true := by
  obtain ⟨h, _⟩ := Option.filter_eq_some_iff.mp h
  obtain ⟨l₁, h₁, h⟩ := Option.bind_eq_some_iff.mp h
  obtain ⟨l₂, h₂, h⟩ := Option.bind_eq_some_iff.mp h
  obtain ⟨l₃, h₃, h⟩ := Option.bind_eq_some_iff.mp h
  obtain ⟨l₄, h₄, h⟩ := Option.bind_eq_some_iff.mp h
  obtain ⟨y, hy, hly, hpy⟩ := skip_eq h₁
  obtain ⟨m, hm, hlm, hpm⟩ := skip_eq h₃
  obtain ⟨d, hd, hld, hpd⟩ := skip_eq h
  refine ⟨y, m, d, ?_, ⟨hly, hlm, hld⟩, ?_⟩
  · rw [hy, lit_eq h₂, hm, lit_eq h₄, hd]
  · simp only [List.forall_mem_append]
    exact ⟨hpy, hpm, hpd⟩

theorem below_eq {n : Nat} {l rest : List Char} (h : Zod.below n l = some rest) :
    ∃ run, l = run ++ rest ∧ run.length = 2 ∧ ∀ c ∈ run, isDigit c = true :=
  skip_eq (Option.filter_eq_some_iff.mp h).1

/-- a timestamp up to its minutes, and the rest -/
theorem datetime_pieces {s : String} (h : Zod.datetime s = true) :
    ∃ y m d hour minute rest : List Char,
      s.toList = y ++ '-' :: (m ++ '-' :: (d ++ 'T' :: (hour ++ ':' :: (minute ++ rest)))) ∧
      (y.length = 4 ∧ m.length = 2 ∧ d.length = 2 ∧ hour.length = 2 ∧ minute.length = 2) ∧
      (∀ x ∈ y ++ (m ++ (d ++ (hour ++ minute))), isDigit x = true) ∧ Zod.secondsZ rest = true := by
  unfold Zod.datetime at h
  split at h
  · cases h
  · rename_i rest hrest
    obtain ⟨l₁, h₁, hrest⟩ := Option.bind_eq_some_iff.mp hrest
    obtain ⟨l₂, h₂, hrest⟩ := Option.bind_eq_some_iff.mp hrest
    obtain ⟨l₃, h₃, hrest⟩ := Option.bind_eq_some_iff.mp hrest
    obtain ⟨l₄, h₄, hrest⟩ := Option.bind_eq_some_iff.mp hrest
    obtain ⟨y, m, d, hl, ⟨hly, hlm, hld⟩, hp⟩ := date_pieces h₁
    obtain ⟨hour, hhour, hlh, hph⟩ := below_eq h₃
    obtain ⟨minute, hminute, hli, hpi⟩ := below_eq hrest
    refine ⟨y, m, d, hour, minute, rest, ?_, ⟨hly, hlm, hld, hlh, hli⟩, ?_, h⟩
    · rw [hl, lit_eq h₂, hhour, lit_eq h₄, hminute]
    · simp only [List.forall_mem_append] at hp ⊢
      exact ⟨hp.1, hp.2.1, hp.2.2, hph, hpi⟩

theorem seconds_pieces {l : List Char} (h : Zod.secondsZ l = true) (hne : l ≠ ['Z']) :
    ∃ second rest, l = ':' :: (second ++ rest) ∧ second.length = 2 ∧
      ∀ c ∈ second, isDigit c = true := by
  unfold Zod.secondsZ at h
  rw [Bool.or_eq_true, beq_iff_eq] at h
  rcases h with h | h
  · exact absurd h hne
  · split at h
    · cases h
    · rename_i rest hrest
      obtain ⟨l₁, h₁, hrest⟩ := Option.bind_eq_some_iff.mp hrest
      obtain ⟨second, hsecond, hlen, hp⟩ := below_eq hrest
      refine ⟨second, rest, ?_, hlen, hp⟩
      rw [lit_eq h₁, hsecond]

/-- the seconds of a timestamp, which Zod does not ask for -/
def hasSeconds (s : String) : Bool := s.toList[16]? == some ':'

theorem datetime_bytes {s : String} (h : Zod.datetime s = true) (hs : hasSeconds s = true) :
    ∃ y m d hour minute second rest : Bytes,
      Text.utf8 s = y ++ ([byteOf '-'] ++ (m ++ ([byteOf '-'] ++ (d ++ ([byteOf 'T'] ++ (hour ++
        ([byteOf ':'] ++ (minute ++ ([byteOf ':'] ++ (second ++ rest)))))))))) ∧
      (y.length = 4 ∧ m.length = 2 ∧ d.length = 2 ∧ hour.length = 2 ∧ minute.length = 2 ∧
        second.length = 2) ∧
      (∀ x ∈ y, LuaPattern.isDigit x = true) ∧ (∀ x ∈ m, LuaPattern.isDigit x = true) ∧
      (∀ x ∈ d, LuaPattern.isDigit x = true) ∧ (∀ x ∈ hour, LuaPattern.isDigit x = true) ∧
      (∀ x ∈ minute, LuaPattern.isDigit x = true) ∧ ∀ x ∈ second, LuaPattern.isDigit x = true := by
  obtain ⟨y, m, d, hour, minute, rest, hl, ⟨hly, hlm, hld, hlh, hli⟩, hall, hrest⟩ :=
    datetime_pieces h
  have hne : rest ≠ ['Z'] := by
    intro hz
    rw [hasSeconds, hl, hz] at hs
    simp [hly, hlm, hld, hlh, hli] at hs
  obtain ⟨second, tail, rfl, hlsec, hsec⟩ := seconds_pieces hrest hne
  simp only [List.forall_mem_append] at hall
  obtain ⟨hy, hm, hd, hh, hi⟩ := hall
  obtain ⟨ly, qy⟩ := digitClass.run_utf8 hy
  obtain ⟨lm, qm⟩ := digitClass.run_utf8 hm
  obtain ⟨ld, qd⟩ := digitClass.run_utf8 hd
  obtain ⟨lh, qh⟩ := digitClass.run_utf8 hh
  obtain ⟨li, qi⟩ := digitClass.run_utf8 hi
  obtain ⟨ls, qs⟩ := digitClass.run_utf8 hsec
  have hdash : ('-' : Char).toNat < 128 := by decide
  have hT : ('T' : Char).toNat < 128 := by decide
  have hcolon : (':' : Char).toNat < 128 := by decide
  refine ⟨_, _, _, _, _, _, Text.utf8Chars tail, ?_, ⟨ly.trans hly, lm.trans hlm, ld.trans hld,
    lh.trans hlh, li.trans hli, ls.trans hlsec⟩, qy, qm, qd, qh, qi, qs⟩
  rw [Text.utf8, hl, utf8_sep hdash, utf8_sep hdash, utf8_sep hT, utf8_sep hcolon,
    utf8_sep hcolon, Text.utf8Chars_append]

theorem datetime_shaped {s : String} (h : Zod.datetime s = true) (hsec : hasSeconds s = true) :
    datetimeShaped (Text.utf8 s) = true := by
  obtain ⟨y, m, d, hour, minute, second, rest, hs, ⟨ly, lm, ld, lh, li, ls⟩, hy, hm, hd, hh, hi,
    hse⟩ := datetime_bytes h hsec
  rw [hs, datetimeShaped, Bool.and_eq_true, decide_eq_true_eq]
  constructor
  · have hshape : datetimeShape.length = 19 := by decide
    simp only [List.length_append, List.length_singleton]
    omega
  · have hshape : datetimeShape = List.replicate 4 (byteOf '0') ++ byteOf '-' ::
        (List.replicate 2 (byteOf '0') ++ byteOf '-' :: (List.replicate 2 (byteOf '0') ++
        byteOf 'T' :: (List.replicate 2 (byteOf '0') ++ byteOf ':' :: (List.replicate 2 (byteOf '0') ++
        byteOf ':' :: (List.replicate 2 (byteOf '0') ++ []))))) := by decide
    show (datetimeShape.zip _).all shapeMatch = true
    rw [hshape, shape_digits ly hy, shape_lit (by decide), shape_digits lm hm,
      shape_lit (by decide), shape_digits ld hd, shape_lit (by decide), shape_digits lh hh,
      shape_lit (by decide), shape_digits li hi, shape_lit (by decide), shape_digits ls hse]
    rfl

/-- without seconds a timestamp is 17 bytes long -/
theorem datetime_seconds {s : String} (h : Zod.datetime s = true)
    (hshape : datetimeShaped (Text.utf8 s) = true) : hasSeconds s = true := by
  obtain ⟨y, m, d, hour, minute, rest, hl, ⟨hly, hlm, hld, hlh, hli⟩, hall, hrest⟩ :=
    datetime_pieces h
  by_cases hz : rest = ['Z']
  · exfalso
    rw [datetimeShaped, Bool.and_eq_true, decide_eq_true_eq] at hshape
    have h19 : datetimeShape.length = 19 := by decide
    simp only [List.forall_mem_append] at hall
    obtain ⟨hy, hm, hd, hh, hi⟩ := hall
    have ly := (digitClass.run_utf8 hy).1
    have lm := (digitClass.run_utf8 hm).1
    have ld := (digitClass.run_utf8 hd).1
    have lh := (digitClass.run_utf8 hh).1
    have li := (digitClass.run_utf8 hi).1
    have lz : (Text.utf8Chars ['Z']).length = 1 := by decide
    have hlen := hshape.1
    rw [Text.utf8, hl, hz, utf8_sep (by decide), utf8_sep (by decide), utf8_sep (by decide),
      utf8_sep (by decide), Text.utf8Chars_append] at hlen
    simp only [List.length_append, List.length_singleton] at hlen
    omega
  · obtain ⟨second, tail, rfl, _, _⟩ := seconds_pieces hrest hz
    rw [hasSeconds, hl]
    simp [List.getElem?_append, hly, hlm, hld, hlh, hli]

/-! ## versions -/

theorem skip_one (p : Char → Bool) : skip p 1 = Scan.one p := by
  funext l
  cases l with
  | nil => rfl
  | cons c l => rfl

theorem some1_scan (p : Char → Bool) : Zod.some1 p = Scan.some1 p := by
  funext l
  rw [Zod.some1, skip_one, Scan.some1]

/-- what Zod allows after the three numbers -/
theorem semver_rest {s : String} (h : Zod.semver s = true) : ∃ rest, afterPatch s = some rest ∧
    rest.head?.all (fun c => c == '-' || c == '+') = true := by
  have hread : afterPatch s = (Zod.some1 isDigit s.toList).bind fun l => (lit '.' l).bind fun l =>
      (Zod.some1 isDigit l).bind fun l => (lit '.' l).bind (Zod.some1 isDigit) := by
    have hlit : lit '.' = Scan.one (· == '.') := skip_one _
    rw [some1_scan, hlit, afterPatch, afterNumbers]
  unfold Zod.semver at h
  rw [← hread] at h
  cases hrest : afterPatch s with
  | none =>
    rw [hrest] at h
    cases h
  | some rest =>
    refine ⟨rest, rfl, ?_⟩
    rw [hrest] at h
    cases rest with
    | nil => rfl
    | cons c rest =>
      rw [Bool.and_eq_true, Bool.and_eq_true] at h
      exact h.1.1

/-! ## every format -/

theorem hex_portable {s : String} (h : Zod.hex s = true) :
    Rust.hex s = true ∧ (Text.utf8 s).all Cpp.isHexDigit = true ∧
      LuaPattern.test Lua.hexPattern (Text.utf8 s) = true := by
  have hrust : Rust.hex s = true := List.all_eq_true.mpr (hex_all h)
  have hcpp := (hex_iff s).1.symm.trans hrust
  exact ⟨hrust, hcpp, (hex_iff s).2.trans hcpp⟩

theorem base64_portable {s : String} (h : Zod.base64 s = true) :
    Rust.base64 s = true ∧ (Text.utf8 s).all Cpp.isBase64Char = true ∧
      LuaPattern.test Lua.base64Pattern (Text.utf8 s) = true := by
  have hrust : Rust.base64 s = true := List.all_eq_true.mpr (base64_all h)
  have hcpp := (base64_iff s).1.symm.trans hrust
  exact ⟨hrust, hcpp, (base64_iff s).2.trans hcpp⟩

theorem ip_portable {s : String} (h : Zod.ip s = true) :
    Rust.ip s = true ∧ (Text.utf8 s).all Cpp.isIpChar = true ∧
      LuaPattern.test Lua.ipPattern (Text.utf8 s) = true := by
  have hboth := (ip_iff s).1.symm.trans h
  rw [(ip_iff s).2]
  exact ⟨h, (Bool.and_eq_true_iff.mp hboth).2, hboth⟩

theorem semver_portable {s : String} (h : Zod.semver s = true) :
    Rust.semver s = true ∧ Cpp.isSemver (Text.utf8 s) = true ∧
      LuaPattern.test Lua.semverPattern (Text.utf8 s) = true := by
  obtain ⟨rest, hrest, hhead⟩ := semver_rest h
  rw [semver_rust_iff, semver_cpp_iff, semver_lua_iff, hrest]
  refine ⟨?_, ?_, rfl⟩
  · cases rest with
    | nil => rfl
    | cons c rest =>
      show (c == '.' || c == '-' || c == '+') = true
      rw [Bool.or_assoc, Bool.or_eq_true]
      exact .inr hhead
  · cases rest with
    | nil => rfl
    | cons c rest =>
      have hc : c = '-' ∨ c = '+' := by simpa using hhead
      rcases hc with rfl | rfl
      · rfl
      · rfl

/-- **Formats.** What Zod takes the others take, if a timestamp has its seconds. -/
theorem format_portable {f : StringFormat} {s : String} (h : Zod.formatOk f s = true)
    (hsec : f = .datetime → hasSeconds s = true) :
    (Rust.format f).1 s = true ∧ (Cpp.formatCheck f).1 (Text.utf8 s) = true ∧
      LuaPattern.test (Lua.luaPattern f).1 (Text.utf8 s) = true := by
  cases f with
  | uuid =>
    have hshaped := uuid_shaped h
    exact ⟨hshaped, hshaped, (uuid_iff _).trans hshaped⟩
  | hex => exact hex_portable h
  | base64 => exact base64_portable h
  | ip => exact ip_portable h
  | datetime =>
    have hshaped := datetime_shaped h (hsec rfl)
    exact ⟨hshaped, hshaped, (datetime_iff _).trans hshaped⟩
  | semver => exact semver_portable h

end Protocol
