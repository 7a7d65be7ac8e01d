import FiveProtect.Companion.Probes

/-!
# Companion: what a process pattern stands for

`matches_process_name` of `apps/companion/native/src/probes.cpp` compares the two ends of an image name
with what stands before and behind the first star.

* `equalsIgnoreCase_iff`    the comparison: the same up to ASCII case;
* `ends_iff`                two ends that do not overlap, and something between them;
* `matchesProcessName_star`   a pattern with a star, of any number of them;
* `matchesProcessName_iff`    with at most one;
* `findProcesses_mem`         the processes that are taken for the game.
-/

namespace Companion
open LuaPattern (byteOf)

/-! ## up to case -/

/-- the same up to ASCII case -/
def SameButCase (left right : Bytes) : Prop := left.map toLower = right.map toLower

theorem SameButCase.length {left right : Bytes} (h : SameButCase left right) :
    left.length = right.length := by
  have hlength := congrArg List.length h
  rwa [List.length_map, List.length_map] at hlength

theorem SameButCase.append {a b c d : Bytes} (hab : SameButCase a b) (hcd : SameButCase c d) :
    SameButCase (a ++ c) (b ++ d) := by
  show (a ++ c).map toLower = (b ++ d).map toLower
  rw [List.map_append, List.map_append, hab, hcd]

/-- a text that is two texts in a row up to case is cut there -/
theorem SameButCase.cut {l a b : Bytes} (h : SameButCase l (a ++ b)) :
    ∃ x y, l = x ++ y ∧ SameButCase x a ∧ SameButCase y b := by
  have hmap : l.map toLower = a.map toLower ++ b.map toLower := by
    rw [h, List.map_append]
  exact List.map_eq_append_iff.mp hmap

theorem equalsIgnoreCase_iff (left right : Bytes) :
    equalsIgnoreCase left right = true ↔ SameButCase left right := by
  unfold equalsIgnoreCase SameButCase
  induction left generalizing right with
  | nil =>
    cases right with
    | nil => simp
    | cons b right => simp
  | cons a left ih =>
    cases right with
    | nil => simp
    | cons b right =>
      have hrest := ih right
      rw [Bool.and_eq_true] at hrest
      rw [List.map_cons, List.map_cons, List.cons.injEq, ← hrest, List.zip_cons_cons, List.all_cons,
        Bool.and_eq_true, Bool.and_eq_true, beq_iff_eq, beq_iff_eq, beq_iff_eq, List.length_cons,
        List.length_cons, Nat.succ_inj]
      exact and_left_comm

/-! ## the two ends -/

/-- an end is the same as a text, up to case, exactly if the name can be cut there -/
theorem ends_iff (image start suffix : Bytes) :
    (¬image.length < start.length + suffix.length ∧ SameButCase (image.take start.length) start ∧
      SameButCase (image.drop (image.length - suffix.length)) suffix) ↔
    ∃ a w b, image = a ++ w ++ b ∧ SameButCase a start ∧ SameButCase b suffix := by
  constructor
  · rintro ⟨hlong, hstart, hsuffix⟩
    -- what lies between the ends, which is where the length guard is needed
    have hrest : image.drop (image.length - suffix.length) =
        (image.drop start.length).drop (image.length - suffix.length - start.length) := by
      rw [List.drop_drop]
      congr 1
      omega
    refine ⟨image.take start.length,
      (image.drop start.length).take (image.length - suffix.length - start.length),
      image.drop (image.length - suffix.length), ?_, hstart, hsuffix⟩
    rw [List.append_assoc, hrest, List.take_append_drop, List.take_append_drop]
  · rintro ⟨a, w, b, rfl, ha, hb⟩
    have hlength : (a ++ w ++ b).length - suffix.length = (a ++ w).length := by
      rw [List.length_append, hb.length, Nat.add_sub_cancel]
    refine ⟨?_, ?_, ?_⟩
    · rw [List.length_append, List.length_append, ha.length, hb.length]
      omega
    · rw [← ha.length, List.append_assoc, List.take_left]
      exact ha
    · rw [hlength, List.drop_left]
      exact hb

/-- the same, with the ends of the name put into the pattern's letters -/
theorem cut_iff (image start suffix : Bytes) :
    (∃ a w b, image = a ++ w ++ b ∧ SameButCase a start ∧ SameButCase b suffix) ↔
      ∃ w, SameButCase image (start ++ w ++ suffix) := by
  constructor
  · rintro ⟨a, w, b, rfl, ha, hb⟩
    exact ⟨w, (ha.append rfl).append hb⟩
  · rintro ⟨w, h⟩
    obtain ⟨x, b, rfl, hx, hb⟩ := h.cut
    obtain ⟨a, v, rfl, ha, _⟩ := hx.cut
    exact ⟨a, v, b, rfl, ha, hb⟩

/-! ## patterns -/

theorem findIdx_star {pattern : Bytes} (h : byteOf '*' ∉ pattern) :
    pattern.findIdx? (· == byteOf '*') = none := by
  rw [List.findIdx?_eq_none_iff]
  intro b hb
  exact beq_eq_false_iff_ne.mpr fun hstar => h (hstar ▸ hb)

theorem matchesProcessName_plain {pattern : Bytes} (h : byteOf '*' ∉ pattern) (image : Bytes) :
    matchesProcessName image pattern = true ↔ SameButCase image pattern := by
  unfold matchesProcessName
  rw [findIdx_star h]
  exact equalsIgnoreCase_iff image pattern

/-- the pattern is cut at its first star -/
theorem matchesProcessName_star {start : Bytes} (h : byteOf '*' ∉ start) (image suffix : Bytes) :
    matchesProcessName image (start ++ byteOf '*' :: suffix) = true ↔
      ∃ a w b, image = a ++ w ++ b ∧ SameButCase a start ∧ SameButCase b suffix := by
  have hfind : (start ++ byteOf '*' :: suffix).findIdx? (· == byteOf '*') = some start.length := by
    rw [List.findIdx?_append, findIdx_star h, List.findIdx?_cons, if_pos (beq_self_eq_true _),
      Option.none_or, Option.map_some, Nat.zero_add]
  have hdrop : (start ++ byteOf '*' :: suffix).drop (start.length + 1) = suffix := by
    rw [List.drop_append, List.drop_eq_nil_of_le (Nat.le_succ _), Nat.add_sub_cancel_left]
    rfl
  unfold matchesProcessName
  rw [hfind]
  dsimp only
  rw [List.take_left, hdrop, ← ends_iff]
  split
  · rename_i hshort
    exact iff_of_false Bool.false_ne_true fun hall => hall.1 hshort
  · rename_i hlong
    rw [Bool.and_eq_true, equalsIgnoreCase_iff, equalsIgnoreCase_iff]
    exact (and_iff_right hlong).symm

/-- **What a pattern stands for.** Without a star, itself; with one, its start, anything and its end, and
the name is cut there. -/
theorem matchesProcessName_iff (image pattern : Bytes) (h : pattern.count (byteOf '*') ≤ 1) :
    (byteOf '*' ∉ pattern →
      (matchesProcessName image pattern = true ↔ SameButCase image pattern)) ∧
    ∀ start suffix, pattern = start ++ byteOf '*' :: suffix →
      (matchesProcessName image pattern = true ↔ ∃ w, SameButCase image (start ++ w ++ suffix)) ∧
      (matchesProcessName image pattern = true →
        ∃ a w b, image = a ++ w ++ b ∧ SameButCase a start ∧ SameButCase b suffix) := by
  refine ⟨fun hplain => matchesProcessName_plain hplain image, ?_⟩
  rintro start suffix rfl
  have hstart : byteOf '*' ∉ start := by
    intro hmem
    have hpos := List.count_pos_iff.mpr hmem
    rw [List.count_append, List.count_cons_self] at h
    omega
  have hcut := matchesProcessName_star hstart image suffix
  exact ⟨hcut.trans (cut_iff image start suffix), hcut.mp⟩

theorem matchesProcessName_build :
    (byteOf '*' ∉ Text.utf8 "FiveM_*GTAProcess.exe" →
      (matchesProcessName (Text.utf8 "fivem_b3258_gtaprocess.exe") (Text.utf8 "FiveM_*GTAProcess.exe") =
          true ↔
        SameButCase (Text.utf8 "fivem_b3258_gtaprocess.exe") (Text.utf8 "FiveM_*GTAProcess.exe"))) ∧
    ∀ start suffix, Text.utf8 "FiveM_*GTAProcess.exe" = start ++ byteOf '*' :: suffix →
      (matchesProcessName (Text.utf8 "fivem_b3258_gtaprocess.exe") (Text.utf8 "FiveM_*GTAProcess.exe") =
          true ↔
        ∃ w, SameButCase (Text.utf8 "fivem_b3258_gtaprocess.exe") (start ++ w ++ suffix)) ∧
      (matchesProcessName (Text.utf8 "fivem_b3258_gtaprocess.exe") (Text.utf8 "FiveM_*GTAProcess.exe") =
          true →
        ∃ a w b, Text.utf8 "fivem_b3258_gtaprocess.exe" = a ++ w ++ b ∧ SameButCase a start ∧
          SameButCase b suffix) :=
  matchesProcessName_iff _ _ (by decide)

/-! ## find_processes -/

/-- an entry of the process list, with what the system says of the process: its start, if it may be
opened and asked, and whether one of its windows is visible -/
structure ProcessEntry where
  exeFile : String
  processId : Nat
  created : Option Int
  visibleWindow : Bool

/-- `WindowsSystemSource::find_processes`; without a list of processes nothing is found -/
def findProcesses (entries : Option (List ProcessEntry)) (names : List String) : List ProcessInfo :=
  ((entries.getD []).filter fun entry =>
      names.any fun n => matchesProcessName (Text.utf8 entry.exeFile) (Text.utf8 n)).map
    fun entry => ⟨entry.processId, entry.created.getD 0, entry.exeFile, entry.visibleWindow⟩

/-- the names the game runs under, up to ASCII case -/
def GameName (image : Bytes) : Prop :=
  (∃ build, SameButCase image (Text.utf8 "FiveM_" ++ build ++ Text.utf8 "GTAProcess.exe")) ∨
    SameButCase image (Text.utf8 "FiveM.exe") ∨ SameButCase image (Text.utf8 "CitizenFX.exe")

theorem gameName_iff (image : Bytes) :
    (fivemProcessNames.any fun n => matchesProcessName image (Text.utf8 n)) = true ↔
      GameName image := by
  have hpattern : Text.utf8 "FiveM_*GTAProcess.exe" =
      Text.utf8 "FiveM_" ++ byteOf '*' :: Text.utf8 "GTAProcess.exe" := by decide
  unfold fivemProcessNames GameName
  rw [List.any_cons, List.any_cons, List.any_cons, List.any_nil, Bool.or_false, Bool.or_eq_true,
    Bool.or_eq_true, hpattern, matchesProcessName_star (by decide), cut_iff,
    matchesProcessName_plain (by decide), matchesProcessName_plain (by decide)]

/-- the game is found under the names it runs under, and under no other -/
theorem findProcesses_mem (entries : Option (List ProcessEntry)) (p : ProcessInfo) :
    p ∈ findProcesses entries fivemProcessNames ↔
      ∃ entry ∈ entries.getD [], GameName (Text.utf8 entry.exeFile) ∧
        p = ⟨entry.processId, entry.created.getD 0, entry.exeFile, entry.visibleWindow⟩ := by
  unfold findProcesses
  rw [List.mem_map]
  constructor
  · rintro ⟨entry, hentry, hp⟩
    obtain ⟨hmem, hname⟩ := List.mem_filter.mp hentry
    exact ⟨entry, hmem, (gameName_iff _).mp hname, hp.symm⟩
  · rintro ⟨entry, hmem, hname, hp⟩
    exact ⟨entry, List.mem_filter.mpr ⟨hmem, (gameName_iff _).mpr hname⟩, hp.symm⟩

end Companion
