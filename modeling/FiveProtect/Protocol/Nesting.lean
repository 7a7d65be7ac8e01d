import FiveProtect.Protocol.ReadBack

/-!
# Protocol: how deep the scan engine reads

`json::parse` of `json::serialize`, for every value without doubles.  The parser enters 33 levels, so a value
is read back up to the depth of 32, and a text that is nested deeper is refused where it goes too deep.

* `Proper`             the values without doubles that the types of the engine can hold;
* `nesting`            how many arrays and objects there are around the deepest part of a value;
* `plain_of_proper`    up to the depth that is left, a value is `Plain`;
* `parseValue_deep`    beyond it, the parser fails;
* `parse_serialize_nesting`   both, for `json::parse`.
-/

namespace Protocol.Cpp
open LuaPattern (byteOf)

/-- no double; an integer is an `std::int64_t`, an object an `std::map` -/
inductive Proper : Value → Prop
  | null : Proper .null
  | bool (b : Bool) : Proper (.bool b)
  | int {i : Int} (h : isInt64 i = true) : Proper (.int i)
  | string (s : Bytes) : Proper (.string s)
  | array {items : List Value} (h : ∀ v ∈ items, Proper v) : Proper (.array items)
  | object {members : List (Bytes × Value)} (h : ∀ m ∈ members, Proper m.2)
    (sorted : members.Pairwise fun a b => Value.less a.1 b.1 = true) : Proper (.object members)

mutual
/-- how many arrays and objects there are around the deepest part -/
def nesting : Value → Nat
  | .array items => nestingItems items
  | .object members => nestingMembers members
  | _ => 0
def nestingItems : List Value → Nat
  | [] => 0
  | item :: items => max (nesting item + 1) (nestingItems items)
def nestingMembers : List (Bytes × Value) → Nat
  | [] => 0
  | (_, item) :: members => max (nesting item + 1) (nestingMembers members)
end

theorem nestingItems_lt {items : List Value} {room : Nat} :
    nestingItems items < room + 1 ↔ ∀ v ∈ items, nesting v < room := by
  induction items with
  | nil => exact ⟨fun _ v hv => absurd hv List.not_mem_nil, fun _ => Nat.succ_pos room⟩
  | cons v items ih =>
    rw [nestingItems, Nat.max_lt, ih, List.forall_mem_cons, Nat.add_lt_add_iff_right]

theorem nestingMembers_lt {members : List (Bytes × Value)} {room : Nat} :
    nestingMembers members < room + 1 ↔ ∀ m ∈ members, nesting m.2 < room := by
  induction members with
  | nil => exact ⟨fun _ m hm => absurd hm List.not_mem_nil, fun _ => Nat.succ_pos room⟩
  | cons m members ih =>
    rw [nestingMembers, Nat.max_lt, ih, List.forall_mem_cons, Nat.add_lt_add_iff_right]

/-- a value is plain where there is room for it -/
theorem plain_of_proper {v : Value} (h : Proper v) {room : Nat} (hroom : nesting v < room) :
    Plain room v := by
  induction h generalizing room with
  | null =>
    obtain ⟨room, rfl⟩ := Nat.exists_eq_succ_of_ne_zero (Nat.ne_zero_of_lt hroom)
    exact .null room
  | bool b =>
    obtain ⟨room, rfl⟩ := Nat.exists_eq_succ_of_ne_zero (Nat.ne_zero_of_lt hroom)
    exact .bool room b
  | int hi =>
    obtain ⟨room, rfl⟩ := Nat.exists_eq_succ_of_ne_zero (Nat.ne_zero_of_lt hroom)
    exact .int room hi
  | string s =>
    obtain ⟨room, rfl⟩ := Nat.exists_eq_succ_of_ne_zero (Nat.ne_zero_of_lt hroom)
    exact .string room s
  | array _ ih =>
    obtain ⟨room, rfl⟩ := Nat.exists_eq_succ_of_ne_zero (Nat.ne_zero_of_lt hroom)
    exact .array fun v hv => ih v hv (nestingItems_lt.mp hroom v hv)
  | object _ sorted ih =>
    obtain ⟨room, rfl⟩ := Nat.exists_eq_succ_of_ne_zero (Nat.ne_zero_of_lt hroom)
    exact .object (fun m hm => ih m hm (nestingMembers_lt.mp hroom m hm)) sorted

/-! ## too deep -/

/-- the parser has failed since there is no room left -/
def TooDeep {α : Type} (read : Except Failure α) : Prop := ∃ left, read = .error ⟨"nesting too deep", left⟩

theorem TooDeep.bind {α β : Type} {read : Except Failure α} (h : TooDeep read) (f : α → Except Failure β) :
    TooDeep (read >>= f) := by
  obtain ⟨left, rfl⟩ := h
  exact ⟨left, rfl⟩

theorem TooDeep.repeatedly {σ α : Type} {step : σ → Bytes → Except Failure ((σ ⊕ α) × Bytes)} {s : σ}
    {text : Bytes} (h : TooDeep (step s text)) : TooDeep (Reader.repeatedly step stuck s text) := by
  obtain ⟨left, hstep⟩ := h
  refine ⟨left, ?_⟩
  rw [Reader.repeatedly, Reader.loop, hstep]

section
variable {read : Bytes → Except Failure (Value × Bytes)} (hread : Reader.Shortens read) {D : Doubles}
  {room : Nat}
include hread

/-- **Loop.** The items before the first one that is too deep are read, and this one is not. -/
theorem arrayLoop_deep {v : Value} {items : List Value} (rest : Bytes)
    (hv : ∀ x ∈ v :: items, (nesting x < room →
        ∀ rest, Stops rest → read (serialize D x ++ rest) = .ok (x, rest)) ∧
      (room ≤ nesting x → ∀ rest, TooDeep (read (serialize D x ++ rest))))
    (hdeep : ∃ x ∈ v :: items, room ≤ nesting x) (array : List Value) :
    TooDeep (Reader.repeatedly (arrayStep read) stuck array
      (serialize D v ++ (serializeItems D false items ++ byteOf ']' :: rest))) := by
  induction items generalizing array v with
  | nil =>
    obtain ⟨x, hx, hroom⟩ := hdeep
    rw [List.mem_singleton.mp hx] at hroom
    exact (((hv v List.mem_cons_self).2 hroom _).bind _).repeatedly
  | cons w items ih =>
    by_cases hroom : room ≤ nesting v
    · exact (((hv v List.mem_cons_self).2 hroom _).bind _).repeatedly
    · have hmore := arrayStep_more ((hv v List.mem_cons_self).1 (Nat.lt_of_not_le hroom)) array
        (serialize D w ++ (serializeItems D false items ++ byteOf ']' :: rest))
      have htext : serializeItems D false (w :: items) ++ byteOf ']' :: rest =
          byteOf ',' :: (serialize D w ++ (serializeItems D false items ++ byteOf ']' :: rest)) := by
        rw [serializeItems, List.append_assoc, List.append_assoc]
        rfl
      rw [htext, Reader.repeatedly_next (arrayStep_shortens hread) hmore]
      refine ih (fun x hx => hv x (List.mem_cons_of_mem v hx)) ?_ (array ++ [v])
      obtain ⟨x, hx, hx'⟩ := hdeep
      rcases List.mem_cons.mp hx with rfl | hx
      · exact absurd hx' hroom
      · exact ⟨x, hx, hx'⟩

/-- **Loop.** The same for the members of an object. -/
theorem objectLoop_deep {m : Bytes × Value} {members : List (Bytes × Value)} (rest : Bytes)
    (hm : ∀ x ∈ m :: members, (nesting x.2 < room →
        ∀ rest, Stops rest → read (serialize D x.2 ++ rest) = .ok (x.2, rest)) ∧
      (room ≤ nesting x.2 → ∀ rest, TooDeep (read (serialize D x.2 ++ rest))))
    (hdeep : ∃ x ∈ m :: members, room ≤ nesting x.2) (object : List (Bytes × Value)) :
    TooDeep (Reader.repeatedly (objectStep read) stuck object
      (escape m.1 ++ byteOf ':' :: (serialize D m.2 ++
        (serializeMembers D false members ++ closeBrace :: rest)))) := by
  have hfails : ∀ (x : Bytes × Value) (object : List (Bytes × Value)) (rest : Bytes),
      (∀ rest, TooDeep (read (serialize D x.2 ++ rest))) →
      TooDeep (objectStep read object (escape x.1 ++ byteOf ':' :: (serialize D x.2 ++ rest))) := by
    intro x object rest hx
    unfold objectStep
    rw [escape_append, skipWs_cons (by decide), ← escape_append, parseString_escape]
    exact (hx rest).bind _
  induction members generalizing object m with
  | nil =>
    obtain ⟨x, hx, hroom⟩ := hdeep
    rw [List.mem_singleton.mp hx] at hroom
    exact (hfails m object _ ((hm m List.mem_cons_self).2 hroom)).repeatedly
  | cons n members ih =>
    by_cases hroom : room ≤ nesting m.2
    · exact (hfails m object _ ((hm m List.mem_cons_self).2 hroom)).repeatedly
    · have hmore := objectStep_more ((hm m List.mem_cons_self).1 (Nat.lt_of_not_le hroom)) m.1 object
        (escape n.1 ++ byteOf ':' :: (serialize D n.2 ++
          (serializeMembers D false members ++ closeBrace :: rest)))
      have htext : serializeMembers D false (n :: members) ++ closeBrace :: rest =
          byteOf ',' :: (escape n.1 ++ byteOf ':' :: (serialize D n.2 ++
            (serializeMembers D false members ++ closeBrace :: rest))) := by
        rw [serializeMembers, List.append_assoc, List.append_assoc, List.append_assoc, List.cons_append]
        rfl
      rw [htext, Reader.repeatedly_next (objectStep_shortens hread) hmore]
      refine ih (fun x hx => hm x (List.mem_cons_of_mem m hx)) ?_ _
      obtain ⟨x, hx, hx'⟩ := hdeep
      rcases List.mem_cons.mp hx with rfl | hx
      · exact absurd hx' hroom
      · exact ⟨x, hx, hx'⟩

end

theorem exists_deep_item {items : List Value} {room : Nat} (h : room + 1 ≤ nestingItems items) :
    ∃ v ∈ items, room ≤ nesting v := by
  by_contra hno
  have hall : ∀ v ∈ items, nesting v < room := fun v hv => Nat.lt_of_not_le fun hle => hno ⟨v, hv, hle⟩
  exact absurd (nestingItems_lt.mpr hall) (Nat.not_lt.mpr h)

theorem exists_deep_member {members : List (Bytes × Value)} {room : Nat}
    (h : room + 1 ≤ nestingMembers members) : ∃ m ∈ members, room ≤ nesting m.2 := by
  by_contra hno
  have hall : ∀ m ∈ members, nesting m.2 < room := fun m hm => Nat.lt_of_not_le fun hle => hno ⟨m, hm, hle⟩
  exact absurd (nestingMembers_lt.mpr hall) (Nat.not_lt.mpr h)

theorem parseValue_zero (D : Doubles) {room : Nat} (h : room ≤ 0) (text : Bytes) :
    TooDeep (parseValue D room text) := by
  rw [Nat.le_zero.mp h]
  exact ⟨text.length, rfl⟩

/-- **Too deep.** Where there is no room for a value, the parser fails. -/
theorem parseValue_deep (D : Doubles) {v : Value} (h : Proper v) {room : Nat} (hroom : room ≤ nesting v)
    (rest : Bytes) : TooDeep (parseValue D room (serialize D v ++ rest)) := by
  induction h generalizing room rest with
  | null => exact parseValue_zero D hroom _
  | bool b => exact parseValue_zero D hroom _
  | int hi => exact parseValue_zero D hroom _
  | string s => exact parseValue_zero D hroom _
  | @array items h ih =>
    cases room with
    | zero => exact parseValue_zero D (le_refl 0) _
    | succ room =>
      have hdeep := exists_deep_item hroom
      show TooDeep (parseArray (parseValue D room) (serializeItems D true items ++ [byteOf ']'] ++ rest))
      rw [List.append_assoc, List.singleton_append]
      cases items with
      | nil => exact absurd hroom (Nat.not_succ_le_zero room)
      | cons v items =>
        obtain ⟨c, text, htext, hws, hclose⟩ := serialize_head D
          (plain_of_proper (h v List.mem_cons_self) (Nat.lt_succ_self _))
          (serializeItems D false items ++ byteOf ']' :: rest)
        have hitems : serializeItems D true (v :: items) ++ byteOf ']' :: rest = c :: text := by
          rw [serializeItems, if_pos rfl, List.nil_append, List.append_assoc]
          exact htext
        have hhead : (c :: text).head? ≠ some (byteOf ']') := fun h => hclose (Option.some.inj h)
        rw [hitems, parseArray, skipWs_cons hws, if_neg hhead, ← htext]
        refine arrayLoop_deep (parseValue_shortens D room) rest (fun x hx => ⟨fun hx' rest hrest => ?_,
          fun hx' rest => ?_⟩) hdeep []
        · exact parseValue_serialize D (plain_of_proper (h x hx) hx') hrest
        · exact ih x hx hx' rest
  | @object members h sorted ih =>
    cases room with
    | zero => exact parseValue_zero D (le_refl 0) _
    | succ room =>
      have hdeep := exists_deep_member hroom
      show TooDeep (parseObject (parseValue D room) (serializeMembers D true members ++ [closeBrace] ++ rest))
      rw [List.append_assoc, List.singleton_append]
      cases members with
      | nil => exact absurd hroom (Nat.not_succ_le_zero room)
      | cons m members =>
        have hmembers : serializeMembers D true (m :: members) ++ closeBrace :: rest =
            escape m.1 ++ byteOf ':' :: (serialize D m.2 ++
              (serializeMembers D false members ++ closeBrace :: rest)) := by
          rw [serializeMembers, if_pos rfl, List.nil_append, List.append_assoc, List.append_assoc,
            List.cons_append]
        rw [hmembers, parseObject, escape_append, skipWs_cons (by decide), ← escape_append]
        refine objectLoop_deep (parseValue_shortens D room) rest (fun x hx => ⟨fun hx' rest hrest => ?_,
          fun hx' rest => ?_⟩) hdeep []
        · exact parseValue_serialize D (plain_of_proper (h x hx) hx') hrest
        · exact ih x hx hx' rest

/-- **Serialised JSON reads back unchanged**, up to the depth that the parser enters; nested deeper, the text is
refused where it goes too deep. -/
theorem parse_serialize_nesting (D : Doubles) (v : Value) (h : Proper v) :
    (nesting v ≤ 32 → parse D (serialize D v) = .ok v) ∧
      (32 < nesting v → ∃ offset : Nat,
        parse D (serialize D v) = .error ("nesting too deep at offset " ++ toString offset)) := by
  refine ⟨fun hle => parse_serialize D (plain_of_proper h (Nat.lt_succ_of_le hle)), fun hlt => ?_⟩
  obtain ⟨left, hleft⟩ := @parseValue_deep D v h 33 hlt []
  rw [List.append_nil] at hleft
  refine ⟨(serialize D v).length - left, ?_⟩
  rw [parse, hleft]
  rfl

/-- `count` arrays, one in the other -/
def arrays : Nat → Value
  | 0 => .int (-9223372036854775808)
  | count + 1 => .array [arrays count]

theorem arrays_proper (count : Nat) : Proper (arrays count) := by
  induction count with
  | zero => exact .int rfl
  | succ count ih =>
    refine .array fun v hv => ?_
    rw [List.mem_singleton.mp hv]
    exact ih

theorem arrays_nesting (count : Nat) : nesting (arrays count) = count := by
  induction count with
  | zero => rfl
  | succ count ih =>
    show max (nesting (arrays count) + 1) 0 = count + 1
    rw [ih, Nat.max_zero]

/-- the least integer, in 32 arrays and in 33 -/
theorem parse_serialize_nesting_arrays :
    parse ⟨fun _ => [], fun _ => none⟩ (serialize ⟨fun _ => [], fun _ => none⟩ (arrays 32)) = .ok (arrays 32) ∧
      ∃ offset : Nat, parse ⟨fun _ => [], fun _ => none⟩ (serialize ⟨fun _ => [], fun _ => none⟩ (arrays 33)) =
        .error ("nesting too deep at offset " ++ toString offset) :=
  ⟨(parse_serialize_nesting _ _ (arrays_proper 32)).1 (by rw [arrays_nesting]),
    (parse_serialize_nesting _ _ (arrays_proper 33)).2 (by rw [arrays_nesting]; decide)⟩

end Protocol.Cpp
