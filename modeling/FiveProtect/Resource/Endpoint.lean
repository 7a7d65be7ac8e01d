import FiveProtect.Backend.Policy
import FiveProtect.Lib.AsciiClass
import FiveProtect.Lib.IpText
import FiveProtect.Protocol.TextFormats

/-!
# The address of a connecting player

`Gate.identifiersOf` of `resources/fiveprotect/server/gate.lua`: the identifiers of a player, and the address of
the connection without its port.

* `identifiersOf`     the function;
* `EndpointOf`        the endpoints of a connection from an address;
* `address_iff`       the address is found unless the endpoint is bracketed.
-/

namespace Resource
open LuaPattern

structure PlayerIdentifiers where
  license : Bytes
  ip : Bytes
  steam : Option Bytes
  discord : Option Bytes

/-- `'^([^:]+):%d+$'`: what is captured -/
def addressOf : Bytes → Option Bytes :=
  capturePlus (.set true [.char ':']) ⟨lit ':' ++ [(.digit, .plus)], true⟩

/-- one turn of the loop over the identifiers -/
def PlayerIdentifiers.identify (player : PlayerIdentifiers) : Option Bytes → PlayerIdentifiers
  | none => player
  | some identifier =>
    if identifier.take 8 = Text.utf8 "license:" then { player with license := identifier }
    else if identifier.take 6 = Text.utf8 "steam:" then { player with steam := some identifier }
    else if identifier.take 8 = Text.utf8 "discord:" then { player with discord := some identifier }
    else player

/-- the arguments are what `GetPlayerEndpoint` and `GetPlayerIdentifier` return for the player -/
def identifiersOf (endpoint : Option Bytes) (identifiers : List (Option Bytes)) :
    PlayerIdentifiers :=
  let player := identifiers.foldl PlayerIdentifiers.identify ⟨[], endpoint.getD [], none, none⟩
  match addressOf player.ip with
  | some address => { player with ip := address }
  | none => player

/-! ## the address -/

theorem foldl_identify_ip (identifiers : List (Option Bytes)) (player : PlayerIdentifiers) :
    (identifiers.foldl PlayerIdentifiers.identify player).ip = player.ip := by
  induction identifiers generalizing player with
  | nil => rfl
  | cons identifier identifiers ih =>
    rw [List.foldl_cons, ih]
    cases identifier with
    | none => rfl
    | some identifier =>
      unfold PlayerIdentifiers.identify
      dsimp only
      split_ifs <;> rfl

/-- the identifiers do not matter for the address -/
theorem identifiersOf_ip (endpoint : Bytes) (identifiers : List (Option Bytes)) :
    (identifiersOf (some endpoint) identifiers).ip = (addressOf endpoint).getD endpoint := by
  unfold identifiersOf
  dsimp only
  rw [foldl_identify_ip]
  show PlayerIdentifiers.ip (match addressOf endpoint with
    | some address => _
    | none => _) = _
  cases addressOf endpoint with
  | none => exact foldl_identify_ip _ _
  | some address => rfl

theorem notColon_test (b : UInt8) : (Class.set true [.char ':']).test b = true ↔ b ≠ byteOf ':' := by
  simp [Class.test, testAny]

/-- `:%d+$` -/
theorem port_test (s : Bytes) : matchItems true (lit ':' ++ [(.digit, .plus)]) s = true ↔
    ∃ port, s = byteOf ':' :: port ∧ port ≠ [] ∧ ∀ b ∈ port, isDigit b = true := by
  have hdigits : ∀ t, matchItems true [(.digit, .plus)] t = true ↔
      t ≠ [] ∧ ∀ b ∈ t, isDigit b = true := by
    intro t
    show test ⟨[(.digit, .plus)], true⟩ t = true ↔ _
    rw [test_plus, Bool.and_eq_true, List.all_eq_true, Bool.not_eq_true', List.isEmpty_eq_false_iff]
    rfl
  show matchItems true ([':'].flatMap lit ++ [(.digit, .plus)]) s = true ↔ _
  rw [matchItems_lits]
  exact exists_congr fun port => and_congr_right fun _ => hdigits port

/-- a port that is stripped follows the only colon -/
theorem count_of_addressOf {endpoint address : Bytes} (h : addressOf endpoint = some address) :
    endpoint.count (byteOf ':') = 1 := by
  cases endpoint with
  | nil => cases h
  | cons b s =>
    obtain ⟨hb, h⟩ := Option.ite_none_right_eq_some.mp h
    obtain ⟨run, hrun, rfl⟩ := Option.map_eq_some_iff.mp h
    obtain ⟨rest, rfl, hall, hrest⟩ := captureStar_some hrun
    obtain ⟨port, rfl, -, hdigits⟩ := (port_test rest).mp hrest
    have hnone : byteOf ':' ∉ b :: run := by
      intro hmem
      rcases List.mem_cons.mp hmem with rfl | hmem
      · exact (notColon_test _).mp hb rfl
      · exact (notColon_test _).mp (hall _ hmem) rfl
    have hport : byteOf ':' ∉ port := fun hmem => absurd (hdigits _ hmem) (by decide)
    rw [← List.cons_append, List.count_append, List.count_cons_self, List.count_eq_zero.mpr hnone,
      List.count_eq_zero.mpr hport]

theorem addressOf_port {address port : Bytes} (haddress : address ≠ [] ∧ byteOf ':' ∉ address)
    (hport : port ≠ [] ∧ ∀ b ∈ port, isDigit b = true) :
    addressOf (address ++ byteOf ':' :: port) = some address := by
  obtain ⟨b, run, rfl⟩ := List.exists_cons_of_ne_nil haddress.1
  obtain ⟨hb, hrun⟩ := not_or.mp (mt List.mem_cons.mpr haddress.2)
  have htest : ∀ x ∈ run, (Class.set true [.char ':']).test x = true := by
    intro x hx
    refine (notColon_test x).mpr fun heq => hrun (heq ▸ hx)
  have hstop : ∀ x ∈ (byteOf ':' :: port).head?, (Class.set true [.char ':']).test x = false := by
    intro x hx
    cases hx
    decide
  show (if (Class.set true [.char ':']).test b then
    (captureStar _ _ (run ++ byteOf ':' :: port)).map (b :: ·) else none) = _
  rw [if_pos ((notColon_test b).mpr (Ne.symm hb)),
    captureStar_run htest hstop ((port_test _).mpr ⟨port, rfl, hport⟩)]
  rfl

/-! ## endpoints -/

structure IsPort (text : String) : Prop where
  nonempty : text.toList ≠ []
  digits : ∀ c ∈ text.toList, Protocol.Zod.isDigit c = true

/-- the endpoints of a connection from an address, with a port and without -/
inductive EndpointOf : String → String → Prop where
  | v4 {a : String} (h : IpText.IsIPv4 a.toList) : EndpointOf a a
  | v4Port {a p : String} (h : IpText.IsIPv4 a.toList) (hp : IsPort p) : EndpointOf a (a ++ ":" ++ p)
  | v6 {b : String} (h : IpText.IsIPv6 b.toList) : EndpointOf b b
  | v6Port {b p : String} (h : IpText.IsIPv6 b.toList) (hp : IsPort p) :
    EndpointOf b ("[" ++ b ++ "]:" ++ p)

/-- the address is found, and it is one for the backend -/
def Found (address : String) (ip : Bytes) : Prop :=
  ∃ text, ip = Text.utf8 text ∧ text = address ∧ Protocol.Zod.ip text = true ∧
    Backend.normaliseIp text = Backend.normaliseIp address

/-- a text of the characters of an address -/
structure Plain (text : String) : Prop where
  nonempty : text.toList ≠ []
  chars : ∀ c ∈ text.toList, IpText.isAddressChar c = true

theorem plain_v4 {a : String} (h : IpText.IsIPv4 a.toList) : Plain a := ⟨h.chars.1, h.chars.2⟩

theorem plain_v6 {b : String} (h : IpText.IsIPv6 b.toList) : Plain b := by
  refine ⟨fun hnil => ?_, h.chars⟩
  have hcolons := h.colons
  rw [hnil] at hcolons
  exact absurd hcolons (by decide)

theorem Plain.found {address : String} (h : Plain address) : Found address (Text.utf8 address) := by
  refine ⟨address, rfl, rfl, ?_, rfl⟩
  unfold Protocol.Zod.ip
  rw [Bool.and_eq_true, Bool.not_eq_true', List.isEmpty_eq_false_iff, List.all_eq_true]
  exact ⟨h.nonempty, h.chars⟩

/-- what starts with an address is not bracketed -/
theorem Plain.head {address : String} (h : Plain address) (rest : String) :
    (address ++ rest).toList.head? ≠ some '[' := by
  obtain ⟨c, text, htext⟩ := List.exists_cons_of_ne_nil h.nonempty
  rw [String.toList_append, htext]
  intro hhead
  have hc : c = '[' := Option.some.inj hhead
  exact absurd (h.chars c (htext ▸ List.mem_cons_self)) (hc ▸ by decide)

theorem colons_utf8 (text : String) :
    (Text.utf8 text).count (byteOf ':') = text.toList.count ':' :=
  Text.count_utf8Chars (by decide) text.toList

/-- without exactly one colon the endpoint is taken as it is -/
theorem identifiersOf_of_count {endpoint : String} (h : endpoint.toList.count ':' ≠ 1)
    (identifiers : List (Option Bytes)) :
    (identifiersOf (some (Text.utf8 endpoint)) identifiers).ip = Text.utf8 endpoint := by
  rw [identifiersOf_ip]
  cases haddress : addressOf (Text.utf8 endpoint) with
  | none => rfl
  | some address =>
    have hcount := count_of_addressOf haddress
    rw [colons_utf8] at hcount
    exact absurd hcount h

theorem utf8_colon (a p : String) : Text.utf8 (a ++ ":" ++ p) = Text.utf8 a ++ byteOf ':' :: Text.utf8 p := by
  have hcolon : Text.utf8 ":" = [byteOf ':'] := by decide
  rw [Text.utf8_append, Text.utf8_append, hcolon, List.append_assoc]
  rfl

theorem identifiersOf_v4Port {a p : String} (h : IpText.IsIPv4 a.toList) (hp : IsPort p)
    (identifiers : List (Option Bytes)) :
    (identifiersOf (some (Text.utf8 (a ++ ":" ++ p))) identifiers).ip = Text.utf8 a := by
  have hnone : byteOf ':' ∉ Text.utf8 a := by
    rw [← List.count_eq_zero, colons_utf8, List.count_eq_zero]
    exact h.no_colon
  have hdigits := (Protocol.digitClass.run_utf8 hp.digits).2
  have ha : Text.utf8 a ≠ [] := Text.utf8_ne_nil fun hnil => h.chars.1 (congrArg String.toList hnil)
  have hport : Text.utf8 p ≠ [] := Text.utf8_ne_nil fun hnil => hp.nonempty (congrArg String.toList hnil)
  rw [identifiersOf_ip, utf8_colon, addressOf_port ⟨ha, hnone⟩ ⟨hport, hdigits⟩]
  rfl

/-- a bracketed endpoint has the colons of its address and one more -/
theorem count_v6Port {b p : String} (h : IpText.IsIPv6 b.toList) :
    ("[" ++ b ++ "]:" ++ p).toList.count ':' ≠ 1 := by
  have hcolons := h.colons
  rw [String.toList_append, String.toList_append, String.toList_append, List.count_append,
    List.count_append, List.count_append]
  omega

/-- the port is stripped for every address, unless the endpoint is bracketed -/
theorem address_iff {address endpoint : String} (h : EndpointOf address endpoint)
    (identifiers : List (Option Bytes)) :
    Found address (identifiersOf (some (Text.utf8 endpoint)) identifiers).ip ↔
      endpoint.toList.head? ≠ some '[' := by
  have hbare : ∀ {text : String}, Plain text → text.toList.head? ≠ some '[' := by
    intro text htext
    have hhead := htext.head ""
    rwa [String.append_empty] at hhead
  cases h with
  | v4 h =>
    have hcount : address.toList.count ':' ≠ 1 := by
      rw [List.count_eq_zero.mpr h.no_colon]
      exact Nat.zero_ne_one
    rw [identifiersOf_of_count hcount]
    exact iff_of_true (plain_v4 h).found (hbare (plain_v4 h))
  | v4Port h hp =>
    rw [identifiersOf_v4Port h hp, String.append_assoc]
    exact iff_of_true (plain_v4 h).found ((plain_v4 h).head _)
  | v6 h =>
    have hcount : address.toList.count ':' ≠ 1 := by
      have hcolons := h.colons
      omega
    rw [identifiersOf_of_count hcount]
    exact iff_of_true (plain_v6 h).found (hbare (plain_v6 h))
  | @v6Port p h hp =>
    rw [identifiersOf_of_count (count_v6Port h)]
    have hhead : ("[" ++ address ++ "]:" ++ p).toList.head? = some '[' := by
      rw [String.append_assoc, String.append_assoc, String.toList_append]
      rfl
    refine iff_of_false ?_ (not_not_intro hhead)
    rintro ⟨text, hutf8, rfl, -⟩
    exact hbare (plain_v6 h) (Text.utf8_injective hutf8 ▸ hhead)

theorem documentation_v4 : IpText.IsIPv4 "203.0.113.42".toList :=
  ⟨['2', '0', '3'], ['0'], ['1', '1', '3'], ['4', '2'], ⟨by decide, by decide, by decide⟩,
    ⟨by decide, by decide, by decide⟩, ⟨by decide, by decide, by decide⟩,
    ⟨by decide, by decide, by decide⟩, by decide⟩

theorem documentation_v6 : IpText.IsIPv6 "2001:db8::1".toList := by
  have hleft : ∀ g ∈ [['2', '0', '0', '1'], ['d', 'b', '8']], IpText.IsGroup g := by
    intro g hg
    simp only [List.mem_cons, List.not_mem_nil, or_false] at hg
    rcases hg with rfl | rfl
    · exact ⟨by decide, by decide⟩
    · exact ⟨by decide, by decide⟩
  exact .inr ⟨_, [['1']], 1, hleft, .cons ⟨by decide, by decide⟩ .nil, by decide, by decide⟩

theorem fivemPort : IsPort "30120" where
  nonempty := by decide
  digits := List.all_eq_true.mp (by decide)

theorem address_v4 : Found "203.0.113.42"
    (identifiersOf (some (Text.utf8 ("203.0.113.42" ++ ":" ++ "30120"))) [some (Text.utf8 "license:x")]).ip :=
  (address_iff (.v4Port documentation_v4 fivemPort) _).mpr (by decide)

/-- a player who connects over IPv6 -/
theorem address_bracketed : EndpointOf "2001:db8::1" "[2001:db8::1]:30120" ∧
    ¬Found "2001:db8::1" (identifiersOf (some (Text.utf8 "[2001:db8::1]:30120")) []).ip := by
  have hendpoint : "[" ++ "2001:db8::1" ++ "]:" ++ "30120" = "[2001:db8::1]:30120" := by decide
  refine ⟨hendpoint ▸ .v6Port documentation_v6 fivemPort, ?_⟩
  rw [← hendpoint, identifiersOf_of_count (count_v6Port documentation_v6)]
  rintro ⟨text, hutf8, rfl, -⟩
  exact absurd (Text.utf8_injective hutf8) (by decide)

end Resource
