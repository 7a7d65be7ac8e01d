import FiveProtect.Backend.PendingLookup
import FiveProtect.Lib.IpText
import FiveProtect.Protocol.Formats

/-!
# One address, looked up and compared

The pending lookup hands `normaliseIp` of the companion's address to PostgreSQL, and the relay check compares it
with `normaliseIp` of what PostgreSQL prints of the stored address.

* `quad`              an IPv4 address as PostgreSQL prints it;
* `InetText`          what the code relies on of the type `inet`;
* `Mapped`            an IPv6 address that stands for an IPv4 one;
* `Agrees`            when both mean the same;
* `lookup_iff_relay`  so for every stored address and every request.
-/

namespace Backend
open Protocol

/-! ## the texts of PostgreSQL -/

/-- four numbers of eight bits -/
def quad (bits : Nat) : String :=
  toString (bits / 16777216 % 256) ++ "." ++ toString (bits / 65536 % 256) ++ "." ++
    toString (bits / 256 % 256) ++ "." ++ toString (bits % 256)

/-- an IPv4-mapped IPv6 address -/
def Mapped (ip : Inet) : Prop := ip.v6 = true ∧ ip.bits / 4294967296 = 0xFFFF

instance (ip : Inet) : Decidable (Mapped ip) := inferInstanceAs (Decidable (_ ∧ _))

/-- the IPv4 address in the last 32 bits -/
def embedded (ip : Inet) : String := quad (ip.bits % 4294967296)

/-- what is documented of `inet`, for the values that come from a text without a mask -/
structure InetText (P : Platform) : Prop where
  /-- `host` prints a text that is read as the same address -/
  reads : ∀ text ip, '/' ∉ text.toList → P.inetIn text = some ip → P.inetIn (P.inetHost ip) = some ip
  v4 : ∀ text ip, P.inetIn text = some ip → ip.v6 = false → P.inetHost ip = quad ip.bits
  mapped : ∀ text ip, P.inetIn text = some ip → Mapped ip → P.inetHost ip = mappedPrefix ++ embedded ip
  /-- an IPv6 address is printed in lower case -/
  v6 : ∀ text ip, P.inetIn text = some ip → ip.v6 = true →
    ∀ c ∈ (P.inetHost ip).toList, IpText.isAddressChar c = true ∧ c.toLower = c
  /-- a dotted quad is an IPv4 address, and behind `::ffff:` it makes a mapped one -/
  quads : ∀ text ip, isDottedQuad text.toList = true →
    (P.inetIn text = some ip → ip.v6 = false) ∧ (P.inetIn (mappedPrefix ++ text) = some ip → Mapped ip)

/-! ## what normalising leaves alone -/

theorem trim_eq_self {s : String} (h : ∀ c ∈ s.toList, Text.isJsSpace c = false) : Text.trim s = s := by
  have hdrop : ∀ l : List Char, (∀ c ∈ l, Text.isJsSpace c = false) → l.dropWhile Text.isJsSpace = l := by
    intro l hl
    cases l with
    | nil => rfl
    | cons c l =>
      rw [List.dropWhile_cons, hl c List.mem_cons_self]
      rfl
  unfold Text.trim
  rw [hdrop _ h, hdrop _ fun c hc => h c (List.mem_reverse.mp hc), List.reverse_reverse, String.ofList_toList]

theorem toLowerCase_eq_self {s : String} (h : ∀ c ∈ s.toList, c.toLower = c) : Text.toLowerCase s = s := by
  unfold Text.toLowerCase
  rw [List.map_congr_left h, List.map_id', String.ofList_toList]

theorem isJsSpace_of_address {c : Char} (h : IpText.isAddressChar c = true) : Text.isJsSpace c = false := by
  have hall : ∀ n < 128, IpText.isAddressChar (Char.ofNat n) = true → Text.isJsSpace (Char.ofNat n) = false := by
    decide
  have hc := hall c.toNat (isIp_ascii h)
  rw [Char.ofNat_toNat] at hc
  exact hc h

/-- the characters of the addresses that PostgreSQL prints -/
def Printed (s : String) : Prop := ∀ c ∈ s.toList, IpText.isAddressChar c = true ∧ c.toLower = c

theorem printed_of_all {s : String}
    (h : (s.toList.all fun c => IpText.isAddressChar c && c.toLower == c) = true) : Printed s := by
  intro c hc
  have hall := List.all_eq_true.mp h c hc
  rwa [Bool.and_eq_true, beq_iff_eq] at hall

/-- a printed address stays as it is, or loses the prefix of a mapped one -/
theorem normaliseIp_printed {s : String} (h : Printed s) : normaliseIp s =
    if Text.startsWith s mappedPrefix && isDottedQuad (Text.slice s mappedPrefix.toList.length).toList
      then Text.slice s mappedPrefix.toList.length else s := by
  unfold normaliseIp
  rw [trim_eq_self fun c hc => isJsSpace_of_address (h c hc).1, toLowerCase_eq_self fun c hc => (h c hc).2]

/-- a number of eight bits in decimal -/
theorem octet_text {n : Nat} (h : n < 256) : (∀ c ∈ (toString n).toList, Zod.isDigit c = true) ∧
    1 ≤ (toString n).toList.length ∧ (toString n).toList.length ≤ 3 := by
  have hall : ((List.range 256).all fun n => (Nat.toDigits 10 n).all Zod.isDigit &&
      decide (1 ≤ (Nat.toDigits 10 n).length ∧ (Nat.toDigits 10 n).length ≤ 3)) = true := by
    decide +kernel
  have htext : (toString n).toList = Nat.toDigits 10 n := String.toList_ofList
  have hn := List.all_eq_true.mp hall n (List.mem_range.mpr h)
  rw [Bool.and_eq_true, List.all_eq_true, decide_eq_true_iff] at hn
  rw [htext]
  exact hn

theorem octet_append {digits rest : List Char} (hdigits : ∀ c ∈ digits, Zod.isDigit c = true)
    (hlength : 1 ≤ digits.length ∧ digits.length ≤ 3) (hrest : ∀ c ∈ rest.head?, Zod.isDigit c = false) :
    octet (digits ++ rest) = some rest := by
  have hstop : rest.takeWhile Zod.isDigit = [] ∧ rest.dropWhile Zod.isDigit = rest := by
    cases rest with
    | nil => exact ⟨rfl, rfl⟩
    | cons c rest =>
      have hc : Zod.isDigit c ≠ true := by
        rw [hrest c rfl]
        exact Bool.false_ne_true
      exact ⟨List.takeWhile_cons_of_neg hc, List.dropWhile_cons_of_neg hc⟩
  unfold octet
  rw [List.takeWhile_append_of_pos hdigits, List.dropWhile_append_of_pos hdigits, hstop.1, hstop.2,
    List.append_nil]
  exact if_pos hlength

theorem quad_toList (bits : Nat) : (quad bits).toList =
    (toString (bits / 16777216 % 256)).toList ++ '.' :: ((toString (bits / 65536 % 256)).toList ++
      '.' :: ((toString (bits / 256 % 256)).toList ++ '.' :: (toString (bits % 256)).toList)) := by
  have hdot : ".".toList = ['.'] := by decide
  unfold quad
  simp only [String.toList_append, hdot, List.append_assoc, List.cons_append, List.nil_append]

theorem isDottedQuad_quad (bits : Nat) : isDottedQuad (quad bits).toList = true := by
  have hoctet : ∀ n rest, octet ((toString (n % 256)).toList ++ '.' :: rest) = some ('.' :: rest) := by
    intro n rest
    obtain ⟨hdigits, hlength⟩ := octet_text (Nat.mod_lt n (by decide))
    refine octet_append hdigits hlength fun c hc => ?_
    cases hc
    decide
  have hlast : octet (toString (bits % 256)).toList = some [] := by
    obtain ⟨hdigits, hlength⟩ := octet_text (Nat.mod_lt bits (by decide))
    have h := @octet_append _ [] hdigits hlength fun c hc => by cases hc
    rwa [List.append_nil] at h
  have hdot : ∀ rest, Zod.lit '.' ('.' :: rest) = some rest := fun rest => rfl
  unfold isDottedQuad
  rw [quad_toList]
  simp only [hoctet, hdot, hlast, Option.bind_some]
  rfl

theorem printed_quad (bits : Nat) : Printed (quad bits) := by
  have hdigit : ∀ c, Zod.isDigit c = true → IpText.isAddressChar c = true ∧ c.toLower = c := by
    intro c hc
    have hall : ∀ n < 128, Zod.isDigit (Char.ofNat n) = true →
        IpText.isAddressChar (Char.ofNat n) = true ∧ (Char.ofNat n).toLower = Char.ofNat n := by decide
    have h := hall c.toNat (isDigit_ascii hc)
    rw [Char.ofNat_toNat] at h
    exact h hc
  have hoctet : ∀ n, ∀ c ∈ (toString (n % 256)).toList, IpText.isAddressChar c = true ∧ c.toLower = c :=
    fun n c hc => hdigit c ((octet_text (Nat.mod_lt n (by decide))).1 c hc)
  have hdot : IpText.isAddressChar '.' = true ∧ '.'.toLower = '.' := by decide
  unfold Printed
  rw [quad_toList]
  simp only [List.forall_mem_append, List.forall_mem_cons]
  exact ⟨hoctet _, hdot, hoctet _, hdot, hoctet _, hdot, hoctet _⟩

theorem quad_no_colon (bits : Nat) : ':' ∉ (quad bits).toList := by
  have hoctet : ∀ n, ':' ∉ (toString (n % 256)).toList := fun n hmem =>
    absurd ((octet_text (Nat.mod_lt n (by decide))).1 ':' hmem) (by decide)
  rw [quad_toList]
  simp only [List.mem_append, List.mem_cons, hoctet, or_false, false_or]
  decide

theorem normaliseIp_quad (bits : Nat) : normaliseIp (quad bits) = quad bits := by
  have hstart : Text.startsWith (quad bits) mappedPrefix = false := by
    refine Bool.eq_false_iff.mpr fun h => quad_no_colon bits ?_
    have hprefix : mappedPrefix.toList <+: (quad bits).toList := List.isPrefixOf_iff_prefix.mp h
    exact hprefix.subset (by decide)
  rw [normaliseIp_printed (printed_quad bits), hstart, Bool.false_and, if_neg Bool.false_ne_true]

/-- a mapped address loses its prefix -/
theorem normaliseIp_prefix (bits : Nat) : normaliseIp (mappedPrefix ++ quad bits) = quad bits := by
  have hprinted : Printed (mappedPrefix ++ quad bits) := by
    unfold Printed
    rw [String.toList_append, List.forall_mem_append]
    exact ⟨printed_of_all (by decide), printed_quad bits⟩
  rw [normaliseIp_printed hprinted, Text.startsWith_append, Text.slice_append, isDottedQuad_quad]
  rfl

/-! ## both ways -/

/-- the lookup for the companion's address returns the session -/
def Returned (P : Platform) (now : Time) (db : Db) (r : AttestationSession) (origin : String) : Prop :=
  ∃ rows, findPendingByGameIp P now db origin = .ok rows ∧ ∃ x ∈ rows, x.id = r.id

/-- for an address that is not mapped, the companion's is another one or the printed one; for a mapped one, it is
neither the address nor the IPv4 one in it -/
def Agrees (P : Platform) (ip : Inet) (origin : String) : Prop :=
  if Mapped ip then P.inetIn origin ≠ some ip ∧ origin ≠ embedded ip
  else P.inetIn origin = some ip → origin = P.inetHost ip

theorem originFinding_met {gameIp attestationIp : String} :
    (originFinding gameIp attestationIp).met = .met ↔ normaliseIp gameIp = normaliseIp attestationIp := by
  unfold originFinding
  split
  · rename_i h
    exact iff_of_true rfl h
  · rename_i h
    exact iff_of_false (fun hmet => by cases hmet) h

section
variable {P : Platform} (hP : InetText P) {g : String} {ip : Inet} (hg : Zod.ip g = true)
  (hstored : P.inetIn g = some ip)
include hP hstored

theorem normaliseIp_mapped (h : Mapped ip) : normaliseIp (P.inetHost ip) = embedded ip := by
  rw [hP.mapped g ip hstored h]
  exact normaliseIp_prefix _

include hg

theorem reads_stored : P.inetIn (P.inetHost ip) = some ip := by
  refine hP.reads g ip (fun hslash => ?_) hstored
  exact absurd (ip_all hg '/' hslash) (by decide)

theorem normaliseIp_unmapped (h : ¬Mapped ip) : normaliseIp (P.inetHost ip) = P.inetHost ip := by
  cases hfamily : ip.v6 with
  | false =>
    rw [hP.v4 g ip hstored hfamily]
    exact normaliseIp_quad _
  | true =>
    rw [normaliseIp_printed (hP.v6 g ip hstored hfamily)]
    refine if_neg fun hprefix => h ?_
    obtain ⟨hstart, hquad⟩ := Bool.and_eq_true_iff.mp hprefix
    refine (hP.quads _ ip hquad).2 ?_
    rw [Text.startsWith_slice hstart]
    exact reads_stored hP hg hstored

/-- what PostgreSQL finds and what the texts say is the same exactly then -/
theorem agrees_iff (origin : String) :
    (P.inetIn origin = some ip ↔ normaliseIp (P.inetHost ip) = origin) ↔ Agrees P ip origin := by
  unfold Agrees
  by_cases h : Mapped ip
  · rw [if_pos h, normaliseIp_mapped hP hstored h]
    have hnot : P.inetIn origin = some ip → embedded ip ≠ origin := by
      rintro hin rfl
      have hv4 := (hP.quads _ ip (isDottedQuad_quad _)).1 hin
      rw [h.1] at hv4
      cases hv4
    constructor
    · intro hiff
      exact ⟨fun hin => hnot hin (hiff.mp hin), fun heq => hnot (hiff.mpr heq.symm) heq.symm⟩
    · exact fun hnone => iff_of_false hnone.1 fun heq => hnone.2 heq.symm
  · rw [if_neg h, normaliseIp_unmapped hP hg hstored h]
    constructor
    · exact fun hiff hin => (hiff.mp hin).symm
    · refine fun himp => ⟨fun hin => (himp hin).symm, ?_⟩
      rintro rfl
      exact reads_stored hP hg hstored

end

/-- a pending session is returned exactly for the texts of its address -/
theorem returned_iff {P : Platform} {now : Time} {db : Db} {r : AttestationSession} (hr : r ∈ db.sessions)
    (hpending : r.consumedAt = none ∧ now < r.expiresAt)
    (hserver : ∃ server ∈ db.gameServers, server.id = r.gameServerId) (origin : String) :
    Returned P now db r origin ↔ P.inetIn origin = some r.gameIp := by
  constructor
  · rintro ⟨rows, hrows, x, hx, hid⟩
    obtain ⟨ip, hin, y, hy, hp, _, _, _, rfl⟩ := (mem_findPendingByGameIp P hrows x).mp hx
    obtain rfl := Db.eq_of_id hy hr hid
    rw [hin, (pendingAt_iff.mp hp).1]
  · intro hin
    obtain ⟨rows, hrows⟩ := findPendingByGameIp_ok now db hin
    obtain ⟨server, hmem, hid⟩ := hserver
    exact ⟨rows, hrows, _, (mem_findPendingByGameIp P hrows _).mpr ⟨r.gameIp, hin, r, hr,
      pendingAt_iff.mpr ⟨rfl, hpending⟩, server, hmem, hid, rfl⟩, rfl⟩

/-- the pending lookup and the relay check mean the same address, exactly when the stored address is not mapped
and the companion's is no other text of it than the printed one, or the companion's is another address -/
theorem lookup_iff_relay {P : Platform} (hP : InetText P) {g : String} (hg : Zod.ip g = true) {now : Time}
    {db : Db} {r : AttestationSession} (hstored : P.inetIn g = some r.gameIp) (hr : r ∈ db.sessions)
    (hpending : r.consumedAt = none ∧ now < r.expiresAt)
    (hserver : ∃ server ∈ db.gameServers, server.id = r.gameServerId) (o : String) :
    (Returned P now db r (normaliseIp o) ↔ (originFinding (r.columns P).gameIp o).met = .met) ↔
      Agrees P r.gameIp (normaliseIp o) := by
  rw [returned_iff hr hpending hserver, originFinding_met]
  exact agrees_iff hP hg hstored _

/-! ## a server with two address families -/

namespace DualStack
open Deployment

def mappedIp : Inet := ⟨true, 0xFFFFCB00712A, 128⟩

/-- the address of the player, and the same one mapped -/
def platform : Platform where
  sha256 := Deployment.platform.sha256
  aes := Deployment.platform.aes
  inetIn text :=
    if text = "203.0.113.42" then some gameIp
    else if text = "::ffff:203.0.113.42" then some mappedIp
    else none
  inetHost ip := if ip.v6 then "::ffff:203.0.113.42" else "203.0.113.42"
  timestamptzIn := Deployment.platform.timestamptzIn

theorem inetIn_some {text : String} {ip : Inet} (h : platform.inetIn text = some ip) :
    (text = "203.0.113.42" ∧ ip = gameIp) ∨ (text = "::ffff:203.0.113.42" ∧ ip = mappedIp) := by
  unfold platform at h
  dsimp only at h
  split_ifs at h with h4 h6
  · exact .inl ⟨h4, (Option.some.inj h).symm⟩
  · exact .inr ⟨h6, (Option.some.inj h).symm⟩

theorem inetText : InetText platform where
  reads text ip _ h := by
    rcases inetIn_some h with ⟨-, rfl⟩ | ⟨-, rfl⟩ <;> decide +kernel
  v4 text ip h hfamily := by
    rcases inetIn_some h with ⟨-, rfl⟩ | ⟨-, rfl⟩
    · decide +kernel
    · cases hfamily
  mapped text ip h hmapped := by
    rcases inetIn_some h with ⟨-, rfl⟩ | ⟨-, rfl⟩
    · cases hmapped.1
    · decide +kernel
  v6 text ip h hfamily := by
    rcases inetIn_some h with ⟨-, rfl⟩ | ⟨-, rfl⟩
    · cases hfamily
    · exact printed_of_all (by decide +kernel)
  quads text ip hquad := by
    constructor
    · intro h
      rcases inetIn_some h with ⟨-, rfl⟩ | ⟨rfl, -⟩
      · rfl
      · exact absurd hquad (by decide +kernel)
    · intro h
      rcases inetIn_some h with ⟨htext, -⟩ | ⟨-, rfl⟩
      · have hhead := congrArg (fun s => s.toList.head?) htext
        rw [String.toList_append] at hhead
        have hchar : some ':' = some '2' := hhead
        cases hchar
      · decide

/-- a session of that address that waits for its companion -/
def pending (ip : Inet) : AttestationSession :=
  { redeemed with
    gameIp := ip, state := .pending, expiresAt := 1, consumedAt := none, attestedAt := none,
    attestationIp := none }

def db (ip : Inet) : Db := { (deployment .fail_closed).db with sessions := only (pending ip) }

theorem mem_pending (ip : Inet) : pending ip ∈ (db ip).sessions := List.mem_singleton_self _

theorem mem_server (ip : Inet) : ∃ server ∈ (db ip).gameServers, server.id = (pending ip).gameServerId :=
  ⟨server, List.mem_singleton_self _, rfl⟩

end DualStack

/-- a player who connects over IPv4 -/
theorem lookup_iff_relay_v4 : Returned DualStack.platform 0 (DualStack.db Deployment.gameIp)
      (DualStack.pending Deployment.gameIp) (normaliseIp "::ffff:203.0.113.42") ↔
    (originFinding ((DualStack.pending Deployment.gameIp).columns DualStack.platform).gameIp
      "::ffff:203.0.113.42").met = .met :=
  (lookup_iff_relay DualStack.inetText (show Zod.ip "203.0.113.42" = true by decide) rfl
    (DualStack.mem_pending _) ⟨rfl, by decide⟩ (DualStack.mem_server _) _).mpr
    (by unfold Agrees; decide +kernel)

/-- the game server saw the mapped address: the relay check is met, and the companion finds nothing -/
theorem lookup_misses_mapped : DualStack.platform.inetIn "::ffff:203.0.113.42" = some DualStack.mappedIp ∧
    ¬(Returned DualStack.platform 0 (DualStack.db DualStack.mappedIp) (DualStack.pending DualStack.mappedIp)
        (normaliseIp "203.0.113.42") ↔
      (originFinding ((DualStack.pending DualStack.mappedIp).columns DualStack.platform).gameIp
        "203.0.113.42").met = .met) := by
  refine ⟨by decide +kernel, ?_⟩
  rw [returned_iff (DualStack.mem_pending _) ⟨rfl, by decide⟩ (DualStack.mem_server _)]
  decide +kernel

end Backend
