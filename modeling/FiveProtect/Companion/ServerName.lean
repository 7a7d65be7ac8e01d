import FiveProtect.Backend.PendingLookup
import FiveProtect.Companion.Client
import FiveProtect.Protocol.TextFormats
import FiveProtect.Resource.LocalHop

/-!
# Companion: a nonce and the name of its server

A nonce reaches the companion together with a display name: from the backend with the name of the game
server, from the game client with the name of the project.  Neither name is bounded where it comes from,
and the companion refuses an answer or a command whose name has more than 128 bytes, with the nonce in
it.

* `collected_iff`  what the companion collects from an answer of the backend;
* `accepted_iff`   which command of the frame it accepts;
* `nonce_kept`     both, for every reachable state and every response to a nonce request.
-/

namespace Companion
open Protocol Backend

/-! ## the answer of the backend -/

/-- the poll brings the nonce -/
def Collected (answer : CompanionPollResponse) (nonce : String) : Prop :=
  ∃ pending, Client.pollPending (.response (Response.pending answer).status (some answer.toJson)) =
    .ok (some pending) ∧ pending.nonce = nonce

/-- the answer as it is decoded -/
def typedFound (session : PendingSessionRow) (nonce : String) :
    Typed String Schema.CompanionPollResponse :=
  (true, (some nonce : Option String), (some session.serverName : Option String),
    (some ⟨wire session.policyTier, wire_mem session.policyTier⟩ :
      Option { value : String // value ∈ wireValues PolicyTier }),
    (some (IsoTime.toISOString session.expiresAt) : Option String), (1 : Int), ())

theorem decode_found (session : PendingSessionRow) (nonce : String) :
    Rust.decode Schema.CompanionPollResponse (PendingTask.found session nonce).toJson =
      some (typedFound session nonce) := by
  obtain ⟨id, tier, expiresAt, sealed, name⟩ := session
  cases tier with
  | relaxed => rfl
  | standard => rfl
  | strict => rfl

theorem validate_text {n : Nat} {value path : String} :
    Rust.validate (text n) value path = .ok () ↔ Text.utf8Length value ≤ n := by
  refine Iff.trans Rust.validate_string ?_
  simp

theorem rust_datetime (t : Time) :
    Rust.datetime (IsoTime.toISOString t) = true ↔ IsoTime.year t ≤ 9999 := by
  rw [← Lua.test_datetime, datetime_iff]
  rfl

theorem validate_nonce {nonce : String} (hhex : Rust.hex nonce = true)
    (hlen : Text.utf8Length nonce = 64) (path : String) : Rust.validate hex64 nonce path = .ok () := by
  refine Rust.validate_string.mpr ?_
  simp [hlen, Rust.format, hhex]

theorem validate_version (path : String) : Rust.validate (atLeast 1) (1 : Int) path = .ok () :=
  Rust.validate_int.mpr ⟨fun m hm => by cases hm; rfl, fun m hm => by cases hm⟩

theorem validate_found {session : PendingSessionRow} {nonce : String}
    (hhex : Rust.hex nonce = true) (hlen : Text.utf8Length nonce = 64) (path : String) :
    Rust.validate Schema.CompanionPollResponse (typedFound session nonce) path = .ok () ↔
      Text.utf8Length session.serverName ≤ 128 ∧ IsoTime.year session.expiresAt ≤ 9999 := by
  have hexpires : ∀ path, Rust.validate (formatted .datetime none)
      (IsoTime.toISOString session.expiresAt) path = .ok () ↔ IsoTime.year session.expiresAt ≤ 9999 := by
    intro path
    rw [← rust_datetime]
    refine Iff.trans Rust.validate_string ?_
    simp [Rust.format]
  show Rust.validateFields "CompanionPollResponse" _ _ = .ok () ↔ _
  refine Iff.trans Rust.validateFields_cons ?_
  refine (and_iff_right rfl).trans ?_
  refine Iff.trans Rust.validateFields_cons ?_
  refine (and_iff_right (validate_nonce hhex hlen _)).trans ?_
  refine Iff.trans Rust.validateFields_cons (and_congr validate_text ?_)
  refine Iff.trans Rust.validateFields_cons ?_
  refine (and_iff_right rfl).trans ?_
  refine Iff.trans Rust.validateFields_cons ?_
  refine Iff.trans (and_congr (hexpires _) Rust.validateFields_cons) ?_
  exact and_iff_left ⟨validate_version _, rfl⟩

theorem pollPending_found (session : PendingSessionRow) (nonce : String) :
    Client.pollPending (.response 200 (some (PendingTask.found session nonce).toJson)) =
      ((Rust.validate Schema.CompanionPollResponse (typedFound session nonce) "").mapError
        BackendError.malformed).map fun _ => some ⟨nonce, some session.serverName⟩ := by
  have hpost : Client.post Schema.CompanionPollResponse
      (.response 200 (some (PendingTask.found session nonce).toJson)) =
        .ok (typedFound session nonce) := by
    have hraw : Client.postRaw (.response 200 (some (PendingTask.found session nonce).toJson)) =
        .ok (200, (PendingTask.found session nonce).toJson) := rfl
    unfold Client.post
    rw [hraw]
    simp only [bind, Except.bind, decode_found]
  unfold Client.pollPending
  rw [hpost]
  simp only [bind, Except.bind]
  cases Rust.validate Schema.CompanionPollResponse (typedFound session nonce) "" with
  | ok u => rfl
  | error message => rfl

/-- the companion collects the nonce if it can take the name and the time next to it -/
theorem collected_iff {session : PendingSessionRow} {nonce : String}
    (hhex : Rust.hex nonce = true) (hlen : Text.utf8Length nonce = 64) :
    Collected (PendingTask.found session nonce) nonce ↔
      Text.utf8Length session.serverName ≤ 128 ∧ IsoTime.year session.expiresAt ≤ 9999 := by
  rw [← validate_found hhex hlen ""]
  unfold Collected
  show (∃ pending, Client.pollPending (.response 200 _) = _ ∧ _) ↔ _
  rw [pollPending_found]
  cases Rust.validate Schema.CompanionPollResponse (typedFound session nonce) "" with
  | ok u => exact iff_of_true ⟨_, rfl, rfl⟩ rfl
  | error message =>
    refine iff_of_false ?_ (by rintro ⟨⟩)
    rintro ⟨_, h, _⟩
    cases h

/-! ## the answers of a run -/

theorem generateNonce_hex (entropy : NonceBytes) : Rust.hex (generateNonce entropy) = true ∧
    Text.utf8Length (generateNonce entropy) = 64 := by
  have hdigit : ∀ d < 16, Zod.isHex (Nat.digitChar d) = true := by decide
  have hall : ∀ c ∈ (generateNonce entropy).toList, Zod.isHex c = true := by
    intro c hc
    rw [generateNonce, Text.hex, String.toList_ofList] at hc
    obtain ⟨b, _, hb⟩ := List.mem_flatMap.mp hc
    have hlt := b.toNat_lt
    rcases List.mem_pair.mp hb with rfl | rfl
    · exact hdigit _ (by omega)
    · exact hdigit _ (Nat.mod_lt _ (by decide))
  refine ⟨List.all_eq_true.mpr hall, (hexClass.length_utf8 hall).trans ?_⟩
  have htwo : ∀ b : UInt8, (Text.hexByte b).length = 2 := fun _ => rfl
  rw [generateNonce, Text.hex, String.toList_ofList, List.length_flatMap, funext htwo]
  simp [entropy.len]

section
variable {P : Platform} {s s' : System}

/-- a poll that hands out a nonce has found the session it was issued for, and its server -/
theorem exists_found (hA : P.aes.Lawful) (h : Reachable P s) {t : PendingTask} {w : Write}
    {answer : CompanionPollResponse} {nonce : String} (hp : t.point = .read)
    (hx : t.exec P s.now s.db = .ok (w, .answered answer)) (hpending : answer.pending = true)
    (hn : answer.nonce = some nonce) : ∃ r g entropy, t.Finds P s r ∧ g ∈ s.db.gameServers ∧
      g.id = r.gameServerId ∧ nonce = generateNonce entropy ∧
      answer = PendingTask.found ⟨r.id, r.policyTier, r.expiresAt, r.nonceSealed, g.name⟩ nonce := by
  obtain hans | ⟨_, x, sealed, opened, hf, hs, ho, rfl⟩ := PendingTask.exec_found hx hpending
  · rw [hp] at hans
    cases hans
  · cases hn
    obtain ⟨ip, hip, r, hr, _, g, hg, hid, rfl⟩ :=
      (mem_findPendingByGameIp P hf x).mp List.mem_cons_self
    obtain ⟨pid, n, _, hby⟩ := h.issuance.issuer r hr
    have hseal : sealed = sealNonce P.aes n.config.nonceSealKey n.iv n.nonce := by
      have hrow : r.nonceSealed = some sealed := hs
      obtain h0 | h1 := hby.nonceSealed
      · cases h0.symm.trans hrow
      · exact Option.some.inj (hrow.symm.trans h1)
    rw [hseal] at ho
    exact ⟨r, g, n.entropy, ⟨hr, _, _, hf, List.mem_cons_self, rfl⟩, hg, hid, openNonce_eq hA ho, rfl⟩

end

/-! ## the command of the frame -/

/-- the members of a command -/
def commandJson (nonce backendUrl : String) (serverName : Option String) : Json :=
  .obj ([("nonce", .str nonce), ("backendUrl", .str backendUrl), ("protocolVersion", .num (.int 1))] ++
    Json.member? "serverName" (serverName.map .str))

theorem decode_command (nonce backendUrl : String) (serverName : Option String) :
    Rust.decode Schema.LocalAttestCommand (commandJson nonce backendUrl serverName) =
      some (nonce, backendUrl, serverName, (1 : Int), ()) := by
  cases serverName with
  | none => rfl
  | some name => rfl

theorem validate_command {nonce backendUrl : String} {serverName : Option String}
    (hhex : Rust.hex nonce = true) (hlen : Text.utf8Length nonce = 64)
    (hurl : Text.utf8Length backendUrl ≤ 256) (path : String) :
    Rust.validate Schema.LocalAttestCommand (nonce, backendUrl, serverName, (1 : Int), ()) path =
      .ok () ↔ ∀ name, serverName = some name → Text.utf8Length name ≤ 128 := by
  show Rust.validateFields "LocalAttestCommand" _ _ = .ok () ↔ _
  refine Iff.trans Rust.validateFields_cons ?_
  refine (and_iff_right (validate_nonce hhex hlen _)).trans ?_
  refine Iff.trans Rust.validateFields_cons ?_
  refine (and_iff_right (validate_text.mpr hurl)).trans ?_
  refine Iff.trans Rust.validateFields_cons ?_
  refine (and_iff_left ?_).trans ?_
  · exact Rust.validateFields_cons.mpr ⟨validate_version _, rfl⟩
  · cases serverName with
    | none => exact iff_of_true rfl fun name hname => by cases hname
    | some name =>
      refine Iff.trans validate_text ?_
      simp

/-- the endpoint accepts the command if it can take the name in it -/
theorem accepted_iff {parse : String → Option Json} {body nonce backendUrl shown : String}
    {allowed : List String} (hhex : Rust.hex nonce = true) (hlen : Text.utf8Length nonce = 64)
    (hurl : Text.utf8Length backendUrl ≤ 256)
    (hallowed : ∃ entry ∈ allowed, SameOrigin entry backendUrl)
    (hbody : parse body = some (commandJson nonce backendUrl (if shown = "" then none else some shown))) :
    (∃ command, handleRequest parse "POST" "/attest" body allowed = .ok command ∧
      command.nonce = nonce) ↔ Text.utf8Length shown ≤ 128 := by
  have hdecode : (parse body).bind (Rust.decode Schema.LocalAttestCommand) =
      some (nonce, backendUrl, (if shown = "" then none else some shown), (1 : Int), ()) := by
    rw [hbody, Option.bind_some, decode_command]
  have hname : (∀ name, (if shown = "" then none else some shown) = some name →
      Text.utf8Length name ≤ 128) ↔ Text.utf8Length shown ≤ 128 := by
    by_cases hempty : shown = ""
    · subst hempty
      exact iff_of_true (fun name hname => by cases hname) (by decide)
    · rw [if_neg hempty]
      simp
  rw [← hname, ← validate_command hhex hlen hurl ""]
  simp only [handleRequest_ok, hdecode]
  constructor
  · rintro ⟨_, ⟨_, ⟨_, htyped, hvalid, _⟩, _⟩, _⟩
    cases htyped
    exact hvalid
  · intro hvalid
    exact ⟨_, ⟨by decide, ⟨_, rfl, hvalid, rfl⟩, rfl, hallowed⟩, rfl⟩

/-! ## either way -/

/-- **A nonce is kept**, on either way, exactly if the name next to it has at most 128 bytes.  An answer of
the backend has the time at which the session expires, too, which is read up to the year 9999. -/
theorem nonce_kept {P : Platform} (hA : P.aes.Lawful) {frame : Resource.Frame} (hframe : frame.Lawful) :
    (∀ (s s' : System) e pid answer nonce, Reachable P s → System.step P e s = some s' →
      s.response pid = none → s'.response pid = some (.pending answer) → answer.pending = true →
      answer.nonce = some nonce → ∃ t r g, s.task pid = some (.pending t) ∧ t.Finds P s r ∧
        g ∈ s.db.gameServers ∧ g.id = r.gameServerId ∧ (Collected answer nonce ↔
          Text.utf8Length g.name ≤ 128 ∧ IsoTime.year r.expiresAt ≤ 9999)) ∧
    ∀ (c : Resource.Convars) j shown, Lua.validateNonceResponse (LuaValue.ofJson j) = .ok () →
      frame (.string (c.getConvar "sv_projectName" "FiveM")) = some (.str shown) →
      ∃ nonce backendUrl, Resource.Issues j nonce backendUrl ∧ ∀ message parse body allowed,
        Resource.onAttest frame false (Resource.attestEvent c (LuaValue.ofJson j)) = some message →
        parse body = some (Resource.commandFrom message) →
        (∃ entry ∈ allowed, SameOrigin entry backendUrl) →
        ((∃ command, handleRequest parse "POST" "/attest" body allowed = .ok command ∧
          command.nonce = nonce) ↔ Text.utf8Length shown ≤ 128) := by
  constructor
  · intro s s' e pid answer nonce h he hrun hres hpending hn
    obtain ⟨hres₀, _⟩ | ⟨er, her⟩ | ⟨uuid, w, t, t', _, ht, hgo, hexec, _, hans⟩ :=
      System.response_cases he hres
    · rw [hrun] at hres₀
      cases hres₀
    · cases her
    · obtain ⟨b, rfl, hx⟩ := Task.exec_pending_answer hexec hans
      have hpoint : b.point = .read := by
        obtain hpt | ⟨hpt, _⟩ := PendingTask.exec_found hx hpending
        · rw [Task.response, hpt] at hgo
          cases hgo
        · exact hpt
      obtain ⟨r, g, entropy, hfinds, hg, hid, rfl, rfl⟩ := exists_found hA h hpoint hx hpending hn
      obtain ⟨hhex, hlen⟩ := generateNonce_hex entropy
      exact ⟨b, r, g, ht, hfinds, hg, hid, collected_iff hhex hlen⟩
  · intro c j shown hj hshown
    obtain ⟨nonce, backendUrl, hissues⟩ := Resource.exists_issues hj
    refine ⟨nonce, backendUrl, hissues, fun message parse body allowed hmessage hbody hallowed => ?_⟩
    have hhex : Rust.hex nonce = true := by
      rw [(hex_iff nonce).1, ← (hex_iff nonce).2]
      exact hissues.nonceHex
    refine accepted_iff hhex hissues.nonceLength hissues.urlLength hallowed ?_
    rw [hbody, Resource.commandFrom_issued hframe hissues hshown hmessage, commandJson]
    by_cases hempty : shown = ""
    · rw [if_pos hempty, if_pos hempty]
      rfl
    · rw [if_neg hempty, if_neg hempty]
      rfl

/-! ## two names -/

section
open Backend.Deployment

/-- the frame of the game client; bytes that are no UTF-8 become the replacement character -/
def frame : Resource.Frame
  | .string b => some (.str ((String.fromUTF8? b.toByteArray).getD "\uFFFD"))
  | .number n => some (.num n)
  | .boolean b => some (.bool b)
  | _ => none

theorem frame_lawful : frame.Lawful := by
  refine ⟨fun s => ?_, fun b => ⟨_, rfl⟩, fun n _ => rfl⟩
  show some (Json.str ((String.fromUTF8? (Text.utf8 s).toByteArray).getD _)) = _
  rw [Text.toByteArray_utf8, String.fromUTF8?, dif_pos s.isValidUTF8]
  rfl

/-- the deployment, with another name of its server -/
def named (name : String) : System :=
  { deployment .fail_open with
    db := { (deployment .fail_open).db with gameServers := only { server with name := name } } }

/-- request 1 polls from the address of the player of `issue` -/
def afterPoll (name : String) : Option System :=
  Machine.run (System.step platform)
    (issue ++ [.request 1 (.pending "203.0.113.42" pendingBody config)]) (named name)

/-- a name of 129 bytes -/
def longName : String := String.ofList (List.replicate 129 'a')

/-- the row that the poll of `afterPoll` finds -/
def foundRow (name : String) : PendingSessionRow :=
  ⟨Uuid.small 7, .standard, 1785852611412, none, name⟩

/-- the answer has the nonce, and the companion refuses it -/
theorem nonce_lost : ∃ s s' answer, Reachable platform s ∧
    System.step platform (.exec 1 (Uuid.small 7)) s = some s' ∧ s.response 1 = none ∧
    s'.response 1 = some (.pending answer) ∧ answer.pending = true ∧ answer.nonce = some nonce ∧
    ¬ Collected answer nonce := by
  obtain ⟨s, hs, hrest⟩ := (Option.any_eq_true _ _).mp (show (afterPoll longName).any (fun s =>
      decide (s.response 1 = none) && (System.step platform (.exec 1 (Uuid.small 7)) s).any fun s' =>
        decide (s'.response 1 = some (.pending (PendingTask.found (foundRow longName) nonce)))) =
      true by decide +kernel)
  obtain ⟨hrun, hlater⟩ := Bool.and_eq_true_iff.mp hrest
  obtain ⟨s', hs', hres⟩ := (Option.any_eq_true _ _).mp hlater
  have hreachable : Reachable platform s :=
    ⟨named longName, ⟨rfl, rfl, rfl⟩, Machine.Steps.of_run _ _ _ hs⟩
  refine ⟨s, s', _, hreachable, hs', of_decide_eq_true hrun, of_decide_eq_true hres, rfl, rfl, ?_⟩
  intro hcollected
  have hlong := ((collected_iff (by decide +kernel) (by decide +kernel)).mp hcollected).1
  rw [Text.utf8Length_eq] at hlong
  exact absurd hlong (by decide +kernel)

/-- a response to a nonce request -/
def issuedNonce : Json := .obj [
  ("nonce", .str nonce),
  ("sessionId", .str sessionId),
  ("expiresAt", .str "2026-08-04T14:10:11.412Z"),
  ("policyTier", .str "standard"),
  ("backendUrl", .str "https://gate.example"),
  ("protocolVersion", .num (.int 1))]

/-- the name of the deployment and the default name of a project are short enough -/
theorem nonce_kept_short : (∃ s s' answer, afterPoll "server" = some s ∧
      System.step platform (.exec 1 (Uuid.small 7)) s = some s' ∧
      s'.response 1 = some (.pending answer) ∧ Collected answer nonce) ∧
    ∃ command, handleRequest (fun _ => some (commandJson nonce "https://gate.example" (some "FiveM")))
      "POST" "/attest" "" ["https://gate.example"] = .ok command ∧ command.nonce = nonce := by
  have hkept := nonce_kept (P := platform) gcm_lawful frame_lawful
  constructor
  · obtain ⟨s, hs, hrest⟩ := (Option.any_eq_true _ _).mp (show (afterPoll "server").any (fun s =>
        decide (s.response 1 = none ∧ (∀ g ∈ s.db.gameServers.rows, Text.utf8Length g.name ≤ 128) ∧
          ∀ r ∈ s.db.sessions.rows, IsoTime.year r.expiresAt ≤ 9999) &&
        (System.step platform (.exec 1 (Uuid.small 7)) s).any fun s' =>
          decide (s'.response 1 = some (.pending (PendingTask.found (foundRow "server") nonce)))) =
        true by decide +kernel)
    obtain ⟨hbefore, hlater⟩ := Bool.and_eq_true_iff.mp hrest
    obtain ⟨hrun, hnames, htimes⟩ := of_decide_eq_true hbefore
    obtain ⟨s', hs', hres⟩ := (Option.any_eq_true _ _).mp hlater
    have hreachable : Reachable platform s :=
      ⟨named "server", ⟨rfl, rfl, rfl⟩, Machine.Steps.of_run _ _ _ hs⟩
    obtain ⟨_, r, g, _, hfinds, hg, _, hiff⟩ :=
      hkept.1 s s' _ 1 _ _ hreachable hs' hrun (of_decide_eq_true hres) rfl rfl
    exact ⟨s, s', _, hs, hs', of_decide_eq_true hres,
      hiff.mpr ⟨hnames g hg, htimes r hfinds.1⟩⟩
  · obtain ⟨n, u, hissues, haccepted⟩ := hkept.2 .unset issuedNonce "FiveM" (by decide +kernel) rfl
    have hn : n = nonce := Text.utf8_injective (LuaValue.string.inj hissues.nonceField).symm
    have hu : u = "https://gate.example" :=
      Text.utf8_injective (LuaValue.string.inj hissues.urlField).symm
    subst hn hu
    refine (haccepted _ _ _ _ rfl rfl ?_).mpr (by decide)
    exact ⟨_, List.mem_singleton_self _, "https://gate.example", by decide +kernel, by decide +kernel⟩

end

end Companion
