import FiveProtect.Companion.Client
import FiveProtect.Protocol.TextFormats

/-!
# Companion: the nonce of a localhost command

The check of the endpoint comes from the Rust generator, that of `POST /v1/attest` from the TypeScript
generator, and both from one schema, `hex64`.  The letters from `A` to `F` are digits for the first one only.

* `validate_hex64`, `accepts_hex64`   what the two take;
* `Worker.Attests`     the requests that the worker builds for a command;
* `nonce_taken_iff`    the backend takes their nonce exactly if it has no such letter.
-/

namespace Protocol

/-- a digit of `check::hex` that `/^[0-9a-f]*$/` does not know -/
def isUpperHex (c : Char) : Bool := 'A' ≤ c && c ≤ 'F'

theorem isHex_eq (c : Char) : Zod.isHex c = (Zod.isLowerHex c || isUpperHex c) := rfl

theorem isUpperHex_not_lower {c : Char} (h : isUpperHex c = true) : Zod.isLowerHex c = false := by
  simp only [isUpperHex, Bool.and_eq_true, decide_eq_true_eq, Char.le_def, UInt32.le_iff_toNat_le] at h
  simp only [Zod.isLowerHex, Zod.isDigit, Bool.or_eq_false_iff, Bool.and_eq_false_iff,
    decide_eq_false_iff_not, Char.le_def, UInt32.le_iff_toNat_le]
  have hA : 'A'.val.toNat = 65 := rfl
  have hF : 'F'.val.toNat = 70 := rfl
  have h9 : '9'.val.toNat = 57 := rfl
  have ha : 'a'.val.toNat = 97 := rfl
  omega

/-- `check::length` and `check::hex` -/
theorem validate_hex64 {value path : String} : Rust.validate hex64 value path = .ok () ↔
    Text.utf8Length value = 64 ∧ ∀ c ∈ value.toList, Zod.isHex c = true := by
  have hformat : (∀ g, some StringFormat.hex = some g → (Rust.format g).1 value = true) ↔
      ∀ c ∈ value.toList, Zod.isHex c = true := by
    constructor
    · exact fun h => List.all_eq_true.mp (h .hex rfl)
    · intro h g hg
      cases hg
      exact List.all_eq_true.mpr h
  show Rust.validate (.string (some .hex) (some 64) (some 64)) value path = .ok () ↔ _
  rw [Rust.validate_string, hformat]
  refine and_congr_left fun _ => ?_
  simp only [Option.some.injEq, forall_eq']
  omega

/-- `.regex(/^[0-9a-f]*$/).min(64).max(64)` -/
theorem accepts_hex64 {value : String} : Zod.accepts hex64 (.str value) = true ↔
    Text.utf16Length value = 64 ∧ ∀ c ∈ value.toList, Zod.isLowerHex c = true := by
  show (Zod.hex value && decide (64 ≤ Text.utf16Length value) &&
    decide (Text.utf16Length value ≤ 64)) = true ↔ _
  rw [Bool.and_eq_true, Bool.and_eq_true, decide_eq_true_iff, decide_eq_true_iff, Zod.hex,
    List.all_eq_true]
  constructor
  · rintro ⟨⟨h, hmin⟩, hmax⟩
    exact ⟨Nat.le_antisymm hmax hmin, h⟩
  · rintro ⟨hlen, h⟩
    exact ⟨⟨h, hlen.ge⟩, hlen.le⟩

/-- a text that the Rust check takes is taken by the other one if it has no capital letter -/
theorem hex64_agree {value path : String} (h : Rust.validate hex64 value path = .ok ()) :
    Zod.accepts hex64 (.str value) = true ↔ ∀ c ∈ value.toList, isUpperHex c = false := by
  obtain ⟨hlen, hhex⟩ := validate_hex64.mp h
  obtain ⟨h16, h8⟩ := Text.lengths_ascii fun c hc => isHex_ascii (hhex c hc)
  rw [accepts_hex64]
  constructor
  · rintro ⟨_, hlower⟩ c hc
    by_contra hupper
    have hnot := isUpperHex_not_lower (Bool.not_eq_false _ ▸ hupper)
    rw [hlower c hc] at hnot
    cases hnot
  · intro hupper
    refine ⟨by omega, fun c hc => ?_⟩
    have hc' := hhex c hc
    rwa [isHex_eq, hupper c hc, Bool.or_false] at hc'

end Protocol

namespace Companion
open Protocol

/-- the requests that the worker builds for a command, in any turn -/
def Worker.Attests (w : Worker) (command : LocalAttestCommand) (request : AttestationRequest) : Prop :=
  ∃ first before s t answer, (w.runLoop before (Worker.start first)).2 = some s ∧
    t.received = .job (.localCommand command) ∧ .attest request answer ∈ (w.turn t s).1

section
variable {w : Worker} {command : LocalAttestCommand} {request : AttestationRequest}

theorem Worker.Attests.nonce (h : w.Attests command request) : request.nonce = command.nonce := by
  obtain ⟨first, before, s, t, answer, _, ht, hmem⟩ := h
  rw [turn_local w s ht] at hmem
  split at hmem
  · exact absurd hmem List.not_mem_nil
  · exact onNonce_attest hmem

/-- the worker builds one for the first command it receives -/
theorem Worker.exists_attests (w : Worker) (command : LocalAttestCommand) :
    ∃ request, w.Attests command request := by
  obtain ⟨t, ht, hattest⟩ := first_attest w command Backend.Deployment.snapshot
  exact ⟨_, .ok Backend.Deployment.snapshot, [], _, t, _, rfl, ht, hattest⟩

end

/-- the nonce of a command that is accepted passed the check of the schema -/
theorem accepted_nonce {parse : String → Option Json} {method path body : String} {allowed : List String}
    {command : LocalAttestCommand} (h : handleRequest parse method path body allowed = .ok command) :
    ∃ path, Rust.validate hex64 command.nonce path = .ok () := by
  obtain ⟨_, ⟨typed, _, hvalid, rfl⟩, _⟩ := handleRequest_ok.mp h
  obtain ⟨nonce, backendUrl, serverName, version, ⟨⟩⟩ := typed
  exact ⟨_, (Rust.validateFields_cons.mp hvalid).1⟩

/-- **The backend takes the nonce of a command** that the endpoint takes exactly if none of its letters is
a capital one. -/
theorem nonce_taken_iff {parse : String → Option Json} {method path body : String} {allowed : List String}
    {command : LocalAttestCommand} (h : handleRequest parse method path body allowed = .ok command)
    (w : Worker) : (∀ request, w.Attests command request →
      Zod.accepts hex64 (.str request.nonce) = true) ↔
        ∀ c ∈ command.nonce.toList, isUpperHex c = false := by
  obtain ⟨p, hvalid⟩ := accepted_nonce h
  rw [← hex64_agree hvalid]
  constructor
  · intro htaken
    obtain ⟨request, hrequest⟩ := w.exists_attests command
    rw [← hrequest.nonce]
    exact htaken request hrequest
  · intro htaken request hrequest
    rw [hrequest.nonce]
    exact htaken

/-! ## a nonce in capital letters -/

/-- a command for the built-in backend -/
def nonceBody (nonce : String) : String := "\x7b\"nonce\":\"" ++ nonce ++
  "\",\"backendUrl\":\"https://api.fiveprotect.dev\",\"protocolVersion\":1\x7d"

/-- the parser on that body -/
def parseNonce (nonce body : String) : Option Json :=
  if body = nonceBody nonce then some (.obj [
    ("nonce", .str nonce),
    ("backendUrl", .str "https://api.fiveprotect.dev"),
    ("protocolVersion", .num (.int 1))])
  else none

theorem accepts_nonce {nonce : String} (h : Rust.validate Schema.LocalAttestCommand
      (nonce, "https://api.fiveprotect.dev", (none : Option String), (1 : Int), ()) "" = .ok ()) :
    handleRequest (parseNonce nonce) "POST" "/attest" (nonceBody nonce) (allowedBackends none) =
      .ok ⟨nonce, "https://api.fiveprotect.dev", none, 1⟩ := by
  have hdecode : (parseNonce nonce (nonceBody nonce)).bind (Rust.decode Schema.LocalAttestCommand) =
      some (nonce, "https://api.fiveprotect.dev", (none : Option String), (1 : Int), ()) := by
    rw [parseNonce, if_pos rfl]
    rfl
  have horigin : originOf "https://api.fiveprotect.dev" = some "https://api.fiveprotect.dev" := by
    decide +kernel
  exact handleRequest_ok.mpr ⟨by decide, ⟨_, hdecode, h, rfl⟩, rfl, "https://api.fiveprotect.dev",
    List.mem_cons_self, _, horigin, horigin⟩

def capitalNonce : String := String.ofList (List.replicate 64 'A')

/-- the endpoint takes 64 capital letters, the backend does not -/
theorem capital_nonce_lost :
    handleRequest (parseNonce capitalNonce) "POST" "/attest" (nonceBody capitalNonce)
        (allowedBackends none) = .ok ⟨capitalNonce, "https://api.fiveprotect.dev", none, 1⟩ ∧
      ∃ request, (⟨"0.1.0", "build", 0⟩ : Worker).Attests
        ⟨capitalNonce, "https://api.fiveprotect.dev", none, 1⟩ request ∧
        Zod.accepts hex64 (.str request.nonce) = false := by
  obtain ⟨request, hrequest⟩ := (⟨"0.1.0", "build", 0⟩ : Worker).exists_attests
    ⟨capitalNonce, "https://api.fiveprotect.dev", none, 1⟩
  refine ⟨accepts_nonce (by decide +kernel), request, hrequest, ?_⟩
  rw [hrequest.nonce]
  decide +kernel

def smallNonce : String := String.ofList (List.replicate 64 'a')

theorem nonce_taken_small :
    handleRequest (parseNonce smallNonce) "POST" "/attest" (nonceBody smallNonce)
        (allowedBackends none) = .ok ⟨smallNonce, "https://api.fiveprotect.dev", none, 1⟩ ∧
      ∀ request, (⟨"0.1.0", "build", 0⟩ : Worker).Attests
        ⟨smallNonce, "https://api.fiveprotect.dev", none, 1⟩ request →
        Zod.accepts hex64 (.str request.nonce) = true := by
  have haccepted : handleRequest (parseNonce smallNonce) "POST" "/attest" (nonceBody smallNonce)
      (allowedBackends none) = .ok ⟨smallNonce, "https://api.fiveprotect.dev", none, 1⟩ :=
    accepts_nonce (by decide +kernel)
  have hlist : smallNonce.toList = List.replicate 64 'a' := by
    unfold smallNonce
    exact String.toList_ofList
  have hlower : ∀ c ∈ smallNonce.toList, isUpperHex c = false := by
    intro c hc
    rw [hlist] at hc
    rw [List.eq_of_mem_replicate hc]
    rfl
  have htaken := nonce_taken_iff haccepted ⟨"0.1.0", "build", 0⟩
  exact ⟨haccepted, htaken.mpr hlower⟩

end Companion
