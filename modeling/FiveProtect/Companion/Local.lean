import FiveProtect.Companion.Origin
import FiveProtect.Companion.Worker
import FiveProtect.Protocol.Rust

/-!
# Companion: the localhost endpoint

`apps/companion/crates/fiveprotect-core/src/local.rs`: what the endpoint accepts, and what it refuses.
`parse` is the parser of `serde_json`; a refusal does not carry its words.
-/

namespace Companion
open Protocol

inductive RejectReason where
  | wrongRoute
  | malformed
  | invalid (message : String)
  | versionMismatch (theirs ours : Int)
  | untrustedBackend
  deriving DecidableEq

/-- the fields of a decoded command -/
def LocalAttestCommand.ofTyped : Typed String Schema.LocalAttestCommand → LocalAttestCommand
  | (nonce, backendUrl, serverName, protocolVersion, ()) =>
    ⟨nonce, backendUrl, serverName, protocolVersion⟩

def isAllowedBackend (candidate : String) (allowed : List String) : Bool :=
  match originOf candidate with
  | none => false
  | some origin => (allowed.filterMap originOf).any fun trusted => trusted == origin

/-- `eq_ignore_ascii_case` -/
def eqIgnoreAsciiCase (a b : String) : Bool := a.toList.map Char.toLower == b.toList.map Char.toLower

/-- `trim_end_matches('/')` -/
def trimEndSlashes (text : String) : String := String.ofList (text.toList.rdropWhile (· == '/'))

def handleRequest (parse : String → Option Json) (method path body : String)
    (allowedBackends : List String) : Except RejectReason LocalAttestCommand :=
  if !eqIgnoreAsciiCase method "POST" || trimEndSlashes path != "/attest" then .error .wrongRoute
  else match (parse body).bind (Rust.decode Schema.LocalAttestCommand) with
    | none => .error .malformed
    | some typed =>
      match Rust.validate Schema.LocalAttestCommand typed "" with
      | .error message => .error (.invalid message)
      | .ok () =>
        let command := LocalAttestCommand.ofTyped typed
        if command.protocolVersion ≠ protocolVersion then
          .error (.versionMismatch command.protocolVersion protocolVersion)
        else if !isAllowedBackend command.backendUrl allowedBackends then .error .untrustedBackend
        else .ok command

theorem isAllowedBackend_iff {candidate : String} {allowed : List String} :
    isAllowedBackend candidate allowed = true ↔ ∃ entry ∈ allowed, SameOrigin entry candidate := by
  unfold isAllowedBackend SameOrigin
  cases originOf candidate with
  | none => simp
  | some origin =>
    rw [List.any_eq_true]
    constructor
    · rintro ⟨trusted, hmem, heq⟩
      obtain ⟨entry, hentry, horigin⟩ := List.mem_filterMap.mp hmem
      exact ⟨entry, hentry, trusted, horigin, by rw [eq_of_beq heq]⟩
    · rintro ⟨entry, hentry, o, ho, heq⟩
      exact ⟨o, List.mem_filterMap.mpr ⟨entry, hentry, ho⟩, by rw [Option.some.inj heq, beq_self_eq_true]⟩

/-- **What the endpoint accepts.** -/
theorem handleRequest_ok {parse : String → Option Json} {method path body : String}
    {allowed : List String} {command : LocalAttestCommand} :
    handleRequest parse method path body allowed = .ok command ↔
      (eqIgnoreAsciiCase method "POST" = true ∧ trimEndSlashes path = "/attest") ∧
      (∃ typed, (parse body).bind (Rust.decode Schema.LocalAttestCommand) = some typed ∧
        Rust.validate Schema.LocalAttestCommand typed "" = .ok () ∧
        command = .ofTyped typed) ∧
      command.protocolVersion = protocolVersion ∧
      ∃ entry ∈ allowed, SameOrigin entry command.backendUrl := by
  rw [← isAllowedBackend_iff]
  unfold handleRequest
  by_cases hroute : eqIgnoreAsciiCase method "POST" = true ∧ trimEndSlashes path = "/attest"
  · rw [if_neg (by simp [hroute.1, hroute.2])]
    cases hdecode : (parse body).bind (Rust.decode Schema.LocalAttestCommand) with
    | none =>
      refine iff_of_false (fun h => (by cases h)) ?_
      rintro ⟨_, ⟨typed, h, _⟩, _⟩
      cases h
    | some typed =>
      cases hvalid : Rust.validate Schema.LocalAttestCommand typed "" with
      | error message =>
        refine iff_of_false (fun h => ?_) ?_
        · simp only [hvalid] at h
          cases h
        · rintro ⟨_, ⟨typed', h, hok, _⟩, _⟩
          cases h
          rw [hvalid] at hok
          cases hok
      | ok u =>
        simp only [hvalid]
        by_cases hversion : (LocalAttestCommand.ofTyped typed).protocolVersion = protocolVersion
        · by_cases hallowed :
              isAllowedBackend (LocalAttestCommand.ofTyped typed).backendUrl allowed = true
          · rw [if_neg (not_not.mpr hversion), if_neg (by rw [hallowed]; decide)]
            constructor
            · intro h
              cases h
              exact ⟨hroute, ⟨typed, rfl, hvalid, rfl⟩, hversion, hallowed⟩
            · rintro ⟨_, ⟨typed', h, _, rfl⟩, _⟩
              cases h
              rfl
          · rw [if_neg (not_not.mpr hversion), if_pos (by simpa using hallowed)]
            refine iff_of_false (fun h => (by cases h)) ?_
            rintro ⟨_, ⟨typed', h, _, rfl⟩, _, hok⟩
            cases h
            exact hallowed hok
        · rw [if_pos hversion]
          refine iff_of_false (fun h => (by cases h)) ?_
          rintro ⟨_, ⟨typed', h, _, rfl⟩, hok, _⟩
          cases h
          exact hversion hok
  · have hrefused : (!eqIgnoreAsciiCase method "POST" || trimEndSlashes path != "/attest") = true := by
      rw [Bool.or_eq_true, Bool.not_eq_true', bne_iff_ne]
      by_cases hmethod : eqIgnoreAsciiCase method "POST" = true
      · exact .inr fun hpath => hroute ⟨hmethod, hpath⟩
      · exact .inl (Bool.eq_false_iff.mpr hmethod)
    rw [if_pos hrefused]
    exact iff_of_false (fun h => (by cases h)) fun h => hroute h.1

end Companion
