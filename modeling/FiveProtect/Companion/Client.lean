import FiveProtect.Backend.Deployment
import FiveProtect.Companion.Local
import Mathlib.Data.List.Destutter
import Mathlib.Data.List.Sort

/-!
# Companion: the backends it talks to

`settings.rs`, `backend.rs` and `main` of `apps/companion/crates/fiveprotect-companion/src`: the trusted
backends, the client of one of them, and what the endpoint, the collector and the worker get of it.

* `Settings.load`         the compiled-in list and what a file adds;
* `Client.url`            where a call goes;
* `Client.pollPending`    what a poll comes to;
* `Companion.main`        the threads, with the first trusted entry as their backend;
* `answered_at_issuer`    a command of the game client is answered at that backend, whichever it names.
-/

namespace Companion
open Protocol

/-! ## settings.rs -/

def builtIn : List String := ["https://api.fiveprotect.dev"]

/-- the trusted backends; `extra` is what the file next to the executable adds, if it can be read -/
def allowedBackends (extra : Option (List String)) : List String :=
  match extra with
  | none => builtIn
  | some extra => ((builtIn ++ extra).insertionSort (· ≤ ·)).destutter (· ≠ ·)

/-! ## backend.rs -/

structure Client where
  baseUrl : String
  companionVersion : String

namespace Client

def new (baseUrl companionVersion : String) : Client := ⟨trimEndSlashes baseUrl, companionVersion⟩

/-- where a call goes -/
def url (client : Client) (path : String) : String := client.baseUrl ++ path

/-- what `ureq` makes of a call; a body that is no JSON text is `none` -/
inductive Reply where
  | response (status : Nat) (body : Option Json)
  | transport (detail : String)

/-- the code of a `ProtocolError` -/
def codeText (body : Option Json) : String :=
  (body.bind fun value => (value.get? "code").bind Json.str?).getD "unknown"

/-- the status and the body; `ureq` reports a status from 400 on as an error -/
def postRaw : Reply → Except BackendError (Nat × Json)
  | .response status body =>
    if 400 ≤ status then .error (.status status (codeText body))
    else match body with
      | some value => .ok (status, value)
      | none => .error (.malformed "")
  | .transport detail => .error (.unreachable detail)

/-- `post`; a body that does not decode is reported without the words of `serde_json` -/
def post (type : FieldType) (reply : Reply) : Except BackendError (Typed String type) := do
  let (_, value) ← postRaw reply
  match Rust.decode type value with
  | some answer => .ok answer
  | none => .error (.malformed "")

/-- the pending session of a decoded answer -/
def pendingOf : Typed String Schema.CompanionPollResponse → Option Pending
  | (pending, nonce, serverName, _, _, _, ()) =>
    match (pending : Bool), (nonce : Option String) with
    | true, some nonce => some ⟨nonce, serverName⟩
    | _, _ => none

def pollPending (reply : Reply) : Except BackendError (Option Pending) := do
  let answer ← post Schema.CompanionPollResponse reply
  match Rust.validate Schema.CompanionPollResponse answer "" with
  | .ok () => .ok (pendingOf answer)
  | .error message => .error (.malformed message)

end Client

/-! ## main.rs -/

/-- what the threads are given -/
structure Threads where
  /-- the endpoint -/
  allowed : List String
  collector : Client
  client : Client
  worker : Worker

/-- the first trusted entry is the backend of the collector and of the worker; without one the program
exits -/
def main (allowed : List String) (version buildHash : String) (started : Time) : Option Threads :=
  allowed.head?.map fun primary => {
    allowed := allowed
    collector := Client.new primary version
    client := Client.new primary version
    worker := ⟨version, buildHash, started⟩ }

namespace Threads

/-- the attestations among what the worker does, with where they go -/
def attestations (c : Threads) (acts : List Act) : List (String × AttestationRequest) :=
  acts.filterMap fun
    | .attest request _ => some (c.client.url "/v1/attest", request)
    | _ => none

/-- the worker takes up the command in a turn, after any turns before it -/
structure Takes (c : Threads) (command : LocalAttestCommand) (acts : List Act) : Prop where
  turn : ∃ first before s t, (c.worker.runLoop before (Worker.start first)).2 = some s ∧
    t.received = .job (.localCommand command) ∧ acts = (c.worker.turn t s).1

/-- whatever the worker attests for the command goes to the backend that the command names -/
def AnswersIssuer (c : Threads) (command : LocalAttestCommand) : Prop :=
  ∀ acts, c.Takes command acts → ∀ sent ∈ c.attestations acts,
    sent.2.nonce = command.nonce ∧ SameOrigin sent.1 command.backendUrl

end Threads

/-! ## where a command is answered -/

section
variable {allowed : List String} {version buildHash : String} {started : Time} {c : Threads}
  {primary : String} {command : LocalAttestCommand}

theorem main_eq (version buildHash : String) (started : Time) (hprimary : allowed.head? = some primary) :
    main allowed version buildHash started = some {
      allowed := allowed
      collector := Client.new primary version
      client := Client.new primary version
      worker := ⟨version, buildHash, started⟩ } := by
  unfold main
  rw [hprimary]
  rfl

section
variable {w : Worker} {t : Turn} {nonce : String} {s : Loop} {request : AttestationRequest}
  {answer : Except BackendError AttestationAck}

theorem onAck_attest {ack : AttestationAck} :
    Act.attest request answer ∉ (w.onAck t nonce ack s).1 := by
  unfold Worker.onAck
  dsimp only
  split
  · split <;> simp [Worker.publish]
  · simp [Worker.publish]

theorem onScanned_attest {snapshot : SystemSnapshot}
    (h : .attest request answer ∈ (w.onScanned t nonce snapshot s).1) : request.nonce = nonce := by
  unfold Worker.onScanned at h
  dsimp only at h
  split at h
  · rcases List.mem_append.mp h with h | h
    · simp only [Worker.publish, List.mem_cons, reduceCtorEq, Act.attest.injEq, List.not_mem_nil,
        or_false, false_or] at h
      rw [h.1]
    · exact absurd h onAck_attest
  · simp only [Worker.publish, List.mem_append, List.mem_cons, reduceCtorEq, Act.attest.injEq,
      List.not_mem_nil, or_false, false_or] at h
    rw [h.1]

/-- what is attested for a nonce carries it -/
theorem onNonce_attest {serverName : Option String}
    (h : .attest request answer ∈ (w.onNonce t nonce serverName s).1) : request.nonce = nonce := by
  unfold Worker.onNonce at h
  dsimp only at h
  split at h
  · simp [Worker.publish] at h
  · rcases List.mem_append.mp h with h | h
    · simp [Worker.publish] at h
    · exact onScanned_attest h

theorem turn_local (w : Worker) (s : Loop) (ht : t.received = .job (.localCommand command)) :
    w.turn t s = if s.lastNonce = some command.nonce then ([], some s)
      else w.onNonce t command.nonce command.serverName s := by
  unfold Worker.turn
  rw [ht]
  rfl

end

/-- what the worker attests for a command goes to the first trusted backend -/
theorem takes_attest (hc : main allowed version buildHash started = some c)
    (hprimary : allowed.head? = some primary) {acts : List Act} (h : c.Takes command acts) :
    ∀ sent ∈ c.attestations acts, sent.2.nonce = command.nonce ∧
      sent.1 = (Client.new primary version).url "/v1/attest" := by
  rw [main_eq _ _ _ hprimary] at hc
  cases hc
  obtain ⟨first, before, s, t, _, ht, rfl⟩ := h.turn
  intro sent hsent
  obtain ⟨act, hact, hsome⟩ := List.mem_filterMap.mp hsent
  cases act with
  | taken | scan | publish | outcome | heartbeat | done => cases hsome
  | attest request answer =>
    cases hsome
    rw [turn_local _ s ht] at hact
    split at hact
    · exact absurd hact List.not_mem_nil
    · exact ⟨onNonce_attest hact, rfl⟩

/-- the first thing the worker receives is the command, and the scan succeeds -/
theorem first_attest (w : Worker) (command : LocalAttestCommand) (snapshot : SystemSnapshot) :
    ∃ t : Turn, t.received = .job (.localCommand command) ∧
      .attest ⟨command.nonce, snapshot, none, protocolVersion⟩ (.error (.unreachable "")) ∈
        (w.turn t (Worker.start (.ok snapshot))).1 := by
  let t : Turn := {
    received := .job (.localCommand command)
    now := w.started
    scan := .ok snapshot
    rescan := .ok snapshot
    attest := .error (.unreachable "")
    outcome := .error (.unreachable "")
    heartbeat := .error (.unreachable "") }
  refine ⟨t, rfl, ?_⟩
  rw [turn_local _ _ rfl]
  simp [Worker.start, Worker.onNonce, Worker.onScanned, t]

theorem exists_takes (hc : main allowed version buildHash started = some c)
    (hprimary : allowed.head? = some primary) (snapshot : SystemSnapshot) :
    ∃ acts, c.Takes command acts ∧ ((Client.new primary version).url "/v1/attest",
      (⟨command.nonce, snapshot, none, protocolVersion⟩ : AttestationRequest)) ∈ c.attestations acts := by
  rw [main_eq _ _ _ hprimary] at hc
  cases hc
  obtain ⟨t, ht, hattest⟩ := first_attest ⟨version, buildHash, started⟩ command snapshot
  exact ⟨_, ⟨⟨.ok snapshot, [], _, t, rfl, ht, rfl⟩⟩, List.mem_filterMap.mpr ⟨_, hattest, rfl⟩⟩

/-- **A localhost command is answered at the backend it names** exactly if this is the first trusted
one: the endpoint takes commands for any of them, and the worker has one client. -/
theorem answered_at_issuer {parse : String → Option Json} {method path body : String}
    (hc : main allowed version buildHash started = some c) (hprimary : allowed.head? = some primary)
    (haccepted : handleRequest parse method path body c.allowed = .ok command) :
    (∃ entry ∈ c.allowed, SameOrigin entry command.backendUrl) ∧
      (c.AnswersIssuer command ↔
        SameOrigin ((Client.new primary version).url "/v1/attest") command.backendUrl) := by
  refine ⟨(handleRequest_ok.mp haccepted).2.2.2, fun h => ?_, fun h acts htakes sent hsent => ?_⟩
  · obtain ⟨acts, htakes, hsent⟩ := exists_takes hc hprimary Backend.Deployment.snapshot
    exact (h acts htakes _ hsent).2
  · obtain ⟨hnonce, hurl⟩ := takes_attest hc hprimary htakes sent hsent
    rw [hurl]
    exact ⟨hnonce, h⟩

end

/-! ## two trusted backends -/

/-- what a server operator adds for their own deployment; it comes first after sorting -/
def ownBackend : List String := allowedBackends (some ["http://127.0.0.1:8080"])

/-- a command for the backend of that name -/
def commandFor (backendUrl : String) : LocalAttestCommand :=
  ⟨String.ofList (List.replicate 64 'a'), backendUrl, none, 1⟩

def bodyFor (backendUrl : String) : String := "\x7b\"nonce\":\"" ++ (commandFor backendUrl).nonce ++
  "\",\"backendUrl\":\"" ++ backendUrl ++ "\",\"protocolVersion\":1\x7d"

/-- the parser on that body -/
def parseFor (backendUrl : String) (body : String) : Option Json :=
  if body = bodyFor backendUrl then some (.obj [
    ("nonce", .str (commandFor backendUrl).nonce),
    ("backendUrl", .str backendUrl),
    ("protocolVersion", .num (.int 1))])
  else none

/-- the command as it is decoded -/
def typedFor (backendUrl : String) : Typed String Schema.LocalAttestCommand :=
  ((commandFor backendUrl).nonce, backendUrl, (none : Option String), (1 : Int), ())

theorem decode_typedFor (backendUrl : String) :
    ((parseFor backendUrl (bodyFor backendUrl)).bind (Rust.decode Schema.LocalAttestCommand)) =
      some (typedFor backendUrl) := by
  rw [parseFor, if_pos rfl]
  rfl

theorem accepted_production {allowed : List String} (h : "https://api.fiveprotect.dev" ∈ allowed) :
    handleRequest (parseFor "https://api.fiveprotect.dev") "POST" "/attest"
      (bodyFor "https://api.fiveprotect.dev") allowed =
        .ok (commandFor "https://api.fiveprotect.dev") := by
  rw [handleRequest_ok]
  refine ⟨by decide, ⟨_, decode_typedFor _, ?_, rfl⟩, rfl, "https://api.fiveprotect.dev", h, ?_⟩
  · decide +kernel
  · exact ⟨"https://api.fiveprotect.dev", by decide +kernel, by decide +kernel⟩

theorem ownBackend_eq : ownBackend = ["http://127.0.0.1:8080", "https://api.fiveprotect.dev"] := by
  decide +kernel

/-- the game client names the production backend, the worker reports to the other one -/
theorem answered_elsewhere : ∃ c, main ownBackend "0.1.0" "build" 0 = some c ∧
    handleRequest (parseFor "https://api.fiveprotect.dev") "POST" "/attest"
      (bodyFor "https://api.fiveprotect.dev") c.allowed = .ok (commandFor "https://api.fiveprotect.dev") ∧
    ¬ c.AnswersIssuer (commandFor "https://api.fiveprotect.dev") := by
  have hprimary : ownBackend.head? = some "http://127.0.0.1:8080" := by rw [ownBackend_eq]; rfl
  have hc := main_eq "0.1.0" "build" 0 hprimary
  refine ⟨_, hc, accepted_production (by rw [ownBackend_eq]; simp), fun h => ?_⟩
  obtain ⟨acts, htakes, hsent⟩ := exists_takes hc hprimary Backend.Deployment.snapshot
  obtain ⟨o, hleft, hright⟩ := (h acts htakes _ hsent).2
  rw [← hright] at hleft
  exact absurd hleft (by decide +kernel)

/-- without a file there is one backend -/
theorem answered_builtIn : ∃ c, main (allowedBackends none) "0.1.0" "build" 0 = some c ∧
    c.AnswersIssuer (commandFor "https://api.fiveprotect.dev") := by
  have hc := main_eq "0.1.0" "build" 0
    (show (allowedBackends none).head? = some "https://api.fiveprotect.dev" from rfl)
  refine ⟨_, hc, ((answered_at_issuer hc rfl (accepted_production List.mem_cons_self)).2.mpr ?_)⟩
  exact ⟨"https://api.fiveprotect.dev", by decide +kernel, by decide +kernel⟩

end Companion
