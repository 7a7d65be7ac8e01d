import FiveProtect.Companion.State
import FiveProtect.Lib.IsoTime
import FiveProtect.Protocol.Messages

/-!
# Companion: the worker

`Worker::run` of `apps/companion/crates/fiveprotect-companion/src/worker.rs`.  One turn of its loop is a
function of what it receives and of the answers it meets (`Turn`); it says what the worker does, in
order, with the answers (`Act`), and the loop's variables afterwards (`Loop`), or that `run` returned.

* `onIdle`, `onBeat`, `onShutdown`, `onRecheck`, `onNonce`   the branches of the loop;
* `turn`                                                     one turn;
* `runLoop`, `run`                                           a list of turns.
-/

namespace Companion
open Protocol

/-! ## what the worker receives -/

/-- a nonce that was collected from the backend -/
structure Pending where
  nonce : String
  serverName : Option String

/-- a command of the game client over the localhost endpoint -/
structure LocalAttestCommand where
  nonce : String
  backendUrl : String
  serverName : Option String
  protocolVersion : Int

inductive Job where
  | collected (pending : Pending)
  | localCommand (command : LocalAttestCommand)
  | recheck
  | shutdown

def Job.nonce : Job → Option String
  | .collected pending => some pending.nonce
  | .localCommand command => some command.nonce
  | _ => none

def Job.serverName : Job → Option String
  | .collected pending => pending.serverName
  | .localCommand command => command.serverName
  | _ => none

/-- what `recv_timeout` returns -/
inductive Received where
  | job (j : Job)
  | timeout
  | disconnected

inductive ScanError where
  | argument (name : String)
  | engine (code : Int)
  | tooLarge (size : Nat)
  | malformed (detail : String)

inductive BackendError where
  | unreachable (detail : String)
  | status (code : Nat) (codeText : String)
  | malformed (detail : String)

/-- the acknowledgement of an attestation, as received -/
structure AttestationAck where
  sessionId : String
  heartbeatIntervalSeconds : Int

/-- a verdict, as received -/
structure Verdict where
  decision : VerdictDecision
  requirements : List RequirementResult
  remediation : Option String

/-- the answer to a heartbeat, as received -/
structure HeartbeatResponse where
  nextIntervalSeconds : Int
  terminate : Bool

/-- what one turn of the loop receives, the instant it adds its durations to, and the answers it
meets if it asks -/
structure Turn where
  received : Received
  now : Time
  scan : Except ScanError SystemSnapshot
  /-- the second scan of a turn -/
  rescan : Except ScanError SystemSnapshot
  attest : Except BackendError AttestationAck
  outcome : Except BackendError (Option Verdict)
  heartbeat : Except BackendError HeartbeatResponse

/-! ## what the worker does -/

inductive Act where
  /-- a nonce is taken up: the line the log gets for it -/
  | taken (nonce : String)
  | scan (answer : Except ScanError SystemSnapshot)
  | publish (v : WindowView)
  | attest (request : AttestationRequest) (answer : Except BackendError AttestationAck)
  | outcome (sessionId : String) (answer : Except BackendError (Option Verdict))
  | heartbeat (beat : HeartbeatRequest) (answer : Except BackendError HeartbeatResponse)
  /-- the program may exit -/
  | done

/-- a session the backend has acknowledged and that is being kept alive -/
structure Active where
  sessionId : String
  interval : Time
  nextBeat : Time
  deriving DecidableEq

/-- everything the window is currently showing -/
structure Presentation where
  state : WindowState
  checks : List WindowCheck
  serverName : Option String
  remediation : Option String
  gamePresent : Bool

def Presentation.new : Presentation := ⟨.idle, [], none, none, false⟩

structure Loop where
  shown : Presentation
  active : Option Active
  lastNonce : Option String

structure Worker where
  version : String
  buildHash : String
  started : Time

/-! ## texts and checks -/

def scanFailed : String :=
  "Die Systemprüfung konnte nicht durchgeführt werden. Starte FiveProtect neu und versuche es erneut."

def backendUnreachable : String :=
  "Der Anticheat-Dienst ist nicht erreichbar. Prüfe deine Internetverbindung und versuche es erneut."

def reportRefused : String :=
  "Die Systemprüfung wurde nicht angenommen. Verbinde dich erneut mit dem Server."

def enabledIsPass : FeatureState → RequirementStatus
  | .enabled => .pass
  | .disabled => .fail
  | .unknown => .unknown

def enabledIsFail : FeatureState → RequirementStatus
  | .enabled => .fail
  | .disabled => .pass
  | .unknown => .unknown

/-- turns the snapshot into the lines the window shows -/
def checksFrom (snapshot : SystemSnapshot) : List WindowCheck := [
  ⟨.secure_boot_enabled, enabledIsPass snapshot.features.secureBoot⟩,
  ⟨.hvci_enabled, enabledIsPass snapshot.features.hvci⟩,
  ⟨.driver_blocklist_enabled, enabledIsPass snapshot.features.driverBlocklist⟩,
  ⟨.iommu_enabled, enabledIsPass snapshot.features.iommu⟩,
  ⟨.test_signing_disabled, enabledIsFail snapshot.features.testSigning⟩,
  ⟨.kernel_debugging_disabled, enabledIsFail snapshot.features.kernelDebugging⟩,
  ⟨.tpm_attestation_valid, if snapshot.tpm.present then .pass else .fail⟩,
  ⟨.game_process_present, if snapshot.gameProcess.isSome then .pass else .fail⟩]

/-- the server's reading of a requirement in place of the companion's, where it has one -/
def mergeServerView (localChecks : List WindowCheck) (server : List RequirementResult) :
    List WindowCheck :=
  localChecks.foldl (fun merged entry =>
    if merged.any fun row => row.requirement = entry.requirement then merged else merged ++ [entry])
    (server.map fun result => ⟨result.requirement, result.status⟩)

/-- whether a scan has seen the game; a failed one has not -/
def gamePresent (answer : Except ScanError SystemSnapshot) : Bool :=
  match answer with
  | .ok snapshot => snapshot.gameProcess.isSome
  | .error _ => false

/-- `Duration::from_secs(u64::try_from(seconds).unwrap_or(120))`, in milliseconds -/
def intervalOf (seconds : Int) : Time := if 0 ≤ seconds then seconds.toNat * 1000 else 120000

/-! ## the branches of the loop -/

namespace Worker

/-- what a turn does, and the loop's variables after it; `none` when `run` returned -/
abbrev Out := List Act × Option Loop

def viewOf (w : Worker) (shown : Presentation) : WindowView :=
  ((view shown.state shown.remediation shown.serverName w.version protocolVersion).withChecks
    shown.checks).withGamePresent shown.gamePresent

def publish (w : Worker) (shown : Presentation) : Act := .publish (w.viewOf shown)

/-- `i64::try_from(self.started.elapsed().as_secs())` -/
def uptimeSeconds (w : Worker) (now : Time) : Int := ((now - w.started) / 1000 : Nat)

/-- nothing received, no session: look for the game -/
def onIdle (w : Worker) (t : Turn) (s : Loop) : Out :=
  let running := gamePresent t.scan
  if running ≠ s.shown.gamePresent then
    let shown := { s.shown with gamePresent := running }
    ([.scan t.scan, w.publish shown], some { s with shown := shown })
  else ([.scan t.scan], some s)

def beatRequest (w : Worker) (now : Time) (sessionId : String) (present : Bool) :
    HeartbeatRequest where
  sessionId := sessionId
  companionBuildHash := w.buildHash
  uptimeSeconds := w.uptimeSeconds now
  gameProcessPresent := present
  closing := none
  protocolVersion := protocolVersion

/-- nothing received, a session: the next heartbeat is due -/
def onBeat (w : Worker) (t : Turn) (session : Active) (s : Loop) : Out :=
  let acts := [.scan t.scan,
    .heartbeat (w.beatRequest t.now session.sessionId (gamePresent t.scan)) t.heartbeat]
  match t.heartbeat with
  | .error _ =>
    (acts, some { s with active := some { session with nextBeat := t.now + session.interval } })
  | .ok response =>
    if response.terminate then
      -- the backend ended the session
      let shown := { s.shown with
        state := nextState s.shown.state .sessionEnded
        checks := []
        serverName := none
        gamePresent := gamePresent t.rescan }
      (acts ++ [.scan t.rescan, w.publish shown], some { s with shown := shown, active := none })
    else
      let interval := intervalOf response.nextIntervalSeconds
      (acts, some { s with
        active := some { session with interval := interval, nextBeat := t.now + interval } })

def closeRequest (w : Worker) (now : Time) (sessionId : String) : HeartbeatRequest where
  sessionId := sessionId
  companionBuildHash := w.buildHash
  uptimeSeconds := w.uptimeSeconds now
  gameProcessPresent := true
  closing := some true
  protocolVersion := protocolVersion

def onShutdown (w : Worker) (t : Turn) (s : Loop) : Out :=
  match s.active with
  | some session => ([.heartbeat (w.closeRequest t.now session.sessionId) t.heartbeat, .done], none)
  | none => ([.done], none)

/-- check again: measures the machine, there is nothing to attest against -/
def onRecheck (w : Worker) (t : Turn) (s : Loop) : Out :=
  let shown := match t.scan with
    | .ok snapshot => { s.shown with
        gamePresent := snapshot.gameProcess.isSome
        checks := checksFrom snapshot }
    | .error _ => s.shown
  let shown := if s.active.isNone then { shown with
      state := nextState shown.state .sessionEnded
      remediation := none
      serverName := none }
    else shown
  ([.scan t.scan, w.publish shown], some { s with shown := shown })

/-- the session of an acknowledgement, kept alive from now on -/
def activate (now : Time) (ack : AttestationAck) : Active where
  sessionId := ack.sessionId
  interval := intervalOf ack.heartbeatIntervalSeconds
  nextBeat := now + intervalOf ack.heartbeatIntervalSeconds

/-- the attestation was acknowledged: ask how it was judged -/
def onAck (w : Worker) (t : Turn) (nonce : String) (ack : AttestationAck) (s : Loop) : Out :=
  let shown := { s.shown with state := nextState s.shown.state .attestationAccepted }
  let acts := [w.publish shown, .outcome ack.sessionId t.outcome]
  match t.outcome with
  | .ok (some verdict) =>
    if verdict.decision = .deny then
      let shown := { shown with
        remediation := verdict.remediation
        checks := mergeServerView shown.checks verdict.requirements
        state := nextState shown.state (.refused verdict.remediation) }
      (acts ++ [w.publish shown], some { s with shown := shown, lastNonce := some nonce })
    else
      (acts ++ [w.publish shown],
        some ⟨shown, some (activate t.now ack), some nonce⟩)
  | _ => (acts ++ [w.publish shown], some ⟨shown, some (activate t.now ack), some nonce⟩)

/-- the machine was scanned: report what was found -/
def onScanned (w : Worker) (t : Turn) (nonce : String) (snapshot : SystemSnapshot) (s : Loop) : Out :=
  let shown := { s.shown with
    gamePresent := snapshot.gameProcess.isSome
    checks := checksFrom snapshot }
  let request : AttestationRequest := ⟨nonce, snapshot, none, protocolVersion⟩
  let acts := [w.publish shown, .attest request t.attest]
  match t.attest with
  | .ok ack =>
    let out := w.onAck t nonce ack { s with shown := shown }
    (acts ++ out.1, out.2)
  | .error error =>
    let text := match error with
      | .unreachable _ => backendUnreachable
      | _ => reportRefused
    let shown := { shown with
      remediation := some text
      state := nextState shown.state (.refused (some text)) }
    (acts ++ [w.publish shown], some { s with shown := shown })

def onNonce (w : Worker) (t : Turn) (nonce : String) (serverName : Option String) (s : Loop) : Out :=
  let shown := { s.shown with
    serverName := serverName <|> s.shown.serverName
    state := nextState s.shown.state .attestRequested
    remediation := none }
  let acts := [.taken nonce, w.publish shown, .scan t.scan]
  match t.scan with
  | .error _ =>
    let shown := { shown with
      state := nextState shown.state (.failed (some scanFailed))
      remediation := some scanFailed }
    (acts ++ [w.publish shown], some { s with shown := shown })
  | .ok snapshot =>
    let out := w.onScanned t nonce snapshot { s with shown := shown }
    (acts ++ out.1, out.2)

/-! ## the loop -/

/-- one turn of the loop -/
def turn (w : Worker) (t : Turn) (s : Loop) : Out :=
  match t.received with
  | .disconnected => ([], none)
  | .timeout =>
    match s.active with
    | none => w.onIdle t s
    | some session => w.onBeat t session s
  | .job .shutdown => w.onShutdown t s
  | .job job =>
    match job.nonce with
    | none => w.onRecheck t s
    | some nonce =>
      -- a nonce that is already answered
      if s.lastNonce = some nonce then ([], some s)
      else w.onNonce t nonce job.serverName s

def runLoop (w : Worker) : List Turn → Loop → Out
  | [], s => ([], some s)
  | t :: ts, s =>
    match w.turn t s with
    | (acts, none) => (acts, none)
    | (acts, some s') =>
      let out := w.runLoop ts s'
      (acts ++ out.1, out.2)

/-- before the first turn -/
def start (first : Except ScanError SystemSnapshot) : Loop :=
  ⟨{ Presentation.new with gamePresent := gamePresent first }, none, none⟩

/-- `Worker::run`: what it does in the course of a list of turns -/
def run (w : Worker) (first : Except ScanError SystemSnapshot) (ts : List Turn) : List Act :=
  [.scan first, w.publish (start first).shown] ++ (w.runLoop ts (start first)).1

end Worker

end Companion
