import FiveProtect.Backend.Calls
import FiveProtect.Lib.Alarm
import FiveProtect.Resource.Liveness

/-!
# The resource polls the backend

The backend and the thread of the resource that calls `Liveness.poll`, with the heartbeats of the
companions in between.  A poll runs over the players that were tracked when it began; the answer for
one of them is on its way while anything else goes on, and it may be lost.

* `Watch.step`        one event, at its time; the requests are served one after the other;
* `Act`               what the events leave in the log;
* `Undisturbed`       no heartbeat request terminates the session, and the player keeps it;
* `Spaced`, `Prompt`  how the answered polls of a player follow each other, and when the first comes;
* `KicksWarned`       each kick comes after a warning.
-/

namespace Resource
open Protocol Backend

def heartbeatGraceMs : Time := heartbeatGraceSeconds * 1000

inductive Act where
  /-- the backend has served a request -/
  | served (t : Time) (c : Call) (res : Option Response)
  /-- the resource has taken the answer of a poll that the backend served then -/
  | answered (source : Source) (t : Time)
  | effect (e : LivenessEffect)

structure Watch where
  now : Time
  db : Db
  liveness : Liveness
  /-- what is left of the loop in `Liveness.poll`; the thread waits for the first -/
  todo : List Entry
  /-- the answer for it, and when the backend has served the request -/
  reply : Option (Time × Exchange)
  log : List Act

inductive WatchEvent where
  /-- the backend serves a heartbeat, or a poll that the resource does not wait for (any longer) -/
  | request (c : Call)
  | track (entry : Entry)
  | forget (source : Source)
  /-- `Liveness.poll` is called; the order of `pairs` is not specified -/
  | poll (entries : List Entry)
  /-- the backend serves the request of the thread -/
  | ask
  /-- the thread goes on with the answer -/
  | answer
  /-- the thread goes on without an answer -/
  | fail

namespace Watch

variable (P : Platform) (authorization : Option String)

/-- the backend serves a request -/
def serve (t : Time) (c : Call) (s : Watch) : Watch :=
  { s with
    db := (c.serve P t s.db).1
    log := s.log ++ [.served t c (c.serve P t s.db).2] }

/-- the thread takes an answer -/
def take (entry : Entry) (u : Time) (x : Exchange) (s : Watch) : Watch :=
  let (liveness, effects) := s.liveness.handle entry (Http.finish x)
  { s with
    liveness := liveness
    log := s.log ++ (if (Liveness.answer? (Http.finish x)).isSome then [.answered entry.source u]
      else []) ++ effects.map .effect }

def exec (t : Time) (e : WatchEvent) (s : Watch) : Option Watch :=
  match e with
  | .request c => some (s.serve P t c)
  | .track entry => some { s with liveness := s.liveness.track entry.source entry.sessionId }
  | .forget source => some { s with liveness := s.liveness.forget source }
  | .poll entries =>
    if s.todo = [] ∧ entries.Perm s.liveness.tracked then some { s with todo := entries } else none
  | .ask =>
    match s.todo, s.reply with
    | entry :: _, none =>
      let c := Call.liveness authorization entry.sessionId
      some { s.serve P t c with reply := some (t, livenessExchange (c.serve P t s.db).2) }
    | _, _ => none
  | .answer =>
    match s.todo, s.reply with
    | entry :: rest, some (u, x) => some { s.take entry u x with todo := rest, reply := none }
    | _, _ => none
  | .fail =>
    match s.todo with
    | _ :: rest => some { s with todo := rest, reply := none }
    | [] => none

/-- an event at its time; no event comes before an earlier one -/
def step (e : Time × WatchEvent) (s : Watch) : Option Watch :=
  if s.now ≤ e.1 then exec P authorization e.1 e.2 { s with now := e.1 } else none

end Watch

/-! ## what is in the log -/

section
variable (id : Uuid) (source : Source) (last : Time) (log : List Act)

/-- an acknowledged heartbeat of the session -/
def Act.ackedAt : Act → Option Time
  | .served t c res => if c.acknowledged id res then some t else none
  | _ => none

/-- an answered poll of the player -/
def Act.answeredAt : Act → Option Time
  | .answered source' t => if source' = source then some t else none
  | _ => none

/-- the last acknowledged heartbeat; `last` is the one before the log begins -/
def lastAck : Time := ((log.filterMap (Act.ackedAt id)).getLast?).getD last

/-- the last answered poll -/
def lastAnswer : Option Time := (log.filterMap (Act.answeredAt source)).getLast?

/-- a warning is sent to the player, and no heartbeat acknowledged since -/
def WarnedSince : Prop :=
  ∃ before after, log = before ++ .effect (.warn source) :: after ∧
    ∀ a ∈ after, a.ackedAt id = none

/-- every kick for lost heartbeats is preceded by a warning sent after the last acknowledged
heartbeat -/
def KicksWarned : Prop :=
  ∀ before reason after, log = before ++ .effect (.dropPlayer source reason) :: after →
    isText reason "heartbeat_lost" = true → WarnedSince id source before

/-- a warning to the player -/
def Act.warns : Act → Bool
  | .effect (.warn source') => source' = source
  | _ => false

/-- a kick for lost heartbeats -/
def Act.kicks : Act → Bool
  | .effect (.dropPlayer source' reason) => source' = source && isText reason "heartbeat_lost"
  | _ => false

end

/-! ## conditions on the events -/

section
variable (r : AttestationSession) (source : Source) (last : Time)

/-- the time of the poll of the player that the next answer answers, if the resource takes it -/
def Watch.answering (s : Watch) : Option Time :=
  match s.todo, s.reply with
  | entry :: _, some (u, x) =>
    if entry.source = source ∧ (Liveness.answer? (Http.finish x)).isSome then some u else none
  | _, _ => none

/-- no heartbeat request terminates the session, and the player is tracked with it -/
def Undisturbed (s : Watch) : Time × WatchEvent → Prop
  | (_, .request c) => c.ends s.db r.id = true → ∀ x ∈ s.db.sessions, x.id = r.id →
      x.state = .terminated
  | (_, .track entry) => entry.source = source → entry.sessionId = r.id.toText
  | _ => True

/-- consecutive answered polls are less than the grace period apart -/
def Spaced (s : Watch) : Time × WatchEvent → Prop
  | (_, .answer) => ∀ u ∈ s.answering source, ∀ a ∈ lastAnswer source s.log,
      u < a + heartbeatGraceMs
  | _ => True

/-- the first answered poll comes less than interval and grace after the last acknowledged heartbeat -/
def Prompt (s : Watch) : Time × WatchEvent → Prop
  | (_, .answer) => ∀ u ∈ s.answering source, lastAnswer source s.log = none →
      u < lastAck r.id last s.log + heartbeatLimitMs
  | _ => True

instance (s : Watch) (e : Time × WatchEvent) : Decidable (Undisturbed r source s e) :=
  match e with
  | (_, .request c) => inferInstanceAs (Decidable (c.ends s.db r.id = true →
      ∀ x ∈ s.db.sessions.rows, x.id = r.id → x.state = .terminated))
  | (_, .track entry) =>
    inferInstanceAs (Decidable (entry.source = source → entry.sessionId = r.id.toText))
  | (_, .forget _) | (_, .poll _) | (_, .ask) | (_, .answer) | (_, .fail) => .isTrue trivial

instance (s : Watch) (e : Time × WatchEvent) : Decidable (Spaced source s e) :=
  match e with
  | (_, .answer) => inferInstanceAs (Decidable (∀ u ∈ s.answering source,
      ∀ a ∈ lastAnswer source s.log, u < a + heartbeatGraceMs))
  | (_, .request _) | (_, .track _) | (_, .forget _) | (_, .poll _) | (_, .ask) | (_, .fail) =>
    .isTrue trivial

instance (s : Watch) (e : Time × WatchEvent) : Decidable (Prompt r source last s e) :=
  match e with
  | (_, .answer) => inferInstanceAs (Decidable (∀ u ∈ s.answering source,
      lastAnswer source s.log = none → u < lastAck r.id last s.log + heartbeatLimitMs))
  | (_, .request _) | (_, .track _) | (_, .forget _) | (_, .poll _) | (_, .ask) | (_, .fail) =>
    .isTrue trivial

/-- the session is active, the player was just tracked with it, and there is no request for him on its
way -/
structure Joined (s : Watch) : Prop where
  row : r ∈ s.db.sessions
  active : r.state = .active
  beat : r.lastHeartbeatAt = some last
  unwarned : s.liveness.warned source = false
  entries : ∀ e ∈ s.liveness.sessions, e.source = source → e.sessionId = r.id.toText
  todo : ∀ e ∈ s.todo, e.source ≠ source
  idle : s.todo = [] → s.reply = none
  log : s.log = []

end

end Resource
