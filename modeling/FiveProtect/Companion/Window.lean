import FiveProtect.Backend.Deployment
import FiveProtect.Companion.Worker

/-!
# The window and the heartbeats follow the backend

What the worker does is read against what it did and met before: a view in state `ready` against the
last nonce it took up, a heartbeat against the last acknowledgement that was not answered with `deny`.

* `ReadyBy upset h`       the last nonce was acknowledged, and nothing that is `upset` came after it;
* `KeptBy h id`           the session `id` is the one to keep alive;
* `Follows upset h as`    each of the acts `as`, done after `h`, is in order;
* `turn_follows`          what a turn preserves, one lemma for each branch of the loop;
* `window_follows`        every run of the worker.
-/

namespace Companion
open Protocol

/-! ## what the worker has met -/

def denies : Except BackendError (Option Verdict) → Bool
  | .ok (some verdict) => verdict.decision = .deny
  | _ => false

/-- the backend ended the session -/
def ends : Act → Bool
  | .heartbeat _ (.ok response) => response.terminate
  | _ => false

/-- a `deny` outcome, a refusal, or the end of a session -/
def upset : Act → Bool
  | .outcome _ answer => denies answer
  | .attest _ (.error _) => true
  | a => ends a

def scanFails : Act → Bool
  | .scan (.error _) => true
  | _ => false

def isTaken : Act → Bool
  | .taken _ => true
  | _ => false

/-! ## what has to hold of an act -/

/-- the last nonce taken up was acknowledged, and nothing `bad` has been met since -/
def ReadyBy (bad : Act → Bool) (h : List Act) : Prop :=
  ∃ before nonce between request ack after,
    h = before ++ .taken nonce :: (between ++ .attest request (.ok ack) :: after) ∧
      request.nonce = nonce ∧ (∀ a ∈ between ++ after, isTaken a = false) ∧
      ∀ a ∈ after, bad a = false

/-- every acknowledgement is answered with `deny` -/
def AllDenied : List Act → Prop
  | [] => True
  | .attest _ (.ok ack) :: rest => (∃ v answer rest', denies answer = true ∧
      rest = .publish v :: .outcome ack.sessionId answer :: rest') ∧ AllDenied rest
  | _ :: rest => AllDenied rest

/-- the most recent acknowledgement that was not answered with `deny` is for this session, and the
backend has not ended it since -/
def KeptBy (h : List Act) (sessionId : String) : Prop :=
  ∃ before request ack v answer after,
    h = before ++ .attest request (.ok ack) :: .publish v :: .outcome ack.sessionId answer :: after ∧
      ack.sessionId = sessionId ∧ denies answer = false ∧ AllDenied after ∧
      ∀ a ∈ after, ends a = false

/-- an act is in order after the acts `h` -/
def Fits (bad : Act → Bool) (h : List Act) : Act → Prop
  | .publish v => v.state = .ready → ReadyBy bad h
  | .heartbeat beat _ => KeptBy h beat.sessionId
  | _ => True

/-- each of the acts is in order after those before it -/
def Follows (bad : Act → Bool) : List Act → List Act → Prop
  | _, [] => True
  | h, a :: as => Fits bad h a ∧ Follows bad (h ++ [a]) as

theorem Follows.append {bad : Act → Bool} {h as bs : List Act} (ha : Follows bad h as)
    (hb : Follows bad (h ++ as) bs) : Follows bad h (as ++ bs) := by
  induction as generalizing h with
  | nil =>
    rw [List.append_nil] at hb
    exact hb
  | cons a as ih =>
    refine ⟨ha.1, ih ha.2 ?_⟩
    rw [List.append_assoc]
    exact hb

/-- each act of a list that follows is in order -/
theorem Follows.fits {bad : Act → Bool} {h as : List Act} {a : Act} (pre post : List Act)
    (hf : Follows bad h as) (has : as = pre ++ a :: post) : Fits bad (h ++ pre) a := by
  subst has
  induction pre generalizing h with
  | nil =>
    rw [List.append_nil]
    exact hf.1
  | cons x pre ih =>
    have hrest := ih hf.2
    rw [List.append_assoc] at hrest
    exact hrest

/-! ## acts that change nothing -/

theorem AllDenied.append {as bs : List Act} (ha : AllDenied as) (hb : AllDenied bs) :
    AllDenied (as ++ bs) := by
  induction as with
  | nil => exact hb
  | cons a as ih =>
    cases a with
    | attest request answer =>
      cases answer with
      | ok ack =>
        obtain ⟨⟨v, out, rest, hdeny, hrest⟩, htail⟩ := ha
        refine ⟨⟨v, out, rest ++ bs, hdeny, ?_⟩, ih htail⟩
        rw [hrest]
        rfl
      | error e => exact ih ha
    | taken | scan | publish | outcome | heartbeat | done => exact ih ha

/-- readiness survives acts that take up no nonce and are not bad -/
theorem ReadyBy.append {bad : Act → Bool} {h as : List Act} (hr : ReadyBy bad h)
    (htaken : ∀ a ∈ as, isTaken a = false) (hbad : ∀ a ∈ as, bad a = false) :
    ReadyBy bad (h ++ as) := by
  obtain ⟨before, nonce, between, request, ack, after, rfl, hn, hnone, hgood⟩ := hr
  refine ⟨before, nonce, between, request, ack, after ++ as, by simp, hn, ?_, ?_⟩
  · intro a ha
    rw [← List.append_assoc] at ha
    rcases List.mem_append.mp ha with ha | ha
    · exact hnone a ha
    · exact htaken a ha
  · intro a ha
    rcases List.mem_append.mp ha with ha | ha
    · exact hgood a ha
    · exact hbad a ha

/-- a session is kept over denied acknowledgements, until it ends -/
theorem KeptBy.append {h : List Act} (as : List Act) {sessionId : String} (hk : KeptBy h sessionId)
    (hdenied : AllDenied as) (hends : ∀ a ∈ as, ends a = false) : KeptBy (h ++ as) sessionId := by
  obtain ⟨before, request, ack, v, answer, after, rfl, hid, hans, hall, hlive⟩ := hk
  refine ⟨before, request, ack, v, answer, after ++ as, by simp, hid, hans,
    hall.append hdenied, ?_⟩
  intro a ha
  rcases List.mem_append.mp ha with ha | ha
  · exact hlive a ha
  · exact hends a ha

/-! ## the invariant -/

/-- what the loop's variables say about the acts so far -/
structure Loop.Right (bad : Act → Bool) (h : List Act) (s : Loop) : Prop where
  ready : s.shown.state = .ready → ReadyBy bad h
  active : ∀ session, s.active = some session → KeptBy h session.sessionId

/-- a turn is in order, and leaves the variables right -/
def TurnFollows (bad : Act → Bool) (h : List Act) (out : Worker.Out) : Prop :=
  Follows bad h out.1 ∧ ∀ s, out.2 = some s → s.Right bad (h ++ out.1)

section
variable {w : Worker} {t : Turn} {h : List Act} {s : Loop}

/-- acts that the history does not care about -/
def Plain : Act → Prop
  | .scan _ => True
  | .publish _ => True
  | _ => False

theorem allDenied_of_plain {as : List Act} (hp : ∀ a ∈ as, Plain a) : AllDenied as := by
  induction as with
  | nil => trivial
  | cons a as ih =>
    have hrest := ih fun x hx => hp x (List.mem_cons_of_mem a hx)
    cases a with
    | scan | publish => exact hrest
    | attest request answer => exact (hp _ List.mem_cons_self).elim
    | taken | outcome | heartbeat | done => exact (hp _ List.mem_cons_self).elim

theorem ReadyBy.plain (as : List Act) (hr : ReadyBy upset h) (hp : ∀ a ∈ as, Plain a) :
    ReadyBy upset (h ++ as) := by
  have hneither : ∀ a ∈ as, isTaken a = false ∧ upset a = false := by
    intro a ha
    have hplain := hp a ha
    cases a with
    | scan | publish => exact ⟨rfl, rfl⟩
    | taken | attest | outcome | heartbeat | done => exact hplain.elim
  exact hr.append (fun a ha => (hneither a ha).1) (fun a ha => (hneither a ha).2)

theorem KeptBy.plain (as : List Act) {sessionId : String} (hk : KeptBy h sessionId)
    (hp : ∀ a ∈ as, Plain a) : KeptBy (h ++ as) sessionId := by
  refine hk.append as (allDenied_of_plain hp) fun a ha => ?_
  have hplain := hp a ha
  cases a with
  | scan | publish => rfl
  | taken | attest | outcome | heartbeat | done => exact hplain.elim

/-! ## the branches -/

theorem onIdle_follows (hs : s.Right upset h) : TurnFollows upset h (w.onIdle t s) := by
  unfold Worker.onIdle
  have hscan : ∀ a ∈ [Act.scan t.scan], Plain a := by simp [Plain]
  dsimp only
  split
  · refine ⟨⟨trivial, fun hr => (hs.ready hr).plain _ hscan, trivial⟩, fun s' he => ?_⟩
    cases he
    have hboth : ∀ shown, ∀ a ∈ [Act.scan t.scan, w.publish shown], Plain a := by
      simp [Plain, Worker.publish]
    exact ⟨fun hr => (hs.ready hr).plain _ (hboth _), fun x hx => (hs.active x hx).plain _ (hboth _)⟩
  · refine ⟨⟨trivial, trivial⟩, fun s' he => ?_⟩
    cases he
    exact ⟨fun hr => (hs.ready hr).plain _ hscan, fun x hx => (hs.active x hx).plain _ hscan⟩

theorem onRecheck_follows (hs : s.Right upset h) : TurnFollows upset h (w.onRecheck t s) := by
  -- the state of the window is the old one, or `idle` without a session
  have hstate : ∀ s' as, w.onRecheck t s = (as, some s') → s'.active = s.active ∧
      (s'.shown.state = .ready → s.shown.state = .ready) ∧
      as = [.scan t.scan, w.publish s'.shown] := by
    intro s' as he
    unfold Worker.onRecheck at he
    cases he
    refine ⟨rfl, fun hr => ?_, rfl⟩
    dsimp only at hr
    cases hactive : s.active with
    | none =>
      rw [hactive] at hr
      cases hr
    | some session =>
      rw [hactive] at hr
      cases hscan : t.scan with
      | ok snapshot =>
        rw [hscan] at hr
        exact hr
      | error e =>
        rw [hscan] at hr
        exact hr
  obtain ⟨as, s', he⟩ : ∃ as s', w.onRecheck t s = (as, some s') := ⟨_, _, rfl⟩
  obtain ⟨hactive, hready, rfl⟩ := hstate s' as he
  rw [he]
  have hscan : ∀ a ∈ [Act.scan t.scan], Plain a := by simp [Plain]
  have hboth : ∀ a ∈ [Act.scan t.scan, w.publish s'.shown], Plain a := by
    simp [Plain, Worker.publish]
  refine ⟨⟨trivial, fun hr => (hs.ready (hready hr)).plain _ hscan, trivial⟩, fun x hx => ?_⟩
  cases hx
  refine ⟨fun hr => (hs.ready (hready hr)).plain _ hboth, fun session hsession => ?_⟩
  exact (hs.active session (hactive ▸ hsession)).plain _ hboth

/-- a heartbeat that does not end the session changes nothing -/
theorem Loop.Right.beat {beat : HeartbeatRequest}
    {answer : Except BackendError HeartbeatResponse} {session session' : Active}
    (hs : s.Right upset h) (hactive : s.active = some session)
    (hid : session'.sessionId = session.sessionId)
    (hlive : ends (.heartbeat beat answer) = false) :
    Loop.Right upset (h ++ [.scan t.scan, .heartbeat beat answer])
      { s with active := some session' } := by
  have hquiet : ∀ a ∈ [Act.scan t.scan, .heartbeat beat answer],
      isTaken a = false ∧ upset a = false ∧ ends a = false := by
    intro a ha
    rcases List.mem_pair.mp ha with rfl | rfl
    · exact ⟨rfl, rfl, rfl⟩
    · exact ⟨rfl, hlive, hlive⟩
  constructor
  · intro hr
    exact (hs.ready hr).append (fun a ha => (hquiet a ha).1) (fun a ha => (hquiet a ha).2.1)
  · intro x hx
    cases hx
    rw [hid]
    exact (hs.active session hactive).append _ ⟨⟩ (fun a ha => (hquiet a ha).2.2)

theorem onBeat_follows {session : Active} (hs : s.Right upset h) (hactive : s.active = some session) :
    TurnFollows upset h (w.onBeat t session s) := by
  have hkept : KeptBy (h ++ [.scan t.scan]) session.sessionId :=
    (hs.active session hactive).plain _ (by simp [Plain])
  unfold Worker.onBeat
  cases hanswer : t.heartbeat with
  | error e =>
    refine ⟨⟨trivial, hkept, trivial⟩, fun s' he => ?_⟩
    cases he
    exact hs.beat hactive rfl rfl
  | ok response =>
    dsimp only
    by_cases hend : response.terminate = true
    · rw [if_pos hend]
      refine ⟨⟨trivial, hkept, trivial, fun hr => (by cases hr), trivial⟩, fun s' he => ?_⟩
      cases he
      exact ⟨fun hr => (by cases hr), fun x hx => (by cases hx)⟩
    · rw [if_neg hend]
      refine ⟨⟨trivial, hkept, trivial⟩, fun s' he => ?_⟩
      cases he
      exact hs.beat hactive rfl (Bool.eq_false_iff.mpr hend)

theorem onShutdown_follows (hs : s.Right upset h) : TurnFollows upset h (w.onShutdown t s) := by
  unfold Worker.onShutdown
  cases hactive : s.active with
  | none => exact ⟨⟨trivial, trivial⟩, fun s' he => (by cases he)⟩
  | some session =>
    exact ⟨⟨hs.active session hactive, trivial, trivial⟩, fun s' he => (by cases he)⟩

/-- the turn from the acknowledgement on: `before` is the history up to the nonce it answers -/
theorem onAck_follows (before between : List Act) {nonce : String} {request : AttestationRequest}
    (ack : AttestationAck) (hn : request.nonce = nonce) (hnone : ∀ a ∈ between, isTaken a = false)
    (hstate : s.shown.state = .checking)
    (hactive : ∀ session, s.active = some session →
      KeptBy (before ++ .taken nonce :: between) session.sessionId) :
    TurnFollows upset (before ++ .taken nonce :: between ++ [.attest request (.ok ack)])
      (w.onAck t nonce ack s) := by
  have hready : ∀ after, (∀ a ∈ after, isTaken a = false ∧ upset a = false) → ReadyBy upset
      (before ++ .taken nonce :: between ++ [.attest request (.ok ack)] ++ after) := by
    intro after hafter
    refine ⟨before, nonce, between, request, ack, after, by simp, hn, ?_,
      fun a ha => (hafter a ha).2⟩
    intro a ha
    rcases List.mem_append.mp ha with ha | ha
    · exact hnone a ha
    · exact (hafter a ha).1
  have hready₀ : ReadyBy upset
      (before ++ .taken nonce :: between ++ [.attest request (.ok ack)]) := by
    have hnil := hready [] (fun a ha => absurd ha List.not_mem_nil)
    rwa [List.append_nil] at hnil
  by_cases hdeny : denies t.outcome = true
  · -- the outcome is a `deny`: the window is blocked, the session of before is still the one to keep
    obtain ⟨verdict, houtcome, hverdict⟩ : ∃ verdict, t.outcome = .ok (some verdict) ∧
        verdict.decision = .deny := by
      unfold denies at hdeny
      split at hdeny
      · rename_i verdict heq
        exact ⟨verdict, heq, by simpa using hdeny⟩
      · cases hdeny
    unfold Worker.onAck
    rw [houtcome]
    dsimp only
    rw [if_pos hverdict]
    refine ⟨⟨fun _ => hready₀, trivial, fun hr => ?_, trivial⟩, fun s' he => ?_⟩
    · simp [Worker.viewOf, view, WindowView.withChecks, WindowView.withGamePresent, nextState] at hr
    · cases he
      refine ⟨fun hr => ?_, fun session hsession => ?_⟩
      · simp [nextState] at hr
      · have hkept := (hactive session hsession).append
          [.attest request (.ok ack),
            w.publish { s.shown with state := nextState s.shown.state .attestationAccepted },
            .outcome ack.sessionId (.ok (some verdict))]
          ⟨⟨_, _, [], by simp [denies, hverdict], rfl⟩, trivial⟩ (by simp [ends, Worker.publish])
        have hlast := hkept.plain [w.publish { s.shown with
          remediation := verdict.remediation
          checks := mergeServerView s.shown.checks verdict.requirements
          state := nextState (nextState s.shown.state .attestationAccepted)
            (.refused verdict.remediation) }] (by simp [Plain, Worker.publish])
        simpa using hlast
  · -- any other answer: this is the session to keep from now on
    have hkeep : denies t.outcome = false := Bool.eq_false_iff.mpr hdeny
    have hout : w.onAck t nonce ack s =
        ([w.publish { s.shown with state := .ready }, .outcome ack.sessionId t.outcome,
          w.publish { s.shown with state := .ready }],
          some ⟨{ s.shown with state := .ready }, some (Worker.activate t.now ack), some nonce⟩) := by
      unfold Worker.onAck
      rw [hstate]
      cases houtcome : t.outcome with
      | error e => rfl
      | ok answer =>
        cases answer with
        | none => rfl
        | some verdict =>
          have hne : verdict.decision ≠ .deny := by
            rw [houtcome] at hkeep
            simpa [denies] using hkeep
          dsimp only
          rw [if_neg hne]
          rfl
    rw [hout]
    have hquiet : ∀ a ∈ [w.publish { s.shown with state := .ready },
        .outcome ack.sessionId t.outcome], isTaken a = false ∧ upset a = false := by
      intro a ha
      rcases List.mem_pair.mp ha with rfl | rfl
      · exact ⟨rfl, rfl⟩
      · exact ⟨rfl, hkeep⟩
    refine ⟨⟨fun _ => hready₀, trivial, fun _ => ?_, trivial⟩, fun s' he => ?_⟩
    · have hsecond := hready _ hquiet
      simpa using hsecond
    · cases he
      refine ⟨fun _ => ?_, fun session hsession => ?_⟩
      · have hsecond := (hready _ hquiet).plain
          [w.publish { s.shown with state := .ready }] (by simp [Plain, Worker.publish])
        simpa using hsecond
      · cases hsession
        refine ⟨before ++ .taken nonce :: between, request, ack,
          w.viewOf { s.shown with state := .ready }, t.outcome,
          [w.publish { s.shown with state := .ready }], ?_, rfl, hkeep, trivial,
          by simp [ends, Worker.publish]⟩
        rw [List.append_assoc]
        rfl

theorem onScanned_follows (before between : List Act) {nonce : String} {snapshot : SystemSnapshot}
    (hnone : ∀ a ∈ between, isTaken a = false) (hstate : s.shown.state = .checking)
    (hactive : ∀ session, s.active = some session →
      KeptBy (before ++ .taken nonce :: between) session.sessionId) :
    TurnFollows upset (before ++ .taken nonce :: between) (w.onScanned t nonce snapshot s) := by
  have hchecking : ∀ shown : Presentation, shown.state = .checking →
      ∀ h, Fits upset h (w.publish shown) := by
    intro shown hs h hr
    rw [show shown.state = .ready from hr] at hs
    cases hs
  unfold Worker.onScanned
  cases hattest : t.attest with
  | error error =>
    refine ⟨⟨hchecking _ hstate _, trivial, fun hr => ?_, trivial⟩, fun s' he => ?_⟩
    · simp [Worker.viewOf, view, WindowView.withChecks, WindowView.withGamePresent, nextState] at hr
    · cases he
      refine ⟨fun hr => ?_, fun session hsession => ?_⟩
      · simp [nextState] at hr
      · exact (hactive session hsession).append _ ⟨⟩ (by simp [ends, Worker.publish])
  | ok ack =>
    dsimp only
    -- the acknowledgement comes after the view of the checks
    have hack := onAck_follows (w := w) (t := t)
      (s := { s with shown := { s.shown with
        gamePresent := snapshot.gameProcess.isSome
        checks := checksFrom snapshot } })
      before (between ++ [w.publish { s.shown with
        gamePresent := snapshot.gameProcess.isSome
        checks := checksFrom snapshot }]) ack
      (show (⟨nonce, snapshot, none, protocolVersion⟩ : AttestationRequest).nonce = nonce from rfl)
      (by
        intro a ha
        rcases List.mem_append.mp ha with ha | ha
        · exact hnone a ha
        · rw [List.mem_singleton.mp ha]
          rfl)
      hstate
      (by
        intro session hsession
        have hkept := (hactive session hsession).plain [w.publish { s.shown with
          gamePresent := snapshot.gameProcess.isSome
          checks := checksFrom snapshot }] (by simp [Plain, Worker.publish])
        simpa using hkept)
    obtain ⟨hacts, hnext⟩ := hack
    refine ⟨Follows.append ⟨hchecking _ hstate _, trivial, trivial⟩ (by simpa using hacts),
      fun s' he => ?_⟩
    have hright := hnext s' he
    simpa using hright

theorem onNonce_follows {nonce : String} {serverName : Option String} (hs : s.Right upset h) :
    TurnFollows upset h (w.onNonce t nonce serverName s) := by
  have hchecking : ∀ h, Fits upset h (w.publish { s.shown with
      serverName := serverName <|> s.shown.serverName
      state := nextState s.shown.state .attestRequested
      remediation := none }) := by
    intro h hr
    simp [Worker.viewOf, view, WindowView.withChecks, WindowView.withGamePresent, nextState] at hr
  unfold Worker.onNonce
  cases hscan : t.scan with
  | error error =>
    refine ⟨⟨trivial, hchecking _, trivial, fun hr => ?_, trivial⟩, fun s' he => ?_⟩
    · simp [Worker.viewOf, view, WindowView.withChecks, WindowView.withGamePresent, nextState] at hr
    · cases he
      refine ⟨fun hr => ?_, fun session hsession => ?_⟩
      · simp [nextState] at hr
      · exact (hs.active session hsession).append _ ⟨⟩ (by simp [ends, Worker.publish])
  | ok snapshot =>
    dsimp only
    obtain ⟨hacts, hnext⟩ := onScanned_follows (w := w) (t := t)
      (s := { s with shown := { s.shown with
        serverName := serverName <|> s.shown.serverName
        state := nextState s.shown.state .attestRequested
        remediation := none } })
      h [w.publish { s.shown with
        serverName := serverName <|> s.shown.serverName
        state := nextState s.shown.state .attestRequested
        remediation := none }, .scan (.ok snapshot)] (by simp [isTaken, Worker.publish])
      (by simp [nextState])
      (fun session hsession => (hs.active session hsession).append _ ⟨⟩
        (by simp [ends, Worker.publish]))
    refine ⟨Follows.append ⟨trivial, hchecking _, trivial, trivial⟩ (by simpa using hacts),
      fun s' he => ?_⟩
    have hright := hnext s' he
    simpa using hright

/-! ## runs -/

/-- **A turn is in order, and leaves the variables right.** -/
theorem turn_follows (hs : s.Right upset h) : TurnFollows upset h (w.turn t s) := by
  have hnothing : TurnFollows upset h ([], some s) := by
    refine ⟨trivial, fun s' he => ?_⟩
    cases he
    rw [List.append_nil]
    exact hs
  unfold Worker.turn
  cases t.received with
  | disconnected => exact ⟨trivial, fun s' he => (by cases he)⟩
  | timeout =>
    cases hactive : s.active with
    | none => exact onIdle_follows hs
    | some session => exact onBeat_follows hs hactive
  | job job =>
    cases job with
    | shutdown => exact onShutdown_follows hs
    | recheck => exact onRecheck_follows hs
    | collected pending =>
      show TurnFollows upset h (if s.lastNonce = some pending.nonce then _ else _)
      split
      · exact hnothing
      · exact onNonce_follows hs
    | localCommand command =>
      show TurnFollows upset h (if s.lastNonce = some command.nonce then _ else _)
      split
      · exact hnothing
      · exact onNonce_follows hs

theorem runLoop_follows (w : Worker) (ts : List Turn) (hs : s.Right upset h) :
    Follows upset h (w.runLoop ts s).1 := by
  induction ts generalizing h s with
  | nil => trivial
  | cons t ts ih =>
    obtain ⟨hacts, hnext⟩ := turn_follows (w := w) (t := t) hs
    unfold Worker.runLoop
    rcases hturn : w.turn t s with ⟨acts, end_⟩
    rw [hturn] at hacts hnext
    cases end_ with
    | none => exact hacts
    | some s' => exact hacts.append (ih (hnext s' rfl))

end

/-- **The window and the heartbeats follow the backend.**  A `ready` view follows an acknowledgement of
the last nonce taken up, with no `deny`, refusal or end of a session since; a heartbeat, the closing one
included, names the session of the last acknowledgement that was not denied, which has not ended. -/
theorem window_follows (w : Worker) (first : Except ScanError SystemSnapshot) (ts : List Turn) :
    Follows upset [] (w.run first ts) := by
  unfold Worker.run
  apply Follows.append
  · exact ⟨trivial, fun hr => (by cases hr), trivial⟩
  · exact runLoop_follows w ts ⟨fun hr => (by cases hr), fun x hx => (by cases hx)⟩

/-! ## a failed scan -/

/-- what has just been scanned is not bad -/
theorem ReadyBy.scan {bad : Act → Bool} {h : List Act} {answer : Except ScanError SystemSnapshot}
    (hr : ReadyBy bad (h ++ [.scan answer])) : bad (.scan answer) = false := by
  obtain ⟨before, nonce, between, request, ack, after, heq, _, _, hgood⟩ := hr
  rcases List.eq_nil_or_concat after with rfl | ⟨l, b, rfl⟩
  · rw [← List.cons_append, ← List.append_assoc] at heq
    have hlast := (List.append_inj' heq rfl).2
    cases hlast
  · have hassoc : before ++ .taken nonce :: (between ++ .attest request (.ok ack) :: l.concat b) =
        before ++ .taken nonce :: (between ++ .attest request (.ok ack) :: l) ++ [b] := by simp
    rw [hassoc] at heq
    have hlast := (List.append_inj' heq rfl).2
    cases hlast
    exact hgood _ (by simp)

/-- a turn with these answers -/
def quietTurn (received : Received) (scan : Except ScanError SystemSnapshot) : Turn where
  received := received
  now := 0
  scan := scan
  rescan := scan
  attest := .ok ⟨"1cda7543-82a1-405e-a8eb-2e03db4fc54e", 120⟩
  outcome := .ok none
  heartbeat := .ok ⟨120, false⟩

/-- a nonce is acknowledged, then the player checks again and the scan fails -/
def recheckRun : List Act :=
  Worker.run ⟨"1.0.0", Backend.Deployment.buildHash, 0⟩ (.ok Backend.Deployment.snapshot) [
    quietTurn (.job (.collected ⟨"nonce", none⟩)) (.ok Backend.Deployment.snapshot),
    quietTurn (.job .recheck) (.error (.engine (-3)))]

/-- the window stays `ready` over a check again whose scan fails, as long as there is a session -/
theorem window_over_failed_scan : ¬ Follows (fun a => upset a || scanFails a) [] recheckRun := by
  intro hf
  have hfits := hf.fits (recheckRun.dropLast.dropLast ++ [.scan (.error (.engine (-3)))]) [] rfl
  have hscan := ReadyBy.scan (hfits rfl)
  cases hscan

end Companion
