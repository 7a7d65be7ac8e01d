import FiveProtect.Companion.Window

/-!
# The worker at the top of its loop

What the window shows and which session is active, each time the loop starts over, and what becomes of a nonce
that arrives again.

* `Top`, `Step`              the states at the top of the loop, and the turns taken from them;
* `top_induction`            an invariant of the turns of a run holds at every top;
* `NothingBehind`            a window that says blocked or idle has no session behind it;
* `Refused`                  a nonce is taken up while a session is alive, and comes to nothing;
* `nothing_behind_iff`       the window is right in every state exactly if that does not happen;
* `answered`                 the nonces whose attestation was acknowledged;
* `untouched_iff`            a nonce that arrives again changes nothing exactly if it was the last of them.
-/

namespace Companion
open Protocol

/-! ## runs -/

section
variable (w : Worker) (first : Except ScanError SystemSnapshot) (ts : List Turn)

/-- in the course of the turns the loop starts over, after these acts, with these variables -/
def Top (acts : List Act) (s : Loop) : Prop :=
  ∃ pre, pre <+: ts ∧ w.runLoop pre (Worker.start first) = (acts, some s)

/-- and this is the turn it takes next -/
def Step (acts : List Act) (t : Turn) (s : Loop) : Prop :=
  ∃ pre, pre ++ [t] <+: ts ∧ w.runLoop pre (Worker.start first) = (acts, some s)

end

section
variable {w : Worker} {first : Except ScanError SystemSnapshot} {ts : List Turn}

theorem runLoop_concat (pre : List Turn) (t : Turn) (s : Loop) :
    (∃ acts s', w.runLoop pre s = (acts, some s') ∧
      w.runLoop (pre ++ [t]) s = (acts ++ (w.turn t s').1, (w.turn t s').2)) ∨
    ∃ acts, w.runLoop pre s = (acts, none) ∧ w.runLoop (pre ++ [t]) s = (acts, none) := by
  induction pre generalizing s with
  | nil =>
    refine .inl ⟨[], s, rfl, ?_⟩
    rw [List.nil_append, List.nil_append]
    unfold Worker.runLoop
    cases hturn : w.turn t s with
    | mk acts next =>
      cases next with
      | none => rfl
      | some s' =>
        show (acts ++ [], some s') = (acts, some s')
        rw [List.append_nil]
  | cons u pre ih =>
    rw [List.cons_append]
    unfold Worker.runLoop
    cases hturn : w.turn u s with
    | mk acts next =>
      cases next with
      | none => exact .inr ⟨acts, rfl, rfl⟩
      | some s' =>
        rcases ih s' with ⟨acts', s'', hpre, hall⟩ | ⟨acts', hpre, hall⟩
        · refine .inl ⟨acts ++ acts', s'', ?_, ?_⟩
          · dsimp only
            rw [hpre]
          · dsimp only
            rw [hall, List.append_assoc]
        · refine .inr ⟨acts ++ acts', ?_, ?_⟩
          · dsimp only
            rw [hpre]
          · dsimp only
            rw [hall]

/-- what the turns of a run preserve holds at every top -/
theorem top_induction {I : List Act → Loop → Prop} (hstart : I [] (Worker.start first))
    (hturn : ∀ acts t s s', Step w first ts acts t s → I acts s → (w.turn t s).2 = some s' →
      I (acts ++ (w.turn t s).1) s')
    {acts : List Act} {s : Loop} (h : Top w first ts acts s) : I acts s := by
  obtain ⟨pre, hpre, hrun⟩ := h
  induction pre using List.reverseRecOn generalizing acts s with
  | nil =>
    cases hrun
    exact hstart
  | append_singleton pre t ih =>
    rcases runLoop_concat (w := w) pre t (Worker.start first) with
      ⟨acts', s', hbefore, hall⟩ | ⟨acts', -, hall⟩
    · rw [hall] at hrun
      obtain ⟨rfl, hnext⟩ := Prod.mk.inj hrun
      have hprefix : pre <+: ts := (List.prefix_append pre [t]).trans hpre
      exact hturn acts' t s' s ⟨pre, hpre, hbefore⟩ (ih hprefix hbefore) hnext
    · rw [hall] at hrun
      cases hrun

theorem Step.top {acts : List Act} {t : Turn} {s : Loop} (h : Step w first ts acts t s) :
    Top w first ts acts s := by
  obtain ⟨pre, hpre, hrun⟩ := h
  exact ⟨pre, (List.prefix_append pre [t]).trans hpre, hrun⟩

/-- after a turn the loop is at its top again, unless `run` returned -/
theorem Step.next {acts : List Act} {t : Turn} {s s' : Loop} (h : Step w first ts acts t s)
    (hnext : (w.turn t s).2 = some s') : Top w first ts (acts ++ (w.turn t s).1) s' := by
  obtain ⟨pre, hpre, hrun⟩ := h
  refine ⟨pre ++ [t], hpre, ?_⟩
  rcases runLoop_concat (w := w) pre t (Worker.start first) with
    ⟨acts', s'', hbefore, hall⟩ | ⟨acts', hbefore, -⟩
  · rw [hrun] at hbefore
    cases hbefore
    rw [hall, hnext]
  · rw [hrun] at hbefore
    cases hbefore

end

/-! ## one turn -/

/-- a turn receives a nonce -/
def Turn.nonce (t : Turn) : Option String :=
  match t.received with
  | .job job => job.nonce
  | _ => none

def fails {ε α : Type} : Except ε α → Bool
  | .ok _ => false
  | .error _ => true

/-- the backend acknowledges what is asked for a nonce -/
def Turn.acknowledges (t : Turn) : Bool := !fails t.scan && !fails t.attest

/-- what is asked for a nonce ends without a session -/
def Turn.refuses (t : Turn) : Bool := !t.acknowledges || denies t.outcome

/-- the nonce of an attestation that was acknowledged -/
def answeredBy : Act → Option String
  | .attest request (.ok _) => some request.nonce
  | _ => none

/-- the nonces whose attestation was acknowledged, in order -/
def answered (acts : List Act) : List String := acts.filterMap answeredBy

section
variable {w : Worker} {t : Turn} {s : Loop} {nonce : String}

/-- what becomes of a nonce that is taken up -/
structure TakenUp (t : Turn) (nonce : String) (s : Loop) (acts : List Act) (s' : Loop) : Prop where
  refused : t.refuses = true → s'.shown.state = .blocked ∧ s'.active = s.active
  alive : t.refuses = false → s'.shown.state = .ready ∧ s'.active.isSome = true
  answered : answered acts = if t.acknowledges then [nonce] else []
  last : s'.lastNonce = if t.acknowledges then some nonce else s.lastNonce

theorem onAck_takenUp (w : Worker) (nonce : String) (hscan : fails t.scan = false)
    {ack : AttestationAck} (hattest : t.attest = .ok ack)
    (hstate : s.shown.state = .checking) : ∃ acts s', w.onAck t nonce ack s = (acts, some s') ∧
      answered acts = [] ∧ s'.lastNonce = some nonce ∧
      (t.refuses = true → s'.shown.state = .blocked ∧ s'.active = s.active) ∧
      (t.refuses = false → s'.shown.state = .ready ∧ s'.active.isSome = true) := by
  have hrefuses : t.refuses = denies t.outcome := by
    unfold Turn.refuses Turn.acknowledges
    rw [hscan, hattest]
    rfl
  have hready : nextState s.shown.state .attestationAccepted = .ready := by
    rw [hstate]
    rfl
  rw [hrefuses]
  unfold Worker.onAck
  cases houtcome : t.outcome with
  | error e => exact ⟨_, _, rfl, rfl, rfl, fun h => (by cases h), fun _ => ⟨hready, rfl⟩⟩
  | ok answer =>
    cases answer with
    | none => exact ⟨_, _, rfl, rfl, rfl, fun h => (by cases h), fun _ => ⟨hready, rfl⟩⟩
    | some verdict =>
      dsimp only [denies]
      by_cases hdeny : verdict.decision = .deny
      · rw [if_pos hdeny, decide_eq_true hdeny]
        exact ⟨_, _, rfl, rfl, rfl, fun _ => ⟨by simp [nextState], rfl⟩, fun h => by cases h⟩
      · rw [if_neg hdeny, decide_eq_false hdeny]
        exact ⟨_, _, rfl, rfl, rfl, fun h => (by cases h), fun _ => ⟨hready, rfl⟩⟩

theorem onNonce_takenUp (w : Worker) (t : Turn) (s : Loop) (nonce : String) (serverName : Option String) :
    ∃ acts s', w.onNonce t nonce serverName s = (acts, some s') ∧ TakenUp t nonce s acts s' := by
  have hchecking : nextState s.shown.state .attestRequested = .checking := by
    cases s.shown.state <;> rfl
  unfold Worker.onNonce
  cases hscan : t.scan with
  | error e =>
    have hack : t.acknowledges = false := by
      unfold Turn.acknowledges
      rw [hscan]
      rfl
    have hrefuses : t.refuses = true := by
      unfold Turn.refuses
      rw [hack]
      rfl
    refine ⟨_, _, rfl, fun _ => ⟨by simp [nextState], rfl⟩, fun h => ?_, ?_, ?_⟩
    · rw [hrefuses] at h
      cases h
    · rw [hack]
      rfl
    · rw [hack]
      rfl
  | ok snapshot =>
    unfold Worker.onScanned
    cases hattest : t.attest with
    | error e =>
      have hack : t.acknowledges = false := by
        unfold Turn.acknowledges
        rw [hscan, hattest]
        rfl
      have hrefuses : t.refuses = true := by
        unfold Turn.refuses
        rw [hack]
        rfl
      refine ⟨_, _, rfl, fun _ => ⟨by simp [nextState], rfl⟩, fun h => ?_, ?_, ?_⟩
      · rw [hrefuses] at h
        cases h
      · rw [hack]
        rfl
      · rw [hack]
        rfl
    | ok ack =>
      have hack : t.acknowledges = true := by
        unfold Turn.acknowledges
        rw [hscan, hattest]
        rfl
      have hfails : fails t.scan = false := by
        rw [hscan]
        rfl
      dsimp only
      generalize hloop : Loop.mk _ s.active s.lastNonce = s₁
      have hstate : s₁.shown.state = .checking := by
        rw [← hloop]
        exact hchecking
      have hactive : s₁.active = s.active := by rw [← hloop]
      obtain ⟨acts, s', hout, hnone, hlast, hrefused, halive⟩ :=
        onAck_takenUp w nonce hfails hattest hstate
      rw [hout]
      refine ⟨_, _, rfl, fun h => hactive ▸ hrefused h, halive, ?_, ?_⟩
      · rw [hack, if_pos rfl]
        show nonce :: answered acts = [nonce]
        rw [hnone]
      · rw [hack, if_pos rfl, hlast]

/-- a turn with a nonce, whichever job has brought it -/
theorem turn_nonce (hnonce : t.nonce = some nonce) : ∃ serverName, w.turn t s =
    if s.lastNonce = some nonce then ([], some s) else w.onNonce t nonce serverName s := by
  unfold Turn.nonce at hnonce
  unfold Worker.turn
  split at hnonce
  · rename_i job hreceived
    rw [hreceived]
    cases job with
    | recheck => cases hnonce
    | shutdown => cases hnonce
    | collected pending =>
      dsimp only
      rw [hnonce]
      exact ⟨_, rfl⟩
    | localCommand command =>
      dsimp only
      rw [hnonce]
      exact ⟨_, rfl⟩
  · cases hnonce

theorem turn_again (hnonce : t.nonce = some nonce) (hlast : s.lastNonce = some nonce) :
    w.turn t s = ([], some s) := by
  obtain ⟨serverName, hturn⟩ := turn_nonce (w := w) (s := s) hnonce
  rw [hturn, if_pos hlast]

theorem turn_takenUp (hnonce : t.nonce = some nonce) (hlast : s.lastNonce ≠ some nonce) :
    ∃ serverName, w.turn t s = w.onNonce t nonce serverName s := by
  obtain ⟨serverName, hturn⟩ := turn_nonce (w := w) (s := s) hnonce
  exact ⟨serverName, by rw [hturn, if_neg hlast]⟩

/-- without a nonce the window and the session stay, or both go -/
structure Quiet (s : Loop) (acts : List Act) (s' : Loop) : Prop where
  answered : answered acts = []
  last : s'.lastNonce = s.lastNonce
  kept : s'.shown.state = s.shown.state ∧ s'.active.isSome = s.active.isSome ∨
    s'.shown.state = .idle ∧ s'.active = none

theorem nextState_sessionEnded (state : WindowState) : nextState state .sessionEnded = .idle := by
  cases state <;> rfl

theorem onIdle_quiet {s' : Loop} (h : (w.onIdle t s).2 = some s') : Quiet s (w.onIdle t s).1 s' := by
  unfold Worker.onIdle at h ⊢
  dsimp only at h ⊢
  split at h
  · rename_i hchange
    rw [if_pos hchange]
    cases h
    exact ⟨rfl, rfl, .inl ⟨rfl, rfl⟩⟩
  · rename_i hsame
    rw [if_neg hsame]
    cases h
    exact ⟨rfl, rfl, .inl ⟨rfl, rfl⟩⟩

theorem onBeat_quiet {session : Active} {s' : Loop} (hactive : s.active = some session)
    (h : (w.onBeat t session s).2 = some s') : Quiet s (w.onBeat t session s).1 s' := by
  unfold Worker.onBeat at h ⊢
  cases hanswer : t.heartbeat with
  | error e =>
    rw [hanswer] at h
    cases h
    exact ⟨rfl, rfl, .inl ⟨rfl, by rw [hactive]; rfl⟩⟩
  | ok response =>
    rw [hanswer] at h
    dsimp only at h ⊢
    split at h
    · rename_i hend
      rw [if_pos hend]
      cases h
      exact ⟨rfl, rfl, .inr ⟨nextState_sessionEnded s.shown.state, rfl⟩⟩
    · rename_i hlive
      rw [if_neg hlive]
      cases h
      exact ⟨rfl, rfl, .inl ⟨rfl, by rw [hactive]; rfl⟩⟩

theorem onRecheck_quiet {s' : Loop} (h : (w.onRecheck t s).2 = some s') :
    Quiet s (w.onRecheck t s).1 s' := by
  unfold Worker.onRecheck at h ⊢
  cases h
  refine ⟨rfl, rfl, ?_⟩
  dsimp only
  cases s.active with
  | none =>
    refine .inr ⟨?_, rfl⟩
    cases t.scan <;> exact nextState_sessionEnded s.shown.state
  | some session =>
    refine .inl ⟨?_, rfl⟩
    cases t.scan <;> rfl

theorem turn_quiet {s' : Loop} (hnonce : t.nonce = none) (h : (w.turn t s).2 = some s') :
    Quiet s (w.turn t s).1 s' := by
  unfold Turn.nonce at hnonce
  unfold Worker.turn at h ⊢
  cases hreceived : t.received with
  | disconnected =>
    rw [hreceived] at h
    cases h
  | timeout =>
    rw [hreceived] at h
    dsimp only at h ⊢
    cases hactive : s.active with
    | none =>
      rw [hactive] at h
      exact onIdle_quiet h
    | some session =>
      rw [hactive] at h
      exact onBeat_quiet hactive h
  | job job =>
    rw [hreceived] at h hnonce
    cases job with
    | shutdown =>
      dsimp only at h
      unfold Worker.onShutdown at h
      split at h <;> cases h
    | recheck => exact onRecheck_quiet h
    | collected pending => cases hnonce
    | localCommand command => cases hnonce

end

/-! ## a window without a session -/

/-- a window that says blocked or idle has no session behind it, and one with a session is ready -/
structure NothingBehind (s : Loop) : Prop where
  quiet : s.shown.state = .blocked ∨ s.shown.state = .idle → s.active = none
  ready : s.active.isSome = true → s.shown.state = .ready

/-- a check again from the old refusal: the window is idle, and the refusal is gone -/
def ClearsRefusal (w : Worker) (t : Turn) (s : Loop) : Prop :=
  t.received = .job .recheck → s.shown.state = .blocked → ∃ s', (w.turn t s).2 = some s' ∧
    s'.shown.state = .idle ∧ s'.shown.remediation = none ∧ s'.shown.serverName = none

/-- a nonce is taken up while a session is alive, and comes to nothing -/
def Refused (t : Turn) (s : Loop) : Prop :=
  s.active.isSome = true ∧ (∃ nonce, t.nonce = some nonce ∧ s.lastNonce ≠ some nonce) ∧ t.refuses = true

section
variable {w : Worker} {t : Turn} {s : Loop}

theorem NothingBehind.turn {s' : Loop} (hs : NothingBehind s) (ht : ¬Refused t s)
    (h : (w.turn t s).2 = some s') : NothingBehind s' := by
  cases hnonce : t.nonce with
  | none =>
    have hquiet := turn_quiet hnonce h
    rcases hquiet.kept with ⟨hstate, hactive⟩ | ⟨hidle, hnone⟩
    · constructor
      · intro hshown
        rw [hstate] at hshown
        rw [← Option.isNone_iff_eq_none, ← Option.not_isSome, hactive, Option.not_isSome,
          Option.isNone_iff_eq_none]
        exact hs.quiet hshown
      · intro hsome
        rw [hstate]
        exact hs.ready (hactive ▸ hsome)
    · refine ⟨fun _ => hnone, fun hsome => ?_⟩
      rw [hnone] at hsome
      cases hsome
  | some nonce =>
    by_cases hlast : s.lastNonce = some nonce
    · rw [turn_again hnonce hlast] at h
      cases h
      exact hs
    · obtain ⟨serverName, hturn⟩ := turn_takenUp (w := w) hnonce hlast
      obtain ⟨acts, s₁, hout, htaken⟩ := onNonce_takenUp w t s nonce serverName
      rw [hturn, hout] at h
      cases h
      cases hrefuses : t.refuses with
      | true =>
        have hnone : s.active = none := by
          rw [← Option.not_isSome_iff_eq_none]
          exact fun hsome => ht ⟨hsome, ⟨nonce, hnonce, hlast⟩, hrefuses⟩
        have hactive := (htaken.refused hrefuses).2.trans hnone
        refine ⟨fun _ => hactive, fun hsome => ?_⟩
        rw [hactive] at hsome
        cases hsome
      | false =>
        obtain ⟨hready, hsome⟩ := htaken.alive hrefuses
        refine ⟨fun hshown => ?_, fun _ => hready⟩
        rw [hready] at hshown
        rcases hshown with h | h <;> cases h

/-- a refused nonce leaves the refusal in front of the session -/
theorem Refused.breaks (h : Refused t s) : ∃ s', (w.turn t s).2 = some s' ∧ ¬NothingBehind s' := by
  obtain ⟨hsome, ⟨nonce, hnonce, hlast⟩, hrefuses⟩ := h
  obtain ⟨serverName, hturn⟩ := turn_takenUp (w := w) hnonce hlast
  obtain ⟨acts, s', hout, htaken⟩ := onNonce_takenUp w t s nonce serverName
  obtain ⟨hblocked, hactive⟩ := htaken.refused hrefuses
  refine ⟨s', by rw [hturn, hout], fun hs => ?_⟩
  rw [hs.quiet (.inl hblocked)] at hactive
  rw [← hactive] at hsome
  cases hsome

theorem NothingBehind.clears (hs : NothingBehind s) : ClearsRefusal w t s := by
  intro hreceived hblocked
  have hnone := hs.quiet (.inl hblocked)
  have hturn : w.turn t s = w.onRecheck t s := by
    unfold Worker.turn
    rw [hreceived]
    rfl
  rw [hturn]
  unfold Worker.onRecheck
  rw [hnone]
  refine ⟨_, rfl, ?_, rfl, rfl⟩
  cases t.scan <;> exact nextState_sessionEnded s.shown.state

end

section
variable (w : Worker) (first : Except ScanError SystemSnapshot) (ts : List Turn)

/-- a window that says blocked or idle has no session behind it, in every state of a run, exactly if no nonce
that is taken up while a session is alive comes to nothing -/
theorem nothing_behind_iff :
    ((∀ acts s, Top w first ts acts s → NothingBehind s) ∧
      ∀ acts t s, Step w first ts acts t s → ClearsRefusal w t s) ↔
    ∀ acts t s, Step w first ts acts t s → ¬Refused t s := by
  constructor
  · intro hall acts t s hstep hrefused
    obtain ⟨s', hnext, hbehind⟩ := hrefused.breaks (w := w)
    exact hbehind (hall.1 _ s' (hstep.next hnext))
  · intro hnone
    have htop : ∀ acts s, Top w first ts acts s → NothingBehind s := by
      intro acts s h
      refine top_induction (I := fun _ s => NothingBehind s) ⟨fun _ => rfl, fun h => by cases h⟩ ?_ h
      intro acts t s s' hstep hs hnext
      exact hs.turn (hnone acts t s hstep) hnext
    exact ⟨htop, fun acts t s hstep => (htop acts s hstep.top).clears⟩

end

/-- the worker of the runs below -/
def loopWorker : Worker := ⟨"1.0.0", Backend.Deployment.buildHash, 0⟩

/-- a nonce is collected and attested -/
def collectTurn (nonce : String) : Turn :=
  quietTurn (.job (.collected ⟨nonce, none⟩)) (.ok Backend.Deployment.snapshot)

/-- a session is alive, the next nonce is not accepted, and the player checks again -/
def refusedRun : List Turn := [
  collectTurn "first",
  { collectTurn "second" with attest := .error (.status 409 "nonce_expired") },
  quietTurn (.job .recheck) (.ok Backend.Deployment.snapshot)]

/-- the old refusal stays on the screen -/
theorem blocked_with_session :
    ¬((∀ acts s, Top loopWorker (.ok Backend.Deployment.snapshot) refusedRun acts s → NothingBehind s) ∧
      ∀ acts t s, Step loopWorker (.ok Backend.Deployment.snapshot) refusedRun acts t s →
        ClearsRefusal loopWorker t s) := by
  intro h
  have htop := h.1 _ _ ⟨refusedRun, List.prefix_rfl, rfl⟩
  cases htop.quiet (.inl rfl)

/-! ## a nonce that arrives again -/

/-- what the variables say of the acts so far -/
structure Remembers (acts : List Act) (s : Loop) : Prop where
  last : s.lastNonce = (answered acts).getLast?
  settled : s.shown.state ≠ .checking

theorem answered_append (as bs : List Act) : answered (as ++ bs) = answered as ++ answered bs :=
  List.filterMap_append

theorem Remembers.turn {w : Worker} {t : Turn} {acts : List Act} {s s' : Loop} (hs : Remembers acts s)
    (h : (w.turn t s).2 = some s') : Remembers (acts ++ (w.turn t s).1) s' := by
  cases hnonce : t.nonce with
  | none =>
    have hquiet := turn_quiet hnonce h
    constructor
    · rw [answered_append, hquiet.answered, List.append_nil, hquiet.last]
      exact hs.last
    · rcases hquiet.kept with ⟨hstate, -⟩ | ⟨hidle, -⟩
      · rw [hstate]
        exact hs.settled
      · rw [hidle]
        decide
  | some nonce =>
    by_cases hlast : s.lastNonce = some nonce
    · rw [turn_again hnonce hlast] at h ⊢
      cases h
      rwa [List.append_nil]
    · obtain ⟨serverName, hturn⟩ := turn_takenUp (w := w) hnonce hlast
      obtain ⟨as, s₁, hout, htaken⟩ := onNonce_takenUp w t s nonce serverName
      rw [hturn, hout] at h ⊢
      cases h
      constructor
      · rw [answered_append, htaken.answered, htaken.last]
        cases t.acknowledges with
        | true => exact (List.getLast?_concat ..).symm
        | false =>
          show s.lastNonce = (answered acts ++ []).getLast?
          rw [List.append_nil]
          exact hs.last
      · cases hrefuses : t.refuses with
        | true =>
          rw [(htaken.refused hrefuses).1]
          decide
        | false =>
          rw [(htaken.alive hrefuses).1]
          decide

/-- the turn sends no attestation for the nonce, and what is shown and which session is active stay -/
structure Untouched (w : Worker) (t : Turn) (s : Loop) (nonce : String) : Prop where
  asked : ∀ request answer, Act.attest request answer ∈ (w.turn t s).1 → request.nonce ≠ nonce
  published : ∀ v, Act.publish v ∈ (w.turn t s).1 → v = w.viewOf s.shown
  kept : ∀ s', (w.turn t s).2 = some s' → s'.shown = s.shown ∧ s'.active = s.active

section
variable {w : Worker} {t : Turn} {s : Loop} {nonce : String}

/-- the window shows that the machine is checked -/
theorem publish_checking (w : Worker) (t : Turn) (s : Loop) (nonce : String) (serverName : Option String) :
    ∃ v, Act.publish v ∈ (w.onNonce t nonce serverName s).1 ∧ v.state = .checking := by
  have hchecking : nextState s.shown.state .attestRequested = .checking := by
    cases s.shown.state <;> rfl
  refine ⟨w.viewOf { s.shown with
    serverName := serverName <|> s.shown.serverName
    state := nextState s.shown.state .attestRequested
    remediation := none }, ?_, hchecking⟩
  unfold Worker.onNonce
  cases t.scan with
  | error e => simp [Worker.publish]
  | ok snapshot => simp [Worker.publish]

theorem untouched_turn_iff (hs : s.shown.state ≠ .checking) (hnonce : t.nonce = some nonce) :
    Untouched w t s nonce ↔ s.lastNonce = some nonce := by
  constructor
  · intro h
    by_contra hlast
    obtain ⟨serverName, hturn⟩ := turn_takenUp (w := w) hnonce hlast
    obtain ⟨v, hmem, hstate⟩ := publish_checking w t s nonce serverName
    rw [h.published v (hturn ▸ hmem)] at hstate
    exact hs hstate
  · intro hlast
    have hturn := turn_again (w := w) hnonce hlast
    constructor
    · intro request answer hmem
      rw [hturn] at hmem
      exact absurd hmem List.not_mem_nil
    · intro v hmem
      rw [hturn] at hmem
      exact absurd hmem List.not_mem_nil
    · intro s' hnext
      rw [hturn] at hnext
      cases hnext
      exact ⟨rfl, rfl⟩

end

section
variable (w : Worker) (first : Except ScanError SystemSnapshot) (ts : List Turn)

/-- a nonce that was answered is left alone when it arrives again, in a whole run, exactly if each nonce that
arrives again is the one that was answered last -/
theorem untouched_iff :
    (∀ acts t s nonce, Step w first ts acts t s → t.nonce = some nonce → nonce ∈ answered acts →
      Untouched w t s nonce) ↔
    ∀ acts t s nonce, Step w first ts acts t s → t.nonce = some nonce → nonce ∈ answered acts →
      (answered acts).getLast? = some nonce := by
  have hremembers : ∀ acts t s, Step w first ts acts t s → Remembers acts s := by
    intro acts t s hstep
    exact top_induction (I := Remembers) ⟨rfl, show WindowState.idle ≠ .checking by decide⟩
      (fun acts t s s' _ hs hnext => hs.turn hnext) hstep.top
  have hturn : ∀ acts t s nonce, Step w first ts acts t s → t.nonce = some nonce →
      (Untouched w t s nonce ↔ (answered acts).getLast? = some nonce) := by
    intro acts t s nonce hstep hnonce
    have hs := hremembers acts t s hstep
    rw [← hs.last]
    exact untouched_turn_iff hs.settled hnonce
  constructor
  · intro h acts t s nonce hstep hnonce hmem
    exact (hturn acts t s nonce hstep hnonce).mp (h acts t s nonce hstep hnonce hmem)
  · intro h acts t s nonce hstep hnonce hmem
    exact (hturn acts t s nonce hstep hnonce).mpr (h acts t s nonce hstep hnonce hmem)

end

/-- two nonces are answered, and the game client sends the first one again -/
def resentRun : List Turn := [collectTurn "first", collectTurn "second", collectTurn "first"]

/-- it is attested a second time -/
theorem answered_twice : ¬∀ acts t s nonce,
    Step loopWorker (.ok Backend.Deployment.snapshot) resentRun acts t s → t.nonce = some nonce →
      nonce ∈ answered acts → Untouched loopWorker t s nonce := by
  intro h
  have hstep : ∃ acts s,
      Step loopWorker (.ok Backend.Deployment.snapshot) resentRun acts (collectTurn "first") s ∧
        "first" ∈ answered acts ∧ s.lastNonce = some "second" ∧ s.shown.state ≠ .checking :=
    ⟨_, _, ⟨[collectTurn "first", collectTurn "second"], List.prefix_rfl, rfl⟩, List.mem_cons_self, rfl,
      by decide⟩
  obtain ⟨acts, s, hstep, hmem, hlast, hstate⟩ := hstep
  have hsame := (untouched_turn_iff hstate rfl).mp (h acts _ s "first" hstep rfl hmem)
  rw [hlast] at hsame
  exact absurd hsame (by decide)

end Companion
