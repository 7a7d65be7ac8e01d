import FiveProtect.Lib.Run
import FiveProtect.Resource.Liveness

/-!
# The players of a server and the table of `Liveness`

FiveM's lifecycle around `main.lua`: `playerConnecting` runs under a temporary id, with which its thread
goes on; a player who joins gets a new id, which every later event and `DropPlayer` use.  There is no
handler for `playerJoining`.

* `Server.step`    connections, the ends of their threads, joins, drops and the poll loop;
* `Watches`        the tracked entries are the players the gate admitted with a verdict, under their ids;
* `Unmoved`        what an event must not do for that: above all no admitted player joins;
* `Kept.step`      every such event keeps it;
* `watches`        every run of such events, and `joined_unwatched`: a join of an admitted player ends it.
-/

namespace Resource
open Machine

structure Player where
  /-- the temporary id, with which the thread of `playerConnecting` goes on -/
  source : Source
  /-- the id he has now -/
  id : Source
  /-- connecting or on the server -/
  present : Bool
  /-- the thread of `playerConnecting` has not ended -/
  waiting : Bool
  admitted : Bool
  joined : Bool
  /-- the session of the verdict he was admitted with -/
  session : Option String
  deriving DecidableEq

/-- how the thread of `playerConnecting` ends -/
inductive Outcome where
  /-- `Liveness.track(source, verdict.sessionId)` and `deferrals.done()` -/
  | tracked (sessionId : String)
  /-- `deferrals.done()` without a verdict -/
  | untracked
  /-- `deferrals.done(message)`, or a Lua error -/
  | refused

/-- a call of `DropPlayer` for an entry -/
structure Kick where
  entry : Entry
  /-- the player of the entry is still tracked -/
  tracked : Bool
  /-- who is dropped -/
  dropped : List Player

structure Server where
  /-- in the order of their connections -/
  players : List Player
  liveness : Liveness
  /-- what is left of the loop in `Liveness.poll` -/
  todo : List Entry
  kicks : List Kick

inductive ServerEvent where
  | playerConnecting (temporary : Source)
  | done (n : Nat) (outcome : Outcome)
  | playerJoining (n : Nat) (id : Source)
  | playerDropped (n : Nat)
  /-- `Liveness.poll` is called; the order of `pairs` is not specified -/
  | poll (entries : List Entry)
  /-- the result for the first that is left -/
  | answer (result : HttpResult)

namespace Player

/-- the entry of a player who was admitted with a verdict and is there -/
def tracked? (p : Player) : Option Entry := if p.present then p.session.map (Entry.mk p.id) else none

/-- the end of the thread; it does not notice that the player has left -/
def done (outcome : Outcome) (p : Player) : Player :=
  match outcome with
  | .tracked sessionId => { p with waiting := false, admitted := true, session := some sessionId }
  | .untracked => { p with waiting := false, admitted := true }
  | .refused => { p with waiting := false, present := false }

/-- `DropPlayer(id, ..)` -/
def drop (id : Source) (p : Player) : Player :=
  if p.id = id then { p with present := false } else p

end Player

namespace Server

def start : Server := ⟨[], ⟨[], fun _ => false⟩, [], []⟩

/-- somebody who is there has the id -/
def Taken (s : Server) (id : Source) : Prop := ∃ p ∈ s.players, p.present = true ∧ p.id = id

instance (s : Server) (id : Source) : Decidable (s.Taken id) :=
  inferInstanceAs (Decidable (∃ p ∈ s.players, _))

/-- the player of a number is changed -/
def change (n : Nat) (f : Player → Player) (s : Server) : Server :=
  { s with players := s.players.mapIdx fun m p => if m = n then f p else p }

/-- an effect of the poll loop; a player who is dropped causes `playerDropped` -/
def effect (entry : Entry) (e : LivenessEffect) (s : Server) : Server :=
  match e with
  | .warn _ => s
  | .dropPlayer source _ =>
    { s with
      players := s.players.map (Player.drop source)
      liveness := s.liveness.forget source
      kicks := s.kicks ++ [⟨entry, decide (entry ∈ s.liveness.sessions),
        s.players.filter fun p => p.present && p.id = source⟩] }

/-- the loop goes on with a result -/
def handle (entry : Entry) (result : HttpResult) (s : Server) : Server :=
  let (liveness, effects) := s.liveness.handle entry result
  { effects.foldl (fun s e => s.effect entry e) s with liveness := liveness }

def step (e : ServerEvent) (s : Server) : Option Server :=
  match e with
  | .playerConnecting temporary =>
    if s.Taken temporary then none
    else some { s with players := s.players ++ [⟨temporary, temporary, true, true, false, false, none⟩] }
  | .done n outcome =>
    match s.players[n]? with
    | some p =>
      if p.waiting then
        let ended := s.change n (Player.done outcome)
        match outcome with
        | .tracked sessionId =>
          some { ended with liveness := s.liveness.track p.source sessionId }
        | _ => some ended
      else none
    | none => none
  | .playerJoining n id =>
    match s.players[n]? with
    | some p =>
      if p.present ∧ p.admitted ∧ !p.joined ∧ ¬ s.Taken id then
        some (s.change n fun p => { p with id := id, joined := true })
      else none
    | none => none
  | .playerDropped n =>
    match s.players[n]? with
    | some p =>
      if p.present then
        some { s.change n (fun p => { p with present := false }) with
          liveness := s.liveness.forget p.id }
      else none
    | none => none
  | .poll entries =>
    if s.todo = [] ∧ entries.Perm s.liveness.tracked then some { s with todo := entries } else none
  | .answer result =>
    match s.todo with
    | [] => none
    | entry :: rest => some { s.handle entry result with todo := rest }

end Server

/-- a kick reaches the player it was decided for -/
structure Kick.Right (k : Kick) : Prop where
  meant : ∀ p ∈ k.dropped, p.session = some k.entry.sessionId
  reached : k.tracked = true → k.dropped ≠ []

/-- the tracked entries are exactly the players who are there and were admitted with a verdict, each under
the id he has now and with the session of his own verdict -/
structure Watches (s : Server) : Prop where
  entries : ∀ entry, entry ∈ s.liveness.tracked ↔ ∃ p ∈ s.players, p.tracked? = some entry
  kicks : ∀ k ∈ s.kicks, k.Right

/-- the result is a valid response that says `shouldKick` -/
def HttpResult.kicks (result : HttpResult) : Bool :=
  match Liveness.answer? result with
  | none => false
  | some body => Gate.isTruthy (body.field "shouldKick")

/-- no player who was admitted with a verdict joins, nobody is admitted with a verdict after he has left,
and no kick comes for somebody who has left while another one has his id -/
def Unmoved (s : Server) : ServerEvent → Prop
  | .playerJoining n _ => ∀ p ∈ s.players[n]?, p.session = none
  | .done n (.tracked _) => ∀ p ∈ s.players[n]?, p.present = true
  | .answer result => result.kicks = true → ∀ entry ∈ s.todo.head?,
      entry ∈ s.liveness.tracked ∨ ¬ s.Taken entry.source
  | _ => True

instance (s : Server) (e : ServerEvent) : Decidable (Unmoved s e) :=
  match e with
  | .playerJoining n _ => inferInstanceAs (Decidable (∀ p ∈ s.players[n]?, p.session = none))
  | .done n (.tracked _) => inferInstanceAs (Decidable (∀ p ∈ s.players[n]?, p.present = true))
  | .answer result => inferInstanceAs (Decidable (result.kicks = true → ∀ entry ∈ s.todo.head?,
      entry ∈ s.liveness.sessions ∨ ¬ s.Taken entry.source))
  | .done _ .untracked | .done _ .refused | .playerConnecting _ | .playerDropped _ | .poll _ =>
    .isTrue trivial

/-! ## the steps of `Liveness` -/

section
variable (l : Liveness) (entry : Entry) {result : HttpResult}

theorem mem_forget {l : Liveness} {source : Source} {e : Entry} :
    e ∈ (l.forget source).tracked ↔ e ∈ l.tracked ∧ e.source ≠ source := by
  show e ∈ l.sessions.filter _ ↔ _
  rw [List.mem_filter, decide_eq_true_iff]
  rfl

theorem mem_track {l : Liveness} {source : Source} {sessionId : String} {e : Entry} :
    e ∈ (l.track source sessionId).tracked ↔
      e = ⟨source, sessionId⟩ ∨ e ∈ l.tracked ∧ e.source ≠ source := by
  show e ∈ (⟨source, sessionId⟩ : Entry) :: l.sessions.filter _ ↔ _
  rw [List.mem_cons, List.mem_filter, decide_eq_true_iff]
  rfl

/-- a result that kicks -/
theorem handle_kicks (h : result.kicks = true) :
    (l.handle entry result).1.tracked = (l.forget entry.source).tracked ∧
      ∃ reason, (l.handle entry result).2 = [.dropPlayer entry.source reason] := by
  unfold HttpResult.kicks at h
  unfold Liveness.handle
  cases hanswer : Liveness.answer? result with
  | none =>
    rw [hanswer] at h
    cases h
  | some body =>
    rw [hanswer] at h
    have hkick : Gate.isTruthy (body.field "shouldKick") = true := h
    simp [Liveness.decide, hkick, Liveness.tracked, Liveness.forget]

/-- every other result -/
theorem handle_stays (h : result.kicks = false) :
    (l.handle entry result).1.tracked = l.tracked ∧
      ∀ e ∈ (l.handle entry result).2, e = .warn entry.source := by
  unfold HttpResult.kicks at h
  unfold Liveness.handle
  cases hanswer : Liveness.answer? result with
  | none => exact ⟨rfl, fun _ he => absurd he List.not_mem_nil⟩
  | some body =>
    rw [hanswer] at h
    have hkick : Gate.isTruthy (body.field "shouldKick") = false := h
    dsimp only
    unfold Liveness.decide
    rw [hkick]
    cases !Protocol.Lua.isNil (body.field "graceExpiresAt") && !l.warned entry.source with
    | true => exact ⟨rfl, fun e he => by simpa using he⟩
    | false => exact ⟨rfl, fun e he => by simp at he⟩

end

/-! ## what a run keeps -/

structure Server.Kept (s : Server) : Prop where
  ids : ∀ (m n : Nat) (p q : Player), s.players[m]? = some p → s.players[n]? = some q →
    p.present = true → q.present = true → p.id = q.id → m = n
  waiting : ∀ p ∈ s.players, p.waiting = true →
    p.id = p.source ∧ p.session = none ∧ p.admitted = false
  watches : Watches s

theorem tracked?_eq {p : Player} {entry : Entry} : p.tracked? = some entry ↔
    p.present = true ∧ p.session = some entry.sessionId ∧ p.id = entry.source := by
  unfold Player.tracked?
  by_cases hp : p.present = true
  · rw [if_pos hp, Option.map_eq_some_iff]
    constructor
    · rintro ⟨sessionId, hs, rfl⟩
      exact ⟨hp, hs, rfl⟩
    · rintro ⟨_, hs, hid⟩
      exact ⟨entry.sessionId, hs, by rw [hid]⟩
  · rw [if_neg hp]
    exact ⟨fun h => (by cases h), fun h => absurd h.1 hp⟩

section
variable {s s' : Server} {n : Nat} {p : Player}

theorem change_players (f : Player → Player) (m : Nat) : (s.change n f).players[m]? =
    (s.players[m]?).map fun q => if m = n then f q else q := List.getElem?_mapIdx

/-- a player's entry is his alone -/
theorem Server.Kept.own (h : s.Kept) (hn : s.players[n]? = some p) (hp : p.present = true) {entry : Entry}
    (he : entry ∈ s.liveness.tracked) (hid : entry.source = p.id) : p.tracked? = some entry := by
  obtain ⟨q, hq, hentry⟩ := (h.watches.entries entry).mp he
  obtain ⟨m, hm⟩ := List.mem_iff_getElem?.mp hq
  obtain ⟨hpresent, _, hqid⟩ := tracked?_eq.mp hentry
  have hmn := h.ids m n q p hm hn hpresent hp (hqid.trans hid)
  subst hmn
  rw [hm] at hn
  cases hn
  exact hentry

/-- one player is changed, and his entry in the table with him -/
theorem Server.Kept.change (h : s.Kept) (hn : s.players[n]? = some p) {f : Player → Player}
    {liveness : Liveness} {todo : List Entry}
    (hid : (f p).present = true → (f p).id = p.id ∧ p.present = true ∨ ¬ s.Taken (f p).id)
    (hwaiting : (f p).waiting = true →
      (f p).id = (f p).source ∧ (f p).session = none ∧ (f p).admitted = false)
    (hentries : ∀ entry, entry ∈ liveness.tracked ↔
      (f p).tracked? = some entry ∨ entry ∈ s.liveness.tracked ∧ p.tracked? ≠ some entry) :
    Server.Kept { s.change n f with liveness := liveness, todo := todo } := by
  -- a player of the changed list is the changed one or an unchanged other one
  have hcases : ∀ (m : Nat) (q : Player), (s.change n f).players[m]? = some q →
      (m = n ∧ q = f p) ∨ (m ≠ n ∧ s.players[m]? = some q) := by
    intro m q hm
    rw [change_players] at hm
    obtain ⟨q', hq', rfl⟩ := Option.map_eq_some_iff.mp hm
    by_cases hmn : m = n
    · subst hmn
      rw [hn] at hq'
      cases hq'
      exact .inl ⟨rfl, if_pos rfl⟩
    · rw [if_neg hmn]
      exact .inr ⟨hmn, hq'⟩
  have hfresh : ∀ (m : Nat) (q : Player), m ≠ n → s.players[m]? = some q → q.present = true →
      (f p).present = true → q.id ≠ (f p).id := by
    intro m q hmn hm hq hf heq
    rcases hid hf with ⟨hsame, hp⟩ | hfree
    · exact hmn (h.ids m n q p hm hn hq hp (heq.trans hsame))
    · exact hfree ⟨q, List.mem_iff_getElem?.mpr ⟨m, hm⟩, hq, heq⟩
  have hself : (s.change n f).players[n]? = some (f p) := by
    rw [change_players, hn]
    exact congrArg some (if_pos rfl)
  refine ⟨?_, ?_, ⟨?_, h.watches.kicks⟩⟩
  · intro m k q r hm hk hq hr heq
    rcases hcases m q hm with ⟨hmn, hq'⟩ | ⟨hmn, hm'⟩
    · rcases hcases k r hk with ⟨hkn, _⟩ | ⟨hkn, hk'⟩
      · exact hmn.trans hkn.symm
      · rw [hq'] at hq heq
        exact absurd heq.symm (hfresh k r hkn hk' hr hq)
    · rcases hcases k r hk with ⟨_, hr'⟩ | ⟨_, hk'⟩
      · rw [hr'] at hr heq
        exact absurd heq (hfresh m q hmn hm' hq hr)
      · exact h.ids m k q r hm' hk' hq hr heq
  · intro q hq hw
    obtain ⟨m, hm⟩ := List.mem_iff_getElem?.mp hq
    rcases hcases m q hm with ⟨_, rfl⟩ | ⟨_, hm⟩
    · exact hwaiting hw
    · exact h.waiting q (List.mem_iff_getElem?.mpr ⟨m, hm⟩) hw
  · intro entry
    rw [hentries]
    constructor
    · rintro (hf | ⟨hold, hnot⟩)
      · exact ⟨f p, List.mem_iff_getElem?.mpr ⟨n, hself⟩, hf⟩
      · obtain ⟨q, hq, hentry⟩ := (h.watches.entries entry).mp hold
        obtain ⟨m, hm⟩ := List.mem_iff_getElem?.mp hq
        have hmn : m ≠ n := by
          rintro rfl
          rw [hn] at hm
          cases hm
          exact hnot hentry
        refine ⟨q, List.mem_iff_getElem?.mpr ⟨m, ?_⟩, hentry⟩
        show (s.change n f).players[m]? = some q
        rw [change_players, hm]
        exact congrArg some (if_neg hmn)
    · rintro ⟨q, hq, hentry⟩
      obtain ⟨m, hm⟩ := List.mem_iff_getElem?.mp hq
      rcases hcases m q hm with ⟨_, rfl⟩ | ⟨hmn, hm⟩
      · exact .inl hentry
      · refine .inr ⟨(h.watches.entries entry).mpr ⟨q, List.mem_iff_getElem?.mpr ⟨m, hm⟩, hentry⟩, ?_⟩
        intro hp
        obtain ⟨hqp, _, hqid⟩ := tracked?_eq.mp hentry
        obtain ⟨hpp, _, hpid⟩ := tracked?_eq.mp hp
        exact hmn (h.ids m n q p hm hn hqp hpp (hqid.trans hpid.symm))

theorem Server.Kept.start : Server.start.Kept where
  ids m n p q hm := by cases hm
  waiting p hp := absurd hp List.not_mem_nil
  watches := by
    refine ⟨fun entry => iff_of_false List.not_mem_nil ?_, fun k hk => absurd hk List.not_mem_nil⟩
    rintro ⟨p, hp, _⟩
    exact List.not_mem_nil hp

theorem Server.Kept.connect (h : s.Kept) {temporary : Source} (hfree : ¬ s.Taken temporary) :
    Server.Kept { s with
      players := s.players ++ [⟨temporary, temporary, true, true, false, false, none⟩] } := by
  have hcases : ∀ (m : Nat) (q : Player),
      (s.players ++ [⟨temporary, temporary, true, true, false, false, none⟩])[m]? = some q →
      s.players[m]? = some q ∨ (m = s.players.length ∧ q.id = temporary) := by
    intro m q hm
    by_cases hlt : m < s.players.length
    · rw [List.getElem?_append_left hlt] at hm
      exact .inl hm
    · rw [List.getElem?_append_right (by omega), List.getElem?_singleton] at hm
      split at hm
      · cases hm
        exact .inr ⟨by omega, rfl⟩
      · cases hm
  have hfresh : ∀ (m : Nat) (q : Player), s.players[m]? = some q → q.present = true →
      q.id ≠ temporary :=
    fun m q hm hq hid => hfree ⟨q, List.mem_iff_getElem?.mpr ⟨m, hm⟩, hq, hid⟩
  refine ⟨?_, ?_, ⟨?_, h.watches.kicks⟩⟩
  · intro m k q r hm hk hq hr heq
    rcases hcases m q hm with hm | ⟨hm', hqid⟩
    · rcases hcases k r hk with hk | ⟨_, hrid⟩
      · exact h.ids m k q r hm hk hq hr heq
      · exact absurd (heq.trans hrid) (hfresh m q hm hq)
    · rcases hcases k r hk with hk | ⟨hk', _⟩
      · exact absurd (heq.symm.trans hqid) (hfresh k r hk hr)
      · exact hm'.trans hk'.symm
  · intro q hq hw
    rcases List.mem_append.mp hq with hq | hq
    · exact h.waiting q hq hw
    · rw [List.mem_singleton.mp hq]
      exact ⟨rfl, rfl, rfl⟩
  · intro entry
    rw [h.watches.entries]
    constructor
    · rintro ⟨q, hq, hentry⟩
      exact ⟨q, List.mem_append_left _ hq, hentry⟩
    · rintro ⟨q, hq, hentry⟩
      rcases List.mem_append.mp hq with hq | hq
      · exact ⟨q, hq, hentry⟩
      · rw [List.mem_singleton.mp hq] at hentry
        cases hentry

/-- the loop drops a player -/
theorem Server.Kept.drop (h : s.Kept) {entry : Entry} (todo : List Entry) {liveness : Liveness}
    (hmeant : entry ∈ s.liveness.tracked ∨ ¬ s.Taken entry.source)
    (hliveness : liveness.tracked = (s.liveness.forget entry.source).tracked) :
    Server.Kept {
      players := s.players.map (Player.drop entry.source)
      liveness := liveness
      todo := todo
      kicks := s.kicks ++ [⟨entry, decide (entry ∈ s.liveness.sessions),
        s.players.filter fun p => p.present && p.id = entry.source⟩] } := by
  have hdrop : ∀ q : Player, (q.drop entry.source).id = q.id ∧
      ((q.drop entry.source).present = true ↔ q.present = true ∧ q.id ≠ entry.source) := by
    intro q
    unfold Player.drop
    by_cases hid : q.id = entry.source
    · rw [if_pos hid]
      exact ⟨rfl, ⟨fun hf => (by cases hf), fun hf => absurd hid hf.2⟩⟩
    · rw [if_neg hid]
      exact ⟨rfl, ⟨fun hq => ⟨hq, hid⟩, fun hq => hq.1⟩⟩
  have hkeeps : ∀ (q : Player) (e : Entry), (q.drop entry.source).tracked? = some e ↔
      q.tracked? = some e ∧ e.source ≠ entry.source := by
    intro q e
    rw [tracked?_eq, tracked?_eq, (hdrop q).1, (hdrop q).2]
    have hsession : (q.drop entry.source).session = q.session := by
      unfold Player.drop
      split <;> rfl
    rw [hsession]
    constructor
    · rintro ⟨⟨hq, hne⟩, hs, hid⟩
      exact ⟨⟨hq, hs, hid⟩, fun heq => hne (hid.trans heq)⟩
    · rintro ⟨⟨hq, hs, hid⟩, hne⟩
      exact ⟨⟨hq, fun heq => hne (hid.symm.trans heq)⟩, hs, hid⟩
  refine ⟨?_, ?_, ⟨?_, ?_⟩⟩
  · intro m k q r hm hk hq hr heq
    rw [List.getElem?_map] at hm hk
    obtain ⟨q', hq', rfl⟩ := Option.map_eq_some_iff.mp hm
    obtain ⟨r', hr', rfl⟩ := Option.map_eq_some_iff.mp hk
    rw [(hdrop q').1, (hdrop r').1] at heq
    exact h.ids m k q' r' hq' hr' ((hdrop q').2.mp hq).1 ((hdrop r').2.mp hr).1 heq
  · intro q hq hw
    obtain ⟨q', hq', rfl⟩ := List.mem_map.mp hq
    obtain ⟨hwaiting, hsource, hsession, hadmitted⟩ : (q'.drop entry.source).waiting = q'.waiting ∧
        (q'.drop entry.source).source = q'.source ∧ (q'.drop entry.source).session = q'.session ∧
        (q'.drop entry.source).admitted = q'.admitted := by
      unfold Player.drop
      split <;> exact ⟨rfl, rfl, rfl, rfl⟩
    rw [hwaiting] at hw
    rw [(hdrop q').1, hsource, hsession, hadmitted]
    exact h.waiting q' hq' hw
  · intro e
    show e ∈ liveness.tracked ↔ _
    rw [hliveness, mem_forget, h.watches.entries]
    constructor
    · rintro ⟨⟨q, hq, he⟩, hne⟩
      exact ⟨q.drop entry.source, List.mem_map_of_mem hq, (hkeeps q e).mpr ⟨he, hne⟩⟩
    · rintro ⟨q, hq, he⟩
      obtain ⟨q', hq', rfl⟩ := List.mem_map.mp hq
      obtain ⟨he, hne⟩ := (hkeeps q' e).mp he
      exact ⟨⟨q', hq', he⟩, hne⟩
  · intro k hk
    rcases List.mem_append.mp hk with hk | hk
    · exact h.watches.kicks k hk
    · rw [List.mem_singleton.mp hk]
      refine ⟨fun q hq => ?_, fun htracked => ?_⟩
      · obtain ⟨hq, hdropped⟩ := List.mem_filter.mp hq
        obtain ⟨hpresent, hid⟩ := (Bool.and_eq_true _ _).mp hdropped
        have hid := of_decide_eq_true hid
        rcases hmeant with hmeant | hfree
        · obtain ⟨m, hm⟩ := List.mem_iff_getElem?.mp hq
          exact (tracked?_eq.mp (h.own hm hpresent hmeant hid.symm)).2.1
        · exact absurd ⟨q, hq, hpresent, hid⟩ hfree
      · obtain ⟨q, hq, hentry⟩ := (h.watches.entries entry).mp (of_decide_eq_true htracked)
        obtain ⟨hpresent, _, hid⟩ := tracked?_eq.mp hentry
        refine List.ne_nil_of_mem (List.mem_filter.mpr ⟨hq, ?_⟩)
        rw [hpresent, hid, Bool.true_and]
        exact decide_eq_true rfl

/-- the thread of a player ends -/
theorem Server.Kept.done (h : s.Kept) (hn : s.players[n]? = some p) (hw : p.waiting = true)
    {outcome : Outcome} (hmeets : Unmoved s (.done n outcome))
    (he : Server.step (.done n outcome) s = some s') : s'.Kept := by
  obtain ⟨hsource, hsession, _⟩ := h.waiting p (List.mem_iff_getElem?.mpr ⟨n, hn⟩) hw
  have hnone : p.tracked? = none := by
    unfold Player.tracked?
    rw [hsession]
    exact ite_self none
  simp only [Server.step, hn, hw, if_true] at he
  cases outcome with
  | tracked sessionId =>
    have hpresent : p.present = true := hmeets p hn
    cases he
    refine h.change hn (fun _ => .inl ⟨rfl, hpresent⟩) (fun hf => (by cases hf)) fun entry => ?_
    rw [mem_track, tracked?_eq, hnone]
    constructor
    · rintro (rfl | ⟨hold, _⟩)
      · exact .inl ⟨hpresent, rfl, hsource⟩
      · exact .inr ⟨hold, fun hf => (by cases hf)⟩
    · rintro (⟨_, hs, hid⟩ | ⟨hold, _⟩)
      · left
        have hs : some sessionId = some entry.sessionId := hs
        have hid : p.id = entry.source := hid
        rw [Option.some.inj hs, ← hsource, hid]
      · refine .inr ⟨hold, fun heq => ?_⟩
        have hown := h.own hn hpresent hold (heq.trans hsource.symm)
        rw [hnone] at hown
        cases hown
  | untracked =>
    cases he
    refine h.change hn (fun hf => .inl ⟨rfl, hf⟩) (fun hf => (by cases hf)) fun entry => ?_
    have hsame : (p.done .untracked).tracked? = none := hnone
    rw [hsame, hnone]
    simp
  | refused =>
    cases he
    refine h.change hn (fun hf => (by cases hf)) (fun hf => (by cases hf)) fun entry => ?_
    have hsame : (p.done .refused).tracked? = none := rfl
    rw [hsame, hnone]
    simp

/-- the loop goes on -/
theorem Server.Kept.answer (h : s.Kept) {result : HttpResult} (hmeets : Unmoved s (.answer result))
    (he : Server.step (.answer result) s = some s') : s'.Kept := by
  unfold Server.step at he
  dsimp only at he
  split at he
  · cases he
  · rename_i entry rest htodo
    cases he
    cases hk : result.kicks with
    | true =>
      obtain ⟨hliveness, reason, heffects⟩ := handle_kicks s.liveness entry hk
      have hmeant := hmeets hk entry (by rw [htodo]; rfl)
      have hdrop := h.drop rest hmeant hliveness
      unfold Server.handle
      simp only [heffects]
      exact hdrop
    | false =>
      obtain ⟨hliveness, heffects⟩ := handle_stays s.liveness entry hk
      have hstays : ∀ effects : List LivenessEffect, (∀ e ∈ effects, e = .warn entry.source) →
          effects.foldl (fun s e => s.effect entry e) s = s := by
        intro effects
        induction effects with
        | nil => exact fun _ => rfl
        | cons e effects ih =>
          intro hall
          rw [List.foldl_cons, hall e List.mem_cons_self]
          exact ih fun x hx => hall x (List.mem_cons_of_mem _ hx)
      unfold Server.handle
      simp only [hstays _ heffects]
      refine ⟨h.ids, h.waiting, fun e => ?_, h.watches.kicks⟩
      show e ∈ (s.liveness.handle entry result).1.tracked ↔ _
      rw [hliveness]
      exact h.watches.entries e

/-- **An event that moves nobody keeps the table right.** -/
theorem Server.Kept.step (h : s.Kept) {e : ServerEvent} (hmeets : Unmoved s e)
    (he : Server.step e s = some s') : s'.Kept := by
  cases e with
  | playerConnecting temporary =>
    unfold Server.step at he
    dsimp only at he
    split at he
    · cases he
    · rename_i hfree
      cases he
      exact h.connect hfree
  | done n outcome =>
    cases hn : s.players[n]? with
    | none =>
      simp only [Server.step, hn] at he
      cases he
    | some p =>
      by_cases hw : p.waiting = true
      · exact h.done hn hw hmeets he
      · simp only [Server.step, hn, hw] at he
        cases he
  | playerJoining n id =>
    unfold Server.step at he
    dsimp only at he
    split at he
    · rename_i p hn
      split at he
      · rename_i hjoins
        cases he
        have hsession : p.session = none := hmeets p hn
        refine h.change hn (fun _ => .inr hjoins.2.2.2) (fun hw => ?_) fun entry => ?_
        · have hadmitted := (h.waiting p (List.mem_iff_getElem?.mpr ⟨n, hn⟩) hw).2.2
          rw [hjoins.2.1] at hadmitted
          cases hadmitted
        · have hnone : ∀ q : Player, q.session = none → q.tracked? = none := by
            intro q hq
            unfold Player.tracked?
            rw [hq]
            exact ite_self none
          rw [hnone p hsession, hnone _ (by exact hsession)]
          simp
      · cases he
    · cases he
  | playerDropped n =>
    unfold Server.step at he
    dsimp only at he
    split at he
    · rename_i p hn
      split at he
      · rename_i hpresent
        cases he
        have hmem : p ∈ s.players := List.mem_iff_getElem?.mpr ⟨n, hn⟩
        refine h.change hn (fun hf => (by cases hf)) (fun hw => h.waiting p hmem hw) fun entry => ?_
        rw [mem_forget]
        constructor
        · rintro ⟨hold, hne⟩
          exact .inr ⟨hold, fun hentry => hne (tracked?_eq.mp hentry).2.2.symm⟩
        · rintro (hf | ⟨hold, hnot⟩)
          · cases hf
          · exact ⟨hold, fun heq => hnot (h.own hn hpresent hold heq)⟩
      · cases he
    · cases he
  | poll entries =>
    unfold Server.step at he
    dsimp only at he
    split at he
    · cases he
      exact ⟨h.ids, h.waiting, h.watches.entries, h.watches.kicks⟩
    · cases he
  | answer result => exact h.answer hmeets he

theorem Server.Kept.run (h : Steps Server.step Unmoved .start s) : s.Kept :=
  h.inv Server.Kept (fun _ _ _ hs hg he => hs.step hg he) .start

/-- **Liveness watches exactly the admitted players** in every run in which no player who was admitted
with a verdict joins, nobody is admitted with a verdict after he has left, and no kick comes for somebody
who has left and whose id another one has. -/
theorem watches (h : Steps Server.step Unmoved .start s) : Watches s := (Server.Kept.run h).watches

/-- a join of a player who was admitted with a verdict ends it: his entry keeps the temporary id -/
theorem joined_unwatched (h : s.Kept) {id : Source} (hn : s.players[n]? = some p)
    (hsession : p.session.isSome = true) (he : Server.step (.playerJoining n id) s = some s') :
    ¬ Watches s' := by
  obtain ⟨sessionId, hs⟩ := Option.isSome_iff_exists.mp hsession
  simp only [Server.step, hn] at he
  split at he
  · rename_i hjoins
    obtain ⟨hpresent, _, _, hfree⟩ := hjoins
    cases he
    intro hwatches
    have hmem : p ∈ s.players := List.mem_iff_getElem?.mpr ⟨n, hn⟩
    have hold : (⟨p.id, sessionId⟩ : Entry) ∈ s.liveness.tracked :=
      (h.watches.entries _).mpr ⟨p, hmem, tracked?_eq.mpr ⟨hpresent, hs, rfl⟩⟩
    obtain ⟨q, hq, hentry⟩ := (hwatches.entries _).mp hold
    obtain ⟨hqp, _, hqid⟩ := tracked?_eq.mp hentry
    have hqid : q.id = p.id := hqid
    obtain ⟨m, hm⟩ := List.mem_iff_getElem?.mp hq
    rw [change_players] at hm
    obtain ⟨q', hq', rfl⟩ := Option.map_eq_some_iff.mp hm
    by_cases hmn : m = n
    · rw [if_pos hmn] at hqid
      have hid : id = p.id := hqid
      exact hfree ⟨p, hmem, hpresent, hid.symm⟩
    · rw [if_neg hmn] at hqid hqp
      exact hmn (h.ids m n q' p hq' hn hqp hpresent hqid)
  · cases he

end

/-! ## a player joins -/

/-- a player connects, is admitted with a verdict and joins -/
def joining : List ServerEvent :=
  [.playerConnecting 65537, .done 0 (.tracked "s"), .playerJoining 0 1]

/-- he stays tracked under the temporary id, and his drop does not change that -/
theorem joined_survives : ∃ s, run Server.step (joining ++ [.playerDropped 0, .poll [⟨65537, "s"⟩]])
    .start = some s ∧ ¬ Watches s := by
  refine ⟨_, rfl, fun h => ?_⟩
  obtain ⟨p, hp, hentry⟩ := (h.entries ⟨65537, "s"⟩).mp List.mem_cons_self
  rw [List.mem_singleton.mp hp] at hentry
  cases hentry

/-- two players are admitted, one of them leaves before he has joined -/
def leaving : List ServerEvent :=
  [.playerConnecting 65537, .playerConnecting 65538, .done 1 (.tracked "t"), .done 0 (.tracked "s"),
    .playerDropped 0, .poll [⟨65538, "t"⟩]]

theorem watches_leaving : ∃ s, run Server.step leaving .start = some s ∧
    s.liveness.tracked = [⟨65538, "t"⟩] ∧ Watches s :=
  ⟨_, rfl, rfl, watches (Steps.of_guarded leaving _ _ rfl)⟩

end Resource
