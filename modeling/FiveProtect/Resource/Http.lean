import FiveProtect.Lib.Run
import FiveProtect.Resource.Config
import FiveProtect.Resource.Gate
import Mathlib.Logic.Function.Basic

/-!
# Resource: requests to the backend

`resources/fiveprotect/server/http.lua` and what the runtime does with the two functions that a call of
`Http.request` leaves with it: it calls the one of `PerformHttpRequest` any number of times, also while
`PerformHttpRequest` is still running, and the one of `SetTimeout` once.

* `Http.request`        up to `PerformHttpRequest`;
* `HttpRun.finish`      the local function that both use;
* `HttpEvent.outcome`   what an event has to tell the callback of a call;
* `Answering`           what a run keeps of a call: its callback was given its first outcome;
* `answered_once`       so it is called once, and no other call has a part in it.
-/

namespace Resource
open Protocol Function Machine

/-- what `Http.request` is called with, besides the callback -/
structure Request where
  method : String
  /-- appended to the URL of the backend -/
  path : Bytes
  body : Option LuaValue
  timeoutSeconds : Int

/-- the arguments of `PerformHttpRequest` -/
structure Perform where
  url : Bytes
  method : String
  data : Bytes
  headers : List (String × Bytes)

/-- the variables of one call, which its two functions share; the callback is known by the number of the
call -/
structure Handler where
  requestId : Nat
  callback : Nat
  timeoutSeconds : Int

inductive Timer where
  | unset
  | running (ms : Int)
  | fired

structure HttpRun where
  pending : Nat → Bool
  nextRequestId : Nat
  /-- the calls that reached `PerformHttpRequest` -/
  handlers : List Handler
  performed : List Perform
  timers : Nat → Timer
  /-- the callbacks that were called, by the number of their call -/
  called : List (Nat × HttpResult)

inductive HttpEvent where
  | request (r : Request)
  /-- the function of `PerformHttpRequest` is called -/
  | respond (n : Nat) (status : Nat) (responseText : Option Bytes)
  /-- `PerformHttpRequest` has returned, the call goes on to `SetTimeout` -/
  | setTimeout (n : Nat)
  | timeout (n : Nat)

section
variable (config : Config) (encode : LuaValue → Option Bytes) (decode : Bytes → Option LuaValue)

namespace Http

/-- `decoded`: the text of a response that has one, if `json.decode` does not fail -/
def decoded (responseText : Option Bytes) : LuaValue :=
  match responseText with
  | none => .nil
  | some text => if text = [] then .nil else (decode text).getD .nil

/-- the result of a response -/
def respond (status : Nat) (responseText : Option Bytes) : HttpResult :=
  finish (.reply status (decoded decode responseText))

/-- the arguments of `PerformHttpRequest`, unless `json.encode` fails -/
def perform (r : Request) : Option Perform :=
  (r.body.elim (some []) encode).map fun data => {
    url := config.backendUrl ++ r.path
    method := r.method
    data := data
    headers := [("Content-Type", Text.utf8 "application/json"),
      ("Authorization", Text.utf8 "Bearer " ++ config.serverKey),
      ("User-Agent", Text.utf8 "fiveprotect-resource/0.1.0")] }

end Http

namespace HttpRun

def start : HttpRun where
  pending _ := false
  nextRequestId := 0
  handlers := []
  performed := []
  timers _ := .unset
  called := []

/-- `Http.request` up to `PerformHttpRequest`; the id is used up even if `json.encode` fails -/
def request (r : Request) (s : HttpRun) : HttpRun :=
  let requestId := s.nextRequestId + 1
  let taken := { s with nextRequestId := requestId, pending := update s.pending requestId true }
  match Http.perform config encode r with
  | none => taken
  | some perform =>
    { taken with
      handlers := s.handlers ++ [⟨requestId, s.handlers.length, r.timeoutSeconds⟩]
      performed := s.performed ++ [perform] }

def finish (h : Handler) (result : HttpResult) (s : HttpRun) : HttpRun :=
  if !s.pending h.requestId then s
  else
    { s with
      pending := update s.pending h.requestId false
      called := s.called ++ [(h.callback, result)] }

def step (e : HttpEvent) (s : HttpRun) : Option HttpRun :=
  match e with
  | .request r => some (s.request config encode r)
  | .respond n status text =>
    s.handlers[n]?.map fun h => s.finish h (Http.respond decode status text)
  | .setTimeout n =>
    match s.handlers[n]?, s.timers n with
    | some h, .unset => some { s with timers := update s.timers n (.running (h.timeoutSeconds * 1000)) }
    | _, _ => none
  | .timeout n =>
    match s.handlers[n]?, s.timers n with
    | some h, .running _ =>
      some ({ s with timers := update s.timers n .fired }.finish h (.failed "timeout"))
    | _, _ => none

/-- what the callback of a call was given -/
def results (s : HttpRun) (n : Nat) : List HttpResult :=
  s.called.filterMap fun c => if c.1 = n then some c.2 else none

end HttpRun

/-- what an event has to tell the callback of a call -/
def HttpEvent.outcome (n : Nat) : HttpEvent → Option HttpResult
  | .respond m status text => if m = n then some (Http.respond decode status text) else none
  | .timeout m => if m = n then some (.failed "timeout") else none
  | _ => none

/-- the outcomes of a call, in their order -/
def outcomes (n : Nat) (events : List HttpEvent) : List HttpResult :=
  events.filterMap (HttpEvent.outcome decode n)

end

/-! ## the local function -/

section
variable {h : Handler} {result : HttpResult} {s : HttpRun}

theorem finish_done (hp : s.pending h.requestId = false) : s.finish h result = s := by
  rw [HttpRun.finish, hp]
  rfl

theorem finish_pending (hp : s.pending h.requestId = true) : s.finish h result =
    { s with
      pending := update s.pending h.requestId false
      called := s.called ++ [(h.callback, result)] } := by
  rw [HttpRun.finish, hp]
  rfl

theorem finish_handlers : (s.finish h result).handlers = s.handlers := by
  cases hp : s.pending h.requestId with
  | false => rw [finish_done hp]
  | true => rw [finish_pending hp]

theorem finish_timers : (s.finish h result).timers = s.timers := by
  cases hp : s.pending h.requestId with
  | false => rw [finish_done hp]
  | true => rw [finish_pending hp]

theorem finish_nextRequestId : (s.finish h result).nextRequestId = s.nextRequestId := by
  cases hp : s.pending h.requestId with
  | false => rw [finish_done hp]
  | true => rw [finish_pending hp]

end

/-! ## the steps -/

section
variable {config : Config} {encode : LuaValue → Option Bytes} {decode : Bytes → Option LuaValue}
  {e : HttpEvent} {s s' : HttpRun}

theorem request_timers (r : Request) : (s.request config encode r).timers = s.timers := by
  unfold HttpRun.request
  dsimp only
  split <;> rfl

/-- a call reaches `PerformHttpRequest` if its body can be encoded -/
theorem request_performed {r : Request} {p : Perform} (hp : Http.perform config encode r = some p) :
    s.request config encode r = { s with
      nextRequestId := s.nextRequestId + 1
      pending := update s.pending (s.nextRequestId + 1) true
      handlers := s.handlers ++ [⟨s.nextRequestId + 1, s.handlers.length, r.timeoutSeconds⟩]
      performed := s.performed ++ [p] } := by
  unfold HttpRun.request
  rw [hp]

/-- a call stays where it is -/
theorem step_handlers (he : HttpRun.step config encode decode e s = some s') {n : Nat} {h : Handler}
    (hn : s.handlers[n]? = some h) : s'.handlers[n]? = some h := by
  cases e with
  | request r =>
    cases he
    unfold HttpRun.request
    dsimp only
    split
    · exact hn
    · obtain ⟨hlt, _⟩ := List.getElem?_eq_some_iff.mp hn
      exact (List.getElem?_append_left hlt).trans hn
  | respond m status text =>
    obtain ⟨g, _, rfl⟩ := Option.map_eq_some_iff.mp he
    rwa [finish_handlers]
  | setTimeout m =>
    unfold HttpRun.step at he
    dsimp only at he
    split at he
    · cases he
      exact hn
    · cases he
  | timeout m =>
    unfold HttpRun.step at he
    dsimp only at he
    split at he
    · cases he
      rwa [finish_handlers]
    · cases he

/-- what happens to a timer -/
theorem step_timers (he : HttpRun.step config encode decode e s = some s') (n : Nat) :
    (e ≠ .setTimeout n ∧ s'.timers n = s.timers n) ∨
      (∃ h, s.handlers[n]? = some h ∧ e = .setTimeout n ∧
        s'.timers n = .running (h.timeoutSeconds * 1000)) ∨
      (∃ h, s.handlers[n]? = some h ∧ e = .timeout n ∧ s'.timers n = .fired) := by
  cases e with
  | request r =>
    cases he
    rw [request_timers]
    exact .inl ⟨fun h => (by cases h), rfl⟩
  | respond m status text =>
    obtain ⟨g, _, rfl⟩ := Option.map_eq_some_iff.mp he
    rw [finish_timers]
    exact .inl ⟨fun h => (by cases h), rfl⟩
  | setTimeout m =>
    unfold HttpRun.step at he
    dsimp only at he
    split at he
    · rename_i h hm _
      cases he
      by_cases hnm : n = m
      · subst hnm
        exact .inr (.inl ⟨h, hm, rfl, update_self _ _ _⟩)
      · refine .inl ⟨fun heq => ?_, update_of_ne hnm _ _⟩
        cases heq
        exact hnm rfl
    · cases he
  | timeout m =>
    unfold HttpRun.step at he
    dsimp only at he
    split at he
    · rename_i h _ hm _
      cases he
      rw [finish_timers]
      by_cases hnm : n = m
      · subst hnm
        exact .inr (.inr ⟨h, hm, rfl, update_self _ _ _⟩)
      · exact .inl ⟨fun h => (by cases h), update_of_ne hnm _ _⟩
    · cases he

/-- the timer of a call that was not made is not set -/
theorem timers_unset {events : List HttpEvent}
    (h : run (HttpRun.step config encode decode) events .start = some s) {n : Nat}
    (hn : s.handlers[n]? = none) : s.timers n = .unset := by
  refine run_inv (fun _ s => ∀ n : Nat, s.handlers[n]? = none → s.timers n = .unset)
    (fun _ t e u ht he m hm => ?_) (fun _ _ => rfl) events s h n hn
  cases hold : t.handlers[m]? with
  | some g =>
    rw [step_handlers he hold] at hm
    cases hm
  | none =>
    rcases step_timers he m with ⟨_, hsame⟩ | ⟨g, hg, _⟩ | ⟨g, hg, _⟩
    · rw [hsame]
      exact ht m hold
    · rw [hold] at hg
      cases hg
    · rw [hold] at hg
      cases hg

end

/-! ## runs -/

section
variable {config : Config} {encode : LuaValue → Option Bytes} {decode : Bytes → Option LuaValue}

/-- what a run keeps -/
structure Answering (decode : Bytes → Option LuaValue) (events : List HttpEvent) (s : HttpRun) :
    Prop where
  callback : ∀ (n : Nat) (h : Handler), s.handlers[n]? = some h → h.callback = n
  used : ∀ (n : Nat) (h : Handler), s.handlers[n]? = some h → h.requestId ≤ s.nextRequestId
  distinct : ∀ (m n : Nat) (g h : Handler), s.handlers[m]? = some g → s.handlers[n]? = some h →
    g.requestId = h.requestId → m = n
  /-- a call is pending as long as its callback was not called -/
  pending : ∀ (n : Nat) (h : Handler), s.handlers[n]? = some h →
    (s.pending h.requestId = true ↔ s.results n = [])
  /-- the callback was given the first outcome -/
  first : ∀ n, s.results n = (outcomes decode n events).head?.toList
  later : ∀ n : Nat, s.handlers[n]? = none → outcomes decode n events = []

theorem Answering.start : Answering decode [] .start where
  callback n h hn := by cases hn
  used n h hn := by cases hn
  distinct m n g h hm := by cases hm
  pending n h hn := by cases hn
  first n := rfl
  later n hn := rfl

theorem outcomes_append (n : Nat) (events : List HttpEvent) (e : HttpEvent) :
    outcomes decode n (events ++ [e]) = outcomes decode n events ++ (e.outcome decode n).toList := by
  unfold outcomes
  rw [List.filterMap_append]
  cases he : e.outcome decode n with
  | none => simp [he]
  | some x => simp [he]

variable {events : List HttpEvent} {e : HttpEvent} {s s' : HttpRun}

theorem Answering.timers (hs : Answering decode events s) (timers : Nat → Timer) :
    Answering decode events { s with timers := timers } :=
  ⟨hs.callback, hs.used, hs.distinct, hs.pending, hs.first, hs.later⟩

/-- an event that has nothing to tell to anybody -/
theorem Answering.quiet (hs : Answering decode events s) (he : ∀ n, e.outcome decode n = none)
    (hhandlers : s'.handlers = s.handlers) (hnext : s.nextRequestId ≤ s'.nextRequestId)
    (hpending : ∀ k, k ≤ s.nextRequestId → s'.pending k = s.pending k)
    (hcalled : s'.called = s.called) : Answering decode (events ++ [e]) s' := by
  have hresults : ∀ n, s'.results n = s.results n := by
    intro n
    rw [HttpRun.results, hcalled, HttpRun.results]
  have houtcomes : ∀ n, outcomes decode n (events ++ [e]) = outcomes decode n events := by
    intro n
    rw [outcomes_append, he n]
    exact List.append_nil _
  refine ⟨?_, ?_, ?_, ?_, ?_, ?_⟩
  · rw [hhandlers]
    exact hs.callback
  · intro n h hn
    rw [hhandlers] at hn
    exact (hs.used n h hn).trans hnext
  · rw [hhandlers]
    exact hs.distinct
  · intro n h hn
    rw [hhandlers] at hn
    rw [hpending _ (hs.used n h hn), hresults]
    exact hs.pending n h hn
  · intro n
    rw [hresults, houtcomes]
    exact hs.first n
  · intro n hn
    rw [hhandlers] at hn
    rw [houtcomes]
    exact hs.later n hn

/-- a call reaches `PerformHttpRequest` -/
theorem Answering.perform (hs : Answering decode events s) (he : ∀ n, e.outcome decode n = none)
    {timeoutSeconds : Int} (hhandlers : s'.handlers =
      s.handlers ++ [⟨s.nextRequestId + 1, s.handlers.length, timeoutSeconds⟩])
    (hnext : s'.nextRequestId = s.nextRequestId + 1)
    (hpending : s'.pending = update s.pending (s.nextRequestId + 1) true)
    (hcalled : s'.called = s.called) : Answering decode (events ++ [e]) s' := by
  have hresults : ∀ n, s'.results n = s.results n := by
    intro n
    rw [HttpRun.results, hcalled, HttpRun.results]
  have houtcomes : ∀ n, outcomes decode n (events ++ [e]) = outcomes decode n events := by
    intro n
    rw [outcomes_append, he n]
    exact List.append_nil _
  -- a handler is an earlier one or the new one
  have hcases : ∀ n h, s'.handlers[n]? = some h → s.handlers[n]? = some h ∨
      n = s.handlers.length ∧ h = ⟨s.nextRequestId + 1, n, timeoutSeconds⟩ := by
    intro n h hn
    rw [hhandlers] at hn
    by_cases hlt : n < s.handlers.length
    · rw [List.getElem?_append_left hlt] at hn
      exact .inl hn
    · rw [List.getElem?_append_right (by omega), List.getElem?_singleton] at hn
      split at hn
      · rename_i hzero
        have hlen : n = s.handlers.length := by omega
        cases hn
        exact .inr ⟨hlen, by rw [hlen]⟩
      · cases hn
  refine ⟨?_, ?_, ?_, ?_, ?_, ?_⟩
  · intro n h hn
    rcases hcases n h hn with hold | ⟨_, rfl⟩
    · exact hs.callback n h hold
    · rfl
  · intro n h hn
    rw [hnext]
    rcases hcases n h hn with hold | ⟨_, rfl⟩
    · have hle := hs.used n h hold
      omega
    · exact le_rfl
  · intro m n g h hm hn hid
    rcases hcases m g hm with hm | ⟨hmlen, rfl⟩
    · rcases hcases n h hn with hn | ⟨_, rfl⟩
      · exact hs.distinct m n g h hm hn hid
      · have hle := hs.used m g hm
        have hid : g.requestId = s.nextRequestId + 1 := hid
        omega
    · rcases hcases n h hn with hn | ⟨hnlen, rfl⟩
      · have hle := hs.used n h hn
        have hid : s.nextRequestId + 1 = h.requestId := hid
        omega
      · omega
  · intro n h hn
    rw [hpending, hresults]
    rcases hcases n h hn with hold | ⟨hlen, rfl⟩
    · have hle := hs.used n h hold
      rw [update_of_ne (by omega)]
      exact hs.pending n h hold
    · have hnone : s.handlers[n]? = none := List.getElem?_eq_none (by omega)
      rw [hs.first n, hs.later n hnone]
      exact iff_of_true (update_self _ _ _) rfl
  · intro n
    rw [hresults, houtcomes]
    exact hs.first n
  · intro n hn
    rw [houtcomes]
    apply hs.later n
    rw [hhandlers, List.getElem?_eq_none_iff, List.length_append] at hn
    exact List.getElem?_eq_none (by omega)

/-- one of the two functions of a call is called -/
theorem Answering.finish (hs : Answering decode events s) {n : Nat} {h : Handler}
    (hn : s.handlers[n]? = some h) {result : HttpResult}
    (he : ∀ m, e.outcome decode m = if n = m then some result else none) :
    Answering decode (events ++ [e]) (s.finish h result) := by
  have houtcomes : ∀ m, outcomes decode m (events ++ [e]) =
      outcomes decode m events ++ if n = m then [result] else [] := by
    intro m
    rw [outcomes_append, he m]
    split <;> rfl
  refine ⟨?_, ?_, ?_, ?_, ?_, ?_⟩
  · rw [finish_handlers]
    exact hs.callback
  · rw [finish_handlers, finish_nextRequestId]
    exact hs.used
  · rw [finish_handlers]
    exact hs.distinct
  · intro m g hm
    rw [finish_handlers] at hm
    cases hp : s.pending h.requestId with
    | false =>
      rw [finish_done hp]
      exact hs.pending m g hm
    | true =>
      rw [finish_pending hp]
      by_cases hmn : m = n
      · subst hmn
        rw [hn] at hm
        cases hm
        refine iff_of_false (by simp) ?_
        simp [HttpRun.results, hs.callback m h hn]
      · have hid : g.requestId ≠ h.requestId := fun hid => hmn (hs.distinct m n g h hm hn hid)
        have hcallback : n ≠ m := fun heq => hmn heq.symm
        have hsame := hs.pending m g hm
        simpa [HttpRun.results, hs.callback n h hn, hid, hcallback] using hsame
  · intro m
    rw [houtcomes m]
    cases hp : s.pending h.requestId with
    | false =>
      rw [finish_done hp, hs.first m]
      by_cases hnm : n = m
      · subst hnm
        -- it was answered before
        have hsome : s.results n ≠ [] := by
          intro hnil
          rw [(hs.pending n h hn).mpr hnil] at hp
          cases hp
        rw [hs.first n] at hsome
        cases houts : outcomes decode n events with
        | nil =>
          rw [houts] at hsome
          exact absurd rfl hsome
        | cons x xs => rfl
      · rw [if_neg hnm, List.append_nil]
    | true =>
      rw [finish_pending hp]
      have hresults : HttpRun.results { s with
          pending := update s.pending h.requestId false
          called := s.called ++ [(h.callback, result)] } m =
          s.results m ++ if n = m then [result] else [] := by
        unfold HttpRun.results
        rw [List.filterMap_append, hs.callback n h hn]
        congr 1
        by_cases hnm : n = m
        · simp [hnm]
        · simp [hnm]
      rw [hresults]
      by_cases hnm : n = m
      · subst hnm
        have hnil := (hs.pending n h hn).mp hp
        have hfirst := hs.first n
        rw [hnil] at hfirst
        cases houts : outcomes decode n events with
        | nil => simp [hnil]
        | cons x xs =>
          rw [houts] at hfirst
          cases hfirst
      · rw [if_neg hnm, List.append_nil, List.append_nil]
        exact hs.first m
  · intro m hm
    rw [finish_handlers] at hm
    rw [houtcomes, hs.later m hm]
    by_cases hnm : n = m
    · subst hnm
      rw [hn] at hm
      cases hm
    · rw [if_neg hnm]
      rfl

/-- **Every event keeps it.** -/
theorem Answering.step (hs : Answering decode events s)
    (hstep : HttpRun.step config encode decode e s = some s') :
    Answering decode (events ++ [e]) s' := by
  cases e with
  | request r =>
    cases hperform : Http.perform config encode r with
    | none =>
      have heq : HttpRun.step config encode decode (.request r) s = some { s with
          nextRequestId := s.nextRequestId + 1
          pending := update s.pending (s.nextRequestId + 1) true } := by
        simp only [HttpRun.step, HttpRun.request, hperform]
      rw [heq] at hstep
      cases hstep
      refine hs.quiet (fun _ => rfl) rfl (Nat.le_succ _) (fun k hk => ?_) rfl
      exact update_of_ne (by omega) _ _
    | some p =>
      have heq : HttpRun.step config encode decode (.request r) s = some { s with
          nextRequestId := s.nextRequestId + 1
          pending := update s.pending (s.nextRequestId + 1) true
          handlers := s.handlers ++ [⟨s.nextRequestId + 1, s.handlers.length, r.timeoutSeconds⟩]
          performed := s.performed ++ [p] } := by
        exact congrArg some (request_performed hperform)
      rw [heq] at hstep
      cases hstep
      exact hs.perform (fun _ => rfl) rfl rfl rfl rfl
  | respond n status text =>
    obtain ⟨h, hn, rfl⟩ := Option.map_eq_some_iff.mp hstep
    exact hs.finish hn fun _ => rfl
  | setTimeout n =>
    unfold HttpRun.step at hstep
    dsimp only at hstep
    split at hstep
    · cases hstep
      exact hs.quiet (fun _ => rfl) rfl le_rfl (fun _ _ => rfl) rfl
    · cases hstep
  | timeout n =>
    unfold HttpRun.step at hstep
    dsimp only at hstep
    split at hstep
    · rename_i h _ hn _
      cases hstep
      exact (hs.timers (update s.timers n .fired)).finish hn fun _ => rfl
    · cases hstep

/-! ## every run -/

/-- a call whose timeout has fired has an outcome -/
theorem outcomes_of_timeout {n : Nat} (h : .timeout n ∈ events) : outcomes decode n events ≠ [] := by
  intro hnil
  have hnone := List.filterMap_eq_nil_iff.mp hnil _ h
  rw [HttpEvent.outcome, if_pos rfl] at hnone
  cases hnone

theorem answering_of_run (h : run (HttpRun.step config encode decode) events .start = some s) :
    Answering decode events s :=
  run_inv (Answering decode) (fun _ _ _ _ hs hstep => hs.step hstep) .start events s h

/-- **A call is answered once.**  Its callback is given its own first outcome and nothing after that; when
its timeout has fired, there is one.  What its callback was given depends on its own outcomes alone. -/
theorem answered_once (n : Nat)
    (h : run (HttpRun.step config encode decode) events .start = some s) :
    s.results n = (outcomes decode n events).head?.toList ∧
    (.timeout n ∈ events → ∃ first later, outcomes decode n events = first :: later ∧
      s.results n = [first]) ∧
    (∀ events' s', run (HttpRun.step config encode decode) events' .start = some s' →
      outcomes decode n events' = outcomes decode n events → s'.results n = s.results n) := by
  have hfirst := (answering_of_run h).first n
  refine ⟨hfirst, fun hfired => ?_, fun events' s' h' hsame => ?_⟩
  · cases houts : outcomes decode n events with
    | nil => exact absurd houts (outcomes_of_timeout hfired)
    | cons first later =>
      rw [houts] at hfirst
      exact ⟨first, later, rfl, hfirst⟩
  · rw [(answering_of_run h').first n, hsame, hfirst]

/-- two polls at once: the first is answered while `PerformHttpRequest` runs, and again after its
timeout; the second times out -/
def twoPolls : List HttpEvent := [
  .request ⟨"GET", Text.utf8 "/v1/health", none, 10⟩,
  .respond 0 200 (some (Text.utf8 "{}")),
  .request ⟨"GET", Text.utf8 "/v1/health", none, 10⟩,
  .setTimeout 1,
  .setTimeout 0,
  .timeout 1,
  .timeout 0,
  .respond 0 500 none,
  .respond 1 200 (some (Text.utf8 "{}"))]

theorem answered_once_twoPolls : ∃ s,
    run (HttpRun.step (Config.load .unset) (fun _ => none)
      (fun _ => some (.table [] 0))) twoPolls .start = some s ∧
      s.results 0 = [.ok 200 (.table [] 0)] ∧ s.results 1 = [.failed "timeout"] := by
  refine ⟨_, rfl, ?_, ?_⟩
  · obtain ⟨_, hfired, _⟩ := @answered_once (Config.load .unset) (fun _ => none)
      (fun _ => some (.table [] 0)) twoPolls _ 0 rfl
    obtain ⟨first, later, houts, hresults⟩ := hfired (by simp [twoPolls])
    cases houts
    exact hresults
  · obtain ⟨_, hfired, _⟩ := @answered_once (Config.load .unset) (fun _ => none)
      (fun _ => some (.table [] 0)) twoPolls _ 1 rfl
    obtain ⟨first, later, houts, hresults⟩ := hfired (by simp [twoPolls])
    cases houts
    exact hresults

end

end Resource
