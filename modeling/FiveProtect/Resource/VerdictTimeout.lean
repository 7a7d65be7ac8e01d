import FiveProtect.Backend.Service
import FiveProtect.Resource.Http
import FiveProtect.Resource.Thread

/-!
# Two timeouts of a verdict poll

The backend holds a verdict poll for `VERDICT_POLL_TIMEOUT_SECONDS`, the resource waits for the answer
as long as a convar says.  The requests of the resource run on a clock: a timer never fires before it is
due, and the order at the same time is open.

* `TimedHttp.step`     an event of `HttpRun` at its time;
* `PollRun`            a run in which the backend answers a poll at most one second after its window;
* `PollRun.Decided`    the resource takes the verdict, whatever its fail mode is;
* `tenant_decides`     so it does in every run, exactly if the convar leaves room for the answer and the
                       verdict passes the validator: nothing checks the convar.
-/

namespace Resource
open Protocol Function Machine

/-- the requests of the resource on a clock -/
structure TimedHttp where
  now : Time
  http : HttpRun
  /-- when `SetTimeout` was called -/
  setAt : Nat → Time

/-- the timer that fires is due -/
def HttpEvent.isDue (s : TimedHttp) (t : Time) : HttpEvent → Bool
  | .timeout n =>
    match s.http.timers n with
    | .running ms => s.setAt n + ms ≤ t
    | _ => false
  | _ => true

section
variable (config : Config) (encode : LuaValue → Option Bytes) (decode : Bytes → Option LuaValue)

namespace TimedHttp

def start : TimedHttp := ⟨0, .start, fun _ => 0⟩

def step (e : Time × HttpEvent) (s : TimedHttp) : Option TimedHttp :=
  if s.now ≤ e.1 ∧ e.2.isDue s e.1 = true then
    (HttpRun.step config encode decode e.2 s.http).map fun http => {
      now := e.1
      http := http
      setAt := match e.2 with
        | .setTimeout n => update s.setAt n e.1
        | _ => s.setAt }
  else none

end TimedHttp

/-- the request of `Gate.pollVerdict` -/
def Gate.verdictRequest (nonce : LuaValue) : Request where
  method := "POST"
  path := Text.utf8 "/v1/sessions/verdict"
  body := some (.table [(.str "nonce", nonce)] 0)
  timeoutSeconds := config.verdictTimeoutSeconds

/-- **A run in which the backend answers a verdict poll**, at most one second after its window -/
structure PollRun (v : Verdict) where
  nonce : LuaValue
  before : List (Time × HttpEvent)
  /-- when the poll is sent -/
  sent : Time
  between : List (Time × HttpEvent)
  /-- when the answer arrives, the first one -/
  answered : Time
  answer : Bytes
  after : List (Time × HttpEvent)
  /-- before the poll, and at the end -/
  first : TimedHttp
  last : TimedHttp
  reaches : run (TimedHttp.step config encode decode) before .start = some first
  performed : (Http.perform config encode (Gate.verdictRequest config nonce)).isSome = true
  silent : ∀ e ∈ between, ∀ status text, e.2 ≠ .respond first.http.handlers.length status text
  prompt : answered ≤ sent + (verdictPollTimeoutSeconds + 1) * 1000
  decodes : answer ≠ [] ∧ decode answer = some (LuaValue.ofJson v.toJson)
  runs : run (TimedHttp.step config encode decode)
    ((sent, .request (Gate.verdictRequest config nonce)) ::
      (between ++ (answered, .respond first.http.handlers.length 200 (some answer)) :: after)) first =
    some last

end

namespace PollRun

variable {config : Config} {encode : LuaValue → Option Bytes} {decode : Bytes → Option LuaValue}
  {v : Verdict} (r : PollRun config encode decode v)

/-- what `Http.await` returns to the poll -/
def result : Option HttpResult := (r.last.http.results r.first.http.handlers.length).head?

/-- `Gate.pollVerdict` returns the verdict, and so the thread does what it says, not what the fail mode
of the resource says -/
def Decided : Prop :=
  ∃ result, r.result = some result ∧
    Gate.take 200 Lua.validateVerdict result = .ok (LuaValue.ofJson v.toJson) ∧
    ∀ failOpen nonce, (pollThread failOpen nonce result).effects =
      [.update "FiveProtect prüft dein System … Lass die Anwendung dabei geöffnet.",
        .triggerClientEvent (nonce.field "nonce") (nonce.field "backendUrl")] ++
      verdictEffects (LuaValue.ofJson v.toJson)

end PollRun

/-! ## the clock -/

section
variable {config : Config} {encode : LuaValue → Option Bytes} {decode : Bytes → Option LuaValue}
  {s s' : TimedHttp} {e : Time × HttpEvent}

theorem TimedHttp.step_some (h : TimedHttp.step config encode decode e s = some s') :
    s.now ≤ e.1 ∧ e.2.isDue s e.1 = true ∧ s'.now = e.1 ∧
      HttpRun.step config encode decode e.2 s.http = some s'.http ∧
      ∀ n, (e.2 ≠ .setTimeout n ∧ s'.setAt n = s.setAt n) ∨
        e.2 = .setTimeout n ∧ s'.setAt n = e.1 := by
  unfold TimedHttp.step at h
  split at h
  · rename_i hdue
    obtain ⟨http, hhttp, rfl⟩ := Option.map_eq_some_iff.mp h
    refine ⟨hdue.1, hdue.2, rfl, hhttp, fun n => ?_⟩
    obtain ⟨t, e⟩ := e
    cases e with
    | request | respond | timeout => exact .inl ⟨fun h => (by cases h), rfl⟩
    | setTimeout m =>
      by_cases hnm : n = m
      · subst hnm
        exact .inr ⟨rfl, update_self _ _ _⟩
      · refine .inl ⟨fun heq => ?_, update_of_ne hnm _ _⟩
        cases heq
        exact hnm rfl
  · cases h

/-- without the clock it is a run of the requests -/
theorem TimedHttp.run_http (es : List (Time × HttpEvent))
    (h : run (TimedHttp.step config encode decode) es s = some s') :
    run (HttpRun.step config encode decode) (es.map Prod.snd) s.http = some s'.http := by
  induction es generalizing s with
  | nil =>
    cases h
    rfl
  | cons e es ih =>
    obtain ⟨u, hu, hrest⟩ := Option.bind_eq_some_iff.mp h
    obtain ⟨_, _, _, hhttp, _⟩ := TimedHttp.step_some hu
    exact Option.bind_eq_some_iff.mpr ⟨u.http, hhttp, ih hrest⟩

/-- a call is waiting for its answer since it was sent -/
structure Waiting (n : Nat) (seconds : Int) (sent : Time) (es : List (Time × HttpEvent))
    (s : TimedHttp) : Prop where
  handler : ∃ h, s.http.handlers[n]? = some h ∧ h.timeoutSeconds = seconds
  later : sent ≤ s.now
  timer : ∀ ms, s.http.timers n = .running ms → sent + seconds * 1000 ≤ s.setAt n + ms
  fired : ∀ t, (t, .timeout n) ∈ es → sent + seconds * 1000 ≤ t
  past : ∀ e ∈ es, e.1 ≤ s.now

theorem Waiting.step {n : Nat} {seconds : Int} {sent : Time} {es : List (Time × HttpEvent)}
    (hs : Waiting n seconds sent es s) (h : TimedHttp.step config encode decode e s = some s') :
    Waiting n seconds sent (es ++ [e]) s' := by
  obtain ⟨hle, hdue, hnow, hhttp, hset⟩ := TimedHttp.step_some h
  obtain ⟨g, hg, hseconds⟩ := hs.handler
  have hlater : sent ≤ e.1 := hs.later.trans hle
  refine ⟨⟨g, step_handlers hhttp hg, hseconds⟩, ?_, fun ms hms => ?_, fun t ht => ?_, fun x hx => ?_⟩
  · rw [hnow]
    exact hlater
  · rcases step_timers hhttp n with ⟨hne, hsame⟩ | ⟨g', hg', he, hrunning⟩ | ⟨g', hg', he, hfired⟩
    · rw [hsame] at hms
      have hold := hs.timer ms hms
      rcases hset n with ⟨_, hat⟩ | ⟨he, _⟩
      · rw [hat]
        exact hold
      · exact absurd he hne
    · rw [hg] at hg'
      cases hg'
      rw [hrunning] at hms
      cases hms
      rcases hset n with ⟨hne, _⟩ | ⟨_, hat⟩
      · exact absurd he hne
      · rw [hat, hseconds]
        exact Int.add_le_add_right (Int.ofNat_le.mpr hlater) _
    · rw [hfired] at hms
      cases hms
  · rcases List.mem_append.mp ht with ht | ht
    · exact hs.fired t ht
    · have he := List.mem_singleton.mp ht
      subst he
      -- the timer that fires is due
      unfold HttpEvent.isDue at hdue
      dsimp only at hdue
      split at hdue
      · rename_i ms hms
        have htimer := hs.timer ms hms
        have hdue := of_decide_eq_true hdue
        omega
      · cases hdue
  · rw [hnow]
    rcases List.mem_append.mp hx with hx | hx
    · exact (hs.past x hx).trans hle
    · rw [List.mem_singleton.mp hx]

/-- the poll is waiting as soon as it is sent -/
theorem Waiting.sent {request : Request} {sent : Time}
    (hperformed : (Http.perform config encode request).isSome = true)
    (hunset : s.http.timers s.http.handlers.length = .unset)
    (h : TimedHttp.step config encode decode (sent, .request request) s = some s') :
    Waiting s.http.handlers.length request.timeoutSeconds sent [] s' := by
  obtain ⟨p, hp⟩ := Option.isSome_iff_exists.mp hperformed
  obtain ⟨_, _, hnow, hhttp, _⟩ := TimedHttp.step_some h
  have hrequest : s'.http = s.http.request config encode request := (Option.some.inj hhttp).symm
  refine ⟨⟨⟨s.http.nextRequestId + 1, s.http.handlers.length, request.timeoutSeconds⟩, ?_, rfl⟩, ?_,
    fun ms hms => ?_, fun t ht => absurd ht List.not_mem_nil, fun e he => absurd he List.not_mem_nil⟩
  · rw [hrequest, request_performed hp]
    exact List.getElem?_concat_length
  · rw [hnow]
  · rw [hrequest, request_timers, hunset] at hms
    cases hms

end

/-! ## the poll -/

namespace PollRun

variable {config : Config} {encode : LuaValue → Option Bytes} {decode : Bytes → Option LuaValue}
  {v : Verdict} (r : PollRun config encode decode v)

/-- the number of the poll among the calls -/
def number : Nat := r.first.http.handlers.length

theorem unsent : r.first.http.handlers[r.number]? = none := List.getElem?_eq_none le_rfl

/-- the callback of the poll is given the first outcome after it was sent -/
theorem result_eq : r.result = (outcomes decode r.number
    (r.between.map Prod.snd ++ .respond r.number 200 (some r.answer) :: r.after.map Prod.snd)).head? := by
  have hbefore := TimedHttp.run_http _ r.reaches
  have hlast := TimedHttp.run_http _ r.runs
  have hall : run (HttpRun.step config encode decode) (r.before.map Prod.snd ++
      .request (Gate.verdictRequest config r.nonce) :: (r.between.map Prod.snd ++
        .respond r.number 200 (some r.answer) :: r.after.map Prod.snd)) .start = some r.last.http := by
    rw [run_append]
    refine Option.bind_eq_some_iff.mpr ⟨r.first.http, hbefore, ?_⟩
    rw [← hlast, List.map_cons, List.map_append, List.map_cons]
    rfl
  have hnone : outcomes decode r.number (r.before.map Prod.snd) = [] :=
    (answering_of_run hbefore).later r.number r.unsent
  unfold result
  show (r.last.http.results r.number).head? = _
  rw [(answering_of_run hall).first r.number]
  unfold outcomes at hnone ⊢
  rw [List.filterMap_append, hnone, List.nil_append, List.filterMap_cons]
  -- what was sent tells the callback nothing
  show ((List.filterMap (HttpEvent.outcome decode r.number) _).head?.toList).head? = _
  generalize List.filterMap (HttpEvent.outcome decode r.number) _ = outcomes
  cases outcomes with
  | nil => rfl
  | cons x xs => rfl

theorem respond_answer : Http.respond decode 200 (some r.answer) = .ok 200 (LuaValue.ofJson v.toJson) := by
  obtain ⟨hne, hdecode⟩ := r.decodes
  unfold Http.respond Http.decoded
  dsimp only
  rw [if_neg hne, hdecode]
  rfl

/-- a timer of the poll that fires before the answer is due before it -/
theorem timeout_due {t : Time} (ht : (t, HttpEvent.timeout r.number) ∈ r.between) :
    (r.sent : Int) + config.verdictTimeoutSeconds * 1000 ≤ r.answered := by
  obtain ⟨s₁, hs₁, hrest⟩ := Option.bind_eq_some_iff.mp r.runs
  rw [run_append] at hrest
  obtain ⟨s₂, hs₂, hrest⟩ := Option.bind_eq_some_iff.mp hrest
  obtain ⟨s₃, hs₃, _⟩ := Option.bind_eq_some_iff.mp hrest
  have hunset := timers_unset (TimedHttp.run_http _ r.reaches) r.unsent
  have hwaiting := run_inv (Waiting r.number config.verdictTimeoutSeconds r.sent)
    (fun _ _ _ _ hs he => hs.step he) (Waiting.sent r.performed hunset hs₁) r.between s₂ hs₂
  have hdue := hwaiting.fired t ht
  have hpast := (hwaiting.past _ ht).trans (TimedHttp.step_some hs₃).1
  exact hdue.trans (Int.ofNat_le.mpr hpast)

/-- the poll gets its answer if the timer leaves room for it -/
theorem result_answer (hv : (verdictPollTimeoutSeconds : Int) + 1 < config.verdictTimeoutSeconds) :
    r.result = some (.ok 200 (LuaValue.ofJson v.toJson)) := by
  have hbetween : outcomes decode r.number (r.between.map Prod.snd) = [] := by
    apply List.filterMap_eq_nil_iff.mpr
    intro e he
    obtain ⟨⟨t, e⟩, hmem, rfl⟩ := List.mem_map.mp he
    cases e with
    | request | setTimeout => rfl
    | respond m status text =>
      by_cases hm : m = r.number
      · subst hm
        exact absurd rfl (r.silent _ hmem status text)
      · exact if_neg hm
    | timeout m =>
      by_cases hm : m = r.number
      · subst hm
        have hdue := r.timeout_due hmem
        have hprompt := Int.ofNat_le.mpr r.prompt
        push_cast at hprompt
        omega
      · exact if_neg hm
  rw [r.result_eq]
  unfold outcomes at hbetween ⊢
  rw [List.filterMap_append, hbetween, List.nil_append, List.filterMap_cons]
  have hrespond : HttpEvent.outcome decode r.number (.respond r.number 200 (some r.answer)) =
      some (.ok 200 (LuaValue.ofJson v.toJson)) := by
    rw [HttpEvent.outcome, if_pos rfl, r.respond_answer]
  rw [hrespond]
  rfl

/-- the poll is decided by what its callback is given -/
theorem decided_iff : r.Decided ↔ r.result = some (.ok 200 (LuaValue.ofJson v.toJson)) ∧ Lua.Fits v := by
  unfold Decided
  constructor
  · rintro ⟨result, hresult, htake, _⟩
    obtain ⟨rfl, hvalid⟩ := take_ok.mp htake
    exact ⟨hresult, (Lua.validateVerdict_ok v).mp hvalid⟩
  · rintro ⟨hresult, hfits⟩
    have htake : Gate.take 200 Lua.validateVerdict (.ok 200 (LuaValue.ofJson v.toJson)) =
        .ok (LuaValue.ofJson v.toJson) := take_ok.mpr ⟨rfl, (Lua.validateVerdict_ok v).mpr hfits⟩
    refine ⟨_, hresult, htake, fun failOpen nonce => ?_⟩
    unfold pollThread
    rw [htake]

end PollRun

/-! ## runs with a poll -/

section
variable {config : Config} {encode : LuaValue → Option Bytes} {decode : Bytes → Option LuaValue}
  {v : Verdict}

/-- the first call is a poll and answered at once -/
theorem exists_pollRun {nonce : LuaValue} {p : Perform}
    (hp : Http.perform config encode (Gate.verdictRequest config nonce) = some p) {answer : Bytes}
    (hanswer : answer ≠ [] ∧ decode answer = some (LuaValue.ofJson v.toJson)) :
    Nonempty (PollRun config encode decode v) := by
  have hruns : ∃ last, run (TimedHttp.step config encode decode)
      ((0, .request (Gate.verdictRequest config nonce)) :: ([] ++ (0, .respond 0 200 (some answer)) ::
        [])) .start = some last := by
    simp [run, TimedHttp.step, HttpRun.step, HttpEvent.isDue, request_performed hp, TimedHttp.start,
      HttpRun.start]
  obtain ⟨last, hruns⟩ := hruns
  exact ⟨{
    nonce := nonce
    before := []
    sent := 0
    between := []
    answered := 0
    answer := answer
    after := []
    first := .start
    last := last
    reaches := rfl
    performed := by rw [hp]; rfl
    silent := fun e he => absurd he List.not_mem_nil
    prompt := by decide
    decodes := hanswer
    runs := hruns }⟩

/-- the first call is a poll whose timer fires, at the time of the answer at the latest -/
theorem exists_timeout (hv : config.verdictTimeoutSeconds ≤ verdictPollTimeoutSeconds + 1)
    {nonce : LuaValue} {p : Perform}
    (hp : Http.perform config encode (Gate.verdictRequest config nonce) = some p) {answer : Bytes}
    (hanswer : answer ≠ [] ∧ decode answer = some (LuaValue.ofJson v.toJson)) :
    ∃ r : PollRun config encode decode v, r.result = some (.failed "timeout") := by
  let fires : Time := (config.verdictTimeoutSeconds * 1000).toNat
  have hdue : config.verdictTimeoutSeconds * 1000 ≤ (fires : Int) := Int.self_le_toNat _
  have hfires : fires ≤ (verdictPollTimeoutSeconds + 1) * 1000 := by
    apply Int.toNat_le.mpr
    push_cast
    omega
  have hseconds : (Gate.verdictRequest config nonce).timeoutSeconds = config.verdictTimeoutSeconds :=
    rfl
  have hruns : ∃ last, run (TimedHttp.step config encode decode)
      ((0, .request (Gate.verdictRequest config nonce)) ::
        ([(0, .setTimeout 0), (fires, .timeout 0)] ++
          ((verdictPollTimeoutSeconds + 1) * 1000, .respond 0 200 (some answer)) :: [])) .start =
      some last := by
    simp [run, TimedHttp.step, HttpRun.step, HttpEvent.isDue, request_performed hp, TimedHttp.start,
      HttpRun.start, hseconds, hdue, hfires, finish_handlers]
  obtain ⟨last, hruns⟩ := hruns
  refine ⟨{
    nonce := nonce
    before := []
    sent := 0
    between := [(0, .setTimeout 0), (fires, .timeout 0)]
    answered := (verdictPollTimeoutSeconds + 1) * 1000
    answer := answer
    after := []
    first := .start
    last := last
    reaches := rfl
    performed := by rw [hp]; rfl
    silent := by simp
    prompt := by rw [Nat.zero_add]
    decodes := hanswer
    runs := hruns }, ?_⟩
  rw [PollRun.result_eq]
  rfl

/-- **The tenant's fail mode decides.**  The resource takes the verdict of the backend in every run in
which a poll is answered at most one second after its window, exactly if the timeout it was given is
longer and the verdict passes its validator. -/
theorem tenant_decides (hencode : ∃ nonce,
      (Http.perform config encode (Gate.verdictRequest config nonce)).isSome = true)
    (hdecode : ∃ answer, answer ≠ [] ∧ decode answer = some (LuaValue.ofJson v.toJson)) :
    (∀ r : PollRun config encode decode v, r.Decided) ↔
      (verdictPollTimeoutSeconds : Int) + 1 < config.verdictTimeoutSeconds ∧ Lua.Fits v := by
  obtain ⟨nonce, hperformed⟩ := hencode
  obtain ⟨p, hp⟩ := Option.isSome_iff_exists.mp hperformed
  obtain ⟨answer, hanswer⟩ := hdecode
  constructor
  · intro h
    obtain ⟨r⟩ := exists_pollRun hp hanswer
    refine ⟨?_, (r.decided_iff.mp (h r)).2⟩
    by_contra hlate
    obtain ⟨r, hr⟩ := exists_timeout (Int.not_lt.mp hlate) hp hanswer
    have hresult := (r.decided_iff.mp (h r)).1
    rw [hr] at hresult
    cases hresult
  · rintro ⟨hv, hfits⟩ r
    exact r.decided_iff.mpr ⟨r.result_answer hv, hfits⟩

end

/-- the verdict of a poll that ran into its window passes the validator -/
theorem fits_timeout (session : Backend.SessionRow) (failMode : FailMode) (now : Time) :
    Lua.Fits (Backend.timeoutVerdict session failMode now) ↔ IsoTime.year now ≤ 9999 := by
  have hdetails : ∀ r ∈ Backend.timeoutRequirements, ∀ detail, r.detail = some detail →
      Text.utf8Length detail ≤ 200 := by decide
  have hcount : Backend.timeoutRequirements.length ≤ 32 := by decide
  cases failMode with
  | fail_open =>
    refine ⟨fun h => (Lua.test_datetime now).mp h.evaluatedAt, fun hyear => ?_⟩
    exact ⟨Lua.test_uuid session.id, Nat.zero_le _, hcount, hdetails, fun _ h => (by cases h),
      (Lua.test_datetime now).mpr hyear⟩
  | fail_closed =>
    refine ⟨fun h => (Lua.test_datetime now).mp h.evaluatedAt, fun hyear => ?_⟩
    refine ⟨Lua.test_uuid session.id, ?_, hcount, hdetails, fun text htext => ?_,
      (Lua.test_datetime now).mpr hyear⟩
    · show (1 : Nat) ≤ 16
      decide
    cases htext
    rw [Text.utf8Length_eq]
    decide +kernel

/-! ## a poll that ran into its window -/

/-- a server with its credentials set, and the timeout of a verdict poll -/
def convars (verdictTimeout : Option Int) : Convars where
  text
    | "fiveprotect_server_id" => some (Text.utf8 "8f14e45f-ceea-467a-9ba8-a53d9d0e0a3c")
    | "fiveprotect_server_key" => some (Text.utf8 "fp_live_key")
    | _ => none
  int
    | "fiveprotect_verdict_timeout" => verdictTimeout
    | _ => none

/-- the deny of a poll that nobody attested for -/
def denied : Verdict where
  decision := .deny
  sessionId := Uuid.small 5
  reasons := [.companion_timeout]
  requirements := Backend.timeoutRequirements
  remediation := some ("FiveProtect hat nicht rechtzeitig geantwortet. Starte die Anwendung neu und " ++
    "versuche es noch einmal.")
  policyTier := .standard
  evaluatedAt := "2026-08-04T14:10:01.412Z"
  failOpen := false

def deniedText : Bytes := Text.utf8 "\x7b" ++ Text.utf8 ("\"decision\":\"deny\"," ++
  "\"sessionId\":\"00000000-0000-0000-0000-000000000005\",\"reasons\":[\"companion_timeout\"]," ++
  "\"requirements\":[\x7b\"id\":\"companion_attested\",\"status\":\"fail\"," ++
  "\"detail\":\"keine Attestation innerhalb des Zeitfensters\"\x7d]," ++
  "\"remediation\":\"FiveProtect hat nicht rechtzeitig geantwortet. Starte die Anwendung neu und " ++
  "versuche es noch einmal.\",\"policyTier\":\"standard\"," ++
  "\"evaluatedAt\":\"2026-08-04T14:10:01.412Z\",\"failOpen\":false\x7d")

/-- `json.decode` on the text of the verdict -/
def decodeDenied (text : Bytes) : Option LuaValue :=
  if text = deniedText then some (LuaValue.ofJson denied.toJson) else none

/-- `json.encode` on a body with a nonce -/
def encodeNonce : LuaValue → Option Bytes
  | .table [(.str "nonce", .string nonce)] _ =>
    some (Text.utf8 "\x7b\"nonce\":\"" ++ nonce ++ Text.utf8 "\"\x7d")
  | _ => none

theorem encodeNonce_performed (config : Config) : ∃ p,
    Http.perform config encodeNonce (Gate.verdictRequest config (.string (Text.utf8 "n"))) = some p :=
  ⟨_, rfl⟩

theorem decodeDenied_text :
    deniedText ≠ [] ∧ decodeDenied deniedText = some (LuaValue.ofJson denied.toJson) :=
  ⟨List.append_ne_nil_of_left_ne_nil (by decide) _, if_pos rfl⟩

theorem tenant_decides_default : (Config.load (convars none)).validate = .ok () ∧
    ∀ r : PollRun (Config.load (convars none)) encodeNonce decodeDenied denied, r.Decided := by
  refine ⟨by decide +kernel, (tenant_decides ?_ ⟨_, decodeDenied_text⟩).mpr ⟨by decide, ?_⟩⟩
  · obtain ⟨p, hp⟩ := encodeNonce_performed (Config.load (convars none))
    exact ⟨_, Option.isSome_iff_exists.mpr ⟨p, hp⟩⟩
  · refine ⟨Lua.test_uuid (Uuid.small 5), by decide, by decide, by decide, fun text htext => ?_,
      by decide +kernel⟩
    cases htext
    rw [Text.utf8Length_eq]
    decide +kernel

/-- five seconds are accepted: the backend denies, and the resource admits under its own fail mode -/
theorem tenant_overruled : (Config.load (convars (some 5))).validate = .ok () ∧
    ∃ r : PollRun (Config.load (convars (some 5))) encodeNonce decodeDenied denied, ¬ r.Decided ∧
      ∃ result, r.result = some result ∧ ∀ nonce,
        (pollThread (Config.load (convars (some 5))).failOpenWhenBackendUnreachable nonce
          result).deferral = .admitted none := by
  obtain ⟨p, hp⟩ := encodeNonce_performed (Config.load (convars (some 5)))
  obtain ⟨r, hr⟩ := exists_timeout (v := denied) (by decide) hp decodeDenied_text
  refine ⟨by decide +kernel, r, fun hdecided => ?_, _, hr, fun nonce => rfl⟩
  have hresult := (r.decided_iff.mp hdecided).1
  rw [hr] at hresult
  cases hresult

end Resource
