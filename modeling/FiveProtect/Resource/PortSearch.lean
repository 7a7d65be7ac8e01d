import FiveProtect.Lib.Json
import FiveProtect.Lib.Run
import Mathlib.Algebra.GroupWithZero.Nat
import Mathlib.Data.List.Nodup
import Mathlib.Data.List.Perm.Subperm

/-!
# Resource: the port search

`createTransport` of `nui/transport.js`: how the frame finds the companion.  An event is what `fetch`, or
the body of a response, comes to for one port; the attempts come to it in any order.

* `rememberedPort`   the stored text, read leniently;
* `Attempt.after`    `tryPort`;
* `deliver`, `step`  the remembered port alone, then the rest of the range at once;
* `Inv`, `step_inv`  what is known of each port from the events so far;
* `port_search`      every port once, and `null` only if none of them has acknowledged.
-/

namespace Resource.PortSearch

def portRangeStart : Nat := 52800

def portRangeEnd : Nat := 52899

/-! ## the remembered port -/

/-- `storage?.getItem(STORAGE_KEY)`: it throws, there is nothing, or there is a text -/
inductive Stored
  | throws
  | nothing
  | item (text : String)

/-- the digits that a number starts with -/
def leadingDigits (text : List Char) : Option Nat :=
  match text.takeWhile Char.isDigit with
  | [] => none
  | digits => some (Nat.ofDigitChars 10 digits 0)

/-- `Number.parseInt(text, 10)`, `none` for `NaN` -/
def parseInt (text : String) : Option Int :=
  match text.toList.dropWhile Text.isJsSpace with
  | '-' :: rest => (leadingDigits rest).map fun n => -(n : Int)
  | '+' :: rest => (leadingDigits rest).map fun n => (n : Int)
  | rest => (leadingDigits rest).map fun n => (n : Int)

/-- a number in the range; `NaN` is in none -/
def portOf (text : String) : Option Nat :=
  (parseInt text).bind fun port =>
    if (portRangeStart : Int) ≤ port ∧ port ≤ portRangeEnd then some port.toNat else none

def rememberedPort : Stored → Option Nat
  | .throws => none
  | .nothing => portOf ""
  | .item text => portOf text

/-! ## one attempt -/

structure Request where
  url : String
  method : String
  contentType : String
  body : Json
  credentials : String
  cache : String

def attestRequest (command : Json) (port : Nat) : Request where
  url := "http://127.0.0.1:" ++ toString port ++ "/attest"
  method := "POST"
  contentType := "application/json"
  body := command
  credentials := "omit"
  cache := "no-store"

/-- an acknowledgement and nothing else -/
def looksLikeCompanion (body : Json) : Bool :=
  (body.get? "accepted").bind Json.bool? == some true && ((body.get? "companionVersion").bind Json.text?).isSome

/-- what comes of a request: it is refused or aborted, there is a response, or its body is JSON or is not -/
inductive Answer
  | fails
  | answers (ok : Bool)
  | body (content : Option Json)

structure Event where
  port : Nat
  answer : Answer

/-- `tryPort`: it awaits the response, awaits the body, or has resolved -/
inductive Attempt
  | fetching
  | reading
  | settled (result : Option Nat)

def Attempt.after (port : Nat) : Attempt → Answer → Option Attempt
  | .fetching, .fails => some (.settled none)
  | .fetching, .answers ok => some (if ok then .reading else .settled none)
  | .reading, .fails => some (.settled none)
  | .reading, .body none => some (.settled none)
  | .reading, .body (some body) => some (.settled (if looksLikeCompanion body then some port else none))
  | _, _ => none

def Attempt.pending : Attempt → Bool
  | .settled _ => false
  | _ => true

def Attempt.result : Attempt → Option Nat
  | .settled result => result
  | _ => none

/-! ## the search -/

structure Delivery where
  remembered : Option Nat
  /-- the attempt at the remembered port is awaited alone -/
  alone : Bool
  attempts : List (Nat × Attempt)
  /-- the ports that were tried, in this order -/
  tried : List Nat
  /-- what `deliver` has resolved to -/
  result : Option (Option Nat)
  /-- what was handed to `rememberPort`, which does not throw -/
  stored : Option Nat

/-- the rest of the range -/
def portsBut (remembered : Option Nat) : List Nat :=
  (List.range' portRangeStart (portRangeEnd + 1 - portRangeStart)).filter fun port => some port != remembered

def Delivery.scan (s : Delivery) : Delivery :=
  { s with alone := false, attempts := (portsBut s.remembered).map (·, .fetching),
           tried := s.tried ++ portsBut s.remembered }

def deliver (storage : Stored) : Delivery :=
  match rememberedPort storage with
  | some port => ⟨some port, true, [(port, .fetching)], [port], none, none⟩
  | none => Delivery.scan ⟨none, false, [], [], none, none⟩

/-- the first result that is a port -/
def Delivery.found (s : Delivery) : Option Nat := s.attempts.findSome? fun x => x.2.result

/-- `deliver` goes on when everything it awaits has resolved -/
def Delivery.proceed (s : Delivery) : Delivery :=
  if s.attempts.any fun x => x.2.pending then s
  else if s.alone then
    match s.found with
    | some hit => { s with result := some (some hit) }
    | none => s.scan
  else { s with result := some s.found, stored := s.found }

def step (e : Event) (s : Delivery) : Option Delivery :=
  (s.attempts.lookup e.port).bind fun a => (a.after e.port e.answer).map fun a' =>
    Delivery.proceed
      { s with attempts := s.attempts.map fun x => if x.1 = e.port then (e.port, a') else x }

/-- the requests that were sent -/
def Delivery.sent (command : Json) (s : Delivery) : List Request := s.tried.map (attestRequest command)

def Delivery.Pending (s : Delivery) (port : Nat) : Prop := ∃ a, (port, a) ∈ s.attempts ∧ a.pending = true

/-! ## ports -/

theorem portOf_range {text : String} {port : Nat} (h : portOf text = some port) :
    portRangeStart ≤ port ∧ port ≤ portRangeEnd := by
  obtain ⟨n, _, hn⟩ := Option.bind_eq_some_iff.mp h
  split at hn
  · rename_i hrange
    cases hn
    omega
  · cases hn

theorem rememberedPort_range {storage : Stored} {port : Nat} (h : rememberedPort storage = some port) :
    portRangeStart ≤ port ∧ port ≤ portRangeEnd := by
  cases storage with
  | throws => cases h
  | nothing => exact portOf_range h
  | item text => exact portOf_range h

theorem mem_portsBut {remembered : Option Nat} {port : Nat} : port ∈ portsBut remembered ↔
    (portRangeStart ≤ port ∧ port ≤ portRangeEnd) ∧ remembered ≠ some port := by
  rw [portsBut, List.mem_filter, List.mem_range'_1, bne_iff_ne]
  unfold portRangeStart portRangeEnd
  constructor
  · intro h
    exact ⟨by omega, fun heq => h.2 heq.symm⟩
  · intro h
    exact ⟨by omega, fun heq => h.2 heq.symm⟩

theorem portsBut_nodup (remembered : Option Nat) : (portsBut remembered).Nodup :=
  List.Nodup.filter _ List.nodup_range'

theorem portsBut_ne_nil (remembered : Option Nat) : portsBut remembered ≠ [] := by
  intro h
  have hfirst : portRangeStart ∉ portsBut remembered := by
    rw [h]
    exact List.not_mem_nil
  have hlast : portRangeEnd ∉ portsBut remembered := by
    rw [h]
    exact List.not_mem_nil
  rw [mem_portsBut] at hfirst hlast
  have hstart : remembered = some portRangeStart := by
    by_contra hne
    exact hfirst ⟨by decide, hne⟩
  rw [hstart] at hlast
  exact hlast ⟨by decide, by decide⟩

theorem between_injective {a b x y : String} (h : a ++ x ++ b = a ++ y ++ b) : x = y := by
  have htext := congrArg String.toList h
  simp only [String.toList_append] at htext
  exact String.toList_injective (List.append_cancel_left (List.append_cancel_right htext))

theorem attestRequest_injective {command : Json} {p q : Nat}
    (h : (attestRequest command p).url = (attestRequest command q).url) : p = q :=
  Text.decimal_injective (between_injective h)

/-! ## one attempt -/

/-- the port has answered with an acknowledgement -/
def Acknowledged (es : List Event) (port : Nat) : Prop :=
  ∃ body, ⟨port, .body (some body)⟩ ∈ es ∧ looksLikeCompanion body = true

/-- what the events so far say of an attempt -/
def Known (es : List Event) (port : Nat) : Attempt → Prop
  | .fetching => ¬Acknowledged es port
  | .reading => ⟨port, .answers true⟩ ∈ es ∧ ¬Acknowledged es port
  | .settled none => ¬Acknowledged es port
  | .settled (some hit) => hit = port ∧ ⟨port, .answers true⟩ ∈ es ∧ Acknowledged es port

/-- how many events an attempt may take -/
def Attempt.cost : Attempt → Nat
  | .fetching => 2
  | .reading => 1
  | .settled _ => 0

theorem acknowledged_append {es : List Event} {e : Event} {port : Nat} :
    Acknowledged (es ++ [e]) port ↔ Acknowledged es port ∨
      ∃ body, e = ⟨port, .body (some body)⟩ ∧ looksLikeCompanion body = true := by
  constructor
  · intro h
    obtain ⟨body, hmem, hbody⟩ := h
    rcases List.mem_append.mp hmem with hmem | hmem
    · exact .inl ⟨body, hmem, hbody⟩
    · exact .inr ⟨body, (List.mem_singleton.mp hmem).symm, hbody⟩
  · intro h
    rcases h with h | h
    · obtain ⟨body, hmem, hbody⟩ := h
      exact ⟨body, List.mem_append_left _ hmem, hbody⟩
    · obtain ⟨body, rfl, hbody⟩ := h
      exact ⟨body, List.mem_append_right _ List.mem_cons_self, hbody⟩

/-- what comes of another port changes nothing -/
theorem Known.other {es : List Event} {e : Event} {port : Nat} {a : Attempt} (h : Known es port a)
    (hne : port ≠ e.port) : Known (es ++ [e]) port a := by
  have hack : Acknowledged (es ++ [e]) port ↔ Acknowledged es port := by
    rw [acknowledged_append, or_iff_left]
    intro hbody
    obtain ⟨_, rfl, _⟩ := hbody
    exact hne rfl
  cases a with
  | fetching => exact fun hk => h (hack.mp hk)
  | reading => exact ⟨List.mem_append_left _ h.1, fun hk => h.2 (hack.mp hk)⟩
  | settled result =>
    cases result with
    | none => exact fun hk => h (hack.mp hk)
    | some hit => exact ⟨h.1, List.mem_append_left _ h.2.1, hack.mpr h.2.2⟩

/-- **`tryPort`.** It takes the events of its port, and acknowledgements only behind a response. -/
theorem Known.after {es : List Event} {e : Event} {a a' : Attempt} (h : Known es e.port a)
    (ha : a.after e.port e.answer = some a') : Known (es ++ [e]) e.port a' ∧ a'.cost < a.cost := by
  obtain ⟨port, answer⟩ := e
  have hquiet : (∀ body, answer ≠ .body (some body)) → ¬Acknowledged es port →
      ¬Acknowledged (es ++ [⟨port, answer⟩]) port := by
    intro hanswer hno hk
    rcases acknowledged_append.mp hk with hk | ⟨body, hbody, _⟩
    · exact hno hk
    · exact hanswer body (Event.mk.inj hbody).2
  cases a with
  | settled result => cases ha
  | fetching =>
    cases answer with
    | body content => cases ha
    | fails =>
      cases ha
      exact ⟨hquiet (fun _ hbody => by cases hbody) h, by decide⟩
    | answers ok =>
      cases ok with
      | false =>
        cases ha
        exact ⟨hquiet (fun _ hbody => by cases hbody) h, by decide⟩
      | true =>
        cases ha
        exact ⟨⟨List.mem_append_right _ List.mem_cons_self, hquiet (fun _ hbody => by cases hbody) h⟩,
          by decide⟩
  | reading =>
    cases answer with
    | answers ok => cases ha
    | fails =>
      cases ha
      exact ⟨hquiet (fun _ hbody => by cases hbody) h.2, by decide⟩
    | body content =>
      cases content with
      | none =>
        cases ha
        exact ⟨hquiet (fun _ hbody => by cases hbody) h.2, by decide⟩
      | some body =>
        cases ha
        by_cases hbody : looksLikeCompanion body = true
        · rw [if_pos hbody]
          exact ⟨⟨rfl, List.mem_append_left _ h.1, acknowledged_append.mpr (.inr ⟨body, rfl, hbody⟩)⟩,
            Nat.zero_lt_one⟩
        · rw [if_neg hbody]
          refine ⟨fun hk => ?_, by decide⟩
          rcases acknowledged_append.mp hk with hk | ⟨content, hcontent, hlooks⟩
          · exact h.2 hk
          · cases hcontent
            exact hbody hlooks

/-! ## the search -/

/-- the attempt at one port, which comes once in the list, is replaced -/
theorem replaced {attempts : List (Nat × Attempt)} {port : Nat} {a : Attempt} (a' : Attempt)
    (hnodup : (attempts.map Prod.fst).Nodup) (h : attempts.lookup port = some a) : ∃ before behind,
    attempts = before ++ (port, a) :: behind ∧ (∀ x ∈ before ++ behind, x.1 ≠ port) ∧
      attempts.map (fun x => if x.1 = port then (port, a') else x) = before ++ (port, a') :: behind := by
  obtain ⟨before, behind, rfl, _⟩ := List.lookup_eq_some_iff.mp h
  have hothers : ∀ x ∈ before ++ behind, x.1 ≠ port := by
    have hperm : (before ++ (port, a) :: behind).Perm ((port, a) :: (before ++ behind)) := List.perm_middle
    have hcons := (hperm.map Prod.fst).nodup_iff.mp hnodup
    rw [List.map_cons, List.nodup_cons] at hcons
    intro x hx heq
    have hmem : x.1 ∈ (before ++ behind).map Prod.fst := List.mem_map_of_mem hx
    rw [heq] at hmem
    exact hcons.1 hmem
  have hkept : ∀ l : List (Nat × Attempt), (∀ x ∈ l, x.1 ≠ port) →
      l.map (fun x => if x.1 = port then (port, a') else x) = l := by
    intro l hl
    conv_rhs => rw [← List.map_id l]
    exact List.map_congr_left fun x hx => if_neg (hl x hx)
  refine ⟨before, behind, rfl, hothers, ?_⟩
  rw [List.map_append, List.map_cons, if_pos rfl, hkept before fun x hx => hothers x (List.mem_append_left _ hx),
    hkept behind fun x hx => hothers x (List.mem_append_right _ hx)]

def Delivery.cost (s : Delivery) : Nat := (s.attempts.map fun x => x.2.cost).sum

/-- what holds while `deliver` awaits its attempts -/
structure Running (storage : Stored) (es : List Event) (s : Delivery) : Prop where
  remembered : s.remembered = rememberedPort storage
  ports : s.attempts.map Prod.fst = if s.alone then s.remembered.toList else portsBut s.remembered
  tried : s.tried =
    if s.alone then s.remembered.toList else s.remembered.toList ++ portsBut s.remembered
  known : ∀ x ∈ s.attempts, Known es x.1 x.2
  passed : s.alone = false → ∀ port, s.remembered = some port → ¬Acknowledged es port
  asked : ∀ e ∈ es, e.port ∈ s.tried
  spent : es.length + s.cost ≤ 2 * s.tried.length

/-- and it has resolved as soon as none is pending -/
structure Inv (storage : Stored) (es : List Event) (s : Delivery) : Prop extends Running storage es s where
  resolved : s.result = none ↔ ∃ port, s.Pending port
  result : ∀ result, s.result = some result → s.found = result ∧ (result = none → s.alone = false)

section
variable {storage : Stored} {es : List Event} {e : Event} {s s' : Delivery}

theorem Running.ports_nodup (h : Running storage es s) : (s.attempts.map Prod.fst).Nodup := by
  rw [h.ports]
  split
  · cases s.remembered with
    | none => exact List.nodup_nil
    | some port => exact List.nodup_singleton port
  · exact portsBut_nodup _

theorem Running.tried_nodup (h : Running storage es s) : s.tried.Nodup := by
  rw [h.tried]
  cases hremembered : s.remembered with
  | none =>
    split
    · exact List.nodup_nil
    · rw [Option.toList_none, List.nil_append]
      exact portsBut_nodup _
  | some port =>
    split
    · exact List.nodup_singleton port
    · refine List.nodup_cons.mpr ⟨fun hmem => ?_, portsBut_nodup _⟩
      exact (mem_portsBut.mp hmem).2 rfl

theorem Running.tried_range (h : Running storage es s) :
    ∀ port ∈ s.tried, portRangeStart ≤ port ∧ port ≤ portRangeEnd := by
  intro port hport
  have hfirst : ∀ p ∈ s.remembered.toList, portRangeStart ≤ p ∧ p ≤ portRangeEnd := by
    intro p hp
    rw [Option.mem_toList, h.remembered] at hp
    exact rememberedPort_range hp
  rw [h.tried] at hport
  split at hport
  · exact hfirst port hport
  · rcases List.mem_append.mp hport with hport | hport
    · exact hfirst port hport
    · exact (mem_portsBut.mp hport).1

/-- an awaited port has been tried -/
theorem Running.attempt_tried (h : Running storage es s) {x : Nat × Attempt} (hx : x ∈ s.attempts) :
    x.1 ∈ s.tried := by
  have hport : x.1 ∈ s.attempts.map Prod.fst := List.mem_map_of_mem hx
  rw [h.ports] at hport
  rw [h.tried]
  split
  · rw [if_pos ‹_›] at hport
    exact hport
  · rw [if_neg ‹_›] at hport
    exact List.mem_append_right _ hport

theorem not_pending_settled {a : Attempt} (h : ¬a.pending = true) : ∃ result, a = .settled result := by
  cases a with
  | fetching => exact absurd rfl h
  | reading => exact absurd rfl h
  | settled result => exact ⟨result, rfl⟩

/-- where nothing is pending and nothing was found, no awaited port has acknowledged -/
theorem Running.none_acknowledged (h : Running storage es s)
    (hpending : ¬(s.attempts.any fun x => x.2.pending) = true) (hfound : s.found = none) :
    ∀ x ∈ s.attempts, ¬Acknowledged es x.1 := by
  intro x hx
  obtain ⟨result, hresult⟩ := not_pending_settled (a := x.2) fun hp =>
    hpending (List.any_eq_true.mpr ⟨x, hx, hp⟩)
  have hnone := List.findSome?_eq_none_iff.mp hfound x hx
  rw [hresult] at hnone
  have hknown := h.known x hx
  rw [hresult, show result = none from hnone] at hknown
  exact hknown

/-- the rest of the range, once the remembered port has not acknowledged -/
theorem running_scan (hremembered : s.remembered = rememberedPort storage)
    (htried : s.tried = s.remembered.toList)
    (hpassed : ∀ port, s.remembered = some port → ¬Acknowledged es port)
    (hasked : ∀ e ∈ es, e.port ∈ s.tried) (hspent : es.length ≤ 2 * s.tried.length) :
    Running storage es s.scan := by
  refine ⟨hremembered, ?_, ?_, fun x hx => ?_, fun _ => hpassed, fun e he => ?_, ?_⟩
  · show ((portsBut s.remembered).map (·, Attempt.fetching)).map Prod.fst = portsBut s.remembered
    rw [List.map_map]
    exact List.map_id _
  · show s.tried ++ portsBut s.remembered = _
    rw [htried]
    rfl
  · obtain ⟨port, hport, rfl⟩ := List.mem_map.mp hx
    rintro ⟨body, hbody, _⟩
    have hport' := hasked _ hbody
    rw [htried, Option.mem_toList] at hport'
    exact (mem_portsBut.mp hport).2 hport'
  · exact List.mem_append_left _ (hasked e he)
  · have hcost : s.scan.cost = 2 * (portsBut s.remembered).length := by
      show (((portsBut s.remembered).map (·, Attempt.fetching)).map fun x => x.2.cost).sum = _
      rw [List.map_map]
      show ((portsBut s.remembered).map fun _ => 2).sum = _
      rw [List.map_const', List.sum_replicate_nat, Nat.mul_comm]
    rw [hcost]
    show _ ≤ 2 * (s.tried ++ portsBut s.remembered).length
    rw [List.length_append]
    omega

theorem any_pending : (s.attempts.any fun x => x.2.pending) = true ↔ ∃ port, s.Pending port := by
  rw [List.any_eq_true]
  constructor
  · intro h
    obtain ⟨x, hx, hp⟩ := h
    exact ⟨x.1, x.2, hx, hp⟩
  · intro h
    obtain ⟨port, a, hx, hp⟩ := h
    exact ⟨_, hx, hp⟩

theorem scan_pending (s : Delivery) : ∃ port, s.scan.Pending port := by
  obtain ⟨port, hport⟩ := List.exists_mem_of_ne_nil _ (portsBut_ne_nil s.remembered)
  exact ⟨port, .fetching, List.mem_map.mpr ⟨port, hport, rfl⟩, rfl⟩

/-- while something is pending, `deliver` has not resolved -/
theorem Running.inv (h : Running storage es s) (hresult : s.result = none)
    (hpending : ∃ port, s.Pending port) : Inv storage es s := by
  refine ⟨h, ⟨fun _ => hpending, fun _ => hresult⟩, fun result hsome => ?_⟩
  rw [hresult] at hsome
  cases hsome

theorem proceed_inv (h : Running storage es s) (hresult : s.result = none) :
    Inv storage es s.proceed := by
  unfold Delivery.proceed
  split
  · rename_i hpending
    exact h.inv hresult (any_pending.mp hpending)
  · rename_i hpending
    have hsettled : ¬∃ port, s.Pending port := fun hp => hpending (any_pending.mpr hp)
    split
    · rename_i halone
      have hports := h.ports
      have htried := h.tried
      rw [if_pos halone] at hports htried
      split
      · rename_i hit hfound
        refine ⟨⟨h.remembered, h.ports, h.tried, h.known, h.passed, h.asked, h.spent⟩,
          ⟨fun hnone => absurd hnone (Option.some_ne_none _), fun hp => absurd hp hsettled⟩,
          fun result hsome => ?_⟩
        cases hsome
        exact ⟨hfound, fun hnone => absurd hnone (Option.some_ne_none _)⟩
      · rename_i hfound
        have hspent := h.spent
        refine (running_scan h.remembered htried (fun port hport => ?_) h.asked (by omega)).inv hresult
          (scan_pending s)
        rw [hport, Option.toList_some] at hports
        have hmem : port ∈ s.attempts.map Prod.fst := by
          rw [hports]
          exact List.mem_cons_self
        obtain ⟨x, hx, rfl⟩ := List.mem_map.mp hmem
        exact h.none_acknowledged hpending hfound x hx
    · rename_i halone
      refine ⟨⟨h.remembered, h.ports, h.tried, h.known, h.passed, h.asked, h.spent⟩,
        ⟨fun hnone => absurd hnone (Option.some_ne_none _), fun hp => absurd hp hsettled⟩,
        fun result hsome => ?_⟩
      cases hsome
      exact ⟨rfl, fun _ => Bool.eq_false_of_not_eq_true halone⟩

theorem step_inv (hinv : Inv storage es s) (h : step e s = some s') : Inv storage (es ++ [e]) s' := by
  obtain ⟨a, hlookup, hmap⟩ := Option.bind_eq_some_iff.mp h
  obtain ⟨a', hafter, rfl⟩ := Option.map_eq_some_iff.mp hmap
  obtain ⟨before, behind, hsplit, hothers, hreplaced⟩ := replaced a' hinv.ports_nodup hlookup
  have hmem : (e.port, a) ∈ s.attempts := by
    rw [hsplit]
    exact List.mem_append_right _ List.mem_cons_self
  have htried := hinv.attempt_tried hmem
  obtain ⟨hknown, hcost⟩ : Known (es ++ [e]) e.port a' ∧ a'.cost < a.cost :=
    (hinv.known _ hmem).after hafter
  have hpending : s.Pending e.port := by
    refine ⟨a, hmem, ?_⟩
    cases a with
    | settled result => cases hafter
    | _ => rfl
  refine proceed_inv ?_ (hinv.resolved.mpr ⟨_, hpending⟩)
  rw [hreplaced]
  refine ⟨hinv.remembered, ?_, hinv.tried, fun x hx => ?_, fun halone port hport hk => ?_,
    fun x hx => ?_, ?_⟩
  · have hports := hinv.ports
    rw [hsplit, List.map_append, List.map_cons] at hports
    show (before ++ (e.port, a') :: behind).map Prod.fst = _
    rw [List.map_append, List.map_cons]
    exact hports
  · have hother : x ∈ before ++ behind → Known (es ++ [e]) x.1 x.2 := by
      intro hx
      refine (hinv.known x ?_).other (hothers x hx)
      rw [hsplit]
      rcases List.mem_append.mp hx with hx | hx
      · exact List.mem_append_left _ hx
      · exact List.mem_append_right _ (List.mem_cons_of_mem _ hx)
    rcases List.mem_append.mp hx with hx | hx
    · exact hother (List.mem_append_left _ hx)
    · rcases List.mem_cons.mp hx with rfl | hx
      · exact hknown
      · exact hother (List.mem_append_right _ hx)
  · -- the events of the scan are those of other ports
    rcases acknowledged_append.mp hk with hk | ⟨body, rfl, _⟩
    · exact hinv.passed halone port hport hk
    · have hports := hinv.ports
      rw [if_neg (Bool.not_eq_true _ ▸ halone)] at hports
      have hport' : port ∈ portsBut s.remembered := by
        rw [← hports]
        exact List.mem_map_of_mem hmem
      exact (mem_portsBut.mp hport').2 hport
  · rcases List.mem_append.mp hx with hx | hx
    · exact hinv.asked x hx
    · rw [List.mem_singleton.mp hx]
      exact htried
  · have hspent := hinv.spent
    unfold Delivery.cost at hspent ⊢
    rw [hsplit] at hspent
    simp only [List.map_append, List.map_cons, List.sum_append, List.sum_cons, List.length_append,
      List.length_singleton] at hspent ⊢
    change es.length + (_ + (a.cost + _)) ≤ _ at hspent
    show es.length + 1 + (_ + (a'.cost + _)) ≤ _
    omega

theorem inv_deliver (storage : Stored) : Inv storage [] (deliver storage) := by
  have hno : ∀ port, ¬Acknowledged [] port := by
    rintro port ⟨body, hbody, _⟩
    exact List.not_mem_nil hbody
  unfold deliver
  split
  · rename_i port hport
    refine Running.inv ⟨hport.symm, rfl, rfl, fun x hx => ?_, fun halone => Bool.noConfusion halone,
      fun e he => absurd he List.not_mem_nil, le_refl _⟩ rfl ⟨port, .fetching, List.mem_cons_self, rfl⟩
    rw [List.mem_singleton.mp hx]
    exact hno port
  · rename_i hport
    exact (running_scan hport.symm rfl (fun port hsome => absurd hsome.symm (Option.some_ne_none _))
      (fun e he => absurd he List.not_mem_nil) (Nat.zero_le _)).inv rfl (scan_pending _)

/-- what holds after the events of a search -/
theorem run_inv (h : Machine.run step es (deliver storage) = some s) : Inv storage es s :=
  Machine.run_inv (Inv storage) (fun _ _ _ _ hs ht => step_inv hs ht) (inv_deliver storage) es s h

theorem tried_length (h : Running storage es s) : s.tried.length ≤ 100 := by
  have hsub : s.tried ⊆ List.range' portRangeStart 100 := by
    intro port hport
    have hrange := h.tried_range port hport
    unfold portRangeStart portRangeEnd at *
    rw [List.mem_range'_1]
    omega
  exact (List.subperm_of_subset h.tried_nodup hsub).length_le

/-- an attempt that is pending settles when its signal fires -/
theorem aborts {port : Nat} (h : Inv storage es s) (hp : s.Pending port) :
    (step ⟨port, .fails⟩ s).isSome = true := by
  obtain ⟨a, hmem, hpending⟩ := hp
  have hlookup : s.attempts.lookup port = some a := by
    obtain ⟨before, behind, hsplit⟩ := List.append_of_mem hmem
    have hnodup := h.ports_nodup
    rw [hsplit] at hnodup ⊢
    refine List.lookup_eq_some_iff.mpr ⟨before, behind, rfl, fun x hx => ?_⟩
    rw [List.map_append, List.map_cons, List.nodup_append] at hnodup
    exact bne_iff_ne.mpr (hnodup.2.2 _ (List.mem_map_of_mem hx) _ List.mem_cons_self).symm
  unfold step
  rw [hlookup, Option.bind_some]
  cases a with
  | settled result => cases hpending
  | fetching => rfl
  | reading => rfl

theorem Running.head (h : Running storage es s) {port : Nat} (hport : rememberedPort storage = some port) :
    s.tried.head? = some port := by
  rw [h.tried, h.remembered, hport]
  split
  · rfl
  · rfl

/-- the rest of the range is tried when the remembered port has settled without an acknowledgement -/
theorem Inv.alone (h : Inv storage es s) {port : Nat} (hport : rememberedPort storage = some port)
    (hp : s.Pending port ∨ Acknowledged es port) : s.tried = [port] := by
  have hremembered := h.remembered.trans hport
  cases halone : s.alone with
  | true =>
    rw [h.tried, halone, if_pos rfl, hremembered]
    rfl
  | false =>
    rcases hp with hp | hk
    · obtain ⟨a, hmem, _⟩ := hp
      have hports := h.ports
      rw [halone, if_neg Bool.false_ne_true] at hports
      have hmem' : port ∈ s.attempts.map Prod.fst := List.mem_map_of_mem hmem
      rw [hports] at hmem'
      exact absurd hremembered (mem_portsBut.mp hmem').2
    · exact absurd hk (h.passed halone port hremembered)

/-- what was found has acknowledged this command -/
theorem Inv.hit (h : Inv storage es s) {port : Nat} (hresult : s.result = some (some port)) :
    ⟨port, .answers true⟩ ∈ es ∧ Acknowledged es port := by
  obtain ⟨x, hx, hfound⟩ := List.exists_of_findSome?_eq_some (h.result _ hresult).1
  have hknown := h.known x hx
  cases ha : x.2 with
  | fetching =>
    rw [ha] at hfound
    cases hfound
  | reading =>
    rw [ha] at hfound
    cases hfound
  | settled result =>
    rw [ha] at hfound hknown
    cases hfound
    obtain ⟨rfl, hanswer, hk⟩ := hknown
    exact ⟨hanswer, hk⟩

/-- what is not found was tried everywhere -/
theorem Inv.missing (h : Inv storage es s) (hresult : s.result = some none) (port : Nat)
    (hrange : portRangeStart ≤ port ∧ port ≤ portRangeEnd) : port ∈ s.tried ∧ ¬Acknowledged es port := by
  obtain ⟨hfound, halone⟩ := h.result _ hresult
  have hports := h.ports
  have htried := h.tried
  rw [halone rfl, if_neg Bool.false_ne_true] at hports htried
  have hpending : ¬(s.attempts.any fun x => x.2.pending) = true := by
    rw [any_pending, ← h.resolved, hresult]
    exact Option.some_ne_none _
  by_cases hremembered : s.remembered = some port
  · rw [htried, hremembered]
    exact ⟨List.mem_cons_self, h.passed (halone rfl) port hremembered⟩
  · have hport := mem_portsBut.mpr ⟨hrange, hremembered⟩
    rw [htried]
    refine ⟨List.mem_append_right _ hport, ?_⟩
    rw [← hports] at hport
    obtain ⟨x, hx, rfl⟩ := List.mem_map.mp hport
    exact h.toRunning.none_acknowledged hpending hfound x hx

/-- **The port search is complete and does not repeat itself.**  Whatever is stored and whatever comes of the
attempts, in whatever order: the search takes two hundred events at most and has resolved as soon as no
attempt is pending, which each of them may cease to be at any time; every port of the range is sent the
command once at most and no other port is, the remembered one first and, as long as it is pending and if it
acknowledges, alone; it resolves to a port only if this port has acknowledged, and to `null` only if every
port was tried and none has. -/
theorem port_search (storage : Stored) (command : Json) (es : List Event) (s : Delivery)
    (h : Machine.run step es (deliver storage) = some s) :
    ((s.result = none ↔ ∃ port, s.Pending port) ∧ es.length ≤ 200 ∧
      ∀ port, s.Pending port → (step ⟨port, .fails⟩ s).isSome = true) ∧
    (((s.sent command).map (·.url)).Nodup ∧ ∀ request ∈ s.sent command, ∃ port,
      (portRangeStart ≤ port ∧ port ≤ portRangeEnd) ∧ request = attestRequest command port) ∧
    (∀ port, rememberedPort storage = some port →
      (s.sent command).head? = some (attestRequest command port) ∧
      (s.Pending port ∨ Acknowledged es port → s.sent command = [attestRequest command port])) ∧
    (∀ port, s.result = some (some port) → ⟨port, .answers true⟩ ∈ es ∧ Acknowledged es port) ∧
    (s.result = some none → ∀ port, portRangeStart ≤ port ∧ port ≤ portRangeEnd →
      attestRequest command port ∈ s.sent command ∧ ¬Acknowledged es port) := by
  have hinv := run_inv h
  refine ⟨⟨hinv.resolved, ?_, fun port hp => aborts hinv hp⟩, ⟨?_, ?_⟩, fun port hport => ⟨?_, fun hp => ?_⟩,
    fun port hresult => hinv.hit hresult, fun hresult port hrange => ?_⟩
  · have hspent := hinv.spent
    have hlength := tried_length hinv.toRunning
    omega
  · rw [Delivery.sent, List.map_map]
    exact hinv.tried_nodup.map fun p q heq => attestRequest_injective heq
  · intro request hrequest
    obtain ⟨port, hport, rfl⟩ := List.mem_map.mp hrequest
    exact ⟨port, hinv.tried_range port hport, rfl⟩
  · rw [Delivery.sent, List.head?_map, hinv.head hport, Option.map_some]
  · rw [Delivery.sent, hinv.alone hport hp]
    rfl
  · obtain ⟨htried, hno⟩ := hinv.missing hresult port hrange
    exact ⟨List.mem_map_of_mem htried, hno⟩

/-- the companion is where it was the last time -/
def remembers : List Event := [⟨52810, .answers true⟩,
  ⟨52810, .body (some (.obj [("accepted", .bool true), ("companionVersion", .str "0.1.0")]))⟩]

theorem port_search_remembers : ∃ s, Machine.run step remembers (deliver (.item " 52810/")) = some s ∧
    s.result = some (some 52810) ∧ s.sent .null = [attestRequest .null 52810] := by
  have hrun : (Machine.run step remembers (deliver (.item " 52810/"))).isSome = true := by decide
  obtain ⟨s, hs⟩ := Option.isSome_iff_exists.mp hrun
  have hresult : (Machine.run step remembers (deliver (.item " 52810/"))).map (·.result) =
      some (some (some 52810)) := by decide
  rw [hs] at hresult
  have hport : s.result = some (some 52810) := Option.some.inj hresult
  obtain ⟨_, _, hfirst, hhit, _⟩ := port_search (.item " 52810/") .null remembers s hs
  exact ⟨s, hs, hport, (hfirst 52810 (by decide)).2 (.inr (hhit 52810 hport).2)⟩

end

end Resource.PortSearch
