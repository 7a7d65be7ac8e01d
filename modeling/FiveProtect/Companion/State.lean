import FiveProtect.Protocol.Enums

/-!
# Companion: the window's state machine

`apps/companion/crates/fiveprotect-core/src/state.rs`: the four states of the window, `next_state` and
the view the window renders.
-/

namespace Companion
open Protocol

inductive WindowState where
  | idle
  | checking
  | ready
  | blocked
  deriving DecidableEq

/-- what can happen to the companion -/
inductive Event where
  | attestRequested
  | attestationAccepted
  | refused (remediation : Option String)
  | sessionEnded
  | failed (remediation : Option String)
  deriving DecidableEq

/-- one line of the window's list of checks -/
structure WindowCheck where
  requirement : RequirementId
  status : RequirementStatus
  deriving DecidableEq

/-- the window model, as sent to the frontend -/
structure WindowView where
  state : WindowState
  requirements : List WindowCheck
  gamePresent : Bool
  remediation : Option String
  serverName : Option String
  version : String
  protocolVersion : Int
  deriving DecidableEq

def WindowView.withChecks (v : WindowView) (checks : List WindowCheck) : WindowView :=
  { v with requirements := checks }

def WindowView.withGamePresent (v : WindowView) (present : Bool) : WindowView :=
  { v with gamePresent := present }

/-- applies an event -/
def nextState : WindowState → Event → WindowState
  | _, .attestRequested => .checking
  | .checking, .attestationAccepted => .ready
  | _, .refused _ => .blocked
  | _, .failed _ => .blocked
  | _, .sessionEnded => .idle
  -- an acknowledgement without a running check belongs to a session that is over
  | state, .attestationAccepted => state

/-- the view the window renders -/
def view (state : WindowState) (remediation serverName : Option String) (version : String)
    (protocolVersion : Int) : WindowView where
  state := state
  requirements := []
  gamePresent := false
  remediation := if state = .blocked then remediation else none
  serverName := serverName
  version := version
  protocolVersion := protocolVersion

/-- `ready` is entered from `checking` alone, by an acknowledgement -/
theorem nextState_ready {state : WindowState} {event : Event} (h : nextState state event = .ready) :
    event = .attestationAccepted ∧ (state = .checking ∨ state = .ready) := by
  cases event with
  | attestationAccepted =>
    cases state with
    | checking => exact ⟨rfl, .inl rfl⟩
    | ready => exact ⟨rfl, .inr rfl⟩
    | idle | blocked => cases h
  | attestRequested | refused | sessionEnded | failed => cases state <;> cases h

end Companion
