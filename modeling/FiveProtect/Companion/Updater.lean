import FiveProtect.Companion.Origin
import Mathlib.Data.Prod.Lex

/-!
# Companion: the signed updater

`evaluate_manifest` of `apps/companion/crates/fiveprotect-core/src/updater.rs` and what it calls.  The
Ed25519 key and `hex::decode` are parameters.

* `parseVersion`        the first three numbers of a version, suffixes and further parts aside;
* `evaluateManifest`    the checks in their order;
* `evaluateManifest_ok` what they establish;
* `adopt`               a companion that adopts what is answered with `Ok(true)`;
* `adopt_forward`       it only moves forward.
-/

namespace Companion

structure UpdateManifest where
  version : String
  sha256 : String
  url : String
  channel : String
  rolloutPercent : UInt8
  signature : String

inductive UpdateError where
  | badSignature
  | malformedSignature
  | wrongChannel (theirs ours : String)
  | notNewer (offered current : String)
  | malformedVersion (version : String)
  | untrustedUrl
  deriving DecidableEq

structure UpdatePolicy where
  currentVersion : String
  channel : String
  downloadOrigin : String
  rolloutBucket : UInt8

/-- the key compiled into the build: does it verify a signature of 64 bytes over a payload? -/
structure VerifyingKey where
  verify : Bytes → Bytes → Bool

/-- the bytes the signature covers -/
def UpdateManifest.signingPayload (m : UpdateManifest) : Bytes :=
  Text.utf8 ("fiveprotect-update-v1\n" ++ m.version ++ "\n" ++ m.sha256 ++ "\n" ++ m.url ++ "\n" ++
    m.channel ++ "\n" ++ toString m.rolloutPercent)

/-! ## signatures -/

def alphabet : Bytes :=
  Text.utf8 "ABCDEFGHIJKLMNOPQRSTUVWXYZabcdefghijklmnopqrstuvwxyz0123456789+/"

/-- one byte of the text: the buffer, how many bits wait in it, and the output so far -/
def base64Step (s : UInt32 × UInt32 × Bytes) (byte : UInt8) : Option (UInt32 × UInt32 × Bytes) :=
  let (buffer, bits, out) := s
  (alphabet.idxOf? byte).map fun index =>
    let buffer := (buffer <<< 6) ||| UInt32.ofNat index
    let bits := bits + 6
    if 8 ≤ bits then
      (buffer, bits - 8, out ++ [((buffer >>> (bits - 8)) &&& 0xFF).toUInt8])
    else (buffer, bits, out)

def base64Decode (value : String) : Option Bytes :=
  ((Text.utf8Chars (value.toList.rdropWhile (· == '='))).foldlM base64Step (0, 0, [])).map
    fun s => s.2.2

section
variable (hexDecode : String → Option Bytes) (key : VerifyingKey)

def decodeSignature (value : String) : Option Bytes := (hexDecode value).or (base64Decode value)

def verifySignature (m : UpdateManifest) : Except UpdateError Unit :=
  match decodeSignature hexDecode m.signature with
  | none => .error .malformedSignature
  | some raw =>
    if raw.length ≠ 64 then .error .malformedSignature
    else if key.verify m.signingPayload raw then .ok ()
    else .error .badSignature

/-- the signature of a manifest verifies over its signing payload -/
def Verifies (m : UpdateManifest) : Prop :=
  ∃ raw, decodeSignature hexDecode m.signature = some raw ∧ raw.length = 64 ∧
    key.verify m.signingPayload raw = true

end

/-! ## versions -/

/-- major, minor and patch, compared in this order -/
abbrev Version := Nat ×ₗ Nat ×ₗ Nat

/-- `str::parse::<u32>` -/
def parseU32 (text : List Char) : Option Nat :=
  let digits := match text with
    | '+' :: rest => rest
    | _ => text
  if digits = [] then none
  else digits.foldlM (fun n c =>
    if c.isDigit then
      let m := n * 10 + (c.toNat - 48)
      if m < 4294967296 then some m else none
    else none) 0

def parseVersion (value : String) : Except UpdateError Version :=
  let core := value.toList.takeWhile fun c => c != '-' && c != '+'
  let parts := core.splitOn '.'
  let next (i : Nat) : Option Nat := parts[i]?.bind parseU32
  match next 0, next 1, next 2 with
  | some major, some minor, some patch => .ok (toLex (major, toLex (minor, patch)))
  | _, _, _ => .error (.malformedVersion value)

/-- both are version numbers, and the second one is greater -/
def Newer (current offered : String) : Prop :=
  ∃ u v, parseVersion current = .ok u ∧ parseVersion offered = .ok v ∧ u < v

theorem Newer.trans {a b c : String} (hab : Newer a b) (hbc : Newer b c) : Newer a c := by
  obtain ⟨u, v, hu, hv, huv⟩ := hab
  obtain ⟨v', w, hv', hw, hvw⟩ := hbc
  rw [hv] at hv'
  cases hv'
  exact ⟨u, w, hu, hw, huv.trans hvw⟩

theorem Newer.ne {a b : String} (h : Newer a b) : a ≠ b := by
  rintro rfl
  obtain ⟨u, v, hu, hv, huv⟩ := h
  rw [hu] at hv
  cases hv
  exact lt_irrefl u huv

/-! ## the evaluation -/

section
variable (hexDecode : String → Option Bytes) (key : VerifyingKey)

def evaluateManifest (m : UpdateManifest) (policy : UpdatePolicy) : Except UpdateError Bool :=
  match verifySignature hexDecode key m with
  | .error e => .error e
  | .ok () =>
    if m.channel ≠ policy.channel then .error (.wrongChannel m.channel policy.channel)
    else if !isSameOrigin m.url policy.downloadOrigin then .error .untrustedUrl
    else match parseVersion m.version, parseVersion policy.currentVersion with
      | .error e, _ => .error e
      | .ok _, .error e => .error e
      | .ok offered, .ok current =>
        if offered ≤ current then .error (.notNewer m.version policy.currentVersion)
        -- a machine outside the rollout slice takes the update once the percentage grows
        else .ok (policy.rolloutBucket < m.rolloutPercent)

/-- a companion is offered manifests one after the other: those it adopts -/
def adopt : UpdatePolicy → List UpdateManifest → List UpdateManifest
  | _, [] => []
  | policy, m :: offers =>
    if evaluateManifest hexDecode key m policy = .ok true then
      m :: adopt { policy with currentVersion := m.version } offers
    else adopt policy offers

end

section
variable {hexDecode : String → Option Bytes} {key : VerifyingKey} {m : UpdateManifest}
  {policy : UpdatePolicy}

theorem verifySignature_ok : verifySignature hexDecode key m = .ok () ↔ Verifies hexDecode key m := by
  unfold verifySignature Verifies
  cases decodeSignature hexDecode m.signature with
  | none => simp
  | some raw =>
    by_cases hlen : raw.length = 64
    · cases hv : key.verify m.signingPayload raw with
      | true => simp [hlen, hv]
      | false => simp [hlen, hv]
    · simp [hlen]

/-- **What an accepted manifest is**, whether it is in the rollout slice or not. -/
theorem evaluateManifest_ok {slice : Bool} (h : evaluateManifest hexDecode key m policy = .ok slice) :
    Verifies hexDecode key m ∧ m.channel = policy.channel ∧ SameOrigin m.url policy.downloadOrigin ∧
      Newer policy.currentVersion m.version ∧
      slice = decide (policy.rolloutBucket < m.rolloutPercent) := by
  unfold evaluateManifest at h
  split at h
  · cases h
  · rename_i hsigned
    split at h
    · cases h
    · rename_i hchannel
      split at h
      · cases h
      · rename_i horigin
        split at h
        · cases h
        · cases h
        · rename_i offered current hoffered hcurrent
          split at h
          · cases h
          · rename_i hnewer
            rw [Bool.not_eq_true, Bool.not_eq_false'] at horigin
            refine ⟨verifySignature_ok.mp hsigned, not_not.mp hchannel, isSameOrigin_iff.mp horigin,
              ⟨current, offered, hcurrent, hoffered, not_le.mp hnewer⟩, ?_⟩
            exact (Except.ok.inj h).symm

/-- what a companion adopts, one offer at a time -/
theorem adopt_cons (hexDecode : String → Option Bytes) (key : VerifyingKey) (policy : UpdatePolicy)
    (m : UpdateManifest) (offers : List UpdateManifest) :
    (evaluateManifest hexDecode key m policy = .ok true ∧ adopt hexDecode key policy (m :: offers) =
      m :: adopt hexDecode key { policy with currentVersion := m.version } offers) ∨
    adopt hexDecode key policy (m :: offers) = adopt hexDecode key policy offers := by
  by_cases h : evaluateManifest hexDecode key m policy = .ok true
  · exact .inl ⟨h, by rw [adopt, if_pos h]⟩
  · exact .inr (by rw [adopt, if_neg h])

/-- every adopted manifest has passed the checks -/
theorem adopt_checked (offers : List UpdateManifest) : ∀ x ∈ adopt hexDecode key policy offers,
    Verifies hexDecode key x ∧ x.channel = policy.channel ∧ SameOrigin x.url policy.downloadOrigin := by
  induction offers generalizing policy with
  | nil => exact fun x hx => absurd hx List.not_mem_nil
  | cons m offers ih =>
    intro x hx
    rcases adopt_cons hexDecode key policy m offers with ⟨hok, hadopt⟩ | hadopt
    · rw [hadopt] at hx
      obtain ⟨hsigned, hchannel, horigin, _⟩ := evaluateManifest_ok hok
      rcases List.mem_cons.mp hx with rfl | hx
      · exact ⟨hsigned, hchannel, horigin⟩
      · have hrest := ih x hx
        exact hrest
    · rw [hadopt] at hx
      exact ih x hx

/-- each adopted version is newer than the ones before it -/
theorem adopt_newer (offers : List UpdateManifest) :
    (policy.currentVersion :: (adopt hexDecode key policy offers).map (·.version)).Pairwise Newer := by
  induction offers generalizing policy with
  | nil => exact List.pairwise_singleton _ _
  | cons m offers ih =>
    rcases adopt_cons hexDecode key policy m offers with ⟨hok, hadopt⟩ | hadopt
    · rw [hadopt]
      have hnewer := (evaluateManifest_ok hok).2.2.2.1
      have hrest := @ih { policy with currentVersion := m.version }
      refine List.pairwise_cons.mpr ⟨fun v hv => ?_, hrest⟩
      rcases List.mem_cons.mp hv with rfl | hv
      · exact hnewer
      · exact hnewer.trans ((List.pairwise_cons.mp hrest).1 v hv)
    · rw [hadopt]
      exact ih

/-- **A companion only moves forward.**  What it adopts is signed, of its channel and from its origin;
the versions, from the one it started with on, are strictly increasing, so none comes twice. -/
theorem adopt_forward (hexDecode : String → Option Bytes) (key : VerifyingKey) (policy : UpdatePolicy)
    (offers : List UpdateManifest) :
    (∀ m ∈ adopt hexDecode key policy offers, Verifies hexDecode key m ∧
      m.channel = policy.channel ∧ SameOrigin m.url policy.downloadOrigin) ∧
    (policy.currentVersion :: (adopt hexDecode key policy offers).map (·.version)).Pairwise Newer ∧
    (policy.currentVersion :: (adopt hexDecode key policy offers).map (·.version)).Nodup :=
  ⟨adopt_checked offers, adopt_newer offers, (adopt_newer offers).imp Newer.ne⟩

end

end Companion
