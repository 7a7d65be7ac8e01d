import FiveProtect.Companion.Probes
import FiveProtect.Companion.Worker
import FiveProtect.Lib.Grow
import FiveProtect.Protocol.RoundTrip

/-!
# Companion: the seam to the scan engine

`fiveprotect_scan_snapshot_json` of `apps/companion/native/src/abi.cpp`, and `scan` of
`apps/companion/crates/fiveprotect-companion/src/engine.rs`, which calls it with a larger buffer until its
answer fits.  The reader of JSON texts is a library: a parameter.

* `fiveprotectScanSnapshotJson`   what a call returns, and leaves in the buffer and in `written`;
* `scanStep`, `scan`              one turn of the loop, and the calls that are made;
* `scanStep_grows`                a turn that is not the last asks for more, up to `MAX_BUFFER`;
* `native_ok`, `native_again`     the terminating NUL on both sides;
* `scan_returns`                  the loop ends, and what is read is what the engine wrote.
-/

namespace Companion
open Protocol

/-! ## engine_abi.h -/

def fiveprotectOk : Int := 0
def fiveprotectErrBufferTooSmall : Int := -1
def fiveprotectErrInvalidArgument : Int := -2
def fiveprotectErrInternal : Int := -3

/-- the character that ends a C string -/
def nul : Char := Char.ofNat 0

/-- a text that C can be given -/
structure CString where
  text : String
  noNul : nul ∉ text.toList

def CString.new (text : String) : Option CString :=
  if h : nul ∈ text.toList then none else some ⟨text, h⟩

/-! ## the engine -/

/-- a `std::string`, whose size is less than half of what a `size_t` counts to -/
structure StdString where
  bytes : Bytes
  short : bytes.length < 2 ^ 63

/-- beyond that, `std::length_error` is thrown -/
def StdString.ofBytes (bytes : Bytes) : Option StdString :=
  if h : bytes.length < 2 ^ 63 then some ⟨bytes, h⟩ else none

/-- `json.size()` -/
def StdString.size (s : StdString) : UInt64 := UInt64.ofNat s.bytes.length

def cppFeature (state : FeatureState) : { value : String // value ∈ wireValues FeatureState } :=
  ⟨wire state, wire_mem state⟩

/-- the features, as the generated C++ type -/
def cppFeatures (f : SecurityFeatures) : Typed Bytes Schema.SecurityFeatures :=
  (cppFeature f.secureBoot, cppFeature f.hvci, cppFeature f.testSigning,
    cppFeature f.kernelDebugging, cppFeature f.driverBlocklist, cppFeature f.iommu,
    cppFeature f.virtualizationBasedSecurity, ())

def cppTpm (t : TpmInfo) : Typed Bytes Schema.TpmInfo :=
  (t.present, t.manufacturer.map Text.utf8, t.specVersion.map Text.utf8,
    t.attestationKeyId.map Text.utf8, ())

def cppGameProcess (g : GameProcessEvidence) : Typed Bytes Schema.GameProcessEvidence :=
  (g.pid, g.startedAtUnixMs, Text.utf8 g.imageName, g.mainWindowPresent, ())

/-- the snapshot, as the generated C++ type -/
def cppSnapshot (s : SystemSnapshot) : Typed Bytes Schema.SystemSnapshot :=
  (s.schemaVersion, Text.utf8 s.collectedAt, Text.utf8 s.companionVersion,
    Text.utf8 s.companionBuildHash, Text.utf8 s.osBuild, cppFeatures s.features, cppTpm s.tpm,
    s.gameProcess.map cppGameProcess, s.probeErrors.map Text.utf8, ())

/-- the text of the snapshot of a machine; `none` where something is thrown, as by a `source` that is
`none` -/
def snapshotJson (D : Cpp.Doubles) (source : Option SystemSource)
    (companionVersion companionBuildHash collectedAtIso : CString) : Option StdString := do
  let source ← source
  let result := runProbes source
  let snapshot := buildSnapshot result companionVersion.text companionBuildHash.text source.osBuild
    collectedAtIso.text
  let value ← Cpp.toJson Schema.SystemSnapshot (cppSnapshot snapshot)
  StdString.ofBytes (Cpp.serialize D value)

/-- what a call returns, and what its pointers point to afterwards -/
structure Returned where
  code : Int
  buffer : Option Bytes
  written : Option UInt64

/-- `fiveprotect_scan_snapshot_json`; a pointer that is `none` is null -/
def fiveprotectScanSnapshotJson (D : Cpp.Doubles) (source : Option SystemSource)
    (companionVersion companionBuildHash collectedAtIso : Option CString) (buffer : Option Bytes)
    (bufferSize : UInt64) (written : Option UInt64) : Returned :=
  match companionVersion, companionBuildHash, collectedAtIso, written with
  | some version, some hash, some time, some _ =>
    match snapshotJson D source version hash time with
    | none => ⟨fiveprotectErrInternal, buffer, written⟩
    | some json =>
      match buffer with
      | none => ⟨fiveprotectErrBufferTooSmall, none, some json.size⟩
      | some bytes =>
        if bufferSize < json.size + 1 then
          ⟨fiveprotectErrBufferTooSmall, some bytes, some json.size⟩
        else
          ⟨fiveprotectOk, some (json.bytes ++ 0 :: bytes.drop (json.bytes.length + 1)), some json.size⟩
  | _, _, _, _ => ⟨fiveprotectErrInvalidArgument, buffer, written⟩

/-! ## String::from_utf8 -/

/-- the ranges of the bytes that a first byte asks for behind it, if it is one -/
def followers (first : UInt8) : Option (List (UInt8 × UInt8)) :=
  if first < 0x80 then some []
  else if first < 0xC2 then none
  else if first < 0xE0 then some [(0x80, 0xBF)]
  else if first = 0xE0 then some [(0xA0, 0xBF), (0x80, 0xBF)]
  else if first = 0xED then some [(0x80, 0x9F), (0x80, 0xBF)]
  else if first < 0xF0 then some [(0x80, 0xBF), (0x80, 0xBF)]
  else if first = 0xF0 then some [(0x90, 0xBF), (0x80, 0xBF), (0x80, 0xBF)]
  else if first < 0xF4 then some [(0x80, 0xBF), (0x80, 0xBF), (0x80, 0xBF)]
  else if first = 0xF4 then some [(0x80, 0x8F), (0x80, 0xBF), (0x80, 0xBF)]
  else none

/-- a `Utf8Error`: `valid_up_to` and `error_len`.  `pending` bytes are missing from a sequence of which
`seen` bytes have been read -/
def utf8Error (validUpTo seen : Nat) (pending : List (UInt8 × UInt8)) :
    Bytes → Option (Nat × Option Nat)
  | [] => if pending.isEmpty then none else some (validUpTo, none)
  | b :: bytes =>
    match pending with
    | [] =>
      match followers b with
      | none => some (validUpTo, some 1)
      | some [] => utf8Error (validUpTo + 1) 0 [] bytes
      | some pending => utf8Error validUpTo 1 pending bytes
    | range :: pending =>
      if range.1 ≤ b ∧ b ≤ range.2 then
        if pending.isEmpty then utf8Error (validUpTo + seen + 1) 0 [] bytes
        else utf8Error validUpTo (seen + 1) pending bytes
      else some (validUpTo, some seen)

/-- the text of a `Utf8Error` -/
def utf8ErrorText : Nat × Option Nat → String
  | (validUpTo, some n) =>
    "invalid utf-8 sequence of " ++ toString n ++ " bytes from index " ++ toString validUpTo
  | (validUpTo, none) => "incomplete utf-8 byte sequence from index " ++ toString validUpTo

def fromUtf8 (bytes : Bytes) : Except String String :=
  match String.fromUTF8? bytes.toByteArray with
  | some text => .ok text
  | none => .error (((utf8Error 0 0 [] bytes).map utf8ErrorText).getD "")

/-! ## scan -/

def initialBuffer : UInt64 := 64 * 1024
def maxBuffer : UInt64 := 4 * 1024 * 1024

/-- `usize::saturating_add` -/
def saturatingAdd (a b : UInt64) : UInt64 := UInt64.ofNatClamp (a.toNat + b.toNat)

/-- what a call with a buffer of `capacity` bytes comes back with -/
structure Answer (capacity : UInt64) where
  code : Int
  written : UInt64
  buffer : Bytes
  allocated : buffer.length = capacity.toNat

/-- an engine that may answer in any way, and each call in another -/
abbrev Engine := CString → CString → CString → Nat → (capacity : UInt64) → Answer capacity

/-- `buffer.truncate(written)` -/
def Answer.json {capacity : UInt64} (answer : Answer capacity) : Bytes :=
  answer.buffer.take answer.written.toNat

/-- what the bytes of an answer are read as -/
def readSnapshot (fromStr : String → Except String SystemSnapshot) (bytes : Bytes) :
    Except ScanError SystemSnapshot := do
  let json ← (fromUtf8 bytes).mapError .malformed
  (fromStr json).mapError .malformed

/-- one turn of the loop -/
def scanStep (fromStr : String → Except String SystemSnapshot) {capacity : UInt64}
    (answer : Answer capacity) : Grow.Attempt UInt64 (Except ScanError SystemSnapshot) :=
  if answer.code = fiveprotectOk then .done (readSnapshot fromStr answer.json)
  else if answer.code = fiveprotectErrBufferTooSmall then
    let required := saturatingAdd answer.written 1
    if maxBuffer < required ∨ required ≤ capacity then .done (.error (.tooLarge required.toNat))
    else .again required
  else .done (.error (.engine answer.code))

def argument (name text : String) : Except ScanError CString :=
  match CString.new text with
  | some c => .ok c
  | none => .error (.argument name)

/-- the arguments of the calls -/
def cStrings (companionVersion buildHash collectedAt : String) :
    Except ScanError (CString × CString × CString) := do
  let version ← argument "companion_version" companionVersion
  let hash ← argument "build_hash" buildHash
  let time ← argument "collected_at" collectedAt
  return (version, hash, time)

/-- the capacities of the calls and the result; `none` where `fuel` calls do not do -/
def scan (fromStr : String → Except String SystemSnapshot) (engine : Engine)
    (companionVersion buildHash collectedAt : String) (fuel : Nat) :
    Option (List UInt64 × Except ScanError SystemSnapshot) :=
  match cStrings companionVersion buildHash collectedAt with
  | .error e => some ([], .error e)
  | .ok (version, hash, time) =>
    Grow.tries (fun call capacity => scanStep fromStr (engine version hash time call capacity)) fuel 0
      initialBuffer

/-! ## the loop -/

theorem argument_ok {name text : String} (h : nul ∉ text.toList) :
    argument name text = .ok ⟨text, h⟩ := by
  unfold argument CString.new
  rw [dif_neg h]

theorem cStrings_ok {companionVersion buildHash collectedAt : String}
    (hversion : nul ∉ companionVersion.toList) (hhash : nul ∉ buildHash.toList)
    (htime : nul ∉ collectedAt.toList) : cStrings companionVersion buildHash collectedAt =
      .ok (⟨companionVersion, hversion⟩, ⟨buildHash, hhash⟩, ⟨collectedAt, htime⟩) := by
  unfold cStrings
  rw [argument_ok hversion, argument_ok hhash, argument_ok htime]
  rfl

/-- one more, where there is one more -/
theorem saturatingAdd_one {written : UInt64} (h : written.toNat + 1 < 2 ^ 64) :
    (saturatingAdd written 1).toNat = written.toNat + 1 :=
  UInt64.toNat_ofNatClamp_of_lt h

section
variable (fromStr : String → Except String SystemSnapshot)

theorem scanStep_again {capacity next : UInt64} {answer : Answer capacity}
    (h : scanStep fromStr answer = .again next) : capacity < next ∧ next ≤ maxBuffer := by
  unfold scanStep at h
  split at h
  · cases h
  split at h
  · dsimp only at h
    split at h
    · cases h
    · rename_i hroom
      cases h
      rw [not_or, UInt64.not_lt, UInt64.not_le] at hroom
      exact ⟨hroom.2, hroom.1⟩
  · cases h

theorem scanStep_ok {capacity : UInt64} {answer : Answer capacity} (h : answer.code = fiveprotectOk) :
    scanStep fromStr answer = .done (readSnapshot fromStr answer.json) :=
  if_pos h

/-- whatever the calls answer -/
theorem scanStep_grows (answers : Nat → (capacity : UInt64) → Answer capacity) :
    Grow.Grows UInt64.toNat maxBuffer.toNat fun call capacity =>
      scanStep fromStr (answers call capacity) := by
  intro call capacity next h
  obtain ⟨hlarger, hlimit⟩ := scanStep_again fromStr h
  exact ⟨UInt64.lt_iff_toNat_lt.mp hlarger, UInt64.le_iff_toNat_le.mp hlimit⟩

theorem scan_ok {engine : Engine} {companionVersion buildHash collectedAt : String}
    {version hash time : CString} {capacities : List UInt64}
    {result : Except ScanError SystemSnapshot} {fuel : Nat}
    (hargs : cStrings companionVersion buildHash collectedAt = .ok (version, hash, time))
    (h : Grow.Tried (fun call capacity => scanStep fromStr (engine version hash time call capacity)) 0
      initialBuffer capacities result) (hfuel : capacities.length ≤ fuel) :
    scan fromStr engine companionVersion buildHash collectedAt fuel = some (capacities, result) := by
  unfold scan
  rw [hargs]
  exact h.tries fuel hfuel

/-- **The loop ends.** -/
theorem scan_ends (engine : Engine) (companionVersion buildHash collectedAt : String) :
    ∃ capacities result,
      (∀ fuel, maxBuffer.toNat - initialBuffer.toNat < fuel →
        scan fromStr engine companionVersion buildHash collectedAt fuel = some (capacities, result)) ∧
      capacities.Pairwise (· < ·) ∧ ∀ c ∈ capacities, c ≤ maxBuffer := by
  cases hargs : cStrings companionVersion buildHash collectedAt with
  | error e =>
    refine ⟨[], .error e, ?_, List.Pairwise.nil, fun c hc => absurd hc List.not_mem_nil⟩
    intro fuel _
    unfold scan
    rw [hargs]
  | ok strings =>
    obtain ⟨version, hash, time⟩ := strings
    have hgrows := scanStep_grows fromStr fun call capacity =>
      engine version hash time call capacity
    obtain ⟨capacities, result, htried, hlength⟩ := Grow.exists_tried hgrows 0 initialBuffer
    obtain ⟨hgrowing, hbounds⟩ := htried.growing hgrows
    refine ⟨capacities, result, fun fuel hfuel => scan_ok fromStr hargs htried (by omega), ?_, ?_⟩
    · exact hgrowing.imp fun h => UInt64.lt_iff_toNat_lt.mpr h
    · intro c hc
      have hinitial : initialBuffer.toNat ≤ maxBuffer.toNat := by decide
      have hmax := (hbounds c hc).2
      rw [Nat.max_eq_right hinitial] at hmax
      exact UInt64.le_iff_toNat_le.mpr hmax

end

/-! ## the engine as it is built -/

theorem StdString.size_toNat (s : StdString) : s.size.toNat = s.bytes.length := by
  have hshort := s.short
  rw [StdString.size, UInt64.toNat_ofNat', Nat.mod_eq_of_lt (by omega)]

/-- the size with the terminating NUL is a `size_t` -/
theorem StdString.size_succ (s : StdString) : (s.size + 1).toNat = s.bytes.length + 1 := by
  have hshort := s.short
  have hone : (1 : UInt64).toNat = 1 := rfl
  rw [UInt64.toNat_add, s.size_toNat, hone, Nat.mod_eq_of_lt (by omega)]

section
variable (D : Cpp.Doubles)

theorem native_returned (source : Option SystemSource) (version hash time : CString) (bytes : Bytes)
    (capacity written : UInt64) :
    fiveprotectScanSnapshotJson D source (some version) (some hash) (some time) (some bytes) capacity
        (some written) =
      match snapshotJson D source version hash time with
      | none => ⟨fiveprotectErrInternal, some bytes, some written⟩
      | some json =>
        if capacity.toNat < json.bytes.length + 1 then
          ⟨fiveprotectErrBufferTooSmall, some bytes, some json.size⟩
        else
          ⟨fiveprotectOk, some (json.bytes ++ 0 :: bytes.drop (json.bytes.length + 1)),
            some json.size⟩ := by
  unfold fiveprotectScanSnapshotJson
  dsimp only
  cases snapshotJson D source version hash time with
  | none => rfl
  | some json =>
    have hsize : capacity < json.size + 1 ↔ capacity.toNat < json.bytes.length + 1 := by
      rw [UInt64.lt_iff_toNat_lt, json.size_succ]
    exact if_congr hsize rfl rfl

/-- the buffer keeps its length -/
theorem native_buffer (source : Option SystemSource) (version hash time : CString) {bytes : Bytes}
    {capacity : UInt64} (written : UInt64) (h : bytes.length = capacity.toNat) :
    ((fiveprotectScanSnapshotJson D source (some version) (some hash) (some time) (some bytes)
      capacity (some written)).buffer.getD []).length = capacity.toNat := by
  rw [native_returned]
  cases snapshotJson D source version hash time with
  | none => exact h
  | some json =>
    dsimp only
    split
    · exact h
    · rename_i hroom
      show (json.bytes ++ 0 :: bytes.drop (json.bytes.length + 1)).length = capacity.toNat
      rw [List.length_append, List.length_cons, List.length_drop]
      omega

/-- the engine, called by `scan`, on the machine as it is at each call -/
def nativeEngine (machine : Nat → Option SystemSource) : Engine :=
  fun version hash time call capacity =>
    let returned := fiveprotectScanSnapshotJson D (machine call) (some version) (some hash) (some time)
      (some (List.replicate capacity.toNat 0)) capacity (some 0)
    { code := returned.code
      written := returned.written.getD 0
      buffer := returned.buffer.getD []
      allocated := native_buffer D _ _ _ _ _ List.length_replicate }

variable (machine : Nat → Option SystemSource) (version hash time : CString) (call : Nat)
  (capacity : UInt64)

/-- what `scan` gets -/
theorem native_answer {json : StdString} (h : snapshotJson D (machine call) version hash time = some json) :
    (json.bytes.length + 1 ≤ capacity.toNat →
      (nativeEngine D machine version hash time call capacity).code = fiveprotectOk ∧
      (nativeEngine D machine version hash time call capacity).json = json.bytes) ∧
    (capacity.toNat < json.bytes.length + 1 →
      (nativeEngine D machine version hash time call capacity).code = fiveprotectErrBufferTooSmall ∧
      (nativeEngine D machine version hash time call capacity).written = json.size) := by
  have hreturned := native_returned D (machine call) version hash time
    (List.replicate capacity.toNat 0) capacity 0
  rw [h] at hreturned
  dsimp only at hreturned
  constructor
  · intro hfits
    rw [if_neg (Nat.not_lt.mpr hfits)] at hreturned
    unfold Answer.json nativeEngine
    dsimp only
    rw [hreturned]
    refine ⟨rfl, ?_⟩
    show (json.bytes ++ 0 :: _).take json.size.toNat = json.bytes
    rw [json.size_toNat, List.take_left]
  · intro hshort
    rw [if_pos hshort] at hreturned
    unfold nativeEngine
    dsimp only
    rw [hreturned]
    exact ⟨rfl, rfl⟩

/-- **What is parsed.** It is the text that the call wrote, without the terminating NUL. -/
theorem native_ok
    (hok : (nativeEngine D machine version hash time call capacity).code = fiveprotectOk) :
    ∃ json, snapshotJson D (machine call) version hash time = some json ∧
      (nativeEngine D machine version hash time call capacity).json = json.bytes := by
  cases hjson : snapshotJson D (machine call) version hash time with
  | none =>
    have hreturned := native_returned D (machine call) version hash time
      (List.replicate capacity.toNat 0) capacity 0
    rw [hjson] at hreturned
    unfold nativeEngine at hok
    dsimp only at hok
    rw [hreturned] at hok
    have hcode : fiveprotectErrInternal = fiveprotectOk := hok
    exact absurd hcode (by decide)
  | some json =>
    obtain ⟨hfits, hshort⟩ := native_answer D machine version hash time call capacity hjson
    refine ⟨json, rfl, (hfits ?_).2⟩
    by_contra hroom
    rw [(hshort (Nat.not_le.mp hroom)).1] at hok
    exact absurd hok (by decide)

variable {machine version hash time call capacity} {D}
variable (fromStr : String → Except String SystemSnapshot)

theorem native_done {json : StdString}
    (h : snapshotJson D (machine call) version hash time = some json)
    (hfits : json.bytes.length + 1 ≤ capacity.toNat) :
    scanStep fromStr (nativeEngine D machine version hash time call capacity) =
      .done (readSnapshot fromStr json.bytes) := by
  obtain ⟨hcode, hbytes⟩ := (native_answer D machine version hash time call capacity h).1 hfits
  rw [scanStep_ok fromStr hcode, hbytes]

/-- **The terminating NUL.** What is asked for is what the engine then needs. -/
theorem native_again {json : StdString}
    (h : snapshotJson D (machine call) version hash time = some json)
    (hshort : capacity.toNat < json.bytes.length + 1)
    (hlimit : json.bytes.length + 1 ≤ maxBuffer.toNat) :
    ∃ next, scanStep fromStr (nativeEngine D machine version hash time call capacity) = .again next ∧
      next.toNat = json.bytes.length + 1 := by
  obtain ⟨hcode, hwritten⟩ := (native_answer D machine version hash time call capacity h).2 hshort
  have hmax : maxBuffer.toNat < 2 ^ 64 := UInt64.toNat_lt maxBuffer
  have hnext : (saturatingAdd json.size 1).toNat = json.bytes.length + 1 := by
    rw [saturatingAdd_one (by rw [json.size_toNat]; omega), json.size_toNat]
  refine ⟨saturatingAdd json.size 1, ?_, hnext⟩
  unfold scanStep
  rw [hcode, hwritten, if_neg (by decide), if_pos rfl]
  dsimp only
  rw [if_neg]
  rw [not_or, UInt64.not_lt, UInt64.not_le, UInt64.le_iff_toNat_le, UInt64.lt_iff_toNat_lt, hnext]
  exact ⟨hlimit, hshort⟩

/-- a text whose length does not change is read after at most two calls -/
theorem native_tried {n : Nat}
    (h : ∀ call, ∃ json, snapshotJson D (machine call) version hash time = some json ∧
      json.bytes.length = n) (hlimit : n + 1 ≤ maxBuffer.toNat) :
    ∃ capacities json, capacities.length ≤ 2 ∧
      snapshotJson D (machine (capacities.length - 1)) version hash time = some json ∧
      Grow.Tried (fun call capacity =>
          scanStep fromStr (nativeEngine D machine version hash time call capacity)) 0 initialBuffer
        capacities (readSnapshot fromStr json.bytes) := by
  obtain ⟨first, hfirst, hlength⟩ := h 0
  by_cases hfits : n + 1 ≤ initialBuffer.toNat
  · refine ⟨[initialBuffer], first, Nat.le_succ 1, hfirst, .done ?_⟩
    exact native_done fromStr hfirst (by omega)
  · have hshort : initialBuffer.toNat < first.bytes.length + 1 := by omega
    obtain ⟨next, hagain, hnext⟩ := native_again fromStr hfirst hshort (by omega)
    obtain ⟨second, hsecond, hsame⟩ := h 1
    refine ⟨[initialBuffer, next], second, Nat.le_refl 2, hsecond, .again hagain (.done ?_)⟩
    exact native_done fromStr hsecond (by omega)

end

/-- **The scan.** It ends, whatever the engine answers; with the engine as it is built, what is parsed is
what was written, and a text whose length stays the same is read after at most two calls. -/
theorem scan_returns (fromStr : String → Except String SystemSnapshot)
    (companionVersion buildHash collectedAt : String) :
    (∀ engine : Engine, ∃ capacities result,
      (∀ fuel, maxBuffer.toNat - initialBuffer.toNat < fuel →
        scan fromStr engine companionVersion buildHash collectedAt fuel = some (capacities, result)) ∧
      capacities.Pairwise (· < ·) ∧ ∀ c ∈ capacities, c ≤ maxBuffer) ∧
    (∀ D machine version hash time call capacity,
      (nativeEngine D machine version hash time call capacity).code = fiveprotectOk →
      ∃ json, snapshotJson D (machine call) version hash time = some json ∧
        (nativeEngine D machine version hash time call capacity).json = json.bytes ∧
        scanStep fromStr (nativeEngine D machine version hash time call capacity) =
          .done (readSnapshot fromStr json.bytes)) ∧
    ∀ D machine version hash time n,
      cStrings companionVersion buildHash collectedAt = .ok (version, hash, time) →
      (∀ call, ∃ json, snapshotJson D (machine call) version hash time = some json ∧
        json.bytes.length = n) →
      n + 1 ≤ maxBuffer.toNat →
      ∃ capacities json, capacities.length ≤ 2 ∧
        snapshotJson D (machine (capacities.length - 1)) version hash time = some json ∧
        ∀ fuel, 2 ≤ fuel → scan fromStr (nativeEngine D machine) companionVersion buildHash collectedAt
          fuel = some (capacities, readSnapshot fromStr json.bytes) := by
  refine ⟨fun engine => scan_ends fromStr engine companionVersion buildHash collectedAt, ?_, ?_⟩
  · intro D machine version hash time call capacity hok
    obtain ⟨json, hjson, hbytes⟩ := native_ok D machine version hash time call capacity hok
    exact ⟨json, hjson, hbytes, by rw [scanStep_ok fromStr hok, hbytes]⟩
  · intro D machine version hash time n hargs hjson hlimit
    obtain ⟨capacities, json, hcalls, hlast, htried⟩ := native_tried fromStr hjson hlimit
    exact ⟨capacities, json, hcalls, hlast, fun fuel hfuel =>
      scan_ok fromStr hargs htried (hcalls.trans hfuel)⟩

/-- a machine that answers everything -/
def healthySource : SystemSource :=
  { sourceBlockedBy "" with hvciEnabled := some true, hvciBlockingDriver := none }

def someTime : String := "2026-08-04T14:22:31.412Z"

/-- its snapshot, of which the JSON library makes what was written -/
def healthySnapshot : SystemSnapshot :=
  buildSnapshot (runProbes healthySource) "0.1.0" someBuildHash healthySource.osBuild someTime

theorem scan_returns_healthy :
    ∃ capacities json, capacities.length ≤ 2 ∧
      snapshotJson Cpp.noDoubles (some healthySource) ⟨"0.1.0", by decide⟩
        ⟨someBuildHash, by decide +kernel⟩ ⟨someTime, by decide⟩ = some json ∧
      ∀ fuel, 2 ≤ fuel → scan (fun _ => .ok healthySnapshot)
        (nativeEngine Cpp.noDoubles fun _ => some healthySource) "0.1.0" someBuildHash someTime fuel =
          some (capacities, readSnapshot (fun _ => .ok healthySnapshot) json.bytes) := by
  have hfits : ((snapshotJson Cpp.noDoubles (some healthySource) ⟨"0.1.0", by decide⟩
      ⟨someBuildHash, by decide +kernel⟩ ⟨someTime, by decide⟩).any fun json =>
        json.bytes.length + 1 ≤ maxBuffer.toNat) = true := by decide +kernel
  obtain ⟨json, hjson, hlimit⟩ := (Option.any_eq_true _ _).mp hfits
  exact (scan_returns (fun _ => .ok healthySnapshot) "0.1.0" someBuildHash someTime).2.2
    Cpp.noDoubles (fun _ => some healthySource) _ _ _ json.bytes.length
    (cStrings_ok (by decide) (by decide +kernel) (by decide)) (fun _ => ⟨json, hjson, rfl⟩)
    (of_decide_eq_true hlimit)

end Companion
