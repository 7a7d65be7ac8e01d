import FiveProtect.Companion.SignatureText

/-!
# Companion: what a signature binds

`signing_payload` joins the fields of a manifest with line feeds, and nothing keeps a line feed out of a field.

* `signingPayload_injective`   a payload of plain lines has no other reading;
* `signature_binds`            so a signature published over one is good for no other fields.
-/

namespace Companion

/-- the lines of a payload -/
def UpdateManifest.lines (m : UpdateManifest) : List (List Char) :=
  ["fiveprotect-update-v1".toList, m.version.toList, m.sha256.toList, m.url.toList, m.channel.toList,
    (toString m.rolloutPercent).toList]

/-- no line feed in a field, as the release process signs them -/
structure UpdateManifest.Plain (m : UpdateManifest) : Prop where
  version : '\n' ∉ m.version.toList
  sha256 : '\n' ∉ m.sha256.toList
  url : '\n' ∉ m.url.toList
  channel : '\n' ∉ m.channel.toList

/-- the two agree on every signed field -/
structure SameSigned (m m' : UpdateManifest) : Prop where
  version : m'.version = m.version
  sha256 : m'.sha256 = m.sha256
  url : m'.url = m.url
  channel : m'.channel = m.channel
  rolloutPercent : m'.rolloutPercent = m.rolloutPercent

theorem percent_toList (n : UInt8) : (toString n).toList = Nat.toDigits 10 n.toNat := Nat.toList_repr

theorem percent_injective {n k : UInt8} (h : toString n = toString k) : n = k := by
  have hnumbers : toString n.toNat = toString k.toNat := h
  exact UInt8.toNat_inj.mp (Text.decimal_injective hnumbers)

theorem percent_plain (n : UInt8) : '\n' ∉ (toString n).toList := by
  rw [percent_toList]
  intro h
  exact absurd (Nat.isDigit_of_mem_toDigits (by decide) (by decide) h) (by decide)

theorem UpdateManifest.Plain.lines {m : UpdateManifest} (h : m.Plain) : ∀ l ∈ m.lines, '\n' ∉ l := by
  have hmark : '\n' ∉ "fiveprotect-update-v1".toList := by decide
  intro l hl
  simp only [UpdateManifest.lines, List.mem_cons, List.not_mem_nil, or_false] at hl
  rcases hl with rfl | rfl | rfl | rfl | rfl | rfl
  · exact hmark
  · exact h.version
  · exact h.sha256
  · exact h.url
  · exact h.channel
  · exact percent_plain m.rolloutPercent

theorem signingPayload_eq (m : UpdateManifest) :
    m.signingPayload = Text.utf8 (String.ofList (['\n'].intercalate m.lines)) := by
  have hfeed : "\n".toList = ['\n'] := by decide
  have hmark : "fiveprotect-update-v1\n".toList = "fiveprotect-update-v1".toList ++ ['\n'] := by decide
  rw [UpdateManifest.signingPayload]
  apply congrArg Text.utf8
  apply String.toList_injective
  simp only [String.toList_append, String.toList_ofList, UpdateManifest.lines, hfeed, hmark,
    List.append_assoc, List.intercalate_cons_cons, List.intercalate_singleton]

/-- **Injectivity.** A payload of plain lines is the payload of no other fields. -/
theorem signingPayload_injective {m m' : UpdateManifest} (h : m.Plain)
    (hpayload : m'.signingPayload = m.signingPayload) : SameSigned m m' := by
  rw [signingPayload_eq, signingPayload_eq] at hpayload
  have hjoined := String.ofList_injective (Text.utf8_injective hpayload)
  have hlength : m.lines.length = m'.lines.length := rfl
  have hlines := Text.joined_injective hlength h.lines hjoined.symm
  simp only [UpdateManifest.lines, List.cons.injEq, and_true, true_and, String.toList_inj] at hlines
  obtain ⟨hversion, hsha256, hurl, hchannel, hpercent⟩ := hlines
  exact ⟨hversion.symm, hsha256.symm, hurl.symm, hchannel.symm, (percent_injective hpercent).symm⟩

/-- what verifies was issued by the holder of the key, and a signature is issued over one payload only -/
structure Unforgeable (key : VerifyingKey) (issued : Bytes → Bytes → Prop) : Prop where
  verified : ∀ payload signature, key.verify payload signature = true → issued payload signature
  once : ∀ payload payload' signature,
    issued payload signature → issued payload' signature → payload' = payload

theorem verifySignature_payload {hexDecode : String → Option Bytes} {key : VerifyingKey}
    {m : UpdateManifest} {raw : Bytes} (hok : verifySignature hexDecode key m = .ok ())
    (hraw : decodeSignature hexDecode m.signature = some raw) :
    key.verify m.signingPayload raw = true := by
  obtain ⟨raw', hraw', _, hverify⟩ := verifySignature_ok.mp hok
  rw [hraw] at hraw'
  cases hraw'
  exact hverify

/-- **A signature binds every signed field.**  No other fields have the payload of a manifest of plain lines;
so the signature that was issued for it verifies under no manifest with other fields, whatever text an
attacker moves from one field to the next. -/
theorem signature_binds :
    (∀ m m' : UpdateManifest, m.Plain → m'.signingPayload = m.signingPayload → SameSigned m m') ∧
    ∀ (hexDecode : String → Option Bytes) (key : VerifyingKey) (issued : Bytes → Bytes → Prop),
      Unforgeable key issued → ∀ (m m' : UpdateManifest) (raw : Bytes), m.Plain →
      decodeSignature hexDecode m.signature = some raw → issued m.signingPayload raw →
      decodeSignature hexDecode m'.signature = some raw →
      verifySignature hexDecode key m' = .ok () → SameSigned m m' := by
  refine ⟨fun m m' hplain hpayload => signingPayload_injective hplain hpayload, ?_⟩
  intro hexDecode key issued hunforgeable m m' raw hplain _ hissued hraw hok
  have hverified := hunforgeable.verified _ _ (verifySignature_payload hok hraw)
  have hpayload := hunforgeable.once _ _ _ hissued hverified
  exact signingPayload_injective hplain hpayload

/-- a manifest with a signature of 64 zero bytes, and a key that was used for it alone -/
def published : UpdateManifest :=
  { version := "0.2.0", sha256 := "00", url := "https://x/y", channel := "stable", rolloutPercent := 50,
    signature := base64 (List.replicate 64 0) }

def onlyKey : VerifyingKey := ⟨fun payload _ => payload == published.signingPayload⟩

theorem signature_binds_published :
    published.Plain ∧ decodeSignature hexBytes published.signature = some (List.replicate 64 0) ∧
    verifySignature hexBytes onlyKey published = .ok () ∧ SameSigned published published := by
  have hplain : published.Plain := ⟨by decide, by decide, by decide, by decide⟩
  have hraw : decodeSignature hexBytes published.signature = some (List.replicate 64 0) := by
    have hpadding := padding_mem (List.replicate 64 0) (by rw [List.length_replicate]; decide)
    rw [published, decodeSignature, hexBytes_decode.other _ _ hpadding (by decide), Option.none_or]
    exact (base64Decode_base64 _).1
  have hok : verifySignature hexBytes onlyKey published = .ok () :=
    verifySignature_ok.mpr ⟨_, hraw, List.length_replicate, beq_self_eq_true _⟩
  have hunforgeable : Unforgeable onlyKey fun payload _ => payload = published.signingPayload :=
    ⟨fun _ _ h => eq_of_beq h, fun _ _ _ h h' => h'.trans h.symm⟩
  exact ⟨hplain, hraw, hok,
    signature_binds.2 hexBytes onlyKey _ hunforgeable published published _ hplain hraw rfl hraw hok⟩

end Companion
