import FiveProtect.Backend.Policy

/-!
# Backend: the text on the block screen

`services/backend/src/attestation/remediation.ts`, with the texts as the source has them.
-/

namespace Backend
open Protocol

def requirementText : RequirementId → Option (Option String → String)
  | .secure_boot_enabled => some fun _ =>
    "Secure Boot ist deaktiviert. Starte den Rechner neu, öffne mit Entf oder F2 das " ++
    "UEFI-Menü und aktiviere unter „Boot\" oder „Security\" die Option Secure Boot. " ++
    "Ist der Eintrag ausgegraut, stelle den Boot-Modus zuerst von Legacy/CSM auf UEFI um."
  | .hvci_enabled => some fun detail =>
    match detail with
    | none =>
      "Die Speicherintegrität ist abgeschaltet. Öffne Windows-Sicherheit → " ++
      "Gerätesicherheit → Kernisolierung und schalte die Speicherintegrität ein. " ++
      "Danach ist ein Neustart nötig."
    | some detail =>
      "Die Speicherintegrität ist abgeschaltet, weil ein Treiber sie blockiert (" ++ detail ++
      ("). " ++
      "Deinstalliere die zugehörige Software oder aktualisiere sie, und aktiviere " ++
      "danach unter Windows-Sicherheit → Gerätesicherheit → Kernisolierung die " ++
      "Speicherintegrität.")
  | .tpm_attestation_valid => some fun _ =>
    "Es wurde kein TPM 2.0 gefunden. Aktiviere es im UEFI-Menü — bei Intel heißt die " ++
    "Option meist „PTT\" oder „Platform Trust Technology\", bei AMD „fTPM\". Ältere " ++
    "Mainboards ohne TPM können an diesem Server nicht teilnehmen."
  | .test_signing_disabled => some fun _ =>
    "Der Testsignaturmodus von Windows ist aktiv. Öffne die Eingabeaufforderung als " ++
    "Administrator, führe „bcdedit /set testsigning off\" aus und starte neu."
  | .kernel_debugging_disabled => some fun _ =>
    "Das Kernel-Debugging ist aktiv. Öffne die Eingabeaufforderung als Administrator, " ++
    "führe „bcdedit /debug off\" aus und starte neu."
  | .driver_blocklist_enabled => some fun _ =>
    "Die Microsoft-Sperrliste für angreifbare Treiber ist deaktiviert. Aktiviere sie " ++
    "unter Windows-Sicherheit → App- & Browsersteuerung → Exploit-Schutz → " ++
    "Einstellungen für die Sperrliste angreifbarer Treiber."
  | .iommu_enabled => some fun _ =>
    "Der Kernel-DMA-Schutz ist nicht aktiv. Aktiviere im UEFI-Menü die Virtualisierung " ++
    "(VT-d bei Intel, AMD-Vi bei AMD) und die Speicherintegrität in Windows."
  | .game_process_present => some fun _ =>
    "FiveProtect konnte FiveM auf diesem Rechner nicht finden. Starte FiveM und FiveProtect auf " ++
    "demselben PC und versuche es erneut."
  | .network_origin_matches => some fun _ =>
    "FiveProtect läuft offenbar auf einem anderen Rechner als FiveM. Beide müssen auf " ++
    "demselben PC laufen."
  | .vulnerable_drivers_absent => some fun _ =>
    "Auf dem System ist ein Treiber geladen, der als angreifbar bekannt ist. " ++
    "Deinstalliere die zugehörige Software und versuche es erneut."
  | .companion_attested => none

def reasonText : DenyReason → Option String
  | .companion_missing => some
    "FiveProtect läuft nicht. Starte die Anwendung und verbinde dich danach erneut."
  | .companion_timeout => some
    ("FiveProtect hat nicht rechtzeitig geantwortet. Starte die Anwendung neu und versuche es " ++
    "noch einmal.")
  | .companion_outdated => some
    ("Deine FiveProtect-Version ist veraltet. Starte die Anwendung neu — sie aktualisiert sich " ++
    "selbst — und verbinde dich danach erneut.")
  | .attestation_invalid => some
    "Die Systemprüfung war fehlerhaft. Starte FiveProtect neu und versuche es erneut."
  | .nonce_expired => some
    "Die Prüfung hat zu lange gedauert. Versuche es einfach noch einmal."
  | .nonce_reused => some
    "Die Prüfung war bereits abgeschlossen. Versuche es noch einmal."
  | .heartbeat_lost => some
    ("FiveProtect hat sich während des Spiels beendet. Starte die Anwendung und verbinde dich " ++
    "erneut.")
  | .backend_unavailable => some
    ("Der Anticheat-Dienst ist gerade nicht erreichbar. Bitte versuche es in ein paar " ++
    "Minuten erneut.")
  | .banned => some "Dieser Account ist auf diesem Server gesperrt."
  | .network_origin_mismatch => none
  | .game_process_missing => none
  | .policy_not_met => none

def unreadableNote : String :=
  "\n\nHinweis: FiveProtect konnte diesen Punkt nicht sicher auslesen. " ++
  "Wenn die Einstellung bereits stimmt, hilft meist ein Neustart von FiveProtect " ++
  "mit Administratorrechten."

def isBlocking (entry : RequirementResult) : Bool :=
  entry.status = .fail || entry.status = .unknown

/-- the text for one requirement that is not met -/
def blockingText (entry : RequirementResult) : Option String :=
  (requirementText entry.requirement).map fun text =>
    if entry.status = .unknown then text entry.detail ++ unreadableNote else text entry.detail

def buildRemediation (reasons : List DenyReason) (requirements : List RequirementResult) :
    Option String :=
  match (requirements.find? isBlocking).bind blockingText with
  | some text => some text
  | none => reasons.findSome? reasonText

end Backend
