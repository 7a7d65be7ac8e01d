import FiveProtect.Backend.System
import FiveProtect.Protocol.Names

/-!
# Backend: the command line

`services/backend/src/cli`: `provision` creates a tenant and its first server, `policy` shows or changes the tier and
the fail mode, `accept-build` puts a build on the accepted list or takes it off.  Each is a process of its own next to
the service, on the same database, and waits between its statements like a request does.

* `Cli.start`       a command up to its first statement: what its arguments mean, and what it refuses;
* `Admin`           the statements of the commands, with their parameters;
* `Command.exec`    one turn of a command;
* `Site`            the service and the commands; `Operated`: the states of all runs from the empty database that
                    the migrations leave;
* `Site.Move`       what a step does, `Operated.inv` the induction rule.
-/

namespace Backend
open Protocol Function

/-! ## arguments -/

/-- `args[args.indexOf(flag) + 1]`, if the flag is there -/
def argAfter (args : List String) (flag : String) : Option (Option String) :=
  (args.idxOf? flag).map fun i => args[i + 1]?

/-- `TIERS` -/
def tiers : List (String × PolicyTier) := [("relaxed", .relaxed), ("standard", .standard), ("strict", .strict)]

/-- `FAIL_MODES` -/
def failModes : List (String × FailMode) := [("fail_open", .fail_open), ("fail_closed", .fail_closed)]

def failModeText : FailMode → String
  | .fail_open => "fail_open"
  | .fail_closed => "fail_closed"

/-- `String(value)` -/
def stringOf (value : Option String) : String := value.getD "undefined"

/-- `valueOf`: no flag, or the value of the flag; the text for stderr if it is none of those allowed -/
def valueOf {α : Type} (args : List String) (flag : String) (allowed : List (String × α)) :
    Except String (Option α) :=
  match argAfter args flag with
  | none => .ok none
  | some value =>
    match value.bind fun value => allowed.lookup value with
    | some a => .ok (some a)
    | none => .error (flag ++ " muss eines von " ++ ", ".intercalate (allowed.map Prod.fst) ++ " sein\n")

/-- what `provision` was asked for -/
structure Provision where
  name : String
  tier : PolicyTier
  failMode : FailMode
  deriving DecidableEq

def Provision.parse (args : List String) : Except String Provision :=
  match args[0]?.filter fun name => !Text.startsWith name "--" with
  | none => .error "usage: provision <tenant name> [--tier relaxed|standard|strict] [--fail-closed]\n"
  | some name =>
    let tier := (argAfter args "--tier").getD (some "relaxed")
    match tier.bind fun tier => tiers.lookup tier with
    | none => .error ("unknown tier: " ++ stringOf tier ++ "\n")
    | some tier =>
      .ok ⟨name, tier, if args.contains "--fail-closed" then .fail_closed else .fail_open⟩

/-! ## commands -/

/-- what reaches a command: its arguments, `DATABASE_URL`, and what the runtime gives it -/
inductive Cli where
  | provision (args : List String) (databaseUrl : Option String) (entropy : NonceBytes)
  | policy (args : List String) (databaseUrl : Option String)
  /-- `file` is what `hashFile` returns for the path -/
  | acceptBuild (args : List String) (databaseUrl : Option String) (file : Option String)

/-- a command at the place where it waits -/
inductive Command where
  | insertTenant (provision : Provision) (serverKey : String)
  | insertServer (provision : Provision) (serverKey : String) (tenantId : Uuid)
  | selectTenants (tier : Option PolicyTier) (failMode : Option FailMode)
  | updateTenant (target : TenantRow) (tier : Option PolicyTier) (failMode : Option FailMode)
  /-- `buildHash` is `target.toLowerCase()` -/
  | revokeBuild (target buildHash : String)
  | upsertBuild (target version channel hash : String)
  /-- exit code 0 -/
  | printed (text : String)
  /-- exit code 1 -/
  | refused (text : String)
  /-- `main().catch`: exit code 1 -/
  | failed
  deriving DecidableEq

def noDatabase : Command := .refused "DATABASE_URL is not set\n"

/-- a command up to its first statement -/
def Cli.start (c : Ir.CaseMapping) : Cli → Command
  | .provision args databaseUrl entropy =>
    match Provision.parse args with
    | .error text => .refused text
    | .ok p => if databaseUrl.isNone then noDatabase else .insertTenant p (Text.hex entropy.bytes)
  | .policy args databaseUrl =>
    if databaseUrl.isNone then noDatabase
    else match valueOf args "--tier" tiers with
      | .error text => .refused text
      | .ok tier =>
        match valueOf args "--fail-mode" failModes with
        | .error text => .refused text
        | .ok failMode => .selectTenants tier failMode
  | .acceptBuild args databaseUrl file =>
    if databaseUrl.isNone then noDatabase
    else if args[0]? = some "--revoke" then
      match args[1]? with
      | none => .refused usage
      | some target => .revokeBuild target (String.ofList (c.toLower target.toList))
    else match args[0]? with
      | none => .refused usage
      | some target =>
        match args[1]? with
        | none => .refused "the version is required when accepting a build\n"
        | some version =>
          match file with
          | none => .failed
          | some hash =>
            .upsertBuild target version (((argAfter args "--channel").getD none).getD "stable") hash
where
  usage : String :=
    "usage: accept-build <path to FiveProtect.exe> <version> [--channel stable]\n" ++
      "       accept-build --revoke <build hash>\n"

/-! ## their statements -/

/-- the writing statements of the commands with their parameters; `none` is a `SELECT` -/
inductive Admin where
  | none
  | insertTenant (row : TenantRow)
  | insertServer (row : GameServer)
  | updateTenant (id : Uuid) (tier : PolicyTier) (failMode : FailMode)
  | revokeBuild (buildHash : String)
  | upsertBuild (buildHash : String)

namespace Admin

/-- `SET` of the `UPDATE` in `policy` -/
def onTenant (id : Uuid) (tier : PolicyTier) (failMode : FailMode) (t : TenantRow) : TenantRow :=
  if t.id = id then { t with policyTier := tier, failMode := failMode } else t

theorem onTenant_id (id : Uuid) (tier : PolicyTier) (failMode : FailMode) (t : TenantRow) :
    (onTenant id tier failMode t).id = t.id := by
  unfold onTenant
  split
  · rfl
  · rfl

/-- `SET accepted` of a build -/
def onBuild (buildHash : String) (accepted : Bool) (b : CompanionBuild) : CompanionBuild :=
  if b.buildHash = buildHash then { b with accepted := accepted } else b

theorem onBuild_hash (buildHash : String) (accepted : Bool) (b : CompanionBuild) :
    (onBuild buildHash accepted b).buildHash = b.buildHash := by
  unfold onBuild
  split
  · rfl
  · rfl

/-- runs a statement -/
def exec (db : Db) : Admin → Except SqlError Db
  | .none => .ok db
  | .insertTenant row => Write.inserted db.tenants row fun t => { db with tenants := t }
  | .insertServer row => Write.inserted db.gameServers row fun t => { db with gameServers := t }
  | .updateTenant id tier failMode => .ok { db with
      tenants := db.tenants.map (onTenant id tier failMode) (onTenant_id id tier failMode) }
  | .revokeBuild buildHash => .ok { db with
      builds := db.builds.map (onBuild buildHash false) (onBuild_hash buildHash false) }
  | .upsertBuild buildHash =>
    match db.builds.find fun b => b.buildHash == buildHash with
    | some _ => .ok { db with
        builds := db.builds.map (onBuild buildHash true) (onBuild_hash buildHash true) }
    | .none => Write.inserted db.builds ⟨buildHash, true⟩ fun t => { db with builds := t }

/-- the commands leave players, sessions and snapshots alone -/
theorem exec_frame {db db' : Db} {a : Admin} (h : a.exec db = .ok db') :
    db'.players = db.players ∧ db'.sessions = db.sessions ∧ db'.snapshots = db.snapshots := by
  cases a with
  | insertTenant row | insertServer row =>
    obtain ⟨_, _, rfl⟩ := Write.inserted_ok h
    exact ⟨rfl, rfl, rfl⟩
  | upsertBuild buildHash =>
    simp only [exec] at h
    split at h
    · cases h
      exact ⟨rfl, rfl, rfl⟩
    · obtain ⟨_, _, rfl⟩ := Write.inserted_ok h
      exact ⟨rfl, rfl, rfl⟩
  | _ =>
    cases h
    exact ⟨rfl, rfl, rfl⟩

end Admin

/-! ## what they print -/

/-- `ADDS` -/
def adds : PolicyTier → String
  | .relaxed => "Companion läuft, Testsignatur aus, Kernel-Debugger aus, FiveM auf demselben PC"
  | .standard => "+ Secure Boot, TPM 2.0, Speicherintegrität (HVCI), Treiber-Sperrliste"
  | .strict => "+ Kernel-DMA-Schutz (IOMMU)"

def joinLines (lines : List String) : String := "\n".intercalate lines

def Provision.report (p : Provision) (serverId : Uuid) (serverKey : String) : String :=
  joinLines ["", "Tenant angelegt: " ++ p.name, "  Policy-Stufe:  " ++ wire p.tier,
    "  Fail-Modus:    " ++ failModeText p.failMode, "", "In die server.cfg des FiveM-Servers:", "",
    "  set fiveprotect_server_id \"" ++ serverId.toText ++ "\"",
    "  set fiveprotect_server_key \"" ++ serverKey ++ "\"", "",
    "Der Schlüssel wird nicht gespeichert und lässt sich nicht erneut anzeigen.", ""]

/-- `policy` without a flag -/
def listTenants (rows : List TenantRow) : String :=
  "\nMandanten:\n\n" ++ String.join (rows.map fun row =>
    "  " ++ row.name ++ "\n" ++
      ("    Stufe:      " ++ wire row.policyTier ++ " — " ++ adds row.policyTier ++ "\n") ++
      ("    Fail-Modus: " ++ failModeText row.failMode ++ "\n\n")) ++
    "Ändern mit --tier <stufe> oder --fail-mode <modus>.\n\n"

def updateReport (name : String) (tier : PolicyTier) (failMode : FailMode) : String :=
  joinLines ["", name ++ " aktualisiert:", "  Stufe:      " ++ wire tier ++ " — " ++ adds tier,
    "  Fail-Modus: " ++ failModeText failMode, "",
    "Gilt ab der nächsten Verbindung. Laufende Sitzungen bleiben unberührt.", ""]

def acceptReport (target version channel hash : String) : String :=
  joinLines ["", "Build freigegeben: " ++ target, "  Version:  " ++ version, "  Kanal:    " ++ channel,
    "  Hash:     " ++ hash, ""]

/-! ## turns -/

def Command.exited : Command → Bool
  | .printed _ => true
  | .refused _ => true
  | .failed => true
  | _ => false

/-- one turn of a command; `uuid` is what `gen_random_uuid()` returns in it -/
def Command.exec (P : Platform) (uuid : Uuid) (db : Db) : Command → Admin × Command
  | .insertTenant p serverKey =>
    (.insertTenant ⟨uuid, p.name, p.tier, p.failMode, .active, false⟩, .insertServer p serverKey uuid)
  | .insertServer p serverKey tenantId =>
    (.insertServer ⟨uuid, tenantId, p.name ++ " #1", hashServerKey P serverKey, none⟩,
      .printed (p.report uuid serverKey))
  | .selectTenants tier failMode =>
    match db.tenants.rows with
    | [] => (.none, .printed "Kein Mandant angelegt. Erst `provision` ausführen.\n")
    | target :: rest =>
      if tier.isNone ∧ failMode.isNone then (.none, .printed (listTenants (target :: rest)))
      else if rest ≠ [] then
        (.none, .refused "mehr als ein Mandant — dieser Befehl kann sie nicht auseinanderhalten\n")
      else (.none, .updateTenant target tier failMode)
  | .updateTenant target tier failMode =>
    (.updateTenant target.id (tier.getD target.policyTier) (failMode.getD target.failMode),
      .printed (updateReport target.name (tier.getD target.policyTier) (failMode.getD target.failMode)))
  | .revokeBuild target buildHash =>
    (.revokeBuild buildHash, .printed (
      if db.builds.rows.any fun b => b.buildHash == buildHash then "Build zurückgezogen: " ++ target ++ "\n"
      else "Kein Build mit diesem Hash: " ++ target ++ "\n"))
  | .upsertBuild target version channel hash =>
    (.upsertBuild hash, .printed (acceptReport target version channel hash))
  | .printed text => (.none, .printed text)
  | .refused text => (.none, .refused text)
  | .failed => (.none, .failed)

/-! ## the service and the commands -/

structure Site where
  system : System
  commands : Nat → Option Command

inductive SiteEvent where
  | system (e : Event)
  | command (cid : Nat) (cli : Cli)
  /-- one turn of a command -/
  | exec (cid : Nat) (uuid : Uuid)
  /-- the turn raises an error, nothing is committed -/
  | fail (cid : Nat)
  /-- the statement of the turn is committed, but its result never arrives -/
  | lost (cid : Nat) (uuid : Uuid)

/-- the command whose statement an event may commit -/
def SiteEvent.commits? : SiteEvent → Option Nat
  | .exec cid _ => some cid
  | .lost cid _ => some cid
  | _ => none

namespace Site

def put (s : Site) (cid : Nat) (cmd : Command) : Site :=
  { s with commands := update s.commands cid (some cmd) }

def withDb (s : Site) (db : Db) : Site := { s with system := { s.system with db := db } }

/-- the command `cid`, if it has not exited -/
def running (s : Site) (cid : Nat) : Option Command := (s.commands cid).filter fun cmd => !cmd.exited

/-- a turn of a command; `crashed` if its result is lost -/
def turn (P : Platform) (s : Site) (cid : Nat) (uuid : Uuid) (crashed : Bool) (cmd : Command) : Site :=
  let (a, next) := cmd.exec P uuid s.system.db
  match a.exec s.system.db with
  | .error _ => s.put cid .failed
  | .ok db => (s.put cid (if crashed then .failed else next)).withDb db

def step (P : Platform) (c : Ir.CaseMapping) (e : SiteEvent) (s : Site) : Option Site :=
  match e with
  | .system e => (s.system.step P e).map fun system => { s with system := system }
  | .command cid cli => if (s.commands cid).isNone then some (s.put cid (cli.start c)) else none
  | .exec cid uuid => (s.running cid).map (s.turn P cid uuid false)
  | .fail cid => (s.running cid).map fun _ => s.put cid .failed
  | .lost cid uuid => (s.running cid).map (s.turn P cid uuid true)

/-- after `migrate`, before the first command -/
structure Initial (s : Site) : Prop where
  db : s.system.db = ⟨Table.empty, Table.empty, Table.empty, Table.empty, Table.empty, Table.empty⟩
  procs : s.system.procs = fun _ => none
  commands : s.commands = fun _ => none

end Site

/-- the states of all runs of the service and its commands -/
def Operated (P : Platform) (c : Ir.CaseMapping) (s : Site) : Prop :=
  ∃ s₀ : Site, s₀.Initial ∧ Machine.Steps (Site.step P c) Machine.free s₀ s

variable {P : Platform} {c : Ir.CaseMapping} {s s' : Site}

/-! ## what a step does -/

/-- a step, as far as the service, the database and the commands go -/
inductive Site.Move (P : Platform) (e : SiteEvent) (s s' : Site) : Prop
  | system (h : Backend.Move P s.system s'.system) (hcommands : s'.commands = s.commands)
  /-- a command starts, or fails -/
  | idle (cid : Nat) (cmd : Command) (hcmd : cmd = .failed ∨ ∃ c cli, cmd = Cli.start c cli)
      (hsystem : s'.system = s.system) (hcommands : s'.commands = update s.commands cid (some cmd))
  | turn (cid : Nat) (uuid : Uuid) (cmd next : Command) (he : e.commits? = some cid)
      (hcmd : s.commands cid = some cmd)
      (hnext : next = .failed ∨ next = (cmd.exec P uuid s.system.db).2)
      (hadmin : (cmd.exec P uuid s.system.db).1.exec s.system.db = .ok s'.system.db)
      (hsystem : s'.system = { s.system with db := s'.system.db })
      (hcommands : s'.commands = update s.commands cid (some next))

namespace Site

theorem of_running {cid : Nat} {cmd : Command} (h : s.running cid = some cmd) :
    s.commands cid = some cmd ∧ cmd.exited = false := by
  obtain ⟨hcmd, hexited⟩ := Option.filter_eq_some_iff.mp h
  exact ⟨hcmd, Bool.not_eq_true' _ ▸ hexited⟩

theorem turn_move {e : SiteEvent} {cid : Nat} {cmd : Command} (he : e.commits? = some cid)
    (hcmd : s.commands cid = some cmd) (uuid : Uuid) (crashed : Bool) :
    Move P e s (s.turn P cid uuid crashed cmd) := by
  unfold turn
  cases hexec : (cmd.exec P uuid s.system.db).1.exec s.system.db with
  | error e =>
    simp only [hexec]
    exact .idle cid .failed (.inl rfl) rfl rfl
  | ok db =>
    simp only [hexec]
    refine .turn cid uuid cmd _ he hcmd ?_ hexec rfl rfl
    cases crashed with
    | true => exact .inl rfl
    | false => exact .inr rfl

/-- **Every step is a move.** -/
theorem step_move {e : SiteEvent} (h : step P c e s = some s') : Move P e s s' := by
  cases e with
  | system e =>
    obtain ⟨system, hsystem, rfl⟩ := Option.map_eq_some_iff.mp h
    exact .system (System.step_move hsystem) rfl
  | command cid cli =>
    simp only [step] at h
    split at h
    · cases h
      exact .idle cid _ (.inr ⟨c, cli, rfl⟩) rfl rfl
    · cases h
  | fail cid =>
    obtain ⟨cmd, _, rfl⟩ := Option.map_eq_some_iff.mp h
    exact .idle cid .failed (.inl rfl) rfl rfl
  | exec cid uuid | lost cid uuid =>
    obtain ⟨cmd, hcmd, rfl⟩ := Option.map_eq_some_iff.mp h
    exact turn_move rfl (of_running hcmd).1 uuid _

end Site

/-- **Invariants of the site**: true of the empty database and kept by every move. -/
theorem Operated.inv (I : Site → Prop) (h0 : ∀ s, s.Initial → I s)
    (hI : ∀ e s s', I s → Site.Move P e s s' → I s') (h : Operated P c s) : I s := by
  obtain ⟨s₀, hs₀, hrun⟩ := h
  exact hrun.inv I (fun _ _ _ hs _ he => hI _ _ _ hs (Site.step_move he)) (h0 s₀ hs₀)

end Backend
