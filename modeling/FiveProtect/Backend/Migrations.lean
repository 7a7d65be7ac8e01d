import FiveProtect.Lib.Run
import FiveProtect.Lib.Text
import Mathlib.Data.List.Lex
import Mathlib.Data.List.Sort

/-!
# Backend: migrations

`migrate` of `services/backend/src/db/migrate.ts`, any number of calls of it at once.  An event is one SQL
statement of one call, or the end of a call wherever it stands.  PostgreSQL gives each transaction a view of
its own; of a view that another transaction has committed under, nothing is assumed.

* `step`            one statement of one call, with all that it may find;
* `names_eq`        a call that may commit a file finds exactly the files before it in the ledger;
* `Inv`, `step_inv` so nothing was committed since it began, and its view is what it commits;
* `migrated_prefix` the ledger is a prefix of the files, and the schema is what these files make.
-/

namespace Backend.Migrations

/-- the files of `migrations/`; a statement of a file is a step of the schema, or fails -/
structure Directory (Statement : Type) where
  names : List String
  nodup : names.Nodup
  statements : String → List Statement

/-- `readdir` gives the names in some order: those of SQL files, sorted -/
def filesOf (names : List String) : List String :=
  (names.filter fun name => ".sql".toList.isSuffixOf name.toList).insertionSort
    fun a b => Text.codeUnits a ≤ Text.codeUnits b

/-- what is committed: the rows of `schema_migrations` in their order, if there is one, and the rest -/
structure Database (Schema : Type) where
  ledger : Option (List String)
  schema : Schema
  /-- how many transactions were committed -/
  commits : Nat

/-- a transaction, and how many others were committed when it began -/
structure Transaction (Schema : Type) where
  view : Schema
  since : Nat

/-- the variables of the loop; `files` are those that are still to come -/
structure Locals where
  applied : List String
  files : List String
  ran : List String

/-- where a call stands -/
inductive Call (Statement Schema : Type)
  | started
  | created
  | looping (l : Locals)
  | running (l : Locals) (file : String) (t : Transaction Schema) (rest : List Statement)
  | inserted (l : Locals) (file : String) (t : Transaction Schema)
  | returned (ran : List String)
  /-- it has thrown, or has crashed: its transaction is rolled back -/
  | failed

/-- the next statement of a call. `ok` is false when it fails, whatever the reason; `elsewhere` is the view,
should another transaction have been committed -/
inductive Action (Schema : Type)
  | create (ok : Bool)
  | select (ok : Bool) (entries : List String)
  | next (ok : Bool)
  | statement (ok : Bool) (elsewhere : Schema)
  | insert (ok : Bool)
  | commit (ok : Bool) (elsewhere : Schema)
  | crash

inductive Event (Schema : Type)
  | call
  | act (i : Nat) (a : Action Schema)

structure State (Statement Schema : Type) where
  db : Database Schema
  calls : List (Call Statement Schema)

variable {Statement Schema : Type}

def Database.names (db : Database Schema) : List String := db.ledger.getD []

def Directory.files (d : Directory Statement) : List String := filesOf d.names

/-- the call has inserted the name and not committed it yet -/
def Call.holds (file : String) : Call Statement Schema → Bool
  | .inserted _ f _ => f == file
  | _ => false

/-- the view of a transaction, which is its own as long as nothing is committed -/
def Transaction.see (t : Transaction Schema) (db : Database Schema) (own elsewhere : Schema) : Schema :=
  if t.since = db.commits then own else elsewhere

section
variable (d : Directory Statement) (exec : Statement → Schema → Option Schema)

/-- what a statement does to the database and to the call that makes it; `none` while it waits -/
def act (s : State Statement Schema) : Action Schema → Call Statement Schema →
    Option (Database Schema × Call Statement Schema)
  | .create ok, .started =>
    -- CREATE TABLE IF NOT EXISTS
    if ok then some ({ s.db with ledger := some s.db.names }, .created) else some (s.db, .failed)
  | .select ok entries, .created =>
    if ¬entries.Perm d.names then none
    else match ok, s.db.ledger with
      | true, some names => some (s.db, .looping ⟨names, filesOf entries, []⟩)
      | _, _ => some (s.db, .failed)
  | .next ok, .looping l =>
    match l.files with
    | [] => some (s.db, .returned l.ran)
    | file :: files =>
      if l.applied.contains file then some (s.db, .looping { l with files })
      -- readFile, connect and BEGIN
      else if ok then
        some (s.db, .running { l with files } file ⟨s.db.schema, s.db.commits⟩ (d.statements file))
      else some (s.db, .failed)
  | .statement ok elsewhere, .running l file t (statement :: rest) =>
    match ok, exec statement t.view with
    | true, some view => some (s.db, .running l file { t with view := t.see s.db view elsewhere } rest)
    | true, none =>
      if t.since = s.db.commits then some (s.db, .failed)
      else some (s.db, .running l file { t with view := elsewhere } rest)
    | false, _ => some (s.db, .failed)
  | .insert ok, .running l file t [] =>
    if !ok then some (s.db, .failed)
    -- the unique key: a name that another transaction has inserted is waited for
    else if s.calls.any (Call.holds file) then none
    else if s.db.names.contains file then some (s.db, .failed)
    else some (s.db, .inserted l file t)
  | .commit ok elsewhere, .inserted l file t =>
    if ok then
      some (⟨some (s.db.names ++ [file]), t.see s.db t.view elsewhere, s.db.commits + 1⟩,
        .looping { l with ran := l.ran ++ [file] })
    else some (s.db, .failed)
  | .crash, _ => some (s.db, .failed)
  | _, _ => none

def step : Event Schema → State Statement Schema → Option (State Statement Schema)
  | .call, s => some { s with calls := s.calls ++ [.started] }
  | .act i a, s =>
    s.calls[i]?.bind fun c => (act d exec s a c).map fun (db, c') => ⟨db, s.calls.set i c'⟩

/-- a database without the ledger -/
def start (schema : Schema) : State Statement Schema := ⟨⟨none, schema, 0⟩, []⟩

/-! ## what files make of a schema -/

def execAll (statements : List Statement) (schema : Schema) : Option Schema :=
  statements.foldlM (fun schema statement => exec statement schema) schema

/-- the files, each whole and in their order -/
def apply (files : List String) (schema : Schema) : Option Schema :=
  files.foldlM (fun schema file => execAll exec (d.statements file) schema) schema

end

theorem execAll_append (exec : Statement → Schema → Option Schema) (a b : List Statement) (schema : Schema) :
    execAll exec (a ++ b) schema = (execAll exec a schema).bind (execAll exec b) :=
  List.foldlM_append

theorem apply_append (d : Directory Statement) (exec : Statement → Schema → Option Schema)
    (a b : List String) (schema : Schema) :
    apply d exec (a ++ b) schema = (apply d exec a schema).bind (apply d exec b) :=
  List.foldlM_append

/-! ## the files -/

instance : Std.Total fun a b : String => Text.codeUnits a ≤ Text.codeUnits b := ⟨fun _ _ => le_total _ _⟩

instance : IsTrans String fun a b => Text.codeUnits a ≤ Text.codeUnits b := ⟨fun _ _ _ => le_trans⟩

theorem filesOf_perm {names entries : List String} (h : entries.Perm names) :
    filesOf entries = filesOf names := by
  have hperm : (filesOf entries).Perm (filesOf names) :=
    ((List.perm_insertionSort _ _).trans (h.filter _)).trans (List.perm_insertionSort _ _).symm
  refine hperm.eq_of_pairwise (fun a b _ _ hab hba => Text.codeUnits_injective (le_antisymm hab hba))
    (List.pairwise_insertionSort _ _) (List.pairwise_insertionSort _ _)

theorem files_nodup (d : Directory Statement) : d.files.Nodup :=
  (List.perm_insertionSort _ _).nodup_iff.mpr (d.nodup.filter _)

/-- a prefix of the files that holds all before a file and not the file -/
theorem names_eq {names pre rest : List String} {file : String} (hnodup : (pre ++ file :: rest).Nodup)
    (hnames : names <+: pre ++ file :: rest) (hpre : ∀ f ∈ pre, f ∈ names) (hfile : file ∉ names) :
    names = pre := by
  rcases List.prefix_or_prefix_of_prefix hnames (List.prefix_append pre _) with h | h
  · obtain ⟨more, rfl⟩ := h
    cases more with
    | nil => exact (List.append_nil _).symm
    | cons f more =>
      have hmem := hpre f (List.mem_append_right _ List.mem_cons_self)
      rw [List.append_assoc] at hnodup
      exact absurd rfl ((List.nodup_append.mp hnodup).2.2 f hmem f List.mem_cons_self)
  · obtain ⟨more, rfl⟩ := h
    rw [List.prefix_append_right_inj] at hnames
    cases more with
    | nil => exact List.append_nil _
    | cons f more =>
      rw [(List.cons_prefix_cons.mp hnames).1] at hfile
      exact absurd (List.mem_append_right _ List.mem_cons_self) hfile

/-! ## the invariant -/

section
variable (d : Directory Statement) (exec : Statement → Schema → Option Schema) (first : Schema)

/-- where the loop of a call stands: the files it has passed are in the ledger -/
structure Position (names pre : List String) (l : Locals) (next : List String) : Prop where
  files : d.files = pre ++ next
  passed : ∀ f ∈ pre, f ∈ names
  applied : ∀ f ∈ l.applied, f ∈ names

/-- an open transaction: as long as nothing is committed, its view is what it has executed -/
structure Opened (db : Database Schema) (pre : List String) (t : Transaction Schema)
    (executed : List Statement) : Prop where
  since : t.since ≤ db.commits
  passed : pre.length ≤ t.since
  view : t.since = db.commits → execAll exec executed db.schema = some t.view

def CallInv (db : Database Schema) : Call Statement Schema → Prop
  | .looping l => ∃ pre, Position d db.names pre l l.files
  | .running l file t rest => ∃ pre executed, Position d db.names pre l (file :: l.files) ∧
    d.statements file = executed ++ rest ∧ Opened exec db pre t executed
  | .inserted l file t => ∃ pre, Position d db.names pre l (file :: l.files) ∧
    Opened exec db pre t (d.statements file) ∧ file ∉ db.names
  | .returned _ => ∀ f ∈ d.files, f ∈ db.names
  | _ => True

structure DatabaseInv (db : Database Schema) : Prop where
  ledger : db.names <+: d.files
  commits : db.commits = db.names.length
  schema : apply d exec db.names first = some db.schema

structure Inv (s : State Statement Schema) : Prop where
  db : DatabaseInv d exec first s.db
  calls : ∀ c ∈ s.calls, CallInv d exec s.db c
  /-- a name is held by one transaction at most -/
  single : ∀ (i j : Nat) (f : String) (c c' : Call Statement Schema), s.calls[i]? = some c →
    s.calls[j]? = some c' → c.holds f = true → c'.holds f = true → i = j

/-- what is committed stays -/
structure Grows (db db' : Database Schema) : Prop where
  names : ∀ f ∈ db.names, f ∈ db'.names
  commits : db.commits ≤ db'.commits
  schema : db'.commits = db.commits → db'.schema = db.schema

/-- what a statement of the call `c` does to the whole -/
structure Acted (s : State Statement Schema) (c : Call Statement Schema) (db' : Database Schema)
    (c' : Call Statement Schema) : Prop where
  db : DatabaseInv d exec first db'
  grows : Grows s.db db'
  call : CallInv d exec db' c'
  /-- it inserts a name that no transaction holds -/
  holds : ∀ f, c'.holds f = true → ∀ x ∈ s.calls, x.holds f = false
  /-- it commits a name that it holds -/
  added : ∀ f ∈ db'.names, f ∈ s.db.names ∨ c.holds f = true

end

section
variable {d : Directory Statement} {exec : Statement → Schema → Option Schema} {first : Schema}
  {s s' : State Statement Schema} {db db' : Database Schema} {c c' : Call Statement Schema}

theorem Grows.refl (db : Database Schema) : Grows db db := ⟨fun _ h => h, le_refl _, fun _ => rfl⟩

theorem Position.grows {pre next : List String} {l : Locals} (h : Position d db.names pre l next)
    (hgrows : Grows db db') : Position d db'.names pre l next :=
  ⟨h.files, fun f hf => hgrows.names f (h.passed f hf), fun f hf => hgrows.names f (h.applied f hf)⟩

theorem Opened.grows {pre : List String} {t : Transaction Schema} {executed : List Statement}
    (h : Opened exec db pre t executed) (hgrows : Grows db db') : Opened exec db' pre t executed := by
  refine ⟨h.since.trans hgrows.commits, h.passed, fun hsince => ?_⟩
  have hcommits : db'.commits = db.commits := by
    have hle := h.since
    have hle' := hgrows.commits
    omega
  rw [hgrows.schema hcommits]
  exact h.view (hsince.trans hcommits)

/-- what holds of a call goes on while others commit names that it does not hold -/
theorem CallInv.grows (h : CallInv d exec db c) (hgrows : Grows db db')
    (hnew : ∀ f, c.holds f = true → f ∉ db'.names) : CallInv d exec db' c := by
  cases c with
  | started => trivial
  | created => trivial
  | failed => trivial
  | returned ran => exact fun f hf => hgrows.names f (h f hf)
  | looping l =>
    obtain ⟨pre, hposition⟩ := h
    exact ⟨pre, hposition.grows hgrows⟩
  | running l file t rest =>
    obtain ⟨pre, executed, hposition, hrest, hopened⟩ := h
    exact ⟨pre, executed, hposition.grows hgrows, hrest, hopened.grows hgrows⟩
  | inserted l file t =>
    obtain ⟨pre, hposition, hopened, _⟩ := h
    exact ⟨pre, hposition.grows hgrows, hopened.grows hgrows, hnew file (beq_self_eq_true file)⟩

/-- a statement that commits nothing and inserts nothing -/
theorem Acted.keeps (hinv : Inv d exec first s) (hcall : CallInv d exec s.db c')
    (hholds : ∀ f, c'.holds f = false) : Acted d exec first s c s.db c' := by
  refine ⟨hinv.db, Grows.refl _, hcall, fun f hf => ?_, fun f hf => .inl hf⟩
  rw [hholds f] at hf
  cases hf

theorem Acted.fails (hinv : Inv d exec first s) : Acted d exec first s c s.db .failed :=
  Acted.keeps hinv trivial fun _ => rfl

/-- the ledger holds no more than the files before the next one, whose number is at most that at BEGIN -/
theorem passed_le_commits (h : DatabaseInv d exec first db) {pre next : List String} {l : Locals}
    (hposition : Position d db.names pre l next) : pre.length ≤ db.commits := by
  have hnodup := files_nodup d
  rw [hposition.files] at hnodup
  rw [h.commits]
  exact (List.subperm_of_subset (List.nodup_append.mp hnodup).1 hposition.passed).length_le

theorem act_create (hinv : Inv d exec first s) (ok : Bool)
    (h : act d exec s (.create ok) .started = some (db', c')) : Acted d exec first s .started db' c' := by
  cases ok with
  | false =>
    cases h
    exact .fails hinv
  | true =>
    cases h
    exact ⟨⟨hinv.db.ledger, hinv.db.commits, hinv.db.schema⟩, ⟨fun _ hf => hf, le_refl _, fun _ => rfl⟩,
      trivial, fun f hf => Bool.noConfusion hf, fun f hf => .inl hf⟩

theorem act_select (hinv : Inv d exec first s) (ok : Bool) (entries : List String)
    (h : act d exec s (.select ok entries) .created = some (db', c')) :
    Acted d exec first s .created db' c' := by
  dsimp only [act] at h
  split at h
  · cases h
  · rename_i hperm
    split at h
    · rename_i names hledger
      cases h
      have hnames : s.db.names = names := by rw [Database.names, hledger]; rfl
      have hfiles : d.files = filesOf entries := (filesOf_perm (not_not.mp hperm)).symm
      refine .keeps hinv ⟨[], hfiles, fun f hf => absurd hf List.not_mem_nil, fun f hf => ?_⟩ fun _ => rfl
      rw [hnames]
      exact hf
    · cases h
      exact .fails hinv

theorem act_next (hinv : Inv d exec first s) (ok : Bool) {l : Locals}
    (hcall : CallInv d exec s.db (.looping l : Call Statement Schema))
    (h : act d exec s (.next ok) (.looping l) = some (db', c')) :
    Acted d exec first s (.looping l) db' c' := by
  obtain ⟨pre, hposition⟩ := hcall
  dsimp only [act] at h
  split at h
  · rename_i hnil
    cases h
    refine .keeps hinv (fun f hf => hposition.passed f ?_) fun _ => rfl
    have hall := hposition.files
    rw [hnil, List.append_nil] at hall
    rw [← hall]
    exact hf
  · rename_i file files hcons
    rw [hcons] at hposition
    split at h
    · rename_i happlied
      cases h
      have hmem := hposition.applied file (List.contains_iff_mem.mp happlied)
      refine .keeps hinv ⟨pre ++ [file], ?_, fun f hf => ?_, hposition.applied⟩ fun _ => rfl
      · rw [hposition.files, List.append_assoc]
        rfl
      · rcases List.mem_append.mp hf with hf | hf
        · exact hposition.passed f hf
        · rw [List.mem_singleton.mp hf]
          exact hmem
    · split at h
      · cases h
        exact .keeps hinv ⟨pre, [], ⟨hposition.files, hposition.passed, hposition.applied⟩, rfl,
          ⟨le_refl _, passed_le_commits hinv.db hposition, fun _ => rfl⟩⟩ fun _ => rfl
      · cases h
        exact .fails hinv

theorem act_statement (hinv : Inv d exec first s) (ok : Bool) (elsewhere : Schema) {l : Locals}
    {file : String} {t : Transaction Schema} {rest : List Statement}
    (hcall : CallInv d exec s.db (.running l file t rest))
    (h : act d exec s (.statement ok elsewhere) (.running l file t rest) = some (db', c')) :
    Acted d exec first s (.running l file t rest) db' c' := by
  obtain ⟨pre, executed, hposition, hrest, hopened⟩ := hcall
  cases rest with
  | nil => cases h
  | cons statement rest =>
    have hrest' : d.statements file = (executed ++ [statement]) ++ rest := by
      rw [hrest, List.append_assoc]
      rfl
    dsimp only [act] at h
    split at h
    · rename_i view hview
      cases h
      refine .keeps hinv ⟨pre, executed ++ [statement], hposition, hrest', hopened.since, hopened.passed,
        fun hsince => ?_⟩ fun _ => rfl
      rw [execAll_append, hopened.view hsince, Transaction.see, if_pos hsince]
      show (exec statement t.view).bind some = some view
      rw [hview, Option.bind_some]
    · split at h
      · cases h
        exact .fails hinv
      · rename_i hsince
        cases h
        exact .keeps hinv ⟨pre, executed ++ [statement], hposition, hrest', hopened.since, hopened.passed,
          fun hsince' => absurd hsince' hsince⟩ fun _ => rfl
    · cases h
      exact .fails hinv

theorem act_insert (hinv : Inv d exec first s) (ok : Bool) {l : Locals} {file : String}
    {t : Transaction Schema} {rest : List Statement} (hcall : CallInv d exec s.db (.running l file t rest))
    (h : act d exec s (.insert ok) (.running l file t rest) = some (db', c')) :
    Acted d exec first s (.running l file t rest) db' c' := by
  obtain ⟨pre, executed, hposition, hrest, hopened⟩ := hcall
  cases rest with
  | cons statement rest => cases h
  | nil =>
    rw [List.append_nil] at hrest
    dsimp only [act] at h
    split at h
    · cases h
      exact .fails hinv
    · split at h
      · cases h
      · rename_i hfree
        split at h
        · cases h
          exact .fails hinv
        · rename_i hfile
          cases h
          have hnot : file ∉ s.db.names := fun hmem => hfile (List.contains_iff_mem.mpr hmem)
          rw [← hrest] at hopened
          refine ⟨hinv.db, .refl _, ⟨pre, hposition, hopened, hnot⟩, fun f hf x hx => ?_,
            fun f hf => .inl hf⟩
          rw [← eq_of_beq hf]
          by_contra hheld
          exact hfree (List.any_eq_true.mpr ⟨x, hx, by simpa using hheld⟩)

/-- **The commit.** The ledger holds exactly the files before this one, so nothing was committed since BEGIN. -/
theorem act_commit (hinv : Inv d exec first s) (ok : Bool) (elsewhere : Schema) {l : Locals} {file : String}
    {t : Transaction Schema} (hcall : CallInv d exec s.db (.inserted l file t : Call Statement Schema))
    (h : act d exec s (.commit ok elsewhere) (.inserted l file t) = some (db', c')) :
    Acted d exec first s (.inserted l file t) db' c' := by
  obtain ⟨pre, hposition, hopened, hfile⟩ := hcall
  cases ok with
  | false =>
    cases h
    exact .fails hinv
  | true =>
    cases h
    have hnodup := files_nodup d
    have hledger := hinv.db.ledger
    rw [hposition.files] at hnodup hledger
    have hnames := names_eq hnodup hledger hposition.passed hfile
    have hsince : t.since = s.db.commits := by
      have hle := hopened.since
      have hge := hopened.passed
      have hcommits := hinv.db.commits
      rw [hnames] at hcommits
      omega
    have hmem : ∀ f, f ∈ s.db.names ++ [file] ↔ f ∈ s.db.names ∨ f = file := by
      intro f
      rw [List.mem_append, List.mem_singleton]
    refine ⟨⟨?_, ?_, ?_⟩, ⟨?_, Nat.le_succ _, fun hsame => ?_⟩, ⟨pre ++ [file], ?_, ?_, ?_⟩, ?_, ?_⟩
    · show s.db.names ++ [file] <+: d.files
      rw [hnames, hposition.files, List.prefix_append_right_inj, List.cons_prefix_cons]
      exact ⟨rfl, List.nil_prefix⟩
    · show s.db.commits + 1 = (s.db.names ++ [file]).length
      rw [List.length_append, hinv.db.commits]
      rfl
    · show apply d exec (s.db.names ++ [file]) first = some (t.see s.db t.view elsewhere)
      rw [apply_append, hinv.db.schema, Transaction.see, if_pos hsince]
      show (execAll exec (d.statements file) s.db.schema).bind some = some t.view
      rw [hopened.view hsince, Option.bind_some]
    · exact fun f hf => (hmem f).mpr (.inl hf)
    · exact absurd hsame (Nat.succ_ne_self _)
    · rw [hposition.files, List.append_assoc]
      rfl
    · intro f hf
      show f ∈ s.db.names ++ [file]
      rcases List.mem_append.mp hf with hf | hf
      · exact (hmem f).mpr (.inl (hposition.passed f hf))
      · exact (hmem f).mpr (.inr (List.mem_singleton.mp hf))
    · exact fun f hf => (hmem f).mpr (.inl (hposition.applied f hf))
    · exact fun f hf => Bool.noConfusion hf
    · intro f hf
      rcases (hmem f).mp hf with hf | rfl
      · exact .inl hf
      · exact .inr (beq_self_eq_true f)

/-- **One statement of one call.** -/
theorem act_inv (hinv : Inv d exec first s) {a : Action Schema} (hcall : CallInv d exec s.db c)
    (h : act d exec s a c = some (db', c')) : Acted d exec first s c db' c' := by
  cases a with
  | crash =>
    have heq : (s.db, Call.failed) = (db', c') := by
      cases c <;> exact Option.some.inj h
    cases heq
    exact .fails hinv
  | create ok =>
    cases c with
    | started => exact act_create hinv ok h
    | _ => cases h
  | select ok entries =>
    cases c with
    | created => exact act_select hinv ok entries h
    | _ => cases h
  | next ok =>
    cases c with
    | looping l => exact act_next hinv ok hcall h
    | _ => cases h
  | statement ok elsewhere =>
    cases c with
    | running l file t rest => exact act_statement hinv ok elsewhere hcall h
    | _ => cases h
  | insert ok =>
    cases c with
    | running l file t rest => exact act_insert hinv ok hcall h
    | _ => cases h
  | commit ok elsewhere =>
    cases c with
    | inserted l file t => exact act_commit hinv ok elsewhere hcall h
    | _ => cases h

/-- a name that another call holds is not committed by this one -/
theorem Acted.others {i j : Nat} {x : Call Statement Schema} (hinv : Inv d exec first s)
    (hc : s.calls[i]? = some c) (hacted : Acted d exec first s c db' c') (hx : s.calls[j]? = some x)
    (hne : i ≠ j) : CallInv d exec db' x := by
  have hxinv := hinv.calls x (List.mem_of_getElem? hx)
  refine hxinv.grows hacted.grows fun f hf hmem => ?_
  rcases hacted.added f hmem with hold | hheld
  · cases x with
    | inserted l file t =>
      obtain ⟨_, _, _, hfile⟩ := hxinv
      rw [eq_of_beq hf] at hfile
      exact hfile hold
    | _ => cases hf
  · exact hne (hinv.single i j f c x hc hx hheld hf)

theorem step_inv {e : Event Schema} (hinv : Inv d exec first s) (h : step d exec e s = some s') :
    Inv d exec first s' := by
  cases e with
  | call =>
    cases h
    have hnew : ∀ (i : Nat) (x : Call Statement Schema), (s.calls ++ [.started])[i]? = some x →
        s.calls[i]? = some x ∨ x = .started := by
      intro i x hx
      rw [List.getElem?_append] at hx
      split at hx
      · exact .inl hx
      · exact .inr (List.mem_singleton.mp (List.mem_of_getElem? hx))
    refine ⟨hinv.db, fun x hx => ?_, fun i j f x y hx hy hxf hyf => ?_⟩
    · rcases List.mem_append.mp hx with hx | hx
      · exact hinv.calls x hx
      · rw [List.mem_singleton.mp hx]
        trivial
    · rcases hnew i x hx with hx | rfl
      · rcases hnew j y hy with hy | rfl
        · exact hinv.single i j f x y hx hy hxf hyf
        · cases hyf
      · cases hxf
  | act i a =>
    obtain ⟨c, hc, hmap⟩ := Option.bind_eq_some_iff.mp h
    obtain ⟨⟨db', c'⟩, hact, rfl⟩ := Option.map_eq_some_iff.mp hmap
    have hacted := act_inv hinv (hinv.calls c (List.mem_of_getElem? hc)) hact
    have hset : ∀ (j : Nat) (x : Call Statement Schema), (s.calls.set i c')[j]? = some x →
        (j = i ∧ x = c') ∨ (i ≠ j ∧ s.calls[j]? = some x) := by
      intro j x hx
      by_cases hij : i = j
      · subst hij
        rw [List.getElem?_set_self (List.getElem?_eq_some_iff.mp hc).1] at hx
        exact .inl ⟨rfl, (Option.some.inj hx).symm⟩
      · rw [List.getElem?_set_ne hij] at hx
        exact .inr ⟨hij, hx⟩
    refine ⟨hacted.db, fun x hx => ?_, fun j k f x y hx hy hxf hyf => ?_⟩
    · obtain ⟨j, hj⟩ := List.getElem?_of_mem hx
      rcases hset j x hj with ⟨_, rfl⟩ | ⟨hne, hx⟩
      · exact hacted.call
      · exact hacted.others hinv hc hx hne
    · rcases hset j x hx with ⟨rfl, rfl⟩ | ⟨_, hx'⟩
      · rcases hset k y hy with ⟨rfl, rfl⟩ | ⟨_, hy'⟩
        · rfl
        · have hfree := hacted.holds f hxf y (List.mem_of_getElem? hy')
          rw [hyf] at hfree
          cases hfree
      · rcases hset k y hy with ⟨rfl, rfl⟩ | ⟨_, hy'⟩
        · have hfree := hacted.holds f hyf x (List.mem_of_getElem? hx')
          rw [hxf] at hfree
          cases hfree
        · exact hinv.single j k f x y hx' hy' hxf hyf

theorem inv_start (d : Directory Statement) (exec : Statement → Schema → Option Schema) (first : Schema) :
    Inv d exec first (start first) :=
  ⟨⟨List.nil_prefix, rfl, rfl⟩, fun _ hc => absurd hc List.not_mem_nil, fun _ _ _ _ _ hc => by cases hc⟩

theorem reachable_inv (h : Machine.Steps (step d exec) Machine.free (start first) s) :
    Inv d exec first s :=
  h.inv (Inv d exec first) (fun _ _ _ hs _ ht => step_inv hs ht) (inv_start d exec first)

/-- a call that returns leaves no file to apply -/
theorem returned_applied (h : Machine.Steps (step d exec) Machine.free (start first) s)
    {ran : List String} (hc : .returned ran ∈ s.calls) : s.db.names = d.files := by
  have hinv := reachable_inv h
  have hall := hinv.calls _ hc
  have hlength := (List.subperm_of_subset (files_nodup d) hall).length_le
  exact hinv.db.ledger.eq_of_length_le hlength

/-- **Exactly once, in order, whole or not at all.**  Whatever the calls do, one statement at a time, and wherever
they fail: what is committed is a prefix of the sorted files, each of them once, and the schema is the one
that these files make, each of them whole and in this order. -/
theorem migrated_prefix (d : Directory Statement) (exec : Statement → Schema → Option Schema)
    (first : Schema) (s : State Statement Schema)
    (h : Machine.Steps (step d exec) Machine.free (start first) s) :
    s.db.names <+: d.files ∧ s.db.names.Nodup ∧ apply d exec s.db.names first = some s.db.schema := by
  have hinv := reachable_inv h
  exact ⟨hinv.db.ledger, (files_nodup d).sublist hinv.db.ledger.sublist, hinv.db.schema⟩

/-! ## two calls race, and one is run again -/

/-- a table for each number, which must not exist yet -/
def createTable (table : Nat) (tables : List Nat) : Option (List Nat) :=
  if tables.contains table then none else some (tables ++ [table])

def twoFiles : Directory Nat where
  names := ["0002_delivery.sql", "README.md", "0001_initial.sql"]
  nodup := by decide
  statements := fun file => if file = "0001_initial.sql" then [1, 2] else [3]

/-- the second call waits for the first one and fails; the third one goes on where the first has crashed -/
def race : List (Event (List Nat)) := [
  .call, .call, .act 0 (.create true), .act 1 (.create true),
  .act 0 (.select true twoFiles.names), .act 1 (.select true twoFiles.names),
  .act 0 (.next true), .act 1 (.next true), .act 0 (.statement true []), .act 1 (.statement true []),
  .act 0 (.statement true []), .act 1 (.statement true []), .act 0 (.insert true),
  .act 0 (.commit true []), .act 1 (.insert true), .act 0 (.next true), .act 0 (.statement true []),
  .act 0 .crash, .call, .act 2 (.create true), .act 2 (.select true twoFiles.names), .act 2 (.next true),
  .act 2 (.next true), .act 2 (.statement true []), .act 2 (.insert true), .act 2 (.commit true [])]

theorem migrated_prefix_race : ∃ s : State Nat (List Nat), s.db.schema = [1, 2, 3] ∧
    s.db.names <+: twoFiles.files ∧ s.db.names.Nodup ∧
    apply twoFiles createTable s.db.names [] = some s.db.schema := by
  have hrun : (Machine.run (step twoFiles createTable) race (start [])).isSome = true := by decide
  obtain ⟨s, hs⟩ := Option.isSome_iff_exists.mp hrun
  have hschema : (Machine.run (step twoFiles createTable) race (start [])).map (·.db.schema) =
      some [1, 2, 3] := by decide
  rw [hs] at hschema
  exact ⟨s, Option.some.inj hschema,
    migrated_prefix twoFiles createTable [] s (Machine.Steps.of_run race _ s hs)⟩

end

end Backend.Migrations
