import FiveProtect.Protocol.Link
import FiveProtect.Protocol.LuaCheck

/-!
# Protocol: the generated Lua module

`packages/protocol/src/generators/lua.ts` as a compiler.  `generateLua` makes one validator for each struct of a
registry, a list of statements that calls the validators of other structs by name; `Module.validate` runs them.

* `checkExpr`, `emitCheck`, `emitValidator`   the code of a type, of a field and of a struct;
* `Stmt.lines`              the text of a statement, as it stands in `protocol.lua`;
* `Stmt.exec`               what a statement does with the locals of a validator;
* `eval_spec`               the code of a type checks what its tree says;
* `generateLua_isOk`        what the generator refuses: an optional that is no field;
* `validate_correct`        the module checks what the linked registry says, with the same messages.
-/

namespace Protocol.LuaModule
open Ir (FieldDef StructDef Registry unwrapOptional findEnum resolve)
open Lua (Check)

/-! ## the emitted code -/

/-- the value a check looks at: `value.name`, or the first parameter of an item check -/
inductive Access
  | field (name : String)
  | item

/-- the path it reports: `path .. '.name'`, or the second parameter -/
inductive Path
  | member (name : String)
  | itemPath

inductive CheckExpr
  | checkString (access : Access) (path : Path) (format : Option StringFormat) (minLength maxLength : Option Nat)
  | checkInt (access : Access) (path : Path) (min max : Option Int)
  | checkBoolean (access : Access) (path : Path)
  | checkEnum (access : Access) (path : Path) (ref : String)
  | validate (ref : String) (access : Access) (path : Path)
  /-- the last argument is `function(item, item_path) return .. end` -/
  | checkArray (access : Access) (path : Path) (maxItems : Option Nat) (itemCheck : CheckExpr)

inductive Stmt
  /-- `path = path or 'name'` -/
  | defaultPath (name : String)
  /-- `if type(value) ~= "table" then return fail(..) end` -/
  | expectTable
  /-- `local ok, err` -/
  | declare
  /-- `ok, err = check_no_extra_keys(value, path, name_fields)` -/
  | checkNoExtraKeys (name : String)
  /-- `ok, err = check` -/
  | assign (check : CheckExpr)
  /-- `if not ok then return false, err end` -/
  | returnUnlessOk
  /-- `if value.name ~= nil then .. end` -/
  | ifPresent (name : String) (body : List Stmt)
  /-- `if value.name == nil then return fail(path .. '.name', "is required") end` -/
  | requirePresent (name : String)
  /-- `return true` -/
  | returnTrue

/-- `local name_fields = { .. }` and `function M.validate.name(value, path) .. end` -/
structure Validator where
  name : String
  fields : List String
  body : List Stmt

structure Module where
  constants : List (String × Int)
  enums : List EnumDef
  validators : List Validator
  schemaNames : List String

/-! ## lua.ts -/

/-- `UnsupportedTypeError` -/
def unsupported (generator kind : String) : String :=
  "generator \"" ++ generator ++ "\" does not handle IR type \"" ++ kind ++ "\". " ++
    "Teach all four generators about it rather than working around it here."

def checkExpr : Ir.FieldType → Access → Path → Except String CheckExpr
  | .string format minLength maxLength, access, path => .ok (.checkString access path format minLength maxLength)
  | .int min max, access, path => .ok (.checkInt access path min max)
  | .bool, access, path => .ok (.checkBoolean access path)
  | .enum ref, access, path => .ok (.checkEnum access path ref)
  | .struct ref, access, path => .ok (.validate ref access path)
  | .array items maxItems, access, path => do
    let itemCheck ← checkExpr items .item .itemPath
    return .checkArray access path maxItems itemCheck
  | .optional _, _, _ => .error (unsupported "lua" "optional")

def emitCheck (type : Ir.FieldType) (access : Access) (path : Path) : Except String (List Stmt) := do
  let check ← checkExpr type access path
  return [.assign check, .returnUnlessOk]

/-- the statements of one field -/
def emitField (f : FieldDef) : Except String (List Stmt) := do
  let body ← emitCheck (unwrapOptional f.type) (.field f.name) (.member f.name)
  return if f.type.isOptional then [.ifPresent f.name body] else .requirePresent f.name :: body

def emitValidator (s : StructDef) : Except String Validator := do
  let fields ← s.fields.mapM emitField
  return ⟨s.name, s.fields.map (·.name),
    [.defaultPath s.name, .expectTable, .declare, .checkNoExtraKeys s.name, .returnUnlessOk] ++
      (fields.flatten ++ [.returnTrue])⟩

def generateLua (reg : Registry) : Except String Module := do
  let validators ← reg.structs.mapM emitValidator
  return ⟨reg.constants.map fun c => (c.name, c.value), reg.enums, validators, reg.structs.map (·.name)⟩

/-! ## its text -/

def Access.text : Access → String
  | .field name => "value." ++ name
  | .item => "item"

def Path.text : Path → String
  | .member name => "path .. '." ++ name ++ "'"
  | .itemPath => "item_path"

/-- a bound, or `nil` -/
def boundText (bound : Option Int) : String := (bound.map toString).getD "nil"

/-- the two texts of `luaPattern` -/
def patternText : Option StringFormat → String × String
  | some .uuid => ("'^%x%x%x%x%x%x%x%x%-%x%x%x%x%-%x%x%x%x%-%x%x%x%x%-%x%x%x%x%x%x%x%x%x%x%x%x$'", "'a UUID'")
  | some .hex => ("'^%x*$'", "'hex'")
  | some .base64 => ("'^[A-Za-z0-9+/=]*$'", "'base64'")
  | some .ip => ("'^[%x%.:]+$'", "'an IP address'")
  | some .datetime => ("'^%d%d%d%d%-%d%d%-%d%dT%d%d:%d%d:%d%d'", "'an ISO 8601 timestamp'")
  | some .semver => ("'^%d+%.%d+%.%d+'", "'a semantic version'")
  | none => ("nil", "nil")

def argsText (args : List String) : String := "(" ++ ", ".intercalate args ++ ")"

def CheckExpr.text : CheckExpr → String
  | .checkString access path format minLength maxLength =>
    "check_string" ++ argsText [access.text, path.text, (patternText format).1, (patternText format).2,
      boundText (minLength.map Int.ofNat), boundText (maxLength.map Int.ofNat)]
  | .checkInt access path min max => "check_int" ++ argsText [access.text, path.text, boundText min, boundText max]
  | .checkBoolean access path => "check_boolean" ++ argsText [access.text, path.text]
  | .checkEnum access path ref => "check_enum" ++ argsText [access.text, path.text, "'" ++ ref ++ "'"]
  | .validate ref access path => "M.validate." ++ ref ++ argsText [access.text, path.text]
  | .checkArray access path maxItems itemCheck =>
    "check_array" ++ argsText [access.text, path.text, boundText (maxItems.map Int.ofNat),
      "function(item, item_path) return " ++ itemCheck.text ++ " end"]

def indent (line : String) : String := "    " ++ line

mutual
def Stmt.lines : Stmt → List String
  | .defaultPath name => ["path = path or '" ++ name ++ "'"]
  | .expectTable => ["if type(value) ~= \"table\" then",
      indent "return fail(path, \"expected a table, got \" .. type(value))", "end"]
  | .declare => ["local ok, err"]
  | .checkNoExtraKeys name => ["ok, err = check_no_extra_keys(value, path, " ++ name ++ "_fields)"]
  | .assign check => ["ok, err = " ++ check.text]
  | .returnUnlessOk => ["if not ok then return false, err end"]
  | .ifPresent name body => ("if value." ++ name ++ " ~= nil then") :: (blockLines body).map indent ++ ["end"]
  | .requirePresent name =>
    ["if value." ++ name ++ " == nil then return fail(path .. '." ++ name ++ "', \"is required\") end"]
  | .returnTrue => ["return true"]
def blockLines : List Stmt → List String
  | [] => []
  | stmt :: rest => stmt.lines ++ blockLines rest
end

def Validator.lines (v : Validator) : List String :=
  ("local " ++ v.name ++ "_fields = \x7b") :: v.fields.map (fun name => indent (name ++ " = true,")) ++
    ["\x7d", "", "function M.validate." ++ v.name ++ "(value, path)"] ++ (blockLines v.body).map indent ++ ["end"]

example : (emitField ⟨"servers", .optional (.array (.struct "Server") (some 8))⟩).toOption.map blockLines =
    some ["if value.servers ~= nil then",
      "    ok, err = check_array(value.servers, path .. '.servers', 8, " ++
        "function(item, item_path) return M.validate.Server(item, item_path) end)",
      "    if not ok then return false, err end",
      "end"] := by decide +kernel

/-! ## running it -/

/-- what a check returns: `true`, or `false` and a message -/
abbrev Returned := Bool × Option Bytes

def returned : Check → Returned
  | .ok () => (true, none)
  | .error message => (false, some message)

/-- `M.validate.name(value, path)`; no result if the call is too deep, or has a runtime error -/
abbrev Function := LuaValue → Option Bytes → Option Returned

/-- the parameters and locals of a validator -/
structure Frame where
  value : LuaValue
  path : Option Bytes
  ok : Bool
  err : Option Bytes

/-- what a check can see: the frame, and the parameters of the innermost item check -/
structure Scope where
  frame : Frame
  item : LuaValue
  itemPath : Option Bytes

def Access.eval (scope : Scope) : Access → LuaValue
  | .field name => scope.frame.value.field name
  | .item => scope.item

/-- `..` is an error on `nil` -/
def Path.eval (scope : Scope) : Path → Option Bytes
  | .member name => scope.frame.path.map fun path => Lua.member path name
  | .itemPath => scope.itemPath

/-- the loop of `check_array` -/
def checkItems (path : Bytes) (checkItem : LuaValue → Bytes → Option Returned) :
    Nat → List LuaValue → Option Returned
  | _, [] => some (true, none)
  | i, item :: items => do
    let (ok, err) ← checkItem item (path ++ Text.utf8 "[" ++ Lua.decimal i ++ Text.utf8 "]")
    if ok then checkItems path checkItem (i + 1) items else some (false, err)

/-- `check_array`, with what it does before its loop -/
def checkArray (value : LuaValue) (path : Bytes) (maxItems : Option Nat)
    (checkItem : LuaValue → Bytes → Option Returned) : Option Returned :=
  match value with
  | .table pairs border =>
    match Lua.checkArray (.table pairs border) path maxItems fun _ _ => .ok () with
    | .ok () => checkItems path checkItem 1 (LuaValue.ipairs pairs)
    | .error message => some (false, some message)
  | value => some (returned (Lua.expected "a table" value path))

/-- `check_enum`: a text is looked up in the set of the enum, which must be there -/
def checkEnum (enums : List EnumDef) (value : LuaValue) (path : Bytes) (ref : String) : Option Returned :=
  match value with
  | .string s => (findEnum enums ref).map fun ref => returned (Lua.checkEnum (.string s) path ref)
  | value => some (returned (Lua.expected "a string" value path))

/-- `check_no_extra_keys`, whose loop is an error on anything but a table -/
def checkNoExtraKeys (value : LuaValue) (path : Bytes) (allowed : List String) : Option Returned :=
  match value with
  | .table pairs _ => some (returned (Lua.checkNoExtraKeys pairs path allowed))
  | _ => none

section
variable (m : Module) (validators : String → Function)

/-- the local `name_fields` -/
def Module.fieldSet (name : String) : Option (List String) :=
  (m.validators.find? fun v => v.name = name).map (·.fields)

def CheckExpr.eval : CheckExpr → Scope → Option Returned
  | .checkString access path format minLength maxLength, scope => do
    let path ← path.eval scope
    return returned (Lua.checkString (access.eval scope) path (format.map Lua.luaPattern) minLength maxLength)
  | .checkInt access path min max, scope => do
    let path ← path.eval scope
    return returned (Lua.checkInt (access.eval scope) path min max)
  | .checkBoolean access path, scope => do
    let path ← path.eval scope
    return returned (Lua.checkBoolean (access.eval scope) path)
  | .checkEnum access path ref, scope => do
    let path ← path.eval scope
    LuaModule.checkEnum m.enums (access.eval scope) path ref
  | .validate ref access path, scope => do
    let path ← path.eval scope
    validators ref (access.eval scope) (some path)
  | .checkArray access path maxItems itemCheck, scope => do
    let path ← path.eval scope
    LuaModule.checkArray (access.eval scope) path maxItems fun item itemPath =>
      itemCheck.eval ⟨scope.frame, item, some itemPath⟩

/-- a statement goes on with the locals, or returns -/
abbrev Outcome := Except Returned Frame

mutual
def Stmt.exec : Stmt → Frame → Option Outcome
  | .defaultPath name, frame => some (.ok { frame with path := some (frame.path.getD (Text.utf8 name)) })
  | .expectTable, frame =>
    match frame.value with
    | .table _ _ => some (.ok frame)
    | value => frame.path.map fun path => .error (returned (Lua.expected "a table" value path))
  | .declare, frame => some (.ok { frame with ok := false, err := none })
  | .checkNoExtraKeys name, frame => do
    let path ← frame.path
    let allowed ← m.fieldSet name
    let (ok, err) ← checkNoExtraKeys frame.value path allowed
    return .ok { frame with ok := ok, err := err }
  | .assign check, frame => do
    let (ok, err) ← check.eval m validators ⟨frame, .nil, none⟩
    return .ok { frame with ok := ok, err := err }
  | .returnUnlessOk, frame => some (if frame.ok then .ok frame else .error (false, frame.err))
  | .ifPresent name body, frame =>
    if Lua.isNil (frame.value.field name) then some (.ok frame) else execBlock body frame
  | .requirePresent name, frame =>
    if Lua.isNil (frame.value.field name) then
      frame.path.map fun path => .error (returned (Lua.fail (Lua.member path name) (Text.utf8 "is required")))
    else some (.ok frame)
  | .returnTrue, _ => some (.error (true, none))
def execBlock : List Stmt → Frame → Option Outcome
  | [], frame => some (.ok frame)
  | stmt :: rest, frame =>
    match stmt.exec frame with
    | some (.ok frame) => execBlock rest frame
    | result => result
end

/-- the parameters and locals when a validator is entered -/
def enter (value : LuaValue) (path : Option Bytes) : Frame := ⟨value, path, false, none⟩

/-- a function that ends without `return` returns nothing -/
def Validator.run (v : Validator) : Function := fun value path =>
  (execBlock m validators v.body (enter value path)).map fun
    | .ok _ => (false, none)
    | .error result => result

end

/-- `M.validate` with the functions of a module, which are looked up when they are called -/
def functions (m : Module) : Linking.Language Validator Function where
  refers := fun _ _ => True
  undefined := fun _ _ => none
  meaning := fun validators v => v.run m validators
  meaning_congr := by
    intro v env env' h
    rw [funext fun name => h name trivial]

def Module.program (m : Module) : Linking.Program Validator := m.validators.map fun v => (v.name, v)

/-- `M.validate.name(value, path)`, with at most `n` validators inside each other -/
def Module.validate (m : Module) (n : Nat) (name : String) : Function := (functions m).call m.program n name

/-! ## the code of a type -/

section
variable {m : Module} {validators : String → Function} {env : String → Option FieldType}

/-- a validator checks what the tree of its struct says -/
def Checks (tree : Option FieldType) (validator : Function) : Prop :=
  ∀ type, tree = some type → type.isOptional = false ∧ ∀ value path,
    validator value path = some (returned (Lua.check type value (path.getD (Lua.defaultPath type))))

theorem checkItems_spec {path : Bytes} {checkItem : LuaValue → Bytes → Option Returned}
    {check : LuaValue → Bytes → Check}
    (h : ∀ item itemPath, checkItem item itemPath = some (returned (check item itemPath))) (i : Nat)
    (items : List LuaValue) :
    checkItems path checkItem i items = some (returned (Lua.checkItems path check i items)) := by
  induction items generalizing i with
  | nil => rfl
  | cons item items ih =>
    rw [checkItems, Lua.checkItems, h]
    cases check item (path ++ Text.utf8 "[" ++ Lua.decimal i ++ Text.utf8 "]") with
    | error message => rfl
    | ok u => exact ih (i + 1)

theorem checkItems_pass (path : Bytes) (i : Nat) (items : List LuaValue) :
    Lua.checkItems path (fun _ _ => .ok ()) i items = .ok () := by
  induction items generalizing i with
  | nil => rfl
  | cons item items ih => exact ih (i + 1)

theorem checkArray_spec {checkItem : LuaValue → Bytes → Option Returned} {check : LuaValue → Bytes → Check}
    (h : ∀ item itemPath, checkItem item itemPath = some (returned (check item itemPath))) (value : LuaValue)
    (path : Bytes) (maxItems : Option Nat) :
    checkArray value path maxItems checkItem = some (returned (Lua.checkArray value path maxItems check)) := by
  cases value with
  | table pairs border =>
    rw [checkArray, Lua.checkArray, Lua.checkArray]
    cases pairs.find? fun p => !Lua.isNumberKey p.1 with
    | some p => rfl
    | none =>
      cases Lua.guardBound (some border) (fun n => pairs.length != n) path
          fun _ => Text.utf8 "array has holes" with
      | error message => rfl
      | ok u =>
        cases Lua.guardBound maxItems (fun n => decide (n < pairs.length)) path
            fun n => Text.utf8 "holds more than " ++ Lua.decimal n ++ Text.utf8 " items" with
        | error message => rfl
        | ok u =>
          show (match Lua.checkItems path (fun _ _ => .ok ()) 1 (LuaValue.ipairs pairs) with
            | .ok () => checkItems path checkItem 1 (LuaValue.ipairs pairs)
            | .error message => some (false, some message)) = _
          rw [checkItems_pass, checkItems_spec h]
          rfl
  | _ => rfl

theorem checkEnum_spec {enums : List EnumDef} {ref : String} {defn : EnumDef}
    (h : findEnum enums ref = some defn) (value : LuaValue) (path : Bytes) :
    checkEnum enums value path ref = some (returned (Lua.checkEnum value path defn)) := by
  cases value with
  | string s => rw [checkEnum, h, Option.map_some]
  | _ => rfl

/-- **The code of a type.**  It checks what the tree of the type says. -/
theorem eval_spec (hsound : ∀ ref, Checks (env ref) (validators ref)) {type : Ir.FieldType} {tree : FieldType}
    {access : Access} {path : Path} {check : CheckExpr} (hcheck : checkExpr type access path = .ok check)
    (htree : resolve m.enums env type = some tree) (scope : Scope) {p : Bytes} (hp : path.eval scope = some p) :
    check.eval m validators scope = some (returned (Lua.check tree (access.eval scope) p)) := by
  induction type generalizing tree access path check scope p with
  | string format minLength maxLength =>
    cases hcheck
    cases htree
    rw [CheckExpr.eval, hp, Lua.check]
    rfl
  | int min max =>
    cases hcheck
    cases htree
    rw [CheckExpr.eval, hp, Lua.check]
    rfl
  | bool =>
    cases hcheck
    cases htree
    rw [CheckExpr.eval, hp, Lua.check]
    rfl
  | enum ref =>
    cases hcheck
    obtain ⟨defn, hdefn, rfl⟩ := Option.map_eq_some_iff.mp htree
    rw [CheckExpr.eval, hp, Lua.check]
    exact checkEnum_spec hdefn _ _
  | struct ref =>
    cases hcheck
    rw [CheckExpr.eval, hp]
    exact (hsound ref tree htree).2 _ _
  | array items maxItems ih =>
    obtain ⟨itemCheck, hitem, hcheck⟩ := Check.bind_eq_ok.mp hcheck
    cases hcheck
    obtain ⟨itemTree, hitemTree, rfl⟩ := Option.map_eq_some_iff.mp htree
    rw [CheckExpr.eval, hp, Lua.check]
    apply checkArray_spec
    intro item itemPath
    exact ih hitem hitemTree ⟨scope.frame, item, some itemPath⟩ rfl
  | optional inner => cases hcheck

/-! ## the code of a struct -/

/-- going on after a check that passed, returning what it found otherwise -/
def after (frame : Frame) : Check → Outcome
  | .ok () => .ok frame
  | .error message => .error (false, some message)

theorem exec_append (a b : List Stmt) (frame : Frame) : execBlock m validators (a ++ b) frame =
    match execBlock m validators a frame with
    | some (.ok frame) => execBlock m validators b frame
    | result => result := by
  induction a generalizing frame with
  | nil => rfl
  | cons stmt a ih =>
    rw [List.cons_append, execBlock, execBlock]
    cases stmt.exec m validators frame with
    | none => rfl
    | some result =>
      cases result with
      | error result => rfl
      | ok frame => exact ih frame

theorem exec_singleton (stmt : Stmt) (frame : Frame) :
    execBlock m validators [stmt] frame = stmt.exec m validators frame := by
  rw [execBlock]
  cases stmt.exec m validators frame with
  | none => rfl
  | some result =>
    cases result with
    | error result => rfl
    | ok frame => rfl

/-- `ok, err = check` and `if not ok then return false, err end` -/
theorem exec_check {check : CheckExpr} {frame : Frame} {c : Check}
    (h : check.eval m validators ⟨frame, .nil, none⟩ = some (returned c)) :
    execBlock m validators [.assign check, .returnUnlessOk] frame =
      some (after { frame with ok := true, err := none } c) := by
  rw [execBlock, Stmt.exec, h]
  cases c with
  | ok u => rfl
  | error message => rfl

/-- the check of one field, as the struct makes it -/
theorem checkFields_cons (f : String × FieldType) (fields : List (String × FieldType)) (value : LuaValue)
    (path : Bytes) : Lua.checkFields (f :: fields) value path =
      (Lua.checkFields [f] value path >>= fun _ => Lua.checkFields fields value path) := by
  obtain ⟨name, type⟩ := f
  have hunit : ∀ c : Check, (c >>= fun _ => Except.ok ()) = c := fun c => by cases c <;> rfl
  cases type with
  | optional inner =>
    rw [Lua.checkFields, Lua.checkFields, Lua.checkFields, hunit]
  | _ =>
    rw [Lua.checkFields, Lua.checkFields, Lua.checkFields, hunit]
    · intro inner h
      cases h
    · intro inner h
      cases h

/-- a frame that differs in `ok` and `err` at most -/
def SameCall (frame frame' : Frame) : Prop := frame'.value = frame.value ∧ frame'.path = frame.path

/-- the check of a field reads the field, and reports it under its own path -/
theorem exec_member (hsound : ∀ ref, Checks (env ref) (validators ref)) {name : String} {type : Ir.FieldType}
    {tree : FieldType} {check : CheckExpr} (hcheck : checkExpr type (.field name) (.member name) = .ok check)
    (htree : resolve m.enums env type = some tree) {frame : Frame} {p : Bytes} (hp : frame.path = some p) :
    execBlock m validators [.assign check, .returnUnlessOk] frame =
      some (after { frame with ok := true, err := none }
        (Lua.check tree (frame.value.field name) (Lua.member p name))) := by
  apply exec_check
  apply eval_spec hsound hcheck htree
  show frame.path.map _ = _
  rw [hp]
  rfl

theorem exec_optional (hsound : ∀ ref, Checks (env ref) (validators ref)) {name : String} {type : Ir.FieldType}
    {tree : FieldType} {check : CheckExpr} (hcheck : checkExpr type (.field name) (.member name) = .ok check)
    (htree : resolve m.enums env type = some tree) {frame : Frame} {p : Bytes} (hp : frame.path = some p) :
    ∃ frame', SameCall frame frame' ∧
      execBlock m validators [.ifPresent name [.assign check, .returnUnlessOk]] frame =
        some (after frame' (Lua.checkOptional frame.value p name fun x xPath => Lua.check tree x xPath)) := by
  have hrun := exec_member hsound hcheck htree hp
  rw [exec_singleton, Stmt.exec, Lua.checkOptional]
  by_cases hnil : Lua.isNil (frame.value.field name) = true
  · rw [if_pos hnil, if_pos hnil]
    exact ⟨frame, ⟨rfl, rfl⟩, rfl⟩
  · rw [if_neg hnil, if_neg hnil]
    exact ⟨{ frame with ok := true, err := none }, ⟨rfl, rfl⟩, hrun⟩

theorem exec_required (hsound : ∀ ref, Checks (env ref) (validators ref)) {name : String} {type : Ir.FieldType}
    {tree : FieldType} {check : CheckExpr} (hcheck : checkExpr type (.field name) (.member name) = .ok check)
    (htree : resolve m.enums env type = some tree) {frame : Frame} {p : Bytes} (hp : frame.path = some p) :
    ∃ frame', SameCall frame frame' ∧
      execBlock m validators [.requirePresent name, .assign check, .returnUnlessOk] frame =
        some (after frame' (Lua.checkRequired frame.value p name fun x xPath => Lua.check tree x xPath)) := by
  have hrun := exec_member hsound hcheck htree hp
  rw [execBlock, Stmt.exec, Lua.checkRequired]
  by_cases hnil : Lua.isNil (frame.value.field name) = true
  · rw [if_pos hnil, if_pos hnil, hp]
    exact ⟨frame, ⟨rfl, rfl⟩, rfl⟩
  · rw [if_neg hnil, if_neg hnil]
    exact ⟨{ frame with ok := true, err := none }, ⟨rfl, rfl⟩, hrun⟩

theorem exec_field (hsound : ∀ ref, Checks (env ref) (validators ref)) {f : FieldDef} {tree : FieldType}
    {block : List Stmt} (hblock : emitField f = .ok block) (htree : resolve m.enums env f.type = some tree)
    {frame : Frame} {p : Bytes} (hp : frame.path = some p) : ∃ frame', SameCall frame frame' ∧
      execBlock m validators block frame = some (after frame' (Lua.checkFields [(f.name, tree)] frame.value p)) := by
  obtain ⟨name, type⟩ := f
  obtain ⟨body, hbody, hblock⟩ := Check.bind_eq_ok.mp hblock
  obtain ⟨check, hcheck, hbody⟩ := Check.bind_eq_ok.mp hbody
  cases hbody
  have hunit : ∀ c : Check, (c >>= fun _ => Except.ok ()) = c := fun c => by cases c <;> rfl
  cases type with
  | optional inner =>
    cases hblock
    obtain ⟨innerTree, hinner, rfl⟩ := Option.map_eq_some_iff.mp htree
    rw [Lua.checkFields, Lua.checkFields, hunit]
    exact exec_optional hsound hcheck hinner hp
  | _ =>
    cases hblock
    have hrequired := exec_required (m := m) hsound hcheck htree hp
    rw [Lua.checkFields, Lua.checkFields, hunit]
    · exact hrequired
    · rintro inner rfl
      cases Ir.resolve_isOptional (fun ref t ht => (hsound ref t ht).1) htree

/-- the checks of the fields, one after the other, up to the first that fails -/
theorem exec_fields (hsound : ∀ ref, Checks (env ref) (validators ref)) {fields : List FieldDef}
    {trees : List (String × FieldType)} (htrees : List.Forall₂
      (fun f tree => tree.1 = f.name ∧ resolve m.enums env f.type = some tree.2) fields trees)
    {blocks : List (List Stmt)} (hblocks : fields.mapM emitField = .ok blocks) {frame : Frame} {p : Bytes}
    (hp : frame.path = some p) (rest : List Stmt) : ∃ frame', SameCall frame frame' ∧
      execBlock m validators (blocks.flatten ++ rest) frame =
        match Lua.checkFields trees frame.value p with
        | .ok () => execBlock m validators rest frame'
        | .error message => some (.error (false, some message)) := by
  induction htrees generalizing blocks frame with
  | nil =>
    cases hblocks
    exact ⟨frame, ⟨rfl, rfl⟩, rfl⟩
  | @cons f tree fields trees hfirst _ ih =>
    rw [List.mapM_cons] at hblocks
    obtain ⟨block, hblock, hblocks⟩ := Check.bind_eq_ok.mp hblocks
    obtain ⟨others, hothers, hblocks⟩ := Check.bind_eq_ok.mp hblocks
    cases hblocks
    obtain ⟨name, type⟩ := tree
    obtain ⟨hname, htree⟩ := hfirst
    cases hname
    obtain ⟨middle, ⟨hvalue, hpath⟩, hrun⟩ := exec_field hsound hblock htree hp
    obtain ⟨last, ⟨hvalue', hpath'⟩, hrest⟩ := ih hothers (hpath.trans hp)
    refine ⟨last, ⟨hvalue'.trans hvalue, hpath'.trans hpath⟩, ?_⟩
    rw [List.flatten_cons, List.append_assoc, exec_append, hrun, checkFields_cons (f.name, type) trees]
    cases Lua.checkFields [(f.name, type)] frame.value p with
    | error message => rfl
    | ok u =>
      rw [hvalue] at hrest
      exact hrest

theorem exec_noExtraKeys {name : String} {allowed : List String} (hset : m.fieldSet name = some allowed)
    (pairs : List (LuaKey × LuaValue)) (border : Nat) (p : Bytes) (ok : Bool) (err : Option Bytes) :
    execBlock m validators [.checkNoExtraKeys name, .returnUnlessOk] ⟨.table pairs border, some p, ok, err⟩ =
      some (after ⟨.table pairs border, some p, true, none⟩ (Lua.checkNoExtraKeys pairs p allowed)) := by
  have hstep : Stmt.exec m validators (.checkNoExtraKeys name) ⟨.table pairs border, some p, ok, err⟩ =
      some (.ok ⟨.table pairs border, some p, (returned (Lua.checkNoExtraKeys pairs p allowed)).1,
        (returned (Lua.checkNoExtraKeys pairs p allowed)).2⟩) := by
    rw [Stmt.exec, hset]
    rfl
  rw [execBlock, hstep]
  cases Lua.checkNoExtraKeys pairs p allowed with
  | ok u => rfl
  | error message => rfl

/-- what a validator does before its fields -/
theorem exec_prologue {name : String} {allowed : List String} (hset : m.fieldSet name = some allowed)
    (value : LuaValue) (path : Option Bytes) (rest : List Stmt) :
    execBlock m validators (.defaultPath name :: .expectTable :: .declare ::
        ([.checkNoExtraKeys name, .returnUnlessOk] ++ rest)) (enter value path) =
      match value with
      | .table pairs _ =>
        match Lua.checkNoExtraKeys pairs (path.getD (Text.utf8 name)) allowed with
        | .ok () => execBlock m validators rest ⟨value, some (path.getD (Text.utf8 name)), true, none⟩
        | .error message => some (.error (false, some message))
      | value => some (.error (returned (Lua.expected "a table" value (path.getD (Text.utf8 name))))) := by
  cases value with
  | table pairs border =>
    show execBlock m validators ([.checkNoExtraKeys name, .returnUnlessOk] ++ rest)
      ⟨.table pairs border, some (path.getD (Text.utf8 name)), false, none⟩ = _
    rw [exec_append, exec_noExtraKeys hset]
    dsimp only
    cases Lua.checkNoExtraKeys pairs (path.getD (Text.utf8 name)) allowed with
    | ok u => rfl
    | error message => rfl
  | _ => rfl

/-- **The code of a struct.**  It checks what the tree of the struct says. -/
theorem run_spec (hsound : ∀ ref, Checks (env ref) (validators ref)) {s : StructDef} {v : Validator}
    (hv : emitValidator s = .ok v) (hset : m.fieldSet s.name = some (s.fields.map (·.name))) :
    Checks (s.resolve m.enums env) (v.run m validators) := by
  intro type htype
  obtain ⟨trees, htrees, rfl⟩ := Option.map_eq_some_iff.mp htype
  refine ⟨rfl, fun value path => ?_⟩
  obtain ⟨blocks, hblocks, hv⟩ := Check.bind_eq_ok.mp hv
  cases hv
  show (execBlock m validators (.defaultPath s.name :: .expectTable :: .declare ::
    ([.checkNoExtraKeys s.name, .returnUnlessOk] ++ (blocks.flatten ++ [.returnTrue]))) (enter value path)).map _ = _
  rw [exec_prologue hset, Lua.defaultPath]
  cases value with
  | table pairs border =>
    have hpath : (⟨.table pairs border, some (path.getD (Text.utf8 s.name)), true, none⟩ : Frame).path =
        some (path.getD (Text.utf8 s.name)) := rfl
    obtain ⟨frame, _, hrun⟩ := exec_fields hsound (Ir.resolveFields_eq.mp htrees) hblocks hpath [.returnTrue]
    rw [Lua.check, Ir.resolveFields_names htrees, hrun]
    dsimp only
    cases Lua.checkNoExtraKeys pairs (path.getD (Text.utf8 s.name)) (s.fields.map (·.name)) with
    | error message => rfl
    | ok u =>
      show Option.map _ (match Lua.checkFields trees _ _ with | .ok () => _ | .error message => _) =
        some (returned (Lua.checkFields trees _ _))
      cases Lua.checkFields trees (.table pairs border) (path.getD (Text.utf8 s.name)) with
      | error message => rfl
      | ok u => rfl
  | _ => rfl

end

/-! ## the module of a registry -/

section
variable {reg : Registry} {m : Module}

/-- no optional stands under an array or another optional -/
def Emittable (reg : Registry) : Prop :=
  ∀ s ∈ reg.structs, ∀ f ∈ s.fields, ∀ inner, ¬Ir.Within (.optional inner) (unwrapOptional f.type)

theorem checkExpr_isOk {type : Ir.FieldType} {access : Access} {path : Path} :
    (checkExpr type access path).isOk = true ↔ ∀ inner, ¬Ir.Within (.optional inner) type := by
  induction type generalizing access path with
  | array items maxItems ih =>
    rw [checkExpr, Check.bind_isOk]
    constructor
    · rintro ⟨itemCheck, hitem, _⟩ inner hwithin
      cases hwithin with
      | items hwithin => exact ih.mp (Check.isOk_iff.mpr ⟨itemCheck, hitem⟩) inner hwithin
    · intro h
      obtain ⟨itemCheck, hitem⟩ := Check.isOk_iff.mp (ih.mpr fun inner hwithin => h inner (.items hwithin))
      exact ⟨itemCheck, hitem, rfl⟩
  | optional inner => exact ⟨fun h => (by cases h), fun h => absurd .here (h inner)⟩
  | _ =>
    refine ⟨fun _ inner hwithin => ?_, fun _ => rfl⟩
    cases hwithin

/-- **What the generator refuses.**  It fails on an optional that is no field of a struct, and on nothing else. -/
theorem generateLua_isOk : (generateLua reg).isOk = true ↔ Emittable reg := by
  have hfield : ∀ f : FieldDef, (emitField f).isOk = true ↔
      ∀ inner, ¬Ir.Within (.optional inner) (unwrapOptional f.type) := by
    intro f
    have hcheck : (checkExpr (unwrapOptional f.type) (.field f.name) (.member f.name)).isOk = true ↔ _ :=
      checkExpr_isOk
    rw [← hcheck, emitField, Check.bind_isOk]
    constructor
    · rintro ⟨body, hbody, _⟩
      obtain ⟨check, hcheck, _⟩ := Check.bind_eq_ok.mp hbody
      exact Check.isOk_iff.mpr ⟨check, hcheck⟩
    · intro h
      obtain ⟨check, hcheck⟩ := Check.isOk_iff.mp h
      refine ⟨[.assign check, .returnUnlessOk], ?_, rfl⟩
      rw [emitCheck, hcheck]
      rfl
  have hstruct : ∀ s : StructDef, (emitValidator s).isOk = true ↔
      ∀ f ∈ s.fields, ∀ inner, ¬Ir.Within (.optional inner) (unwrapOptional f.type) := by
    intro s
    rw [← forall₂_congr fun f _ => hfield f, ← Check.mapM_isOk, emitValidator, Check.bind_isOk, Check.isOk_iff]
    exact exists_congr fun blocks => ⟨fun h => h.1, fun h => ⟨h, rfl⟩⟩
  rw [Emittable, ← forall₂_congr fun s _ => hstruct s, ← Check.mapM_isOk, generateLua, Check.bind_isOk,
    Check.isOk_iff]
  exact exists_congr fun validators => ⟨fun h => h.1, fun h => ⟨h, rfl⟩⟩

theorem emitValidator_name {s : StructDef} {v : Validator} (h : emitValidator s = .ok v) :
    v.name = s.name ∧ v.fields = s.fields.map (·.name) := by
  obtain ⟨blocks, _, h⟩ := Check.bind_eq_ok.mp h
  cases h
  exact ⟨rfl, rfl⟩

/-- the validators stand in the order of the structs -/
theorem generateLua_validators (h : generateLua reg = .ok m) : m.enums = reg.enums ∧
    List.Forall₂ (fun s v => emitValidator s = .ok v) reg.structs m.validators := by
  obtain ⟨validators, hvalidators, h⟩ := Check.bind_eq_ok.mp h
  cases h
  exact ⟨rfl, Check.mapM_forall₂ hvalidators⟩

/-- the table of field names a validator finds is its own -/
theorem fieldSet_eq {structs : List StructDef} {validators : List Validator}
    (h : List.Forall₂ (fun s v => emitValidator s = .ok v) structs validators)
    (hdistinct : (structs.map (·.name)).Nodup) {s : StructDef} (hs : s ∈ structs) :
    (validators.find? fun v => v.name = s.name).map (·.fields) = some (s.fields.map (·.name)) := by
  induction h with
  | nil => exact absurd hs List.not_mem_nil
  | @cons first v structs validators hv _ ih =>
    obtain ⟨hname, hfields⟩ := emitValidator_name hv
    obtain ⟨hnew, hrest⟩ := List.nodup_cons.mp hdistinct
    rw [List.find?_cons, hname]
    rcases List.mem_cons.mp hs with rfl | hs
    · rw [decide_eq_true rfl, ← hfields]
      rfl
    · have hne : first.name ≠ s.name := by
        intro heq
        apply hnew
        show first.name ∈ _
        rw [heq]
        exact List.mem_map_of_mem hs
      rw [decide_eq_false hne]
      exact ih hrest hs

/-- **The Lua module is correct.**  If a registry is built and passes, and the generator makes a module of it,
then `M.validate` of each struct returns, with no more validators inside each other than there are structs,
and returns what the tree of the struct says. -/
theorem validate_correct (hbuilt : Ir.Built reg) (hpass : Ir.validateRegistry reg = .ok ())
    (hm : generateLua reg = .ok m) {s : StructDef} (hs : s ∈ reg.structs) :
    ∃ type, reg.link s.name = some type ∧ ∀ n, reg.structs.length ≤ n → ∀ value path,
      m.validate n s.name value path =
        some (returned (Lua.check type value (path.getD (Text.utf8 s.name)))) := by
  have hdistinct := hbuilt.distinct.1
  obtain ⟨henums, hvalidators⟩ := generateLua_validators hm
  obtain ⟨fields, hlink, _⟩ := Ir.link_spec hdistinct hpass hs
  have hordered := (Ir.ordered_of_pass hpass).linking
  have htranslates : List.Forall₂ ((Ir.trees reg.enums).Translates (functions m) Checks) reg.program m.program := by
    rw [Registry.program, Module.program, List.forall₂_map_left_iff, List.forall₂_map_right_iff]
    have hboth := (List.forall₂_and_left _ _).mpr ⟨fun s hs => fieldSet_eq hvalidators hdistinct hs, hvalidators⟩
    refine hboth.imp fun s v h => ⟨(emitValidator_name h.2).1.symm, fun env validators hsound => ?_⟩
    have hrun := run_spec (m := m) hsound h.2 h.1
    rw [henums] at hrun
    exact hrun
  refine ⟨_, hlink, fun n hn value path => ?_⟩
  have hundefined : Checks (Ir.trees reg.enums).undefined (functions m).undefined := fun _ h => by cases h
  have hcall := (Ir.trees reg.enums).call_rel hundefined htranslates n s.name
  have hnames : s.name ∈ Linking.names reg.program := Ir.names_program ▸ List.mem_map_of_mem hs
  rw [hordered.call_eq (Ir.names_program ▸ hdistinct) (Ir.length_program.trans_le hn) hnames,
    Ir.length_program] at hcall
  exact (hcall _ hlink).2 value path

end

end Protocol.LuaModule
