import ScriptGlue.Settings

/-!
# The command line

Options stand before or after a command word, each at most once on either side; what stands after it
wins. The value of an option is looked at when the next option, or the end, shows that it is
complete.
-/
namespace ScriptGlue

inductive Command where
  | generate (report : Option String) (dryRun : Bool)
  | check (report : Option String)
  | version
  deriving DecidableEq, Repr

/-- What the command line says besides the command. -/
structure RunOptions where
  /-- Relative paths are below this directory. -/
  root : String := "."
  /-- The file with settings. -/
  config : Option String := none
  overrides : SettingOverrides := {}
  deriving DecidableEq, Repr

/-- Why a command line leads to no run. -/
inductive Usage where
  | displayHelp
  | displayVersion
  | invalidSubcommand
  | unknownArgument
  | invalidValue
  | argumentConflict
  | tooManyValues
  deriving DecidableEq, Repr

/-- The exit code after a command line that leads to no run. -/
def Usage.exitCode : Usage → Nat
  | displayHelp | displayVersion => 0
  | _ => 2

namespace CommandLine

/-- Where on the command line an argument stands: before the command, or after it. -/
inductive Scope where
  | top
  | generate
  | check
  | version
  deriving DecidableEq, Repr

inductive ValueOption where
  | root
  | config
  | header
  | hookEnum
  | hookTable
  | recordsDir
  | nativeOut
  | typingsOut
  | scriptNamespace
  | mismatch
  | report
  deriving DecidableEq, Repr

def valueOptions : List (String × ValueOption) :=
  [("root", .root), ("config", .config), ("header", .header), ("ham-enum", .hookEnum),
    ("ham-table", .hookTable), ("structures-dir", .recordsDir), ("native-out", .nativeOut),
    ("typings-out", .typingsOut), ("namespace", .scriptNamespace), ("ham-mismatch", .mismatch),
    ("report", .report)]

/-- Whether an option may stand here. Only commands that make a report take its path. -/
def ValueOption.allowedIn (o : ValueOption) (scope : Scope) : Bool :=
  o != .report || scope == .generate || scope == .check

/-- Whether a text is a value of an option: no path is empty, and a policy has a name. -/
def ValueOption.accepts (o : ValueOption) (value : String) : Bool :=
  match o with
  | .scriptNamespace => true
  | .mismatch => (Settings.policyOfName value).isSome
  | _ => !value.isEmpty

/-- An option that is not complete: it may still get a value, or another option may follow. -/
structure Pending where
  option : ValueOption
  value : Option String
  deriving DecidableEq, Repr

/-- What was read on one side of the command. -/
structure Given where
  values : List (ValueOption × String) := []
  dryRun : Bool := false
  pending : Option Pending := none
  deriving DecidableEq, Repr

namespace Given

/-- Completes an option. A missing value is noticed first, then a repeated option, then a value of
the wrong kind. -/
def accept (g : Given) (o : ValueOption) (value : Option String) : Except Usage Given :=
  match value with
  | none => .error .invalidValue
  | some value =>
    if (g.values.lookup o).isSome then .error .argumentConflict
    else if o.accepts value then .ok { g with values := (o, value) :: g.values }
    else .error .invalidValue

/-- Completes the option that is not complete, if there is one. -/
def settle (g : Given) : Except Usage Given :=
  match g.pending with
  | none => .ok g
  | some p => { g with pending := none }.accept p.option p.value

/-- Whether the next argument is the value of an option, if it can be one. -/
def awaitsValue (g : Given) : Bool := g.pending.any (·.value.isNone)

def supply (g : Given) (value : String) : Given :=
  { g with pending := g.pending.map fun p => { p with value := some value } }

end Given

/-- Cuts a text at its first equals sign. -/
def splitEquals (s : List Char) : String × Option String :=
  match s.dropWhile (· ≠ '=') with
  | [] => (String.ofList s, none)
  | _ :: value => (String.ofList (s.takeWhile (· ≠ '=')), some (String.ofList value))

inductive Shape where
  /-- Two dashes: no options follow. -/
  | separator
  | long (name : String) (value : Option String)
  | short (first : Char)
  | word
  deriving DecidableEq, Repr

def shapeOf (arg : String) : Shape :=
  match arg.toList with
  | ['-', '-'] => .separator
  | '-' :: '-' :: r => let (name, value) := splitEquals r; .long name value
  | '-' :: c :: _ => .short c
  | _ => .word

def long (scope : Scope) (g : Given) (name : String) (value : Option String) :
    Except Usage Given :=
  let isSwitch := name = "help" || (name = "version" && scope = .top) ||
    (name = "dry-run" && scope = .generate)
  if isSwitch then
    if value.isSome then .error .tooManyValues
    else do
      let g ← g.settle
      match name with
      | "help" => .error .displayHelp
      | "version" => .error .displayVersion
      | _ => if g.dryRun then .error .argumentConflict else .ok { g with dryRun := true }
  else
    match valueOptions.lookup name with
    | none => .error .unknownArgument
    | some o =>
      if o.allowedIn scope then do
        let g ← g.settle
        match value with
        | some value => g.accept o (some value)
        | none => .ok { g with pending := some ⟨o, none⟩ }
      else .error .unknownArgument

/-- Takes an option of one letter. All of them end the reading. -/
def short (scope : Scope) (g : Given) (first : Char) : Except Usage Given := do
  if first = 'h' then
    let _ ← g.settle
    .error .displayHelp
  else if first = 'V' ∧ scope = .top then
    let _ ← g.settle
    .error .displayVersion
  else .error .unknownArgument

def commandScope? : String → Option Scope
  | "generate" => some .generate
  | "check" => some .check
  | "version" => some .version
  | _ => none

def helpWord : String := "help"

def isCommandWord (word : String) : Bool := word == helpWord || (commandScope? word).isSome

def help : List String → Usage
  | [] => .displayHelp
  | [word] => if isCommandWord word then .displayHelp else .invalidSubcommand
  | _ => .invalidSubcommand

/-- What a word means that is no command where one is expected. -/
def strayWord (scope : Scope) : Usage :=
  if scope = .top then .invalidSubcommand else .unknownArgument

/-- What the first word after a separator means. There a command is known, but not expected. -/
def strayAfterSeparator (scope : Scope) (word : String) : Usage :=
  if scope = .top ∧ isCommandWord word then .unknownArgument else strayWord scope

/-- Reads the arguments after a command. -/
def readScope (scope : Scope) (g : Given) : List String → Except Usage Given
  | [] => g.settle
  | arg :: r =>
    match shapeOf arg with
    | .separator =>
      match r with
      | [] => g.settle
      | word :: _ => .error (strayAfterSeparator scope word)
    | .long name value => do readScope scope (← long scope g name value) r
    | .short first => do readScope scope (← short scope g first) r
    | .word =>
      if g.awaitsValue then readScope scope (g.supply arg) r else .error (strayWord scope)

/-- Reads all arguments: what stands before the command, the command, and what stands after it. -/
def readTop (g : Given) : List String → Except Usage (Given × Option (Scope × Given))
  | [] => do return (← g.settle, none)
  | arg :: r =>
    let command := if g.awaitsValue then none else commandScope? arg
    match command with
    | some scope => do
      let inner ← readScope scope {} r
      return (← g.settle, some (scope, inner))
    | none =>
      if !g.awaitsValue && arg == helpWord then .error (help r)
      else
        match shapeOf arg with
        | .separator =>
          match r with
          | [] => do return (← g.settle, none)
          | word :: _ => .error (strayAfterSeparator .top word)
        | .long name value => do readTop (← long .top g name value) r
        | .short first => do readTop (← short .top g first) r
        | .word => if g.awaitsValue then readTop (g.supply arg) r else .error (strayWord .top)

def optionsOf (values : List (ValueOption × String)) : RunOptions where
  root := (values.lookup .root).getD "."
  config := values.lookup .config
  overrides := {
    header := values.lookup .header
    hookEnum := values.lookup .hookEnum
    hookTable := values.lookup .hookTable
    recordsDir := values.lookup .recordsDir
    nativeOut := values.lookup .nativeOut
    typingsOut := values.lookup .typingsOut
    scriptNamespace := values.lookup .scriptNamespace
    mismatch := (values.lookup .mismatch).bind Settings.policyOfName }

/-- The command that stands in a scope; without a command word, files are generated. -/
def commandOf : Option (Scope × Given) → Command
  | some (.check, g) => .check (g.values.lookup .report)
  | some (.version, _) => .version
  | some (_, g) => .generate (g.values.lookup .report) g.dryRun
  | none => .generate none false

def read (args : List String) : Except Usage (RunOptions × Command) := do
  let (outer, inner) ← readTop {} args
  let innerValues := (inner.map (·.2.values)).getD []
  return (optionsOf (innerValues ++ outer.values), commandOf inner)

end CommandLine

end ScriptGlue
