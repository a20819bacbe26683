import AssetLoom.BuildMode
import AssetLoom.Compiler.Recipe
import AssetLoom.Config.Diagnostic
import AssetLoom.Rule
import AssetLoom.Toml.Parser
/-!
# Configuration

A configuration sets how a build is carried out, and by which rules URIs are given. It is read
from a TOML document; what a document holds besides is ignored, but reported.

* `Config.ofEntries?`: the configuration that a document describes, and the fields it ignores.
* `Config.validate`: all that is wrong with the values of a configuration.
* `Config.ruleSet`: the rules, ready for use.
* `Config.parse`: reads and validates a document.
-/

namespace AssetLoom

/-- The settings of a build. -/
structure BuildSettings where
  /-- The name of the mode. -/
  mode : String := "development"
  /-- Overrides whether the mode removes comments. -/
  stripComments : Option Bool := none
  /-- Whether every step of a compile is traced. -/
  verbose : Bool := false
  deriving DecidableEq, Repr

/-- A rule as it is configured. -/
structure RuleEntry where
  pattern : String
  target : Option Toml.Value := none
  deriving Repr

/-- A configuration. -/
structure Config where
  /-- The path of the file it was read from, or nothing. -/
  path : String := ""
  build : BuildSettings := {}
  rules : List RuleEntry := []
  deriving Repr

namespace Config

open Toml

/-- The name of the file that is looked for. -/
def fileName : String := "tplc.toml"

/-! ## Reading documents -/

/-- The field that a date counts as when a table is expected. -/
def dateField : String := "$__toml_private_datetime"

/-- A string, if the value is one. -/
def asString? : Value → Option String
  | .string text => some text
  | _ => none

/-- A truth value, if the value is one. -/
def asBool? : Value → Option Bool
  | .boolean b => some b
  | _ => none

/-- Reads the fields of a table one after the other. What is read comes with the fields that are
ignored; there is nothing if a type is wrong. -/
def readFields {α : Type} (read : α → String → Value → Option (α × List String)) :
    α → List (String × Value) → Option (α × List String)
  | a, [] => some (a, [])
  | a, (name, value) :: rest => do
    let (a, ignored) ← read a name value
    let (a, others) ← readFields read a rest
    return (a, ignored ++ others)

/-- Reads a value in the place of a table: its fields by name, or those of an array in the order
`names`. -/
def readStructure {α : Type} (names : List String)
    (read : α → String → Value → Option (α × List String))
    (start : α) : Value → Option (α × List String)
  | .table entries => readFields read start entries
  | .datetime written => readFields read start [(dateField, .string written)]
  | .array items => readFields read start (names.zip items)
  | _ => none

/-- Reads a field of the build settings. -/
def readBuildField (settings : BuildSettings) (name : String) (value : Value) :
    Option (BuildSettings × List String) :=
  match name with
  | "mode" => (asString? value).map fun mode => ({ settings with mode }, [])
  | "strip_comments" =>
    (asBool? value).map fun b => ({ settings with stripComments := some b }, [])
  | "verbose" => (asBool? value).map fun verbose => ({ settings with verbose }, [])
  | _ => some (settings, [name])

/-- Reads the build settings. -/
def readBuild (value : Value) : Option (BuildSettings × List String) :=
  readStructure ["mode", "strip_comments", "verbose"] readBuildField {} value

/-- Reads a field of a rule. -/
def readRuleField (rule : Option String × Option Value) (name : String) (value : Value) :
    Option ((Option String × Option Value) × List String) :=
  match name with
  | "pattern" => (asString? value).map fun pattern => ((some pattern, rule.2), [])
  | "to" => some ((rule.1, some value), [])
  | _ => some (rule, [name])

/-- Reads a rule, which must have a pattern. -/
def readRule (value : Value) : Option (RuleEntry × List String) := do
  match ← readStructure ["pattern", "to"] readRuleField (none, none) value with
  | ((some pattern, target), ignored) => return ({ pattern, target }, ignored)
  | ((none, _), _) => none

/-- Reads rules, the first of which has the given index. -/
def readRules : Nat → List Value → Option (List RuleEntry × List String)
  | _, [] => some ([], [])
  | index, value :: rest => do
    let (rule, ignored) ← readRule value
    let (rules, others) ← readRules (index + 1) rest
    return (rule :: rules, ignored.map (s!"{index}." ++ ·) ++ others)

/-- Reads a field of a configuration. -/
def readField (config : Config) (name : String) (value : Value) : Option (Config × List String) :=
  match name with
  | "build" =>
    (readBuild value).map fun (build, ignored) =>
      ({ config with build }, ignored.map ("build." ++ ·))
  | "rules" =>
    match value with
    | .array items =>
      (readRules 0 items).map fun (rules, ignored) =>
        ({ config with rules }, ignored.map ("rules." ++ ·))
    | _ => none
  | _ => some (config, [name])

/-- The configuration that a document describes, and the fields that are ignored. -/
def ofEntries? (entries : List (String × Value)) : Option (Config × List String) :=
  readFields readField {} entries

/-! ## Using a configuration -/

/-- The mode of the build; an unknown one counts as development. -/
def mode (config : Config) : BuildMode :=
  (BuildMode.ofName? config.build.mode).getD .development

/-- The options for compilers. -/
def compileOptions (config : Config) : CompileOptions where
  stripComments := config.build.stripComments.getD config.mode.stripsComments

/-- The diagnostic for a mode, if it is unknown. -/
def modeDiagnostics (mode : String) : List Diagnostic :=
  match BuildMode.ofName? mode with
  | some _ => []
  | none =>
    [{ field := "build.mode", message := s!"unknown mode `{mode}`",
       hint := some "use `production` or `development`" }]

/-- The diagnostic for the pattern of the rule with an index. -/
def patternDiagnostic (index : Nat) (fault : Pattern.Fault) : Diagnostic where
  field := s!"rules[{index}].pattern"
  message := fault.message

/-- The diagnostics for the patterns of rules, the first of which has the given index. -/
def patternDiagnostics : Nat → List RuleEntry → List Diagnostic
  | _, [] => []
  | index, entry :: rest =>
    match Pattern.parse? entry.pattern with
    | .ok _ => patternDiagnostics (index + 1) rest
    | .error fault => patternDiagnostic index fault :: patternDiagnostics (index + 1) rest

/-- All that is wrong with a configuration: its mode, and then its patterns. -/
def diagnostics (config : Config) : List Diagnostic :=
  modeDiagnostics config.build.mode ++ patternDiagnostics 0 config.rules

/-- Fails if there are diagnostics. -/
def validate (config : Config) : Except ConfigError Unit :=
  match config.diagnostics with
  | [] => .ok ()
  | ds => .error (.diagnostics ds)

/-- Makes rules out of entries, the first of which has the given index; collects the diagnostics
of those that cannot be made. -/
def buildRules : Nat → List RuleEntry → List Diagnostic × RuleSet
  | _, [] => ([], [])
  | index, entry :: rest =>
    let (ds, rules) := buildRules (index + 1) rest
    match Pattern.parse? entry.pattern with
    | .ok pattern => (ds, { pattern, target := entry.target } :: rules)
    | .error fault => (patternDiagnostic index fault :: ds, rules)

/-- The rules of a configuration, in order. -/
def ruleSet (config : Config) : Except ConfigError RuleSet :=
  match buildRules 0 config.rules with
  | ([], rules) => .ok rules
  | (ds, _) => .error (.diagnostics ds)

/-- Reads a document, but does not validate it; gives the fields that are ignored, too. -/
def read (t : Text) : Except ConfigError (Config × List String) :=
  match (parse? t).bind ofEntries? with
  | some (config, ignored) => .ok (config, ignored)
  | none => .error .toml

/-- Reads and validates the configuration that a text describes. -/
def parse (t : Text) : Except ConfigError Config := do
  let (config, _) ← read t
  config.validate
  return config

end Config

end AssetLoom
