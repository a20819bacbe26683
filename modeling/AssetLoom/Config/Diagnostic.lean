import AssetLoom.Terminal
/-!
# Errors of a configuration

All that is wrong with a configuration is reported at once. A diagnostic names the field, says
what is wrong with it and may give a hint.
-/

namespace AssetLoom

/-- One problem of a configuration. -/
structure Diagnostic where
  /-- The field it is about, such as `rules[1].pattern`. -/
  field : String
  message : String
  hint : Option String := none
  deriving DecidableEq, Repr

namespace Diagnostic

open Terminal

/-- The text of a diagnostic. -/
def render (styled : Bool) (d : Diagnostic) : String :=
  let head := paint styled .dimmed "[" ++ paint styled .cyan d.field ++ paint styled .dimmed "]"
  let body := paint styled .red "→" ++ " " ++ d.message
  let hint := match d.hint with
    | some hint => "\n  " ++ paint styled .yellow "hint:" ++ " " ++ hint
    | none => ""
  head ++ "\n" ++ body ++ hint

/-- The text of all diagnostics; their number is given if there are several. -/
def renderAll (styled : Bool) (ds : List Diagnostic) : String :=
  let total :=
    if ds.length > 1 then
      "\n\n" ++ paint styled .dimmed "found" ++ " " ++ paint styled .alert (toString ds.length)
        ++ " " ++ paint styled .dimmed "errors"
    else ""
  paint styled .alert "config validation failed:" ++ "\n\n"
    ++ "\n\n".intercalate (ds.map (render styled)) ++ total

end Diagnostic

/-- Why a configuration cannot be used. -/
inductive ConfigError
  /-- The file at `path` cannot be read as text. -/
  | io (path : String)
  /-- The text is no TOML document, or not one of a configuration. -/
  | toml
  /-- Some of its values are wrong; there is at least one diagnostic. -/
  | diagnostics (ds : List Diagnostic)
  deriving DecidableEq, Repr

/-- The message of an error. -/
def ConfigError.message (styled : Bool) : ConfigError → String
  | io path => s!"IO error when reading `{path}`"
  | toml => "Config file parsing error"
  | diagnostics ds => Diagnostic.renderAll styled ds

end AssetLoom
