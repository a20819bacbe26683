import AssetLoom.Config.Basic
import AssetLoom.Config.Files
/-!
# Finding and loading a configuration

The file with the configuration is looked for in a directory and then in those above it.

* `findConfigFile`: the nearest file with a name.
* `Config.load`: the configuration for a directory, the default one if there is no file.
-/

namespace AssetLoom

/-- The nearest file with the given name in `start` or above it. An absolute name only has to
exist. -/
def findConfigFile (isFile pathExists : String → Bool) (start name : String) : Option String :=
  if FilePath.isAbsolute name then
    if pathExists name then some name else none
  else
    ((FilePath.ancestors start).map (FilePath.join · name)).find? isFile

/-- A line for the log: its topic and its message. -/
abbrev Notice := String × String

namespace Config

/-- The warnings about ignored fields of the file at a path. -/
def ignoredNotices (path : String) : List String → List Notice
  | [] => []
  | fields =>
    let name := (FilePath.fileName? path).getD path
    ("warning", s!"unknown fields in {name}, ignoring:")
      :: fields.map fun field => ("warning", s!"- {field}")

/-- Reads the file at a path; gives the warnings, too. -/
def ofFile (tree : FileTree) (path : String) : Except ConfigError Config × List Notice :=
  match (tree.readFile? path).bind String.fromUTF8? with
  | none => (.error (.io path), [])
  | some text =>
    match read text.toList with
    | .error e => (.error e, [])
    | .ok (config, ignored) =>
      let config := { config with path }
      (config.validate.map fun _ => config, ignoredNotices path ignored)

/-- The configuration for a directory; with `trace` it is noted that there is none. -/
def load (tree : FileTree) (trace : Bool) (start : String) :
    Except ConfigError Config × List Notice :=
  match findConfigFile tree.isFile tree.pathExists start fileName with
  | some path => ofFile tree path
  | none =>
    let notice := ("config", s!"no {fileName} above {start}, using defaults")
    (.ok {}, if trace then [notice] else [])

end Config

end AssetLoom
