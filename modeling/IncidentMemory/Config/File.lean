import IncidentMemory.Config.Basic
import IncidentMemory.Failure
import IncidentMemory.Json.Reader
import IncidentMemory.Toml.Reader
import IncidentMemory.Yaml.Reader

/-!
# Configuration files

A configuration file is text in one of three formats, told by the extension of its name. Whether the
file can be read at all is settled before its name is looked at.
-/

namespace IncidentMemory

/-- The formats of configuration files. -/
inductive FileFormat where
  /-- TOML. -/
  | toml
  /-- JSON. -/
  | json
  /-- YAML. -/
  | yaml
  deriving DecidableEq, Repr

namespace FileFormat

/-- The extension of a file's name: what follows its last point, unless the name starts there. -/
def extension? (path : String) : Option String :=
  let name := (path.toList.reverse.takeWhile (· ≠ '/')).reverse
  match Text.splitOnce '.' name.reverse with
  | some (ext, before) => if before.isEmpty then none else some (String.ofList ext.reverse)
  | none => none

/-- The format of a file's name. -/
def ofPath? (path : String) : Option FileFormat :=
  (extension? path).bind fun ext =>
    [("toml", toml), ("json", json), ("yaml", yaml), ("yml", yaml)].lookup ext

/-- A typed value from a text of the format. -/
def read {α : Type} (reader : Reader α) (text : String) : FileFormat → Reading α
  | .toml => reader (Toml.read text)
  | .json => Json.decode reader (Text.encode text)
  | .yaml => reader (Yaml.read text)

end FileFormat

/-- **The configuration of a file**, given its name and, if there is one, its contents. -/
def Config.ofFile (path : String) (contents : Option (List UInt8)) : Outcome Config :=
  match contents with
  | none => .error (.io "no such file")
  | some bytes =>
    match Text.decode? bytes with
    | none => .error (.io "the file is not UTF-8")
    | some text =>
      match FileFormat.ofPath? path with
      | none => .error (.configuration
          "Unsupported config file format. Use .toml, .json, or .yaml")
      | some format =>
        match format.read Config.read text with
        | .ok c => .ok c
        | .error fault => .error (.configuration fault.message)

end IncidentMemory
