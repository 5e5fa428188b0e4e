import ShardMesh.Config.Check
import ShardMesh.Config.Encode
import ShardMesh.Text.Utf8

/-!
# Configurations in files

A file may be missing, be a directory, or hold bytes that are no text. What the environment found
is given; these definitions say what becomes of it.
-/

namespace ShardMesh

/-- The text of a file. -/
def textOfFile (content : Except FileFault Bytes) : Except FileFault String := do
  match (← content).toText? with
  | some text => .ok text
  | none => .error .notText

/-- The refusal of a configuration file that cannot be used: a missing file cannot be opened, and
any other cannot be read. -/
def FileFault.loadError : FileFault → ProtocolError
  | .missing => .config ("Failed to open config file: " ++ FileFault.missing.text)
  | fault => .config ("Failed to read config file: " ++ fault.text)

/-- The refusal of a document that is no configuration. -/
def DocumentError.error : DocumentError → ProtocolError
  | .malformed | .unfit _ => .config "Failed to parse TOML"

/-- The refusal of saving where that is not possible. -/
def FileFault.saveError (fault : FileFault) : ProtocolError :=
  .config ("Failed to write config file: " ++ fault.text)

/-- A document that describes the defaults. -/
def MeshConfig.example : String := ((MeshConfig.toToml {}).toOption).getD ""

/-- Why nothing can be logged as configured, if that is so, given which paths are directories. -/
def LoggingConfig.outputError? (isDirectory : String → Bool) (c : LoggingConfig) :
    Option ProtocolError :=
  match c.logToFile, c.logFilePath with
  | false, _ => none
  | true, none => some (.config "log_to_file is set without log_file_path")
  | true, some path =>
    (openFault? isDirectory path).map fun fault =>
      .config ("Failed to open log file: " ++ fault.text)

end ShardMesh
