-- SUMMARY: Settings loaded from a file and overridden by the environment.
import ZonePool.Config
import ZonePool.Json.Reader
import ZonePool.Text.Cut
import ZonePool.Text.Utf8
import ZonePool.Toml.Reader

/-!
# Loading settings

Settings come from a file, whose extension says how it is written; without a
file every setting has its default. Environment variables override what the
file says, and only the result is checked.
-/

namespace ZonePool

/-! ## Files -/

/-- What a path leads to. -/
inductive FileContent where
  | absent
  | directory
  | bytes (content : List UInt8)
  deriving DecidableEq, Repr

structure ConfigFile where
  path : String
  content : FileContent
  deriving DecidableEq, Repr

namespace ConfigFile

/-- The last part of a path. -/
def fileName (path : List Char) : List Char :=
  (path.reverse.takeWhile (· != '/')).reverse

/-- What follows the last dot of a file name; a name with no other dot than its first character has
no extension. -/
def extension? (path : String) : Option String :=
  let name := fileName path.toList
  match Text.cut (· != '.') name.reverse with
  | (_, []) => none
  | (ending, _ :: stem) =>
    if stem.isEmpty ∨ name = ['.', '.'] then none else some (String.ofList ending.reverse)

end ConfigFile

/-! ## Faults -/

/-- Why settings could not be loaded. -/
inductive LoadFault where
  /-- The file cannot be read as text. -/
  | unreadable
  | badToml
  | badJson
  | unknownFormat (extension : String)
  | noExtension
  | invalid (fault : Config.Fault)
  deriving DecidableEq, Repr

def LoadFault.message : LoadFault → String
  | .unreadable => "config file cannot be read"
  | .badToml => "config file is not valid TOML"
  | .badJson => "config file is not valid JSON"
  | .unknownFormat extension =>
    "unsupported config format: ." ++ extension ++ ", use .toml or .json"
  | .noExtension => "config file has no extension, use .toml or .json"
  | .invalid fault => (Failure.config fault.detail).message

namespace Config

/-! ## Reading -/

/-- Settings in a text of the format that a file extension names. -/
def parse (extension : Option String) (text : List Char) : Except LoadFault Config :=
  match extension with
  | none => .error .noExtension
  | some extension =>
    if extension = "toml" then
      match (Toml.read? text).bind (ofDocument? .ignored) with
      | some c => .ok c
      | none => .error .badToml
    else if extension = "json" then
      match (Json.read? text).bind (ofDocument? .refused) with
      | some c => .ok c
      | none => .error .badJson
    else .error (.unknownFormat extension)

/-- The settings that a file holds; without a file, the defaults. -/
def ofFile (file : ConfigFile) : Except LoadFault Config :=
  match file.content with
  | .absent => .ok {}
  | .directory => .error .unreadable
  | .bytes content =>
    match Text.decodeUtf8? content with
    | none => .error .unreadable
    | some text => parse (ConfigFile.extension? file.path) text

/-! ## Overrides -/

/-- The items of a list with commas, trimmed and without blank ones. -/
def splitAddresses (value : String) : List String :=
  ((value.toList.splitOn ',').map fun item => Text.trim (String.ofList item)).filter
    fun item => !item.isEmpty

/-- Take the address list from the environment. -/
def overrideAddresses (env : Environment) (c : Config) : Config :=
  match env.get? "ADDRPOOL_ADDRESSES" with
  | some value => { c with addresses := splitAddresses value }
  | none => c

/-- Take the check interval from the environment, if it is a number there. -/
def overrideInterval (env : Environment) (c : Config) : Config :=
  match (env.get? CheckInterval.variableName).bind fun v => Text.readWord? (Text.trim v) with
  | some secs => { c with healthCheckSecs := secs }
  | none => c

/-- Take the URL of the directory from the environment; the other directory settings stay. -/
def overrideDirectory (env : Environment) (c : Config) : Config :=
  match env.get? "ADDRPOOL_DIRECTORY_URL" with
  | some url =>
    match c.directory with
    | some d => { c with directory := some { d with url } }
    | none => { c with directory := some { url } }
  | none => c

/-- Take the address of the admin server from the environment. -/
def overrideAdmin (env : Environment) (c : Config) : Config :=
  match env.get? "ADDRPOOL_ADMIN_LISTEN" with
  | some address => { c with adminListen := address }
  | none => c

def override (env : Environment) (c : Config) : Config :=
  overrideAdmin env (overrideDirectory env (overrideInterval env (overrideAddresses env c)))

/-! ## Loading -/

/-- Settings that are valid after all overrides. -/
def load (file : ConfigFile) (env : Environment) : Except LoadFault Config :=
  match ofFile file with
  | .error fault => .error fault
  | .ok c =>
    let c := c.override env
    match c.fault? with
    | some fault => .error (.invalid fault)
    | none => .ok c

end Config

end ZonePool
