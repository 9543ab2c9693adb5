-- SUMMARY: The command line: a dry run of the service with the settings of a file.
import ZonePool.Service

/-!
# The command line

`zonepool [-c FILE] [--admin-listen ADDRESS]` loads the settings, starts the
service on a host whose links are down, and prints the page that shows the
tiers. Settings that do not load and addresses that cannot be listened on are
reported as the service would report them.
-/

namespace ZonePool.CommandLine

/-- What the command line asks for. -/
structure Arguments where
  config : String := "zonepool.toml"
  adminListen : Option String := none

/-- Read the arguments; `none` when they make no sense. -/
def Arguments.ofList (a : Arguments) : List String → Option Arguments
  | [] => some a
  | "-c" :: path :: rest => { a with config := path }.ofList rest
  | "--config" :: path :: rest => { a with config := path }.ofList rest
  | "--admin-listen" :: address :: rest => { a with adminListen := some address }.ofList rest
  | _ => none

def usage : String :=
  "usage: zonepool [-c FILE] [--admin-listen ADDRESS]"

/-- The environment variables that settings depend on. -/
def variableNames : List String :=
  ["ADDRPOOL_ADDRESSES", "ADDRPOOL_HEALTH_CHECK_INTERVAL", "ADDRPOOL_DIRECTORY_URL",
    "ADDRPOOL_ADMIN_LISTEN"]

/-- What is at a path. -/
def readContent (path : String) : IO FileContent := do
  try
    let bytes ← IO.FS.readBinFile path
    return .bytes bytes.toList
  catch e =>
    match e with
    | .noFileOrDirectory .. => return .absent
    | _ => return .directory

def readEnvironment : IO Environment := do
  let mut env : Environment := .empty
  for name in variableNames do
    if let some value ← IO.getEnv name then
      env := env.insert name value
  return env

end ZonePool.CommandLine

open ZonePool ZonePool.CommandLine in
def main (args : List String) : IO UInt32 := do
  match ({} : Arguments).ofList args with
  | none =>
    IO.eprintln usage
    return 2
  | some a =>
    let file : ConfigFile := ⟨a.config, ← readContent a.config⟩
    let env ← readEnvironment
    match Launch.run { file, env, adminListen := a.adminListen } (.isolated []) [] with
    | .failed fault _ =>
      IO.eprintln ("error: " ++ fault.message)
      return 1
    | _ =>
      match (Service.start { file, env, adminListen := a.adminListen } (.isolated [])).1 with
      | .ok service =>
        IO.println (Json.pretty (Admin.tiersBody service.session.pool.store))
        return 0
      | .error _ => return 1
