import CalendarSearch.Command.Run

/-!
The command line: it reads the files that a request is about, runs the request and prints what comes
of it.
-/

namespace CalendarSearch.Command

/-- What is at a path whose file could not be read. The number of the error tells a directory from a
path that goes through a file; its sign depends on the call that failed. -/
def entryOf : IO.Error → FileEntry
  | .noFileOrDirectory .. => .absent .notFound
  | .inappropriateType _ number _ =>
    if number.toInt32.toInt.natAbs = 20 then .absent .notDirectory else .directory
  | .invalidArgument _ number details =>
    if number.toInt32.toInt.natAbs = 36 then .absent .nameTooLong else .locked (.other details)
  | e => .locked (.other (toString e))

def lookUp (path : String) : IO FileEntry := do
  try return .file (← IO.FS.readBinFile path)
  catch e => return entryOf e

/-- The lines of a text, each cut at a separator. -/
def rows (separator : Char) (text : String) : List (List String) :=
  (Text.splitAt '\n' text.toList).map fun line => (Text.splitAt separator line).map String.ofList

/-- The number of the user in the status of a process. -/
def user? (status : String) : Option String :=
  (rows '\t' status).findSome? fun
    | "Uid:" :: user :: _ => some user
    | _ => none

/-- The home directory of a user in the table of accounts, unless its path is empty. -/
def accountHome? (accounts user : String) : Option String :=
  let home? := (rows ':' accounts).findSome? fun
    | [_, _, number, _, _, home, _] => if number = user then some home else none
    | _ => none
  home?.filter (!·.isEmpty)

/-- The home directory that the system keeps for the user that the process runs as. -/
def accountHome : IO (Option String) := do
  match (← lookUp "/proc/self/status").text, (← lookUp "/etc/passwd").text with
  | .ok status, .ok accounts => return (user? status).bind (accountHome? accounts)
  | _, _ => return none

/-- The variables of the environment that matter, and the home of the account. -/
def environment : IO Environment := do
  return {
    config := ← IO.getEnv "CALDAV_QUERY_CONFIG"
    configHome := ← IO.getEnv "XDG_CONFIG_HOME"
    home := ← IO.getEnv "HOME"
    accountHome := ← accountHome }

def runMain (args : List String) : IO UInt32 := do
  let env ← environment
  let outcome ← match readArguments args env.config with
    | .error stop => pure stop.outcome
    | .ok request => do
      let entries ← (request.paths env).mapM fun path => return (path, ← lookUp path)
      pure (run env (fun path => (entries.lookup path).getD (.absent .notFound)) request)
  IO.eprint outcome.stderr
  IO.print outcome.stdout
  return outcome.exit.toUInt32

end CalendarSearch.Command

def main (args : List String) : IO UInt32 := CalendarSearch.Command.runMain args
