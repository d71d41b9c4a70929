/-!
The arguments of the command: options that may stand anywhere, a subcommand, and what belongs to it.
Short options may be written together, and the value of an option as a part of its argument.
-/

namespace CalendarSearch.Command

inductive Action where
  | compile (filter : String)
  | query (filter snapshot : String) (collections : List String) (recursive : Bool)
  | showSettings
  | settingsPath
deriving DecidableEq, Repr

structure Request where
  verbose : Bool
  json : Bool
  /-- The file of settings, if one is named. -/
  config : Option String
  action : Action
deriving DecidableEq, Repr

inductive Stop where
  | usage
  | help
  /-- The version is asked for, of the command or of a subcommand. -/
  | version (name : String)
deriving DecidableEq, Repr

/-- The places where options may stand: after the command, or after a subcommand. -/
inductive Level where
  | root | compile | query | config | configShow | configPath
deriving DecidableEq, Repr

inductive OptionName where
  | verbose | json | config | help | version | filter | snapshot | collection | recursive
deriving DecidableEq, Repr

namespace OptionName

def takesValue : OptionName → Bool
  | config | filter | snapshot | collection => true
  | _ => false

def isRepeatable (o : OptionName) : Bool := o = collection

/-- Is the value a path, which cannot be empty? -/
def isPath : OptionName → Bool
  | config | filter | snapshot => true
  | _ => false

end OptionName

namespace Level

def command : Level → String
  | root => "calq"
  | compile => "calq-compile"
  | query => "calq-query"
  | config => "calq-config"
  | configShow => "calq-config-show"
  | configPath => "calq-config-path"

def long? (level : Level) (name : String) : Option OptionName :=
  match name with
  | "verbose" => some .verbose
  | "json" => some .json
  | "config" => some .config
  | "help" => some .help
  | "version" => some .version
  | _ =>
    if level = query then
      match name with
      | "filter" => some .filter
      | "snapshot" => some .snapshot
      | "collection" => some .collection
      | "recursive" => some .recursive
      | _ => none
    else none

def short? (level : Level) (name : Char) : Option OptionName :=
  match name with
  | 'v' => some .verbose
  | 'h' => some .help
  | 'V' => some .version
  | _ =>
    if level = query then
      match name with
      | 'f' => some .filter
      | 's' => some .snapshot
      | 'c' => some .collection
      | 'r' => some .recursive
      | _ => none
    else none

def sub? (level : Level) (name : String) : Option Level :=
  match level, name with
  | root, "compile" => some compile
  | root, "query" => some query
  | root, "q" => some query
  | root, "config" => some config
  | config, "show" => some configShow
  | config, "path" => some configPath
  | _, _ => none

/-- Is this a level with subcommands, one of which shows help? -/
def hasSubcommands (level : Level) : Bool := level = root || level = config

/-- How many arguments that are no options belong to a level. -/
def operands (level : Level) : Nat := if level = compile then 1 else 0

end Level

structure Given where
  options : List (OptionName × String) := []
  operands : List String := []
  /-- The last option, if its value was an argument of its own. Whether it may stand there is
  checked when the level goes on. -/
  unchecked : Option (OptionName × String) := none

namespace Given

def has (g : Given) (o : OptionName) : Bool := g.options.any (·.1 = o)

def value? (g : Given) (o : OptionName) : Option String := g.options.lookup o

def values (g : Given) (o : OptionName) : List String :=
  (g.options.filter (·.1 = o)).map (·.2)

/-- Notes an option, if it may stand there. Help and the version stop everything else. -/
def noteOption (level : Level) (g : Given) (o : OptionName) (value : String) : Except Stop Given :=
  if o = .help then .error .help
  else if o = .version then .error (.version level.command)
  else if g.has o && !o.isRepeatable then .error .usage
  else if o.isPath && value.isEmpty then .error .usage
  else .ok { g with options := g.options ++ [(o, value)] }

/-- Notes the option that is still unchecked. -/
def settle (level : Level) (g : Given) : Except Stop Given :=
  match g.unchecked with
  | none => .ok g
  | some (o, value) => { g with unchecked := none }.noteOption level o value

/-- Goes on with an option whose value, if it takes one, is a part of its argument. -/
def addOption (level : Level) (g : Given) (o : OptionName) (value : String) :
    Except Stop Given := do
  (← g.settle level).noteOption level o value

/-- Goes on with an option whose value is an argument of its own. -/
def addUnchecked (level : Level) (g : Given) (o : OptionName) (value : String) :
    Except Stop Given := do
  return { ← g.settle level with unchecked := some (o, value) }

def addOperand (level : Level) (g : Given) (value : String) : Except Stop Given := do
  let g ← g.settle level
  if g.operands.length < level.operands && !value.isEmpty then
    return { g with operands := g.operands ++ [value] }
  else .error .usage

end Given

/-- Does an argument look like an option, and so cannot be the value of one? -/
def looksLikeOption (arg : String) : Bool :=
  match arg.toList with
  | '-' :: _ :: _ => true
  | _ => false

/-- Reads short options that are written together. If the last one waits for a value, it is given
back. -/
def shortOptions (level : Level) (g : Given) : List Char → Except Stop (Given × Option OptionName)
  | [] => .ok (g, none)
  | c :: cs =>
    match level.short? c with
    | none => .error .usage
    | some o =>
      if o.takesValue then
        match cs with
        | [] => .ok (g, some o)
        | '=' :: value => (g.addOption level o (String.ofList value)).map (·, none)
        | value => (g.addOption level o (String.ofList value)).map (·, none)
      else
        match g.addOption level o "" with
        | .ok g => shortOptions level g cs
        | .error stop => .error stop

/-- Reads a long option without its hyphens. If it waits for a value, it is given back. -/
def longOption (level : Level) (g : Given) (cs : List Char) :
    Except Stop (Given × Option OptionName) :=
  let name := String.ofList (cs.takeWhile (· ≠ '='))
  let value := (cs.dropWhile (· ≠ '=')).tail?
  match level.long? name, value with
  | none, _ => .error .usage
  | some o, none =>
    if o.takesValue then .ok (g, some o) else (g.addOption level o "").map (·, none)
  | some o, some value =>
    if o.takesValue then (g.addOption level o (String.ofList value)).map (·, none)
    else .error .usage

/-- The options that one argument holds; `none` if the argument is no option. -/
def readOptions (level : Level) (g : Given) (arg : String) :
    Option (Except Stop (Given × Option OptionName)) :=
  match arg.toList with
  | '-' :: '-' :: cs => some (longOption level g cs)
  | '-' :: c :: cs => some (shortOptions level g (c :: cs))
  | _ => none

/-- What comes of asking for help with a subcommand, named from a level down. -/
def helpWith (level : Level) : List String → Stop
  | [] => .help
  | name :: names =>
    match level.sub? name with
    | some next => helpWith next names
    | none => if level.hasSubcommands && name = "help" && names.isEmpty then .help else .usage

/-- Reads the arguments from a level down to the last subcommand. Those read at the levels above are
given; an answer lists the levels from the top, where the last option of each may be unchecked. -/
def readLevels (above : List (Level × Given)) (level : Level) (g : Given) :
    List String → Except Stop (List (Level × Given))
  | [] => .ok (above ++ [(level, g)])
  | arg :: rest =>
    if arg = "--" then do
      return above ++ [(level, ← rest.foldlM (Given.addOperand level) g)]
    else if level.hasSubcommands && arg = "help" then .error (helpWith level rest)
    else match level.sub? arg with
      | some next => readLevels (above ++ [(level, g)]) next {} rest
      | none =>
        match readOptions level g arg with
        | none => do readLevels above level (← g.addOperand level arg) rest
        | some (.error stop) => .error stop
        | some (.ok (g, none)) => readLevels above level g rest
        | some (.ok (g, some o)) =>
          match rest with
          | [] => .error .usage
          | value :: rest =>
            if looksLikeOption value then .error .usage
            else do readLevels above level (← g.addUnchecked level o value) rest

def actionOf (level : Level) (g : Given) : Except Stop Action :=
  match level with
  | .root => .error .usage
  | .compile =>
    match g.operands with
    | [filter] => .ok (.compile filter)
    | _ => .error .usage
  | .query =>
    match g.value? .filter, g.value? .snapshot with
    | some filter, some snapshot =>
      .ok (.query filter snapshot (g.values .collection) (g.has .recursive))
    | _, _ => .error .usage
  | .config => .ok .showSettings
  | .configShow => .ok .showSettings
  | .configPath => .ok .settingsPath

/-- The request that the arguments make. A level ends after the levels below it, so an option that
is unchecked before a subcommand comes after all that the subcommand asks for. Options that may
stand anywhere count wherever they stand, and of several values the innermost. Without the option,
the settings are those that the environment names, whose name cannot be empty. -/
def readArguments (args : List String) (fromEnvironment : Option String) : Except Stop Request := do
  let levels ← (← readLevels [] .root {} args).mapM fun (level, g) => (level, ·) <$> g.settle level
  let some (level, last) := levels.getLast? | .error .usage
  let action ← actionOf level last
  let named := levels.filterMap fun (_, g) => g.value? .config
  if fromEnvironment = some "" && named.length < levels.length then .error .usage
  return {
    verbose := levels.any fun (_, g) => g.has .verbose
    json := levels.any fun (_, g) => g.has .json
    config := named.getLast?.or fromEnvironment
    action }

end CalendarSearch.Command
