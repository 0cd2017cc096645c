import ShapeExport.CommandLine.Similarity
import ShapeExport.Config.Basic
import ShapeExport.FileTree

/-!
# Arguments

The arguments of the command: a target and an output, and options before, between or behind them.

* `Opt`, `Opt.names` : the options;
* `UsageError`, `ArgumentFault` : what is wrong with arguments;
* `scan` : tells options and other arguments apart;
* `Invocation.ofArguments` : the arguments as values. The options are read in the order in which
  they were first given, before the other arguments.
-/

namespace ShapeExport.CommandLine

inductive Opt
  | config
  | language
  | layout
  | bigint
  | registry
  | logLevel
  | help
deriving DecidableEq, Repr

namespace Opt

def all : List Opt := [config, language, layout, bigint, registry, logLevel, help]

def longName : Opt → String
  | config => "--config"
  | language => "--language"
  | layout => "--layout"
  | bigint => "--bigint"
  | registry => "--registry"
  | logLevel => "--log-level"
  | help => "--help"

def shortName? : Opt → Option String
  | config => some "-c"
  | language => some "-l"
  | _ => none

/-- The option in a message. -/
def hint (o : Opt) : String :=
  " / ".intercalate ((o.longName :: o.shortName?.toList).map Text.quoted)

def takesValue : Opt → Bool
  | registry | help => false
  | _ => true

end Opt

/-- Why a target does not lead to a collection. -/
inductive TargetFault
  | missingModule (target name : String)
  /-- A part of a module that has no parts. -/
  | notAPackage (target name parent : String)
  | missingMember (owner member : String)
  | notACollection (target : String)
  | memberOfRegistry
  | noMember
deriving DecidableEq, Repr

inductive UsageError
  | unknownOption (name : String) (similar : List String)
  | noValueExpected (option : String)
  | missingValue (option : String)
  | missingArgument (name : String)
  | extraArguments (arguments : List String)
  | notAChoice (option : Opt) (value : String) (choices : List String)
  | missingPath (option : Opt) (path : String)
  | badTarget (fault : TargetFault)
deriving DecidableEq, Repr

namespace TargetFault

def cannotImport (target : String) : String := "Cannot import " ++ Text.quoted target ++ ": "

def message : TargetFault → String
  | missingModule target name =>
    cannotImport target ++ "No module named " ++ Text.quoted name
  | notAPackage target name parent =>
    cannotImport target ++ "No module named " ++ Text.quoted name ++ "; " ++ Text.quoted parent
      ++ " is not a package"
  | missingMember owner member =>
    Text.quoted owner ++ " has no attribute " ++ Text.quoted member
  | notACollection target => Text.quoted target ++ " is not a TypeCollection"
  | memberOfRegistry => "--registry takes a module, not module:attribute"
  | noMember => "Expected module:attribute, or a module with --registry"

end TargetFault

/-- The options to propose for one that is not known. -/
def proposal : List String → String
  | [] => ""
  | [name] => " Did you mean " ++ name ++ "?"
  | names => " (Possible options: " ++ ", ".intercalate names ++ ")"

namespace UsageError

def message : UsageError → String
  | unknownOption name similar => "No such option: " ++ name ++ proposal similar
  | noValueExpected option => "Option " ++ Text.quoted option ++ " does not take a value."
  | missingValue option => "Option " ++ Text.quoted option ++ " requires an argument."
  | missingArgument name => "Missing argument '" ++ name ++ "'."
  | extraArguments [argument] => "Got unexpected extra argument (" ++ argument ++ ")"
  | extraArguments arguments =>
    "Got unexpected extra arguments (" ++ " ".intercalate arguments ++ ")"
  | notAChoice option value choices =>
    "Invalid value for " ++ option.hint ++ ": " ++ Text.quoted value ++ " is not one of "
      ++ ", ".intercalate (choices.map Text.quoted) ++ "."
  | missingPath option path =>
    "Invalid value for " ++ option.hint ++ ": Path " ++ Text.quoted path ++ " does not exist."
  | badTarget fault => "Invalid value for TARGET: " ++ fault.message

end UsageError

/-- Why arguments are not taken: for a reason that is explained, or because one is no path at all. -/
inductive ArgumentFault
  | usage (e : UsageError)
  | nullCharacter
deriving DecidableEq, Repr

/-! ## Options and other arguments -/

/-- An option as it was given: its name, and a value that was attached to the name. -/
structure Given where
  option : Opt
  name : String
  attached : Option String

def longOption? (name : String) : Option Opt := Opt.all.find? (·.longName == name)

def shortOption? (name : String) : Option Opt := Opt.all.find? (·.shortName? == some name)

/-- The name and, behind the first equals sign, a value. -/
def cutValue (argument : String) : String × Option String :=
  let cs := argument.toList
  let name := cs.takeWhile (· ≠ '=')
  (String.ofList name,
    if cs.contains '=' then some (String.ofList (cs.drop (name.length + 1))) else none)

/-- An option of one letter, with the value attached to the letter. -/
def readShort (argument : String) : Except UsageError Given :=
  let name := String.ofList (argument.toList.take 2)
  let attached := String.ofList (argument.toList.drop 2)
  match shortOption? name with
  | some option => .ok ⟨option, name, if attached.isEmpty then none else some attached⟩
  | none => .error (.unknownOption name [])

/-- Reads an argument that starts with a dash. -/
def readOption (argument : String) : Except UsageError Given :=
  let (name, attached) := cutValue argument
  match longOption? name with
  | some option => .ok ⟨option, name, attached⟩
  | none =>
    if argument.startsWith "--" then
      .error (.unknownOption name (closeMatches (Opt.all.map Opt.longName) name))
    else readShort argument

/-- The options with their values, and the other arguments. -/
structure Scanned where
  options : List (Opt × String) := []
  others : List String := []

namespace Scanned

def addOption (s : Scanned) (o : Opt) (value : String) : Scanned :=
  { s with options := s.options ++ [(o, value)] }

def addOthers (s : Scanned) (arguments : List String) : Scanned :=
  { s with others := s.others ++ arguments }

end Scanned

/-- Whether an argument is read as an option. -/
def isOption (argument : String) : Bool := argument.startsWith "-" && argument != "-"

/-- An option takes the next argument, whatever that is, if it needs a value and has none attached.
Behind two dashes there are no options. -/
def scan (s : Scanned) : List String → Except UsageError Scanned
  | [] => .ok s
  | argument :: rest =>
    if argument = "--" then .ok (s.addOthers rest)
    else if isOption argument then do
      let given ← readOption argument
      if given.option.takesValue then
        match given.attached, rest with
        | some value, rest => scan (s.addOption given.option value) rest
        | none, value :: rest => scan (s.addOption given.option value) rest
        | none, [] => .error (.missingValue given.name)
      else if given.attached.isSome then .error (.noValueExpected given.name)
      else scan (s.addOption given.option "") rest
    else scan (s.addOthers [argument]) rest
termination_by arguments => arguments.length
decreasing_by all_goals grind

/-! ## Values -/

/-- The values of the options. -/
structure Options where
  config : Option FilePath := none
  language : Option Language := none
  layout : Option Layout := none
  bigint : Option BigIntPolicy := none
  registry : Bool := false
  logLevel : String := "WARNING"

structure Invocation where
  options : Options
  target : String
  output : FilePath

def logLevels : List String := ["DEBUG", "INFO", "WARNING", "ERROR"]

/-- The choice that a value names. -/
def choose {α : Type} (o : Opt) (all : List α) (name : α → String) (value : String) :
    Except ArgumentFault α :=
  match all.find? fun a => name a == value with
  | some a => .ok a
  | none => .error (.usage (.notAChoice o value (all.map name)))

/-- The path of a text, without the two dots that take names back. -/
def resolve (path : String) : Except ArgumentFault FilePath :=
  if path.toList.contains '\x00' then .error .nullCharacter
  else .ok (FilePath.ofText path).normalize

/-- Reads one option. -/
def Options.set (files : FileTree) (options : Options) (o : Opt) (value : String) :
    Except ArgumentFault Options :=
  match o with
  | .config => do
    let path ← resolve value
    match files.node path with
    | .ok _ => return { options with config := some path }
    | .error _ => throw (.usage (.missingPath o value))
  | .language => return { options with language := some (← choose o Language.all Language.name value) }
  | .layout => return { options with layout := some (← choose o Layout.all Layout.name value) }
  | .bigint =>
    return { options with bigint := some (← choose o BigIntPolicy.all BigIntPolicy.name value) }
  | .logLevel => return { options with logLevel := ← choose o logLevels id value }
  | .registry => .ok { options with registry := true }
  | .help => .ok options

def Options.setAll (files : FileTree) (options : Options) :
    List (Opt × String) → Except ArgumentFault Options
  | [] => .ok options
  | (o, value) :: rest => do (← options.set files o value).setAll files rest

/-- The options that were given, in the order of their first places; the last value counts. -/
def effective (given : List (Opt × String)) : List (Opt × String) :=
  (Text.distinctBy id (given.map (·.1))).map fun o => (o, (given.reverse.lookup o).getD "")

/-- The other arguments are the target and the output. -/
def Invocation.ofOthers (options : Options) : List String → Except ArgumentFault Invocation
  | [] => .error (.usage (.missingArgument "TARGET"))
  | [_] => .error (.usage (.missingArgument "OUTPUT"))
  | target :: output :: extra => do
    let output ← resolve output
    if extra.isEmpty then return ⟨options, target, output⟩
    else throw (.usage (.extraArguments extra))

/-- Nothing, if help is asked for. -/
def Invocation.ofArguments (files : FileTree) (arguments : List String) :
    Except ArgumentFault (Option Invocation) := do
  let s ← (scan {} arguments).mapError .usage
  if s.options.any (·.1 = .help) then return none
  let options ← Options.setAll files {} (effective s.options)
  return some (← Invocation.ofOthers options s.others)

end ShapeExport.CommandLine
