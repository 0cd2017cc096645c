import ShapeExport.CommandLine.Arguments
import ShapeExport.Config.Json
import ShapeExport.Output
import ShapeExport.Registry
import ShapeExport.Text.Style

/-!
# The command

* `Environment` : what the command sees: the working directory, the modules that it can load
  collections from, and the registry;
* `Outcome.message?` : what is printed about an outcome;
* `Invocation.description` : the command line as it is written into the output;
* `Environment.load` : the collection that a target names;
* `Environment.run` : the command, as a function from the files before to the files after.
-/

namespace ShapeExport.CommandLine

/-- What a target can name. -/
inductive Member
  /-- A collection, or a function that returns one. -/
  | collection (types : Collection)
  /-- Another value, or a function that returns one. -/
  | other
  /-- A function that cannot be called without arguments. -/
  | uncallable

structure Module where
  members : List (String × Member) := []

/-- The members that a module has besides its own. -/
def commonMembers : List (String × Member) :=
  ["__annotations__", "__dict__", "__dir__", "__doc__", "__getstate__", "__hash__",
    "__init_subclass__", "__loader__", "__name__", "__package__", "__repr__", "__sizeof__",
    "__spec__", "__str__", "__subclasshook__"].map (·, .other) ++
  ["__class__", "__delattr__", "__eq__", "__format__", "__ge__", "__getattribute__", "__gt__",
    "__init__", "__le__", "__lt__", "__ne__", "__new__", "__reduce__", "__reduce_ex__",
    "__setattr__"].map (·, .uncallable)

def Module.member? (m : Module) (name : String) : Option Member :=
  m.members.lookup name <|> commonMembers.lookup name

structure Environment where
  /-- The absolute path of the working directory. -/
  directory : FilePath
  files : FileTree := {}
  modules : List (String × Module) := []
  catalog : Catalog := []
  registry : Registry := {}

/-- What ends the command without a message of its own. -/
inductive Crash
  | error (e : Error)
  | configUnreadable (fault : FileFault)
  | configNotJson
  | configNotAnObject
  | emptyModuleName
  | relativeModuleName
  /-- The target is a function that cannot be called without arguments. -/
  | uncallable
  /-- A path that an argument may stand for cannot be looked up. -/
  | pathUnknown (fault : FileFault)

inductive Outcome
  | done
  | help
  | usage (e : UsageError)
  | failed (e : Error)
  | crashed (c : Crash)

namespace Outcome

def exitCode : Outcome → Nat
  | done | help => 0
  | usage _ => 2
  | failed _ | crashed _ => 1

/-- The message of an outcome, if it has one. -/
def message? : Outcome → Option String
  | usage e => some (Text.unstyled e.message)
  | failed e => some (Text.unstyled e.message)
  | _ => none

end Outcome

/-- Whether an error of an export is reported by its message. The others point to a fault in what
declares the types. -/
def isReported : Error → Bool
  | .unfinished _ | .wrongRecord .. | .producerFailed _ | .unknownProducer _ | .invalidFileName _
  | .unusableLabel _ | .longInteger _ | .unwritableInteger | .nullCharacter | .tooDeep => false
  | _ => true

/-- The outcome of a failed export. A file that cannot be written is named by its absolute path. -/
def Environment.failure (e : Environment) (error : Error) : Outcome :=
  match error with
  | .writeFailed path fault => .failed (.writeFailed (e.directory.join path) fault)
  | .cleanUpFailed path fault => .failed (.cleanUpFailed (e.directory.join path) fault)
  | error => if isReported error then .failed error else .crashed (.error error)

/-! ## The command line in the output -/

def program : String := "typesync"

/-- Only the name of a path to something that is there. -/
def Environment.shownPath (e : Environment) (path whole : FilePath) (value : String) :
    Except Outcome String :=
  match e.files.node? path with
  | .ok (some _) => .ok whole.name
  | .ok none => .ok value
  | .error fault => .error (.crashed (.pathUnknown fault))

/-- A value as it was given, which may be that of a path. -/
def Environment.shownValue (e : Environment) (value : String) : Except Outcome String :=
  let path := FilePath.ofText value
  e.shownPath path path value

/-- A path that was resolved, by its absolute text. -/
def Environment.shownResolved (e : Environment) (path : FilePath) : Except Outcome String :=
  let whole := e.directory.join path
  e.shownPath path whole whole.text

/-- The arguments come first, and then the options that differ from their defaults. -/
def Invocation.description (e : Environment) (i : Invocation) : Except Outcome String := do
  let valued (o : Opt) (value : Option String) : List String :=
    (value.map fun v => [o.longName, v]).getD []
  let config ← i.options.config.mapM e.shownResolved
  let target ← e.shownValue i.target
  let output ← e.shownResolved i.output
  return " ".intercalate <|
    [program, target, output]
      ++ valued .config config
      ++ valued .language (i.options.language.map Language.name)
      ++ valued .layout (i.options.layout.map Layout.name)
      ++ valued .bigint (i.options.bigint.map BigIntPolicy.name)
      ++ (if i.options.registry then [Opt.registry.longName] else [])
      ++ valued .logLevel (if i.options.logLevel = "WARNING" then none else some i.options.logLevel)

/-! ## Loading -/

/-- The part of a dotted name that cannot be imported, and why. The pieces of the name come last
piece first. -/
def importFault? (modules : List String) (target : String) : List String → Option TargetFault
  | [] => none
  | piece :: above =>
    let name := ".".intercalate (piece :: above).reverse
    if modules.contains name then none
    else if above.isEmpty then some (.missingModule target name)
    else
      (importFault? modules target above).or
        (some (.notAPackage target name (".".intercalate above.reverse)))

/-- The module of a target and its member. Without a colon there is no member. -/
def cutTarget (target : String) : String × String :=
  let name := target.toList.takeWhile (· ≠ ':')
  (String.ofList name, String.ofList (target.toList.drop (name.length + 1)))

namespace Environment

def importModule (e : Environment) (name : String) : Except Outcome Module :=
  if name.startsWith "." then .error (.crashed .relativeModuleName)
  else if name.isEmpty then .error (.crashed .emptyModuleName)
  else match importFault? (e.modules.map (·.1)) name (Text.split '.' name).reverse with
    | some fault => .error (.usage (.badTarget fault))
    | none => .ok ((e.modules.lookup name).getD {})

/-- The collection that the registry builds. -/
def collect (e : Environment) : Except Outcome Collection :=
  (e.registry.collect e.catalog {}).2.mapError fun error => .crashed (.error error)

def load (e : Environment) (target : String) (registry : Bool) : Except Outcome Collection := do
  let (name, member) := cutTarget target
  let owner ← e.importModule name
  let refuse (fault : TargetFault) : Except Outcome Collection := .error (.usage (.badTarget fault))
  if registry then
    if member.isEmpty then e.collect else refuse .memberOfRegistry
  else if member.isEmpty then refuse .noMember
  else match owner.member? member with
    | none => refuse (.missingMember name member)
    | some .other => refuse (.notACollection target)
    | some .uncallable => .error (.crashed .uncallable)
    | some (.collection types) => .ok types

/-- The configuration in a file. -/
def readConfig (e : Environment) (path : FilePath) : Except Outcome Config :=
  match e.files.read path with
  | .error fault => .error (.crashed (.configUnreadable fault))
  | .ok text =>
    match Json.read text with
    | .error .malformed => .error (.crashed .configNotJson)
    | .error (.longInteger digits) => .error (.crashed (.error (.longInteger digits)))
    | .error .tooDeep => .error (.crashed (.error .tooDeep))
    | .ok j =>
      if j.object?.isNone then .error (.crashed .configNotAnObject)
      else (Config.ofJson j).mapError fun error => .crashed (.error error)

/-- The configuration of an invocation, whose options win over the file's. -/
def configure (e : Environment) (i : Invocation) : Except Outcome Config := do
  let config ← (i.options.config.map e.readConfig).getD (.ok {})
  return { config with
    language := i.options.language.getD config.language
    layout := i.options.layout.getD config.layout
    bigint := i.options.bigint.getD config.bigint
    generationComment := "Generated by: " ++ (← i.description e) }

/-- What an invocation asks to export. -/
def plan (e : Environment) (i : Invocation) : Except Outcome Export := do
  let config ← e.configure i
  let types ← e.load i.target i.options.registry
  return ⟨config, types⟩

def run (e : Environment) (arguments : List String) : FileTree × Outcome :=
  match Invocation.ofArguments e.files arguments with
  | .error (.usage fault) => (e.files, .usage fault)
  | .error .nullCharacter => (e.files, .crashed (.error .nullCharacter))
  | .ok none => (e.files, .help)
  | .ok (some i) =>
    match e.plan i with
    | .error outcome => (e.files, outcome)
    | .ok x =>
      match x.write i.output e.files with
      | (files, .ok _) => (files, .done)
      | (files, .error error) => (files, e.failure error)

end Environment

end ShapeExport.CommandLine
