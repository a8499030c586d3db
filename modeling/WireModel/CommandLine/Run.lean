import WireModel.CommandLine.Arguments
import WireModel.CommandLine.LogFilter
import WireModel.FileSystem
import WireModel.Schema.Decoder

namespace WireModel

inductive LoadError where
  | unreadable
  | malformed
deriving DecidableEq, Repr

/-- The schema in a document, which is missing if it could not be read. -/
def Schema.load (document : Option String) : Except LoadError Schema :=
  match document with
  | none => .error .unreadable
  | some text =>
    match Schema.parse? text with
    | some schema => .ok schema
    | none => .error .malformed

inductive Failure where
  | load (schema : Path) (cause : LoadError)
  | generate (schema : Path) (cause : GenerationError)
  | write (out : Path)
deriving DecidableEq, Repr

/-- The causes behind a generation error, outermost first. -/
def GenerationError.causes : GenerationError → List String
  | .schema e => [(GenerationError.schema e).message, e.message]
  | e => [e.message]

namespace Failure

/-- A text with something before its first line and something before all others. -/
def hanging (first rest : String) (text : String) : List String :=
  match Text.splitAt '\n' text with
  | [] => []
  | line :: lines => (first ++ line) :: lines.map fun line => rest ++ line

def causeLines : List String → List String
  | [] => []
  | [cause] => "" :: "Caused by:" :: hanging "    " "    " cause
  | causes =>
    "" :: "Caused by:" :: causes.zipIdx.flatMap fun (cause, i) =>
      hanging ("    " ++ i.repr ++ ": ") "       " cause

/-- What is told about a failure; what the system says about its own failures is left out. -/
def text : Failure → String
  | .load schema _ => "Error: failed to load schema " ++ schema.text
  | .generate schema cause =>
    Text.joinWith "\n"
      (("Error: failed to generate code for " ++ schema.text) :: causeLines cause.causes)
  | .write out => "Error: failed to write output to " ++ out.text

/-- The lines that are told about a failure, for a failure of the system only the first. -/
def lines (f : Failure) : List String :=
  match f with
  | .generate _ _ => Text.lines f.text
  | .load _ _ | .write _ => (Text.lines f.text).take 1

end Failure

structure Job where
  schema : Path
  out : Path
  settings : Settings
  filter : LogFilter

namespace Job

/-- The filter for a log: a well-formed one in the environment comes before the verbosity. -/
def filterOf (verbose : Bool) (filter : Option String) : Except Stop LogFilter :=
  let own := LogFilter.upTo (if verbose then .debug else .info)
  match filter.map LogFilter.parse with
  | some (.ok f) => .ok f
  | some (.error .torn) => .error .tornFilter
  | some (.error .malformed) | none => .ok own

def ofArguments (args : List String) (filter : Option String) : Except Stop Job := do
  let a ← Arguments.parse args
  match a.schema with
  | none => .error .usage
  | some schema =>
    return ⟨schema, a.out.getD ⟨"."⟩, a.settings, ← filterOf a.verbose filter⟩

def origin : String := "mutprotoc"

/-- The events of generation, and the files unless it fails. -/
def generate (j : Job) (document : Option String) :
    List Event × Except Failure GeneratedFiles :=
  match Schema.load document with
  | .error e => ([], .error (.load j.schema e))
  | .ok schema =>
    match Generator.ofSchema schema j.settings with
    | .error e => ([], .error (.generate j.schema e))
    | .ok g => (g.events, g.generate.mapError (.generate j.schema))

def wrote (path : Path) : Event :=
  Generator.event .info ("Wrote " ++ path.text)

def finished (j : Job) (written : Nat) : Event :=
  ⟨.info, origin, "Generated " ++ written.repr ++ " files from " ++ j.schema.text⟩

def logged (j : Job) (events : List Event) : List String :=
  (events.filter j.filter.passes).map Event.line

end Job

namespace GeneratedFiles

/-- The files in the order of writing. -/
def toList (files : GeneratedFiles) : List GeneratedFile :=
  [files.wire, files.model]

end GeneratedFiles

/-- What a run asks of the system that it runs on. -/
structure Host (m : Type → Type) where
  /-- The text of a file, if it can be read. -/
  read : Path → m (Option String)
  /-- Writes a file with the directories that it needs, and tells whether that worked. -/
  write : Path → String → m Bool
  /-- Adds an entry to the log. -/
  log : String → m Unit
  /-- Tells why a run fails. -/
  fail : Failure → m Unit
  /-- Tells why nothing is run. -/
  stop : Stop → m Unit

section

variable {m : Type → Type} [Monad m]

/-- Writes files into a directory one by one until one fails, and gives the paths written. -/
def Host.writeAll (host : Host m) (out : Path) (report : Path → m Unit) :
    List GeneratedFile → m (List Path × Bool)
  | [] => return ([], true)
  | file :: files => do
    let path := out.join file.path
    if ← host.write path file.contents then
      report path
      let (paths, ok) ← host.writeAll out report files
      return (path :: paths, ok)
    else return ([], false)

namespace Job

def report (j : Job) (host : Host m) (events : List Event) : m Unit :=
  (j.logged events).forM host.log

/-- Runs a job and gives the exit code. -/
def perform (j : Job) (host : Host m) : m Nat := do
  let (events, result) := j.generate (← host.read j.schema)
  j.report host events
  match result with
  | .error failure =>
    host.fail failure
    return 1
  | .ok files =>
    match ← host.writeAll j.out (fun path => j.report host [wrote path]) files.toList with
    | (paths, true) =>
      j.report host [j.finished paths.length]
      return 0
    | (_, false) =>
      host.fail (.write j.out)
      return 1

end Job

def Host.perform (host : Host m) (args : List String) (filter : Option String) : m Nat :=
  match Job.ofArguments args filter with
  | .error stop => do
    host.stop stop
    return stop.exitCode
  | .ok job => job.perform host

end

/-- What a run leaves behind: the first line of each entry of the log, what it told about a failure,
and the files. -/
structure Trace where
  log : List String := []
  errors : List String := []
  files : FileSystem

/-- Files in place of those of the system, seen from a working directory. -/
def FileSystem.host (dir : List String) : Host (StateM Trace) where
  read path := do return (← get).files.read? dir path
  write path text := modifyGet fun t =>
    let (files, ok) := t.files.writeDeep dir path text
    (ok, { t with files })
  log entry := modify fun t => { t with log := t.log ++ (Text.lines entry).take 1 }
  fail failure := modify fun t => { t with errors := t.errors ++ failure.lines }
  stop _ := return

def runCommand (args : List String) (filter : Option String) (files : FileSystem)
    (dir : List String) : Nat × Trace :=
  ((FileSystem.host dir).perform args filter).run { files }

end WireModel
