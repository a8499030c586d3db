import WireModel.Path
import WireModel.Settings

namespace WireModel

structure Arguments where
  schema : Option Path := none
  out : Option Path := none
  modelPackage : Option String := none
  wirePackage : Option String := none
  javaPackage : Option String := none
  outerClass : Option String := none
  wireFile : Option String := none
  modelFile : Option String := none
  compact : Bool := false
  validateTags : Bool := false
  noCountHints : Bool := false
  imports : List String := []
  verbose : Bool := false
deriving DecidableEq, Repr

inductive ValueOption where
  | out
  | modelPackage
  | wirePackage
  | javaPackage
  | outerClass
  | wireFile
  | modelFile
  | extraImport
deriving DecidableEq, Repr

inductive Flag where
  | compact
  | validateTags
  | noCountHints
  | verbose
  | help
deriving DecidableEq, Repr

/-- Why the program ends before any work. -/
inductive Stop where
  | help
  | usage
  /-- The filter for the log cannot be cut into its parts. -/
  | tornFilter
deriving DecidableEq, Repr

/-- Asking for help succeeds, misuse has a code of its own, and so has a breakdown. -/
def Stop.exitCode : Stop → Nat
  | help => 0
  | usage => 2
  | tornFilter => 101

namespace Arguments

def long? : String → Option (ValueOption ⊕ Flag)
  | "out" => some (.inl .out)
  | "kotlin-package" => some (.inl .modelPackage)
  | "proto-package" => some (.inl .wirePackage)
  | "java-package" => some (.inl .javaPackage)
  | "outer-class" => some (.inl .outerClass)
  | "proto-file" => some (.inl .wireFile)
  | "kotlin-file" => some (.inl .modelFile)
  | "import" => some (.inl .extraImport)
  | "compact" => some (.inr .compact)
  | "validate-tags" => some (.inr .validateTags)
  | "no-count-hints" => some (.inr .noCountHints)
  | "verbose" => some (.inr .verbose)
  | "help" => some (.inr .help)
  | _ => none

def short? : Char → Option (ValueOption ⊕ Flag)
  | 'o' => some (.inl .out)
  | 'v' => some (.inr .verbose)
  | 'h' => some (.inr .help)
  | _ => none

/-- Sets something that may be given once. -/
def once (old : Option α) (new : α) : Except Stop (Option α) :=
  match old with
  | none => .ok (some new)
  | some _ => .error .usage

def path (text : String) : Except Stop Path :=
  if text = "" then .error .usage else .ok ⟨text⟩

/-- An option with its value; only imports may be given more than once. -/
def setValue (a : Arguments) (option : ValueOption) (value : String) : Except Stop Arguments :=
  match option with
  | .out => do return { a with out := ← once a.out (← path value) }
  | .modelPackage => do return { a with modelPackage := ← once a.modelPackage value }
  | .wirePackage => do return { a with wirePackage := ← once a.wirePackage value }
  | .javaPackage => do return { a with javaPackage := ← once a.javaPackage value }
  | .outerClass => do return { a with outerClass := ← once a.outerClass value }
  | .wireFile => do return { a with wireFile := ← once a.wireFile value }
  | .modelFile => do return { a with modelFile := ← once a.modelFile value }
  | .extraImport => .ok { a with imports := a.imports ++ [value] }

def setFlag (a : Arguments) (flag : Flag) : Except Stop Arguments :=
  match flag with
  | .compact => if a.compact then .error .usage else .ok { a with compact := true }
  | .validateTags => if a.validateTags then .error .usage else .ok { a with validateTags := true }
  | .noCountHints => if a.noCountHints then .error .usage else .ok { a with noCountHints := true }
  | .verbose => if a.verbose then .error .usage else .ok { a with verbose := true }
  | .help => .error .help

/-- An argument that is no option: the schema. -/
def setPositional (a : Arguments) (text : String) : Except Stop Arguments := do
  return { a with schema := ← once a.schema (← path text) }

/-- Short options in one argument; the first that takes a value takes the rest, without a leading
equals sign, or the next argument if nothing is left. -/
def setShorts (a : Arguments) : List Char → Except Stop (Arguments × Option ValueOption)
  | [] => .ok (a, none)
  | c :: cs =>
    match short? c with
    | some (.inr flag) => do
      let a ← a.setFlag flag
      a.setShorts cs
    | some (.inl option) =>
      match cs with
      | [] => .ok (a, some option)
      | '=' :: value => do return (← a.setValue option (String.ofList value), none)
      | value => do return (← a.setValue option (String.ofList value), none)
    | none => .error .usage

/-- A long option, with its value after an equals sign or in the next argument. -/
def setLong (a : Arguments) (text : String) : Except Stop (Arguments × Option ValueOption) :=
  match Text.splitAt '=' text with
  | [] => .error .usage
  | name :: value =>
    match long? name, value with
    | some (.inl option), [] => .ok (a, some option)
    | some (.inl option), value => do
      return (← a.setValue option (Text.joinWith "=" value), none)
    | some (.inr flag), [] => do return (← a.setFlag flag, none)
    | _, _ => .error .usage

/-- Reads arguments one by one. A value that is awaited must not look like an option, and after two
dashes nothing is an option any more. -/
def read (a : Arguments) (awaited : Option ValueOption) (verbatim : Bool) :
    List String → Except Stop Arguments
  | [] => if awaited.isSome then .error .usage else .ok a
  | arg :: args =>
    match awaited, verbatim, arg.toList with
    | none, true, _ => do (← a.setPositional arg).read none true args
    | none, false, ['-', '-'] => a.read none true args
    | none, false, '-' :: '-' :: name => do
      let (a, awaited) ← a.setLong (String.ofList name)
      a.read awaited false args
    | none, false, '-' :: c :: cs => do
      let (a, awaited) ← a.setShorts (c :: cs)
      a.read awaited false args
    | none, false, _ => do (← a.setPositional arg).read none false args
    | some _, _, '-' :: _ :: _ => .error .usage
    | some option, _, _ => do (← a.setValue option arg).read none verbatim args

def parse (args : List String) : Except Stop Arguments :=
  Arguments.read {} none false args

def settings (a : Arguments) : Settings :=
  let d : Settings := {}
  { compact := a.compact
    modelPackage := a.modelPackage.getD d.modelPackage
    wirePackage := a.wirePackage
    javaPackage := a.javaPackage
    outerClass := a.outerClass.getD d.outerClass
    wireFile := a.wireFile.getD d.wireFile
    modelFile := a.modelFile.getD d.modelFile
    imports := a.imports
    validateTags := a.validateTags
    countHints := !a.noCountHints }

end Arguments

end WireModel
