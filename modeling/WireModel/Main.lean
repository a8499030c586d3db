import WireModel.CommandLine.Run

namespace WireModel

def usage : String :=
  "Usage: mutprotoc [OPTIONS] <SCHEMA>\n\n" ++
    "  -o, --out <OUT>                output directory\n" ++
    "      --kotlin-package <NAME>    package of the generated Kotlin file\n" ++
    "      --proto-package <NAME>     package of the generated proto file\n" ++
    "      --java-package <NAME>      java_package option\n" ++
    "      --outer-class <NAME>       java_outer_classname option\n" ++
    "      --proto-file <NAME>        name of the generated proto file\n" ++
    "      --kotlin-file <NAME>       name of the generated Kotlin file\n" ++
    "      --compact                  use unboxed containers\n" ++
    "      --validate-tags            check field numbers\n" ++
    "      --no-count-hints           do not size containers when decoding\n" ++
    "      --import <IMPORT>          extra Kotlin import, may be repeated\n" ++
    "  -v, --verbose                  log at debug level\n" ++
    "  -h, --help                     print this help\n"

def readDocument (path : Path) : IO (Option String) := do
  try
    return some (← IO.FS.readFile path.text)
  catch _ =>
    return none

def writeDocument (path : Path) (text : String) : IO Bool := do
  try
    if path.parent.text ≠ "" then
      IO.FS.createDirAll path.parent.text
    IO.FS.writeFile path.text text
    return true
  catch _ =>
    return false

/-- The files of the system; the log goes to standard output. -/
def Host.files : Host IO where
  read := readDocument
  write := writeDocument
  log entry := IO.println entry
  fail failure := IO.eprintln failure.text
  stop
    | .help => IO.print usage
    | .usage => IO.eprint usage
    | .tornFilter => IO.eprintln "the log filter cannot be cut into its parts"

end WireModel

open WireModel in
def main (args : List String) : IO UInt32 := do
  let code ← Host.files.perform args (← IO.getEnv "RUST_LOG")
  return code.toUInt32
