import WireModel.Text.Pieces

namespace WireModel

/-- A path as written, with slashes between its parts. -/
structure Path where
  text : String
deriving DecidableEq, Repr, Inhabited

namespace Path

def isAbsolute (p : Path) : Bool :=
  p.text.toList.head? == some '/'

/-- A path within another; an absolute path stays as it is, and nothing is normalized. -/
def join (p q : Path) : Path :=
  if q.isAbsolute then q
  else if p.text = "" ∨ p.text.toList.getLast? = some '/' then ⟨p.text ++ q.text⟩
  else ⟨p.text ++ "/" ++ q.text⟩

def rawParts (p : Path) : List String :=
  Text.splitAt '/' p.text

/-- Whether a part leaves the directory as it is. -/
def isNeutral (part : String) : Bool :=
  part == "" || part == "."

def parts (p : Path) : List String :=
  p.rawParts.filter fun part => !isNeutral part

/-- Parts without those at the end that do not matter. -/
def withoutNeutralEnd (parts : List String) : List String :=
  (parts.reverse.dropWhile isNeutral).reverse

/-- The directory that the path stands in, as written and empty for the working directory. -/
def parent (p : Path) : Path :=
  match withoutNeutralEnd (withoutNeutralEnd p.rawParts).dropLast with
  | [] => ⟨if p.isAbsolute then "/" else ""⟩
  | parts => ⟨Text.joinWith "/" parts⟩

/-- Whether the last part can be the name of a file. -/
def namesFile (p : Path) : Bool :=
  match p.rawParts.getLast? with
  | some part => !isNeutral part && part != ".."
  | none => false

/-- The path without leading and trailing parts that do not matter. -/
def trimmed (p : Path) : Path :=
  ⟨Text.joinWith "/" (withoutNeutralEnd (p.rawParts.dropWhile isNeutral))⟩

def maxSize : Nat := 4095

def maxNameSize : Nat := 255

/-- Whether the system can be asked for a path: it must not be too long, and has no NUL. -/
def isUsable (p : Path) : Bool :=
  p.text.utf8ByteSize ≤ maxSize && !p.text.toList.contains '\x00'

def isName (part : String) : Bool :=
  part.utf8ByteSize ≤ maxNameSize

/-- The directory for a package: its segments inside one another, empty ones left out. -/
def ofPackage (package : String) : Path :=
  ((Text.splitAt '.' package).filter fun s => s != "").foldl (fun p s => p.join ⟨s⟩) ⟨""⟩

end Path

end WireModel
