import WireModel.Path

namespace WireModel

mutual

/-- What can stand under a name in a directory. -/
inductive Node where
  | file (text : String)
  | directory (entries : Entries)

/-- The entries of a directory, with a name each. -/
inductive Entries where
  | empty
  | entry (name : String) (node : Node) (rest : Entries)

end

namespace Entries

def find? (name : String) : Entries → Option Node
  | empty => none
  | entry other node rest => if other = name then some node else rest.find? name

def insert (name : String) (node : Node) : Entries → Entries
  | empty => entry name node empty
  | entry other old rest =>
    if other = name then entry name node rest else entry other old (rest.insert name node)

end Entries

namespace Node

def at? : Node → List String → Option Node
  | node, [] => some node
  | .directory entries, name :: names => (entries.find? name).bind fun node => node.at? names
  | .file _, _ :: _ => none

/-- The same with something else at the end of some names; the directories on the way have to be
there. -/
def put (new : Node) : Node → List String → Node
  | _, [] => new
  | .directory entries, [name] => .directory (entries.insert name new)
  | .directory entries, name :: names =>
    match entries.find? name with
    | some node => .directory (entries.insert name (new.put node names))
    | none => .directory entries
  | .file text, _ :: _ => .file text

end Node

mutual

/-- The paths of a node and of everything below it, with the texts of files; the paths of
directories end in a slash. -/
def Node.listing (path : String) : Node → List (String × Option String)
  | .file text => [(path, some text)]
  | .directory entries => (path ++ "/", none) :: entries.listing (path ++ "/")

def Entries.listing (path : String) : Entries → List (String × Option String)
  | .empty => []
  | .entry name node rest => node.listing (path ++ name) ++ rest.listing path

end

structure FileSystem where
  root : Node := .directory .empty

namespace FileSystem

/-- What stands at a place, given by the names on the way from the root. -/
def node? (fs : FileSystem) (place : List String) : Option Node :=
  fs.root.at? place

def put (fs : FileSystem) (place : List String) (node : Node) : FileSystem :=
  ⟨node.put fs.root place⟩

/-- The directory reached from another by the parts of a path. -/
def enter? (fs : FileSystem) (dir : List String) : List String → Option (List String)
  | [] => some dir
  | part :: parts =>
    if part = ".." then fs.enter? dir.dropLast parts
    else match fs.node? (dir ++ [part]) with
      | some (.directory _) => fs.enter? (dir ++ [part]) parts
      | _ => none

/-- Follows the parts of a path and makes the directories that are not there; a file on the way or
a name that is too long stops it, and what was made before stays. -/
def makeDirectories (fs : FileSystem) (dir : List String) : List String → FileSystem × Bool
  | [] => (fs, true)
  | part :: parts =>
    if part = ".." then fs.makeDirectories dir.dropLast parts
    else match fs.node? (dir ++ [part]) with
      | some (.directory _) => fs.makeDirectories (dir ++ [part]) parts
      | some (.file _) => (fs, false)
      | none =>
        if Path.isName part then
          (fs.put (dir ++ [part]) (.directory .empty)).makeDirectories (dir ++ [part]) parts
        else (fs, false)

def start (dir : List String) (path : Path) : List String :=
  if path.isAbsolute then [] else dir

/-- The place of the file that a path names; the directories on the way have to be there. -/
def place? (fs : FileSystem) (dir : List String) (path : Path) : Option (List String) :=
  match path.isUsable && path.namesFile, path.parts.getLast? with
  | true, some name =>
    if Path.isName name then
      (fs.enter? (start dir path) path.parts.dropLast).map fun parent => parent ++ [name]
    else none
  | _, _ => none

def read? (fs : FileSystem) (dir : List String) (path : Path) : Option String :=
  match (fs.place? dir path).bind fs.node? with
  | some (.file text) => some text
  | _ => none

/-- Writes a file into a directory that is there. -/
def write? (fs : FileSystem) (dir : List String) (path : Path) (text : String) :
    Option FileSystem :=
  match fs.place? dir path with
  | none => none
  | some place =>
    match fs.node? place with
    | some (.directory _) => none
    | _ => some (fs.put place (.file text))

/-- Writes a file and makes the directories that it needs, if its directory can be asked for. -/
def writeDeep (fs : FileSystem) (dir : List String) (path : Path) (text : String) :
    FileSystem × Bool :=
  if path.parent.isUsable then
    match fs.makeDirectories (start dir path) path.parts.dropLast with
    | (fs, true) =>
      match fs.write? dir path text with
      | some fs => (fs, true)
      | none => (fs, false)
    | (fs, false) => (fs, false)
  else (fs, false)

def below (fs : FileSystem) (dir : List String) : List (String × Option String) :=
  match fs.node? dir with
  | some (.directory entries) => entries.listing ""
  | _ => []

end FileSystem

end WireModel
