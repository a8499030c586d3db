import WireModel.ObjectModel.EnumClass
import WireModel.ObjectModel.MessageClass
import WireModel.ObjectModel.UnionClass

namespace WireModel

structure ObjectModel where
  enums : List EnumModel
  unions : List UnionModel
  messages : List MessageModel
deriving DecidableEq, Repr

namespace ObjectModel

/-- The unions that stand before the class of a message: those whose name up to its last dot is that
of the message. -/
def unionsOf (o : ObjectModel) (m : MessageModel) : List UnionModel :=
  o.unions.filter fun u => u.name.parent? == some m.name

/-- The classes in order: enumerations, then each message after its unions. -/
def classes (o : ObjectModel) : List (List Stmt) :=
  (o.enums.map fun e => [e.source]) ++
    o.messages.flatMap fun m => (o.unionsOf m).map (fun u => [u.source]) ++ [m.source]

/-- The imports of the file: those that the properties need and some more. -/
def imports (o : ObjectModel) (more : List String) : List String :=
  sortedUnique (o.messages.flatMap MessageModel.imports ++ more)

def header (package : String) (imports : List String) : List String :=
  paragraph [generatedNotice] ++
    paragraph (if package = "" then [] else ["package " ++ package]) ++
    paragraph (imports.map fun i => "import " ++ i)

def render (o : ObjectModel) (package : String) (moreImports : List String) : String :=
  Text.unlines (header package (o.imports moreImports)) ++ Stmt.render (Stmt.spaced o.classes)

end ObjectModel

end WireModel
