import WireModel.Text.Pieces

namespace WireModel

/-- The name of a definition, with a dot between the name of a message and those nested in it. -/
structure TypeName where
  text : String
deriving DecidableEq, Repr, Inhabited

namespace TypeName

def child (t : TypeName) (name : String) : TypeName :=
  ⟨t.text ++ "." ++ name⟩

/-- The parts between the dots, of which there is always at least one. -/
def segments (t : TypeName) : List String :=
  Text.splitAt '.' t.text

def parent? (t : TypeName) : Option TypeName :=
  (Text.beforeLast? '.' t.text.toList).map fun cs => ⟨String.ofList cs⟩

theorem length_lt_of_parent? {t p : TypeName} (h : t.parent? = some p) :
    p.text.toList.length < t.text.toList.length := by
  obtain ⟨cs, hcs, rfl⟩ := Option.map_eq_some_iff.1 h
  simpa using Text.length_lt_of_beforeLast? hcs

/-- The name and what is left of it as its segments are dropped from the end, longest first. -/
def selfAndParents (t : TypeName) : List TypeName :=
  match _h : t.parent? with
  | none => [t]
  | some p => t :: p.selfAndParents
termination_by t.text.toList.length
decreasing_by exact length_lt_of_parent? _h

end TypeName

end WireModel
