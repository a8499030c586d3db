import WireModel.CommandLine.LogRule

namespace WireModel

structure LogFilter where
  rules : List LogRule
deriving Repr

namespace LogFilter

def upTo (level : Level) : LogFilter :=
  ⟨[{ limit := level.rank }]⟩

/-- Rules with commas between them; without any, only errors are logged. -/
def parse (s : String) : Except FilterFault LogFilter :=
  match (Text.splitAt ',' s).filter fun r => r != "" with
  | [] => .ok (upTo .error)
  | rules => (rules.mapM LogRule.parse).map LogFilter.mk

/-- The rule that counts for an event: the most specific one, of equals the last. -/
def ruleFor? (f : LogFilter) (e : Event) : Option LogRule :=
  f.rules.foldl (fun best r =>
    if r.appliesTo e then
      match best with
      | none => some r
      | some b => if r.isLessSpecific b then some b else some r
    else best) none

def passes (f : LogFilter) (e : Event) : Bool :=
  match f.ruleFor? e with
  | some r => e.level.rank ≤ r.limit
  | none => false

end LogFilter

end WireModel
