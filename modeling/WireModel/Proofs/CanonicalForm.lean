import WireModel.Schema.Basic

namespace WireModel

/-- A letter, a digit, an underscore or a dot. -/
def IsNameChar (c : Char) : Prop :=
  c.isAlphanum ∨ c = '_' ∨ c = '.'

instance : DecidablePred IsNameChar := fun _ => inferInstanceAs (Decidable (_ ∨ _))

structure IsName (s : String) : Prop where
  ne_empty : s ≠ ""
  chars : ∀ c ∈ s.toList, IsNameChar c

instance : DecidablePred IsName := fun s =>
  have := List.decidableBAll IsNameChar s.toList
  decidable_of_iff (s ≠ "" ∧ ∀ c ∈ s.toList, IsNameChar c)
    ⟨fun h => ⟨h.1, h.2⟩, fun h => ⟨h.ne_empty, h.chars⟩⟩

structure OptionSetting.WellFormed (o : OptionSetting) : Prop where
  name_ne_empty : o.name ≠ ""
  name : ∀ c ∈ o.name.toList, IsNameChar c ∨ c = '(' ∨ c = ')'
  newline : '\n' ∉ o.value.toList
  comma : ',' ∉ o.value.toList

def TypeExpr.WellFormed : TypeExpr → Prop
  | .named name => IsName name ∧ name ≠ "option"
  | .map key value => IsName key ∧ IsName value

structure Field.WellFormed (f : Field) : Prop where
  type : f.type.expr.WellFormed
  name : IsName f.name
  options : ∀ o ∈ f.options, o.WellFormed

structure EnumValue.WellFormed (v : EnumValue) : Prop where
  name : IsName v.name
  options : ∀ o ∈ v.options, o.WellFormed

structure Rpc.WellFormed (r : Rpc) : Prop where
  name : IsName r.name
  inType : IsName r.inType
  outType : IsName r.outType
  options : ∀ o ∈ r.options, o.WellFormed

def ReservedItem.WellFormed : ReservedItem → Prop
  | .tag _ => True
  | .range _ _ => True
  | .name s => IsName s

def OneOfMember.WellFormed : OneOfMember → Prop
  | .field f => f.WellFormed
  | .option o => o.WellFormed

structure OneOf.WellFormed (o : OneOf) : Prop where
  name : IsName o.name
  members : ∀ m ∈ o.members, m.WellFormed

def EnumMember.WellFormed : EnumMember → Prop
  | .option o => o.WellFormed
  | .value v => v.WellFormed

structure Enumeration.WellFormed (e : Enumeration) : Prop where
  name : IsName e.name
  members : ∀ m ∈ e.members, m.WellFormed

def ServiceMember.WellFormed : ServiceMember → Prop
  | .option o => o.WellFormed
  | .rpc r => r.WellFormed

structure Service.WellFormed (s : Service) : Prop where
  name : IsName s.name
  members : ∀ m ∈ s.members, m.WellFormed

inductive Member.WellFormed : Member → Prop where
  | field {f : Field} (h : f.WellFormed) : WellFormed (.field f)
  | oneOf {o : OneOf} (h : o.WellFormed) : WellFormed (.oneOf o)
  | enumeration {e : Enumeration} (h : e.WellFormed) : WellFormed (.enumeration e)
  | message {name : String} {members : List Member} (hname : IsName name)
    (hmembers : ∀ m ∈ members, WellFormed m) : WellFormed (.message name members)
  | option {o : OptionSetting} (h : o.WellFormed) : WellFormed (.option o)
  | reserved {items : List ReservedItem} (h : ∀ i ∈ items, i.WellFormed) :
    WellFormed (.reserved items)

def Definition.WellFormed : Definition → Prop
  | .message m => IsName m.name ∧ ∀ member ∈ m.members, member.WellFormed
  | .enumeration e => e.WellFormed
  | .service s => s.WellFormed

/-- All names are written in letters, digits, underscores and dots, no field has a type named
`option`, and no setting has a newline or a comma in its value. -/
def Schema.WellFormed (s : Schema) : Prop :=
  ∀ d ∈ s.definitions, d.WellFormed

/-- A type with both modifiers is a repeated one. -/
def FieldType.canonical (t : FieldType) : FieldType :=
  { t with optional := t.optional && !t.repeated }

def Field.canonical (f : Field) : Field :=
  { f with type := f.type.canonical }

/-- Zero has no sign. -/
def EnumValue.canonical (v : EnumValue) : EnumValue :=
  { v with isNegative := v.isNegative && v.tag != 0 }

def OneOfMember.canonical : OneOfMember → OneOfMember
  | .field f => .field f.canonical
  | .option o => .option o

def OneOf.canonical (o : OneOf) : OneOf :=
  { o with members := o.members.map OneOfMember.canonical }

def EnumMember.canonical : EnumMember → EnumMember
  | .option o => .option o
  | .value v => .value v.canonical

def Enumeration.canonical (e : Enumeration) : Enumeration :=
  { e with members := e.members.map EnumMember.canonical }

def ReservedItem.isName : ReservedItem → Bool
  | .name _ => true
  | _ => false

namespace Member

/-- A reserved statement, none for an empty group. -/
def reservedGroup : List ReservedItem → List Member
  | [] => []
  | group => [.reserved group]

/-- Numbers and names are reserved apart. -/
def splitReserved (items : List ReservedItem) : List Member :=
  reservedGroup (items.filter fun i => !i.isName) ++ reservedGroup (items.filter fun i => i.isName)

mutual

def canonical : Member → Member
  | .field f => .field f.canonical
  | .oneOf o => .oneOf o.canonical
  | .enumeration e => .enumeration e.canonical
  | .message name members => .message name (canonicals members)
  | .option o => .option o
  | .reserved items => .reserved items

/-- Members as one statement each, without what their text does not tell. -/
def canonicals : List Member → List Member
  | [] => []
  | .reserved items :: ms => splitReserved items ++ canonicals ms
  | m :: ms => m.canonical :: canonicals ms

end

end Member

def Definition.canonical : Definition → Definition
  | .message m => .message ⟨m.name, Member.canonicals m.members⟩
  | .enumeration e => .enumeration e.canonical
  | .service s => .service s

end WireModel
