import Mathlib.Data.Finmap
import WireModel.ObjectModel.Basic
import WireModel.Proofs.Description

namespace WireModel

/-- What one field holds, on the wire or in an object. -/
inductive Slot (Key α : Type) where
  | absent
  | single (v : α)
  | list (vs : List α)
  | map (es : Finmap fun _ : Key => α)

/-- A wire message or an object: what each of its fields holds. -/
abbrev Slots (Key α : Type) :=
  Accessors → Slot Key α

/-- How single values cross between the two sides, and in which order maps list their entries. -/
structure Codec (Key Native Wire : Type) where
  IsValue : Rule → Native → Prop
  encode : Rule → Native → Wire
  decode : Rule → Wire → Native
  decode_encode : ∀ rule v, IsValue rule v → decode rule (encode rule v) = v
  nativeOrder : Accessors → (Finmap fun _ : Key => Native) → List (Σ _ : Key, Native)
  coe_nativeOrder : ∀ field es, (nativeOrder field es : Multiset (Σ _ : Key, Native)) = es.entries
  wireOrder : Accessors → (Finmap fun _ : Key => Wire) → List (Σ _ : Key, Wire)
  coe_wireOrder : ∀ field es, (wireOrder field es : Multiset (Σ _ : Key, Wire)) = es.entries

namespace Slot

variable {Key α : Type}

def list? : Slot Key α → Option (List α)
  | .list vs => some vs
  | _ => none

def map? : Slot Key α → Option (Finmap fun _ : Key => α)
  | .map es => some es
  | _ => none

def append (v : α) : Slot Key α → Option (Slot Key α)
  | .list vs => some (.list (vs ++ [v]))
  | _ => none

def put [DecidableEq Key] (k : Key) (v : α) : Slot Key α → Option (Slot Key α)
  | .map es => some (.map (es.insert k v))
  | _ => none

/-- A repeated field that nothing was added to is an empty list on the wire. -/
def orList : Slot Key α → Slot Key α
  | .absent => .list []
  | s => s

/-- A map field that nothing was put into is an empty map on the wire. -/
def orMap : Slot Key α → Slot Key α
  | .absent => .map ∅
  | s => s

/-- The function that an expression calls. -/
def callee (expr : String) : List Char :=
  expr.toList.takeWhile (· ≠ '(')

/-- The functions that some constructors call. -/
def callees (cs : List Constructor) : List (List Char) :=
  cs.flatMap fun c => [c.empty.toList, c.sized.toList]

/-- The new container that an expression makes. -/
def ofLiteral (expr : String) : Option (Slot Key α) :=
  if callee expr ∈ callees Constructor.lists then some (.list [])
  else if callee expr ∈ callees Constructor.maps then some (.map ∅)
  else none

end Slot

namespace Slots

variable {Key α : Type}

/-- A builder that nothing was written to. -/
def empty : Slots Key α :=
  fun _ => .absent

def set (s : Slots Key α) (field : Accessors) (c : Slot Key α) : Slots Key α :=
  Function.update s field c

/-- Changes one slot, if what it holds allows that. -/
def modify (s : Slots Key α) (field : Accessors) (f : Slot Key α → Option (Slot Key α)) :
    Option (Slots Key α) :=
  (f (s field)).map (s.set field)

@[simp] theorem set_self (s : Slots Key α) (field : Accessors) (c : Slot Key α) :
    s.set field c field = c := Function.update_self ..

theorem set_of_ne (s : Slots Key α) {field a : Accessors} (c : Slot Key α) (h : a ≠ field) :
    s.set field c a = s a := Function.update_of_ne h ..

@[simp] theorem set_set (s : Slots Key α) (field : Accessors) (c d : Slot Key α) :
    (s.set field c).set field d = s.set field d := Function.update_idem ..

theorem set_of_eq {s : Slots Key α} {field : Accessors} {c : Slot Key α} (h : s field = c) :
    s.set field c = s := by
  rw [← h]
  exact Function.update_eq_self ..

end Slots

section

variable {Key Native Wire : Type} [DecidableEq Key] (x : Codec Key Native Wire)

/-- Writes a property of an object to a builder. -/
def Encoding.run (object : Slots Key Native) (builder : Slots Key Wire) :
    Encoding → Option (Slots Key Wire)
  | .single field rule =>
    match object field with
    | .single v => some (builder.set field (.single (x.encode rule v)))
    | _ => none
  | .optional field rule =>
    match object field with
    | .absent => some (builder.set field .absent)
    | .single v => some (builder.set field (.single (x.encode rule v)))
    | _ => none
  | .elements field rule => do
    let vs ← (object field).list?
    vs.foldlM (fun b v => b.modify field fun c => c.orList.append (x.encode rule v)) builder
  | .entries field rule => do
    let es ← (object field).map?
    (x.nativeOrder field es).foldlM
      (fun b e => b.modify field fun c => c.orMap.put e.1 (x.encode rule e.2)) builder

/-- The first value of a property of an object that is read from a wire message. -/
def Decoding.read (wire : Slots Key Wire) : Decoding → Option (Slot Key Native)
  | .single field rule =>
    match wire field with
    | .single w => some (.single (x.decode rule w))
    | _ => none
  | .optional field rule =>
    match wire field with
    | .absent => some .absent
    | .single w => some (.single (x.decode rule w))
    | _ => none
  | .literal expr => Slot.ofLiteral expr

/-- Fills a container of an object from a wire message. -/
def Filling.run (wire : Slots Key Wire) (object : Slots Key Native) :
    Filling → Option (Slots Key Native)
  | .elements field rule => do
    let ws ← (wire field).orList.list?
    ws.foldlM (fun o w => o.modify field fun c => c.append (x.decode rule w)) object
  | .entries field rule => do
    let es ← (wire field).orMap.map?
    (x.wireOrder field es).foldlM
      (fun o e => o.modify field fun c => c.put e.1 (x.decode rule e.2)) object

namespace MessageModel

/-- Writes an object to an empty builder, property by property. -/
def encode (m : MessageModel) (object : Slots Key Native) : Option (Slots Key Wire) :=
  m.fields.foldlM (fun b f => f.description.conversion.encoding.run x object b) .empty

/-- The object before any of its containers is filled. -/
def construct (m : MessageModel) (wire : Slots Key Wire) : Option (Slots Key Native) :=
  m.fields.foldlM
    (fun o f => (f.description.conversion.decoding.read x wire).map (o.set f.accessors)) .empty

/-- Fills the containers of an object, property by property. -/
def fill (m : MessageModel) (wire : Slots Key Wire) (object : Slots Key Native) :
    Option (Slots Key Native) :=
  m.fields.foldlM
    (fun o f => f.description.conversion.filling.elim (some o) (Filling.run x wire o)) object

/-- Reads an object from a wire message. -/
def decode (m : MessageModel) (wire : Slots Key Wire) : Option (Slots Key Native) :=
  m.construct x wire >>= m.fill x wire

end MessageModel

/-- What a property of a shape can hold, with all values fit for a rule. -/
def Slot.Fits (rule : Rule) (c : Slot Key Native) : Shape → Prop
  | .single _ => ∃ v, c = .single v ∧ x.IsValue rule v
  | .optional _ => c = .absent ∨ ∃ v, c = .single v ∧ x.IsValue rule v
  | .repeated _ => ∃ vs, c = .list vs ∧ ∀ v ∈ vs, x.IsValue rule v
  | .map _ _ => ∃ es, c = .map es ∧ ∀ k, ∀ v ∈ es.lookup k, x.IsValue rule v
  | .stream _ => False

/-- The object has the properties of the message and no others. -/
structure MessageModel.IsInstance (m : MessageModel) (object : Slots Key Native) : Prop where
  fits : ∀ f ∈ m.fields,
    (object f.accessors).Fits x f.description.conversion.encoding.rule f.spec.shape
  absent : ∀ a, a ∉ m.fields.map FieldModel.accessors → object a = .absent

end

end WireModel
