import WireModel.Text.Alphanumeric
import WireModel.Text.Blank
import WireModel.Text.Hex

namespace WireModel.Text

namespace Pattern

structure Modes where
  /-- Blanks and comments are left out. -/
  spaced : Bool := false
  /-- Upper and lower case are not told apart. -/
  folded : Bool := false
  /-- Bytes are matched instead of characters. -/
  bytes : Bool := false
deriving DecidableEq, Repr

def afterComment : List Char → List Char
  | [] => []
  | c :: cs => if c = '\n' then cs else afterComment cs

theorem length_afterComment_le (cs : List Char) : (afterComment cs).length ≤ cs.length := by
  induction cs with
  | nil => exact Nat.le_refl 0
  | cons c cs ih =>
    rw [afterComment]
    split
    · simp
    · exact Nat.le_succ_of_le ih

def afterSpace (cs : List Char) : List Char :=
  match cs with
  | [] => []
  | c :: cs =>
    if isBlank c then afterSpace cs
    else if c = '#' then afterSpace (afterComment cs)
    else c :: cs
termination_by cs.length
decreasing_by
  · simp
  · exact Nat.lt_succ_of_le (length_afterComment_le cs)

/-- Where reading goes on in some modes. -/
def skip (m : Modes) (cs : List Char) : List Char :=
  if m.spaced then afterSpace cs else cs

/-- The next character that counts, when no comment stands before it. -/
def peek (m : Modes) (cs : List Char) : Option Char :=
  if m.spaced then
    match cs.dropWhile isBlank with
    | '#' :: cs => (cs.dropWhile isBlank).head?
    | cs => cs.head?
  else cs.head?

/-- A number of hexadecimal digits, added to what was read before. -/
def hex? (m : Modes) : Nat → Nat → List Char → Option (Nat × List Char)
  | 0, value, cs => some (value, cs)
  | n + 1, value, cs =>
    match cs with
    | [] => none
    | c :: cs =>
      match hexDigit? c with
      | some d => hex? m n (16 * value + d) (skip m cs)
      | none => none

inductive Escape where
  /-- A character, perhaps given as a byte. -/
  | literal (c : Char) (byte : Bool)
  /-- A set of characters. -/
  | set
  /-- A place between characters. -/
  | edge
deriving DecidableEq, Repr

/-- A character by its code point in a number of hexadecimal digits; two digits make a byte. -/
def codePoint? (m : Modes) (digits : Nat) (cs : List Char) : Option (Escape × List Char) :=
  match hex? m digits 0 (skip m cs) with
  | some (n, cs) => if n.isValidChar then some (.literal (Char.ofNat n) (digits == 2), cs) else none
  | none => none

/-- Whether a backslash before a character only takes away its meaning. -/
def isEscapable (c : Char) : Bool :=
  c.toNat < 128 && !c.isAlphanum && c != '<' && c != '>'

/-- What follows a backslash. Sets and the edges of words are known of bytes only, and complements
of sets not at all. -/
def escape? (m : Modes) : List Char → Option (Escape × List Char)
  | [] => none
  | c :: cs =>
    if isEscapable c then some (.literal c false, cs)
    else match c with
      | 'a' => some (.literal '\x07' false, cs)
      | 'f' => some (.literal '\x0c' false, cs)
      | 't' => some (.literal '\t' false, cs)
      | 'n' => some (.literal '\n' false, cs)
      | 'r' => some (.literal '\r' false, cs)
      | 'v' => some (.literal '\x0b' false, cs)
      | 'x' => codePoint? m 2 cs
      | 'u' => codePoint? m 4 cs
      | 'U' => codePoint? m 8 cs
      | 'A' | 'z' => some (.edge, cs)
      | 'd' | 's' | 'w' => if m.bytes then some (.set, cs) else none
      | 'b' | 'B' | '<' | '>' => if m.bytes then some (.edge, cs) else none
      | _ => none

/-- Whether a character can be matched: characters cannot be folded, and a byte beyond ASCII is no
text. -/
def allows (m : Modes) (c : Char) (byte : Bool) : Bool :=
  if m.bytes then !byte || c.toNat < 128 else !m.folded

def asciiSets : List String :=
  ["alnum", "alpha", "ascii", "blank", "cntrl", "digit", "graph", "lower", "print", "punct",
   "space", "upper", "word", "xdigit"]

/-- A named set after its bracket, and whether its complement is meant. -/
def asciiSet? : List Char → Option (Bool × List Char)
  | ':' :: cs =>
    let (negated, cs) := match cs with
      | '^' :: cs => (true, cs)
      | cs => (false, cs)
    match cs.dropWhile (· != ':') with
    | ':' :: ']' :: rest =>
      if asciiSets.contains (String.ofList (cs.takeWhile (· != ':'))) then some (negated, rest)
      else none
    | _ => none
  | _ => none

/-- The parts of something, and how deep the deepest of them nests. -/
structure Parts where
  count : Nat := 0
  deepest : Nat := 0
deriving DecidableEq, Repr

namespace Parts

def add (p : Parts) (depth : Nat) : Parts :=
  ⟨p.count + 1, max p.deepest depth⟩

/-- How deep the parts nest together; a single part stands for itself. -/
def depth (p : Parts) : Nat :=
  if p.count ≤ 1 then p.deepest else p.deepest + 1

end Parts

structure SetLevel where
  members : Parts := {}
  /-- The depth of what stands before the last operator. -/
  left : Option Nat := none
deriving DecidableEq, Repr

namespace SetLevel

/-- How deep a set nests inside its brackets. -/
def depth (l : SetLevel) : Nat :=
  match l.left with
  | some left => max left l.members.depth + 1
  | none => l.members.depth

def add (l : SetLevel) (depth : Nat) : SetLevel :=
  { l with members := l.members.add depth }

def operator (l : SetLevel) : SetLevel :=
  { left := some l.depth }

end SetLevel

def leadingDashes (m : Modes) : Nat → Parts → List Char → Parts × List Char
  | 0, dashes, cs => (dashes, cs)
  | n + 1, dashes, cs =>
    match cs with
    | '-' :: cs => leadingDashes m n (dashes.add 0) (skip m cs)
    | cs => (dashes, cs)

/-- The start of a set after its bracket and sign: dashes, or else a closing bracket, stand for
themselves there. -/
def setStart? (m : Modes) (cs : List Char) : Option (SetLevel × List Char) :=
  let (members, cs) := match leadingDashes m cs.length {} cs with
    | (⟨0, _⟩, ']' :: cs) => (Parts.add {} 0, skip m cs)
    | start => start
  if members.count = 0 ∨ allows m '-' false then some ({ members := members }, cs) else none

/-- The start of a set after its bracket. Complements are not known of bytes. -/
def openSet? (m : Modes) (cs : List Char) : Option (SetLevel × List Char) :=
  match skip m cs with
  | '^' :: cs => if m.bytes then none else setStart? m (skip m cs)
  | cs => setStart? m cs

def member? (m : Modes) : List Char → Option (Option Char × List Char)
  | [] => none
  | '\\' :: cs =>
    match escape? m cs with
    | some (.literal c byte, cs) =>
      if allows m c byte && (!m.bytes || c.toNat < 128) then some (some c, cs) else none
    | some (.set, cs) => some (none, cs)
    | some (.edge, _) => none
    | none => none
  | c :: cs => if allows m c false && (!m.bytes || c.toNat < 128) then some (some c, cs) else none

def range? (m : Modes) (cs : List Char) : Option (List Char) :=
  match member? m cs with
  | none => none
  | some (first, cs) =>
    match skip m cs with
    | '-' :: rest =>
      if peek m rest = some ']' ∨ peek m rest = some '-' then some ('-' :: rest)
      else match first, member? m (skip m rest) with
        | some a, some (some b, cs) => if a.toNat ≤ b.toNat then some cs else none
        | _, _ => none
    | cs => some cs

/-- The depth of a set that has been opened inside others, and what follows the outermost. Named
sets cannot be folded as characters, and their complements are not known of bytes. -/
def set? (m : Modes) : Nat → SetLevel → List SetLevel → List Char → Option (Nat × List Char)
  | 0, _, _, _ => none
  | fuel + 1, level, outer, cs =>
    match skip m cs with
    | [] => none
    | '[' :: cs =>
      match asciiSet? cs with
      | some (negated, rest) =>
        if m.bytes && negated || !allows m 'a' false then none
        else set? m fuel (level.add 0) outer rest
      | none =>
        match openSet? m cs with
        | some (inner, cs) => set? m fuel inner (level :: outer) cs
        | none => none
    | ']' :: cs =>
      match outer with
      | [] => some (level.depth + 1, cs)
      | l :: outer => set? m fuel (l.add (level.depth + 1)) outer cs
    | '&' :: '&' :: cs | '-' :: '-' :: cs | '~' :: '~' :: cs => set? m fuel level.operator outer cs
    | cs =>
      match range? m cs with
      | some cs => set? m fuel (level.add 0) outer cs
      | none => none

def Modes.assign (m : Modes) (mode : Char) (on : Bool) : Modes :=
  match mode with
  | 'x' => { m with spaced := on }
  | 'i' => { m with folded := on }
  | 'u' => { m with bytes := !on }
  | _ => m

/-- Modes up to a colon or a closing bracket, each at most once; those after a dash are taken away.
A colon starts a group. -/
def modes? (m : Modes) (seen : List Char) : List Char → Option (Modes × Bool × List Char)
  | [] => none
  | ':' :: cs => if seen.head? = some '-' then none else some (m, true, cs)
  | ')' :: cs =>
    match seen.head? with
    | none | some '-' => none
    | some _ => some (m, false, cs)
  | c :: cs =>
    if seen.contains c then none
    else if c = '-' then modes? m (c :: seen) cs
    else if ['i', 'm', 's', 'U', 'u', 'R', 'x'].contains c then
      modes? (m.assign c (!seen.contains '-')) (c :: seen) cs
    else none

def isNameChar (c : Char) : Bool :=
  c == '_' || c == '.' || c == '[' || c == ']' || isAlphanumeric c

def name? (cs : List Char) : Option (String × List Char) :=
  match cs.takeWhile (· != '>'), cs.dropWhile (· != '>') with
  | c :: name, '>' :: rest =>
    if (c == '_' || isLetter c) && name.all isNameChar then some (String.ofList (c :: name), rest)
    else none
  | _, _ => none

structure GroupLevel where
  modes : Modes := {}
  /-- The items of the last branch. -/
  items : Parts := {}
  /-- The depth of the last item if it can be repeated. -/
  last : Option Nat := none
  /-- The depth of the deepest branch before. -/
  branches : Option Nat := none
deriving DecidableEq, Repr

namespace GroupLevel

/-- How deep a group nests inside its brackets. -/
def depth (l : GroupLevel) : Nat :=
  match l.branches with
  | some branches => max branches l.items.depth + 1
  | none => l.items.depth

def add (l : GroupLevel) (depth : Nat) : GroupLevel :=
  { l with items := l.items.add depth, last := some depth }

def repeat? (l : GroupLevel) : Option GroupLevel :=
  l.last.map fun depth =>
    { l with
      items := { l.items with deepest := max l.items.deepest (depth + 1) }
      last := some (depth + 1) }

/-- The group after other modes are set, which cannot be repeated. -/
def setModes (l : GroupLevel) (m : Modes) : GroupLevel :=
  { l with modes := m, items := l.items.add 0, last := none }

def branch (l : GroupLevel) : GroupLevel :=
  { modes := l.modes, branches := some (max (l.branches.getD 0) l.items.depth) }

end GroupLevel

structure State where
  level : GroupLevel := {}
  /-- The groups around. -/
  outer : List GroupLevel := []
  /-- The names of groups. -/
  names : List String := []
deriving DecidableEq, Repr

namespace State

def item (s : State) (depth : Nat) : State :=
  { s with level := s.level.add depth }

def enter (s : State) (m : Modes) : State :=
  { s with level := { modes := m }, outer := s.level :: s.outer }

/-- The state inside a group with a name that no other group has. -/
def enterNamed? (s : State) (cs : List Char) : Option (State × List Char) :=
  match name? cs with
  | some (name, cs) =>
    if s.names.contains name then none
    else some ({ s.enter s.level.modes with names := name :: s.names }, cs)
  | none => none

def openGroup? (s : State) (cs : List Char) : Option (State × List Char) :=
  match skip s.level.modes cs with
  | '?' :: 'P' :: '<' :: cs => s.enterNamed? cs
  | '?' :: '<' :: cs => s.enterNamed? cs
  | '?' :: cs =>
    match modes? s.level.modes [] cs with
    | some (m, true, cs) => some (s.enter m, cs)
    | some (m, false, cs) => some ({ s with level := s.level.setModes m }, cs)
    | none => none
  | cs => some (s.enter s.level.modes, cs)

def closeGroup? (s : State) : Option State :=
  match s.outer with
  | l :: outer => some { s with level := l.add (s.level.depth + 1), outer := outer }
  | [] => none

/-- What follows a repetition, which may be lazy. -/
def afterRepetition : List Char → List Char
  | '?' :: cs => cs
  | cs => cs

def set? (s : State) (cs : List Char) : Option (State × List Char) :=
  match openSet? s.level.modes cs with
  | some (level, rest) =>
    (Pattern.set? s.level.modes (cs.length + 1) level [] rest).map fun (depth, cs) =>
      (s.item depth, cs)
  | none => none

/-- The state after one step. A brace would count repetitions, and a count never ends here. -/
def step (s : State) (c : Char) (cs : List Char) : Option (State × List Char) :=
  match c with
  | '(' => s.openGroup? cs
  | ')' => s.closeGroup?.map (·, cs)
  | '|' => some ({ s with level := s.level.branch }, cs)
  | '[' => s.set? cs
  | '?' | '*' | '+' =>
    s.level.repeat?.map fun level => ({ s with level := level }, afterRepetition cs)
  | '\x7b' => none
  | '.' => if s.level.modes.bytes then none else some (s.item 0, cs)
  | '^' | '$' => some (s.item 0, cs)
  | '\\' =>
    match escape? s.level.modes cs with
    | some (.literal c byte, cs) =>
      if allows s.level.modes c byte then some (s.item 0, cs) else none
    | some (_, cs) => some (s.item 0, cs)
    | none => none
  | c => if allows s.level.modes c false then some (s.item 0, cs) else none

/-- The depth of a pattern that is read to the end, where no group may be open. -/
def depth? : Nat → State → List Char → Option Nat
  | 0, _, _ => none
  | fuel + 1, s, cs =>
    match skip s.level.modes cs with
    | [] => if s.outer.isEmpty then some s.level.depth else none
    | c :: cs =>
      match s.step c cs with
      | some (s, cs) => depth? fuel s cs
      | none => none

end State

def maxDepth : Nat := 250

end Pattern

/-- Whether a text without braces and commas is a well-formed regular expression that needs no
tables of characters and does not nest too deep. -/
def isPattern (s : String) : Bool :=
  match Pattern.State.depth? (s.length + 1) {} s.toList with
  | some depth => depth ≤ Pattern.maxDepth
  | none => false

end WireModel.Text
