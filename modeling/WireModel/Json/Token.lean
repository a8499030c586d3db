import WireModel.Json.Value
import WireModel.Text.Hex

namespace WireModel.Json

/-- The smallest meaningful parts of a JSON text. -/
inductive Token where
  | openObject
  | closeObject
  | openArray
  | closeArray
  | colon
  | comma
  | null
  | bool (b : Bool)
  | number (n : Numeral)
  | string (t : Text)
deriving DecidableEq, Repr

namespace Token

/-- The characters allowed between tokens. -/
def isBlank (c : Char) : Bool :=
  c == ' ' || c == '\t' || c == '\n' || c == '\r'

/-- One part of a string literal: a character, or the number of a four-digit escape. -/
inductive Piece where
  | scalar (c : Char)
  | unit (code : Nat)
deriving DecidableEq, Repr

def hexUnit? (a b c d : Char) : Option Nat :=
  match Text.hexDigit? a, Text.hexDigit? b, Text.hexDigit? c, Text.hexDigit? d with
  | some a, some b, some c, some d => some (((a * 16 + b) * 16 + c) * 16 + d)
  | _, _, _, _ => none

def escaped? : Char → Option Char
  | '"' => some '"'
  | '\\' => some '\\'
  | '/' => some '/'
  | 'b' => some '\x08'
  | 'f' => some '\x0c'
  | 'n' => some '\n'
  | 'r' => some '\r'
  | 't' => some '\t'
  | _ => none

/-- The parts of a string literal up to its closing quote, and what follows; the parts already read
are held back to front. -/
def scanPieces (done : List Piece) : List Char → Option (List Piece × List Char)
  | [] => none
  | '"' :: cs => some (done.reverse, cs)
  | '\\' :: 'u' :: a :: b :: c :: d :: cs =>
    match hexUnit? a b c d with
    | some code => scanPieces (.unit code :: done) cs
    | none => none
  | '\\' :: e :: cs =>
    match escaped? e with
    | some c => scanPieces (.scalar c :: done) cs
    | none => none
  | c :: cs => if c = '\\' ∨ c.toNat < 0x20 then none else scanPieces (.scalar c :: done) cs

def isHighSurrogate (code : Nat) : Bool :=
  0xD800 ≤ code && code < 0xDC00

def isLowSurrogate (code : Nat) : Bool :=
  0xDC00 ≤ code && code < 0xE000

/-- The characters that the parts of a string literal stand for, unless half a surrogate pair is
left over; those already found are held back to front. -/
def assemble (done : List Char) : List Piece → Option (List Char)
  | [] => some done.reverse
  | .scalar c :: ps => assemble (c :: done) ps
  | [.unit code] =>
    if isHighSurrogate code || isLowSurrogate code then none
    else some (Char.ofNat code :: done).reverse
  | .unit code :: .scalar c :: ps =>
    if isHighSurrogate code || isLowSurrogate code then none
    else assemble (Char.ofNat code :: done) (.scalar c :: ps)
  | .unit code :: .unit next :: ps =>
    if isHighSurrogate code then
      if isLowSurrogate next then
        assemble (Char.ofNat (0x10000 + (code - 0xD800) * 0x400 + (next - 0xDC00)) :: done) ps
      else none
    else if isLowSurrogate code then none
    else assemble (Char.ofNat code :: done) (.unit next :: ps)

/-- The string literal whose opening quote has been read, and what follows it. -/
def scanString (cs : List Char) : Option (Text × List Char) :=
  (scanPieces [] cs).map fun (ps, rest) => ((assemble [] ps).map String.ofList, rest)

def scan : List Char → Option (Token × List Char)
  | '{' :: cs => some (.openObject, cs)
  | '}' :: cs => some (.closeObject, cs)
  | '[' :: cs => some (.openArray, cs)
  | ']' :: cs => some (.closeArray, cs)
  | ':' :: cs => some (.colon, cs)
  | ',' :: cs => some (.comma, cs)
  | '"' :: cs => (scanString cs).map fun (t, rest) => (.string t, rest)
  | 'n' :: 'u' :: 'l' :: 'l' :: cs => some (.null, cs)
  | 't' :: 'r' :: 'u' :: 'e' :: cs => some (.bool true, cs)
  | 'f' :: 'a' :: 'l' :: 's' :: 'e' :: cs => some (.bool false, cs)
  | cs => (Numeral.scan cs).map fun (n, rest) => (.number n, rest)

theorem length_lt_of_scanPieces {done ps : List Piece} {cs rest : List Char}
    (h : scanPieces done cs = some (ps, rest)) : rest.length < cs.length := by
  fun_induction scanPieces done cs with
  | case1 => cases h
  | case2 =>
    cases h
    simp
  | case3 _ _ _ _ _ _ _ _ ih =>
    have := ih h
    simp
    omega
  | case4 => cases h
  | case5 _ _ _ _ _ _ ih =>
    have := ih h
    simp
    omega
  | case6 => cases h
  | case7 => cases h
  | case8 _ _ _ _ _ _ _ ih =>
    have := ih h
    simp
    omega

theorem length_lt_of_scanString {t : Text} {cs rest : List Char}
    (h : scanString cs = some (t, rest)) : rest.length < cs.length := by
  obtain ⟨⟨ps, r⟩, hp, he⟩ := Option.map_eq_some_iff.1 h
  cases he
  exact length_lt_of_scanPieces hp

theorem length_lt_of_scan {t : Token} {cs rest : List Char} (h : scan cs = some (t, rest)) :
    rest.length < cs.length := by
  rw [scan.eq_def] at h
  split at h
  case h_7 =>
    obtain ⟨⟨s, r⟩, hs, he⟩ := Option.map_eq_some_iff.1 h
    cases he
    have := length_lt_of_scanString hs
    simp
    omega
  case h_11 =>
    obtain ⟨⟨n, r⟩, hn, he⟩ := Option.map_eq_some_iff.1 h
    cases he
    exact Numeral.length_lt_of_scan hn
  all_goals
    cases h
    simp
    try omega

end Token

end WireModel.Json
