import WireModel.Text.Alphanumeric
import WireModel.Text.CaseMapping
import WireModel.Text.LetterCase
import WireModel.Text.Pieces

namespace WireModel.Text

/-- The case of the last cased character of the word being read. -/
inductive WordCase where
  | fresh
  | lower
  | upper
deriving DecidableEq, Repr

/-- The case after one more character; characters without case keep it. -/
def WordCase.next (before : WordCase) (c : Char) : WordCase :=
  if isLower c then .lower else if isUpper c then .upper else before

/-- Splits a run of letters and numbers into words. A word ends before a capital that follows a
small letter, and before the last capital of several when a small letter follows it. The word being
read is held back to front. -/
def splitWords (before : WordCase) (word : List Char) : List Char → List (List Char)
  | [] => []
  | [c] => [(c :: word).reverse]
  | c :: d :: cs =>
    if before.next c = .lower ∧ isUpper d then
      (c :: word).reverse :: splitWords .fresh [] (d :: cs)
    else if before = .upper ∧ isUpper c ∧ isLower d then
      word.reverse :: splitWords .fresh [c] (d :: cs)
    else splitWords (before.next c) (c :: word) (d :: cs)

/-- The words of a text: everything but letters and numbers separates, and case changes split. -/
def words (cs : List Char) : List (List Char) :=
  (pieces (fun c => !isAlphanumeric c) cs).flatMap (splitWords .fresh [])

/-- A word in lower case, with the final form of a sigma at its end. -/
def lowered : List Char → List Char
  | [] => []
  | [c] => if c = 'Σ' then ['ς'] else toLower c
  | c :: cs => toLower c ++ lowered cs

def raised (word : List Char) : List Char :=
  word.flatMap toUpper

def capitalized : List Char → List Char
  | [] => []
  | c :: cs => toUpper c ++ lowered cs

def upperCamel (s : String) : String :=
  String.ofList ((words s.toList).flatMap capitalized)

/-- The words of a text run together, each but the first capitalized. -/
def lowerCamel (s : String) : String :=
  match words s.toList with
  | [] => ""
  | w :: ws => String.ofList (lowered w ++ ws.flatMap capitalized)

def shoutySnake (s : String) : String :=
  joinWith "_" ((words s.toList).map fun w => String.ofList (raised w))

end WireModel.Text
