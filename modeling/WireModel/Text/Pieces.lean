namespace WireModel.Text

/-- The pieces of a text between the characters at which it is cut, one more than there are cuts. -/
def pieces (cut : Char → Bool) : List Char → List (List Char)
  | [] => [[]]
  | c :: cs =>
    if cut c then [] :: pieces cut cs
    else match pieces cut cs with
      | [] => [[c]]
      | p :: ps => (c :: p) :: ps

def splitAt (sep : Char) (s : String) : List String :=
  (pieces (· == sep) s.toList).map String.ofList

/-- What stands before the last occurrence of a character. -/
def beforeLast? (sep : Char) : List Char → Option (List Char)
  | [] => none
  | c :: cs =>
    match beforeLast? sep cs with
    | some before => some (c :: before)
    | none => if c = sep then some [] else none

/-- What follows the given characters at the start of a text. -/
def afterStart? : List Char → List Char → Option (List Char)
  | [], cs => some cs
  | _ :: _, [] => none
  | a :: as, c :: cs => if a = c then afterStart? as cs else none

def joinWith (sep : String) : List String → String
  | [] => ""
  | [s] => s
  | s :: ss => s ++ sep ++ joinWith sep ss

/-- The lines one after another, each ended by a newline. -/
def unlines : List String → String
  | [] => ""
  | l :: ls => l ++ "\n" ++ unlines ls

def withoutReturn (s : String) : String :=
  match s.toList.getLast? with
  | some '\r' => String.ofList s.toList.dropLast
  | _ => s

/-- The lines of a text; a line ends in a newline or in a carriage return and a newline. -/
def lines (s : String) : List String :=
  (splitAt '\n' s).map withoutReturn

theorem pieces_ne_nil (cut : Char → Bool) (cs : List Char) : pieces cut cs ≠ [] := by
  cases cs with
  | nil => simp [pieces]
  | cons c cs =>
    rw [pieces]
    split
    · simp
    · split <;> simp

theorem length_lt_of_beforeLast? {sep : Char} {cs before : List Char}
    (h : beforeLast? sep cs = some before) : before.length < cs.length := by
  induction cs generalizing before with
  | nil => simp [beforeLast?] at h
  | cons c cs ih =>
    rw [beforeLast?] at h
    split at h
    · next b hb =>
      cases h
      simpa using ih hb
    · split at h
      · cases h
        simp
      · cases h

end WireModel.Text
