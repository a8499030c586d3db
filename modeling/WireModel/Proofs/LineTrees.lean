import Mathlib.Data.List.Basic
import WireModel.Proofs.StatementTrees

namespace WireModel.Stmt

/-- A tree of which some lines have been read: what stands in the innermost block that is open, and
the blocks around that, each with its opening line and with what stands before it. -/
structure Reading where
  done : List Stmt := []
  around : List (String × List Stmt) := []

namespace Reading

def add (r : Reading) (s : Stmt) : Reading :=
  { r with done := r.done ++ [s] }

/-- Reads one more line, which opens a block if it ends in a brace and closes one if it is one. -/
def next (r : Reading) (line : String) : Option Reading :=
  let text := String.ofList (line.toList.dropWhile (· == ' '))
  if text = "" then some (r.add .blank)
  else if text = "\x7d" then
    match r.around with
    | [] => none
    | (opening, before) :: around => some ⟨before ++ [.block opening r.done text], around⟩
  else if text.toList.getLast? = some '\x7b' then some ⟨[], (text, r.done) :: r.around⟩
  else some (r.add (.line text))

end Reading

/-- The statements that lines are made of, unless braces do not match. -/
def ofLines? (lines : List String) : Option (List Stmt) := do
  let r ← lines.foldlM Reading.next {}
  if r.around.isEmpty then some r.done else none

namespace Reading

variable {r : Reading} {level : Nat} {text : String}

theorem next_blank (r : Reading) : r.next "" = some (r.add .blank) :=
  rfl

theorem next_text (h : IsLine text) :
    r.next (indented level text) = if text.toList.getLast? = some '\x7b'
      then some ⟨[], (text, r.done) :: r.around⟩ else some (r.add (.line text)) := by
  obtain ⟨c, hc, _, hbrace⟩ := h.start
  have hempty : text ≠ "" := by
    rintro rfl
    cases hc
  have hclosing : text ≠ "\x7d" := by
    rintro rfl
    cases hc
    exact hbrace rfl
  rw [next]
  simp only [dropWhile_indented h.head?_ne_space, String.ofList_toList, if_neg hempty,
    if_neg hclosing]

theorem next_closing (opening : String) (before done : List Stmt)
    (around : List (String × List Stmt)) :
    next ⟨done, (opening, before) :: around⟩ (indented level "\x7d") =
      some ⟨before ++ [.block opening done "\x7d"], around⟩ := by
  have hhead : "\x7d".toList.head? ≠ some ' ' := by decide
  rw [next]
  simp only [dropWhile_indented hhead, String.ofList_toList]
  rfl

/-- Reading the lines of statements adds these to what has been read. -/
theorem foldlM_linesOf {ss : List Stmt} (h : Readable ss) (level : Nat) (r : Reading) :
    (linesOf level ss).foldlM next r = some { r with done := r.done ++ ss } := by
  induction h generalizing level r with
  | nil => simp [linesOf]
  | blank hss ih =>
    rw [linesOf, lines, List.singleton_append, List.foldlM_cons, next_blank]
    simp [ih, add]
  | line ht hlast hss ih =>
    rw [linesOf, lines, List.singleton_append, List.foldlM_cons, next_text ht, if_neg hlast]
    simp [ih, add]
  | @block opening body ss ho hbody hss ihbody ih =>
    have hopening : r.next (indented level (opening ++ " \x7b")) =
        some ⟨[], (opening ++ " \x7b", r.done) :: r.around⟩ := by
      rw [next_text (ho.append (by decide)), if_pos (by simp)]
    rw [linesOf, lines, List.foldlM_append, List.foldlM_cons, hopening]
    simp [ihbody, ih, next_closing, List.foldlM_append]

end Reading

/-- Statements can be read back from their lines. -/
theorem ofLines?_linesOf {ss : List Stmt} (h : Readable ss) :
    ofLines? (linesOf 0 ss) = some ss := by
  rw [ofLines?, Reading.foldlM_linesOf h]
  rfl

end WireModel.Stmt
