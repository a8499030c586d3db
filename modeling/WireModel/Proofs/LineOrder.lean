import WireModel.Proofs.Brackets

namespace WireModel

/-- What stands on a line, apart from its indentation. -/
inductive Mark where
  | text (s : String)
  | blank
deriving DecidableEq

/-- A line of a statement tree: the groups around it, the outermost first and each by its position
in the one around it, the position of its statement in the innermost group, and whether it stands
behind the body of that statement. -/
structure Row where
  way : List Nat
  index : Nat
  closing : Bool
  mark : Mark

namespace Row

def path (r : Row) : List Nat :=
  r.way ++ [r.index]

/-- The same line in a tree where the whole stands in a group at a position. -/
def under (i : Nat) (r : Row) : Row :=
  { r with way := i :: r.way }

/-- The text of the line where the outermost statements stand at a level: two spaces for that level
and for each group around the line, and nothing on a blank line. -/
def line (level : Nat) (r : Row) : String :=
  match r.mark with
  | .text s => String.ofList (List.replicate (2 * (level + r.way.length)) ' ') ++ s
  | .blank => ""

/-- The level of a line where the outermost statements stand at a level that is a word. -/
def wordLevel (level : UInt64) (r : Row) : Nat :=
  (level.toNat + r.way.length) % UInt64.size

/-- The spaces before the line fit into a text. -/
def Fits (level : UInt64) (r : Row) : Prop :=
  r.mark ≠ .blank → 2 * r.wordLevel level < Stmt.byteLimit

/-- Which of two lines comes first, given the paths to their statements and whether they stand
behind the bodies: all lines of a statement come before those of a later one in its group, and the
lines of a body between the two that its statement has of its own. -/
def comesFirst : List Nat → Bool → List Nat → Bool → Prop
  | [], closing, [], closing' => closing = false ∧ closing' = true
  | [], closing, _ :: _, _ => closing = false
  | _ :: _, _, [], closing' => closing' = true
  | i :: p, closing, j :: q, closing' => i < j ∨ i = j ∧ comesFirst p closing q closing'

def Before (r r' : Row) : Prop :=
  comesFirst r.path r.closing r'.path r'.closing

theorem line_under (level i : Nat) (r : Row) : (r.under i).line level = r.line (level + 1) := by
  rw [line, line]
  simp only [under, List.length_cons, Nat.add_assoc, Nat.add_comm 1]

theorem Before.under {r r' : Row} (h : Before r r') (i : Nat) : Before (r.under i) (r'.under i) :=
  .inr ⟨rfl, h⟩

end Row

namespace Stmt

/-- The statements one level below a statement. -/
def inner : Stmt → List Stmt
  | .block _ body _ | .indent body => body
  | .line _ | .blank => []

mutual

/-- What holds of a statement if it holds of those one level below holds of every statement. -/
theorem inner_induction {P : Stmt → Prop} (step : ∀ s : Stmt, (∀ t ∈ s.inner, P t) → P s) :
    ∀ s : Stmt, P s
  | .line _ | .blank => step _ fun _ h => nomatch h
  | .block _ body _ => step _ (inner_induction_list step body)
  | .indent body => step _ (inner_induction_list step body)

theorem inner_induction_list {P : Stmt → Prop}
    (step : ∀ s : Stmt, (∀ t ∈ s.inner, P t) → P s) : ∀ ss : List Stmt, ∀ t ∈ ss, P t
  | [] => fun _ h => nomatch h
  | s :: ss => List.forall_mem_cons.2 ⟨inner_induction step s, inner_induction_list step ss⟩

end

mutual

/-- The lines of the statement at a position in its group. -/
def rows (i : Nat) : Stmt → List Row
  | .line text => [⟨[], i, false, .text text⟩]
  | .blank => [⟨[], i, false, .blank⟩]
  | .block opening body closing =>
    ⟨[], i, false, .text opening⟩ ::
      ((rowsOf 0 body).map (Row.under i) ++ [⟨[], i, true, .text closing⟩])
  | .indent body => (rowsOf 0 body).map (Row.under i)

/-- The lines of the statements from a position on. -/
def rowsOf (i : Nat) : List Stmt → List Row
  | [] => []
  | s :: ss => s.rows i ++ rowsOf (i + 1) ss

end

variable {i : Nat} {s : Stmt} {ss : List Stmt} {closing : Bool} {r r' : Row}

theorem linesOf_eq_of_forall {level : Nat}
    (h : ∀ s ∈ ss, ∀ i, s.lines level = (s.rows i).map (Row.line level)) (i : Nat) :
    linesOf level ss = (rowsOf i ss).map (Row.line level) := by
  induction ss generalizing i with
  | nil => rfl
  | cons s ss ih =>
    rw [linesOf, rowsOf, List.map_append, ← h s List.mem_cons_self i,
      ← ih (fun t ht => h t (List.mem_cons_of_mem s ht)) (i + 1)]

theorem lines_eq (s : Stmt) :
    ∀ level i, s.lines level = (s.rows i).map (Row.line level) := by
  apply inner_induction _ s
  intro s ih level i
  -- one level deeper in the tree is one more group around each line
  have hbody : ((rowsOf 0 s.inner).map (Row.under i)).map (Row.line level) =
      linesOf (level + 1) s.inner := by
    rw [linesOf_eq_of_forall (fun t ht => ih t ht (level + 1)) 0, List.map_map]
    exact List.map_congr_left fun r _ => r.line_under level i
  cases s with
  | line text => rfl
  | blank => rfl
  | block opening body closing =>
    rw [lines, rows, List.map_cons, List.map_append]
    exact congrArg (fun ls => _ :: (ls ++ _)) hbody.symm
  | indent body => exact hbody.symm

/-- A block with a line without text in it and, deeper, a blank line and an empty block. -/
def nested : List Stmt :=
  [.block "a \x7b" [.line "", .indent [.blank, .block "b(" [] ")"]] "\x7d", .line "c"]

end Stmt

end WireModel
