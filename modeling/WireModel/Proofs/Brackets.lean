import Mathlib.Data.List.Basic
import WireModel.Proofs.StatementTrees

namespace WireModel

namespace Text

/-- The closing brackets that are due, innermost first, after one more character. -/
def step (due : List Char) (c : Char) : Option (List Char) :=
  match c with
  | '(' => some (')' :: due)
  | '[' => some (']' :: due)
  | '\x7b' => some ('\x7d' :: due)
  | ')' | ']' | '\x7d' =>
    match due with
    | [] => none
    | d :: rest => if c = d then some rest else none
  | _ => some due

/-- The closing brackets that are due after some characters; none if a closing bracket does not
match the innermost open one. -/
def scan (due cs : List Char) : Option (List Char) :=
  cs.foldlM step due

def closers : List Char :=
  [')', ']', '\x7d']

/-- The characters that give a text its lines and its nesting. -/
def marks : List Char :=
  ['\n', '(', '[', '\x7b', ')', ']', '\x7d']

def IsPlain (s : String) : Prop :=
  ∀ c ∈ s.toList, c ∉ marks

instance : DecidablePred IsPlain := fun s => List.decidableBAll (· ∉ marks) s.toList

/-- A plain text that starts with something to be seen. -/
structure IsPlainName (s : String) : Prop where
  plain : IsPlain s
  ne_empty : s ≠ ""
  start : s.toList.head? ≠ some ' '

instance : DecidablePred IsPlainName := fun s =>
  decidable_of_iff (IsPlain s ∧ s ≠ "" ∧ s.toList.head? ≠ some ' ')
    ⟨fun h => ⟨h.1, h.2.1, h.2.2⟩, fun h => ⟨h.plain, h.ne_empty, h.start⟩⟩

/-- The number of spaces at the start of a line. -/
def indentation (line : String) : Nat :=
  (line.toList.takeWhile (· == ' ')).length

/-- The first character of a line that is not a space. -/
def firstVisible? (line : String) : Option Char :=
  (line.toList.dropWhile (· == ' ')).head?

/-- Whether a line closes a bracket with its first character that is not a space. -/
def startsClosing (line : String) : Bool :=
  (firstVisible? line).any closers.contains

/-- A line that is empty or stands two spaces deep for each open bracket, but for one that it
closes itself with its first character. -/
def IsIndented (due : List Char) (line : String) : Prop :=
  line ≠ "" → indentation line + (if startsClosing line then 2 else 0) = 2 * due.length

/-- Text in which all brackets match and all lines are indented by the brackets around them. -/
structure WellBracketed (text : String) : Prop where
  balanced : scan [] text.toList = some []
  indented : ∀ before line after, splitAt '\n' text = before ++ line :: after →
    ∃ due, scan [] (unlines before).toList = some due ∧ IsIndented due line

theorem step_of_notMem_marks {c : Char} (h : c ∉ marks) (due : List Char) :
    step due c = some due := by
  simp only [marks, List.mem_cons, List.not_mem_nil, or_false, not_or] at h
  unfold step
  split <;> simp_all

theorem step_append {p q : List Char} {c : Char} (h : step p c = some q) (r : List Char) :
    step (p ++ r) c = some (q ++ r) := by
  unfold step at h ⊢
  split at h
  all_goals grind

theorem scan_cons (p cs : List Char) (c : Char) :
    scan p (c :: cs) = (step p c).bind fun q => scan q cs := by
  rfl

theorem scan_append (p cs ds : List Char) :
    scan p (cs ++ ds) = (scan p cs).bind fun q => scan q ds :=
  List.foldlM_append

/-- Brackets further out do not matter. -/
theorem scan_frame {p q cs : List Char} (h : scan p cs = some q) (r : List Char) :
    scan (p ++ r) cs = some (q ++ r) := by
  induction cs generalizing p with
  | nil =>
    cases h
    rfl
  | cons c cs ih =>
    rw [scan_cons, Option.bind_eq_some_iff] at h
    obtain ⟨p', hp, h⟩ := h
    rw [scan_cons, step_append hp, Option.bind_some, ih h]

/-- As `scan`, for part of a line. -/
def scanLine (due : List Char) (s : String) : Option (List Char) :=
  if '\n' ∈ s.toList then none else scan due s.toList

/-- Part of a line that closes what it opens, and nothing else. -/
abbrev Neutral (s : String) : Prop :=
  ∀ due, scanLine due s = some due

/-- Text that can stand first on a line. -/
def Begins (s : String) : Prop :=
  ∃ c ∈ s.toList.head?, c ≠ ' ' ∧ c ∉ closers

instance : DecidablePred Begins := fun s =>
  Option.decidableExistsMem s.toList.head?

theorem scanLine_eq_some_iff {p q : List Char} {s : String} :
    scanLine p s = some q ↔ '\n' ∉ s.toList ∧ scan p s.toList = some q := by
  rw [scanLine]
  split <;> simp_all

theorem scanLine_append (p : List Char) (s t : String) :
    scanLine p (s ++ t) = (scanLine p s).bind fun q => scanLine q t := by
  simp only [scanLine, String.toList_append, List.mem_append, scan_append]
  by_cases hs : '\n' ∈ s.toList
  · simp [hs]
  · by_cases ht : '\n' ∈ t.toList <;> simp [hs, ht]

theorem scanLine_frame {p q : List Char} {s : String} (h : scanLine p s = some q)
    (r : List Char) : scanLine (p ++ r) s = some (q ++ r) := by
  obtain ⟨hn, hs⟩ := scanLine_eq_some_iff.1 h
  exact scanLine_eq_some_iff.2 ⟨hn, scan_frame hs r⟩

theorem Neutral.append {s t : String} (hs : Neutral s) (ht : Neutral t) : Neutral (s ++ t) := by
  intro due
  rw [scanLine_append, hs, Option.bind_some, ht]

/-- Two parts of a line that match each other can stand around a third. -/
theorem Neutral.between {t opening closing : String} (ht : Neutral t)
    (h : scanLine [] (opening ++ closing) = some []) : Neutral (opening ++ t ++ closing) := by
  intro due
  have hframe := scanLine_frame h due
  simp only [scanLine_append, ht, Option.bind_fun_some] at hframe ⊢
  exact hframe

/-- A bracket that is opened and closed on one line. -/
theorem Neutral.enclosed {s t opening closing : String} (hs : Neutral s) (ht : Neutral t)
    (h : scanLine [] (opening ++ closing) = some []) : Neutral (s ++ opening ++ t ++ closing) := by
  have hline := hs.append (ht.between h)
  rwa [← String.append_assoc, ← String.append_assoc] at hline

theorem IsPlain.neutral {s : String} (h : IsPlain s) : Neutral s := by
  intro p
  refine scanLine_eq_some_iff.2 ⟨fun hn => h _ hn (by decide), ?_⟩
  rw [IsPlain] at h
  generalize s.toList = cs at h
  induction cs with
  | nil => rfl
  | cons c cs ih =>
    rw [scan_cons, step_of_notMem_marks (h c List.mem_cons_self)]
    exact ih fun d hd => h d (List.mem_cons_of_mem c hd)

theorem IsPlain.append {s t : String} (hs : IsPlain s) (ht : IsPlain t) : IsPlain (s ++ t) := by
  intro c hc
  rw [String.toList_append, List.mem_append] at hc
  obtain hc | hc := hc
  · exact hs c hc
  · exact ht c hc

theorem IsPlain.qualified {s t : String} (hs : IsPlain s) (ht : IsPlain t) :
    IsPlain (s ++ "." ++ t) :=
  (hs.append (by decide)).append ht

theorem isPlain_joinWith {sep : String} {ss : List String} (hsep : IsPlain sep)
    (h : ∀ s ∈ ss, IsPlain s) : IsPlain (joinWith sep ss) := by
  intro c hc
  obtain hc | ⟨s, hs, hc⟩ := mem_joinWith hc
  · exact hsep c hc
  · exact h s hs c hc

theorem IsPlainName.append {s t : String} (h : IsPlainName s) (ht : IsPlain t) :
    IsPlainName (s ++ t) := by
  have hne : s.toList ≠ [] := fun he => h.ne_empty (String.toList_inj.1 he)
  refine ⟨h.plain.append ht, ?_, ?_⟩
  · intro he
    rw [← String.toList_inj, String.toList_append] at he
    exact hne (List.append_eq_nil_iff.1 he).1
  · rw [String.toList_append, List.head?_append_of_ne_nil _ hne]
    exact h.start

theorem IsPlainName.qualified {s t : String} (hs : IsPlainName s) (ht : IsPlain t) :
    IsPlainName (s ++ "." ++ t) :=
  (hs.append (by decide)).append ht

theorem Begins.append {s : String} (h : Begins s) (t : String) : Begins (s ++ t) := by
  obtain ⟨c, hc, hne⟩ := h
  refine ⟨c, ?_, hne⟩
  rw [String.toList_append, List.head?_append, Option.mem_def.1 hc]
  rfl

theorem IsPlainName.begins {s : String} (h : IsPlainName s) : Begins s := by
  cases hl : s.toList with
  | nil => exact (h.ne_empty (String.toList_inj.1 hl)).elim
  | cons c cs =>
    have hc : c ∉ marks := h.plain c (by simp [hl])
    refine ⟨c, by simp [hl], ?_, ?_⟩
    · rintro rfl
      exact h.start (by simp [hl])
    · intro hm
      simp only [closers, marks, List.mem_cons, List.not_mem_nil, or_false, not_or] at hm hc
      tauto

/-- Text that can stand on a line of its own. -/
structure Stands (text : String) : Prop where
  begins : Begins text
  neutral : Neutral text

theorem IsPlainName.stands {s : String} (h : IsPlainName s) : Stands s :=
  ⟨h.begins, h.plain.neutral⟩

theorem Stands.append {s t : String} (h : Stands s) (ht : Neutral t) : Stands (s ++ t) :=
  ⟨h.begins.append t, h.neutral.append ht⟩

theorem Stands.between {t opening closing : String} (hb : Begins opening) (ht : Neutral t)
    (h : scanLine [] (opening ++ closing) = some []) : Stands (opening ++ t ++ closing) :=
  ⟨(hb.append t).append closing, ht.between h⟩

theorem Stands.enclosed {s t opening closing : String} (h : Stands s) (ht : Neutral t)
    (hm : scanLine [] (opening ++ closing) = some []) : Stands (s ++ opening ++ t ++ closing) :=
  ⟨((h.begins.append _).append _).append _, h.neutral.enclosed ht hm⟩

/-- Lines that lead from some open brackets to others, each indented by those around it. -/
inductive Flows : List Char → List String → List Char → Prop
  | nil (p : List Char) : Flows p [] p
  | cons {p q r : List Char} {line : String} {lines : List String} (hi : IsIndented p line)
    (hs : scanLine p line = some q) (h : Flows q lines r) : Flows p (line :: lines) r

theorem Flows.append {p q r : List Char} {ls ms : List String} (hl : Flows p ls q)
    (hm : Flows q ms r) : Flows p (ls ++ ms) r := by
  induction hl with
  | nil p => exact hm
  | cons hi hs _ ih => exact .cons hi hs (ih hm)

theorem Flows.newline {p q : List Char} {ls : List String} (h : Flows p ls q) :
    ∀ l ∈ ls, '\n' ∉ l.toList := by
  induction h with
  | nil p => simp
  | cons _ hs _ ih => exact List.forall_mem_cons.2 ⟨(scanLine_eq_some_iff.1 hs).1, ih⟩

theorem Flows.scan_unlines {p q : List Char} {ls : List String} (h : Flows p ls q) :
    scan p (unlines ls).toList = some q := by
  induction h with
  | nil p => rfl
  | cons _ hs _ ih =>
    rw [toList_unlines_cons, scan_append, (scanLine_eq_some_iff.1 hs).2, Option.bind_some,
      scan_cons]
    exact ih

/-- A line stands where the lines before it lead. -/
theorem Flows.exists_before {p r : List Char} {before after : List String} {line : String}
    (h : Flows p (before ++ line :: after) r) : ∃ q, Flows p before q ∧ IsIndented q line := by
  induction before generalizing p with
  | nil =>
    cases h with
    | cons hi _ _ => exact ⟨p, .nil p, hi⟩
  | cons b before ih =>
    cases h with
    | cons hi hs h =>
      obtain ⟨q, hq, hl⟩ := ih h
      exact ⟨q, .cons hi hs hq, hl⟩

theorem isIndented_empty (p : List Char) : IsIndented p "" :=
  fun h => (h rfl).elim

theorem Flows.wellBracketed {ls : List String} (h : Flows [] ls []) :
    WellBracketed (unlines ls) := by
  refine ⟨h.scan_unlines, ?_⟩
  intro before line after hsplit
  -- the empty piece at the end stands where all lines lead
  have hall : Flows [] (ls ++ [""]) [] := h.append (.cons (isIndented_empty []) rfl (.nil []))
  rw [← splitAt_unlines h.newline, hsplit] at hall
  obtain ⟨q, hq, hi⟩ := hall.exists_before
  exact ⟨q, hq.scan_unlines, hi⟩

end Text

namespace Stmt

open Text

variable {p q : List Char} {c : Char} {text opening closing : String} {ss ts body : List Stmt}

theorem indentation_indented (h : text.toList.head? ≠ some ' ') (level : Nat) :
    indentation (indented level text) = 2 * level := by
  rw [indentation, takeWhile_indented h, List.length_replicate]

theorem firstVisible?_indented (h : text.toList.head? ≠ some ' ') (level : Nat) :
    firstVisible? (indented level text) = text.toList.head? := by
  rw [firstVisible?, dropWhile_indented h]

theorem scanLine_indented (p : List Char) (level : Nat) (text : String) :
    scanLine p (indented level text) = scanLine p text := by
  have hspaces : IsPlain (String.ofList (List.replicate (2 * level) ' ')) := by
    intro c hc
    rw [String.toList_ofList] at hc
    rw [List.eq_of_mem_replicate hc]
    decide
  rw [indented, scanLine_append, hspaces.neutral, Option.bind_some]

theorem flows_line (hb : Begins text) (hs : scanLine p text = some q) :
    Flows p [indented p.length text] q := by
  obtain ⟨c, hc, hspace, hcloser⟩ := hb
  have hhead : text.toList.head? ≠ some ' ' := fun he => hspace (Option.some.inj (hc.symm.trans he))
  refine .cons ?_ ((scanLine_indented p _ text).trans hs) (.nil q)
  intro _
  rw [indentation_indented hhead, startsClosing, firstVisible?_indented hhead, Option.mem_def.1 hc]
  simp [hcloser]

theorem flows_closing (hc : c ∈ closers) (hhead : text.toList.head? = some c)
    (hs : scanLine (c :: p) text = some q) : Flows (c :: p) [indented p.length text] q := by
  have hspace : text.toList.head? ≠ some ' ' := by
    intro he
    rw [hhead, Option.some.injEq] at he
    rw [he] at hc
    revert hc
    decide
  refine .cons ?_ ((scanLine_indented (c :: p) _ text).trans hs) (.nil q)
  intro _
  rw [indentation_indented hspace, startsClosing, firstVisible?_indented hspace, hhead]
  simp [hc, Nat.mul_add]

/-- Statements that keep the brackets around them open, at the level that these give. -/
def Tidy (ss : List Stmt) : Prop :=
  ∀ p, Flows p (linesOf p.length ss) p

theorem tidy_nil : Tidy [] :=
  fun p => .nil p

theorem Tidy.append (hs : Tidy ss) (ht : Tidy ts) : Tidy (ss ++ ts) := by
  intro p
  rw [linesOf_append]
  exact (hs p).append (ht p)

theorem Tidy.cons {s : Stmt} (h : Tidy [s]) (hs : Tidy ss) : Tidy (s :: ss) :=
  h.append hs

theorem tidy_blank : Tidy [.blank] :=
  fun p => .cons (isIndented_empty p) rfl (.nil p)

theorem tidy_line (h : Stands text) : Tidy [.line text] :=
  fun p => flows_line h.begins (h.neutral p)

/-- A block whose first line leaves one bracket open, which its last line closes. -/
theorem tidy_block (hc : c ∈ closers) (hb : Begins opening)
    (ho : scanLine [] opening = some [c]) (hbody : Tidy body)
    (hhead : closing.toList.head? = some c) (hclose : scanLine [c] closing = some []) :
    Tidy [.block opening body closing] := by
  intro p
  rw [linesOf_singleton, lines]
  have hfirst : Flows p [indented p.length opening] (c :: p) := flows_line hb (scanLine_frame ho p)
  have hlast : Flows (c :: p) [indented p.length closing] p :=
    flows_closing hc hhead (scanLine_frame hclose p)
  exact hfirst.append ((hbody (c :: p)).append hlast)

theorem tidy_braces (h : Stands opening) (hbody : Tidy body) : Tidy [.braces opening body] := by
  refine tidy_block (c := '\x7d') (by decide) (h.begins.append _) ?_ hbody rfl rfl
  rw [scanLine_append, h.neutral]
  rfl

/-- A parenthesis that is closed where a block begins. -/
theorem tidy_parenthesized (h : Stands opening) (hss : Tidy ss) (hbody : Tidy body) :
    Tidy [.line (opening ++ "("), .indent ss, .braces ")" body] := by
  intro p
  have hfirst : Flows p [indented p.length (opening ++ "(")] (')' :: p) := by
    refine flows_line (h.begins.append _) ?_
    rw [scanLine_append, h.neutral]
    rfl
  have hmiddle : Flows (')' :: p) [indented p.length (")" ++ " \x7b")] ('\x7d' :: p) :=
    flows_closing (by decide) rfl rfl
  have hlast : Flows ('\x7d' :: p) [indented p.length "\x7d"] p :=
    flows_closing (by decide) rfl rfl
  have hblock := hmiddle.append ((hbody ('\x7d' :: p)).append hlast)
  have hlines := hfirst.append ((hss (')' :: p)).append hblock)
  simpa only [linesOf, lines, braces, List.append_nil, List.nil_append, List.cons_append,
    List.length_cons] using hlines

theorem tidy_flatMap {α : Type} {f : α → List Stmt} {as : List α} (h : ∀ a ∈ as, Tidy (f a)) :
    Tidy (as.flatMap f) := by
  induction as with
  | nil => exact tidy_nil
  | cons a as ih =>
    exact (h a List.mem_cons_self).append (ih fun b hb => h b (List.mem_cons_of_mem a hb))

theorem tidy_of_forall (h : ∀ s ∈ ss, Tidy [s]) : Tidy ss := by
  induction ss with
  | nil => exact tidy_nil
  | cons s ss ih =>
    exact (h s List.mem_cons_self).cons (ih fun t ht => h t (List.mem_cons_of_mem s ht))

theorem tidy_map {α : Type} {f : α → Stmt} {as : List α} (h : ∀ a ∈ as, Tidy [f a]) :
    Tidy (as.map f) :=
  tidy_of_forall (List.forall_mem_map.2 h)

theorem tidy_spaced {gs : List (List Stmt)} (h : ∀ g ∈ gs, Tidy g) : Tidy (spaced gs) := by
  induction gs with
  | nil => exact tidy_nil
  | cons g gs ih =>
    have hg := h g List.mem_cons_self
    cases gs with
    | nil => exact hg
    | cons g' gs =>
      exact hg.append (tidy_blank.cons (ih fun k hk => h k (List.mem_cons_of_mem g hk)))

theorem flows_paragraph {ls : List String} (h : ∀ l ∈ ls, IsPlainName l) :
    Flows [] (paragraph ls) [] := by
  have hlines : Flows [] ls [] := by
    induction ls with
    | nil => exact .nil []
    | cons l ls ih =>
      have hl := h l List.mem_cons_self
      have hflow := flows_line hl.begins (hl.plain.neutral [])
      rw [indented, List.length_nil, Nat.mul_zero, List.replicate_zero, String.ofList_nil,
        String.empty_append] at hflow
      exact hflow.append (ih fun m hm => h m (List.mem_cons_of_mem l hm))
  rw [paragraph]
  split
  · exact .nil []
  · exact hlines.append (tidy_blank [])

/-- A file is well bracketed if what stands before its statements is, and they are tidy. -/
theorem Tidy.wellBracketed {header : List String} (h : Flows [] header []) (hs : Tidy ss) :
    WellBracketed (unlines header ++ render ss) := by
  rw [render, ← unlines_append]
  exact (h.append (hs [])).wellBracketed

end Stmt

end WireModel
