import WireModel.Layout
import WireModel.Proofs.Tokens

namespace WireModel.Stmt

/-- Text that can be told from indentation and from the end of a block. -/
structure IsLine (text : String) : Prop where
  newline : '\n' ∉ text.toList
  start : ∃ c ∈ text.toList.head?, c ≠ ' ' ∧ c ≠ '\x7d'

/-- Statements that can be read off their lines: blank lines, lines that do not look like the start
of a block, and blocks in braces. -/
inductive Readable : List Stmt → Prop where
  | nil : Readable []
  | blank {ss : List Stmt} (hss : Readable ss) : Readable (.blank :: ss)
  | line {text : String} {ss : List Stmt} (ht : IsLine text)
    (hlast : text.toList.getLast? ≠ some '\x7b') (hss : Readable ss) :
    Readable (.line text :: ss)
  | block {opening : String} {body ss : List Stmt} (ho : IsLine opening) (hbody : Readable body)
    (hss : Readable ss) : Readable (.block (opening ++ " \x7b") body "\x7d" :: ss)

theorem indented_zero (text : String) : indented 0 text = text :=
  String.empty_append

theorem linesOf_append (level : Nat) (ss ts : List Stmt) :
    linesOf level (ss ++ ts) = linesOf level ss ++ linesOf level ts := by
  induction ss with
  | nil => rfl
  | cons s ss ih => simp [linesOf, ih]

theorem linesOf_singleton (level : Nat) (s : Stmt) : linesOf level [s] = s.lines level :=
  List.append_nil _

theorem exists_texts {ss : List Stmt} (h : ∀ s ∈ ss, ∃ text, s = .line text) :
    ∃ texts : List String, ss = texts.map fun text => .line text := by
  induction ss with
  | nil => exact ⟨[], rfl⟩
  | cons s ss ih =>
    obtain ⟨text, rfl⟩ := h s List.mem_cons_self
    obtain ⟨texts, rfl⟩ := ih fun t ht => h t (List.mem_cons_of_mem _ ht)
    exact ⟨text :: texts, rfl⟩

theorem linesOf_map_line {α : Type} (level : Nat) (f : α → String) (as : List α) :
    linesOf level (as.map fun a => .line (f a)) = as.map fun a => indented level (f a) := by
  induction as with
  | nil => rfl
  | cons a as ih => exact congrArg (indented level (f a) :: ·) ih

/-- Lines that no statement of a level can begin with. -/
def Ends (level : Nat) (lines : List String) : Prop :=
  ∀ l ∈ lines.head?, l ≠ "" ∧ ∀ text, IsLine text → l ≠ indented level text

theorem indented_inj {level : Nat} {a b : String} (h : indented level a = indented level b) :
    a = b :=
  (String.append_right_inj _).1 h

theorem beq_space_of_mem_replicate {n : Nat} : ∀ c ∈ List.replicate n ' ', (c == ' ') = true := by
  intro c hc
  rw [List.eq_of_mem_replicate hc]
  rfl

/-- The spaces before a text that does not start with one are those of its level. -/
theorem takeWhile_indented {text : String} (h : text.toList.head? ≠ some ' ') (level : Nat) :
    (indented level text).toList.takeWhile (· == ' ') = List.replicate (2 * level) ' ' := by
  rw [indented, String.toList_append, String.toList_ofList,
    List.takeWhile_append_of_pos beq_space_of_mem_replicate]
  cases hl : text.toList with
  | nil => exact List.append_nil _
  | cons c cs =>
    rw [hl, List.head?_cons, ne_eq, Option.some.injEq] at h
    simp [h]

theorem dropWhile_indented {text : String} (h : text.toList.head? ≠ some ' ') (level : Nat) :
    (indented level text).toList.dropWhile (· == ' ') = text.toList := by
  rw [indented, String.toList_append, String.toList_ofList,
    List.dropWhile_append_of_pos beq_space_of_mem_replicate]
  cases hl : text.toList with
  | nil => rfl
  | cons c cs =>
    rw [hl, List.head?_cons, ne_eq, Option.some.injEq] at h
    simp [h]

theorem IsLine.head?_ne_space {text : String} (h : IsLine text) :
    text.toList.head? ≠ some ' ' := by
  obtain ⟨c, hc, hspace, _⟩ := h.start
  rw [Option.mem_def.1 hc]
  exact fun he => hspace (Option.some.inj he)

theorem IsLine.append {text : String} (h : IsLine text) {rest : String}
    (hr : '\n' ∉ rest.toList) : IsLine (text ++ rest) := by
  obtain ⟨c, hc, hne⟩ := h.start
  refine ⟨?_, c, ?_, hne⟩
  · rw [String.toList_append, List.mem_append]
    exact not_or.2 ⟨h.newline, hr⟩
  · rw [String.toList_append, List.head?_append, Option.mem_def.1 hc]
    rfl

theorem IsLine.indented_ne_empty {text : String} (h : IsLine text) (level : Nat) :
    indented level text ≠ "" := by
  obtain ⟨c, hc, _⟩ := h.start
  intro he
  rw [← String.toList_inj, indented, String.toList_append] at he
  rw [(List.append_eq_nil_iff.1 he).2] at hc
  cases hc

theorem ends_nil (level : Nat) : Ends level [] := by
  intro l hl
  cases hl

/-- The end of a block is not part of what stands in it. -/
theorem ends_closing (level : Nat) (lines : List String) :
    Ends (level + 1) (indented level "\x7d" :: lines) := by
  intro l hl
  cases hl
  refine ⟨?_, ?_⟩
  · intro h
    rw [← String.toList_inj] at h
    simp [indented] at h
  · intro text _ h
    rw [← String.toList_inj] at h
    simp [indented, Nat.mul_add, List.replicate_add] at h

theorem eq_nil_of_ends {level : Nat} {ss : List Stmt} {x y : List String} (hs : Readable ss)
    (hy : Ends level y) (h : linesOf level ss ++ x = y) : ss = [] := by
  subst h
  cases hs with
  | nil => rfl
  | blank hss => exact ((hy "" rfl).1 rfl).elim
  | line ht _ hss => exact ((hy _ rfl).2 _ ht rfl).elim
  | block ho hbody hss => exact ((hy _ rfl).2 _ (ho.append (by decide)) rfl).elim

theorem ne_opening {text opening : String} (h : text.toList.getLast? ≠ some '\x7b') :
    text ≠ opening ++ " \x7b" := by
  intro he
  rw [he] at h
  simp at h

/-- Statements can be read off their lines, whatever lines follow that cannot belong to them. -/
theorem linesOf_append_inj {ss ts : List Stmt} (hs : Readable ss) (ht : Readable ts) {level : Nat}
    {x y : List String} (hx : Ends level x) (hy : Ends level y)
    (h : linesOf level ss ++ x = linesOf level ts ++ y) : ss = ts ∧ x = y := by
  induction hs generalizing ts level x y with
  | nil =>
    obtain rfl := eq_nil_of_ends ht hx h.symm
    exact ⟨rfl, h⟩
  | @blank ss hss ih =>
    cases ht with
    | nil => cases eq_nil_of_ends (.blank hss) hy h
    | blank hts =>
      obtain ⟨rfl, hxy⟩ := ih hts hx hy (List.cons.inj h).2
      exact ⟨rfl, hxy⟩
    | line htext _ hts => exact (htext.indented_ne_empty level (List.cons.inj h).1.symm).elim
    | block ho hbody hts =>
      exact ((ho.append (by decide)).indented_ne_empty level (List.cons.inj h).1.symm).elim
  | @line text ss htext hlast hss ih =>
    cases ht with
    | nil => cases eq_nil_of_ends (.line htext hlast hss) hy h
    | blank hts => exact (htext.indented_ne_empty level (List.cons.inj h).1).elim
    | line htext' _ hts =>
      obtain ⟨hhead, hrest⟩ := List.cons.inj h
      obtain ⟨rfl, hxy⟩ := ih hts hx hy hrest
      exact ⟨by rw [indented_inj hhead], hxy⟩
    | block ho hbody hts => exact (ne_opening hlast (indented_inj (List.cons.inj h).1)).elim
  | @block opening body ss ho hbody hss ihbody ih =>
    cases ht with
    | nil => cases eq_nil_of_ends (.block ho hbody hss) hy h
    | blank hts =>
      exact ((ho.append (by decide)).indented_ne_empty level (List.cons.inj h).1).elim
    | line htext' hlast hts =>
      exact (ne_opening hlast (indented_inj (List.cons.inj h).1.symm)).elim
    | block ho' hbody' hts =>
      simp only [linesOf, lines, List.cons_append, List.append_assoc, List.nil_append] at h
      obtain ⟨hhead, hrest⟩ := List.cons.inj h
      obtain ⟨rfl, hclosing⟩ :=
        ihbody hbody' (ends_closing level _) (ends_closing level _) hrest
      obtain ⟨rfl, hxy⟩ := ih hts hx hy (List.cons.inj hclosing).2
      exact ⟨by rw [indented_inj hhead], hxy⟩

theorem newline_notMem_indented {level : Nat} {text : String} (h : '\n' ∉ text.toList) :
    '\n' ∉ (indented level text).toList := by
  simp [indented, h]

theorem newline_notMem_linesOf {ss : List Stmt} (h : Readable ss) (level : Nat) :
    ∀ l ∈ linesOf level ss, '\n' ∉ l.toList := by
  induction h generalizing level with
  | nil => simp [linesOf]
  | blank hss ih => simpa [linesOf, lines] using ih level
  | line ht hlast hss ih =>
    simpa [linesOf, lines, newline_notMem_indented ht.newline] using ih level
  | block ho hbody hss ihbody ih =>
    intro l hl
    simp only [linesOf, lines, List.cons_append, List.append_assoc, List.mem_cons,
      List.mem_append, List.not_mem_nil, false_or] at hl
    obtain rfl | hl | rfl | hl := hl
    · exact newline_notMem_indented (ho.append (by decide)).newline
    · exact ihbody (level + 1) l hl
    · exact newline_notMem_indented (by decide)
    · exact ih level l hl

theorem render_inj {ss ts : List Stmt} (hs : Readable ss) (ht : Readable ts)
    (h : render ss = render ts) : ss = ts := by
  have hlines := Text.unlines_inj (newline_notMem_linesOf hs 0) (newline_notMem_linesOf ht 0) h
  apply (linesOf_append_inj hs ht (ends_nil 0) (ends_nil 0) _).1
  rw [hlines]

theorem Readable.append {ss ts : List Stmt} (hs : Readable ss) (ht : Readable ts) :
    Readable (ss ++ ts) := by
  induction hs with
  | nil => exact ht
  | blank hss ih => exact .blank ih
  | line htext hlast hss ih => exact .line htext hlast ih
  | block ho hbody hss ihbody ih => exact .block ho hbody ih

theorem readable_map {α : Type} {f : α → Stmt} {as : List α} (h : ∀ a ∈ as, Readable [f a]) :
    Readable (as.map f) := by
  induction as with
  | nil => exact .nil
  | cons a as ih =>
    exact (h a List.mem_cons_self).append (ih fun b hb => h b (List.mem_cons_of_mem a hb))

theorem readable_line {text : String} (h : IsLine text) : Readable [.line (text ++ ";")] :=
  .line (h.append (by decide)) (by simp) .nil

theorem braces_inj {a b : String} {ss ts : List Stmt} (h : braces a ss = braces b ts) :
    a = b ∧ ss = ts := by
  obtain ⟨hopening, hbody, _⟩ := Stmt.block.inj h
  exact ⟨(String.append_left_inj _).1 hopening, hbody⟩

/-- Blocks of different sorts start with different keywords. -/
theorem braces_keyword_ne {k l : String} {c d : Char} {ks ls : List Char}
    (hk : k.toList = c :: ks) (hl : l.toList = d :: ls) (hcd : c ≠ d) (a b : String)
    (ss ts : List Stmt) : braces (k ++ a) ss ≠ braces (l ++ b) ts := by
  intro h
  have htext := String.toList_inj.2 (braces_inj h).1
  rw [String.toList_append, String.toList_append, hk, hl] at htext
  exact hcd (List.cons.inj htext).1

theorem readable_braces {opening : String} {body : List Stmt} (ho : IsLine opening)
    (hbody : Readable body) : Readable [.braces opening body] :=
  .block ho hbody .nil

theorem spaced_cons {α : Type} (f : α → Stmt) (a : α) (as : List α) :
    spaced ((a :: as).map fun a => [f a]) = f a :: as.flatMap fun b => [.blank, f b] := by
  induction as generalizing a with
  | nil => rfl
  | cons b bs ih => exact congrArg (fun ss => f a :: .blank :: ss) (ih b)

theorem readable_flatMap_blank {α : Type} {f : α → Stmt} {as : List α}
    (h : ∀ a ∈ as, Readable [f a]) : Readable (as.flatMap fun a => [.blank, f a]) := by
  induction as with
  | nil => exact .nil
  | cons a as ih =>
    exact .blank ((h a List.mem_cons_self).append
      (ih fun b hb => h b (List.mem_cons_of_mem a hb)))

theorem readable_spaced {α : Type} {f : α → Stmt} {as : List α} (h : ∀ a ∈ as, Readable [f a]) :
    Readable (spaced (as.map fun a => [f a])) := by
  cases as with
  | nil => exact .nil
  | cons a as =>
    rw [spaced_cons]
    exact (h a List.mem_cons_self).append
      (readable_flatMap_blank fun b hb => h b (List.mem_cons_of_mem a hb))

theorem flatMap_blank_inj {α : Type} {f : α → Stmt} {as bs : List α}
    (h : (as.flatMap fun a => [.blank, f a]) = bs.flatMap fun b => [.blank, f b]) :
    as.map f = bs.map f := by
  induction as generalizing bs with
  | nil =>
    cases bs with
    | nil => rfl
    | cons b bs => cases h
  | cons a as ih =>
    cases bs with
    | nil => cases h
    | cons b bs =>
      simp only [List.flatMap_cons, List.cons_append, List.nil_append, List.cons.injEq,
        true_and] at h
      rw [List.map_cons, List.map_cons, h.1, ih h.2]

/-- The statements can be told apart from the blank lines between them. -/
theorem spaced_inj {α : Type} {f : α → Stmt} {as bs : List α}
    (h : spaced (as.map fun a => [f a]) = spaced (bs.map fun b => [f b])) :
    as.map f = bs.map f := by
  cases as with
  | nil =>
    cases bs with
    | nil => rfl
    | cons b bs =>
      rw [spaced_cons] at h
      cases h
  | cons a as =>
    cases bs with
    | nil =>
      rw [spaced_cons] at h
      cases h
    | cons b bs =>
      rw [spaced_cons, spaced_cons] at h
      obtain ⟨hab, hrest⟩ := List.cons.inj h
      rw [List.map_cons, List.map_cons, hab, flatMap_blank_inj hrest]

end WireModel.Stmt
