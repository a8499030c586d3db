import WireModel.Proofs.DottedNames
import WireModel.Proofs.Resolution

namespace WireModel

/-- The characters of a name after the dot that it may start with. -/
def afterDot (name : String) : List Char :=
  match name.toList with
  | '.' :: rest => rest
  | cs => cs

/-- A name that starts, after a dot or not, with a package and a dot. -/
def IsQualified (package name : String) : Prop :=
  package ≠ "" ∧ ∃ rest, afterDot name = package.toList ++ '.' :: rest

/-- A name that starts with a dot, or with the package and a dot. -/
def IsAnchored (package name : String) : Prop :=
  name.toList.head? = some '.' ∨ package ≠ "" ∧ package.toList ++ ['.'] <+: name.toList

instance (package name : String) : Decidable (IsAnchored package name) :=
  inferInstanceAs (Decidable (_ ∨ _))

/-- What is left of a name without the dot, and then the package, that it starts with. -/
def bareName (package name : String) : TypeName :=
  if package ≠ "" ∧ package.toList ++ ['.'] <+: afterDot name then
    ⟨String.ofList ((afterDot name).drop (package.toList.length + 1))⟩
  else ⟨String.ofList (afterDot name)⟩

section Anchors

variable {package name : String} {rest : List Char}

theorem toList_of_head? (h : name.toList.head? = some '.') :
    name.toList = '.' :: afterDot name := by
  obtain ⟨rest, hrest⟩ := List.head?_eq_some_iff.1 h
  rw [afterDot, hrest]
  rfl

theorem afterDot_of_head? (h : name.toList.head? ≠ some '.') : afterDot name = name.toList := by
  rw [afterDot]
  split
  · next rest hrest => exact (h (by rw [hrest, List.head?_cons])).elim
  · rfl

theorem length_afterDot_le (name : String) : (afterDot name).length ≤ name.toList.length := by
  rw [afterDot]
  split
  · next h => simp [h]
  · exact Nat.le_refl _

theorem isQualified_iff :
    IsQualified package name ↔ package ≠ "" ∧ package.toList ++ ['.'] <+: afterDot name := by
  refine and_congr_right fun _ => ?_
  simp only [List.IsPrefix, List.append_assoc, List.singleton_append, eq_comm]

theorem isAnchored_iff :
    IsAnchored package name ↔ name.toList.head? = some '.' ∨ IsQualified package name := by
  rw [IsAnchored, isQualified_iff]
  by_cases h : name.toList.head? = some '.'
  · simp [h]
  · rw [afterDot_of_head? h]

theorem bareName_of_eq (hp : package ≠ "") (h : afterDot name = package.toList ++ '.' :: rest) :
    bareName package name = ⟨String.ofList rest⟩ := by
  have hq : package ≠ "" ∧ package.toList ++ ['.'] <+: afterDot name :=
    isQualified_iff.1 ⟨hp, rest, h⟩
  rw [bareName, if_pos hq, h]
  simp

theorem bareName_of_not_isQualified (h : ¬ IsQualified package name) :
    bareName package name = ⟨String.ofList (afterDot name)⟩ := by
  rw [bareName, if_neg fun hq => h (isQualified_iff.2 hq)]

end Anchors

namespace Symbols

variable {t : Symbols} {name : String} {scope : Option TypeName} {full : TypeName} {c : Category}

theorem withoutPackage?_eq_some_iff {cs rest : List Char} :
    t.withoutPackage? cs = some rest ↔ t.package ≠ "" ∧ cs = t.package.toList ++ '.' :: rest := by
  rw [withoutPackage?]
  split_ifs with h
  · simp [h]
  · rw [Text.afterStart?_eq_some_iff, List.append_assoc]
    simp [h]

theorem withoutPackage?_eq_none (h : ¬ IsQualified t.package name) :
    t.withoutPackage? (afterDot name) = none := by
  rw [Option.eq_none_iff_forall_ne_some]
  intro rest hrest
  obtain ⟨hne, heq⟩ := withoutPackage?_eq_some_iff.1 hrest
  exact h ⟨hne, rest, heq⟩

/-- The package is what is looked for first, with or without a dot before it. -/
theorem anchored?_eq (t : Symbols) (name : String) :
    t.anchored? name = match t.withoutPackage? (afterDot name) with
      | some rest => some ⟨String.ofList rest⟩
      | none => if name.toList.head? = some '.' then some ⟨String.ofList (afterDot name)⟩
        else none := by
  by_cases hdot : name.toList.head? = some '.'
  · rw [if_pos hdot, anchored?, toList_of_head? hdot]
    change some (TypeName.mk _) = _
    cases t.withoutPackage? (afterDot name) <;> rfl
  · rw [if_neg hdot, afterDot_of_head? hdot, anchored?]
    split
    · next rest hrest => exact (hdot (by rw [hrest, List.head?_cons])).elim
    · cases t.withoutPackage? name.toList <;> rfl

theorem find?_eq_none_iff {n : TypeName} : t.find? n = none ↔ t.category? n = none :=
  Option.map_eq_none_iff

theorem find?_eq_some_iff {n : TypeName} :
    t.find? n = some (full, c) ↔ n = full ∧ t.category? full = some c := by
  rw [find?, Option.map_eq_some_iff]
  refine ⟨?_, ?_⟩
  · rintro ⟨c', hc, he⟩
    cases he
    exact ⟨rfl, hc⟩
  · rintro ⟨rfl, hc⟩
    exact ⟨c, hc, rfl⟩

theorem eq_of_find? {n : TypeName} (h : t.find? n = some (full, c)) : full = n :=
  (find?_eq_some_iff.1 h).1.symm

theorem lookup?_of_isAnchored (h : IsAnchored t.package name) :
    t.lookup? name scope = t.find? (bareName t.package name) := by
  rw [lookup?, anchored?_eq]
  by_cases hq : IsQualified t.package name
  · obtain ⟨hp, rest, hrest⟩ := hq
    rw [withoutPackage?_eq_some_iff.2 ⟨hp, hrest⟩, bareName_of_eq hp hrest]
  · have hdot : name.toList.head? = some '.' := (isAnchored_iff.1 h).resolve_right hq
    rw [withoutPackage?_eq_none hq, if_pos hdot, bareName_of_not_isQualified hq]

theorem candidates_eq_within (name : String) (scope : Option TypeName) :
    candidates name scope = TypeName.within (scope.elim [] TypeName.segments) name := by
  cases scope with
  | none => rfl
  | some outer => exact (outer.within_eq_selfAndParents name).symm

theorem lookup?_of_not_isAnchored (h : ¬ IsAnchored t.package name) :
    t.lookup? name scope =
      (TypeName.within (scope.elim [] TypeName.segments) name).findSome? t.find? := by
  obtain ⟨hdot, hq⟩ := not_or.1 (mt isAnchored_iff.2 h)
  rw [lookup?, anchored?_eq, withoutPackage?_eq_none hq, if_neg hdot]
  exact congrArg (List.findSome? t.find?) (candidates_eq_within name scope)

/-- An anchored name is that of the type under its bare name, in every scope. Any other name is that
of the first type that is declared under it in the scope or in one around it. -/
theorem lookup_innermost (t : Symbols) (name : String) (scope : Option TypeName) :
    (IsAnchored t.package name →
      t.lookup? name scope = (t.category? (bareName t.package name)).map fun c =>
        (bareName t.package name, c)) ∧
    (¬ IsAnchored t.package name →
      (∀ full c, t.lookup? name scope = some (full, c) ↔
        ∃ before after,
          TypeName.within (scope.elim [] TypeName.segments) name = before ++ full :: after ∧
          (∀ n ∈ before, t.category? n = none) ∧ t.category? full = some c) ∧
      (t.lookup? name scope = none ↔
        ∀ n ∈ TypeName.within (scope.elim [] TypeName.segments) name, t.category? n = none)) := by
  refine ⟨lookup?_of_isAnchored, ?_⟩
  intro h
  rw [lookup?_of_not_isAnchored h]
  refine ⟨?_, ?_⟩
  · intro full c
    simp only [List.findSome?_eq_some_iff, find?_eq_some_iff, find?_eq_none_iff]
    refine ⟨?_, ?_⟩
    · rintro ⟨before, n, after, hs, ⟨rfl, hc⟩, hb⟩
      exact ⟨before, after, hs, hb, hc⟩
    · rintro ⟨before, after, hs, hb, hc⟩
      exact ⟨before, full, after, hs, ⟨rfl, hc⟩, hb⟩
  · simp only [List.findSome?_eq_none_iff, find?_eq_none_iff]

end Symbols

/-- A schema with names that hide each other, one that is a keyword and one that starts with the
package. -/
def Schema.hiding : Schema where
  package := "demo"
  definitions := [
    .message ⟨"Node", [
      .message "Node" [.message "Meta" []],
      .enumeration ⟨"Color", [.value { name := "RED", tag := 0 }]⟩]⟩,
    .message ⟨"demo", [.message "Node" []]⟩,
    .message ⟨"int32", []⟩,
    .enumeration ⟨"Color", [.value { name := "BLUE", tag := 0 }]⟩]

namespace Symbols

theorem lookup_hiding :
    IsAnchored Schema.hiding.package ".demo.Color" ∧
    ¬ IsAnchored Schema.hiding.package "Color" ∧
    Schema.hiding.symbols.lookup? ".demo.Color" (some ⟨"Node.Node.Meta"⟩) =
      some (⟨"Color"⟩, .enumeration) ∧
    Schema.hiding.symbols.lookup? "Color" (some ⟨"Node.Node.Meta"⟩) =
      some (⟨"Node.Color"⟩, .enumeration) ∧
    Schema.hiding.symbols.lookup? "Shape" (some ⟨"Node.Node.Meta"⟩) = none := by
  have hrooted : IsAnchored Schema.hiding.package ".demo.Color" := .inl rfl
  have hplain : ¬ IsAnchored Schema.hiding.package "Color" := by decide
  have hshape : ¬ IsAnchored Schema.hiding.package "Shape" := by decide
  refine ⟨hrooted, hplain, ?_, ?_, ?_⟩
  · rw [(lookup_innermost _ _ _).1 hrooted]
    decide +kernel
  · apply (((lookup_innermost _ _ _).2 hplain).1 _ _).2
    exact ⟨[⟨"Node.Node.Meta.Color"⟩, ⟨"Node.Node.Color"⟩], [⟨"Color"⟩], by decide +kernel,
      by decide +kernel, by decide +kernel⟩
  · apply ((lookup_innermost _ _ _).2 hshape).2.2
    decide +kernel

end Symbols

/-- The kind of a declared type. -/
def Category.kind : Category → TypeName → Kind
  | .message, n => .message n
  | .enumeration, n => .enumeration n

/-- A full name after a dot and the package, if there is one. -/
def TypeName.qualified (package : String) (n : TypeName) : String :=
  if package = "" then "." ++ n.text else "." ++ package ++ "." ++ n.text

section Qualified

variable {package name : String} {n : TypeName}

theorem TypeName.toList_qualified (package : String) (n : TypeName) :
    (n.qualified package).toList =
      '.' :: ((if package = "" then [] else package.toList ++ ['.']) ++ n.text.toList) := by
  rw [qualified]
  split_ifs <;> simp

theorem TypeName.isAnchored_qualified (package : String) (n : TypeName) :
    IsAnchored package (n.qualified package) := by
  refine .inl ?_
  rw [toList_qualified, List.head?_cons]

theorem TypeName.bareName_qualified (package : String) (n : TypeName) :
    bareName package (n.qualified package) = n := by
  have hafter : afterDot (n.qualified package) =
      (if package = "" then [] else package.toList ++ ['.']) ++ n.text.toList := by
    rw [afterDot, toList_qualified]
    rfl
  by_cases hp : package = ""
  · rw [if_pos hp, List.nil_append] at hafter
    have hq : ¬ IsQualified package (n.qualified package) := fun h => h.1 hp
    rw [bareName_of_not_isQualified hq, hafter, String.ofList_toList]
  · rw [if_neg hp, List.append_assoc, List.singleton_append] at hafter
    rw [bareName_of_eq hp hafter, String.ofList_toList]

theorem length_bareName_lt (h : IsAnchored package name) :
    (bareName package name).text.toList.length < name.toList.length := by
  by_cases hq : IsQualified package name
  · obtain ⟨hp, rest, hrest⟩ := hq
    have hle := length_afterDot_le name
    rw [hrest, List.length_append, List.length_cons] at hle
    rw [bareName_of_eq hp hrest, String.toList_ofList]
    omega
  · have hdot := toList_of_head? ((isAnchored_iff.1 h).resolve_right hq)
    rw [bareName_of_not_isQualified hq, String.toList_ofList, hdot, List.length_cons]
    exact Nat.lt_succ_self _

end Qualified

namespace Symbols

variable {s : Schema} {t : Symbols} {n : TypeName} {c : Category}

theorem kindOf_qualified (hc : t.category? n = some c) (scope : Option TypeName) :
    t.kindOf (n.qualified t.package) scope = c.kind n := by
  have hlist := n.toList_qualified t.package
  have hne : n.qualified t.package ≠ "" := by
    intro he
    rw [he] at hlist
    cases hlist
  have hkeyword : Scalar.ofKeyword? (n.qualified t.package) = none := by
    rw [Option.eq_none_iff_forall_ne_some]
    intro k hk
    apply Scalar.dot_notMem_of_ofKeyword? hk
    rw [hlist]
    exact List.mem_cons_self
  have hlookup : t.lookup? (n.qualified t.package) scope = some (n, c) := by
    rw [lookup?_of_isAnchored (n.isAnchored_qualified t.package), n.bareName_qualified]
    exact find?_eq_some_iff.2 ⟨rfl, hc⟩
  rw [kindOf, if_neg hne, hkeyword, hlookup]
  cases c <;> rfl

/-- At the root a full name means its own type unless it is anchored: then it means one with a
shorter name, or none. -/
theorem lookup?_self_iff (hc : t.category? n = some c) :
    (t.lookup? n.text none).map Prod.fst = some n ↔ ¬ IsAnchored t.package n.text := by
  refine ⟨?_, ?_⟩
  · intro h ha
    obtain ⟨⟨full, c'⟩, hl, rfl⟩ := Option.map_eq_some_iff.1 h
    rw [lookup?_of_isAnchored ha] at hl
    -- Whatever an anchored name finds has a shorter name than the name looked up.
    have hlt := length_bareName_lt ha
    rw [← eq_of_find? hl] at hlt
    exact Nat.lt_irrefl _ hlt
  · intro ha
    have hfind : t.find? n = some (n, c) := find?_eq_some_iff.2 ⟨rfl, hc⟩
    have hl : t.lookup? n.text none = some (n, c) := by
      rw [lookup?_of_not_isAnchored ha]
      change [n].findSome? t.find? = _
      rw [List.findSome?_singleton, hfind]
    rw [hl]
    rfl

/-- The table of a schema has exactly what the schema declares. Each type has its qualified name in
every scope, and its full name at the root unless that is anchored. -/
theorem reachable_by_name (h : ofSchema s = .ok t) :
    (∀ n c, t.category? n = some c ↔ (n, c) ∈ declarations s) ∧
    ∀ n c, t.category? n = some c →
      (∀ scope, t.kindOf (n.qualified s.package) scope = c.kind n) ∧
      ((t.lookup? n.text none).map Prod.fst = some n ↔ ¬ IsAnchored s.package n.text) := by
  obtain ⟨hn, rfl⟩ := ofSchema_eq_ok_iff.1 h
  refine ⟨?_, ?_⟩
  · intro n c
    rw [← map_fst_declarations] at hn
    exact category?_eq_some_iff (t := s.symbols) hn
  · intro n c hc
    exact ⟨kindOf_qualified hc, lookup?_self_iff hc⟩

theorem reachable_hiding :
    ∃ t, ofSchema Schema.hiding = .ok t ∧
      t.kindOf ".demo.int32" (some ⟨"Node"⟩) = .message ⟨"int32"⟩ ∧
      t.kindOf ".demo.Color" (some ⟨"Node"⟩) = .enumeration ⟨"Color"⟩ ∧
      t.kindOf ".demo.demo.Node" none = .message ⟨"demo.Node"⟩ ∧
      (t.lookup? "demo.Node" none).map Prod.fst ≠ some ⟨"demo.Node"⟩ ∧
      (t.lookup? "int32" none).map Prod.fst = some ⟨"int32"⟩ := by
  have h : ofSchema Schema.hiding = .ok Schema.hiding.symbols :=
    ofSchema_eq_ok_iff.2 ⟨by decide +kernel, rfl⟩
  obtain ⟨_, hreach⟩ := reachable_by_name h
  have hscalar := hreach ⟨"int32"⟩ .message (by decide +kernel)
  have hcolor := hreach ⟨"Color"⟩ .enumeration (by decide +kernel)
  have hnode := hreach ⟨"demo.Node"⟩ .message (by decide +kernel)
  have hplain : ¬ IsAnchored Schema.hiding.package "int32" := by decide
  have hanchored : IsAnchored Schema.hiding.package "demo.Node" := by decide
  refine ⟨_, h, hscalar.1 _, hcolor.1 _, hnode.1 _, ?_, hscalar.2.2 hplain⟩
  exact fun he => hnode.2.1 he hanchored

end Symbols

end WireModel
