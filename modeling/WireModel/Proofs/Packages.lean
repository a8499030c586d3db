import WireModel.Proofs.Acceptance
import WireModel.Proofs.Lookup
import WireModel.Proofs.TypeReading

namespace WireModel

open Outcome

namespace Symbols

variable {t : Symbols} {name : String} {scope : Option TypeName} {full : TypeName} {c : Category}

/-- A name with the package stands for what follows the package. -/
theorem text_of_lookup? {rest : List Char} (hp : t.package ≠ "")
    (hname : afterDot name = t.package.toList ++ '.' :: rest)
    (h : t.lookup? name scope = some (full, c)) : full.text.toList = rest := by
  have hanchored := isAnchored_iff.2 (.inr ⟨hp, rest, hname⟩)
  rw [lookup?_of_isAnchored hanchored, bareName_of_eq hp hname] at h
  rw [eq_of_find? h, String.toList_ofList]

theorem length_le_of_mem_candidates (h : full ∈ candidates name scope) :
    name.toList.length ≤ full.text.toList.length := by
  obtain h | h := List.mem_append.1 h
  · cases scope with
    | none => cases h
    | some t =>
      obtain ⟨enclosing, _, rfl⟩ := List.mem_map.1 h
      simp [TypeName.child]
      omega
  · cases List.mem_singleton.1 h
    exact Nat.le_refl _

/-- Any other name stands for one that is at least as long. -/
theorem length_le_of_lookup? (hname : ¬ IsQualified t.package name)
    (h : t.lookup? name scope = some (full, c)) :
    (afterDot name).length ≤ full.text.toList.length := by
  by_cases hdot : name.toList.head? = some '.'
  · have hanchored : IsAnchored t.package name := .inl hdot
    rw [lookup?_of_isAnchored hanchored, bareName_of_not_isQualified hname] at h
    rw [eq_of_find? h, String.toList_ofList]
  · have hplain := mt isAnchored_iff.1 (not_or.2 ⟨hdot, hname⟩)
    rw [lookup?_of_not_isAnchored hplain, ← candidates_eq_within] at h
    obtain ⟨n, hn, hfind⟩ := List.exists_of_findSome?_eq_some h
    rw [eq_of_find? hfind]
    exact Nat.le_trans (length_afterDot_le name) (length_le_of_mem_candidates hn)

theorem lookup?_congr {p q : String} {entries : List (TypeName × Category)}
    (hp : ¬ IsQualified p name) (hq : ¬ IsQualified q name) :
    lookup? ⟨p, entries⟩ name scope = lookup? ⟨q, entries⟩ name scope := by
  by_cases hdot : name.toList.head? = some '.'
  · have hanchored (package : String) : IsAnchored package name := .inl hdot
    rw [lookup?_of_isAnchored (hanchored p), lookup?_of_isAnchored (hanchored q),
      bareName_of_not_isQualified hp, bareName_of_not_isQualified hq]
    rfl
  · have hplain {package : String} (h : ¬ IsQualified package name) : ¬ IsAnchored package name :=
      mt isAnchored_iff.1 (not_or.2 ⟨hdot, h⟩)
    rw [lookup?_of_not_isAnchored (hplain hp), lookup?_of_not_isAnchored (hplain hq)]
    rfl

/-- A name that is known under one package means the same under another exactly when it starts with
neither of them, unless they are the same. -/
theorem lookup?_eq_some_iff {p q : String} {entries : List (TypeName × Category)}
    (h : lookup? ⟨p, entries⟩ name scope = some (full, c)) :
    lookup? ⟨q, entries⟩ name scope = some (full, c) ↔
      q = p ∨ ¬ IsQualified p name ∧ ¬ IsQualified q name := by
  refine ⟨fun h' => ?_, ?_⟩
  · -- What a name stands for is shorter than the name exactly if the package has been dropped.
    by_cases hp : IsQualified p name
    · obtain ⟨hpne, x, hx⟩ := hp
      have hfull := text_of_lookup? hpne hx h
      by_cases hq : IsQualified q name
      · obtain ⟨hqne, y, hy⟩ := hq
        have hfull' := text_of_lookup? hqne hy h'
        rw [← hfull, hy, ← hfull', List.append_cancel_right_eq] at hx
        exact .inl (String.toList_inj.1 hx)
      · have hle := length_le_of_lookup? hq h'
        rw [hx, hfull, List.length_append, List.length_cons] at hle
        omega
    · by_cases hq : IsQualified q name
      · obtain ⟨hqne, y, hy⟩ := hq
        have hle := length_le_of_lookup? hp h
        rw [hy, text_of_lookup? hqne hy h', List.length_append, List.length_cons] at hle
        omega
      · exact .inr ⟨hp, hq⟩
  · rintro (rfl | ⟨hp, hq⟩)
    · exact h
    · exact (lookup?_congr hq hp).trans h

theorem not_isQualified_of_ofKeyword? {package : String} {k : Scalar}
    (h : Scalar.ofKeyword? name = some k) : ¬ IsQualified package name := by
  have hdot := Scalar.dot_notMem_of_ofKeyword? h
  rintro ⟨_, rest, hrest⟩
  have hname : afterDot name = name.toList :=
    afterDot_of_head? fun h => hdot (List.mem_of_head? h)
  rw [← hname, hrest] at hdot
  exact hdot (by simp)

/-- Two tables give a name that is no keyword the same kind exactly if they find the same for it. -/
theorem kindOf_eq_kindOf_iff {u : Symbols} (hne : name ≠ "")
    (hk : Scalar.ofKeyword? name = none) :
    u.kindOf name scope = t.kindOf name scope ↔ u.lookup? name scope = t.lookup? name scope := by
  rw [kindOf, kindOf, if_neg hne, if_neg hne, hk]
  rcases u.lookup? name scope with _ | ⟨_, _ | _⟩ <;>
    rcases t.lookup? name scope with _ | ⟨_, _ | _⟩ <;> simp

theorem kindOf_eq_iff {p q : String} {entries : List (TypeName × Category)}
    (h : (kindOf ⟨p, entries⟩ name scope).HasNative) :
    kindOf ⟨q, entries⟩ name scope = kindOf ⟨p, entries⟩ name scope ↔
      q = p ∨ ¬ IsQualified p name ∧ ¬ IsQualified q name := by
  have hne : name ≠ "" := by
    rintro rfl
    exact h
  cases hk : Scalar.ofKeyword? name with
  | some k =>
    have hkind : ∀ r : String, kindOf ⟨r, entries⟩ name scope = .scalar k := by
      intro r
      rw [kindOf, if_neg hne, hk]
    rw [hkind, hkind]
    simp [not_isQualified_of_ofKeyword? hk]
  | none =>
    cases hl : lookup? ⟨p, entries⟩ name scope with
    | none =>
      rw [kindOf, if_neg hne, hk, hl] at h
      exact h.elim
    | some found => rw [kindOf_eq_kindOf_iff hne hk, hl, lookup?_eq_some_iff hl]

end Symbols

namespace WireSchema

variable {package outerClass : String} {javaPackage : Option String}

/-- The package is declared on one line, unless there is none. -/
theorem package_mem_header_iff {p : String} :
    "package " ++ p ++ ";" ∈ header package javaPackage outerClass ↔ p = package ∧ p ≠ "" := by
  have hhead : ("package " ++ p ++ ";").toList.head? = some 'p' := by simp
  have hne {l : String} (hl : l.toList.head? ≠ some 'p') : "package " ++ p ++ ";" ≠ l := by
    rintro rfl
    exact hl hhead
  have hoptions : "package " ++ p ++ ";" ∉ fileOptions javaPackage outerClass := by
    refine mt List.mem_append.1 (not_or.2 ⟨?_, ?_⟩)
    · cases javaPackage with
      | none => exact List.not_mem_nil
      | some java => exact mt List.mem_singleton.1 (hne (by simp))
    · split_ifs
      · exact List.not_mem_nil
      · exact mt List.mem_singleton.1 (hne (by simp))
  have hblank := hne (l := "") (by decide)
  simp only [header, List.mem_append, mem_paragraph_iff, hblank, and_false, or_false]
  rw [List.mem_singleton, List.mem_singleton, eq_false (hne (by decide)),
    eq_false (hne (by decide)), eq_false hoptions, false_or, false_or, or_false]
  split_ifs with hpackage
  · simp [hpackage]
  · rw [List.mem_singleton, String.append_left_inj, String.append_right_inj]
    exact ⟨fun he => ⟨he, he ▸ hpackage⟩, And.left⟩

end WireSchema

variable {s : Schema} {settings : Settings} {files : GeneratedFiles}

theorem Schema.met_of_generate (h : s.generate settings = .ok files) (r : Requirement) :
    r.Met s settings :=
  succeeds_iff_met.1 ⟨files, h⟩ r

theorem FieldType.FitsField.hasNative {t : Symbols} {n : TypeName} {type : FieldType}
    (h : type.FitsField t n) : (t.kindOf type.reference (some n)).HasNative := by
  obtain ⟨_, h⟩ := h
  rw [reference]
  cases he : type.expr with
  | named name =>
    rw [he] at h
    exact h
  | map key value =>
    rw [he] at h
    exact h.2.2.2

theorem FieldType.FitsAlternative.hasNative {t : Symbols} {n : TypeName} {type : FieldType}
    (h : type.FitsAlternative t n) : (t.kindOf type.reference (some n)).HasNative := by
  obtain ⟨_, _, name, he, h⟩ := h
  rw [reference, he]
  exact h

theorem Schema.hasNative_of_mem_references (h : s.generate settings = .ok files) {r : Reference}
    (hr : r ∈ s.references) : (s.symbols.kindOf r.1 r.2).HasNative := by
  obtain hr | hr := List.mem_append.1 hr
  · obtain ⟨m, hm, hr⟩ := List.mem_flatMap.1 hr
    obtain ⟨f, hf, rfl⟩ := List.mem_map.1 hr
    obtain hf | hf := List.mem_append.1 hf
    · exact (met_of_generate h .fields m hm f hf).hasNative
    · obtain ⟨o, ho, hf⟩ := List.mem_flatMap.1 hf
      exact (met_of_generate h .alternatives m hm o ho f hf).hasNative
  · obtain ⟨d, hd, hr⟩ := List.mem_flatMap.1 hr
    obtain ⟨p, hp, hr⟩ := List.mem_flatMap.1 hr
    obtain ⟨⟨n, hin⟩, ⟨n', hout⟩⟩ := met_of_generate h .procedures d hd p hp
    rw [Rpc.references, List.mem_cons, List.mem_singleton] at hr
    obtain rfl | rfl := hr
    · rw [hin]
      trivial
    · rw [hout]
      trivial

theorem Schema.wire_of_generate (h : s.generate settings = .ok files) :
    files.wire.contents = WireSchema.render s (settings.wirePackage.getD s.package)
      settings.javaPackage settings.outerClass := by
  obtain ⟨g, hg, hfiles⟩ := bind_eq_ok_iff.1 h
  obtain ⟨model, _, rfl⟩ := Generator.model_of_generate hfiles
  cases Generator.eq_of_ofSchema hg
  rfl

/-- A run that succeeds prints the type names of the schema as they are, below the package of the
wire schema. Every one stands for a type, and for the same one in that package exactly when it
starts with neither package, unless they are the same. -/
theorem Schema.generate_references (h : s.generate settings = .ok files) :
    ∃ g wire lines names, Generator.ofSchema s settings = .ok g ∧
      Symbols.ofSchema { s with package := g.wirePackage } = .ok wire ∧
      g.wirePackage = settings.wirePackage.getD s.package ∧
      files.wire.contents = Text.unlines
        (WireSchema.header g.wirePackage settings.javaPackage settings.outerClass ++ lines) ∧
      (∀ p, "package " ++ p ++ ";" ∈
        WireSchema.header g.wirePackage settings.javaPackage settings.outerClass ↔
          p = g.wirePackage ∧ p ≠ "") ∧
      WireSchema.Mentions 0 none lines names ∧ names.Perm s.references ∧
      (s.WellFormed →
        (∀ l ∈ WireSchema.header g.wirePackage settings.javaPackage settings.outerClass,
          '\n' ∉ l.toList) →
        WireSchema.typeNamesIn? files.wire.contents = some names) ∧
      ∀ r ∈ names, (g.symbols.kindOf r.1 r.2).HasNative ∧
        (wire.kindOf r.1 r.2 = g.symbols.kindOf r.1 r.2 ↔ g.wirePackage = s.package ∨
          ¬ IsQualified s.package r.1 ∧ ¬ IsQualified g.wirePackage r.1) := by
  obtain ⟨g, hg, _⟩ := bind_eq_ok_iff.1 h
  have hnames := Generator.nodup_names_of_ofSchema hg
  have hwire := wire_of_generate h
  cases Generator.eq_of_ofSchema hg
  refine ⟨_, _, _, _, hg, Symbols.ofSchema_eq_ok_iff.2 ⟨hnames, rfl⟩, rfl, ?_,
    fun p => WireSchema.package_mem_header_iff, WireSchema.mentions_body s.definitions,
    s.references_perm, ?_, ?_⟩
  · rw [hwire, WireSchema.render_eq]
    rfl
  · intro hs hheader
    rw [hwire]
    exact WireSchema.typeNamesIn?_render hs hheader
  · intro r hr
    have hkind := hasNative_of_mem_references h (s.references_perm.mem_iff.1 hr)
    exact ⟨hkind, Symbols.kindOf_eq_iff hkind⟩

/-- A schema whose references spell out the package, leave it out and start with a dot. -/
def Schema.relocated : Schema where
  package := "a"
  definitions := [
    .message ⟨"M", []⟩,
    .message ⟨"Holder", [
      .field { type := { expr := .named "a.M" }, name := "full", tag := 1 },
      .field { type := { expr := .named "M" }, name := "short", tag := 2 },
      .field { type := { expr := .map "string" ".M" }, name := "rooted", tag := 3 },
      .field { type := { expr := .named "int32" }, name := "number", tag := 4 }]⟩,
    .service ⟨"Shop", [.rpc { name := "Buy", inType := ".a.M", outType := "M" }]⟩]

theorem Schema.relocated_wellFormed : relocated.WellFormed := by
  have hfield {name : String} {expr : TypeExpr} (n : UInt32) (hname : IsName name)
      (hexpr : expr.WellFormed) :
      Member.WellFormed (.field { type := { expr := expr }, name := name, tag := n }) :=
    .field ⟨hexpr, hname, fun o ho => by cases ho⟩
  intro d hd
  simp only [relocated, List.mem_cons, List.not_mem_nil, or_false] at hd
  obtain rfl | rfl | rfl := hd
  · exact ⟨by decide, fun m hm => by cases hm⟩
  · refine ⟨by decide, ?_⟩
    intro m hm
    simp only [List.mem_cons, List.not_mem_nil, or_false] at hm
    obtain rfl | rfl | rfl | rfl := hm
    · exact hfield 1 (by decide) ⟨by decide, by decide⟩
    · exact hfield 2 (by decide) ⟨by decide, by decide⟩
    · exact hfield 3 (by decide) ⟨by decide, by decide⟩
    · exact hfield 4 (by decide) ⟨by decide, by decide⟩
  · refine ⟨by decide, ?_⟩
    intro m hm
    cases List.mem_singleton.1 hm
    exact ⟨by decide, by decide, by decide, fun o ho => by cases ho⟩

theorem Schema.generate_relocated :
    ∃ files, relocated.generate { wirePackage := some "b" } = .ok files ∧
      ∃ g wire lines names, Generator.ofSchema relocated { wirePackage := some "b" } = .ok g ∧
        Symbols.ofSchema { relocated with package := g.wirePackage } = .ok wire ∧
        g.wirePackage = "b" ∧
        files.wire.contents =
          Text.unlines (WireSchema.header g.wirePackage none "SchemaProto" ++ lines) ∧
        (∀ p, "package " ++ p ++ ";" ∈ WireSchema.header g.wirePackage none "SchemaProto" ↔
          p = g.wirePackage ∧ p ≠ "") ∧
        WireSchema.Mentions 0 none lines names ∧ names.Perm relocated.references ∧
        relocated.WellFormed ∧ WireSchema.typeNamesIn? files.wire.contents = some names ∧
        ∀ r ∈ names, (g.symbols.kindOf r.1 r.2).HasNative ∧
          (wire.kindOf r.1 r.2 = g.symbols.kindOf r.1 r.2 ↔ g.wirePackage = relocated.package ∨
            ¬ IsQualified relocated.package r.1 ∧ ¬ IsQualified g.wirePackage r.1) := by
  have h : verdict (relocated.generate { wirePackage := some "b" }) = .ok () := by decide +kernel
  obtain ⟨files, h⟩ := verdict_eq_ok_iff.1 h
  obtain ⟨g, wire, lines, names, hg, hw, hpackage, htext, hheader, hlines, hperm, hread, hkinds⟩ :=
    generate_references h
  refine ⟨files, h, g, wire, lines, names, hg, hw, hpackage, htext, hheader, hlines, hperm,
    relocated_wellFormed, hread relocated_wellFormed ?_, hkinds⟩
  rw [hpackage]
  decide +kernel

/-- Under another package a name that spells out the first one is printed as it is and not known
any more. -/
theorem Schema.relocated_reference_lost :
    ∃ files g wire names, relocated.generate { wirePackage := some "b" } = .ok files ∧
      Generator.ofSchema relocated { wirePackage := some "b" } = .ok g ∧
      Symbols.ofSchema { relocated with package := g.wirePackage } = .ok wire ∧
      g.wirePackage = "b" ∧ "package b;" ∈ Text.splitAt '\n' files.wire.contents ∧
      "  a.M full = 1;" ∈ Text.splitAt '\n' files.wire.contents ∧
      WireSchema.typeNamesIn? files.wire.contents = some names ∧
      ("a.M", some ⟨"Holder"⟩) ∈ names ∧
      g.symbols.kindOf "a.M" (some ⟨"Holder"⟩) = .message ⟨"M"⟩ ∧
      wire.kindOf "a.M" (some ⟨"Holder"⟩) = .unresolved "a.M" := by
  have h : verdict (relocated.generate { wirePackage := some "b" }) = .ok () := by decide +kernel
  obtain ⟨files, h⟩ := verdict_eq_ok_iff.1 h
  obtain ⟨g, hg, _⟩ := bind_eq_ok_iff.1 h
  have hlines : Text.splitAt '\n' files.wire.contents =
      WireSchema.header "b" none "SchemaProto" ++
        Stmt.linesOf 0 (WireSchema.body relocated.definitions) ++ [""] := by
    rw [wire_of_generate h, WireSchema.render_eq]
    exact Text.splitAt_unlines (by decide +kernel)
  cases Generator.eq_of_ofSchema hg
  refine ⟨files, _, _, [("a.M", some ⟨"Holder"⟩), ("M", some ⟨"Holder"⟩), (".M", some ⟨"Holder"⟩),
    ("int32", some ⟨"Holder"⟩), (".a.M", none), ("M", none)], h, hg,
    Symbols.ofSchema_eq_ok_iff.2 ⟨by decide +kernel, rfl⟩, rfl, ?_, ?_, ?_, List.mem_cons_self, ?_,
    ?_⟩
  · rw [hlines]
    decide +kernel
  · rw [hlines]
    decide +kernel
  · rw [WireSchema.typeNamesIn?, hlines]
    decide +kernel
  · decide +kernel
  · decide +kernel

end WireModel
