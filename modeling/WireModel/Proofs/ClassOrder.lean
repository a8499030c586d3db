import Mathlib.Data.List.Perm.Basic
import WireModel.Proofs.DottedNames
import WireModel.Proofs.SourceLines
import WireModel.Proofs.Stages

namespace WireModel

open Outcome

/-- A definition that has a class of its own. -/
inductive ClassSource where
  | enumeration (name : TypeName) (e : Enumeration)
  | union (o : ScopedOneOf)
  | message (name : TypeName) (m : Message)

def ClassSource.union? : ClassSource → Option ScopedOneOf
  | .union o => some o
  | .enumeration _ _ | .message _ _ => none

/-- A message after some oneofs. -/
def ClassSource.block (unions : List ScopedOneOf) (p : TypeName × Message) : List ClassSource :=
  unions.map .union ++ [.message p.1 p.2]

/-- The words that a class starts with. -/
def classWords : List String :=
  ["enum class ", "sealed class ", "data class ", "class "]

/-- Lines that start with the words for a class. -/
def isClassLine (line : String) : Bool :=
  classWords.any fun words => words.toList.isPrefixOf line.toList

namespace Generator

/-- The class for a definition. -/
def classOf (g : Generator) : ClassSource → Except GenerationError (List Stmt)
  | .enumeration n e => do return [(← g.describeEnum n e).source]
  | .union o => do return [(← g.describeUnion o).source]
  | .message n m => do return (← g.describeScoped n m).source

/-- The line that the class for a definition starts with. -/
def headline (g : Generator) : ClassSource → String
  | .enumeration n _ =>
    "enum class " ++ g.settings.naming.enumSymbol n ++ "(val proto: " ++ g.target.wireClass n ++
      ") \x7b"
  | .union o => "sealed class " ++ g.settings.naming.classSymbol o.name ++ " \x7b"
  | .message n m =>
    if m.properties.isEmpty then "class " ++ g.settings.naming.classSymbol n ++ " \x7b"
    else "data class " ++ g.settings.naming.classSymbol n ++ "("

end Generator

/-- The oneofs that a message declares. -/
def ownOneOfs (p : TypeName × Message) : List ScopedOneOf :=
  p.2.oneOfs.map fun o => ⟨p.1, o⟩

namespace Schema

/-- The oneofs whose name up to its last dot is that of a message. -/
def attachedOneOfs (s : Schema) (p : TypeName × Message) : List ScopedOneOf :=
  s.oneOfs.filter fun o => o.name.parent? == some p.1

/-- The enumerations, then each message after the oneofs that go with it. -/
def classOrder (s : Schema) (unions : TypeName × Message → List ScopedOneOf) : List ClassSource :=
  (s.enumerations.map fun p => .enumeration p.1 p.2) ++
    s.messages.flatMap fun p => ClassSource.block (unions p) p

/-- An order of classes in which all enumerations and messages stand as they are declared, and in
which each oneof stands once, before the message that its name leads to, or not at all if there is
no such message. -/
structure Arranges (s : Schema) (order : List ClassSource) : Prop where
  definitions : (order.filter fun c => c.union?.isNone) =
    (s.enumerations.map fun p => .enumeration p.1 p.2) ++ s.messages.map fun p => .message p.1 p.2
  unions : (order.filterMap ClassSource.union?).Perm
    (s.oneOfs.filter fun o => s.messages.any fun p => o.name.parent? == some p.1)
  before : ∀ start o rest, order = start ++ .union o :: rest →
    ∃ (others : List ScopedOneOf) (n : TypeName) (m : Message) (more : List ClassSource),
      rest = others.map .union ++ .message n m :: more ∧ o.name.parent? = some n

end Schema

section Runs

variable {α β : Type} [DecidableEq β] {key : α → β}

theorem flatMap_ite_eq {xs : List α} {x : α} (hn : (xs.map key).Nodup) (hx : x ∈ xs)
    {γ : Type} (f : α → List γ) :
    (xs.flatMap fun y => if key y = key x then f y else []) = f x := by
  induction xs with
  | nil => cases hx
  | cons y ys ih =>
    obtain ⟨hy, hys⟩ := List.nodup_cons.1 hn
    rw [List.flatMap_cons]
    obtain rfl | hx := List.mem_cons.1 hx
    · have hnil : (ys.flatMap fun z => if key z = key x then f z else []) = [] := by
        rw [List.flatMap_eq_nil_iff]
        intro z hz
        apply if_neg
        intro he
        exact hy (he ▸ List.mem_map_of_mem hz)
      rw [if_pos rfl, hnil, List.append_nil]
    · have hne : key y ≠ key x := fun he => hy (he ▸ List.mem_map_of_mem hx)
      rw [if_neg hne, ih hys hx, List.nil_append]

/-- To pick what belongs to each of several distinct keys is to pick what belongs to any. -/
theorem flatMap_filter_perm {γ : Type} {xs : List α} (hn : (xs.map key).Nodup)
    (owner : γ → Option β) (ys : List γ) :
    (xs.flatMap fun x => ys.filter fun y => owner y == some (key x)).Perm
      (ys.filter fun y => xs.any fun x => owner y == some (key x)) := by
  induction xs with
  | nil => simp
  | cons x xs ih =>
    obtain ⟨hx, hxs⟩ := List.nodup_cons.1 hn
    rw [List.flatMap_cons]
    apply ((ih hxs).append_left _).trans
    -- What belongs to any key is split by whether it belongs to the first one.
    have hsplit := List.filter_append_perm (fun y => owner y == some (key x))
      (ys.filter fun y => (x :: xs).any fun x => owner y == some (key x))
    rw [List.filter_filter, List.filter_filter] at hsplit
    have hfirst : (fun y => (owner y == some (key x)) &&
        (x :: xs).any fun x => owner y == some (key x)) = fun y => owner y == some (key x) := by
      funext y
      simp +contextual [List.any_cons]
    have hrest : (fun y => !(owner y == some (key x)) &&
        (x :: xs).any fun x => owner y == some (key x)) =
        fun y => xs.any fun x => owner y == some (key x) := by
      funext y
      rw [List.any_cons]
      by_cases hy : owner y = some (key x)
      · have hnone : (xs.any fun z => owner y == some (key z)) = false := by
          rw [List.any_eq_false]
          intro z hz he
          rw [hy, beq_iff_eq, Option.some.injEq] at he
          exact hx (he ▸ List.mem_map_of_mem hz)
        rw [hnone, beq_iff_eq.2 hy]
        rfl
      · rw [beq_false_of_ne hy]
        rfl
    rw [hfirst, hrest] at hsplit
    exact hsplit

end Runs

theorem isClassLine_append {words : String} (h : words ∈ classWords) (rest : String) :
    isClassLine (words ++ rest) = true := by
  rw [isClassLine, List.any_eq_true]
  refine ⟨words, h, List.isPrefixOf_iff_prefix.2 ?_⟩
  rw [String.toList_append]
  exact List.prefix_append _ _

theorem isClassLine_of_head? {line : String}
    (h : ∀ c ∈ line.toList.head?, c ∉ ['e', 's', 'd', 'c']) : isClassLine line = false := by
  have hfirst : ∀ words ∈ classWords,
      ∃ c, words.toList.head? = some c ∧ c ∈ ['e', 's', 'd', 'c'] := by
    simp [classWords]
  rw [isClassLine, List.any_eq_false]
  intro words hwords hprefix
  obtain ⟨rest, hrest⟩ := List.isPrefixOf_iff_prefix.1 hprefix
  obtain ⟨c, hc, hmem⟩ := hfirst words hwords
  refine h c ?_ hmem
  rw [← hrest, List.head?_append, hc]
  rfl

theorem unindented_isClassLine : Stmt.Unindented isClassLine := by
  intro l h
  apply isClassLine_of_head?
  intro c hc
  rw [h c hc]
  decide

namespace Generator

variable {g : Generator} {model : ObjectModel} {c : ClassSource} {stmts : List Stmt}

theorem headline_message (g : Generator) (n : TypeName) (m : Message) :
    g.headline (.message n m) =
      if m.properties.isEmpty then "class " ++ g.settings.naming.classSymbol n ++ " \x7b"
      else "data class " ++ g.settings.naming.classSymbol n ++ "(" :=
  rfl

/-- A class starts with its headline, and further down only the ends of its parts are not
indented. -/
theorem lines_of_classOf (h : g.classOf c = .ok stmts) :
    (Stmt.linesOf 0 stmts).head? = some (g.headline c) ∧
      ∃ ends, stmts.flatMap Stmt.outerTexts = g.headline c :: ends ∧
        ∀ text ∈ ends, text = ")" ++ " \x7b" ∨ text = "\x7d" := by
  have hfirst (text : String) : some (Stmt.indented 0 text) = some text :=
    congrArg some (Stmt.indented_zero text)
  cases c with
  | enumeration n e =>
    obtain ⟨m, hm, h⟩ := bind_eq_ok_iff.1 h
    cases h
    rw [describeEnum] at hm
    split at hm
    · cases hm
    · cases hm
      have hbrace (text : String) : text ++ ")" ++ " \x7b" = text ++ ") \x7b" :=
        String.append_assoc
      refine ⟨(hfirst _).trans (congrArg some (hbrace _)), ["\x7d"], ?_, by simp⟩
      exact congrArg (fun text => [text, "\x7d"]) (hbrace _)
  | union o =>
    obtain ⟨m, hm, h⟩ := bind_eq_ok_iff.1 h
    cases h
    obtain ⟨alternatives, _, hm⟩ := bind_eq_ok_iff.1 hm
    cases hm
    exact ⟨hfirst _, ["\x7d"], rfl, by simp⟩
  | message n m =>
    obtain ⟨model, hm, h⟩ := bind_eq_ok_iff.1 h
    cases h
    obtain ⟨fields, hf, rfl⟩ := describeScoped_eq_ok_iff.1 hm
    rw [headline_message]
    have hf := mapM_eq_ok_iff.1 hf
    generalize m.properties = ps at hf
    cases hf with
    | nil => exact ⟨hfirst _, ["\x7d"], MessageModel.outerTexts_source_of_nil rfl, by simp⟩
    | cons _ _ =>
      exact ⟨hfirst _, [")" ++ " \x7b", "\x7d"],
        MessageModel.outerTexts_source_of_ne_nil (List.cons_ne_nil _ _), by simp⟩

theorem isClassLine_headline (g : Generator) (c : ClassSource) :
    isClassLine (g.headline c) = true := by
  cases c with
  | enumeration n e =>
    change isClassLine ("enum class " ++ _ ++ _ ++ _ ++ _) = true
    rw [String.append_assoc, String.append_assoc, String.append_assoc]
    exact isClassLine_append (by decide) _
  | union o =>
    change isClassLine ("sealed class " ++ _ ++ _) = true
    rw [String.append_assoc]
    exact isClassLine_append (by decide) _
  | message n m =>
    rw [headline_message, String.append_assoc, String.append_assoc]
    split_ifs
    · exact isClassLine_append (by decide) _
    · exact isClassLine_append (by decide) _

/-- Of the outer lines of a class the headline is the one with the words for a class. -/
theorem filter_isClassLine (h : g.classOf c = .ok stmts) :
    (stmts.flatMap Stmt.outerTexts).filter isClassLine = [g.headline c] := by
  obtain ⟨_, ends, houter, hends⟩ := lines_of_classOf h
  have hnone : ends.filter isClassLine = [] := by
    rw [List.filter_eq_nil_iff]
    intro text ht
    obtain rfl | rfl := hends text ht <;> decide
  rw [houter, List.filter_cons_of_pos (isClassLine_headline g c), hnone]

/-- The classes of a model are those for the definitions of its schema, in an order in which oneofs
go by their names. -/
theorem mapM_classOf (h : g.model = .ok model) :
    (g.schema.classOrder g.schema.attachedOneOfs).mapM g.classOf = .ok model.classes := by
  obtain ⟨he, hu, hm⟩ := parts_of_model h
  rw [mapM_eq_ok_iff]
  apply List.rel_append
  · rw [List.forall₂_map_left_iff, List.forall₂_map_right_iff]
    apply (mapM_eq_ok_iff.1 he).imp
    intro p e hp
    exact bind_eq_ok_iff.2 ⟨e, hp, rfl⟩
  · apply List.rel_flatMap (mapM_eq_ok_iff.1 hm)
    intro p m hp
    have hname : m.name = p.1 := by
      obtain ⟨_, _, rfl⟩ := describeScoped_eq_ok_iff.1 hp
      rfl
    apply List.rel_append
    · rw [List.forall₂_map_left_iff, List.forall₂_map_right_iff]
      have hunions : List.Forall₂ (fun o u => g.describeUnion o = .ok u ∧ u.name = o.name)
          g.schema.oneOfs model.unions := by
        apply (mapM_eq_ok_iff.1 hu).imp
        intro o u ho
        obtain ⟨_, _, hd⟩ := bind_eq_ok_iff.1 ho
        cases hd
        exact ⟨ho, rfl⟩
      apply (List.rel_filter _ hunions).imp
      · intro o u ho
        exact bind_eq_ok_iff.2 ⟨u, ho.1, rfl⟩
      · intro o u ho
        dsimp only
        rw [ho.2, hname]
    · exact .cons (bind_eq_ok_iff.2 ⟨m, hp, rfl⟩) .nil

/-- The lines with the words for a class are the headlines of the classes, in order. -/
theorem filter_isClassLine_lines (h : g.model = .ok model) (package : String) :
    (model.lines package g.moreImports).filter isClassLine =
      (g.schema.classOrder g.schema.attachedOneOfs).map g.headline := by
  have hheader : (ObjectModel.header package (model.imports g.moreImports)).filter isClassLine =
      [] := by
    rw [ObjectModel.filter_header _ rfl, List.append_eq_nil_iff, List.append_eq_nil_iff]
    refine ⟨⟨rfl, ?_⟩, ?_⟩
    · split_ifs
      · rfl
      · have hpackage : isClassLine ("package " ++ package) = false :=
          isClassLine_of_head? (by simp)
        rw [List.filter_cons_of_neg (Bool.not_eq_true _ ▸ hpackage)]
        rfl
    · rw [List.filter_eq_nil_iff]
      intro l hl
      obtain ⟨i, _, rfl⟩ := List.mem_map.1 hl
      rw [isClassLine_of_head? (by simp)]
      exact Bool.false_ne_true
  have hclasses := mapM_eq_ok_iff.1 (mapM_classOf h)
  rw [ObjectModel.filter_lines _ _ _ unindented_isClassLine, hheader, List.nil_append]
  generalize model.classes = classes at hclasses
  generalize g.schema.classOrder g.schema.attachedOneOfs = order at hclasses
  induction hclasses with
  | nil => rfl
  | cons hc _ ih => rw [List.flatMap_cons, filter_isClassLine hc, ih]; rfl

end Generator

namespace Schema

variable {s : Schema} {p : TypeName × Message} {settings : Settings} {files : GeneratedFiles}

theorem filter_classOrder (s : Schema) (unions : TypeName × Message → List ScopedOneOf) :
    ((s.classOrder unions).filter fun c => c.union?.isNone) =
      (s.enumerations.map fun p => .enumeration p.1 p.2) ++
        s.messages.map fun p => .message p.1 p.2 := by
  have hblock (p : TypeName × Message) :
      ((ClassSource.block (unions p) p).filter fun c => c.union?.isNone) =
        [.message p.1 p.2] := by
    simp [ClassSource.block, List.filter_map, ClassSource.union?, Function.comp_def]
  rw [classOrder, List.filter_append, List.filter_flatMap, List.filter_map]
  simp only [hblock, ← List.map_eq_flatMap]
  simp [ClassSource.union?, Function.comp_def]

theorem filterMap_classOrder (s : Schema) (unions : TypeName × Message → List ScopedOneOf) :
    (s.classOrder unions).filterMap ClassSource.union? = s.messages.flatMap unions := by
  have hblock (p : TypeName × Message) :
      (ClassSource.block (unions p) p).filterMap ClassSource.union? = unions p := by
    simp [ClassSource.block, List.filterMap_map, ClassSource.union?, Function.comp_def]
  rw [classOrder, List.filterMap_append, List.filterMap_flatMap, List.filterMap_map]
  simp only [hblock]
  simp [ClassSource.union?, Function.comp_def]

theorem union_before_message {unions : TypeName × Message → List ScopedOneOf}
    {ps : List (TypeName × Message)} {start rest : List ClassSource} {o : ScopedOneOf}
    (h : (ps.flatMap fun p => ClassSource.block (unions p) p) = start ++ .union o :: rest) :
    ∃ p ∈ ps, o ∈ unions p ∧ ∃ (others : List ScopedOneOf) (more : List ClassSource),
      rest = others.map .union ++ .message p.1 p.2 :: more := by
  induction ps generalizing start with
  | nil => simp at h
  | cons p ps ih =>
    rw [List.flatMap_cons, ClassSource.block, List.append_assoc, List.singleton_append] at h
    obtain ⟨as, rfl, ha⟩ | ⟨bs, hb, ha⟩ := List.append_eq_append_iff.1 h
    · -- The union stands after those of the first message, so after the message too.
      cases as with
      | nil => cases ha
      | cons a as =>
        obtain ⟨q, hq, ho, hrest⟩ := ih (List.cons.inj ha).2
        exact ⟨q, List.mem_cons_of_mem p hq, ho, hrest⟩
    · obtain ⟨us, vs, hu, _, rfl⟩ := List.map_eq_append_iff.1 hb
      cases vs with
      | nil => cases ha
      | cons v vs =>
        cases ha
        refine ⟨p, List.mem_cons_self, ?_, vs, _, rfl⟩
        rw [hu]
        exact List.mem_append_right us List.mem_cons_self

theorem arranges_attachedOneOfs (hn : (s.messages.map Prod.fst).Nodup) :
    s.Arranges (s.classOrder s.attachedOneOfs) where
  definitions := s.filter_classOrder s.attachedOneOfs
  unions := by
    rw [filterMap_classOrder]
    exact flatMap_filter_perm hn (fun o => o.name.parent?) s.oneOfs
  before := by
    intro start o rest h
    -- Nothing among the enumerations is a union.
    have htail : ∃ start, (s.messages.flatMap fun p => ClassSource.block (s.attachedOneOfs p) p) =
        start ++ .union o :: rest := by
      obtain ⟨as, _, h⟩ | ⟨bs, hb, h⟩ := List.append_eq_append_iff.1 h
      · exact ⟨as, h⟩
      · obtain ⟨_, es, _, _, rfl⟩ := List.map_eq_append_iff.1 hb
        cases es with
        | nil => exact ⟨[], h.symm⟩
        | cons e es => cases h
    obtain ⟨start, htail⟩ := htail
    obtain ⟨p, _, ho, others, more, hrest⟩ := union_before_message htail
    exact ⟨others, p.1, p.2, more, hrest, eq_of_beq (List.mem_filter.1 ho).2⟩

/-- Where no name of a oneof has a dot, the oneofs of a message are those that its name attaches to
it: a name leads back to the message that it was built from, and to no other. -/
theorem attachedOneOfs_eq (hn : (s.messages.map Prod.fst).Nodup)
    (hdot : ∀ o ∈ s.oneOfs, '.' ∉ o.oneOf.name.toList) (hp : p ∈ s.messages) :
    s.attachedOneOfs p = ownOneOfs p := by
  have hparent : ∀ q ∈ s.messages, ∀ o ∈ ownOneOfs q, o.name.parent? = some q.1 := by
    intro q hq o ho
    have hmem : o ∈ s.oneOfs := List.mem_flatMap.2 ⟨q, hq, ho⟩
    obtain ⟨d, _, rfl⟩ := List.mem_map.1 ho
    exact TypeName.parent?_eq_some_iff.2 ⟨d.name, rfl, hdot _ hmem⟩
  have hfilter : ∀ q ∈ s.messages, ((ownOneOfs q).filter fun o => o.name.parent? == some p.1) =
      if q.1 = p.1 then ownOneOfs q else [] := by
    intro q hq
    split_ifs with he
    · rw [List.filter_eq_self]
      intro o ho
      rw [hparent q hq o ho, he, beq_self_eq_true]
    · rw [List.filter_eq_nil_iff]
      intro o ho h
      rw [hparent q hq o ho, beq_iff_eq, Option.some.injEq] at h
      exact he h
  calc
    s.attachedOneOfs p
      = s.messages.flatMap fun q => (ownOneOfs q).filter fun o => o.name.parent? == some p.1 :=
        List.filter_flatMap
    _ = s.messages.flatMap fun q => if q.1 = p.1 then ownOneOfs q else [] :=
        List.flatMap_congr hfilter
    _ = ownOneOfs p := flatMap_ite_eq hn hp ownOneOfs

theorem classOrder_congr {unions unions' : TypeName × Message → List ScopedOneOf}
    (h : ∀ p ∈ s.messages, unions p = unions' p) : s.classOrder unions = s.classOrder unions' := by
  rw [classOrder, classOrder]
  congr 1
  apply List.flatMap_congr
  intro p hp
  rw [h p hp]

/-- The classes of a file stand in the order of the schema: the enumerations, then each message
after its oneofs, with an empty line between neighbours. The lines with the words for a class are
their headlines, and in the text too unless a name brings in a line break of its own. A oneof whose
own name has a dot goes by its full name: it stands before the message that this leads to, or
nowhere. -/
theorem generate_classes (h : s.generate settings = .ok files) :
    ∃ g model, Generator.ofSchema s settings = .ok g ∧ g.model = .ok model ∧
      files.model.contents = Text.unlines (model.lines settings.modelPackage g.moreImports) ∧
      (model.lines settings.modelPackage g.moreImports).filter isClassLine =
        (s.classOrder s.attachedOneOfs).map g.headline ∧
      ((∀ l ∈ model.lines settings.modelPackage g.moreImports, '\n' ∉ l.toList) →
        (Text.splitAt '\n' files.model.contents).filter isClassLine =
          (s.classOrder s.attachedOneOfs).map g.headline) ∧
      (∃ classes, (s.classOrder s.attachedOneOfs).mapM g.classOf = .ok classes ∧
        model.lines settings.modelPackage g.moreImports =
          ObjectModel.header settings.modelPackage (model.imports g.moreImports) ++
            [""].intercalate (classes.map (Stmt.linesOf 0)) ∧
        (classes.map fun c => (Stmt.linesOf 0 c).head?) =
          (s.classOrder s.attachedOneOfs).map fun c => some (g.headline c)) ∧
      s.Arranges (s.classOrder s.attachedOneOfs) ∧
      ((∀ o ∈ s.oneOfs, '.' ∉ o.oneOf.name.toList) →
        s.classOrder s.attachedOneOfs = s.classOrder ownOneOfs) := by
  obtain ⟨g, hg, h⟩ := bind_eq_ok_iff.1 h
  obtain ⟨model, hm, rfl⟩ := Generator.model_of_generate h
  have hn : (s.messages.map Prod.fst).Nodup :=
    (List.nodup_append.1 (Generator.nodup_names_of_ofSchema hg)).1
  cases Generator.eq_of_ofSchema hg
  have hclasses := Generator.mapM_classOf hm
  have hlines := Generator.filter_isClassLine_lines hm settings.modelPackage
  refine ⟨_, model, hg, hm, model.render_eq _ _, hlines,
    fun hbreak => (model.filter_splitAt _ _ hbreak rfl).trans hlines,
    ⟨model.classes, hclasses, model.lines_eq _ _, ?_⟩, arranges_attachedOneOfs hn, ?_⟩
  · rw [← List.forall₂_eq_eq_eq, List.forall₂_map_left_iff, List.forall₂_map_right_iff]
    exact ((mapM_eq_ok_iff.1 hclasses).imp fun _ _ hc => (Generator.lines_of_classOf hc).1).flip
  · intro hdot
    apply classOrder_congr
    intro p hp
    exact attachedOneOfs_eq hn hdot hp

/-- A message with two oneofs around a nested message with another. -/
def choices : Schema where
  package := "shop"
  definitions := [
    .message ⟨"Order", [
      .oneOf ⟨"payment", [
        .field { type := { expr := .named "string" }, name := "card", tag := 1 },
        .field { type := { expr := .named "Part" }, name := "part", tag := 2 }]⟩,
      .message "Part" [
        .oneOf ⟨"kind", [
          .field { type := { expr := .named "State" }, name := "state", tag := 1 }]⟩],
      .enumeration ⟨"State", [.value { name := "OPEN", tag := 0 }]⟩,
      .oneOf ⟨"content", []⟩]⟩,
    .message ⟨"Empty", []⟩]

theorem generate_choices :
    ∃ files, choices.generate {} = .ok files ∧
      ∃ lines, files.model.contents = Text.unlines lines ∧
        lines.filter isClassLine = [
          "enum class OrderState(val proto: SchemaProto.Order.State) \x7b",
          "sealed class OrderPayment \x7b", "sealed class OrderContent \x7b", "data class Order(",
          "sealed class OrderPartKind \x7b", "data class OrderPart(", "class Empty \x7b"] ∧
        choices.classOrder choices.attachedOneOfs = choices.classOrder ownOneOfs := by
  have h : verdict (choices.generate {}) = .ok () := by decide +kernel
  obtain ⟨files, h⟩ := verdict_eq_ok_iff.1 h
  obtain ⟨g, model, hg, hm, hcontents, hlines, _, _, _, hown⟩ := generate_classes h
  refine ⟨files, h, _, hcontents, hlines.trans ?_, hown (by decide +kernel)⟩
  cases Generator.eq_of_ofSchema hg
  decide +kernel

-- Two oneofs of the outer message lead away from it: one to the inner message, one to nothing.
example :
    let s : Schema := { definitions := [
      .message ⟨"Order", [
        .oneOf ⟨"Part.kind", []⟩,
        .oneOf ⟨"Stock.kind", []⟩,
        .message "Part" [.oneOf ⟨"kind", []⟩]]⟩] }
    (s.messages.map fun p => s.attachedOneOfs p) =
      [[], [⟨⟨"Order"⟩, ⟨"Part.kind", []⟩⟩, ⟨⟨"Order.Part"⟩, ⟨"kind", []⟩⟩]] := by
  decide +kernel

end Schema

end WireModel
