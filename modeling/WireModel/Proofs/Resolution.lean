import Mathlib.Data.List.Duplicate
import WireModel.Proofs.Outcome
import WireModel.Symbols

namespace WireModel

open Outcome

/-- The full names of all messages, then of all enumerations. -/
def Schema.names (s : Schema) : List TypeName :=
  s.messages.map Prod.fst ++ s.enumerations.map Prod.fst

/-- The table of everything that a schema declares. -/
def Schema.symbols (s : Schema) : Symbols :=
  ⟨s.package, Symbols.declarations s⟩

theorem Scalar.keyword_of_ofKeyword? {key : String} {k : Scalar} (h : ofKeyword? key = some k) :
    k.keyword = key := by
  have hk := List.find?_some h
  exact eq_of_beq hk

theorem Scalar.dot_notMem_of_ofKeyword? {name : String} {k : Scalar}
    (h : ofKeyword? name = some k) : '.' ∉ name.toList := by
  rw [← keyword_of_ofKeyword? h]
  cases k <;> decide

/-- Where keys are distinct, what is found under a key is what has the key. -/
theorem find?_fst_eq_some_iff {β : Type} {l : List (TypeName × β)} (hn : (l.map Prod.fst).Nodup)
    {n : TypeName} {p : TypeName × β} :
    l.find? (fun q => q.1 == n) = some p ↔ p ∈ l ∧ p.1 = n := by
  refine ⟨?_, ?_⟩
  · intro h
    exact ⟨List.mem_of_find?_eq_some h, by simpa using List.find?_some h⟩
  · rintro ⟨hp, rfl⟩
    cases h : l.find? (fun q => q.1 == p.1) with
    | none => simpa using List.find?_eq_none.1 h p hp
    | some q =>
      have hq : q.1 = p.1 := by simpa using List.find?_some h
      rw [List.inj_on_of_nodup_map hn (List.mem_of_find?_eq_some h) hp hq]

namespace Symbols

variable {s : Schema} {t t' : Symbols} {n full : TypeName} {c : Category} {e : SchemaError}
  {name : String} {scope : Option TypeName}

theorem map_fst_declarations (s : Schema) : (declarations s).map Prod.fst = s.names := by
  simp [declarations, Schema.names, Function.comp_def]

theorem mem_declarations_message :
    (n, Category.message) ∈ declarations s ↔ ∃ m, (n, m) ∈ s.messages := by
  simp [declarations]

theorem mem_declarations_enumeration :
    (n, Category.enumeration) ∈ declarations s ↔ ∃ m, (n, m) ∈ s.enumerations := by
  simp [declarations]

theorem mem_of_category? (h : t.category? n = some c) : (n, c) ∈ t.entries := by
  obtain ⟨before, after, he, _⟩ := List.lookup_eq_some_iff.1 h
  rw [he]
  exact List.mem_append_right _ List.mem_cons_self

theorem category?_eq_none_iff : t.category? n = none ↔ n ∉ t.entries.map Prod.fst := by
  simp only [category?, List.lookup_eq_none_iff, List.mem_map, not_exists, not_and, bne_iff_ne]
  refine ⟨?_, ?_⟩
  · rintro h p hp rfl
    exact h p hp rfl
  · rintro h p hp rfl
    exact h p hp rfl

theorem category?_eq_some_iff (hn : (t.entries.map Prod.fst).Nodup) :
    t.category? n = some c ↔ (n, c) ∈ t.entries := by
  refine ⟨mem_of_category?, ?_⟩
  intro h
  cases hc : t.category? n with
  | none => exact (category?_eq_none_iff.1 hc (List.mem_map_of_mem h)).elim
  | some c' => cases List.inj_on_of_nodup_map hn (mem_of_category? hc) h rfl; rfl

/-- A name that an earlier type has, with the error that comes of it. -/
def Taken (earlier : List (TypeName × Category)) (d : TypeName × Category) (e : SchemaError) :
    Prop :=
  ∃ c, earlier.lookup d.1 = some c ∧ e = .duplicateDefinition c d.1

theorem forall_not_taken_iff {earlier : List (TypeName × Category)} {d : TypeName × Category} :
    (∀ e, ¬ Taken earlier d e) ↔ d.1 ∉ earlier.map Prod.fst := by
  rw [← category?_eq_none_iff (t := ⟨"", earlier⟩), Option.eq_none_iff_forall_ne_some]
  refine ⟨?_, ?_⟩
  · intro h c hc
    exact h _ ⟨c, hc, rfl⟩
  · rintro h e ⟨c, hc, _⟩
    exact h c hc

/-- Declaring types one after another stops at the first name that is taken. -/
theorem stopsAtFault (package : String) :
    StopsAtFault (fun earlier ds =>
      verdict (ds.foldlM (fun t d => t.declare d.1 d.2) (⟨package, earlier⟩ : Symbols))) Taken where
  nil _ := rfl
  fault := by
    rintro earlier d e ds ⟨c, hc, rfl⟩
    have hd : declare ⟨package, earlier⟩ d.1 d.2 = .error (.duplicateDefinition c d.1) := by
      rw [declare, category?, hc]
    rw [List.foldlM_cons, hd]
    rfl
  pass := by
    intro earlier d ds h
    have hc := category?_eq_none_iff (t := ⟨package, earlier⟩).2 (forall_not_taken_iff.1 h)
    rw [List.foldlM_cons, declare, hc]
    rfl

theorem eq_of_foldlM_declare {ds : List (TypeName × Category)}
    (h : ds.foldlM (fun t d => t.declare d.1 d.2) t = .ok t') :
    t' = { t with entries := t.entries ++ ds } := by
  induction ds generalizing t with
  | nil => simpa [pure_eq_ok_iff] using h
  | cons d ds ih =>
    rw [List.foldlM_cons, declare] at h
    split at h
    · cases h
    · simpa using ih h

/-- The table is built exactly when the names of a schema are distinct, and it lists them all. -/
theorem ofSchema_eq_ok_iff : ofSchema s = .ok t ↔ s.names.Nodup ∧ t = s.symbols := by
  have hok : verdict (ofSchema s) = .ok () ↔ s.names.Nodup := by
    have h : verdict (ofSchema s) = .ok () ↔ _ :=
      (stopsAtFault s.package).eq_ok_iff [] (declarations s)
    rw [h, ← map_fst_declarations, nodup_map_iff]
    simp only [List.nil_append, forall_not_taken_iff]
  refine ⟨?_, ?_⟩
  · intro h
    exact ⟨hok.1 (verdict_eq_ok_iff.2 ⟨t, h⟩), eq_of_foldlM_declare h⟩
  · rintro ⟨hn, rfl⟩
    obtain ⟨t, ht⟩ := verdict_eq_ok_iff.1 (hok.2 hn)
    rw [ht, eq_of_foldlM_declare ht]
    rfl

/-- A table that cannot be built is refused for the first name that was declared before. -/
theorem ofSchema_eq_error_iff :
    ofSchema s = .error e ↔ ∃ before d after earlier, declarations s = before ++ d :: after ∧
      (before.map Prod.fst).Nodup ∧ (d.1, earlier) ∈ before ∧
      e = .duplicateDefinition earlier d.1 := by
  have h : verdict (ofSchema s) = .error e ↔ _ :=
    (stopsAtFault s.package).eq_error_iff [] (declarations s)
  rw [← verdict_eq_error_iff, h]
  simp only [List.nil_append, forall_not_taken_iff, ← nodup_map_iff]
  refine ⟨?_, ?_⟩
  · rintro ⟨before, d, after, hs, hn, c, hc, rfl⟩
    exact ⟨before, d, after, c, hs, hn, mem_of_category? (t := ⟨s.package, before⟩) hc, rfl⟩
  · rintro ⟨before, d, after, c, hs, hn, hc, rfl⟩
    exact ⟨before, d, after, hs, hn, c,
      (category?_eq_some_iff (t := ⟨s.package, before⟩) hn).2 hc, rfl⟩

theorem duplicate_of_ofSchema_eq_error (h : ofSchema s = .error e) :
    ∃ earlier n, e = .duplicateDefinition earlier n ∧ s.names.Duplicate n := by
  obtain ⟨before, d, after, earlier, hs, _, hd, he⟩ := ofSchema_eq_error_iff.1 h
  refine ⟨earlier, d.1, he, ?_⟩
  have hm : d.1 ∈ before.map Prod.fst := List.mem_map.2 ⟨_, hd, rfl⟩
  rw [← map_fst_declarations, hs, List.map_append, List.map_cons, List.duplicate_iff_sublist]
  exact (List.singleton_sublist.2 hm).append (List.singleton_sublist.2 List.mem_cons_self)

theorem mem_of_find? (h : t.find? n = some (full, c)) : (full, c) ∈ t.entries := by
  obtain ⟨c', hc, he⟩ := Option.map_eq_some_iff.1 h
  cases he
  exact mem_of_category? hc

theorem mem_of_lookup? (h : t.lookup? name scope = some (full, c)) : (full, c) ∈ t.entries := by
  rw [lookup?] at h
  split at h
  · exact mem_of_find? h
  · obtain ⟨_, _, hf⟩ := List.exists_of_findSome?_eq_some h
    exact mem_of_find? hf

/-- What a type name can stand for: nothing, a scalar, a declared type, or an unknown name. -/
theorem kindOf_cases (t : Symbols) (name : String) (scope : Option TypeName) :
    (name = "" ∧ t.kindOf name scope = .missing) ∨
    (∃ k, Scalar.ofKeyword? name = some k ∧ t.kindOf name scope = .scalar k) ∨
    (∃ n, (n, Category.message) ∈ t.entries ∧ t.kindOf name scope = .message n) ∨
    (∃ n, (n, Category.enumeration) ∈ t.entries ∧ t.kindOf name scope = .enumeration n) ∨
    t.kindOf name scope = .unresolved name := by
  rw [kindOf]
  split
  · next h => exact .inl ⟨h, rfl⟩
  · split
    · next k hk => exact .inr (.inl ⟨k, hk, rfl⟩)
    · split
      · next full hl => exact .inr (.inr (.inl ⟨full, mem_of_lookup? hl, rfl⟩))
      · next full hl => exact .inr (.inr (.inr (.inl ⟨full, mem_of_lookup? hl, rfl⟩)))
      · exact .inr (.inr (.inr (.inr rfl)))

theorem mem_of_kindOf_eq_message (h : t.kindOf name scope = .message n) :
    (n, Category.message) ∈ t.entries := by
  rcases t.kindOf_cases name scope with ⟨_, hk⟩ | ⟨_, _, hk⟩ | ⟨n', hn, hk⟩ | ⟨_, _, hk⟩ | hk
  all_goals rw [h] at hk; cases hk
  exact hn

theorem mem_of_kindOf_eq_enumeration (h : t.kindOf name scope = .enumeration n) :
    (n, Category.enumeration) ∈ t.entries := by
  rcases t.kindOf_cases name scope with ⟨_, hk⟩ | ⟨_, _, hk⟩ | ⟨_, _, hk⟩ | ⟨n', hn, hk⟩ | hk
  all_goals rw [h] at hk; cases hk
  exact hn

theorem kindOf_ne_union (t : Symbols) (name : String) (scope : Option TypeName) (n : TypeName) :
    t.kindOf name scope ≠ .union n := by
  intro h
  rcases t.kindOf_cases name scope with ⟨_, hk⟩ | ⟨_, _, hk⟩ | ⟨_, _, hk⟩ | ⟨_, _, hk⟩ | hk
  all_goals rw [h] at hk; cases hk

/-- The shapes that a field type can have: those of its modifiers, or that of a map. -/
theorem shapeOf_cases {type : FieldType} {f : String} {shape : Shape}
    (h : t.shapeOf type scope f = .ok shape) :
    (∃ name, type.expr = .named name ∧ (shape = .single (t.kindOf name scope) ∨
      shape = .optional (t.kindOf name scope) ∨ shape = .repeated (t.kindOf name scope))) ∨
    ∃ key value k, type.expr = .map key value ∧ shape = .map k (t.kindOf value scope) := by
  obtain ⟨optional, repeated, expr⟩ := type
  rw [shapeOf] at h
  split at h
  · cases h
  · cases expr with
    | named name =>
      refine .inl ⟨name, rfl, ?_⟩
      cases optional <;> cases repeated <;> cases h <;> simp
    | map key value =>
      dsimp only at h
      split at h
      · cases h
      · split at h
        · next k _ =>
          cases h
          exact .inr ⟨key, value, k, rfl, rfl⟩
        · cases h

/-- No field is a stream, and none has to do with a union. -/
theorem ne_stream_of_shapeOf {type : FieldType} {f : String} {shape : Shape}
    (h : t.shapeOf type scope f = .ok shape) :
    (∀ inner, shape ≠ .stream inner) ∧ ∀ n, shape.element ≠ .union n := by
  obtain ⟨name, _, rfl | rfl | rfl⟩ | ⟨_, name, _, _, rfl⟩ := shapeOf_cases h
  all_goals exact ⟨by simp, t.kindOf_ne_union name scope⟩

end Symbols

end WireModel
