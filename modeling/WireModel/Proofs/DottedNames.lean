import Mathlib.Data.List.Infix
import WireModel.TypeName
import WireModel.Proofs.Tokens

namespace WireModel.TypeName

variable {t p : TypeName}

theorem toList_child (t : TypeName) (name : String) :
    (t.child name).text.toList = t.text.toList ++ '.' :: name.toList := by
  simp [child]

theorem segments_ne_nil (t : TypeName) : t.segments ≠ [] := by
  simp [segments, Text.splitAt, Text.pieces_ne_nil]

theorem segments_of_notMem (h : '.' ∉ t.text.toList) : t.segments = [t.text] := by
  have hcut : ∀ c ∈ t.text.toList, (c == '.') = false := by
    intro c hc
    exact beq_false_of_ne fun he => h (he ▸ hc)
  rw [segments, Text.splitAt, Text.pieces_of_forall hcut]
  simp

theorem segments_child (t : TypeName) (name : String) :
    (t.child name).segments = t.segments ++ segments ⟨name⟩ := by
  rw [segments, Text.splitAt, toList_child, Text.pieces_append_cut (by decide), List.map_append]
  rfl

theorem parent?_eq_none_iff : t.parent? = none ↔ '.' ∉ t.text.toList := by
  rw [parent?, Option.map_eq_none_iff, Text.beforeLast?_eq_none_iff]

/-- A name has a parent exactly if it is that of a child with a name of one segment. -/
theorem parent?_eq_some_iff :
    t.parent? = some p ↔ ∃ last : String, t = p.child last ∧ '.' ∉ last.toList := by
  rw [parent?, Option.map_eq_some_iff]
  refine ⟨?_, ?_⟩
  · rintro ⟨cs, hcs, rfl⟩
    obtain ⟨last, ht, hlast⟩ := Text.beforeLast?_eq_some_iff.1 hcs
    refine ⟨String.ofList last, ?_, by rwa [String.toList_ofList]⟩
    obtain ⟨text⟩ := t
    rw [mk.injEq, ← String.toList_inj, toList_child, String.toList_ofList, String.toList_ofList]
    exact ht
  · rintro ⟨last, rfl, hlast⟩
    refine ⟨p.text.toList, ?_, by rw [String.ofList_toList]⟩
    exact Text.beforeLast?_eq_some_iff.2 ⟨last.toList, toList_child p last, hlast⟩

theorem segments_of_parent? (h : t.parent? = some p) :
    ∃ last, t = p.child last ∧ t.segments = p.segments ++ [last] := by
  obtain ⟨last, rfl, hlast⟩ := parent?_eq_some_iff.1 h
  exact ⟨last, rfl, by rw [segments_child, segments_of_notMem hlast]⟩

theorem joinWith_segments (t : TypeName) : Text.joinWith "." t.segments = t.text := by
  -- From a name to its parent, as the list of scopes is built: each step takes one segment off.
  induction t using selfAndParents.induct with
  | case1 t h =>
    rw [segments_of_notMem (parent?_eq_none_iff.1 h)]
    rfl
  | case2 t p h ih =>
    obtain ⟨last, rfl, hs⟩ := segments_of_parent? h
    rw [hs, Text.joinWith_append_singleton _ _ p.segments_ne_nil, ih]
    rfl

/-- The full names that a name has in a scope and in those around it, given the segments of the
scope, the innermost first. -/
def within (segments : List String) (name : String) : List TypeName :=
  segments.inits.reverse.map fun outer => ⟨Text.joinWith "." (outer ++ [name])⟩

theorem within_append_singleton (segments : List String) (last name : String) :
    within (segments ++ [last]) name =
      ⟨Text.joinWith "." (segments ++ [last] ++ [name])⟩ :: within segments name := by
  simp [within, List.inits_append]

/-- In a scope a name is that of a child, or what it is in the scope around it. -/
theorem within_segments (t : TypeName) (name : String) :
    within t.segments name = t.child name :: within (t.parent?.elim [] segments) name := by
  have hlast : ∃ last, t.segments = t.parent?.elim [] segments ++ [last] := by
    cases h : t.parent? with
    | none => exact ⟨t.text, segments_of_notMem (parent?_eq_none_iff.1 h)⟩
    | some p =>
      obtain ⟨last, _, hs⟩ := segments_of_parent? h
      exact ⟨last, hs⟩
  obtain ⟨last, hs⟩ := hlast
  rw [hs, within_append_singleton, ← hs,
    Text.joinWith_append_singleton _ _ t.segments_ne_nil, joinWith_segments]
  rfl

theorem selfAndParents_of_parent?_eq_none (h : t.parent? = none) : t.selfAndParents = [t] := by
  rw [selfAndParents]
  split
  · rfl
  · next h' => rw [h] at h'; cases h'

theorem selfAndParents_of_parent?_eq_some (h : t.parent? = some p) :
    t.selfAndParents = t :: p.selfAndParents := by
  rw [selfAndParents]
  split
  · next h' => rw [h] at h'; cases h'
  · next h' =>
    rw [h] at h'
    cases h'
    rfl

theorem within_eq_selfAndParents (t : TypeName) (name : String) :
    within t.segments name = (t.selfAndParents.map fun outer => outer.child name) ++ [⟨name⟩] := by
  induction t using selfAndParents.induct with
  | case1 t h =>
    rw [within_segments, h, selfAndParents_of_parent?_eq_none h]
    rfl
  | case2 t p h ih =>
    rw [within_segments, h, selfAndParents_of_parent?_eq_some h, Option.elim_some, ih]
    rfl

theorem dot_notMem_of_mem_segments {segment : String} (h : segment ∈ t.segments) :
    '.' ∉ segment.toList := by
  induction t using selfAndParents.induct with
  | case1 t ht =>
    rw [segments_of_notMem (parent?_eq_none_iff.1 ht), List.mem_singleton] at h
    rw [h]
    exact parent?_eq_none_iff.1 ht
  | case2 t p hp ih =>
    obtain ⟨last, rfl, hlast⟩ := parent?_eq_some_iff.1 hp
    rw [segments_child, segments_of_notMem hlast, List.mem_append, List.mem_singleton] at h
    obtain h | rfl := h
    · exact ih h
    · exact hlast

theorem parent?_eq_some_iff_segments :
    t.parent? = some p ↔ '.' ∈ t.text.toList ∧ p.segments = t.segments.dropLast := by
  refine ⟨?_, ?_⟩
  · intro h
    obtain ⟨last, rfl, hs⟩ := segments_of_parent? h
    refine ⟨?_, ?_⟩
    · rw [toList_child]
      exact List.mem_append_right _ List.mem_cons_self
    · rw [hs, List.dropLast_concat]
  · rintro ⟨hdot, hp⟩
    obtain ⟨q, hq⟩ := Option.ne_none_iff_exists'.1 fun h => parent?_eq_none_iff.1 h hdot
    obtain ⟨last, _, hs⟩ := segments_of_parent? hq
    rw [hs, List.dropLast_concat] at hp
    -- names with the same segments are the same name
    have htext : p.text = q.text := by rw [← joinWith_segments, hp, joinWith_segments]
    rw [hq, Option.some.injEq]
    exact congrArg mk htext.symm

theorem parent?_child_of_notMem {name : String} (h : '.' ∉ name.toList) :
    (t.child name).parent? = some t :=
  parent?_eq_some_iff.2 ⟨name, rfl, h⟩

/-- The parent of a name with several segments in it is found in the part that was added last. -/
theorem parent?_child_of_parent? {name : String} (h : parent? ⟨name⟩ = some p) :
    (t.child name).parent? = some (t.child p.text) := by
  obtain ⟨last, hname, hlast⟩ := parent?_eq_some_iff.1 h
  refine parent?_eq_some_iff.2 ⟨last, ?_, hlast⟩
  rw [show name = (p.child last).text from congrArg text hname]
  simp [child, String.append_assoc]

theorem length_selfAndParents (t : TypeName) : t.selfAndParents.length = t.segments.length := by
  induction t using selfAndParents.induct with
  | case1 t h =>
    rw [selfAndParents_of_parent?_eq_none h, segments_of_notMem (parent?_eq_none_iff.1 h)]
    rfl
  | case2 t p h ih =>
    obtain ⟨last, _, hs⟩ := segments_of_parent? h
    rw [selfAndParents_of_parent?_eq_some h, hs, List.length_cons, ih, List.length_append]
    rfl

theorem iterate_parent? (t : TypeName) (k : Nat) :
    (fun outer : Option TypeName => outer.bind parent?)^[k] (some t) = t.selfAndParents[k]? := by
  induction k generalizing t with
  | zero =>
    cases h : t.parent? with
    | none => rw [selfAndParents_of_parent?_eq_none h]; rfl
    | some p => rw [selfAndParents_of_parent?_eq_some h]; rfl
  | succ k ih =>
    rw [Function.iterate_succ_apply, Option.bind_some]
    cases h : t.parent? with
    | none =>
      rw [selfAndParents_of_parent?_eq_none h]
      exact Function.iterate_fixed rfl k
    | some p =>
      rw [selfAndParents_of_parent?_eq_some h]
      exact ih p

/-- Cutting a name at its dots, adding to it at the end and dropping its last segment go together,
also where segments are empty. -/
theorem segments_laws (t : TypeName) (name : String) :
    Text.joinWith "." t.segments = t.text ∧
    (∀ segment ∈ t.segments, '.' ∉ segment.toList) ∧
    (t.child name).segments = t.segments ++ segments ⟨name⟩ ∧
    (t.parent? = none ↔ '.' ∉ t.text.toList) ∧
    (∀ p, t.parent? = some p ↔ '.' ∈ t.text.toList ∧ p.segments = t.segments.dropLast) ∧
    ('.' ∉ name.toList → (t.child name).parent? = some t) ∧
    ('.' ∈ name.toList →
      ∃ p, parent? ⟨name⟩ = some p ∧ (t.child name).parent? = some (t.child p.text)) ∧
    ∀ k, (fun outer : Option TypeName => outer.bind parent?)^[k] (some t) = none ↔
      t.segments.length ≤ k := by
  refine ⟨t.joinWith_segments, fun _ => dot_notMem_of_mem_segments, t.segments_child name,
    parent?_eq_none_iff, fun _ => parent?_eq_some_iff_segments, parent?_child_of_notMem, ?_, ?_⟩
  · intro hdot
    obtain ⟨p, hp⟩ := Option.ne_none_iff_exists'.1 fun h =>
      (parent?_eq_none_iff (t := ⟨name⟩)).1 h hdot
    exact ⟨p, hp, parent?_child_of_parent? hp⟩
  · intro k
    rw [iterate_parent?, List.getElem?_eq_none_iff, length_selfAndParents]

/-- A scope that ends in a dot, with a name of one segment and one that has empty segments. -/
theorem segments_laws_dots :
    ("" ∈ segments ⟨"a."⟩ ∧ '.' ∉ "".toList) ∧
    ('.' ∉ "b".toList ∧ (child ⟨"a."⟩ "b").parent? = some ⟨"a."⟩) ∧
    '.' ∈ "..b".toList ∧
    ∃ p, parent? ⟨"..b"⟩ = some p ∧ (child ⟨"a."⟩ "..b").parent? = some (child ⟨"a."⟩ p.text) := by
  obtain ⟨_, hsegments, _, _, _, hsingle, _, _⟩ := segments_laws ⟨"a."⟩ "b"
  obtain ⟨_, _, _, _, _, _, hseveral, _⟩ := segments_laws ⟨"a."⟩ "..b"
  have hempty : "" ∈ segments ⟨"a."⟩ := by decide
  have hname : '.' ∉ "b".toList := by decide
  have hdot : '.' ∈ "..b".toList := by decide
  exact ⟨⟨hempty, hsegments "" hempty⟩, ⟨hname, hsingle hname⟩, hdot, hseveral hdot⟩

end WireModel.TypeName
