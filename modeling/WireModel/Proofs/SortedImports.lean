import Mathlib.Data.List.Sort
import Mathlib.Data.String.Basic
import WireModel.ObjectModel.SourceFile

namespace WireModel

theorem mem_insertSorted {s x : String} {ts : List String} :
    x ∈ insertSorted s ts ↔ x = s ∨ x ∈ ts := by
  induction ts with
  | nil => simp [insertSorted]
  | cons t ts ih =>
    rw [insertSorted]
    split_ifs with hlt heq
    · rw [List.mem_cons]
    · simp [heq]
    · rw [List.mem_cons, ih, List.mem_cons, or_left_comm]

theorem pairwise_insertSorted {s : String} {ts : List String} (h : ts.Pairwise (· < ·)) :
    (insertSorted s ts).Pairwise (· < ·) := by
  induction ts with
  | nil => simp [insertSorted]
  | cons t ts ih =>
    obtain ⟨ht, hts⟩ := List.pairwise_cons.1 h
    rw [insertSorted]
    split_ifs with hlt heq
    · refine List.pairwise_cons.2 ⟨?_, h⟩
      intro u hu
      obtain rfl | hu := List.mem_cons.1 hu
      · exact hlt
      · exact hlt.trans (ht u hu)
    · exact h
    · have hgt : t < s := lt_of_le_of_ne (not_lt.1 hlt) (Ne.symm heq)
      refine List.pairwise_cons.2 ⟨?_, ih hts⟩
      intro u hu
      obtain rfl | hu := mem_insertSorted.1 hu
      · exact hgt
      · exact ht u hu

theorem mem_sortedUnique {x : String} {ss : List String} : x ∈ sortedUnique ss ↔ x ∈ ss := by
  induction ss with
  | nil => rfl
  | cons s ss ih =>
    rw [sortedUnique, List.foldr_cons, mem_insertSorted, List.mem_cons]
    exact or_congr_right ih

theorem pairwise_sortedUnique (ss : List String) : (sortedUnique ss).Pairwise (· < ·) := by
  induction ss with
  | nil => exact .nil
  | cons s ss ih => exact pairwise_insertSorted ih

/-- An ascending list is told by what is in it. -/
theorem sortedUnique_congr {ss ts : List String} (h : ∀ x, x ∈ ss ↔ x ∈ ts) :
    sortedUnique ss = sortedUnique ts := by
  apply (pairwise_sortedUnique ss).eq_of_mem_iff (pairwise_sortedUnique ts)
  intro x
  rw [mem_sortedUnique, mem_sortedUnique, h]

theorem ObjectModel.mem_imports_iff {o : ObjectModel} {more : List String} {i : String} :
    i ∈ o.imports more ↔
      (∃ m ∈ o.messages, ∃ f ∈ m.fields, i ∈ f.description.selection.imports) ∨ i ∈ more := by
  simp only [imports, MessageModel.imports, mem_sortedUnique, List.mem_append, List.mem_flatMap]

end WireModel
