import WireModel.Proofs.JsonNesting

namespace WireModel

namespace Json.Value

/-- Values whose numbers are within the range of double precision and whose strings and keys are
text. -/
inductive IsSound : Value → Prop
  | null : IsSound .null
  | bool (b : Bool) : IsSound (.bool b)
  | number {n : Numeral} (h : n.isFinite = true) : IsSound (.number n)
  | text (s : String) : IsSound (.text s)
  | array {items : List Value} (h : ∀ u ∈ items, IsSound u) : IsSound (.array items)
  | object {members : List (Text × Value)} (hkey : ∀ m ∈ members, m.1.isSome = true)
    (h : ∀ m ∈ members, IsSound m.2) : IsSound (.object members)

theorem memberNesting_le_iff {members : List (Text × Value)} {room : Nat} :
    memberNesting members ≤ room ↔ ∀ m ∈ members, m.2.nesting ≤ room := by
  induction members with
  | nil => simp [memberNesting]
  | cons m ms ih => rw [memberNesting, Nat.max_le, ih, List.forall_mem_cons]

theorem areReadable_iff {room : Nat} {items : List Value} :
    areReadable room items = true ↔ ∀ u ∈ items, u.isReadable room = true := by
  induction items with
  | nil => simp [areReadable]
  | cons u us ih => rw [areReadable, Bool.and_eq_true, ih, List.forall_mem_cons]

theorem areMembersReadable_iff {room : Nat} {members : List (Text × Value)} :
    areMembersReadable room members = true ↔
      ∀ m ∈ members, m.1.isSome = true ∧ m.2.isReadable room = true := by
  induction members with
  | nil => simp [areMembersReadable]
  | cons m ms ih =>
    rw [areMembersReadable, Bool.and_eq_true, Bool.and_eq_true, ih, List.forall_mem_cons]

theorem isReadable_of_isSound {v : Value} (h : v.IsSound) {room : Nat} (hv : v.nesting ≤ room) :
    v.isReadable room = true := by
  induction h generalizing room with
  | null => rfl
  | bool b => rfl
  | number h => exact h
  | text s => rfl
  | array _ ih =>
    rw [nesting] at hv
    obtain ⟨k, rfl⟩ := Nat.exists_eq_add_of_le' (Nat.le_of_add_left_le hv)
    have hitems := nestingOf_le_iff.1 (Nat.le_of_add_le_add_right hv)
    rw [isReadable, Nat.add_sub_cancel, Bool.and_eq_true, areReadable_iff]
    exact ⟨by simp, fun u hu => ih u hu (hitems u hu)⟩
  | object hkey _ ih =>
    rw [nesting] at hv
    obtain ⟨k, rfl⟩ := Nat.exists_eq_add_of_le' (Nat.le_of_add_left_le hv)
    have hmembers := memberNesting_le_iff.1 (Nat.le_of_add_le_add_right hv)
    rw [isReadable, Nat.add_sub_cancel, Bool.and_eq_true, areMembersReadable_iff]
    exact ⟨by simp, fun m hm => ⟨hkey m hm, ih m hm (hmembers m hm)⟩⟩

theorem isReadable_cases {v : Value} {room : Nat} (h : v.isReadable room = true) :
    v.IsSound ∧ v.nesting = 0 ∨
      (∃ k items, room = k + 1 ∧ v = .array items ∧ ∀ u ∈ items, u.isReadable k = true) ∨
      ∃ k members, room = k + 1 ∧ v = .object members ∧
        ∀ m ∈ members, m.1.isSome = true ∧ m.2.isReadable k = true := by
  cases v with
  | null => exact .inl ⟨.null, rfl⟩
  | bool b => exact .inl ⟨.bool b, rfl⟩
  | number n => exact .inl ⟨.number h, rfl⟩
  | string t =>
    cases t with
    | none => cases h
    | some s => exact .inl ⟨.text s, rfl⟩
  | array items =>
    cases room with
    | zero => cases h
    | succ k =>
      rw [isReadable, Bool.and_eq_true, areReadable_iff] at h
      exact .inr (.inl ⟨k, items, rfl, rfl, h.2⟩)
  | object members =>
    cases room with
    | zero => cases h
    | succ k =>
      rw [isReadable, Bool.and_eq_true, areMembersReadable_iff] at h
      exact .inr (.inr ⟨k, members, rfl, rfl, h.2⟩)

/-- The readable values are the sound ones that fit into the room. -/
theorem isReadable_iff {v : Value} {room : Nat} :
    v.isReadable room = true ↔ v.IsSound ∧ v.nesting ≤ room := by
  refine ⟨?_, fun h => isReadable_of_isSound h.1 h.2⟩
  intro h
  induction room generalizing v with
  | zero =>
    obtain ⟨hs, hn⟩ | ⟨k, items, hk, _⟩ | ⟨k, members, hk, _⟩ := isReadable_cases h
    · exact ⟨hs, Nat.le_of_eq hn⟩
    · cases hk
    · cases hk
  | succ room ih =>
    obtain ⟨hs, hn⟩ | ⟨k, items, hk, rfl, hitems⟩ | ⟨k, members, hk, rfl, hmembers⟩ :=
      isReadable_cases h
    · exact ⟨hs, by omega⟩
    · cases hk
      rw [nesting_array_le_iff]
      exact ⟨.array fun u hu => (ih (hitems u hu)).1, fun u hu => (ih (hitems u hu)).2⟩
    · cases hk
      rw [nesting, Nat.add_le_add_iff_right, memberNesting_le_iff]
      exact ⟨.object (fun m hm => (hmembers m hm).1) fun m hm => (ih (hmembers m hm).2).1,
        fun m hm => (ih (hmembers m hm).2).2⟩

end Json.Value

end WireModel
