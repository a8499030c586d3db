import Mathlib.Data.List.Basic
import Mathlib.Data.List.Pairwise
import WireModel.Proofs.Traversal

namespace WireModel

/-- Places in the order of the source. A place gives the position at each level on the way down; of
two places the one comes first that leads to the earlier position where they part. -/
def Precedes : List Nat → List Nat → Prop
  | i :: p, j :: q => i < j ∨ i = j ∧ Precedes p q
  | _, _ => False

theorem position_eq {i j : Nat} {a b : Prop} (h : i < j ∨ i = j ∧ a) (h' : j < i ∨ j = i ∧ b) :
    i = j ∧ a ∧ b := by
  grind

namespace Member

/-- The enumeration at a place among the members of a message, under its full name. -/
def enumerationAt? : TypeName → List Member → List Nat → Option (TypeName × Enumeration)
  | _, _, [] => none
  | scope, ms, i :: path => ms[i]?.bind fun
    | .enumeration e => if path = [] then some (scope.child e.name, e) else none
    | .message name members => enumerationAt? (scope.child name) members path
    | .field _ | .oneOf _ | .option _ | .reserved _ => none

/-- Places in a message in the order of the listing: the enumerations of the message itself, then
those of the messages in it, one message after the other. -/
def ListedFirst : List Nat → List Nat → Prop
  | [i], [j] => i < j
  | [i], j :: _ :: _ => i ≠ j
  | i :: k :: p, j :: l :: q => i < j ∨ i = j ∧ ListedFirst (k :: p) (l :: q)
  | _, _ => False

end Member

def Definition.enumerationAt? : Definition → List Nat → Option (TypeName × Enumeration)
  | .message m, path => Member.enumerationAt? ⟨m.name⟩ m.members path
  | .enumeration e, [] => some (⟨e.name⟩, e)
  | .enumeration _, _ :: _ | .service _, _ => none

namespace Schema

/-- The enumeration at a place in the schema, under its full name. -/
def enumerationAt? (s : Schema) : List Nat → Option (TypeName × Enumeration)
  | [] => none
  | i :: path => s.definitions[i]?.bind fun d => d.enumerationAt? path

/-- Places in a schema in the order of the listing, one definition after the other. -/
def ListedFirst : List Nat → List Nat → Prop
  | i :: p, j :: q => i < j ∨ i = j ∧ Member.ListedFirst p q
  | _, _ => False

/-- Entries that are what stands at some places, one after the other; these are the places of all
enumerations of the schema, each once and in a given order. -/
structure Lists (s : Schema) (first : List Nat → List Nat → Prop)
    (es : List (TypeName × Enumeration)) (places : List (List Nat)) : Prop where
  entries : places.map s.enumerationAt? = es.map some
  complete : ∀ p, (s.enumerationAt? p).isSome → p ∈ places
  once : places.Nodup
  ordered : places.Pairwise first

/-- In every message the enumerations of its own stand before all messages in it that have an
enumeration at some level. The place of the message around both is `k :: way`. -/
def OwnEnumerationsLead (s : Schema) : Prop :=
  ∀ (k : Nat) (way : List Nat) (own nested l : Nat) (path : List Nat),
    (s.enumerationAt? (k :: way ++ [own])).isSome →
    (s.enumerationAt? (k :: way ++ nested :: l :: path)).isSome → own < nested

end Schema

theorem rel_or_rel {α : Type} {r : α → α → Prop} {as : List α} (h : as.Pairwise r) {a b : α}
    (ha : a ∈ as) (hb : b ∈ as) (hne : a ≠ b) : r a b ∨ r b a := by
  have hsymm : Std.Symm fun x y => r x y ∨ r y x := ⟨fun _ _ => Or.symm⟩
  have hpairs : as.Pairwise fun x y => r x y ∨ r y x := h.imp .inl
  exact hpairs.forall ha hb hne

/-- Two lists of the same elements, each in an order of its own, are the same if their entries agree
and differ wherever the orders do. -/
theorem eq_of_map_eq {α β : Type} {r r' : α → α → Prop} {f : α → β} {as bs : List α}
    (ha : as.Pairwise r) (hb : bs.Pairwise r') (hna : as.Nodup) (hnb : bs.Nodup)
    (hmem : ∀ x, x ∈ as ↔ x ∈ bs) (hf : as.map f = bs.map f)
    (hne : ∀ x ∈ as, ∀ y ∈ as, r x y → r' y x → f x ≠ f y) : as = bs := by
  induction as generalizing bs with
  | nil => exact (List.map_eq_nil_iff.1 hf.symm).symm
  | cons a as ih =>
    cases bs with
    | nil => cases hf
    | cons b bs =>
      obtain ⟨hab, hrest⟩ := List.cons.inj hf
      obtain ⟨hra, has⟩ := List.pairwise_cons.1 ha
      obtain ⟨hrb, hbs⟩ := List.pairwise_cons.1 hb
      by_cases he : a = b
      · subst he
        have hmem' : ∀ x, x ∈ as ↔ x ∈ bs := by grind [List.nodup_cons]
        rw [ih has hbs hna.tail hnb.tail hmem' hrest fun x hx y hy =>
          hne x (List.mem_cons_of_mem a hx) y (List.mem_cons_of_mem a hy)]
      · -- each is in the list of the other, behind the first place
        have hb' : b ∈ as :=
          (List.mem_cons.1 ((hmem b).2 List.mem_cons_self)).resolve_left (Ne.symm he)
        have ha' : a ∈ bs := (List.mem_cons.1 ((hmem a).1 List.mem_cons_self)).resolve_left he
        exact (hne a List.mem_cons_self b (List.mem_cons_of_mem a hb') (hra b hb') (hrb a ha')
          hab).elim

section Spread

variable {α β : Type} {f : α → List (List Nat × β)}

/-- What the elements of a list hold, with the position of the element added to each place. -/
def spread (f : α → List (List Nat × β)) (i : Nat) : List α → List (List Nat × β)
  | [] => []
  | a :: as => ((f a).map fun e => (i :: e.1, e.2)) ++ spread f (i + 1) as

theorem map_snd_spread (f : α → List (List Nat × β)) (i : Nat) (as : List α) :
    (spread f i as).map Prod.snd = as.flatMap fun a => (f a).map Prod.snd := by
  induction as generalizing i with
  | nil => rfl
  | cons a as ih =>
    rw [spread, List.map_append, ih, List.map_map, List.flatMap_cons]
    rfl

theorem mem_spread {i : Nat} {as : List α} {path : List Nat} {b : β} :
    (path, b) ∈ spread f i as ↔
      ∃ (j : Nat) (a : α) (p : List Nat), as[j]? = some a ∧ path = (i + j) :: p ∧
        (p, b) ∈ f a := by
  induction as generalizing i with
  | nil => simp [spread]
  | cons a as ih =>
    rw [spread, List.mem_append, List.mem_map, ih]
    refine ⟨?_, ?_⟩
    · rintro (⟨⟨p, b'⟩, hp, ⟨⟩⟩ | ⟨j, a', p, ha, rfl, hp⟩)
      · exact ⟨0, a, p, rfl, rfl, hp⟩
      · exact ⟨j + 1, a', p, ha, by rw [Nat.add_right_comm, Nat.add_assoc], hp⟩
    · rintro ⟨_ | j, a', p, ha, rfl, hp⟩
      · cases ha
        exact .inl ⟨(p, b), hp, rfl⟩
      · exact .inr ⟨j, a', p, ha, by rw [Nat.add_right_comm, Nat.add_assoc], hp⟩

theorem mem_spread_zero {as : List α} {i : Nat} {p : List Nat} {b : β} :
    (i :: p, b) ∈ spread f 0 as ↔ ∃ a, as[i]? = some a ∧ (p, b) ∈ f a := by
  rw [mem_spread]
  refine ⟨?_, ?_⟩
  · rintro ⟨j, a, p', ha, hp, hmem⟩
    rw [Nat.zero_add] at hp
    cases hp
    exact ⟨a, ha, hmem⟩
  · rintro ⟨a, ha, hmem⟩
    exact ⟨i, a, p, ha, by rw [Nat.zero_add], hmem⟩

/-- Entries are in order if those of each element are and the position of the element comes
first. -/
theorem pairwise_spread (first : List Nat → List Nat → Prop) {first' : List Nat → List Nat → Prop}
    {as : List α} (hf : ∀ a ∈ as, (f a).Pairwise fun e e' => first e.1 e'.1)
    (below : ∀ i a, ∀ e ∈ f a, ∀ e' ∈ f a, first e.1 e'.1 → first' (i :: e.1) (i :: e'.1))
    (apart : ∀ i j a a', i < j → ∀ e ∈ f a, ∀ e' ∈ f a', first' (i :: e.1) (j :: e'.1)) (i : Nat) :
    (spread f i as).Pairwise fun e e' => first' e.1 e'.1 := by
  induction as generalizing i with
  | nil => exact .nil
  | cons a as ih =>
    have hrest := ih (fun b hb => hf b (List.mem_cons_of_mem a hb)) (i + 1)
    refine List.pairwise_append.2 ⟨?_, hrest, ?_⟩
    · rw [List.pairwise_map]
      exact (hf a List.mem_cons_self).imp_of_mem fun he he' => below i a _ he _ he'
    · intro e he e' he'
      obtain ⟨e₀, he₀, rfl⟩ := List.mem_map.1 he
      obtain ⟨path, b⟩ := e'
      obtain ⟨j, a', p, ha', rfl, hp⟩ := mem_spread.1 he'
      exact apart i _ a a' (by omega) e₀ he₀ (p, b) hp

end Spread

theorem TypeName.length_child (t : TypeName) (name : String) :
    (t.child name).text.length = t.text.length + 1 + name.length := by
  rw [child, String.length_append, String.length_append]
  rfl

namespace Member

/-- The enumeration that a member is, at the place where it stands. -/
def placedOwn (scope : TypeName) : Member → List (List Nat × TypeName × Enumeration)
  | .enumeration e => [([], scope.child e.name, e)]
  | .field _ | .oneOf _ | .message _ _ | .option _ | .reserved _ => []

mutual

/-- The enumerations of the message that a member declares, with their places in it. -/
def placed (scope : TypeName) : Member → List (List Nat × TypeName × Enumeration)
  | .message name members =>
    spread (placedOwn (scope.child name)) 0 members ++ placedNested (scope.child name) 0 members
  | .field _ | .oneOf _ | .enumeration _ | .option _ | .reserved _ => []

def placedNested (scope : TypeName) (i : Nat) :
    List Member → List (List Nat × TypeName × Enumeration)
  | [] => []
  | m :: ms => ((m.placed scope).map fun e => (i :: e.1, e.2)) ++ placedNested scope (i + 1) ms

end

/-- The enumerations among the members of a message at every level, with their places. -/
def placedIn (scope : TypeName) (ms : List Member) : List (List Nat × TypeName × Enumeration) :=
  spread (placedOwn scope) 0 ms ++ spread (placed scope) 0 ms

theorem placedNested_eq (scope : TypeName) (i : Nat) (ms : List Member) :
    placedNested scope i ms = spread (placed scope) i ms := by
  induction ms generalizing i with
  | nil => rfl
  | cons m ms ih => rw [placedNested, spread, ih]

theorem placed_message (scope : TypeName) (name : String) (members : List Member) :
    (message name members).placed scope = placedIn (scope.child name) members := by
  rw [placed, placedIn, placedNested_eq]

theorem map_snd_placedOwn (scope : TypeName) (ms : List Member) :
    (spread (placedOwn scope) 0 ms).map Prod.snd = ownEnumerations scope ms := by
  rw [map_snd_spread, ownEnumerations, List.filterMap_eq_flatMap_toList]
  congr 1
  funext m
  cases m <;> rfl

mutual

theorem map_snd_placed (scope : TypeName) :
    ∀ m : Member, (m.placed scope).map Prod.snd = m.enumerations scope
  | .message name members => by
    rw [placed_message, placedIn, List.map_append, map_snd_placedOwn,
      map_snd_placed_list (scope.child name) members, enumerations]
  | .field _ | .oneOf _ | .enumeration _ | .option _ | .reserved _ => rfl

theorem map_snd_placed_list (scope : TypeName) :
    ∀ ms : List Member, (spread (placed scope) 0 ms).map Prod.snd = nestedEnumerations scope ms
  | [] => rfl
  | m :: ms => by
    rw [map_snd_spread, List.flatMap_cons, map_snd_placed scope m, nestedEnumerations,
      ← map_snd_placed_list scope ms, map_snd_spread]

end

variable {scope : TypeName} {m : Member} {ms : List Member} {p q path : List Nat}
  {v w : TypeName × Enumeration}

theorem enumerationAt?_cons_eq_some_iff {i : Nat} :
    enumerationAt? scope ms (i :: path) = some v ↔
      (∃ e, ms[i]? = some (.enumeration e) ∧ path = [] ∧ v = (scope.child e.name, e)) ∨
        ∃ name members, ms[i]? = some (.message name members) ∧
          enumerationAt? (scope.child name) members path = some v := by
  rw [enumerationAt?]
  cases ms[i]? with
  | none => simp
  | some m =>
    cases m with
    | enumeration e => simp [eq_comm]
    | message name members =>
      refine ⟨fun h => .inr ⟨name, members, rfl, h⟩, ?_⟩
      rintro (⟨_, ⟨⟩, _⟩ | ⟨_, _, ⟨⟩, h⟩)
      exact h
    | _ => simp

theorem mem_placedOwn :
    (path, v) ∈ m.placedOwn scope ↔
      ∃ e, m = .enumeration e ∧ path = [] ∧ v = (scope.child e.name, e) := by
  cases m with
  | enumeration e => simp [placedOwn]
  | _ => simp [placedOwn]

theorem mem_placed :
    (path, v) ∈ m.placed scope ↔
      ∃ name members, m = .message name members ∧
        (path, v) ∈ placedIn (scope.child name) members := by
  cases m with
  | message name members =>
    rw [placed_message]
    refine ⟨fun h => ⟨name, members, rfl, h⟩, ?_⟩
    rintro ⟨_, _, ⟨⟩, h⟩
    exact h
  | _ => simp [placed]

/-- What is placed is what stands there. -/
theorem mem_placedIn : (path, v) ∈ placedIn scope ms ↔ enumerationAt? scope ms path = some v := by
  induction path generalizing scope ms with
  | nil => simp [placedIn, mem_spread, enumerationAt?]
  | cons i path ih =>
    rw [placedIn, List.mem_append, mem_spread_zero, mem_spread_zero,
      enumerationAt?_cons_eq_some_iff]
    simp only [mem_placedOwn, mem_placed, ih]
    refine or_congr ⟨?_, ?_⟩ ⟨?_, ?_⟩
    · rintro ⟨_, hm, e, rfl, h⟩
      exact ⟨e, hm, h⟩
    · rintro ⟨e, hm, h⟩
      exact ⟨_, hm, e, rfl, h⟩
    · rintro ⟨_, hm, name, members, rfl, h⟩
      exact ⟨name, members, hm, h⟩
    · rintro ⟨name, members, hm, h⟩
      exact ⟨_, hm, name, members, rfl, h⟩

theorem exists_cons_of_mem_placed (h : (path, v) ∈ m.placed scope) : ∃ l p, path = l :: p := by
  obtain ⟨name, members, _, h⟩ := mem_placed.1 h
  cases path with
  | nil => cases mem_placedIn.1 h
  | cons l p => exact ⟨l, p, rfl⟩

theorem pairwise_spread_placedOwn (scope : TypeName) (ms : List Member) :
    (spread (placedOwn scope) 0 ms).Pairwise fun e e' => ListedFirst e.1 e'.1 := by
  refine pairwise_spread (fun _ _ => False) ?_ (fun _ _ _ _ _ _ => False.elim) ?_ 0
  · intro m _
    cases m <;> simp [placedOwn]
  · rintro i j m m' hij ⟨p, v⟩ he ⟨q, w⟩ he'
    obtain ⟨_, _, rfl, _⟩ := mem_placedOwn.1 he
    obtain ⟨_, _, rfl, _⟩ := mem_placedOwn.1 he'
    exact hij

theorem pairwise_spread_placed
    (h : ∀ m ∈ ms, (m.placed scope).Pairwise fun e e' => ListedFirst e.1 e'.1) :
    (spread (placed scope) 0 ms).Pairwise fun e e' => ListedFirst e.1 e'.1 := by
  refine pairwise_spread ListedFirst h ?_ ?_ 0
  · rintro i m ⟨p, v⟩ he ⟨q, w⟩ he' hfirst
    obtain ⟨k, p, rfl⟩ := exists_cons_of_mem_placed he
    obtain ⟨l, q, rfl⟩ := exists_cons_of_mem_placed he'
    exact .inr ⟨rfl, hfirst⟩
  · rintro i j m m' hij ⟨p, v⟩ he ⟨q, w⟩ he'
    obtain ⟨k, p, rfl⟩ := exists_cons_of_mem_placed he
    obtain ⟨l, q, rfl⟩ := exists_cons_of_mem_placed he'
    exact .inl hij

theorem listedFirst_of_mem (hp : (p, v) ∈ spread (placedOwn scope) 0 ms)
    (hq : (q, w) ∈ spread (placed scope) 0 ms) : ListedFirst p q := by
  obtain ⟨i, m, p, hm, rfl, hown⟩ := mem_spread.1 hp
  obtain ⟨j, m', q, hm', rfl, hnested⟩ := mem_spread.1 hq
  obtain ⟨l, q, rfl⟩ := exists_cons_of_mem_placed hnested
  obtain ⟨e, rfl, rfl, _⟩ := mem_placedOwn.1 hown
  obtain ⟨name, members, rfl, _⟩ := mem_placed.1 hnested
  -- a member is not both an enumeration and a message
  intro hij
  rw [Nat.zero_add, Nat.zero_add] at hij
  rw [hij, hm'] at hm
  cases hm

theorem pairwise_placedIn_of_forall
    (h : ∀ m ∈ ms, (m.placed scope).Pairwise fun e e' => ListedFirst e.1 e'.1) :
    (placedIn scope ms).Pairwise fun e e' => ListedFirst e.1 e'.1 :=
  List.pairwise_append.2 ⟨pairwise_spread_placedOwn scope ms, pairwise_spread_placed h,
    fun _ hp _ hq => listedFirst_of_mem hp hq⟩

mutual

theorem pairwise_placed (scope : TypeName) :
    ∀ m : Member, (m.placed scope).Pairwise fun e e' => ListedFirst e.1 e'.1
  | .message name members => by
    rw [placed_message]
    exact pairwise_placedIn_of_forall (pairwise_placed_list (scope.child name) members)
  | .field _ | .oneOf _ | .enumeration _ | .option _ | .reserved _ => .nil

theorem pairwise_placed_list (scope : TypeName) :
    ∀ ms : List Member, ∀ m ∈ ms, (m.placed scope).Pairwise fun e e' => ListedFirst e.1 e'.1
  | [] => fun _ h => nomatch h
  | m :: ms =>
    List.forall_mem_cons.2 ⟨pairwise_placed scope m, pairwise_placed_list scope ms⟩

end

theorem pairwise_placedIn (scope : TypeName) (ms : List Member) :
    (placedIn scope ms).Pairwise fun e e' => ListedFirst e.1 e'.1 :=
  pairwise_placedIn_of_forall (pairwise_placed_list scope ms)

theorem listedFirst_irrefl : ∀ p : List Nat, ¬ ListedFirst p p
  | [] => id
  | [i] => Nat.lt_irrefl i
  | i :: k :: p => by
    rintro (hi | ⟨_, h⟩)
    · exact Nat.lt_irrefl i hi
    · exact listedFirst_irrefl (k :: p) h

theorem not_listedFirst_own (way : List Nat) (own nested l : Nat) (path : List Nat) :
    ¬ ListedFirst (way ++ nested :: l :: path) (way ++ [own]) := by
  induction way with
  | nil => exact id
  | cons k way ih =>
    cases way with
    | nil => exact fun h => h.elim (Nat.lt_irrefl k) fun h => ih h.2
    | cons k' way => exact fun h => h.elim (Nat.lt_irrefl k) fun h => ih h.2

/-- What is listed first comes first, unless it is an enumeration of a message that stands behind a
message in the same one. -/
theorem precedes_or_of_listedFirst : ∀ {p q : List Nat}, ListedFirst p q →
    Precedes p q ∨ ∃ (way : List Nat) (own nested l : Nat) (path : List Nat),
      p = way ++ [own] ∧ q = way ++ nested :: l :: path ∧ nested < own
  | [i], [j], h => .inl (.inl h)
  | [i], j :: l :: path, h => by
    obtain hij | hji := Nat.lt_or_gt_of_ne h
    · exact .inl (.inl hij)
    · exact .inr ⟨[], i, j, l, path, rfl, rfl, hji⟩
  | i :: k :: p, j :: l :: q, h => by
    obtain hij | ⟨rfl, h⟩ := h
    · exact .inl (.inl hij)
    · obtain h | ⟨way, own, nested, l', path, hp, hq, hlt⟩ := precedes_or_of_listedFirst h
      · exact .inl (.inr ⟨rfl, h⟩)
      · exact .inr ⟨i :: way, own, nested, l', path, by rw [hp]; rfl, by rw [hq]; rfl, hlt⟩

/-- A full name has a dot for every level. -/
theorem length_le_of_enumerationAt? (h : enumerationAt? scope ms path = some v) :
    scope.text.length + path.length + v.2.name.length ≤ v.1.text.length := by
  induction path generalizing scope ms with
  | nil => cases h
  | cons i path ih =>
    obtain ⟨e, _, rfl, rfl⟩ | ⟨name, members, _, h⟩ := enumerationAt?_cons_eq_some_iff.1 h
    · exact Nat.le_of_eq (scope.length_child e.name).symm
    · have hlength := ih h
      rw [TypeName.length_child] at hlength
      rw [List.length_cons]
      omega

/-- Where the listing departs from the source, the two enumerations have different names. -/
theorem enumerationAt?_ne (hv : enumerationAt? scope ms p = some v)
    (hw : enumerationAt? scope ms q = some w) (hpq : Precedes p q) (hqp : ListedFirst q p) :
    v ≠ w := by
  induction p generalizing scope ms q with
  | nil => cases hv
  | cons i p ih =>
    cases q with
    | nil => cases hw
    | cons j q =>
      obtain ⟨_, _, rfl, _⟩ | ⟨name, members, hi, hv⟩ := enumerationAt?_cons_eq_some_iff.1 hv
      · -- both stand in the message itself, where the listing follows the source
        cases q with
        | nil =>
          obtain hij | ⟨_, h⟩ := hpq
          · exact (Nat.lt_asymm hij hqp).elim
          · exact h.elim
        | cons l q => exact hqp.elim
      · cases p with
        | nil => cases hv
        | cons k p =>
          obtain ⟨e, _, rfl, rfl⟩ | ⟨name', members', hj, hw⟩ :=
            enumerationAt?_cons_eq_some_iff.1 hw
          · rintro rfl
            have hlength := length_le_of_enumerationAt? hv
            rw [TypeName.length_child, TypeName.length_child, List.length_cons] at hlength
            dsimp only at hlength
            omega
          · cases q with
            | nil => cases hw
            | cons l q =>
              obtain ⟨rfl, hpq, hqp⟩ := position_eq hpq hqp
              rw [hi] at hj
              cases hj
              exact ih hv hw hpq hqp

end Member

theorem lt_of_precedes_own {way : List Nat} {own nested : Nat} {path : List Nat}
    (h : Precedes (way ++ [own]) (way ++ nested :: path)) : own < nested := by
  induction way with
  | nil => exact h.elim id fun h => h.2.elim
  | cons k way ih => exact h.elim (fun h => (Nat.lt_irrefl k h).elim) fun h => ih h.2

namespace Definition

/-- The enumerations of a definition, with their places in it. -/
def placed : Definition → List (List Nat × TypeName × Enumeration)
  | .message m => Member.placedIn ⟨m.name⟩ m.members
  | .enumeration e => [([], ⟨e.name⟩, e)]
  | .service _ => []

theorem mem_placed {d : Definition} {path : List Nat} {v : TypeName × Enumeration} :
    (path, v) ∈ d.placed ↔ d.enumerationAt? path = some v := by
  cases d with
  | message m => exact Member.mem_placedIn
  | enumeration e =>
    cases path with
    | nil => simp [placed, enumerationAt?, eq_comm]
    | cons i path => simp [placed, enumerationAt?]
  | service d => simp [placed, enumerationAt?]

theorem map_snd_placed (d : Definition) : d.placed.map Prod.snd = d.enumerations := by
  cases d with
  | message m =>
    rw [placed, Member.placedIn, List.map_append, Member.map_snd_placedOwn,
      Member.map_snd_placed_list, enumerations]
  | enumeration e => rfl
  | service d => rfl

theorem pairwise_placed (d : Definition) :
    d.placed.Pairwise fun e e' => Member.ListedFirst e.1 e'.1 := by
  cases d with
  | message m => exact Member.pairwise_placedIn ⟨m.name⟩ m.members
  | enumeration e => exact List.pairwise_singleton _ _
  | service d => exact .nil

end Definition

namespace Schema

variable {s : Schema} {p q : List Nat}

/-- All enumerations with their places, in the order in which they are listed. -/
def placed (s : Schema) : List (List Nat × TypeName × Enumeration) :=
  spread Definition.placed 0 s.definitions

theorem enumerationAt?_cons_eq_some_iff {i : Nat} {v : TypeName × Enumeration} :
    s.enumerationAt? (i :: p) = some v ↔
      ∃ d, s.definitions[i]? = some d ∧ d.enumerationAt? p = some v :=
  Option.bind_eq_some_iff

theorem mem_placed {v : TypeName × Enumeration} :
    (p, v) ∈ s.placed ↔ s.enumerationAt? p = some v := by
  cases p with
  | nil => simp [placed, mem_spread, enumerationAt?]
  | cons i p =>
    rw [placed, mem_spread_zero, enumerationAt?_cons_eq_some_iff]
    simp only [Definition.mem_placed]

theorem map_snd_placed (s : Schema) : s.placed.map Prod.snd = s.enumerations := by
  rw [placed, map_snd_spread, enumerations]
  simp only [Definition.map_snd_placed]

theorem pairwise_placed (s : Schema) : s.placed.Pairwise fun e e' => ListedFirst e.1 e'.1 :=
  pairwise_spread Member.ListedFirst (fun d _ => d.pairwise_placed)
    (fun _ _ _ _ _ _ h => .inr ⟨rfl, h⟩) (fun _ _ _ _ hij _ _ _ _ => .inl hij) 0

theorem listedFirst_irrefl (p : List Nat) : ¬ ListedFirst p p := by
  cases p with
  | nil => exact id
  | cons i p =>
    rintro (hi | ⟨_, h⟩)
    · exact Nat.lt_irrefl i hi
    · exact Member.listedFirst_irrefl p h

/-- The listing has every enumeration once, each message with its own enumerations first. -/
theorem lists_enumerations (s : Schema) :
    s.Lists ListedFirst s.enumerations (s.placed.map Prod.fst) := by
  have hordered : (s.placed.map Prod.fst).Pairwise ListedFirst :=
    List.pairwise_map.2 s.pairwise_placed
  refine ⟨?_, ?_, ?_, hordered⟩
  · rw [← map_snd_placed, List.map_map, List.map_map]
    exact List.map_congr_left fun e he => mem_placed.1 he
  · intro p hp
    obtain ⟨v, hv⟩ := Option.isSome_iff_exists.1 hp
    exact List.mem_map.2 ⟨(p, v), mem_placed.2 hv, rfl⟩
  · apply hordered.imp
    rintro p q h rfl
    exact listedFirst_irrefl p h

theorem Lists.mem_iff {first : List Nat → List Nat → Prop} {es : List (TypeName × Enumeration)}
    {places : List (List Nat)} (h : s.Lists first es places) :
    p ∈ places ↔ (s.enumerationAt? p).isSome := by
  refine ⟨?_, h.complete p⟩
  intro hp
  have hv : s.enumerationAt? p ∈ es.map some := h.entries ▸ List.mem_map_of_mem hp
  obtain ⟨v, _, hv⟩ := List.mem_map.1 hv
  exact Option.isSome_iff_exists.2 ⟨v, hv.symm⟩

theorem enumerationAt?_ne (hp : (s.enumerationAt? p).isSome) (hq : (s.enumerationAt? q).isSome)
    (hpq : Precedes p q) (hqp : ListedFirst q p) : s.enumerationAt? p ≠ s.enumerationAt? q := by
  obtain ⟨v, hv⟩ := Option.isSome_iff_exists.1 hp
  obtain ⟨w, hw⟩ := Option.isSome_iff_exists.1 hq
  cases p with
  | nil => cases hv
  | cons i p =>
    cases q with
    | nil => cases hw
    | cons j q =>
      obtain ⟨d, hi, hd⟩ := enumerationAt?_cons_eq_some_iff.1 hv
      obtain ⟨d', hj, hd'⟩ := enumerationAt?_cons_eq_some_iff.1 hw
      obtain ⟨rfl, hpq, hqp⟩ := position_eq hpq hqp
      rw [hi] at hj
      cases hj
      rw [hv, hw, ne_eq, Option.some.injEq]
      cases d with
      | message m => exact Member.enumerationAt?_ne hd hd' hpq hqp
      | enumeration e =>
        cases p with
        | nil => exact hpq.elim
        | cons k p => cases hd
      | service d => cases hd

/-- A listing in the order of the source has its places in both orders. -/
theorem Lists.listedFirst {places : List (List Nat)}
    (h : s.Lists Precedes s.enumerations places) : places.Pairwise ListedFirst := by
  have hs := s.lists_enumerations
  have heq : places = s.placed.map Prod.fst := by
    refine eq_of_map_eq h.ordered hs.ordered h.once hs.once
      (fun p => h.mem_iff.trans hs.mem_iff.symm) (h.entries.trans hs.entries.symm) ?_
    exact fun p hp q hq => enumerationAt?_ne (h.mem_iff.1 hp) (h.mem_iff.1 hq)
  rw [heq]
  exact hs.ordered

theorem ownEnumerationsLead_of_lists {places : List (List Nat)}
    (h : s.Lists Precedes s.enumerations places) : s.OwnEnumerationsLead := by
  intro k way own nested l path hown hnested
  have hne : k :: way ++ [own] ≠ k :: way ++ nested :: l :: path := by simp
  obtain ⟨hfirst, _⟩ | ⟨_, hlisted⟩ :=
    rel_or_rel (h.ordered.and h.listedFirst) (h.complete _ hown) (h.complete _ hnested) hne
  · exact lt_of_precedes_own hfirst
  · obtain hk | ⟨_, hlisted⟩ := hlisted
    · exact (Nat.lt_irrefl k hk).elim
    · exact (Member.not_listedFirst_own way own nested l path hlisted).elim

theorem OwnEnumerationsLead.precedes (h : s.OwnEnumerationsLead)
    (hp : (s.enumerationAt? p).isSome) (hq : (s.enumerationAt? q).isSome)
    (hpq : ListedFirst p q) : Precedes p q := by
  cases p with
  | nil => cases hp
  | cons i p =>
    cases q with
    | nil => cases hq
    | cons j q =>
      obtain hij | ⟨rfl, hpq⟩ := hpq
      · exact .inl hij
      · obtain hpq | ⟨way, own, nested, l, path, rfl, rfl, hlt⟩ :=
          Member.precedes_or_of_listedFirst hpq
        · exact .inr ⟨rfl, hpq⟩
        · exact (Nat.lt_asymm hlt (h i way own nested l path hp hq)).elim

/-- The listing is in the order of the source exactly if all own enumerations lead. -/
theorem lists_precedes_iff (s : Schema) :
    (∃ places, s.Lists Precedes s.enumerations places) ↔ s.OwnEnumerationsLead := by
  refine ⟨fun ⟨_, h⟩ => ownEnumerationsLead_of_lists h, ?_⟩
  intro h
  have hs := s.lists_enumerations
  refine ⟨s.placed.map Prod.fst, hs.entries, hs.complete, hs.once, ?_⟩
  apply hs.ordered.imp_of_mem
  intro p q hp hq hpq
  exact h.precedes (hs.mem_iff.1 hp) (hs.mem_iff.1 hq) hpq

/-- Every enumeration is listed once under its full name, each message with its own enumerations
before those of the messages in it. This is the order of the source exactly if in every message the
enumerations of its own stand before the messages that have some in them. -/
theorem enumerations_listed (s : Schema) :
    (∃ places, s.Lists ListedFirst s.enumerations places) ∧
    ((∃ places, s.Lists Precedes s.enumerations places) ↔ s.OwnEnumerationsLead) :=
  ⟨⟨_, s.lists_enumerations⟩, s.lists_precedes_iff⟩

/-- A message with an enumeration behind a message that has one in it. -/
def trailing : Schema where
  definitions := [.message ⟨"Order", [
    .message "Item" [.enumeration ⟨"Kind", [.value { name := "NONE", tag := 0 }]⟩],
    .enumeration ⟨"Status", [.value { name := "OPEN", tag := 0 }]⟩]⟩]

theorem trailing_not_in_source_order :
    ¬ ∃ places, trailing.Lists Precedes trailing.enumerations places := by
  rw [lists_precedes_iff]
  intro h
  have hlt : 1 < 0 := h 0 [] 1 0 0 [] rfl rfl
  exact absurd hlt (by decide)

end Schema

end WireModel
