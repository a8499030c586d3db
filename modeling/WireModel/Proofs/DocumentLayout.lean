import Mathlib.Logic.Relation
import WireModel.Proofs.DocumentRoom
import WireModel.Proofs.JsonSpacing

namespace WireModel

open Json (Value Text)

/-- One change to the layout of a value with a form: the members of a record in another order, a
default left out, a member under an unknown key, or such a change in a part of the value. -/
inductive Form.Edit : Form → Value → Value → Prop
  | reorder {f : Form} (hf : f.slots ≠ []) {ms ms' : List (Text × Value)} (h : ms.Perm ms') :
    Edit f (.object ms) (.object ms')
  | leaveOut {f t : Form} {key : String} {u : Value} (h : ⟨key, some u, t⟩ ∈ f.slots)
    (as bs : List (Text × Value)) :
    Edit f (.object (as ++ (some key, u) :: bs)) (.object (as ++ bs))
  | insert {f : Form} (hf : f.slots ≠ []) {key : String} (hkey : key ∉ f.keys) {u : Value}
    (hu : u.IsSound) (as bs : List (Text × Value)) :
    Edit f (.object (as ++ bs)) (.object (as ++ (some key, u) :: bs))
  | member {f : Form} {s : Slot} (hs : s ∈ f.slots) {u u' : Value} (h : Edit s.form u u')
    (as bs : List (Text × Value)) :
    Edit f (.object (as ++ (some s.key, u) :: bs)) (.object (as ++ (some s.key, u') :: bs))
  | position {f : Form} {s : Slot} {as : List Value} (hs : f.slots[as.length]? = some s)
    {u u' : Value} (h : Edit s.form u u') (bs : List Value) :
    Edit f (.array (as ++ u :: bs)) (.array (as ++ u' :: bs))
  | payload {f t : Form} {tag : String} (ht : f.variants.lookup tag = some t) {u u' : Value}
    (h : Edit t u u') : Edit f (.variant tag u) (.variant tag u')
  | item {t : Form} {u u' : Value} (h : Edit t u u') (as bs : List Value) :
    Edit (.list t) (.array (as ++ u :: bs)) (.array (as ++ u' :: bs))

namespace Json.Value

variable {ms ms' as bs : List (Text × Value)} {k : Text}

theorem lookup_eq_head?_filter (k : Text) (ms : List (Text × Value)) :
    ms.lookup k = ((ms.filter fun m => m.1 == k).head?).map Prod.snd := by
  induction ms with
  | nil => rfl
  | cons m ms ih =>
    obtain ⟨key, u⟩ := m
    by_cases h : key = k
    · subst h
      rw [List.lookup_cons_self, List.filter_cons_of_pos (by simp)]
      rfl
    · rw [List.lookup_cons, beq_eq_false_iff_ne.2 (Ne.symm h), ih,
        List.filter_cons_of_neg (by simpa using h)]

theorem lookup_perm (h : ms.Perm ms') (hone : (ms.filter fun m => m.1 == k).length ≤ 1) :
    ms.lookup k = ms'.lookup k := by
  have hfilter := h.filter fun m => m.1 == k
  rw [lookup_eq_head?_filter, lookup_eq_head?_filter]
  generalize (ms.filter fun m => m.1 == k) = xs, (ms'.filter fun m => m.1 == k) = ys at hone hfilter
  cases xs with
  | nil => rw [List.nil_perm.1 hfilter]
  | cons m rest =>
    cases List.eq_nil_of_length_eq_zero (Nat.le_zero.1 (Nat.le_of_succ_le_succ hone))
    rw [List.singleton_perm.1 hfilter]

theorem lookup_insert_of_ne {key : Text} (h : key ≠ k) (u : Value) :
    (as ++ (key, u) :: bs).lookup k = (as ++ bs).lookup k := by
  rw [lookup_eq_head?_filter, lookup_eq_head?_filter, List.filter_append, List.filter_append,
    List.filter_cons_of_neg (by simpa using h)]

theorem filter_insert_of_ne {key : Text} (h : key ≠ k) (u : Value) :
    ((as ++ (key, u) :: bs).filter fun m => m.1 == k) = (as ++ bs).filter fun m => m.1 == k := by
  rw [List.filter_append, List.filter_append, List.filter_cons_of_neg (by simpa using h)]

/-- A key that stands only once leads to what is under it. -/
theorem lookup_of_once {u : Value}
    (h : ((as ++ (k, u) :: bs).filter fun m => m.1 == k).length ≤ 1) :
    (as ++ (k, u) :: bs).lookup k = some u ∧ ((as ++ bs).filter fun m => m.1 == k) = [] := by
  rw [List.filter_append, List.filter_cons_of_pos (by simp), List.length_append,
    List.length_cons] at h
  have has : (as.filter fun m => m.1 == k) = [] := List.eq_nil_of_length_eq_zero (by omega)
  have hbs : (bs.filter fun m => m.1 == k) = [] := List.eq_nil_of_length_eq_zero (by omega)
  rw [lookup_eq_head?_filter, List.filter_append, List.filter_append, has, hbs,
    List.filter_cons_of_pos (by simp)]
  exact ⟨rfl, rfl⟩

theorem fields?_object_eq_some_iff {keys : List String} {xs : List (Option Value)} :
    (object ms).fields? keys = some xs ↔ (∀ m ∈ ms, m.1.isSome = true) ∧
      (∀ key ∈ keys, (ms.filter fun m => m.1 == some key).length ≤ 1) ∧
        xs = keys.map fun key => ms.lookup (some key) := by
  have hcond : (ms.all (fun m => m.1.isSome) = true ∧ keys.all (fun key =>
      (ms.filter fun m => m.1 == some key).length ≤ 1) = true) ↔ (∀ m ∈ ms, m.1.isSome = true) ∧
        ∀ key ∈ keys, (ms.filter fun m => m.1 == some key).length ≤ 1 := by
    simp only [List.all_eq_true, decide_eq_true_eq]
  rw [fields?]
  split
  · next h =>
    obtain ⟨hkey, hone⟩ := hcond.1 h
    rw [Option.some.injEq, eq_comm]
    exact ⟨fun hxs => ⟨hkey, hone, hxs⟩, fun hxs => hxs.2.2⟩
  · next h =>
    refine iff_of_false (by simp) ?_
    intro hxs
    exact h (hcond.2 ⟨hxs.1, hxs.2.1⟩)

/-- Every member after an edit is new and sound, or comes from one under the same key and is sound
if that one is. -/
def Stems (ms ms' : List (Text × Value)) : Prop :=
  ∀ m' ∈ ms', m'.1.isSome = true ∧ m'.2.IsSound ∨
    ∃ m ∈ ms, m.1 = m'.1 ∧ (m.2.IsSound → m'.2.IsSound)

theorem stems_of_subset (h : ms' ⊆ ms) : Stems ms ms' :=
  fun m hm => .inr ⟨m, h hm, rfl, id⟩

theorem stems_leaveOut {m : Text × Value} : Stems (as ++ m :: bs) (as ++ bs) :=
  stems_of_subset ((List.sublist_cons_self m bs).append_left as).subset

theorem stems_insert {key : String} {u : Value} (hu : u.IsSound) :
    Stems (as ++ bs) (as ++ (some key, u) :: bs) := by
  intro m hm
  rcases List.mem_cons.1 (List.perm_middle.mem_iff.1 hm) with rfl | hm
  · exact .inl ⟨rfl, hu⟩
  · exact .inr ⟨m, hm, rfl, id⟩

theorem stems_member {u u' : Value} (hu : u.IsSound → u'.IsSound) :
    Stems (as ++ (k, u) :: bs) (as ++ (k, u') :: bs) := by
  intro m hm
  rcases List.mem_cons.1 (List.perm_middle.mem_iff.1 hm) with rfl | hm
  · exact .inr ⟨(k, u), List.perm_middle.mem_iff.2 List.mem_cons_self, rfl, hu⟩
  · exact .inr ⟨m, List.perm_middle.mem_iff.2 (List.mem_cons_of_mem _ hm), rfl, id⟩

theorem Stems.isSome (h : Stems ms ms') (hkey : ∀ m ∈ ms, m.1.isSome = true) :
    ∀ m ∈ ms', m.1.isSome = true := by
  intro m' hm'
  rcases h m' hm' with ⟨hsome, _⟩ | ⟨m, hm, heq, _⟩
  · exact hsome
  · rw [← heq]
    exact hkey m hm

theorem Stems.isSound (h : Stems ms ms') (hv : (object ms).IsSound) : (object ms').IsSound := by
  cases hv with
  | object hkey hsound =>
    apply IsSound.object (h.isSome hkey)
    intro m' hm'
    rcases h m' hm' with ⟨_, hu⟩ | ⟨m, hm, _, hu⟩
    · exact hu
    · exact hu (hsound m hm)

/-- A field whose members are readable stays so, with enough room. -/
theorem Stems.areReadable {r r' : Nat} (h : Stems ms ms') (hroom : (object ms').nesting ≤ r' + 1)
    (hread : Field.areReadable r ms = true) : Field.areReadable r' ms' = true := by
  rw [nesting, Nat.add_le_add_iff_right, memberNesting_le_iff] at hroom
  rw [Field.areReadable, List.all_eq_true] at hread ⊢
  intro m' hm'
  rw [Bool.or_eq_true, isReadable_iff]
  rcases h m' hm' with ⟨_, hu⟩ | ⟨m, hm, heq, hu⟩
  · exact .inr ⟨hu, hroom m' hm'⟩
  · have hm := hread m hm
    rw [Bool.or_eq_true, isReadable_iff, heq] at hm
    exact hm.imp_right fun hsound => ⟨hu hsound.1, hroom m' hm'⟩

end Json.Value

namespace Form

variable {f : Form} {r r' : Nat} {ms ms' as bs : List (Text × Value)}

theorem slotsCarry_map {ss : List Slot} {g g' : Slot → Option Value}
    (h : ∀ s ∈ ss, s.Carries r r' (g s) (g' s)) : SlotsCarry r r' ss (ss.map g) (ss.map g') := by
  apply slotsCarry_of_getElem? (List.length_map g) (List.length_map g')
  intro i s x x' hs hx hx'
  rw [List.getElem?_map, hs] at hx hx'
  cases hx
  cases hx'
  exact h s (List.mem_of_getElem? hs)

/-- What has to be shown of two objects for their keys to be carried over. -/
theorem carriesSlots_object (h : Value.Stems ms ms')
    (hslot : ∀ s ∈ f.slots, (ms.filter fun m => m.1 == some s.key).length ≤ 1 →
      (ms'.filter fun m => m.1 == some s.key).length ≤ 1 ∧
        s.Carries r r' (ms.lookup (some s.key)) (ms'.lookup (some s.key))) :
    f.CarriesSlots r r' (.object ms) (.object ms') := by
  intro xs hxs
  obtain ⟨hkey, hone, rfl⟩ := Value.fields?_object_eq_some_iff.1 hxs
  have honce : ∀ s ∈ f.slots, (ms.filter fun m => m.1 == some s.key).length ≤ 1 :=
    fun s hs => hone s.key (List.mem_map_of_mem hs)
  refine ⟨f.keys.map fun key => ms'.lookup (some key), ?_, ?_⟩
  · refine Value.fields?_object_eq_some_iff.2 ⟨h.isSome hkey, ?_, rfl⟩
    intro key hk
    obtain ⟨s, hs, rfl⟩ := List.mem_map.1 hk
    exact (hslot s hs (honce s hs)).1
  · rw [keys, List.map_map, List.map_map]
    exact slotsCarry_map fun s hs => (hslot s hs (honce s hs)).2

theorem slot_carries_self (s : Slot) (a : Option Value) (h : r ≤ r') : s.Carries r r' a a := by
  cases a with
  | none => exact .absent
  | some u => exact .present (carries_self s.form u (.inl h))

theorem nodup_keys (f : Form) : f.keys.Nodup := by
  cases f <;> simp [keys, slots, named]

theorem slot_eq {s t : Slot} (hs : s ∈ f.slots) (ht : t ∈ f.slots) (h : s.key = t.key) : s = t :=
  List.inj_on_of_nodup_map f.nodup_keys hs ht h

theorem carriesSlots_reorder (h : ms.Perm ms') (hr : r ≤ r') :
    f.CarriesSlots r r' (.object ms) (.object ms') := by
  apply carriesSlots_object (Value.stems_of_subset h.symm.subset)
  intro s _ hone
  rw [← (h.filter _).length_eq, ← Value.lookup_perm h hone]
  exact ⟨hone, slot_carries_self s _ hr⟩

theorem carriesSlots_leaveOut {key : String} {u : Value} {t : Form}
    (ht : ⟨key, some u, t⟩ ∈ f.slots) (hr : r ≤ r') :
    f.CarriesSlots r r' (.object (as ++ (some key, u) :: bs)) (.object (as ++ bs)) := by
  apply carriesSlots_object Value.stems_leaveOut
  intro s hs hone
  by_cases hk : s.key = key
  · cases slot_eq hs ht hk
    obtain ⟨hlookup, hfilter⟩ := Value.lookup_of_once hone
    rw [hlookup, Value.lookup_eq_head?_filter, hfilter]
    exact ⟨Nat.zero_le 1, .omitted rfl⟩
  · have hne : some key ≠ some s.key := fun h => hk (Option.some.inj h).symm
    rw [Value.filter_insert_of_ne hne] at hone
    rw [Value.lookup_insert_of_ne hne]
    exact ⟨hone, slot_carries_self s _ hr⟩

theorem carriesSlots_insert {key : String} (hkey : key ∉ f.keys) {u : Value} (hu : u.IsSound)
    (hr : r ≤ r') :
    f.CarriesSlots r r' (.object (as ++ bs)) (.object (as ++ (some key, u) :: bs)) := by
  apply carriesSlots_object (Value.stems_insert hu)
  intro s hs hone
  have hne : some key ≠ some s.key := by
    intro h
    cases h
    exact hkey (List.mem_map_of_mem hs)
  rw [Value.filter_insert_of_ne hne, Value.lookup_insert_of_ne hne]
  exact ⟨hone, slot_carries_self s _ hr⟩

theorem carriesSlots_member {t : Slot} (ht : t ∈ f.slots) {u u' : Value}
    (hu : u.IsSound → u'.IsSound) (h : t.form.Carries r r' u u') (hr : r ≤ r') :
    f.CarriesSlots r r' (.object (as ++ (some t.key, u) :: bs))
      (.object (as ++ (some t.key, u') :: bs)) := by
  apply carriesSlots_object (Value.stems_member hu)
  intro s hs hone
  by_cases hk : s.key = t.key
  · have hone' : ((as ++ (some t.key, u') :: bs).filter fun m => m.1 == some t.key).length ≤ 1 := by
      rw [hk, List.filter_append, List.filter_cons_of_pos (by simp)] at hone
      rw [List.filter_append, List.filter_cons_of_pos (by simp)]
      simpa using hone
    cases slot_eq hs ht hk
    rw [(Value.lookup_of_once hone).1, (Value.lookup_of_once hone').1]
    exact ⟨hone', .present h⟩
  · have hne : some t.key ≠ some s.key := fun h => hk (Option.some.inj h).symm
    rw [Value.filter_insert_of_ne hne] at hone
    rw [Value.filter_insert_of_ne hne, Value.lookup_insert_of_ne hne,
      Value.lookup_insert_of_ne hne]
    exact ⟨hone, slot_carries_self s _ hr⟩

theorem carriesSlots_position {t : Slot} {us ws : List Value}
    (ht : f.slots[us.length]? = some t) {u u' : Value} (h : t.form.Carries r r' u u')
    (hr : r ≤ r') :
    f.CarriesSlots r r' (.array (us ++ u :: ws)) (.array (us ++ u' :: ws)) := by
  intro xs hxs
  have hlen : (us ++ u' :: ws).length = (us ++ u :: ws).length := by simp
  rw [Value.fields?] at hxs
  split at hxs
  · next hle =>
    cases hxs
    refine ⟨f.keys.mapIdx fun i _ => (us ++ u' :: ws)[i]?, ?_, ?_⟩
    · rw [Value.fields?, hlen, if_pos hle]
    · apply slotsCarry_of_getElem?
      · rw [List.length_mapIdx, keys, List.length_map]
      · rw [List.length_mapIdx, keys, List.length_map]
      · intro i s x x' hs hx hx'
        rw [List.getElem?_mapIdx] at hx hx'
        obtain ⟨_, _, rfl⟩ := Option.map_eq_some_iff.1 hx
        obtain ⟨_, _, rfl⟩ := Option.map_eq_some_iff.1 hx'
        by_cases hi : i = us.length
        · subst hi
          cases ht.symm.trans hs
          simpa using Slot.Carries.present h
        · have hsame : (us ++ u' :: ws)[i]? = (us ++ u :: ws)[i]? := by grind
          rw [hsame]
          exact slot_carries_self s _ hr
  · cases hxs

theorem Edit.isSound {v v' : Value} (h : Edit f v v') (hv : v.IsSound) : v'.IsSound := by
  have harray : ∀ {us ws : List Value} {u u' : Value}, (u.IsSound → u'.IsSound) →
      (Value.array (us ++ u :: ws)).IsSound → (Value.array (us ++ u' :: ws)).IsSound := by
    intro us ws u u' hu hv
    cases hv with
    | array hitems =>
      rw [List.forall_mem_append, List.forall_mem_cons] at hitems
      apply Value.IsSound.array
      rw [List.forall_mem_append, List.forall_mem_cons]
      exact ⟨hitems.1, hu hitems.2.1, hitems.2.2⟩
  induction h with
  | reorder _ h => exact (Value.stems_of_subset h.symm.subset).isSound hv
  | leaveOut _ as bs => exact Value.stems_leaveOut.isSound hv
  | insert _ _ hu as bs => exact (Value.stems_insert hu).isSound hv
  | member _ _ as bs ih => exact (Value.stems_member ih).isSound hv
  | position _ _ bs ih => exact harray ih hv
  | payload _ _ ih => exact (@Value.stems_member [] [] _ _ _ ih).isSound hv
  | item _ as bs ih => exact harray ih hv

theorem exists_room {P Q : Nat → Prop} (h : ∃ R, ∀ r', R ≤ r' → P r') (k : Nat)
    (hq : ∀ r', k ≤ r' → P r' → Q r') : ∃ R, ∀ r', R ≤ r' → Q r' := by
  obtain ⟨R, hR⟩ := h
  refine ⟨max R k, ?_⟩
  intro r' hr'
  obtain ⟨hle, hk⟩ := Nat.max_le.1 hr'
  exact hq r' hk (hR r' hle)

/-- The room a value is decoded in may be counted from one level further in. -/
theorem carries_of_succ {v v' : Value}
    (h : ∀ r, ∃ R, ∀ r', R ≤ r' → f.Carries (r + 1) (r' + 1) v v') (r : Nat) :
    ∃ R, ∀ r', R ≤ r' → f.Carries r r' v v' := by
  by_cases hf : f.isContainer = true
  · cases r with
    | zero => exact ⟨0, fun _ _ => carries_of_refused hf (.inl rfl)⟩
    | succ r =>
      obtain ⟨R, hR⟩ := h r
      refine ⟨R + 1, ?_⟩
      intro r' hr'
      obtain ⟨k, rfl⟩ := Nat.exists_eq_add_of_le' (Nat.le_of_add_left_le hr')
      exact hR k (Nat.le_of_add_le_add_right hr')
  · obtain ⟨R, hR⟩ := h r
    cases f with
    | text | flag | word | typeExpr => exact ⟨0, fun _ _ => hR R (Nat.le_refl R)⟩
    | _ => exact absurd rfl hf

/-- An object is decoded to the same if this holds of what is under its keys. -/
theorem carries_object (hf : f.slots ≠ []) (hstems : Value.Stems ms ms')
    (h : ∃ R, ∀ r', R ≤ r' → f.CarriesSlots r r' (.object ms) (.object ms')) :
    ∃ R, ∀ r', R ≤ r' → f.Carries (r + 1) (r' + 1) (.object ms) (.object ms') := by
  apply exists_room h (Value.object ms').nesting
  intro r' hroom hslots
  apply carries_of_slots hf _ _ hslots
  · simp [Value.nesting]
  · rintro _ ⟨⟩
    exact ⟨ms', rfl, fun _ => hstems.areReadable (Nat.le_succ_of_le hroom)⟩

theorem Edit.carries_succ {v v' : Value} (h : Edit f v v') :
    ∀ r, ∃ R, ∀ r', R ≤ r' → f.Carries (r + 1) (r' + 1) v v' := by
  induction h with
  | reorder hf h =>
    intro r
    apply carries_object hf (Value.stems_of_subset h.symm.subset)
    exact ⟨r, fun r' hr => carriesSlots_reorder h hr⟩
  | leaveOut ht as bs =>
    intro r
    apply carries_object (List.ne_nil_of_mem ht) Value.stems_leaveOut
    exact ⟨r, fun r' hr => carriesSlots_leaveOut ht hr⟩
  | insert hf hkey hu as bs =>
    intro r
    apply carries_object hf (Value.stems_insert hu)
    exact ⟨r, fun r' hr => carriesSlots_insert hkey hu hr⟩
  | member hs h as bs ih =>
    intro r
    apply carries_object (List.ne_nil_of_mem hs) (Value.stems_member h.isSound)
    apply exists_room (carries_of_succ ih r) r
    intro r' hr hpart
    exact carriesSlots_member hs h.isSound hpart hr
  | position hs _ bs ih =>
    intro r
    apply exists_room (carries_of_succ ih r) r
    intro r' hr hpart
    apply carries_of_slots (List.ne_nil_of_mem (List.mem_of_getElem? hs))
    · simp [Value.nesting]
    · rintro _ ⟨⟩
    · exact carriesSlots_position hs hpart hr
  | @payload f t tag ht u u' _ ih =>
    intro r
    apply exists_room (carries_of_succ ih r) 0
    intro r' _ hpart
    apply carries_of_payload
    · intro hf
      rw [hf] at ht
      cases ht
    · intro tag' p hp t' ht'
      cases hp
      cases ht.symm.trans ht'
      exact ⟨u', rfl, hpart⟩
  | @item t u u' _ as bs ih =>
    intro r
    apply exists_room (carries_of_succ ih r) r
    intro r' hr hpart
    rintro _ ⟨⟩ _
    refine ⟨Nat.succ_ne_zero r', as ++ u' :: bs, rfl, ?_⟩
    have hself : ∀ us : List Value, List.Forall₂ (t.Carries r r') us us :=
      fun us => List.forall₂_same.2 fun u _ => carries_self t u (.inl hr)
    exact List.rel_append (hself as) (.cons hpart (hself bs))

/-- What a value is decoded to with some room, it is decoded to after an edit with enough room. -/
theorem Edit.carries {v v' : Value} (h : Edit f v v') (r : Nat) :
    ∃ R, ∀ r', R ≤ r' → f.Carries r r' v v' :=
  carries_of_succ h.carries_succ r

end Form

namespace Schema

/-- One change to the layout of a document: a blank between two of its tokens, or an edit of the
value that it spells. -/
inductive LayoutStep : String → String → Prop
  | blank {d d' : String} {before after : List Char} {c : Char} (hd : d.toList = before ++ after)
    (hd' : d'.toList = before ++ c :: after) (hc : Json.Token.isBlank c = true)
    {ts : List Json.Token} (h : Json.Consumes ts d.toList after) : LayoutStep d d'
  | edit {d d' : String} {v v' : Value} (hd : v.Spells d) (h : Form.schema.Edit v v')
    (hd' : v'.Spells d') : LayoutStep d d'

variable {d d' : String} {s : Schema}

theorem spells_unique {v w : Value} (hv : v.Spells d) (hw : w.Spells d) : v = w := by
  rw [← Value.parse?_eq_some_iff] at hv hw
  exact Option.some.inj (hv.symm.trans hw)

/-- The document spells a value that the schema can be decoded from, if there is room. -/
def Describes (d : String) (s : Schema) : Prop :=
  ∃ v r, v.Spells d ∧ ofJsonWithin? r v = some s

theorem describes_of_parse? (h : parse? d = some s) : Describes d s := by
  obtain ⟨v, hv, hs⟩ := Option.bind_eq_some_iff.1 h
  rw [ofJson?_eq] at hs
  exact ⟨v, maxNesting, Value.parse?_eq_some_iff.1 hv, hs⟩

theorem Describes.parse? (h : Describes d s) (hdepth : Json.depth d ≤ maxNesting) :
    parse? d = some s := by
  obtain ⟨v, r, hv, hs⟩ := h
  rw [hv.depth_eq] at hdepth
  rw [Schema.parse?, Value.parse?_eq_some_iff.2 hv, Option.bind_some, ofJson?_eq]
  exact Form.schema.carries_self v (.inr hdepth) s hs

theorem Describes.layoutStep (hs : Describes d s) (h : LayoutStep d d') : Describes d' s := by
  obtain ⟨v, r, hv, hs⟩ := hs
  cases h with
  | blank hd hd' hc hts => exact ⟨v, r, hv.insert_blank hd hd' hc hts, hs⟩
  | @edit w w' hw h hw' =>
    cases spells_unique hv hw
    obtain ⟨R, hR⟩ := h.carries r
    exact ⟨w', R, hw', hR R (Nat.le_refl R) s hs⟩

theorem Describes.layoutSteps (hs : Describes d s) (h : Relation.ReflTransGen LayoutStep d d') :
    Describes d' s := by
  induction h with
  | refl => exact hs
  | tail _ hstep ih => exact ih.layoutStep hstep

/-- A document that can be read is read alike in every other layout that is not too deep. -/
theorem parse?_of_layoutSteps (hd : (parse? d).isSome = true)
    (h : Relation.ReflTransGen LayoutStep d d') (hdepth : Json.depth d' ≤ maxNesting) :
    parse? d' = parse? d := by
  obtain ⟨s, hs⟩ := Option.isSome_iff_exists.1 hd
  rw [hs]
  -- the documents in between may be deeper than what can be read
  exact ((describes_of_parse? hs).layoutSteps h).parse? hdepth

theorem parse?_annotated_enum :
    let d := "\x7b\"definitions\":[\x7b\"enum\":\x7b\"name\":\"E\"\x7d\x7d],\"package\":\"\"\x7d"
    let d' := "\x7b\"definitions\":[\x7b\"enum\":\x7b\"note\":null,\"name\":\"E\"\x7d\x7d]\x7d"
    (parse? d).isSome = true ∧ parse? d' = parse? d := by
  have hlead : ∀ d : String, LayoutStep d (.ofList (' ' :: d.toList)) := by
    intro d
    exact .blank (List.nil_append _).symm String.toList_ofList rfl (.done _)
  have hpackage : Form.schema.Edit _ _ := .leaveOut
    (List.mem_cons_self : ⟨"package", some (.text ""), .text⟩ ∈ Form.schema.slots)
    [(some "definitions", .array [.variant "enum" (.object [(some "name", .text "E")])])] []
  have hnote : Form.enumeration.Edit _ _ := .insert (u := .null) (by simp [Form.slots, Form.named])
    (by decide : "note" ∉ Form.enumeration.keys) .null [] [(some "name", .text "E")]
  have hdefinition : Form.definition.Edit _ _ :=
    .payload (rfl : Form.definition.variants.lookup "enum" = some .enumeration) hnote
  have hdefinitions : Form.schema.Edit _ _ :=
    .member (s := ⟨"definitions", some (.array []), .list .definition⟩) (by simp [Form.slots])
      (.item hdefinition [] []) [] []
  refine ⟨by decide +kernel, parse?_of_layoutSteps (by decide +kernel) ?_ (by cbv)⟩
  apply Relation.ReflTransGen.head (hlead _)
  apply Relation.ReflTransGen.head
    (b := "\x7b\"definitions\":[\x7b\"enum\":\x7b\"name\":\"E\"\x7d\x7d]\x7d")
  · exact .edit (Value.parse?_eq_some_iff.1 (by cbv)) hpackage (Value.parse?_eq_some_iff.1 (by cbv))
  · apply Relation.ReflTransGen.single
    exact .edit (Value.parse?_eq_some_iff.1 (by cbv)) hdefinitions
      (Value.parse?_eq_some_iff.1 (by cbv))

theorem parse?_insert_surrogate :
    (Value.object []).Spells "\x7b\x7d" ∧ (parse? "\x7b\x7d").isSome = true ∧
      (Value.object [(none, .null)]).Spells "\x7b\"\\ud800\":null\x7d" ∧
        parse? "\x7b\"\\ud800\":null\x7d" = none := by
  rw [← Value.parse?_eq_some_iff, ← Value.parse?_eq_some_iff, ← Option.isNone_iff_eq_none]
  exact ⟨by cbv, by decide +kernel, by cbv, by decide +kernel⟩

end Schema

end WireModel
