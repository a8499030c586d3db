import WireModel.Proofs.Meaning
import WireModel.Proofs.Stages

namespace WireModel

open Outcome

section

variable {Key α β : Type}

/-- A loop that changes one slot leaves all others alone. -/
theorem Slots.foldlM_modify {field : Accessors} {f : α → Slot Key β → Option (Slot Key β)}
    {l : List α} {s : Slots Key β} {d : Slot Key β}
    (h : l.foldlM (fun c e => f e c) (s field) = some d) :
    l.foldlM (fun s e => s.modify field (f e)) s = some (s.set field d) := by
  induction l generalizing s with
  | nil =>
    cases h
    rw [set_of_eq rfl]
    rfl
  | cons e l ih =>
    rw [List.foldlM_cons] at h ⊢
    obtain ⟨c, hc, h⟩ := Option.bind_eq_some_iff.1 h
    have hm : s.modify field (f e) = some (s.set field c) := by rw [modify, hc]; rfl
    rw [hm, Option.bind_eq_bind, Option.bind_some, ih (by rwa [set_self]), set_set]

/-- Elements are appended in order, to whatever counts as a list. -/
theorem Slot.foldlM_append (f : Slot Key β → Slot Key β) (hf : ∀ vs, f (.list vs) = .list vs)
    (g : α → β) (l : List α) {c : Slot Key β} {us : List β} (hc : f c = .list us) :
    ∃ d, l.foldlM (fun c e => (f c).append (g e)) c = some d ∧ f d = .list (us ++ l.map g) := by
  induction l generalizing c us with
  | nil => exact ⟨c, rfl, by rw [hc, List.map_nil, List.append_nil]⟩
  | cons e l ih =>
    obtain ⟨d, hd, he⟩ := ih (hf (us ++ [g e]))
    refine ⟨d, ?_, by rw [he, List.append_assoc]; rfl⟩
    rw [List.foldlM_cons, hc]
    exact hd

/-- Steps that each set the slot of one field give what they promise for every field, as long as no
two fields share a slot. -/
theorem Slots.foldlM_fields (P Q : FieldModel → Slot Key β → Prop)
    {step : Slots Key β → FieldModel → Option (Slots Key β)} (fields : List FieldModel)
    (hstep : ∀ f ∈ fields, ∀ s, P f (s f.accessors) →
      ∃ c, step s f = some (s.set f.accessors c) ∧ Q f c)
    (hd : (fields.map FieldModel.accessors).Nodup) (s : Slots Key β)
    (hs : ∀ f ∈ fields, P f (s f.accessors)) :
    ∃ t, fields.foldlM step s = some t ∧ (∀ f ∈ fields, Q f (t f.accessors)) ∧
      ∀ a ∉ fields.map FieldModel.accessors, t a = s a := by
  induction fields generalizing s with
  | nil => exact ⟨s, rfl, by simp, by simp⟩
  | cons f fields ih =>
    obtain ⟨hf, hd⟩ := List.nodup_cons.1 hd
    obtain ⟨c, hc, hq⟩ := hstep f List.mem_cons_self s (hs f List.mem_cons_self)
    have hs' : ∀ p ∈ fields, P p (s.set f.accessors c p.accessors) := by
      intro p hp
      have hne : p.accessors ≠ f.accessors := fun h => hf (h ▸ List.mem_map_of_mem hp)
      rw [set_of_ne s c hne]
      exact hs p (List.mem_cons_of_mem f hp)
    obtain ⟨t, ht, hqs, hframe⟩ :=
      ih (fun p hp => hstep p (List.mem_cons_of_mem f hp)) hd _ hs'
    refine ⟨t, by rw [List.foldlM_cons, hc]; exact ht, ?_, ?_⟩
    · intro p hp
      obtain rfl | hp := List.mem_cons.1 hp
      · rw [hframe _ hf, set_self]
        exact hq
      · exact hqs p hp
    · intro a ha
      obtain ⟨hne, ha⟩ := not_or.1 (List.mem_cons.not.1 ha)
      rw [hframe a ha, set_of_ne s c hne]

variable [DecidableEq Key]

/-- Entries are put one after another, into whatever counts as a map. -/
theorem Slot.foldlM_put (f : Slot Key β → Slot Key β) (hf : ∀ es, f (.map es) = .map es)
    (g : α → β) (l : List (Σ _ : Key, α)) {c : Slot Key β} {es : Finmap fun _ : Key => β}
    (hc : f c = .map es) :
    ∃ d, l.foldlM (fun c e => (f c).put e.1 (g e.2)) c = some d ∧
      f d = .map (l.foldl (fun m e => m.insert e.1 (g e.2)) es) := by
  induction l generalizing c es with
  | nil => exact ⟨c, rfl, hc⟩
  | cons e l ih =>
    obtain ⟨d, hd, he⟩ := ih (hf (es.insert e.1 (g e.2)))
    refine ⟨d, ?_, he⟩
    rw [List.foldlM_cons, hc]
    exact hd

theorem lookup_foldl_insert (g : α → β) (l : List (Σ _ : Key, α)) (hl : l.NodupKeys)
    (es : Finmap fun _ : Key => β) (k : Key) :
    (l.foldl (fun m e => m.insert e.1 (g e.2)) es).lookup k =
      ((l.dlookup k).map g).or (es.lookup k) := by
  induction l generalizing es with
  | nil => rfl
  | cons e l ih =>
    obtain ⟨hk, hl⟩ := List.nodupKeys_cons.1 hl
    rw [List.foldl_cons, ih hl]
    by_cases he : k = e.1
    · subst he
      rw [List.dlookup_eq_none.2 hk, List.dlookup_cons_eq, Finmap.lookup_insert]
      rfl
    · rw [List.dlookup_cons_ne _ _ he, Finmap.lookup_insert_of_ne _ he]

/-- Putting all entries of a map into an empty one gives the same keys, in whatever order the
entries are listed. -/
theorem lookup_foldl_insert_entries (g : α → β) {l : List (Σ _ : Key, α)}
    {es : Finmap fun _ : Key => α} (hl : (l : Multiset (Σ _ : Key, α)) = es.entries) (k : Key) :
    (l.foldl (fun m e => m.insert e.1 (g e.2)) (∅ : Finmap fun _ : Key => β)).lookup k =
      (es.lookup k).map g := by
  have hn : l.NodupKeys := by
    rw [← Multiset.coe_nodupKeys, hl]
    exact es.nodupKeys
  have he : es = (⟨l, hn⟩ : AList fun _ : Key => α).toFinmap := Finmap.ext hl.symm
  rw [lookup_foldl_insert g l hn, Finmap.lookup_empty, Option.or_none, he, Finmap.lookup_toFinmap]
  rfl

end

namespace Slot

theorem callee_eq {expr : String} {name rest : List Char} (h : expr.toList = name ++ '(' :: rest)
    (hn : '(' ∉ name) : callee expr = name := by
  rw [callee, h, List.takeWhile_append_of_pos, List.takeWhile_cons_of_neg (by simp),
    List.append_nil]
  intro a ha
  exact decide_eq_true fun h => hn (h ▸ ha)

theorem callee_call_mem_callees {cs : List Constructor} {c : Constructor}
    (hp : ∀ name ∈ callees cs, '(' ∉ name) (hc : c ∈ cs) (hint : Option String) :
    callee (c.call hint) ∈ callees cs := by
  have he : c.empty.toList ∈ callees cs := List.mem_flatMap.2 ⟨c, hc, by simp⟩
  have hs : c.sized.toList ∈ callees cs := List.mem_flatMap.2 ⟨c, hc, by simp⟩
  cases hint with
  | none =>
    have h : (c.call none).toList = c.empty.toList ++ '(' :: [')'] := by simp [Constructor.call]
    rwa [callee_eq h (hp _ he)]
  | some hint =>
    have h : (c.call (some hint)).toList = c.sized.toList ++ '(' :: (hint.toList ++ [')']) := by
      simp [Constructor.call]
    rwa [callee_eq h (hp _ hs)]

variable {Key α : Type}

theorem ofLiteral_list {c : Constructor} (hc : c ∈ Constructor.lists) (hint : Option String) :
    (ofLiteral (c.call hint) : Option (Slot Key α)) = some (.list []) := by
  have hp : ∀ name ∈ callees Constructor.lists, '(' ∉ name := by decide
  exact if_pos (callee_call_mem_callees hp hc hint)

theorem ofLiteral_map {c : Constructor} (hc : c ∈ Constructor.maps) (hint : Option String) :
    (ofLiteral (c.call hint) : Option (Slot Key α)) = some (.map ∅) := by
  have hp : ∀ name ∈ callees Constructor.maps, '(' ∉ name := by decide
  have hd : ∀ name ∈ callees Constructor.maps, name ∉ callees Constructor.lists := by decide
  have hm := callee_call_mem_callees hp hc hint
  exact (if_neg (hd _ hm)).trans (if_pos hm)

/-- What a property holds before it is filled. -/
def emptied : Slot Key α → Slot Key α
  | .list _ => .list []
  | .map _ => .map ∅
  | c => c

end Slot

section

variable {Key Native Wire : Type} [DecidableEq Key] {x : Codec Key Native Wire}

/-- A wire slot stands for what a property holds. -/
def Slot.Carries (x : Codec Key Native Wire) (rule : Rule) : Slot Key Native → Slot Key Wire → Prop
  | .absent, w => w = .absent
  | .single v, w => w = .single (x.encode rule v)
  | .list vs, w => w.orList = .list (vs.map (x.encode rule))
  | .map es, w => ∃ ws, w.orMap = .map ws ∧ ∀ k, ws.lookup k = (es.lookup k).map (x.encode rule)

namespace Conversion.Plan

variable {names : Accessors} {rule : Rule} {shape : Shape} {c : Conversion}
  {object : Slots Key Native} {wire : Slots Key Wire}

theorem encoding_rule (h : Plan names rule shape c) : c.encoding.rule = rule := by
  cases h <;> rfl

/-- Writing a property changes its own slot only, which then stands for what the property holds. -/
theorem encode (h : Plan names rule shape c) (hf : (object names).Fits x rule shape)
    (b : Slots Key Wire) (hb : b names = .absent) :
    ∃ w, c.encoding.run x object b = some (b.set names w) ∧ (object names).Carries x rule w := by
  cases h with
  | single k =>
    obtain ⟨v, ho, _⟩ := hf
    rw [ho]
    exact ⟨.single (x.encode rule v), by simp only [Encoding.run, ho], rfl⟩
  | optional k =>
    obtain ho | ⟨v, ho, _⟩ := hf
    · rw [ho]
      exact ⟨.absent, by simp only [Encoding.run, ho], rfl⟩
    · rw [ho]
      exact ⟨.single (x.encode rule v), by simp only [Encoding.run, ho], rfl⟩
  | repeated k c hint hc =>
    obtain ⟨vs, ho, _⟩ := hf
    have hempty : (b names).orList = .list [] := by rw [hb]; rfl
    obtain ⟨w, hw, he⟩ := Slot.foldlM_append Slot.orList (fun _ => rfl) (x.encode rule) vs hempty
    rw [ho]
    refine ⟨w, ?_, he⟩
    rw [Encoding.run, ho]
    exact Slots.foldlM_modify hw
  | map key k c hint hc =>
    obtain ⟨es, ho, _⟩ := hf
    have hempty : (b names).orMap = .map ∅ := by rw [hb]; rfl
    obtain ⟨w, hw, he⟩ :=
      Slot.foldlM_put Slot.orMap (fun _ => rfl) (x.encode rule) (x.nativeOrder names es) hempty
    rw [ho]
    refine ⟨w, ?_, _, he, lookup_foldl_insert_entries _ (x.coe_nativeOrder names es)⟩
    rw [Encoding.run, ho]
    exact Slots.foldlM_modify hw

/-- A property starts with what it held before, or with an empty container. -/
theorem read (h : Plan names rule shape c) (hf : (object names).Fits x rule shape)
    (hw : (object names).Carries x rule (wire names)) :
    c.decoding.read x wire = some (object names).emptied := by
  cases h with
  | single k =>
    obtain ⟨v, ho, hv⟩ := hf
    rw [ho] at hw ⊢
    change wire names = _ at hw
    simp only [Decoding.read, hw, x.decode_encode rule v hv, Slot.emptied]
  | optional k =>
    obtain ho | ⟨v, ho, hv⟩ := hf
    · rw [ho] at hw ⊢
      change wire names = _ at hw
      simp only [Decoding.read, hw, Slot.emptied]
    · rw [ho] at hw ⊢
      change wire names = _ at hw
      simp only [Decoding.read, hw, x.decode_encode rule v hv, Slot.emptied]
  | repeated k c hint hc =>
    obtain ⟨vs, ho, _⟩ := hf
    rw [ho]
    exact Slot.ofLiteral_list hc hint
  | map key k c hint hc =>
    obtain ⟨es, ho, _⟩ := hf
    rw [ho]
    exact Slot.ofLiteral_map hc hint

/-- Filling a property that starts so changes nothing else and gives back what it held before. -/
theorem fill (h : Plan names rule shape c) (hf : (object names).Fits x rule shape)
    (hw : (object names).Carries x rule (wire names)) (o : Slots Key Native)
    (ho : o names = (object names).emptied) :
    c.filling.elim (some o) (Filling.run x wire o) = some (o.set names (object names)) := by
  cases h with
  | single k =>
    obtain ⟨v, hv, _⟩ := hf
    rw [hv] at ho ⊢
    exact congrArg some (Slots.set_of_eq ho).symm
  | optional k =>
    obtain hv | ⟨v, hv, _⟩ := hf
    · rw [hv] at ho ⊢
      exact congrArg some (Slots.set_of_eq ho).symm
    · rw [hv] at ho ⊢
      exact congrArg some (Slots.set_of_eq ho).symm
  | repeated k c hint hc =>
    obtain ⟨vs, hv, hvs⟩ := hf
    rw [hv] at hw ho ⊢
    change (wire names).orList = _ at hw
    have hround : (vs.map (x.encode rule)).map (x.decode rule) = vs := by
      rw [List.map_map]
      exact (List.map_congr_left fun v hv => x.decode_encode rule v (hvs v hv)).trans
        (List.map_id vs)
    obtain ⟨d, hd, he⟩ :=
      Slot.foldlM_append id (fun _ => rfl) (x.decode rule) (vs.map (x.encode rule)) ho
    rw [hround] at he
    cases he
    rw [Option.elim_some, Filling.run, hw]
    exact Slots.foldlM_modify hd
  | map key k c hint hc =>
    obtain ⟨es, hv, hvs⟩ := hf
    rw [hv] at hw ho ⊢
    obtain ⟨ws, hw, hl⟩ := hw
    obtain ⟨d, hd, he⟩ :=
      Slot.foldlM_put id (fun _ => rfl) (x.decode rule) (x.wireOrder names ws) ho
    have hround :
        (x.wireOrder names ws).foldl (fun m e => m.insert e.1 (x.decode rule e.2)) ∅ = es := by
      apply Finmap.ext_lookup
      intro k
      rw [lookup_foldl_insert_entries _ (x.coe_wireOrder names ws), hl]
      cases hk : es.lookup k with
      | none => rfl
      | some v => exact congrArg some (x.decode_encode rule v (hvs k v hk))
    rw [hround] at he
    cases he
    rw [Option.elim_some, Filling.run, hw]
    exact Slots.foldlM_modify hd

end Conversion.Plan

namespace MessageModel

variable {m : MessageModel} {object o : Slots Key Native} {wire : Slots Key Wire}

/-- Every property of the class is converted by one rule, under its own name. -/
def Planned (m : MessageModel) : Prop :=
  ∀ f ∈ m.fields, Conversion.Plan f.accessors f.description.conversion.encoding.rule f.spec.shape
    f.description.conversion

/-- The slots of a wire message stand for the properties of an object. -/
def Carries (x : Codec Key Native Wire) (m : MessageModel) (object : Slots Key Native)
    (wire : Slots Key Wire) : Prop :=
  ∀ f ∈ m.fields, (object f.accessors).Carries x f.description.conversion.encoding.rule
    (wire f.accessors)

theorem encode_carries (hp : m.Planned) (hd : (m.fields.map FieldModel.accessors).Nodup)
    (ho : m.IsInstance x object) :
    ∃ wire, m.encode x object = some wire ∧ m.Carries x object wire := by
  obtain ⟨wire, hwire, hcarries, _⟩ := Slots.foldlM_fields (fun _ b => b = .absent)
    (fun f => (object f.accessors).Carries x f.description.conversion.encoding.rule) m.fields
    (fun f hf b hb => (hp f hf).encode (ho.fits f hf) b hb) hd .empty fun _ _ => rfl
  exact ⟨wire, hwire, hcarries⟩

theorem construct_of_carries (hp : m.Planned) (hd : (m.fields.map FieldModel.accessors).Nodup)
    (ho : m.IsInstance x object) (hw : m.Carries x object wire) :
    ∃ o, m.construct x wire = some o ∧
      (∀ f ∈ m.fields, o f.accessors = (object f.accessors).emptied) ∧
      ∀ a ∉ m.fields.map FieldModel.accessors, o a = .absent := by
  rw [construct]
  refine Slots.foldlM_fields (fun _ _ => True) (fun f c => c = (object f.accessors).emptied)
    m.fields ?_ hd .empty fun _ _ => trivial
  intro f hf o _
  refine ⟨_, ?_, rfl⟩
  rw [(hp f hf).read (ho.fits f hf) (hw f hf)]
  rfl

theorem fill_of_carries (hp : m.Planned) (hd : (m.fields.map FieldModel.accessors).Nodup)
    (ho : m.IsInstance x object) (hw : m.Carries x object wire)
    (hs : ∀ f ∈ m.fields, o f.accessors = (object f.accessors).emptied) :
    ∃ t, m.fill x wire o = some t ∧ (∀ f ∈ m.fields, t f.accessors = object f.accessors) ∧
      ∀ a ∉ m.fields.map FieldModel.accessors, t a = o a := by
  rw [fill]
  refine Slots.foldlM_fields (fun f c => c = (object f.accessors).emptied)
    (fun f c => c = object f.accessors) m.fields ?_ hd o hs
  intro f hf o h
  exact ⟨_, (hp f hf).fill (ho.fits f hf) (hw f hf) o h, rfl⟩

/-- Reading what was written gives the object back. -/
theorem decode_of_carries (hp : m.Planned) (hd : (m.fields.map FieldModel.accessors).Nodup)
    (ho : m.IsInstance x object) (hw : m.Carries x object wire) :
    m.decode x wire = some object := by
  obtain ⟨o, hconstruct, hstart, habsent⟩ := construct_of_carries hp hd ho hw
  obtain ⟨t, hfill, hheld, hframe⟩ := fill_of_carries hp hd ho hw hstart
  have ht : t = object := by
    funext a
    by_cases ha : a ∈ m.fields.map FieldModel.accessors
    · obtain ⟨f, hf, rfl⟩ := List.mem_map.1 ha
      exact hheld f hf
    · rw [hframe a ha, habsent a ha, ho.absent a ha]
  rw [decode, hconstruct, ← ht]
  exact hfill

end MessageModel

theorem Generator.planned_of_describeMessage {g : Generator} {name : TypeName} {m : MessageModel}
    (h : g.describeMessage name = .ok m) : m.Planned := by
  rw [describeMessage] at h
  split at h
  · obtain ⟨fields, hfields, h⟩ := bind_eq_ok_iff.1 h
    cases h
    intro f hf
    obtain ⟨p, _, hp⟩ := exists_source hfields hf
    obtain ⟨spec, d, _, hd, rfl⟩ := describeProperty_eq_ok_iff.1 hp
    obtain ⟨rule, _, hplan⟩ := FieldSpec.describe_plan hd
    rwa [hplan.encoding_rule]
  · cases h

/-- Reading what was written gives the object back, for every message that has a class in which no
two properties share their names. -/
theorem Generator.describeMessage_roundTrip {g : Generator} {name : TypeName} {m : MessageModel}
    (h : g.describeMessage name = .ok m) (hd : (m.fields.map FieldModel.accessors).Nodup)
    {x : Codec Key Native Wire} {object : Slots Key Native} (ho : m.IsInstance x object) :
    ∃ wire, m.encode x object = some wire ∧ m.decode x wire = some object := by
  have hp := planned_of_describeMessage h
  obtain ⟨wire, hwire, hcarries⟩ := MessageModel.encode_carries hp hd ho
  exact ⟨wire, hwire, MessageModel.decode_of_carries hp hd ho hcarries⟩

end

/-- A schema with a property of every shape. -/
def Schema.everyShape : Schema where
  package := "shop"
  definitions := [
    .message ⟨"Order", [
      .message "Part" [],
      .field { type := { expr := .named "int32" }, name := "order_id", tag := 1 },
      .field { type := { optional := true, expr := .named "string" }, name := "note", tag := 2 },
      .field { type := { repeated := true, expr := .named "Part" }, name := "parts", tag := 3 },
      .field { type := { expr := .map "string" "double" }, name := "prices", tag := 4 },
      .oneOf ⟨"content", [
        .field { type := { expr := .named "Part" }, name := "part", tag := 5 }]⟩]⟩]

/-- Unboxed containers, one of them with room for a number of elements. -/
def Settings.roomy : Settings where
  compact := true
  sizeHints := .insert {} "Order" "parts" "max(1, 2)"

/-- Wire values that keep a native value together with the rule that it was written by. -/
noncomputable def Codec.tagged : Codec String String (Rule × String) where
  IsValue _ _ := True
  encode rule v := (rule, v)
  decode rule w := if w.1 = rule then w.2 else ""
  decode_encode _ _ _ := if_pos rfl
  nativeOrder _ es := es.entries.toList
  coe_nativeOrder _ es := es.entries.coe_toList
  wireOrder _ es := es.entries.toList
  coe_wireOrder _ es := es.entries.coe_toList

/-- The names and shapes of the properties. -/
def Schema.everyShapeLayout : List (Accessors × Shape) :=
  [(⟨"orderId", "OrderId"⟩, .single (.scalar .int32)),
    (⟨"note", "Note"⟩, .optional (.scalar .string)),
    (⟨"parts", "Parts"⟩, .repeated (.message ⟨"Order.Part"⟩)),
    (⟨"prices", "Prices"⟩, .map .string (.scalar .double)),
    (⟨"content", "Content"⟩, .single (.union ⟨"Order.content"⟩))]

def Slots.order : Slots String String := fun a =>
  if a = ⟨"orderId", "OrderId"⟩ then .single "7"
  else if a = ⟨"parts", "Parts"⟩ then .list ["Part(2)", "Part(1)", "Part(2)"]
  else if a = ⟨"prices", "Prices"⟩ then .map (.insert "pen" "2.5" (.singleton "ink" "4.0"))
  else if a = ⟨"content", "Content"⟩ then .single "Unset"
  else .absent

theorem Slots.order_fits (rule : Rule) {p : Accessors × Shape} (hp : p ∈ Schema.everyShapeLayout) :
    (order p.1).Fits .tagged rule p.2 := by
  simp only [Schema.everyShapeLayout, List.mem_cons, List.not_mem_nil, or_false] at hp
  obtain rfl | rfl | rfl | rfl | rfl := hp
  · exact ⟨_, rfl, trivial⟩
  · exact .inl rfl
  · exact ⟨_, rfl, fun _ _ => trivial⟩
  · exact ⟨_, rfl, fun _ _ _ => trivial⟩
  · exact ⟨_, rfl, trivial⟩

theorem Slots.order_absent {a : Accessors} (h : a ∉ Schema.everyShapeLayout.map Prod.fst) :
    order a = .absent := by
  simp only [Schema.everyShapeLayout, List.map_cons, List.map_nil, List.mem_cons, not_or] at h
  obtain ⟨h₁, _, h₂, h₃, h₄, _⟩ := h
  simp only [order, h₁, h₂, h₃, h₄, if_false]

theorem Generator.describeMessage_everyShape :
    ∃ m, (Schema.everyShape.generator .roomy).describeMessage ⟨"Order"⟩ = .ok m ∧
      (m.fields.map FieldModel.accessors).Nodup ∧ m.IsInstance .tagged .order ∧
      ∃ wire, m.encode .tagged .order = some wire ∧ m.decode .tagged wire = some .order := by
  have h : verdict ((Schema.everyShape.generator .roomy).describeMessage ⟨"Order"⟩) = .ok () := by
    decide +kernel
  have hlayout : ∀ m ∈ ((Schema.everyShape.generator .roomy).describeMessage ⟨"Order"⟩).toOption,
      m.fields.map (fun f => (f.accessors, f.spec.shape)) = Schema.everyShapeLayout := by
    decide +kernel
  obtain ⟨m, hm⟩ := verdict_eq_ok_iff.1 h
  have hlayout := hlayout m (by rw [hm]; rfl)
  have hnames : m.fields.map FieldModel.accessors = Schema.everyShapeLayout.map Prod.fst := by
    rw [← hlayout, List.map_map]
    rfl
  have hd : (m.fields.map FieldModel.accessors).Nodup := by
    rw [hnames]
    decide
  have ho : m.IsInstance .tagged .order := by
    refine ⟨fun f hf => Slots.order_fits _ (p := (f.accessors, f.spec.shape)) ?_, fun a ha => ?_⟩
    · rw [← hlayout]
      exact List.mem_map_of_mem hf
    · exact Slots.order_absent (hnames ▸ ha)
  exact ⟨m, hm, hd, ho, describeMessage_roundTrip hm hd ho⟩

end WireModel
