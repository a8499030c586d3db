import WireModel.Proofs.Outcome
import WireModel.Validation

namespace WireModel

open Outcome

/-- A number that a field may have. -/
def Tag.InRange (tag : Tag) : Prop :=
  1 ≤ tag.toNat ∧ tag.toNat ≤ 536870911 ∧ (tag.toNat < 19000 ∨ 19999 < tag.toNat)

theorem Tag.isLegal_iff {tag : Tag} : isLegal tag = true ↔ InRange tag := by
  simp only [isLegal, InRange, Bool.and_eq_true, Bool.not_eq_true', decide_eq_true_eq,
    Bool.and_eq_false_iff, decide_eq_false_iff_not]
  omega

namespace Message

/-- A reserved statement of the message lists the number, or a range with the number in it. -/
def Reserves (m : Message) (tag : Tag) : Prop :=
  ∃ items, .reserved items ∈ m.members ∧
    (.tag tag ∈ items ∨ ∃ first last, .range first last ∈ items ∧ first ≤ tag ∧ tag ≤ last)

/-- The numbers of all fields are distinct, allowed and not reserved. -/
structure WellNumbered (m : Message) : Prop where
  distinct : (m.allFields.map Field.tag).Nodup
  inRange : ∀ f ∈ m.allFields, Tag.InRange f.tag
  free : ∀ f ∈ m.allFields, ¬ m.Reserves f.tag

/-- The number of a field after others is one that it may not have. -/
def Offends (m : Message) (earlier : List Field) (f : Field) : Prop :=
  ¬ Tag.InRange f.tag ∨ f.tag ∈ earlier.map Field.tag ∨ m.Reserves f.tag

/-- What is wrong with the number of a field after others. -/
inductive Fault (m : Message) (name : TypeName) (earlier : List Field) (f : Field) :
    SchemaError → Prop where
  | outOfRange (hr : ¬ Tag.InRange f.tag) :
    Fault m name earlier f (.tagOutOfRange name f.name f.tag)
  | duplicate (hr : Tag.InRange f.tag) (hd : f.tag ∈ earlier.map Field.tag) :
    Fault m name earlier f (.duplicateTag name f.name f.tag)
  | reserved (hr : Tag.InRange f.tag) (hd : f.tag ∉ earlier.map Field.tag)
    (hm : m.Reserves f.tag) : Fault m name earlier f (.reservedTag name f.name f.tag)

variable {m : Message} {name : TypeName} {earlier : List Field} {f : Field} {e : SchemaError}

theorem exists_fault_iff : (∃ e, m.Fault name earlier f e) ↔ m.Offends earlier f := by
  refine ⟨?_, ?_⟩
  · rintro ⟨_, hr | ⟨_, hd⟩ | ⟨_, _, hm⟩⟩
    · exact .inl hr
    · exact .inr (.inl hd)
    · exact .inr (.inr hm)
  · intro h
    by_cases hr : Tag.InRange f.tag
    · by_cases hd : f.tag ∈ earlier.map Field.tag
      · exact ⟨_, .duplicate hr hd⟩
      · exact ⟨_, .reserved hr hd ((h.resolve_left (not_not_intro hr)).resolve_left hd)⟩
    · exact ⟨_, .outOfRange hr⟩

theorem forall_not_fault_iff : (∀ e, ¬ m.Fault name earlier f e) ↔ ¬ m.Offends earlier f :=
  not_exists.symm.trans (not_congr exists_fault_iff)

theorem any_contains_iff {tag : Tag} :
    m.reserved.any (ReservedItem.contains tag) = true ↔ m.Reserves tag := by
  rw [List.any_eq_true]
  refine ⟨?_, ?_⟩
  · rintro ⟨item, hitem, hc⟩
    obtain ⟨member, hmember, hitem⟩ := List.mem_flatMap.1 hitem
    cases member with
    | reserved items =>
      refine ⟨items, hmember, ?_⟩
      cases item with
      | tag n =>
        cases of_decide_eq_true hc
        exact .inl hitem
      | range first last =>
        exact .inr ⟨first, last, hitem, by simpa [ReservedItem.contains] using hc⟩
      | name s => cases hc
    | _ => cases hitem
  · rintro ⟨items, hmember, h⟩
    have hin {item : ReservedItem} (hitem : item ∈ items) : item ∈ m.reserved :=
      List.mem_flatMap.2 ⟨.reserved items, hmember, hitem⟩
    obtain hitem | ⟨first, last, hitem, hc⟩ := h
    · exact ⟨_, hin hitem, by simp [ReservedItem.contains]⟩
    · exact ⟨_, hin hitem, by simpa [ReservedItem.contains] using hc⟩

/-- The check of field numbers goes by what is wrong with each field after those before it. -/
theorem stopsAtFault (m : Message) (name : TypeName) :
    StopsAtFault (fun earlier => checkTags name m.reserved (earlier.map Field.tag).reverse)
      (m.Fault name) where
  nil _ := rfl
  fault := by
    intro earlier f e fs h
    cases h with
    | outOfRange hr => simp [checkTags, Tag.isLegal_iff, hr]
    | duplicate hr hd => simp [checkTags, Tag.isLegal_iff, hr, hd]
    | reserved hr hd hm =>
      have hany := any_contains_iff.2 hm
      rw [checkTags, Tag.isLegal_iff.2 hr, hany]
      simp [hd]
  pass := by
    intro earlier f fs h
    obtain ⟨hr, hdm⟩ := not_or.1 (forall_not_fault_iff.1 h)
    obtain ⟨hd, hm⟩ := not_or.1 hdm
    have hlegal := Tag.isLegal_iff.2 (not_not.1 hr)
    have hany := Bool.eq_false_iff.2 (mt any_contains_iff.1 hm)
    rw [checkTags, hlegal, hany, List.map_append, List.map_singleton, List.reverse_append]
    simp [hd]

theorem wellNumbered_iff :
    m.WellNumbered ↔
      ∀ before f after, m.allFields = before ++ f :: after → ¬ m.Offends before f := by
  refine ⟨?_, ?_⟩
  · rintro ⟨hn, hr, hm⟩ before f after hs
    have hf : f ∈ m.allFields := hs ▸ List.mem_append_right _ List.mem_cons_self
    rintro (h | h | h)
    · exact h (hr f hf)
    · exact nodup_map_iff.1 hn before f after hs h
    · exact hm f hf h
  · intro h
    have hall {f : Field} (hf : f ∈ m.allFields) : Tag.InRange f.tag ∧ ¬ m.Reserves f.tag := by
      obtain ⟨before, after, hs⟩ := List.append_of_mem hf
      obtain ⟨hr, hdm⟩ := not_or.1 (h before f after hs)
      exact ⟨not_not.1 hr, fun hm => hdm (.inr hm)⟩
    refine ⟨nodup_map_iff.2 ?_, fun f hf => (hall hf).1, fun f hf => (hall hf).2⟩
    intro before f after hs hd
    exact h before f after hs (.inr (.inl hd))

theorem validate_eq_ok_iff : m.validate name = .ok () ↔ m.WellNumbered := by
  have h : m.validate name = .ok () ↔ _ := (m.stopsAtFault name).eq_ok_iff [] m.allFields
  rw [h, wellNumbered_iff]
  simp only [List.nil_append, forall_not_fault_iff]

theorem validate_eq_error_iff :
    m.validate name = .error e ↔ ∃ before f after, m.allFields = before ++ f :: after ∧
      (∀ b g c, before = b ++ g :: c → ¬ m.Offends b g) ∧ m.Fault name before f e := by
  have h : m.validate name = .error e ↔ _ := (m.stopsAtFault name).eq_error_iff [] m.allFields
  rw [h]
  simp only [List.nil_append, forall_not_fault_iff]

end Message

namespace Enumeration

/-- There is a constant, and their names are distinct. -/
structure WellNamed (e : Enumeration) : Prop where
  nonempty : e.values ≠ []
  distinct : (e.values.map EnumValue.name).Nodup

/-- What is wrong with the constants: there is none, or one has the name of another before it. -/
inductive Fault (c : Enumeration) (name : TypeName) : SchemaError → Prop where
  | empty (h : c.values = []) : Fault c name (.emptyEnumeration name)
  | duplicate {before v after} (hs : c.values = before ++ v :: after)
    (hb : (before.map EnumValue.name).Nodup) (hd : v.name ∈ before.map EnumValue.name) :
    Fault c name (.duplicateValue name v.name)

variable {c : Enumeration} {name : TypeName} {e : SchemaError}

theorem stopsAtFault (name : TypeName) :
    StopsAtFault (fun earlier => checkNames name (earlier.map EnumValue.name).reverse)
      fun earlier v e => v.name ∈ earlier.map EnumValue.name ∧ e = .duplicateValue name v.name where
  nil _ := rfl
  fault := by
    rintro earlier v e vs ⟨hd, rfl⟩
    simp [checkNames, hd]
  pass := by
    intro earlier v vs h
    have hd : v.name ∉ earlier.map EnumValue.name := fun hd => h _ ⟨hd, rfl⟩
    rw [checkNames, List.map_append, List.map_singleton, List.reverse_append]
    simp [hd]

theorem validate_of_ne_nil (h : c.values ≠ []) :
    c.validate name = checkNames name [] c.values := by
  rw [validate]
  split
  · next hnil => exact (h hnil).elim
  · rfl

theorem validate_of_nil (h : c.values = []) :
    c.validate name = .error (.emptyEnumeration name) := by
  rw [validate, h]

theorem validate_eq_ok_iff : c.validate name = .ok () ↔ c.WellNamed := by
  by_cases hnil : c.values = []
  · rw [validate_of_nil hnil]
    refine ⟨?_, ?_⟩
    · intro h
      cases h
    · intro h
      exact (h.nonempty hnil).elim
  · have h : checkNames name [] c.values = .ok () ↔ _ := (stopsAtFault name).eq_ok_iff [] c.values
    have hdistinct : checkNames name [] c.values = .ok () ↔
        (c.values.map EnumValue.name).Nodup := by
      rw [h, nodup_map_iff]
      simp only [List.nil_append, not_and, imp_not_comm, forall_eq]
    rw [validate_of_ne_nil hnil, hdistinct]
    exact ⟨fun hn => ⟨hnil, hn⟩, fun hn => hn.distinct⟩

theorem validate_eq_error_iff : c.validate name = .error e ↔ c.Fault name e := by
  by_cases hnil : c.values = []
  · rw [validate_of_nil hnil]
    refine ⟨?_, ?_⟩
    · intro h
      cases h
      exact .empty hnil
    · rintro (_ | ⟨hs, _, _⟩)
      · rfl
      · rw [hnil] at hs
        simp at hs
  · have h : checkNames name [] c.values = .error e ↔ _ :=
      (stopsAtFault name).eq_error_iff [] c.values
    rw [validate_of_ne_nil hnil, h]
    simp only [List.nil_append, not_and, imp_not_comm, forall_eq, ← nodup_map_iff]
    refine ⟨?_, ?_⟩
    · rintro ⟨before, v, after, hs, hb, hd, rfl⟩
      exact .duplicate hs hb hd
    · rintro (hempty | ⟨hs, hb, hd⟩)
      · exact (hnil hempty).elim
      · exact ⟨_, _, _, hs, hb, hd, rfl⟩

end Enumeration

namespace Schema

/-- What is wrong with a schema: the first field that offends in the first message that has one, or,
if no message has one, the first enumeration whose constants are at fault. -/
inductive Fault (s : Schema) : SchemaError → Prop where
  | message {before n m after fields f rest e} (hs : s.messages = before ++ (n, m) :: after)
    (hb : ∀ p ∈ before, p.2.WellNumbered) (hf : m.allFields = fields ++ f :: rest)
    (hfirst : ∀ b g c, fields = b ++ g :: c → ¬ m.Offends b g) (he : m.Fault n fields f e) :
    Fault s e
  | enumeration {before n c after e} (hm : ∀ p ∈ s.messages, p.2.WellNumbered)
    (hs : s.enumerations = before ++ (n, c) :: after) (hb : ∀ p ∈ before, p.2.WellNamed)
    (he : c.Fault n e) : Fault s e

variable {s : Schema}

theorem validate_eq_ok_iff :
    s.validate = .ok () ↔ (∀ m ∈ s.messages, m.2.validate m.1 = .ok ()) ∧
      ∀ e ∈ s.enumerations, e.2.validate e.1 = .ok () := by
  rw [validate, bind_eq_ok_iff, ← forM_eq_ok_iff, ← forM_eq_ok_iff]
  exact ⟨fun ⟨_, hm, he⟩ => ⟨hm, he⟩, fun ⟨hm, he⟩ => ⟨(), hm, he⟩⟩

theorem validate_eq_error_iff {e : SchemaError} : s.validate = .error e ↔ s.Fault e := by
  have hmessages : (s.messages.forM fun p => p.2.validate p.1) = .ok () ↔
      ∀ p ∈ s.messages, p.2.WellNumbered := by
    simp only [forM_eq_ok_iff, Message.validate_eq_ok_iff]
  simp only [validate, bind_eq_error_iff, forM_eq_error_iff, Message.validate_eq_ok_iff,
    Message.validate_eq_error_iff, Enumeration.validate_eq_ok_iff,
    Enumeration.validate_eq_error_iff]
  refine ⟨?_, ?_⟩
  · rintro (⟨before, p, after, hs, hb, fields, f, rest, hf, hfirst, he⟩ |
      ⟨_, hm, before, p, after, hs, hb, he⟩)
    · exact .message hs hb hf hfirst he
    · exact .enumeration (hmessages.1 hm) hs hb he
  · rintro (⟨hs, hb, hf, hfirst, he⟩ | ⟨hm, hs, hb, he⟩)
    · exact .inl ⟨_, _, _, hs, hb, _, _, _, hf, hfirst, he⟩
    · exact .inr ⟨(), hmessages.2 hm, _, _, _, hs, hb, he⟩

/-- A schema passes the check exactly if the field numbers of all messages and the constants of all
enumerations are as they should be, and else the answer is what is wrong first. -/
theorem validate_exact (s : Schema) :
    (s.validate = .ok () ↔
      (∀ p ∈ s.messages, p.2.WellNumbered) ∧ ∀ p ∈ s.enumerations, p.2.WellNamed) ∧
    ∀ e, s.validate = .error e ↔ s.Fault e := by
  refine ⟨?_, fun _ => validate_eq_error_iff⟩
  simp only [validate_eq_ok_iff, Message.validate_eq_ok_iff, Enumeration.validate_eq_ok_iff]

-- A range whose ends are swapped reserves nothing, and plain fields come before alternatives.
example :
    validate { definitions := [.message ⟨"Order", [
      .reserved [.range 9 5, .tag 4],
      .oneOf ⟨"payment", [.field { type := {}, name := "card", tag := 7 }]⟩,
      .field { type := {}, name := "id", tag := 7 },
      .field { type := {}, name := "total", tag := 4 }]⟩] } =
    .error (.reservedTag ⟨"Order"⟩ "total" 4) := by
  decide +kernel

end Schema

end WireModel
