import WireModel.Proofs.DocumentForms
import WireModel.Proofs.JsonSound

namespace WireModel

open Json (Value Text)

open Decode (Carried)

namespace Form

variable {f : Form} {r r' : Nat} {v v' : Value}

/-- Forms whose values are containers. -/
def isContainer : Form → Bool
  | .text | .flag | .word | .typeExpr => false
  | _ => true

theorem fields?_of_nesting (h : v.nesting = 0) (keys : List String) : v.fields? keys = none := by
  cases v with
  | array items => cases h
  | object members => cases h
  | _ => rfl

theorem variant?_of_nesting (h : v.nesting = 0) : v.variant? = none := by
  cases v with
  | object members => cases h
  | _ => rfl

theorem carried_of_eq_none {α : Type} {decode decode' : Value → Option α} (h : decode v = none) :
    Carried decode decode' v v' := by
  intro x hx
  rw [h] at hx
  cases hx

theorem eq_none_of_refused {α : Type} {decode : Nat → Value → Option α}
    (h : r = 0 ∨ v.nesting = 0) (hroom : decode 0 v = none)
    (hfields : (∀ keys, v.fields? keys = none) → decode r v = none) : decode r v = none := by
  rcases h with rfl | hv
  · exact hroom
  · exact hfields (fields?_of_nesting hv)

/-- Without room, or where no container is, nothing is decoded. -/
theorem carries_of_refused (hf : f.isContainer = true) (h : r = 0 ∨ v.nesting = 0) :
    f.Carries r r' v v' := by
  have hnamed : ∀ {α : Type} (item : Nat → Value → Option α), Decode.named item r v = none := by
    intro α item
    exact eq_none_of_refused h (by simp [Decode.named]) fun hv => by simp [Decode.named, hv]
  have hvariant : Decode.variant? r v = none := by
    rcases h with rfl | hv
    · simp [Decode.variant?]
    · simp [Decode.variant?, variant?_of_nesting hv]
  cases f with
  | text => cases hf
  | flag => cases hf
  | word => cases hf
  | typeExpr => cases hf
  | schema =>
    exact carried_of_eq_none (eq_none_of_refused h (by simp [Schema.ofJsonWithin?]) fun hv => by
      simp [Schema.ofJsonWithin?, hv])
  | message => exact carried_of_eq_none (by rw [Message.ofJson?, hnamed]; rfl)
  | enumeration => exact carried_of_eq_none (by rw [Enumeration.ofJson?, hnamed]; rfl)
  | service => exact carried_of_eq_none (by rw [Service.ofJson?, hnamed]; rfl)
  | oneOf => exact carried_of_eq_none (by rw [OneOf.ofJson?, hnamed]; rfl)
  | field =>
    apply carried_of_eq_none
    rcases h with rfl | hv
    · simp [Field.ofJson?]
    · cases v with
      | object members => cases hv
      | _ => simp [Field.ofJson?]
  | setting =>
    exact carried_of_eq_none (eq_none_of_refused h (by simp [OptionSetting.ofJson?]) fun hv => by
      simp [OptionSetting.ofJson?, hv])
  | enumValue =>
    exact carried_of_eq_none (eq_none_of_refused h (by simp [EnumValue.ofJson?]) fun hv => by
      simp [EnumValue.ofJson?, hv])
  | rpc =>
    exact carried_of_eq_none (eq_none_of_refused h (by simp [Rpc.ofJson?]) fun hv => by
      simp [Rpc.ofJson?, hv])
  | range =>
    refine carried_of_eq_none
      (eq_none_of_refused h (by simp [ReservedItem.rangeOfJson?]) fun hv => ?_)
    cases r <;> simp [ReservedItem.rangeOfJson?, hv]
  | definition => exact carried_of_eq_none (by rw [Definition.ofJson?, hvariant])
  | member =>
    apply carried_of_eq_none
    cases r with
    | zero => exact Member.ofJson?_zero v
    | succ r => rw [Member.ofJson?_succ, hvariant]
  | oneOfMember => exact carried_of_eq_none (by rw [OneOfMember.ofJson?, hvariant])
  | enumMember => exact carried_of_eq_none (by rw [EnumMember.ofJson?, hvariant])
  | serviceMember => exact carried_of_eq_none (by rw [ServiceMember.ofJson?, hvariant])
  | reservedItem => exact carried_of_eq_none (by rw [ReservedItem.ofJson?, hvariant])
  | list item =>
    intro items hv hr
    rcases h with rfl | hn
    · exact absurd rfl hr
    · rw [hv] at hn
      cases hn

/-- A record is carried over with what is under its keys. -/
theorem carries_of_slots (hf : f.slots ≠ []) (hv : v.nesting ≠ 0)
    (hobject : ∀ ms, v = .object ms → ∃ ms', v' = .object ms' ∧
      (f = .field → Field.areReadable r ms = true → Field.areReadable r' ms' = true))
    (h : f.CarriesSlots r r' v v') : f.Carries (r + 1) (r' + 1) v v' := by
  cases f with
  | schema => exact Schema.carried h
  | message =>
    intro x hx
    exact Decode.Carried.map
      (Decode.carried_named (fun _ _ _ _ (hu : Form.member.Carries _ _ _ _) => hu) h) hx
  | enumeration =>
    intro x hx
    exact Decode.Carried.map
      (Decode.carried_named (fun _ _ _ _ (hu : Form.enumMember.Carries _ _ _ _) => hu) h) hx
  | service =>
    intro x hx
    exact Decode.Carried.map
      (Decode.carried_named (fun _ _ _ _ (hu : Form.serviceMember.Carries _ _ _ _) => hu) h) hx
  | oneOf =>
    intro x hx
    exact Decode.Carried.map
      (Decode.carried_named (fun _ _ _ _ (hu : Form.oneOfMember.Carries _ _ _ _) => hu) h) hx
  | field =>
    cases v with
    | object ms =>
      obtain ⟨ms', rfl, hread⟩ := hobject ms rfl
      exact Field.carried h (hread rfl)
    | _ => exact carried_of_eq_none (by simp [Field.ofJson?])
  | setting => exact OptionSetting.carried h
  | enumValue => exact EnumValue.carried h
  | rpc => exact Rpc.carried h
  | range => exact ReservedItem.carried_range h
  | typeExpr =>
    cases v with
    | object ms =>
      obtain ⟨ms', rfl, _⟩ := hobject ms rfl
      exact TypeExpr.carried h
    | array items => exact carried_of_eq_none rfl
    | _ => exact absurd rfl hv
  | _ => exact absurd rfl hf

/-- A choice is carried over with what is chosen. -/
theorem carries_of_payload (hf : f.variants ≠ []) (h : f.CarriesPayload r r' v v') :
    f.Carries (r + 1) (r' + 1) v v' := by
  cases f with
  | definition => exact Definition.carried h
  | member => exact Member.carried h
  | oneOfMember => exact OneOfMember.carried h
  | enumMember => exact EnumMember.carried h
  | serviceMember => exact ServiceMember.carried h
  | reservedItem => exact ReservedItem.carried h
  | _ => exact absurd rfl hf

theorem isContainer_cases (hf : f.isContainer = true) :
    f.slots ≠ [] ∨ f.variants ≠ [] ∨ ∃ item, f = .list item := by
  cases f with
  | list item => exact .inr (.inr ⟨item, rfl⟩)
  | text | flag | word | typeExpr => cases hf
  | definition | member | oneOfMember | enumMember | serviceMember | reservedItem =>
    exact .inr (.inl (List.cons_ne_nil _ _))
  | _ => exact .inl (List.cons_ne_nil _ _)

theorem nesting_of_fields? {keys : List String} {as : List (Option Value)} {u : Value}
    (h : v.fields? keys = some as) (hu : some u ∈ as) : u.nesting < v.nesting := by
  cases v with
  | object ms =>
    rw [Value.fields?] at h
    split at h
    · cases h
      obtain ⟨key, _, hlookup⟩ := List.mem_map.1 hu
      obtain ⟨_, _, hms, _⟩ := List.lookup_eq_some_iff.1 hlookup
      have hle := Value.memberNesting_le_iff.1 (Nat.le_refl (Value.memberNesting ms))
      rw [Value.nesting]
      exact Nat.lt_succ_of_le (hle (some key, u) (by simp [hms]))
    · cases h
  | array items =>
    rw [Value.fields?] at h
    split at h
    · cases h
      obtain ⟨i, _, hi⟩ := List.mem_mapIdx.1 hu
      have hle := Value.nestingOf_le_iff.1 (Nat.le_refl (Value.nestingOf items))
      rw [Value.nesting]
      exact Nat.lt_succ_of_le (hle u (List.mem_of_getElem? hi))
    · cases h
  | _ => cases h

theorem nesting_of_variant? {tag : String} {p : Value} (h : v.variant? = some (tag, p)) :
    p.nesting < v.nesting := by
  unfold Value.variant? at h
  split at h
  · cases h
    rw [Value.nesting, Value.memberNesting, Value.memberNesting, Nat.max_zero]
    exact Nat.lt_succ_self _
  · cases h

theorem length_of_fields? {keys : List String} {as : List (Option Value)}
    (h : v.fields? keys = some as) : as.length = keys.length := by
  cases v with
  | object ms =>
    rw [Value.fields?] at h
    split at h
    · cases h
      exact List.length_map _
    · cases h
  | array items =>
    rw [Value.fields?] at h
    split at h
    · cases h
      exact List.length_mapIdx
    · cases h
  | _ => cases h

/-- What is under the keys of a record is compared key by key. -/
theorem slotsCarry_of_getElem? {ss : List Slot} {xs xs' : List (Option Value)}
    (hxs : xs.length = ss.length) (hxs' : xs'.length = ss.length)
    (h : ∀ (i : Nat) (s : Slot) (x x' : Option Value), ss[i]? = some s → xs[i]? = some x →
      xs'[i]? = some x' → s.Carries r r' x x') : SlotsCarry r r' ss xs xs' := by
  induction ss generalizing xs xs' with
  | nil =>
    cases List.eq_nil_of_length_eq_zero hxs
    cases List.eq_nil_of_length_eq_zero hxs'
    exact .nil
  | cons s ss ih =>
    cases xs with
    | nil => cases hxs
    | cons x xs =>
      cases xs' with
      | nil => cases hxs'
      | cons x' xs' =>
        apply SlotsCarry.cons (h 0 s x x' rfl rfl rfl)
        exact ih (Nat.succ.inj hxs) (Nat.succ.inj hxs') fun i => h (i + 1)

theorem slotsCarry_self {ss : List Slot} {as : List (Option Value)} (hlen : as.length = ss.length)
    (h : ∀ g u, some u ∈ as → Form.Carries g r r' u u) : SlotsCarry r r' ss as as := by
  apply slotsCarry_of_getElem? hlen hlen
  intro i s x x' _ hx hx'
  cases hx.symm.trans hx'
  cases x with
  | none => exact .absent
  | some u => exact .present (h s.form u (List.mem_of_getElem? hx))

theorem areReadable_of_le {ms : List (Text × Value)}
    (h : r ≤ r' ∨ (Value.object ms).nesting ≤ r' + 1) (hread : Field.areReadable r ms = true) :
    Field.areReadable r' ms = true := by
  rw [Field.areReadable, List.all_eq_true] at hread ⊢
  intro m hm
  have hm' := hread m hm
  rw [Bool.or_eq_true] at hm' ⊢
  refine hm'.imp_right ?_
  intro hreadable
  obtain ⟨hsound, hle⟩ := Value.isReadable_iff.1 hreadable
  refine Value.isReadable_iff.2 ⟨hsound, ?_⟩
  rcases h with h | h
  · exact Nat.le_trans hle h
  · rw [Value.nesting, Nat.add_le_add_iff_right] at h
    exact Value.memberNesting_le_iff.1 h m hm

/-- A value is decoded to the same with more room, and with any room that it fits into. -/
theorem carries_self (f : Form) (v : Value) {r r' : Nat} (h : r ≤ r' ∨ v.nesting ≤ r') :
    f.Carries r r' v v := by
  induction r generalizing f v r' with
  | zero =>
    by_cases hf : f.isContainer = true
    · exact carries_of_refused hf (.inl rfl)
    · cases f with
      | text | flag | word | typeExpr => exact fun _ hx => hx
      | _ => exact absurd rfl hf
  | succ r ih =>
    by_cases hf : f.isContainer = true
    · by_cases hv : v.nesting = 0
      · exact carries_of_refused hf (.inr hv)
      · obtain ⟨k, rfl⟩ : ∃ k, r' = k + 1 := Nat.exists_eq_succ_of_ne_zero (by omega)
        -- whatever stands in the value fits into what is left of the room
        have hpart : ∀ g u, u.nesting < v.nesting → Form.Carries g r k u u := by
          intro g u hu
          exact ih g u (by omega)
        rcases isContainer_cases hf with hs | hs | ⟨item, rfl⟩
        · apply carries_of_slots hs hv
          · rintro ms rfl
            exact ⟨ms, rfl, fun _ => areReadable_of_le (h.imp_left Nat.le_of_succ_le_succ)⟩
          · intro as has
            have hlen := (length_of_fields? has).trans (List.length_map _)
            exact ⟨as, has, slotsCarry_self hlen fun g u hu =>
              hpart g u (nesting_of_fields? has hu)⟩
        · apply carries_of_payload hs
          intro tag p hp t _
          exact ⟨p, hp, hpart t p (nesting_of_variant? hp)⟩
        · rintro items rfl _
          refine ⟨Nat.succ_ne_zero k, items, rfl, List.forall₂_same.2 ?_⟩
          intro u hu
          apply hpart
          have hle := Value.nestingOf_le_iff.1 (Nat.le_refl (Value.nestingOf items))
          rw [Value.nesting]
          exact Nat.lt_succ_of_le (hle u hu)
    · cases f with
      | text | flag | word | typeExpr => exact fun _ hx => hx
      | _ => exact absurd rfl hf

end Form

end WireModel
