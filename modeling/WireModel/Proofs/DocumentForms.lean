import Mathlib.Data.List.Forall2
import WireModel.Proofs.Documents

namespace WireModel

open Json (Value Text)

/-- What a part of a document stands for. -/
inductive Form where
  | text
  | flag
  | word
  | typeExpr
  | schema
  | message
  | enumeration
  | service
  | oneOf
  | field
  | setting
  | enumValue
  | rpc
  | range
  | definition
  | member
  | oneOfMember
  | enumMember
  | serviceMember
  | reservedItem
  | list (item : Form)

/-- A key of a record: what it stands for when it is left out, if it may be, and the form of its
value. -/
structure Form.Slot where
  key : String
  default : Option Value := none
  form : Form

namespace Form

def named (item : Form) : List Slot :=
  [⟨"name", none, .text⟩, ⟨"members", some (.array []), .list item⟩]

/-- The keys of the forms that are records, in the order of their positions. -/
def slots : Form → List Slot
  | .schema =>
    [⟨"package", some (.text ""), .text⟩, ⟨"definitions", some (.array []), .list .definition⟩]
  | .message => named .member
  | .enumeration => named .enumMember
  | .service => named .serviceMember
  | .oneOf => named .oneOfMember
  | .field =>
    [⟨"name", none, .text⟩, ⟨"tag", none, .word⟩, ⟨"options", some (.array []), .list .setting⟩,
      ⟨"optional", some (.bool false), .flag⟩, ⟨"repeated", some (.bool false), .flag⟩,
      ⟨"type", some (.text ""), .typeExpr⟩]
  | .setting => [⟨"name", none, .text⟩, ⟨"value", none, .text⟩]
  | .enumValue =>
    [⟨"name", none, .text⟩, ⟨"tag", none, .word⟩, ⟨"is_negative", some (.bool false), .flag⟩,
      ⟨"options", some (.array []), .list .setting⟩]
  | .rpc =>
    [⟨"name", none, .text⟩, ⟨"in_stream", some (.bool false), .flag⟩, ⟨"in_type", none, .text⟩,
      ⟨"out_stream", some (.bool false), .flag⟩, ⟨"out_type", none, .text⟩,
      ⟨"options", some (.array []), .list .setting⟩]
  | .range => [⟨"start", none, .word⟩, ⟨"end", none, .word⟩]
  | .typeExpr => [⟨"key", none, .text⟩, ⟨"value", none, .text⟩]
  | _ => []

def keys (f : Form) : List String :=
  f.slots.map Slot.key

/-- The forms that are choices, by the key of their only member. -/
def variants : Form → List (String × Form)
  | .definition => [("message", .message), ("enum", .enumeration), ("service", .service)]
  | .member =>
    [("field", .field), ("one_of", .oneOf), ("nested_enum", .enumeration),
      ("nested_message", .message), ("option", .setting), ("reserved", .list .reservedItem)]
  | .oneOfMember => [("field", .field), ("option", .setting)]
  | .enumMember => [("option", .setting), ("value", .enumValue)]
  | .serviceMember => [("option", .setting), ("rpc", .rpc)]
  | .reservedItem => [("tag", .word), ("range", .range), ("name", .text)]
  | _ => []

end Form

/-- A schema from its document form, if its containers may take up so much room. -/
def Schema.ofJsonWithin? (room : Nat) (v : Value) : Option Schema :=
  match room, v.fields? ["package", "definitions"] with
  | room + 1, some [package, definitions] => do
    let package ← Decode.orElse "" Value.text? package
    return ⟨package, ← Decode.orElse [] (Decode.list Definition.ofJson? room) definitions⟩
  | _, _ => none

theorem Schema.ofJson?_eq (v : Value) : ofJson? v = ofJsonWithin? maxNesting v :=
  rfl

/-- A reserved range from its document form. -/
def ReservedItem.rangeOfJson? : Nat → Value → Option ReservedItem
  | 0, _ => none
  | _ + 1, v =>
    match v.fields? ["start", "end"] with
    | some [some first, some last] => do
      return .range (← first.word?) (← last.word?)
    | _ => none

/-- What one value is decoded to, another one is too. -/
def Decode.Carried {α : Type} (decode decode' : Value → Option α) (v v' : Value) : Prop :=
  ∀ x, decode v = some x → decode' v' = some x

open Decode (Carried)

/-- What a value of the form is decoded to with some room, another value is decoded to with some
other room. -/
def Form.Carries : Form → Nat → Nat → Value → Value → Prop
  | .text, _, _ => Carried Value.text? Value.text?
  | .flag, _, _ => Carried Value.bool? Value.bool?
  | .word, _, _ => Carried Value.word? Value.word?
  | .typeExpr, _, _ => Carried TypeExpr.ofJson? TypeExpr.ofJson?
  | .schema, r, r' => Carried (Schema.ofJsonWithin? r) (Schema.ofJsonWithin? r')
  | .message, r, r' => Carried (Message.ofJson? r) (Message.ofJson? r')
  | .enumeration, r, r' => Carried (Enumeration.ofJson? r) (Enumeration.ofJson? r')
  | .service, r, r' => Carried (Service.ofJson? r) (Service.ofJson? r')
  | .oneOf, r, r' => Carried (OneOf.ofJson? r) (OneOf.ofJson? r')
  | .field, r, r' => Carried (Field.ofJson? r) (Field.ofJson? r')
  | .setting, r, r' => Carried (OptionSetting.ofJson? r) (OptionSetting.ofJson? r')
  | .enumValue, r, r' => Carried (EnumValue.ofJson? r) (EnumValue.ofJson? r')
  | .rpc, r, r' => Carried (Rpc.ofJson? r) (Rpc.ofJson? r')
  | .range, r, r' => Carried (ReservedItem.rangeOfJson? r) (ReservedItem.rangeOfJson? r')
  | .definition, r, r' => Carried (Definition.ofJson? r) (Definition.ofJson? r')
  | .member, r, r' => Carried (Member.ofJson? r) (Member.ofJson? r')
  | .oneOfMember, r, r' => Carried (OneOfMember.ofJson? r) (OneOfMember.ofJson? r')
  | .enumMember, r, r' => Carried (EnumMember.ofJson? r) (EnumMember.ofJson? r')
  | .serviceMember, r, r' => Carried (ServiceMember.ofJson? r) (ServiceMember.ofJson? r')
  | .reservedItem, r, r' => Carried (ReservedItem.ofJson? r) (ReservedItem.ofJson? r')
  | .list item, r, r' => fun v v' => ∀ items, v = .array items → r ≠ 0 →
      r' ≠ 0 ∧ ∃ items', v' = .array items' ∧
        List.Forall₂ (item.Carries (r - 1) (r' - 1)) items items'

/-- What is under a key is carried over, or is the default and left out. -/
inductive Form.Slot.Carries (s : Form.Slot) (r r' : Nat) : Option Value → Option Value → Prop
  | absent : Carries s r r' none none
  | omitted {u : Value} (h : s.default = some u) : Carries s r r' (some u) none
  | present {u u' : Value} (h : s.form.Carries r r' u u') : Carries s r r' (some u) (some u')

/-- What is under the keys of a record is carried over key by key. -/
inductive SlotsCarry (r r' : Nat) :
    List Form.Slot → List (Option Value) → List (Option Value) → Prop
  | nil : SlotsCarry r r' [] [] []
  | cons {s : Form.Slot} {ss : List Form.Slot} {a a' : Option Value} {as as' : List (Option Value)}
    (h : s.Carries r r' a a') (hs : SlotsCarry r r' ss as as') :
    SlotsCarry r r' (s :: ss) (a :: as) (a' :: as')

section

variable {α : Type} {r r' : Nat} {s : Form.Slot} {a a' : Option Value} {u v v' : Value}

theorem Form.Slot.Carries.required (h : s.Carries r r' (some u) a') (hs : s.default = none) :
    ∃ u', a' = some u' ∧ s.form.Carries r r' u u' := by
  cases h with
  | omitted hd =>
    rw [hs] at hd
    cases hd
  | present h => exact ⟨_, rfl, h⟩

/-- A key with a default is read as before. -/
theorem Form.Slot.Carries.orElse {d : α} {decode decode' : Value → Option α}
    (h : s.Carries r r' a a') (hdefault : ∀ u ∈ s.default, ∀ x, decode u = some x → x = d)
    (hform : ∀ u u', s.form.Carries r r' u u' → Carried decode decode' u u') {x : α}
    (hx : Decode.orElse d decode a = some x) : Decode.orElse d decode' a' = some x := by
  cases h with
  | absent => exact hx
  | omitted hd =>
    cases hdefault _ hd x hx
    rfl
  | present h => exact hform _ _ h x hx

theorem Decode.carried_mapM {R : Value → Value → Prop} {decode decode' : Value → Option α}
    (hr : ∀ u u', R u u' → Carried decode decode' u u') {items items' : List Value}
    (h : List.Forall₂ R items items') :
    ∀ xs, items.mapM decode = some xs → items'.mapM decode' = some xs := by
  induction h with
  | nil => exact fun _ h => h
  | @cons u u' us us' hu _ ih =>
    intro xs hxs
    rw [List.mapM_cons] at hxs ⊢
    obtain ⟨y, hy, hxs⟩ := Option.bind_eq_some_iff.1 hxs
    obtain ⟨ys, hys, hxs⟩ := Option.bind_eq_some_iff.1 hxs
    rw [hr u u' hu y hy, ih ys hys]
    exact hxs

theorem Decode.carried_list {item : Form} {decode : Nat → Value → Option α}
    (hitem : ∀ r r' u u', item.Carries r r' u u' → Carried (decode r) (decode r') u u')
    (h : (Form.list item).Carries r r' v v') :
    Carried (Decode.list decode r) (Decode.list decode r') v v' := by
  intro xs hxs
  cases r with
  | zero => cases hxs
  | succ r =>
    cases v with
    | array items =>
      obtain ⟨hr', items', rfl, hitems⟩ := h items rfl (Nat.succ_ne_zero r)
      obtain ⟨k, rfl⟩ := Nat.exists_eq_succ_of_ne_zero hr'
      exact carried_mapM (fun u u' hu => hitem r k u u' hu) hitems xs hxs
    | _ => cases hxs

theorem Decode.eq_nil_of_list {decode : Nat → Value → Option α} {xs : List α}
    (h : Decode.list decode r (.array []) = some xs) : xs = [] := by
  cases r with
  | zero => cases h
  | succ r =>
    cases h
    rfl

theorem Form.Slot.Carries.orElse_list {key : String} {item : Form} {decode : Nat → Value → Option α}
    (hitem : ∀ r r' u u', item.Carries r r' u u' → Carried (decode r) (decode r') u u')
    (h : Form.Slot.Carries ⟨key, some (.array []), .list item⟩ r r' a a') {xs : List α}
    (hxs : Decode.orElse [] (Decode.list decode r) a = some xs) :
    Decode.orElse [] (Decode.list decode r') a' = some xs := by
  apply h.orElse _ (fun u u' hu => Decode.carried_list hitem hu) hxs
  intro u hu ys hys
  cases hu
  exact Decode.eq_nil_of_list hys

theorem Form.Slot.Carries.orElse_settings {key : String}
    (h : Form.Slot.Carries ⟨key, some (.array []), .list .setting⟩ r r' a a')
    {os : List OptionSetting} (hos : OptionSetting.listOfJson? r a = some os) :
    OptionSetting.listOfJson? r' a' = some os :=
  h.orElse_list (fun _ _ _ _ (hu : Form.setting.Carries _ _ _ _) => hu) hos

theorem Form.Slot.Carries.orElse_flag {key : String}
    (h : Form.Slot.Carries ⟨key, some (.bool false), .flag⟩ r r' a a') {b : Bool}
    (hb : Decode.orElse false Value.bool? a = some b) :
    Decode.orElse false Value.bool? a' = some b := by
  apply h.orElse _ (fun _ _ hu => hu) hb
  intro u hu c hc
  cases hu
  cases hc
  rfl

theorem Form.Slot.Carries.orElse_text {key : String}
    (h : Form.Slot.Carries ⟨key, some (.text ""), .text⟩ r r' a a') {t : String}
    (ht : Decode.orElse "" Value.text? a = some t) :
    Decode.orElse "" Value.text? a' = some t := by
  apply h.orElse _ (fun _ _ hu => hu) ht
  intro u hu w hw
  cases hu
  cases hw
  rfl

theorem Form.Slot.Carries.orElse_type {key : String}
    (h : Form.Slot.Carries ⟨key, some (.text ""), .typeExpr⟩ r r' a a') {e : TypeExpr}
    (he : Decode.orElse (.named "") TypeExpr.ofJson? a = some e) :
    Decode.orElse (.named "") TypeExpr.ofJson? a' = some e := by
  apply h.orElse _ (fun _ _ hu => hu) he
  intro u hu w hw
  cases hu
  cases hw
  rfl

/-- The keys of a value with the form are carried over to those of another value. -/
def Form.CarriesSlots (f : Form) (r r' : Nat) (v v' : Value) : Prop :=
  ∀ as, v.fields? f.keys = some as →
    ∃ as', v'.fields? f.keys = some as' ∧ SlotsCarry r r' f.slots as as'

theorem OptionSetting.carried (h : Form.setting.CarriesSlots r r' v v') :
    Carried (OptionSetting.ofJson? (r + 1)) (OptionSetting.ofJson? (r' + 1)) v v' := by
  intro x hx
  rw [OptionSetting.ofJson?.eq_def] at hx
  split at hx
  · next name value hfields =>
    obtain ⟨as', hfields', hc⟩ := h _ hfields
    rcases hc with _ | ⟨hname, hc⟩
    rcases hc with _ | ⟨hvalue, hc⟩
    cases hc
    obtain ⟨name', rfl, hname'⟩ := hname.required rfl
    obtain ⟨value', rfl, hvalue'⟩ := hvalue.required rfl
    obtain ⟨n, hn, hx⟩ := Option.bind_eq_some_iff.1 hx
    obtain ⟨w, hw, hx⟩ := Option.bind_eq_some_iff.1 hx
    change v'.fields? ["name", "value"] = _ at hfields'
    simp only [OptionSetting.ofJson?, hfields']
    rw [hname' n hn, hvalue' w hw]
    exact hx
  · cases hx

theorem Decode.carried_named {item : Form} {decode : Nat → Value → Option α}
    (hitem : ∀ r r' u u', item.Carries r r' u u' → Carried (decode r) (decode r') u u')
    (h : ∀ as, v.fields? ["name", "members"] = some as →
      ∃ as', v'.fields? ["name", "members"] = some as' ∧ SlotsCarry r r' (Form.named item) as as') :
    Carried (Decode.named decode (r + 1)) (Decode.named decode (r' + 1)) v v' := by
  intro x hx
  rw [Decode.named.eq_def] at hx
  split at hx
  · next name members hroom hfields =>
    cases hroom
    obtain ⟨as', hfields', hc⟩ := h _ hfields
    rcases hc with _ | ⟨hname, hc⟩
    rcases hc with _ | ⟨hmembers, hc⟩
    cases hc
    obtain ⟨name', rfl, hname'⟩ := hname.required rfl
    obtain ⟨n, hn, hx⟩ := Option.bind_eq_some_iff.1 hx
    obtain ⟨ms, hms, hx⟩ := Option.bind_eq_some_iff.1 hx
    simp only [Decode.named, hfields']
    rw [hname' n hn, hmembers.orElse_list hitem hms]
    exact hx
  · cases hx

theorem EnumValue.carried (h : Form.enumValue.CarriesSlots r r' v v') :
    Carried (EnumValue.ofJson? (r + 1)) (EnumValue.ofJson? (r' + 1)) v v' := by
  intro x hx
  rw [EnumValue.ofJson?.eq_def] at hx
  split at hx
  · next name tag isNegative options hroom hfields =>
    cases hroom
    obtain ⟨as', hfields', hc⟩ := h _ hfields
    rcases hc with _ | ⟨hname, hc⟩
    rcases hc with _ | ⟨htag, hc⟩
    rcases hc with _ | ⟨hnegative, hc⟩
    rcases hc with _ | ⟨hoptions, hc⟩
    cases hc
    obtain ⟨name', rfl, hname'⟩ := hname.required rfl
    obtain ⟨tag', rfl, htag'⟩ := htag.required rfl
    obtain ⟨n, hn, hx⟩ := Option.bind_eq_some_iff.1 hx
    obtain ⟨t, ht, hx⟩ := Option.bind_eq_some_iff.1 hx
    obtain ⟨b, hb, hx⟩ := Option.bind_eq_some_iff.1 hx
    obtain ⟨os, hos, hx⟩ := Option.bind_eq_some_iff.1 hx
    change v'.fields? ["name", "tag", "is_negative", "options"] = _ at hfields'
    simp only [EnumValue.ofJson?, hfields']
    rw [hname' n hn, htag' t ht, hnegative.orElse_flag hb, hoptions.orElse_settings hos]
    exact hx
  · cases hx

theorem Rpc.carried (h : Form.rpc.CarriesSlots r r' v v') :
    Carried (Rpc.ofJson? (r + 1)) (Rpc.ofJson? (r' + 1)) v v' := by
  intro x hx
  rw [Rpc.ofJson?.eq_def] at hx
  split at hx
  · next name inStream inType outStream outType options hroom hfields =>
    cases hroom
    obtain ⟨as', hfields', hc⟩ := h _ hfields
    rcases hc with _ | ⟨hname, hc⟩
    rcases hc with _ | ⟨hin, hc⟩
    rcases hc with _ | ⟨hinType, hc⟩
    rcases hc with _ | ⟨hout, hc⟩
    rcases hc with _ | ⟨houtType, hc⟩
    rcases hc with _ | ⟨hoptions, hc⟩
    cases hc
    obtain ⟨name', rfl, hname'⟩ := hname.required rfl
    obtain ⟨inType', rfl, hinType'⟩ := hinType.required rfl
    obtain ⟨outType', rfl, houtType'⟩ := houtType.required rfl
    obtain ⟨n, hn, hx⟩ := Option.bind_eq_some_iff.1 hx
    obtain ⟨b, hb, hx⟩ := Option.bind_eq_some_iff.1 hx
    obtain ⟨i, hi, hx⟩ := Option.bind_eq_some_iff.1 hx
    obtain ⟨c, hc, hx⟩ := Option.bind_eq_some_iff.1 hx
    obtain ⟨o, ho, hx⟩ := Option.bind_eq_some_iff.1 hx
    obtain ⟨os, hos, hx⟩ := Option.bind_eq_some_iff.1 hx
    change v'.fields? ["name", "in_stream", "in_type", "out_stream", "out_type", "options"] = _
      at hfields'
    simp only [Rpc.ofJson?, hfields']
    rw [hname' n hn, hin.orElse_flag hb, hinType' i hi, hout.orElse_flag hc, houtType' o ho,
      hoptions.orElse_settings hos]
    exact hx
  · cases hx

theorem ReservedItem.carried_range (h : Form.range.CarriesSlots r r' v v') :
    Carried (ReservedItem.rangeOfJson? (r + 1)) (ReservedItem.rangeOfJson? (r' + 1)) v v' := by
  intro x hx
  rw [ReservedItem.rangeOfJson?] at hx
  split at hx
  · next first last hfields =>
    obtain ⟨as', hfields', hc⟩ := h _ hfields
    rcases hc with _ | ⟨hfirst, hc⟩
    rcases hc with _ | ⟨hlast, hc⟩
    cases hc
    obtain ⟨first', rfl, hfirst'⟩ := hfirst.required rfl
    obtain ⟨last', rfl, hlast'⟩ := hlast.required rfl
    obtain ⟨m, hm, hx⟩ := Option.bind_eq_some_iff.1 hx
    obtain ⟨n, hn, hx⟩ := Option.bind_eq_some_iff.1 hx
    change v'.fields? ["start", "end"] = _ at hfields'
    simp only [ReservedItem.rangeOfJson?, hfields']
    rw [hfirst' m hm, hlast' n hn]
    exact hx
  · cases hx

theorem Schema.carried (h : Form.schema.CarriesSlots r r' v v') :
    Carried (Schema.ofJsonWithin? (r + 1)) (Schema.ofJsonWithin? (r' + 1)) v v' := by
  intro x hx
  rw [Schema.ofJsonWithin?.eq_def] at hx
  split at hx
  · next package definitions hroom hfields =>
    cases hroom
    obtain ⟨as', hfields', hc⟩ := h _ hfields
    rcases hc with _ | ⟨hpackage, hc⟩
    rcases hc with _ | ⟨hdefinitions, hc⟩
    cases hc
    obtain ⟨p, hp, hx⟩ := Option.bind_eq_some_iff.1 hx
    obtain ⟨ds, hds, hx⟩ := Option.bind_eq_some_iff.1 hx
    have hds' := hdefinitions.orElse_list
      (fun _ _ _ _ (hu : Form.definition.Carries _ _ _ _) => hu) hds
    change v'.fields? ["package", "definitions"] = _ at hfields'
    simp only [Schema.ofJsonWithin?, hfields']
    rw [hpackage.orElse_text hp, hds']
    exact hx
  · cases hx

/-- The keys of a type are carried over if it is written as an object. -/
theorem TypeExpr.carried {ms ms' : List (Text × Value)}
    (h : Form.typeExpr.CarriesSlots r r' (.object ms) (.object ms')) :
    Carried TypeExpr.ofJson? TypeExpr.ofJson? (.object ms) (.object ms') := by
  intro x hx
  rw [TypeExpr.ofJson?] at hx
  split at hx
  · next key value hfields =>
    obtain ⟨as', hfields', hc⟩ := h _ hfields
    rcases hc with _ | ⟨hkey, hc⟩
    rcases hc with _ | ⟨hvalue, hc⟩
    cases hc
    obtain ⟨key', rfl, hkey'⟩ := hkey.required rfl
    obtain ⟨value', rfl, hvalue'⟩ := hvalue.required rfl
    obtain ⟨k, hk, hx⟩ := Option.bind_eq_some_iff.1 hx
    obtain ⟨w, hw, hx⟩ := Option.bind_eq_some_iff.1 hx
    change (Value.object ms').fields? ["key", "value"] = _ at hfields'
    simp only [TypeExpr.ofJson?, hfields']
    rw [hkey' k hk, hvalue' w hw]
    exact hx
  · cases hx

/-- Whether the members of a field are readable, except for those under keys of its own. -/
def Field.areReadable (room : Nat) (members : List (Text × Value)) : Bool :=
  members.all fun (key, value) => ownKeys.any (some · == key) || value.isReadable room

theorem Field.carried {ms ms' : List (Text × Value)}
    (h : Form.field.CarriesSlots r r' (.object ms) (.object ms'))
    (hread : Field.areReadable r ms = true → Field.areReadable r' ms' = true) :
    Carried (Field.ofJson? (r + 1)) (Field.ofJson? (r' + 1)) (.object ms) (.object ms') := by
  intro x hx
  rw [Field.ofJson?] at hx
  split at hx
  · next hreadable =>
    split at hx
    · next name tag options optional repeated type hfields =>
      obtain ⟨as', hfields', hc⟩ := h _ hfields
      rcases hc with _ | ⟨hname, hc⟩
      rcases hc with _ | ⟨htag, hc⟩
      rcases hc with _ | ⟨hoptions, hc⟩
      rcases hc with _ | ⟨hoptional, hc⟩
      rcases hc with _ | ⟨hrepeated, hc⟩
      rcases hc with _ | ⟨htype, hc⟩
      cases hc
      obtain ⟨name', rfl, hname'⟩ := hname.required rfl
      obtain ⟨tag', rfl, htag'⟩ := htag.required rfl
      obtain ⟨n, hn, hx⟩ := Option.bind_eq_some_iff.1 hx
      obtain ⟨t, ht, hx⟩ := Option.bind_eq_some_iff.1 hx
      obtain ⟨os, hos, hx⟩ := Option.bind_eq_some_iff.1 hx
      obtain ⟨b, hb, hx⟩ := Option.bind_eq_some_iff.1 hx
      obtain ⟨c, hc, hx⟩ := Option.bind_eq_some_iff.1 hx
      obtain ⟨e, he, hx⟩ := Option.bind_eq_some_iff.1 hx
      change (Value.object ms').fields? (ownKeys ++ ["optional", "repeated", "type"]) = _
        at hfields'
      have hreadable' := hread hreadable
      rw [Field.areReadable] at hreadable'
      rw [Field.ofJson?, if_pos hreadable']
      simp only [hfields']
      rw [hname' n hn, htag' t ht, hoptions.orElse_settings hos, hoptional.orElse_flag hb,
        hrepeated.orElse_flag hc, htype.orElse_type he]
      exact hx
    · cases hx
  · cases hx

end

section

variable {r r' : Nat} {v v' : Value}

/-- A nested message from its document form, in an object with room for it. -/
def Member.nestedOfJson? (room : Nat) (v : Value) : Option Member :=
  match v.fields? ["name", "members"] with
  | some [some name, none] => name.text?.map fun name => .message name []
  | some [some name, some members] =>
    match room, members with
    | room + 1, .array items => do
      return .message (← name.text?) (← items.mapM (Member.ofJson? room))
    | _, _ => none
  | _ => none

theorem Member.nestedOfJson?_eq (room : Nat) (v : Value) :
    Member.nestedOfJson? room v =
      (Message.ofJson? (room + 1) v).map fun m => .message m.name m.members := by
  rw [Member.nestedOfJson?]
  rw [Message.ofJson?, Decode.named.eq_def]
  cases v.fields? ["name", "members"] with
  | none => rfl
  | some as =>
    split
    · next name heq =>
      cases heq
      simp only [Decode.orElse]
      cases name.text? <;> rfl
    · next name members heq =>
      cases heq
      split
      · next k items =>
        cases hname : name.text? with
        | none => simp [hname]
        | some n =>
          simp only [hname, Decode.orElse, Decode.list]
          cases items.mapM (Member.ofJson? k) <;> rfl
      · next hlist =>
        have hnone : Decode.list Member.ofJson? room members = none := by
          rw [Decode.list.eq_def]
          split
          · next k items => exact (hlist k items rfl rfl).elim
          · rfl
        simp only [Decode.orElse, hnone]
        cases name.text? <;> rfl
    · next h1 h2 =>
      split
      · next k name members _ heq =>
        cases heq
        cases members with
        | none => exact (h1 name rfl).elim
        | some members => exact (h2 name members rfl).elim
      · rfl

theorem Member.ofJson?_succ (room : Nat) (v : Value) :
    Member.ofJson? (room + 1) v =
      match Decode.variant? (room + 1) v with
      | some ("field", room, p) => (Field.ofJson? room p).map .field
      | some ("one_of", room, p) => (OneOf.ofJson? room p).map .oneOf
      | some ("nested_enum", room, p) => (Enumeration.ofJson? room p).map .enumeration
      | some ("nested_message", room, p) =>
        (Message.ofJson? room p).map fun m => .message m.name m.members
      | some ("option", room, p) => (OptionSetting.ofJson? room p).map .option
      | some ("reserved", room, p) => (Decode.list ReservedItem.ofJson? room p).map .reserved
      | _ => none := by
  rw [Member.ofJson?.eq_def, Decode.variant?.eq_def]
  cases hv : v.variant? with
  | none => rfl
  | some q =>
    obtain ⟨tag, p⟩ := q
    simp only
    split
    · next heq hroom => cases heq; cases hroom; rfl
    · next heq hroom => cases heq; cases hroom; rfl
    · next heq hroom => cases heq; cases hroom; rfl
    · next heq hroom => 
      cases heq; cases hroom
      exact Member.nestedOfJson?_eq _ p
    · next heq hroom => cases heq; cases hroom; rfl
    · next heq hroom => cases heq; cases hroom; rfl
    · next h1 h2 h3 h4 h5 h6 =>
      split
      · next heq => cases heq; exact (h1 _ _ rfl rfl).elim
      · next heq => cases heq; exact (h2 _ _ rfl rfl).elim
      · next heq => cases heq; exact (h3 _ _ rfl rfl).elim
      · next heq =>
        cases heq
        cases room with
        | zero => simp [Message.ofJson?, Decode.named]
        | succ room => exact (h4 _ _ rfl rfl).elim
      · next heq => cases heq; exact (h5 _ _ rfl rfl).elim
      · next heq => cases heq; exact (h6 _ _ rfl rfl).elim
      · rfl

theorem ReservedItem.ofJson?_succ (room : Nat) (v : Value) :
    ReservedItem.ofJson? (room + 1) v =
      match Decode.variant? (room + 1) v with
      | some ("tag", _, p) => p.word?.map .tag
      | some ("range", room, p) => (ReservedItem.rangeOfJson? room p).map id
      | some ("name", _, p) => p.text?.map .name
      | _ => none := by
  rw [ReservedItem.ofJson?.eq_def]
  split
  · next hv => simp only [hv]
  · next k p hv =>
    simp only [hv, Option.map_id, id]
    rfl
  · next hv => simp only [hv]
  · next htag hrange hname =>
    split
    · next hv => exact absurd hv (htag _ _)
    · next k p hv =>
      cases k with
      | zero => rfl
      | succ k => exact absurd hv (hrange _ _)
    · next hv => exact absurd hv (hname _ _)
    · rfl

theorem Decode.Carried.map {α β : Type} {decode decode' : Value → Option α} {f : α → β} {x : β}
    (h : Carried decode decode' v v') (hx : (decode v).map f = some x) :
    (decode' v').map f = some x := by
  obtain ⟨y, hy, rfl⟩ := Option.map_eq_some_iff.1 hx
  rw [h y hy]
  rfl

/-- The payload of a value with the form is carried over to that of another value. -/
def Form.CarriesPayload (f : Form) (r r' : Nat) (v v' : Value) : Prop :=
  ∀ tag p, v.variant? = some (tag, p) → ∀ t, f.variants.lookup tag = some t →
    ∃ p', v'.variant? = some (tag, p') ∧ t.Carries r r' p p'

theorem Form.CarriesPayload.exists_payload {f t : Form} {tag : String} {room : Nat} {p : Value}
    (h : f.CarriesPayload r r' v v') (hv : Decode.variant? (r + 1) v = some (tag, room, p))
    (ht : f.variants.lookup tag = some t) :
    room = r ∧ ∃ p', Decode.variant? (r' + 1) v' = some (tag, r', p') ∧ t.Carries r r' p p' := by
  rw [Decode.variant?.eq_def] at hv
  split at hv
  · next hroom hvariant =>
    cases hroom
    cases hv
    obtain ⟨p', hv', hp⟩ := h tag p hvariant t ht
    refine ⟨rfl, p', ?_, hp⟩
    simp only [Decode.variant?, hv']
  · cases hv

/-- What is read of a variant is also read of the value that its payload is carried over to. -/
theorem Form.CarriesPayload.read {α β : Type} {f t : Form} {tag : String} {room : Nat} {p : Value}
    {decode : Nat → Value → Option β} {wrap : β → α} {read : Option α} {x : α}
    (h : f.CarriesPayload r r' v v') (hv : Decode.variant? (r + 1) v = some (tag, room, p))
    (ht : f.variants.lookup tag = some t) (hx : (decode room p).map wrap = some x)
    (hpayload : ∀ p', t.Carries r r' p p' → Carried (decode r) (decode r') p p')
    (hread : ∀ p', Decode.variant? (r' + 1) v' = some (tag, r', p') →
      read = (decode r' p').map wrap) : read = some x := by
  obtain ⟨rfl, p', hv', hp⟩ := h.exists_payload hv ht
  rw [hread p' hv']
  exact (hpayload p' hp).map hx

theorem Definition.carried (h : Form.definition.CarriesPayload r r' v v') :
    Carried (Definition.ofJson? (r + 1)) (Definition.ofJson? (r' + 1)) v v' := by
  intro x hx
  rw [Definition.ofJson?] at hx
  split at hx
  case h_4 => cases hx
  all_goals
    next hv =>
    exact h.read hv rfl hx (fun _ hp => hp) fun _ hv' => by rw [Definition.ofJson?, hv']; rfl

theorem Member.carried (h : Form.member.CarriesPayload r r' v v') :
    Carried (Member.ofJson? (r + 1)) (Member.ofJson? (r' + 1)) v v' := by
  intro x hx
  rw [Member.ofJson?_succ] at hx
  split at hx
  case h_6 hv =>
    refine h.read hv rfl hx (fun _ hp => ?_) fun _ hv' => by rw [Member.ofJson?_succ, hv']; rfl
    exact Decode.carried_list (fun _ _ _ _ (hu : Form.reservedItem.Carries _ _ _ _) => hu) hp
  case h_7 => cases hx
  all_goals
    next hv =>
    exact h.read hv rfl hx (fun _ hp => hp) fun _ hv' => by rw [Member.ofJson?_succ, hv']; rfl

theorem OneOfMember.carried (h : Form.oneOfMember.CarriesPayload r r' v v') :
    Carried (OneOfMember.ofJson? (r + 1)) (OneOfMember.ofJson? (r' + 1)) v v' := by
  intro x hx
  rw [OneOfMember.ofJson?] at hx
  split at hx
  case h_3 => cases hx
  all_goals
    next hv =>
    exact h.read hv rfl hx (fun _ hp => hp) fun _ hv' => by rw [OneOfMember.ofJson?, hv']; rfl

theorem EnumMember.carried (h : Form.enumMember.CarriesPayload r r' v v') :
    Carried (EnumMember.ofJson? (r + 1)) (EnumMember.ofJson? (r' + 1)) v v' := by
  intro x hx
  rw [EnumMember.ofJson?] at hx
  split at hx
  case h_3 => cases hx
  all_goals
    next hv =>
    exact h.read hv rfl hx (fun _ hp => hp) fun _ hv' => by rw [EnumMember.ofJson?, hv']; rfl

theorem ServiceMember.carried (h : Form.serviceMember.CarriesPayload r r' v v') :
    Carried (ServiceMember.ofJson? (r + 1)) (ServiceMember.ofJson? (r' + 1)) v v' := by
  intro x hx
  rw [ServiceMember.ofJson?] at hx
  split at hx
  case h_3 => cases hx
  all_goals
    next hv =>
    exact h.read hv rfl hx (fun _ hp => hp) fun _ hv' => by rw [ServiceMember.ofJson?, hv']; rfl

theorem ReservedItem.carried (h : Form.reservedItem.CarriesPayload r r' v v') :
    Carried (ReservedItem.ofJson? (r + 1)) (ReservedItem.ofJson? (r' + 1)) v v' := by
  intro x hx
  rw [ReservedItem.ofJson?_succ] at hx
  split at hx
  case h_4 => cases hx
  all_goals
    next hv =>
    refine h.read hv rfl hx (fun _ hp => ?_) fun _ hv' => by
      rw [ReservedItem.ofJson?_succ, hv']
      rfl
    exact hp

end

end WireModel
