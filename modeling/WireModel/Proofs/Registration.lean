import WireModel.Proofs.Resolution

namespace WireModel

open Outcome

namespace Member

mutual

/-- How many messages and enumerations a member declares, itself included. -/
def typeCount : Member → Nat
  | .message _ members => typeCountOf members + 1
  | .enumeration _ => 1
  | .field _ | .oneOf _ | .option _ | .reserved _ => 0

def typeCountOf : List Member → Nat
  | [] => 0
  | m :: ms => m.typeCount + typeCountOf ms

end

theorem ownEnumerations_cons (scope : TypeName) (m : Member) (ms : List Member) :
    ownEnumerations scope (m :: ms) = ownEnumerations scope [m] ++ ownEnumerations scope ms := by
  rw [ownEnumerations, ← List.singleton_append, List.filterMap_append]
  rfl

mutual

theorem length_messages (scope : TypeName) :
    ∀ m : Member, (m.messages scope).length +
      ((ownEnumerations scope [m]).length + (m.enumerations scope).length) = m.typeCount
  | .message name members => by
    have h := length_messagesOf (scope.child name) members
    rw [messages, enumerations, typeCount, ← h, List.length_cons, List.length_append]
    change _ + (0 + _) = _
    omega
  | .field _ | .oneOf _ | .enumeration _ | .option _ | .reserved _ => rfl

/-- What a list of members declares is found by one of the three traversals, and by one only. -/
theorem length_messagesOf (scope : TypeName) :
    ∀ ms : List Member, (messagesOf scope ms).length +
      ((ownEnumerations scope ms).length + (nestedEnumerations scope ms).length) = typeCountOf ms
  | [] => rfl
  | m :: ms => by
    have hm := length_messages scope m
    have hms := length_messagesOf scope ms
    rw [messagesOf, ownEnumerations_cons, nestedEnumerations, typeCountOf, ← hm, ← hms]
    simp only [List.length_append]
    omega

end

end Member

def Definition.typeCount : Definition → Nat
  | .message m => Member.typeCountOf m.members + 1
  | .enumeration _ => 1
  | .service _ => 0

/-- How many messages and enumerations a schema declares, at every level of nesting. -/
def Schema.typeCount (s : Schema) : Nat :=
  s.definitions.foldr (fun d count => d.typeCount + count) 0

theorem Definition.length_messages (d : Definition) :
    d.messages.length + d.enumerations.length = d.typeCount := by
  cases d with
  | message m =>
    have h := Member.length_messagesOf ⟨m.name⟩ m.members
    rw [messages, enumerations, typeCount, ← h, List.length_cons, List.length_append]
    omega
  | enumeration e => rfl
  | service d => rfl

theorem Schema.length_names (s : Schema) : s.names.length = s.typeCount := by
  rw [names, List.length_append, List.length_map, List.length_map, messages, enumerations,
    typeCount]
  induction s.definitions with
  | nil => rfl
  | cons d ds ih =>
    rw [List.flatMap_cons, List.flatMap_cons, List.foldr_cons, ← ih, ← d.length_messages,
      List.length_append, List.length_append]
    omega

namespace Symbols

/-- The table has every type of the schema under its sort, and nothing else. -/
structure Registers (t : Symbols) (s : Schema) : Prop where
  messages : ∀ n, t.category? n = some .message ↔ n ∈ s.messages.map Prod.fst
  enumerations : ∀ n, t.category? n = some .enumeration ↔ n ∈ s.enumerations.map Prod.fst
  others : ∀ n, t.category? n = none ↔
    n ∉ s.messages.map Prod.fst ∧ n ∉ s.enumerations.map Prod.fst
  size : t.entries.length = s.typeCount

theorem registers_symbols {s : Schema} (hn : s.names.Nodup) : s.symbols.Registers s := by
  have hnodup : (s.symbols.entries.map Prod.fst).Nodup := by
    rw [← map_fst_declarations] at hn
    exact hn
  constructor
  · intro n
    rw [category?_eq_some_iff hnodup, Schema.symbols, mem_declarations_message]
    simp
  · intro n
    rw [category?_eq_some_iff hnodup, Schema.symbols, mem_declarations_enumeration]
    simp
  · intro n
    rw [category?_eq_none_iff, Schema.symbols, map_fst_declarations, Schema.names,
      List.mem_append, not_or]
  · rw [← s.length_names, ← map_fst_declarations, List.length_map]
    rfl

/-- A table is built exactly if no full name comes twice, and then it has what the schema declares.
Otherwise the answer names the first type whose name an earlier one has, and the sort of that
one. -/
theorem ofSchema_exact (s : Schema) :
    ((∃ t, ofSchema s = .ok t) ↔ s.names.Nodup) ∧
    (∀ t, ofSchema s = .ok t → t.Registers s) ∧
    ∀ e, ofSchema s = .error e ↔ ∃ before n c after earlier,
      declarations s = before ++ (n, c) :: after ∧ (before.map Prod.fst).Nodup ∧
      (n, earlier) ∈ before ∧ e = .duplicateDefinition earlier n := by
  refine ⟨?_, ?_, ?_⟩
  · simp only [ofSchema_eq_ok_iff, exists_and_left, exists_eq, and_true]
  · intro t ht
    obtain ⟨hn, rfl⟩ := ofSchema_eq_ok_iff.1 ht
    exact registers_symbols hn
  · intro e
    rw [ofSchema_eq_error_iff]
    simp only [Prod.exists]

-- Messages are declared first, so the enumeration comes second although it stands first.
example :
    ofSchema { definitions := [
      .enumeration ⟨"Order.Part", [.value { name := "NONE", tag := 0 }]⟩,
      .message ⟨"Order", [.message "Part" []]⟩] } =
    .error (.duplicateDefinition .message ⟨"Order.Part"⟩) :=
  rfl

end Symbols

end WireModel
