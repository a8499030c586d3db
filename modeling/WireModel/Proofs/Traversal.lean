import WireModel.Schema.Traversal

namespace WireModel

namespace Member

mutual

theorem enumerations_eq (scope : TypeName) :
    ∀ m : Member, m.enumerations scope =
      (m.messages scope).flatMap fun p => ownEnumerations p.1 p.2.members
  | .message name members => by
    rw [enumerations, nestedEnumerations_eq (scope.child name) members, messages, List.flatMap_cons]
  | .field _ | .oneOf _ | .enumeration _ | .option _ | .reserved _ => rfl

theorem nestedEnumerations_eq (scope : TypeName) :
    ∀ ms : List Member, nestedEnumerations scope ms =
      (messagesOf scope ms).flatMap fun p => ownEnumerations p.1 p.2.members
  | [] => rfl
  | m :: ms => by
    rw [nestedEnumerations, enumerations_eq scope m, nestedEnumerations_eq scope ms, messagesOf,
      List.flatMap_append]

end

theorem mem_ownEnumerations_iff {scope : TypeName} {ms : List Member} {e : TypeName × Enumeration} :
    e ∈ ownEnumerations scope ms ↔ .enumeration e.2 ∈ ms ∧ e.1 = scope.child e.2.name := by
  obtain ⟨n, e⟩ := e
  simp only [ownEnumerations, List.mem_filterMap]
  refine ⟨?_, ?_⟩
  · intro h
    obtain ⟨m, hm, h⟩ := h
    cases m <;> cases h
    exact ⟨hm, rfl⟩
  · rintro ⟨hm, rfl⟩
    exact ⟨_, hm, rfl⟩

/-- A property of messages that goes over to the messages in them. -/
def Inherited (P : TypeName → Message → Prop) : Prop :=
  ∀ n m name members, P n m → .message name members ∈ m.members → P (n.child name) ⟨name, members⟩

variable {P : TypeName → Message → Prop}

mutual

theorem forall_messages (nested : Inherited P) {scope : TypeName} : ∀ {m : Member},
    (∀ name members, m = .message name members → P (scope.child name) ⟨name, members⟩) →
      ∀ p ∈ m.messages scope, P p.1 p.2
  | .message name members, h, p, hp => by
    have hown := h name members rfl
    obtain rfl | hp := List.mem_cons.1 hp
    · exact hown
    · exact forall_messagesOf nested (fun sub subs hs => nested _ _ sub subs hown hs) p hp

theorem forall_messagesOf (nested : Inherited P) {scope : TypeName} : ∀ {ms : List Member},
    (∀ name members, .message name members ∈ ms → P (scope.child name) ⟨name, members⟩) →
      ∀ p ∈ messagesOf scope ms, P p.1 p.2
  | m :: ms, h, p, hp => by
    obtain hp | hp := List.mem_append.1 hp
    · refine forall_messages nested (fun name members he => h name members ?_) p hp
      rw [he]
      exact List.mem_cons_self
    · exact forall_messagesOf nested
        (fun name members hm => h name members (List.mem_cons_of_mem m hm)) p hp

end

end Member

/-- What holds of the messages at the top level, and of those in a message of which it holds, holds
of all messages. -/
theorem Schema.messages_induction {s : Schema} {P : TypeName → Message → Prop}
    (top : ∀ m, .message m ∈ s.definitions → P ⟨m.name⟩ m)
    (nested : Member.Inherited P) : ∀ p ∈ s.messages, P p.1 p.2 := by
  intro p hp
  obtain ⟨d, hd, hp⟩ := List.mem_flatMap.1 hp
  cases d with
  | message m =>
    have hown := top m hd
    obtain rfl | hp := List.mem_cons.1 hp
    · exact hown
    · exact Member.forall_messagesOf nested
        (fun name members hm => nested _ m name members hown hm) p hp
  | enumeration e => cases hp
  | service s => cases hp

/-- An enumeration stands at the top level or directly in a message. -/
theorem Schema.mem_enumerations_cases {s : Schema} {e : TypeName × Enumeration}
    (h : e ∈ s.enumerations) :
    (.enumeration e.2 ∈ s.definitions ∧ e.1 = ⟨e.2.name⟩) ∨
      ∃ p ∈ s.messages, .enumeration e.2 ∈ p.2.members ∧ e.1 = p.1.child e.2.name := by
  obtain ⟨d, hd, he⟩ := List.mem_flatMap.1 h
  have hin {p : TypeName × Message} (hp : p ∈ d.messages) : p ∈ s.messages :=
    List.mem_flatMap.2 ⟨d, hd, hp⟩
  cases d with
  | message m =>
    obtain he | he := List.mem_append.1 he
    · exact .inr ⟨_, hin List.mem_cons_self, Member.mem_ownEnumerations_iff.1 he⟩
    · rw [Member.nestedEnumerations_eq] at he
      obtain ⟨p, hp, he⟩ := List.mem_flatMap.1 he
      exact .inr ⟨p, hin (List.mem_cons_of_mem _ hp), Member.mem_ownEnumerations_iff.1 he⟩
  | enumeration d =>
    obtain rfl := List.mem_singleton.1 he
    exact .inl ⟨hd, rfl⟩
  | service d => cases he

end WireModel
