import WireModel.Proofs.JsonReading

namespace WireModel.Json

namespace Value

mutual

/-- The tokens of a value, in order. -/
def tokens : Value → List Token
  | .null => [.null]
  | .bool b => [.bool b]
  | .number n => [.number n]
  | .string t => [.string t]
  | .array items => .openArray :: (itemTokens items ++ [.closeArray])
  | .object members => .openObject :: (memberTokens members ++ [.closeObject])

def itemTokens : List Value → List Token
  | [] => []
  | [v] => v.tokens
  | v :: vs => v.tokens ++ .comma :: itemTokens vs

def memberTokens : List (Text × Value) → List Token
  | [] => []
  | [(key, v)] => .string key :: .colon :: v.tokens
  | (key, v) :: ms => .string key :: .colon :: (v.tokens ++ .comma :: memberTokens ms)

end

/-- The tokens of elements that are followed by another one. -/
def leadingItems (items : List Value) : List Token :=
  items.flatMap fun v => v.tokens ++ [.comma]

def leadingMembers (members : List (Text × Value)) : List Token :=
  members.flatMap fun m => .string m.1 :: .colon :: (m.2.tokens ++ [.comma])

theorem itemTokens_append_singleton (items : List Value) (v : Value) :
    itemTokens (items ++ [v]) = leadingItems items ++ v.tokens := by
  induction items with
  | nil => rfl
  | cons u us ih =>
    have hne : us ++ [v] ≠ [] := by simp
    rw [List.cons_append, itemTokens.eq_3 _ _ hne, ih]
    simp [leadingItems]

theorem memberTokens_append_singleton (members : List (Text × Value)) (key : Text) (v : Value) :
    memberTokens (members ++ [(key, v)]) =
      leadingMembers members ++ .string key :: .colon :: v.tokens := by
  induction members with
  | nil => rfl
  | cons m ms ih =>
    have hne : ms ++ [(key, v)] ≠ [] := by simp
    rw [List.cons_append, memberTokens.eq_3 _ _ _ hne, ih]
    simp [leadingMembers]

end Value

/-- The tokens at the start of a text, with blanks before them, and what follows them. -/
inductive Consumes : List Token → List Char → List Char → Prop
  | done (cs : List Char) : Consumes [] cs cs
  | blank {c : Char} (hc : Token.isBlank c = true) {ts : List Token} {cs rest : List Char}
    (h : Consumes ts cs rest) : Consumes ts (c :: cs) rest
  | token {t : Token} {cs mid : List Char} (ht : Token.scan cs = some (t, mid)) {ts : List Token}
    {rest : List Char} (h : Consumes ts mid rest) : Consumes (t :: ts) cs rest

/-- A text that consists of the tokens of a value and blanks. -/
def Value.Spells (v : Value) (text : String) : Prop :=
  Consumes v.tokens text.toList []

/-- The tokens of a container that have been read before the part being read. -/
def Frame.tokens : Frame → List Token
  | .array done => .openArray :: Value.leadingItems done.reverse
  | .object done key => .openObject :: (Value.leadingMembers done.reverse ++ [.string key, .colon])

namespace Progress

def stackTokens : List Frame → List Token
  | [] => []
  | f :: stack => stackTokens stack ++ f.tokens

/-- The tokens that have been read. -/
def tokens : Progress → List Token
  | .expectValue stack => stackTokens stack
  | .openedArray stack => stackTokens stack ++ [.openArray]
  | .openedObject stack => stackTokens stack ++ [.openObject]
  | .expectKey done stack => stackTokens stack ++ .openObject :: Value.leadingMembers done.reverse
  | .expectColon done key stack =>
    stackTokens stack ++ .openObject :: (Value.leadingMembers done.reverse ++ [.string key])
  | .complete v stack => stackTokens stack ++ v.tokens

/-- Several tokens, one after another. -/
def run (p : Progress) (ts : List Token) : Option Progress :=
  ts.foldlM step p

variable {p q : Progress} {t : Token} {ts : List Token} {stack : List Frame}

theorem run_cons : p.run (t :: ts) = (p.step t).bind fun q => q.run ts :=
  List.foldlM_cons

theorem tokens_of_start (h : start stack t = some q) : q.tokens = stackTokens stack ++ [t] := by
  cases t <;> cases h <;> rfl

/-- One more token has been read after a step. -/
theorem tokens_of_step (h : p.step t = some q) : q.tokens = p.tokens ++ [t] := by
  cases p with
  | expectValue stack => exact tokens_of_start h
  | openedArray stack =>
    by_cases ht : t = .closeArray
    · subst ht
      cases h
      simp [tokens, Value.tokens, Value.itemTokens]
    · rw [awaits_openedArray stack t ht] at h
      rw [tokens_of_start h]
      simp [tokens, stackTokens, Frame.tokens, Value.leadingItems]
  | openedObject stack =>
    cases t with
    | closeObject =>
      cases h
      simp [tokens, Value.tokens, Value.memberTokens]
    | string key =>
      cases h
      simp [tokens, Value.leadingMembers]
    | _ => cases h
  | expectKey done stack =>
    cases t with
    | string key =>
      cases h
      simp [tokens]
    | _ => cases h
  | expectColon done key stack =>
    cases t with
    | colon =>
      cases h
      simp [tokens, stackTokens, Frame.tokens]
    | _ => cases h
  | complete v stack =>
    cases stack with
    | nil => cases t <;> cases h
    | cons f stack =>
      cases f with
      | array vs =>
        cases t with
        | comma =>
          cases h
          simp [tokens, stackTokens, Frame.tokens, Value.leadingItems]
        | closeArray =>
          cases h
          simp [tokens, stackTokens, Frame.tokens, Value.tokens,
            Value.itemTokens_append_singleton]
        | _ => cases h
      | object ms key =>
        cases t with
        | comma =>
          cases h
          simp [tokens, stackTokens, Frame.tokens, Value.leadingMembers]
        | closeObject =>
          cases h
          simp [tokens, stackTokens, Frame.tokens, Value.tokens,
            Value.memberTokens_append_singleton]
        | _ => cases h

theorem tokens_of_run (h : p.run ts = some q) : q.tokens = p.tokens ++ ts := by
  induction ts generalizing p with
  | nil =>
    cases h
    rw [List.append_nil]
  | cons t ts ih =>
    rw [run_cons] at h
    obtain ⟨r, hr, h⟩ := Option.bind_eq_some_iff.1 h
    rw [ih h, tokens_of_step hr, List.append_assoc, List.singleton_append]

mutual

/-- A value is complete once its tokens have been read, whatever is still open. -/
theorem run_value : ∀ (v : Value) {p : Progress} {stack : List Frame}, Awaits stack p →
    ∀ ts, p.run (v.tokens ++ ts) = (complete v stack).run ts
  | .null, _, _, hp, ts => by
    rw [Value.tokens, List.singleton_append, run_cons, hp _ (by simp)]
    rfl
  | .bool b, _, _, hp, ts => by
    rw [Value.tokens, List.singleton_append, run_cons, hp _ (by simp)]
    rfl
  | .number n, _, _, hp, ts => by
    rw [Value.tokens, List.singleton_append, run_cons, hp _ (by simp)]
    rfl
  | .string t, _, _, hp, ts => by
    rw [Value.tokens, List.singleton_append, run_cons, hp _ (by simp)]
    rfl
  | .array items, p, stack, hp, ts => by
    have hitems := @run_items items [] (.openedArray stack) stack
    rw [Value.tokens, List.cons_append, run_cons, hp _ (by simp), List.append_assoc]
    change (openedArray stack).run (Value.itemTokens items ++ .closeArray :: ts) = _
    cases items with
    | nil => rfl
    | cons v vs => exact hitems (List.cons_ne_nil v vs) (awaits_openedArray stack) ts
  | .object members, p, stack, hp, ts => by
    have hmembers := @run_members members [] (.openedObject stack) stack
    rw [Value.tokens, List.cons_append, run_cons, hp _ (by simp), List.append_assoc]
    change (openedObject stack).run (Value.memberTokens members ++ .closeObject :: ts) = _
    cases members with
    | nil => rfl
    | cons m ms => exact hmembers (List.cons_ne_nil m ms) (awaitsKey_openedObject stack) ts

theorem run_items : ∀ (items : List Value) {done : List Value} {p : Progress} {stack : List Frame},
    items ≠ [] → Awaits (.array done :: stack) p → ∀ ts,
      p.run (Value.itemTokens items ++ .closeArray :: ts) =
        (complete (.array (done.reverse ++ items)) stack).run ts
  | [], _, _, _, hne, _, _ => (hne rfl).elim
  | [v], done, p, stack, _, hp, ts => by
    rw [Value.itemTokens, run_value v hp, run_cons]
    simp [step]
  | v :: w :: ws, done, p, stack, _, hp, ts => by
    have htail := run_items (w :: ws) (List.cons_ne_nil w ws)
      (awaits_expectValue (.array (v :: done) :: stack)) ts
    rw [Value.itemTokens.eq_3 v _ (List.cons_ne_nil w ws), List.append_assoc, run_value v hp,
      List.cons_append, run_cons]
    simpa [step] using htail

theorem run_members : ∀ (members : List (Text × Value)) {done : List (Text × Value)} {p : Progress}
    {stack : List Frame}, members ≠ [] → AwaitsKey done stack p → ∀ ts,
      p.run (Value.memberTokens members ++ .closeObject :: ts) =
        (complete (.object (done.reverse ++ members)) stack).run ts
  | [], _, _, _, hne, _, _ => (hne rfl).elim
  | [(key, v)], done, p, stack, _, hp, ts => by
    rw [Value.memberTokens, List.cons_append, run_cons, hp, Option.bind_some, List.cons_append,
      run_cons]
    change (expectValue (.object done key :: stack)).run _ = _
    rw [run_value v (awaits_expectValue _), run_cons]
    simp [step]
  | (key, v) :: m :: ms, done, p, stack, _, hp, ts => by
    have htail := run_members (m :: ms) (List.cons_ne_nil m ms)
      (awaitsKey_expectKey ((key, v) :: done) stack) ts
    rw [Value.memberTokens.eq_3 key v _ (List.cons_ne_nil m ms), List.cons_append, run_cons, hp,
      Option.bind_some, List.cons_append, run_cons]
    change (expectValue (.object done key :: stack)).run _ = _
    rw [List.append_assoc, run_value v (awaits_expectValue _), List.cons_append, run_cons]
    simpa [step] using htail

end

/-- Reading a text is running over its tokens. -/
theorem read_eq_some_iff {cs : List Char} :
    p.read cs = some q ↔ ∃ ts, Consumes ts cs [] ∧ p.run ts = some q := by
  refine ⟨?_, ?_⟩
  · intro h
    fun_induction read p cs with
    | case1 p =>
      cases h
      exact ⟨[], .done [], rfl⟩
    | case2 p c rest hc ih =>
      obtain ⟨ts, hts, hrun⟩ := ih h
      exact ⟨ts, .blank hc hts, hrun⟩
    | case3 => cases h
    | case4 => cases h
    | case5 p c rest hc t rest' hscan r hstep ih =>
      obtain ⟨ts, hts, hrun⟩ := ih h
      refine ⟨t :: ts, .token hscan hts, ?_⟩
      rw [run_cons, hstep]
      exact hrun
  · rintro ⟨ts, hts, hrun⟩
    generalize hrest : ([] : List Char) = rest at hts
    induction hts generalizing p with
    | done cs =>
      cases hrest
      rw [read]
      exact hrun
    | blank hc _ ih =>
      rw [read, if_pos hc]
      exact ih hrun hrest
    | token ht _ ih =>
      rw [run_cons] at hrun
      obtain ⟨r, hr, hrun⟩ := Option.bind_eq_some_iff.1 hrun
      rw [read_scan ht, hr]
      exact ih hrun hrest

end Progress

/-- A text is read as a value exactly if it spells the value. -/
theorem Value.parse?_eq_some_iff {text : String} {v : Value} :
    parse? text = some v ↔ v.Spells text := by
  have hparse : parse? text = some v ↔
      (Progress.expectValue []).read text.toList = some (.complete v []) := by
    rw [parse?]
    split
    · next u h => simp [h]
    · next h => exact iff_of_false (by simp) (h v)
  rw [hparse, Progress.read_eq_some_iff]
  refine ⟨?_, ?_⟩
  · rintro ⟨ts, hts, hrun⟩
    have htokens := Progress.tokens_of_run hrun
    rw [Spells]
    cases htokens
    exact hts
  · intro h
    refine ⟨v.tokens, h, ?_⟩
    have hrun := Progress.run_value v (Progress.awaits_expectValue []) []
    rw [List.append_nil] at hrun
    exact hrun

end WireModel.Json
