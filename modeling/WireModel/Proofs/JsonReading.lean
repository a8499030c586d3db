import WireModel.Json.Reader
import WireModel.Proofs.JsonTokens

namespace WireModel.Json

/-- The members of an object under keys that are text. -/
def Value.keyed (members : List (String × Value)) : List (Text × Value) :=
  members.map fun m => (some m.1, m.2)

theorem Value.record_eq (members : List (String × Value)) :
    Value.record members = .object (keyed members) :=
  rfl

theorem Value.keyed_cons (m : String × Value) (ms : List (String × Value)) :
    keyed (m :: ms) = (some m.1, m.2) :: keyed ms :=
  rfl

/-- Values in which every number is a natural one and every string is text. -/
inductive Value.IsPlain : Value → Prop where
  | null : IsPlain .null
  | bool (b : Bool) : IsPlain (.bool b)
  | nat (n : Nat) : IsPlain (.nat n)
  | text (s : String) : IsPlain (.text s)
  | array {items : List Value} (h : ∀ v ∈ items, IsPlain v) : IsPlain (.array items)
  | record {members : List (String × Value)} (h : ∀ m ∈ members, IsPlain m.2) :
    IsPlain (.record members)

theorem Token.not_isBlank_of_scan {c : Char} {cs rest : List Char} {t : Token}
    (h : scan (c :: cs) = some (t, rest)) : isBlank c = false := by
  have hblank : isBlank c = true → c = ' ' ∨ c = '\t' ∨ c = '\n' ∨ c = '\r' := by
    simp [isBlank, or_assoc]
  by_contra hc
  rw [Bool.not_eq_false] at hc
  obtain rfl | rfl | rfl | rfl := hblank hc <;>
    simp [scan, Numeral.scan, Numeral.scanUnsigned, Numeral.scanDigits] at h

namespace Progress

/-- One token is one step. -/
theorem read_scan {p : Progress} {cs rest : List Char} {t : Token}
    (h : Token.scan cs = some (t, rest)) : p.read cs = (p.step t).bind fun q => q.read rest := by
  cases cs with
  | nil => cases h
  | cons c cs =>
    rw [read, if_neg (by simp [Token.not_isBlank_of_scan h])]
    split
    · next hnone =>
      rw [h] at hnone
      cases hnone
    · next t' rest' hsome =>
      rw [h] at hsome
      cases hsome
      cases p.step t <;> rfl

/-- The next token starts a value, whose container is on top of the stack. -/
def Awaits (stack : List Frame) (p : Progress) : Prop :=
  ∀ t, t ≠ .closeArray → p.step t = start stack t

/-- The next token is a key, after the members already read. -/
def AwaitsKey (done : List (Text × Value)) (stack : List Frame) (p : Progress) : Prop :=
  ∀ key, p.step (.string key) = some (.expectColon done key stack)

theorem awaits_expectValue (stack : List Frame) : Awaits stack (.expectValue stack) :=
  fun _ _ => rfl

theorem awaits_openedArray (stack : List Frame) :
    Awaits (.array [] :: stack) (.openedArray stack) := by
  intro t ht
  cases t with
  | closeArray => exact (ht rfl).elim
  | _ => rfl

theorem awaitsKey_expectKey (done : List (Text × Value)) (stack : List Frame) :
    AwaitsKey done stack (.expectKey done stack) :=
  fun _ => rfl

theorem awaitsKey_openedObject (stack : List Frame) : AwaitsKey [] stack (.openedObject stack) :=
  fun _ => rfl

/-- The value is complete once its text has been read, whatever is still open. -/
def ReadsBack (v : Value) : Prop :=
  ∀ ⦃p : Progress⦄ ⦃stack : List Frame⦄ ⦃rest : List Char⦄, Awaits stack p → EndsValue rest →
    p.read (v.render.toList ++ rest) = (complete v stack).read rest

theorem readsBack_of_scan {v : Value} {t : Token}
    (hstart : ∀ stack, start stack t = some (.complete v stack))
    (hscan : ∀ rest, EndsValue rest → Token.scan (v.render.toList ++ rest) = some (t, rest)) :
    ReadsBack v := by
  intro p stack rest hp hr
  have ht : t ≠ .closeArray := by
    rintro rfl
    cases hstart []
  rw [read_scan (hscan rest hr), hp t ht, hstart]
  rfl

variable {stack : List Frame} {p : Progress}

theorem read_items {items : List Value} (hne : items ≠ []) (hi : ∀ v ∈ items, ReadsBack v)
    {done : List Value} (hp : Awaits (.array done :: stack) p) (rest : List Char) :
    p.read ((Value.renderItems items).toList ++ ']' :: rest) =
      (complete (.array (done.reverse ++ items)) stack).read rest := by
  induction items generalizing done p with
  | nil => exact (hne rfl).elim
  | cons v vs ih =>
    have hv := hi v List.mem_cons_self
    cases vs with
    | nil =>
      rw [Value.renderItems, hv hp (endsValue_closeArray rest), read_scan rfl]
      simp [step]
    | cons w ws =>
      have htail := ih (List.cons_ne_nil w ws) (fun u hu => hi u (List.mem_cons_of_mem v hu))
        (awaits_expectValue (.array (v :: done) :: stack))
      have htext : (Value.renderItems (v :: w :: ws)).toList ++ ']' :: rest =
          v.render.toList ++ ',' :: ((Value.renderItems (w :: ws)).toList ++ ']' :: rest) := by
        rw [Value.renderItems.eq_3 v _ (List.cons_ne_nil w ws)]
        simp
      rw [htext, hv hp (endsValue_comma _), read_scan rfl]
      simpa [step] using htail

theorem read_members {members : List (String × Value)} (hne : members ≠ [])
    (hm : ∀ m ∈ members, ReadsBack m.2) {done : List (Text × Value)}
    (hp : AwaitsKey done stack p) (rest : List Char) :
    p.read ((Value.renderMembers (Value.keyed members)).toList ++ '\x7d' :: rest) =
      (complete (.object (done.reverse ++ Value.keyed members)) stack).read rest := by
  induction members generalizing done p with
  | nil => exact (hne rfl).elim
  | cons m ms ih =>
    obtain ⟨key, v⟩ := m
    have hv : ReadsBack v := hm (key, v) List.mem_cons_self
    have hkey : ∀ cs, p.read ((quoted (some key)).toList ++ ':' :: cs) =
        (expectValue (.object done (some key) :: stack)).read cs := by
      intro cs
      rw [read_scan (Token.scan_quoted key), hp, Option.bind_some, read_scan rfl]
      rfl
    rw [Value.keyed_cons]
    by_cases hms : ms = []
    · have htext : (Value.renderMembers [(some key, v)]).toList ++ '\x7d' :: rest =
          (quoted (some key)).toList ++ ':' :: (v.render.toList ++ '\x7d' :: rest) := by
        simp [Value.renderMembers]
      rw [hms, Value.keyed, List.map_nil, htext, hkey,
        hv (awaits_expectValue _) (endsValue_closeObject rest), read_scan rfl]
      simp [step]
    · have htail := ih hms (fun u hu => hm u (List.mem_cons_of_mem _ hu))
        (awaitsKey_expectKey ((some key, v) :: done) stack)
      have hkeyed : Value.keyed ms ≠ [] := mt List.map_eq_nil_iff.1 hms
      have htext : (Value.renderMembers ((some key, v) :: Value.keyed ms)).toList ++
          '\x7d' :: rest = (quoted (some key)).toList ++ ':' :: (v.render.toList ++
            ',' :: ((Value.renderMembers (Value.keyed ms)).toList ++ '\x7d' :: rest)) := by
        rw [Value.renderMembers.eq_3 _ _ _ hkeyed]
        simp
      rw [htext, hkey, hv (awaits_expectValue _) (endsValue_comma _), read_scan rfl]
      simpa [step] using htail

theorem readsBack_array {items : List Value} (h : ∀ v ∈ items, ReadsBack v) :
    ReadsBack (.array items) := by
  intro p stack rest hp hr
  have htext : (Value.array items).render.toList ++ rest =
      '[' :: ((Value.renderItems items).toList ++ ']' :: rest) := by
    simp [Value.render]
  rw [htext, read_scan rfl, hp .openArray (by simp)]
  change (openedArray stack).read _ = _
  by_cases hne : items = []
  · rw [hne, Value.renderItems, String.toList_empty, List.nil_append, read_scan rfl]
    rfl
  · exact read_items hne h (awaits_openedArray stack) rest

theorem readsBack_record {members : List (String × Value)} (h : ∀ m ∈ members, ReadsBack m.2) :
    ReadsBack (.record members) := by
  intro p stack rest hp hr
  have htext : (Value.record members).render.toList ++ rest =
      '\x7b' :: ((Value.renderMembers (Value.keyed members)).toList ++ '\x7d' :: rest) := by
    simp [Value.record_eq, Value.render]
  rw [htext, read_scan rfl, hp .openObject (by simp)]
  change (openedObject stack).read _ = _
  by_cases hne : members = []
  · rw [hne, Value.keyed, List.map_nil, Value.renderMembers, String.toList_empty, List.nil_append,
      read_scan rfl]
    rfl
  · exact read_members hne h (awaitsKey_openedObject stack) rest

theorem readsBack_of_isPlain {v : Value} (h : v.IsPlain) : ReadsBack v := by
  induction h with
  | null => exact readsBack_of_scan (fun _ => rfl) fun _ _ => rfl
  | bool b => cases b <;> exact readsBack_of_scan (fun _ => rfl) fun _ _ => rfl
  | nat n => exact readsBack_of_scan (fun _ => rfl) fun _ hr => Token.scan_nat n hr
  | text s => exact readsBack_of_scan (fun _ => rfl) fun _ _ => Token.scan_quoted s
  | array _ ih => exact readsBack_array ih
  | record _ ih => exact readsBack_record ih

end Progress

/-- Reading undoes writing. -/
theorem Value.parse?_render {v : Value} (h : v.IsPlain) : parse? v.render = some v := by
  have hread := Progress.readsBack_of_isPlain h (Progress.awaits_expectValue []) endsValue_nil
  rw [List.append_nil, Progress.read] at hread
  rw [parse?, hread]

end WireModel.Json
