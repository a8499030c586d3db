import WireModel.Proofs.JsonReading

namespace WireModel.Json

namespace Value

mutual

/-- How many containers stand in one another in a value, at most. -/
def nesting : Value → Nat
  | .null | .bool _ | .number _ | .string _ => 0
  | .array items => nestingOf items + 1
  | .object members => memberNesting members + 1

def nestingOf : List Value → Nat
  | [] => 0
  | v :: vs => max v.nesting (nestingOf vs)

def memberNesting : List (Text × Value) → Nat
  | [] => 0
  | (_, v) :: ms => max v.nesting (memberNesting ms)

end

variable {room : Nat}

theorem nestingOf_le_iff {items : List Value} :
    nestingOf items ≤ room ↔ ∀ v ∈ items, v.nesting ≤ room := by
  induction items with
  | nil => simp [nestingOf]
  | cons v vs ih => rw [nestingOf, Nat.max_le, ih, List.forall_mem_cons]

theorem memberNesting_keyed_le_iff {members : List (String × Value)} :
    memberNesting (keyed members) ≤ room ↔
      ∀ m ∈ members, m.2.nesting ≤ room := by
  induction members with
  | nil => simp [keyed, memberNesting]
  | cons m ms ih => rw [keyed_cons, memberNesting, Nat.max_le, ih, List.forall_mem_cons]

@[simp]
theorem nesting_bool (b : Bool) : (bool b).nesting = 0 :=
  rfl

@[simp]
theorem nesting_nat (n : Nat) : (nat n).nesting = 0 :=
  rfl

@[simp]
theorem nesting_text (s : String) : (text s).nesting = 0 :=
  rfl

@[simp]
theorem nesting_array_le_iff {items : List Value} :
    (array items).nesting ≤ room + 1 ↔ ∀ v ∈ items, v.nesting ≤ room := by
  rw [nesting, Nat.add_le_add_iff_right, nestingOf_le_iff]

@[simp]
theorem nesting_record_le_iff {members : List (String × Value)} :
    (record members).nesting ≤ room + 1 ↔ ∀ m ∈ members, m.2.nesting ≤ room := by
  rw [record_eq, nesting, Nat.add_le_add_iff_right, memberNesting_keyed_le_iff]

@[simp]
theorem nesting_array_ne_zero (items : List Value) : (array items).nesting ≠ 0 :=
  Nat.succ_ne_zero _

@[simp]
theorem nesting_record_ne_zero (members : List (String × Value)) :
    (record members).nesting ≠ 0 :=
  Nat.succ_ne_zero _

end Value

/-- Where a character stands: outside string literals, in one, or after a backslash in one. -/
inductive Place where
  | outside
  | literal
  | escape
deriving DecidableEq, Repr

namespace Place

/-- The place of the character after this one. -/
def next : Place → Char → Place
  | .outside, c => if c = '"' then .literal else .outside
  | .literal, c => if c = '"' then .outside else if c = '\\' then .escape else .literal
  | .escape, _ => .literal

/-- How many containers are open after this character. -/
def opened (place : Place) (c : Char) (n : Nat) : Nat :=
  if place ≠ .outside then n
  else if c = '[' ∨ c = '\x7b' then n + 1
  else if c = ']' ∨ c = '\x7d' then n - 1
  else n

/-- How many containers are open at once in a text, at most, if some are open before it. -/
def mostOpen (place : Place) (n : Nat) : List Char → Nat
  | [] => n
  | c :: cs => max n ((place.next c).mostOpen (place.opened c n) cs)

variable {n : Nat} {cs : List Char}

theorem le_mostOpen (place : Place) (n : Nat) (cs : List Char) : n ≤ place.mostOpen n cs := by
  cases cs with
  | nil => exact Nat.le_refl n
  | cons c cs => exact Nat.le_max_left _ _

theorem mostOpen_cons_of_opened {place : Place} {c : Char} (h : place.opened c n = n) :
    place.mostOpen n (c :: cs) = (place.next c).mostOpen n cs := by
  rw [mostOpen, h, Nat.max_eq_right (le_mostOpen _ _ _)]

theorem mostOpen_literal_cons {c : Char} :
    literal.mostOpen n (c :: cs) = (literal.next c).mostOpen n cs :=
  mostOpen_cons_of_opened rfl

theorem mostOpen_escape_cons {c : Char} : escape.mostOpen n (c :: cs) = literal.mostOpen n cs :=
  mostOpen_cons_of_opened rfl

/-- Characters that neither open nor close anything. -/
def IsOrdinary (c : Char) : Prop :=
  c ∉ ['"', '[', ']', '\x7b', '\x7d']

theorem mostOpen_outside_cons {c : Char} (h : IsOrdinary c) :
    outside.mostOpen n (c :: cs) = outside.mostOpen n cs := by
  simp only [IsOrdinary, List.mem_cons, List.not_mem_nil, or_false, not_or] at h
  obtain ⟨hquote, hopen, hclose, hbrace, hend⟩ := h
  rw [mostOpen_cons_of_opened (by simp [opened, hopen, hclose, hbrace, hend]), next, if_neg hquote]

theorem mostOpen_outside_append {w : List Char} (h : ∀ c ∈ w, IsOrdinary c) :
    outside.mostOpen n (w ++ cs) = outside.mostOpen n cs := by
  induction w with
  | nil => rfl
  | cons c w ih =>
    rw [List.cons_append, mostOpen_outside_cons (h c List.mem_cons_self)]
    exact ih fun d hd => h d (List.mem_cons_of_mem c hd)

theorem next_literal_hexDigit : ∀ n < 16, literal.next (Text.hexDigit n) = .literal := by
  decide

/-- A character of a literal does not end it, however it is written. -/
theorem mostOpen_literal_quotedChar (c : Char) :
    literal.mostOpen n (quotedChar c ++ cs) = literal.mostOpen n cs := by
  have hescape : ∀ d : Char, literal.mostOpen n ('\\' :: d :: cs) = literal.mostOpen n cs := by
    intro d
    rw [mostOpen_literal_cons]
    exact mostOpen_escape_cons
  rw [quotedChar]
  split_ifs with hquote hback _ _ _ _ _ hcontrol
  · exact hescape '"'
  · exact hescape '\\'
  · exact hescape 'b'
  · exact hescape 't'
  · exact hescape 'n'
  · exact hescape 'f'
  · exact hescape 'r'
  · have hhigh := next_literal_hexDigit (c.toNat / 16) (by omega)
    have hlow := next_literal_hexDigit (c.toNat % 16) (by omega)
    simp only [List.cons_append, List.nil_append]
    rw [mostOpen_literal_cons]
    change escape.mostOpen n _ = _
    rw [mostOpen_escape_cons, mostOpen_literal_cons]
    change literal.mostOpen n _ = _
    rw [mostOpen_literal_cons]
    change literal.mostOpen n _ = _
    rw [mostOpen_literal_cons, hhigh, mostOpen_literal_cons, hlow]
  · rw [List.singleton_append, mostOpen_literal_cons, next, if_neg hquote, if_neg hback]

theorem mostOpen_outside_quoted (s : String) :
    outside.mostOpen n ((quoted (some s)).toList ++ cs) = outside.mostOpen n cs := by
  have hliteral : ∀ w : List Char, literal.mostOpen n (w.flatMap quotedChar ++ '"' :: cs) =
      outside.mostOpen n cs := by
    intro w
    induction w with
    | nil => exact mostOpen_literal_cons
    | cons c w ih => rw [List.flatMap_cons, List.append_assoc, mostOpen_literal_quotedChar, ih]
  have htext : (quoted (some s)).toList ++ cs =
      '"' :: (s.toList.flatMap quotedChar ++ '"' :: cs) := by
    simp [quoted]
  rw [htext, mostOpen_cons_of_opened (by simp [opened])]
  exact hliteral s.toList

/-- The text of the value opens as many containers at once as stand in one another in the value. -/
def Measures (v : Value) : Prop :=
  ∀ n cs, outside.mostOpen n (v.render.toList ++ cs) = max (n + v.nesting) (outside.mostOpen n cs)

theorem measures_of_eq {v : Value} (hv : v.nesting = 0)
    (h : ∀ n cs, outside.mostOpen n (v.render.toList ++ cs) = outside.mostOpen n cs) :
    Measures v := by
  intro n cs
  rw [h, hv, Nat.add_zero, Nat.max_eq_right (le_mostOpen _ _ _)]

theorem measures_of_ordinary {v : Value} (hv : v.nesting = 0)
    (h : ∀ c ∈ v.render.toList, IsOrdinary c) : Measures v :=
  measures_of_eq hv fun _ _ => mostOpen_outside_append h

theorem mostOpen_items {items : List Value} (h : ∀ v ∈ items, Measures v) :
    outside.mostOpen n ((Value.renderItems items).toList ++ cs) =
      max (n + Value.nestingOf items) (outside.mostOpen n cs) := by
  induction items with
  | nil =>
    rw [Value.renderItems, Value.nestingOf]
    exact (Nat.max_eq_right (le_mostOpen outside n cs)).symm
  | cons v vs ih =>
    have hv := h v List.mem_cons_self
    have hvs := ih fun u hu => h u (List.mem_cons_of_mem v hu)
    by_cases hne : vs = []
    · rw [hne, Value.renderItems, hv, Value.nestingOf, Value.nestingOf, Nat.max_zero]
    · rw [Value.renderItems.eq_3 v vs hne]
      simp only [String.toList_append, List.append_assoc, hv n]
      rw [mostOpen_outside_append (by simp [IsOrdinary]), hvs, Value.nestingOf]
      omega

theorem mostOpen_members {members : List (String × Value)} (h : ∀ m ∈ members, Measures m.2) :
    outside.mostOpen n ((Value.renderMembers (Value.keyed members)).toList ++ cs) =
      max (n + Value.memberNesting (Value.keyed members)) (outside.mostOpen n cs) := by
  induction members with
  | nil =>
    rw [Value.keyed, List.map_nil, Value.renderMembers, Value.memberNesting]
    exact (Nat.max_eq_right (le_mostOpen outside n cs)).symm
  | cons m ms ih =>
    obtain ⟨key, v⟩ := m
    have hv : Measures v := h (key, v) List.mem_cons_self
    have hms := ih fun u hu => h u (List.mem_cons_of_mem _ hu)
    rw [Value.keyed_cons]
    by_cases hne : ms = []
    · rw [hne, Value.keyed, List.map_nil, Value.renderMembers, Value.memberNesting,
        Value.memberNesting, Nat.max_zero]
      simp only [String.toList_append, List.append_assoc, mostOpen_outside_quoted]
      rw [mostOpen_outside_append (by simp [IsOrdinary]), hv]
    · have hkeyed : Value.keyed ms ≠ [] := mt List.map_eq_nil_iff.1 hne
      rw [Value.renderMembers.eq_3 _ _ _ hkeyed, Value.memberNesting]
      simp only [String.toList_append, List.append_assoc, mostOpen_outside_quoted]
      rw [mostOpen_outside_append (by simp [IsOrdinary]), hv,
        mostOpen_outside_append (by simp [IsOrdinary]), hms]
      omega

theorem measures_of_isPlain {v : Value} (h : v.IsPlain) : Measures v := by
  induction h with
  | null => exact measures_of_ordinary (by rw [Value.nesting]) (by simp [Value.render, IsOrdinary])
  | bool b =>
    cases b <;>
      exact measures_of_ordinary (Value.nesting_bool _) (by simp [Value.render, IsOrdinary])
  | nat k =>
    apply measures_of_ordinary (Value.nesting_nat k)
    intro c hc hm
    have hdigit := Numeral.isDigit_of_mem_toDigits (Numeral.toList_render_ofNat k ▸ hc)
    have hmarks : ∀ c ∈ ['"', '[', ']', '\x7b', '\x7d'], c.isDigit = false := by simp
    rw [hmarks c hm] at hdigit
    cases hdigit
  | text s => exact measures_of_eq (Value.nesting_text s) fun _ _ => mostOpen_outside_quoted s
  | @array items _ ih =>
    intro n cs
    have htext : (Value.array items).render.toList ++ cs =
        '[' :: ((Value.renderItems items).toList ++ ']' :: cs) := by
      simp [Value.render]
    have hle := le_mostOpen outside n cs
    rw [htext, mostOpen, Value.nesting]
    change max n (outside.mostOpen (n + 1) _) = _
    rw [mostOpen_items ih, mostOpen]
    change max n (max _ (max (n + 1) (outside.mostOpen n cs))) = _
    omega
  | @record members _ ih =>
    intro n cs
    have htext : (Value.record members).render.toList ++ cs =
        '\x7b' :: ((Value.renderMembers (Value.keyed members)).toList ++ '\x7d' :: cs) := by
      simp [Value.record_eq, Value.render]
    have hle := le_mostOpen outside n cs
    rw [htext, mostOpen, Value.record_eq, Value.nesting]
    change max n (outside.mostOpen (n + 1) _) = _
    rw [mostOpen_members ih, mostOpen]
    change max n (max _ (max (n + 1) (outside.mostOpen n cs))) = _
    omega

end Place

/-- How deep the containers of a text nest: how many are open at once, at most. -/
def depth (text : String) : Nat :=
  Place.outside.mostOpen 0 text.toList

theorem depth_render {v : Value} (h : v.IsPlain) : depth v.render = v.nesting := by
  have hv := Place.measures_of_isPlain h 0 []
  rw [List.append_nil] at hv
  simpa [depth, Place.mostOpen] using hv

end WireModel.Json
