import Mathlib.Data.List.Basic
import WireModel.WireSchema
import WireModel.Proofs.CanonicalForm
import WireModel.Proofs.StatementTrees

namespace WireModel

theorem IsName.notMem {s : String} (h : IsName s) {c : Char} (hc : ¬ IsNameChar c) :
    c ∉ s.toList :=
  fun hm => hc (h.chars c hm)

theorem OptionSetting.WellFormed.notMem {o : OptionSetting} (h : o.WellFormed) {c : Char}
    (hc : ¬ (IsNameChar c ∨ c = '(' ∨ c = ')')) : c ∉ o.name.toList :=
  fun hm => hc (h.name c hm)

theorem IsName.newline {s : String} (h : IsName s) : '\n' ∉ s.toList :=
  h.notMem (by decide)

theorem IsName.isWord {s : String} (h : IsName s) : Text.IsWord s :=
  ⟨h.notMem (by decide), h.notMem (by decide)⟩

theorem OptionSetting.WellFormed.isWord {o : OptionSetting} (h : o.WellFormed) :
    Text.IsWord o.name :=
  ⟨h.notMem (by decide), h.notMem (by decide)⟩

theorem exists_head {s : String} (h : s ≠ "") : ∃ c ∈ s.toList.head?, c ∈ s.toList := by
  cases hl : s.toList with
  | nil => exact (h (String.toList_inj.1 hl)).elim
  | cons c cs => exact ⟨c, rfl, List.mem_cons_self⟩

theorem IsName.isLine {s : String} (h : IsName s) : Stmt.IsLine s := by
  obtain ⟨c, hc, hm⟩ := exists_head h.ne_empty
  refine ⟨h.newline, c, hc, ?_, ?_⟩
  · intro he
    exact h.notMem (by decide) (he ▸ hm)
  · intro he
    exact h.notMem (by decide) (he ▸ hm)

/-- A character of a number. -/
def IsNumberChar (c : Char) : Prop :=
  c.isDigit ∨ c = '-'

instance : DecidablePred IsNumberChar := fun _ => inferInstanceAs (Decidable (_ ∨ _))

theorem isDigit_of_mem_natRepr {n : Nat} {c : Char} (hc : c ∈ n.repr.toList) :
    c.isDigit = true := by
  rw [Nat.toList_repr] at hc
  exact Nat.isDigit_of_mem_toDigits (by decide) (by decide) hc

theorem isNumberChar_natRepr (n : Nat) : ∀ c ∈ n.repr.toList, IsNumberChar c :=
  fun _ hc => .inl (isDigit_of_mem_natRepr hc)

theorem isNumberChar_intRepr (n : Int) : ∀ c ∈ n.repr.toList, IsNumberChar c := by
  intro c hc
  rw [Int.repr_eq_if] at hc
  split at hc
  · exact isNumberChar_natRepr _ c hc
  · rw [String.toList_append, List.mem_append] at hc
    obtain hc | hc := hc
    · exact .inr (by simpa using hc)
    · exact isNumberChar_natRepr _ c hc

/-- A number can be read off its digits. -/
theorem eq_of_toList_natRepr {m n : Nat} (h : m.repr.toList = n.repr.toList) : m = n := by
  rw [Nat.toList_repr, Nat.toList_repr] at h
  calc m = Nat.ofDigitChars 10 (Nat.toDigits 10 m) 0 := Nat.ofDigitChars_ten_toDigits.symm
    _ = Nat.ofDigitChars 10 (Nat.toDigits 10 n) 0 := by rw [h]
    _ = n := Nat.ofDigitChars_ten_toDigits

theorem eq_of_toList_intRepr {m n : Int} (h : m.repr.toList = n.repr.toList) : m = n := by
  have hneg (k : Nat) : (Int.negSucc k).repr.toList = '-' :: (k + 1).repr.toList :=
    String.toList_append
  have hsign (k : Nat) {cs : List Char} : k.repr.toList ≠ '-' :: cs := by
    intro he
    have hdigit : '-'.isDigit = true := isDigit_of_mem_natRepr (he ▸ List.mem_cons_self)
    exact absurd hdigit (by decide)
  cases m with
  | ofNat k =>
    cases n with
    | ofNat l => rw [eq_of_toList_natRepr h]
    | negSucc l => exact (hsign k (h.trans (hneg l))).elim
  | negSucc k =>
    rw [hneg] at h
    cases n with
    | ofNat l => exact (hsign l h.symm).elim
    | negSucc l =>
      rw [hneg] at h
      rw [Nat.succ.inj (eq_of_toList_natRepr (List.cons.inj h).2)]

namespace WireSchema

open Text

theorem setting_inj {o p : OptionSetting} (ho : o.WellFormed) (hp : p.WellFormed)
    (h : o.name ++ " = " ++ o.value = p.name ++ " = " ++ p.value) : o = p := by
  have htext : o.name.toList ++ ' ' :: ('=' :: ' ' :: o.value.toList) =
      p.name.toList ++ ' ' :: ('=' :: ' ' :: p.value.toList) := by
    simpa using congrArg String.toList h
  obtain ⟨hname, hvalue⟩ := cut_inj ho.isWord.1 hp.isWord.1 htext
  simp only [List.cons.injEq, true_and] at hvalue
  have hname := String.toList_inj.1 hname
  have hvalue := String.toList_inj.1 hvalue
  cases o
  cases p
  exact OptionSetting.mk.injEq .. ▸ ⟨hname, hvalue⟩

theorem comma_notMem_setting {o : OptionSetting} (h : o.WellFormed) :
    ',' ∉ (o.name ++ " = " ++ o.value).toList := by
  have hname : ',' ∉ o.name.toList := h.notMem (by decide)
  simp [hname, h.comma]

theorem toList_optionSuffix_cons (o : OptionSetting) (os : List OptionSetting) :
    (optionSuffix (o :: os)).toList = ' ' :: '[' ::
      ((joinWith ", " ((o :: os).map fun o => o.name ++ " = " ++ o.value)).toList ++ [']']) := by
  simp [optionSuffix]

/-- The settings in brackets can be read off their text. -/
theorem optionSuffix_inj {os ps : List OptionSetting} (ho : ∀ o ∈ os, o.WellFormed)
    (hp : ∀ o ∈ ps, o.WellFormed) (h : (optionSuffix os).toList = (optionSuffix ps).toList) :
    os = ps := by
  cases os with
  | nil =>
    cases ps with
    | nil => rfl
    | cons p ps =>
      rw [toList_optionSuffix_cons] at h
      cases h
  | cons o os =>
    cases ps with
    | nil =>
      rw [toList_optionSuffix_cons] at h
      cases h
    | cons p ps =>
      rw [toList_optionSuffix_cons, toList_optionSuffix_cons] at h
      simp only [List.cons.injEq, true_and, List.append_cancel_right_eq] at h
      have hcomma : ∀ l : List OptionSetting, (∀ o ∈ l, o.WellFormed) →
          ∀ s ∈ l.map fun o => o.name ++ " = " ++ o.value, ',' ∉ s.toList := by
        intro l hl s hs
        obtain ⟨o, ho, rfl⟩ := List.mem_map.1 hs
        exact comma_notMem_setting (hl o ho)
      have hmap := joinWith_comma_inj (hcomma _ ho) (hcomma _ hp) (by simp) (by simp)
        (String.toList_inj.1 h)
      have hid := map_eq_of_map_eq (g := id)
        (fun a ha b hb hab => setting_inj (ho a ha) (hp b hb) hab) hmap
      rwa [List.map_id, List.map_id] at hid

/-- A number and the settings after it can be read off the end of a declaration. -/
theorem number_optionSuffix_inj {a b : List Char} {os ps : List OptionSetting}
    (ha : ∀ c ∈ a, IsNumberChar c) (hb : ∀ c ∈ b, IsNumberChar c)
    (ho : ∀ o ∈ os, o.WellFormed) (hp : ∀ o ∈ ps, o.WellFormed)
    (h : a ++ ((optionSuffix os).toList ++ [';']) = b ++ ((optionSuffix ps).toList ++ [';'])) :
    a = b ∧ os = ps := by
  have hfollow : ∀ os, ∀ c ∈ ((optionSuffix os).toList ++ [';']).head?, ¬ IsNumberChar c := by
    intro os c hc
    cases os with
    | nil =>
      cases hc
      decide
    | cons o os =>
      rw [toList_optionSuffix_cons] at hc
      cases hc
      decide
  obtain ⟨hab, hrest⟩ := run_append_inj ha hb (hfollow os) (hfollow ps) h
  exact ⟨hab, optionSuffix_inj ho hp (List.append_cancel_right hrest)⟩

end WireSchema

/-- The words that a type is written in. -/
def TypeExpr.words : TypeExpr → List String
  | .named name => [name]
  | .map key value => ["map<" ++ key ++ ",", value ++ ">"]

theorem TypeExpr.words_inj {d e : TypeExpr} (h : d.words = e.words) : d = e := by
  cases d with
  | named name =>
    cases e with
    | named name' =>
      cases h
      rfl
    | map key value => cases h
  | map key value =>
    cases e with
    | named name => cases h
    | map key' value' =>
      simp only [words, List.cons.injEq, and_true, String.append_left_inj,
        String.append_right_inj] at h
      rw [h.1, h.2]

theorem TypeExpr.isWord_of_mem_words {e : TypeExpr} (h : e.WellFormed) :
    ∀ w ∈ e.words, Text.IsWord w := by
  cases e with
  | named name => simpa [words] using h.1.isWord
  | map key value =>
    have hkey := h.1.isWord
    have hvalue := h.2.isWord
    simp_all [words, Text.IsWord]

namespace ReservedItem

/-- A reserved item as written. -/
def text : ReservedItem → String
  | .tag n => n.toNat.repr
  | .range first last => first.toNat.repr ++ " to " ++ last.toNat.repr
  | .name s => "\"" ++ s ++ "\""

theorem notMem_text_of_number {i : ReservedItem} (h : i.isName = false) {c : Char}
    (hd : ¬ IsNumberChar c) (hto : c ∉ " to ".toList) : c ∉ i.text.toList := by
  have hrepr : ∀ n : Nat, c ∉ n.repr.toList := fun n hm => hd (isNumberChar_natRepr n c hm)
  cases i with
  | tag n => exact hrepr n.toNat
  | range first last =>
    rw [text, String.toList_append, String.toList_append, List.mem_append, List.mem_append]
    exact not_or.2 ⟨not_or.2 ⟨hrepr first.toNat, hto⟩, hrepr last.toNat⟩
  | name s => cases h

theorem notMem_text {i : ReservedItem} (h : i.WellFormed) {c : Char} (hn : ¬ IsNameChar c)
    (hd : ¬ IsNumberChar c) (hto : c ∉ " to \"".toList) : c ∉ i.text.toList := by
  have hparts : c ∉ " to ".toList ∧ c ∉ "\"".toList := by
    refine ⟨fun hm => hto ?_, fun hm => hto ?_⟩
    · exact List.mem_append_left ['"'] hm
    · exact List.mem_append_right " to ".toList hm
  cases i with
  | tag n => exact notMem_text_of_number rfl hd hparts.1
  | range first last => exact notMem_text_of_number rfl hd hparts.1
  | name s =>
    rw [text, String.toList_append, String.toList_append, List.mem_append, List.mem_append]
    exact not_or.2 ⟨not_or.2 ⟨hparts.2, IsName.notMem h hn⟩, hparts.2⟩

theorem quote_mem_text (s : String) : '"' ∈ (text (.name s)).toList := by
  simp [text]

theorem tag_text_ne (n first last : Tag) : text (.tag n) ≠ text (.range first last) := by
  intro h
  have hblank : ' ' ∈ (text (.tag n)).toList := by
    rw [h]
    simp [text]
  exact absurd (isNumberChar_natRepr n.toNat ' ' hblank) (by decide)

theorem name_text_ne {i : ReservedItem} (hi : i.isName = false) (s : String) :
    text (.name s) ≠ i.text := by
  intro h
  exact notMem_text_of_number hi (by decide) (by decide) (h ▸ quote_mem_text s)

theorem range_text_inj {a b c d : Tag} (h : text (.range a b) = text (.range c d)) :
    a = c ∧ b = d := by
  have htext : a.toNat.repr.toList ++ (" to ".toList ++ b.toNat.repr.toList) =
      c.toNat.repr.toList ++ (" to ".toList ++ d.toNat.repr.toList) := by
    simpa [text] using congrArg String.toList h
  have hfollow : ∀ n : Nat, ∀ c ∈ (" to ".toList ++ n.repr.toList).head?, ¬ IsNumberChar c := by
    intro n c hc
    cases hc
    decide
  obtain ⟨hac, hrest⟩ := Text.run_append_inj (isNumberChar_natRepr _) (isNumberChar_natRepr _)
    (hfollow _) (hfollow _) htext
  have hbd := List.append_cancel_left hrest
  exact ⟨UInt32.toNat_inj.1 (eq_of_toList_natRepr hac),
    UInt32.toNat_inj.1 (eq_of_toList_natRepr hbd)⟩

/-- A reserved item can be read off its text. -/
theorem text_inj {i j : ReservedItem} (h : i.text = j.text) : i = j := by
  cases i with
  | tag n =>
    cases j with
    | tag m => rw [UInt32.toNat_inj.1 (eq_of_toList_natRepr (congrArg String.toList h))]
    | range first last => exact (tag_text_ne n first last h).elim
    | name s => exact (name_text_ne rfl s h.symm).elim
  | range first last =>
    cases j with
    | tag m => exact (tag_text_ne m first last h.symm).elim
    | range first' last' =>
      obtain ⟨rfl, rfl⟩ := range_text_inj h
      rfl
    | name s => exact (name_text_ne rfl s h.symm).elim
  | name s =>
    cases j with
    | tag m => exact (name_text_ne rfl s h).elim
    | range first last => exact (name_text_ne rfl s h).elim
    | name s' =>
      rw [text, text, String.append_left_inj, String.append_right_inj] at h
      rw [h]

end ReservedItem

namespace EnumValue

theorem natAbs_number (v : EnumValue) : v.number.natAbs = v.tag.toNat := by
  rw [number]
  split <;> simp

/-- The number tells the sign that counts. -/
theorem canonical_eq (v : EnumValue) :
    v.canonical = ⟨v.name, v.tag, decide (v.number < 0), v.options⟩ := by
  have htag : v.tag = 0 ↔ v.tag.toNat = 0 := UInt32.toNat_inj.symm
  rw [canonical, number]
  cases v.isNegative with
  | false => simp
  | true => simp [htag, bne, Bool.beq_eq_decide_eq, Nat.pos_iff_ne_zero]

end EnumValue

namespace FieldType

/-- The word before a type. -/
def modifier? (t : FieldType) : Option String :=
  if t.repeated then some "repeated" else if t.optional then some "optional" else none

/-- The words that a type and its modifier are written in. -/
def words (t : FieldType) : List String :=
  t.modifier?.toList ++ t.expr.words

theorem modifier?_cases (t : FieldType) :
    t.modifier? = none ∨ t.modifier? = some "repeated" ∨ t.modifier? = some "optional" := by
  rw [modifier?]
  split_ifs <;> simp

theorem canonical_eq_iff {t u : FieldType} :
    t.canonical = u.canonical ↔ t.modifier? = u.modifier? ∧ t.expr = u.expr := by
  obtain ⟨o, r, e⟩ := t
  obtain ⟨o', r', e'⟩ := u
  cases o <;> cases r <;> cases o' <;> cases r' <;> simp [canonical, modifier?]

theorem modifier_cons_ne {t : FieldType} {m : String} (hm : t.modifier? = some m)
    (d e : TypeExpr) : m :: d.words ≠ e.words := by
  intro h
  cases e with
  | named name => cases d <;> cases h
  | map key value =>
    obtain ⟨hhead, _⟩ := List.cons.inj h
    rw [hhead] at hm
    have hcases := t.modifier?_cases
    rw [hm] at hcases
    simp [← String.toList_inj] at hcases

/-- The words tell the modifier and the type, up to a modifier that does not count. -/
theorem canonical_of_words {t u : FieldType} (h : t.words = u.words) :
    t.canonical = u.canonical := by
  rw [words, words] at h
  cases ht : t.modifier? with
  | none =>
    cases hu : u.modifier? with
    | none =>
      rw [ht, hu] at h
      exact canonical_eq_iff.2 ⟨ht.trans hu.symm, TypeExpr.words_inj h⟩
    | some m =>
      rw [ht, hu] at h
      exact (modifier_cons_ne hu _ _ h.symm).elim
  | some m =>
    cases hu : u.modifier? with
    | none =>
      rw [ht, hu] at h
      exact (modifier_cons_ne ht _ _ h).elim
    | some m' =>
      rw [ht, hu] at h
      obtain ⟨hm, hwords⟩ := List.cons.inj h
      rw [hm] at ht
      exact canonical_eq_iff.2 ⟨ht.trans hu.symm, TypeExpr.words_inj hwords⟩

theorem isWord_of_mem_words {t : FieldType} (h : t.expr.WellFormed) :
    ∀ w ∈ t.words, Text.IsWord w := by
  intro w hw
  rw [words, List.mem_append] at hw
  obtain hw | hw := hw
  · obtain hm | hm | hm := t.modifier?_cases
    · rw [hm] at hw
      cases hw
    · rw [hm] at hw
      cases List.mem_singleton.1 hw
      decide
    · rw [hm] at hw
      cases List.mem_singleton.1 hw
      decide
  · exact TypeExpr.isWord_of_mem_words h w hw

/-- No type is written like a setting. -/
theorem head_words_ne_option {t : FieldType} (h : t.expr.WellFormed) {w : String} {ws : List String}
    (hw : t.words = w :: ws) : w ≠ "option" := by
  rintro rfl
  rw [words] at hw
  obtain hm | hm | hm := t.modifier?_cases
  · rw [hm] at hw
    cases he : t.expr with
    | named name =>
      rw [he] at h hw
      exact h.2 (List.cons.inj hw).1
    | map key value =>
      rw [he] at hw
      have htext := congrArg String.toList (List.cons.inj hw).1
      simp at htext
  · rw [hm] at hw
    exact absurd (List.cons.inj hw).1 (by decide)
  · rw [hm] at hw
    exact absurd (List.cons.inj hw).1 (by decide)

theorem words_ne_option {t : FieldType} (h : t.expr.WellFormed) : t.words ≠ ["option"] :=
  fun hw => head_words_ne_option h hw rfl

end FieldType

namespace WireSchema

open Text

theorem toList_fieldLine (f : Field) :
    (fieldLine f).toList = assignment (f.type.words ++ [f.name])
      (f.tag.toNat.repr.toList ++ ((optionSuffix f.options).toList ++ [';'])) := by
  obtain ⟨⟨o, r, e⟩, name, tag, options⟩ := f
  cases o <;> cases r <;> cases e <;>
    simp [fieldLine, typeText, assignment, FieldType.words, FieldType.modifier?, TypeExpr.words]

theorem toList_optionLine (o : OptionSetting) :
    (optionLine o).toList = assignment ["option", o.name] (o.value.toList ++ [';']) := by
  simp [optionLine, assignment]

theorem isSome_afterStart?_optionLine (o : OptionSetting) :
    (afterStart? "option ".toList (optionLine o).toList).isSome = true := by
  have hstart : afterStart? "option ".toList (optionLine o).toList =
      some ((o.name ++ " = " ++ o.value ++ ";").toList) := by
    rw [afterStart?_eq_some_iff, ← String.toList_append]
    simp only [optionLine, String.append_assoc]
  rw [hstart, Option.isSome_some]

theorem toList_valueLine (v : EnumValue) :
    (valueLine v).toList = assignment [v.name]
      (v.number.repr.toList ++ ((optionSuffix v.options).toList ++ [';'])) := by
  simp [valueLine, assignment]

theorem isWord_of_mem_fieldLine {f : Field} (h : f.WellFormed) :
    ∀ w ∈ f.type.words ++ [f.name], IsWord w := by
  intro w hw
  obtain hw | hw := List.mem_append.1 hw
  · exact FieldType.isWord_of_mem_words h.type w hw
  · cases List.mem_singleton.1 hw
    exact h.name.isWord

theorem isWord_of_mem_optionLine {o : OptionSetting} (h : o.WellFormed) :
    ∀ w ∈ ["option", o.name], IsWord w := by
  intro w hw
  obtain rfl | hw := List.mem_cons.1 hw
  · decide
  · cases List.mem_singleton.1 hw
    exact h.isWord

theorem isWord_of_mem_valueLine {v : EnumValue} (h : v.WellFormed) : ∀ w ∈ [v.name], IsWord w := by
  intro w hw
  cases List.mem_singleton.1 hw
  exact h.name.isWord

/-- A field can be read off its line, up to a modifier that does not count. -/
theorem fieldLine_inj {f g : Field} (hf : f.WellFormed) (hg : g.WellFormed)
    (h : fieldLine f = fieldLine g) : f.canonical = g.canonical := by
  rw [← String.toList_inj, toList_fieldLine, toList_fieldLine] at h
  obtain ⟨hwords, hvalue⟩ :=
    assignment_inj (isWord_of_mem_fieldLine hf) (isWord_of_mem_fieldLine hg) h
  obtain ⟨htype, hname⟩ := List.append_inj' hwords rfl
  obtain ⟨htag, hoptions⟩ := number_optionSuffix_inj (isNumberChar_natRepr _)
    (isNumberChar_natRepr _) hf.options hg.options hvalue
  have htag := UInt32.toNat_inj.1 (eq_of_toList_natRepr htag)
  have hname := (List.cons.inj hname).1
  have htype := FieldType.canonical_of_words htype
  cases f
  cases g
  exact Field.mk.injEq .. ▸ ⟨htype, hname, htag, hoptions⟩

/-- A setting can be read off its line. -/
theorem optionLine_inj {o p : OptionSetting} (ho : o.WellFormed) (hp : p.WellFormed)
    (h : optionLine o = optionLine p) : o = p := by
  rw [← String.toList_inj, toList_optionLine, toList_optionLine] at h
  obtain ⟨hwords, hvalue⟩ :=
    assignment_inj (isWord_of_mem_optionLine ho) (isWord_of_mem_optionLine hp) h
  have hname := (List.cons.inj (List.cons.inj hwords).2).1
  have hvalue := String.toList_inj.1 (List.append_cancel_right hvalue)
  cases o
  cases p
  exact OptionSetting.mk.injEq .. ▸ ⟨hname, hvalue⟩

/-- A constant can be read off its line, up to the sign of zero. -/
theorem valueLine_inj {v w : EnumValue} (hv : v.WellFormed) (hw : w.WellFormed)
    (h : valueLine v = valueLine w) : v.canonical = w.canonical := by
  rw [← String.toList_inj, toList_valueLine, toList_valueLine] at h
  obtain ⟨hwords, hvalue⟩ :=
    assignment_inj (isWord_of_mem_valueLine hv) (isWord_of_mem_valueLine hw) h
  obtain ⟨hnumber, hoptions⟩ := number_optionSuffix_inj (isNumberChar_intRepr _)
    (isNumberChar_intRepr _) hv.options hw.options hvalue
  have hnumber := eq_of_toList_intRepr hnumber
  have htag : v.tag = w.tag := by
    rw [← UInt32.toNat_inj, ← v.natAbs_number, ← w.natAbs_number, hnumber]
  rw [v.canonical_eq, w.canonical_eq, (List.cons.inj hwords).1, htag, hnumber, hoptions]

theorem fieldLine_ne_optionLine {f : Field} {o : OptionSetting} (hf : f.WellFormed)
    (ho : o.WellFormed) : fieldLine f ≠ optionLine o := by
  intro h
  rw [← String.toList_inj, toList_fieldLine, toList_optionLine] at h
  obtain ⟨hwords, _⟩ := assignment_inj (isWord_of_mem_fieldLine hf) (isWord_of_mem_optionLine ho) h
  have hwords : f.type.words ++ [f.name] = ["option"] ++ [o.name] := hwords
  obtain ⟨htype, _⟩ := List.append_inj' hwords rfl
  exact FieldType.words_ne_option hf.type htype

theorem valueLine_ne_optionLine {v : EnumValue} {o : OptionSetting} (hv : v.WellFormed)
    (ho : o.WellFormed) : valueLine v ≠ optionLine o := by
  intro h
  rw [← String.toList_inj, toList_valueLine, toList_optionLine] at h
  obtain ⟨hwords, _⟩ := assignment_inj (isWord_of_mem_valueLine hv) (isWord_of_mem_optionLine ho) h
  cases (List.cons.inj hwords).2

/-- A reserved statement. -/
def reservedText (items : List ReservedItem) : String :=
  "reserved " ++ joinWith ", " (items.map ReservedItem.text) ++ ";"

theorem notMem_reservedList {is : List ReservedItem} (hi : ∀ i ∈ is, i.WellFormed) {c : Char}
    (hn : ¬ IsNameChar c) (hd : ¬ IsNumberChar c) (hto : c ∉ " to \"".toList)
    (hsep : c ∉ ", ".toList) : c ∉ (joinWith ", " (is.map ReservedItem.text)).toList := by
  intro h
  obtain h | ⟨s, hs, hc⟩ := mem_joinWith h
  · exact hsep h
  · obtain ⟨i, hmi, rfl⟩ := List.mem_map.1 hs
    exact ReservedItem.notMem_text (hi i hmi) hn hd hto hc

/-- Reserved items can be read off their statement. -/
theorem reservedText_inj {is js : List ReservedItem} (hi : ∀ i ∈ is, i.WellFormed)
    (hj : ∀ j ∈ js, j.WellFormed) (hni : is ≠ []) (hnj : js ≠ [])
    (h : reservedText is = reservedText js) : is = js := by
  rw [reservedText, reservedText, String.append_left_inj, String.append_right_inj] at h
  have hcomma : ∀ l : List ReservedItem, (∀ i ∈ l, i.WellFormed) →
      ∀ s ∈ l.map ReservedItem.text, ',' ∉ s.toList := by
    intro l hl s hs
    obtain ⟨i, hi, rfl⟩ := List.mem_map.1 hs
    exact ReservedItem.notMem_text (hl i hi) (by decide) (by decide) (by decide)
  have hinj : Function.Injective ReservedItem.text := fun _ _ => ReservedItem.text_inj
  exact List.map_injective_iff.2 hinj (joinWith_comma_inj (hcomma _ hi) (hcomma _ hj)
    (by simpa using hni) (by simpa using hnj) h)

theorem equals_notMem_reservedText {is : List ReservedItem} (hi : ∀ i ∈ is, i.WellFormed) :
    '=' ∉ (reservedText is).toList := by
  rw [reservedText, String.toList_append, String.toList_append, List.mem_append, List.mem_append]
  exact not_or.2 ⟨not_or.2 ⟨by decide,
    notMem_reservedList hi (by decide) (by decide) (by decide) (by decide)⟩, by decide⟩

theorem equals_mem_fieldLine (f : Field) : '=' ∈ (fieldLine f).toList := by
  simp [toList_fieldLine, assignment]

theorem equals_mem_optionLine (o : OptionSetting) : '=' ∈ (optionLine o).toList := by
  simp [toList_optionLine, assignment]

theorem rpcSide_inj {s t : Bool} {a b : String} (ha : IsName a) (hb : IsName b)
    (h : rpcSide s a = rpcSide t b) : s = t ∧ a = b := by
  have hne : ∀ {a b : String}, IsName b → rpcSide true a ≠ rpcSide false b := by
    intro a b hb h
    have hblank : ' ' ∈ (rpcSide false b).toList := by
      rw [← h]
      simp [rpcSide]
    exact hb.notMem (by decide) hblank
  cases s with
  | true =>
    cases t with
    | true => exact ⟨rfl, (String.append_right_inj _).1 h⟩
    | false => exact (hne hb h).elim
  | false =>
    cases t with
    | true => exact (hne ha h.symm).elim
    | false => exact ⟨rfl, h⟩

theorem notMem_rpcSide {s : Bool} {a : String} (ha : IsName a) {c : Char} (hc : ¬ IsNameChar c)
    (hs : c ∉ "stream ".toList) : c ∉ (rpcSide s a).toList := by
  cases s with
  | false => exact ha.notMem hc
  | true =>
    rw [rpcSide, if_pos rfl, String.toList_append, List.mem_append]
    exact not_or.2 ⟨hs, ha.notMem hc⟩

/-- A procedure can be read off its signature, apart from its settings. -/
theorem rpcSignature_inj {r q : Rpc} (hr : r.WellFormed) (hq : q.WellFormed)
    (h : rpcSignature r = rpcSignature q) (ho : r.options = q.options) : r = q := by
  have htext : ∀ r : Rpc, (rpcSignature r).toList = "rpc ".toList ++ (r.name.toList ++
      '(' :: ((rpcSide r.inStream r.inType).toList ++ ')' :: (" returns (".toList ++
        ((rpcSide r.outStream r.outType).toList ++ [')'])))) := by
    intro r
    simp [rpcSignature]
  have h := congrArg String.toList h
  rw [htext, htext, List.append_cancel_left_eq] at h
  obtain ⟨hname, h⟩ := cut_inj (hr.name.notMem (by decide)) (hq.name.notMem (by decide)) h
  obtain ⟨hin, h⟩ := cut_inj (notMem_rpcSide hr.inType (by decide) (by decide))
    (notMem_rpcSide hq.inType (by decide) (by decide)) h
  rw [List.append_cancel_left_eq, List.append_cancel_right_eq] at h
  obtain ⟨hinStream, hinType⟩ := rpcSide_inj hr.inType hq.inType (String.toList_inj.1 hin)
  obtain ⟨houtStream, houtType⟩ := rpcSide_inj hr.outType hq.outType (String.toList_inj.1 h)
  have hname := String.toList_inj.1 hname
  cases r
  cases q
  exact Rpc.mk.injEq .. ▸ ⟨hname, hinStream, hinType, houtStream, houtType, ho⟩

theorem optionLines_inj {os ps : List OptionSetting} (ho : ∀ o ∈ os, o.WellFormed)
    (hp : ∀ o ∈ ps, o.WellFormed)
    (h : (os.map fun o => Stmt.line (optionLine o)) = ps.map fun o => .line (optionLine o)) :
    os = ps := by
  have hid := map_eq_of_map_eq (g := id)
    (fun a ha b hb hab => optionLine_inj (ho a ha) (hp b hb) (Stmt.line.inj hab)) h
  rwa [List.map_id, List.map_id] at hid

/-- A procedure can be read off its statement. -/
theorem rpcStmt_inj {r q : Rpc} (hr : r.WellFormed) (hq : q.WellFormed)
    (h : rpcStmt r = rpcStmt q) : r = q := by
  rw [rpcStmt, rpcStmt] at h
  split at h
  · next hro =>
    split at h
    · next hqo =>
      exact rpcSignature_inj hr hq ((String.append_left_inj _).1 (Stmt.line.inj h))
        (hro.trans hqo.symm)
    · cases h
  · split at h
    · cases h
    · obtain ⟨hopening, hbody, _⟩ := Stmt.block.inj h
      exact rpcSignature_inj hr hq ((String.append_left_inj _).1 hopening)
        (optionLines_inj hr.options hq.options hbody)

theorem newline_notMem_number (n : Nat) : '\n' ∉ n.repr.toList :=
  fun h => absurd (isNumberChar_natRepr n _ h) (by decide)

theorem newline_notMem_optionSuffix {os : List OptionSetting} (ho : ∀ o ∈ os, o.WellFormed) :
    '\n' ∉ (optionSuffix os).toList := by
  cases os with
  | nil => simp [optionSuffix]
  | cons o os =>
    intro h
    rw [toList_optionSuffix_cons] at h
    simp only [List.mem_cons, List.mem_append, Char.reduceEq, List.not_mem_nil, false_or,
      or_false] at h
    obtain h | ⟨s, hs, hc⟩ := mem_joinWith h
    · revert h
      decide
    · obtain ⟨p, hp, rfl⟩ := List.mem_map.1 hs
      have hname : '\n' ∉ p.name.toList := (ho p hp).notMem (by decide)
      simp [hname, (ho p hp).newline] at hc

theorem isLine_typeText {t : FieldType} (h : t.expr.WellFormed) : Stmt.IsLine (typeText t) := by
  obtain ⟨optional, repeated, expr⟩ := t
  have hbase : Stmt.IsLine (typeText ⟨false, false, expr⟩) := by
    cases expr with
    | named name => exact h.1.isLine
    | map key value =>
      have hword : Stmt.IsLine "map<" := ⟨by decide, 'm', rfl, by decide⟩
      exact (((hword.append h.1.newline).append (by decide)).append h.2.newline).append (by decide)
  have hrepeated : Stmt.IsLine "repeated " := ⟨by decide, 'r', rfl, by decide⟩
  have hoptional : Stmt.IsLine "optional " := ⟨by decide, 'o', rfl, by decide⟩
  cases repeated with
  | true => exact hrepeated.append hbase.newline
  | false =>
    cases optional with
    | true => exact hoptional.append hbase.newline
    | false => exact hbase

theorem readable_fieldLine {f : Field} (h : f.WellFormed) :
    Stmt.Readable [.line (fieldLine f)] := by
  apply Stmt.readable_line
  have htype := isLine_typeText h.type
  exact ((((htype.append (by decide)).append h.name.newline).append (by decide)).append
    (newline_notMem_number _)).append (newline_notMem_optionSuffix h.options)

theorem readable_optionLine {o : OptionSetting} (h : o.WellFormed) :
    Stmt.Readable [.line (optionLine o)] := by
  apply Stmt.readable_line
  have hword : Stmt.IsLine "option " := ⟨by decide, 'o', rfl, by decide⟩
  have hname : '\n' ∉ o.name.toList := h.notMem (by decide)
  exact ((hword.append hname).append (by decide)).append h.newline

theorem readable_valueLine {v : EnumValue} (h : v.WellFormed) :
    Stmt.Readable [.line (valueLine v)] := by
  apply Stmt.readable_line
  have hnumber : '\n' ∉ v.number.repr.toList :=
    fun h => absurd (isNumberChar_intRepr _ _ h) (by decide)
  exact ((h.name.isLine.append (by decide)).append hnumber).append
    (newline_notMem_optionSuffix h.options)

theorem readable_reservedText {is : List ReservedItem} (hi : ∀ i ∈ is, i.WellFormed) :
    Stmt.Readable [.line (reservedText is)] := by
  apply Stmt.readable_line
  have hword : Stmt.IsLine "reserved " := ⟨by decide, 'r', rfl, by decide⟩
  exact hword.append (notMem_reservedList hi (by decide) (by decide) (by decide) (by decide))

theorem readable_rpcStmt {r : Rpc} (h : r.WellFormed) : Stmt.Readable [rpcStmt r] := by
  have hword : Stmt.IsLine "rpc " := ⟨by decide, 'r', rfl, by decide⟩
  have hin : '\n' ∉ (rpcSide r.inStream r.inType).toList :=
    notMem_rpcSide h.inType (by decide) (by decide)
  have hout : '\n' ∉ (rpcSide r.outStream r.outType).toList :=
    notMem_rpcSide h.outType (by decide) (by decide)
  have hsignature : Stmt.IsLine (rpcSignature r) :=
    (((((hword.append h.name.newline).append (by decide)).append hin).append
      (by decide)).append hout).append (by decide)
  rw [rpcStmt]
  split
  · exact Stmt.readable_line hsignature
  · exact Stmt.readable_braces hsignature
      (Stmt.readable_map fun o ho => readable_optionLine (h.options o ho))

end WireSchema

end WireModel
