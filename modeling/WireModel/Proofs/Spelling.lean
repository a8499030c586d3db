import Mathlib.Data.List.Basic
import WireModel.Naming
import WireModel.Proofs.DottedNames

namespace WireModel

namespace Text

section Words

variable {before : WordCase} {word w : List Char} {cs : List Char}

/-- No character is lost between the words of a piece. -/
theorem flatten_splitWords (h : cs ≠ []) :
    (splitWords before word cs).flatten = word.reverse ++ cs := by
  induction before, word, cs using splitWords.induct with
  | case1 before word => exact (h rfl).elim
  | case2 before word c => simp [splitWords]
  | case3 before word c d cs hsmall ih =>
    rw [splitWords, if_pos hsmall, List.flatten_cons, ih (List.cons_ne_nil d cs)]
    simp
  | case4 before word c d cs hsmall hlast ih =>
    rw [splitWords, if_neg hsmall, if_pos hlast, List.flatten_cons, ih (List.cons_ne_nil d cs)]
    simp
  | case5 before word c d cs hsmall hlast ih =>
    rw [splitWords, if_neg hsmall, if_neg hlast, ih (List.cons_ne_nil d cs)]
    simp

/-- A word ends before a capital only if a capital is already in it. -/
theorem ne_nil_of_mem_splitWords (hword : before = .upper → word ≠ [])
    (hw : w ∈ splitWords before word cs) : w ≠ [] := by
  induction before, word, cs using splitWords.induct with
  | case1 before word => cases hw
  | case2 before word c =>
    rw [splitWords, List.mem_singleton] at hw
    simp [hw]
  | case3 before word c d cs hsmall ih =>
    rw [splitWords, if_pos hsmall] at hw
    rcases List.mem_cons.1 hw with rfl | hw
    · simp
    · exact ih (by simp) hw
  | case4 before word c d cs hsmall hlast ih =>
    rw [splitWords, if_neg hsmall, if_pos hlast] at hw
    rcases List.mem_cons.1 hw with rfl | hw
    · simpa using hword hlast.1
    · exact ih (by simp) hw
  | case5 before word c d cs hsmall hlast ih =>
    rw [splitWords, if_neg hsmall, if_neg hlast] at hw
    exact ih (by simp) hw

theorem flatten_pieces (cut : Char → Bool) (cs : List Char) :
    (pieces cut cs).flatten = cs.filter fun c => !cut c := by
  induction cs with
  | nil => rfl
  | cons c cs ih =>
    obtain ⟨p, ps, hp⟩ := List.exists_cons_of_ne_nil (pieces_ne_nil cut cs)
    rw [hp] at ih
    rw [pieces, hp, List.filter_cons, ← ih]
    cases cut c <;> simp

/-- The words of a text hold its letters and numbers, in order. -/
theorem flatten_words (cs : List Char) : (words cs).flatten = cs.filter isAlphanumeric := by
  have hpiece : ∀ p : List Char, (splitWords .fresh [] p).flatten = p := by
    intro p
    cases p with
    | nil => rfl
    | cons c p => exact flatten_splitWords (List.cons_ne_nil c p)
  rw [words, List.flatMap_def, List.flatten_flatten, List.map_map, Function.comp_def,
    funext hpiece, List.map_id', flatten_pieces]
  simp only [Bool.not_not]

theorem ne_nil_of_mem_words (hw : w ∈ words cs) : w ≠ [] := by
  obtain ⟨p, _, hw⟩ := List.mem_flatMap.1 hw
  exact ne_nil_of_mem_splitWords (by simp) hw

/-- No word goes across a separator. -/
theorem words_append_separator {a b : List Char} {c : Char} (hc : isAlphanumeric c = false) :
    words (a ++ c :: b) = words a ++ words b := by
  have hcut : (!isAlphanumeric c) = true := by rw [hc]; rfl
  rw [words, @pieces_append_cut (fun c => !isAlphanumeric c) a b c hcut, List.flatMap_append]
  rfl

end Words

theorem upperCamel_append_separator {s a b : String} {c : Char} (hc : isAlphanumeric c = false)
    (hs : s.toList = a.toList ++ c :: b.toList) : upperCamel s = upperCamel a ++ upperCamel b := by
  rw [upperCamel, hs, words_append_separator hc, List.flatMap_append, String.ofList_append]
  rfl

section Casing

theorem toNat_toLower (c : Char) :
    c.toLower.toNat = if 65 ≤ c.toNat ∧ c.toNat ≤ 90 then c.toNat + 32 else c.toNat := by
  delta Char.toLower
  split
  · next h =>
    obtain ⟨hfirst, hlast⟩ : 65 ≤ c.toNat ∧ c.toNat ≤ 90 := h
    rw [if_pos ⟨hfirst, hlast⟩]
    change (c.toNat + 32) % 2 ^ 32 = _
    omega
  · next h => exact (if_neg h).symm

theorem toNat_toUpper (c : Char) :
    c.toUpper.toNat = if 97 ≤ c.toNat ∧ c.toNat ≤ 122 then c.toNat - 32 else c.toNat := by
  delta Char.toUpper
  split
  · next h =>
    obtain ⟨hfirst, hlast⟩ : 97 ≤ c.toNat ∧ c.toNat ≤ 122 := h
    rw [if_pos ⟨hfirst, hlast⟩]
    -- The distance to the capital letters is a negative number, which wraps around.
    change (c.val + ('A'.val - 'a'.val)).toNat = _
    rw [UInt32.toNat_add, Char.toNat_val, UInt32.toNat_sub]
    change (c.toNat + (2 ^ 32 - 97 + 65) % 2 ^ 32) % 2 ^ 32 = _
    omega
  · next h => exact (if_neg h).symm

theorem isUpper_iff {c : Char} : c.isUpper = true ↔ 65 ≤ c.toNat ∧ c.toNat ≤ 90 := by
  delta Char.isUpper
  exact decide_eq_true_iff

theorem isLower_iff {c : Char} : c.isLower = true ↔ 97 ≤ c.toNat ∧ c.toNat ≤ 122 := by
  delta Char.isLower
  rw [Bool.and_eq_true, decide_eq_true_iff, decide_eq_true_iff]
  rfl

theorem isDigit_iff {c : Char} : c.isDigit = true ↔ 48 ≤ c.toNat ∧ c.toNat ≤ 57 := by
  delta Char.isDigit
  rw [Bool.and_eq_true, decide_eq_true_iff, decide_eq_true_iff]
  rfl

theorem isAlphanum_iff {c : Char} : c.isAlphanum = true ↔
    ((65 ≤ c.toNat ∧ c.toNat ≤ 90) ∨ (97 ≤ c.toNat ∧ c.toNat ≤ 122)) ∨
      (48 ≤ c.toNat ∧ c.toNat ≤ 57) := by
  delta Char.isAlphanum Char.isAlpha
  rw [Bool.or_eq_true, Bool.or_eq_true, isUpper_iff, isLower_iff, isDigit_iff]

theorem toNat_lt_of_isAlphanum {c : Char} (h : c.isAlphanum = true) : c.toNat < 128 := by
  rw [isAlphanum_iff] at h
  omega

@[simp] theorem toLower_toLower (c : Char) : c.toLower.toLower = c.toLower := by
  rw [← Char.toNat_inj, toNat_toLower, toNat_toLower]
  split_ifs <;> omega

@[simp] theorem toLower_toUpper (c : Char) : c.toUpper.toLower = c.toLower := by
  rw [← Char.toNat_inj, toNat_toLower, toNat_toLower, toNat_toUpper]
  split_ifs <;> omega

theorem toUpper_toLower (c : Char) : c.toLower.toUpper = c.toUpper := by
  rw [← Char.toNat_inj, toNat_toUpper, toNat_toLower, toNat_toUpper]
  split_ifs <;> omega

theorem isLower_toUpper (c : Char) : c.toUpper.isLower = false := by
  rw [Bool.eq_false_iff, ne_eq, isLower_iff, toNat_toUpper]
  split_ifs <;> omega

theorem isAlphanum_toLower (c : Char) : c.toLower.isAlphanum = c.isAlphanum := by
  rw [Bool.eq_iff_iff, isAlphanum_iff, isAlphanum_iff, toNat_toLower]
  split_ifs <;> omega

theorem isAlphanum_toUpper (c : Char) : c.toUpper.isAlphanum = c.isAlphanum := by
  rw [← isAlphanum_toLower, toLower_toUpper, isAlphanum_toLower]

end Casing

section Ascii

variable {w : List Char} {ws : List (List Char)} {f : List Char → List Char}

theorem lowered_ascii (h : ∀ c ∈ w, c.toNat < 128) : lowered w = w.map Char.toLower := by
  induction w using lowered.induct with
  | case1 => rfl
  | case2 =>
    have hsigma := h 'Σ' List.mem_cons_self
    exact absurd hsigma (by decide)
  | case3 c hc =>
    rw [lowered, if_neg hc, toLower_ascii (h c List.mem_cons_self)]
    rfl
  | case4 c cs hne ih =>
    rw [lowered.eq_3 c cs hne, toLower_ascii (h c List.mem_cons_self),
      ih fun d hd => h d (List.mem_cons_of_mem c hd)]
    rfl

theorem capitalized_ascii (h : ∀ c ∈ w, c.toNat < 128) :
    capitalized w = (w.map Char.toLower).modifyHead Char.toUpper := by
  cases w with
  | nil => rfl
  | cons c cs =>
    rw [capitalized, toUpper_ascii (h c List.mem_cons_self),
      lowered_ascii fun d hd => h d (List.mem_cons_of_mem c hd), List.map_cons,
      List.modifyHead_cons, toUpper_toLower]
    rfl

theorem raised_ascii (h : ∀ c ∈ w, c.toNat < 128) : raised w = w.map Char.toUpper := by
  induction w with
  | nil => rfl
  | cons c cs ih =>
    rw [raised, List.flatMap_cons, toUpper_ascii (h c List.mem_cons_self)]
    exact congrArg (c.toUpper :: ·) (ih fun d hd => h d (List.mem_cons_of_mem c hd))

/-- Capital letters apart, a capitalized word is the word. -/
theorem map_toLower_capitalized (h : ∀ c ∈ w, c.toNat < 128) :
    (capitalized w).map Char.toLower = w.map Char.toLower := by
  rw [capitalized_ascii h]
  cases w with
  | nil => rfl
  | cons c cs => simp

def IsAscii (s : String) : Prop :=
  ∀ c ∈ s.toList, c.toNat < 128

instance (s : String) : Decidable (IsAscii s) :=
  List.decidableBAll (fun c : Char => c.toNat < 128) s.toList

/-- The letters and digits of a text, in lower case. -/
def letters (s : String) : List Char :=
  (s.toList.filter Char.isAlphanum).map Char.toLower

variable {s : String}

theorem flatten_words_ascii (h : IsAscii s) :
    (words s.toList).flatten = s.toList.filter Char.isAlphanum := by
  rw [flatten_words]
  exact List.filter_congr fun c hc => isAlphanumeric_ascii (h c hc)

theorem ascii_of_mem_words (h : IsAscii s) (hw : w ∈ words s.toList) :
    (∀ c ∈ w, c.toNat < 128) ∧ ∀ c ∈ w, c.isAlphanum = true := by
  have hmem : ∀ c ∈ w, c ∈ s.toList ∧ c.isAlphanum = true := by
    intro c hc
    rw [← List.mem_filter, ← flatten_words_ascii h]
    exact List.mem_flatten.2 ⟨w, hw, hc⟩
  exact ⟨fun c hc => h c (hmem c hc).1, fun c hc => (hmem c hc).2⟩

theorem map_toLower_flatMap (hws : ∀ w ∈ ws, (f w).map Char.toLower = w.map Char.toLower) :
    (ws.flatMap f).map Char.toLower = ws.flatten.map Char.toLower := by
  rw [List.map_flatMap, List.map_flatten]
  exact List.flatMap_congr hws

theorem map_toLower_upperCamel (h : IsAscii s) :
    (upperCamel s).toList.map Char.toLower = letters s := by
  rw [upperCamel, String.toList_ofList, letters, ← flatten_words_ascii h]
  apply map_toLower_flatMap
  intro w hw
  exact map_toLower_capitalized (ascii_of_mem_words h hw).1

/-- The two camel cases of a name differ in its first letter only. -/
theorem upperCamel_eq_modifyHead (h : IsAscii s) :
    (upperCamel s).toList = (lowerCamel s).toList.modifyHead Char.toUpper := by
  rw [upperCamel, lowerCamel, String.toList_ofList]
  split
  · next hnil => rw [hnil]; rfl
  · next w ws hcons =>
    have hw : w ∈ words s.toList := by rw [hcons]; exact List.mem_cons_self
    have hascii := (ascii_of_mem_words h hw).1
    obtain ⟨c, cs, rfl⟩ := List.exists_cons_of_ne_nil (ne_nil_of_mem_words hw)
    rw [hcons, List.flatMap_cons, capitalized_ascii hascii, String.toList_ofList,
      lowered_ascii hascii]
    rfl

theorem map_toLower_lowerCamel (h : IsAscii s) :
    (lowerCamel s).toList.map Char.toLower = letters s := by
  rw [← map_toLower_upperCamel h, upperCamel_eq_modifyHead h]
  cases (lowerCamel s).toList with
  | nil => rfl
  | cons c cs => simp

theorem isAlphanum_of_map_toLower {cs : List Char} (h : cs.map Char.toLower = letters s) :
    ∀ c ∈ cs, c.isAlphanum = true := by
  intro c hc
  have hmem : c.toLower ∈ letters s := h ▸ List.mem_map_of_mem hc
  obtain ⟨d, hd, he⟩ := List.mem_map.1 hmem
  rw [← isAlphanum_toLower, ← he, isAlphanum_toLower]
  exact (List.mem_filter.1 hd).2

/-- Words without underscores can be told apart from the underscores between them. -/
theorem filter_joinWith {ss : List String} (h : ∀ s ∈ ss, '_' ∉ s.toList) :
    ((joinWith "_" ss).toList.filter fun c => c ≠ '_') = (ss.map String.toList).flatten := by
  induction ss with
  | nil => rfl
  | cons a as ih =>
    have ha : (a.toList.filter fun c => c ≠ '_') = a.toList := by
      rw [List.filter_eq_self]
      intro c hc
      exact decide_eq_true (ne_of_mem_of_notMem (h a List.mem_cons_self) c hc)
    have has := ih fun s hs => h s (List.mem_cons_of_mem a hs)
    rw [toList_joinWith_cons, List.filter_append, ha, List.map_cons, List.flatten_cons]
    split_ifs with hnil
    · rw [hnil]
      rfl
    · rw [List.filter_append, has]
      rfl

/-- Underscores stand between words only, one at a time. -/
structure Underscored (cs : List Char) : Prop where
  first : cs.head? ≠ some '_'
  last : cs.getLast? ≠ some '_'
  single : ¬ ['_', '_'] <:+: cs

theorem underscored_of_notMem {cs : List Char} (h : '_' ∉ cs) : Underscored cs where
  first he := h (List.mem_of_head? he)
  last he := h (List.mem_of_getLast? he)
  single he := h (he.subset List.mem_cons_self)

theorem Underscored.append {a b : List Char} (ha : '_' ∉ a) (hne : a ≠ []) (hb : Underscored b)
    (hbne : b ≠ []) : Underscored (a ++ '_' :: b) where
  first := by
    rw [List.head?_append_of_ne_nil _ hne]
    exact (underscored_of_notMem ha).first
  last := by
    rw [List.getLast?_append_of_ne_nil _ (List.cons_ne_nil _ _),
      List.getLast?_cons_of_ne_nil hbne]
    exact hb.last
  single := by
    intro hinfix
    rcases List.infix_append_iff_ne_nil.1 hinfix with hia | hib | ⟨x, y, hx, _, hxy, hxa, _⟩
    · exact ha (hia.subset List.mem_cons_self)
    · rcases List.infix_cons_iff.1 hib with hprefix | hib
      · obtain ⟨rest, rfl⟩ := (List.cons_prefix_cons.1 hprefix).2
        exact hb.first rfl
      · exact hb.single hib
    · -- An underscore before the separating one would be the end of the first part.
      obtain ⟨c, x, rfl⟩ := List.exists_cons_of_ne_nil hx
      obtain ⟨rfl, _⟩ := List.cons.inj hxy
      exact ha (hxa.subset List.mem_cons_self)

theorem underscored_joinWith {ss : List String} (h : ∀ s ∈ ss, s.toList ≠ [] ∧ '_' ∉ s.toList) :
    Underscored (joinWith "_" ss).toList ∧ (ss ≠ [] → (joinWith "_" ss).toList ≠ []) := by
  induction ss with
  | nil => exact ⟨underscored_of_notMem (by simp [joinWith]), fun hne => (hne rfl).elim⟩
  | cons a as ih =>
    obtain ⟨hne, ha⟩ := h a List.mem_cons_self
    obtain ⟨has, hasne⟩ := ih fun s hs => h s (List.mem_cons_of_mem a hs)
    rw [toList_joinWith_cons]
    split_ifs with hnil
    · rw [List.append_nil]
      exact ⟨underscored_of_notMem ha, fun _ => hne⟩
    · exact ⟨Underscored.append ha hne has (hasne hnil), by simp⟩

/-- A constant is made of words in upper case. -/
theorem shoutySnake_eq (h : IsAscii s) :
    ∃ ss : List String, shoutySnake s = joinWith "_" ss ∧
      (∀ t ∈ ss, (t.toList ≠ [] ∧ '_' ∉ t.toList) ∧ ∀ c ∈ t.toList, isLower c = false) ∧
      (ss.map String.toList).flatten.map Char.toLower = letters s := by
  refine ⟨_, rfl, ?_, ?_⟩
  · intro t ht
    obtain ⟨w, hw, rfl⟩ := List.mem_map.1 ht
    obtain ⟨hascii, halphanum⟩ := ascii_of_mem_words h hw
    have hraised : ∀ c ∈ w.map Char.toUpper, c.isAlphanum = true ∧ c.isLower = false := by
      intro c hc
      obtain ⟨d, hd, rfl⟩ := List.mem_map.1 hc
      rw [isAlphanum_toUpper]
      exact ⟨halphanum d hd, isLower_toUpper d⟩
    rw [String.toList_ofList, raised_ascii hascii]
    refine ⟨⟨by simpa using ne_nil_of_mem_words hw, ?_⟩, ?_⟩
    · intro hc
      exact absurd (hraised '_' hc).1 (by decide)
    · intro c hc
      obtain ⟨hc, hlower⟩ := hraised c hc
      rw [isLower_ascii (toNat_lt_of_isAlphanum hc), hlower]
  · have hwords : ∀ w ∈ words s.toList, (raised w).map Char.toLower = w.map Char.toLower := by
      intro w hw
      rw [raised_ascii (ascii_of_mem_words h hw).1, List.map_map]
      simp
    rw [List.map_map, Function.comp_def, ← List.flatMap_def]
    simp only [String.toList_ofList]
    rw [map_toLower_flatMap hwords, flatten_words_ascii h]
    rfl

end Ascii

theorem toList_joinWith_empty (ss : List String) :
    (joinWith "" ss).toList = (ss.map String.toList).flatten := by
  induction ss with
  | nil => rfl
  | cons a as ih =>
    rw [toList_joinWith_cons, List.map_cons, List.flatten_cons, ← ih]
    split_ifs with hnil
    · rw [hnil]
      rfl
    · rfl

end Text

namespace Naming

/-- All spellings of a name have the same letters and digits in the same order, and can be told from
one another only by capitals and underscores. -/
structure Agrees (naming : Naming) (name : String) : Prop where
  capitalized : (naming.capitalized name).toList =
    (naming.accessor name).toList.modifyHead Char.toUpper
  accessor_alphanumeric : ∀ c ∈ (naming.accessor name).toList, c.isAlphanum = true
  capitalized_alphanumeric : ∀ c ∈ (naming.capitalized name).toList, c.isAlphanum = true
  accessor_letters : (naming.accessor name).toList.map Char.toLower = Text.letters name
  capitalized_letters : (naming.capitalized name).toList.map Char.toLower = Text.letters name
  constant_letters : ((naming.caseConstant name).toList.filter fun c => c ≠ '_').map Char.toLower =
    Text.letters name
  constant_upper : ∀ c ∈ (naming.caseConstant name).toList, Text.isLower c = false
  constant_underscored : Text.Underscored (naming.caseConstant name).toList

theorem agrees_camelCase {name : String} (h : Text.IsAscii name) : camelCase.Agrees name := by
  obtain ⟨ss, hjoin, hss, hletters⟩ := Text.shoutySnake_eq h
  have hconstant : camelCase.caseConstant name = Text.joinWith "_" ss := hjoin
  have hlower := Text.map_toLower_lowerCamel h
  have hupper := Text.map_toLower_upperCamel h
  constructor
  case capitalized => exact Text.upperCamel_eq_modifyHead h
  case accessor_alphanumeric => exact Text.isAlphanum_of_map_toLower hlower
  case capitalized_alphanumeric => exact Text.isAlphanum_of_map_toLower hupper
  case accessor_letters => exact hlower
  case capitalized_letters => exact hupper
  case constant_letters =>
    rw [hconstant, Text.filter_joinWith fun t ht => (hss t ht).1.2, hletters]
  case constant_upper =>
    intro c hc
    rw [hconstant] at hc
    rcases Text.mem_joinWith hc with hc | ⟨t, ht, hc⟩
    · rw [List.mem_singleton.1 hc]
      rfl
    · exact (hss t ht).2 c hc
  case constant_underscored =>
    rw [hconstant]
    exact (Text.underscored_joinWith fun t ht => (hss t ht).1).1

theorem flattened_child (t : TypeName) (name : String) :
    flattened (t.child name) = flattened t ++ flattened ⟨name⟩ := by
  rw [← String.toList_inj, String.toList_append]
  simp only [flattened, Text.toList_joinWith_empty, TypeName.segments_child, List.map_append,
    List.flatten_append]

/-- A dot separates words like any other mark. -/
theorem flattened_eq_upperCamel (t : TypeName) : flattened t = Text.upperCamel t.text := by
  have hplain : ∀ u : TypeName, '.' ∉ u.text.toList → flattened u = Text.upperCamel u.text := by
    intro u hu
    rw [flattened, TypeName.segments_of_notMem hu]
    rfl
  induction t using TypeName.selfAndParents.induct with
  | case1 t h => exact hplain t (TypeName.parent?_eq_none_iff.1 h)
  | case2 t p h ih =>
    obtain ⟨last, rfl, hlast⟩ := TypeName.parent?_eq_some_iff.1 h
    rw [flattened_child, ih, hplain ⟨last⟩ hlast,
      Text.upperCamel_append_separator (by decide) (p.toList_child last)]

/-- In camel case the spellings of a name in ASCII agree, and the class of a type, whether message
or enumeration, is spelled like its whole name and made up of the names along its path. -/
theorem camelCase_consistent :
    (∀ name, Text.IsAscii name → camelCase.Agrees name) ∧
    ∀ (t : TypeName) (name : String),
      camelCase.classSymbol t = camelCase.enumSymbol t ∧
      camelCase.enumSymbol t = camelCase.capitalized t.text ∧
      camelCase.classSymbol (t.child name) =
        camelCase.classSymbol t ++ camelCase.classSymbol ⟨name⟩ := by
  constructor
  · intro name hname
    exact agrees_camelCase hname
  · intro t name
    exact ⟨rfl, flattened_eq_upperCamel t, flattened_child t name⟩

/-- A name with an acronym, repeated and leading marks, and digits between letters. -/
theorem camelCase_acronym :
    Text.IsAscii "_HTTPServer__id2B-x" ∧ camelCase.Agrees "_HTTPServer__id2B-x" ∧
      camelCase.accessor "_HTTPServer__id2B-x" = "httpServerId2BX" ∧
      camelCase.caseConstant "_HTTPServer__id2B-x" = "HTTP_SERVER_ID2_B_X" ∧
      camelCase.classSymbol (TypeName.child ⟨"größe.SSLKey"⟩ "ßa.b") =
        "GrößeSslKey" ++ "SSaB" := by
  have hascii : Text.IsAscii "_HTTPServer__id2B-x" := by decide +kernel
  refine ⟨hascii, camelCase_consistent.1 _ hascii, by decide +kernel, by decide +kernel, ?_⟩
  rw [(camelCase_consistent.2 _ _).2.2]
  decide +kernel

end Naming

end WireModel
