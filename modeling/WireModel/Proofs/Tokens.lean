import Mathlib.Data.List.Basic
import WireModel.Text.Pieces

namespace WireModel.Text

/-- Two texts that start with a run of characters of one sort agree in the run and in what follows
it. -/
theorem run_append_inj {p : Char → Prop} {a b x y : List Char} (ha : ∀ c ∈ a, p c)
    (hb : ∀ c ∈ b, p c) (hx : ∀ c ∈ x.head?, ¬ p c) (hy : ∀ c ∈ y.head?, ¬ p c)
    (h : a ++ x = b ++ y) : a = b ∧ x = y := by
  induction a generalizing b with
  | nil =>
    cases b with
    | nil => exact ⟨rfl, h⟩
    | cons d b =>
      rw [List.nil_append] at h
      rw [h] at hx
      exact (hx d rfl (hb d List.mem_cons_self)).elim
  | cons c a ih =>
    cases b with
    | nil =>
      rw [List.nil_append] at h
      rw [← h] at hy
      exact (hy c rfl (ha c List.mem_cons_self)).elim
    | cons d b =>
      obtain ⟨hcd, hrest⟩ := List.cons.inj h
      obtain ⟨hab, hxy⟩ := ih (fun c hc => ha c (List.mem_cons_of_mem _ hc))
        (fun c hc => hb c (List.mem_cons_of_mem _ hc)) hrest
      exact ⟨by rw [hcd, hab], hxy⟩

theorem ne_of_mem_of_notMem {d : Char} {a : List Char} (ha : d ∉ a) : ∀ c ∈ a, c ≠ d := by
  intro c hc he
  exact ha (he ▸ hc)

theorem cut_inj {d : Char} {a b x y : List Char} (ha : d ∉ a) (hb : d ∉ b)
    (h : a ++ d :: x = b ++ d :: y) : a = b ∧ x = y := by
  obtain ⟨hab, hxy⟩ := run_append_inj (ne_of_mem_of_notMem ha) (ne_of_mem_of_notMem hb)
    (by simp) (by simp) h
  exact ⟨hab, (List.cons.inj hxy).2⟩

theorem toList_joinWith_cons (sep a : String) (as : List String) :
    (joinWith sep (a :: as)).toList =
      a.toList ++ if as = [] then [] else sep.toList ++ (joinWith sep as).toList := by
  cases as with
  | nil => simp [joinWith]
  | cons b bs => simp [joinWith]

/-- Texts without commas can be read off their list. -/
theorem joinWith_comma_inj {as bs : List String} (ha : ∀ s ∈ as, ',' ∉ s.toList)
    (hb : ∀ s ∈ bs, ',' ∉ s.toList) (hna : as ≠ []) (hnb : bs ≠ [])
    (h : joinWith ", " as = joinWith ", " bs) : as = bs := by
  induction as generalizing bs with
  | nil => exact (hna rfl).elim
  | cons a as ih =>
    obtain ⟨b, bs, rfl⟩ := List.exists_cons_of_ne_nil hnb
    have htext := congrArg String.toList h
    rw [toList_joinWith_cons, toList_joinWith_cons] at htext
    obtain ⟨hab, hrest⟩ := run_append_inj (ne_of_mem_of_notMem (ha a List.mem_cons_self))
      (ne_of_mem_of_notMem (hb b List.mem_cons_self)) (by split <;> simp) (by split <;> simp) htext
    obtain rfl := String.toList_inj.1 hab
    by_cases has : as = []
    · by_cases hbs : bs = []
      · rw [has, hbs]
      · simp [has, hbs] at hrest
    · by_cases hbs : bs = []
      · simp [has, hbs] at hrest
      · rw [if_neg has, if_neg hbs, List.append_cancel_left_eq] at hrest
        rw [ih (fun s hs => ha s (List.mem_cons_of_mem _ hs))
          (fun s hs => hb s (List.mem_cons_of_mem _ hs)) has hbs (String.toList_inj.1 hrest)]

theorem mem_joinWith {c : Char} {sep : String} {as : List String}
    (h : c ∈ (joinWith sep as).toList) : c ∈ sep.toList ∨ ∃ s ∈ as, c ∈ s.toList := by
  induction as with
  | nil => cases h
  | cons a as ih =>
    rw [toList_joinWith_cons, List.mem_append] at h
    obtain h | h := h
    · exact .inr ⟨a, List.mem_cons_self, h⟩
    · split at h
      · cases h
      · obtain h | h := List.mem_append.1 h
        · exact .inl h
        · obtain h | ⟨s, hs, hc⟩ := ih h
          · exact .inl h
          · exact .inr ⟨s, List.mem_cons_of_mem a hs, hc⟩

theorem afterStart?_eq_some_iff {a b cs : List Char} :
    afterStart? a cs = some b ↔ cs = a ++ b := by
  induction a generalizing cs with
  | nil => exact Option.some_inj
  | cons c a ih =>
    cases cs with
    | nil => simp [afterStart?]
    | cons d cs =>
      rw [afterStart?, List.cons_append, List.cons.injEq]
      by_cases hcd : c = d
      · rw [if_pos hcd, ih]
        simp [hcd]
      · rw [if_neg hcd]
        simp [Ne.symm hcd]

theorem afterStart?_append (a b : List Char) : afterStart? a (a ++ b) = some b :=
  afterStart?_eq_some_iff.2 rfl

theorem afterStart?_eq_none {a cs : List Char} {c d : Char} (ha : a.head? = some c)
    (hcs : cs.head? = some d) (hne : c ≠ d) : afterStart? a cs = none := by
  obtain ⟨as, rfl⟩ := List.head?_eq_some_iff.1 ha
  obtain ⟨ds, rfl⟩ := List.head?_eq_some_iff.1 hcs
  rw [afterStart?, if_neg hne]

theorem joinWith_append_singleton (sep s : String) {ss : List String} (h : ss ≠ []) :
    joinWith sep (ss ++ [s]) = joinWith sep ss ++ sep ++ s := by
  induction ss with
  | nil => exact (h rfl).elim
  | cons a as ih =>
    cases as with
    | nil => rfl
    | cons b bs =>
      have htail := ih (List.cons_ne_nil b bs)
      rw [List.cons_append, joinWith.eq_3 sep a _ (by simp), htail,
        joinWith.eq_3 sep a (b :: bs) (by simp)]
      simp only [String.append_assoc]

theorem pieces_of_forall {cut : Char → Bool} {cs : List Char} (h : ∀ c ∈ cs, cut c = false) :
    pieces cut cs = [cs] := by
  induction cs with
  | nil => rfl
  | cons c cs ih =>
    rw [pieces, ih fun d hd => h d (List.mem_cons_of_mem c hd)]
    simp [h c List.mem_cons_self]

/-- A cut ends one piece and starts the next. -/
theorem pieces_append_cut {cut : Char → Bool} {a b : List Char} {c : Char} (hc : cut c = true) :
    pieces cut (a ++ c :: b) = pieces cut a ++ pieces cut b := by
  induction a with
  | nil => simp [pieces, hc]
  | cons d a ih =>
    obtain ⟨p, ps, hp⟩ := List.exists_cons_of_ne_nil (pieces_ne_nil cut a)
    rw [List.cons_append, pieces, pieces, ih, hp]
    split <;> rfl

theorem beforeLast?_eq_none_iff {sep : Char} {cs : List Char} :
    beforeLast? sep cs = none ↔ sep ∉ cs := by
  induction cs with
  | nil => simp [beforeLast?]
  | cons c cs ih =>
    rw [List.mem_cons, not_or, ← ih, beforeLast?]
    cases beforeLast? sep cs with
    | none => simp [eq_comm]
    | some before => simp

/-- What stands before the last separator is followed by it and by no other. -/
theorem beforeLast?_eq_some_iff {sep : Char} {cs before : List Char} :
    beforeLast? sep cs = some before ↔ ∃ last, cs = before ++ sep :: last ∧ sep ∉ last := by
  refine ⟨?_, ?_⟩
  · intro h
    induction cs generalizing before with
    | nil => cases h
    | cons c cs ih =>
      rw [beforeLast?] at h
      split at h
      · next b hb =>
        cases h
        obtain ⟨last, rfl, hlast⟩ := ih hb
        exact ⟨last, rfl, hlast⟩
      · next hnone =>
        split_ifs at h with hc
        cases h
        exact ⟨cs, by rw [hc, List.nil_append], beforeLast?_eq_none_iff.1 hnone⟩
  · rintro ⟨last, rfl, hlast⟩
    induction before with
    | nil => simp [beforeLast?, beforeLast?_eq_none_iff.2 hlast]
    | cons c before ih => rw [List.cons_append, beforeLast?, ih]

theorem toList_unlines_cons (l : String) (ls : List String) :
    (unlines (l :: ls)).toList = l.toList ++ '\n' :: (unlines ls).toList := by
  simp [unlines]

/-- Lines can be read off the text that they make up. -/
theorem unlines_inj {ls ms : List String} (hl : ∀ s ∈ ls, '\n' ∉ s.toList)
    (hm : ∀ s ∈ ms, '\n' ∉ s.toList) (h : unlines ls = unlines ms) : ls = ms := by
  rw [← String.toList_inj] at h
  induction ls generalizing ms with
  | nil =>
    cases ms with
    | nil => rfl
    | cons m ms => simp [unlines] at h
  | cons l ls ih =>
    cases ms with
    | nil => simp [unlines] at h
    | cons m ms =>
      rw [toList_unlines_cons, toList_unlines_cons] at h
      obtain ⟨hlm, hrest⟩ := cut_inj (hl l List.mem_cons_self) (hm m List.mem_cons_self) h
      rw [String.toList_inj.1 hlm, ih (fun s hs => hl s (List.mem_cons_of_mem _ hs))
        (fun s hs => hm s (List.mem_cons_of_mem _ hs)) hrest]

theorem splitAt_unlines {ls : List String} (h : ∀ l ∈ ls, '\n' ∉ l.toList) :
    splitAt '\n' (unlines ls) = ls ++ [""] := by
  induction ls with
  | nil => rfl
  | cons l ls ih =>
    have hl : ∀ d ∈ l.toList, (d == '\n') = false := by
      intro d hd
      exact beq_false_of_ne fun he => h l List.mem_cons_self (he ▸ hd)
    rw [splitAt, toList_unlines_cons, pieces_append_cut (by decide), pieces_of_forall hl,
      List.singleton_append, List.map_cons, String.ofList_toList, List.cons_append,
      ← ih fun m hm => h m (List.mem_cons_of_mem l hm)]
    rfl

theorem unlines_append (ls ms : List String) : unlines (ls ++ ms) = unlines ls ++ unlines ms := by
  induction ls with
  | nil => simp [unlines]
  | cons l ls ih => simp [unlines, ih, String.append_assoc]

def IsWord (w : String) : Prop :=
  ' ' ∉ w.toList ∧ '=' ∉ w.toList

instance (w : String) : Decidable (IsWord w) := inferInstanceAs (Decidable (_ ∧ _))

/-- Words with a blank after each, and what stands after an equals sign. -/
def assignment (ws : List String) (value : List Char) : List Char :=
  ws.flatMap (fun w => w.toList ++ [' ']) ++ '=' :: ' ' :: value

theorem assignment_cons (w : String) (ws : List String) (value : List Char) :
    assignment (w :: ws) value = w.toList ++ ' ' :: assignment ws value := by
  simp [assignment]

theorem assignment_nil_ne_cons {v : String} (hv : '=' ∉ v.toList) (vs : List String)
    (x y : List Char) : assignment [] x ≠ assignment (v :: vs) y := by
  intro h
  rw [assignment_cons] at h
  cases hl : v.toList with
  | nil => simp [assignment, hl] at h
  | cons c cs =>
    rw [hl] at h hv
    obtain ⟨hc, _⟩ := List.cons.inj h
    exact hv (hc ▸ List.mem_cons_self)

/-- The words before an equals sign can be told apart from each other and from what follows it. -/
theorem assignment_inj {ws vs : List String} {x y : List Char}
    (hw : ∀ w ∈ ws, IsWord w) (hv : ∀ v ∈ vs, IsWord v)
    (h : assignment ws x = assignment vs y) : ws = vs ∧ x = y := by
  induction ws generalizing vs with
  | nil =>
    cases vs with
    | nil => exact ⟨rfl, by simpa [assignment] using h⟩
    | cons v vs => exact (assignment_nil_ne_cons (hv v List.mem_cons_self).2 vs x y h).elim
  | cons w ws ih =>
    cases vs with
    | nil => exact (assignment_nil_ne_cons (hw w List.mem_cons_self).2 ws y x h.symm).elim
    | cons v vs =>
      rw [assignment_cons, assignment_cons] at h
      obtain ⟨hwv, hrest⟩ := cut_inj (hw w List.mem_cons_self).1 (hv v List.mem_cons_self).1 h
      obtain ⟨hws, hxy⟩ := ih (fun w hm => hw w (List.mem_cons_of_mem _ hm))
        (fun v hm => hv v (List.mem_cons_of_mem _ hm)) hrest
      exact ⟨by rw [String.toList_inj.1 hwv, hws], hxy⟩

theorem takeWhile_append_eq {p : Char → Bool} {a x : List Char} (ha : ∀ c ∈ a, p c = true)
    (hx : ∀ c ∈ x.head?, p c = false) : (a ++ x).takeWhile p = a := by
  rw [List.takeWhile_append_of_pos ha]
  cases x with
  | nil => simp
  | cons c x => simp [hx c rfl]

theorem decide_ne_of_notMem {d : Char} {a : List Char} (h : d ∉ a) :
    ∀ c ∈ a, decide (c ≠ d) = true := by
  simpa using ne_of_mem_of_notMem h

theorem equals_notMem_words {ws : List String} (hw : ∀ w ∈ ws, IsWord w) :
    '=' ∉ ws.flatMap fun w => w.toList ++ [' '] := by
  intro h
  obtain ⟨w, hm, hc⟩ := List.mem_flatMap.1 h
  obtain hc | hc := List.mem_append.1 hc
  · exact (hw w hm).2 hc
  · cases List.mem_singleton.1 hc

theorem takeWhile_assignment {ws : List String} (hw : ∀ w ∈ ws, IsWord w) (value : List Char) :
    (assignment ws value).takeWhile (· ≠ '=') = ws.flatMap fun w => w.toList ++ [' '] :=
  takeWhile_append_eq (decide_ne_of_notMem (equals_notMem_words hw)) (by simp)

theorem afterStart?_assignment {w : String} (hw : IsWord w) (hne : w ≠ "option")
    (ws : List String) (value : List Char) :
    afterStart? "option ".toList (assignment (w :: ws) value) = none := by
  rw [Option.eq_none_iff_forall_ne_some]
  intro rest h
  have h := afterStart?_eq_some_iff.1 h
  rw [assignment_cons] at h
  have h : w.toList ++ ' ' :: _ = "option".toList ++ ' ' :: rest := h
  exact hne (String.toList_inj.1 (cut_inj hw.1 (by decide) h).1)

/-- Words with a blank after each are cut at the blanks. -/
theorem pieces_words {ws : List String} (hw : ∀ w ∈ ws, ' ' ∉ w.toList) :
    pieces (· == ' ') (ws.flatMap fun w => w.toList ++ [' ']) = ws.map String.toList ++ [[]] := by
  induction ws with
  | nil => rfl
  | cons w ws ih =>
    have hword : ∀ c ∈ w.toList, (c == ' ') = false :=
      fun c hc => beq_false_of_ne (ne_of_mem_of_notMem (hw w List.mem_cons_self) c hc)
    rw [List.flatMap_cons, List.append_assoc, List.singleton_append, pieces_append_cut rfl,
      pieces_of_forall hword, ih fun v hv => hw v (List.mem_cons_of_mem w hv)]
    rfl

/-- Lists whose elements one function cannot tell apart, where it tells apart all that another one
does. -/
theorem map_eq_of_map_eq {α β γ : Type} {f : α → β} {g : α → γ} {as bs : List α}
    (hfg : ∀ a ∈ as, ∀ b ∈ bs, f a = f b → g a = g b) (h : as.map f = bs.map f) :
    as.map g = bs.map g := by
  induction as generalizing bs with
  | nil =>
    cases bs with
    | nil => rfl
    | cons b bs => cases h
  | cons a as ih =>
    cases bs with
    | nil => cases h
    | cons b bs =>
      obtain ⟨hab, hrest⟩ := List.cons.inj h
      rw [List.map_cons, List.map_cons, hfg a List.mem_cons_self b List.mem_cons_self hab,
        ih (fun a ha b hb => hfg a (List.mem_cons_of_mem _ ha) b (List.mem_cons_of_mem _ hb)) hrest]

end WireModel.Text
