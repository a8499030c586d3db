import WireModel.Proofs.JsonGrammar
import WireModel.Proofs.JsonNesting

namespace WireModel.Json

/-- Text that can stand in place of what follows a token: its first character is the old one or a
blank. -/
def Follows (rest rest' : List Char) : Prop :=
  ∀ c ∈ rest'.head?, c ∈ rest.head? ∨ Token.isBlank c = true

theorem Follows.append {rest rest' : List Char} (h : Follows rest rest') (w : List Char) :
    Follows (w ++ rest) (w ++ rest') := by
  cases w with
  | nil => exact h
  | cons d w =>
    intro c hc
    exact .inl hc

theorem Follows.ne_cons {d : Char} {cs cs' : List Char} (h : Follows cs cs')
    (hd : ∀ ds, cs ≠ d :: ds) (hblank : Token.isBlank d = false) (ds : List Char) :
    cs' ≠ d :: ds := by
  rintro rfl
  rcases h d rfl with hold | hb
  · cases cs with
    | nil => cases hold
    | cons c cs =>
      cases hold
      exact hd cs rfl
  · rw [hblank] at hb
    cases hb

namespace Numeral

open Place (IsOrdinary)

variable {α β : Type} {rest rest' : List Char}

/-- A part of a number takes ordinary characters off a text, whatever may follow them. -/
def Regular (scan : List Char → Option (α × List Char)) : Prop :=
  ∀ ⦃cs a rest⦄, scan cs = some (a, rest) → ∃ w, cs = w ++ rest ∧ (∀ c ∈ w, IsOrdinary c) ∧
    ∀ rest', Follows rest rest' → scan (w ++ rest') = some (a, rest')

theorem isOrdinary_of_isDigit {c : Char} (h : c.isDigit = true) : IsOrdinary c := by
  have hmarks : ∀ c ∈ ['"', '[', ']', '\x7b', '\x7d'], c.isDigit = false := by simp
  intro hc
  rw [hmarks c hc] at h
  cases h

theorem isDigit_of_isBlank {c : Char} (h : Token.isBlank c = true) : c.isDigit = false := by
  have hblank : c = ' ' ∨ c = '\t' ∨ c = '\n' ∨ c = '\r' := by
    simpa [Token.isBlank, or_assoc] using h
  obtain rfl | rfl | rfl | rfl := hblank <;> rfl

theorem regular_scanDigits : Regular scanDigits := by
  intro cs ds rest h
  obtain ⟨hcs, hne, hdigits, hstop⟩ := scanDigits_eq_some_iff.1 h
  refine ⟨ds, hcs, fun c hc => isOrdinary_of_isDigit (hdigits c hc), ?_⟩
  intro rest' hf
  refine scanDigits_eq_some_iff.2 ⟨rfl, hne, hdigits, ?_⟩
  intro c hc
  rcases hf c hc with hold | hblank
  · exact hstop c hold
  · exact isDigit_of_isBlank hblank

theorem regular_scanFraction : Regular scanFraction := by
  intro cs ds rest h
  rw [scanFraction.eq_def] at h
  split at h
  · next cs =>
    obtain ⟨w, rfl, hw, hstable⟩ := regular_scanDigits h
    refine ⟨'.' :: w, rfl, ?_, hstable⟩
    intro c hc
    rcases List.mem_cons.1 hc with rfl | hc
    · simp [IsOrdinary]
    · exact hw c hc
  · next hpoint =>
    cases h
    refine ⟨[], rfl, by simp, ?_⟩
    intro rest' hf
    rw [List.nil_append, scanFraction.eq_2 _ fun ds => hf.ne_cons hpoint rfl ds]

/-- A sign stays a sign before the same digits. -/
theorem scanExponentSign_append {cs ds : List Char} (h : (scanExponentSign cs).2 = ds ++ rest)
    (hne : ds ≠ []) (hd : ∀ c ∈ ds, c.isDigit = true) :
    ∃ w, cs = w ++ ds ++ rest ∧ (∀ c ∈ w, IsOrdinary c) ∧ ∀ rest',
      scanExponentSign (w ++ ds ++ rest') = ((scanExponentSign cs).1, ds ++ rest') := by
  obtain ⟨d, ds, rfl⟩ := List.exists_cons_of_ne_nil hne
  have hdigit := hd d List.mem_cons_self
  rw [scanExponentSign.eq_def] at h ⊢
  split at h
  · cases h
    exact ⟨['-'], rfl, by simp [IsOrdinary], fun _ => rfl⟩
  · cases h
    exact ⟨['+'], rfl, by simp [IsOrdinary], fun _ => rfl⟩
  · cases h
    refine ⟨[], rfl, by simp, ?_⟩
    intro rest'
    rw [scanExponentSign.eq_3]
    · rfl
    · rintro cs h
      cases h
      cases hdigit
    · rintro cs h
      cases h
      cases hdigit

theorem regular_scanExponent : Regular scanExponent := by
  intro cs e rest h
  have hend : ∀ rest', (∀ c ∈ rest'.head?, ¬(c = 'e' ∨ c = 'E')) →
      scanExponent rest' = some (none, rest') := by
    intro rest' hhead
    cases rest' with
    | nil => rfl
    | cons c cs => rw [scanExponent, if_neg (hhead c rfl)]
  have hblank : ∀ c, Token.isBlank c = true → ¬(c = 'e' ∨ c = 'E') := by
    rintro c hc (rfl | rfl) <;> cases hc
  cases cs with
  | nil =>
    cases h
    refine ⟨[], rfl, by simp, ?_⟩
    intro rest' hf
    apply hend
    intro c hc
    rcases hf c hc with hold | hb
    · cases hold
    · exact hblank c hb
  | cons c cs =>
    rw [scanExponent] at h
    split at h
    · next hc =>
      obtain ⟨⟨ds, r⟩, hd, he⟩ := Option.map_eq_some_iff.1 h
      cases he
      obtain ⟨hcs, hne, hdigits, hstop⟩ := scanDigits_eq_some_iff.1 hd
      obtain ⟨w, rfl, hw, hsign⟩ := scanExponentSign_append hcs hne hdigits
      obtain ⟨_, hds, _, hstable⟩ := regular_scanDigits hd
      rw [hcs] at hds
      cases List.append_cancel_right hds
      refine ⟨c :: (w ++ ds), by simp, ?_, ?_⟩
      · intro x hx
        rw [List.mem_cons, List.mem_append] at hx
        rcases hx with rfl | hx | hx
        · rcases hc with rfl | rfl <;> simp [IsOrdinary]
        · exact hw x hx
        · exact isOrdinary_of_isDigit (hdigits x hx)
      · intro rest' hf
        rw [List.cons_append, scanExponent, if_pos hc, hsign, hstable rest' hf]
        rfl
    · next hc =>
      cases h
      refine ⟨[], rfl, by simp, ?_⟩
      intro rest' hf
      apply hend
      intro d hd
      rcases hf d hd with hold | hb
      · cases hold
        exact hc
      · exact hblank d hb

theorem regular_scanUnsigned (negative : Bool) : Regular (scanUnsigned negative) := by
  intro cs n rest h
  rw [scanUnsigned] at h
  split at h
  · cases h
  · next whole mid hwhole =>
    split at h
    · cases h
    · next hzero =>
      split at h
      · cases h
      · next fraction mid' hfraction =>
        obtain ⟨⟨e, r⟩, he, hn⟩ := Option.map_eq_some_iff.1 h
        cases hn
        obtain ⟨w, rfl, hw, hdigits⟩ := regular_scanDigits hwhole
        obtain ⟨w', rfl, hw', hfractions⟩ := regular_scanFraction hfraction
        obtain ⟨w'', rfl, hw'', hexponents⟩ := regular_scanExponent he
        refine ⟨w ++ w' ++ w'', by simp, ?_, ?_⟩
        · intro c hc
          rw [List.mem_append, List.mem_append] at hc
          rcases hc with (hc | hc) | hc
          · exact hw c hc
          · exact hw' c hc
          · exact hw'' c hc
        · intro rest' hf
          rw [List.append_assoc, List.append_assoc, scanUnsigned,
            hdigits _ ((hf.append w'').append w')]
          simp only [if_neg hzero, hfractions _ (hf.append w''), hexponents _ hf, Option.map_some]

theorem regular_scan : Regular scan := by
  intro cs n rest h
  rw [scan.eq_def] at h
  split at h
  · next cs =>
    obtain ⟨w, rfl, hw, hstable⟩ := regular_scanUnsigned true h
    refine ⟨'-' :: w, rfl, ?_, hstable⟩
    intro c hc
    rcases List.mem_cons.1 hc with rfl | hc
    · simp [IsOrdinary]
    · exact hw c hc
  · next hminus =>
    obtain ⟨w, rfl, hw, hstable⟩ := regular_scanUnsigned false h
    refine ⟨w, rfl, hw, ?_⟩
    intro rest' hf
    rw [scan.eq_2 _ fun ds => (hf.append w).ne_cons hminus rfl ds]
    exact hstable rest' hf

end Numeral

namespace Token

variable {t : Token} {cs rest : List Char}

/-- A literal ends at its quote, whatever follows. -/
theorem scanPieces_append {done ps : List Piece} (h : scanPieces done cs = some (ps, rest)) :
    ∃ w, cs = w ++ rest ∧ ∀ rest', scanPieces done (w ++ rest') = some (ps, rest') := by
  fun_induction scanPieces done cs with
  | case1 => cases h
  | case2 done cs =>
    cases h
    exact ⟨['"'], rfl, fun _ => rfl⟩
  | case3 done a b c d cs code hcode ih =>
    obtain ⟨w, rfl, hw⟩ := ih h
    refine ⟨'\\' :: 'u' :: a :: b :: c :: d :: w, rfl, ?_⟩
    intro rest'
    simp only [List.cons_append, scanPieces.eq_3, hcode]
    exact hw rest'
  | case4 => cases h
  | case5 done e cs hu c hc ih =>
    obtain ⟨w, rfl, hw⟩ := ih h
    refine ⟨'\\' :: e :: w, rfl, ?_⟩
    intro rest'
    have he : e ≠ 'u' := by
      rintro rfl
      cases hc
    rw [List.cons_append, List.cons_append, scanPieces.eq_4 _ _ _ fun _ _ _ _ _ h => absurd h he]
    simp only [hc]
    exact hw rest'
  | case6 => cases h
  | case7 => cases h
  | case8 done c cs hquote _ _ hc ih =>
    obtain ⟨w, rfl, hw⟩ := ih h
    refine ⟨c :: w, rfl, ?_⟩
    intro rest'
    have hback : c ≠ '\\' := fun h => hc (.inl h)
    rw [List.cons_append, scanPieces.eq_5 _ _ _ hquote (fun _ _ _ _ _ h => absurd h hback)
      (fun _ _ h => absurd h hback), if_neg hc]
    exact hw rest'

/-- A token stays the same if a blank is put behind it or anything further behind changes. -/
theorem scan_append (h : scan cs = some (t, rest)) :
    ∃ w, cs = w ++ rest ∧ ∀ rest', Follows rest rest' → scan (w ++ rest') = some (t, rest') := by
  rw [scan.eq_def] at h
  split at h
  case h_7 cs =>
    obtain ⟨⟨s, r⟩, hs, he⟩ := Option.map_eq_some_iff.1 h
    cases he
    obtain ⟨⟨ps, r⟩, hp, he⟩ := Option.map_eq_some_iff.1 hs
    cases he
    obtain ⟨w, rfl, hw⟩ := scanPieces_append hp
    refine ⟨'"' :: w, rfl, ?_⟩
    intro rest' _
    rw [List.cons_append, scan, scanString, hw]
    rfl
  case h_11 =>
    obtain ⟨⟨n, r⟩, hn, he⟩ := Option.map_eq_some_iff.1 h
    cases he
    obtain ⟨w, rfl, _, hstable⟩ := Numeral.regular_scan hn
    exact ⟨w, rfl, fun rest' hf => scan_of_numeral (hstable rest' hf)⟩
  case h_1 => cases h; exact ⟨['\x7b'], rfl, fun _ _ => rfl⟩
  case h_2 => cases h; exact ⟨['\x7d'], rfl, fun _ _ => rfl⟩
  case h_3 => cases h; exact ⟨['['], rfl, fun _ _ => rfl⟩
  case h_4 => cases h; exact ⟨[']'], rfl, fun _ _ => rfl⟩
  case h_5 => cases h; exact ⟨[':'], rfl, fun _ _ => rfl⟩
  case h_6 => cases h; exact ⟨[','], rfl, fun _ _ => rfl⟩
  case h_8 => cases h; exact ⟨['n', 'u', 'l', 'l'], rfl, fun _ _ => rfl⟩
  case h_9 => cases h; exact ⟨['t', 'r', 'u', 'e'], rfl, fun _ _ => rfl⟩
  case h_10 => cases h; exact ⟨['f', 'a', 'l', 's', 'e'], rfl, fun _ _ => rfl⟩

end Token

namespace Consumes

variable {ts us : List Token} {cs mid rest : List Char}

theorem append (h : Consumes ts cs mid) (hu : Consumes us mid rest) :
    Consumes (ts ++ us) cs rest := by
  induction h with
  | done cs => exact hu
  | blank hc _ ih => exact .blank hc (ih hu)
  | token ht _ ih => exact .token ht (ih hu)

/-- Tokens stay the same if a blank is put behind them. -/
theorem exists_before (h : Consumes ts cs rest) :
    ∃ before, cs = before ++ rest ∧ ∀ c, Token.isBlank c = true →
      Consumes ts (before ++ c :: rest) (c :: rest) := by
  induction h with
  | done cs => exact ⟨[], rfl, fun c _ => .done (c :: cs)⟩
  | @blank d hd ts cs rest _ ih =>
    obtain ⟨before, rfl, hbefore⟩ := ih
    exact ⟨d :: before, rfl, fun c hc => .blank hd (hbefore c hc)⟩
  | @token t cs mid ht ts rest _ ih =>
    obtain ⟨w, rfl, hw⟩ := Token.scan_append ht
    obtain ⟨before, rfl, hbefore⟩ := ih
    refine ⟨w ++ before, by simp, ?_⟩
    intro c hc
    have hf : Follows rest (c :: rest) := by
      intro d hd
      cases hd
      exact .inr hc
    rw [List.append_assoc]
    exact .token (hw _ (hf.append before)) (hbefore c hc)

/-- A text has only one reading: the tokens of a part of it are the first of the whole. -/
theorem split (h : Consumes ts cs mid) (hu : Consumes us cs []) :
    ∃ vs, us = ts ++ vs ∧ Consumes vs mid [] := by
  induction h generalizing us with
  | done cs => exact ⟨us, rfl, hu⟩
  | blank hc _ ih =>
    cases hu with
    | blank _ hu => exact ih hu
    | token ht _ =>
      rw [Token.not_isBlank_of_scan ht] at hc
      cases hc
  | token ht _ ih =>
    cases hu with
    | done => cases ht
    | blank hc _ =>
      rw [Token.not_isBlank_of_scan ht] at hc
      cases hc
    | token ht' hu =>
      rw [ht] at ht'
      cases ht'
      obtain ⟨vs, rfl, hvs⟩ := ih hu
      exact ⟨vs, rfl, hvs⟩

end Consumes

/-- A blank can be put between any two tokens of a text. -/
theorem Value.Spells.insert_blank {v : Value} {text text' : String} {before after : List Char}
    {c : Char} {ts : List Token} (h : v.Spells text) (htext : text.toList = before ++ after)
    (htext' : text'.toList = before ++ c :: after) (hc : Token.isBlank c = true)
    (hts : Consumes ts text.toList after) : v.Spells text' := by
  obtain ⟨us, hus, hrest⟩ := hts.split h
  obtain ⟨before', hbefore, hblank⟩ := hts.exists_before
  cases List.append_cancel_right (htext.symm.trans hbefore)
  rw [Spells, htext', hus]
  exact (hblank c hc).append (.blank hc hrest)

namespace Token

/-- How many containers are open after a token. -/
def opened (n : Nat) : Token → Nat
  | .openArray | .openObject => n + 1
  | .closeArray | .closeObject => n - 1
  | _ => n

/-- How many containers are open at once among tokens, at most, if some are open before them. -/
def mostOpen (n : Nat) : List Token → Nat
  | [] => n
  | t :: ts => max n (mostOpen (t.opened n) ts)

variable {t : Token} {cs rest : List Char}

theorem next_literal_of_hexDigit? {c : Char} {k : Nat} (h : Text.hexDigit? c = some k) :
    Place.literal.next c = .literal := by
  have hquote : c ≠ '"' := by
    rintro rfl
    cases h
  have hback : c ≠ '\\' := by
    rintro rfl
    cases h
  rw [Place.next, if_neg hquote, if_neg hback]

theorem mostOpen_scanPieces {done ps : List Piece} (h : scanPieces done cs = some (ps, rest))
    (n : Nat) : Place.literal.mostOpen n cs = Place.outside.mostOpen n rest := by
  fun_induction scanPieces done cs with
  | case1 => cases h
  | case2 done cs =>
    cases h
    exact Place.mostOpen_literal_cons
  | case3 done a b c d cs code hcode ih =>
    rw [hexUnit?] at hcode
    split at hcode
    · next ha hb hc hd =>
      rw [Place.mostOpen_literal_cons]
      change Place.escape.mostOpen n _ = _
      rw [Place.mostOpen_escape_cons, Place.mostOpen_literal_cons, next_literal_of_hexDigit? ha,
        Place.mostOpen_literal_cons, next_literal_of_hexDigit? hb, Place.mostOpen_literal_cons,
        next_literal_of_hexDigit? hc, Place.mostOpen_literal_cons, next_literal_of_hexDigit? hd]
      exact ih h
    · cases hcode
  | case4 => cases h
  | case5 done e cs hu c hc ih =>
    rw [Place.mostOpen_literal_cons]
    change Place.escape.mostOpen n _ = _
    rw [Place.mostOpen_escape_cons]
    exact ih h
  | case6 => cases h
  | case7 => cases h
  | case8 done c cs hquote _ _ hc ih =>
    have hback : c ≠ '\\' := fun h => hc (.inl h)
    have hnext : Place.literal.next c = .literal := by
      rw [Place.next, if_neg hquote, if_neg hback]
    rw [Place.mostOpen_literal_cons, hnext]
    exact ih h

/-- A token opens and closes what its characters do. -/
theorem mostOpen_scan (h : scan cs = some (t, rest)) (n : Nat) :
    Place.outside.mostOpen n cs = max n (Place.outside.mostOpen (t.opened n) rest) := by
  have hkept : Place.outside.mostOpen n rest = max n (Place.outside.mostOpen n rest) :=
    (Nat.max_eq_right (Place.le_mostOpen _ _ _)).symm
  have hword : ∀ w : List Char, (∀ c ∈ w, Place.IsOrdinary c) →
      Place.outside.mostOpen n (w ++ rest) = max n (Place.outside.mostOpen n rest) := by
    intro w hw
    rw [Place.mostOpen_outside_append hw]
    exact hkept
  rw [scan.eq_def] at h
  split at h
  case h_7 cs =>
    obtain ⟨⟨s, r⟩, hs, he⟩ := Option.map_eq_some_iff.1 h
    cases he
    obtain ⟨⟨ps, r⟩, hp, he⟩ := Option.map_eq_some_iff.1 hs
    cases he
    rw [Place.mostOpen_cons_of_opened (by simp [Place.opened])]
    change Place.literal.mostOpen n cs = _
    rw [mostOpen_scanPieces hp]
    exact hkept
  case h_11 =>
    obtain ⟨⟨k, r⟩, hk, he⟩ := Option.map_eq_some_iff.1 h
    cases he
    obtain ⟨w, rfl, hw, _⟩ := Numeral.regular_scan hk
    exact hword w hw
  case h_1 => cases h; rfl
  case h_2 => cases h; rfl
  case h_3 => cases h; rfl
  case h_4 => cases h; rfl
  case h_5 => cases h; exact hword [':'] (by simp [Place.IsOrdinary])
  case h_6 => cases h; exact hword [','] (by simp [Place.IsOrdinary])
  case h_8 => cases h; exact hword ['n', 'u', 'l', 'l'] (by simp [Place.IsOrdinary])
  case h_9 => cases h; exact hword ['t', 'r', 'u', 'e'] (by simp [Place.IsOrdinary])
  case h_10 => cases h; exact hword ['f', 'a', 'l', 's', 'e'] (by simp [Place.IsOrdinary])

theorem le_mostOpen (n : Nat) (ts : List Token) : n ≤ mostOpen n ts := by
  cases ts with
  | nil => exact Nat.le_refl n
  | cons t ts => exact Nat.le_max_left _ _

theorem mostOpen_consumes {ts : List Token} (h : Consumes ts cs []) (n : Nat) :
    Place.outside.mostOpen n cs = mostOpen n ts := by
  generalize hrest : ([] : List Char) = rest at h
  induction h generalizing n with
  | done cs =>
    cases hrest
    rfl
  | @blank c hc ts cs rest _ ih =>
    have hordinary : Place.IsOrdinary c := by
      have hblank : c = ' ' ∨ c = '\t' ∨ c = '\n' ∨ c = '\r' := by
        simpa [isBlank, or_assoc] using hc
      obtain rfl | rfl | rfl | rfl := hblank <;> simp [Place.IsOrdinary]
    rw [Place.mostOpen_outside_cons hordinary]
    exact ih n hrest
  | token ht _ ih => rw [mostOpen_scan ht, ih _ hrest, mostOpen]

mutual

theorem mostOpen_value : ∀ (v : Value) (n : Nat) (ts : List Token),
    mostOpen n (v.tokens ++ ts) = max (n + v.nesting) (mostOpen n ts)
  | .null, n, ts | .bool _, n, ts | .number _, n, ts | .string _, n, ts => by
    rw [Value.tokens, Value.nesting]
    rfl
  | .array items, n, ts => by
    have hitems := mostOpen_items items (n + 1) (.closeArray :: ts)
    have hle := le_mostOpen n ts
    rw [Value.tokens, Value.nesting, List.cons_append, List.append_assoc, List.singleton_append,
      mostOpen]
    change max n (mostOpen (n + 1) _) = _
    rw [hitems, mostOpen]
    change max n (max _ (max (n + 1) (mostOpen n ts))) = _
    omega
  | .object members, n, ts => by
    have hmembers := mostOpen_members members (n + 1) (.closeObject :: ts)
    have hle := le_mostOpen n ts
    rw [Value.tokens, Value.nesting, List.cons_append, List.append_assoc, List.singleton_append,
      mostOpen]
    change max n (mostOpen (n + 1) _) = _
    rw [hmembers, mostOpen]
    change max n (max _ (max (n + 1) (mostOpen n ts))) = _
    omega

theorem mostOpen_items : ∀ (items : List Value) (n : Nat) (ts : List Token),
    mostOpen n (Value.itemTokens items ++ ts) = max (n + Value.nestingOf items) (mostOpen n ts)
  | [], n, ts => by
    rw [Value.itemTokens, Value.nestingOf]
    exact (Nat.max_eq_right (le_mostOpen n ts)).symm
  | [v], n, ts => by
    rw [Value.itemTokens, mostOpen_value v, Value.nestingOf, Value.nestingOf, Nat.max_zero]
  | v :: w :: ws, n, ts => by
    have htail := mostOpen_items (w :: ws) n ts
    have hle := le_mostOpen n ts
    rw [Value.itemTokens.eq_3 v _ (List.cons_ne_nil w ws), List.append_assoc, mostOpen_value v,
      List.cons_append, mostOpen]
    change max _ (max n (mostOpen n (Value.itemTokens (w :: ws) ++ ts))) = _
    rw [htail, Value.nestingOf.eq_2 v]
    omega

theorem mostOpen_members : ∀ (members : List (Text × Value)) (n : Nat) (ts : List Token),
    mostOpen n (Value.memberTokens members ++ ts) =
      max (n + Value.memberNesting members) (mostOpen n ts)
  | [], n, ts => by
    rw [Value.memberTokens, Value.memberNesting]
    exact (Nat.max_eq_right (le_mostOpen n ts)).symm
  | [(key, v)], n, ts => by
    rw [Value.memberTokens, Value.memberNesting, Value.memberNesting, Nat.max_zero,
      List.cons_append, mostOpen]
    change max n (max n (mostOpen n (v.tokens ++ ts))) = _
    rw [mostOpen_value v]
    omega
  | (key, v) :: m :: ms, n, ts => by
    have htail := mostOpen_members (m :: ms) n ts
    have hle := le_mostOpen n ts
    rw [Value.memberTokens.eq_3 key v _ (List.cons_ne_nil m ms), List.cons_append, mostOpen]
    change max n (max n (mostOpen n ((v.tokens ++ .comma :: _) ++ ts))) = _
    rw [List.append_assoc, mostOpen_value v, List.cons_append, mostOpen]
    change max n (max n (max _ (max n (mostOpen n (Value.memberTokens (m :: ms) ++ ts))))) = _
    rw [htail, Value.memberNesting.eq_2 key v]
    omega

end

end Token

/-- A text nests as deep as the value that it spells. -/
theorem Value.Spells.depth_eq {v : Value} {text : String} (h : v.Spells text) :
    depth text = v.nesting := by
  have hvalue := Token.mostOpen_value v 0 []
  rw [List.append_nil] at hvalue
  rw [depth, Token.mostOpen_consumes h, hvalue]
  simp [Token.mostOpen]

end WireModel.Json
