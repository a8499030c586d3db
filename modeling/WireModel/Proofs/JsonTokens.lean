import Mathlib.Data.List.TakeWhile
import WireModel.Json.Printer
import WireModel.Json.Token

namespace WireModel.Json

/-- Text that can follow a value: the end, or what separates or closes values. -/
def EndsValue (rest : List Char) : Prop :=
  ∀ c ∈ rest.head?, c = ',' ∨ c = ']' ∨ c = '\x7d'

theorem endsValue_nil : EndsValue [] := by
  intro c hc
  cases hc

theorem endsValue_comma (cs : List Char) : EndsValue (',' :: cs) := by
  intro c hc
  cases hc
  exact .inl rfl

theorem endsValue_closeArray (cs : List Char) : EndsValue (']' :: cs) := by
  intro c hc
  cases hc
  exact .inr (.inl rfl)

theorem endsValue_closeObject (cs : List Char) : EndsValue ('\x7d' :: cs) := by
  intro c hc
  cases hc
  exact .inr (.inr rfl)

namespace Numeral

variable {rest : List Char}

theorem natural?_ofNat (n : Nat) : (ofNat n).natural? = some n := by
  have hvalue : digitsValue (Nat.toDigits 10 n) = n :=
    Nat.ofDigitChars_toDigits (by decide) (by decide)
  simp [natural?, ofNat, hvalue]

theorem isDigit_of_mem_toDigits {n : Nat} {c : Char} (h : c ∈ Nat.toDigits 10 n) : c.isDigit :=
  Nat.isDigit_of_mem_toDigits (by decide) (by decide) h

theorem head?_toDigits_ne_zero {n : Nat} (hn : 0 < n) : (Nat.toDigits 10 n).head? ≠ some '0' := by
  induction n using Nat.strongRecOn with
  | ind n ih =>
    by_cases hlt : n < 10
    · have hdigit : ∀ n < 10, 0 < n → n.digitChar ≠ '0' := by decide
      rw [Nat.toDigits_of_lt_base hlt]
      exact fun h => hdigit n hlt hn (Option.some.inj h)
    · have hrec := ih (n / 10) (by omega) (by omega)
      obtain ⟨d, ds, hd⟩ := List.exists_cons_of_ne_nil (Nat.toDigits_ne_nil (n := n / 10) (b := 10))
      rw [Nat.toDigits_of_base_le (by decide) (by omega), hd]
      rw [hd] at hrec
      exact hrec

/-- A zero at the start stands alone. -/
theorem length_toDigits_of_head?_eq_zero {n : Nat} (h : (Nat.toDigits 10 n).head? = some '0') :
    (Nat.toDigits 10 n).length = 1 := by
  by_cases hn : 0 < n
  · exact (head?_toDigits_ne_zero hn h).elim
  · rw [Nat.eq_zero_of_not_pos hn]
    rfl

theorem scanDigits_eq_some_iff {cs ds : List Char} :
    scanDigits cs = some (ds, rest) ↔ cs = ds ++ rest ∧ ds ≠ [] ∧ (∀ c ∈ ds, c.isDigit = true) ∧
      ∀ c ∈ rest.head?, c.isDigit = false := by
  refine ⟨?_, ?_⟩
  · intro h
    rw [scanDigits] at h
    split at h
    · cases h
    · next hne =>
      cases h
      refine ⟨List.takeWhile_append_dropWhile.symm, hne, fun c => List.mem_takeWhile_imp, ?_⟩
      intro c hc
      have hstop := List.head?_dropWhile_not Char.isDigit cs
      rw [hc] at hstop
      exact hstop
  · rintro ⟨rfl, hne, hdigits, hstop⟩
    have htake : rest.takeWhile Char.isDigit = [] := by
      cases rest with
      | nil => rfl
      | cons c cs => simp [hstop c rfl]
    have hdrop : rest.dropWhile Char.isDigit = rest := by
      cases rest with
      | nil => rfl
      | cons c cs => simp [hstop c rfl]
    rw [scanDigits, List.takeWhile_append_of_pos hdigits, List.dropWhile_append_of_pos hdigits,
      htake, hdrop, List.append_nil]
    cases ds with
    | nil => exact absurd rfl hne
    | cons d ds => rfl

theorem scanFraction_of_endsValue (hr : EndsValue rest) : scanFraction rest = some ([], rest) := by
  cases rest with
  | nil => rfl
  | cons c cs => obtain rfl | rfl | rfl := hr c rfl <;> rfl

theorem scanExponent_of_endsValue (hr : EndsValue rest) :
    scanExponent rest = some (none, rest) := by
  cases rest with
  | nil => rfl
  | cons c cs => obtain rfl | rfl | rfl := hr c rfl <;> rfl

theorem toList_render_ofNat (n : Nat) : (ofNat n).render.toList = Nat.toDigits 10 n := by
  simp [render, ofNat]

/-- A natural number is read back from its digits. -/
theorem scan_toDigits (n : Nat) (hr : EndsValue rest) :
    scan (Nat.toDigits 10 n ++ rest) = some (ofNat n, rest) := by
  have hdigits : ∀ c ∈ Nat.toDigits 10 n, c.isDigit := fun c => isDigit_of_mem_toDigits
  have hsign : ∀ cs, Nat.toDigits 10 n ++ rest ≠ '-' :: cs := by
    intro cs h
    cases hd : Nat.toDigits 10 n with
    | nil => exact Nat.toDigits_ne_nil hd
    | cons d ds =>
      rw [hd] at h hdigits
      rw [(List.cons.inj h).1] at hdigits
      exact absurd (hdigits '-' List.mem_cons_self) (by decide)
  have hzero : ¬((Nat.toDigits 10 n).head? = some '0' ∧ (Nat.toDigits 10 n).length ≠ 1) :=
    fun h => h.2 (length_toDigits_of_head?_eq_zero h.1)
  have hstop : ∀ c ∈ rest.head?, c.isDigit = false := by
    intro c hc
    obtain rfl | rfl | rfl := hr c hc <;> decide
  rw [scan.eq_2 _ hsign, scanUnsigned,
    scanDigits_eq_some_iff.2 ⟨rfl, Nat.toDigits_ne_nil, hdigits, hstop⟩]
  simp only [if_neg hzero, scanFraction_of_endsValue hr, scanExponent_of_endsValue hr,
    Option.map_some]
  rfl

theorem head_of_scan {cs : List Char} {n : Numeral} (h : scan cs = some (n, rest)) :
    ∃ c ds, cs = c :: ds ∧ (c = '-' ∨ c.isDigit = true) := by
  rw [scan.eq_def] at h
  split at h
  · next ds => exact ⟨'-', ds, rfl, .inl rfl⟩
  · rw [scanUnsigned] at h
    split at h
    · cases h
    · next whole mid hwhole =>
      obtain ⟨rfl, hne, hdigits, _⟩ := scanDigits_eq_some_iff.1 hwhole
      obtain ⟨d, ds, rfl⟩ := List.exists_cons_of_ne_nil hne
      exact ⟨d, ds ++ mid, rfl, .inr (hdigits d List.mem_cons_self)⟩

end Numeral

namespace Token

variable {cs rest : List Char}

theorem scan_of_numeral {n : Numeral} (h : Numeral.scan cs = some (n, rest)) :
    scan cs = some (.number n, rest) := by
  obtain ⟨c, ds, rfl, hc⟩ := Numeral.head_of_scan h
  rw [scan.eq_def]
  -- neither a digit nor a sign starts another token
  split
  case h_11 => rw [h]; rfl
  all_goals
    next heq =>
      rw [(List.cons.inj heq).1] at hc
      exact absurd hc (by decide)

theorem scan_nat (n : Nat) (hr : EndsValue rest) :
    scan ((Numeral.ofNat n).render.toList ++ rest) = some (.number (.ofNat n), rest) := by
  rw [Numeral.toList_render_ofNat]
  exact scan_of_numeral (Numeral.scan_toDigits n hr)

theorem hexUnit?_hexDigit {n : Nat} (h : n < 0x20) :
    hexUnit? '0' '0' (Text.hexDigit (n / 16)) (Text.hexDigit (n % 16)) = some n := by
  have hzero : Text.hexDigit? '0' = some 0 := by decide
  rw [hexUnit?, hzero, Text.hexDigit?_hexDigit (n / 16) (by omega),
    Text.hexDigit?_hexDigit (n % 16) (by omega)]
  simp only [Option.some.injEq]
  omega

theorem assemble_unit {code : Nat} (h : code < 0xD800) (done : List Char) (ps : List Piece) :
    assemble done (.unit code :: ps) = assemble (Char.ofNat code :: done) ps := by
  have hhigh : isHighSurrogate code = false := by
    simp only [isHighSurrogate, Bool.and_eq_false_iff, decide_eq_false_iff_not]
    omega
  have hlow : isLowSurrogate code = false := by
    simp only [isLowSurrogate, Bool.and_eq_false_iff, decide_eq_false_iff_not]
    omega
  cases ps with
  | nil => simp [assemble, hhigh, hlow]
  | cons p ps => cases p <;> simp [assemble, hhigh, hlow]

/-- Each character is written as one part of a literal, which stands for it. -/
theorem exists_piece (c : Char) :
    ∃ p, (∀ done cs, scanPieces done (quotedChar c ++ cs) = scanPieces (p :: done) cs) ∧
      ∀ done ps, assemble done (p :: ps) = assemble (c :: done) ps := by
  rw [quotedChar]
  split_ifs with hquote hback hb ht hn hf hr hcontrol
  · exact ⟨.scalar '"', fun _ _ => by simp [scanPieces, escaped?], fun _ _ => by rw [hquote]; rfl⟩
  · exact ⟨.scalar '\\', fun _ _ => by simp [scanPieces, escaped?], fun _ _ => by rw [hback]; rfl⟩
  · exact ⟨.scalar '\x08', fun _ _ => by simp [scanPieces, escaped?], fun _ _ => by rw [hb]; rfl⟩
  · exact ⟨.scalar '\t', fun _ _ => by simp [scanPieces, escaped?], fun _ _ => by rw [ht]; rfl⟩
  · exact ⟨.scalar '\n', fun _ _ => by simp [scanPieces, escaped?], fun _ _ => by rw [hn]; rfl⟩
  · exact ⟨.scalar '\x0c', fun _ _ => by simp [scanPieces, escaped?], fun _ _ => by rw [hf]; rfl⟩
  · exact ⟨.scalar '\r', fun _ _ => by simp [scanPieces, escaped?], fun _ _ => by rw [hr]; rfl⟩
  · refine ⟨.unit c.toNat, ?_, ?_⟩
    · intro done cs
      simp only [List.cons_append, List.nil_append, scanPieces.eq_3, hexUnit?_hexDigit hcontrol]
    · intro done ps
      rw [assemble_unit (by omega), Char.ofNat_toNat]
  · refine ⟨.scalar c, ?_, fun _ _ => rfl⟩
    intro done cs
    rw [List.singleton_append, scanPieces.eq_5 _ _ _ hquote (fun _ _ _ _ _ h => absurd h hback)
      (fun _ _ h => absurd h hback), if_neg (not_or.2 ⟨hback, hcontrol⟩)]

theorem scanPieces_quoted (cs rest : List Char) :
    ∃ ps, (∀ done, scanPieces done (cs.flatMap quotedChar ++ '"' :: rest) =
        some (done.reverse ++ ps, rest)) ∧
      ∀ done, assemble done ps = some (done.reverse ++ cs) := by
  induction cs with
  | nil => exact ⟨[], fun done => by simp [scanPieces], fun done => by simp [assemble]⟩
  | cons c cs ih =>
    obtain ⟨p, hscan, hassemble⟩ := exists_piece c
    obtain ⟨ps, hps, hcs⟩ := ih
    refine ⟨p :: ps, ?_, ?_⟩
    · intro done
      rw [List.flatMap_cons, List.append_assoc, hscan, hps]
      simp
    · intro done
      rw [hassemble, hcs]
      simp

/-- A string literal is read back as its text. -/
theorem scan_quoted (s : String) :
    scan ((quoted (some s)).toList ++ rest) = some (.string (some s), rest) := by
  obtain ⟨ps, hps, hs⟩ := scanPieces_quoted s.toList rest
  have htext : (quoted (some s)).toList ++ rest =
      '"' :: (s.toList.flatMap quotedChar ++ '"' :: rest) := by
    simp [quoted]
  rw [htext, scan, scanString, hps []]
  simp [hs]

end Token

end WireModel.Json
