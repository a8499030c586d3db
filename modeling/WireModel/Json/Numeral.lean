namespace WireModel.Json

/-- A number as it is written: the digits are kept, and an empty fraction means no decimal point. -/
structure Numeral where
  negative : Bool
  whole : List Char
  fraction : List Char
  exponent : Option (Bool × List Char)
deriving DecidableEq, Repr

namespace Numeral

def digit (c : Char) : Nat :=
  c.toNat - '0'.toNat

/-- The number that a row of decimal digits stands for. -/
def digitsValue (ds : List Char) : Nat :=
  ds.foldl (fun n d => 10 * n + digit d) 0

def ofNat (n : Nat) : Numeral :=
  ⟨false, Nat.toDigits 10 n, [], none⟩

/-- The natural number that is written without sign, point or exponent. -/
def natural? (n : Numeral) : Option Nat :=
  if n.negative = false ∧ n.fraction = [] ∧ n.exponent = none then some (digitsValue n.whole)
  else none

/-- Appends digits to a significand while it fits 64 bits, and gives the digits left. -/
def absorb (significand : Nat) : List Char → Nat × List Char
  | [] => (significand, [])
  | d :: ds =>
    if 10 * significand + digit d < UInt64.size then absorb (10 * significand + digit d) ds
    else (significand, d :: ds)

/-- The nearest natural number of at most `bits` significant bits, an even one on a tie. -/
def roundToBits (bits n : Nat) : Nat :=
  let drop := n.log2 + 1 - bits
  let unit := 1 <<< drop
  let kept := n / unit
  if 2 * (n % unit) > unit ∨ 2 * (n % unit) = unit ∧ kept % 2 = 1 then (kept + 1) * unit
  else kept * unit

def exponentValue (n : Numeral) : Int :=
  match n.exponent with
  | none => 0
  | some (true, ds) => -(digitsValue ds : Int)
  | some (false, ds) => digitsValue ds

/-- Whether the number is within the range of double precision. The significand holds the leading
digits that fit 64 bits; it and the power of ten are rounded to 53 bits, and so is their product. -/
def isFinite (n : Numeral) : Bool :=
  let (whole, wholeLeft) := absorb 0 n.whole
  let (significand, fractionLeft) := absorb whole n.fraction
  let scale := n.exponentValue + wholeLeft.length + fractionLeft.length - n.fraction.length
  significand = 0 || scale < 0 ||
    (scale ≤ 308 &&
      roundToBits 53 (roundToBits 53 significand * roundToBits 53 (Nat.pow 10 scale.toNat)) <
        1 <<< 1024)

def render (n : Numeral) : String :=
  let sign := if n.negative then "-" else ""
  let fraction := if n.fraction = [] then "" else "." ++ String.ofList n.fraction
  let exponent := match n.exponent with
    | none => ""
    | some (true, ds) => "e-" ++ String.ofList ds
    | some (false, ds) => "e" ++ String.ofList ds
  sign ++ String.ofList n.whole ++ fraction ++ exponent

/-- The digits at the start of a text, of which there has to be one, and what follows them. -/
def scanDigits (cs : List Char) : Option (List Char × List Char) :=
  match cs.takeWhile Char.isDigit with
  | [] => none
  | ds => some (ds, cs.dropWhile Char.isDigit)

def scanFraction : List Char → Option (List Char × List Char)
  | '.' :: cs => scanDigits cs
  | cs => some ([], cs)

def scanExponentSign : List Char → Bool × List Char
  | '-' :: cs => (true, cs)
  | '+' :: cs => (false, cs)
  | cs => (false, cs)

def scanExponent : List Char → Option (Option (Bool × List Char) × List Char)
  | [] => some (none, [])
  | c :: cs =>
    if c = 'e' ∨ c = 'E' then
      (scanDigits (scanExponentSign cs).2).map fun (ds, rest) =>
        (some ((scanExponentSign cs).1, ds), rest)
    else some (none, c :: cs)

/-- The number without sign at the start of a text, and what follows it; no digit may follow a
leading zero. -/
def scanUnsigned (negative : Bool) (cs : List Char) : Option (Numeral × List Char) :=
  match scanDigits cs with
  | none => none
  | some (whole, rest) =>
    if whole.head? = some '0' ∧ whole.length ≠ 1 then none
    else match scanFraction rest with
      | none => none
      | some (fraction, rest) =>
        (scanExponent rest).map fun (exponent, rest) =>
          (⟨negative, whole, fraction, exponent⟩, rest)

/-- The number at the start of a text, and what follows it. -/
def scan : List Char → Option (Numeral × List Char)
  | '-' :: cs => scanUnsigned true cs
  | cs => scanUnsigned false cs

theorem length_lt_of_scanDigits {cs ds rest : List Char} (h : scanDigits cs = some (ds, rest)) :
    rest.length < cs.length := by
  rw [scanDigits] at h
  split at h
  · cases h
  · next hne =>
    cases h
    cases cs with
    | nil => simp at hne
    | cons c cs =>
      by_cases hc : c.isDigit
      · simpa [List.dropWhile, hc] using Nat.lt_succ_of_le (List.dropWhile_suffix _).length_le
      · simp [List.takeWhile, hc] at hne

theorem length_le_of_scanFraction {cs ds rest : List Char}
    (h : scanFraction cs = some (ds, rest)) : rest.length ≤ cs.length := by
  rw [scanFraction.eq_def] at h
  split at h
  · have := length_lt_of_scanDigits h
    simp
    omega
  · cases h
    exact Nat.le_refl _

theorem length_scanExponentSign_le (cs : List Char) :
    (scanExponentSign cs).2.length ≤ cs.length := by
  rw [scanExponentSign.eq_def]
  split <;> simp

theorem length_le_of_scanExponent {cs rest : List Char} {e : Option (Bool × List Char)}
    (h : scanExponent cs = some (e, rest)) : rest.length ≤ cs.length := by
  cases cs with
  | nil =>
    cases h
    exact Nat.le_refl _
  | cons c cs =>
    rw [scanExponent] at h
    split at h
    · obtain ⟨⟨ds, r⟩, hd, he⟩ := Option.map_eq_some_iff.1 h
      cases he
      have := length_lt_of_scanDigits hd
      have := length_scanExponentSign_le cs
      simp
      omega
    · cases h
      exact Nat.le_refl _

theorem length_lt_of_scanUnsigned {b : Bool} {cs rest : List Char} {n : Numeral}
    (h : scanUnsigned b cs = some (n, rest)) : rest.length < cs.length := by
  rw [scanUnsigned] at h
  split at h
  · cases h
  · next whole r hw =>
    split at h
    · cases h
    · split at h
      · cases h
      · next fraction r' hf =>
        obtain ⟨⟨e, r''⟩, he, hn⟩ := Option.map_eq_some_iff.1 h
        cases hn
        have := length_lt_of_scanDigits hw
        have := length_le_of_scanFraction hf
        have := length_le_of_scanExponent he
        omega

theorem length_lt_of_scan {cs rest : List Char} {n : Numeral} (h : scan cs = some (n, rest)) :
    rest.length < cs.length := by
  rw [scan.eq_def] at h
  split at h
  · have := length_lt_of_scanUnsigned h
    simp
    omega
  · exact length_lt_of_scanUnsigned h

end Numeral

end WireModel.Json
