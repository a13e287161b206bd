/-
# `Zallet.Rpc.Numerals` — which strings are amounts

Each part of `parse_fixed_point` takes off the front of its string what the
reader of that part of a numeral takes off, and keeps of it what fits
(`integerPart_yields`, `fractionPart_yields`, `exponentPart_yields`).  Put
together, the parser returns the fixed-point value of the numeral its string
spells, and `None` for any other string (`parseFixedPoint_eq`); that value is
there exactly when the numeral's own value, moved by the decimals, is an integer
within the bound (`parseFixedPoint_accepts`).
-/
import Zallet.Rpc.FixedPoint

namespace Zallet

open Numeral

variable {safe : Prop}

/-! ## The parts -/

theorem splitAtChecked_digit {ch : Char} {rest : List Char} (h : ch.isDigit = true) :
    splitAtChecked (ch :: rest) = some (ch, rest) := by
  obtain ⟨-, hhi⟩ := Char.isDigit_iff_toNat.mp h
  rw [splitAtChecked_cons, if_pos (Char.utf8Size_eq_one_iff.mpr (le_trans hhi (by decide)))]

/-- A character that does not split off is none of those the parser looks for. -/
theorem splitAtChecked_eq_none {ch : Char} {rest : List Char}
    (h : splitAtChecked (ch :: rest) = none) :
    ch.isDigit = false ∧ ch ≠ '-' ∧ ch ≠ '+' ∧ ch ≠ '.' ∧ ch ≠ 'e' ∧ ch ≠ 'E' := by
  have hdigit : ch.isDigit = false := by
    cases hd : ch.isDigit with
    | false => rfl
    | true => rw [splitAtChecked_digit hd] at h; cases h
  refine ⟨hdigit, ?_, ?_, ?_, ?_, ?_⟩ <;> (rintro rfl; cases h)

theorem splitAtChecked_eq_some {ch : Char} {rest : List Char} {split : Char × List Char}
    (h : splitAtChecked (ch :: rest) = some split) : split = (ch, rest) := by
  rw [splitAtChecked_cons] at h
  split at h
  · exact (Option.some.inj h).symm
  · cases h

theorem mantissaSign_eq (val : List Char) : mantissaSign val = readSign val := by
  cases val with
  | nil => rfl
  | cons ch rest =>
      unfold mantissaSign readSign
      cases hsplit : splitAtChecked (ch :: rest) with
      | none => exact (if_neg (splitAtChecked_eq_none hsplit).2.1).symm
      | some split =>
          obtain rfl := splitAtChecked_eq_some hsplit
          rfl

theorem exponentSign_eq (val : List Char) :
    exponentSign val = (decide ((Sign.read val).1 = .minus), (Sign.read val).2) := by
  cases val with
  | nil => rfl
  | cons ch rest =>
      unfold exponentSign Sign.read
      cases hsplit : splitAtChecked (ch :: rest) with
      | none =>
          obtain ⟨-, hminus, hplus, -⟩ := splitAtChecked_eq_none hsplit
          simp [hminus, hplus]
      | some split =>
          obtain rfl := splitAtChecked_eq_some hsplit
          dsimp only
          split_ifs <;> rfl

/-- The significand of a whole part; a single zero is passed. -/
def integerScaled : Integer → Scaled
  | .zero => .zero
  | .lead d ds _ _ => (d :: ds).foldl Scaled.push .zero

theorem integerPart_yields {val : List Char} (hlen : safe → val.length ≤ 10 ^ 17) :
    Yields safe (integerPart val)
      ((Integer.read val).bind fun i => (keptMantissa (integerScaled i.1)).map (·, i.2)) := by
  cases val with
  | nil => exact .failure
  | cons ch rest =>
      simp only [integerPart, Integer.read]
      by_cases hzero : ch = '0'
      · subst hzero
        exact .pure
      · rw [if_neg hzero]
        by_cases hdigit : ch.isDigit = true
        · rw [splitAtChecked_digit hdigit, dif_pos ⟨hdigit, hzero⟩]
          simp only [hzero, hdigit, if_false, if_true, Option.bind_some, integerScaled]
          have htake : (ch :: rest).takeWhile (·.isDigit) = ch :: rest.takeWhile (·.isDigit) :=
            List.takeWhile_cons_of_pos hdigit
          have hdrop : (ch :: rest).dropWhile (·.isDigit) = rest.dropWhile (·.isDigit) :=
            List.dropWhile_cons_of_pos hdigit
          rw [← htake, ← hdrop]
          refine processMantissaDigit_keeps.digitLoop_front (fun hsafe => ?_) rfl
          show 0 + _ ≤ _
          rw [Nat.zero_add]
          exact le_trans (List.takeWhile_prefix _).length_le (hlen hsafe)
        · rw [dif_neg fun h => hdigit h.1, Option.bind_none]
          cases hsplit : splitAtChecked (ch :: rest) with
          | none => exact .failure
          | some split =>
              obtain rfl := splitAtChecked_eq_some hsplit
              simp only [hzero, hdigit, if_false]
              exact .failure

/-- The digits of a fraction are read on from the whole part. -/
theorem foldl_fraction (ds : List Char) (s : Scaled) (p : ℕ) :
    ds.foldl (fun (s : Scaled × ℕ) ch => (s.1.push ch, s.2 + 1)) (s, p) =
      (ds.foldl Scaled.push s, p + ds.length) := by
  induction ds generalizing s p with
  | nil => rfl
  | cons ch ds ih =>
      rw [List.foldl_cons, ih, List.foldl_cons, List.length_cons]
      congr 1
      omega

theorem someDigits_yields {σ τ : Type} {step : σ → Char → Parse σ} {f : τ → Char → τ}
    {kept : τ → Option σ} {room : ℕ → τ → Prop} {val : List Char} {t : τ} {x : σ}
    (h : Keeps step f kept room) (hroom : safe → room (val.takeWhile (·.isDigit)).length t)
    (ht : kept t = some x) :
    Yields safe (someDigits step val x)
      ((Digits.read val).bind fun ds => (kept (ds.1.chars.foldl f t)).map (·, ds.2)) := by
  cases val with
  | nil => exact .failure
  | cons ch rest =>
      simp only [someDigits, Digits.read]
      cases hdigit : ch.isDigit with
      | true =>
          have hsome : (ch :: rest).takeWhile (·.isDigit) ≠ [] := by
            rw [List.takeWhile_cons_of_pos hdigit]
            simp
          rw [splitAtChecked_digit hdigit, dif_neg hsome]
          simp only [hdigit, if_true, Option.bind_some]
          exact h.digitLoop_front hroom ht
      | false =>
          have hnone : (ch :: rest).takeWhile (·.isDigit) = [] := by
            rw [List.takeWhile_cons, hdigit]
            rfl
          rw [dif_pos hnone]
          cases hsplit : splitAtChecked (ch :: rest) with
          | none => exact .failure
          | some split =>
              obtain rfl := splitAtChecked_eq_some hsplit
              simp only [hdigit]
              exact .failure

theorem fractionPart_yields {val : List Char} {s : Scaled} {m : Mantissa}
    (hm : keptMantissa s = some m) (hlen : safe → s.zeros + val.length ≤ 10 ^ 17) :
    Yields safe (fractionPart m val)
      ((Fraction.read val).bind fun f =>
        (keptMantissa ((Fraction.digits f.1).foldl Scaled.push s)).map fun m =>
          ((m, ((Fraction.digits f.1).length : ℤ)), f.2)) := by
  cases val with
  | nil =>
      simp only [Fraction.read, Option.bind_some, Fraction.digits, Option.elim, List.foldl_nil, hm]
      exact .pure
  | cons ch rest =>
      simp only [fractionPart, Fraction.read]
      by_cases hpoint : ch = '.'
      · subst hpoint
        have hsplit : splitAtChecked ('.' :: rest) = some ('.', rest) := rfl
        have htake : (rest.takeWhile (·.isDigit)).length ≤ rest.length :=
          (List.takeWhile_prefix _).length_le
        rw [List.length_cons] at hlen
        have hroom : safe → s.zeros + (rest.takeWhile (·.isDigit)).length ≤ 10 ^ 17 ∧
            0 + (rest.takeWhile (·.isDigit)).length ≤ 10 ^ 17 := by
          intro hsafe
          have hlen := hlen hsafe
          omega
        have hyields : Yields safe (someDigits processFractionDigit rest (m, 0)) _ :=
          someDigits_yields (t := (s, 0)) processFractionDigit_keeps hroom (by simp [hm])
        simp only [hsplit, if_true]
        cases hread : Digits.read rest with
        | none =>
            rw [hread] at hyields
            exact hyields
        | some ds =>
            simp only [hread, Option.bind_some, foldl_fraction, Nat.zero_add, Option.map_map]
              at hyields
            exact hyields
      · simp only [hpoint, if_false, Option.bind_some, Fraction.digits, Option.elim,
          List.foldl_nil, hm]
        cases hsplit : splitAtChecked (ch :: rest) with
        | none => exact .pure
        | some split =>
            obtain rfl := splitAtChecked_eq_some hsplit
            simp only [hpoint, if_false]
            exact .pure

/-- What is kept of an exponent. -/
def exponentKept (e : Option Exponent) : Option (Bool × ℤ) :=
  match e with
  | none => some (false, 0)
  | some e => (keptExponent e.digits.value).map fun n => (decide (e.sign = .minus), n)

theorem exponentPart_yields (val : List Char) :
    Yields safe (exponentPart val)
      ((Exponent.read val).bind fun e => (exponentKept e.1).map (·, e.2)) := by
  cases val with
  | nil => exact .pure
  | cons ch rest =>
      simp only [exponentPart, Exponent.read]
      by_cases hmark : ch = 'e' ∨ ch = 'E'
      · have hsplit : splitAtChecked (ch :: rest) = some (ch, rest) := by
          rcases hmark with rfl | rfl <;> rfl
        simp only [hsplit, hmark, if_true, exponentSign_eq]
        have hyields : Yields safe (someDigits processExponentDigit (Sign.read rest).2 0) _ :=
          someDigits_yields (t := 0) processExponentDigit_keeps (fun _ => trivial) rfl
        have hmap := hyields.map fun r => ((decide ((Sign.read rest).1 = .minus), r.1), r.2)
        cases hread : Digits.read (Sign.read rest).2 with
        | none =>
            rw [hread] at hmap
            exact hmap
        | some ds =>
            have hvalue : ds.1.chars.foldl (fun n ch => 10 * n + (ch.toNat - '0'.toNat)) 0 =
                ds.1.value := Nat.ofDigitChars_eq_foldl.symm
            simp only [hread, Option.bind_some, Option.map_map, hvalue] at hmap
            simp only [Option.map_some, Option.bind_some, exponentKept, Option.map_map]
            exact hmap
      · simp only [hmark, if_false, Option.bind_some, exponentKept]
        cases hsplit : splitAtChecked (ch :: rest) with
        | none => exact .pure
        | some split =>
            obtain rfl := splitAtChecked_eq_some hsplit
            simp only [hmark, if_false]
            exact .pure

/-! ## The value -/

/-- The mantissa moved by an exponent, where it stays in range. -/
def fixedPoint (mantissa exponent : ℤ) : Option ℤ :=
  if 0 ≤ exponent ∧ exponent < 18 ∧ |mantissa| * 10 ^ exponent.toNat < 10 ^ 18 then
    some (mantissa * 10 ^ exponent.toNat)
  else none

theorem fixedPoint_eq_some {mantissa exponent x : ℤ} :
    fixedPoint mantissa exponent = some x ↔
      0 ≤ exponent ∧ exponent < 18 ∧ |mantissa| * 10 ^ exponent.toNat < 10 ^ 18 ∧
        mantissa * 10 ^ exponent.toNat = x := by
  unfold fixedPoint
  split_ifs with h
  · rw [Option.some.injEq]
    exact ⟨fun hx => ⟨h.1, h.2.1, h.2.2, hx⟩, fun hx => hx.2.2.2⟩
  · exact iff_of_false (by simp) fun hx => h ⟨hx.1, hx.2.1, hx.2.2.1⟩

theorem toFixedPoint_yields {mantissa exponent : ℤ} (hm : |mantissa| < 10 ^ 18) :
    Yields safe (toFixedPoint mantissa exponent) (fixedPoint mantissa exponent) := by
  have hten : upperBound / 10 = 10 ^ 17 - 1 := rfl
  have hbound : ∀ n : ℤ, |n| < 10 ^ 18 → -upperBound ≤ n ∧ n ≤ upperBound := by
    intro n hn
    obtain ⟨hlo, hhi⟩ := abs_lt.mp hn
    unfold upperBound
    omega
  unfold toFixedPoint
  by_cases hneg : exponent < 0
  · have hnone : fixedPoint mantissa exponent = none := if_neg fun h => absurd h.1 (by omega)
    rw [hnone]
    exact .refuse hneg
  · refine .accept hneg ?_
    by_cases hlarge : exponent ≥ 18
    · have hnone : fixedPoint mantissa exponent = none := if_neg fun h => absurd h.2.1 (by omega)
      rw [hnone]
      exact .refuse hlarge
    · refine .accept hlarge ?_
      have htimes : Yields safe
          (timesTen (fun n => ¬(-(upperBound / 10) ≤ n ∧ n ≤ upperBound / 10)) exponent.toNat mantissa) _ :=
        timesTen_yields (fun j => by
          rw [decide_eq_true_eq, hten, le_abs]
          omega) hm
      by_cases hfits : |mantissa| * 10 ^ exponent.toNat < 10 ^ 18
      · rw [if_pos hfits] at htimes
        rw [fixedPoint_eq_some.mpr ⟨by omega, by omega, hfits, rfl⟩]
        refine htimes.seq (.accept (not_not.mpr (hbound _ ?_)) .pure)
        rwa [abs_mul, abs_of_nonneg (show (0 : ℤ) ≤ 10 ^ exponent.toNat by positivity)]
      · have hnone : fixedPoint mantissa exponent = none := if_neg fun h => hfits h.2.2
        rw [if_neg hfits] at htimes
        rw [hnone]
        exact htimes.bind (fun n hn => by cases hn) fun _ => rfl

theorem finalize_yields {negative negativeExponent : Bool} {s : Scaled} {p n : ℕ} {decimals : ℤ}
    (hs : s.significand < 10 ^ 18) (hn : n < 10 ^ 18)
    (hsafe : safe → s.zeros ≤ 10 ^ 17 ∧ p ≤ 10 ^ 17 ∧ |decimals| ≤ 10 ^ 17) :
    Yields safe (finalize negative ⟨s.significand, s.zeros⟩ p negativeExponent n decimals)
      (fixedPoint ((if negative then -1 else 1) * s.significand)
        ((if negativeExponent then -1 else 1) * n - p + s.zeros + decimals)) := by
  have habs : ∀ sign : Bool, ∀ n : ℕ, |(if sign then -1 else 1) * (n : ℤ)| = n := by
    intro sign n
    cases sign <;> simp
  have hcast : ∀ n : ℕ, n < 10 ^ 18 → |(n : ℤ)| < 2 ^ 63 := fun n hn => by
    rw [Nat.abs_cast]
    omega
  unfold finalize
  refine (Yields.negateIf (hcast n hn)).seq ?_
  have hrange := habs negativeExponent n
  generalize (if negativeExponent then -1 else 1) * (n : ℤ) = exponent at hrange
  obtain ⟨hlo, hhi⟩ := abs_le.mp (le_of_eq hrange)
  have hbounds : safe → s.zeros ≤ 10 ^ 17 ∧ p ≤ 10 ^ 17 ∧ -10 ^ 17 ≤ decimals ∧ decimals ≤ 10 ^ 17 :=
    fun h => ⟨(hsafe h).1, (hsafe h).2.1, abs_le.mp (hsafe h).2.2⟩
  refine .seq (.checkedI64 fun h => ?_) (.seq (.checkedI64 fun h => ?_) ?_)
  · have hbounds := hbounds h
    omega
  · have hbounds := hbounds h
    dsimp only
    omega
  · refine (Yields.negateIf (hcast _ hs)).seq (.seq (.checkedI64 fun h => ?_) (toFixedPoint_yields ?_))
    · have hbounds := hbounds h
      dsimp only
      omega
    · rw [habs]
      exact_mod_cast hs

/-! ## The numeral -/

/-- The significand of all the digits. -/
def scaled (n : Numeral) : Scaled :=
  (Fraction.digits n.fraction).foldl Scaled.push (integerScaled n.integer)

/-- Where the point of the significand is, once the value is moved by `decimals`. -/
def pointShift (n : Numeral) (decimals : ℤ) : ℤ :=
  n.exponentField - n.places + (scaled n).zeros + decimals

/-- What the parser makes of a numeral. -/
def numeralFixedPoint (n : Numeral) (decimals : ℤ) : Option ℤ :=
  fixedPoint (n.sign * (scaled n).significand) (pointShift n decimals)

theorem significand_le_foldl (ds : List Char) (s : Scaled) :
    s.significand ≤ (ds.foldl Scaled.push s).significand := by
  induction ds generalizing s with
  | nil => exact le_refl _
  | cons ch ds ih => exact le_trans Scaled.significand_le_push (ih (s.push ch))

theorem places_le (n : Numeral) : n.integer.chars.length + n.places ≤ n.spell.length := by
  have hfraction : n.places ≤ (Fraction.spell n.fraction).length := by
    unfold places Fraction.digits Fraction.spell
    cases n.fraction with
    | none => exact le_refl _
    | some ds => exact Nat.le_succ _
  simp only [spell, List.length_append]
  omega

/-- Where the significand is zero the zeros counted are those after the point. -/
theorem scaled_trimmed (n : Numeral) :
    ∃ k ≤ n.spell.length, (scaled n).Trimmed n.digits k ∧
      ((scaled n).significand = 0 → (scaled n).zeros = n.places) := by
  obtain ⟨negative, integer, fraction, exponent⟩ := n
  have hle := places_le ⟨negative, integer, fraction, exponent⟩
  have hdigit := Fraction.digits_digit fraction
  cases integer with
  | zero =>
      have htrimmed : (scaled ⟨negative, .zero, fraction, exponent⟩).Trimmed
          (Nat.ofDigitChars 10 (Fraction.digits fraction) 0) (0 + (Fraction.digits fraction).length) :=
        Scaled.Trimmed.empty.foldl hdigit
      rw [Nat.zero_add] at htrimmed
      refine ⟨_, le_trans (Nat.le_add_left _ _) hle, htrimmed, fun hzero => ?_⟩
      exact (htrimmed.trimmed.resolve_left fun h => h (by rw [hzero])).2
  | lead d ds hd hds =>
      have hall : ∀ c ∈ (d :: ds) ++ Fraction.digits fraction, c.isDigit = true := by
        intro c hc
        rcases List.mem_append.mp hc with hc | hc
        · exact Integer.chars_digit (.lead d ds hd hds) c hc
        · exact hdigit c hc
      have htrimmed := Scaled.Trimmed.empty.foldl hall
      rw [List.foldl_append, Nat.zero_add, List.length_append] at htrimmed
      refine ⟨_, hle, htrimmed, fun hzero => absurd hzero (Nat.pos_iff_ne_zero.mp ?_)⟩
      -- the first digit is not zero, and the significand only grows
      have hfirst : 0 < (Scaled.zero.push d).significand := by
        have hpos := mt (digit_bounds hd.1).2.mp hd.2
        rw [Scaled.push, if_neg hd.2]
        show 0 < 0 * 10 ^ (0 + 1) + (d.toNat - '0'.toNat)
        omega
      calc 0 < (Scaled.zero.push d).significand := hfirst
        _ ≤ (integerScaled (.lead d ds hd hds)).significand := significand_le_foldl ds _
        _ ≤ _ := significand_le_foldl (Fraction.digits fraction) _

/-- The numeral's value, moved by `decimals`, is the integer `x`, of eighteen digits at most; and
a zero's exponent is within the same range. -/
def Denotes (n : Numeral) (decimals x : ℤ) : Prop :=
  (n.value ≠ 0 ∧ n.value * 10 ^ decimals = x ∧ |x| ≤ 10 ^ 18 - 1) ∨
  (n.value = 0 ∧ 0 ≤ n.exponentField + decimals ∧ n.exponentField + decimals ≤ 17 ∧ x = 0)

theorem sign_cases (n : Numeral) : n.sign = 1 ∨ n.sign = -1 := by
  unfold sign
  split_ifs
  · exact .inr rfl
  · exact .inl rfl

theorem abs_sign_mul (n : Numeral) (m : ℤ) : |n.sign * m| = |m| := by
  rcases sign_cases n with h | h
  · rw [h, one_mul]
  · rw [h, neg_one_mul, abs_neg]

/-- Where the significand is not zero, the value it moves to is an integer only when no digit is
cut off. -/
theorem value_eq_intCast {n : Numeral} {decimals x : ℤ} (hmod : (scaled n).significand % 10 ≠ 0)
    {k : ℕ} (htrimmed : (scaled n).Trimmed n.digits k) :
    n.value * 10 ^ decimals = (x : ℚ) ↔
      0 ≤ pointShift n decimals ∧
        n.sign * (scaled n).significand * 10 ^ (pointShift n decimals).toNat = x := by
  rw [n.value_mul_zpow htrimmed]
  change (n.sign : ℚ) * ((scaled n).significand * 10 ^ pointShift n decimals) = x ↔ _
  rcases sign_cases n with h | h
  · rw [h, Int.cast_one, one_mul, one_mul, mul_zpow_eq_intCast hmod, eq_comm (a := x)]
  · rw [h, Int.cast_neg, Int.cast_one, neg_one_mul, neg_one_mul, neg_eq_iff_eq_neg, ← Int.cast_neg,
      mul_zpow_eq_intCast hmod, neg_mul, neg_eq_iff_eq_neg, eq_comm (a := x)]

/-- The parser's value of a numeral is the one it denotes. -/
theorem numeralFixedPoint_eq_some {n : Numeral} {decimals x : ℤ} :
    numeralFixedPoint n decimals = some x ↔ Denotes n decimals x := by
  obtain ⟨k, -, htrimmed, hplaces⟩ := scaled_trimmed n
  unfold numeralFixedPoint Denotes
  rw [fixedPoint_eq_some, abs_sign_mul, ne_eq, n.value_eq_zero_iff,
    ← htrimmed.significand_eq_zero_iff]
  by_cases hzero : (scaled n).significand = 0
  · have hshift : pointShift n decimals = n.exponentField + decimals := by
      rw [pointShift, hplaces hzero]
      ring
    simp only [hzero, hshift, not_true_eq_false, false_and, false_or, true_and, Nat.cast_zero,
      zero_mul, mul_zero, abs_zero]
    constructor
    · rintro ⟨hlo, hhi, -, rfl⟩
      exact ⟨hlo, by omega, rfl⟩
    · rintro ⟨hlo, hhi, rfl⟩
      exact ⟨hlo, by omega, by norm_num, rfl⟩
  · have hmod := htrimmed.trimmed.resolve_right fun h => hzero h.1
    simp only [hzero, not_false_eq_true, true_and, false_and, or_false]
    rw [value_eq_intCast hmod htrimmed]
    have hpos : (0 : ℤ) < (scaled n).significand := by omega
    constructor
    · rintro ⟨hlo, -, hfits, hx⟩
      refine ⟨⟨hlo, hx⟩, ?_⟩
      rw [← hx, mul_assoc, abs_sign_mul, abs_of_nonneg (by positivity)]
      rw [abs_of_pos hpos] at hfits
      omega
    · rintro ⟨⟨hlo, hx⟩, hbound⟩
      rw [← hx, mul_assoc, abs_sign_mul, abs_of_nonneg (by positivity)] at hbound
      rw [abs_of_pos hpos]
      refine ⟨hlo, ?_, by omega, hx⟩
      -- a digit at least stands before the zeros
      have hpow : (10 : ℤ) ^ (pointShift n decimals).toNat < 10 ^ 18 :=
        calc (10 : ℤ) ^ (pointShift n decimals).toNat
            ≤ (scaled n).significand * 10 ^ (pointShift n decimals).toNat :=
              le_mul_of_one_le_left (by positivity) hpos
          _ < 10 ^ 18 := by omega
      have hlt := (pow_lt_pow_iff_right₀ (by norm_num : (1 : ℤ) < 10)).mp hpow
      omega

/-! ## The parser -/

/-- Significands and exponents that are not kept do not denote an amount. -/
theorem numeralFixedPoint_of_large {n : Numeral} {decimals : ℤ}
    (h : 10 ^ 18 ≤ (scaled n).significand) : numeralFixedPoint n decimals = none := by
  refine if_neg fun hfits => ?_
  have hle : (scaled n).significand ≤ (scaled n).significand * 10 ^ (pointShift n decimals).toNat :=
    Nat.le_mul_of_pos_right _ (by positivity)
  have hlt := hfits.2.2
  rw [abs_sign_mul, Nat.abs_cast] at hlt
  have hlt' : (scaled n).significand * 10 ^ (pointShift n decimals).toNat < 10 ^ 18 := by
    exact_mod_cast hlt
  omega

theorem exponentKept_eq_some {e : Option Exponent} {r : Bool × ℤ} (h : exponentKept e = some r) :
    ∃ n : ℕ, n < 10 ^ 18 ∧ r.2 = n ∧ e.elim 0 Exponent.value = (if r.1 then -1 else 1) * (n : ℤ) := by
  cases e with
  | none =>
      cases h
      exact ⟨0, by norm_num, rfl, rfl⟩
  | some e =>
      obtain ⟨x, hx, rfl⟩ := Option.map_eq_some_iff.mp h
      unfold keptExponent at hx
      split at hx
      · rename_i hfits
        cases hx
        refine ⟨e.digits.value, hfits, rfl, ?_⟩
        show e.value = _
        rw [e.value_eq]
        simp
      · cases hx

theorem exponentKept_eq_none {e : Option Exponent} (h : exponentKept e = none) :
    10 ^ 18 ≤ |e.elim 0 Exponent.value| := by
  cases e with
  | none => cases h
  | some e =>
      have hx := Option.map_eq_none_iff.mp h
      unfold keptExponent at hx
      split at hx
      · cases hx
      · show 10 ^ 18 ≤ |e.value|
        rw [e.value_eq]
        split_ifs
        · rw [neg_one_mul, abs_neg, Nat.abs_cast]
          omega
        · rw [one_mul, Nat.abs_cast]
          omega

theorem numeralFixedPoint_of_exponent {n : Numeral} {decimals : ℤ} (h : exponentKept n.exponent = none)
    (hlen : n.spell.length ≤ 10 ^ 17) (hdecimals : |decimals| ≤ 10 ^ 17) :
    numeralFixedPoint n decimals = none := by
  refine if_neg fun hfits => ?_
  obtain ⟨k, hk, htrimmed, -⟩ := scaled_trimmed n
  have hlarge : 10 ^ 18 ≤ |n.exponentField| := exponentKept_eq_none h
  have hplaces := places_le n
  have hzeros := htrimmed.length
  obtain ⟨hlo, hhi, -⟩ := hfits
  obtain ⟨hdlo, hdhi⟩ := abs_le.mp hdecimals
  unfold pointShift at hlo hhi
  rcases le_abs.mp hlarge with h | h <;> omega

theorem integerScaled_zeros_le (i : Integer) : (integerScaled i).zeros ≤ i.chars.length := by
  cases i with
  | zero => exact Nat.zero_le _
  | lead d ds hd hds =>
      have htrimmed := Scaled.Trimmed.empty.foldl (Integer.chars_digit (.lead d ds hd hds))
      rw [Nat.zero_add] at htrimmed
      exact htrimmed.length

/-- `r` is what the parser may return for `cs`: the value of the numeral `cs` spells or, as long as
things are safe, nothing where there is no such value. -/
structure Parsed (safe : Prop) (cs : List Char) (decimals : ℤ) (r : Option ℤ) : Prop where
  sound : ∀ m, r = some m → ∃ n : Numeral, n.spell = cs ∧ numeralFixedPoint n decimals = some m
  complete : safe → r = none → ∀ n : Numeral, n.spell = cs → numeralFixedPoint n decimals = none

theorem Parsed.none {cs : List Char} {decimals : ℤ}
    (h : safe → ∀ n : Numeral, n.spell = cs → numeralFixedPoint n decimals = none) :
    Parsed safe cs decimals none :=
  ⟨fun m hm => (by cases hm), fun hsafe _ => h hsafe⟩

theorem Parsed.of_spell {n : Numeral} {decimals : ℤ} :
    Parsed safe n.spell decimals (numeralFixedPoint n decimals) where
  sound m hm := ⟨n, rfl, hm⟩
  complete _ hnone n' hn' := by rwa [spell_injective hn']

/-- Of a numeral that is kept, the parser returns the value. -/
theorem finalize_parsed {n : Numeral} {m : Mantissa} {x : Bool × ℤ} {decimals : ℤ}
    (hm : keptMantissa (scaled n) = some m) (hx : exponentKept n.exponent = some x)
    (hsafe : safe → n.spell.length ≤ 10 ^ 17 ∧ |decimals| ≤ 10 ^ 17) :
    ∃ r, Parsed safe n.spell decimals r ∧
      Yields safe (finalize n.negative m (Fraction.digits n.fraction).length x.1 x.2 decimals) r := by
  obtain ⟨hfits, rfl⟩ := keptMantissa_eq_some.mp hm
  obtain ⟨negativeExponent, x⟩ := x
  obtain ⟨N, hN, rfl, hfield⟩ := exponentKept_eq_some hx
  have hbounds : safe → (scaled n).zeros ≤ 10 ^ 17 ∧
      (Fraction.digits n.fraction).length ≤ 10 ^ 17 ∧ |decimals| ≤ 10 ^ 17 := by
    intro h
    obtain ⟨hlen, hdecimals⟩ := hsafe h
    obtain ⟨k, hk, htrimmed, -⟩ := scaled_trimmed n
    have hplaces := places_le n
    exact ⟨le_trans htrimmed.length (le_trans hk hlen),
      le_trans (le_trans (Nat.le_add_left _ _) hplaces) hlen, hdecimals⟩
  have hfinalize : Yields safe (finalize n.negative _ _ negativeExponent _ decimals) _ :=
    finalize_yields hfits hN hbounds
  rw [← hfield] at hfinalize
  exact ⟨numeralFixedPoint n decimals, .of_spell, hfinalize⟩

theorem parseFixedPoint_yields {val : String} {decimals : ℤ}
    (hsafe : safe → val.length ≤ 10 ^ 17 ∧ |decimals| ≤ 10 ^ 17) :
    ∃ r, Yields safe (OptionT.mk (parseFixedPoint val decimals)) r ∧
      Parsed safe val.toList decimals r := by
  rw [← String.length_toList] at hsafe
  unfold parseFixedPoint
  generalize val.toList = cs at hsafe
  have hsign := of_readSign cs
  have hrest : safe → (readSign cs).2.length ≤ 10 ^ 17 := by
    intro h
    have hlen := (hsafe h).1
    rw [hsign, List.length_append] at hlen
    omega
  rw [mantissaSign_eq]
  refine (integerPart_yields hrest).bindEnds (fun a ha => ?_) fun hi => .none ?_
  · obtain ⟨⟨i, irest⟩, hi, m, hm, rfl⟩ := by
      simpa only [Option.bind_eq_some_iff, Option.map_eq_some_iff] using ha
    have hirest := Integer.of_read hi
    have hizeros := integerScaled_zeros_le i
    have hlen : safe → (integerScaled i).zeros + irest.length ≤ 10 ^ 17 := by
      intro h
      have hrest := hrest h
      rw [hirest, List.length_append] at hrest
      omega
    refine (fractionPart_yields hm hlen).bindEnds (fun b hb => ?_) fun hf => .none ?_
    · obtain ⟨⟨f, frest⟩, hf, m', hm', rfl⟩ := by
        simpa only [Option.bind_eq_some_iff, Option.map_eq_some_iff] using hb
      refine (exponentPart_yields frest).bindEnds (fun c hc => ?_) fun he => .none ?_
      · obtain ⟨⟨e, erest⟩, he, x, hx, rfl⟩ := by
          simpa only [Option.bind_eq_some_iff, Option.map_eq_some_iff] using hc
        have hread : Numeral.read cs =
            if erest = [] then some ⟨(readSign cs).1, i, f, e⟩ else none := by
          simp only [Numeral.read, hi, hf, he, Option.bind_some]
        by_cases hnil : erest = []
        · rw [if_pos hnil] at hread
          have hspell := read_eq_some.mp hread
          obtain ⟨r, hparsed, hr⟩ :=
            finalize_parsed (n := ⟨(readSign cs).1, i, f, e⟩) hm' hx fun h => by
              rw [hspell]
              exact hsafe h
          rw [hspell] at hparsed
          exact ⟨r, .accept (not_not.mpr hnil) hr, hparsed⟩
        · rw [if_neg hnil] at hread
          refine ⟨none, .refuse hnil, .none fun _ n hn => ?_⟩
          rw [← read_eq_some, hread] at hn
          cases hn
      · rintro h n rfl
        rw [read_integer] at hi
        cases hi
        rw [Fraction.read_append] at hf
        cases hf
        rw [Exponent.read_spell, Option.bind_some, Option.map_eq_none_iff] at he
        exact numeralFixedPoint_of_exponent he (hsafe h).1 (hsafe h).2
    · rintro - n rfl
      rw [read_integer] at hi
      cases hi
      rw [Fraction.read_append, Option.bind_some, Option.map_eq_none_iff] at hf
      exact numeralFixedPoint_of_large (keptMantissa_eq_none.mp hf)
  · rintro - n rfl
    rw [read_integer, Option.bind_some, Option.map_eq_none_iff] at hi
    exact numeralFixedPoint_of_large (le_trans (keptMantissa_eq_none.mp hi) (significand_le_foldl _ _))

/-- The parser returns what the numeral its string spells comes to, and panics on no string. -/
theorem parseFixedPoint_eq {val : String} {decimals : ℤ} (hlen : val.length ≤ 10 ^ 17)
    (hdecimals : |decimals| ≤ 10 ^ 17) :
    parseFixedPoint val decimals =
      .ok ((Numeral.read val.toList).bind (numeralFixedPoint · decimals)) := by
  obtain ⟨r, hr, hparsed⟩ := @parseFixedPoint_yields True val decimals fun _ => ⟨hlen, hdecimals⟩
  have hrun : parseFixedPoint val decimals = .ok r := hr.run_eq
  rw [hrun]
  congr 1
  cases r with
  | none =>
      refine (Option.bind_eq_none_iff.mpr fun n hn => ?_).symm
      exact hparsed.complete trivial rfl n (read_eq_some.mp hn)
  | some m =>
      obtain ⟨n, hn, hm⟩ := hparsed.sound m rfl
      rw [read_eq_some.mpr hn, Option.bind_some, hm]

/-- What the parser returns for a string of any length is the value of the numeral it spells. -/
theorem parseFixedPoint_sound {val : String} {decimals m : ℤ}
    (h : parseFixedPoint val decimals = .ok (some m)) :
    ∃ n : Numeral, n.spell = val.toList ∧ Denotes n decimals m := by
  obtain ⟨r, hr, hparsed⟩ := @parseFixedPoint_yields False val decimals False.elim
  obtain ⟨n, hn, hm⟩ := hparsed.sound m (hr.of_run h)
  exact ⟨n, hn, numeralFixedPoint_eq_some.mp hm⟩

/-- `parse_fixed_point(val, 8)` returns the eight-place fixed-point value of the numerals that
have one, however many zeros they are spelled with, and overflows on no string. -/
theorem parseFixedPoint_accepts (val : String) (hlen : val.length < 10 ^ 17) :
    (∃ r, parseFixedPoint val 8 = .ok r) ∧
    ∀ m : ℤ, parseFixedPoint val 8 = .ok (some m) ↔
      ∃ n : Numeral, n.spell = val.toList ∧
        ((n.value ≠ 0 ∧ n.value * 10 ^ 8 = m ∧ |m| ≤ 10 ^ 18 - 1) ∨
          (n.value = 0 ∧ -8 ≤ n.exponentField ∧ n.exponentField ≤ 9 ∧ m = 0)) := by
  have hparse := parseFixedPoint_eq hlen.le (show |(8 : ℤ)| ≤ 10 ^ 17 by norm_num)
  refine ⟨⟨_, hparse⟩, fun m => ?_⟩
  rw [hparse, Except.ok.injEq, Option.bind_eq_some_iff]
  have hdenotes : ∀ n : Numeral, Denotes n 8 m ↔
      (n.value ≠ 0 ∧ n.value * 10 ^ 8 = m ∧ |m| ≤ 10 ^ 18 - 1) ∨
        (n.value = 0 ∧ -8 ≤ n.exponentField ∧ n.exponentField ≤ 9 ∧ m = 0) := by
    intro n
    refine or_congr Iff.rfl (and_congr_right fun _ => ?_)
    constructor
    · rintro ⟨hlo, hhi, hm⟩
      exact ⟨by omega, by omega, hm⟩
    · rintro ⟨hlo, hhi, hm⟩
      exact ⟨by omega, by omega, hm⟩
  refine exists_congr fun n => and_congr read_eq_some ?_
  rw [numeralFixedPoint_eq_some, hdenotes]

/-- `1.1e-1` -/
def tenth : Numeral where
  negative := false
  integer := .lead '1' [] (by decide) (by simp)
  fraction := some ⟨['1'], by simp, List.forall_mem_singleton.mpr rfl⟩
  exponent := some ⟨false, .minus, ⟨['1'], by simp, List.forall_mem_singleton.mpr rfl⟩⟩

/-- The length of a string of the tests is in bounds, and its result is theirs. -/
theorem parseFixedPoint_accepts_exponent :
    "1.1e-1".length < 10 ^ 17 ∧ parseFixedPoint "1.1e-1" 8 = .ok (some 11000000) := by
  have hlen : "1.1e-1".length < 10 ^ 17 := by decide +kernel
  refine ⟨hlen, ((parseFixedPoint_accepts "1.1e-1" hlen).2 11000000).mpr ?_⟩
  have hvalue : Numeral.value tenth = 11 * 10 ^ (-2 : ℤ) := by
    show ((1 : ℤ) : ℚ) * ((11 : ℕ) : ℚ) * 10 ^ (-2 : ℤ) = _
    norm_num
  refine ⟨tenth, by decide +kernel, .inl ⟨?_, ?_, by norm_num⟩⟩
  · rw [hvalue]
    norm_num
  · rw [hvalue]
    norm_num

end Zallet
