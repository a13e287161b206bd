/-
# `Zallet.Data.Numeral` — decimal numerals

The numerals `-?(0|[1-9][0-9]*)([.][0-9]+)?([eE][+-]?[0-9]+)?`, part by part, so
that a value of `Numeral` cannot be misspelled.  A part is spelled by `chars`;
its reader takes it off the front of a list and returns what follows.
`Numeral.read_eq_some` is the round trip: a list is read as a numeral exactly
when the numeral is spelled so, and hence in one way at most.

A digit string stands for a significand without trailing zeros and the zeros
after it (`Trimmed`), which is how a fixed-point reader keeps it.
-/
import Mathlib.Algebra.Order.Field.Basic
import Mathlib.Algebra.Order.Field.Power
import Mathlib.Data.List.TakeWhile
import Mathlib.Data.Rat.Defs
import Mathlib.Algebra.Order.Ring.Rat
import Mathlib.Algebra.Field.Rat
import Mathlib.Data.Rat.Cast.Defs
import Mathlib.Tactic.FieldSimp
import Mathlib.Tactic.Linarith
import Mathlib.Tactic.NormNum
import Mathlib.Tactic.Ring

namespace Numeral

/-- What is left of a list after a reader, where no digit may follow. -/
def NoDigit (cs : List Char) : Prop := ∀ c ∈ cs.head?, c.isDigit = false

theorem NoDigit.nil : NoDigit [] := by simp [NoDigit]

theorem NoDigit.cons {c : Char} {cs : List Char} (h : c.isDigit = false) : NoDigit (c :: cs) := by
  simpa [NoDigit] using h

/-- `[0-9]+` -/
structure Digits where
  chars : List Char
  ne_nil : chars ≠ []
  digit : ∀ c ∈ chars, c.isDigit = true
deriving DecidableEq

namespace Digits

def value (ds : Digits) : ℕ := Nat.ofDigitChars 10 ds.chars 0

/-- The digits at the front of a list, if there are any. -/
def read (cs : List Char) : Option (Digits × List Char) :=
  if h : cs.takeWhile (·.isDigit) = [] then none
  else some (⟨cs.takeWhile (·.isDigit), h, fun _ => List.mem_takeWhile_imp⟩,
    cs.dropWhile (·.isDigit))

theorem takeWhile_append {ds cs : List Char} (hds : ∀ c ∈ ds, c.isDigit = true) (hcs : NoDigit cs) :
    (ds ++ cs).takeWhile (·.isDigit) = ds ∧ (ds ++ cs).dropWhile (·.isDigit) = cs := by
  have hnone : cs.takeWhile (·.isDigit) = [] ∧ cs.dropWhile (·.isDigit) = cs := by
    cases cs with
    | nil => exact ⟨rfl, rfl⟩
    | cons c cs =>
        have hc : c.isDigit = false := hcs c rfl
        simp [hc]
  rw [List.takeWhile_append_of_pos hds, List.dropWhile_append_of_pos hds, hnone.1, hnone.2,
    List.append_nil]
  exact ⟨rfl, rfl⟩

theorem read_append (ds : Digits) {cs : List Char} (h : NoDigit cs) :
    read (ds.chars ++ cs) = some (ds, cs) := by
  obtain ⟨htake, hdrop⟩ := takeWhile_append ds.digit h
  simp only [read, htake, hdrop, ds.ne_nil, dite_false]

theorem of_read {cs rest : List Char} {ds : Digits} (h : read cs = some (ds, rest)) :
    cs = ds.chars ++ rest := by
  unfold read at h
  split at h
  · cases h
  · cases h
    exact List.takeWhile_append_dropWhile.symm

end Digits

/-- `0|[1-9][0-9]*` -/
inductive Integer where
  | zero
  | lead (d : Char) (ds : List Char) (hd : d.isDigit = true ∧ d ≠ '0')
      (hds : ∀ c ∈ ds, c.isDigit = true)
deriving DecidableEq

namespace Integer

def chars : Integer → List Char
  | .zero => ['0']
  | .lead d ds _ _ => d :: ds

def read : List Char → Option (Integer × List Char)
  | [] => none
  | c :: cs =>
      if c = '0' then some (.zero, cs)
      else if h : c.isDigit = true ∧ c ≠ '0' then
        some (.lead c (cs.takeWhile (·.isDigit)) h fun _ => List.mem_takeWhile_imp,
          cs.dropWhile (·.isDigit))
      else none

theorem read_append (i : Integer) {cs : List Char} (h : NoDigit cs) :
    read (i.chars ++ cs) = some (i, cs) := by
  cases i with
  | zero => rfl
  | lead d ds hd hds =>
      obtain ⟨htake, hdrop⟩ := Digits.takeWhile_append hds h
      simp only [chars, List.cons_append, read, hd.2, hd, htake, hdrop, if_false, ne_eq,
        not_false_eq_true, and_self, dite_true]

theorem of_read {cs rest : List Char} {i : Integer} (h : read cs = some (i, rest)) :
    cs = i.chars ++ rest := by
  cases cs with
  | nil => cases h
  | cons c cs =>
      simp only [read] at h
      split at h
      · rename_i hc
        cases h
        rw [hc]
        rfl
      · split at h
        · cases h
          simp [chars, List.takeWhile_append_dropWhile]
        · cases h

theorem chars_digit (i : Integer) : ∀ c ∈ i.chars, c.isDigit = true := by
  cases i with
  | zero => simp [chars]
  | lead d ds hd hds => simpa [chars, hd.1] using hds

end Integer

/-- `[+-]?` before the digits of an exponent. -/
inductive Sign where
  | absent
  | plus
  | minus
deriving DecidableEq

namespace Sign

def chars : Sign → List Char
  | .absent => []
  | .plus => ['+']
  | .minus => ['-']

def read : List Char → Sign × List Char
  | [] => (.absent, [])
  | c :: cs => if c = '+' then (.plus, cs) else if c = '-' then (.minus, cs) else (.absent, c :: cs)

theorem read_append (s : Sign) (ds : Digits) (cs : List Char) :
    read (s.chars ++ (ds.chars ++ cs)) = (s, ds.chars ++ cs) := by
  cases s with
  | absent =>
      obtain ⟨chars, hne, hdigit⟩ := ds
      cases chars with
      | nil => exact absurd rfl hne
      | cons d ds =>
          have hd := hdigit d (by simp)
          have hplus : d ≠ '+' := by rintro rfl; exact absurd hd (by decide)
          have hminus : d ≠ '-' := by rintro rfl; exact absurd hd (by decide)
          simp [chars, read, hplus, hminus]
  | plus => rfl
  | minus => rfl

theorem of_read (cs : List Char) : cs = (read cs).1.chars ++ (read cs).2 := by
  cases cs with
  | nil => rfl
  | cons c cs =>
      by_cases hplus : c = '+'
      · simp [read, hplus, chars]
      · by_cases hminus : c = '-'
        · simp [read, hminus, chars]
        · simp [read, hplus, hminus, chars]

end Sign

/-- `[eE][+-]?[0-9]+` -/
structure Exponent where
  upper : Bool
  sign : Sign
  digits : Digits
deriving DecidableEq

namespace Exponent

def chars (e : Exponent) : List Char :=
  (if e.upper then 'E' else 'e') :: (e.sign.chars ++ e.digits.chars)

def value (e : Exponent) : ℤ :=
  match e.sign with
  | .minus => -(e.digits.value : ℤ)
  | .absent | .plus => e.digits.value

theorem value_eq (e : Exponent) : e.value = (if e.sign = .minus then -1 else 1) * e.digits.value := by
  obtain ⟨upper, sign, digits⟩ := e
  cases sign <;> simp [value]

/-- An exponent may be missing; a mark without digits after it is none. -/
def read : List Char → Option (Option Exponent × List Char)
  | [] => some (none, [])
  | c :: cs =>
      if c = 'e' ∨ c = 'E' then
        (Digits.read (Sign.read cs).2).map fun r =>
          (some ⟨c = 'E', (Sign.read cs).1, r.1⟩, r.2)
      else some (none, c :: cs)

end Exponent

/-- The spelling of a part that may be missing. -/
def Exponent.spell (e : Option Exponent) : List Char := e.elim [] Exponent.chars

theorem Exponent.spell_noDigit (e : Option Exponent) : NoDigit (Exponent.spell e) := by
  cases e with
  | none => exact .nil
  | some e => exact .cons (by cases e.upper <;> decide)

theorem Exponent.read_spell (e : Option Exponent) : Exponent.read (spell e) = some (e, []) := by
  cases e with
  | none => rfl
  | some e =>
      obtain ⟨upper, sign, digits⟩ := e
      have hsign := Sign.read_append sign digits []
      have hdigits := digits.read_append .nil
      rw [List.append_nil] at hsign hdigits
      cases upper <;> simp [spell, chars, read, hsign, hdigits]

theorem Exponent.of_read {cs rest : List Char} {e : Option Exponent}
    (h : read cs = some (e, rest)) : cs = spell e ++ rest := by
  cases cs with
  | nil => cases h; rfl
  | cons c cs =>
      simp only [read] at h
      split at h
      · rename_i hc
        obtain ⟨⟨digits, rest'⟩, hdigits, hr⟩ := Option.map_eq_some_iff.mp h
        cases hr
        have hsign := Sign.of_read cs
        rw [Digits.of_read hdigits] at hsign
        have hmark : c = if decide (c = 'E') then 'E' else 'e' := by
          by_cases hE : c = 'E'
          · simp [hE]
          · simp [hc.resolve_right hE]
        simp only [spell, chars, Option.elim, List.cons_append, List.append_assoc, ← hmark]
        exact congrArg _ hsign
      · cases h
        rfl

/-- `[.][0-9]+`, which may be missing. -/
def Fraction.read : List Char → Option (Option Digits × List Char)
  | [] => some (none, [])
  | c :: cs =>
      if c = '.' then (Digits.read cs).map fun r => (some r.1, r.2)
      else some (none, c :: cs)

/-- The digits after the point. -/
def Fraction.digits (f : Option Digits) : List Char := f.elim [] Digits.chars

def Fraction.spell (f : Option Digits) : List Char := f.elim [] fun ds => '.' :: ds.chars

theorem Fraction.digits_digit (f : Option Digits) : ∀ c ∈ digits f, c.isDigit = true := by
  cases f with
  | none => simp [digits]
  | some ds => exact ds.digit

theorem Fraction.read_append (f : Option Digits) (e : Option Exponent) :
    read (spell f ++ Exponent.spell e) = some (f, Exponent.spell e) := by
  cases f with
  | none =>
      cases e with
      | none => rfl
      | some e =>
          obtain ⟨upper, sign, ds⟩ := e
          cases upper <;> simp [spell, Exponent.spell, Exponent.chars, read]
  | some ds => simp [spell, read, ds.read_append (Exponent.spell_noDigit e)]

theorem Fraction.of_read {cs rest : List Char} {f : Option Digits}
    (h : read cs = some (f, rest)) : cs = spell f ++ rest := by
  cases cs with
  | nil => cases h; rfl
  | cons c cs =>
      simp only [read] at h
      split at h
      · rename_i hc
        obtain ⟨⟨digits, rest'⟩, hdigits, hr⟩ := Option.map_eq_some_iff.mp h
        cases hr
        rw [hc, Digits.of_read hdigits]
        rfl
      · cases h
        rfl

theorem Fraction.spell_noDigit (f : Option Digits) (e : Option Exponent) :
    NoDigit (spell f ++ Exponent.spell e) := by
  cases f with
  | none => exact Exponent.spell_noDigit e
  | some ds => exact .cons (by decide)

end Numeral

/-! ## The numeral -/

open Numeral in
/-- `-?(0|[1-9][0-9]*)([.][0-9]+)?([eE][+-]?[0-9]+)?` -/
structure Numeral where
  negative : Bool
  integer : Integer
  fraction : Option Digits
  exponent : Option Exponent
deriving DecidableEq

namespace Numeral

def spell (n : Numeral) : List Char :=
  (if n.negative then ['-'] else []) ++
    (n.integer.chars ++ (Fraction.spell n.fraction ++ Exponent.spell n.exponent))

/-- The number its digits make, without the point. -/
def digits (n : Numeral) : ℕ := Nat.ofDigitChars 10 (n.integer.chars ++ Fraction.digits n.fraction) 0

/-- How many digits stand after the point. -/
def places (n : Numeral) : ℕ := (Fraction.digits n.fraction).length

/-- Its exponent field, zero where it has none. -/
def exponentField (n : Numeral) : ℤ := n.exponent.elim 0 Exponent.value

def sign (n : Numeral) : ℤ := if n.negative then -1 else 1

/-- The number it denotes. -/
def value (n : Numeral) : ℚ := n.sign * n.digits * 10 ^ (n.exponentField - n.places)

/-- The sign at the front. -/
def readSign : List Char → Bool × List Char
  | [] => (false, [])
  | c :: cs => if c = '-' then (true, cs) else (false, c :: cs)

/-- The numeral a list spells. -/
def read (cs : List Char) : Option Numeral :=
  (Integer.read (readSign cs).2).bind fun i =>
    (Fraction.read i.2).bind fun f =>
      (Exponent.read f.2).bind fun e =>
        if e.2 = [] then some ⟨(readSign cs).1, i.1, f.1, e.1⟩ else none

theorem readSign_append (negative : Bool) (i : Integer) (cs : List Char) :
    readSign ((if negative then ['-'] else []) ++ (i.chars ++ cs)) = (negative, i.chars ++ cs) := by
  cases negative with
  | true => rfl
  | false =>
      cases i with
      | zero => rfl
      | lead d ds hd hds =>
          have hminus : d ≠ '-' := by rintro rfl; exact absurd hd.1 (by decide)
          simp [Integer.chars, readSign, hminus]

theorem of_readSign (cs : List Char) :
    cs = (if (readSign cs).1 then ['-'] else []) ++ (readSign cs).2 := by
  cases cs with
  | nil => rfl
  | cons c cs =>
      by_cases hc : c = '-'
      · simp [readSign, hc]
      · simp [readSign, hc]

/-- Behind the sign of a numeral its whole part is read. -/
theorem read_integer (n : Numeral) :
    Integer.read (readSign n.spell).2 =
      some (n.integer, Fraction.spell n.fraction ++ Exponent.spell n.exponent) := by
  rw [spell, readSign_append]
  exact n.integer.read_append (Fraction.spell_noDigit n.fraction n.exponent)

theorem read_spell (n : Numeral) : read n.spell = some n := by
  rw [read, read_integer, Option.bind_some, Fraction.read_append, Option.bind_some,
    Exponent.read_spell, Option.bind_some, if_pos rfl, spell, readSign_append]

/-- A list is read as the one numeral it spells. -/
theorem read_eq_some {cs : List Char} {n : Numeral} : read cs = some n ↔ n.spell = cs := by
  refine ⟨fun h => ?_, fun h => h ▸ read_spell n⟩
  simp only [read, Option.bind_eq_some_iff] at h
  obtain ⟨⟨i, irest⟩, hi, ⟨f, frest⟩, hf, ⟨e, erest⟩, he, h⟩ := h
  split at h
  · rename_i hnil
    cases h
    have hspell : cs = (if (readSign cs).1 then ['-'] else []) ++
        (i.chars ++ (Fraction.spell f ++ (Exponent.spell e ++ erest))) := by
      rw [← Exponent.of_read he, ← Fraction.of_read hf, ← Integer.of_read hi]
      exact of_readSign cs
    rw [show erest = [] from hnil, List.append_nil] at hspell
    exact hspell.symm
  · cases h

theorem spell_injective {n n' : Numeral} (h : n.spell = n'.spell) : n = n' := by
  have hread := read_spell n
  rw [h, read_spell] at hread
  exact (Option.some.inj hread).symm

/-! ## Trailing zeros -/

/-- A number as a significand and the zeros after it. -/
structure Scaled where
  significand : ℕ
  zeros : ℕ
deriving DecidableEq

namespace Scaled

def zero : Scaled := ⟨0, 0⟩

/-- One more digit: a zero is only counted, any other takes the zeros before it along. -/
def push (s : Scaled) (c : Char) : Scaled :=
  if c = '0' then ⟨s.significand, s.zeros + 1⟩
  else ⟨s.significand * 10 ^ (s.zeros + 1) + (c.toNat - '0'.toNat), 0⟩

/-- `s` is `N`, read from `k` digits, and its significand does not end in zero; where it is zero,
every digit read is. -/
structure Trimmed (s : Scaled) (N k : ℕ) : Prop where
  eq : N = s.significand * 10 ^ s.zeros
  length : s.zeros ≤ k
  trimmed : s.significand % 10 ≠ 0 ∨ s.significand = 0 ∧ s.zeros = k

end Scaled

/-- The number of a digit. -/
theorem digit_bounds {c : Char} (h : c.isDigit = true) :
    c.toNat - '0'.toNat < 10 ∧ (c.toNat - '0'.toNat = 0 ↔ c = '0') := by
  obtain ⟨hlo, hhi⟩ := Char.isDigit_iff_toNat.mp h
  have h0 : '0'.toNat = 48 := rfl
  have h9 : '9'.toNat = 57 := rfl
  refine ⟨by omega, fun hc => Char.toNat_inj.mp (by omega), fun hc => by rw [hc]; rfl⟩

namespace Scaled

variable {s : Scaled} {N k : ℕ} {c : Char} {cs : List Char}

theorem Trimmed.empty : Trimmed zero 0 0 := ⟨rfl, le_refl 0, .inr ⟨rfl, rfl⟩⟩

theorem Trimmed.push (h : Trimmed s N k) (hc : c.isDigit = true) :
    Trimmed (s.push c) (10 * N + (c.toNat - '0'.toNat)) (k + 1) := by
  obtain ⟨hlt, hzero⟩ := digit_bounds hc
  by_cases hc0 : c = '0'
  · rw [hzero.mpr hc0, Scaled.push, if_pos hc0]
    exact {
      eq := by rw [h.eq, pow_succ]; ring
      length := Nat.succ_le_succ h.length
      trimmed := h.trimmed.imp_right fun ⟨hm, ht⟩ => ⟨hm, congrArg _ ht⟩ }
  · have hne := mt hzero.mp hc0
    rw [Scaled.push, if_neg hc0]
    refine ⟨?_, Nat.zero_le _, .inl ?_⟩
    · rw [h.eq, pow_succ]
      ring
    · show (s.significand * 10 ^ (s.zeros + 1) + (c.toNat - '0'.toNat)) % 10 ≠ 0
      rw [pow_succ, ← mul_assoc]
      omega

theorem Trimmed.foldl (h : Trimmed s N k) (hcs : ∀ c ∈ cs, c.isDigit = true) :
    Trimmed (cs.foldl Scaled.push s) (Nat.ofDigitChars 10 cs N) (k + cs.length) := by
  induction cs generalizing s N k with
  | nil => exact h
  | cons c cs ih =>
      rw [Nat.ofDigitChars_cons, List.length_cons, ← Nat.add_assoc, Nat.add_right_comm]
      exact ih (h.push (hcs c (by simp))) fun c' hc' => hcs c' (by simp [hc'])

/-- A digit does not make the significand smaller. -/
theorem significand_le_push : s.significand ≤ (s.push c).significand := by
  unfold push
  split
  · exact le_refl _
  · exact le_add_right (Nat.le_mul_of_pos_right _ (by positivity))

theorem Trimmed.significand_eq_zero_iff (h : Trimmed s N k) : s.significand = 0 ↔ N = 0 := by
  rw [h.eq, mul_eq_zero, or_iff_left (pow_ne_zero _ (by norm_num))]

end Scaled

/-- A significand that does not end in zero stays an integer only where digits are added. -/
theorem mul_zpow_eq_intCast {m : ℕ} (hm : m % 10 ≠ 0) {q x : ℤ} :
    (m : ℚ) * 10 ^ q = x ↔ 0 ≤ q ∧ x = m * 10 ^ q.toNat := by
  by_cases hq : 0 ≤ q
  · obtain ⟨k, rfl⟩ := Int.eq_ofNat_of_zero_le hq
    rw [and_iff_right hq, Int.toNat_natCast, zpow_natCast, eq_comm]
    exact_mod_cast Iff.rfl
  · obtain ⟨k, hk⟩ := Int.eq_ofNat_of_zero_le (show 0 ≤ -q - 1 by omega)
    obtain rfl : q = -((k + 1 : ℕ) : ℤ) := by push_cast; omega
    refine iff_of_false (fun h => hm ?_) (fun h => hq h.1)
    rw [zpow_neg, zpow_natCast, mul_inv_eq_iff_eq_mul₀ (by positivity)] at h
    have hint : (m : ℤ) = x * 10 ^ (k + 1) := by exact_mod_cast h
    rw [pow_succ, ← mul_assoc] at hint
    omega

/-- What moving the point of a numeral makes of its significand. -/
theorem value_mul_zpow (n : Numeral) {s : Scaled} {k : ℕ} (h : s.Trimmed n.digits k) (decimals : ℤ) :
    n.value * 10 ^ decimals =
      n.sign * (s.significand * 10 ^ (n.exponentField - n.places + s.zeros + decimals)) := by
  have hten : (10 : ℚ) ≠ 0 := by norm_num
  rw [value, h.eq, zpow_add₀ hten, zpow_add₀ hten, zpow_natCast]
  push_cast
  ring

theorem value_eq_zero_iff (n : Numeral) : n.value = 0 ↔ n.digits = 0 := by
  have hsign : (n.sign : ℚ) ≠ 0 := by
    unfold sign
    split_ifs <;> norm_num
  rw [value, mul_eq_zero, or_iff_left (zpow_ne_zero _ (by norm_num)), mul_eq_zero,
    or_iff_right hsign, Nat.cast_eq_zero]

/-! ## Writing numbers -/

/-- The digits of a number do not start with a zero. -/
theorem toDigits_lead {n : ℕ} (hn : n ≠ 0) : ∃ d ds, Nat.toDigits 10 n = d :: ds ∧ d ≠ '0' := by
  induction n using Nat.strong_induction_on with
  | _ n ih =>
      by_cases hlt : n < 10
      · exact ⟨n.digitChar, [], Nat.toDigits_of_lt_base hlt, by simpa using hn⟩
      · obtain ⟨d, ds, hdigits, hd⟩ := ih (n / 10) (by omega) (by omega)
        refine ⟨d, ds ++ [(n % 10).digitChar], ?_, hd⟩
        rw [Nat.toDigits_of_base_le (by norm_num) (by omega), hdigits, List.cons_append]

theorem toDigits_digit {n : ℕ} : ∀ c ∈ Nat.toDigits 10 n, c.isDigit = true := fun _ =>
  Nat.isDigit_of_mem_toDigits (by norm_num) (le_refl 10)

/-- The whole part that a number is written as. -/
def Integer.ofNat (n : ℕ) : Integer :=
  match Integer.read (Nat.toDigits 10 n) with
  | some (i, _) => i
  | none => .zero

theorem Integer.ofNat_chars (n : ℕ) : (Integer.ofNat n).chars = Nat.toDigits 10 n := by
  by_cases hn : n = 0
  · rw [hn]
    rfl
  · obtain ⟨d, ds, hdigits, hd⟩ := toDigits_lead hn
    have hall : ∀ c ∈ d :: ds, c.isDigit = true := hdigits ▸ toDigits_digit
    have hread := Integer.read_append
      (.lead d ds ⟨hall d (by simp), hd⟩ fun c hc => hall c (by simp [hc])) .nil
    rw [List.append_nil] at hread
    unfold Integer.ofNat
    rw [hdigits, show Integer.read (d :: ds) = _ from hread]
    rfl

/-- The digits of a number, with zeros in front up to a width. -/
def padded (width n : ℕ) : List Char :=
  List.replicate (width - (Nat.toDigits 10 n).length) '0' ++ Nat.toDigits 10 n

theorem padded_digit {width n : ℕ} : ∀ c ∈ padded width n, c.isDigit = true := by
  intro c hc
  rcases List.mem_append.mp hc with hc | hc
  · rw [List.eq_of_mem_replicate hc]
    rfl
  · exact toDigits_digit c hc

theorem padded_length {width n : ℕ} (hwidth : 0 < width) (hn : n < 10 ^ width) :
    (padded width n).length = width := by
  have hle := (Nat.length_toDigits_le_iff (by norm_num) hwidth).mpr hn
  rw [padded, List.length_append, List.length_replicate, Nat.sub_add_cancel hle]

/-- Read on after other digits, it adds the number. -/
theorem ofDigitChars_padded {width n init : ℕ} (hwidth : 0 < width) (hn : n < 10 ^ width) :
    Nat.ofDigitChars 10 (padded width n) init = 10 ^ width * init + n := by
  have hzero : Nat.ofDigitChars 10 (padded width n) 0 = n := by
    rw [padded, Nat.ofDigitChars_append, Nat.ofDigitChars_replicate_zero, Nat.mul_zero,
      Nat.ofDigitChars_ten_toDigits]
  rw [Nat.ofDigitChars_eq_ofDigitChars_zero, padded_length hwidth hn, hzero]

/-- The decimal with a whole part and, after the point, `width` digits. -/
def plain (negative : Bool) (whole width fraction : ℕ) : Numeral where
  negative := negative
  integer := .ofNat whole
  fraction :=
    if h : padded width fraction = [] then none else some ⟨padded width fraction, h, padded_digit⟩
  exponent := none

theorem plain_spell {negative : Bool} {whole width fraction : ℕ} :
    (plain negative whole width fraction).spell =
      (if negative then ['-'] else []) ++ (Nat.toDigits 10 whole ++ '.' :: padded width fraction) := by
  have hne : padded width fraction ≠ [] := by simp [padded, Nat.toDigits_ne_nil]
  simp only [spell, plain, Integer.ofNat_chars, hne, dite_false, Fraction.spell, Exponent.spell,
    Option.elim, List.append_nil]

theorem plain_value {negative : Bool} {whole width fraction : ℕ} (hwidth : 0 < width)
    (hfraction : fraction < 10 ^ width) :
    (plain negative whole width fraction).value =
      (if negative then -1 else 1) * (whole + fraction / 10 ^ width) := by
  have hne : padded width fraction ≠ [] := by simp [padded, Nat.toDigits_ne_nil]
  have hfrac : Fraction.digits (plain negative whole width fraction).fraction = padded width fraction := by
    simp only [plain, hne, dite_false, Fraction.digits, Option.elim]
  have hdigits : (plain negative whole width fraction).digits = 10 ^ width * whole + fraction := by
    rw [digits, hfrac, Nat.ofDigitChars_append, ofDigitChars_padded hwidth hfraction]
    show 10 ^ width * Nat.ofDigitChars 10 (Integer.ofNat whole).chars 0 + fraction = _
    rw [Integer.ofNat_chars, Nat.ofDigitChars_ten_toDigits]
  have hplaces : (plain negative whole width fraction).places = width := by
    rw [places, hfrac, padded_length hwidth hfraction]
  rw [value, hdigits, hplaces]
  show ((if negative then -1 else 1 : ℤ) : ℚ) * _ * 10 ^ ((0 : ℤ) - width) = _
  rw [zero_sub, zpow_neg, zpow_natCast]
  push_cast
  field_simp

end Numeral
