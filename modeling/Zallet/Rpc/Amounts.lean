/-
# `Zallet.Rpc.Amounts` — amounts in and out of JSON

An amount is printed by decimal division and truncation, and parsed by
`parse_fixed_point`.  The decimals and the checked amounts are those of two
libraries (`MoneyLib`); what is relied on is that a division by `COIN` is exact
and that a decimal prints as the number it is (`MoneyLib.Documented`).  Then the
two are inverse, and whatever is parsed is exactly what is written
(`amounts_round_trip`).
-/
import Zallet.Data.CheckedSum
import Zallet.Rpc.Error
import Zallet.Rpc.Numerals

namespace Zallet

def coin : ℕ := 100000000

def maxMoney : ℕ := 21000000 * coin

structure Zatoshis where
  value : ℕ
  le_maxMoney : value ≤ maxMoney
deriving DecidableEq

theorem Zatoshis.value_injective : Function.Injective Zatoshis.value := by
  rintro ⟨a, ha⟩ ⟨b, hb⟩ heq
  obtain rfl : a = b := heq
  rfl

/-- An addition that has a result just where there is one. -/
theorem Zatoshis.checked {add : Zatoshis → Zatoshis → Option Zatoshis}
    (h : ∀ a b c, add a b = some c ↔ c.value = a.value + b.value) :
    CheckedSum.Checked Zatoshis.value maxMoney add where
  injective := Zatoshis.value_injective
  range n := by
    constructor
    · rintro ⟨z, rfl⟩
      exact z.le_maxMoney
    · intro hle
      exact ⟨⟨n, hle⟩, rfl⟩
  add := h

structure ZatBalance where
  value : ℤ
  within : |value| ≤ maxMoney

def Zatoshis.toZatBalance (z : Zatoshis) : ZatBalance where
  value := z.value
  within := by
    rw [Nat.abs_cast]
    exact_mod_cast z.le_maxMoney

inductive BalanceError where
  | overflow
  | underflow
deriving DecidableEq, Repr

/-- What amounts use of `zcash_protocol` and `rust_decimal`. -/
structure MoneyLib where
  fromNonnegativeI64 : ℤ → Except BalanceError Zatoshis
  Decimal : Type
  ofI64 : ℤ → Decimal
  ofU64 : ℕ → Decimal
  div : Decimal → Decimal → Decimal
  truncWithScale : ℕ → Decimal → Decimal
  /-- As it prints, which is also how it is serialised. -/
  display : Decimal → String

/-- What is relied on, where `value` is the number a decimal stands for. -/
structure MoneyLib.Documented (lib : MoneyLib) (value : lib.Decimal → ℚ) : Prop where
  fromNonnegativeI64 : ∀ n z, lib.fromNonnegativeI64 n = .ok z ↔ n = z.value
  div_coin : ∀ n : ℤ, |n| ≤ maxMoney → value (lib.div (lib.ofI64 n) (lib.ofU64 coin)) = n / coin
  trunc : ∀ d (m : ℤ), value d * 10 ^ 8 = m → value (lib.truncWithScale 8 d) = value d
  /-- There is no exponent, and a scale has no more than 28 places. -/
  display : ∀ d, |value (lib.truncWithScale 8 d)| * coin ≤ maxMoney →
    ∃ n : Numeral, n.spell = (lib.display (lib.truncWithScale 8 d)).toList ∧
      n.exponent = none ∧ n.value = value (lib.truncWithScale 8 d) ∧ n.spell.length ≤ 64

/-- A JSON value given as an amount; a number is kept as its text. -/
inductive JsonAmount where
  | string (s : String)
  | number (s : String)
  | other
deriving DecidableEq, Repr

section
variable (lib : MoneyLib)

def zatoshisFromValue (value : JsonAmount) : Except Panic (Except RpcError Zatoshis) :=
  match value with
  | .string s | .number s => do
      match ← parseFixedPoint s 8 with
      | none => pure (.error (LegacyCode.type.withMessage "Invalid amount"))
      | some amount =>
          match lib.fromNonnegativeI64 amount with
          | .ok z => pure (.ok z)
          | .error .underflow =>
              pure (.error (LegacyCode.invalidParameter.withMessage
                "Invalid parameter, amount must be positive"))
          | .error .overflow => pure (.error (LegacyCode.type.withMessage "Amount out of range"))
  | .other => pure (.error (LegacyCode.type.withMessage "Amount is not a number or string"))

def valueFromZatBalance (value : ZatBalance) : lib.Decimal :=
  lib.truncWithScale 8 (lib.div (lib.ofI64 value.value) (lib.ofU64 coin))

def valueFromZatoshis (value : Zatoshis) : lib.Decimal :=
  valueFromZatBalance lib value.toZatBalance

end

/-- What is written in a string or a number that is taken as an amount. -/
def JsonAmount.text : JsonAmount → Option String
  | .string s | .number s => some s
  | .other => none

variable {lib : MoneyLib} {value : lib.Decimal → ℚ}

/-- An amount is accepted when the parser reads it as one of the amounts there are. -/
theorem zatoshisFromValue_eq_ok (hlib : lib.Documented value) {v : JsonAmount} {z : Zatoshis} :
    zatoshisFromValue lib v = .ok (.ok z) ↔
      ∃ s, v.text = some s ∧ parseFixedPoint s 8 = .ok (some (z.value : ℤ)) := by
  have hstring : ∀ s, zatoshisFromValue lib (.string s) = .ok (.ok z) ↔
      parseFixedPoint s 8 = .ok (some (z.value : ℤ)) := by
    intro s
    simp only [zatoshisFromValue]
    cases hparse : parseFixedPoint s 8 with
    | error panic => exact iff_of_false (fun h => by cases h) fun h => by cases h
    | ok r =>
        cases r with
        | none => exact iff_of_false (fun h => by cases h) fun h => by cases h
        | some amount =>
            have hiff := hlib.fromNonnegativeI64 amount z
            simp only [bind, Except.bind]
            cases hz : lib.fromNonnegativeI64 amount with
            | ok z' =>
                rw [hz] at hiff
                simpa [pure, Except.pure] using hiff
            | error e =>
                have hne : amount ≠ z.value := fun h => by
                  rw [hz] at hiff
                  cases hiff.mpr h
                cases e <;> simpa [pure, Except.pure] using hne
  cases v with
  | string s => simpa [JsonAmount.text] using hstring s
  | number s => simpa [JsonAmount.text, zatoshisFromValue] using hstring s
  | other => simp [JsonAmount.text, zatoshisFromValue, pure, Except.pure]

/-- The decimal of an amount stands for it. -/
theorem value_valueFromZatoshis (hlib : lib.Documented value) (z : Zatoshis) :
    value (valueFromZatoshis lib z) = z.value / coin := by
  have hdiv : value (lib.div (lib.ofI64 z.value) (lib.ofU64 coin)) = z.value / coin := by
    have h := hlib.div_coin z.value z.toZatBalance.within
    rwa [Int.cast_natCast] at h
  have htrunc := hlib.trunc (lib.div (lib.ofI64 z.value) (lib.ofU64 coin)) z.value (by
    rw [hdiv, coin]
    push_cast
    ring)
  exact htrunc.trans hdiv

/-- What is parsed of an amount that is printed is the amount. -/
theorem parse_display (hlib : lib.Documented value) (z : Zatoshis) :
    parseFixedPoint (lib.display (valueFromZatoshis lib z)) 8 = .ok (some (z.value : ℤ)) := by
  have hvalueFrom := value_valueFromZatoshis hlib z
  have hcoin : (0 : ℚ) < coin := by rw [coin]; norm_num
  have hwithin : |value (valueFromZatoshis lib z)| * coin ≤ maxMoney := by
    rw [hvalueFrom, abs_of_nonneg (div_nonneg (Nat.cast_nonneg _) hcoin.le), div_mul_cancel₀ _ hcoin.ne']
    exact_mod_cast z.le_maxMoney
  obtain ⟨n, hspell, hexponent, hvalue, hlen⟩ := hlib.display _ hwithin
  replace hspell : n.spell = (lib.display (valueFromZatoshis lib z)).toList := hspell
  replace hvalue : n.value = z.value / coin := hvalue.trans hvalueFrom
  have hmoved : n.value * 10 ^ 8 = (z.value : ℤ) := by
    rw [hvalue, coin]
    push_cast
    ring
  have hshort : (lib.display (valueFromZatoshis lib z)).length ≤ 10 ^ 17 := by
    rw [← String.length_toList]
    exact le_trans (le_of_eq (congrArg List.length hspell.symm)) (le_trans hlen (by norm_num))
  rw [parseFixedPoint_eq hshort (by norm_num)]
  congr 1
  rw [Numeral.read_eq_some.mpr hspell, Option.bind_some, numeralFixedPoint_eq_some]
  by_cases hzero : n.value = 0
  · have hfield : n.exponentField = 0 := by rw [Numeral.exponentField, hexponent]; rfl
    rw [hzero, zero_mul] at hmoved
    exact .inr ⟨hzero, by omega, by omega, by exact_mod_cast hmoved.symm⟩
  · have hle := z.le_maxMoney
    unfold maxMoney coin at hle
    exact .inl ⟨hzero, hmoved, by rw [Nat.abs_cast]; omega⟩

/-- An amount printed as a string or a number is parsed back, and what is parsed as an amount is
the number written, in units of the eighth place. -/
theorem amounts_round_trip (lib : MoneyLib) (value : lib.Decimal → ℚ) (hlib : lib.Documented value) :
    (∀ (z : Zatoshis) (v : JsonAmount), v.text = some (lib.display (valueFromZatoshis lib z)) →
      zatoshisFromValue lib v = .ok (.ok z)) ∧
    ∀ (v : JsonAmount) (s : String) (z : Zatoshis), v.text = some s →
      zatoshisFromValue lib v = .ok (.ok z) →
        ∃ n : Numeral, n.spell = s.toList ∧ z.value ≤ maxMoney ∧ n.value * 10 ^ 8 = z.value := by
  constructor
  · intro z v hv
    exact (zatoshisFromValue_eq_ok hlib).mpr ⟨_, hv, parse_display hlib z⟩
  · intro v s z hv hok
    obtain ⟨s', hs', hparse⟩ := (zatoshisFromValue_eq_ok hlib).mp hok
    rw [hv] at hs'
    cases hs'
    obtain ⟨n, hspell, hdenotes⟩ := parseFixedPoint_sound hparse
    refine ⟨n, hspell, z.le_maxMoney, ?_⟩
    rcases hdenotes with ⟨-, hmoved, -⟩ | ⟨hzero, -, -, hz⟩
    · exact_mod_cast hmoved
    · have hz' : z.value = 0 := by exact_mod_cast hz
      rw [hzero, hz', zero_mul, Nat.cast_zero]

/-! ## Decimals of eight places -/

/-- A number of `COIN`s as it prints. -/
def zecStr (zatoshis : ℤ) : String :=
  .ofList ((if zatoshis < 0 then ['-'] else []) ++
    (Nat.toDigits 10 (zatoshis.natAbs / coin) ++ '.' :: Numeral.padded 8 (zatoshis.natAbs % coin)))

/-- Decimals counted in the eighth place, small enough for the ones there are. -/
def eightPlaces : MoneyLib where
  fromNonnegativeI64 n :=
    if n < 0 then .error .underflow
    else if h : n.toNat ≤ maxMoney then .ok ⟨n.toNat, h⟩
    else .error .overflow
  Decimal := ℤ
  ofI64 n := n * coin
  ofU64 n := n * coin
  div a b := (a * coin).tdiv b
  truncWithScale k d := d - d.tmod (10 ^ (8 - k))
  display := zecStr

/-- What an eight-place decimal stands for. -/
def eightPlacesValue (d : ℤ) : ℚ := d / coin

theorem zecStr_spell (d : ℤ) :
    (Numeral.plain (d < 0) (d.natAbs / coin) 8 (d.natAbs % coin)).spell = (zecStr d).toList := by
  rw [Numeral.plain_spell, zecStr, String.toList_ofList]
  by_cases hneg : d < 0 <;> simp [hneg]

theorem zecStr_value (d : ℤ) :
    (Numeral.plain (d < 0) (d.natAbs / coin) 8 (d.natAbs % coin)).value = eightPlacesValue d := by
  have hcoin : (coin : ℚ) = 10 ^ 8 := by rw [coin]; norm_num
  have hsplit : ((d.natAbs / coin : ℕ) : ℚ) + (d.natAbs % coin : ℕ) / 10 ^ 8 = (d.natAbs : ℚ) / coin := by
    rw [← hcoin, eq_div_iff (by rw [hcoin]; norm_num), add_mul, div_mul_cancel₀ _ (by rw [hcoin]; norm_num)]
    exact_mod_cast Nat.div_add_mod' d.natAbs coin
  have hlt : d.natAbs % coin < 10 ^ 8 := Nat.mod_lt _ (by decide)
  rw [Numeral.plain_value (by norm_num) hlt, hsplit, eightPlacesValue,
    Nat.cast_natAbs]
  by_cases hneg : d < 0
  · rw [if_pos (by simpa using hneg), abs_of_neg hneg]
    push_cast
    ring
  · rw [if_neg (by simpa using hneg), abs_of_nonneg (not_lt.mp hneg), one_mul]

/-- A decimal of an amount has eight digits before and after its point. -/
theorem zecStr_length {d : ℤ} (h : d.natAbs ≤ maxMoney) : (zecStr d).toList.length ≤ 18 := by
  have hwhole : (Nat.toDigits 10 (d.natAbs / coin)).length ≤ 8 := by
    rw [Nat.length_toDigits_le_iff (by norm_num) (by norm_num)]
    unfold maxMoney coin at h
    unfold coin
    omega
  have hlt : d.natAbs % coin < 10 ^ 8 := Nat.mod_lt _ (by decide)
  have hfraction : (Numeral.padded 8 (d.natAbs % coin)).length = 8 :=
    Numeral.padded_length (by norm_num) hlt
  have hsign : (if d < 0 then ['-'] else []).length ≤ 1 := by split <;> decide
  rw [zecStr, String.toList_ofList]
  simp only [List.length_append, List.length_cons, hfraction]
  omega

theorem eightPlaces_trunc (d : ℤ) : eightPlaces.truncWithScale 8 d = d := by
  show d - d.tmod 1 = d
  rw [Int.tmod_one, sub_zero]

theorem eightPlaces_documented : eightPlaces.Documented eightPlacesValue where
  fromNonnegativeI64 := by
    intro n z
    simp only [eightPlaces]
    split_ifs with hneg hle
    · exact iff_of_false (fun h => by cases h) fun h => by omega
    · rw [Except.ok.injEq]
      constructor
      · rintro rfl
        exact (Int.toNat_of_nonneg (not_lt.mp hneg)).symm
      · rintro rfl
        rfl
    · refine iff_of_false (fun h => by cases h) fun h => hle ?_
      rw [h]
      exact z.le_maxMoney
  div_coin := by
    intro n _
    show eightPlacesValue ((n * coin * coin).tdiv (coin * coin)) = n / coin
    rw [mul_assoc, Int.mul_tdiv_cancel _ (by decide)]
    rfl
  trunc := by
    intro d m _
    exact congrArg eightPlacesValue (eightPlaces_trunc d)
  display := by
    intro d hwithin
    have hcoin : (0 : ℚ) < coin := by rw [coin]; norm_num
    rw [show eightPlaces.truncWithScale 8 d = d from eightPlaces_trunc d] at hwithin ⊢
    change ℤ at d
    have hle : d.natAbs ≤ maxMoney := by
      change |(d : ℚ) / coin| * coin ≤ maxMoney at hwithin
      rw [abs_div, abs_of_pos hcoin, div_mul_cancel₀ _ hcoin.ne'] at hwithin
      have hint : (d.natAbs : ℤ) ≤ maxMoney := by
        rw [Int.natCast_natAbs]
        exact_mod_cast hwithin
      exact_mod_cast hint
    refine ⟨_, zecStr_spell d, rfl, zecStr_value d, ?_⟩
    rw [zecStr_spell]
    exact le_trans (zecStr_length hle) (by norm_num)

/-- One and a half coins, there and back. -/
theorem amounts_round_trip_eightPlaces :
    eightPlaces.Documented eightPlacesValue ∧
    zatoshisFromValue eightPlaces (.string (eightPlaces.display
      (valueFromZatoshis eightPlaces ⟨150000000, by decide⟩))) = .ok (.ok ⟨150000000, by decide⟩) ∧
    ∃ n : Numeral, n.spell = "0.15e1".toList ∧ n.value * 10 ^ 8 = 150000000 := by
  have hround := amounts_round_trip eightPlaces eightPlacesValue eightPlaces_documented
  refine ⟨eightPlaces_documented, hround.1 _ _ rfl, ?_⟩
  obtain ⟨n, hspell, -, hvalue⟩ :=
    hround.2 (.number "0.15e1") "0.15e1" ⟨150000000, by decide⟩ rfl (by decide +kernel)
  exact ⟨n, hspell, by exact_mod_cast hvalue⟩

end Zallet
