/-
# `Zallet.Data.BaseEncoding` — bytes in base 16 and in base 64

Base 16 is written in lower case and read in both cases.  Base 64 is written
with padding, and read where it is written so: a text that its bytes are not
spelled by, because of the bits that the padding stands for or because of
missing padding, is not read (`Base64.decode_eq_some`).
-/
import Mathlib.Data.List.Basic

theorem UInt8.ofNat_eq_of_eq {b : UInt8} {n : ℕ} (h : n = b.toNat) : UInt8.ofNat n = b := by
  rw [h]
  exact UInt8.ofNat_toNat

/-! ## Base 16 -/

namespace Base16

def digit (n : ℕ) : Char := Nat.digitChar n

def value (c : Char) : Option ℕ :=
  if '0' ≤ c ∧ c ≤ '9' then some (c.toNat - '0'.toNat)
  else if 'a' ≤ c ∧ c ≤ 'f' then some (c.toNat - 'a'.toNat + 10)
  else if 'A' ≤ c ∧ c ≤ 'F' then some (c.toNat - 'A'.toNat + 10)
  else none

def encode : List UInt8 → List Char
  | [] => []
  | b :: bytes => digit (b.toNat / 16) :: digit (b.toNat % 16) :: encode bytes

def decode : List Char → Option (List UInt8)
  | [] => some []
  | [_] => none
  | c :: d :: rest => do
      let high ← value c
      let low ← value d
      let bytes ← decode rest
      some (UInt8.ofNat (high * 16 + low) :: bytes)

theorem value_digit : ∀ n < 16, value (digit n) = some n := by decide

theorem decode_encode (bytes : List UInt8) : decode (encode bytes) = some bytes := by
  induction bytes with
  | nil => rfl
  | cons b bytes ih =>
      have hlt := b.toNat_lt
      rw [encode, decode, value_digit _ (by omega), value_digit _ (by omega), ih]
      simp only [Option.bind_eq_bind, Option.bind_some]
      rw [UInt8.ofNat_eq_of_eq (b := b) (by omega)]

end Base16

/-! ## Base 64 -/

namespace Base64

/-- `A` to `Z`, `a` to `z`, `0` to `9`, and two more. -/
def digit (n : ℕ) : Char :=
  if n < 26 then Char.ofNat ('A'.toNat + n)
  else if n < 52 then Char.ofNat ('a'.toNat + (n - 26))
  else if n < 62 then Char.ofNat ('0'.toNat + (n - 52))
  else if n = 62 then '+'
  else '/'

def value (c : Char) : Option ℕ :=
  if 'A' ≤ c ∧ c ≤ 'Z' then some (c.toNat - 'A'.toNat)
  else if 'a' ≤ c ∧ c ≤ 'z' then some (c.toNat - 'a'.toNat + 26)
  else if '0' ≤ c ∧ c ≤ '9' then some (c.toNat - '0'.toNat + 52)
  else if c = '+' then some 62
  else if c = '/' then some 63
  else none

def encode : List UInt8 → List Char
  | [] => []
  | [a] => [digit (a.toNat / 4), digit (a.toNat % 4 * 16), '=', '=']
  | [a, b] =>
      [digit (a.toNat / 4), digit (a.toNat % 4 * 16 + b.toNat / 16), digit (b.toNat % 16 * 4), '=']
  | a :: b :: c :: bytes =>
      digit (a.toNat / 4) :: digit (a.toNat % 4 * 16 + b.toNat / 16) ::
        digit (b.toNat % 16 * 4 + c.toNat / 64) :: digit (c.toNat % 64) :: encode bytes

/-- The bytes of the digits, where the bits that the padding stands for are not looked at. -/
def digitsToBytes : List Char → Option (List UInt8)
  | [] => some []
  | w :: x :: y :: z :: rest => do
      let w ← value w
      let x ← value x
      let first := UInt8.ofNat (w * 4 + x / 16)
      if y = '=' ∧ z = '=' ∧ rest = [] then some [first]
      else do
        let y ← value y
        let second := UInt8.ofNat (x % 16 * 16 + y / 4)
        if z = '=' ∧ rest = [] then some [first, second]
        else do
          let z ← value z
          let bytes ← digitsToBytes rest
          some (first :: second :: UInt8.ofNat (y % 4 * 64 + z) :: bytes)
  | _ => none

def decode (text : List Char) : Option (List UInt8) :=
  (digitsToBytes text).filter fun bytes => encode bytes = text

theorem value_digit : ∀ n < 64, value (digit n) = some n := by decide

theorem digit_ne_pad : ∀ n < 64, digit n ≠ '=' := by decide

theorem digitsToBytes_encode (bytes : List UInt8) : digitsToBytes (encode bytes) = some bytes := by
  fun_induction encode bytes with
  | case1 => rfl
  | case2 a =>
      have ha := a.toNat_lt
      rw [digitsToBytes, value_digit _ (by omega), value_digit _ (by omega)]
      simp only [Option.bind_eq_bind, Option.bind_some, and_self, if_true]
      rw [UInt8.ofNat_eq_of_eq (b := a) (by omega)]
  | case3 a b =>
      have ha := a.toNat_lt
      have hb := b.toNat_lt
      have hpad := digit_ne_pad (b.toNat % 16 * 4) (by omega)
      rw [digitsToBytes, value_digit _ (by omega), value_digit _ (by omega),
        value_digit _ (by omega)]
      simp only [Option.bind_eq_bind, Option.bind_some, hpad, false_and, if_false, and_self,
        if_true]
      rw [UInt8.ofNat_eq_of_eq (b := a) (by omega), UInt8.ofNat_eq_of_eq (b := b) (by omega)]
  | case4 a b c bytes ih =>
      have ha := a.toNat_lt
      have hb := b.toNat_lt
      have hc := c.toNat_lt
      have hpad := digit_ne_pad (b.toNat % 16 * 4 + c.toNat / 64) (by omega)
      have hpad' := digit_ne_pad (c.toNat % 64) (by omega)
      rw [digitsToBytes, value_digit _ (by omega), value_digit _ (by omega),
        value_digit _ (by omega), value_digit _ (by omega), ih]
      simp only [Option.bind_eq_bind, Option.bind_some, hpad, hpad', false_and, if_false]
      rw [UInt8.ofNat_eq_of_eq (b := a) (by omega), UInt8.ofNat_eq_of_eq (b := b) (by omega),
        UInt8.ofNat_eq_of_eq (b := c) (by omega)]

/-- What a text in base 64 is made of. -/
theorem mem_encode {bytes : List UInt8} {c : Char} (h : c ∈ encode bytes) :
    c = '=' ∨ ∃ n < 64, c = digit n := by
  fun_induction encode bytes with
  | case1 => cases h
  | case2 a =>
      have ha := a.toNat_lt
      simp only [List.mem_cons, List.not_mem_nil, or_false] at h
      rcases h with rfl | rfl | rfl | rfl
      · exact .inr ⟨_, by omega, rfl⟩
      · exact .inr ⟨_, by omega, rfl⟩
      · exact .inl rfl
      · exact .inl rfl
  | case3 a b =>
      have ha := a.toNat_lt
      have hb := b.toNat_lt
      simp only [List.mem_cons, List.not_mem_nil, or_false] at h
      rcases h with rfl | rfl | rfl | rfl
      · exact .inr ⟨_, by omega, rfl⟩
      · exact .inr ⟨_, by omega, rfl⟩
      · exact .inr ⟨_, by omega, rfl⟩
      · exact .inl rfl
  | case4 a b c' bytes ih =>
      have ha := a.toNat_lt
      have hb := b.toNat_lt
      have hc := c'.toNat_lt
      simp only [List.mem_cons] at h
      rcases h with rfl | rfl | rfl | rfl | h
      · exact .inr ⟨_, by omega, rfl⟩
      · exact .inr ⟨_, by omega, rfl⟩
      · exact .inr ⟨_, by omega, rfl⟩
      · exact .inr ⟨_, by omega, rfl⟩
      · exact ih h

theorem decode_eq_some {text : List Char} {bytes : List UInt8} :
    decode text = some bytes ↔ text = encode bytes := by
  rw [decode, Option.filter_eq_some_iff]
  constructor
  · rintro ⟨-, h⟩
    exact (of_decide_eq_true h).symm
  · rintro rfl
    exact ⟨digitsToBytes_encode bytes, decide_eq_true rfl⟩

end Base64
