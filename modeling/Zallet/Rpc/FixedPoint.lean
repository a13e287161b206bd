/-
# `Zallet.Rpc.FixedPoint` — amounts read as fixed-point integers

`parse_fixed_point` keeps a mantissa whose trailing zeros are only counted, the
number of digits after the point and the exponent apart, each in an `i64`, and
puts them together at the end.  Every `i64` operation is checked here: one that
overflows panics.

The three digit loops keep what the digits read so far stand for
(`foldlM_yields`), until it no longer fits.  What the parser does with a string
is then read off the numeral it spells (`parseFixedPoint_read`).
-/
import Zallet.Data.Numeral

namespace Zallet

/-! ## The parser -/

/-- How the parser ends without returning. -/
inductive Panic where
  | overflow
  | expect
deriving DecidableEq

/-- What may return `None` early, or panic. -/
abbrev Parse := OptionT (Except Panic)

namespace Parse

/-- An `i64` operation with this result. -/
def checkedI64 (n : ℤ) : Parse ℤ :=
  if -2 ^ 63 ≤ n ∧ n < 2 ^ 63 then pure n else OptionT.lift (throw .overflow)

/-- `ch.to_digit(10).expect(..)` -/
def toDigit (ch : Char) : Parse ℤ :=
  if ch.isDigit then pure (ch.toNat - '0'.toNat : ℕ) else OptionT.lift (throw .expect)

end Parse

open Parse
open Numeral (Scaled)

def upperBound : ℤ := 1000000000000000000 - 1

structure Mantissa where
  mantissa : ℤ
  mantissaTzeros : ℤ
deriving DecidableEq

/-- `for _ in 0..k { if refused(mantissa) { return }; mantissa *= 10 }` -/
def timesTen (refused : ℤ → Bool) : ℕ → ℤ → Parse ℤ
  | 0, mantissa => pure mantissa
  | k + 1, mantissa =>
      if refused mantissa then failure
      else do
        let mantissa ← checkedI64 (mantissa * 10)
        timesTen refused k mantissa

/-- Its `false` makes the caller return `None`. -/
def processMantissaDigit (m : Mantissa) (ch : Char) : Parse Mantissa :=
  if ch = '0' then do
    let mantissaTzeros ← checkedI64 (m.mantissaTzeros + 1)
    pure { m with mantissaTzeros }
  else do
    let mantissa ← timesTen (fun n => upperBound / 10 < n) (m.mantissaTzeros + 1).toNat m.mantissa
    let digit ← toDigit ch
    let mantissa ← checkedI64 (mantissa + digit)
    pure { mantissa, mantissaTzeros := 0 }

/-- The digits a string starts with, one after another, and what follows them. -/
def digitLoop {σ : Type} (step : σ → Char → Parse σ) : List Char → σ → Parse (σ × List Char)
  | [], s => pure (s, [])
  | ch :: rest, s =>
      if ch.isDigit then do
        let s ← step s ch
        digitLoop step rest s
      else pure (s, ch :: rest)

/-- `val.split_at_checked(1)`, where it splits a character off. -/
def splitAtChecked : List Char → Option (Char × List Char)
  | [] => none
  | ch :: rest => if ch.utf8Size = 1 then some (ch, rest) else none

theorem splitAtChecked_cons (ch : Char) (rest : List Char) :
    splitAtChecked (ch :: rest) = if ch.utf8Size = 1 then some (ch, rest) else none := rfl

def mantissaSign (val : List Char) : Bool × List Char :=
  match splitAtChecked val with
  | some (ch, rest) => if ch = '-' then (true, rest) else (false, val)
  | none => (false, val)

def integerPart (val : List Char) : Parse (Mantissa × List Char) :=
  match splitAtChecked val with
  | some (ch, rest) =>
      -- a single 0 is passed: it is neither added to the mantissa nor counted
      if ch = '0' then pure (⟨0, 0⟩, rest)
      else if ch.isDigit then digitLoop processMantissaDigit val ⟨0, 0⟩
      else failure
  | none => failure

/-- The loop where the source wants a digit first. -/
def someDigits {σ : Type} (step : σ → Char → Parse σ) (val : List Char) (s : σ) :
    Parse (σ × List Char) :=
  match splitAtChecked val with
  | some (ch, _) => if ch.isDigit then digitLoop step val s else failure
  | none => failure

/-- One digit after the point. -/
def processFractionDigit (s : Mantissa × ℤ) (ch : Char) : Parse (Mantissa × ℤ) := do
  let m ← processMantissaDigit s.1 ch
  let pointOfs ← checkedI64 (s.2 + 1)
  pure (m, pointOfs)

def fractionPart (m : Mantissa) (val : List Char) : Parse ((Mantissa × ℤ) × List Char) :=
  match splitAtChecked val with
  | some (ch, rest) =>
      if ch = '.' then someDigits processFractionDigit rest (m, 0)
      else pure ((m, 0), val)
  | none => pure ((m, 0), val)

/-- One digit of the exponent. -/
def processExponentDigit (exponent : ℤ) (ch : Char) : Parse ℤ :=
  if upperBound / 10 < exponent then failure
  else do
    let tens ← checkedI64 (exponent * 10)
    let digit ← toDigit ch
    checkedI64 (tens + digit)

def exponentSign (val : List Char) : Bool × List Char :=
  match splitAtChecked val with
  | some (ch, rest) =>
      if ch = '+' then (false, rest) else if ch = '-' then (true, rest) else (false, val)
  | none => (false, val)

def exponentPart (val : List Char) : Parse ((Bool × ℤ) × List Char) :=
  match splitAtChecked val with
  | some (ch, rest) =>
      if ch = 'e' ∨ ch = 'E' then do
        let (exponentSign, val) := exponentSign rest
        let (exponent, val) ← someDigits processExponentDigit val 0
        pure ((exponentSign, exponent), val)
      else pure ((false, 0), val)
  | none => pure ((false, 0), val)

/-- `if sign { n = -n }` -/
def negateIf (sign : Bool) (n : ℤ) : Parse ℤ := if sign then checkedI64 (-n) else pure n

/-- From `// convert to one 64-bit fixed-point value` on. -/
def toFixedPoint (mantissa exponent : ℤ) : Parse ℤ :=
  if exponent < 0 then failure
  else if exponent ≥ 18 then failure
  else do
    let mantissa ← timesTen (fun n => ¬(-(upperBound / 10) ≤ n ∧ n ≤ upperBound / 10))
      exponent.toNat mantissa
    if ¬(-upperBound ≤ mantissa ∧ mantissa ≤ upperBound) then failure
    else pure mantissa

/-- From `// finalize exponent` on. -/
def finalize (mantissaSign : Bool) (m : Mantissa) (pointOfs : ℤ) (exponentSign : Bool) (exponent : ℤ)
    (decimals : ℤ) : Parse ℤ := do
  let exponent ← negateIf exponentSign exponent
  let exponent ← checkedI64 (exponent - pointOfs)
  let exponent ← checkedI64 (exponent + m.mantissaTzeros)
  let mantissa ← negateIf mantissaSign m.mantissa
  let exponent ← checkedI64 (exponent + decimals)
  toFixedPoint mantissa exponent

def parseFixedPoint (val : String) (decimals : ℤ) : Except Panic (Option ℤ) := OptionT.run do
  let (mantissaSign, val) := mantissaSign val.toList
  let (m, val) ← integerPart val
  let ((m, pointOfs), val) ← fractionPart m val
  let ((exponentSign, exponent), val) ← exponentPart val
  if val ≠ [] then failure
  else finalize mantissaSign m pointOfs exponentSign exponent decimals

example : parseFixedPoint "-1000000000.00000001" 8 = .ok (some (-100000000000000001)) := by
  decide +kernel

example : parseFixedPoint "0.00000001000000001" 8 = .ok none := by decide +kernel

/-! ## What a part of the parser returns -/

variable {α β σ τ : Type} {safe : Prop}

/-- `p` returns `r`; it does not panic as long as things are `safe`. -/
def Yields (safe : Prop) (p : Parse α) (r : Option α) : Prop :=
  p.run = .ok r ∨ ¬safe ∧ ∃ panic, p.run = .error panic

namespace Yields

variable {p : Parse α} {r : Option α} {f : α → Parse β} {s : Option β}

theorem pure {a : α} : Yields safe (pure a : Parse α) (some a) := .inl rfl

theorem failure : Yields safe (failure : Parse α) none := .inl rfl

theorem bind (h : Yields safe p r) (hsome : ∀ a, r = some a → Yields safe (f a) s)
    (hnone : r = none → s = none) : Yields safe (p >>= f) s := by
  rcases h with h | ⟨hsafe, panic, h⟩
  · cases r with
    | none =>
        rw [hnone rfl]
        exact .inl (by rw [OptionT.run_bind, h]; rfl)
    | some a =>
        have hrun : (p >>= f).run = (f a).run := by rw [OptionT.run_bind, h]; rfl
        unfold Yields
        rw [hrun]
        exact hsome a rfl
  · exact .inr ⟨hsafe, panic, by rw [OptionT.run_bind, h]; rfl⟩

theorem seq {a : α} (h : Yields safe p (some a)) (hf : Yields safe (f a) s) :
    Yields safe (p >>= f) s := by
  refine h.bind (fun a' ha => ?_) fun h => by cases h
  cases ha
  exact hf

/-- What holds of all that follows holds of the whole. -/
theorem bindEnds {P : Option β → Prop} (h : Yields safe p r)
    (hsome : ∀ a, r = some a → ∃ s, Yields safe (f a) s ∧ P s) (hnone : r = none → P none) :
    ∃ s, Yields safe (p >>= f) s ∧ P s := by
  cases r with
  | none => exact ⟨none, h.bind (fun a ha => by cases ha) fun _ => rfl, hnone rfl⟩
  | some a =>
      obtain ⟨s, hs, hP⟩ := hsome a rfl
      exact ⟨s, h.seq hs, hP⟩

theorem map (h : Yields safe p r) (g : α → β) :
    Yields safe (do let a ← p; Pure.pure (g a)) (r.map g) := by
  refine h.bind (fun a ha => ?_) fun hr => ?_
  · rw [ha]
    exact .pure
  · rw [hr]
    rfl

/-- Where all is safe, `r` is returned. -/
theorem run_eq (h : Yields True p r) : p.run = .ok r := h.resolve_right fun h => h.1 trivial

/-- What is returned at all is `r`. -/
theorem of_run (h : Yields safe p r) {r' : Option α} (hrun : p.run = .ok r') : r = r' := by
  rcases h with h | ⟨-, panic, h⟩
  · rw [hrun] at h
    exact (Except.ok.inj h).symm
  · rw [hrun] at h
    cases h

/-- `if b { return None }` where `b` holds. -/
theorem refuse {b : Prop} [Decidable b] {p : Parse α} (hb : b) :
    Yields safe (if b then Alternative.failure else p) none := by
  rw [if_pos hb]
  exact failure

/-- `if b { return None }` where `b` does not hold. -/
theorem accept {b : Prop} [Decidable b] (hb : ¬b) (h : Yields safe p r) :
    Yields safe (if b then Alternative.failure else p) r := by
  rwa [if_neg hb]

theorem checkedI64 {n : ℤ} (h : safe → -2 ^ 63 ≤ n ∧ n < 2 ^ 63) :
    Yields safe (checkedI64 n) (some n) := by
  unfold Parse.checkedI64
  split
  · exact .pure
  · rename_i hrange
    exact .inr ⟨fun hsafe => hrange (h hsafe), .overflow, rfl⟩

theorem toDigit {ch : Char} (h : ch.isDigit = true) :
    Yields safe (toDigit ch) (some (ch.toNat - '0'.toNat : ℕ)) := by
  rw [Parse.toDigit, if_pos h]
  exact .pure

theorem negateIf {sign : Bool} {n : ℤ} (h : |n| < 2 ^ 63) :
    Yields safe (negateIf sign n) (some ((if sign then -1 else 1) * n)) := by
  obtain ⟨hlo, hhi⟩ := abs_lt.mp h
  cases sign with
  | true =>
      rw [if_pos rfl, neg_one_mul]
      exact .checkedI64 fun _ => ⟨by omega, by omega⟩
  | false =>
      rw [if_neg (by simp), one_mul]
      exact .pure

end Yields

/-! ## The digit loops

Read mathematically, the digits seen so far take `t` to `f t ch`.  Of that a loop keeps `kept t`,
and returns early once there is nothing left to keep. -/

/-- `step` keeps of `f` what `kept` says; it is safe as long as `room` for more digits is left. -/
structure Keeps (step : σ → Char → Parse σ) (f : τ → Char → τ) (kept : τ → Option σ)
    (room : ℕ → τ → Prop) : Prop where
  yields : ∀ {safe : Prop} {j t ch x}, ch.isDigit = true → (safe → room (j + 1) t) →
    kept t = some x → Yields safe (step x ch) (kept (f t ch))
  lost : ∀ {t ch}, ch.isDigit = true → kept t = none → kept (f t ch) = none
  room : ∀ {j t ch}, ch.isDigit = true → room (j + 1) t → room j (f t ch)

section
variable {step : σ → Char → Parse σ} {f : τ → Char → τ} {kept : τ → Option σ} {room : ℕ → τ → Prop}
  {ds rest : List Char} {t : τ} {x : σ}

theorem Keeps.lost_all (h : Keeps step f kept room) (hds : ∀ ch ∈ ds, ch.isDigit = true)
    (ht : kept t = none) : kept (ds.foldl f t) = none := by
  induction ds generalizing t with
  | nil => exact ht
  | cons ch ds ih =>
      exact ih (fun ch' hch' => hds ch' (by simp [hch'])) (h.lost (hds ch (by simp)) ht)

theorem Keeps.digitLoop (h : Keeps step f kept room) (hds : ∀ ch ∈ ds, ch.isDigit = true)
    (hrest : Numeral.NoDigit rest) (hroom : safe → room ds.length t) (ht : kept t = some x) :
    Yields safe (digitLoop step (ds ++ rest) x) ((kept (ds.foldl f t)).map (·, rest)) := by
  induction ds generalizing t x with
  | nil =>
      rw [List.foldl_nil, ht]
      cases rest with
      | nil => exact .pure
      | cons ch rest =>
          have hch : ch.isDigit = false := hrest ch rfl
          simp only [List.nil_append, Zallet.digitLoop, hch]
          exact .pure
  | cons ch ds ih =>
      have hch : ch.isDigit = true := hds ch (by simp)
      have hds' : ∀ ch' ∈ ds, ch'.isDigit = true := fun ch' hch' => hds ch' (by simp [hch'])
      simp only [List.cons_append, Zallet.digitLoop, hch, if_true, List.foldl_cons]
      refine (h.yields hch hroom ht).bind (fun x' hx' => ih hds' (fun hsafe => h.room hch (hroom hsafe)) hx') fun hnone => ?_
      rw [h.lost_all hds' hnone]
      rfl

/-- The loop takes the digits at the front. -/
theorem Keeps.digitLoop_front (h : Keeps step f kept room) {val : List Char}
    (hroom : safe → room (val.takeWhile (·.isDigit)).length t) (ht : kept t = some x) :
    Yields safe (Zallet.digitLoop step val x)
      ((kept ((val.takeWhile (·.isDigit)).foldl f t)).map (·, val.dropWhile (·.isDigit))) := by
  have hrest : Numeral.NoDigit (val.dropWhile (·.isDigit)) := by
    intro ch hch
    have hhead := List.head?_dropWhile_not (·.isDigit) val
    rw [show (val.dropWhile (·.isDigit)).head? = some ch from hch] at hhead
    simpa using hhead
  have hyields := h.digitLoop (fun _ => List.mem_takeWhile_imp) hrest hroom ht
  rwa [List.takeWhile_append_dropWhile] at hyields

end

/-! ### The mantissa -/

/-- What is kept of the digits: nothing once they no longer fit. -/
def keptMantissa (s : Scaled) : Option Mantissa :=
  if s.significand < 10 ^ 18 then some ⟨s.significand, s.zeros⟩ else none

/-- The multiplications by ten end where the product leaves the range. -/
theorem timesTen_yields {refused : ℤ → Bool} {k : ℕ} {n : ℤ}
    (hrefused : ∀ j, refused (n * 10 ^ j) = true ↔ 10 ^ 17 ≤ |n * 10 ^ j|) (hn : |n| < 10 ^ 18) :
    Yields safe (timesTen refused k n) (if |n| * 10 ^ k < 10 ^ 18 then some (n * 10 ^ k) else none) := by
  induction k generalizing n with
  | zero =>
      rw [pow_zero, mul_one, mul_one, if_pos hn]
      exact .pure
  | succ k ih =>
      have hone : refused n = true ↔ 10 ^ 17 ≤ |n| := by simpa using hrefused 0
      have habs : |n * 10| = |n| * 10 := by rw [abs_mul]; rfl
      have hval : n * 10 ^ (k + 1) = n * 10 * 10 ^ k := by ring
      have hpow : |n| * 10 ^ (k + 1) = |n * 10| * 10 ^ k := by rw [habs]; ring
      unfold timesTen
      by_cases hbig : 10 ^ 17 ≤ |n|
      · have hlarge : ¬|n| * 10 ^ (k + 1) < 10 ^ 18 := by
          have hle : |n| * 10 * 1 ≤ |n| * 10 * 10 ^ k :=
            mul_le_mul_of_nonneg_left (one_le_pow₀ (by norm_num)) (by positivity)
          rw [hpow, habs]
          omega
        rw [if_neg hlarge]
        exact .refuse (hone.mpr hbig)
      · obtain ⟨hlo, hhi⟩ := abs_lt.mp (not_le.mp hbig)
        rw [hpow, hval]
        refine .accept (fun h => hbig (hone.mp h)) (.seq (.checkedI64 fun _ => ⟨by omega, by omega⟩) (ih ?_ ?_))
        · intro j
          have hj := hrefused (j + 1)
          rwa [show n * 10 ^ (j + 1) = n * 10 * 10 ^ j by ring] at hj
        · omega

/-- The multiplications that bring in a digit. -/
theorem timesTen_natCast {k n : ℕ} (hn : n < 10 ^ 18) :
    Yields safe (timesTen (fun n => upperBound / 10 < n) k n)
      (if n * 10 ^ k < 10 ^ 18 then some ((n * 10 ^ k : ℕ) : ℤ) else none) := by
  have habs : |(n : ℤ)| = n := abs_of_nonneg (Nat.cast_nonneg n)
  have hyields : Yields safe (timesTen (fun n => upperBound / 10 < n) k n) _ := timesTen_yields
    (fun j => by
      rw [abs_of_nonneg (by positivity), decide_eq_true_eq, upperBound]
      omega)
    (by rw [habs]; exact_mod_cast hn)
  rw [habs] at hyields
  exact_mod_cast hyields

theorem keptMantissa_eq_some {s : Scaled} {m : Mantissa} :
    keptMantissa s = some m ↔ s.significand < 10 ^ 18 ∧ m = ⟨s.significand, s.zeros⟩ := by
  unfold keptMantissa
  split_ifs with h
  · rw [Option.some.injEq, eq_comm, and_iff_right h]
  · exact iff_of_false (by simp) fun hm => h hm.1

theorem keptMantissa_eq_none {s : Scaled} : keptMantissa s = none ↔ 10 ^ 18 ≤ s.significand := by
  unfold keptMantissa
  split_ifs with h
  · exact iff_of_false (by simp) (not_le.mpr h)
  · exact iff_of_true rfl (not_lt.mp h)

theorem processMantissaDigit_keeps :
    Keeps processMantissaDigit Scaled.push keptMantissa fun j s => s.zeros + j ≤ 10 ^ 17 where
  yields := by
    intro safe j s ch m hch hroom hm
    obtain ⟨hfits, rfl⟩ := keptMantissa_eq_some.mp hm
    unfold processMantissaDigit Scaled.push
    by_cases hzero : ch = '0'
    · rw [if_pos hzero, if_pos hzero, keptMantissa, if_pos hfits]
      refine .seq (.checkedI64 fun hsafe => ?_) ?_
      · have hroom := hroom hsafe
        dsimp only
        omega
      · rw [← Nat.cast_succ]
        exact .pure
    · rw [if_neg hzero, if_neg hzero, keptMantissa]
      dsimp only
      have hdigit := (Numeral.digit_bounds hch).1
      have hcount : ((s.zeros : ℤ) + 1).toNat = s.zeros + 1 := by omega
      have hten : s.significand * 10 ^ (s.zeros + 1) = s.significand * 10 ^ s.zeros * 10 := by ring
      rw [hcount]
      by_cases hsmall : s.significand * 10 ^ (s.zeros + 1) < 10 ^ 18
      · have htimes : Yields safe (timesTen _ (s.zeros + 1) _) _ := timesTen_natCast hfits
        rw [if_pos hsmall] at htimes
        rw [if_pos (by omega)]
        refine htimes.seq (.seq (.toDigit hch) (.seq (.checkedI64 fun _ => ⟨by omega, by omega⟩) ?_))
        rw [← Nat.cast_add]
        exact .pure
      · have htimes : Yields safe (timesTen _ (s.zeros + 1) _) _ := timesTen_natCast hfits
        rw [if_neg hsmall] at htimes
        rw [if_neg (by omega)]
        exact htimes.bind (fun n hn => by cases hn) fun _ => rfl
  lost := by
    intro s ch _ hnone
    exact keptMantissa_eq_none.mpr (le_trans (keptMantissa_eq_none.mp hnone) Scaled.significand_le_push)
  room := by
    intro j s ch _ hroom
    have hzeros : (s.push ch).zeros ≤ s.zeros + 1 := by
      unfold Scaled.push
      split
      · exact le_refl _
      · exact Nat.zero_le _
    omega

/-- After the point the digits are counted as well. -/
theorem processFractionDigit_keeps :
    Keeps processFractionDigit (fun s ch => (s.1.push ch, s.2 + 1))
      (fun s : Scaled × ℕ => (keptMantissa s.1).map (·, (s.2 : ℤ)))
      fun j s => s.1.zeros + j ≤ 10 ^ 17 ∧ s.2 + j ≤ 10 ^ 17 where
  yields := by
    intro safe j s ch x hch hroom hx
    obtain ⟨m, hm, rfl⟩ := Option.map_eq_some_iff.mp hx
    refine (processMantissaDigit_keeps.yields hch (fun hsafe => (hroom hsafe).1) hm).bind
      (fun m' hm' => ?_) fun hnone => ?_
    · rw [hm']
      refine .seq (.checkedI64 fun hsafe => ?_) ?_
      · have hroom := (hroom hsafe).2
        dsimp only
        omega
      · rw [← Nat.cast_succ]
        exact .pure
    · rw [hnone]
      rfl
  lost := by
    intro s ch hch hnone
    rw [Option.map_eq_none_iff] at hnone ⊢
    exact processMantissaDigit_keeps.lost hch hnone
  room := by
    intro j s ch hch hroom
    exact ⟨processMantissaDigit_keeps.room hch hroom.1, by omega⟩

/-! ### The exponent -/

def keptExponent (n : ℕ) : Option ℤ := if n < 10 ^ 18 then some n else none

theorem processExponentDigit_keeps :
    Keeps processExponentDigit (fun n ch => 10 * n + (ch.toNat - '0'.toNat)) keptExponent
      fun _ _ => True where
  yields := by
    intro safe j n ch x hch _ hx
    unfold keptExponent at hx
    split at hx
    · cases hx
      have hdigit := (Numeral.digit_bounds hch).1
      unfold processExponentDigit keptExponent
      have hten : upperBound / 10 = 10 ^ 17 - 1 := rfl
      by_cases hbig : upperBound / 10 < (n : ℤ)
      · have hlarge : ¬10 * n + (ch.toNat - '0'.toNat) < 10 ^ 18 := by
          rw [hten] at hbig
          omega
        rw [if_neg hlarge]
        exact .refuse hbig
      · have hsmall : 10 * n + (ch.toNat - '0'.toNat) < 10 ^ 18 := by
          rw [hten] at hbig
          omega
        have hval : ((10 * n + (ch.toNat - '0'.toNat) : ℕ) : ℤ) =
            (n : ℤ) * 10 + (ch.toNat - '0'.toNat : ℕ) := by
          push_cast
          ring
        rw [if_pos hsmall, hval]
        refine .accept hbig (.seq (.checkedI64 fun _ => ⟨by omega, by omega⟩) (.seq (.toDigit hch) ?_))
        exact .checkedI64 fun _ => ⟨by omega, by omega⟩
    · cases hx
  lost := by
    intro n ch _ hnone
    unfold keptExponent at hnone ⊢
    split at hnone
    · cases hnone
    · exact if_neg (by omega)
  room := fun _ _ => trivial

end Zallet
