/-
# `Zallet.Data.Text` — texts that are split and trimmed

A list is split at the first occurrence of an element (`splitOnce`), which is
how a name is told from a value where the value may hold the separator again:
the round trip is right as long as the name does not hold it.  `split_unique`
is the same told of two ways to write one list.  What is trimmed from a list is
what meets a predicate, at its end (`trimEnd`) or at both ends (`trim`).
-/
import Mathlib.Data.List.Basic
import Mathlib.Data.List.DropRight

namespace Text

section
variable {α : Type} [DecidableEq α] {c : α} {xs l r l' r' : List α}

/-- What stands before and after the first `c`. -/
def splitOnce (c : α) : List α → Option (List α × List α)
  | [] => none
  | x :: xs => if x = c then some ([], xs) else (splitOnce c xs).map (Prod.map (x :: ·) id)

theorem splitOnce_append (h : c ∉ l) : splitOnce c (l ++ c :: r) = some (l, r) := by
  induction l with
  | nil => exact if_pos rfl
  | cons x l ih =>
      obtain ⟨hne, hl⟩ := not_or.mp (fun hmem => h (List.mem_cons.mpr hmem))
      rw [List.cons_append, splitOnce, if_neg (Ne.symm hne), ih hl]
      rfl

theorem of_splitOnce (h : splitOnce c xs = some (l, r)) : xs = l ++ c :: r ∧ c ∉ l := by
  induction xs generalizing l with
  | nil => cases h
  | cons x xs ih =>
      rw [splitOnce] at h
      split at h
      case isTrue hx =>
        cases h
        exact ⟨hx ▸ rfl, List.not_mem_nil⟩
      case isFalse hx =>
        obtain ⟨⟨l', r'⟩, hrest, heq⟩ := Option.map_eq_some_iff.mp h
        cases heq
        obtain ⟨rfl, hl⟩ := ih hrest
        exact ⟨rfl, by rw [List.mem_cons]; exact not_or.mpr ⟨Ne.symm hx, hl⟩⟩

theorem splitOnce_eq_some : splitOnce c xs = some (l, r) ↔ xs = l ++ c :: r ∧ c ∉ l := by
  constructor
  · exact of_splitOnce
  · rintro ⟨rfl, h⟩
    exact splitOnce_append h

theorem splitOnce_eq_none : splitOnce c xs = none ↔ c ∉ xs := by
  constructor
  · intro h hmem
    obtain ⟨l, r, rfl, hl⟩ := List.eq_append_cons_of_mem hmem
    rw [splitOnce_append hl] at h
    cases h
  · intro h
    rw [Option.eq_none_iff_forall_not_mem]
    rintro ⟨l, r⟩ hsplit
    obtain ⟨rfl, -⟩ := of_splitOnce hsplit
    exact h (List.mem_append_right _ List.mem_cons_self)

/-- There is one way to write a list with nothing of `c` before the first `c`. -/
theorem split_unique (hl : c ∉ l) (hl' : c ∉ l') (h : l ++ c :: r = l' ++ c :: r') :
    l = l' ∧ r = r' := by
  have hsplit := splitOnce_append (r := r) hl
  rw [h, splitOnce_append hl'] at hsplit
  cases hsplit
  exact ⟨rfl, rfl⟩

end

/-! ## Trimming -/

section
variable {α : Type} {p : α → Bool} {xs ys : List α} {x : α}

def trimEnd (p : α → Bool) (xs : List α) : List α := xs.rdropWhile p

def trim (p : α → Bool) (xs : List α) : List α := (trimEnd p xs).dropWhile p

/-- The list does not begin with an element that is trimmed. -/
def CleanStart (p : α → Bool) (xs : List α) : Prop := ∀ x ∈ xs.head?, p x = false

def CleanEnd (p : α → Bool) (xs : List α) : Prop := ∀ x ∈ xs.getLast?, p x = false

theorem trimEnd_append_cons (h : p x = false) :
    trimEnd p (xs ++ x :: ys) = xs ++ x :: trimEnd p ys := by
  induction ys using List.reverseRecOn with
  | nil => exact List.rdropWhile_concat_neg _ _ _ (by simp [h])
  | append_singleton ys y ih =>
      rw [trimEnd, trimEnd, ← List.cons_append, ← List.append_assoc]
      by_cases hy : p y = true
      · rw [List.rdropWhile_concat_pos _ _ _ hy, List.rdropWhile_concat_pos _ _ _ hy]
        exact ih
      · rw [List.rdropWhile_concat_neg _ _ _ hy, List.rdropWhile_concat_neg _ _ _ hy]
        simp

theorem trimEnd_cleanEnd : CleanEnd p (trimEnd p xs) := by
  intro x hx
  have hne : trimEnd p xs ≠ [] := by
    intro h
    rw [h] at hx
    cases hx
  have hlast : (trimEnd p xs).getLast hne = x := by
    rw [Option.mem_def, List.getLast?_eq_some_getLast hne] at hx
    exact Option.some.inj hx
  exact hlast ▸ Bool.eq_false_iff.mpr (List.rdropWhile_last_not p xs hne)

theorem trimEnd_of_clean (h : CleanEnd p xs) : trimEnd p xs = xs := by
  refine List.rdropWhile_eq_self_iff.mpr ?_
  intro hne
  rw [h _ (List.getLast?_eq_some_getLast hne)]
  exact Bool.false_ne_true

theorem trim_cleanStart : CleanStart p (trim p xs) := by
  intro x hx
  have hfirst := List.head?_dropWhile_not p (trimEnd p xs)
  rw [show ((trimEnd p xs).dropWhile p).head? = some x from hx] at hfirst
  exact hfirst

theorem trim_cleanEnd : CleanEnd p (trim p xs) := by
  intro x hx
  have hsplit := List.takeWhile_append_dropWhile (p := p) (l := trimEnd p xs)
  have hclean : CleanEnd p (trimEnd p xs) := trimEnd_cleanEnd
  refine hclean x ?_
  rw [← hsplit, List.getLast?_append, show ((trimEnd p xs).dropWhile p).getLast? = some x from hx]
  rfl

theorem trim_of_clean (hstart : CleanStart p xs) (hend : CleanEnd p xs) : trim p xs = xs := by
  rw [trim, trimEnd_of_clean hend]
  cases xs with
  | nil => rfl
  | cons x xs => rw [List.dropWhile_cons_of_neg (by simp [hstart x rfl])]

theorem trim_sublist : (trim p xs).Sublist xs :=
  (List.dropWhile_suffix p).sublist.trans (List.rdropWhile_prefix p xs).sublist

end

/-! ## Strings -/

/-- The UTF-8 bytes of a text. -/
def utf8 (s : String) : List UInt8 := s.toUTF8.data.toList

def fromUtf8 (bytes : List UInt8) : Option String := String.fromUTF8? ⟨bytes.toArray⟩

/-- `str::split_once` -/
def splitString (c : Char) (s : String) : Option (String × String) :=
  (splitOnce c s.toList).map (Prod.map String.ofList String.ofList)

theorem fromUtf8_eq_some {bytes : List UInt8} {s : String} :
    fromUtf8 bytes = some s ↔ bytes = utf8 s := by
  rw [fromUtf8, String.fromUTF8?]
  constructor
  · intro h
    split at h
    · cases h
      simp [utf8, String.fromUTF8]
    · cases h
  · rintro rfl
    have hbytes : (⟨(utf8 s).toArray⟩ : ByteArray) = s.toByteArray := by simp [utf8]
    simp only [hbytes]
    rw [dif_pos s.isValidUTF8]
    rfl

theorem splitString_eq_some {c : Char} {s l r : String} :
    splitString c s = some (l, r) ↔ s.toList = l.toList ++ c :: r.toList ∧ c ∉ l.toList := by
  rw [splitString, Option.map_eq_some_iff]
  constructor
  · rintro ⟨⟨l', r'⟩, h, heq⟩
    cases heq
    simpa using splitOnce_eq_some.mp h
  · intro h
    exact ⟨(l.toList, r.toList), splitOnce_eq_some.mpr h, by simp⟩

theorem utf8_injective : Function.Injective utf8 := by
  intro s t h
  have hs := fromUtf8_eq_some.mpr (rfl : utf8 s = utf8 s)
  rw [h, fromUtf8_eq_some.mpr rfl] at hs
  exact (Option.some.inj hs).symm

end Text
