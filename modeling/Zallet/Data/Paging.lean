/-
# `Zallet.Data.Paging` — pages of rows whose order is not all determined

Rows are sorted by a key, and those of one key come in any order
(`Arranged`); each page of `k` rows is cut from an order of its own.  Where in
the order the rows of a key stand is determined, which of them stands where is
not.  So the pages together have every row as often as it is there, whatever
the orders, just when rows of one key that differ are on one page
(`pages_iff`).
-/
import Mathlib.Data.List.Perm.Basic
import Mathlib.Data.List.Sort

namespace Paging

variable {α β κ : Type} [LinearOrder κ]

/-- The rows, sorted by their keys. -/
def Arranged (key : α → κ) (rows l : List α) : Prop :=
  l.Perm rows ∧ l.Pairwise fun a b => key a ≤ key b

/-- One of the orders. -/
def sorted (key : α → κ) (rows : List α) : List α := rows.insertionSort fun a b => key a ≤ key b

/-- The rows from `i * k` on, `k` of them. -/
def page (k i : ℕ) (l : List α) : List α := (l.drop (i * k)).take k

/-- Rows of one key that `f` tells apart are on one page: the page of the first row of this key is
that of the last. -/
def Unsplit (key : α → κ) (f : α → β) (rows : List α) (k : ℕ) : Prop :=
  ∀ a ∈ rows, ∀ b ∈ rows, key a = key b → f a ≠ f b →
    (rows.filter (key · < key a)).length / k = ((rows.filter (key · ≤ key a)).length - 1) / k

instance [DecidableEq α] (key : α → κ) (rows l : List α) : Decidable (Arranged key rows l) :=
  inferInstanceAs (Decidable (l.Perm rows ∧ l.Pairwise fun a b => key a ≤ key b))

instance [DecidableEq β] (key : α → κ) (f : α → β) (rows : List α) (k : ℕ) :
    Decidable (Unsplit key f rows k) :=
  inferInstanceAs (Decidable (∀ a ∈ rows, ∀ b ∈ rows, key a = key b → f a ≠ f b →
    (rows.filter (key · < key a)).length / k = ((rows.filter (key · ≤ key a)).length - 1) / k))

section
variable {key : α → κ} {rows l l' : List α} {x : κ}

/-! ## The rows of one key -/

theorem sorted_split (h : l.Pairwise fun a b => key a ≤ key b) (x : κ) :
    l = l.filter (key · < x) ++ (l.filter (key · = x) ++ l.filter (x < key ·)) := by
  induction l with
  | nil => rfl
  | cons a l ih =>
      obtain ⟨ha, hl⟩ := List.pairwise_cons.mp h
      have hsplit := ih hl
      rcases lt_trichotomy (key a) x with hlt | heq | hgt
      · rw [List.filter_cons_of_pos (by simpa using hlt),
          List.filter_cons_of_neg (by simpa using hlt.ne),
          List.filter_cons_of_neg (by simpa using hlt.le), List.cons_append, ← hsplit]
      · have hnone : l.filter (key · < x) = [] := by
          refine List.filter_eq_nil_iff.mpr ?_
          intro b hb
          simpa using heq ▸ ha b hb
        rw [hnone, List.nil_append] at hsplit
        rw [List.filter_cons_of_neg (by simpa using heq.ge),
          List.filter_cons_of_pos (by simpa using heq),
          List.filter_cons_of_neg (by simpa using heq.le), hnone, List.nil_append,
          List.cons_append, ← hsplit]
      · have hnone : l.filter (key · < x) = [] := by
          refine List.filter_eq_nil_iff.mpr ?_
          intro b hb
          simpa using hgt.le.trans (ha b hb)
        have hnone' : l.filter (key · = x) = [] := by
          refine List.filter_eq_nil_iff.mpr ?_
          intro b hb
          simpa using (hgt.trans_le (ha b hb)).ne'
        rw [hnone, hnone', List.nil_append, List.nil_append] at hsplit
        rw [List.filter_cons_of_neg (by simpa using hgt.le),
          List.filter_cons_of_neg (by simpa using hgt.ne'),
          List.filter_cons_of_pos (by simpa using hgt), hnone, hnone', List.nil_append,
          List.nil_append, ← hsplit]

theorem Arranged.filter_perm (h : Arranged key rows l) (p : α → Bool) :
    (l.filter p).Perm (rows.filter p) := h.1.filter p

/-- What a page has of a key is a part of the rows of that key, and which part is determined. -/
theorem Arranged.page_filter (h : Arranged key rows l) (k i : ℕ) (x : κ) :
    (page k i l).filter (key · = x) =
      ((l.filter (key · = x)).drop (i * k - (rows.filter (key · < x)).length)).take
        (k - ((rows.filter (key · < x)).length - i * k)) := by
  have hlength := (h.filter_perm (key · < x)).length_eq
  have hbefore : ∀ a ∈ l.filter (key · < x), ¬ (decide (key a = x)) = true := by
    intro a ha
    have hlt : key a < x := by simpa using (List.mem_filter.mp ha).2
    simpa using hlt.ne
  have hafter : ∀ a ∈ l.filter (x < key ·), ¬ (decide (key a = x)) = true := by
    intro a ha
    have hlt : x < key a := by simpa using (List.mem_filter.mp ha).2
    simpa using hlt.ne'
  have hat : ∀ a ∈ l.filter (key · = x), decide (key a = x) = true := by
    intro a ha
    exact (List.mem_filter.mp ha).2
  have h₁ : ∀ m n, (((l.filter (key · < x)).drop m).take n).filter (key · = x) = [] := by
    intro m n
    refine List.filter_eq_nil_iff.mpr ?_
    intro a ha
    exact hbefore a (List.mem_of_mem_drop (List.mem_of_mem_take ha))
  have h₂ : ∀ m n, (((l.filter (key · = x)).drop m).take n).filter (key · = x) =
      ((l.filter (key · = x)).drop m).take n := by
    intro m n
    refine List.filter_eq_self.mpr ?_
    intro a ha
    exact hat a (List.mem_of_mem_drop (List.mem_of_mem_take ha))
  have h₃ : ∀ m n, (((l.filter (x < key ·)).drop m).take n).filter (key · = x) = [] := by
    intro m n
    refine List.filter_eq_nil_iff.mpr ?_
    intro a ha
    exact hafter a (List.mem_of_mem_drop (List.mem_of_mem_take ha))
  calc (page k i l).filter (key · = x)
      = (page k i (l.filter (key · < x) ++ (l.filter (key · = x) ++ l.filter (x < key ·)))).filter
          (key · = x) := by
        rw [← sorted_split h.2 x]
    _ = _ := by
        rw [page, List.drop_append, List.take_append, List.drop_append, List.take_append,
          List.filter_append, List.filter_append, h₁, h₂, h₃, List.nil_append, List.append_nil,
          List.length_drop, hlength]

/-- Lists that have the same of every key have the same. -/
theorem perm_of_classes (key : α → κ) {f : α → β}
    (h : ∀ x, ((l.filter (key · = x)).map f).Perm ((l'.filter (key · = x)).map f)) :
    (l.map f).Perm (l'.map f) := by
  classical
  have hcount : ∀ (m : List α) (x : κ) (y : β),
      (m.map fun a => (key a, f a)).count (x, y) = ((m.filter (key · = x)).map f).count y := by
    intro m x y
    induction m with
    | nil => rfl
    | cons a m ih =>
        by_cases hx : key a = x
        · simp [hx, List.count_cons, ih]
        · simp [hx, ih]
  have hpairs : (l.map fun a => (key a, f a)).Perm (l'.map fun a => (key a, f a)) := by
    refine List.perm_iff_count.mpr ?_
    rintro ⟨x, y⟩
    rw [hcount, hcount]
    exact (h x).count_eq y
  simpa [Function.comp_def] using hpairs.map Prod.snd

/-- Lists of one length are made the same, when `f` tells none of their rows apart. -/
theorem map_eq_of_alike {f : α → β} {m m' : List α} (h : ∀ a ∈ m, ∀ b ∈ m', f a = f b)
    (hlength : m.length = m'.length) : m.map f = m'.map f := by
  induction m generalizing m' with
  | nil => rw [List.eq_nil_of_length_eq_zero hlength.symm]
  | cons a m ih =>
      cases m' with
      | nil => cases hlength
      | cons b m' =>
          have hrest : m.map f = m'.map f := by
            refine ih ?_ (Nat.succ.inj hlength)
            intro c hc d hd
            exact h c (List.mem_cons_of_mem a hc) d (List.mem_cons_of_mem b hd)
          rw [List.map_cons, List.map_cons, hrest, h a List.mem_cons_self b List.mem_cons_self]

theorem length_le_key (key : α → κ) (rows : List α) (x : κ) :
    (rows.filter (key · ≤ x)).length =
      (rows.filter (key · < x)).length + (rows.filter (key · = x)).length := by
  induction rows with
  | nil => rfl
  | cons a rows ih =>
      rcases lt_trichotomy (key a) x with hlt | heq | hgt
      · simp [hlt, hlt.le, hlt.ne, ih]
        omega
      · simp [heq, ih]
        omega
      · simp [hgt.not_ge, hgt.le, hgt.ne', ih]

/-- The rows of one key may come in any order. -/
theorem Arranged.replace {same : List α} (h : Arranged key rows l)
    (hsame : (rows.filter (key · = x)).Perm same) :
    Arranged key rows (l.filter (key · < x) ++ (same ++ l.filter (x < key ·))) := by
  have hkeys : ∀ a ∈ same, key a = x := by
    intro a ha
    exact of_decide_eq_true (List.mem_filter.mp (hsame.mem_iff.mpr ha)).2
  constructor
  · have hperm : (l.filter (key · = x)).Perm same := (h.filter_perm _).trans hsame
    have hl := h.1
    rw [sorted_split h.2 x] at hl
    exact ((hperm.symm.append_right _).append_left _).trans hl
  · refine List.pairwise_append.mpr ⟨h.2.filter _, List.pairwise_append.mpr
      ⟨?_, h.2.filter _, ?_⟩, ?_⟩
    · refine List.pairwise_of_forall_mem_list ?_
      intro a ha b hb
      exact ((hkeys a ha).trans (hkeys b hb).symm).le
    · intro a ha b hb
      have hgt : x < key b := of_decide_eq_true (List.mem_filter.mp hb).2
      exact (hkeys a ha).trans_le hgt.le
    · intro a ha b hb
      have hlt : key a < x := of_decide_eq_true (List.mem_filter.mp ha).2
      rcases List.mem_append.mp hb with hb | hb
      · exact hlt.le.trans (hkeys b hb).ge
      · have hgt : x < key b := of_decide_eq_true (List.mem_filter.mp hb).2
        exact hlt.le.trans hgt.le

theorem arranged_sorted (key : α → κ) (rows : List α) : Arranged key rows (sorted key rows) := by
  have htotal : Std.Total fun a b => key a ≤ key b := ⟨fun a b => le_total (key a) (key b)⟩
  have htrans : IsTrans α fun a b => key a ≤ key b := ⟨fun _ _ _ => le_trans⟩
  exact ⟨List.perm_insertionSort _ rows, List.pairwise_insertionSort _ rows⟩

/-- Two rows that differ can be the first and the last. -/
theorem exists_ends {a b : α} (hne : b ≠ a) (ha : a ∈ l) (hb : b ∈ l) :
    ∃ mid, l.Perm (a :: (mid ++ [b])) := by
  classical
  have hrest : b ∈ l.erase a := (List.mem_erase_of_ne hne).mpr hb
  refine ⟨(l.erase a).erase b, (List.perm_cons_erase ha).trans (.cons a ?_)⟩
  exact (List.perm_cons_erase hrest).trans (List.perm_append_singleton b _).symm

theorem ends_perm (a b : α) (mid : List α) : (a :: (mid ++ [b])).Perm (b :: (mid ++ [a])) :=
  calc (a :: (mid ++ [b])).Perm (a :: b :: mid) := (List.perm_append_singleton b mid).cons a
    List.Perm _ (b :: a :: mid) := .swap b a mid
    List.Perm _ (b :: (mid ++ [a])) := (List.perm_append_singleton a mid).symm.cons b

/-! ## One page -/

/-- Of `size` rows after the first `s`, with the first and the last on one page, page `i` has none
or all. -/
theorem part_cases {k s size : ℕ} (hk : 0 < k) (hsize : 0 < size)
    (hpage : s / k = (s + size - 1) / k) (i : ℕ) :
    k - (s - i * k) = 0 ∨ (i * k - s = 0 ∧ size ≤ k - (s - i * k)) ∨ size ≤ i * k - s := by
  have hfirst := Nat.div_mul_le_self s k
  have hlast := Nat.lt_div_mul_add hk (a := s + size - 1)
  rw [← hpage] at hlast
  rcases lt_trichotomy i (s / k) with hlt | rfl | hgt
  · have hbefore : (i + 1) * k ≤ s / k * k := Nat.mul_le_mul_right k hlt
    rw [Nat.succ_mul] at hbefore
    exact .inl (by omega)
  · exact .inr (.inl (by omega))
  · have hafter : (s / k + 1) * k ≤ i * k := Nat.mul_le_mul_right k hgt
    rw [Nat.succ_mul] at hafter
    exact .inr (.inr (by omega))

/-- What `f` makes of a page is determined, when no page parts rows of one key. -/
theorem page_perm {f : α → β} {k : ℕ} (hk : 0 < k) (hunsplit : Unsplit key f rows k)
    (h : Arranged key rows l) (h' : Arranged key rows l') (i : ℕ) :
    ((page k i l).map f).Perm ((page k i l').map f) := by
  refine perm_of_classes key ?_
  intro x
  have hclass := h.filter_perm (key · = x)
  have hclass' := h'.filter_perm (key · = x)
  rw [h.page_filter, h'.page_filter]
  by_cases hx : ∀ a ∈ rows, ∀ b ∈ rows, key a = x → key b = x → f a = f b
  · -- The rows of the key are alike, and both pages have the same number of them.
    refine .of_eq (map_eq_of_alike ?_ ?_)
    · intro a ha b hb
      obtain ⟨ha, hka⟩ := List.mem_filter.mp (hclass.mem_iff.mp (List.mem_of_mem_drop
        (List.mem_of_mem_take ha)))
      obtain ⟨hb, hkb⟩ := List.mem_filter.mp (hclass'.mem_iff.mp (List.mem_of_mem_drop
        (List.mem_of_mem_take hb)))
      exact hx a ha b hb (of_decide_eq_true hka) (of_decide_eq_true hkb)
    · simp only [List.length_take, List.length_drop, hclass.length_eq, hclass'.length_eq]
  · push Not at hx
    obtain ⟨a, ha, b, hb, rfl, hkey, hne⟩ := hx
    have hpage := hunsplit a ha b hb hkey.symm hne
    have hsize : 0 < (rows.filter (key · = key a)).length :=
      List.length_pos_of_mem (List.mem_filter.mpr ⟨ha, decide_eq_true rfl⟩)
    rw [length_le_key] at hpage
    rcases part_cases hk hsize hpage i with hnone | ⟨hstart, hall⟩ | hpast
    · rw [hnone, List.take_zero, List.take_zero]
    · rw [hstart, List.drop_zero, List.drop_zero,
        List.take_of_length_le (hclass.length_eq.trans_le hall),
        List.take_of_length_le (hclass'.length_eq.trans_le hall)]
      exact (hclass.trans hclass'.symm).map f
    · rw [List.drop_eq_nil_of_le (hclass.length_eq.trans_le hpast),
        List.drop_eq_nil_of_le (hclass'.length_eq.trans_le hpast)]

/-- The page that has the first row of a key, but not the last. -/
theorem page_first {k i : ℕ} {before after mid : List α} (a b : α) (hfrom : i * k ≤ before.length)
    (hto : before.length < i * k + k) (hlast : i * k + k ≤ before.length + mid.length + 1) :
    page k i (before ++ ((a :: (mid ++ [b])) ++ after)) =
      before.drop (i * k) ++ a :: mid.take (k - (before.length - i * k) - 1) := by
  obtain ⟨m, hm⟩ : ∃ m, k - (before.length - i * k) = m + 1 :=
    ⟨k - (before.length - i * k) - 1, by omega⟩
  have hfew : m ≤ mid.length := by omega
  rw [page, List.drop_append_of_le_length hfrom, List.take_append, List.length_drop, hm,
    List.take_of_length_le (by rw [List.length_drop]; omega), List.cons_append, List.take_succ_cons,
    List.append_assoc, List.take_append_of_le_length hfew, Nat.add_sub_cancel]

/-- Rows that `f` tells apart are not on different pages, when every order of the rows gives the
same pages: they would change places. -/
theorem unsplit_of_page_perm {f : α → β} {k : ℕ} (hk : 0 < k)
    (h : ∀ l l', Arranged key rows l → Arranged key rows l' → ∀ i, i * k < rows.length →
      ((page k i l).map f).Perm ((page k i l').map f)) :
    Unsplit key f rows k := by
  intro a ha b hb hkey hne
  by_contra hpage
  have hl := arranged_sorted key rows
  have hab : b ≠ a := fun hba => hne (congrArg f hba.symm)
  obtain ⟨mid, hmid⟩ := exists_ends (l := rows.filter (key · = key a)) hab
    (List.mem_filter.mpr ⟨ha, decide_eq_true rfl⟩)
    (List.mem_filter.mpr ⟨hb, decide_eq_true hkey.symm⟩)
  have hsize := hmid.length_eq
  have hlength := length_le_key key rows (key a)
  have hrows : (rows.filter (key · ≤ key a)).length ≤ rows.length := List.length_filter_le _ _
  have hbefore : ((sorted key rows).filter (key · < key a)).length =
      (rows.filter (key · < key a)).length := (hl.filter_perm _).length_eq
  rw [List.length_cons, List.length_append, List.length_singleton] at hsize
  generalize (rows.filter (key · ≤ key a)).length = e at hpage hlength hrows
  generalize (rows.filter (key · < key a)).length = s at hpage hlength hbefore
  have hfirst := Nat.div_mul_le_self s k
  have hnext := Nat.lt_div_mul_add hk (a := s)
  have hlast : (s / k + 1) * k ≤ e - 1 := by
    have hlt : s / k < (e - 1) / k :=
      lt_of_le_of_ne (Nat.div_le_div_right (by omega)) hpage
    exact (Nat.le_div_iff_mul_le hk).mp hlt
  rw [Nat.succ_mul] at hlast
  have hswap := h _ _ (hl.replace hmid) (hl.replace (hmid.trans (ends_perm a b mid))) (s / k)
    (by omega)
  rw [page_first a b (by omega) (by omega) (by omega), page_first b a (by omega) (by omega)
    (by omega), List.map_append, List.map_append, List.map_cons, List.map_cons] at hswap
  have hends := (List.perm_append_left_iff _).mp hswap
  exact hne (List.singleton_perm_singleton.mp ((List.perm_append_right_iff _).mp hends))

/-! ## All the pages -/

theorem flatMap_page (k n : ℕ) (l : List α) :
    ((List.range n).flatMap fun i => page k i l) = l.take (n * k) := by
  induction n with
  | zero => rw [Nat.zero_mul, List.take_zero]; rfl
  | succ n ih =>
      rw [List.range_succ, List.flatMap_append, ih, List.flatMap_singleton, page, Nat.succ_mul,
        List.take_add]

/-- What the pages give does not depend on the order of each, when no page parts rows of a key. -/
theorem flatMap_page_perm {f : α → β} {k : ℕ} (hk : 0 < k) (hunsplit : Unsplit key f rows k)
    {order : ℕ → List α} (h : ∀ i, Arranged key rows (order i)) (hl : Arranged key rows l) (n : ℕ) :
    (((List.range n).flatMap fun i => page k i (order i)).map f).Perm ((l.take (n * k)).map f) := by
  rw [← flatMap_page, List.map_flatMap, List.map_flatMap]
  exact List.Perm.flatMap_left _ fun i _ => page_perm hk hunsplit (h i) hl i

/-- Where the pages have all the rows, whatever the order of each, a page does not depend on the
order: put one page in another order, and keep the others. -/
theorem page_perm_of_pages {f : α → β} {k n i : ℕ} (hi : i < n)
    (h : ∀ order : ℕ → List α, (∀ i, Arranged key rows (order i)) →
      (((List.range n).flatMap fun i => page k i (order i)).map f).Perm (rows.map f))
    (hl : Arranged key rows l) (hl' : Arranged key rows l') :
    ((page k i l).map f).Perm ((page k i l').map f) := by
  obtain ⟨front, back, hrange⟩ := List.append_of_mem (List.mem_range.mpr hi)
  have hnodup := List.nodup_range (n := n)
  rw [hrange] at hnodup
  have hothers : ∀ j ∈ front ++ back, j ≠ i := by
    intro j hj hji
    exact List.nodup_middle.mp hnodup |>.notMem (hji ▸ hj)
  let order (j : ℕ) := if j = i then l' else l
  have horder : ∀ j, Arranged key rows (order j) := by
    intro j
    dsimp only [order]
    split
    case isTrue => exact hl'
    case isFalse => exact hl
  have hkept : ∀ part : List ℕ, (∀ j ∈ part, j ≠ i) →
      (part.flatMap fun j => page k j (order j)) = part.flatMap fun j => page k j l := by
    intro part hpart
    refine List.flatMap_congr ?_
    intro j hj
    rw [show order j = l from if_neg (hpart j hj)]
  have hsame := (h (fun _ => l) fun _ => hl).trans (h order horder).symm
  rw [hrange, List.flatMap_append, List.flatMap_append, List.flatMap_cons, List.flatMap_cons,
    hkept front fun j hj => hothers j (List.mem_append_left back hj),
    hkept back fun j hj => hothers j (List.mem_append_right front hj),
    show order i = l' from if_pos rfl, List.map_append, List.map_append, List.map_append,
    List.map_append] at hsame
  exact (List.perm_append_right_iff _).mp ((List.perm_append_left_iff _).mp hsame)

/-- The pages have every row as often as it is there, whatever the order of each, just when they
reach all the rows and do not part those of one key. -/
theorem pages_iff (key : α → κ) (f : α → β) (rows : List α) {k : ℕ} (hk : 0 < k) (n : ℕ) :
    (∀ order : ℕ → List α, (∀ i, Arranged key rows (order i)) →
      (((List.range n).flatMap fun i => page k i (order i)).map f).Perm (rows.map f)) ↔
      rows.length ≤ n * k ∧ Unsplit key f rows k := by
  have hl := arranged_sorted key rows
  constructor
  · intro h
    have hlength : rows.length ≤ n * k := by
      have hall := (h (fun _ => sorted key rows) fun _ => hl).length_eq
      rw [flatMap_page, List.length_map, List.length_map, List.length_take, hl.1.length_eq] at hall
      omega
    refine ⟨hlength, unsplit_of_page_perm hk ?_⟩
    intro l l' hl hl' i hi
    exact page_perm_of_pages (Nat.lt_of_mul_lt_mul_right (hi.trans_le hlength)) h hl hl'
  · rintro ⟨hlength, hunsplit⟩ order horder
    refine (flatMap_page_perm hk hunsplit horder hl n).trans ?_
    rw [List.take_of_length_le (hl.1.length_eq.trans_le hlength)]
    exact hl.1.map f

/-- It is enough to tell rows apart. -/
theorem unsplit_iff_id {f : α → β} {k : ℕ} (h : ∀ a ∈ rows, ∀ b ∈ rows, f a = f b → a = b) :
    Unsplit key f rows k ↔ Unsplit key id rows k := by
  constructor
  · intro hunsplit a ha b hb hkey hne
    exact hunsplit a ha b hb hkey fun hab => hne (h a ha b hb hab)
  · intro hunsplit a ha b hb hkey hne
    exact hunsplit a ha b hb hkey fun hab => hne (congrArg f hab)

end

end Paging
