/-
# `Zallet.Data.Fill` — what is left out comes from what follows

A partial assignment on an order is filled from above when an element without a
value of its own has that of the next one with any.  Over the elements in order
it is a search of those from there on (`IsFill.of_list`).  The elements that
have come to a value under a bound form a lower set, whatever the bound, exactly
when the values given are in order (`IsFill.isLowerSet_iff`).
-/
import Mathlib.Order.WellFounded

namespace Fill

variable {α β : Type} [LinearOrder α] {f g : α → Option β}

/-- `g` is `f` filled from above. -/
def IsFill (f g : α → Option β) : Prop :=
  ∀ a b, g a = some b ↔ ∃ a', a ≤ a' ∧ f a' = some b ∧ ∀ c, a ≤ c → c < a' → f c = none

/-- The values that there are do not decrease. -/
def InOrder [Preorder β] (f : α → Option β) : Prop :=
  ∀ ⦃a a' b b'⦄, a ≤ a' → f a = some b → f a' = some b' → b ≤ b'

/-- The elements with a value of at most `bound`. -/
def upTo [Preorder β] (g : α → Option β) (bound : β) : Set α := {a | ∃ b, g a = some b ∧ b ≤ bound}

namespace IsFill

theorem of_list {l : List α} (hl : l.Pairwise (· < ·)) (hmem : ∀ a, a ∈ l) :
    IsFill f fun a => (l.filter (a ≤ ·)).findSome? f := by
  intro a b
  have hsorted : (l.filter (a ≤ ·)).Pairwise (· < ·) := hl.filter _
  have hfrom : ∀ c, c ∈ l.filter (a ≤ ·) ↔ a ≤ c := by
    intro c
    rw [List.mem_filter, decide_eq_true_iff, and_iff_right (hmem c)]
  show (l.filter (a ≤ ·)).findSome? f = some b ↔ _
  rw [List.findSome?_eq_some_iff]
  constructor
  · rintro ⟨l₁, a', l₂, heq, hf, hnone⟩
    rw [heq] at hsorted hfrom
    obtain ⟨-, hafter, -⟩ := List.pairwise_append.mp hsorted
    refine ⟨a', (hfrom a').mp (by simp), hf, ?_⟩
    intro c hac hca'
    rcases List.mem_append.mp ((hfrom c).mpr hac) with hc | hc
    · exact hnone c hc
    · rcases List.mem_cons.mp hc with rfl | hc
      · exact absurd hca' (lt_irrefl c)
      · exact absurd hca' (lt_asymm ((List.pairwise_cons.mp hafter).1 c hc))
  · rintro ⟨a', hle, hf, hnone⟩
    obtain ⟨l₁, l₂, heq⟩ := List.append_of_mem ((hfrom a').mpr hle)
    refine ⟨l₁, a', l₂, heq, hf, ?_⟩
    intro c hc
    rw [heq] at hsorted hfrom
    obtain ⟨-, -, hbefore⟩ := List.pairwise_append.mp hsorted
    exact hnone c ((hfrom c).mp (List.mem_append_left _ hc)) (hbefore c hc a' (by simp))

/-- A value that was given stays. -/
theorem self (h : IsFill f g) {a : α} {b : β} (ha : f a = some b) : g a = some b :=
  (h a b).mpr ⟨a, le_refl a, ha, fun _ hac hca => absurd hca (not_lt_of_ge hac)⟩

/-- The next element with a value lies below any other. -/
theorem of_value [WellFoundedLT α] (h : IsFill f g) {a a' : α} {b' : β} (hle : a ≤ a')
    (ha' : f a' = some b') : ∃ c b, c ≤ a' ∧ f c = some b ∧ g a = some b := by
  obtain ⟨c, ⟨hac, hsome⟩, hmin⟩ := wellFounded_lt.has_min {c | a ≤ c ∧ (f c).isSome}
    ⟨a', hle, by rw [ha']; rfl⟩
  obtain ⟨b, hb⟩ := Option.isSome_iff_exists.mp hsome
  have hca' : c ≤ a' := not_lt.mp (hmin a' ⟨hle, by rw [ha']; rfl⟩)
  refine ⟨c, b, hca', hb, (h a b).mpr ⟨c, hac, hb, ?_⟩⟩
  intro d had hlt
  by_contra hvalue
  exact hmin d ⟨had, Option.ne_none_iff_isSome.mp hvalue⟩ hlt

theorem isLowerSet_iff [WellFoundedLT α] [Preorder β] (h : IsFill f g) :
    (∀ bound, IsLowerSet (upTo g bound)) ↔ InOrder f := by
  constructor
  · intro hlower a a' b b' hle ha ha'
    obtain ⟨b'', hb'', hbound⟩ := hlower b' hle ⟨b', h.self ha', le_refl b'⟩
    rw [h.self ha] at hb''
    exact Option.some.inj hb'' ▸ hbound
  · intro horder bound a' a hle ⟨b', hb', hbound⟩
    obtain ⟨a'', hle', ha'', -⟩ := (h a' b').mp hb'
    obtain ⟨c, b, hc, hfc, hga⟩ := h.of_value (hle.trans hle') ha''
    exact ⟨b, hga, (horder hc hfc ha'').trans hbound⟩

end IsFill

end Fill
