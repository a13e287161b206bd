/-
# `Zallet.Sync.Locator` — the wallet's block locator

`components/sync/locator.rs`: the heights the wallet samples of its own
history, exponentially spaced from the tip down to a floor, and the locator it
builds from the blocks it has there.
-/
import Zallet.Sync.Ops
import Mathlib.Data.List.TakeWhile

namespace Zallet

variable {V : Type}

open Prog

/-- The maximum depth below the tip that a locator spans. -/
def maxLocatorDepth : Nat := 1000

/-- `successors(Some(1u32), |step| step.checked_mul(2))`. -/
def locatorSteps : List Nat := (List.range 32).map (Nat.pow 2)

/-- `tip.checked_sub(step)`. -/
def checkedSub (tip step : Nat) : Option Nat := if step ≤ tip then some (tip - step) else none

theorem checkedSub_eq_some {tip step h : Nat} :
    checkedSub tip step = some h ↔ step ≤ tip ∧ tip - step = h := by
  simp [checkedSub]

/-- The heights to sample for a block locator, from `tip` down to `tip - maxLocatorDepth`. -/
def locatorBlockHeights (tip : Nat) : List Nat :=
  let min := tip - maxLocatorDepth
  let exponential := locatorSteps.filterMap (checkedSub tip)
  (tip :: exponential).takeWhile (fun height => min < height) ++ [min]

/-- One more block of a locator. -/
def BlockLocator.addBlock (acc : Option Nat × List BlockHash) (block : ChainBlock) :
    Sync V (Option Nat × List BlockHash) := do
  check (acc.1.all fun prev => block.height < prev) "block locator heights must strictly decrease"
  pure (some block.height, acc.2 ++ [block.hash])

/-- Builds a locator from the caller's known blocks, highest height first. -/
def BlockLocator.fromBlocks (blocks : List ChainBlock) : Sync V BlockLocator := do
  let acc ← blocks.foldlM BlockLocator.addBlock (none, [])
  pure ⟨acc.2⟩

/-- The wallet's block at a sampled height, skipped where it has no hash. -/
def sampleBlock (blocks : List ChainBlock) (height : Nat) : Sync V (List ChainBlock) := do
  match ← dbCall (.getBlockHash height) id with
  | some hash => pure (blocks ++ [⟨height, hash⟩])
  | none => pure blocks

/-- The wallet's blocks at the sampled heights. -/
def sampleBlocks (tip : Nat) : Sync V (List ChainBlock) :=
  (locatorBlockHeights tip).foldlM sampleBlock []

def buildBlockLocator (tip : Nat) : Sync V BlockLocator := do
  let blocks ← sampleBlocks tip
  BlockLocator.fromBlocks blocks

example : locatorBlockHeights 10 = [10, 9, 8, 6, 2, 0] := by decide

/-! ## The sampled heights strictly decrease -/

theorem locatorSteps_lt : locatorSteps.Pairwise (· < ·) := by decide

theorem locatorSteps_pos {step : Nat} (h : step ∈ locatorSteps) : 0 < step := by
  obtain ⟨i, -, rfl⟩ := List.mem_map.mp h
  exact Nat.two_pow_pos i

/-- The tip, and below it the tip less each power of two. -/
theorem steps_decreasing (tip : Nat) :
    (tip :: locatorSteps.filterMap (checkedSub tip)).Pairwise (· > ·) := by
  have hexp : (locatorSteps.filterMap (checkedSub tip)).Pairwise (· > ·) := by
    refine List.Pairwise.filterMap _ (fun a a' haa' b hb b' hb' => ?_) locatorSteps_lt
    have h := checkedSub_eq_some.mp hb
    have h' := checkedSub_eq_some.mp hb'
    show b' < b
    omega
  refine List.pairwise_cons.mpr ⟨fun b hb => ?_, hexp⟩
  obtain ⟨step, hstep, hb⟩ := List.mem_filterMap.mp hb
  have hpos := locatorSteps_pos hstep
  have h := checkedSub_eq_some.mp hb
  show b < tip
  omega

theorem locatorBlockHeights_decreasing (tip : Nat) :
    (locatorBlockHeights tip).Pairwise (· > ·) := by
  refine List.pairwise_append.mpr
    ⟨(steps_decreasing tip).sublist (List.takeWhile_sublist _), by simp, ?_⟩
  intro a ha b hb
  have hmin := List.mem_takeWhile_imp ha
  rw [List.mem_singleton.mp hb]
  simpa using hmin

theorem locatorBlockHeights_le {tip height : Nat} (h : height ∈ locatorBlockHeights tip) :
    height ≤ tip := by
  rcases List.mem_append.mp h with h | h
  · rcases List.mem_cons.mp ((List.takeWhile_sublist _).subset h) with rfl | h
    · exact le_refl _
    · obtain ⟨step, -, h⟩ := List.mem_filterMap.mp h
      have := checkedSub_eq_some.mp h
      omega
  · rw [List.mem_singleton.mp h]
    exact Nat.sub_le _ _

/-! ## The sampled blocks -/

/-- What a wallet has recorded at some heights is at those heights, in their order. -/
theorem recorded_heights (wallet : Nat → Option BlockHash) (heights : List Nat) :
    ((heights.filterMap fun height => (wallet height).map (ChainBlock.mk height)).map
      (·.height)).Sublist heights := by
  induction heights with
  | nil => exact .slnil
  | cons height heights ih =>
      cases hhash : wallet height with
      | none => simpa [hhash] using ih.cons height
      | some hash => simpa [hhash] using ih

/-- Appending what an option holds, one element after another, collects what they hold. -/
theorem foldl_append_toList {α β : Type} (f : α → Option β) (xs : List α) (acc : List β) :
    xs.foldl (fun acc x => acc ++ (f x).toList) acc = acc ++ xs.filterMap f := by
  induction xs generalizing acc with
  | nil => exact (List.append_nil acc).symm
  | cons x xs ih =>
      rw [List.foldl_cons, ih]
      cases hx : f x with
      | none => rw [List.filterMap_cons_none hx, Option.toList_none, List.append_nil]
      | some b =>
          rw [List.filterMap_cons_some hx, Option.toList_some, List.append_assoc]
          rfl

end Zallet
