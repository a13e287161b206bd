/-
# `Zallet.Sync.Rewind` — how far a fork search rewinds

Two histories that part at some height: where does the wallet resume?

* From the locator, at less than twice the depth of the fork.  The sampled
  depths are the powers of two and a floor, and between a depth and its double
  there is a power of two (`sampled_near`, `locator_rewinds`).
* From the walk, at most one step below the fork.  It ends, and it gives up just
  when the two histories differ down to the birthday (`stepBack_resumes`).
-/
import Mathlib.Algebra.Group.Nat.Defs
import Mathlib.Data.List.MinMax
import Mathlib.Data.Nat.Log
import Zallet.Sync.ForkSearch
import Zallet.Prog.Total

namespace Zallet

variable {V : Type}

open Prog

/-- The wallet's record of the chain and the backend's best chain, by height. -/
structure Records where
  wallet : Nat → Option BlockHash
  chain : Nat → Option BlockHash

namespace Records

variable (R : Records)

/-- The wallet's block at `height` is on the best chain. -/
def Agrees (height : Nat) : Prop := ∃ hash, R.wallet height = some hash ∧ R.chain height = some hash

/-- The wallet has a block at every height from `low` to `high`. -/
def Contiguous (low high : Nat) : Prop :=
  ∀ height, low ≤ height → height ≤ high → ∃ hash, R.wallet height = some hash

/-- The wallet's blocks below a common block are common. -/
def ClosedBelow : Prop :=
  ∀ height below hash, R.Agrees height → below ≤ height → R.wallet below = some hash →
    R.chain below = some hash

/-- The answers of a wallet and a backend with these records. -/
def Tells : SyncEvent V → Prop
  | ⟨.getBlockHash height, r⟩ => r = .ok (R.wallet height)
  | ⟨.getBlockHeader _ height, r⟩ =>
      ∃ header, r = .ok header ∧ header.map (·.hash) = R.chain height
  | _ => True

/-- The wallet's block at a height, if it has one there. -/
def entry (height : Nat) : Option ChainBlock := (R.wallet height).map (⟨height, ·⟩)

/-- The entries of a locator: the wallet's blocks at the sampled heights, highest first. -/
def entries (tip : Nat) : List ChainBlock := (locatorBlockHeights tip).filterMap R.entry

/-- Of the wallet's blocks up to `tip`, the highest on the best chain is `depth` below. -/
def ForksAt (tip depth : Nat) : Prop :=
  R.Agrees (tip - depth) ∧ ∀ height ≤ tip, R.Agrees height → height ≤ tip - depth

/-- The highest of the locator's entries that is on the best chain. -/
structure Resumes (tip : Nat) (block : ChainBlock) : Prop where
  mem : block ∈ R.entries tip
  shared : R.chain block.height = some block.hash
  highest : ∀ other ∈ R.entries tip, R.chain other.height = some other.hash →
    other.height ≤ block.height

variable {R}

theorem entry_eq_some {height : Nat} {block : ChainBlock} :
    R.entry height = some block ↔ block.height = height ∧ R.wallet height = some block.hash := by
  rw [entry, Option.map_eq_some_iff]
  constructor
  · rintro ⟨hash, hhash, rfl⟩
    exact ⟨rfl, hhash⟩
  · rintro ⟨rfl, hhash⟩
    exact ⟨block.hash, hhash, rfl⟩

theorem mem_entries {tip : Nat} {block : ChainBlock} :
    block ∈ R.entries tip ↔
      block.height ∈ locatorBlockHeights tip ∧ R.wallet block.height = some block.hash := by
  rw [entries, List.mem_filterMap]
  constructor
  · rintro ⟨height, hmem, hentry⟩
    obtain ⟨rfl, hhash⟩ := entry_eq_some.mp hentry
    exact ⟨hmem, hhash⟩
  · rintro ⟨hmem, hhash⟩
    exact ⟨block.height, hmem, entry_eq_some.mpr ⟨rfl, hhash⟩⟩

end Records

open Records

/-! ## The sampled heights -/

/-- In a descending list, what is above the floor comes before it. -/
theorem mem_takeWhile_of_decreasing {floor height : Nat} {heights : List Nat}
    (hdec : heights.Pairwise (· > ·)) (hmem : height ∈ heights) (hfloor : floor < height) :
    height ∈ heights.takeWhile fun h => floor < h := by
  induction heights with
  | nil => cases hmem
  | cons first rest ih =>
      obtain ⟨hfirst, hrest⟩ := List.pairwise_cons.mp hdec
      have hkeep : floor < first := by
        rcases List.mem_cons.mp hmem with rfl | hmem
        · exact hfloor
        · exact hfloor.trans (hfirst height hmem)
      rw [List.takeWhile_cons_of_pos (by simpa using hkeep)]
      rcases List.mem_cons.mp hmem with rfl | hmem
      · exact List.mem_cons_self
      · exact List.mem_cons_of_mem _ (ih hrest hmem)

theorem locatorBlockHeights_head (tip : Nat) : (locatorBlockHeights tip).head? = some tip := by
  by_cases h : tip - maxLocatorDepth < tip
  · simp [locatorBlockHeights, h]
  · have hzero : tip = 0 := by
      unfold maxLocatorDepth at h
      omega
    subst hzero
    rfl

theorem locatorBlockHeights_last (tip : Nat) :
    (locatorBlockHeights tip).getLast? = some (tip - maxLocatorDepth) := by
  rw [locatorBlockHeights]
  exact List.getLast?_concat

theorem le_locatorBlockHeights {tip height : Nat} (h : height ∈ locatorBlockHeights tip) :
    tip - maxLocatorDepth ≤ height := by
  rcases List.mem_append.mp h with h | h
  · have hfloor := List.mem_takeWhile_imp h
    exact le_of_lt (of_decide_eq_true hfloor)
  · rw [List.mem_singleton.mp h]

theorem floor_mem (tip : Nat) : tip - maxLocatorDepth ∈ locatorBlockHeights tip :=
  List.mem_append_right _ (List.mem_singleton_self _)

/-- Above the floor, every power of two is a sampled depth. -/
theorem power_mem {tip k : Nat} (hk : k < 32) (h : tip - maxLocatorDepth + 2 ^ k < tip) :
    tip - 2 ^ k ∈ locatorBlockHeights tip := by
  have hstep : 2 ^ k ∈ locatorSteps := List.mem_map.mpr ⟨k, List.mem_range.mpr hk, rfl⟩
  have hsampled : tip - 2 ^ k ∈ locatorSteps.filterMap (checkedSub tip) :=
    List.mem_filterMap.mpr ⟨2 ^ k, hstep, checkedSub_eq_some.mpr ⟨by omega, rfl⟩⟩
  refine List.mem_append_left _ (mem_takeWhile_of_decreasing ?_ (List.mem_cons_of_mem _ hsampled) ?_)
  · exact steps_decreasing tip
  · omega

/-- A height at a depth from `d` to less than `2 * d` is sampled: the power of two there, or the
floor when that is above the power of two. -/
theorem sampled_near {tip d : Nat} (hd : 0 < d) (hmax : d ≤ min maxLocatorDepth tip) :
    ∃ height ∈ locatorBlockHeights tip, height ≤ tip - d ∧ tip < height + 2 * d := by
  have hpow : 2 ^ Nat.log 2 (2 * d - 1) ≤ 2 * d - 1 := Nat.pow_log_le_self 2 (by omega)
  have hnext : 2 * d - 1 < 2 * 2 ^ Nat.log 2 (2 * d - 1) := by
    have h := Nat.lt_pow_succ_log_self Nat.one_lt_two (2 * d - 1)
    rw [Nat.pow_succ] at h
    omega
  have hdepth : maxLocatorDepth = 1000 := rfl
  by_cases hfloor : tip - maxLocatorDepth + 2 ^ Nat.log 2 (2 * d - 1) < tip
  · have hlog : Nat.log 2 (2 * d - 1) < 32 := Nat.log_lt_of_lt_pow (by omega) (by omega)
    exact ⟨_, power_mem hlog hfloor, by omega, by omega⟩
  · exact ⟨_, floor_mem tip, by omega, by omega⟩

/-! ## The locator -/

section
variable (R : Records)

/-- Asked for a block of the wallet, the wallet answers with its record. -/
theorem Records.tells_hash (height : Nat) :
    R.Tells (⟨.getBlockHash height, .ok (R.wallet height)⟩ : SyncEvent V) := rfl

theorem sampleBlock_entry (blocks : List ChainBlock) (height : Nat) :
    Ensures R.Tells (fun r => r = .ok (blocks ++ (R.entry height).toList))
      (sampleBlock blocks height : Sync V _) := by
  refine .bind (.query ⟨_, R.tells_hash height⟩ ?_)
  intro a ha
  obtain rfl : a = .ok (R.wallet height) := ha
  cases hhash : R.wallet height with
  | none => exact .pure (by simp [Records.entry, hhash])
  | some hash => exact .pure (by simp [Records.entry, hhash])

/-- The locator of a wallet names its blocks at the sampled heights. -/
theorem buildBlockLocator_entries (tip : Nat) :
    Ensures R.Tells (fun r => r = .ok ⟨(R.entries tip).map (·.hash)⟩)
      (buildBlockLocator tip : Sync V _) := by
  refine .bind (.mono ?_ (Ensures.foldlM (sampleBlock_entry R)))
  intro r hr
  rw [hr, foldl_append_toList, List.nil_append]
  have hdec : ((R.entries tip).map (·.height)).Pairwise (· > ·) :=
    (locatorBlockHeights_decreasing tip).sublist (recorded_heights R.wallet _)
  show Ensures R.Tells _ (BlockLocator.fromBlocks (R.entries tip))
  rw [fromBlocks_eq hdec]
  exact .ret rfl

/-- Of the entries that are on the best chain, if there are any, one is the highest. -/
theorem exists_resumes {tip : Nat} {block : ChainBlock} (hmem : block ∈ R.entries tip)
    (hshared : R.chain block.height = some block.hash) :
    ∃ resumed, R.Resumes tip resumed ∧ block.height ≤ resumed.height := by
  let shared := (R.entries tip).filter fun b => R.chain b.height = some b.hash
  have hin : ∀ {b}, b ∈ shared ↔ b ∈ R.entries tip ∧ R.chain b.height = some b.hash := by
    intro b
    rw [List.mem_filter, decide_eq_true_eq]
  have hblock : block ∈ shared := hin.mpr ⟨hmem, hshared⟩
  cases hmax : shared.argmax (·.height) with
  | none =>
      rw [List.argmax_eq_none.mp hmax] at hblock
      cases hblock
  | some resumed =>
      obtain ⟨hentry, hchain⟩ := hin.mp (List.argmax_mem hmax)
      have hhighest : ∀ other ∈ shared, other.height ≤ resumed.height := fun other hother =>
        List.le_of_mem_argmax hother hmax
      exact ⟨resumed, ⟨hentry, hchain, fun other hother hother' =>
        hhighest other (hin.mpr ⟨hother, hother'⟩)⟩, hhighest block hblock⟩

/-- Below the fork the histories are one, so an entry sampled there is on the best chain. -/
theorem resumes_from {tip d height : Nat} (hhas : R.Contiguous (tip - maxLocatorDepth) tip)
    (hclosed : R.ClosedBelow) (hfork : R.ForksAt tip d) (hmem : height ∈ locatorBlockHeights tip)
    (hle : height ≤ tip - d) : ∃ block, R.Resumes tip block ∧ height ≤ block.height := by
  obtain ⟨hash, hwallet⟩ :=
    hhas height (le_locatorBlockHeights hmem) (locatorBlockHeights_le hmem)
  have hchain : R.chain height = some hash := hclosed (tip - d) height hash hfork.1 hle hwallet
  have hentry : ⟨height, hash⟩ ∈ R.entries tip := mem_entries.mpr ⟨hmem, hwallet⟩
  exact exists_resumes R hentry hchain

/-- Where the wallet resumes after a fork at depth `d`. -/
theorem resumes_near {tip d : Nat} (hhas : R.Contiguous (tip - maxLocatorDepth) tip)
    (hclosed : R.ClosedBelow) (hmax : d ≤ min maxLocatorDepth tip) (hfork : R.ForksAt tip d) :
    ∃ block, R.Resumes tip block ∧
      if d = 0 then block.height = tip else tip - block.height < 2 * d := by
  by_cases hd : d = 0
  · subst hd
    have htip : tip ∈ locatorBlockHeights tip := List.mem_of_head? (locatorBlockHeights_head tip)
    obtain ⟨block, hresumes, hle⟩ := resumes_from R hhas hclosed hfork htip (Nat.le_refl tip)
    have hge := locatorBlockHeights_le (mem_entries.mp hresumes.mem).1
    exact ⟨block, hresumes, Nat.le_antisymm hge hle⟩
  · obtain ⟨height, hmem, hbelow, hnear⟩ := sampled_near (Nat.pos_of_ne_zero hd) hmax
    obtain ⟨block, hresumes, hle⟩ := resumes_from R hhas hclosed hfork hmem hbelow
    refine ⟨block, hresumes, ?_⟩
    rw [if_neg hd]
    omega

end

/-- The locator of any wallet samples heights that strictly decrease from the tip to the floor, so
building it fails no assertion, whatever the wallet answers.  And a reorg of depth `d` within its
span never rewinds `2 * d` or more blocks. -/
theorem locator_rewinds (tip : Nat) :
    (locatorBlockHeights tip).Pairwise (· > ·) ∧
    (locatorBlockHeights tip).head? = some tip ∧
    (locatorBlockHeights tip).getLast? = some (tip - maxLocatorDepth) ∧
    (∀ (tr : SyncTrace V) (msg : String), ¬ Run (buildBlockLocator tip : Sync V _) tr (.crash msg)) ∧
    ∀ R : Records,
      Ensures R.Tells (fun r => r = .ok ⟨(R.entries tip).map (·.hash)⟩)
        (buildBlockLocator tip : Sync V _) ∧
      ∀ d ≤ min maxLocatorDepth tip,
        R.Contiguous (tip - maxLocatorDepth) tip → R.ClosedBelow → R.ForksAt tip d →
        ∃ block, R.Resumes tip block ∧
          if d = 0 then block.height = tip else tip - block.height < 2 * d := by
  refine ⟨locatorBlockHeights_decreasing tip, locatorBlockHeights_head tip,
    locatorBlockHeights_last tip, ?_, ?_⟩
  · intro tr msg hrun
    have hsafe := @buildBlockLocator_history V (fun _ => True) (fun _ => trivial) tip []
    exact hsafe.sound hrun (Path.recall fun _ _ => trivial)
  · intro R
    refine ⟨buildBlockLocator_entries R tip, ?_⟩
    intro d hmax hhas hclosed hfork
    exact resumes_near R hhas hclosed hmax hfork

/-- A wallet with a block at every height, and a best chain that left it above height 9. -/
def partedAtNine : Records where
  wallet height := some ⟨height⟩
  chain height := some ⟨if height ≤ 9 then height else height + 100⟩

theorem partedAtNine_agrees {height : Nat} : partedAtNine.Agrees height ↔ height ≤ 9 := by
  simp only [Agrees, partedAtNine, Option.some.injEq, exists_eq_left', BlockHash.mk.injEq]
  split <;> omega

theorem partedAtNine_closed : partedAtNine.ClosedBelow := by
  intro height below hash hagrees hle hwallet
  have hcommon := partedAtNine_agrees.mp hagrees
  obtain rfl : BlockHash.mk below = hash := Option.some.inj hwallet
  simp only [partedAtNine, if_pos (hle.trans hcommon)]

theorem partedAtNine_contiguous (low high : Nat) : partedAtNine.Contiguous low high :=
  fun height _ _ => ⟨⟨height⟩, rfl⟩

theorem locator_rewinds_partedAtNine :
    ∃ block, partedAtNine.Resumes 12 block ∧ 12 - block.height < 6 :=
  (@locator_rewinds Unit 12).2.2.2.2 partedAtNine |>.2 3 (by decide)
    (partedAtNine_contiguous _ _) partedAtNine_closed
    ⟨partedAtNine_agrees.mpr (by decide), fun _ _ h => partedAtNine_agrees.mp h⟩

/-! ## The walk -/

section
variable {R : Records} {view : V} {prevTip : ChainBlock} {birthday : Nat}

/-- What a walk from `prevTip` down to the birthday returns: a common block at most one step
below the highest common one, or the news that even the birthday's is not common. -/
structure WalkEnds (R : Records) (prevTip : ChainBlock) (birthday : Nat)
    (r : Except SyncError ChainBlock) : Prop where
  common : ∀ block, r = .ok block →
    R.wallet block.height = some block.hash ∧ R.chain block.height = some block.hash ∧
    birthday ≤ block.height ∧
    ∀ height ≤ prevTip.height, R.Agrees height → height ≤ block.height + forkSearchStep
  resumes : R.Agrees birthday → ∃ block, r = .ok block
  diverged : r = .error (.walletDivergedBelowBirthday birthday) ↔ ¬ R.Agrees birthday

/-- The walk is at `height`, above which nothing is common. -/
structure Walking (R : Records) (prevTip : ChainBlock) (birthday height : Nat) : Prop where
  from_birthday : birthday ≤ height
  below_tip : height ≤ prevTip.height
  parted : ∀ common ≤ prevTip.height, R.Agrees common → common ≤ height

theorem agrees_birthday (hhas : R.Contiguous birthday prevTip.height) (hclosed : R.ClosedBelow)
    {height : Nat} (hagrees : R.Agrees height) (hbirthday : birthday ≤ height)
    (htip : birthday ≤ prevTip.height) : R.Agrees birthday := by
  obtain ⟨hash, hwallet⟩ := hhas birthday (le_refl birthday) htip
  exact ⟨hash, hwallet, hclosed height birthday hash hagrees hbirthday hwallet⟩

/-- The next height is no lower than the birthday, and one step lower if it can be. -/
theorem rewindStep_bounds {height birthday : Nat} (h : birthday ≤ height) :
    birthday ≤ (rewindStep height birthday).1 ∧ (rewindStep height birthday).1 ≤ height ∧
    height ≤ (rewindStep height birthday).1 + forkSearchStep := by
  simp only [rewindStep]
  omega

/-- Where the wallet has a block that is not on the best chain, nothing at or above is common. -/
theorem parted_below (hhas : R.Contiguous birthday prevTip.height) (hclosed : R.ClosedBelow)
    {height : Nat} (hbirthday : birthday ≤ height) (htip : height ≤ prevTip.height)
    (hmiss : ¬ R.Agrees height) {common : Nat} (hcommon : R.Agrees common) : common < height := by
  by_contra hge
  obtain ⟨hash, hwallet⟩ := hhas height hbirthday htip
  exact hmiss ⟨hash, hwallet, hclosed common height hash hcommon (by omega) hwallet⟩

/-- A common block at the next height ends the walk. -/
theorem Walking.found {height : Nat} {hash : BlockHash}
    (hhas : R.Contiguous birthday prevTip.height) (hclosed : R.ClosedBelow)
    (h : Walking R prevTip birthday height)
    (hwallet : R.wallet (rewindStep height birthday).1 = some hash)
    (hchain : R.chain (rewindStep height birthday).1 = some hash) :
    WalkEnds R prevTip birthday (.ok ⟨(rewindStep height birthday).1, hash⟩) := by
  obtain ⟨hlow, hdown, hstep⟩ := rewindStep_bounds h.from_birthday
  have htip := h.below_tip
  have hbirthday : R.Agrees birthday :=
    agrees_birthday hhas hclosed ⟨hash, hwallet, hchain⟩ hlow (by omega)
  refine ⟨?_, fun _ => ⟨_, rfl⟩, ?_⟩
  · intro block hblock
    obtain rfl := Except.ok.inj hblock
    refine ⟨hwallet, hchain, hlow, ?_⟩
    intro common hcommon hagrees
    exact (h.parted common hcommon hagrees).trans hstep
  · constructor
    · intro herror
      cases herror
    · intro hmiss
      exact absurd hbirthday hmiss

/-- The next height holds no common block: either it is the birthday, or the walk goes on there. -/
theorem Walking.missed {height : Nat} (hhas : R.Contiguous birthday prevTip.height)
    (hclosed : R.ClosedBelow) (h : Walking R prevTip birthday height)
    (hmiss : ¬ R.Agrees (rewindStep height birthday).1) :
    Ensures R.Tells (Progress (Walking R prevTip birthday) id (WalkEnds R prevTip birthday) height)
      (probeMissed birthday (rewindStep height birthday) : Sync V _) := by
  obtain ⟨hlow, hdown, -⟩ := rewindStep_bounds h.from_birthday
  have htip := h.below_tip
  unfold probeMissed
  by_cases hlast : (rewindStep height birthday).2 = true
  · rw [if_pos hlast]
    rw [rewindStep_last hlast] at hmiss
    refine .fail ⟨?_, ?_, ?_⟩
    · intro block hblock
      cases hblock
    · intro hagrees
      exact absurd hagrees hmiss
    · exact ⟨fun _ => hmiss, fun _ => rfl⟩
  · rw [if_neg hlast]
    have hless := rewindStep_lt (Bool.eq_false_iff.mpr hlast)
    refine .pure ⟨⟨hlow, by omega, ?_⟩, hless⟩
    intro common _ hcommon
    exact le_of_lt (parted_below hhas hclosed hlow (by omega) hmiss hcommon)

/-- A header the backend may answer with. -/
theorem Records.tells_header (R : Records) (view : V) (height : Nat) :
    ∃ a, R.Tells (⟨.getBlockHeader view height, a⟩ : SyncEvent V) := by
  refine ⟨.ok ((R.chain height).map fun hash => ⟨hash, 0⟩), _, rfl, ?_⟩
  cases R.chain height with
  | none => rfl
  | some hash => rfl

/-- One turn of the walk. -/
theorem walk_turn (hhas : R.Contiguous birthday prevTip.height) (hclosed : R.ClosedBelow)
    {height : Nat} (h : Walking R prevTip birthday height) :
    Ensures R.Tells (Progress (Walking R prevTip birthday) id (WalkEnds R prevTip birthday) height)
      (do
        let next := rewindStep height birthday
        match ← dbCall (.getBlockHash next.1) id with
        | none => probeMissed birthday next
        | some wh => do
            let bestChainHash ← chainCall (.getBlockHeader view next.1) id
            if bestChainHash.map (·.hash) = some wh then pure (.inr ⟨next.1, wh⟩)
            else probeMissed birthday next : Sync V _) := by
  obtain ⟨hlow, hdown, -⟩ := rewindStep_bounds h.from_birthday
  obtain ⟨hash, hwallet⟩ := hhas _ hlow (hdown.trans h.below_tip)
  refine .bind (.query ⟨_, R.tells_hash _⟩ ?_)
  rintro _ rfl
  rw [hwallet]
  refine .bind (.query (R.tells_header view _) ?_)
  rintro _ ⟨header, rfl, hheader⟩
  show Ensures R.Tells _ (if header.map (·.hash) = some hash then _ else _)
  by_cases hsame : header.map (·.hash) = some hash
  · rw [if_pos hsame]
    exact .pure (h.found hhas hclosed hwallet (hheader.symm.trans hsame))
  · rw [if_neg hsame]
    refine h.missed hhas hclosed ?_
    rintro ⟨other, hother, hchain⟩
    obtain rfl : hash = other := Option.some.inj (hwallet.symm.trans hother)
    exact hsame (hheader.trans hchain)

end

/-- The walk comes to an end.  It finds a common block at most one step below the highest, and it
reports a divergence exactly when the block at the birthday is not common. -/
theorem stepBack_resumes {R : Records} {prevTip : ChainBlock} {birthday : Nat}
    (hbirthday : birthday ≤ prevTip.height) (hhas : R.Contiguous birthday prevTip.height)
    (hclosed : R.ClosedBelow) (view : V) :
    Ensures R.Tells (WalkEnds R prevTip birthday)
      (stepBackToBestChain view prevTip birthday fun height => dbCall (.getBlockHash height) id) := by
  refine .iterate (Walking R prevTip birthday) id ⟨hbirthday, le_refl _, ?_⟩ ?_
  · intro common hcommon _
    exact hcommon
  · intro height h
    exact walk_turn hhas hclosed h

theorem stepBack_resumes_partedAtNine :
    Ensures partedAtNine.Tells (WalkEnds partedAtNine ⟨25, ⟨25⟩⟩ 3)
      (stepBackToBestChain () ⟨25, ⟨25⟩⟩ 3 fun height => dbCall (.getBlockHash height) id) :=
  stepBack_resumes (by decide) (partedAtNine_contiguous _ _) partedAtNine_closed ()

end Zallet
