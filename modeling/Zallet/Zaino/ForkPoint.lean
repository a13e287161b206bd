/-
# `Zallet.Zaino.ForkPoint` — where a wallet and a Zaino view part

`find_fork_point` is to name an entry of the locator.  Zaino's names the newest
ancestor, on the best chain, of the first entry that has one, which need not be
an entry.  It is a better answer all the same: no lower than the one asked for,
and still a block that the wallet and the chain have in common if the wallet's
blocks are those of one chain.  So whichever way the engine's fork search comes
to its answer, all of the wallet's blocks up to there are on the view's chain
(`fork_shared`).
-/
import Mathlib.Tactic.IntervalCases
import Zallet.Chain.History
import Zallet.Data.Ancestry
import Zallet.Prog.Outcome
import Zallet.Sync.ForkPoint
import Zallet.Zaino.Chain

namespace Zallet

open Ancestry Prog

/-! ## Blocks and chains -/

/-- What the hashes of blocks determine: each a parent and a height. -/
structure BlockTree where
  prev : BlockHash → Option BlockHash
  heightOf : BlockHash → Nat
  ranked : Ranked prev heightOf

/-- The block is on this chain. -/
def History.OnChain (c : History) (hash : BlockHash) : Prop := ∃ height, c.hashAt height = some hash

/-- A chain is a branch of the tree. -/
structure History.Grows (c : History) (t : BlockTree) : Prop where
  height : ∀ {height hash}, c.hashAt height = some hash → t.heightOf hash = height
  parent : ∀ {height hash}, c.hashAt (height + 1) = some hash → t.prev hash = c.hashAt height

/-- A wallet's blocks are those of one chain, some of them maybe missing. -/
structure OneChain (t : BlockTree) (wallet : Nat → Option BlockHash) : Prop where
  height : ∀ {height hash}, wallet height = some hash → t.heightOf hash = height
  linked : ∀ {height height' hash hash'}, height ≤ height' → wallet height = some hash →
    wallet height' = some hash' → Ancestor t.prev hash hash'

section
variable {t : BlockTree} {c : History} {wallet : Nat → Option BlockHash}

theorem History.Grows.branch (h : c.Grows t) : Branch t.prev c.OnChain := by
  rintro child parent hprev ⟨height, hchild⟩
  have hheight := h.height hchild
  have hrank := t.ranked hprev
  cases height with
  | zero => omega
  | succ height => exact ⟨height, (h.parent hchild).symm.trans hprev⟩

/-- What is on the chain is there at its own height. -/
theorem History.Grows.hashAt (h : c.Grows t) {hash : BlockHash} (hash_on : c.OnChain hash) :
    c.hashAt (t.heightOf hash) = some hash := by
  obtain ⟨height, hheight⟩ := hash_on
  rwa [h.height hheight]

/-! ## What the index says -/

/-- What is relied on of the index: it gives a block's newest ancestor on the best chain, and gives
none only for a block that is not there. -/
def ForksOf (t : BlockTree) (c : History) : ZainoEvent → Prop
  | ⟨.findForkPoint _ hash, .ok (some fork)⟩ =>
      c.hashAt fork.height = some fork.hash ∧ Newest t.prev c.OnChain hash fork.hash
  | ⟨.findForkPoint _ hash, .ok none⟩ => ¬ c.OnChain hash
  | _ => True

/-- A block that is read by its height is the chain's. -/
def HeadersOf (c : History) : IndexEvent → Prop
  | ⟨.getBlockRange _ start _, some (.ok raw :: _)⟩ =>
      ∀ header, raw.header = .ok header → c.hashAt start = some header.hash
  | _ => True

variable (t c) in
/-- A fork point that the index names of the first entry that has one. -/
def NamedBy (hashes : List BlockHash) (fork : ChainBlock) : Prop :=
  ∃ l entry r, hashes = l ++ entry :: r ∧ (∀ hash ∈ l, ¬ c.OnChain hash) ∧
    c.hashAt fork.height = some fork.hash ∧ Newest t.prev c.OnChain entry fork.hash

variable (t c) in
/-- The world of a view of `c`. -/
abbrev forking : World zainoSig (Trace zainoSig) :=
  .recall (ForksOf t c) (fun _ _ => True) fun _ => False

theorem wp_firstFork (view : ZainoChainView) (hashes : List BlockHash) (tr : Trace zainoSig) :
    wp (forking t c) (view.firstFork hashes)
      (fun _ r => Option.elim r (∀ hash ∈ hashes, ¬ c.OnChain hash) (NamedBy t c hashes))
      (fun _ _ => True) tr := by
  induction hashes generalizing tr with
  | nil => exact fun _ h => nomatch h
  | cons knownTip rest ih =>
      rw [ZainoChainView.firstFork, wp_bind, ZainoChainView.chainIndexCall, wp_query]
      refine ⟨trivial, fun a tr₁ hstep => ?_⟩
      obtain ⟨ha, -, -⟩ := World.recall_step hstep
      rcases a with e | _ | fork
      · trivial
      · have hnot : ¬ c.OnChain knownTip := ha
        refine wp_mono ?_ (fun _ _ h => h) (ih tr₁)
        intro _ r hr
        cases r with
        | none => exact List.forall_mem_cons.mpr ⟨hnot, hr⟩
        | some fork =>
            obtain ⟨l, entry, r, rfl, hl, hfork⟩ := hr
            exact ⟨knownTip :: l, entry, r, rfl, List.forall_mem_cons.mpr ⟨hnot, hl⟩, hfork⟩
      · obtain ⟨hon, hnewest⟩ := ha
        exact ⟨[], knownTip, rest, rfl, (fun _ h => nomatch h), hon, hnewest⟩

theorem findForkPoint_named {view : ZainoChainView} {locator : BlockLocator} {fork : ChainBlock}
    (h : Outcome (ForksOf t c) (view.findForkPoint locator) (.ok (some fork))) :
    NamedBy t c locator.hashes fork := by
  obtain ⟨_, hends⟩ := h.post (wp_firstFork (t := t) (c := c) view locator.hashes [])
  exact hends

theorem findForkPoint_none {view : ZainoChainView} {locator : BlockLocator}
    (h : Outcome (ForksOf t c) (view.findForkPoint locator) (.ok none)) :
    ∀ hash ∈ locator.hashes, ¬ c.OnChain hash := by
  obtain ⟨_, hends⟩ := h.post (wp_firstFork (t := t) (c := c) view locator.hashes [])
  exact hends

/-! ## What is in common -/

/-- The headers of the view are those of its chain. -/
theorem getBlockHeader_onChain {view : ZainoChainView} {height : Nat} {header : BlockHeader}
    (h : Outcome (HeadersOf c) (view.getBlockHeader height) (.ok (some header))) :
    c.hashAt height = some header.hash := by
  have hwp : wp (World.recall (HeadersOf c) (fun _ _ => True) fun _ => False)
      (view.getBlockHeader height)
      (fun _ r => ∀ header, r = some header → c.hashAt height = some header.hash)
      (fun _ _ => True) [] := by
    rw [ZainoChainView.getBlockHeader, ZainoChainView.getBlockInner, wp_query]
    refine ⟨trivial, fun a tr hstep => ?_⟩
    obtain ⟨ha, -, -⟩ := World.recall_step hstep
    rcases a with _ | _ | ⟨e | raw, rest⟩
    · exact fun _ h => nomatch h
    · exact fun _ h => nomatch h
    · trivial
    · cases hread : raw.header with
      | error e =>
          show Ends _ _ (((raw.header.mapError ChainError.backend)).map some)
          rw [hread]
          trivial
      | ok header =>
          show Ends _ _ (((raw.header.mapError ChainError.backend)).map some)
          rw [hread]
          rintro _ ⟨⟩
          exact ha header hread
  exact h.ends hwp header rfl

/-- The wallet and the chain have a block in common, and everything of the wallet's before it. -/
structure Shared (c : History) (wallet : Nat → Option BlockHash) (fork : ChainBlock) : Prop where
  onChain : c.hashAt fork.height = some fork.hash
  below : ∀ height ≤ fork.height, ∀ hash, wallet height = some hash → c.hashAt height = some hash

/-- What is before a block that is on the chain is on it too. -/
theorem OneChain.below (hone : OneChain t wallet) (hgrows : c.Grows t) {top : Nat} {hash : BlockHash}
    (htop : wallet top = some hash) (hon : c.hashAt top = some hash) :
    ∀ height ≤ top, ∀ hash, wallet height = some hash → c.hashAt height = some hash := by
  intro height hle hash' hhash'
  have hancestor := hone.linked hle hhash' htop
  exact hone.height hhash' ▸ hgrows.hashAt (hgrows.branch.ancestor hancestor ⟨top, hon⟩)

section
variable {hashes : List BlockHash} {fork : ChainBlock}

theorem NamedBy.shared {top : Nat} (h : NamedBy t c hashes fork) (hgrows : c.Grows t)
    (hone : OneChain t wallet)
    (hhashes : ∀ hash ∈ hashes, ∃ height ≤ top, wallet height = some hash) :
    fork.height ≤ top ∧ Shared c wallet fork := by
  obtain ⟨l, entry, r, rfl, -, hon, hnewest⟩ := h
  obtain ⟨height, htop, hentry⟩ := hhashes entry (by simp)
  have hfork : t.heightOf fork.hash = fork.height := hgrows.height hon
  have hheight : t.heightOf entry = height := hone.height hentry
  have hle : fork.height ≤ height := by
    have hrank := hnewest.ancestor.height_le t.ranked
    omega
  refine ⟨hle.trans htop, hon, ?_⟩
  intro height' hle' hash hhash
  have hancestor := hone.linked (hle'.trans hle) hhash hentry
  have hown : t.heightOf hash = height' := hone.height hhash
  have honChain := (hnewest.mem_iff_le hgrows.branch t.ranked hancestor).mpr (by omega)
  exact hown ▸ hgrows.hashAt honChain

/-- No entry that is on the chain is higher, where the entries are each other's ancestors. -/
theorem NamedBy.best (h : NamedBy t c hashes fork) (hgrows : c.Grows t)
    (hline : hashes.Pairwise fun a b => Ancestor t.prev b a) {hash : BlockHash}
    (hmem : hash ∈ hashes) (hash_on : c.OnChain hash) : t.heightOf hash ≤ fork.height := by
  obtain ⟨l, entry, r, rfl, hl, hon, hnewest⟩ := h
  have hancestor : Ancestor t.prev hash entry := by
    rcases List.mem_append.mp hmem with hbefore | hafter
    · exact absurd hash_on (hl hash hbefore)
    · rcases List.mem_cons.mp hafter with rfl | hafter
      · exact .refl hash
      · exact (List.pairwise_cons.mp (List.pairwise_append.mp hline).2.1).1 hash hafter
  have hle := (hnewest.newest hash hancestor hash_on).height_le t.ranked
  rwa [hgrows.height hon] at hle

end

/-! ## The fork search -/

variable (wallet) in
/-- What the wallet answers from its blocks and its birthday. -/
def FromWallet (birthday : Option Nat) : SyncEvent ZainoChainView → Prop
  | ⟨.getBlockHash height, .ok r⟩ => r = wallet height
  | ⟨.getWalletBirthday, .ok r⟩ => r = birthday
  | _ => True

variable (t c wallet) in
/-- The answers to a fork search. -/
def ZainoServed (birthday : Option Nat) (e : SyncEvent ZainoChainView) : Prop :=
  ZainoAnswer (HeadersOf c) (ForksOf t c) e ∧ FromWallet wallet birthday e

variable (t c wallet) in
abbrev searching (birthday : Option Nat) : World (syncSig ZainoChainView) (SyncTrace ZainoChainView) :=
  .recall (ZainoServed t c wallet birthday) (fun _ _ => True) fun _ => True

variable (wallet) in
/-- The wallet's blocks at the sampled heights. -/
def sampledHashes (tip : Nat) : List BlockHash := (locatorBlockHeights tip).filterMap wallet

variable (wallet) in
def sampledBlocks (heights : List Nat) : List ChainBlock :=
  heights.filterMap fun height => (wallet height).map (ChainBlock.mk height)

theorem sampledBlocks_heights (heights : List Nat) :
    ((sampledBlocks wallet heights).map (·.height)).Sublist heights :=
  recorded_heights wallet heights

theorem sampledBlocks_hashes (heights : List Nat) :
    (sampledBlocks wallet heights).map (·.hash) = heights.filterMap wallet := by
  rw [sampledBlocks, List.map_filterMap]
  congr 1
  funext height
  cases wallet height <;> rfl

theorem mem_sampledHashes {tip : Nat} {hash : BlockHash} (h : hash ∈ sampledHashes wallet tip) :
    ∃ height ≤ tip, wallet height = some hash := by
  obtain ⟨height, hmem, hhash⟩ := List.mem_filterMap.mp h
  exact ⟨height, locatorBlockHeights_le hmem, hhash⟩

theorem sampledHashes_line (hone : OneChain t wallet) (tip : Nat) :
    (sampledHashes wallet tip).Pairwise fun a b => Ancestor t.prev b a := by
  refine List.Pairwise.filterMap _ ?_ (locatorBlockHeights_decreasing tip)
  intro height height' hlt hash hhash hash' hhash'
  exact hone.linked (Nat.le_of_lt hlt) hhash' hhash

section
variable {birthday : Option Nat} {view : ZainoChainView} {prevTip : ChainBlock}
  {tr : SyncTrace ZainoChainView}

theorem wp_getBlockHash {height : Nat} {Q : SyncTrace ZainoChainView → Option BlockHash → Prop}
    (h : ∀ tr, Q tr (wallet height)) :
    wp (searching t c wallet birthday) (dbCall (.getBlockHash height) id) Q (fun _ _ => True) tr := by
  rw [wp_dbCall]
  refine ⟨trivial, fun a tr₁ hstep => ?_⟩
  obtain ⟨⟨-, ha⟩, -, -⟩ := World.recall_step hstep
  cases a with
  | error e => trivial
  | ok r =>
      obtain rfl : r = wallet height := ha
      exact h tr₁

theorem wp_buildBlockLocator {tip : Nat} :
    wp (searching t c wallet birthday) (buildBlockLocator tip)
      (fun _ locator => locator = ⟨sampledHashes wallet tip⟩) (fun _ _ => True) tr := by
  rw [buildBlockLocator, wp_bind]
  refine wp_mono (Q := fun _ blocks => blocks = sampledBlocks wallet (locatorBlockHeights tip)) ?_
    (fun _ _ h => h) ?_
  · rintro tr₁ _ rfl
    rw [fromBlocks_eq ((locatorBlockHeights_decreasing tip).sublist (sampledBlocks_heights _))]
    exact congrArg BlockLocator.mk (sampledBlocks_hashes _)
  · refine wp_foldlM (fun heights blocks _ => blocks = sampledBlocks wallet heights) rfl ?_
    rintro l height r _ tr₁ - rfl
    rw [sampleBlock, wp_bind]
    refine wp_getBlockHash fun tr₂ => ?_
    rw [sampledBlocks, sampledBlocks, List.filterMap_append]
    cases hw : wallet height with
    | none => simp [hw]
    | some hash => simp [hw]

theorem wp_walk (hone : OneChain t wallet) (hgrows : c.Grows t) :
    wp (searching t c wallet birthday)
      (stepBackToBestChain view prevTip (birthday.getD 0) fun height =>
        dbCall (.getBlockHash height) id)
      (fun _ fork => fork.height ≤ max prevTip.height (birthday.getD 0) ∧ Shared c wallet fork)
      (fun _ _ => True) tr := by
  refine wp_iterate (fun height _ => height ≤ max prevTip.height (birthday.getD 0))
    (Nat.le_max_left _ _) ?_
  intro height tr₁ hle
  have hnext : (rewindStep height (birthday.getD 0)).1 ≤ max prevTip.height (birthday.getD 0) := by
    simp only [rewindStep]
    omega
  have hmissed : ∀ tr, wp (searching t c wallet birthday)
      (probeMissed (birthday.getD 0) (rewindStep height (birthday.getD 0)))
      (fun _ => Sum.elim (fun z => z ≤ max prevTip.height (birthday.getD 0)) fun fork =>
        fork.height ≤ max prevTip.height (birthday.getD 0) ∧ Shared c wallet fork)
      (fun _ _ => True) tr := by
    intro tr
    rw [probeMissed]
    by_cases hlast : (rewindStep height (birthday.getD 0)).2 = true
    · rw [if_pos hlast]
      trivial
    · rw [if_neg hlast]
      exact hnext
  rw [wp_bind]
  refine wp_getBlockHash fun tr₂ => ?_
  cases hw : wallet (rewindStep height (birthday.getD 0)).1 with
  | none => exact hmissed tr₂
  | some wh =>
      refine wp_bind.mpr (wp_chainCall.mpr ⟨trivial, fun a tr₃ hstep => ?_⟩)
      obtain ⟨⟨ha, -⟩, -, -⟩ := World.recall_step hstep
      cases a with
      | error e => trivial
      | ok header =>
          rw [id, ends_ok]
          by_cases hhash : header.map (·.hash) = some wh
          · rw [if_pos hhash]
            obtain ⟨header, rfl, rfl⟩ := Option.map_eq_some_iff.mp hhash
            have hon := getBlockHeader_onChain ha
            exact ⟨hnext, hon, hone.below hgrows hw hon⟩
          · rw [if_neg hhash]
            exact hmissed tr₃

/-- What a fork search on a view of `c` comes to. -/
structure ForkEnd (c : History) (wallet : Nat → Option BlockHash) (birthday : Nat)
    (prevTip fork : ChainBlock) : Prop where
  /-- all the wallet has up to there is on the chain, unless it has nothing to compare -/
  shared : Shared c wallet fork ∨
    fork = prevTip ∧ ∀ height ∈ locatorBlockHeights prevTip.height, wallet height = none
  /-- no sampled block that is on the chain is higher -/
  best : ∀ height ∈ locatorBlockHeights prevTip.height, ∀ hash, wallet height = some hash →
    c.OnChain hash → height ≤ fork.height
  within : fork.height ≤ max prevTip.height birthday

theorem wp_locateForkPoint (hone : OneChain t wallet) (hgrows : c.Grows t) :
    wp (searching t c wallet birthday) (locateForkPoint view prevTip)
      (fun _ fork => ForkEnd c wallet (birthday.getD 0) prevTip fork) (fun _ _ => True) tr := by
  rw [locateForkPoint, wp_bind, wp_dbCall]
  refine ⟨trivial, fun a tr₁ hstep => ?_⟩
  obtain ⟨⟨-, hbirthday⟩, -, -⟩ := World.recall_step hstep
  cases a with
  | error e => trivial
  | ok told =>
  obtain rfl : told = birthday := hbirthday
  refine wp_bind.mpr (wp_mono ?_ (fun _ _ h => h) wp_buildBlockLocator)
  rintro tr₂ _ rfl
  refine wp_bind.mpr (wp_chainCall.mpr ⟨trivial, fun a tr₃ hstep => ?_⟩)
  obtain ⟨⟨ha, -⟩, -, -⟩ := World.recall_step hstep
  rcases a with e | _ | fork
  · trivial
  · have hnone : ∀ hash ∈ sampledHashes wallet prevTip.height, ¬ c.OnChain hash :=
      findForkPoint_none ha
    have hbest : ∀ fork : ChainBlock, ∀ height ∈ locatorBlockHeights prevTip.height, ∀ hash,
        wallet height = some hash → c.OnChain hash → height ≤ fork.height := by
      intro fork height hmem hash hhash hon
      exact absurd hon (hnone hash (List.mem_filterMap.mpr ⟨height, hmem, hhash⟩))
    rw [id, ends_ok]
    by_cases hnil : sampledHashes wallet prevTip.height = []
    · rw [if_pos hnil]
      refine ⟨.inr ⟨rfl, ?_⟩, hbest prevTip, Nat.le_max_left _ _⟩
      exact List.filterMap_eq_nil_iff.mp hnil
    · rw [if_neg hnil]
      refine wp_mono ?_ (fun _ _ h => h) (wp_walk hone hgrows)
      intro _ fork hwalked
      exact ⟨.inl hwalked.2, hbest fork, hwalked.1⟩
  · have hnamed := findForkPoint_named ha
    obtain ⟨hle, hshared⟩ := hnamed.shared hgrows hone fun _ => mem_sampledHashes
    refine ⟨.inl hshared, ?_, le_max_of_le_left hle⟩
    intro height hmem hash hhash hon
    have hbest := hnamed.best hgrows (sampledHashes_line hone _)
      (List.mem_filterMap.mpr ⟨height, hmem, hhash⟩) hon
    rwa [hone.height hhash] at hbest

/-- Whichever way a fork search on a view comes to its answer. -/
theorem fork_shared (hone : OneChain t wallet) (hgrows : c.Grows t) {fork : ChainBlock}
    (hrun : Run (locateForkPoint view prevTip) tr (.ret fork))
    (hserved : ∀ e ∈ tr, ZainoServed t c wallet birthday e) :
    ForkEnd c wallet (birthday.getD 0) prevTip fork := by
  have hwp : wp (searching t c wallet birthday) (locateForkPoint view prevTip)
      (fun _ fork => ForkEnd c wallet (birthday.getD 0) prevTip fork) (fun _ _ => True) [] :=
    wp_locateForkPoint hone hgrows
  exact hwp.sound hrun (Path.recall hserved)

end

end

/-! ### A fork that is not an entry -/

/-- Blocks 2 and 12 both have block 1 as their parent. -/
def siblings : BlockTree where
  prev hash :=
    if hash = ⟨2⟩ ∨ hash = ⟨12⟩ then some ⟨1⟩ else if hash = ⟨1⟩ then some ⟨0⟩ else none
  heightOf hash := if hash = ⟨2⟩ ∨ hash = ⟨12⟩ then 2 else if hash = ⟨1⟩ then 1 else 0
  ranked := by
    intro child parent h
    dsimp only at h ⊢
    by_cases hsibling : child = ⟨2⟩ ∨ child = ⟨12⟩
    · rw [if_pos hsibling] at h ⊢
      cases h
      rfl
    · rw [if_neg hsibling] at h ⊢
      by_cases hone : child = ⟨1⟩
      · rw [if_pos hone] at h ⊢
        cases h
        rfl
      · rw [if_neg hone] at h
        cases h

def bestOfSiblings : History where
  blocks := [⟨⟨0⟩, [], .empty, .empty, .empty⟩, ⟨⟨1⟩, [], .empty, .empty, .empty⟩,
    ⟨⟨2⟩, [], .empty, .empty, .empty⟩]
  nonempty := List.cons_ne_nil _ _

theorem bestOfSiblings_grows : bestOfSiblings.Grows siblings where
  height := by
    rintro (_ | _ | _ | height) hash h <;> cases h <;> rfl
  parent := by
    rintro (_ | _ | height) hash h <;> cases h <;> rfl

/-- A wallet that has the first block and, above a gap, the other sibling. -/
def otherSibling : Nat → Option BlockHash
  | 0 => some ⟨0⟩
  | 2 => some ⟨12⟩
  | _ => none

theorem ancestor_of_other {height : Nat} (h : height ≤ 1) :
    Ancestor siblings.prev ⟨height⟩ ⟨12⟩ := by
  have hparent : Ancestor siblings.prev ⟨1⟩ ⟨12⟩ := .single rfl
  interval_cases height
  · exact hparent.tail rfl
  · exact hparent

theorem otherSibling_oneChain : OneChain siblings otherSibling where
  height := by
    rintro (_ | _ | _ | height) hash h <;> cases h <;> rfl
  linked := by
    rintro (_ | _ | _ | height) (_ | _ | _ | height') hash hash' hle h h' <;> cases h <;> cases h'
    · exact .refl _
    · exact ancestor_of_other (Nat.zero_le 1)
    · exact absurd hle (by decide)
    · exact .refl _

theorem newest_of_other : Newest siblings.prev bestOfSiblings.OnChain ⟨12⟩ ⟨1⟩ where
  ancestor := ancestor_of_other (Nat.le_refl 1)
  mem := ⟨1, rfl⟩
  newest := by
    rintro hash hancestor ⟨_ | _ | _ | height, hon⟩ <;> cases hon
    · exact .single rfl
    · exact .refl _
    · have heq : (⟨2⟩ : BlockHash) = ⟨12⟩ := hancestor.eq_of_height siblings.ranked (by decide)
      cases heq

/-- A fork search from block 12: the wallet's birthday, its sampled blocks, and the index. -/
def searchTrace : SyncTrace ZainoChainView :=
  [⟨.getWalletBirthday, .ok (some 0)⟩, ⟨.getBlockHash 2, .ok (some ⟨12⟩)⟩,
    ⟨.getBlockHash 1, .ok none⟩, ⟨.getBlockHash 0, .ok (some ⟨0⟩)⟩,
    ⟨.findForkPoint ⟨⟨0⟩⟩ ⟨[⟨12⟩, ⟨0⟩]⟩, .ok (some ⟨1, ⟨1⟩⟩)⟩]

theorem searchTrace_run :
    Run (locateForkPoint (⟨⟨0⟩⟩ : ZainoChainView) ⟨2, ⟨12⟩⟩) searchTrace (.ret ⟨1, ⟨1⟩⟩) :=
  .call (.call (.call (.call (.call (.refl _)))))

theorem searchTrace_served :
    ∀ e ∈ searchTrace, ZainoServed siblings bestOfSiblings otherSibling (some 0) e := by
  have hindex : ForksOf siblings bestOfSiblings
      ⟨.findForkPoint ⟨0⟩ ⟨12⟩, .ok (some ⟨1, ⟨1⟩⟩)⟩ := ⟨rfl, newest_of_other⟩
  have hquery : Outcome (ForksOf siblings bestOfSiblings)
      (ZainoChainView.chainIndexCall (.findForkPoint ⟨0⟩ ⟨12⟩) id) (.ok (some ⟨1, ⟨1⟩⟩)) :=
    .query hindex rfl
  have hfork : Outcome (ForksOf siblings bestOfSiblings)
      (ZainoChainView.findForkPoint ⟨⟨0⟩⟩ ⟨[⟨12⟩, ⟨0⟩]⟩) (.ok (some ⟨1, ⟨1⟩⟩)) :=
    hquery.bind .pure
  simp only [searchTrace, List.forall_mem_cons]
  exact ⟨⟨trivial, rfl⟩, ⟨trivial, rfl⟩, ⟨trivial, rfl⟩, ⟨trivial, rfl⟩, ⟨hfork, trivial⟩,
    (fun _ h => nomatch h)⟩

/-- The best entry of the locator is block 0, and the search comes to block 1, which the wallet
does not have. -/
theorem fork_shared_above :
    bestOfSiblings.forkPoint ⟨[⟨12⟩, ⟨0⟩]⟩ = some ⟨0, ⟨0⟩⟩ ∧
      ForkEnd bestOfSiblings otherSibling 0 ⟨2, ⟨12⟩⟩ ⟨1, ⟨1⟩⟩ :=
  ⟨by decide, fork_shared otherSibling_oneChain bestOfSiblings_grows searchTrace_run
    searchTrace_served⟩

end Zallet
