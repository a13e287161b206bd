/-
# `Zallet.Zebra.Cache` — clones of a view that share its cache

Every clone of a view walks the same cache, and the cache's mutex is free
between any two of their steps.  What the walks need is that the cache is a
hash-linked run of ancestors of the tip, without gaps, down from the tip
(`Linked`): then the lowest entry above a height is above nothing unknown, and
what a walk inserts is the parent of an entry that is there.  That last is what
each walk is held to, as a guard; the rest is `Prog.Rely`.

The cache's operations are answered by the cache (`cacheStep`); the header of a
block names its parent, when the request is answered at all; everything else
may be answered in any way.
-/
import Zallet.Data.SortedMap
import Zallet.Prog.Rely
import Zallet.Prog.Schedule
import Zallet.Zebra.View

namespace Zallet

open Prog

/-- The hashes resolved so far. -/
abbrev HashCache := SortedMap Nat BlockHash

section
variable (parentHash : BlockHash → BlockHash)

/-- How the cache answers, and what is known of the other answers. -/
def cacheStep (cache : HashCache) : (op : ReaderOp) → op.Ans → HashCache → Prop
  | .cacheGet height, r, cache' => r = cache.get? height ∧ cache' = cache
  | .cacheFrom height, r, cache' => r = cache.firstFrom height ∧ cache' = cache
  | .cacheInsert height hash, _, cache' => cache' = cache.insert height hash
  | .blockHeaderByHash hash, .ok (some header), cache' =>
      header.previousBlockHash = parentHash hash ∧ cache' = cache
  | _, _, cache' => cache' = cache

/-- The ancestor of a block at a height. -/
def ChainBlock.ancestor (block : ChainBlock) (height : Nat) : BlockHash :=
  parentHash^[block.height - height] block.hash

/-- A run of ancestors of the tip, from some height up to the tip's. -/
def Linked (tip : ChainBlock) (cache : HashCache) : Prop :=
  ∃ low ≤ tip.height, ∀ height, cache.get? height =
    if low ≤ height ∧ height ≤ tip.height then some (tip.ancestor parentHash height) else none

end

section
variable {parentHash : BlockHash → BlockHash} {tip : ChainBlock} {cache cache' : HashCache}

theorem ancestor_self : tip.ancestor parentHash tip.height = tip.hash := by
  rw [ChainBlock.ancestor, Nat.sub_self]
  rfl

theorem ancestor_parent {height : Nat} (h : height + 1 ≤ tip.height) :
    parentHash (tip.ancestor parentHash (height + 1)) = tip.ancestor parentHash height := by
  have hsteps : tip.height - height = (tip.height - (height + 1)) + 1 := by omega
  rw [ChainBlock.ancestor, ChainBlock.ancestor, hsteps, Function.iterate_succ_apply']

/-! ## The run -/

theorem Linked.get {height : Nat} {hash : BlockHash} (h : Linked parentHash tip cache)
    (hget : cache.get? height = some hash) :
    height ≤ tip.height ∧ hash = tip.ancestor parentHash height := by
  obtain ⟨low, -, hcache⟩ := h
  rw [hcache] at hget
  split at hget
  · rename_i hin
    exact ⟨hin.2, (Option.some.inj hget).symm⟩
  · cases hget

theorem Linked.tip_cached (h : Linked parentHash tip cache) :
    cache.get? tip.height = some tip.hash := by
  obtain ⟨low, hlow, hcache⟩ := h
  rw [hcache, if_pos ⟨hlow, le_refl _⟩, ancestor_self]

/-- The cache of a new view. -/
theorem linked_new : Linked parentHash tip (SortedMap.empty.insert tip.height tip.hash) := by
  refine ⟨tip.height, le_refl _, fun height => ?_⟩
  rw [SortedMap.get?_insert, SortedMap.get?_empty]
  by_cases heq : height = tip.height
  · subst heq
    rw [if_pos rfl, if_pos ⟨le_refl _, le_refl _⟩, ancestor_self]
  · rw [if_neg heq, if_neg fun hin => heq (le_antisymm hin.2 hin.1)]

/-- The parent of an entry is there already or becomes the lowest. -/
theorem Linked.insert_parent {height : Nat} {child : BlockHash} (h : Linked parentHash tip cache)
    (hchild : cache.get? (height + 1) = some child) :
    Linked parentHash tip (cache.insert height (parentHash child)) := by
  obtain ⟨hle, rfl⟩ := h.get hchild
  obtain ⟨low, hlow, hcache⟩ := h
  have hin : low ≤ height + 1 := by
    rw [hcache] at hchild
    split at hchild
    · rename_i hin
      exact hin.1
    · cases hchild
  refine ⟨min low height, by omega, fun height' => ?_⟩
  rw [SortedMap.get?_insert]
  split
  · rename_i heq
    subst heq
    rw [if_pos (by omega)]
    exact congrArg some (ancestor_parent hle)
  · rename_i hne
    rw [hcache]
    have hsame : (low ≤ height' ∧ height' ≤ tip.height) ↔
        (min low height ≤ height' ∧ height' ≤ tip.height) := by omega
    rw [if_congr hsame rfl rfl]

end

/-! ## The clones together -/

/-- What a clone may do to the cache: add the parent of an entry. -/
def CacheGuard (parentHash : BlockHash → BlockHash) (cache : HashCache) : ReaderOp → Prop
  | .cacheInsert height hash =>
      ∃ child, cache.get? (height + 1) = some child ∧ hash = parentHash child
  | _ => True

/-- The world of one view's clones. -/
def sharing (parentHash : BlockHash → BlockHash) : World readerSig HashCache where
  step := cacheStep parentHash
  guard := CacheGuard parentHash
  crash _ := False

/-- What the clones do to the cache between two steps of one of them: entries stay, and a run of
ancestors remains one. -/
def CacheMoves (parentHash : BlockHash → BlockHash) (tip : ChainBlock)
    (cache cache' : HashCache) : Prop :=
  Linked parentHash tip cache → Linked parentHash tip cache' ∧
    ∀ height hash, cache.get? height = some hash → cache'.get? height = some hash

section
variable {parentHash : BlockHash → BlockHash} {tip : ChainBlock} {cache cache' : HashCache}

/-- Only an insertion changes the cache. -/
theorem cacheStep_cases {op : ReaderOp} {a : op.Ans} (h : cacheStep parentHash cache op a cache') :
    (∃ height hash, op = .cacheInsert height hash ∧ cache' = cache.insert height hash) ∨
      cache' = cache := by
  cases op with
  | cacheInsert height hash => exact .inl ⟨height, hash, rfl, h⟩
  | cacheGet height => exact .inr h.2
  | cacheFrom height => exact .inr h.2
  | blockHeaderByHash hash =>
      rcases a with e | _ | header
      · exact .inr h
      · exact .inr h
      · exact .inr h.2
  | _ => exact .inr h

theorem CacheMoves.refl (cache : HashCache) : CacheMoves parentHash tip cache cache :=
  fun h => ⟨h, fun _ _ hget => hget⟩

theorem CacheMoves.step (cache : HashCache) (op : ReaderOp) (a : op.Ans) (cache' : HashCache)
    (hguard : CacheGuard parentHash cache op) (hstep : cacheStep parentHash cache op a cache') :
    CacheMoves parentHash tip cache cache' := by
  intro hlinked
  rcases cacheStep_cases hstep with ⟨height, hash, rfl, rfl⟩ | rfl
  · obtain ⟨child, hchild, rfl⟩ := hguard
    have hlinked' := hlinked.insert_parent hchild
    refine ⟨hlinked', fun height' hash' hget => ?_⟩
    rw [SortedMap.get?_insert]
    split
    · -- an entry inserted again is the same entry
      rename_i heq
      subst heq
      obtain ⟨-, rfl⟩ := hlinked.get hget
      exact congrArg some (hlinked'.get SortedMap.get?_insert_self).2
    · exact hget
  · exact ⟨hlinked, fun _ _ hget => hget⟩

theorem cacheMoves_rely : Rely (sharing parentHash) (CacheMoves parentHash tip) where
  refl := .refl
  trans _ _ _ h h' hlinked :=
    have ⟨hlinked', hstays⟩ := h hlinked
    have ⟨hlinked'', hstays'⟩ := h' hlinked'
    ⟨hlinked'', fun height hash hget => hstays' height hash (hstays height hash hget)⟩
  step := CacheMoves.step

/-- What a resolve finds above the finalized region. -/
def Resolves (parentHash : BlockHash → BlockHash) (view : ZebraChainView) (height : Nat)
    (r : Option BlockHash) : Prop :=
  view.finalizedFloor < height → ∀ hash, r = some hash →
    height ≤ view.tip.height ∧ hash = view.tip.ancestor parentHash height

/-- A step of one clone in a cache the others have moved. -/
theorem CacheMoves.shared_step {op : ReaderOp} {a : op.Ans} (h : Linked parentHash tip cache)
    (hop : ∀ height hash, op ≠ .cacheInsert height hash)
    (hstep : ((sharing parentHash).shared (CacheMoves parentHash tip)).step cache op a cache') :
    Linked parentHash tip cache' ∧ cacheStep parentHash cache' op a cache' ∧
      ∀ height hash, cache.get? height = some hash → cache'.get? height = some hash := by
  obtain ⟨cache₁, hmoves, hstep⟩ := hstep
  obtain ⟨hlinked, hstays⟩ := hmoves h
  rcases cacheStep_cases hstep with ⟨height, hash, rfl, -⟩ | rfl
  · exact absurd rfl (hop height hash)
  · exact ⟨hlinked, hstep, hstays⟩

/-- The walk is at an entry of the cache, at or above the height. -/
theorem walkDown_shared {height : Nat} {start : Nat × BlockHash} (hle : height ≤ start.1)
    (hlinked : Linked parentHash tip cache) (hstart : cache.get? start.1 = some start.2) :
    wp ((sharing parentHash).shared (CacheMoves parentHash tip))
      (ZebraChainView.walkDown height start)
      (fun _ hash => height ≤ tip.height ∧ hash = tip.ancestor parentHash height)
      (fun _ _ => True) cache := by
  refine wp_iterate (fun cur cache => height ≤ cur.1 ∧ Linked parentHash tip cache ∧
    cache.get? cur.1 = some cur.2) ⟨hle, hlinked, hstart⟩ ?_
  rintro ⟨curHeight, curHash⟩ cache₁ ⟨hle, hlinked, hcur⟩
  dsimp only at hle hcur ⊢
  split
  · rename_i hlt
    obtain ⟨below, rfl⟩ : ∃ below, curHeight = below + 1 := ⟨curHeight - 1, by omega⟩
    rw [wp_bind, ZebraChainView.parentOf, wp_query]
    refine ⟨fun _ _ => trivial, fun a cache₂ hstep => ?_⟩
    obtain ⟨hlinked₂, hanswer, hstays⟩ :=
      CacheMoves.shared_step hlinked (fun _ _ h => by cases h) hstep
    have hcur₂ := hstays _ _ hcur
    rcases a with e | _ | header
    · trivial
    · trivial
    · have hparent : header.previousBlockHash = parentHash curHash := hanswer.1
      show wp _ (_ >>= _) _ _ _
      rw [wp_bind]
      refine ⟨fun cache₃ hmoves => ⟨curHash, (hmoves hlinked₂).2 _ _ hcur₂, hparent⟩, ?_⟩
      rintro - cache₄ ⟨cache₃, hmoves, rfl⟩
      obtain ⟨hlinked₃, hstays₃⟩ := hmoves hlinked₂
      refine ⟨Nat.le_sub_one_of_lt hlt, ?_, SortedMap.get?_insert_self⟩
      rw [hparent]
      exact hlinked₃.insert_parent (hstays₃ _ _ hcur₂)
  · rename_i hnot
    have heq : curHeight = height := by omega
    subst heq
    exact hlinked.get hcur

theorem resolvePinned_shared {height : Nat} (hle : height ≤ tip.height)
    (hlinked : Linked parentHash tip cache) :
    wp ((sharing parentHash).shared (CacheMoves parentHash tip))
      (ZebraChainView.resolvePinned height)
      (fun _ hash => height ≤ tip.height ∧ hash = tip.ancestor parentHash height)
      (fun _ _ => True) cache := by
  rw [ZebraChainView.resolvePinned, wp_bind]
  refine ⟨fun _ _ => trivial, fun a cache₁ hstep => ?_⟩
  obtain ⟨hlinked₁, hanswer, -⟩ := CacheMoves.shared_step hlinked (fun _ _ h => by cases h) hstep
  cases a with
  | some hash => exact hlinked₁.get hanswer.1.symm
  | none =>
      show wp _ (_ >>= _) _ _ _
      rw [wp_bind]
      refine ⟨fun _ _ => trivial, fun a cache₂ hstep => ?_⟩
      obtain ⟨hlinked₂, hanswer, -⟩ :=
        CacheMoves.shared_step hlinked₁ (fun _ _ h => by cases h) hstep
      have hfirst : cache₂.firstFrom height = a := hanswer.1.symm
      cases a with
      | some start =>
          obtain ⟨hstart, hget⟩ := SortedMap.firstFrom_some hfirst
          exact walkDown_shared hstart hlinked₂ hget
      | none =>
          -- the tip is cached
          have hnone := SortedMap.firstFrom_none hfirst hle
          rw [hlinked₂.tip_cached] at hnone
          cases hnone

theorem resolve_shared {view : ZebraChainView} {height : Nat}
    (hlinked : Linked parentHash view.tip cache) :
    wp ((sharing parentHash).shared (CacheMoves parentHash view.tip)) (view.resolve height)
      (fun _ r => Resolves parentHash view height r) (fun _ _ => True) cache := by
  unfold ZebraChainView.resolve
  split
  · intro _ hash h
    cases h
  · rename_i hbelow
    split
    · rename_i hfloor
      rw [wp_query]
      refine ⟨fun _ _ => trivial, fun a cache' _ => ?_⟩
      cases a with
      | error e => trivial
      | ok r => exact fun hfloor' => absurd hfloor (Nat.not_le_of_lt hfloor')
    · rw [wp_bind]
      refine wp_mono ?_ (fun _ _ h => h) (resolvePinned_shared (Nat.le_of_not_lt hbelow) hlinked)
      rintro cache' hash hhash - _ ⟨⟩
      exact hhash

/-- A new view's cache holds its tip. -/
theorem zebraSnapshot_linked :
    wp (World.mk (cacheStep parentHash) (fun _ _ => True) fun _ => False) zebraSnapshot
      (fun cache view => Linked parentHash view.tip cache) (fun _ _ => True) SortedMap.empty := by
  rw [zebraSnapshot, wp_bind, wp_query]
  refine ⟨trivial, fun a cache hstep => ?_⟩
  obtain rfl : cache = SortedMap.empty := hstep
  rcases a with e | _ | tip
  · trivial
  · trivial
  · show wp _ (_ >>= _) _ _ _
    rw [wp_bind]
    refine ⟨trivial, ?_⟩
    rintro - cache' rfl
    exact linked_new

end

section
variable {parentHash : BlockHash → BlockHash} {view : ZebraChainView} {ι : Type} [DecidableEq ι]
  {heights : ι → Nat} {tr₀ : ReaderTrace} {cache₀ cache : HashCache} {tr : List (ι × ReaderEvent)}
  {qs : ι → Reads (Option BlockHash)}

/-- In any interleaving of resolves on a view's clones, the cache is a run of ancestors of the tip
and what was resolved is an ancestor. -/
theorem resolves_share_cache (hview : Run zebraSnapshot tr₀ (.ret view))
    (hnew : Path (cacheStep parentHash) SortedMap.empty tr₀ cache₀)
    (hi : Interleave (fun i => view.resolve (heights i)) tr qs)
    (hpath : Path (cacheStep parentHash) cache₀ (tr.map Prod.snd) cache) :
    Linked parentHash view.tip cache ∧
    ∀ i r, qs i = .ret r → Resolves parentHash view (heights i) r := by
  have hlinked : Linked parentHash view.tip cache₀ := zebraSnapshot_linked.sound hview hnew
  obtain ⟨hqs, hmoves⟩ := hi.rely cacheMoves_rely
    (Q := fun i _ r => Resolves parentHash view (heights i) r) (R := fun _ _ _ => True)
    (fun _ _ _ _ _ h => h) (fun _ _ _ _ _ h => h) (fun _ => resolve_shared hlinked) hpath
  refine ⟨(hmoves hlinked).1, fun i r hr => ?_⟩
  have hret := hqs i
  rw [hr] at hret
  exact hret

end

/-- A chain of a thousand and three blocks, each named by its height. -/
def numbered : Answer readerSig HashCache := fun cache op =>
  match op with
  | .tip => (.ok (some ⟨1002, ⟨1002⟩⟩), cache)
  | .blockHeaderByHash hash => (.ok (some ⟨hash.bytes, ⟨hash.bytes - 1⟩⟩), cache)
  | .cacheGet height => (cache.get? height, cache)
  | .cacheFrom height => (cache.firstFrom height, cache)
  | .cacheInsert height hash => ((), cache.insert height hash)
  | .bestChainBlockHash height => (.ok (some ⟨height⟩), cache)
  | .rawBlockByHash _ => (.ok none, cache)
  | .saplingTreeBytes _ | .orchardTreeBytes _ | .ironwoodTreeBytes _ => (.ok none, cache)
  | .findForkPoint _ => (.ok none, cache)
  | .transaction _ => (.ok none, cache)
  | .sideChainTransaction _ => (.ok none, cache)
  | .isUnspent _ => (.ok false, cache)
  | .spendingTransaction _ => (.ok none, cache)
  | .getRawMempool => (.ok [], cache)
  | .getRawTransaction _ => (.error "no such mempool transaction", cache)

theorem numbered_step (cache : HashCache) (op : ReaderOp) :
    cacheStep (fun hash => ⟨hash.bytes - 1⟩) cache op (numbered cache op).1
      (numbered cache op).2 := by
  cases op <;> first | rfl | exact ⟨rfl, rfl⟩

/-- Two clones: the second finds what the first has put there, and the first goes on. -/
def twoClones : List (Bool × ReaderEvent) × HashCache × (Bool → Reads (Option BlockHash)) :=
  schedule numbered [(false, 2), (true, 1), (false, 3), (true, 4), (false, 9)]
    (SortedMap.empty.insert 1002 ⟨1002⟩)
    fun clone => (ZebraChainView.capture ⟨1002, ⟨1002⟩⟩).resolve (if clone then 1001 else 1000)

theorem resolves_share_cache_clones :
    Linked (fun hash => ⟨hash.bytes - 1⟩) ⟨1002, ⟨1002⟩⟩ twoClones.2.1 ∧
    ∀ clone r, twoClones.2.2 clone = .ret r →
      Resolves (fun hash => ⟨hash.bytes - 1⟩) (.capture ⟨1002, ⟨1002⟩⟩)
        (if clone then 1001 else 1000) r :=
  resolves_share_cache (exec_ret (by rfl)) (exec_path id numbered_step 3 SortedMap.empty zebraSnapshot)
    (schedule_interleave _ _ _ _) (schedule_path numbered_step _ _ _)

example : (twoClones.2.1.entries, (twoClones.2.2 false).result?, (twoClones.2.2 true).result?) =
    ([(1000, ⟨1000⟩), (1001, ⟨1001⟩), (1002, ⟨1002⟩)], some (some ⟨1000⟩), some (some ⟨1001⟩)) := by
  decide +kernel

end Zallet
