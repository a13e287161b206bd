/-
# `Zallet.Sync.Extent` — how much of a range a scan puts into the wallet

`scan_blocks` decides four times about one range: it clamps it to the
shutdown height, it skips it when the view has no tree state below its start,
it takes from the stream what the stream gives, and it reports the boundary
when it clamped.  The first three agree with the view's tip when the stream
does; the fourth does not look at the tip.  `scanBlocks_kept_iff` says when a
scan nevertheless keeps to what its result says.
-/
import Mathlib.Algebra.Order.Group.Nat
import Zallet.Sync.Traversal
import Zallet.Prog.Exec
import Zallet.Prog.Outcome

namespace Zallet

variable {V : Type}

open Prog

/-- What a pinned view has to serve: the height of its tip, and the blocks of each range. -/
structure Source where
  tip : Nat
  stream : Nat → Nat → List Block

/-- The answers of views that serve what `S` says, errors apart. -/
def Serves (S : V → Source) : SyncEvent V → Prop
  | ⟨.treeStateAsOf view height, .ok state⟩ => state.isSome ↔ height ≤ (S view).tip
  | ⟨.tryNext view (.range start stop) pos, .ok block⟩ =>
      block = ((S view).stream start stop)[pos]?
  | _ => True

/-- The heights an event puts into the wallet. -/
def heightsPut : SyncEvent V → List Nat
  | ⟨.putBlocks _ blocks, .ok _⟩ => blocks.map (·.height)
  | _ => []

/-- Where a scan of the range stops: at its end, or at the shutdown height before it. -/
def scanStop (scanRange : ScanRange) (shutdownHeight : Option Nat) : Nat :=
  shutdownHeight.elim scanRange.stop fun h => min h scanRange.stop

/-- The heights of the range below the shutdown height and up to the tip. -/
def reachable (tip : Nat) (scanRange : ScanRange) (shutdownHeight : Option Nat) : List Nat :=
  List.range' scanRange.start (min (scanStop scanRange shutdownHeight) (tip + 1) - scanRange.start)

/-- The heights put are all that can be, and a boundary is reported only if nothing of the range
is missing below it. -/
def ScanKept (tip : Nat) (scanRange : ScanRange) (shutdownHeight : Option Nat)
    (heights : List Nat) (flow : ControlFlow Nat Unit) : Prop :=
  heights = reachable tip scanRange shutdownHeight ∧
  ∀ boundary, flow = .brk boundary → boundary ≤ scanRange.start ∨
    ∀ height, scanRange.start ≤ height → height < boundary → height ∈ heights

/-- The stream of the range has the blocks of the heights that can be put. -/
def Source.StreamsAll (S : Source) (scanRange : ScanRange) (shutdownHeight : Option Nat) : Prop :=
  (S.stream scanRange.start (scanStop scanRange shutdownHeight)).map (·.claimedHeight) =
    reachable S.tip scanRange shutdownHeight

theorem mem_reachable {tip height : Nat} {scanRange : ScanRange} {shutdownHeight : Option Nat} :
    height ∈ reachable tip scanRange shutdownHeight ↔
      scanRange.start ≤ height ∧ height < scanStop scanRange shutdownHeight ∧ height ≤ tip := by
  rw [reachable, List.mem_range'_1]
  omega

/-! ## The clamp -/

section
variable {scanRange : ScanRange} {shutdownHeight boundary : Option Nat}

theorem clampToBoundary_eq :
    clampToBoundary scanRange.start scanRange.stop shutdownHeight =
      if scanStop scanRange shutdownHeight ≤ scanRange.start then
        .brk (scanStop scanRange shutdownHeight)
      else if scanStop scanRange shutdownHeight < scanRange.stop then
        .cont (some (scanStop scanRange shutdownHeight))
      else .cont none := rfl

theorem scanStop_le : scanStop scanRange shutdownHeight ≤ scanRange.stop := by
  cases shutdownHeight with
  | none => exact Nat.le_refl scanRange.stop
  | some h => exact Nat.min_le_right h scanRange.stop

/-- A range that is scanned is scanned up to `scanStop`, which is the boundary if there is one. -/
theorem clampToBoundary_stop
    (h : clampToBoundary scanRange.start scanRange.stop shutdownHeight = .cont boundary) :
    scanRange.start < scanStop scanRange shutdownHeight ∧
    boundary.getD scanRange.stop = scanStop scanRange shutdownHeight ∧
    boundary = if scanStop scanRange shutdownHeight < scanRange.stop then
      some (scanStop scanRange shutdownHeight) else none := by
  rw [clampToBoundary_eq] at h
  by_cases hstart : scanStop scanRange shutdownHeight ≤ scanRange.start
  · rw [if_pos hstart] at h
    cases h
  · rw [if_neg hstart] at h
    by_cases hstop : scanStop scanRange shutdownHeight < scanRange.stop
    · rw [if_pos hstop] at h
      cases h
      exact ⟨Nat.lt_of_not_le hstart, rfl, (if_pos hstop).symm⟩
    · rw [if_neg hstop] at h
      cases h
      have hle := @scanStop_le scanRange shutdownHeight
      exact ⟨Nat.lt_of_not_le hstart, show scanRange.stop = _ by omega, (if_neg hstop).symm⟩

end

/-! ## What a scan puts -/

/-- The world of views that serve what `S` says; it collects the heights put into the wallet. -/
abbrev servingWorld (S : V → Source) : World (syncSig V) (List Nat) := .collect (Serves S) heightsPut

theorem Quiet.heightsPut {op : Op V} (h : Quiet op) (a : op.Ans) : heightsPut ⟨op, a⟩ = [] := by
  cases op <;> first | exact h.elim | rfl

section
variable {S : V → Source} {view : V} {heights : List Nat}

theorem quiet_puts {α : Type} {p : Sync V α} (hp : Safe (World.history Quiet) p) :
    wp (servingWorld S) p (fun t _ => t = heights) (fun t _ => t = heights) heights :=
  hp.collects_nothing (fun _ a h => h.heightsPut a) heights

theorem history_allows_quiet : AllowsQuiet (World.history (Quiet (V := V))) := fun _ _ h => h

theorem queueBlocks_streamed {start stop : Nat} :
    wp (servingWorld S) (queueBlocks view start stop)
      (fun t batch => t = heights ∧ batch = (S view).stream start stop) (fun _ _ => True) heights := by
  refine wp_iterate (fun x t => t = heights ∧ x.2 = ((S view).stream start stop).take x.1)
    ⟨rfl, List.take_zero.symm⟩ ?_
  rintro ⟨pos, batch⟩ t ⟨rfl, hbatch : batch = _⟩
  simp only [wp_bind, wp_chainCall]
  refine ⟨trivial, ?_⟩
  rintro (e | block) t' ⟨hserves, ht⟩
  · trivial
  · have hnext : block = ((S view).stream start stop)[pos]? := hserves
    obtain rfl : t' = t := ht.trans (List.append_nil t)
    cases block with
    | none =>
        have hend := List.getElem?_eq_none_iff.mp hnext.symm
        exact ⟨rfl, hbatch.trans (List.take_of_length_le hend)⟩
    | some block =>
        refine wp_bind_still (quiet_puts (queueBlock_safe history_allows_quiet)) (fun _ => ?_)
          fun _ => trivial
        refine ⟨rfl, ?_⟩
        show batch ++ [block] = ((S view).stream start stop).take (pos + 1)
        rw [List.take_add_one, ← hnext, hbatch]
        rfl

theorem fullScanBlock_height {height : Nat} {header : BlockHeader} {prior : BlockMetadata} :
    wp (servingWorld S) (fullScanBlock height header prior)
      (fun t scanned => t = heights ∧ scanned.height = height) (fun _ _ => True) heights := by
  rw [fullScanBlock, wp_query]
  refine ⟨trivial, ?_⟩
  rintro (e | ⟨sapling, orchard, ironwood⟩) t ⟨-, rfl⟩
  · trivial
  · exact ⟨List.append_nil heights, rfl⟩

theorem scanBatch_scanned {fromState : ChainState} {batch : List Block} :
    wp (servingWorld S) (scanBatch fromState batch)
      (fun t scanned => t = heights ∧ scanned.map (·.height) = batch.map (·.claimedHeight))
      (fun _ _ => True) heights := by
  rw [scanBatch, wp_bind]
  refine wp_foldlM (fun done (x : BlockMetadata × List ScannedBlock) t =>
    t = heights ∧ x.2.map (·.height) = done.map Block.claimedHeight) ⟨rfl, rfl⟩ ?_
  rintro done block rest ⟨prior, scanned⟩ t - ⟨rfl, hscanned⟩
  refine wp_bind_still (quiet_puts (awaitDecrypted_safe history_allows_quiet)) (fun _ => ?_)
    fun _ => trivial
  refine wp_bind.mpr (wp_mono ?_ (fun _ _ h => h) fullScanBlock_height)
  rintro t' b ⟨rfl, hb⟩
  refine ⟨rfl, ?_⟩
  rw [List.map_append, List.map_append, hscanned, List.map_singleton, hb]
  rfl

/-- What a scan puts and returns: nothing when the range starts above the tip, and else the blocks
of the stream. -/
structure Scanned (S : Source) (scanRange : ScanRange) (shutdownHeight boundary : Option Nat)
    (heights : List Nat) (flow : ControlFlow Nat Unit) : Prop where
  within : scanRange.start ≤ S.tip + 1 →
    heights = (S.stream scanRange.start (scanStop scanRange shutdownHeight)).map
      (·.claimedHeight) ∧ flow = boundary.elim (.cont ()) .brk
  above : S.tip + 1 < scanRange.start → heights = [] ∧ flow = .cont ()

theorem scanBlocks_puts {scanRange : ScanRange} {shutdownHeight boundary : Option Nat}
    (hclamp : clampToBoundary scanRange.start scanRange.stop shutdownHeight = .cont boundary) :
    wp (servingWorld S) (scanBlocks view scanRange shutdownHeight)
      (Scanned (S view) scanRange shutdownHeight boundary) (fun _ _ => True) [] := by
  rw [scanBlocks, hclamp]
  simp only [wp_bind, wp_chainCall]
  refine ⟨trivial, ?_⟩
  rintro (e | state) t ⟨hserves, rfl⟩
  · trivial
  · have hstate : state.isSome ↔ scanRange.start - 1 ≤ (S view).tip := hserves
    cases state with
    | none =>
        have habove : ¬ scanRange.start ≤ (S view).tip + 1 := by
          have : ¬ scanRange.start - 1 ≤ (S view).tip := by simpa using hstate
          omega
        refine wp_bind_still (quiet_puts (safe_chainCall fun _ => trivial)) (fun _ => ?_)
          fun _ => trivial
        exact ⟨fun hle => absurd hle habove, fun _ => ⟨rfl, rfl⟩⟩
    | some fromState =>
        have hwithin : scanRange.start ≤ (S view).tip + 1 := by
          have : scanRange.start - 1 ≤ (S view).tip := by simpa using hstate
          omega
        simp only [id, ends_ok]
        rw [(clampToBoundary_stop hclamp).2.1]
        refine wp_bind.mpr (wp_mono ?_ (fun _ _ h => h) queueBlocks_streamed)
        rintro _ _ ⟨rfl, rfl⟩
        refine wp_bind_still (quiet_puts (safe_dbCall fun _ => trivial)) (fun _ => ?_)
          fun _ => trivial
        refine wp_bind_still (quiet_puts (transparentAddressIndex_safe history_allows_quiet))
          (fun _ => ?_) fun _ => trivial
        refine wp_bind.mpr (wp_mono ?_ (fun _ _ h => h) scanBatch_scanned)
        rintro _ scanned ⟨rfl, hscanned⟩
        simp only [wp_bind, wp_dbCall]
        refine ⟨trivial, ?_⟩
        rintro (e | _) t' ⟨-, rfl⟩
        · trivial
        · refine ⟨fun _ => ⟨hscanned, rfl⟩, ?_⟩
          intro habove
          omega

theorem scanBlocks_scanned {scanRange : ScanRange} {shutdownHeight boundary : Option Nat}
    (hclamp : clampToBoundary scanRange.start scanRange.stop shutdownHeight = .cont boundary)
    {tr : SyncTrace V} {flow : ControlFlow Nat Unit}
    (hrun : Run (scanBlocks view scanRange shutdownHeight) tr (.ret flow))
    (hserves : ∀ e ∈ tr, Serves S e) :
    Scanned (S view) scanRange shutdownHeight boundary (tr.flatMap heightsPut) flow :=
  (scanBlocks_puts hclamp).sound hrun (Path.collect hserves)

/-! ## A scan that returns -/

theorem queueBlock_outcome (block : Block) :
    Outcome (Serves S) (queueBlock block : Sync V _) (.ok ()) := by
  have htold : Serves S (⟨.queueBlock block, some ()⟩ : SyncEvent V) := trivial
  exact .query htold rfl

/-- From the stream's position on, its remaining blocks are queued. -/
theorem queueBlocks_outcome {start stop : Nat} :
    Outcome (Serves S) (queueBlocks view start stop) (.ok ((S view).stream start stop)) := by
  -- one turn of the loop takes the next block of the stream, or ends with those that were taken
  obtain ⟨body, hbody, hends, htakes⟩ : ∃ body,
      (queueBlocks view start stop : Sync V _) = iterate (0, []) body ∧
        (∀ pos batch, Serves S (⟨.tryNext view (.range start stop) pos, .ok none⟩ : SyncEvent V) →
          Outcome (Serves S) (body (pos, batch)) (.ok (.inr batch))) ∧
        ∀ pos batch block,
          Serves S (⟨.tryNext view (.range start stop) pos, .ok (some block)⟩ : SyncEvent V) →
          Outcome (Serves S) (body (pos, batch)) (.ok (.inl (pos + 1, batch ++ [block]))) :=
    ⟨_, rfl, fun _ _ htold => .bind (.query htold rfl) .pure,
      fun _ _ block htold => .bind (.query htold rfl) (.bind (queueBlock_outcome block) .pure)⟩
  rw [hbody]
  suffices H : ∀ rest pos, ((S view).stream start stop).drop pos = rest →
      Outcome (Serves S) (iterate (pos, ((S view).stream start stop).take pos) body)
        (.ok ((S view).stream start stop)) from
    H _ 0 rfl
  intro rest
  induction rest with
  | nil =>
      intro pos hrest
      have hend : ((S view).stream start stop).length ≤ pos := List.drop_eq_nil_iff.mp hrest
      have htold : Serves S (⟨.tryNext view (.range start stop) pos, .ok none⟩ : SyncEvent V) :=
        (List.getElem?_eq_none hend).symm
      have hlast := hends pos (((S view).stream start stop).take pos) htold
      rw [List.take_of_length_le hend] at hlast ⊢
      exact .last hlast
  | cons block rest ih =>
      intro pos hrest
      have hnext : ((S view).stream start stop)[pos]? = some block := by
        rw [← List.head?_drop, hrest]
        rfl
      have htold : Serves S (⟨.tryNext view (.range start stop) pos, .ok (some block)⟩ :
        SyncEvent V) := hnext.symm
      refine .next (htakes pos _ block htold) ?_
      have htake : ((S view).stream start stop).take (pos + 1) =
          ((S view).stream start stop).take pos ++ [block] := by
        rw [List.take_add_one, hnext]
        rfl
      have hdrop : ((S view).stream start stop).drop (pos + 1) = rest := by
        rw [← List.tail_drop, hrest]
        rfl
      have hih := ih (pos + 1) hdrop
      rw [htake] at hih
      exact hih

theorem transparentAddressIndex_outcome :
    Outcome (Serves S) (transparentAddressIndex : Sync V _) (.ok []) := by
  have htold : Serves S (⟨.getAccountIds, .ok []⟩ : SyncEvent V) := trivial
  exact .bind (.query htold rfl) .pure

theorem scanBatch_outcome {fromState : ChainState} {batch : List Block} :
    ∃ scanned, Outcome (Serves S) (scanBatch fromState batch : Sync V _) (.ok scanned) := by
  let scan (x : BlockMetadata × List ScannedBlock) (block : Block) :=
    let scanned : ScannedBlock := ⟨⟨block.claimedHeight, block.header.hash, 0, 0, 0⟩⟩
    (scanned.metadata, x.2 ++ [scanned])
  have hstep : ∀ (x : BlockMetadata × List ScannedBlock) (block : Block),
      Outcome (Serves S) (do
        awaitDecrypted block
        let scannedBlock ← fullScanBlock block.claimedHeight block.header x.1
        pure (scannedBlock.metadata, x.2 ++ [scannedBlock]) : Sync V _) (.ok (scan x block)) := by
    intro x block
    have hawaited : Serves S (⟨.decrypted block, some ()⟩ : SyncEvent V) := trivial
    have hscanned : Serves S (⟨.scanFullBlock block.claimedHeight block.header x.1,
      .ok (0, 0, 0)⟩ : SyncEvent V) := trivial
    exact .bind (.query hawaited rfl) (.bind (.query hscanned rfl) .pure)
  exact ⟨_, .bind (Outcome.foldlM hstep) .pure⟩

/-- A range that starts no more than one block above the tip may be scanned without an error. -/
theorem scanBlocks_outcome {scanRange : ScanRange} {shutdownHeight boundary : Option Nat}
    (hclamp : clampToBoundary scanRange.start scanRange.stop shutdownHeight = .cont boundary)
    (hwithin : scanRange.start ≤ (S view).tip + 1) :
    ∃ flow, Outcome (Serves S) (scanBlocks view scanRange shutdownHeight) (.ok flow) := by
  let fromState : ChainState := ⟨scanRange.start - 1, ⟨0⟩, .empty, .empty, .empty⟩
  have hstate : Serves S (⟨.treeStateAsOf view (scanRange.start - 1), .ok (some fromState)⟩ :
      SyncEvent V) := by
    show (some fromState).isSome ↔ scanRange.start - 1 ≤ (S view).tip
    simp only [Option.isSome_some, true_iff]
    omega
  have hnullifiers : Serves S (⟨.unspentNullifiers, .ok ()⟩ : SyncEvent V) := trivial
  obtain ⟨scanned, hscanned⟩ := @scanBatch_outcome V S fromState
    ((S view).stream scanRange.start (boundary.getD scanRange.stop))
  have hput : Serves S (⟨.putBlocks fromState scanned, .ok ()⟩ : SyncEvent V) := trivial
  rw [scanBlocks, hclamp]
  exact ⟨_, .bind (.query hstate rfl) (.bind queueBlocks_outcome (.bind (.query hnullifiers rfl)
    (.bind transparentAddressIndex_outcome (.bind hscanned (.bind (.query hput rfl) .pure)))))⟩

end

/-! ## When a scan keeps to its result -/

/-- The tip does not cut a scan short that then reports the shutdown height. -/
def Source.Reaches (S : Source) (scanRange : ScanRange) (shutdownHeight : Option Nat) : Prop :=
  scanStop scanRange shutdownHeight < scanRange.stop →
    scanStop scanRange shutdownHeight ≤ S.tip + 1

section
variable {S : Source} {scanRange : ScanRange} {shutdownHeight boundary : Option Nat}

/-- A range that is not all beyond the shutdown height is scanned. -/
theorem exists_clamp (h : scanRange.start < scanStop scanRange shutdownHeight) :
    ∃ boundary, clampToBoundary scanRange.start scanRange.stop shutdownHeight = .cont boundary := by
  rw [clampToBoundary_eq, if_neg (Nat.not_le.mpr h)]
  by_cases hstop : scanStop scanRange shutdownHeight < scanRange.stop
  · exact ⟨_, if_pos hstop⟩
  · exact ⟨_, if_neg hstop⟩

theorem reachable_nil (h : min (scanStop scanRange shutdownHeight) (S.tip + 1) ≤ scanRange.start) :
    reachable S.tip scanRange shutdownHeight = [] := by
  rw [reachable, Nat.sub_eq_zero_of_le h]
  rfl

/-- What a scan of the stream keeps to. -/
theorem scanKept_iff
    (hclamp : clampToBoundary scanRange.start scanRange.stop shutdownHeight = .cont boundary) :
    ScanKept S.tip scanRange shutdownHeight
        ((S.stream scanRange.start (scanStop scanRange shutdownHeight)).map (·.claimedHeight))
        (boundary.elim (.cont ()) .brk) ↔
      S.StreamsAll scanRange shutdownHeight ∧ S.Reaches scanRange shutdownHeight := by
  obtain ⟨hstart, -, hboundary⟩ := clampToBoundary_stop hclamp
  constructor
  · rintro ⟨hall, hflow⟩
    refine ⟨hall, ?_⟩
    intro hstop
    rw [if_pos hstop] at hboundary
    rw [hboundary, hall] at hflow
    rcases hflow _ rfl with hle | hput
    · omega
    · have hlast := mem_reachable.mp (hput (scanStop scanRange shutdownHeight - 1) (by omega)
        (by omega))
      omega
  · rintro ⟨hall, hreaches⟩
    refine ⟨hall, ?_⟩
    intro b hb
    by_cases hstop : scanStop scanRange shutdownHeight < scanRange.stop
    · rw [hboundary, if_pos hstop] at hb
      cases hb
      have htip := hreaches hstop
      right
      intro height hge hlt
      rw [hall]
      exact mem_reachable.mpr ⟨hge, hlt, by omega⟩
    · rw [hboundary, if_neg hstop] at hb
      cases hb

end

/-- Whatever else it is answered, a scan that returns keeps to its result exactly when there is
nothing to scan, or the stream gives every block up to the tip, and the tip is no lower than the
last block below a shutdown height inside the range. -/
theorem scanBlocks_kept_iff (S : V → Source) (view : V) (scanRange : ScanRange)
    (shutdownHeight : Option Nat) :
    (∀ (tr : SyncTrace V) (flow : ControlFlow Nat Unit),
      Run (scanBlocks view scanRange shutdownHeight) tr (.ret flow) → (∀ e ∈ tr, Serves S e) →
      ScanKept (S view).tip scanRange shutdownHeight (tr.flatMap heightsPut) flow) ↔
    (scanRange.start < scanStop scanRange shutdownHeight → scanRange.start ≤ (S view).tip + 1 →
      (S view).StreamsAll scanRange shutdownHeight ∧ (S view).Reaches scanRange shutdownHeight) := by
  constructor
  · intro hkept hstart htip
    obtain ⟨boundary, hclamp⟩ := exists_clamp hstart
    obtain ⟨flow, tr, hrun, hserves⟩ := @scanBlocks_outcome V S view _ _ _ hclamp htip
    obtain ⟨hheights, rfl⟩ := (scanBlocks_scanned hclamp hrun hserves).within htip
    have h := hkept tr _ hrun hserves
    rw [hheights] at h
    exact (scanKept_iff hclamp).mp h
  · intro hcond tr flow hrun hserves
    cases hclamp : clampToBoundary scanRange.start scanRange.stop shutdownHeight with
    | brk stop =>
        rw [scanBlocks, hclamp] at hrun
        cases hrun
        rw [clampToBoundary_eq] at hclamp
        by_cases hstart : scanStop scanRange shutdownHeight ≤ scanRange.start
        · rw [if_pos hstart] at hclamp
          cases hclamp
          refine ⟨(reachable_nil (by omega)).symm, ?_⟩
          intro b hb
          cases hb
          exact .inl hstart
        · rw [if_neg hstart] at hclamp
          split at hclamp <;> cases hclamp
    | cont boundary =>
        have hscanned := scanBlocks_scanned hclamp hrun hserves
        by_cases htip : scanRange.start ≤ (S view).tip + 1
        · obtain ⟨hheights, rfl⟩ := hscanned.within htip
          rw [hheights]
          exact (scanKept_iff hclamp).mpr (hcond (clampToBoundary_stop hclamp).1 htip)
        · obtain ⟨hheights, rfl⟩ := hscanned.above (Nat.lt_of_not_le htip)
          rw [hheights]
          refine ⟨(reachable_nil (by omega)).symm, ?_⟩
          intro b hb
          cases hb

/-- A view whose tip is at height 95, and which streams every block of a range up to there. -/
def behind : Source where
  tip := 95
  stream start stop := (List.range' start (min stop 96 - start)).map fun h => ⟨h, ⟨⟨h⟩, 0⟩⟩

/-- A range around the shutdown height 100. -/
def straddling : ScanRange := ⟨90, 110, .historic⟩

/-- With the shutdown height inside the range and the tip below it, the blocks up to the tip are
scanned and the shutdown height is reported as reached. -/
theorem scanBlocks_breaks_early :
    ∃ tr : SyncTrace Unit,
      Run (scanBlocks () straddling (some 100)) tr (.ret (.brk 100)) ∧
      (∀ e ∈ tr, Serves (fun _ => behind) e) ∧ tr.flatMap heightsPut = [90, 91, 92, 93, 94, 95] ∧
      ¬ ScanKept behind.tip straddling (some 100) (tr.flatMap heightsPut) (.brk 100) := by
  have hclamp : clampToBoundary straddling.start straddling.stop (some 100) = .cont (some 100) := rfl
  have htip : straddling.start ≤ behind.tip + 1 := by decide
  obtain ⟨flow, tr, hrun, hserves⟩ := @scanBlocks_outcome Unit (fun _ => behind) () _ _ _ hclamp htip
  obtain ⟨hheights, rfl⟩ := (scanBlocks_scanned hclamp hrun hserves).within htip
  refine ⟨tr, hrun, hserves, hheights, ?_⟩
  rw [hheights]
  intro h
  exact absurd (((scanKept_iff hclamp).mp h).2 (by decide)) (by decide)

end Zallet
