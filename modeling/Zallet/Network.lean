/-
# `Zallet.Network` — the networks, and when their upgrades activate

`network.rs`.  The parameters of a regtest network give activation heights to
some of the upgrades, and one that is left out activates with the next one that
is there (`fromType`).  `regtest_upgrades` says that the upgrades that are
active at a height are then always the first few, as they are on a public
network, exactly when the heights given are in order.

The parameters are strings in the configuration; `nuparams_read` is that what
was written there is what is read back.
-/
import Zallet.Data.Fill
import Zallet.Data.Numeral
import Zallet.Migrate.ZcashConf

namespace Zallet

open Fill ZcashConf

/-- `consensus::NetworkUpgrade` -/
inductive NetworkUpgrade where
  | overwinter
  | sapling
  | blossom
  | heartwood
  | canopy
  | nu5
  | nu6
  | nu6_1
  | nu6_2
  | nu6_3
  deriving DecidableEq, Repr

namespace NetworkUpgrade

/-- The upgrades in the order in which they activate. -/
def inOrder : List NetworkUpgrade :=
  [.overwinter, .sapling, .blossom, .heartwood, .canopy, .nu5, .nu6, .nu6_1, .nu6_2, .nu6_3]

def index : NetworkUpgrade → ℕ
  | .overwinter => 0
  | .sapling => 1
  | .blossom => 2
  | .heartwood => 3
  | .canopy => 4
  | .nu5 => 5
  | .nu6 => 6
  | .nu6_1 => 7
  | .nu6_2 => 8
  | .nu6_3 => 9

theorem index_injective : Function.Injective index := by
  intro a b h
  cases a <;> cases b <;> first | rfl | cases h

theorem inOrder_nodup : inOrder.Nodup := by decide

theorem mem_inOrder (nu : NetworkUpgrade) : nu ∈ inOrder := by cases nu <;> decide

instance : Fintype NetworkUpgrade := ⟨⟨inOrder, inOrder_nodup⟩, mem_inOrder⟩

instance : LinearOrder NetworkUpgrade := LinearOrder.lift' index index_injective

theorem inOrder_pairwise : inOrder.Pairwise (· < ·) := by decide

/-- An upgrade and those after it. -/
theorem inOrder_filter (nu : NetworkUpgrade) : inOrder.filter (nu ≤ ·) = inOrder.drop nu.index := by
  cases nu <;> decide

end NetworkUpgrade

/-- `consensus::Network` -/
inductive PublicNetwork where
  | mainNetwork
  | testNetwork
  deriving DecidableEq, Repr

/-- `local_consensus::LocalNetwork` -/
structure LocalNetwork where
  overwinter : Option ℕ
  sapling : Option ℕ
  blossom : Option ℕ
  heartwood : Option ℕ
  canopy : Option ℕ
  nu5 : Option ℕ
  nu6 : Option ℕ
  nu6_1 : Option ℕ
  nu6_2 : Option ℕ
  nu6_3 : Option ℕ
  deriving DecidableEq, Repr

/-- What is used of `zcash_protocol::consensus`. -/
structure ConsensusLib where
  /-- The branch of an upgrade, `u32::from(BranchId)`. -/
  branchId : NetworkUpgrade → ℕ
  activationHeight : PublicNetwork → NetworkUpgrade → Option ℕ
  /-- `<LocalNetwork as Parameters>::activation_height` -/
  localActivationHeight : LocalNetwork → NetworkUpgrade → Option ℕ

/-- Chain parameters for a Zcash consensus network. -/
inductive Network where
  | consensus (network : PublicNetwork)
  | regTest (network : LocalNetwork)
  deriving DecidableEq, Repr

/-- The field of an upgrade. -/
def LocalNetwork.field (network : LocalNetwork) : NetworkUpgrade → Option ℕ
  | .overwinter => network.overwinter
  | .sapling => network.sapling
  | .blossom => network.blossom
  | .heartwood => network.heartwood
  | .canopy => network.canopy
  | .nu5 => network.nu5
  | .nu6 => network.nu6
  | .nu6_1 => network.nu6_1
  | .nu6_2 => network.nu6_2
  | .nu6_3 => network.nu6_3

/-- A local network activates an upgrade at the height in its field. -/
def ConsensusLib.ReadsFields (lib : ConsensusLib) : Prop :=
  ∀ network nu, lib.localActivationHeight network nu = network.field nu

namespace Network

variable (lib : ConsensusLib)

def activationHeight : Network → NetworkUpgrade → Option ℕ
  | .consensus network => lib.activationHeight network
  | .regTest network => lib.localActivationHeight network

/-- The height given to an upgrade: that of the first parameter for its branch. -/
def findNu (nuparams : List RegTestNuParam) (nu : NetworkUpgrade) : Option ℕ :=
  (nuparams.find? fun p => p.consensusBranchId = lib.branchId nu).map (·.activationHeight)

/-- If a NU is omitted, it activates at the same height as the subsequent specified NU. -/
def localNetwork (nuparams : List RegTestNuParam) : LocalNetwork :=
  let nu6_3 := findNu lib nuparams .nu6_3
  let nu6_2 := (findNu lib nuparams .nu6_2).or nu6_3
  let nu6_1 := (findNu lib nuparams .nu6_1).or nu6_2
  let nu6 := (findNu lib nuparams .nu6).or nu6_1
  let nu5 := (findNu lib nuparams .nu5).or nu6
  let canopy := (findNu lib nuparams .canopy).or nu5
  let heartwood := (findNu lib nuparams .heartwood).or canopy
  let blossom := (findNu lib nuparams .blossom).or heartwood
  let sapling := (findNu lib nuparams .sapling).or blossom
  let overwinter := (findNu lib nuparams .overwinter).or sapling
  ⟨overwinter, sapling, blossom, heartwood, canopy, nu5, nu6, nu6_1, nu6_2, nu6_3⟩

def fromType : NetworkType → List RegTestNuParam → Network
  | .main, _ => .consensus .mainNetwork
  | .test, _ => .consensus .testNetwork
  | .regtest, nuparams => .regTest (localNetwork lib nuparams)

/-- The upgrades that are active at a height. -/
def activeAt (network : Network) (height : ℕ) : Set NetworkUpgrade :=
  {nu | ∃ activation, network.activationHeight lib nu = some activation ∧ activation ≤ height}

/-! ## Which upgrades are active -/

theorem findSome?_cons_or {α β : Type} (f : α → Option β) (a : α) (l : List α) :
    (a :: l).findSome? f = (f a).or (l.findSome? f) := by
  rw [List.findSome?_cons]
  cases f a <;> rfl

/-- The cascade is a search of the upgrades from there on. -/
theorem localNetwork_field (nuparams : List RegTestNuParam) (nu : NetworkUpgrade) :
    (localNetwork lib nuparams).field nu =
      (NetworkUpgrade.inOrder.filter (nu ≤ ·)).findSome? (findNu lib nuparams) := by
  rw [NetworkUpgrade.inOrder_filter]
  cases nu <;>
    simp [LocalNetwork.field, localNetwork, NetworkUpgrade.inOrder, NetworkUpgrade.index,
      findSome?_cons_or]

variable {lib} in
theorem regtest_fill (hlib : lib.ReadsFields) (nuparams : List RegTestNuParam) :
    IsFill (findNu lib nuparams) (activationHeight lib (fromType lib .regtest nuparams)) := by
  have hfill := IsFill.of_list (f := findNu lib nuparams) NetworkUpgrade.inOrder_pairwise
    NetworkUpgrade.mem_inOrder
  have hheights : activationHeight lib (fromType lib .regtest nuparams) =
      (localNetwork lib nuparams).field := funext fun nu => hlib _ nu
  rwa [← funext (localNetwork_field lib nuparams), ← hheights] at hfill

/-- An upgrade of a regtest network activates at the height given to the first upgrade from it on
that is given any; and the upgrades that are active are at each height the first few, exactly when
the heights given are in order. -/
theorem regtest_upgrades {lib : ConsensusLib} (hlib : lib.ReadsFields)
    (nuparams : List RegTestNuParam) :
    IsFill (findNu lib nuparams)
        (activationHeight lib (fromType lib .regtest nuparams)) ∧
      ((∀ height, IsLowerSet (activeAt lib (fromType lib .regtest nuparams) height)) ↔
        InOrder (findNu lib nuparams)) :=
  ⟨regtest_fill hlib nuparams, (regtest_fill hlib nuparams).isLowerSet_iff⟩

/-- Branches that are numbered by their upgrades, and no public network. -/
def numberedBranches : ConsensusLib where
  branchId := NetworkUpgrade.index
  activationHeight _ _ := none
  localActivationHeight := LocalNetwork.field

/-- NU5 is to activate after NU6. -/
theorem regtest_upgrades_two :
    IsFill (findNu numberedBranches [⟨5, 20⟩, ⟨6, 10⟩])
        (activationHeight numberedBranches
          (fromType numberedBranches .regtest [⟨5, 20⟩, ⟨6, 10⟩])) ∧
      ((∀ height, IsLowerSet (activeAt numberedBranches
          (fromType numberedBranches .regtest [⟨5, 20⟩, ⟨6, 10⟩]) height)) ↔
        InOrder (findNu numberedBranches [⟨5, 20⟩, ⟨6, 10⟩])) :=
  regtest_upgrades (fun _ _ => rfl) [⟨5, 20⟩, ⟨6, 10⟩]

/-! ## The parameters as strings -/

/-- `{:08x}` and `{}`: the digits of a number, with zeros in front up to a width. -/
def digits (radix width n : ℕ) : List Char :=
  List.replicate (width - (Nat.toDigits radix n).length) '0' ++ Nat.toDigits radix n

/-- `String::from` -/
def stringOfNuParam (p : RegTestNuParam) : String :=
  String.ofList (digits 16 8 p.consensusBranchId ++ ':' :: digits 10 0 p.activationHeight)

/-- The number that is spelled by its digits. -/
def ofDigits (radix : ℕ) (ds : List ℕ) : ℕ := ds.foldl (fun n d => n * radix + d) 0

theorem exists_toDigits {radix : ℕ} (h : 1 < radix) (n : ℕ) :
    ∃ ds, Nat.toDigits radix n = ds.map Nat.digitChar ∧ ds ≠ [] ∧ (∀ d ∈ ds, d < radix) ∧
      ofDigits radix ds = n := by
  induction n using Nat.strong_induction_on with
  | _ n ih =>
      by_cases hlt : n < radix
      · refine ⟨[n], Nat.toDigits_of_lt_base hlt, List.cons_ne_nil _ _, by simpa using hlt, ?_⟩
        simp [ofDigits]
      · obtain ⟨ds, hds, -, hall, hvalue⟩ := ih (n / radix) (Nat.div_lt_self (by omega) h)
        refine ⟨ds ++ [n % radix], ?_, by simp, ?_, ?_⟩
        · rw [Nat.toDigits_of_base_le h (by omega), hds, List.map_append]
          rfl
        · intro d hd
          rcases List.mem_append.mp hd with hd | hd
          · exact hall d hd
          · rw [List.mem_singleton.mp hd]
            exact Nat.mod_lt _ (by omega)
        · rw [ofDigits] at hvalue ⊢
          rw [List.foldl_append, hvalue]
          exact Nat.div_add_mod' n radix

theorem exists_digits {radix : ℕ} (h : 1 < radix) (width n : ℕ) :
    ∃ ds, digits radix width n = ds.map Nat.digitChar ∧ ds ≠ [] ∧ (∀ d ∈ ds, d < radix) ∧
      ofDigits radix ds = n := by
  obtain ⟨ds, hds, hne, hall, hvalue⟩ := exists_toDigits h n
  refine ⟨List.replicate (width - (Nat.toDigits radix n).length) 0 ++ ds, ?_, by simp [hne], ?_, ?_⟩
  · rw [digits, hds, List.map_append, List.map_replicate]
    rfl
  · intro d hd
    rcases List.mem_append.mp hd with hd | hd
    · rw [List.eq_of_mem_replicate hd]
      omega
    · exact hall d hd
  · have hzeros : ∀ k, ofDigits radix (List.replicate k 0) = 0 := by
      intro k
      induction k with
      | zero => rfl
      | succ k ih =>
          rw [ofDigits, List.replicate_succ, List.foldl_cons, Nat.zero_mul]
          exact ih
    rw [ofDigits, List.foldl_append, show List.foldl _ _ (List.replicate _ 0) = 0 from hzeros _]
    exact hvalue

section
variable {radix bound : ℕ} {ds : List ℕ}

theorem mapM_digitChar (hradix : radix ≤ 16) (hall : ∀ d ∈ ds, d < radix) :
    (ds.map Nat.digitChar).mapM (fun c => (Base16.value c).filter (· < radix)) = some ds := by
  induction ds with
  | nil => rfl
  | cons d ds ih =>
      have hd : d < radix := hall d (by simp)
      have hvalue : Base16.value d.digitChar = some d := Base16.value_digit d (by omega)
      rw [List.map_cons, List.mapM_cons, ih fun d' hd' => hall d' (by simp [hd']), hvalue]
      simp [Option.filter, hd]

theorem digitChar_ne {d : ℕ} {c : Char} (hd : d < 16) (hc : Base16.value c = none) :
    d.digitChar ≠ c := by
  rintro rfl
  have hvalue : Base16.value d.digitChar = some d := Base16.value_digit d hd
  rw [hc] at hvalue
  cases hvalue

theorem fromStrRadix_digits (hradix : radix ≤ 16) (hne : ds ≠ []) (hall : ∀ d ∈ ds, d < radix)
    (hbound : ofDigits radix ds < bound) :
    fromStrRadix radix bound (String.ofList (ds.map Nat.digitChar)) = some (ofDigits radix ds) := by
  obtain ⟨d, rest, rfl⟩ := List.exists_cons_of_ne_nil hne
  have hhead : ((d :: rest).map Nat.digitChar).head? ≠ some '+' := by
    have hd : d < radix := hall d (by simp)
    intro heq
    exact digitChar_ne (show d < 16 by omega) (by decide) (Option.some.inj heq)
  rw [fromStrRadix]
  simp only [String.toList_ofList, if_neg hhead]
  rw [if_neg (by simp), mapM_digitChar hradix hall]
  exact if_pos hbound

theorem fromStrRadix_lt {s : String} {n : ℕ} (h : fromStrRadix radix bound s = some n) :
    n < bound := by
  rw [fromStrRadix] at h
  dsimp only at h
  generalize (if s.toList.head? = some '+' then s.toList.tail else s.toList) = cs at h
  by_cases hnil : cs = []
  · rw [if_pos hnil] at h
    cases h
  · rw [if_neg hnil] at h
    obtain ⟨ds, -, hds⟩ := Option.bind_eq_some_iff.mp h
    by_cases hlt : ofDigits radix ds < bound
    · have heq : some (ofDigits radix ds) = some n := (if_pos hlt).symm.trans hds
      exact Option.some.inj heq ▸ hlt
    · have heq : none = some n := (if_neg hlt).symm.trans hds
      cases heq

end

/-- What a parameter is read from: its numbers are `u32`s, and its branch is a known one. -/
structure Readable (lib : ConfLib) (p : RegTestNuParam) : Prop where
  branch : lib.isBranchId p.consensusBranchId = true
  branch_lt : p.consensusBranchId < 2 ^ 32
  height_lt : p.activationHeight < 2 ^ 32

theorem tryFrom_readable {lib : ConfLib} {value : String} {p : RegTestNuParam}
    (h : regTestNuParamTryFrom lib value = some p) : Readable lib p := by
  rw [regTestNuParamTryFrom] at h
  obtain ⟨parts, -, h⟩ := Option.bind_eq_some_iff.mp h
  obtain ⟨branchId, hbranch, h⟩ := Option.bind_eq_some_iff.mp h
  obtain ⟨height, hheight, h⟩ := Option.bind_eq_some_iff.mp h
  obtain rfl := Option.some.inj h
  obtain ⟨hread, hknown⟩ := Option.filter_eq_some_iff.mp hbranch
  exact ⟨hknown, fromStrRadix_lt hread, fromStrRadix_lt hheight⟩

theorem Readable.read {lib : ConfLib} {p : RegTestNuParam} (h : Readable lib p) :
    regTestNuParamTryFrom lib (stringOfNuParam p) = some p := by
  obtain ⟨bs, hbs, hbne, hball, hbvalue⟩ :=
    exists_digits (show 1 < 16 by decide) 8 p.consensusBranchId
  obtain ⟨hs, hhs, hhne, hhall, hhvalue⟩ :=
    exists_digits (show 1 < 10 by decide) 0 p.activationHeight
  have hsplit : Text.splitString ':' (stringOfNuParam p) =
      some (String.ofList (bs.map Nat.digitChar), String.ofList (hs.map Nat.digitChar)) := by
    rw [Text.splitString_eq_some, stringOfNuParam, hbs, hhs]
    refine ⟨by simp, ?_⟩
    intro hmem
    rw [String.toList_ofList] at hmem
    obtain ⟨d, hd, heq⟩ := List.mem_map.mp hmem
    exact digitChar_ne (hball d hd) (by decide) heq
  have hbranch : fromStrRadix 16 (2 ^ 32) (String.ofList (bs.map Nat.digitChar)) =
      some p.consensusBranchId :=
    hbvalue ▸ fromStrRadix_digits (le_refl 16) hbne hball (hbvalue.symm ▸ h.branch_lt)
  have hheight : fromStrRadix 10 (2 ^ 32) (String.ofList (hs.map Nat.digitChar)) =
      some p.activationHeight :=
    hhvalue ▸ fromStrRadix_digits (by decide) hhne hhall (hhvalue.symm ▸ h.height_lt)
  rw [regTestNuParamTryFrom, hsplit]
  show (((fromStrRadix 16 (2 ^ 32) (String.ofList (bs.map Nat.digitChar))).filter
    lib.isBranchId).bind fun branchId => (fromStrRadix 10 (2 ^ 32)
      (String.ofList (hs.map Nat.digitChar))).bind fun height => some ⟨branchId, height⟩) = some p
  rw [hbranch, hheight, Option.filter_some, if_pos h.branch]
  rfl

/-- What was read from the configuration, however it was spelled there, is what is read back after
it was written. -/
theorem nuparams_read {lib : ConfLib} {values : List String} {nuparams : List RegTestNuParam}
    (h : values.mapM (regTestNuParamTryFrom lib) = some nuparams) :
    (nuparams.map stringOfNuParam).mapM (regTestNuParamTryFrom lib) = some nuparams := by
  induction values generalizing nuparams with
  | nil =>
      obtain rfl : [] = nuparams := Option.some.inj h
      rfl
  | cons value values ih =>
      rw [List.mapM_cons] at h
      obtain ⟨p, hp, h⟩ := Option.bind_eq_some_iff.mp h
      obtain ⟨rest, hrest, h⟩ := Option.bind_eq_some_iff.mp h
      obtain rfl := Option.some.inj h
      rw [List.map_cons, List.mapM_cons, (tryFrom_readable hp).read, ih hrest]
      rfl

/-- Two branches, and no other. -/
def twoBranches : ConfLib where
  isBranchId n := n = 0xc2d6d0b4 ∨ n = 0x76b809bb
  parseSocketAddr _ := none
  toToml _ := .error "unsupported"

theorem nuparams_read_two :
    (["c2d6d0b4:5", "76b809bb:1"] : List String).mapM (regTestNuParamTryFrom twoBranches) =
      some [⟨0xc2d6d0b4, 5⟩, ⟨0x76b809bb, 1⟩] :=
  @nuparams_read twoBranches ["C2D6D0B4:+05", "76b809bb:1"] [⟨0xc2d6d0b4, 5⟩, ⟨0x76b809bb, 1⟩]
    (by decide +kernel)

end Network

end Zallet
