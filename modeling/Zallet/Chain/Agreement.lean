/-
# `Zallet.Chain.Agreement` — two answers about one transaction

A view can be asked for a transaction or for its status.  Either answer says
where the transaction is: on the best chain at a height, known but not there,
or unknown.  They agree when they say the same.
-/
import Zallet.Chain.Types

namespace Zallet

/-- Where a transaction is, by what was found when it was asked for. -/
def foundStatus : Option ChainTx → TransactionStatus
  | none => .txidNotRecognized
  | some tx => tx.minedHeight.elim .notInMainChain .mined

/-- The height a status names. -/
def TransactionStatus.height? : TransactionStatus → Option Nat
  | .mined height => some height
  | .notInMainChain | .txidNotRecognized => none

/-- The transaction found and the status given tell the same of the main chain. -/
structure Agree (r : Option ChainTx) (status : TransactionStatus) : Prop where
  mined : ∀ height, (∃ tx, r = some tx ∧ tx.minedHeight = some height) ↔ status = .mined height
  unmined : (∃ tx, r = some tx ∧ tx.minedHeight = none) ↔ status = .notInMainChain

section
variable {r : Option ChainTx} {tx : ChainTx} {status : TransactionStatus} {height : Nat}

theorem foundStatus_mined :
    foundStatus r = .mined height ↔ ∃ tx, r = some tx ∧ tx.minedHeight = some height := by
  rcases r with _ | ⟨inner, blockHash, _ | mined, time⟩ <;> simp [foundStatus]

theorem foundStatus_unmined :
    foundStatus r = .notInMainChain ↔ ∃ tx, r = some tx ∧ tx.minedHeight = none := by
  rcases r with _ | ⟨inner, blockHash, _ | mined, time⟩ <;> simp [foundStatus]

theorem foundStatus_height : (foundStatus (some tx)).height? = tx.minedHeight := by
  rw [foundStatus]
  cases tx.minedHeight <;> rfl

theorem agree_iff : Agree r status ↔ foundStatus r = status := by
  constructor
  · rintro ⟨hmined, hunmined⟩
    rw [← foundStatus_unmined] at hunmined
    cases status with
    | mined height => exact foundStatus_mined.mpr ((hmined height).mpr rfl)
    | notInMainChain => exact hunmined.mpr rfl
    | txidNotRecognized =>
        cases hfound : foundStatus r with
        | txidNotRecognized => rfl
        | notInMainChain => cases hunmined.mp hfound
        | mined height => cases (hmined height).mp (foundStatus_mined.mp hfound)
  · rintro rfl
    exact ⟨fun height => foundStatus_mined.symm, foundStatus_unmined.symm⟩

end

end Zallet
