/-
# `Zallet.Keystore.Keys` — keys, addresses and the libraries that read them

Key material by its bytes, and what is used of the key, script and encoding
libraries (`KeyLib`).  The libraries are not part of the wallet: what they do is
a parameter of every method that calls them.
-/
import Zallet.Chain.Types

namespace Zallet

structure SeedFingerprint where
  bytes : List UInt8
  deriving DecidableEq, Repr

structure Seed where
  bytes : List UInt8
  deriving DecidableEq, Repr

structure ExtendedSpendingKey where
  bytes : List UInt8
  deriving DecidableEq, Repr

structure DiversifiableFullViewingKey where
  bytes : List UInt8
  deriving DecidableEq, Repr

structure UnifiedFullViewingKey where
  bytes : List UInt8
  deriving DecidableEq, Repr

structure PublicKey where
  bytes : List UInt8
  deriving DecidableEq, Repr

structure Redeem where
  bytes : List UInt8
  deriving DecidableEq, Repr

structure Encryptor where
  recipients : List String
  deriving DecidableEq, Repr

/-- What is used of the key, script and encoding libraries, for the wallet's network. -/
structure KeyLib where
  seedFingerprintFromStr : String → Except String SeedFingerprint
  seedFingerprintToString : SeedFingerprint → String
  hexDecode : String → Option (List UInt8)
  /-- `zip32::AccountId::try_from` -/
  accountIdTryFrom : Nat → Except String Nat
  accountUuidFromStr : String → Option AccountUuid
  hrpSaplingExtendedSpendingKey : String
  hrpSaplingPaymentAddress : String
  decodeExtendedSpendingKey : String → String → Except String ExtendedSpendingKey
  /-- `encode_payment_address` of the default address -/
  encodeDefaultAddress : String → ExtendedSpendingKey → String
  toDiversifiableFullViewingKey : ExtendedSpendingKey → DiversifiableFullViewingKey
  ufvkFromSapling : ExtendedSpendingKey → Except String UnifiedFullViewingKey
  publicKeyFromSlice : List UInt8 → Option PublicKey
  addressFromPubkey : PublicKey → String
  addressFromScriptHash : List UInt8 → String
  redeemParse : List UInt8 → Option Redeem

end Zallet
