import QuayTitan.Model.TradingVenue

/-! # Venue discovery

The pools that the decompiled instructions of a transaction create. -/

namespace QuayTitan.Quay

open ByteFields

def quayProgramId : Pubkey := .ofBase58 "QUayE6nexQWYNZAEqfN8FxoNwQDSu3CAzT2qq9J1ArG"

/-- The first data byte of `init_strategy`. -/
def discInitStrategy : UInt8 := 0x10

/-- An instruction of a confirmed transaction, its accounts resolved to keys. -/
structure ParsedInstruction where
  programId : Pubkey
  accounts : List Pubkey
  data : Bytes

structure PoolCreation where
  protocol : PoolProtocol
  pool : Pubkey
  mints : List Pubkey
deriving DecidableEq

/-- The strategies that `init_strategy` instructions create; malformed ones are skipped. -/
def parsePoolCreations (instructions : List ParsedInstruction) : List PoolCreation :=
  (instructions.filter fun ix =>
    ix.programId = quayProgramId && ix.data.head? = some discInitStrategy).filterMap fun ix => do
      let pool ← ix.accounts.head?
      let baseMint ← ix.accounts[5]?
      let quoteMint ← ix.accounts[6]?
      return { protocol := .quay, pool, mints := [baseMint, quoteMint] }

end QuayTitan.Quay
