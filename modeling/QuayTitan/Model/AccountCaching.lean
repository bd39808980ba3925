import QuayTitan.Library.Attempts
import QuayTitan.Library.Assignments
import QuayTitan.Model.TradingVenue

/-! # The RPC-backed account cache -/

namespace QuayTitan.AccountCaching

/-- What the RPC node answers at the moment of a call. -/
structure RpcClient where
  getAccount : Pubkey → Except String Account
  getMultipleAccounts : List Pubkey → Except String (List (Option Account))

/-- `cache` holds `some none` for an account known to be missing. The requests made to the
RPC node are recorded, so that statements can refer to them. -/
structure RpcClientCache where
  cache : Pubkey → Option (Option Account)
  requests : List (List Pubkey)

/-- A method of the cache. -/
abbrev CacheM := EStateM (Stop AccountCacheError) RpcClientCache

namespace RpcClientCache

def new : RpcClientCache := ⟨fun _ => none, []⟩

def resetCache (self : RpcClientCache) : RpcClientCache := { self with cache := fun _ => none }

/-- The cached accounts; a key that was never looked up reads like a missing account. -/
def getMultiple (self : RpcClientCache) (pubkeys : List Pubkey) : List (Option Account) :=
  pubkeys.map fun key =>
    match self.cache key with
    | some value => value
    | none => none

def insert (key : Pubkey) (value : Option Account) (self : RpcClientCache) : RpcClientCache :=
  { self with cache := Function.update self.cache key (some value) }

end RpcClientCache

open RpcClientCache

/-- Ask the RPC node for some keys. -/
def request {α : Type} (keys : List Pubkey) (answer : Except String α) : CacheM α := do
  modify fun self => { self with requests := self.requests ++ [keys] }
  ofExcept (answer.mapError fun e => .returned (.failedToFetchAccount e))

def getAccount (rpc : RpcClient) (pubkey : Pubkey) : CacheM (Option Account) := do
  match (← get).cache pubkey with
  | some account => return account
  | none =>
      let response ← request [pubkey] (rpc.getAccount pubkey)
      modify (insert pubkey (some response))
      return some response

/-- The loop over the cached results: hits are collected, the other keys are to be
fetched. -/
structure Lookup where
  keys : List Pubkey
  resultMap : Pubkey → Option (Option Account)

def Lookup.add (lookup : Lookup) (account : Option Account) (pubkey : Pubkey) : Lookup :=
  match account with
  | some res =>
      { lookup with resultMap := Function.update lookup.resultMap pubkey (some (some res)) }
  | none => { lookup with keys := lookup.keys ++ [pubkey] }

def identifyHits (cachedResults : List (Option Account)) (pubkeys : List Pubkey) : Lookup :=
  (cachedResults.zip pubkeys).foldl (fun lookup (account, pubkey) => lookup.add account pubkey)
    ⟨[], fun _ => none⟩

/-- The loop over the response: each account is stored in the cache and in the results. -/
def storeResponse : List (Pubkey × Option Account) → (Pubkey → Option (Option Account)) →
    CacheM (Pubkey → Option (Option Account))
  | [], resultMap => return resultMap
  | (pubkey, account) :: rest, resultMap => do
      modify (insert pubkey account)
      storeResponse rest (Function.update resultMap pubkey (some account))

/-- The results in the order of the keys; a key without a result is an `unwrap` on `None`. -/
def reassemble (resultMap : Pubkey → Option (Option Account)) :
    List Pubkey → CacheM (List (Option Account))
  | [] => return []
  | pubkey :: pubkeys =>
      match resultMap pubkey with
      | some item => do
          let items ← reassemble resultMap pubkeys
          return item :: items
      | none => throw .panicked

def getAccounts (rpc : RpcClient) (pubkeys : List Pubkey) : CacheM (List (Option Account)) := do
  let cachedResults := (← get).getMultiple pubkeys
  let lookup := identifyHits cachedResults pubkeys
  let resultMap ← (
    if lookup.keys.isEmpty then return lookup.resultMap
    else do
      let response ← request lookup.keys (rpc.getMultipleAccounts lookup.keys)
      storeResponse (lookup.keys.zip response) lookup.resultMap)
  reassemble resultMap pubkeys

end QuayTitan.AccountCaching
