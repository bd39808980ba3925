import QuayTitan.Model.Quay.Venue
import QuayTitan.Library.Fallible

/-! # What a refresh does to the venue -/

namespace QuayTitan.Quay

open Attempts Fallible

variable {sdk : Sdk} {cache : AccountsCache} {venue venue' : QuayVenue}

theorem decode_eq_ok {α : Type} {what : String} {result : Except String α} {a : α} :
    decode what result = .ok a ↔ result = .ok a := mapError_eq_ok

theorem okOrElse_eq_ok {α : Type} {value : Option α} {error : TradingVenueError} {a : α} :
    okOrElse value error = .ok a ↔ value = some a := by
  cases value with
  | none => simp [okOrElse]
  | some b => simp [okOrElse]

theorem accountAt_eq_ok {accounts : List (Option Account)} {slot : ℕ} {key : Pubkey}
    {account : Account} :
    accountAt accounts slot key = .ok account ↔ accounts[slot]? = some (some account) := by
  rw [accountAt, okOrElse_eq_ok, Option.join_eq_some_iff]

/-! ## Failure -/

/-- A refresh that fails leaves every field as it was. -/
theorem atomic_updateState (sdk : Sdk) (cache : AccountsCache) :
    Atomic (QuayVenue.updateState sdk cache) := by
  unfold QuayVenue.updateState QuayVenue.refreshState
  apply atomic_get_bind
  intro self
  simp only [atomic_ofExcept_bind]
  intros
  exact atomic_modify _

/-! ## Success -/

/-- The accounts of one answer and what they decode to. -/
structure Snapshot where
  accounts : List (Option Account)
  strategyAccount : Account
  strategy : StrategyHeader
  mmAccount : Account
  mm : MarketMakerHeader
  quotesAccount : Account
  cfgAccount : Account
  cfg : GlobalConfig
  baseInfo : TokenInfo
  quoteInfo : TokenInfo
  slot : UInt64
  unixSec : Int64
  freshExtKeys : List Pubkey

/-- The cache answers the request of the venue with the accounts of the snapshot. -/
structure Answers (sdk : Sdk) (cache : AccountsCache) (venue : QuayVenue) (snap : Snapshot) :
    Prop where
  fetched : cache.getAccounts venue.requiredUpdatePubkeys = .ok snap.accounts
  length_eq : snap.accounts.length = venue.requiredUpdatePubkeys.length
  strategyAccount : snap.accounts[0]? = some (some snap.strategyAccount)
  strategy : sdk.strategyTryFromAccount snap.strategyAccount.data = .ok snap.strategy
  mmAccount : snap.accounts[1]? = some (some snap.mmAccount)
  mm : sdk.marketMakerTryFromAccount snap.mmAccount.data = .ok snap.mm
  quotesAccount : snap.accounts[2]? = some (some snap.quotesAccount)
  cfgAccount : snap.accounts[3]? = some (some snap.cfgAccount)
  cfg : sdk.globalConfigTryFromAccount snap.cfgAccount.data = .ok snap.cfg
  baseMint : ∃ account, snap.accounts[4]? = some (some account) ∧
    TokenInfo.new sdk.unpackMint venue.baseMint account 0 = .ok snap.baseInfo
  quoteMint : ∃ account, snap.accounts[5]? = some (some account) ∧
    TokenInfo.new sdk.unpackMint venue.quoteMint account 0 = .ok snap.quoteInfo
  vaultBase : ∃ account, snap.accounts[6]? = some (some account)
  vaultQuote : ∃ account, snap.accounts[7]? = some (some account)
  clock : ∃ account, snap.accounts[8]? = some (some account) ∧
    decodeClock account.data = some (snap.slot, snap.unixSec)
  freshExtKeys : sdk.extAccountKeys snap.strategy snap.strategyAccount.data =
    .ok snap.freshExtKeys

def Snapshot.commit (snap : Snapshot) (venue : QuayVenue) : QuayVenue :=
  { venue with
    strategyData := snap.strategyAccount.data
    extKeys := snap.freshExtKeys
    extData := freshExtData snap.accounts venue.extKeys snap.freshExtKeys
    strategyFrozen := snap.strategy.frozen
    strategyFrozenAdmin := snap.strategy.frozenAdmin
    routingFlags := snap.strategy.routingFlags
    priceProbeBase := snap.strategy.priceProbeBase
    priceProbeQuote := snap.strategy.priceProbeQuote
    mmData := snap.mmAccount.data
    mmFrozen := snap.mm.frozen
    mmFrozenAdmin := snap.mm.frozenAdmin
    mmHaltedAdmin := snap.mm.haltedAdmin
    quotesData := snap.quotesAccount.data
    globalConfigData := snap.cfgAccount.data
    cfgSwapHalted := snap.cfg.swapHalted
    cfgProtocolHalted := snap.cfg.protocolHalted
    tokens := [snap.baseInfo, snap.quoteInfo]
    currentSlot := snap.slot
    currentUnixSec := snap.unixSec }

theorem fetched_ok {result : Except AccountCacheError (List (Option Account))}
    {accounts : List (Option Account)} :
    result.mapError TradingVenueError.accountCacheError = .ok accounts ↔
      result = .ok accounts := mapError_eq_ok

theorem length_check_ok {m n : ℕ} {u : Unit} :
    (if m ≠ n then Except.error TradingVenueError.failedToFetchMultipleAccountData
      else Except.ok ()) = .ok u ↔ m = n := by
  split <;> simp_all

/-- A refresh succeeds exactly when the cache answers the whole request, and then commits
the answer. -/
theorem updateState_ok_iff :
    QuayVenue.updateState sdk cache venue = .ok ⟨⟩ venue' ↔
      ∃ snap, Answers sdk cache venue snap ∧ venue' = snap.commit venue := by
  unfold QuayVenue.updateState QuayVenue.refreshState
  simp only [get_bind_ok, ofExcept_bind_ok, fetched_ok, length_check_ok, accountAt_eq_ok,
    decode_eq_ok, okOrElse_eq_ok, modify_ok]
  constructor
  · rintro ⟨accounts, hfetched, _, hlength, strategyAccount, hstrategyAccount, strategy,
      hstrategy, mmAccount, hmmAccount, mm, hmm, quotesAccount, hquotes, cfgAccount, hcfgAccount,
      cfg, hcfg, base, hbase, quote, hquote, baseInfo, hbaseInfo, quoteInfo, hquoteInfo,
      vaultBase, hvaultBase, vaultQuote, hvaultQuote, clockAccount, hclockAccount, clock, hclock,
      freshExtKeys, hext, rfl⟩
    exact ⟨⟨accounts, strategyAccount, strategy, mmAccount, mm, quotesAccount, cfgAccount, cfg,
      baseInfo, quoteInfo, clock.1, clock.2, freshExtKeys⟩,
      ⟨hfetched, hlength, hstrategyAccount, hstrategy, hmmAccount, hmm, hquotes, hcfgAccount,
        hcfg, ⟨base, hbase, hbaseInfo⟩, ⟨quote, hquote, hquoteInfo⟩, ⟨vaultBase, hvaultBase⟩,
        ⟨vaultQuote, hvaultQuote⟩, ⟨clockAccount, hclockAccount, hclock⟩, hext⟩, rfl⟩
  · rintro ⟨snap, h, rfl⟩
    obtain ⟨base, hbase, hbaseInfo⟩ := h.baseMint
    obtain ⟨quote, hquote, hquoteInfo⟩ := h.quoteMint
    obtain ⟨vaultBase, hvaultBase⟩ := h.vaultBase
    obtain ⟨vaultQuote, hvaultQuote⟩ := h.vaultQuote
    obtain ⟨clockAccount, hclockAccount, hclock⟩ := h.clock
    exact ⟨_, h.fetched, ⟨⟩, h.length_eq, _, h.strategyAccount, _, h.strategy, _, h.mmAccount, _,
      h.mm, _, h.quotesAccount, _, h.cfgAccount, _, h.cfg, base, hbase, quote, hquote, _,
      hbaseInfo, _, hquoteInfo, vaultBase, hvaultBase, vaultQuote, hvaultQuote, clockAccount,
      hclockAccount, (snap.slot, snap.unixSec), hclock, _, h.freshExtKeys, rfl⟩

end QuayTitan.Quay
