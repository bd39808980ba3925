import QuayTitan.Verification.Quay.Gate

/-! # Refreshing forgets the history of the venue -/

namespace QuayTitan

/-- A cache that answers every request from one state of the chain. -/
def AccountsCache.ofChain (chain : Pubkey → Option Account) : AccountsCache :=
  ⟨fun keys => .ok (keys.map chain)⟩

namespace Quay

open Attempts Fallible

variable {sdk : Sdk} {chain : Pubkey → Option Account} {venue other : QuayVenue}

/-! ## The addresses fixed at construction -/

structure SameKeys (venue other : QuayVenue) : Prop where
  programId : venue.programId = other.programId
  strategyKey : venue.strategyKey = other.strategyKey
  mmKey : venue.mmKey = other.mmKey
  quotesKey : venue.quotesKey = other.quotesKey
  globalConfigKey : venue.globalConfigKey = other.globalConfigKey
  baseMint : venue.baseMint = other.baseMint
  quoteMint : venue.quoteMint = other.quoteMint
  vaultBaseKey : venue.vaultBaseKey = other.vaultBaseKey
  vaultQuoteKey : venue.vaultQuoteKey = other.vaultQuoteKey

theorem SameKeys.refl (venue : QuayVenue) : SameKeys venue venue :=
  ⟨rfl, rfl, rfl, rfl, rfl, rfl, rfl, rfl, rfl⟩

theorem SameKeys.symm (h : SameKeys venue other) : SameKeys other venue :=
  ⟨h.programId.symm, h.strategyKey.symm, h.mmKey.symm, h.quotesKey.symm,
    h.globalConfigKey.symm, h.baseMint.symm, h.quoteMint.symm, h.vaultBaseKey.symm,
    h.vaultQuoteKey.symm⟩

theorem SameKeys.trans {third : QuayVenue} (h : SameKeys venue other)
    (h' : SameKeys other third) : SameKeys venue third :=
  ⟨h.programId.trans h'.programId, h.strategyKey.trans h'.strategyKey,
    h.mmKey.trans h'.mmKey, h.quotesKey.trans h'.quotesKey,
    h.globalConfigKey.trans h'.globalConfigKey, h.baseMint.trans h'.baseMint,
    h.quoteMint.trans h'.quoteMint, h.vaultBaseKey.trans h'.vaultBaseKey,
    h.vaultQuoteKey.trans h'.vaultQuoteKey⟩

theorem commit_sameKeys (snap : Snapshot) (venue : QuayVenue) :
    SameKeys (snap.commit venue) venue :=
  ⟨rfl, rfl, rfl, rfl, rfl, rfl, rfl, rfl, rfl⟩

/-- No update changes an address fixed at construction. -/
theorem run_sameKeys (sdk : Sdk) (caches : List AccountsCache) (venue : QuayVenue) :
    SameKeys (run (QuayVenue.updateState sdk) caches venue) venue := by
  apply run_invariant (fun state => SameKeys state venue) (atomic_updateState sdk) _ caches
    (SameKeys.refl venue)
  intro cache state state' hstate hstep
  obtain ⟨snap, _, rfl⟩ := updateState_ok_iff.mp hstep
  exact (commit_sameKeys snap state).trans hstate

theorem requiredUpdatePubkeys_congr (h : SameKeys venue other)
    (hext : venue.extKeys = other.extKeys) :
    venue.requiredUpdatePubkeys = other.requiredUpdatePubkeys := by
  simp only [QuayVenue.requiredUpdatePubkeys, h.strategyKey, h.mmKey, h.quotesKey,
    h.globalConfigKey, h.baseMint, h.quoteMint, h.vaultBaseKey, h.vaultQuoteKey, hext]

/-- A snapshot overwrites everything but the fixed addresses. -/
theorem commit_congr (snap : Snapshot) (h : SameKeys venue other)
    (hext : venue.extKeys = other.extKeys) : snap.commit venue = snap.commit other := by
  ext <;> simp only [Snapshot.commit, h.programId, h.strategyKey, h.mmKey, h.quotesKey,
    h.globalConfigKey, h.baseMint, h.quoteMint, h.vaultBaseKey, h.vaultQuoteKey, hext]

/-! ## One state of the chain -/

/-- Every account a refresh of the venue demands exists on the chain and decodes. The
external accounts are not demanded. -/
structure Readable (sdk : Sdk) (chain : Pubkey → Option Account) (venue : QuayVenue)
    (strategyAccount : Account) (strategy : StrategyHeader) : Prop where
  strategy_found : chain venue.strategyKey = some strategyAccount
  strategy_decoded : sdk.strategyTryFromAccount strategyAccount.data = .ok strategy
  binding : ∃ keys, sdk.extAccountKeys strategy strategyAccount.data = .ok keys
  marketMaker : ∃ account mm, chain venue.mmKey = some account ∧
    sdk.marketMakerTryFromAccount account.data = .ok mm
  quotes : ∃ account, chain venue.quotesKey = some account
  globalConfig : ∃ account cfg, chain venue.globalConfigKey = some account ∧
    sdk.globalConfigTryFromAccount account.data = .ok cfg
  baseMint : ∃ account info, chain venue.baseMint = some account ∧
    TokenInfo.new sdk.unpackMint venue.baseMint account 0 = .ok info
  quoteMint : ∃ account info, chain venue.quoteMint = some account ∧
    TokenInfo.new sdk.unpackMint venue.quoteMint account 0 = .ok info
  vaultBase : ∃ account, chain venue.vaultBaseKey = some account
  vaultQuote : ∃ account, chain venue.vaultQuoteKey = some account
  clock : ∃ account slot unixSec, chain sysvarClockId = some account ∧
    decodeClock account.data = some (slot, unixSec)

/-- The snapshot with the accounts the chain answers to the request of a venue. -/
def Snapshot.answering (snap : Snapshot) (chain : Pubkey → Option Account)
    (venue : QuayVenue) : Snapshot :=
  { snap with accounts := venue.requiredUpdatePubkeys.map chain }

/-- On a readable chain all venues with the same fixed addresses read one snapshot, up to
the external accounts they ask for. -/
theorem Readable.exists_snapshot {strategyAccount : Account} {strategy : StrategyHeader}
    (h : Readable sdk chain venue strategyAccount strategy) :
    ∃ snap : Snapshot, sdk.extAccountKeys strategy strategyAccount.data = .ok snap.freshExtKeys ∧
      ∀ other, SameKeys other venue →
        Answers sdk (.ofChain chain) other (snap.answering chain other) := by
  obtain ⟨keys, hkeys⟩ := h.binding
  obtain ⟨mmAccount, mm, hmmAccount, hmm⟩ := h.marketMaker
  obtain ⟨quotesAccount, hquotes⟩ := h.quotes
  obtain ⟨cfgAccount, cfg, hcfgAccount, hcfg⟩ := h.globalConfig
  obtain ⟨base, baseInfo, hbase, hbaseInfo⟩ := h.baseMint
  obtain ⟨quote, quoteInfo, hquote, hquoteInfo⟩ := h.quoteMint
  obtain ⟨vaultBase, hvaultBase⟩ := h.vaultBase
  obtain ⟨vaultQuote, hvaultQuote⟩ := h.vaultQuote
  obtain ⟨clockAccount, slot, unixSec, hclockAccount, hclock⟩ := h.clock
  refine ⟨⟨[], strategyAccount, strategy, mmAccount, mm, quotesAccount, cfgAccount, cfg, baseInfo,
    quoteInfo, slot, unixSec, keys⟩, hkeys, fun other hother => ?_⟩
  have hanswer (slot : ℕ) (key : Pubkey) (account : Account)
      (hkey : other.requiredUpdatePubkeys[slot]? = some key)
      (haccount : chain key = some account) :
      (other.requiredUpdatePubkeys.map chain)[slot]? = some (some account) := by
    rw [List.getElem?_map, hkey, Option.map_some, haccount]
  exact {
    fetched := rfl
    length_eq := List.length_map _
    strategyAccount := hanswer 0 _ _ rfl (hother.strategyKey ▸ h.strategy_found)
    strategy := h.strategy_decoded
    mmAccount := hanswer 1 _ _ rfl (hother.mmKey ▸ hmmAccount)
    mm := hmm
    quotesAccount := hanswer 2 _ _ rfl (hother.quotesKey ▸ hquotes)
    cfgAccount := hanswer 3 _ _ rfl (hother.globalConfigKey ▸ hcfgAccount)
    cfg := hcfg
    baseMint := ⟨base, hanswer 4 _ _ rfl (hother.baseMint ▸ hbase), hother.baseMint ▸ hbaseInfo⟩
    quoteMint := ⟨quote, hanswer 5 _ _ rfl (hother.quoteMint ▸ hquote),
      hother.quoteMint ▸ hquoteInfo⟩
    vaultBase := ⟨vaultBase, hanswer 6 _ _ rfl (hother.vaultBaseKey ▸ hvaultBase)⟩
    vaultQuote := ⟨vaultQuote, hanswer 7 _ _ rfl (hother.vaultQuoteKey ▸ hvaultQuote)⟩
    clock := ⟨clockAccount, hanswer 8 _ _ rfl hclockAccount, hclock⟩
    freshExtKeys := hkeys }

/-- The venue after one update against the chain. -/
def refreshed (snap : Snapshot) (chain : Pubkey → Option Account) (venue : QuayVenue) :
    QuayVenue :=
  (snap.answering chain venue).commit venue

theorem refreshed_congr (snap : Snapshot) (h : SameKeys venue other)
    (hext : venue.extKeys = other.extKeys) :
    refreshed snap chain venue = refreshed snap chain other := by
  have hanswering : snap.answering chain venue = snap.answering chain other := by
    rw [Snapshot.answering, Snapshot.answering, requiredUpdatePubkeys_congr h hext]
  rw [refreshed, refreshed, hanswering, commit_congr _ h hext]

/-! ## Every run -/

/-- Two strategy accounts of the same market: one program, owner, pair and quotes account. -/
structure SameMarket (account account' : Account) (strategy strategy' : StrategyHeader) :
    Prop where
  program : account'.owner = account.owner
  owner : strategy'.owner = strategy.owner
  baseMint : strategy'.baseMint = strategy.baseMint
  quoteMint : strategy'.quoteMint = strategy.quoteMint
  quotesAccount : strategy'.quotesAccount = strategy.quotesAccount

theorem Constructed.sameKeys {pubkey : Pubkey} {account account' : Account}
    {strategy strategy' : StrategyHeader} (h : Constructed sdk pubkey account strategy venue)
    (h' : Constructed sdk pubkey account' strategy' other)
    (hsame : SameMarket account account' strategy strategy') : SameKeys other venue := by
  rw [h.venue_eq, h'.venue_eq]
  constructor <;> simp only [unrefreshed, hsame.program, hsame.owner, hsame.baseMint,
    hsame.quoteMint, hsame.quotesAccount]

/-- Whatever happened before, two updates against one state of the chain settle the venue
where a fresh one settles after a single update, and a failed update changes nothing. -/
theorem refresh_forgetsHistory {pubkey : Pubkey} {account strategyAccount : Account}
    {strategy strategy' : StrategyHeader}
    (hfrom : QuayVenue.fromAccount sdk pubkey account = .ok venue)
    (hdecoded : sdk.strategyTryFromAccount account.data = .ok strategy)
    (hchain : Readable sdk chain venue strategyAccount strategy')
    (hsame : SameMarket account strategyAccount strategy strategy')
    (history : List AccountsCache) :
    (∃ fresh once settled, QuayVenue.fromAccount sdk pubkey strategyAccount = .ok fresh ∧
      QuayVenue.updateState sdk (.ofChain chain)
        (run (QuayVenue.updateState sdk) history venue) = .ok ⟨⟩ once ∧
      QuayVenue.updateState sdk (.ofChain chain) once = .ok ⟨⟩ settled ∧
      QuayVenue.updateState sdk (.ofChain chain) fresh = .ok ⟨⟩ settled ∧
      QuayVenue.updateState sdk (.ofChain chain) settled = .ok ⟨⟩ settled) ∧
    ∀ cache error venue', QuayVenue.updateState sdk cache
        (run (QuayVenue.updateState sdk) history venue) = .error error venue' →
      venue' = run (QuayVenue.updateState sdk) history venue := by
  refine ⟨?_, fun cache => atomic_updateState sdk cache _⟩
  obtain ⟨found, hconstructed⟩ := fromAccount_ok_iff.mp hfrom
  obtain rfl : found = strategy := Except.ok.inj (hconstructed.decoded.symm.trans hdecoded)
  obtain ⟨snap, hbinding, hanswers⟩ := hchain.exists_snapshot
  have hupdate (state : QuayVenue) (hstate : SameKeys state venue) :
      QuayVenue.updateState sdk (.ofChain chain) state = .ok ⟨⟩ (refreshed snap chain state) :=
    updateState_ok_iff.mpr ⟨_, hanswers state hstate, rfl⟩
  have hkeys (state : QuayVenue) (hstate : SameKeys state venue) :
      SameKeys (refreshed snap chain state) venue := (commit_sameKeys _ state).trans hstate
  obtain ⟨fresh, hfresh, hext⟩ : ∃ fresh,
      Constructed sdk pubkey strategyAccount strategy' fresh ∧ fresh.extKeys = snap.freshExtKeys :=
    ⟨unrefreshed sdk pubkey strategyAccount strategy' snap.freshExtKeys,
      ⟨hchain.strategy_decoded, hbinding, rfl⟩, rfl⟩
  have hfreshKeys : SameKeys fresh venue := hconstructed.sameKeys hfresh hsame
  have hrun := run_sameKeys sdk history venue
  set once := refreshed snap chain (run (QuayVenue.updateState sdk) history venue) with honce
  have hsettled : refreshed snap chain once = refreshed snap chain fresh :=
    refreshed_congr snap ((hkeys _ hrun).trans hfreshKeys.symm) hext.symm
  have hstays : refreshed snap chain (refreshed snap chain fresh) = refreshed snap chain fresh :=
    refreshed_congr snap ((hkeys fresh hfreshKeys).trans hfreshKeys.symm) hext.symm
  refine ⟨fresh, once, refreshed snap chain fresh, fromAccount_ok_iff.mpr ⟨_, hfresh⟩,
    hupdate _ hrun, ?_, hupdate fresh hfreshKeys, ?_⟩
  · rw [← hsettled]
    exact hupdate once (hkeys _ hrun)
  · have hagain := hupdate _ (hkeys fresh hfreshKeys)
    rwa [hstays] at hagain

namespace Sample

/-- The strategy was frozen and rebound since it was listed. -/
def reboundAccount : Account := ⟨5, [3, 4, 5, 6, 1, 0, 1, 11, 21, 8, 7], programId⟩

theorem refresh_forgetsHistory_sample :
    (∃ fresh once settled,
      QuayVenue.fromAccount (sdkWith rising) strategyKey reboundAccount = .ok fresh ∧
      QuayVenue.updateState (sdkWith rising) (.ofChain (chainWith reboundAccount))
        (run (QuayVenue.updateState (sdkWith rising)) caches unread) = .ok ⟨⟩ once ∧
      QuayVenue.updateState (sdkWith rising) (.ofChain (chainWith reboundAccount)) once =
        .ok ⟨⟩ settled ∧
      QuayVenue.updateState (sdkWith rising) (.ofChain (chainWith reboundAccount)) fresh =
        .ok ⟨⟩ settled ∧
      QuayVenue.updateState (sdkWith rising) (.ofChain (chainWith reboundAccount)) settled =
        .ok ⟨⟩ settled) ∧
    ∀ cache error venue', QuayVenue.updateState (sdkWith rising) cache
        (run (QuayVenue.updateState (sdkWith rising)) caches unread) =
          .error error venue' →
      venue' = run (QuayVenue.updateState (sdkWith rising)) caches unread := by
  refine refresh_forgetsHistory (fromAccount_ok rising) rfl
    ⟨(rfl : chainWith reboundAccount strategyKey = some reboundAccount), rfl, ⟨_, rfl⟩,
    ⟨stored [0, 0, 0], _, ?_, rfl⟩, ⟨stored [9], ?_⟩, ⟨stored [0, 0], _, ?_, rfl⟩,
    ⟨⟨1, [6], splTokenId⟩, _, ?_, rfl⟩, ⟨⟨1, [9], splTokenId⟩, _, ?_, rfl⟩, ⟨stored [], ?_⟩,
    ⟨stored [], ?_⟩, ⟨stored (ByteFields.zeros 40), 0, 0, ?_, ?_⟩⟩ ⟨rfl, rfl, rfl, rfl, rfl⟩
      caches <;>
  decide +kernel

end Sample

end Quay

end QuayTitan
