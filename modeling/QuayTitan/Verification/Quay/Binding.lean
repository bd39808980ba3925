import QuayTitan.Verification.Quay.History

/-! # The accounts the strategy names

The venue keeps the addresses it derived at construction; a refresh replaces the strategy
bytes they were derived from and re-derives the external binding only. -/

namespace QuayTitan.Quay

open Attempts

variable {sdk : Sdk} {venue : QuayVenue}

/-- The venue trades with the accounts its strategy bytes name. -/
structure NamesAccounts (sdk : Sdk) (venue : QuayVenue) (strategy : StrategyHeader) : Prop where
  decoded : sdk.strategyTryFromAccount venue.strategyData = .ok strategy
  quotes : venue.quotesKey = strategy.quotesAccount
  marketMaker : venue.mmKey = sdk.marketMakerPda venue.programId strategy.owner
  baseMint : venue.baseMint = strategy.baseMint
  quoteMint : venue.quoteMint = strategy.quoteMint

/-- Two headers of one program name the same accounts. -/
structure SameAccounts (sdk : Sdk) (programId : Pubkey) (strategy strategy' : StrategyHeader) :
    Prop where
  quotes : strategy'.quotesAccount = strategy.quotesAccount
  marketMaker : sdk.marketMakerPda programId strategy'.owner =
    sdk.marketMakerPda programId strategy.owner
  baseMint : strategy'.baseMint = strategy.baseMint
  quoteMint : strategy'.quoteMint = strategy.quoteMint

/-- An answer that leaves the venue open for quotes when `extKeys` was the binding it was
fetched under. -/
structure Snapshot.Opens (sdk : Sdk) (snap : Snapshot) (extKeys : List Pubkey) : Prop where
  routed : snap.strategy.routingFlags &&& sdk.routeTitan ≠ 0
  covers : (freshExtData snap.accounts extKeys snap.freshExtKeys).length =
    snap.freshExtKeys.length
  stored : snap.mmAccount.data ≠ [] ∧ snap.quotesAccount.data ≠ [] ∧ snap.cfgAccount.data ≠ []
  cfg_running : snap.cfg.swapHalted = 0 ∧ snap.cfg.protocolHalted = 0
  strategy_running : snap.strategy.frozen = 0 ∧ snap.strategy.frozenAdmin = 0
  mm_running : snap.mm.frozen = 0 ∧ snap.mm.frozenAdmin = 0 ∧ snap.mm.haltedAdmin = 0

theorem Snapshot.opens_iff (snap : Snapshot) (venue : QuayVenue) :
    (snap.commit venue).initialized sdk = true ↔ snap.Opens sdk venue.extKeys := by
  rw [initialized_iff]
  constructor
  · rintro ⟨hrouted, ⟨hcovers, hstored⟩, hswap, hprotocol, hfrozen, hfrozenAdmin, hmm⟩
    exact ⟨hrouted, hcovers, hstored, ⟨hswap, hprotocol⟩, ⟨hfrozen, hfrozenAdmin⟩, hmm⟩
  · intro h
    exact ⟨h.routed, ⟨h.covers, h.stored⟩, h.cfg_running.1, h.cfg_running.2,
      h.strategy_running.1, h.strategy_running.2, h.mm_running⟩

/-- A committed answer names the accounts of the venue when its header names those of the
header the venue was built from. -/
theorem Constructed.namesAccounts_iff {pubkey : Pubkey} {account : Account}
    {strategy : StrategyHeader} {state : QuayVenue} {cache : AccountsCache} {snap : Snapshot}
    (h : Constructed sdk pubkey account strategy venue) (hstate : SameKeys state venue)
    (hanswers : Answers sdk cache state snap) :
    (∃ header, NamesAccounts sdk (snap.commit state) header) ↔
      SameAccounts sdk account.owner strategy snap.strategy := by
  have hkeys := (commit_sameKeys snap state).trans hstate
  have hprogram : (snap.commit state).programId = account.owner := by
    rw [hkeys.programId, h.venue_eq, unrefreshed]
  have hmm : (snap.commit state).mmKey = sdk.marketMakerPda account.owner strategy.owner := by
    rw [hkeys.mmKey, h.venue_eq, unrefreshed]
  have hquotes : (snap.commit state).quotesKey = strategy.quotesAccount := by
    rw [hkeys.quotesKey, h.venue_eq, unrefreshed]
  have hbase : (snap.commit state).baseMint = strategy.baseMint := by
    rw [hkeys.baseMint, h.venue_eq, unrefreshed]
  have hquote : (snap.commit state).quoteMint = strategy.quoteMint := by
    rw [hkeys.quoteMint, h.venue_eq, unrefreshed]
  constructor
  · rintro ⟨header, hnames⟩
    obtain rfl : snap.strategy = header :=
      Except.ok.inj (hanswers.strategy.symm.trans hnames.decoded)
    refine ⟨hnames.quotes.symm.trans hquotes, ?_, hnames.baseMint.symm.trans hbase,
      hnames.quoteMint.symm.trans hquote⟩
    rw [← hprogram, ← hnames.marketMaker, hmm, hprogram]
  · intro hsame
    refine ⟨snap.strategy, hanswers.strategy, hquotes.trans hsame.quotes.symm, ?_,
      hbase.trans hsame.baseMint.symm, hquote.trans hsame.quoteMint.symm⟩
    rw [hmm, hprogram, hsame.marketMaker]

/-! ## Every run -/

/-- Along a run, every open venue names its accounts exactly when every accepted answer that
opened it did name the accounts of the construction header. -/
theorem namesAccounts_run_iff {pubkey : Pubkey} {account : Account} {strategy : StrategyHeader}
    (hfrom : QuayVenue.fromAccount sdk pubkey account = .ok venue)
    (hdecoded : sdk.strategyTryFromAccount account.data = .ok strategy)
    (caches : List AccountsCache) :
    (∀ reached, reached <+: caches →
      (run (QuayVenue.updateState sdk) reached venue).initialized sdk = true →
      ∃ header, NamesAccounts sdk (run (QuayVenue.updateState sdk) reached venue) header) ↔
    ∀ before cache, before ++ [cache] <+: caches → ∀ snap,
      Answers sdk cache (run (QuayVenue.updateState sdk) before venue) snap →
      snap.Opens sdk (run (QuayVenue.updateState sdk) before venue).extKeys →
      SameAccounts sdk account.owner strategy snap.strategy := by
  obtain ⟨found, hconstructed⟩ := fromAccount_ok_iff.mp hfrom
  obtain rfl : found = strategy := Except.ok.inj (hconstructed.decoded.symm.trans hdecoded)
  constructor
  · intro h before cache hreached snap hanswers hopens
    have hstep : run (QuayVenue.updateState sdk) (before ++ [cache]) venue =
        snap.commit (run (QuayVenue.updateState sdk) before venue) := by
      rw [run_concat, updateState_ok_iff.mpr ⟨snap, hanswers, rfl⟩, finalState]
    have hnames := h _ hreached
    rw [hstep] at hnames
    exact (hconstructed.namesAccounts_iff (run_sameKeys sdk before venue) hanswers).mp
      (hnames ((snap.opens_iff _).mpr hopens))
  · intro h reached hreached hinit
    rcases run_cases (atomic_updateState sdk) reached venue with
      hstart | ⟨before, cache, after, hlast⟩
    · rw [hstart, hconstructed.not_initialized] at hinit
      cases hinit
    · obtain ⟨snap, hanswers, hcommit⟩ := updateState_ok_iff.mp hlast.succeeded
      have hbefore : before ++ [cache] <+: caches := by
        refine List.IsPrefix.trans ⟨after, ?_⟩ hreached
        rw [hlast.inputs_eq, List.append_assoc, List.singleton_append]
      rw [hcommit] at hinit ⊢
      exact (hconstructed.namesAccounts_iff (run_sameKeys sdk before venue) hanswers).mpr
        (h before cache hbefore snap hanswers ((snap.opens_iff _).mp hinit))

namespace Sample

theorem namesAccounts_run_iff_sample :
    (∀ reached, reached <+: caches →
      (run (QuayVenue.updateState (sdkWith rising)) reached unread).initialized
        (sdkWith rising) = true →
      ∃ header, NamesAccounts (sdkWith rising)
        (run (QuayVenue.updateState (sdkWith rising)) reached unread) header) ↔
    ∀ before cache, before ++ [cache] <+: caches → ∀ snap,
      Answers (sdkWith rising) cache
        (run (QuayVenue.updateState (sdkWith rising)) before unread) snap →
      snap.Opens (sdkWith rising)
        (run (QuayVenue.updateState (sdkWith rising)) before unread).extKeys →
      SameAccounts (sdkWith rising) strategyAccount.owner header snap.strategy :=
  namesAccounts_run_iff (fromAccount_ok rising) rfl caches

/-- The same strategy once it was moved to the quotes account 8. -/
def movedAccount : Account := ⟨1, [3, 4, 5, 8, 0, 0, 1, 2, 20, 7], programId⟩

/-- The venue opens on the bytes of the moved strategy and still prices off account 6. -/
theorem movedQuotes_counterexample :
    QuayVenue.fromAccount (sdkWith rising) strategyKey strategyAccount = .ok unread ∧
    (run (QuayVenue.updateState (sdkWith rising)) [.ofChain (chainWith movedAccount)]
      unread).initialized (sdkWith rising) = true ∧
    ¬ ∃ header, NamesAccounts (sdkWith rising)
      (run (QuayVenue.updateState (sdkWith rising)) [.ofChain (chainWith movedAccount)]
        unread) header := by
  refine ⟨rfl, by decide +kernel, ?_⟩
  rintro ⟨named, hnames⟩
  have hstored : (run (QuayVenue.updateState (sdkWith rising))
      [.ofChain (chainWith movedAccount)] unread).strategyData = movedAccount.data := by
    decide +kernel
  have hdecoded := hnames.decoded
  rw [hstored] at hdecoded
  obtain rfl := Except.ok.inj hdecoded
  have hquotes : (run (QuayVenue.updateState (sdkWith rising))
      [.ofChain (chainWith movedAccount)] unread).quotesKey ≠ key 8 := by
    decide +kernel
  exact hquotes hnames.quotes

end Sample

end QuayTitan.Quay
