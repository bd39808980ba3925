import QuayTitan.Model.Quay.Swap
import QuayTitan.Verification.Token
import QuayTitan.Verification.Quay.Reached

/-! # What a swap reads

The venue simulates a swap on cached bytes; the program reads the accounts. On the accounts
of the last answer both are given the same inputs. -/

namespace QuayTitan.Quay

open Attempts Fallible ByteFields

variable {sdk : Sdk} {venue : QuayVenue} {requested : List Pubkey}
  {accounts : List (Option Account)}

/-! ## The last answer -/

/-- The last update that succeeded was answered with these accounts. -/
def Refreshed (sdk : Sdk) (venue : QuayVenue) (requested : List Pubkey)
    (accounts : List (Option Account)) : Prop :=
  ∃ pubkey account start caches before cache after,
    QuayVenue.fromAccount sdk pubkey account = .ok start ∧
    LastSuccess (QuayVenue.updateState sdk) caches start before cache after ∧
    (run (QuayVenue.updateState sdk) before start).requiredUpdatePubkeys = requested ∧
    cache.getAccounts requested = .ok accounts ∧
    run (QuayVenue.updateState sdk) caches start = venue

theorem Refreshed.reached (h : Refreshed sdk venue requested accounts) : Reached sdk venue := by
  obtain ⟨pubkey, account, start, caches, _, _, _, hfrom, _, _, _, hrun⟩ := h
  exact ⟨pubkey, account, start, caches, hfrom, hrun⟩

/-- A venue that quotes was refreshed. -/
theorem Reached.refreshed (h : Reached sdk venue) (hinit : venue.initialized sdk = true) :
    ∃ requested accounts, Refreshed sdk venue requested accounts := by
  obtain ⟨pubkey, account, start, caches, hfrom, rfl⟩ := h
  obtain ⟨strategy, hconstructed⟩ := fromAccount_ok_iff.mp hfrom
  rcases run_cases (atomic_updateState sdk) caches start with hstart | ⟨before, cache, after, hlast⟩
  · rw [hstart, hconstructed.not_initialized] at hinit
    cases hinit
  · obtain ⟨snap, hanswers, _⟩ := updateState_ok_iff.mp hlast.succeeded
    exact ⟨_, snap.accounts, pubkey, account, start, caches, before, cache, after, hfrom, hlast,
      rfl, hanswers.fetched, rfl⟩

/-- The answer is the one the venue committed. -/
theorem Refreshed.answers (h : Refreshed sdk venue requested accounts) :
    ∃ cache state snap, Answers sdk cache state snap ∧ snap.commit state = venue ∧
      state.requiredUpdatePubkeys = requested ∧ snap.accounts = accounts := by
  obtain ⟨_, _, start, caches, before, cache, after, _, hlast, hrequested, hfetched, hrun⟩ := h
  obtain ⟨snap, hanswers, hcommit⟩ := updateState_ok_iff.mp hlast.succeeded
  refine ⟨cache, _, snap, hanswers, hcommit.symm.trans hrun, hrequested, ?_⟩
  rw [← hrequested] at hfetched
  exact Except.ok.inj (hanswers.fetched.symm.trans hfetched)

/-! ## The inputs of a swap -/

/-- The bank holds the accounts of an answer. -/
def OnBank (requested : List Pubkey) (accounts : List (Option Account)) (bank : Bank) : Prop :=
  ∀ slot key account, Entry requested accounts slot key account → SameContents account (bank key)

theorem OnBank.of_sameContents {bank bank' : Bank} (h : OnBank requested accounts bank)
    (hsame : ∀ key ∈ requested, SameContents (bank key) (bank' key)) :
    OnBank requested accounts bank' := fun slot key account hentry =>
  (h slot key account hentry).trans (hsame key (List.mem_of_getElem? hentry.requested))

/-- What the simulator is given when a swap of the strategy reads the accounts of the bank. -/
def chainInputs (sdk : Sdk) (venue : QuayVenue) (bank : Bank) (side : UInt8) (amountIn : UInt64) :
    Option SwapSimulationInputs := do
  let (slot, unixSec) ← decodeClock (bank sysvarClockId).data
  let baseMint ← sdk.unpackMint (bank venue.baseMint).data
  let quoteMint ← sdk.unpackMint (bank venue.quoteMint).data
  some {
    strategyData := (bank venue.strategyKey).data
    marketMakerData := (bank venue.mmKey).data
    quotesData := (bank venue.quotesKey).data
    globalConfigData := (bank venue.globalConfigKey).data
    currentSlot := slot
    currentUnixSec := unixSec
    side := side
    amountIn := amountIn
    minAmountOut := 0
    baseDecimals := baseMint.decimals
    quoteDecimals := quoteMint.decimals
    tx := { ixDepth := 2, txFlags := 0, entrypointProgram := titanRouterId, signers := [] }
    lastRestartSlot := 0
    extAccounts := venue.extKeys.map fun key => ⟨key, (bank key).data⟩ }

/-- What the metadata of a token keeps of its mint. -/
structure KeepsMint (sdk : Sdk) (account : Account) (info : TokenInfo) : Prop where
  decimals_eq : ∃ mint, sdk.unpackMint account.data = some mint ∧
    info.decimals.toUInt32.toUInt8 = mint.decimals
  program_eq : info.getTokenProgram =
    if account.owner = token2022Id then token2022Id else splTokenId

theorem keepsMint_of_new {mint : Pubkey} {account : Account} {epoch : UInt64} {info : TokenInfo}
    (h : TokenInfo.new sdk.unpackMint mint account epoch = .ok info) :
    KeepsMint sdk account info := by
  unfold TokenInfo.new at h
  split at h
  · rename_i state hstate
    obtain rfl := Except.ok.inj h
    exact ⟨⟨state, hstate, by simp⟩, by simp [TokenInfo.getTokenProgram]⟩
  · cases h

theorem KeepsMint.of_sameContents {account account' : Account} {info : TokenInfo}
    (h : KeepsMint sdk account info) (hsame : SameContents account account') :
    KeepsMint sdk account' info :=
  ⟨by rw [hsame.data_eq]; exact h.decimals_eq, by rw [hsame.owner_eq]; exact h.program_eq⟩

/-- The metadata of both tokens was read off the mints. -/
structure ListedMints (sdk : Sdk) (venue : QuayVenue) (bank : Bank) (base quote : TokenInfo) :
    Prop where
  pair : PairTokens venue base quote
  base_kept : KeepsMint sdk (bank venue.baseMint) base
  quote_kept : KeepsMint sdk (bank venue.quoteMint) quote

theorem Refreshed.listedMints (h : Refreshed sdk venue requested accounts) {bank : Bank}
    (hbank : OnBank requested accounts bank) :
    ∃ base quote, ListedMints sdk venue bank base quote := by
  obtain ⟨cache, state, snap, hanswers, rfl, rfl, rfl⟩ := h.answers
  obtain ⟨base, hbase, hbaseInfo⟩ := hanswers.baseMint
  obtain ⟨quote, hquote, hquoteInfo⟩ := hanswers.quoteMint
  exact ⟨snap.baseInfo, snap.quoteInfo, commit_pairTokens hanswers,
    (keepsMint_of_new hbaseInfo).of_sameContents (hbank 4 _ _ ⟨rfl, hbase⟩),
    (keepsMint_of_new hquoteInfo).of_sameContents (hbank 5 _ _ ⟨rfl, hquote⟩)⟩

theorem PairTokens.find_quote_eq {base quote : TokenInfo} (h : PairTokens venue base quote)
    (hne : venue.baseMint ≠ venue.quoteMint) :
    venue.tokens.find? (·.pubkey = venue.quoteMint) = some quote := by
  rw [h.tokens_eq, List.find?_cons_of_neg, List.find?_cons_of_pos]
  · simpa using h.quote_eq
  · simpa [h.base_eq] using hne

/-- The external accounts of an answer are those of the bank that holds it. -/
theorem SimulatesAnswer.extAccounts_eq {strategy : StrategyHeader}
    {inputs : SwapSimulationInputs} {bank : Bank}
    (h : SimulatesAnswer sdk requested accounts strategy venue inputs)
    (hbank : OnBank requested accounts bank) :
    venue.extKeys.map (fun key => (⟨key, (bank key).data⟩ : ExtAccount)) = inputs.extAccounts := by
  have hstored : ∀ ext ∈ inputs.extAccounts,
      (⟨ext.key, (bank ext.key).data⟩ : ExtAccount) = ext := by
    intro ext hmem
    obtain ⟨i, hget⟩ := List.mem_iff_getElem?.mp hmem
    obtain ⟨account, hentry, hdata⟩ := h.extAccounts i ext hget
    rw [(hbank _ _ _ hentry).data_eq, ← hdata]
  rw [← h.extKeys, List.map_map]
  exact (List.map_congr_left hstored).trans (List.map_id _)

/-- On the accounts of the last answer, a swap reads what the venue simulates it with. -/
theorem Refreshed.chainInputs_eq (h : Refreshed sdk venue requested accounts)
    (hfits : BindingFits sdk) (hinit : venue.initialized sdk = true)
    (hne : venue.baseMint ≠ venue.quoteMint) {bank : Bank}
    (hbank : OnBank requested accounts bank) {baseDecimals quoteDecimals : UInt8}
    (hbase : venue.decimalsOf venue.baseMint "base TokenInfo" = .ok baseDecimals)
    (hquote : venue.decimalsOf venue.quoteMint "quote TokenInfo" = .ok quoteDecimals)
    (side : UInt8) (amountIn : UInt64) :
    chainInputs sdk venue bank side amountIn =
      some (venue.simulationInputs side baseDecimals quoteDecimals amountIn) := by
  obtain ⟨base, quote, hpair, hbaseKept, hquoteKept⟩ := h.listedMints hbank
  obtain ⟨baseMint, hbaseMint, hbaseDecimals⟩ := hbaseKept.decimals_eq
  obtain ⟨quoteMint, hquoteMint, hquoteDecimals⟩ := hquoteKept.decimals_eq
  rw [QuayVenue.decimalsOf, hpair.find_base] at hbase
  rw [QuayVenue.decimalsOf, hpair.find_quote_eq hne] at hquote
  obtain rfl := Except.ok.inj hbase
  obtain rfl := Except.ok.inj hquote
  obtain ⟨cache, state, snap, hanswers, rfl, rfl, rfl⟩ := h.answers
  have hsimulates := (hanswers.openAnswer hfits hinit).simulates side
    base.decimals.toUInt32.toUInt8 quote.decimals.toUInt32.toUInt8 amountIn
  have hext := hsimulates.extAccounts_eq hbank
  obtain ⟨strategy, hstrategy, hstrategyData⟩ := hsimulates.strategyData
  obtain ⟨mm, hmm, hmmData⟩ := hsimulates.marketMakerData
  obtain ⟨quotes, hquotes, hquotesData⟩ := hsimulates.quotesData
  obtain ⟨cfg, hcfg, hcfgData⟩ := hsimulates.globalConfigData
  obtain ⟨clock, hclock, hclockData⟩ := hsimulates.clock
  rw [← (hbank _ _ _ hclock).data_eq] at hclockData
  rw [← (hbank _ _ _ hstrategy).data_eq] at hstrategyData
  rw [← (hbank _ _ _ hmm).data_eq] at hmmData
  rw [← (hbank _ _ _ hquotes).data_eq] at hquotesData
  rw [← (hbank _ _ _ hcfg).data_eq] at hcfgData
  simp only [chainInputs, hclockData, hbaseMint, hquoteMint, Option.bind_eq_bind,
    Option.bind_some, ← hstrategyData, ← hmmData, ← hquotesData, ← hcfgData, hext,
    ← hbaseDecimals, ← hquoteDecimals]
  rfl

end QuayTitan.Quay
