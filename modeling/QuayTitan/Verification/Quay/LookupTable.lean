import QuayTitan.Verification.Quay.OnChainSwap

/-! # The address lookup table

The keys of the lookup table are listed by the venue, the accounts of a swap by the SDK. -/

namespace QuayTitan.Quay

open Attempts Fallible

variable {sdk : Sdk} {rt : Runtime} {venue : QuayVenue} {request : QuoteRequest} {user : Pubkey}

/-! ## Derived addresses -/

/-- The config and the vaults of the venue are those the SDK derives. -/
structure DerivedKeys (sdk : Sdk) (venue : QuayVenue) : Prop where
  globalConfig_eq : venue.globalConfigKey = sdk.globalConfigPda venue.programId
  vaultBase_eq : venue.vaultBaseKey = sdk.vaultPda venue.programId venue.mmKey venue.baseMint
  vaultQuote_eq : venue.vaultQuoteKey = sdk.vaultPda venue.programId venue.mmKey venue.quoteMint

theorem derivedKeys_unrefreshed (sdk : Sdk) (pubkey : Pubkey) (account : Account)
    (strategy : StrategyHeader) (extKeys : List Pubkey) :
    DerivedKeys sdk (unrefreshed sdk pubkey account strategy extKeys) :=
  ⟨rfl, rfl, rfl⟩

/-- They are fixed at construction, with all that they are derived from. -/
theorem DerivedKeys.congr {other : QuayVenue} (h : DerivedKeys sdk other)
    (hkeys : SameKeys venue other) : DerivedKeys sdk venue := by
  refine ⟨?_, ?_, ?_⟩
  · rw [hkeys.globalConfigKey, hkeys.programId, h.globalConfig_eq]
  · rw [hkeys.vaultBaseKey, hkeys.programId, hkeys.mmKey, hkeys.baseMint, h.vaultBase_eq]
  · rw [hkeys.vaultQuoteKey, hkeys.programId, hkeys.mmKey, hkeys.quoteMint, h.vaultQuote_eq]

theorem Reached.derivedKeys (h : Reached sdk venue) : DerivedKeys sdk venue := by
  obtain ⟨pubkey, account, start, caches, hfrom, rfl⟩ := h
  obtain ⟨strategy, hconstructed⟩ := fromAccount_ok_iff.mp hfrom
  apply DerivedKeys.congr _ (run_sameKeys sdk caches start)
  rw [hconstructed.venue_eq]
  exact derivedKeys_unrefreshed sdk pubkey account strategy start.extKeys

/-! ## The accounts of a built swap -/

theorem getTokenProgram_dependency (venue : QuayVenue) (info : TokenInfo) :
    info.getTokenProgram ∈ venue.programDependencies := by
  unfold TokenInfo.getTokenProgram QuayVenue.programDependencies
  split <;> simp

/-- Every token program that the venue finds for a mint is one it depends on. -/
theorem tokenProgramFor_dependency {mint tokenProgram : Pubkey}
    (h : venue.tokenProgramFor mint = some tokenProgram) :
    tokenProgram ∈ venue.programDependencies := by
  obtain ⟨info, _, rfl⟩ := Option.map_eq_some_iff.mp h
  exact getTokenProgram_dependency venue info

/-- A swap that the venue accepts to build. -/
structure Accepted (sdk : Sdk) (rt : Runtime) (venue : QuayVenue) (request : QuoteRequest)
    (user : Pubkey) (instruction : Instruction) : Prop where
  built : instruction = sdk.swapWithExt (venue.swapAccounts rt user) request.amount 0
    (Route.Quay.sideByte (venue.sellsBase request))
  pair : TradesPair venue request
  baseProgram : (venue.swapAccounts rt user).baseTokenProgram ∈ venue.programDependencies
  quoteProgram : (venue.swapAccounts rt user).quoteTokenProgram ∈ venue.programDependencies

theorem accepted_of_ok {instruction : Instruction}
    (h : venue.buildSwapIx sdk rt request user = .ok instruction) :
    Accepted sdk rt venue request user instruction := by
  obtain ⟨_, side, baseProgram, quoteProgram, hside, hbase, hquote, rfl⟩ :=
    buildSwapIx_inversion h
  obtain ⟨hpair, rfl⟩ := sideOf_eq_ok.mp hside
  refine ⟨rfl, hpair, ?_, ?_⟩
  · rw [QuayVenue.swapAccounts, hbase, Option.getD_some]
    exact tokenProgramFor_dependency hbase
  · rw [QuayVenue.swapAccounts, hquote, Option.getD_some]
    exact tokenProgramFor_dependency hquote

/-! ## Coverage -/

/-- The accounts of a swap that vary by user. -/
def QuayVenue.userKeys (rt : Runtime) (venue : QuayVenue) (user : Pubkey) : List Pubkey :=
  [user, (venue.swapAccounts rt user).takerAtaBase, (venue.swapAccounts rt user).takerAtaQuote]

/-- `swap_with_ext` makes an instruction of the given program, on the documented accounts. -/
structure EmitsSwap (sdk : Sdk) : Prop where
  documented : DocumentedSwap sdk
  programId_eq : ∀ swap amountIn minAmountOut side,
    (sdk.swapWithExt swap amountIn minAmountOut side).programId = swap.programId

/-- The keys of the lookup table, whatever the cache. -/
theorem getLookupTableKeys_eq (venue : QuayVenue) (cache : Option AccountsCache) :
    ∃ keys, venue.getLookupTableKeys cache = .ok keys ∧
      [venue.programId, venue.globalConfigKey, venue.strategyKey, venue.mmKey, venue.quotesKey,
        venue.vaultBaseKey, venue.vaultQuoteKey, venue.baseMint, venue.quoteMint,
        sysvarInstructionsId] ⊆ keys ∧
      venue.extKeys ⊆ keys ∧ venue.programDependencies ⊆ keys := by
  refine ⟨_, rfl, ?_, ?_, ?_⟩
  · exact List.Subset.trans (List.subset_append_left _ _) (List.subset_append_left _ _)
  · exact List.Subset.trans (List.subset_append_right _ _) (List.subset_append_left _ _)
  · exact List.subset_append_right _ _

/-- The accounts every swap lists first are accounts of the user or fixed for the venue. -/
theorem DerivedKeys.swapKeys_subset (h : DerivedKeys sdk venue) (sellBase : Bool) :
    swapKeys sdk (venue.swapAccounts rt user) ((venue.swapAccounts rt user).sides sellBase) ⊆
      venue.userKeys rt user ++
        [venue.programId, venue.globalConfigKey, venue.strategyKey, venue.mmKey, venue.quotesKey,
          venue.vaultBaseKey, venue.vaultQuoteKey, venue.baseMint, venue.quoteMint,
          sysvarInstructionsId] := by
  intro key hkey
  rw [h.globalConfig_eq, h.vaultBase_eq, h.vaultQuote_eq]
  cases sellBase <;>
    simp only [swapKeys, SwapAccounts.sides, QuayVenue.userKeys, QuayVenue.swapAccounts,
      List.mem_cons, List.mem_append, List.not_mem_nil, or_false] at hkey ⊢ <;>
    tauto

/-- The lookup table holds every account of a swap that does not vary by user. -/
theorem lookupTable_covers {instruction : Instruction} (hemits : EmitsSwap sdk)
    (hreached : Reached sdk venue) (cache : Option AccountsCache)
    (h : venue.buildSwapIx sdk rt request user = .ok instruction) :
    ∃ keys, venue.getLookupTableKeys cache = .ok keys ∧ instruction.programId ∈ keys ∧
      ∀ account ∈ instruction.accounts, account.pubkey ∉ venue.userKeys rt user →
        account.pubkey ∈ keys := by
  have haccepted := accepted_of_ok h
  obtain ⟨keys, hkeys, hfixed, hext, hprograms⟩ := getLookupTableKeys_eq venue cache
  refine ⟨keys, hkeys, ?_, ?_⟩
  · rw [haccepted.built, hemits.programId_eq]
    exact hfixed (.head _)
  · intro account haccount hvaries
    have hmem : account.pubkey ∈ instruction.accounts.map AccountMeta.pubkey :=
      List.mem_map_of_mem haccount
    obtain ⟨programs, hlayout, _, hmemPrograms⟩ := hemits.documented (venue.swapAccounts rt user)
      (venue.sellsBase request) request.amount
    rw [haccepted.built, hlayout, List.mem_append, List.mem_append] at hmem
    rcases hmem with (hfirst | hprogram) | hbound
    · have hlisted := hreached.derivedKeys.swapKeys_subset _ hfirst
      exact hfixed ((List.mem_append.mp hlisted).resolve_left hvaries)
    · rcases (hmemPrograms _).mp hprogram with heq | heq
      · exact hprograms (heq ▸ haccepted.baseProgram)
      · exact hprograms (heq ▸ haccepted.quoteProgram)
    · exact hext hbound

namespace Sample

theorem emitsSwap_routedSdk : EmitsSwap routedSdk :=
  ⟨documentedSwap_routedSdk, fun _ _ _ _ => rfl⟩

/-- The sale on the refreshed sample venue, for a user of its own. -/
theorem lookupTable_covers_sample :
    ∃ instruction keys, routedVenue.buildSwapIx routedSdk routedRuntime sale (key 50) =
        .ok instruction ∧
      routedVenue.getLookupTableKeys none = .ok keys ∧ instruction.programId ∈ keys ∧
      ∀ account ∈ instruction.accounts,
        account.pubkey ∉ routedVenue.userKeys routedRuntime (key 50) → account.pubkey ∈ keys := by
  have hbuilt := quoted_sale.buildSwapIx_eq routedRuntime (key 50)
  obtain ⟨keys, hcovers⟩ :=
    lookupTable_covers emitsSwap_routedSdk refreshed_routedVenue.reached none hbuilt
  exact ⟨_, keys, hbuilt, hcovers⟩

end Sample

end QuayTitan.Quay
