import QuayTitan.Verification.Quay.ChainInputs
import QuayTitan.Verification.Quay.Direction
import QuayTitan.Verification.Route.Hops
import QuayTitan.Verification.SwapRoute.Slicing

/-! # The swap on chain

The program is assumed to swap as the simulator says, on the accounts the venue was
refreshed from, and to be given the documented accounts. -/

namespace QuayTitan.Quay

open Attempts Fallible ByteFields

variable {sdk : Sdk} {rt : Runtime} {program : Route.VenueProgram} {venue : QuayVenue}
  {request : QuoteRequest} {requested : List Pubkey} {accounts : List (Option Account)}

/-! ## The accounts of a swap -/

/-- The two sides of a swap, input first. -/
def SwapAccounts.sides (swap : SwapAccounts) : (sellBase : Bool) → Route.Sides
  | true => ⟨swap.taker, swap.takerAtaBase, swap.takerAtaQuote, swap.baseMint, swap.quoteMint,
      swap.baseTokenProgram, swap.quoteTokenProgram⟩
  | false => ⟨swap.taker, swap.takerAtaQuote, swap.takerAtaBase, swap.quoteMint, swap.baseMint,
      swap.quoteTokenProgram, swap.baseTokenProgram⟩

/-- The accounts every swap lists first, in the documented order. -/
def swapKeys (sdk : Sdk) (swap : SwapAccounts) (sides : Route.Sides) : List Pubkey :=
  [sdk.globalConfigPda swap.programId, swap.strategy, swap.marketMaker, swap.quotes,
    sdk.vaultPda swap.programId swap.marketMaker sides.mintIn,
    sdk.vaultPda swap.programId swap.marketMaker sides.mintOut, sides.ataIn, sides.ataOut,
    swap.taker, sides.mintIn, sides.mintOut, sysvarInstructionsId]

/-- The documented accounts of a swap: its token programs and the bound external accounts
come last. -/
def SwapLayout (sdk : Sdk) (swap : SwapAccounts) (sellBase : Bool) (keys : List Pubkey) : Prop :=
  ∃ programs, keys = swapKeys sdk swap (swap.sides sellBase) ++ programs ++ swap.extKeys ∧
    programs.length ≤ 2 ∧
    ∀ key, key ∈ programs ↔ key = swap.baseTokenProgram ∨ key = swap.quoteTokenProgram

/-- `swap_with_ext` lists the accounts in the documented order. -/
def DocumentedSwap (sdk : Sdk) : Prop :=
  ∀ swap sellBase amountIn, SwapLayout sdk swap sellBase ((sdk.swapWithExt swap amountIn 0
    (Route.Quay.sideByte sellBase)).accounts.map AccountMeta.pubkey)

/-- A call with the accounts of a built swap, signed by its taker. -/
structure SwapCall (sdk : Sdk) (swap : SwapAccounts) (sellBase : Bool) (amountIn : UInt64)
    (metas : List AccountMeta) (infos : List AccountInfo) : Prop where
  layout : SwapLayout sdk swap sellBase (metas.map AccountMeta.pubkey)
  carries : List.Forall₂ SwapRoute.Carries
    (sdk.swapWithExt swap amountIn 0 (Route.Quay.sideByte sellBase)).accounts metas
  taker_signs : ∀ passed ∈ metas, passed.pubkey = swap.taker → passed.isSigner = true
  infos_eq : infos.map AccountInfo.key = metas.map AccountMeta.pubkey ++ [swap.programId]

/-- The accounts a swap changes besides those of the taker. -/
def QuayVenue.ownKeys (venue : QuayVenue) : List Pubkey :=
  [venue.strategyKey, venue.mmKey, venue.quotesKey, venue.globalConfigKey, venue.vaultBaseKey,
    venue.vaultQuoteKey]

/-- On the accounts of the answer the program takes the input and gives what the simulator
answers, if the token accounts of the taker allow it; besides those it changes only the accounts
`reach`. -/
def SwapsWithin (sdk : Sdk) (program : Route.VenueProgram) (venue : QuayVenue)
    (swap : SwapAccounts) (requested : List Pubkey) (accounts : List (Option Account))
    (reach : Pubkey → Prop) : Prop :=
  ∀ leg sellBase amountIn metas infos bank input output inputs simulation,
    SwapCall sdk swap sellBase amountIn metas infos →
    OnBank requested accounts bank →
    Route.Funded (swap.sides sellBase) amountIn.toNat bank input output →
    amountIn.toNat ≤ input.amount →
    chainInputs sdk venue bank (Route.Quay.sideByte sellBase) amountIn = some inputs →
    sdk.simulateSwapIn inputs = .ok simulation →
    output.amount + simulation.outToTaker.toNat ≤ u64Max →
    ∃ after, program leg ⟨Route.Quay.programId, metas,
        Route.Quay.swapData (Route.Quay.sideByte sellBase) amountIn.toNat⟩ infos bank = .ok after ∧
      Route.Exchanges (swap.sides sellBase) reach amountIn.toNat simulation.outToTaker.toNat input
        output bank after

/-- The same of a program that changes the venue's own accounts. -/
def SwapsAsSimulated (sdk : Sdk) (program : Route.VenueProgram) (venue : QuayVenue)
    (swap : SwapAccounts) (requested : List Pubkey) (accounts : List (Option Account)) : Prop :=
  SwapsWithin sdk program venue swap requested accounts (· ∈ venue.ownKeys)

theorem SwapCall.passed {swap : SwapAccounts} {sellBase : Bool} {amountIn : UInt64}
    {metas : List AccountMeta} {infos : List AccountInfo}
    (h : SwapCall sdk swap sellBase amountIn metas infos) :
    (swap.sides sellBase).ataIn ∈ infos.map AccountInfo.key ∧
      (swap.sides sellBase).ataOut ∈ infos.map AccountInfo.key := by
  obtain ⟨programs, hkeys, _⟩ := h.layout
  rw [h.infos_eq, hkeys]
  simp [swapKeys]

/-- What is assumed of the SDK and of the program on chain. -/
structure SimulatedOnChain (sdk : Sdk) (rt : Runtime) (program : Route.VenueProgram)
    (venue : QuayVenue) (titanPda : Pubkey) (requested : List Pubkey)
    (accounts : List (Option Account)) : Prop where
  fits : BindingFits sdk
  documented : DocumentedSwap sdk
  swaps : SwapsAsSimulated sdk program venue (venue.swapAccounts rt titanPda) requested accounts

theorem Refreshed.length_extKeys (h : Refreshed sdk venue requested accounts)
    (hfits : BindingFits sdk) : venue.extKeys.length ≤ extBufLen := by
  obtain ⟨cache, state, snap, hanswers, rfl, _⟩ := h.answers
  exact hfits _ _ _ hanswers.freshExtKeys

/-- A swap lists few enough accounts to be counted in a byte. -/
theorem DocumentedSwap.length_le (h : DocumentedSwap sdk)
    (hext : venue.extKeys.length ≤ extBufLen) (rt : Runtime) (user : Pubkey) (sellBase : Bool)
    (amountIn : UInt64) :
    (sdk.swapWithExt (venue.swapAccounts rt user) amountIn 0
      (Route.Quay.sideByte sellBase)).accounts.length ≤ 18 := by
  obtain ⟨programs, hkeys, hprograms, _⟩ := h (venue.swapAccounts rt user) sellBase amountIn
  have hlisted : (venue.swapAccounts rt user).extKeys.length ≤ extBufLen := hext
  have hlength := congrArg List.length hkeys
  rw [List.length_map, List.length_append, List.length_append, swapKeys] at hlength
  simp only [List.length_cons, List.length_nil] at hlength
  have hmax : extBufLen = 4 := rfl
  omega

/-! ## The quote -/

/-- A quote for a swap that the router can send to the program on chain. -/
structure Quoted (sdk : Sdk) (venue : QuayVenue) (request : QuoteRequest) (quote : QuoteResult)
    (requested : List Pubkey) (accounts : List (Option Account)) : Prop where
  refreshed : Refreshed sdk venue requested accounts
  programId_eq : venue.programId = Route.Quay.programId
  distinct : venue.baseMint ≠ venue.quoteMint
  quoted : venue.computeQuote sdk request = .ok quote
  filled : quote.notEnoughLiquidity = false
  amount_ne : request.amount ≠ 0
  not_native : request.inputMint ≠ nativeMintId

/-- Which way a request trades. -/
def QuayVenue.sellsBase (venue : QuayVenue) (request : QuoteRequest) : Bool :=
  request.inputMint = venue.baseMint

/-- The simulation behind a quote. -/
structure Simulated (sdk : Sdk) (venue : QuayVenue) (request : QuoteRequest)
    (quote : QuoteResult) (baseDecimals quoteDecimals : UInt8) : Prop where
  quotable : Quotable sdk venue request (Route.Quay.sideByte (venue.sellsBase request))
    baseDecimals quoteDecimals
  simulation : ∃ simulation, sdk.simulateSwapIn (venue.simulationInputs
      (Route.Quay.sideByte (venue.sellsBase request)) baseDecimals quoteDecimals request.amount) =
        .ok simulation ∧
    quote.expectedOutput = simulation.outToTaker

theorem simulated_of_quote {quote : QuoteResult}
    (hquoted : venue.computeQuote sdk request = .ok quote)
    (hfilled : quote.notEnoughLiquidity = false) (hamount : request.amount ≠ 0) :
    ∃ baseDecimals quoteDecimals,
      Simulated sdk venue request quote baseDecimals quoteDecimals := by
  obtain ⟨side, baseDecimals, quoteDecimals, hquotable, hquote⟩ := computeQuote_ok_iff.mp hquoted
  obtain ⟨_, rfl⟩ := sideOf_eq_ok.mp hquotable.side_eq
  refine ⟨baseDecimals, quoteDecimals, hquotable, ?_⟩
  rw [hquote, pricedQuote, if_neg hamount] at hfilled
  cases hsimulated : sdk.simulateSwapIn (venue.simulationInputs
      (Route.Quay.sideByte (venue.sellsBase request)) baseDecimals quoteDecimals
      request.amount) with
  | error error =>
      rw [QuayVenue.simulateOut] at hfilled
      simp only [QuayVenue.sellsBase] at hsimulated
      rw [hsimulated] at hfilled
      cases hfilled
  | ok simulation =>
      refine ⟨simulation, rfl, ?_⟩
      simp only [QuayVenue.sellsBase] at hsimulated
      rw [hquote, pricedQuote, if_neg hamount, QuayVenue.simulateOut, hsimulated]
      rfl

theorem Quoted.simulated {quote : QuoteResult}
    (h : Quoted sdk venue request quote requested accounts) :
    ∃ baseDecimals quoteDecimals,
      Simulated sdk venue request quote baseDecimals quoteDecimals :=
  simulated_of_quote h.quoted h.filled h.amount_ne

/-- Called in any bank that holds the accounts of the answer, the program gives what was
quoted. -/
theorem Simulated.exchangesWithin {quote : QuoteResult} {baseDecimals quoteDecimals : UInt8}
    {swap : SwapAccounts} {reach : Pubkey → Prop} {metas : List AccountMeta}
    {infos : List AccountInfo} {called : Bank} {input output : TokenAccount}
    (h : Simulated sdk venue request quote baseDecimals quoteDecimals)
    (hrefreshed : Refreshed sdk venue requested accounts)
    (hdistinct : venue.baseMint ≠ venue.quoteMint) (hfits : BindingFits sdk)
    (hswaps : SwapsWithin sdk program venue swap requested accounts reach) (leg : ℕ)
    (hcall : SwapCall sdk swap (venue.sellsBase request) request.amount metas infos)
    (hcurrent : OnBank requested accounts called)
    (hfunded : Route.Funded (swap.sides (venue.sellsBase request)) request.amount.toNat called
      input output)
    (hamount : request.amount.toNat ≤ input.amount)
    (hroom : output.amount + quote.expectedOutput.toNat ≤ u64Max) :
    ∃ after, program leg ⟨Route.Quay.programId, metas, Route.Quay.swapData
        (Route.Quay.sideByte (venue.sellsBase request)) request.amount.toNat⟩ infos called =
          .ok after ∧
      Route.Exchanges (swap.sides (venue.sellsBase request)) reach request.amount.toNat
        quote.expectedOutput.toNat input output called after := by
  obtain ⟨simulation, hsimulation, hout⟩ := h.simulation
  rw [hout] at hroom ⊢
  have hinputs := hrefreshed.chainInputs_eq hfits h.quotable.initialized hdistinct hcurrent
    h.quotable.base_eq h.quotable.quote_eq (Route.Quay.sideByte (venue.sellsBase request))
    request.amount
  exact hswaps leg _ _ _ _ _ _ _ _ _ hcall hcurrent hfunded hamount hinputs hsimulation hroom

/-! ## The leg -/

/-- The swap that is built for a quoted request. -/
theorem Simulated.buildSwapIx_eq {quote : QuoteResult} {baseDecimals quoteDecimals : UInt8}
    (h : Simulated sdk venue request quote baseDecimals quoteDecimals)
    (hrefreshed : Refreshed sdk venue requested accounts) (rt : Runtime) (user : Pubkey) :
    venue.buildSwapIx sdk rt request user =
      .ok (sdk.swapWithExt (venue.swapAccounts rt user) request.amount 0
        (Route.Quay.sideByte (venue.sellsBase request))) := by
  obtain ⟨base, quoteInfo, hpair⟩ := hrefreshed.reached.pairTokens h.quotable.initialized
  exact hpair.buildSwapIx_eq h.quotable.exactIn h.quotable.side_eq user

/-- The leg that the route builder makes of it. -/
theorem Simulated.buildSwapLeg_eq {quote : QuoteResult} {baseDecimals quoteDecimals : UInt8}
    (h : Simulated sdk venue request quote baseDecimals quoteDecimals)
    (hrefreshed : Refreshed sdk venue requested accounts) (rt : Runtime) (titanPda : Pubkey)
    («from» «to» : UInt8) :
    ∃ spec legAccounts, SwapRoute.buildSwapLeg (venue.tradingVenue sdk rt) request titanPda «from»
        «to» SwapRoute.routeWeightAll = .ok (spec, legAccounts) ∧
      spec = ⟨.quay (venue.sellsBase request), «from», «to», SwapRoute.routeWeightAll,
        UInt8.ofNat legAccounts.length⟩ ∧
      legAccounts = SwapRoute.assembleLegAccounts (sdk.swapWithExt (venue.swapAccounts rt titanPda)
        request.amount 0 (Route.Quay.sideByte (venue.sellsBase request))) titanPda
          venue.programId := by
  obtain ⟨base, quoteInfo, hpair⟩ := hrefreshed.reached.pairTokens h.quotable.initialized
  refine ⟨_, _, ?_, rfl, rfl⟩
  simp only [SwapRoute.buildSwapLeg, SwapRoute.protocolToVenue, QuayVenue.tradingVenue,
    h.buildSwapIx_eq hrefreshed rt titanPda, hpair.tokens_eq, ok_bind, List.head?_cons,
    Option.map_some, okOrElse, hpair.base_eq]
  rfl

theorem Quoted.buildSwapIx_eq {quote : QuoteResult}
    (h : Quoted sdk venue request quote requested accounts) (rt : Runtime) (user : Pubkey) :
    venue.buildSwapIx sdk rt request user =
      .ok (sdk.swapWithExt (venue.swapAccounts rt user) request.amount 0
        (Route.Quay.sideByte (venue.sellsBase request))) := by
  obtain ⟨_, _, hsimulated⟩ := h.simulated
  exact hsimulated.buildSwapIx_eq h.refreshed rt user

/-! ## A program that swaps what the simulator answers -/

namespace Sample

open Route.Sample (runtime titanPda baseMint quoteMint baseAta quoteAta mintAccount holding
  withAmount)

/-- What follows the fields of a token account that asks for a memo with every transfer. -/
def memoRequired : Bytes := [2, 8, 0, 1, 0, 1]

/-- A runtime that keeps to it: the route has no memo to give. -/
def routedRuntime : Runtime :=
  { runtime with
    permitsTransfer := fun _ _ destinationData => extensions destinationData ≠ memoRequired }

/-- The quote mint is a mint of Token-2022. -/
def quoteMintAccount : Account := { mintAccount with owner := token2022Id }

def quoteHolding (wallet : Pubkey) (amount : ℕ) (tail : Bytes) : Account :=
  ⟨1, newTokenData quoteMint wallet amount none tail, token2022Id⟩

/-- An SDK that lists the accounts of a swap in the documented order. -/
def routedSdk : Sdk :=
  { sdkWith rising with
    swapWithExt := fun swap amountIn _ side =>
      ⟨swap.programId, (swapKeys (sdkWith rising) swap (swap.sides (side = sideSellBase)) ++
          [swap.baseTokenProgram, swap.quoteTokenProgram] ++ swap.extKeys).map fun key =>
            ⟨key, key = swap.taker, true⟩, Route.Quay.swapData side amountIn.toNat⟩
    unpackMint := fun data => data[44]?.map fun decimals => ⟨decimals, fun _ => none⟩ }

theorem documentedSwap_routedSdk : DocumentedSwap routedSdk := by
  intro swap sellBase amountIn
  refine ⟨[swap.baseTokenProgram, swap.quoteTokenProgram], ?_, le_refl 2, by simp⟩
  have hside : decide (Route.Quay.sideByte sellBase = sideSellBase) = sellBase := by
    cases sellBase <;> rfl
  simp only [routedSdk, hside, List.map_map]
  exact List.map_id _

def routedStrategyKey : Pubkey := key 20

/-- The sample strategy, on the program the route calls. -/
def routedStrategy : Account := ⟨1, [3, 4, 5, 6, 0, 0, 1, 2, 20, 7], Route.Quay.programId⟩

def routedStart : QuayVenue :=
  unrefreshed routedSdk routedStrategyKey routedStrategy header [key 7]

/-- What the chain holds of the venue. -/
def routedChain (address : Pubkey) : Option Account :=
  [(routedStrategyKey, routedStrategy), (key 1003, stored [0, 0, 0]), (key 6, stored [9]),
    (key 2000, stored [0, 0]), (baseMint, mintAccount), (quoteMint, quoteMintAccount),
    (key 3004, holding baseMint (key 1003) 100), (key 3005, quoteHolding (key 1003) 100 [2]),
    (sysvarClockId, stored (zeros 40)), (key 7, stored [1, 2])].lookup address

def routedToken (mint : Pubkey) : TokenInfo := ⟨mint, 6, mint = quoteMint, none, none⟩

/-- The venue once it was refreshed. -/
def routedVenue : QuayVenue :=
  { routedStart with
    extData := [[1, 2]]
    mmData := [0, 0, 0]
    quotesData := [9]
    globalConfigData := [0, 0]
    tokens := [routedToken baseMint, routedToken quoteMint]
    cfgSwapHalted := 0
    cfgProtocolHalted := 0
    strategyFrozen := 0
    strategyFrozenAdmin := 0
    mmFrozen := 0
    mmFrozenAdmin := 0
    mmHaltedAdmin := 0 }

def requestedAccounts : List Pubkey := routedStart.requiredUpdatePubkeys

def answeredAccounts : List (Option Account) := requestedAccounts.map routedChain

theorem refreshed_routedVenue :
    Refreshed routedSdk routedVenue requestedAccounts answeredAccounts := by
  have hstep : (QuayVenue.updateState routedSdk (.ofChain routedChain)).run' routedStart =
        some ⟨⟩ ∧
      finalState (QuayVenue.updateState routedSdk (.ofChain routedChain) routedStart) =
        routedVenue := by decide +kernel
  have hok : QuayVenue.updateState routedSdk (.ofChain routedChain) routedStart =
      .ok ⟨⟩ routedVenue := by
    rw [eq_ok_of_run' hstep.1, hstep.2]
  have hrun : run (QuayVenue.updateState routedSdk) [.ofChain routedChain] routedStart =
      routedVenue := by
    rw [← List.nil_append [AccountsCache.ofChain routedChain], run_concat, run_nil, hok, finalState]
  refine ⟨routedStrategyKey, routedStrategy, routedStart, [.ofChain routedChain], [],
    .ofChain routedChain, [], rfl, ⟨rfl, ?_, by simp⟩, rfl, rfl, hrun⟩
  rw [hrun]
  exact hok

/-- A sale of three atoms of base, and its quote. -/
def sale : QuoteRequest := ⟨baseMint, quoteMint, 3, .exactIn⟩

def saleQuote : QuoteResult := ⟨baseMint, quoteMint, 3, 19, false, ⟨5, 2⟩⟩

theorem mints_ne_native : baseMint ≠ nativeMintId ∧ quoteMint ≠ nativeMint2022Id := by
  decide +kernel

theorem quoted_sale :
    Quoted routedSdk routedVenue sale saleQuote requestedAccounts answeredAccounts :=
  ⟨refreshed_routedVenue, rfl, by decide, by decide +kernel, rfl, by decide, mints_ne_native.1⟩

def shift (address : Pubkey) (f : ℕ → ℕ) (bank : Bank) : Bank :=
  Function.update bank address
    (withAmount (bank address) (f (Route.tokenAmount (bank address))))

/-- The output goes from its vault to its account, and the input the other way. -/
def swapped (vaultIn vaultOut ataIn ataOut : Pubkey) (amount out : ℕ) (bank : Bank) : Bank :=
  shift ataOut (· + out) (shift ataIn (· - amount) (shift vaultOut (· - out)
    (shift vaultIn (· + amount) bank)))

/-- A program that swaps what the simulator answers. -/
def swapProgram : Route.VenueProgram := fun _ instruction _ bank =>
  match instruction.accounts.map AccountMeta.pubkey, getLE instruction.data 1 8 with
  | _ :: _ :: _ :: _ :: vaultIn :: vaultOut :: ataIn :: ataOut :: _, some amount =>
      match rising (UInt64.ofNat amount) with
      | some out => .ok (swapped vaultIn vaultOut ataIn ataOut amount out.toNat bank)
      | none => .error (.custom 0)
  | _, _ => .error .missingAccount

theorem shift_of_ne {address other : Pubkey} {f : ℕ → ℕ} {bank : Bank} (h : other ≠ address) :
    shift address f bank other = bank other := Function.update_of_ne h _ _

theorem withAmount_holds {tokenProgram : Pubkey} {account : Account} {amount : ℕ}
    {token : TokenAccount} (h : Holds tokenProgram account token)
    (hnative : token.mint ≠ nativeMintOf tokenProgram) (hamount : amount ≤ u64Max) :
    Holds tokenProgram (withAmount account amount) { token with amount := amount } := by
  have hplain : token.isNative.isSome = false := by
    rw [Bool.eq_false_iff]
    exact fun hsome => hnative (h.native_iff.mp hsome)
  refine ⟨h.unpacks.putAmount rfl rfl hamount, h.native_iff, fun hsome => ?_⟩
  rw [hplain] at hsome
  cases hsome

theorem exchanges_swapped {sides : Route.Sides} {reach : Pubkey → Prop} {amount out : ℕ}
    {input output : TokenAccount} {bank : Bank} {vaultIn vaultOut : Pubkey}
    (h : Route.Funded sides amount bank input output) (hatas : sides.ataIn ≠ sides.ataOut)
    (hvaults : ∀ vault ∈ [vaultIn, vaultOut], reach vault ∧ vault ≠ sides.ataIn ∧
      vault ≠ sides.ataOut)
    (hnativeIn : sides.mintIn ≠ nativeMintOf sides.programIn)
    (hnativeOut : sides.mintOut ≠ nativeMintOf sides.programOut)
    (hroom : output.amount + out ≤ u64Max) :
    Route.Exchanges sides reach amount out input output bank
      (swapped vaultIn vaultOut sides.ataIn sides.ataOut amount out bank) := by
  obtain ⟨hreachIn, hinIn, hinOut⟩ := hvaults vaultIn (by simp)
  obtain ⟨hreachOut, houtIn, houtOut⟩ := hvaults vaultOut (by simp)
  have hkept {address : Pubkey} (hin : address ≠ vaultIn) (hout : address ≠ vaultOut) :
      shift vaultOut (· - out) (shift vaultIn (· + amount) bank) address = bank address := by
    rw [shift_of_ne hout, shift_of_ne hin]
  have hinput : swapped vaultIn vaultOut sides.ataIn sides.ataOut amount out bank sides.ataIn =
      withAmount (bank sides.ataIn) (input.amount - amount) := by
    rw [swapped, shift_of_ne hatas, shift, Function.update_self,
      hkept (Ne.symm hinIn) (Ne.symm houtIn), Route.tokenAmount_of_unpacks h.input_holds.unpacks]
  have houtput : swapped vaultIn vaultOut sides.ataIn sides.ataOut amount out bank sides.ataOut =
      withAmount (bank sides.ataOut) (output.amount + out) := by
    rw [swapped, shift, Function.update_self, shift_of_ne (Ne.symm hatas),
      hkept (Ne.symm hinOut) (Ne.symm houtOut), Route.tokenAmount_of_unpacks h.output_holds.unpacks]
  refine ⟨⟨_, debited_withAmount sides.wallet amount input, ?_⟩, ?_, fun address hmem => ?_,
    fun address hin hout hreach => ?_⟩
  · rw [hinput]
    apply withAmount_holds h.input_holds
    · rw [h.input_mint]
      exact hnativeIn
    · exact (Nat.sub_le _ _).trans h.input_holds.unpacks.amount_le
  · rw [houtput]
    apply withAmount_holds h.output_holds _ hroom
    rw [h.output_mint]
    exact hnativeOut
  · rcases List.mem_pair.mp hmem with rfl | rfl
    · rw [hinput]
      exact extensions_putLE (by decide) h.input_holds.unpacks.accountLen_le
    · rw [houtput]
      exact extensions_putLE (by decide) h.output_holds.unpacks.accountLen_le
  · rw [swapped, shift_of_ne hout, shift_of_ne hin]
    exact hkept (fun heq => hreach (heq ▸ hreachIn)) (fun heq => hreach (heq ▸ hreachOut))

/-- The accounts of the swap of TitanPDA. -/
def routedSwap : SwapAccounts where
  programId := Route.Quay.programId
  strategy := routedStrategyKey
  marketMaker := key 1003
  quotes := key 6
  baseMint := baseMint
  quoteMint := quoteMint
  taker := titanPda
  takerAtaBase := baseAta
  takerAtaQuote := quoteAta
  baseTokenProgram := splTokenId
  quoteTokenProgram := token2022Id
  extKeys := [key 7]

theorem swapAccounts_routedVenue :
    routedVenue.swapAccounts routedRuntime titanPda = routedSwap := rfl

def routedLeg : List AccountMeta :=
  SwapRoute.assembleLegAccounts (routedSdk.swapWithExt routedSwap 3 0 sideSellBase) titanPda
    Route.Quay.programId

def routedSpec : SwapRoute.SwapSpecInputV2 := ⟨.quay true, 0, 1, SwapRoute.routeWeightAll, 16⟩

theorem buildSwapLeg_sale :
    SwapRoute.buildSwapLeg (routedVenue.tradingVenue routedSdk routedRuntime) sale titanPda 0 1
      SwapRoute.routeWeightAll = .ok (routedSpec, routedLeg) := rfl

/-- A leg of the swap reads the side of the built one. -/
theorem directions_agree_sample :
    (∃ leg, SwapRoute.buildSwapLeg (routedVenue.tradingVenue routedSdk routedRuntime) sale titanPda
      0 1 SwapRoute.routeWeightAll = .ok leg) ∧
    ∃ built, routedVenue.buildSwapIx routedSdk routedRuntime sale titanPda = .ok built ∧
      ∀ amountIn accountMetas, ∀ instruction ∈ Route.Quay.swap true amountIn accountMetas,
        instruction.data.getLast? = built.data.getLast? := by
  have hwrites : WritesSide routedSdk fun instruction => instruction.data.getLast? :=
    fun _ _ _ _ => getLast?_swapData _ _
  obtain ⟨hquotes, hroutes⟩ := @directions_agree routedSdk routedRuntime routedVenue _ hwrites
    quoted_sale.refreshed.reached sale
  refine ⟨(hquotes saleQuote quoted_sale.quoted).2 titanPda 0 1 SwapRoute.routeWeightAll, ?_⟩
  obtain ⟨_, ⟨built, hbuilt⟩, sellBase, side, hvenue, hchain, hside, _⟩ :=
    hroutes titanPda 0 1 SwapRoute.routeWeightAll _ _ buildSwapLeg_sale
  obtain rfl : true = sellBase := by
    injection hvenue
  refine ⟨built, hbuilt, fun amountIn accountMetas instruction hmem => ?_⟩
  rw [hchain amountIn accountMetas instruction hmem, hside titanPda built hbuilt]

theorem native_routedSwap (sellBase : Bool) :
    (routedSwap.sides sellBase).mintIn ≠ nativeMintOf (routedSwap.sides sellBase).programIn ∧
    (routedSwap.sides sellBase).mintOut ≠ nativeMintOf (routedSwap.sides sellBase).programOut := by
  have hnative : nativeMintOf splTokenId = nativeMintId := if_neg splTokenId_ne_token2022Id
  have hnative2022 : nativeMintOf token2022Id = nativeMint2022Id := if_pos rfl
  cases sellBase with
  | true => simpa [SwapAccounts.sides, routedSwap, hnative, hnative2022] using mints_ne_native
  | false =>
      simpa [SwapAccounts.sides, routedSwap, hnative, hnative2022] using mints_ne_native.symm

theorem amountIn_of_chainInputs {sdk : Sdk} {venue : QuayVenue} {bank : Bank} {side : UInt8}
    {amountIn : UInt64} {inputs : SwapSimulationInputs}
    (h : chainInputs sdk venue bank side amountIn = some inputs) : inputs.amountIn = amountIn := by
  simp only [chainInputs, Option.bind_eq_bind, Option.bind_eq_some_iff] at h
  obtain ⟨_, _, _, _, _, _, h⟩ := h
  obtain rfl := Option.some.inj h
  rfl

theorem simulatedOnChain_swapProgram : SimulatedOnChain routedSdk routedRuntime swapProgram
    routedVenue titanPda requestedAccounts answeredAccounts := by
  refine ⟨bindingFits rising, documentedSwap_routedSdk, ?_⟩
  rw [swapAccounts_routedVenue]
  intro leg sellBase amountIn metas infos bank input output inputs simulation hcall hcurrent
    hfunded hamount hinputs hsimulation hroom
  obtain ⟨programs, hkeys, _⟩ := hcall.layout
  obtain ⟨hnativeIn, hnativeOut⟩ := native_routedSwap sellBase
  have hrising : rising amountIn = some simulation.outToTaker := by
    simp only [routedSdk, sdkWith, amountIn_of_chainInputs hinputs] at hsimulation
    split at hsimulation
    · rename_i out hout
      obtain rfl := Except.ok.inj hsimulation
      exact hout
    · cases hsimulation
  refine ⟨swapped
    (routedSdk.vaultPda Route.Quay.programId (key 1003) (routedSwap.sides sellBase).mintIn)
    (routedSdk.vaultPda Route.Quay.programId (key 1003) (routedSwap.sides sellBase).mintOut) _ _
    amountIn.toNat simulation.outToTaker.toNat bank, ?_,
    exchanges_swapped hfunded ?_ ?_ hnativeIn hnativeOut hroom⟩
  · simp only [swapProgram, hkeys, swapKeys, List.cons_append]
    rw [Route.getLE_swapData _ amountIn.toNat_lt]
    simp only [UInt64.ofNat_toNat, hrising]
    rfl
  · cases sellBase <;> decide +kernel
  · cases sellBase <;> decide +kernel

end Sample

end QuayTitan.Quay
