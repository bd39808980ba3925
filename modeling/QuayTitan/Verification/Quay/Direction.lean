import QuayTitan.Model.Quay.Swap
import QuayTitan.Verification.SwapRoute.Wire
import QuayTitan.Verification.Route.Custody
import QuayTitan.Verification.Quay.Reached

/-! # The direction of a swap

The side of a swap is derived from the mints of the venue when it is quoted and built, from
the token metadata when it is routed, and from a flag on chain. -/

namespace QuayTitan.Quay

open Attempts Fallible ByteFields

variable {sdk : Sdk} {rt : Runtime} {venue : QuayVenue} {request : QuoteRequest}

/-! ## The side of a request -/

/-- The request trades the pair of the venue, in one order or the other. -/
def TradesPair (venue : QuayVenue) (request : QuoteRequest) : Prop :=
  request.inputMint = venue.baseMint ∧ request.outputMint = venue.quoteMint ∨
    request.inputMint = venue.quoteMint ∧ request.outputMint = venue.baseMint

/-- The side of a request follows from its input mint alone, as the route builder derives
it. -/
theorem sideOf_eq_ok {side : UInt8} :
    venue.sideOf request.inputMint request.outputMint = .ok side ↔
      TradesPair venue request ∧
        side = Route.Quay.sideByte (request.inputMint = venue.baseMint) := by
  unfold QuayVenue.sideOf TradesPair
  split
  · rename_i hsell
    have hbyte : Route.Quay.sideByte (request.inputMint = venue.baseMint) = sideSellBase := by
      rw [decide_eq_true hsell.1]
      rfl
    rw [hbyte, Except.ok.injEq]
    exact ⟨fun h => ⟨.inl hsell, h.symm⟩, fun h => h.2.symm⟩
  · rename_i hsell
    split
    · rename_i hbuy
      have hne : request.inputMint ≠ venue.baseMint := fun heq =>
        hsell ⟨heq, hbuy.2.trans (heq.symm.trans hbuy.1)⟩
      have hbyte : Route.Quay.sideByte (request.inputMint = venue.baseMint) = sideBuyBase := by
        rw [decide_eq_false hne]
        rfl
      rw [hbyte, Except.ok.injEq]
      exact ⟨fun h => ⟨.inr hbuy, h.symm⟩, fun h => h.2.symm⟩
    · rename_i hbuy
      constructor
      · intro h
        cases h
      · rintro ⟨hpair, _⟩
        exact (hpair.elim hsell hbuy).elim

theorem getLast?_swapData (side : UInt8) (amountIn : ℕ) :
    (Route.Quay.swapData side amountIn).getLast? = some side := by
  rw [Route.Quay.swapData, ← List.append_assoc, ← List.cons_append, List.getLast?_concat]

/-- The last byte of every instruction the adapter makes for a leg is its side. -/
theorem swap_side (sellBase : Bool) (amountIn : ℕ) (accountMetas : List AccountMeta)
    {instruction : Instruction}
    (h : instruction ∈ Route.Quay.swap sellBase amountIn accountMetas) :
    instruction.data.getLast? = some (Route.Quay.sideByte sellBase) := by
  obtain rfl := List.mem_singleton.mp h
  exact getLast?_swapData _ _

/-! ## Building a swap -/

/-- What the builder of a swap instruction hands to the SDK. -/
structure Builds (sdk : Sdk) (venue : QuayVenue) (request : QuoteRequest) (side : UInt8)
    (instruction : Instruction) : Prop where
  exactIn : request.swapType ≠ .exactOut
  side_eq : venue.sideOf request.inputMint request.outputMint = .ok side
  built : ∃ accounts, instruction = sdk.swapWithExt accounts request.amount 0 side

/-- What the venue hands to the SDK to build a swap of `user`. -/
def QuayVenue.swapAccounts (rt : Runtime) (venue : QuayVenue) (user : Pubkey) : SwapAccounts :=
  let baseProgram := (venue.tokenProgramFor venue.baseMint).getD default
  let quoteProgram := (venue.tokenProgramFor venue.quoteMint).getD default
  { programId := venue.programId
    strategy := venue.strategyKey
    marketMaker := venue.mmKey
    quotes := venue.quotesKey
    baseMint := venue.baseMint
    quoteMint := venue.quoteMint
    taker := user
    takerAtaBase := rt.ataAddress user venue.baseMint baseProgram
    takerAtaQuote := rt.ataAddress user venue.quoteMint quoteProgram
    baseTokenProgram := baseProgram
    quoteTokenProgram := quoteProgram
    extKeys := venue.extKeys }

/-- A swap is built for the side of the request, once both token programs are known. -/
theorem buildSwapIx_inversion {user : Pubkey} {instruction : Instruction}
    (h : venue.buildSwapIx sdk rt request user = .ok instruction) :
    request.swapType ≠ .exactOut ∧ ∃ side baseProgram quoteProgram,
      venue.sideOf request.inputMint request.outputMint = .ok side ∧
      venue.tokenProgramFor venue.baseMint = some baseProgram ∧
      venue.tokenProgramFor venue.quoteMint = some quoteProgram ∧
      instruction = sdk.swapWithExt (venue.swapAccounts rt user) request.amount 0 side := by
  by_cases hexact : request.swapType = .exactOut
  · rw [QuayVenue.buildSwapIx, if_pos hexact] at h
    cases h
  · rw [QuayVenue.buildSwapIx, if_neg hexact] at h
    simp only [bind_eq_ok, pure_eq_ok, okOrElse_eq_ok] at h
    obtain ⟨side, hside, baseProgram, hbase, quoteProgram, hquote, rfl⟩ := h
    refine ⟨hexact, side, baseProgram, quoteProgram, hside, hbase, hquote, ?_⟩
    rw [QuayVenue.swapAccounts, hbase, hquote]
    rfl

theorem buildSwapIx_spec {user : Pubkey} {instruction : Instruction}
    (h : venue.buildSwapIx sdk rt request user = .ok instruction) :
    ∃ side, Builds sdk venue request side instruction := by
  obtain ⟨hexact, side, _, _, hside, _, _, hbuilt⟩ := buildSwapIx_inversion h
  exact ⟨side, hexact, hside, _, hbuilt⟩

theorem PairTokens.buildSwapIx_eq {base quote : TokenInfo} (h : PairTokens venue base quote)
    (hexact : request.swapType ≠ .exactOut) {side : UInt8}
    (hside : venue.sideOf request.inputMint request.outputMint = .ok side) (user : Pubkey) :
    venue.buildSwapIx sdk rt request user =
      .ok (sdk.swapWithExt (venue.swapAccounts rt user) request.amount 0 side) := by
  obtain ⟨info, hinfo⟩ := h.find_quote
  unfold QuayVenue.sideOf at hside
  rw [QuayVenue.buildSwapIx, if_neg hexact, hside, QuayVenue.swapAccounts,
    QuayVenue.tokenProgramFor, h.find_base, QuayVenue.tokenProgramFor, hinfo]
  rfl

theorem PairTokens.buildSwapIx_ok {base quote : TokenInfo} (h : PairTokens venue base quote)
    (hexact : request.swapType ≠ .exactOut) {side : UInt8}
    (hside : venue.sideOf request.inputMint request.outputMint = .ok side) (user : Pubkey) :
    ∃ instruction, venue.buildSwapIx sdk rt request user = .ok instruction :=
  ⟨_, h.buildSwapIx_eq hexact hside user⟩

/-! ## Every run -/

/-- The SDK writes the side it is given into the instruction. -/
def WritesSide (sdk : Sdk) (readSide : Instruction → Option UInt8) : Prop :=
  ∀ accounts amountIn minAmountOut side,
    readSide (sdk.swapWithExt accounts amountIn minAmountOut side) = some side

/-- The venue that the builder routes through. -/
theorem buildSwapLeg_tradingVenue {titanPda : Pubkey} {index index' : UInt8}
    {weightNanos : UInt32} {spec : SwapRoute.SwapSpecInputV2} {accounts : List AccountMeta}
    (h : SwapRoute.buildSwapLeg (venue.tradingVenue sdk rt) request titanPda index index'
      weightNanos = .ok (spec, accounts)) :
    ∃ instruction token, venue.buildSwapIx sdk rt request titanPda = .ok instruction ∧
      venue.tokens.head? = some token ∧
      spec.venue = .quay (request.inputMint = token.pubkey) := by
  simp only [SwapRoute.buildSwapLeg, SwapRoute.protocolToVenue, QuayVenue.tradingVenue,
    bind_eq_ok, pure_eq_ok, okOrElse_eq_ok, Option.map_eq_some_iff] at h
  obtain ⟨instruction, hbuilt, selector, ⟨_, ⟨token, htoken, rfl⟩, rfl⟩, hpair⟩ := h
  obtain ⟨rfl, rfl⟩ := Prod.mk.inj hpair
  exact ⟨instruction, token, hbuilt, htoken, rfl⟩

theorem PairTokens.buildSwapLeg_ok {base quote : TokenInfo} (h : PairTokens venue base quote)
    (hexact : request.swapType ≠ .exactOut) {side : UInt8}
    (hside : venue.sideOf request.inputMint request.outputMint = .ok side) (titanPda : Pubkey)
    (index index' : UInt8) (weightNanos : UInt32) :
    ∃ leg, SwapRoute.buildSwapLeg (venue.tradingVenue sdk rt) request titanPda index index'
      weightNanos = .ok leg := by
  have hbuilt : venue.buildSwapIx sdk rt request titanPda =
      .ok (sdk.swapWithExt (venue.swapAccounts rt titanPda) request.amount 0 side) :=
    h.buildSwapIx_eq hexact hside titanPda
  simp only [SwapRoute.buildSwapLeg, SwapRoute.protocolToVenue, QuayVenue.tradingVenue, hbuilt,
    h.tokens_eq, ok_bind]
  exact ⟨_, rfl⟩

/-- The first token of a venue, if it knows any, is its base. -/
theorem TokensKnown.head_eq_base {token : TokenInfo} (h : TokensKnown venue)
    (htoken : venue.tokens.head? = some token) : token.pubkey = venue.baseMint := by
  cases h with
  | unread tokens_eq _ =>
      rw [tokens_eq] at htoken
      cases htoken
  | paired base quote pair =>
      rw [pair.tokens_eq] at htoken
      obtain rfl := Option.some.inj htoken
      exact pair.base_eq

/-- On every venue an update run leaves: what is quoted can be built and routed, only the
pair of the venue is ever routed, and the side on chain is the one the swap was built with
and the one it was quoted at. -/
theorem directions_agree {readSide : Instruction → Option UInt8}
    (hwrites : WritesSide sdk readSide) (hreached : Reached sdk venue)
    (request : QuoteRequest) :
    (∀ quote, venue.computeQuote sdk request = .ok quote →
      (∀ user, ∃ instruction, venue.buildSwapIx sdk rt request user = .ok instruction) ∧
      ∀ titanPda index index' weightNanos, ∃ leg,
        SwapRoute.buildSwapLeg (venue.tradingVenue sdk rt) request titanPda index index'
          weightNanos = .ok leg) ∧
    ∀ titanPda index index' weightNanos spec accounts,
      SwapRoute.buildSwapLeg (venue.tradingVenue sdk rt) request titanPda index index'
        weightNanos = .ok (spec, accounts) →
      TradesPair venue request ∧
      (∃ instruction, venue.buildSwapIx sdk rt request titanPda = .ok instruction) ∧
      ∃ sellBase side, spec.onChain.venue = .quay sellBase ∧
        (∀ amountIn accountMetas, ∀ instruction ∈ Route.Quay.swap sellBase amountIn accountMetas,
          instruction.data.getLast? = some side) ∧
        (∀ user instruction, venue.buildSwapIx sdk rt request user = .ok instruction →
          readSide instruction = some side) ∧
        ∀ quote, venue.computeQuote sdk request = .ok quote → ∃ baseDecimals quoteDecimals,
          quote = pricedQuote (venue.simulateOut sdk side baseDecimals quoteDecimals)
            (venue.priceProbeIn side) request := by
  constructor
  · intro quote hquote
    obtain ⟨side, _, _, hquotable, _⟩ := computeQuote_ok_iff.mp hquote
    obtain ⟨base, quoteInfo, hpair⟩ := hreached.pairTokens hquotable.initialized
    exact ⟨hpair.buildSwapIx_ok hquotable.exactIn hquotable.side_eq,
      hpair.buildSwapLeg_ok hquotable.exactIn hquotable.side_eq⟩
  · intro titanPda index index' weightNanos spec accounts hleg
    obtain ⟨instruction, token, hbuilt, htoken, hvenue⟩ := buildSwapLeg_tradingVenue hleg
    obtain ⟨side, hbuilds⟩ := buildSwapIx_spec hbuilt
    obtain ⟨htrades, hside⟩ := sideOf_eq_ok.mp hbuilds.side_eq
    refine ⟨htrades, ⟨instruction, hbuilt⟩, decide (request.inputMint = venue.baseMint), side,
      ?_, ?_, ?_, ?_⟩
    · rw [SwapRoute.SwapSpecInputV2.onChain, hvenue,
        hreached.tokensKnown.head_eq_base htoken]
      rfl
    · intro amountIn accountMetas instruction hmem
      rw [hside]
      exact swap_side _ _ _ hmem
    · intro user instruction' hbuilt'
      obtain ⟨side', hbuilds'⟩ := buildSwapIx_spec hbuilt'
      obtain rfl := Except.ok.inj (hbuilds.side_eq.symm.trans hbuilds'.side_eq)
      obtain ⟨built, rfl⟩ := hbuilds'.built
      exact hwrites _ _ _ _
    · intro quote hquote
      obtain ⟨side', baseDecimals, quoteDecimals, hquotable, rfl⟩ := computeQuote_ok_iff.mp hquote
      obtain rfl := Except.ok.inj (hbuilds.side_eq.symm.trans hquotable.side_eq)
      exact ⟨baseDecimals, quoteDecimals, rfl⟩

end QuayTitan.Quay
