import QuayTitan.Verification.Quay.OnChainSwap

/-! # Quotes of several hops

Each hop asks for what the one before it was quoted. Built into one route, the hops pay what the
last of them was quoted, unless one swap changes the accounts that a later quote was computed
from. -/

namespace QuayTitan.Quay

open Attempts Fallible ByteFields

variable {sdk : Sdk} {rt : Runtime} {program : Route.VenueProgram}

theorem forall_lt_two {P : ℕ → Prop} (h0 : P 0) (h1 : P 1) : ∀ i < 2, P i := by
  intro i hi
  have hcases : i = 0 ∨ i = 1 := by omega
  rcases hcases with rfl | rfl
  · exact h0
  · exact h1

/-- A quote for a swap between two mints of a route: the answer its venue was refreshed from, and
the accounts that the swap changes besides those of TitanPDA. -/
structure RoutedQuote where
  venue : QuayVenue
  request : QuoteRequest
  quote : QuoteResult
  requested : List Pubkey
  accounts : List (Option Account)
  changed : List Pubkey
  «from» : UInt8
  «to» : UInt8

/-! ## The quotes -/

/-- A filled quote for a swap that the program makes as the simulator says. -/
structure RoutedQuote.Priced (sdk : Sdk) (rt : Runtime) (program : Route.VenueProgram)
    (titanPda : Pubkey) (hop : RoutedQuote) : Prop where
  refreshed : Refreshed sdk hop.venue hop.requested hop.accounts
  programId_eq : hop.venue.programId = Route.Quay.programId
  distinct : hop.venue.baseMint ≠ hop.venue.quoteMint
  quoted : hop.venue.computeQuote sdk hop.request = .ok hop.quote
  filled : hop.quote.notEnoughLiquidity = false
  amount_ne : hop.request.amount ≠ 0
  swaps : SwapsWithin sdk program hop.venue (hop.venue.swapAccounts rt titanPda) hop.requested
    hop.accounts (· ∈ hop.changed)

/-- Quotes in a row: each for the output of the one before it. -/
inductive Chained : (slot : UInt8) → (amount : UInt64) → List RoutedQuote → (last : UInt8) →
    (out : UInt64) → Prop
  | done (slot amount) : Chained slot amount [] slot amount
  | hop {slot amount hop rest last out} (from_eq : hop.from = slot)
      (amount_eq : hop.request.amount = amount)
      (later : Chained hop.to hop.quote.expectedOutput rest last out) :
      Chained slot amount (hop :: rest) last out

/-- No swap changes an account that a later quote was computed from. -/
def Isolated (hops : List RoutedQuote) : Prop :=
  hops.Pairwise fun earlier later => ∀ key ∈ earlier.changed, key ∉ later.requested

/-- What each account of TitanPDA spends on quotes in a row, the payout included. -/
def spends : (slot : UInt8) → (amount : UInt64) → List RoutedQuote → ℕ → ℕ
  | slot, amount, [] => Route.spending slot.toNat amount.toNat fun _ => 0
  | slot, amount, hop :: rest =>
      Route.spending slot.toNat amount.toNat (spends hop.to hop.quote.expectedOutput rest)

/-- The bank holds what the quote was computed from, apart from the funds of the route. -/
structure RoutedQuote.Current (rt : Runtime) (ctx : Route.Context) (mintsCount : ℕ) (bank : Bank)
    (hop : RoutedQuote) : Prop where
  to_lt : hop.to.toNat < mintsCount
  input_mint : ctx.keyAt (mintsCount + hop.from.toNat) = hop.request.inputMint
  output_mint : ctx.keyAt (mintsCount + hop.to.toNat) = hop.request.outputMint
  current : OnBank hop.requested hop.accounts bank
  answer_apart : ∀ key ∈ hop.requested,
    key ≠ ctx.accounts.inputTokenAccount ∧ ∀ i < mintsCount, key ≠ ctx.keyAt i
  changed_outside : ∀ key ∈ hop.changed, Route.Outside ctx mintsCount bank key
  room : ctx.heldAt rt mintsCount bank hop.to.toNat + hop.quote.expectedOutput.toNat ≤ u64Max

section

variable {titanPda : Pubkey} {hop : RoutedQuote}

theorem RoutedQuote.Priced.simulated (h : hop.Priced sdk rt program titanPda) :
    ∃ baseDecimals quoteDecimals,
      Simulated sdk hop.venue hop.request hop.quote baseDecimals quoteDecimals :=
  simulated_of_quote h.quoted h.filled h.amount_ne

/-- A leg built from the request of a hop. -/
structure HopLeg (sdk : Sdk) (rt : Runtime) (titanPda : Pubkey) (hop : RoutedQuote)
    (leg : SwapRoute.BuiltLeg titanPda) : Prop where
  build_eq : SwapRoute.buildSwapLeg (hop.venue.tradingVenue sdk rt) hop.request titanPda hop.from
    hop.to SwapRoute.routeWeightAll = .ok (leg.spec, leg.accounts)
  spec_eq : leg.spec = ⟨.quay (hop.venue.sellsBase hop.request), hop.from, hop.to,
    SwapRoute.routeWeightAll, UInt8.ofNat leg.accounts.length⟩
  swap_eq : leg.swapIx = sdk.swapWithExt (hop.venue.swapAccounts rt titanPda) hop.request.amount 0
    (Route.Quay.sideByte (hop.venue.sellsBase hop.request))
  program_eq : leg.venueProgramId = hop.venue.programId

theorem RoutedQuote.Priced.exists_leg (h : hop.Priced sdk rt program titanPda)
    (hfits : BindingFits sdk) (hdocumented : DocumentedSwap sdk) :
    ∃ leg, HopLeg sdk rt titanPda hop leg := by
  obtain ⟨_, _, hsimulated⟩ := h.simulated
  obtain ⟨spec, legAccounts, hbuild, hspec, haccounts⟩ :=
    hsimulated.buildSwapLeg_eq h.refreshed rt titanPda hop.from hop.to
  have hlength : legAccounts.length ≤ 255 := by
    have hswap := hdocumented.length_le (h.refreshed.length_extKeys hfits) rt titanPda
      (hop.venue.sellsBase hop.request) hop.request.amount
    rw [haccounts, SwapRoute.assembleLegAccounts, List.length_append, List.length_map,
      List.length_singleton]
    omega
  obtain ⟨leg, rfl, rfl, hbuilt, hprogram⟩ := SwapRoute.exists_builtLeg hbuild hlength
  refine ⟨leg, hbuild, hspec, Except.ok.inj (hbuilt.symm.trans ?_), hprogram⟩
  exact hsimulated.buildSwapIx_eq h.refreshed rt titanPda

theorem exists_legs {hops : List RoutedQuote} (hfits : BindingFits sdk)
    (hdocumented : DocumentedSwap sdk) (h : ∀ hop ∈ hops, hop.Priced sdk rt program titanPda) :
    ∃ legs, List.Forall₂ (HopLeg sdk rt titanPda) hops legs := by
  induction hops with
  | nil => exact ⟨[], .nil⟩
  | cons hop rest ih =>
      obtain ⟨leg, hleg⟩ := (h hop List.mem_cons_self).exists_leg hfits hdocumented
      obtain ⟨legs, hlegs⟩ := ih fun later hlater => h later (List.mem_cons_of_mem _ hlater)
      exact ⟨leg :: legs, .cons hleg hlegs⟩

end

/-! ## The call -/

section

variable {ctx : Route.Context} {named front : List AccountMeta} {bank : Bank} {venue : QuayVenue}
  {request : QuoteRequest} {requested : List Pubkey} {accounts : List (Option Account)}

theorem KeepsMint.getTokenProgram_eq {account : Account} {info : TokenInfo} {decimals : UInt8}
    (h : KeepsMint sdk account info) (hmint : IsMint account.owner account decimals) :
    info.getTokenProgram = account.owner := by
  rw [h.program_eq]
  rcases hmint.known with hspl | h2022
  · rw [hspl, if_neg splTokenId_ne_token2022Id]
  · rw [h2022, if_pos rfl]

/-- A swap is built for the wallet's token accounts of the mints that it trades. -/
theorem Simulated.sides_eq {quote : QuoteResult} {baseDecimals quoteDecimals inDecimals
    outDecimals : UInt8} (h : Simulated sdk venue request quote baseDecimals quoteDecimals)
    (hrefreshed : Refreshed sdk venue requested accounts)
    (hdistinct : venue.baseMint ≠ venue.quoteMint) (hcurrent : OnBank requested accounts bank)
    (hin : IsMint (bank request.inputMint).owner (bank request.inputMint) inDecimals)
    (hout : IsMint (bank request.outputMint).owner (bank request.outputMint) outDecimals)
    (wallet : Pubkey) :
    (venue.swapAccounts rt wallet).sides (venue.sellsBase request) =
      ⟨wallet, rt.ataAddress wallet request.inputMint (bank request.inputMint).owner,
        rt.ataAddress wallet request.outputMint (bank request.outputMint).owner,
        request.inputMint, request.outputMint, (bank request.inputMint).owner,
        (bank request.outputMint).owner⟩ := by
  obtain ⟨hpair, _⟩ := sideOf_eq_ok.mp h.quotable.side_eq
  obtain ⟨base, quoteInfo, hlisted⟩ := hrefreshed.listedMints hcurrent
  have hbase : venue.tokenProgramFor venue.baseMint = some base.getTokenProgram := by
    rw [QuayVenue.tokenProgramFor, hlisted.pair.find_base, Option.map_some]
  have hquote : venue.tokenProgramFor venue.quoteMint = some quoteInfo.getTokenProgram := by
    rw [QuayVenue.tokenProgramFor, hlisted.pair.find_quote_eq hdistinct, Option.map_some]
  rcases hpair with ⟨hsell, hbuy⟩ | ⟨hsell, hbuy⟩
  · have hdirection : venue.sellsBase request = true := decide_eq_true hsell
    rw [hsell] at hin ⊢
    rw [hbuy] at hout ⊢
    simp only [hdirection, SwapAccounts.sides, QuayVenue.swapAccounts, hbase, hquote,
      Option.getD_some, hlisted.base_kept.getTokenProgram_eq hin,
      hlisted.quote_kept.getTokenProgram_eq hout]
  · have hdirection : venue.sellsBase request = false := by
      rw [QuayVenue.sellsBase, hsell, decide_eq_false hdistinct.symm]
    rw [hsell] at hin ⊢
    rw [hbuy] at hout ⊢
    simp only [hdirection, SwapAccounts.sides, QuayVenue.swapAccounts, hbase, hquote,
      Option.getD_some, hlisted.base_kept.getTokenProgram_eq hout,
      hlisted.quote_kept.getTokenProgram_eq hin]

theorem map_pubkey_of_carries {metas passed : List AccountMeta}
    (h : List.Forall₂ SwapRoute.Carries metas passed) :
    passed.map AccountMeta.pubkey = metas.map AccountMeta.pubkey := by
  induction h with
  | nil => rfl
  | cons hcarries _ ih => rw [List.map_cons, List.map_cons, hcarries.pubkey_eq, ih]

theorem map_pubkey_assembleLegAccounts (swapIx : Instruction) (titanPda venueProgramId : Pubkey) :
    (SwapRoute.assembleLegAccounts swapIx titanPda venueProgramId).map AccountMeta.pubkey =
      swapIx.accounts.map AccountMeta.pubkey ++ [venueProgramId] := by
  rw [SwapRoute.assembleLegAccounts, List.map_append, List.map_map]
  refine congrArg (· ++ [venueProgramId]) (List.map_congr_left fun acc _ => ?_)
  rw [Function.comp]
  split <;> rfl

/-- A leg is called with the accounts of the built swap. -/
theorem swapCall_sliced {mints : UInt8}
    {earlier later : List (SwapRoute.BuiltLeg ctx.accounts.titanPda)}
    {leg : SwapRoute.BuiltLeg ctx.accounts.titanPda} {swap : SwapAccounts} {sellBase : Bool}
    {amountIn : UInt64} {index : ℕ}
    (hlayout : SwapRoute.RouteLayout ctx mints (earlier ++ leg :: later) named front)
    (hindex : index = 2 * mints.toNat + (SwapRoute.legAccounts earlier).length)
    (hdocumented : DocumentedSwap sdk)
    (hswap : leg.swapIx = sdk.swapWithExt swap amountIn 0 (Route.Quay.sideByte sellBase))
    (hprogram : leg.venueProgramId = swap.programId)
    (htaker : swap.taker = ctx.accounts.titanPda) :
    index + leg.accounts.length ≤ ctx.remainingAccounts.length ∧
      SwapCall sdk swap sellBase amountIn
        (Route.legInvocation ctx index leg.accounts.length).accountMetas
        (Route.legInvocation ctx index leg.accounts.length).legAccounts := by
  obtain ⟨hrange, hsliced⟩ := SwapRoute.legInvocation_sliced hlayout hindex
  have hmetas := map_pubkey_of_carries hsliced.carries
  refine ⟨hrange, ?_, ?_, ?_, ?_⟩
  · rw [hmetas, hswap]
    exact hdocumented swap sellBase amountIn
  · rw [← hswap]
    exact hsliced.carries
  · rw [htaker]
    exact hsliced.titan_signs
  · have hkeys : (AccountInfo.key ∘ SwapRoute.presented
        (named ++ front ++ SwapRoute.legAccounts (earlier ++ leg :: later))) =
          AccountMeta.pubkey := rfl
    rw [hmetas, hsliced.legAccounts_eq, List.map_map, hkeys, ← hprogram]
    exact map_pubkey_assembleLegAccounts ..

end

/-! ## The route -/

/-- The accounts of the instruction: those of TitanPDA in front, then those of the legs. -/
structure LaidOutHops (rt : Runtime) (ctx : Route.Context) (mints : UInt8)
    (legs : List (SwapRoute.BuiltLeg ctx.accounts.titanPda)) (named front : List AccountMeta)
    (bank : Bank) : Prop where
  layout : SwapRoute.RouteLayout ctx mints legs named front
  derived : ∀ i < mints.toNat, ctx.keyAt i = rt.ataAddress ctx.accounts.titanPda
    (ctx.keyAt (mints.toNat + i)) (bank (ctx.keyAt (mints.toNat + i))).owner

section

variable {ctx : Route.Context} {mints : UInt8} {named front : List AccountMeta} {bank : Bank}
  {touched : Pubkey → Prop}

theorem RoutedQuote.Priced.mints_ne {titanPda : Pubkey} {hop : RoutedQuote}
    (h : hop.Priced sdk rt program titanPda) : hop.request.inputMint ≠ hop.request.outputMint := by
  obtain ⟨_, _, hsimulated⟩ := h.simulated
  intro heq
  rcases (sideOf_eq_ok.mp hsimulated.quotable.side_eq).1 with ⟨hsell, hbuy⟩ | ⟨hsell, hbuy⟩
  · exact h.distinct (hsell.symm.trans (heq.trans hbuy))
  · exact h.distinct (hbuy.symm.trans (heq.symm.trans hsell))

/-- The swap of a hop trades between the route accounts of its two mints. -/
theorem RoutedQuote.Priced.sides_eq {hop : RoutedQuote}
    {legs : List (SwapRoute.BuiltLeg ctx.accounts.titanPda)}
    (h : hop.Priced sdk rt program ctx.accounts.titanPda)
    (hcurrent : hop.Current rt ctx mints.toNat bank)
    (hlaid : LaidOutHops rt ctx mints legs named front bank)
    (hatas : Route.Openables rt ctx mints.toNat bank) (hfrom : hop.from.toNat < mints.toNat) :
    (hop.venue.swapAccounts rt ctx.accounts.titanPda).sides (hop.venue.sellsBase hop.request) =
      ctx.hopSides mints.toNat bank hop.from.toNat hop.to.toNat := by
  obtain ⟨_, _, hsimulated⟩ := h.simulated
  obtain ⟨_, hin⟩ := hatas.mint_ok _ hfrom
  obtain ⟨_, hout⟩ := hatas.mint_ok _ hcurrent.to_lt
  rw [hcurrent.input_mint] at hin
  rw [hcurrent.output_mint] at hout
  rw [hsimulated.sides_eq h.refreshed h.distinct hcurrent.current hin hout,
    Route.Context.hopSides, hlaid.derived _ hfrom, hlaid.derived _ hcurrent.to_lt,
    hcurrent.input_mint, hcurrent.output_mint]

/-- The program fills the leg of a hop in every bank that the route can call it in. -/
theorem HopLeg.hop {hop : RoutedQuote} {earlier later : List (SwapRoute.BuiltLeg
    ctx.accounts.titanPda)} {leg : SwapRoute.BuiltLeg ctx.accounts.titanPda} {index : ℕ}
    (hleg : HopLeg sdk rt ctx.accounts.titanPda hop leg)
    (h : hop.Priced sdk rt program ctx.accounts.titanPda)
    (hcurrent : hop.Current rt ctx mints.toNat bank) (hfits : BindingFits sdk)
    (hdocumented : DocumentedSwap sdk)
    (hlaid : LaidOutHops rt ctx mints (earlier ++ leg :: later) named front bank)
    (hatas : Route.Openables rt ctx mints.toNat bank)
    (hindex : index = 2 * mints.toNat + (SwapRoute.legAccounts earlier).length)
    (hfrom : hop.from.toNat < mints.toNat) (htouched : ∀ key ∈ hop.requested, ¬touched key)
    (number : ℕ) :
    Route.Hop rt program ctx mints.toNat bank touched (· ∈ hop.changed) number index
      leg.spec.onChain hop.request.amount.toNat hop.quote.expectedOutput.toNat := by
  obtain ⟨_, _, hsimulated⟩ := h.simulated
  have hfromSpec : leg.spec.onChain.from = hop.from := by rw [hleg.spec_eq]; rfl
  have htoSpec : leg.spec.onChain.to = hop.to := by rw [hleg.spec_eq]; rfl
  have hcount : leg.spec.onChain.nAccounts.toNat = leg.accounts.length := leg.toNat_nAccounts
  obtain ⟨hrange, hcall⟩ :=
    swapCall_sliced hlaid.layout hindex hdocumented hleg.swap_eq hleg.program_eq rfl
  have hsides := h.sides_eq hcurrent hlaid hatas hfrom
  have hpassed := hcall.passed
  rw [hsides, ← hcount] at hpassed
  rw [← hcount] at hrange hcall
  refine {
    to_lt := by rw [htoSpec]; exact hcurrent.to_lt
    ne := fun heq => ?_
    full := by rw [hleg.spec_eq]; exact le_refl 1000000000
    nAccounts_pos := by rw [hcount, leg.length_accounts]; exact Nat.succ_pos _
    slice_le := hrange
    amount_pos := Nat.pos_of_ne_zero fun hzero => h.amount_ne (UInt64.toNat.inj hzero)
    passed := fun slot hslot => ?_
    outside := hcurrent.changed_outside
    fills := fun called input output hfunded hinput houtput hagree => ?_ }
  · rw [hfromSpec, htoSpec] at heq
    apply h.mints_ne
    rw [← hcurrent.input_mint, ← hcurrent.output_mint, heq]
  · rw [hfromSpec, htoSpec] at hslot
    rcases List.mem_pair.mp hslot with rfl | rfl
    · exact hpassed.1
    · exact hpassed.2
  · rw [hfromSpec, htoSpec] at hfunded ⊢
    rw [hfromSpec] at hinput
    rw [htoSpec] at houtput
    rw [← hsides] at hfunded ⊢
    have hanswer : OnBank hop.requested hop.accounts called := by
      refine hcurrent.current.of_sameContents fun key hkey => ?_
      obtain ⟨hpaying, hata⟩ := hcurrent.answer_apart key hkey
      exact hagree key hata hpaying (htouched key hkey)
    refine ⟨hop.venue.sellsBase hop.request, ?_⟩
    have hvenue : leg.spec.onChain.venue = .quay (hop.venue.sellsBase hop.request) := by
      rw [hleg.spec_eq]
      rfl
    obtain ⟨after, hafter, hexchanges⟩ := hsimulated.exchangesWithin h.refreshed h.distinct hfits
      h.swaps number hcall hanswer hfunded (by rw [hinput]; exact Nat.le_add_left _ _)
      (by rw [houtput]; exact hcurrent.room)
    exact ⟨after, hvenue, hafter, hexchanges⟩

/-- The legs of the quotes are the hops of a route. -/
theorem Chained.hops {slot last : UInt8} {amount out : UInt64} {quotes : List RoutedQuote}
    (hchained : Chained slot amount quotes last out) (hfits : BindingFits sdk)
    (hdocumented : DocumentedSwap sdk) (hatas : Route.Openables rt ctx mints.toNat bank)
    (earlier : List (SwapRoute.BuiltLeg ctx.accounts.titanPda))
    {legs : List (SwapRoute.BuiltLeg ctx.accounts.titanPda)}
    (hlegs : List.Forall₂ (HopLeg sdk rt ctx.accounts.titanPda) quotes legs)
    (hpriced : ∀ hop ∈ quotes, hop.Priced sdk rt program ctx.accounts.titanPda)
    (hcurrent : ∀ hop ∈ quotes, hop.Current rt ctx mints.toNat bank) (hisolated : Isolated quotes)
    (hlaid : LaidOutHops rt ctx mints (earlier ++ legs) named front bank) {index : ℕ}
    (hindex : index = 2 * mints.toNat + (SwapRoute.legAccounts earlier).length)
    (hslot : slot.toNat < mints.toNat)
    (htouched : ∀ hop ∈ quotes, ∀ key ∈ hop.requested, ¬touched key) (number : ℕ) :
    Route.Hops rt program ctx mints.toNat bank touched number index slot.toNat amount.toNat
      (SwapRoute.specs legs) last.toNat out.toNat (spends slot amount quotes) := by
  induction hchained generalizing legs earlier touched index number with
  | done slot amount =>
      cases hlegs
      exact .done ..
  | @hop slot amount hop rest last out from_eq amount_eq later ih =>
      subst from_eq amount_eq
      obtain ⟨hheadPriced, hrestPriced⟩ := List.forall_mem_cons.mp hpriced
      obtain ⟨hheadCurrent, hrestCurrent⟩ := List.forall_mem_cons.mp hcurrent
      obtain ⟨hheadTouched, hrestTouched⟩ := List.forall_mem_cons.mp htouched
      obtain ⟨hapart, hrestIsolated⟩ := List.pairwise_cons.mp hisolated
      cases hlegs with
      | @cons _ leg _ legs hleg hlegs =>
          have hfirst := hleg.hop hheadPriced hheadCurrent hfits hdocumented hlaid hatas hindex
            hslot hheadTouched number
          have hfrom : leg.spec.onChain.from.toNat = hop.from.toNat := by rw [hleg.spec_eq]; rfl
          have hto : leg.spec.onChain.to.toNat = hop.to.toNat := by rw [hleg.spec_eq]; rfl
          refine .hop (· ∈ hop.changed) hop.quote.expectedOutput.toNat hfrom hfirst ?_
          rw [hto]
          refine ih (earlier ++ [leg]) hlegs hrestPriced hrestCurrent hrestIsolated ?_ ?_
            hheadCurrent.to_lt (fun next hnext key hkey => ?_) (number + 1)
          · rw [List.append_assoc]
            exact hlaid
          · have hcount : leg.spec.onChain.nAccounts.toNat = leg.accounts.length :=
              leg.toNat_nAccounts
            rw [hcount, hindex, SwapRoute.legAccounts, SwapRoute.legAccounts, List.flatMap_append,
              List.flatMap_singleton, List.length_append, Nat.add_assoc]
          · rintro (hreached | hchanged)
            · exact hrestTouched next hnext key hkey hreached
            · exact hapart next hnext key hchanged hkey

/-- The route of the legs executes, and pays what the last quote says. -/
theorem Chained.executes {quotes : List RoutedQuote} {amount out : UInt64} {last : UInt8}
    {legs : List (SwapRoute.BuiltLeg ctx.accounts.titanPda)} {paying : TokenAccount}
    (hchained : Chained 0 amount quotes last out) (hfits : BindingFits sdk)
    (hdocumented : DocumentedSwap sdk)
    (hpriced : ∀ hop ∈ quotes, hop.Priced sdk rt program ctx.accounts.titanPda)
    (hisolated : Isolated quotes) (hne : quotes ≠ []) (hlength : quotes.length ≤ Route.maxSwaps)
    (hlegs : List.Forall₂ (HopLeg sdk rt ctx.accounts.titanPda) quotes legs)
    (hlaid : LaidOutHops rt ctx mints legs named front bank)
    (hready : Route.RouteReady rt ctx amount mints last.toNat out.toNat (spends 0 amount quotes)
      paying bank)
    (hcurrent : ∀ hop ∈ quotes, hop.Current rt ctx mints.toNat bank) :
    ∃ run, Route.execute rt program ctx amount mints (SwapRoute.specs legs) bank = .ok run ∧
      Route.Settles rt ctx mints.toNat last.toNat amount.toNat out.toNat bank run.final := by
  have hcount : (SwapRoute.specs legs).length = quotes.length := by
    rw [SwapRoute.specs, List.length_map, hlegs.length_eq]
  have hmints : 0 < mints.toNat := Nat.zero_lt_of_lt (UInt8.lt_iff_toNat_lt.mp hready.mints_gt)
  have hhops := hchained.hops hfits hdocumented hready.atas [] hlegs hpriced hcurrent hisolated
    hlaid rfl hmints (fun _ _ _ _ => not_false) 0
  refine (Route.HopRoute.mk hready ?_ ?_ hhops).execute_ok
  · rw [← List.length_pos_iff, hcount, List.length_pos_iff]
    exact hne
  · rw [hcount]
    exact hlength

/-- The route of quotes in a row pays what the last of them was quoted. -/
theorem quotes_routedFill {quotes : List RoutedQuote} {amount out : UInt64} {last : UInt8}
    (hfits : BindingFits sdk) (hdocumented : DocumentedSwap sdk)
    (hpriced : ∀ hop ∈ quotes, hop.Priced sdk rt program ctx.accounts.titanPda)
    (hchained : Chained 0 amount quotes last out) (hisolated : Isolated quotes)
    (hne : quotes ≠ []) (hlength : quotes.length ≤ Route.maxSwaps) :
    ∃ legs : List (SwapRoute.BuiltLeg ctx.accounts.titanPda),
      List.Forall₂ (fun hop leg => SwapRoute.buildSwapLeg (hop.venue.tradingVenue sdk rt)
        hop.request ctx.accounts.titanPda hop.from hop.to SwapRoute.routeWeightAll =
          .ok (leg.spec, leg.accounts)) quotes legs ∧
      Route.decodeSwapRouteV3 (SwapRoute.encodeSwapRouteV3Data amount mints
        (legs.map SwapRoute.BuiltLeg.spec)) = some ((amount, mints, SwapRoute.specs legs), []) ∧
      ∀ named front paying bank, LaidOutHops rt ctx mints legs named front bank →
        Route.RouteReady rt ctx amount mints last.toNat out.toNat (spends 0 amount quotes) paying
          bank →
        (∀ hop ∈ quotes, hop.Current rt ctx mints.toNat bank) →
        ∃ run, Route.execute rt program ctx amount mints (SwapRoute.specs legs) bank = .ok run ∧
          Route.Settles rt ctx mints.toNat last.toNat amount.toNat out.toNat bank run.final := by
  obtain ⟨legs, hlegs⟩ := exists_legs hfits hdocumented hpriced
  refine ⟨legs, hlegs.imp fun _ _ hleg => hleg.build_eq, ?_, ?_⟩
  · have hmax : Route.maxSwaps < 2 ^ 32 := by decide
    have hspecs : (legs.map SwapRoute.BuiltLeg.spec).length = quotes.length := by
      rw [List.length_map, hlegs.length_eq]
    rw [SwapRoute.decodeSwapRouteV3_encode amount mints (by omega), List.map_map]
    rfl
  · intro named front paying bank hlaid hready hcurrent
    exact hchained.executes hfits hdocumented hpriced hisolated hne hlength hlegs hlaid hready
      hcurrent

end

/-! ## Two market makers

A sale of three atoms of base, and of all that it is quoted back again. -/

namespace Sample

open Route.Sample (runtime titanPda user payer baseMint quoteMint baseAta quoteAta userBase
  userQuote mintAccount holding)
open SwapRoute.Sample (named front)

def doubled (amountIn : UInt64) : Option UInt64 := some (2 * amountIn)

/-- Every market maker has vaults of its own. -/
def vaulted : Sdk :=
  { sdkWith doubled with
    vaultPda := fun _ marketMaker mint => key (16 * leNat marketMaker.bytes + leNat mint.bytes)
    unpackMint := routedSdk.unpackMint }

def chainedSdk : Sdk :=
  { vaulted with
    swapWithExt := fun swap amountIn _ side =>
      ⟨swap.programId, (swapKeys vaulted swap (swap.sides (side = sideSellBase)) ++
          [swap.baseTokenProgram, swap.quoteTokenProgram] ++ swap.extKeys).map fun key =>
            ⟨key, key = swap.taker, true⟩, Route.Quay.swapData side amountIn.toNat⟩ }

theorem documentedSwap_chainedSdk : DocumentedSwap chainedSdk := by
  intro swap sellBase amountIn
  refine ⟨[swap.baseTokenProgram, swap.quoteTokenProgram], ?_, le_refl 2, by simp⟩
  have hside : decide (Route.Quay.sideByte sellBase = sideSellBase) = sellBase := by
    cases sellBase <;> rfl
  simp only [chainedSdk, hside, List.map_map]
  exact List.map_id _

/-- The strategy of the market maker `n`, on the program the route calls. -/
def makerStrategy (n : ℕ) : Account :=
  ⟨1, [3 + n, 4, 5, 6 + n, 0, 0, 1, 2, 20, 7 + n].map UInt8.ofNat, Route.Quay.programId⟩

def makerStart (n : ℕ) : QuayVenue :=
  unrefreshed chainedSdk (key (20 + n)) (makerStrategy n)
    { header with owner := key (3 + n), quotesAccount := key (6 + n) } [key (7 + n)]

def makerVault (n : ℕ) (mint : Pubkey) : Pubkey :=
  chainedSdk.vaultPda Route.Quay.programId (key (1003 + n)) mint

def makerAccounts (n : ℕ) : List (Pubkey × Account) :=
  [(key (20 + n), makerStrategy n), (key (1003 + n), stored [0, 0, 0]), (key (6 + n), stored [9]),
    (key (7 + n), stored [1, 2])] ++
  [baseMint, quoteMint].map fun mint => (makerVault n mint, holding mint (key (1003 + n)) 100)

def makersChain : List (Pubkey × Account) :=
  makerAccounts 0 ++ makerAccounts 10 ++
    [(key 2000, stored [0, 0]), (baseMint, mintAccount), (quoteMint, mintAccount),
      (sysvarClockId, stored (zeros 40))]

def makerAnswer (n : ℕ) : List (Option Account) :=
  (makerStart n).requiredUpdatePubkeys.map fun address => makersChain.lookup address

/-- The venue once it was refreshed. -/
def makerVenue (n : ℕ) : QuayVenue :=
  { makerStart n with
    extData := [[1, 2]]
    mmData := [0, 0, 0]
    quotesData := [9]
    globalConfigData := [0, 0]
    tokens := [⟨baseMint, 6, false, none, none⟩, ⟨quoteMint, 6, false, none, none⟩]
    cfgSwapHalted := 0
    cfgProtocolHalted := 0
    strategyFrozen := 0
    strategyFrozenAdmin := 0
    mmFrozen := 0
    mmFrozenAdmin := 0
    mmHaltedAdmin := 0 }

/-- What a swap writes: everything but the configuration that the market makers share. -/
def makerWrites (n : ℕ) : List Pubkey :=
  [key (20 + n), key (1003 + n), key (6 + n), makerVault n baseMint, makerVault n quoteMint]

def makerQuote (n : ℕ) (request : QuoteRequest) (quote : QuoteResult) («from» «to» : UInt8) :
    RoutedQuote where
  venue := makerVenue n
  request := request
  quote := quote
  requested := (makerStart n).requiredUpdatePubkeys
  accounts := makerAnswer n
  changed := makerWrites n
  «from» := «from»
  «to» := «to»

def there : RoutedQuote :=
  makerQuote 0 ⟨baseMint, quoteMint, 3, .exactIn⟩ ⟨baseMint, quoteMint, 3, 6, false, ⟨4, 2⟩⟩ 0 1

def back : RoutedQuote :=
  makerQuote 10 ⟨quoteMint, baseMint, 6, .exactIn⟩ ⟨quoteMint, baseMint, 6, 12, false, ⟨40, 20⟩⟩ 1
    0

def makerLeg (hop : RoutedQuote) (sellBase : Bool) : List AccountMeta :=
  SwapRoute.assembleLegAccounts (chainedSdk.swapWithExt
    (hop.venue.swapAccounts runtime titanPda) hop.request.amount 0 (Route.Quay.sideByte sellBase))
    titanPda Route.Quay.programId

def chainedLegs : List AccountMeta := makerLeg there true ++ makerLeg back false

def chainedSpecs : List SwapRoute.SwapSpecInputV2 :=
  [⟨.quay true, 0, 1, SwapRoute.routeWeightAll, 16⟩,
    ⟨.quay false, 1, 0, SwapRoute.routeWeightAll, 16⟩]

def chainedContext : Route.Context where
  accounts := Route.Sample.accounts
  remainingAccounts :=
    (front ++ chainedLegs).map (SwapRoute.presented (named ++ front ++ chainedLegs))

/-- The user is paid into a second account of the base mint. -/
def chainedBank : Bank := Route.Sample.bankOf (makersChain ++
  [(baseAta, holding baseMint titanPda 30), (quoteAta, holding quoteMint titanPda 40),
    (userBase, holding baseMint user 1000), (userQuote, holding baseMint user 0)])

/-- A program that gives twice what it takes. -/
def doublingProgram : Route.VenueProgram := fun _ instruction _ bank =>
  match instruction.accounts.map AccountMeta.pubkey, getLE instruction.data 1 8 with
  | _ :: _ :: _ :: _ :: vaultIn :: vaultOut :: ataIn :: ataOut :: _, some amount =>
      .ok (swapped vaultIn vaultOut ataIn ataOut amount (2 * UInt64.ofNat amount).toNat bank)
  | _, _ => .error .missingAccount

/-! ### What the programs and the chain hold

The kernel evaluates the sample in three lemmas. -/

/-- The venues are constructed and refreshed, and their swaps are between accounts apart. -/
theorem makers_spec : ∀ n ∈ [0, 10],
    (QuayVenue.fromAccount chainedSdk (key (20 + n)) (makerStrategy n) = .ok (makerStart n) ∧
      (QuayVenue.updateState chainedSdk (.ofChain fun address => makersChain.lookup address)).run'
        (makerStart n) = some ⟨⟩ ∧
      finalState (QuayVenue.updateState chainedSdk (.ofChain fun address =>
        makersChain.lookup address) (makerStart n)) = makerVenue n) ∧
    ∀ sellBase,
      let swap := (makerVenue n).swapAccounts runtime titanPda
      let sides := swap.sides sellBase
      sides.ataIn ≠ sides.ataOut ∧
      (∀ vault ∈ [chainedSdk.vaultPda swap.programId swap.marketMaker sides.mintIn,
          chainedSdk.vaultPda swap.programId swap.marketMaker sides.mintOut],
        vault ∈ makerWrites n ∧ vault ≠ sides.ataIn ∧ vault ≠ sides.ataOut) ∧
      sides.mintIn ≠ nativeMintOf sides.programIn ∧
      sides.mintOut ≠ nativeMintOf sides.programOut := by
  decide +kernel

/-- An address apart from the accounts that the route trades with. -/
def Aside (address : Pubkey) : Prop :=
  address ∉ [chainedContext.accounts.payer, chainedContext.accounts.titanPda] ∧
    ∀ i < 2, address ≠ chainedContext.keyAt i ∧ address ≠ chainedContext.keyAt (2 + i)

instance (address : Pubkey) : Decidable (Aside address) := by
  unfold Aside
  infer_instance

theorem Aside.apart {address : Pubkey} (h : Aside address) :
    Route.Apart chainedContext 2 address := by
  obtain ⟨hnamed, hkeys⟩ := h
  simp only [List.mem_cons, List.not_mem_nil, or_false, not_or] at hnamed
  exact ⟨hnamed.1, fun i hi => (hkeys i hi).1, fun i hi => (hkeys i hi).2, hnamed.2⟩

/-- The quotes, and what the chain holds of them. -/
theorem quotes_spec :
    (∀ hop ∈ [there, back],
      hop.venue.computeQuote chainedSdk hop.request = .ok hop.quote ∧
      (hop.to.toNat < 2 ∧ chainedContext.keyAt (2 + hop.from.toNat) = hop.request.inputMint ∧
        chainedContext.keyAt (2 + hop.to.toNat) = hop.request.outputMint ∧
        chainedContext.heldAt runtime 2 chainedBank hop.to.toNat +
          hop.quote.expectedOutput.toNat ≤ u64Max) ∧
      (hop.accounts = hop.requested.map fun address => some (chainedBank address)) ∧
      (∀ address ∈ hop.requested, address ≠ chainedContext.accounts.inputTokenAccount ∧
        ∀ i < 2, address ≠ chainedContext.keyAt i) ∧
      ∀ address ∈ hop.changed, Aside address ∧
        address ≠ chainedContext.accounts.inputTokenAccount ∧
        address ≠ chainedContext.accounts.outputTokenAccount ∧
        Route.isTitanPdaTokenAccount (chainedBank address) chainedContext.accounts.titanPda =
          false) ∧
    ∀ address ∈ there.changed, address ∉ back.requested := by
  decide +kernel

/-- The accounts that the route finds. -/
theorem chainedBank_spec :
    (chainedBank (chainedContext.keyAt 0) = holding baseMint titanPda 30 ∧
      chainedBank (chainedContext.keyAt 1) = holding quoteMint titanPda 40) ∧
    (chainedBank (chainedContext.keyAt 2) = mintAccount ∧
      chainedBank (chainedContext.keyAt 3) = mintAccount) ∧
    (chainedBank chainedContext.accounts.inputTokenAccount = holding baseMint user 1000 ∧
      chainedBank chainedContext.accounts.outputTokenAccount = holding baseMint user 0) ∧
    (chainedBank user).data = [] ∧ (chainedBank titanPda).data = [] := by
  decide +kernel

/-- The addresses of the route. -/
theorem chainedContext_spec :
    (chainedContext.keyAt 0 = baseAta ∧ chainedContext.keyAt 1 = quoteAta ∧
      chainedContext.keyAt 2 = baseMint ∧ chainedContext.keyAt 3 = quoteMint) ∧
    (∀ i < 2, payer ≠ chainedContext.keyAt i ∧ titanPda ≠ chainedContext.keyAt i ∧
      user ≠ chainedContext.keyAt i) ∧
    (∀ i < 2, ∀ j < 2, (chainedContext.keyAt i = chainedContext.keyAt j → i = j) ∧
      chainedContext.keyAt (2 + i) ≠ chainedContext.keyAt j) ∧
    (Aside chainedContext.accounts.inputTokenAccount ∧
      Aside chainedContext.accounts.outputTokenAccount) ∧
    4 ≤ chainedContext.remainingAccounts.length ∧ quoteMint ≠ nativeMintOf splTokenId := by
  decide +kernel

/-! ### The quotes -/

theorem refreshed_makerVenue : ∀ n ∈ [0, 10],
    Refreshed chainedSdk (makerVenue n) (makerStart n).requiredUpdatePubkeys (makerAnswer n) := by
  intro n hn
  obtain ⟨⟨hstart, hstep, hfinal⟩, _⟩ := makers_spec n hn
  have hok : QuayVenue.updateState chainedSdk (.ofChain fun address => makersChain.lookup address)
      (makerStart n) = .ok ⟨⟩ (makerVenue n) := by
    rw [eq_ok_of_run' hstep, hfinal]
  have hrun : run (QuayVenue.updateState chainedSdk)
      [.ofChain fun address => makersChain.lookup address] (makerStart n) = makerVenue n := by
    rw [← List.nil_append [AccountsCache.ofChain _], run_concat, run_nil, hok, finalState]
  refine ⟨key (20 + n), makerStrategy n, makerStart n, [.ofChain _], [], .ofChain _, [], hstart,
    ⟨rfl, ?_, by simp⟩, rfl, rfl, hrun⟩
  rw [hrun]
  exact hok

theorem swapsWithin_makerVenue : ∀ n ∈ [0, 10],
    SwapsWithin chainedSdk doublingProgram (makerVenue n)
      ((makerVenue n).swapAccounts runtime titanPda) (makerStart n).requiredUpdatePubkeys
      (makerAnswer n) (· ∈ makerWrites n) := by
  intro n hn leg sellBase amountIn metas infos bank input output inputs simulation hcall _ hfunded
    _ hinputs hsimulation hroom
  obtain ⟨programs, hkeys, _⟩ := hcall.layout
  simp only [chainedSdk, vaulted, sdkWith, doubled, amountIn_of_chainInputs hinputs] at hsimulation
  obtain rfl := Except.ok.inj hsimulation
  obtain ⟨_, hsides⟩ := makers_spec n hn
  obtain ⟨hatas, hvaults, hnativeIn, hnativeOut⟩ := hsides sellBase
  refine ⟨_, ?_, exchanges_swapped hfunded hatas hvaults hnativeIn hnativeOut hroom⟩
  simp only [doublingProgram, hkeys, swapKeys, List.cons_append]
  rw [Route.getLE_swapData _ amountIn.toNat_lt]
  simp only [UInt64.ofNat_toNat]

theorem priced_quotes :
    ∀ hop ∈ [there, back], hop.Priced chainedSdk runtime doublingProgram titanPda := by
  intro hop hhop
  obtain ⟨hquote, _⟩ := quotes_spec.1 hop hhop
  simp only [List.mem_cons, List.not_mem_nil, or_false] at hhop
  rcases hhop with rfl | rfl
  · exact ⟨refreshed_makerVenue 0 (by simp), rfl, by decide, hquote, rfl, by decide,
      swapsWithin_makerVenue 0 (by simp)⟩
  · exact ⟨refreshed_makerVenue 10 (by simp), rfl, by decide, hquote, rfl, by decide,
      swapsWithin_makerVenue 10 (by simp)⟩

theorem isolated_quotes : Isolated [there, back] := by
  rw [Isolated, List.pairwise_pair]
  exact quotes_spec.2

theorem current_quotes :
    ∀ hop ∈ [there, back], hop.Current runtime chainedContext 2 chainedBank := by
  intro hop hhop
  obtain ⟨_, ⟨hto, hinput, houtput, hroom⟩, hanswer, hapart, hchanged⟩ := quotes_spec.1 hop hhop
  refine ⟨hto, hinput, houtput, fun slot address account hentry => ?_, hapart,
    fun address haddress => ?_, hroom⟩
  · have hanswered := hentry.answered
    rw [hanswer, List.getElem?_map, hentry.requested, Option.map_some] at hanswered
    obtain rfl := Option.some.inj (Option.some.inj hanswered)
    exact .refl _
  · obtain ⟨haside, hin, hout, hforeign⟩ := hchanged address haddress
    exact ⟨haside.apart, hin, hout, hforeign⟩

/-! ### The route -/

theorem plainMint_runtime (mint : Pubkey) (mintData : Bytes) :
    PlainMint runtime splTokenId mint mintData where
  no_fee _ := rfl
  account_length := show accountLen + 0 + 1 ≠ multisigLen by decide
  permits_close _ _ := rfl

theorem slotCost_held {wallet mint address : Pubkey}
    (h : ∃ held wallet amount, chainedBank address = holding held wallet amount) :
    Route.slotCost runtime wallet mint address chainedBank = 0 := by
  obtain ⟨held, owner, amount, heq⟩ := h
  have hexists : Route.accountExists (chainedBank address) = true := by
    rw [heq]
    simp [Route.accountExists, holding, length_newTokenData, accountLen]
  rw [Route.slotCost, if_pos hexists]

theorem routeCosts_chained : chainedContext.routeCosts runtime 2 0 chainedBank = 0 := by
  obtain ⟨⟨hbase, hquote⟩, _, ⟨_, hreceiving⟩, _⟩ := chainedBank_spec
  rw [Route.Context.routeCosts, Finset.sum_range_succ, Finset.sum_range_one,
    slotCost_held ⟨_, _, _, hbase⟩, slotCost_held ⟨_, _, _, hquote⟩,
    slotCost_held ⟨_, _, _, hreceiving⟩]

theorem isMint_sample : IsMint mintAccount.owner mintAccount 6 ∧
    IsMint quoteMintAccount.owner quoteMintAccount 6 :=
  ⟨⟨.inl rfl, rfl, rfl⟩, ⟨.inr rfl, rfl, rfl⟩⟩

theorem holds_holding (wallet : Pubkey) (amount : ℕ) :
    Holds splTokenId (holding baseMint wallet amount)
      ⟨baseMint, wallet, amount % 2 ^ 64, none, false, none, 0, none⟩ := by
  have hnative : baseMint ≠ nativeMintOf splTokenId := (native_routedSwap true).1
  exact ⟨NewTail.none.unpacks 1 amount .none, by simpa using hnative, fun hsome =>
    absurd hsome Bool.false_ne_true⟩

theorem unpacks_newTokenData {tokenProgram owner mint wallet : Pubkey} {amount lamports : ℕ}
    {tail : Bytes} {token : TokenAccount}
    (h : Unpacks tokenProgram ⟨lamports, newTokenData mint wallet amount none tail, owner⟩ token) :
    token.frozen = false ∧ token.delegate = none := by
  obtain rfl := Option.some.inj (h.read.symm.trans readTokenAccount_newTokenData)
  exact ⟨rfl, rfl⟩

theorem undelegated_spendable (mint wallet : Pubkey) (amount limit : ℕ) :
    Spendable ⟨mint, wallet, amount, none, false, none, 0, none⟩ wallet limit :=
  ⟨rfl, rfl, fun hdelegate => absurd hdelegate.symm (Option.some_ne_none _)⟩

theorem holds_quote (amount : ℕ) : Holds splTokenId (holding quoteMint titanPda amount)
    ⟨quoteMint, titanPda, amount % 2 ^ 64, none, false, none, 0, none⟩ := by
  obtain ⟨_, _, _, _, _, hnative⟩ := chainedContext_spec
  refine ⟨NewTail.none.unpacks 1 amount .none, by simpa using hnative, fun hsome => ?_⟩
  exact absurd hsome Bool.false_ne_true

theorem openables_chainedBank : Route.Openables runtime chainedContext 2 chainedBank := by
  obtain ⟨⟨hbase, hquote⟩, ⟨hbaseMint, hquoteMint⟩, _⟩ := chainedBank_spec
  obtain ⟨⟨_, _, hkey2, hkey3⟩, hnamed, hdistinct, _, hlength, _⟩ := chainedContext_spec
  refine ⟨by decide, hlength, ⟨rfl, rfl⟩, fun i hi => (hnamed i hi).1,
    fun i hi j hj => (hdistinct i hi j hj).1, fun i hi j hj => (hdistinct i hi j hj).2,
    forall_lt_two ?_ ?_, forall_lt_two ?_ ?_, forall_lt_two ?_ ?_, ?_⟩
  · rw [Nat.add_zero, hbaseMint]
    exact ⟨6, isMint_sample.1⟩
  · rw [hquoteMint]
    exact ⟨6, isMint_sample.1⟩
  · rw [Nat.add_zero, hbaseMint]
    exact plainMint_runtime _ _
  · rw [hquoteMint]
    exact plainMint_runtime _ _
  · rw [Nat.add_zero, hbaseMint, hbase, hkey2]
    exact .held _ (holds_holding titanPda 30) (undelegated_spendable ..) rfl Nat.one_pos
  · rw [hquoteMint, hquote, hkey3]
    exact .held _ (holds_quote 40) (undelegated_spendable ..) rfl Nat.one_pos
  · rw [Finset.sum_range_succ, Finset.sum_range_one, slotCost_held ⟨_, _, _, hbase⟩,
      slotCost_held ⟨_, _, _, hquote⟩]
    exact fun hpos => absurd hpos (Nat.lt_irrefl 0)

theorem signsAlone_chainedBank {wallet : Pubkey} (hdata : (chainedBank wallet).data = [])
    (tokenProgram : Pubkey) : SignsAlone tokenProgram wallet chainedBank := by
  intro hmultisig
  rw [hdata] at hmultisig
  exact absurd hmultisig.2 (by decide)

theorem ready_chainedBank : Route.RouteReady runtime chainedContext 3 2 0 12
    (spends 0 3 [there, back]) ⟨baseMint, user, 1000 % 2 ^ 64, none, false, none, 0, none⟩
    chainedBank := by
  obtain ⟨⟨hbase, hquote⟩, ⟨hbaseMint, _⟩, ⟨hpaying, hreceiving⟩, huser, htitan⟩ :=
    chainedBank_spec
  obtain ⟨⟨_, _, hkey2, _⟩, hnamed, _, ⟨hinApart, houtApart⟩, _⟩ := chainedContext_spec
  have hmint : chainedContext.keyAt (2 : UInt8).toNat = baseMint := hkey2
  have hroom : chainedContext.heldAt runtime (2 : UInt8).toNat chainedBank 0 +
        (3 : UInt64).toNat ≤ u64Max ∧
      Route.balanceAt runtime chainedContext.accounts.user
        (chainedContext.keyAt ((2 : UInt8).toNat + 0)) chainedContext.accounts.outputTokenAccount
        chainedBank + 12 ≤ u64Max := by decide +kernel
  have hundelegated {address tokenProgram mint wallet : Pubkey} {amount limit : ℕ}
      {token : TokenAccount} (heq : chainedBank address = holding mint wallet amount)
      (h : Unpacks tokenProgram (chainedBank address) token)
      (hdelegate : token.delegate = some titanPda) : limit ≤ token.delegatedAmount := by
    rw [heq] at h
    rw [(unpacks_newTokenData h).2] at hdelegate
    exact absurd hdelegate.symm (Option.some_ne_none _)
  exact {
    mints_gt := by decide
    no_ledger := rfl
    not_native := by
      rw [hmint]
      exact mints_ne_native.1
    atas := openables_chainedBank
    allowances := forall_lt_two (fun _ => hundelegated hbase) (fun _ => hundelegated hquote)
    paying_holds := by
      rw [hmint, ← hkey2, hbaseMint, hpaying]
      exact holds_holding user 1000
    paying_spendable := undelegated_spendable ..
    paying_mint := hmint.symm
    paying_amount := by decide
    receiver := by
      change Route.Receiver runtime (chainedBank (chainedContext.keyAt 2)).owner _
        (chainedContext.keyAt 2) _ _
      rw [hbaseMint, hreceiving, hkey2]
      exact .held _ (holds_holding user 0) rfl rfl Nat.one_pos
    costs_funded := fun hpos => absurd hpos (by
      change ¬0 < chainedContext.routeCosts runtime 2 0 chainedBank
      rw [routeCosts_chained]
      exact Nat.lt_irrefl 0)
    deposit_passes := fun _ _ _ _ => rfl
    payout_passes := fun _ _ _ _ => rfl
    input_room := hroom.1
    user_room := hroom.2
    user_signs := signsAlone_chainedBank huser _
    titan_signs := fun program _ => signsAlone_chainedBank htitan program
    user_ne := fun i hi => (hnamed i hi).2.2
    user_ne_titan := by decide
    titan_ne := fun i hi => (hnamed i hi).2.1
    input_apart := hinApart.apart
    output_apart := houtApart.apart
    input_ne_output := by decide }

theorem laidOut_chainedBank {legs : List (SwapRoute.BuiltLeg chainedContext.accounts.titanPda)}
    (hlegs : SwapRoute.legAccounts legs = chainedLegs) :
    LaidOutHops runtime chainedContext 2 legs named front chainedBank := by
  obtain ⟨⟨hkey0, hkey1, hkey2, hkey3⟩, _⟩ := chainedContext_spec
  obtain ⟨_, ⟨hbaseMint, hquoteMint⟩, _⟩ := chainedBank_spec
  refine ⟨⟨rfl, ?_⟩, forall_lt_two ?_ ?_⟩
  · rw [hlegs]
    rfl
  · change chainedContext.keyAt 0 = runtime.ataAddress _ (chainedContext.keyAt 2)
      (chainedBank (chainedContext.keyAt 2)).owner
    rw [hkey0, hbaseMint, hkey2]
    rfl
  · change chainedContext.keyAt 1 = runtime.ataAddress _ (chainedContext.keyAt 3)
      (chainedBank (chainedContext.keyAt 3)).owner
    rw [hkey1, hquoteMint, hkey3]
    rfl

theorem quotes_routedFill_sample :
    ∃ run, Route.execute runtime doublingProgram chainedContext 3 2
        (chainedSpecs.map SwapRoute.SwapSpecInputV2.onChain) chainedBank = .ok run ∧
      Route.Settles runtime chainedContext 2 0 3 12 chainedBank run.final := by
  have hchained : Chained 0 3 [there, back] 0 12 := .hop rfl rfl (.hop rfl rfl (.done 0 12))
  obtain ⟨legs, hbuilt, _, hfills⟩ := @quotes_routedFill chainedSdk runtime doublingProgram
    chainedContext 2 [there, back] 3 12 0 (bindingFits doubled) documentedSwap_chainedSdk
    priced_quotes hchained isolated_quotes (by simp) (by decide)
  obtain ⟨first, rest, hfirst, hrest, rfl⟩ := List.forall₂_cons_left_iff.mp hbuilt
  obtain ⟨second, none, hsecond, hnone, rfl⟩ := List.forall₂_cons_left_iff.mp hrest
  obtain rfl := List.forall₂_nil_left_iff.mp hnone
  have hthere : SwapRoute.buildSwapLeg (there.venue.tradingVenue chainedSdk runtime) there.request
      titanPda 0 1 SwapRoute.routeWeightAll = .ok (chainedSpecs[0], makerLeg there true) := rfl
  have hback : SwapRoute.buildSwapLeg (back.venue.tradingVenue chainedSdk runtime) back.request
      titanPda 1 0 SwapRoute.routeWeightAll = .ok (chainedSpecs[1], makerLeg back false) := rfl
  obtain ⟨hspec, haccounts⟩ := Prod.mk.inj (Except.ok.inj (hfirst.symm.trans hthere))
  obtain ⟨hspec', haccounts'⟩ := Prod.mk.inj (Except.ok.inj (hsecond.symm.trans hback))
  have hspecs : SwapRoute.specs [first, second] =
      chainedSpecs.map SwapRoute.SwapSpecInputV2.onChain := by
    rw [SwapRoute.specs, List.map_cons, List.map_singleton, hspec, hspec']
    rfl
  have hlegs : SwapRoute.legAccounts [first, second] = chainedLegs := by
    rw [SwapRoute.legAccounts, List.flatMap_cons, List.flatMap_singleton, haccounts, haccounts',
      chainedLegs]
  rw [← hspecs]
  exact hfills named front _ chainedBank (laidOut_chainedBank hlegs) ready_chainedBank
    current_quotes

end Sample

end QuayTitan.Quay
