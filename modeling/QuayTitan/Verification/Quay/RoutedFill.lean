import Mathlib.Data.List.Nodup
import QuayTitan.Verification.Quay.RoutedHops

/-! # A quote and its routed fill

What the venue quotes is what the route of one leg pays, when the program on chain swaps as
the simulator says. -/

namespace QuayTitan.Quay

open Fallible ByteFields

variable {sdk : Sdk} {rt : Runtime} {program : Route.VenueProgram} {venue : QuayVenue}
  {request : QuoteRequest} {requested : List Pubkey} {accounts : List (Option Account)}

/-! ## The route -/

/-- The accounts of the instruction, as documented. -/
structure LaidOut (rt : Runtime) (request : QuoteRequest) (ctx : Route.Context)
    (legAccounts named front : List AccountMeta) (bank : Bank) : Prop where
  front_eq : front.map AccountMeta.pubkey =
    [rt.ataAddress ctx.accounts.titanPda request.inputMint (bank request.inputMint).owner,
      rt.ataAddress ctx.accounts.titanPda request.outputMint (bank request.outputMint).owner,
      request.inputMint, request.outputMint]
  remaining_eq : ctx.remainingAccounts =
    (front ++ legAccounts).map (SwapRoute.presented (named ++ front ++ legAccounts))
  programs : Route.StandardPrograms ctx
  no_ledger : ctx.accounts.tokenLedger = none

/-- A token account of a wallet, or an address without data. -/
inductive HeldOrVacant (program wallet mint : Pubkey) (account : Account) : Prop
  | held (token : TokenAccount) (holds : Holds program account token)
      (owner_eq : token.owner = wallet) (mint_eq : token.mint = mint)
      (lamports_pos : 0 < account.lamports)
  | vacant (vacant : Vacant account)

/-- A token account its wallet pays an amount from. -/
structure Pays (program wallet mint : Pubkey) (amount : ℕ) (account : Account)
    (token : TokenAccount) : Prop where
  holds : Holds program account token
  owner_eq : token.owner = wallet
  mint_eq : token.mint = mint
  amount_le : amount ≤ token.amount

/-- The accounts that a route of one leg trades with. -/
structure Tradable (rt : Runtime) (venue : QuayVenue) (request : QuoteRequest)
    (ctx : Route.Context) (requested : List Pubkey) (accounts : List (Option Account))
    (bank : Bank) : Prop where
  onBank : OnBank requested accounts bank
  mints_ok : ∀ mint ∈ [request.inputMint, request.outputMint],
    (∃ decimals, IsMint (bank mint).owner (bank mint) decimals) ∧
      PlainMint rt (bank mint).owner mint (bank mint).data
  ata_in : HeldOrVacant (bank request.inputMint).owner ctx.accounts.titanPda request.inputMint
    (bank (ctx.keyAt 0))
  ata_out : HeldOrVacant (bank request.outputMint).owner ctx.accounts.titanPda request.outputMint
    (bank (ctx.keyAt 1))
  paying : ∃ token, Pays (bank request.inputMint).owner ctx.accounts.user request.inputMint
    request.amount.toNat (bank ctx.accounts.inputTokenAccount) token
  receiving : HeldOrVacant (bank request.outputMint).owner ctx.accounts.user request.outputMint
    (bank ctx.accounts.outputTokenAccount)
  receiving_derived : (bank ctx.accounts.outputTokenAccount).data = [] →
    rt.ataAddress ctx.accounts.user request.outputMint (bank request.outputMint).owner =
      ctx.accounts.outputTokenAccount
  signs : ∀ wallet ∈ [ctx.accounts.user, ctx.accounts.titanPda], ∀ program,
    program = splTokenId ∨ program = token2022Id → SignsAlone program wallet bank
  apart : [ctx.accounts.payer, ctx.keyAt 0, ctx.keyAt 1, request.inputMint, request.outputMint,
    ctx.accounts.titanPda, ctx.accounts.inputTokenAccount, ctx.accounts.outputTokenAccount].Nodup
  user_apart : ctx.accounts.user ∉ [ctx.keyAt 0, ctx.keyAt 1, ctx.accounts.titanPda]
  answer_apart : ∀ key ∈ requested,
    key ∉ [ctx.keyAt 0, ctx.keyAt 1, ctx.accounts.inputTokenAccount]
  own_apart : ∀ key ∈ venue.ownKeys, key ∉ [ctx.accounts.payer, request.inputMint,
    request.outputMint, ctx.accounts.titanPda, ctx.accounts.outputTokenAccount]
  own_foreign : ∀ key ∈ venue.ownKeys,
    Route.isTitanPdaTokenAccount (bank key) ctx.accounts.titanPda = false

/-- Nothing keeps the lamports and the tokens from moving. -/
structure Unhindered (rt : Runtime) (request : QuoteRequest) (ctx : Route.Context) (out : ℕ)
    (bank : Bank) : Prop where
  funded : CanFund (bank ctx.accounts.payer) (ctx.routeCosts rt 2 1 bank)
  deposit_passes : Route.LetsPass rt (bank request.inputMint).data
    (extensions (bank ctx.accounts.inputTokenAccount).data)
    (Route.extensionsAt rt request.inputMint (ctx.keyAt 0) bank)
  payout_passes : Route.LetsPass rt (bank request.outputMint).data
    (Route.extensionsAt rt request.outputMint (ctx.keyAt 1) bank)
    (Route.extensionsAt rt request.outputMint ctx.accounts.outputTokenAccount bank)
  not_frozen : ∀ key ∈ [ctx.accounts.inputTokenAccount, ctx.keyAt 0, ctx.keyAt 1,
    ctx.accounts.outputTokenAccount], ∀ program token,
      Unpacks program (bank key) token → token.frozen = false
  allowances : ∀ spending ∈ [(ctx.accounts.inputTokenAccount, request.amount.toNat),
      (ctx.keyAt 0, request.amount.toNat), (ctx.keyAt 1, out)], ∀ program token,
    Unpacks program (bank spending.1) token → token.delegate = some token.owner →
      spending.2 ≤ token.delegatedAmount
  input_room : ctx.heldAt rt 2 bank 0 + request.amount.toNat ≤ u64Max
  output_room : ctx.heldAt rt 2 bank 1 + out ≤ u64Max
  user_room : Route.balanceAt rt ctx.accounts.user request.outputMint
    ctx.accounts.outputTokenAccount bank + out ≤ u64Max

section

variable {ctx : Route.Context} {legAccounts named front : List AccountMeta} {bank : Bank}

theorem LaidOut.keyAt (h : LaidOut rt request ctx legAccounts named front bank) :
    ctx.keyAt 0 = rt.ataAddress ctx.accounts.titanPda request.inputMint
        (bank request.inputMint).owner ∧
      ctx.keyAt 1 = rt.ataAddress ctx.accounts.titanPda request.outputMint
        (bank request.outputMint).owner ∧
      ctx.keyAt 2 = request.inputMint ∧ ctx.keyAt 3 = request.outputMint := by
  have hlength : front.length = 4 := by
    rw [← List.length_map AccountMeta.pubkey, h.front_eq]
    rfl
  have hread {index : ℕ} (hindex : index < 4) :
      ctx.keyAt index = ((front.map AccountMeta.pubkey)[index]?).getD default := by
    rw [Route.Context.keyAt, h.remaining_eq, List.getElem?_map,
      List.getElem?_append_left (by omega), Option.map_map, List.getElem?_map]
    rfl
  rw [hread (by omega), hread (by omega), hread (by omega), hread (by omega), h.front_eq]
  exact ⟨rfl, rfl, rfl, rfl⟩

/-! ## The token accounts -/

theorem HeldOrVacant.slot {tokenProgram wallet mint address : Pubkey} {account : Account}
    (h : HeldOrVacant tokenProgram wallet mint account)
    (hderived : rt.ataAddress wallet mint tokenProgram = address)
    (hfrozen : ∀ program token, Unpacks program account token → token.frozen = false) :
    Route.Slot rt tokenProgram wallet mint address account := by
  cases h with
  | held token holds owner_eq mint_eq lamports_pos =>
      exact .held token holds ⟨owner_eq, hfrozen _ _ holds.unpacks, fun _ => Nat.zero_le _⟩ mint_eq
        lamports_pos
  | vacant vacant => exact .vacant vacant hderived

theorem HeldOrVacant.receiver {tokenProgram wallet mint address : Pubkey} {account : Account}
    (h : HeldOrVacant tokenProgram wallet mint account)
    (hderived : account.data = [] → rt.ataAddress wallet mint tokenProgram = address)
    (hfrozen : ∀ program token, Unpacks program account token → token.frozen = false) :
    Route.Receiver rt tokenProgram wallet mint address account := by
  cases h with
  | held token holds owner_eq mint_eq lamports_pos =>
      exact .held token holds (hfrozen _ _ holds.unpacks) mint_eq lamports_pos
  | vacant vacant => exact .vacant vacant (hderived vacant.data_eq)

/-- The wallet of a held account owns whatever the token programs read there. -/
theorem HeldOrVacant.owner_eq {tokenProgram wallet mint program : Pubkey} {account : Account}
    {token : TokenAccount} (h : HeldOrVacant tokenProgram wallet mint account)
    (hunpacks : Unpacks program account token) : token.owner = wallet := by
  cases h with
  | held held holds owner_eq mint_eq lamports_pos =>
      obtain rfl := Option.some.inj (hunpacks.read.symm.trans holds.unpacks.read)
      exact owner_eq
  | vacant vacant => exact absurd vacant.data_eq hunpacks.data_ne_nil

/-- The token accounts of TitanPDA can be opened. -/
theorem Tradable.openables {out : ℕ}
    (htrade : Tradable rt venue request ctx requested accounts bank)
    (hlaid : LaidOut rt request ctx legAccounts named front bank)
    (hfree : Unhindered rt request ctx out bank) : Route.Openables rt ctx 2 bank := by
  obtain ⟨hkey0, hkey1, hkey2, hkey3⟩ := hlaid.keyAt
  have hmint0 : ctx.keyAt (2 + 0) = request.inputMint := hkey2
  have hmint1 : ctx.keyAt (2 + 1) = request.outputMint := hkey3
  obtain ⟨hin, hinPlain⟩ := htrade.mints_ok request.inputMint (by simp)
  obtain ⟨hout, houtPlain⟩ := htrade.mints_ok request.outputMint (by simp)
  have hapart := htrade.apart
  simp only [List.nodup_cons, List.mem_cons, List.not_mem_nil, or_false, not_or] at hapart
  obtain ⟨⟨hpayer0, hpayer1, _⟩, ⟨hatas, hin0, hout0, _⟩, ⟨hin1, hout1, _⟩, _⟩ := hapart
  have hlength : 4 ≤ ctx.remainingAccounts.length := by
    have hfront := congrArg List.length hlaid.front_eq
    rw [List.length_map] at hfront
    rw [hlaid.remaining_eq, List.length_map, List.length_append, hfront]
    exact Nat.le_add_right 4 _
  refine ⟨by decide, hlength, hlaid.programs, forall_lt_two hpayer0 hpayer1,
    forall_lt_two (forall_lt_two ?_ ?_) (forall_lt_two ?_ ?_),
    forall_lt_two (forall_lt_two ?_ ?_) (forall_lt_two ?_ ?_),
    forall_lt_two ?_ ?_, forall_lt_two ?_ ?_, forall_lt_two ?_ ?_,
    hfree.funded.mono (Nat.le_add_right _ _)⟩
  · exact fun _ => rfl
  · exact fun heq => (hatas heq).elim
  · exact fun heq => (hatas heq.symm).elim
  · exact fun _ => rfl
  · rw [hmint0]
    exact Ne.symm hin0
  · rw [hmint0]
    exact Ne.symm hin1
  · rw [hmint1]
    exact Ne.symm hout0
  · rw [hmint1]
    exact Ne.symm hout1
  · rw [hmint0]
    exact hin
  · rw [hmint1]
    exact hout
  · rw [hmint0]
    exact hinPlain
  · rw [hmint1]
    exact houtPlain
  · rw [hmint0]
    exact htrade.ata_in.slot hkey0.symm (hfree.not_frozen _ (by simp))
  · rw [hmint1]
    exact htrade.ata_out.slot hkey1.symm (hfree.not_frozen _ (by simp))

/-- The accounts of the user are apart from the others. -/
theorem Tradable.userApart (htrade : Tradable rt venue request ctx requested accounts bank)
    (hlaid : LaidOut rt request ctx legAccounts named front bank) :
    Route.Apart ctx 2 ctx.accounts.inputTokenAccount ∧
      Route.Apart ctx 2 ctx.accounts.outputTokenAccount ∧
      ctx.accounts.inputTokenAccount ≠ ctx.accounts.outputTokenAccount := by
  obtain ⟨_, _, hkey2, hkey3⟩ := hlaid.keyAt
  have hmint0 : ctx.keyAt (2 + 0) = request.inputMint := hkey2
  have hmint1 : ctx.keyAt (2 + 1) = request.outputMint := hkey3
  have hapart := htrade.apart
  rw [← hmint0, ← hmint1] at hapart
  simp only [List.nodup_cons, List.mem_cons, List.not_mem_nil, or_false, not_or] at hapart
  obtain ⟨⟨_, _, _, _, _, hpayerIn, hpayerOut⟩, ⟨_, _, _, _, hata0In, hata0Out⟩,
    ⟨_, _, _, hata1In, hata1Out⟩, ⟨_, _, hmint0In, hmint0Out⟩, ⟨_, hmint1In, hmint1Out⟩,
    ⟨htitanIn, htitanOut⟩, hne, _⟩ := hapart
  refine ⟨?_, ?_, hne⟩
  · exact ⟨Ne.symm hpayerIn, forall_lt_two (Ne.symm hata0In) (Ne.symm hata1In),
      forall_lt_two (Ne.symm hmint0In) (Ne.symm hmint1In), Ne.symm htitanIn⟩
  · exact ⟨Ne.symm hpayerOut, forall_lt_two (Ne.symm hata0Out) (Ne.symm hata1Out),
      forall_lt_two (Ne.symm hmint0Out) (Ne.symm hmint1Out), Ne.symm htitanOut⟩

theorem Tradable.titan_ne (htrade : Tradable rt venue request ctx requested accounts bank) :
    ∀ i < 2, ctx.accounts.titanPda ≠ ctx.keyAt i := by
  have hapart := htrade.apart
  simp only [List.nodup_cons, List.mem_cons, List.not_mem_nil, or_false, not_or] at hapart
  obtain ⟨_, ⟨_, _, _, h0, _⟩, ⟨_, _, h1, _⟩, _⟩ := hapart
  exact forall_lt_two (Ne.symm h0) (Ne.symm h1)

/-! ## A row of one quote -/

/-- A quote as the only one of a route. -/
def onlyQuote (venue : QuayVenue) (request : QuoteRequest) (quote : QuoteResult)
    (requested : List Pubkey) (accounts : List (Option Account)) : RoutedQuote where
  venue := venue
  request := request
  quote := quote
  requested := requested
  accounts := accounts
  changed := venue.ownKeys
  «from» := 0
  «to» := 1

variable {quote : QuoteResult}

theorem Quoted.priced {titanPda : Pubkey}
    (h : Quoted sdk venue request quote requested accounts)
    (honChain : SimulatedOnChain sdk rt program venue titanPda requested accounts) :
    (onlyQuote venue request quote requested accounts).Priced sdk rt program titanPda :=
  ⟨h.refreshed, h.programId_eq, h.distinct, h.quoted, h.filled, h.amount_ne, honChain.swaps⟩

/-- The accounts that a swap changes are among those of the answer. -/
theorem Refreshed.ownKeys_subset (h : Refreshed sdk venue requested accounts) :
    ∀ key ∈ venue.ownKeys, key ∈ requested := by
  obtain ⟨cache, state, snap, _, rfl, rfl, _⟩ := h.answers
  intro key hkey
  simp only [QuayVenue.ownKeys, Snapshot.commit, List.mem_cons, List.not_mem_nil, or_false] at hkey
  simp only [QuayVenue.requiredUpdatePubkeys, List.mem_append, List.mem_cons, List.not_mem_nil,
    or_false]
  tauto

theorem LaidOut.hops {leg : SwapRoute.BuiltLeg ctx.accounts.titanPda}
    (hlaid : LaidOut rt request ctx leg.accounts named front bank) :
    LaidOutHops rt ctx 2 [leg] named front bank := by
  obtain ⟨hkey0, hkey1, hkey2, hkey3⟩ := hlaid.keyAt
  have hfront := congrArg List.length hlaid.front_eq
  rw [List.length_map] at hfront
  refine ⟨⟨hfront, ?_⟩, forall_lt_two ?_ ?_⟩
  · simp only [SwapRoute.legAccounts, List.flatMap_singleton]
    exact hlaid.remaining_eq
  · change ctx.keyAt 0 = rt.ataAddress _ (ctx.keyAt 2) (bank (ctx.keyAt 2)).owner
    rw [hkey0, hkey2]
  · change ctx.keyAt 1 = rt.ataAddress _ (ctx.keyAt 3) (bank (ctx.keyAt 3)).owner
    rw [hkey1, hkey3]

theorem Tradable.current (htrade : Tradable rt venue request ctx requested accounts bank)
    (hrefreshed : Refreshed sdk venue requested accounts)
    (hlaid : LaidOut rt request ctx legAccounts named front bank)
    (hfree : Unhindered rt request ctx quote.expectedOutput.toNat bank) :
    (onlyQuote venue request quote requested accounts).Current rt ctx 2 bank := by
  obtain ⟨_, _, hkey2, hkey3⟩ := hlaid.keyAt
  have hanswer : ∀ key ∈ requested,
      key ≠ ctx.accounts.inputTokenAccount ∧ ∀ i < 2, key ≠ ctx.keyAt i := by
    intro key hkey
    have hapart := htrade.answer_apart key hkey
    simp only [List.mem_cons, List.not_mem_nil, or_false, not_or] at hapart
    exact ⟨hapart.2.2, forall_lt_two hapart.1 hapart.2.1⟩
  refine ⟨Nat.one_lt_two, hkey2, hkey3, htrade.onBank, hanswer, fun key hkey => ?_,
    hfree.output_room⟩
  obtain ⟨hinput, hatas⟩ := hanswer key (hrefreshed.ownKeys_subset key hkey)
  have hapart := htrade.own_apart key hkey
  rw [← hkey2, ← hkey3] at hapart
  simp only [List.mem_cons, List.not_mem_nil, or_false, not_or] at hapart
  obtain ⟨hpayer, hmint0, hmint1, htitan, houtput⟩ := hapart
  exact ⟨⟨hpayer, hatas, forall_lt_two hmint0 hmint1, htitan⟩, hinput, houtput,
    htrade.own_foreign key hkey⟩

/-- The accounts of a tradable route are ready, when nothing hinders it. -/
theorem Tradable.ready {paying : TokenAccount}
    (htrade : Tradable rt venue request ctx requested accounts bank)
    (h : Quoted sdk venue request quote requested accounts)
    (hlaid : LaidOut rt request ctx legAccounts named front bank)
    (hfree : Unhindered rt request ctx quote.expectedOutput.toNat bank)
    (hpaying : Pays (bank request.inputMint).owner ctx.accounts.user request.inputMint
      request.amount.toNat (bank ctx.accounts.inputTokenAccount) paying) :
    Route.RouteReady rt ctx request.amount 2 1 quote.expectedOutput.toNat
      (spends 0 request.amount [onlyQuote venue request quote requested accounts]) paying bank := by
  obtain ⟨_, _, hkey2, hkey3⟩ := hlaid.keyAt
  have hmintIn : ctx.keyAt (2 : UInt8).toNat = request.inputMint := hkey2
  have hmintOut : ctx.keyAt ((2 : UInt8).toNat + 1) = request.outputMint := hkey3
  obtain ⟨⟨_, hin⟩, _⟩ := htrade.mints_ok request.inputMint (by simp)
  obtain ⟨hinput, houtput, hne⟩ := htrade.userApart hlaid
  have huser := htrade.user_apart
  simp only [List.mem_cons, List.not_mem_nil, or_false, not_or] at huser
  refine {
    mints_gt := by decide
    no_ledger := hlaid.no_ledger
    not_native := by rw [hmintIn]; exact h.not_native
    atas := htrade.openables hlaid hfree
    allowances := forall_lt_two (fun token hunpacks hdelegate => ?_)
      fun token hunpacks hdelegate => ?_
    paying_holds := by rw [hmintIn]; exact hpaying.holds
    paying_spendable := ⟨hpaying.owner_eq, hfree.not_frozen _ (by simp) _ _ hpaying.holds.unpacks,
      fun hdelegate => ?_⟩
    paying_mint := hpaying.mint_eq.trans hmintIn.symm
    paying_amount := hpaying.amount_le
    receiver := by
      rw [hmintOut]
      exact htrade.receiving.receiver htrade.receiving_derived (hfree.not_frozen _ (by simp))
    costs_funded := hfree.funded
    deposit_passes := by rw [hmintIn]; exact hfree.deposit_passes
    payout_passes := by rw [hmintOut]; exact hfree.payout_passes
    input_room := hfree.input_room
    user_room := by rw [hmintOut]; exact hfree.user_room
    user_signs := by rw [hmintIn]; exact htrade.signs _ (by simp) _ hin.known
    titan_signs := htrade.signs _ (by simp)
    user_ne := forall_lt_two huser.1 huser.2.1
    user_ne_titan := huser.2.2
    titan_ne := htrade.titan_ne
    input_apart := hinput
    output_apart := houtput
    input_ne_output := hne }
  · rw [← htrade.ata_in.owner_eq hunpacks] at hdelegate
    exact hfree.allowances (ctx.keyAt 0, request.amount.toNat) (by simp) _ _ hunpacks hdelegate
  · rw [← htrade.ata_out.owner_eq hunpacks] at hdelegate
    have hallowed := hfree.allowances (ctx.keyAt 1, quote.expectedOutput.toNat) (by simp) _ _
      hunpacks hdelegate
    have hspent : spends 0 request.amount [onlyQuote venue request quote requested accounts] 1 =
        quote.expectedOutput.toNat := Nat.zero_add _
    rw [hspent]
    exact hallowed
  · rw [← hpaying.owner_eq] at hdelegate
    exact hfree.allowances (ctx.accounts.inputTokenAccount, request.amount.toNat) (by simp) _ _
      hpaying.holds.unpacks hdelegate

/-! ## The fill -/

/-- The route of a quote pays what was quoted, unless an account keeps the lamports or the
tokens from moving. -/
theorem computeQuote_routedFill
    (h : Quoted sdk venue request quote requested accounts)
    (honChain : SimulatedOnChain sdk rt program venue ctx.accounts.titanPda requested accounts) :
    ∃ spec legAccounts,
      SwapRoute.buildSwapLeg (venue.tradingVenue sdk rt) request ctx.accounts.titanPda 0 1
        SwapRoute.routeWeightAll = .ok (spec, legAccounts) ∧
      Route.decodeSwapRouteV3 (SwapRoute.encodeSwapRouteV3Data request.amount 2 [spec]) =
        some ((request.amount, 2, [spec.onChain]), []) ∧
      ∀ named front bank, LaidOut rt request ctx legAccounts named front bank →
        Tradable rt venue request ctx requested accounts bank →
        Unhindered rt request ctx quote.expectedOutput.toNat bank →
        ∃ run, Route.execute rt program ctx request.amount 2 [spec.onChain] bank = .ok run ∧
          Route.Settles rt ctx 2 1 request.amount.toNat quote.expectedOutput.toNat bank
            run.final := by
  have hpriced := h.priced honChain
  obtain ⟨leg, hleg⟩ := hpriced.exists_leg honChain.fits honChain.documented
  refine ⟨leg.spec, leg.accounts, hleg.build_eq,
    SwapRoute.decodeSwapRouteV3_encode request.amount 2 (show 1 < 2 ^ 32 by decide), ?_⟩
  intro named front bank hlaid htrade hfree
  obtain ⟨paying, hpaying⟩ := htrade.paying
  have hchained : Chained 0 request.amount [onlyQuote venue request quote requested accounts] 1
      quote.expectedOutput := .hop rfl rfl (.done _ _)
  exact hchained.executes honChain.fits honChain.documented (List.forall_mem_singleton.mpr hpriced)
    (List.pairwise_singleton _ _) (List.cons_ne_nil _ _)
    (show 1 ≤ Route.maxSwaps by decide) (.cons hleg .nil) hlaid.hops
    (htrade.ready h hlaid hfree hpaying)
    (List.forall_mem_singleton.mpr (htrade.current h.refreshed hlaid hfree))

end

/-! ## A sample route, and what keeps it from filling -/

namespace Sample

open Route.Sample (titanPda user payer baseMint quoteMint baseAta quoteAta userBase userQuote
  mintAccount holding)
open SwapRoute.Sample (named front)

def routedContext : Route.Context where
  accounts := Route.Sample.accounts
  remainingAccounts :=
    (front ++ routedLeg).map (SwapRoute.presented (named ++ front ++ routedLeg))

/-- The chain but for the payer, the accounts of the user and TitanPDA's input account. -/
def routedElsewhere (address : Pubkey) : Account :=
  (routedChain address).getD
    (Route.Sample.bankOf [(quoteAta, quoteHolding titanPda 40 [2])] address)

/-- A chain for the route; `tail` follows the fields of the account the user is paid into. -/
def routedBank (payerAccount paying ataIn : Account) (tail : Bytes) : Bank :=
  Function.update (Function.update (Function.update (Function.update routedElsewhere payer
    payerAccount) userQuote (quoteHolding user 0 tail)) userBase paying) baseAta ataIn

section

variable {payerAccount paying ataIn : Account} {tail : Bytes}

theorem routedBank_of_ne {address : Pubkey} (h : address ∉ [payer, userQuote, userBase, baseAta]) :
    routedBank payerAccount paying ataIn tail address = routedElsewhere address := by
  simp only [List.mem_cons, List.not_mem_nil, or_false, not_or] at h
  rw [routedBank, Function.update_of_ne h.2.2.2, Function.update_of_ne h.2.2.1,
    Function.update_of_ne h.2.1, Function.update_of_ne h.1]

/-- What is there: the accounts of the route, those of the answer, and those of the venue. -/
theorem routedElsewhere_spec :
    (routedElsewhere baseMint = mintAccount ∧ routedElsewhere quoteMint = quoteMintAccount ∧
      routedElsewhere user = .absent ∧ routedElsewhere titanPda = .absent ∧
      routedElsewhere quoteAta = quoteHolding titanPda 40 [2]) ∧
    (∀ address ∈ requestedAccounts, address ∉ [payer, userQuote, userBase, baseAta] ∧
      routedChain address = some (routedElsewhere address)) ∧
    ∀ address ∈ routedVenue.ownKeys, address ∉ [payer, userQuote, userBase, baseAta] ∧
      Route.isTitanPdaTokenAccount (routedElsewhere address) titanPda = false := by
  decide +kernel

theorem routedBank_mints : routedBank payerAccount paying ataIn tail sale.inputMint = mintAccount ∧
    routedBank payerAccount paying ataIn tail sale.outputMint = quoteMintAccount := by
  have hbase : sale.inputMint = baseMint := rfl
  have hquote : sale.outputMint = quoteMint := rfl
  rw [hbase, hquote, routedBank_of_ne (by decide), routedBank_of_ne (by decide)]
  exact ⟨routedElsewhere_spec.1.1, routedElsewhere_spec.1.2.1⟩

/-- The token accounts of the route. -/
theorem routedBank_eq :
    routedBank payerAccount paying ataIn tail (routedContext.keyAt 0) = ataIn ∧
    routedBank payerAccount paying ataIn tail (routedContext.keyAt 1) =
      quoteHolding titanPda 40 [2] ∧
    routedBank payerAccount paying ataIn tail routedContext.accounts.inputTokenAccount = paying ∧
    routedBank payerAccount paying ataIn tail routedContext.accounts.outputTokenAccount =
      quoteHolding user 0 tail := by
  have hkeys : routedContext.keyAt 0 = baseAta ∧ routedContext.keyAt 1 = quoteAta := by
    decide +kernel
  have huser : routedContext.accounts.inputTokenAccount = userBase ∧
      routedContext.accounts.outputTokenAccount = userQuote := ⟨rfl, rfl⟩
  rw [hkeys.1, hkeys.2, huser.1, huser.2]
  refine ⟨Function.update_self .., ?_, ?_, ?_⟩
  · rw [routedBank_of_ne (by decide), routedElsewhere_spec.1.2.2.2.2]
  · rw [routedBank, Function.update_of_ne (by decide), Function.update_self]
  · rw [routedBank, Function.update_of_ne (by decide), Function.update_of_ne (by decide),
      Function.update_self]

theorem plainMint_sample (tokenProgram mint : Pubkey) (mintData : Bytes) :
    PlainMint routedRuntime tokenProgram mint mintData where
  no_fee _ := rfl
  account_length := show accountLen + 0 + 1 ≠ multisigLen by decide
  permits_close _ _ := rfl

theorem holds_quoteHolding (h : NewTail token2022Id tail) (wallet : Pubkey) (amount : ℕ) :
    Holds token2022Id (quoteHolding wallet amount tail)
      ⟨quoteMint, wallet, amount % 2 ^ 64, none, false, none, 0, none⟩ := by
  have hnative : quoteMint ≠ nativeMintOf token2022Id := (native_routedSwap true).2
  exact ⟨h.unpacks 1 amount .none, by simpa using hnative, nofun⟩

theorem newTail_sample : NewTail token2022Id [2] ∧ NewTail token2022Id memoRequired :=
  ⟨.extended [] rfl (by decide), .extended [8, 0, 1, 0, 1] rfl (by decide)⟩

theorem onBank_routedBank :
    OnBank requestedAccounts answeredAccounts (routedBank payerAccount paying ataIn tail) := by
  intro slot address account hentry
  obtain ⟨hne, hchain⟩ :=
    routedElsewhere_spec.2.1 address (List.mem_of_getElem? hentry.requested)
  have hanswered := hentry.answered
  rw [answeredAccounts, List.getElem?_map, hentry.requested, Option.map_some, hchain] at hanswered
  obtain rfl := Option.some.inj (Option.some.inj hanswered)
  rw [routedBank_of_ne hne]
  exact .refl _

theorem laidOut_sample : LaidOut routedRuntime sale routedContext routedLeg named front
    (routedBank payerAccount paying ataIn tail) :=
  ⟨rfl, rfl, ⟨rfl, rfl⟩, rfl⟩

/-- The wallets have no data. -/
theorem signsAlone_sample {wallet : Pubkey} (hwallet : wallet = user ∨ wallet = titanPda)
    (tokenProgram : Pubkey) :
    SignsAlone tokenProgram wallet (routedBank payerAccount paying ataIn tail) := by
  have habsent : routedBank payerAccount paying ataIn tail wallet = .absent := by
    rcases hwallet with rfl | rfl
    · rw [routedBank_of_ne (by decide), routedElsewhere_spec.1.2.2.1]
    · rw [routedBank_of_ne (by decide), routedElsewhere_spec.1.2.2.2.1]
  intro hmultisig
  rw [habsent] at hmultisig
  exact absurd hmultisig.2 (by decide)

theorem tradable_sample (hpaying : ∃ token, Pays splTokenId user baseMint 3 paying token)
    (hata : HeldOrVacant splTokenId titanPda baseMint ataIn) (htail : NewTail token2022Id tail) :
    Tradable routedRuntime routedVenue sale routedContext requestedAccounts answeredAccounts
      (routedBank payerAccount paying ataIn tail) := by
  obtain ⟨hbase, hquote⟩ := @routedBank_mints payerAccount paying ataIn tail
  obtain ⟨hataIn, hataOut, hpays, hreceives⟩ := @routedBank_eq payerAccount paying ataIn tail
  refine {
    onBank := onBank_routedBank
    mints_ok := fun mint hmint => ⟨?_, plainMint_sample _ _ _⟩
    ata_in := ?_
    ata_out := ?_
    paying := ?_
    receiving := ?_
    receiving_derived := fun habsent => ?_
    signs := fun wallet hwallet program _ => signsAlone_sample (List.mem_pair.mp hwallet) _
    apart := by decide +kernel
    user_apart := by decide +kernel
    answer_apart := by decide +kernel
    own_apart := by decide +kernel
    own_foreign := fun address hmem => ?_ }
  · rcases List.mem_pair.mp hmint with rfl | rfl
    · rw [hbase]
      exact ⟨6, isMint_sample.1⟩
    · rw [hquote]
      exact ⟨6, isMint_sample.2⟩
  · rw [hbase, hataIn]
    exact hata
  · rw [hquote, hataOut]
    exact .held _ (holds_quoteHolding newTail_sample.1 titanPda 40) rfl rfl Nat.one_pos
  · rw [hbase, hpays]
    exact hpaying
  · rw [hquote, hreceives]
    exact .held _ (holds_quoteHolding htail user 0) rfl rfl Nat.one_pos
  · rw [hreceives] at habsent
    cases habsent
  · obtain ⟨hne, hforeign⟩ := routedElsewhere_spec.2.2 address hmem
    rw [routedBank_of_ne hne]
    exact hforeign

end

/-- Changed bytes of an account. -/
def edited (account : Account) (offset : ℕ) (bytes : Bytes) : Account :=
  { account with data := putField account.data offset bytes }

/-- The holding of the user once it is frozen, and once it is delegated to the user. -/
def frozenHolding : Account := edited (holding baseMint user 1000) 108 [2]

def delegatedHolding (allowance : ℕ) : Account :=
  edited (edited (edited (holding baseMint user 1000) 72 [1, 0, 0, 0]) 76 user.bytes) 121
    (leBytes 8 allowance)

theorem edited_spec :
    unpackTokenAccount splTokenId frozenHolding =
        .ok ⟨baseMint, user, 1000, none, true, none, 0, none⟩ ∧
      ∀ allowance ∈ [2, 3], unpackTokenAccount splTokenId (delegatedHolding allowance) =
        .ok ⟨baseMint, user, 1000, some user, false, none, allowance, none⟩ := by decide +kernel

/-- Both still pay. -/
theorem pays_edited : (∃ token, Pays splTokenId user baseMint 3 frozenHolding token) ∧
    ∀ allowance ∈ [2, 3],
      ∃ token, Pays splTokenId user baseMint 3 (delegatedHolding allowance) token := by
  have hnative : baseMint ≠ nativeMintOf splTokenId := (native_routedSwap true).1
  obtain ⟨hfrozen, hdelegated⟩ := edited_spec
  refine ⟨⟨_, ⟨unpackTokenAccount_eq_ok.mp hfrozen, by simpa using hnative, fun hsome => ?_⟩, rfl,
    rfl, by decide⟩, fun allowance hallowance => ⟨_, ⟨unpackTokenAccount_eq_ok.mp (hdelegated _
      hallowance), by simpa using hnative, fun hsome => ?_⟩, rfl, rfl,
        show 3 ≤ 1000 by decide⟩⟩
  · exact absurd hsome Bool.false_ne_true
  · exact absurd hsome Bool.false_ne_true

/-- Lamports wait at the address of TitanPDA's account of the base mint, the payer pays the rest of
its rent, and the user has delegated the deposit to himself. -/
def fillingBank : Bank :=
  routedBank ⟨1000, [], systemProgramId⟩ (delegatedHolding 3) ⟨5, [], systemProgramId⟩ [2]

/-- What the token programs read of the accounts of the route. -/
theorem fillingBank_unpacks {program : Pubkey} {token : TokenAccount} :
    (Unpacks program (fillingBank routedContext.accounts.inputTokenAccount) token →
      token = ⟨baseMint, user, 1000, some user, false, none, 3, none⟩) ∧
    ¬Unpacks program (fillingBank (routedContext.keyAt 0)) token ∧
    ∀ key ∈ [routedContext.keyAt 1, routedContext.accounts.outputTokenAccount],
      Unpacks program (fillingBank key) token → token.frozen = false ∧ token.delegate = none := by
  obtain ⟨hataIn, hataOut, hpays, hreceives⟩ : _ ∧ _ ∧ _ ∧ _ := @routedBank_eq
    ⟨1000, [], systemProgramId⟩ (delegatedHolding 3) ⟨5, [], systemProgramId⟩ [2]
  refine ⟨fun h => ?_, fun h => ?_, fun key hmem h => ?_⟩
  · rw [fillingBank, hpays] at h
    have hread := (unpackTokenAccount_eq_ok.mp (edited_spec.2 3 (by simp))).read
    exact Option.some.inj (h.read.symm.trans hread)
  · rw [fillingBank, hataIn] at h
    exact h.data_ne_nil rfl
  · rcases List.mem_pair.mp hmem with rfl | rfl
    · rw [fillingBank, hataOut] at h
      exact unpacks_newTokenData h
    · rw [fillingBank, hreceives] at h
      exact unpacks_newTokenData h

theorem unhindered_fillingBank : Unhindered routedRuntime sale routedContext 19 fillingBank := by
  have hrooms : (0 < routedContext.routeCosts routedRuntime 2 1 fillingBank →
        ((fillingBank routedContext.accounts.payer).owner = systemProgramId ∧
          (fillingBank routedContext.accounts.payer).data = []) ∧
        routedContext.routeCosts routedRuntime 2 1 fillingBank ≤
          (fillingBank routedContext.accounts.payer).lamports) ∧
      Route.extensionsAt routedRuntime sale.inputMint (routedContext.keyAt 0) fillingBank = [] ∧
      Route.extensionsAt routedRuntime sale.outputMint routedContext.accounts.outputTokenAccount
        fillingBank = [2] ∧
      routedContext.heldAt routedRuntime 2 fillingBank 0 + sale.amount.toNat ≤ u64Max ∧
      routedContext.heldAt routedRuntime 2 fillingBank 1 + 19 ≤ u64Max ∧
      Route.balanceAt routedRuntime routedContext.accounts.user sale.outputMint
        routedContext.accounts.outputTokenAccount fillingBank + 19 ≤ u64Max := by decide +kernel
  obtain ⟨hfunded, hdeposit, hpayout, hroomIn, hroomOut, hroomUser⟩ := hrooms
  have hpasses {mintData source tail : Bytes} (htail : tail ≠ memoRequired) :
      Route.LetsPass routedRuntime mintData source tail := by
    intro sourceData destinationData _ hdestination
    simp only [routedRuntime, hdestination, decide_eq_true htail]
  refine ⟨fun hpos => ?_, ?_, ?_, fun key hmem program token h => ?_,
    fun spending hmem program token h hdelegate => ?_, hroomIn, hroomOut, hroomUser⟩
  · obtain ⟨⟨howner, hdata⟩, hcosts⟩ := hfunded hpos
    exact ⟨⟨howner, hdata⟩, hcosts⟩
  · rw [hdeposit]
    exact hpasses (by decide)
  · rw [hpayout]
    exact hpasses (by decide)
  · obtain ⟨hinput, hata, hothers⟩ := @fillingBank_unpacks program token
    simp only [List.mem_cons, List.not_mem_nil, or_false] at hmem
    rcases hmem with rfl | rfl | rfl | rfl
    · rw [hinput h]
    · exact absurd h hata
    · exact (hothers _ (by simp) h).1
    · exact (hothers _ (by simp) h).1
  · obtain ⟨hinput, hata, hothers⟩ := @fillingBank_unpacks program token
    simp only [List.mem_cons, List.not_mem_nil, or_false] at hmem
    rcases hmem with rfl | rfl | rfl
    · rw [hinput h]
      exact le_refl 3
    · exact absurd h hata
    · rw [(hothers _ (by simp) h).2] at hdelegate
      exact absurd hdelegate.symm (Option.some_ne_none _)

theorem computeQuote_routedFill_sample :
    ∃ run, Route.execute routedRuntime swapProgram routedContext 3 2 [routedSpec.onChain]
        fillingBank = .ok run ∧
      Route.Settles routedRuntime routedContext 2 1 3 19 fillingBank run.final := by
  obtain ⟨spec, legAccounts, hbuild, _, hfills⟩ :=
    @computeQuote_routedFill routedSdk routedRuntime swapProgram routedVenue sale requestedAccounts
      answeredAccounts routedContext saleQuote quoted_sale simulatedOnChain_swapProgram
  obtain ⟨rfl, rfl⟩ := Prod.mk.inj (Except.ok.inj (hbuild.symm.trans buildSwapLeg_sale))
  exact hfills named front fillingBank laidOut_sample
    (tradable_sample (pays_edited.2 3 (by simp)) (.vacant ⟨rfl, rfl⟩) newTail_sample.1)
    unhindered_fillingBank

/-- Nobody pays for the account to open, the deposit is frozen or above the allowance of its
owner, what TitanPDA holds leaves no room for it, or the payout needs a memo. -/
def refusingBanks : List Bank :=
  [routedBank .absent (holding baseMint user 1000) .absent [2],
    routedBank .absent frozenHolding (holding baseMint titanPda 30) [2],
    routedBank .absent (delegatedHolding 2) (holding baseMint titanPda 30) [2],
    routedBank .absent (holding baseMint user 1000) (holding baseMint titanPda u64Max) [2],
    routedBank .absent (holding baseMint user 1000) (holding baseMint titanPda 30) memoRequired]

/-- The same quote is not filled where an account is missing that nobody pays for, where the
deposit is frozen or above the allowance its owner has, where it does not fit, and where the
user's account asks for a memo. -/
theorem computeQuote_routedFill_counterexample :
    Quoted routedSdk routedVenue sale saleQuote requestedAccounts answeredAccounts ∧
    SimulatedOnChain routedSdk routedRuntime swapProgram routedVenue titanPda requestedAccounts
      answeredAccounts ∧
    SwapRoute.buildSwapLeg (routedVenue.tradingVenue routedSdk routedRuntime) sale titanPda 0 1
      SwapRoute.routeWeightAll = .ok (routedSpec, routedLeg) ∧
    ∀ bank ∈ refusingBanks,
      LaidOut routedRuntime sale routedContext routedLeg named front bank ∧
      Tradable routedRuntime routedVenue sale routedContext requestedAccounts answeredAccounts
        bank ∧
      ∀ run, Route.execute routedRuntime swapProgram routedContext 3 2 [routedSpec.onChain] bank ≠
        .ok run := by
  refine ⟨quoted_sale, simulatedOnChain_swapProgram, buildSwapLeg_sale, fun bank hbank => ?_⟩
  have hrefused : ∀ bank ∈ refusingBanks, (Route.execute routedRuntime swapProgram routedContext 3
      2 [routedSpec.onChain] bank).isOk = false := by decide +kernel
  have hpaying : ∃ token, Pays splTokenId user baseMint 3 (holding baseMint user 1000) token :=
    ⟨_, holds_holding user 1000, rfl, rfl, by decide⟩
  have hata (amount : ℕ) : HeldOrVacant splTokenId titanPda baseMint
      (holding baseMint titanPda amount) :=
    .held _ (holds_holding titanPda amount) rfl rfl Nat.one_pos
  obtain ⟨hplain, hmemo⟩ := newTail_sample
  have hnever : ∀ run, Route.execute routedRuntime swapProgram routedContext 3 2
      [routedSpec.onChain] bank ≠ .ok run := by
    intro run hrun
    have hfailed := hrefused bank hbank
    rw [hrun] at hfailed
    cases hfailed
  simp only [refusingBanks, List.mem_cons, List.not_mem_nil, or_false] at hbank
  rcases hbank with rfl | rfl | rfl | rfl | rfl
  · exact ⟨laidOut_sample, tradable_sample hpaying (.vacant ⟨rfl, rfl⟩) hplain, hnever⟩
  · exact ⟨laidOut_sample, tradable_sample pays_edited.1 (hata 30) hplain, hnever⟩
  · exact ⟨laidOut_sample, tradable_sample (pays_edited.2 2 (by simp)) (hata 30) hplain, hnever⟩
  · exact ⟨laidOut_sample, tradable_sample hpaying (hata u64Max) hplain, hnever⟩
  · exact ⟨laidOut_sample, tradable_sample hpaying (hata 30) hmemo, hnever⟩

end Sample

end QuayTitan.Quay
