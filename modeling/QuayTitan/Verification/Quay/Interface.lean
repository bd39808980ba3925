import Mathlib.Data.List.Nodup
import QuayTitan.Model.VenueMethods
import QuayTitan.Verification.Bounds
import QuayTitan.Verification.Quay.Outcome

/-! # The interface of a Quay venue

The token indices, directions and bounds that the trait derives from the token metadata and the
quotes. -/

namespace QuayTitan

open Bounds Fallible

/-! ## Token indices -/

section Tokens

variable {tokenInfo : List TokenInfo} {i j : UInt8}

theorem getToken_eq_ok {i : ℕ} {token : TokenInfo} :
    TradingVenue.getToken tokenInfo i = .ok token ↔ tokenInfo[i]? = some token := by
  unfold TradingVenue.getToken
  cases tokenInfo[i]? with
  | none => simp
  | some found => simp

theorem mem_tokenIndices : i ∈ TradingVenue.tokenIndices tokenInfo ↔
    i.toNat < tokenInfo.length := by
  simp only [TradingVenue.tokenIndices, List.mem_filterMap, List.mem_range]
  constructor
  · rintro ⟨index, hlt, hindex⟩
    split at hindex
    · rename_i hbyte
      obtain rfl := Option.some.inj hindex
      rwa [UInt8.toNat_ofNat_of_lt' hbyte]
    · cases hindex
  · intro hlt
    exact ⟨i.toNat, hlt, by rw [if_pos i.toNat_lt, UInt8.ofNat_toNat]⟩

theorem nodup_tokenIndices (tokenInfo : List TokenInfo) :
    (TradingVenue.tokenIndices tokenInfo).Nodup := by
  refine List.Nodup.filterMap (fun m n index hm hn => ?_) List.nodup_range
  rw [Option.mem_def] at hm hn
  split at hm
  · split at hn
    · rename_i hmByte hnByte
      have hm := congrArg UInt8.toNat (Option.some.inj hm)
      have hn := congrArg UInt8.toNat (Option.some.inj hn)
      rw [UInt8.toNat_ofNat_of_lt' hmByte] at hm
      rw [UInt8.toNat_ofNat_of_lt' hnByte] at hn
      exact hm.trans hn.symm
    · cases hn
  · cases hm

/-- The directions are the ordered pairs of distinct token indices. -/
theorem mem_directionsNum : (i, j) ∈ TradingVenue.directionsNum tokenInfo ↔
    i ≠ j ∧ i.toNat < tokenInfo.length ∧ j.toNat < tokenInfo.length := by
  simp only [TradingVenue.directionsNum, List.mem_flatMap, List.mem_map, List.mem_filter,
    mem_tokenIndices, Prod.mk.injEq]
  constructor
  · rintro ⟨a, ha, b, ⟨hb, hne⟩, rfl, rfl⟩
    exact ⟨fun h => of_decide_eq_true hne h.symm, ha, hb⟩
  · rintro ⟨hne, hi, hj⟩
    exact ⟨i, hi, j, ⟨hj, decide_eq_true hne.symm⟩, rfl, rfl⟩

theorem nodup_directionsNum (tokenInfo : List TokenInfo) :
    (TradingVenue.directionsNum tokenInfo).Nodup := by
  have hnodup := nodup_tokenIndices tokenInfo
  refine List.nodup_flatMap.mpr ⟨fun i _ => ?_, ?_⟩
  · exact (hnodup.filter _).map fun a b h => (Prod.mk.inj h).2
  · refine hnodup.imp fun {a b} hne => ?_
    intro pair ha hb
    obtain ⟨_, _, rfl⟩ := List.mem_map.mp ha
    obtain ⟨_, _, hpair⟩ := List.mem_map.mp hb
    exact hne (Prod.mk.inj hpair).1.symm

end Tokens

namespace Quay

variable {sdk : Sdk} {venue : QuayVenue} {i j : UInt8} {input output : Pubkey} {amount : UInt64}

/-- The requests of the boundary search between two mints. -/
def quoteRequest (input output : Pubkey) (amount : UInt64) : QuoteRequest where
  inputMint := input
  outputMint := output
  amount := amount
  swapType := .exactIn

/-- The quoting function the search probes. -/
def QuayVenue.quoting (sdk : Sdk) (venue : QuayVenue) (input output : Pubkey) : Quoting :=
  fun amount => venue.computeQuote sdk (quoteRequest input output amount)

/-- The venue is open for the pair of mints and its curve gives something for the amount. -/
def Fills (sdk : Sdk) (venue : QuayVenue) (input output : Pubkey) (amount : UInt64) : Prop :=
  ∃ side baseDecimals quoteDecimals out,
    Quotable sdk venue (quoteRequest input output amount) side baseDecimals quoteDecimals ∧
    venue.simulateOut sdk side baseDecimals quoteDecimals amount = some out ∧ 0 < out

theorem validQuote_pricedQuote {simulateOut : UInt64 → Option UInt64} {priceProbeIn : UInt64}
    {request : QuoteRequest} :
    validQuote (pricedQuote simulateOut priceProbeIn request) = true ↔
      request.amount ≠ 0 ∧ ∃ out, simulateOut request.amount = some out ∧ 0 < out := by
  unfold pricedQuote
  by_cases hzero : request.amount = 0
  · simp [hzero, validQuote]
  · cases hfill : simulateOut request.amount with
    | none => simp [hzero, validQuote]
    | some out => simp [hzero, validQuote, UInt64.pos_iff_ne_zero]

theorem Quotable.quotes_iff {side baseDecimals quoteDecimals : UInt8}
    (h : Quotable sdk venue (quoteRequest input output amount) side baseDecimals quoteDecimals) :
    quotes (venue.quoting sdk input output) amount = true ↔ amount ≠ 0 ∧
      ∃ out, venue.simulateOut sdk side baseDecimals quoteDecimals amount = some out ∧ 0 < out := by
  rw [quotes, QuayVenue.quoting, computeQuote_ok_iff.mpr ⟨_, _, _, h, rfl⟩]
  exact validQuote_pricedQuote

/-- A valid quote fills the amount in full, at a positive price. -/
theorem Quotable.filled {side baseDecimals quoteDecimals : UInt8}
    (h : Quotable sdk venue (quoteRequest input output amount) side baseDecimals quoteDecimals)
    (hvalid : quotes (venue.quoting sdk input output) amount = true) :
    ∃ quote, venue.computeQuote sdk (quoteRequest input output amount) = .ok quote ∧
      quote.notEnoughLiquidity = false ∧
      venue.simulateOut sdk side baseDecimals quoteDecimals amount = some quote.expectedOutput ∧
      0 < quote.price.toRat := by
  obtain ⟨hne, out, hout, hpos⟩ := h.quotes_iff.mp hvalid
  have hanswered : Answered (venue.simulateOut sdk side baseDecimals quoteDecimals)
      (venue.priceProbeIn side) (quoteRequest input output amount) _ :=
    pricedQuote_filled _ hne hout hpos
  have hamount : 0 < amount := UInt64.pos_iff_ne_zero.mpr hne
  have hfull : (pricedQuote (venue.simulateOut sdk side baseDecimals quoteDecimals)
      (venue.priceProbeIn side) (quoteRequest input output amount)).notEnoughLiquidity = false := by
    refine Bool.eq_false_iff.mpr fun hrefused => ?_
    have hnone := (hanswered.refused_iff hamount).mp hrefused
    exact absurd (hout.symm.trans hnone) (Option.some_ne_none out)
  refine ⟨_, computeQuote_ok_iff.mpr ⟨_, _, _, h, rfl⟩, hfull, ?_,
    (hanswered.priced_iff hamount).mpr hfull⟩
  rw [hanswered.output_eq hamount]
  exact hout.trans (congrArg some (congrArg (Option.getD · 0) hout).symm)

theorem quotes_iff_fills : quotes (venue.quoting sdk input output) amount = true ↔
    amount ≠ 0 ∧ Fills sdk venue input output amount := by
  constructor
  · intro hvalid
    cases hquote : venue.computeQuote sdk (quoteRequest input output amount) with
    | error e =>
        rw [quotes, QuayVenue.quoting, hquote] at hvalid
        cases hvalid
    | ok result =>
        obtain ⟨side, baseDecimals, quoteDecimals, hquotable, _⟩ := computeQuote_ok_iff.mp hquote
        obtain ⟨hne, out, hout, hpos⟩ := hquotable.quotes_iff.mp hvalid
        exact ⟨hne, side, baseDecimals, quoteDecimals, out, hquotable, hout, hpos⟩
  · rintro ⟨hne, side, baseDecimals, quoteDecimals, out, hquotable, hout, hpos⟩
    exact hquotable.quotes_iff.mpr ⟨hne, out, hout, hpos⟩

theorem sample_ne_zero {k : ℕ} (hk : k ≤ 63) : sample k ≠ 0 := by
  intro hzero
  have hpow := toNat_sample hk
  rw [hzero] at hpow
  exact absurd hpow.symm (Nat.two_pow_pos k).ne'

/-- How a boundary search ends. -/
inductive BoundsOutcome (sdk : Sdk) (venue : QuayVenue) (i j : UInt8) :
    Except (Stop VenueMethodError) (UInt64 × UInt64) → Prop
  | unknownInput (unknown : venue.tokens.length ≤ i.toNat) :
      BoundsOutcome sdk venue i j (.error (.returned (.tokenInfoIndexError i.toNat)))
  | unknownOutput (known : i.toNat < venue.tokens.length)
      (unknown : venue.tokens.length ≤ j.toNat) :
      BoundsOutcome sdk venue i j (.error (.returned (.tokenInfoIndexError j.toNat)))
  | unquotable (input output : TokenInfo) (input_eq : venue.tokens[i.toNat]? = some input)
      (output_eq : venue.tokens[j.toNat]? = some output)
      (refused : ∀ k ≤ 63, ¬ Fills sdk venue input.pubkey output.pubkey (sample k)) :
      BoundsOutcome sdk venue i j (.error (.returned (.venue (.noQuotableValue
        (.staticStr "No quotable value found; exponential search hit u64::MAX")))))
  | found (input output : TokenInfo) (input_eq : venue.tokens[i.toNat]? = some input)
      (output_eq : venue.tokens[j.toNat]? = some output) (k : ℕ) (k_le : k ≤ 63)
      (filled : Fills sdk venue input.pubkey output.pubkey (sample k)) (lower upper : UInt64)
      (bounded : Bounded (venue.quoting sdk input.pubkey output.pubkey) lower upper) :
      BoundsOutcome sdk venue i j (.ok (lower, upper))

theorem bounds_eq {input output : TokenInfo} (hinput : venue.tokens[i.toNat]? = some input)
    (houtput : venue.tokens[j.toNat]? = some output) :
    venue.bounds sdk i j =
      (findBoundaries (venue.quoting sdk input.pubkey output.pubkey)).mapError
        (Stop.mapError .venue) := by
  unfold QuayVenue.bounds TradingVenue.bounds
  rw [getToken_eq_ok.mpr hinput, getToken_eq_ok.mpr houtput]
  rfl

/-- A search either probes a valid amount and is bounded, or probes none. -/
theorem findBoundaries_cases (f : Quoting) :
    (∃ k ≤ 63, quotes f (sample k) = true ∧
      ∃ lower upper, findBoundaries f = .ok (lower, upper) ∧ Bounded f lower upper) ∨
    (∀ k ≤ 63, quotes f (sample k) = false) ∧
      findBoundaries f = .error (.returned (.noQuotableValue
        (.staticStr "No quotable value found; exponential search hit u64::MAX"))) := by
  by_cases hfound : ∃ k ≤ 63, quotes f (sample k) = true
  · obtain ⟨k, hk, hvalid⟩ := hfound
    exact .inl ⟨k, hk, hvalid, findBoundaries_found hk hvalid⟩
  · have hmissed : ∀ k ≤ 63, quotes f (sample k) = false :=
      fun k hk => Bool.eq_false_iff.mpr fun hvalid => hfound ⟨k, hk, hvalid⟩
    exact .inr ⟨hmissed, findBoundaries_missed hmissed⟩

/-- The outcome of a boundary search at every pair of indices, in every state of a venue. -/
theorem bounds_outcome (sdk : Sdk) (venue : QuayVenue) (i j : UInt8) :
    BoundsOutcome sdk venue i j (venue.bounds sdk i j) := by
  cases hinput : venue.tokens[i.toNat]? with
  | none =>
      unfold QuayVenue.bounds TradingVenue.bounds TradingVenue.getToken
      rw [hinput]
      exact .unknownInput (List.getElem?_eq_none_iff.mp hinput)
  | some input =>
      have hknown : i.toNat < venue.tokens.length := (List.getElem?_eq_some_iff.mp hinput).1
      cases houtput : venue.tokens[j.toNat]? with
      | none =>
          unfold QuayVenue.bounds TradingVenue.bounds TradingVenue.getToken
          rw [hinput, houtput]
          exact .unknownOutput hknown (List.getElem?_eq_none_iff.mp houtput)
      | some output =>
          rw [bounds_eq hinput houtput]
          rcases findBoundaries_cases (venue.quoting sdk input.pubkey output.pubkey) with
            ⟨k, hk, hvalid, lower, upper, hok, hbounded⟩ | ⟨hmissed, herror⟩
          · rw [hok]
            exact .found input output hinput houtput k hk (quotes_iff_fills.mp hvalid).2 lower
              upper hbounded
          · rw [herror]
            refine .unquotable input output hinput houtput fun k hk hfills => ?_
            have hvalid := quotes_iff_fills.mpr ⟨sample_ne_zero hk, hfills⟩
            rw [hmissed k hk] at hvalid
            cases hvalid

/-! ## Directions -/

theorem PairTokens.getElem?_eq_some {base quote info : TokenInfo} (h : PairTokens venue base quote)
    {index : ℕ} : venue.tokens[index]? = some info ↔
      index = 0 ∧ info = base ∨ index = 1 ∧ info = quote := by
  rw [h.tokens_eq]
  rcases index with _ | _ | index
  · simp [eq_comm]
  · simp [eq_comm]
  · simp

/-- Two different tokens of the venue are its pair of mints, in one order or the other. -/
theorem PairTokens.tradesPair {base quote input output : TokenInfo}
    (h : PairTokens venue base quote) (hinput : venue.tokens[i.toNat]? = some input)
    (houtput : venue.tokens[j.toNat]? = some output) (hne : i ≠ j) (amount : UInt64) :
    TradesPair venue (quoteRequest input.pubkey output.pubkey amount) := by
  rcases h.getElem?_eq_some.mp hinput with ⟨hi, rfl⟩ | ⟨hi, rfl⟩
  · rcases h.getElem?_eq_some.mp houtput with ⟨hj, rfl⟩ | ⟨_, rfl⟩
    · exact absurd (UInt8.toNat.inj (hi.trans hj.symm)) hne
    · exact .inl ⟨h.base_eq, h.quote_eq⟩
  · rcases h.getElem?_eq_some.mp houtput with ⟨_, rfl⟩ | ⟨hj, rfl⟩
    · exact .inr ⟨h.quote_eq, h.base_eq⟩
    · exact absurd (UInt8.toNat.inj (hi.trans hj.symm)) hne

/-- The declared directions, each listed once, are those in which an open venue quotes every
amount and builds every swap. -/
theorem directions_quoted (hreached : Reached sdk venue) (hinit : venue.initialized sdk = true)
    (hne : venue.baseMint ≠ venue.quoteMint) :
    venue.directionsNum.Nodup ∧ ∀ i j : UInt8, (i, j) ∈ venue.directionsNum ↔
      ∃ input output, TradingVenue.getToken venue.tokens i.toNat = .ok input ∧
        TradingVenue.getToken venue.tokens j.toNat = .ok output ∧ ∀ amount,
          (∃ quote, venue.computeQuote sdk (quoteRequest input.pubkey output.pubkey amount) =
            .ok quote) ∧
          ∀ rt user, ∃ instruction, venue.buildSwapIx sdk rt
            (quoteRequest input.pubkey output.pubkey amount) user = .ok instruction := by
  obtain ⟨base, quote, hpair⟩ := hreached.pairTokens hinit
  refine ⟨nodup_directionsNum _, fun i j => ?_⟩
  rw [QuayVenue.directionsNum, mem_directionsNum]
  simp only [getToken_eq_ok]
  constructor
  · rintro ⟨hij, hi, hj⟩
    refine ⟨_, _, List.getElem?_eq_getElem hi, List.getElem?_eq_getElem hj, fun amount => ?_⟩
    have htrades := hpair.tradesPair (List.getElem?_eq_getElem hi) (List.getElem?_eq_getElem hj)
      hij amount
    obtain ⟨side, baseDecimals, quoteDecimals, hquotable⟩ :=
      hreached.quotable (fun h => by cases h) htrades hinit
    exact ⟨⟨_, computeQuote_ok_iff.mpr ⟨_, _, _, hquotable, rfl⟩⟩,
      fun rt user => hpair.buildSwapIx_ok hquotable.exactIn hquotable.side_eq user⟩
  · rintro ⟨input, output, hinput, houtput, hquotes⟩
    refine ⟨?_, (List.getElem?_eq_some_iff.mp hinput).1, (List.getElem?_eq_some_iff.mp houtput).1⟩
    rintro rfl
    obtain ⟨⟨result, hresult⟩, _⟩ := hquotes 0
    obtain ⟨_, _, _, hquotable, _⟩ := computeQuote_ok_iff.mp hresult
    obtain rfl := Option.some.inj (hinput.symm.trans houtput)
    rcases (sideOf_eq_ok.mp hquotable.side_eq).1 with ⟨hbase, hquote⟩ | ⟨hquote, hbase⟩
    · exact hne (hbase.symm.trans hquote)
    · exact hne (hbase.symm.trans hquote)

/-! ## The returned range -/

/-- On a curve that fills one window of amounts, a search that probes it returns the window up
to 100 atoms at either end, and every amount in the range is filled in full, priced and
tradable; a search misses exactly the windows without a power of two. -/
theorem bounds_window {L U : UInt64} {input output : TokenInfo}
    {side baseDecimals quoteDecimals : UInt8} (hreached : Reached sdk venue)
    (hinput : venue.tokens[i.toNat]? = some input) (houtput : venue.tokens[j.toNat]? = some output)
    (hquotable : ∀ amount, Quotable sdk venue (quoteRequest input.pubkey output.pubkey amount) side
      baseDecimals quoteDecimals)
    (hfills : FillsBetween (venue.simulateOut sdk side baseDecimals quoteDecimals) L.toNat
      U.toNat) :
    ((∃ ends, venue.bounds sdk i j = .ok ends) ↔ ∃ k, L.toNat ≤ 2 ^ k ∧ 2 ^ k ≤ U.toNat) ∧
    ∀ lower upper, venue.bounds sdk i j = .ok (lower, upper) →
      (L ≤ lower ∧ lower.toNat ≤ L.toNat + 99 ∧ U.toNat ≤ upper.toNat + 100 ∧ upper ≤ U) ∧
      ∀ amount, lower ≤ amount → amount ≤ upper →
        (∃ quote, venue.computeQuote sdk (quoteRequest input.pubkey output.pubkey amount) =
            .ok quote ∧ quote.notEnoughLiquidity = false ∧
          venue.simulateOut sdk side baseDecimals quoteDecimals amount =
            some quote.expectedOutput ∧ 0 < quote.price.toRat) ∧
        ∀ rt user, ∃ instruction, venue.buildSwapIx sdk rt
          (quoteRequest input.pubkey output.pubkey amount) user = .ok instruction := by
  have hL : 1 ≤ L := UInt64.le_iff_toNat_le.mpr hfills.lower_pos
  have hwindow : Window (venue.quoting sdk input.pubkey output.pubkey) L U := by
    intro x
    rw [(hquotable x).quotes_iff, UInt64.le_iff_toNat_le, UInt64.le_iff_toNat_le,
      ← hfills.isSome_iff, Option.isSome_iff_exists]
    constructor
    · rintro ⟨_, out, hout, _⟩
      exact ⟨out, hout⟩
    · rintro ⟨out, hout⟩
      refine ⟨?_, out, hout, hfills.positive x out hout⟩
      rintro rfl
      have hsome := (hfills.isSome_iff 0).mp (by rw [hout]; rfl)
      exact absurd (hfills.lower_pos.trans hsome.1) (by decide)
  rw [bounds_eq hinput houtput]
  rcases findBoundaries_cases (venue.quoting sdk input.pubkey output.pubkey) with
    ⟨k, hk, hvalid, lower, upper, hok, hbounded⟩ | ⟨hmissed, herror⟩
  · rw [hok]
    refine ⟨⟨fun _ => hwindow.sample_iff.mp ⟨k, hk, hvalid⟩, fun _ => ⟨_, rfl⟩⟩, ?_⟩
    rintro _ _ ⟨⟩
    obtain ⟨hlower, hlowerLe, hupperLe, hupper, hall⟩ := hbounded.window hL hwindow
    refine ⟨⟨hlower, hlowerLe, hupperLe, hupper⟩, fun amount hle hge => ⟨?_, ?_⟩⟩
    · exact (hquotable amount).filled (hall amount hle hge)
    · obtain ⟨base, quote, hpair⟩ := hreached.pairTokens (hquotable amount).initialized
      exact fun rt user => hpair.buildSwapIx_ok (hquotable amount).exactIn
        (hquotable amount).side_eq user
  · rw [herror]
    constructor
    · constructor
      · rintro ⟨_, ⟨⟩⟩
      · intro hpower
        obtain ⟨k, hk, hvalid⟩ := hwindow.sample_iff.mpr hpower
        rw [hmissed k hk] at hvalid
        cases hvalid
    · rintro _ _ ⟨⟩

namespace Sample

theorem opened_tokens : opened.tokens =
    [⟨key 4, 6, false, none, none⟩, ⟨key 5, 9, false, none, none⟩] := by decide +kernel

theorem directions_quoted_sample : opened.directionsNum.Nodup ∧ ∀ i j : UInt8,
    (i, j) ∈ opened.directionsNum ↔
      ∃ input output, TradingVenue.getToken opened.tokens i.toNat = .ok input ∧
        TradingVenue.getToken opened.tokens j.toNat = .ok output ∧ ∀ amount,
          (∃ quote, opened.computeQuote (sdkWith rising)
            (quoteRequest input.pubkey output.pubkey amount) = .ok quote) ∧
          ∀ rt user, ∃ instruction, opened.buildSwapIx (sdkWith rising) rt
            (quoteRequest input.pubkey output.pubkey amount) user = .ok instruction :=
  directions_quoted reached_opened quotable.initialized (by decide +kernel)

theorem quotable_amount (amount : UInt64) :
    Quotable (sdkWith rising) opened (quoteRequest (key 4) (key 5) amount) 0 6 9 :=
  ⟨quotable.exactIn, quotable.side_eq, quotable.initialized, quotable.base_eq, quotable.quote_eq⟩

/-- Every amount that is searched out between one and six atoms is filled and can be built. -/
theorem bounds_window_sample :
    ∃ lower upper, opened.bounds (sdkWith rising) 0 1 = .ok (lower, upper) ∧ 1 ≤ lower ∧ upper ≤ 6 ∧
      ∀ amount, lower ≤ amount → amount ≤ upper →
        (∃ quote, opened.computeQuote (sdkWith rising) (quoteRequest (key 4) (key 5) amount) =
            .ok quote ∧ quote.notEnoughLiquidity = false ∧ 0 < quote.price.toRat) ∧
        ∃ instruction, opened.buildSwapIx (sdkWith rising) Route.Sample.runtime
          (quoteRequest (key 4) (key 5) amount) (key 9) = .ok instruction := by
  have hbase : opened.tokens[(0 : UInt8).toNat]? = some ⟨key 4, 6, false, none, none⟩ := by
    rw [opened_tokens]
    rfl
  have hquote : opened.tokens[(1 : UInt8).toNat]? = some ⟨key 5, 9, false, none, none⟩ := by
    rw [opened_tokens]
    rfl
  have hfills : FillsBetween (opened.simulateOut (sdkWith rising) 0 6 9) (1 : UInt64).toNat
      (6 : UInt64).toNat := by
    rw [simulateOut_sdkWith]
    exact fillsBetween_rising
  obtain ⟨hanswers, hrange⟩ := bounds_window reached_opened hbase hquote quotable_amount hfills
  obtain ⟨⟨lower, upper⟩, hbounds⟩ := hanswers.mpr ⟨1, by decide⟩
  obtain ⟨⟨hlower, _, _, hupper⟩, hinside⟩ := hrange lower upper hbounds
  refine ⟨lower, upper, hbounds, hlower, hupper, fun amount hle hge => ?_⟩
  obtain ⟨⟨quote, hok, hfilled, _, hprice⟩, hbuilds⟩ := hinside amount hle hge
  exact ⟨⟨quote, hok, hfilled, hprice⟩, hbuilds Route.Sample.runtime (key 9)⟩

end Sample

end Quay

end QuayTitan
