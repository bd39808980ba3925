import QuayTitan.Verification.Quay.Direction
import QuayTitan.Verification.Quay.Secant

/-! # Every outcome of a quote -/

namespace QuayTitan.Quay

open Attempts Fallible

variable {sdk : Sdk} {venue : QuayVenue} {request : QuoteRequest}

/-! ## Rejections -/

/-- Why a request gets no quote; each reason excludes the ones before it. -/
inductive Rejected (sdk : Sdk) (venue : QuayVenue) (request : QuoteRequest) :
    TradingVenueError → Prop
  | exactOut (exactOut : request.swapType = .exactOut) :
      Rejected sdk venue request .exactOutNotSupported
  | foreign (exactIn : request.swapType ≠ .exactOut) (foreign : ¬ TradesPair venue request) :
      Rejected sdk venue request (.invalidMint (.pubkey request.inputMint))
  | closed (exactIn : request.swapType ≠ .exactOut) (pair : TradesPair venue request)
      (closed : venue.initialized sdk = false) :
      Rejected sdk venue request (.notInitialized (.pubkey venue.strategyKey))

theorem sideOf_foreign (h : ¬ TradesPair venue request) :
    venue.sideOf request.inputMint request.outputMint =
      .error (.invalidMint (.pubkey request.inputMint)) := by
  rw [QuayVenue.sideOf, if_neg fun hsell => h (.inl hsell), if_neg fun hbuy => h (.inr hbuy)]

theorem computeQuote_rejected {e : TradingVenueError} (h : Rejected sdk venue request e) :
    venue.computeQuote sdk request = .error e := by
  unfold QuayVenue.computeQuote
  cases h with
  | exactOut hexact =>
      rw [if_pos hexact]
      rfl
  | foreign hexact hpair =>
      rw [if_neg hexact, sideOf_foreign hpair]
      rfl
  | closed hexact hpair hclosed =>
      rw [if_neg hexact, sideOf_eq_ok.mpr ⟨hpair, rfl⟩]
      simp only [if_pos (gate_closed_iff.mpr hclosed)]
      rfl

theorem Reached.quotable (h : Reached sdk venue) (hexact : request.swapType ≠ .exactOut)
    (hpair : TradesPair venue request) (hinit : venue.initialized sdk = true) :
    ∃ side baseDecimals quoteDecimals,
      Quotable sdk venue request side baseDecimals quoteDecimals := by
  obtain ⟨base, quote, htokens⟩ := h.pairTokens hinit
  obtain ⟨baseDecimals, quoteDecimals, hbase, hquote⟩ := htokens.decimals
  exact ⟨_, baseDecimals, quoteDecimals, hexact, sideOf_eq_ok.mpr ⟨hpair, rfl⟩, hinit, hbase,
    hquote⟩

/-- Every request is rejected for one of the reasons, or can be quoted. -/
theorem Reached.rejected_or_quotable (h : Reached sdk venue) (request : QuoteRequest) :
    (∃ e, Rejected sdk venue request e) ∨ ∃ side baseDecimals quoteDecimals,
      Quotable sdk venue request side baseDecimals quoteDecimals := by
  by_cases hexact : request.swapType = .exactOut
  · exact .inl ⟨_, .exactOut hexact⟩
  · by_cases hpair : TradesPair venue request
    · cases hinit : venue.initialized sdk with
      | false => exact .inl ⟨_, .closed hexact hpair hinit⟩
      | true => exact .inr (h.quotable hexact hpair hinit)
    · exact .inl ⟨_, .foreign hexact hpair⟩

/-! ## Answers -/

/-- The simulator refuses an empty swap, and gives something for every swap it fills. -/
structure FillsPositive (sdk : Sdk) : Prop where
  positive : ∀ inputs simulation, sdk.simulateSwapIn inputs = .ok simulation →
    0 < simulation.outToTaker
  refuses_zero : ∀ inputs, inputs.amountIn = 0 → ∃ e, sdk.simulateSwapIn inputs = .error e

theorem simulateOut_pos
    (hpositive : ∀ inputs simulation, sdk.simulateSwapIn inputs = .ok simulation →
      0 < simulation.outToTaker)
    {side baseDecimals quoteDecimals : UInt8} {amt out : UInt64}
    (h : venue.simulateOut sdk side baseDecimals quoteDecimals amt = some out) : 0 < out := by
  unfold QuayVenue.simulateOut at h
  cases hsimulated : sdk.simulateSwapIn
      (venue.simulationInputs side baseDecimals quoteDecimals amt) with
  | error e =>
      rw [hsimulated] at h
      cases h
  | ok simulation =>
      rw [hsimulated] at h
      obtain rfl := Option.some.inj h
      exact hpositive _ _ hsimulated

theorem FillsPositive.simulateOut_zero (h : FillsPositive sdk) (venue : QuayVenue)
    (side baseDecimals quoteDecimals : UInt8) :
    venue.simulateOut sdk side baseDecimals quoteDecimals 0 = none := by
  obtain ⟨e, he⟩ := h.refuses_zero (venue.simulationInputs side baseDecimals quoteDecimals 0) rfl
  rw [QuayVenue.simulateOut, he]
  rfl

/-- The price of a filled amount, as an exact quotient of what the simulator answered. -/
inductive Measured (simulateOut : UInt64 → Option UInt64) (h a out : UInt64) : ℚ → Prop
  | forward (up : UInt64) (taken : ForwardTaken simulateOut h a out up) :
      Measured simulateOut h a out (((up.toNat : ℚ) - out.toNat) / h.toNat)
  | backward (down : UInt64) (taken : BackwardTaken simulateOut h a out down) :
      Measured simulateOut h a out (((out.toNat : ℚ) - down.toNat) / h.toNat)
  | average (no_forward : ∀ up, ¬ ForwardTaken simulateOut h a out up)
      (no_backward : ∀ down, ¬ BackwardTaken simulateOut h a out down) :
      Measured simulateOut h a out ((out.toNat : ℚ) / a.toNat)

theorem measured_marginalPrice (simulateOut : UInt64 → Option UInt64)
    (priceProbeIn a out : UInt64) :
    Measured simulateOut (max priceProbeIn 1) a out
      (marginalPrice simulateOut priceProbeIn a out).toRat := by
  by_cases hforward : ∃ up, ForwardTaken simulateOut (max priceProbeIn 1) a out up
  · obtain ⟨up, hup⟩ := hforward
    rw [marginalPrice_forward hup, toRat_difference hup.2]
    exact .forward up hup
  · rw [not_exists] at hforward
    by_cases hbackward : ∃ down, BackwardTaken simulateOut (max priceProbeIn 1) a out down
    · obtain ⟨down, hdown⟩ := hbackward
      rw [marginalPrice_backward hdown, toRat_difference hdown.2.2]
      exact .backward down hdown
    · rw [not_exists] at hbackward
      rw [marginalPrice_average hforward hbackward]
      exact .average hforward hbackward

theorem Measured.pos {simulateOut : UInt64 → Option UInt64} {h a out : UInt64} {price : ℚ}
    (hprice : Measured simulateOut h a out price) (hh : 0 < h.toNat) (ha : 0 < a.toNat)
    (hout : 0 < out) : 0 < price := by
  have hstep : (0 : ℚ) < h.toNat := Nat.cast_pos.mpr hh
  cases hprice with
  | forward up taken =>
      exact div_pos (sub_pos.mpr (Nat.cast_lt.mpr (UInt64.lt_iff_toNat_lt.mp taken.2))) hstep
  | backward down taken =>
      exact div_pos (sub_pos.mpr (Nat.cast_lt.mpr (UInt64.lt_iff_toNat_lt.mp taken.2.2))) hstep
  | average no_forward no_backward =>
      exact div_pos (Nat.cast_pos.mpr (UInt64.lt_iff_toNat_lt.mp hout)) (Nat.cast_pos.mpr ha)

theorem denominator_marginalPrice (simulateOut : UInt64 → Option UInt64)
    (priceProbeIn : UInt64) {a : UInt64} (out : UInt64) (ha : 0 < a.toNat) :
    0 < (marginalPrice simulateOut priceProbeIn a out).denominator := by
  have hh := probe_pos priceProbeIn
  unfold marginalPrice backwardPrice
  simp only
  split
  · split
    · exact hh
    · split
      · split
        · exact hh
        · exact ha
      · exact ha
  · split
    · split
      · exact hh
      · exact ha
    · exact ha

/-- What an accepted request is answered with. -/
structure Answered (simulateOut : UInt64 → Option UInt64) (priceProbeIn : UInt64)
    (request : QuoteRequest) (result : QuoteResult) : Prop where
  inputMint_eq : result.inputMint = request.inputMint
  outputMint_eq : result.outputMint = request.outputMint
  amount_eq : result.amount = request.amount
  divides : 0 < result.price.denominator
  refused_iff : 0 < request.amount →
    (result.notEnoughLiquidity = true ↔ simulateOut request.amount = none)
  output_eq : 0 < request.amount →
    result.expectedOutput = (simulateOut request.amount).getD 0
  priced_iff : 0 < request.amount →
    (0 < result.price.toRat ↔ result.notEnoughLiquidity = false)
  measured : ∀ out, 0 < request.amount → simulateOut request.amount = some out →
    Measured simulateOut (max priceProbeIn 1) request.amount out result.price.toRat
  spot : request.amount = 0 → result.expectedOutput = 0 ∧ result.notEnoughLiquidity = false ∧
    result.price.toRat = ((simulateOut priceProbeIn).getD 0).toNat / priceProbeIn.toNat

theorem pricedQuote_spot {simulateOut : UInt64 → Option UInt64} (hzero : simulateOut 0 = none)
    (priceProbeIn : UInt64) (hamount : request.amount = 0) :
    Answered simulateOut priceProbeIn request (pricedQuote simulateOut priceProbeIn request) := by
  have hempty : ¬ 0 < request.amount := by
    rw [hamount]
    exact UInt64.lt_irrefl 0
  unfold pricedQuote
  rw [if_pos hamount]
  refine ⟨rfl, rfl, hamount.symm, ?_, fun h => absurd h hempty, fun h => absurd h hempty,
    fun h => absurd h hempty, fun _ h => absurd h hempty, fun _ => ⟨rfl, rfl, ?_⟩⟩
  · cases hprobe : simulateOut priceProbeIn with
    | none => exact Nat.one_pos
    | some out =>
        apply Nat.pos_of_ne_zero
        intro hne
        rw [UInt64.toNat.inj (hne.trans UInt64.toNat_zero.symm), hzero] at hprobe
        cases hprobe
  · cases simulateOut priceProbeIn with
    | none => simp [Price.toRat]
    | some out => rfl

theorem pricedQuote_refused {simulateOut : UInt64 → Option UInt64} (priceProbeIn : UInt64)
    (hamount : request.amount ≠ 0) (hrefused : simulateOut request.amount = none) :
    Answered simulateOut priceProbeIn request (pricedQuote simulateOut priceProbeIn request) := by
  unfold pricedQuote
  rw [if_neg hamount, hrefused]
  refine ⟨rfl, rfl, rfl, Nat.one_pos, fun _ => by rw [hrefused]; simp, fun _ => ?_, fun _ => ?_,
    fun out _ hfill => ?_, fun h => absurd h hamount⟩
  · rw [hrefused]
    rfl
  · simp [Price.toRat]
  · rw [hrefused] at hfill
    cases hfill

theorem pricedQuote_filled {simulateOut : UInt64 → Option UInt64} (priceProbeIn : UInt64)
    (hamount : request.amount ≠ 0) {out : UInt64} (hfill : simulateOut request.amount = some out)
    (hout : 0 < out) :
    Answered simulateOut priceProbeIn request (pricedQuote simulateOut priceProbeIn request) := by
  have hpos : 0 < request.amount.toNat :=
    Nat.pos_of_ne_zero fun h => hamount (UInt64.toNat.inj h)
  have hmeasured := measured_marginalPrice simulateOut priceProbeIn request.amount out
  unfold pricedQuote
  rw [if_neg hamount, hfill]
  refine ⟨rfl, rfl, rfl, denominator_marginalPrice _ _ _ hpos, fun _ => by rw [hfill]; simp,
    fun _ => ?_, fun _ => ?_, fun out' _ hfill' => ?_, fun h => absurd h hamount⟩
  · rw [hfill]
    rfl
  · exact ⟨fun _ => rfl, fun _ => hmeasured.pos (probe_pos _) hpos hout⟩
  · rw [hfill] at hfill'
    obtain rfl := Option.some.inj hfill'
    exact hmeasured

theorem pricedQuote_answered {simulateOut : UInt64 → Option UInt64}
    (hzero : simulateOut 0 = none) (hpositive : ∀ amt out, simulateOut amt = some out → 0 < out)
    (priceProbeIn : UInt64) (request : QuoteRequest) :
    Answered simulateOut priceProbeIn request (pricedQuote simulateOut priceProbeIn request) := by
  by_cases hamount : request.amount = 0
  · exact pricedQuote_spot hzero priceProbeIn hamount
  · cases hfill : simulateOut request.amount with
    | none => exact pricedQuote_refused priceProbeIn hamount hfill
    | some out => exact pricedQuote_filled priceProbeIn hamount hfill (hpositive _ _ hfill)

/-- A quote is rejected for one of three reasons, and otherwise answered whatever its amount
and its probe are. -/
theorem computeQuote_outcome (hfills : FillsPositive sdk) (hreached : Reached sdk venue)
    (request : QuoteRequest) :
    (∀ e, venue.computeQuote sdk request = .error e ↔ Rejected sdk venue request e) ∧
      ((∀ e, ¬ Rejected sdk venue request e) → ∃ side baseDecimals quoteDecimals result,
        Quotable sdk venue request side baseDecimals quoteDecimals ∧
        venue.computeQuote sdk request = .ok result ∧
        Answered (venue.simulateOut sdk side baseDecimals quoteDecimals)
          (venue.priceProbeIn side) request result) := by
  rcases hreached.rejected_or_quotable request with
    ⟨reason, hreason⟩ | ⟨side, baseDecimals, quoteDecimals, hquotable⟩
  · have herror := computeQuote_rejected hreason
    refine ⟨fun e => ⟨fun h => ?_, computeQuote_rejected⟩, fun h => absurd hreason (h reason)⟩
    rw [herror] at h
    rw [← Except.error.inj h]
    exact hreason
  · have hok := hquotable.computeQuote_amount request.amount
    refine ⟨fun e => ⟨fun h => ?_, computeQuote_rejected⟩, fun _ => ⟨side, baseDecimals,
      quoteDecimals, _, hquotable, hok, pricedQuote_answered (hfills.simulateOut_zero ..)
        (fun _ _ => simulateOut_pos hfills.positive) _ request⟩⟩
    rw [h] at hok
    cases hok

/-! ## The spot price -/

theorem pricedQuote_spot_price (simulateOut : UInt64 → Option UInt64) (priceProbeIn : UInt64)
    (hamount : request.amount = 0) :
    (pricedQuote simulateOut priceProbeIn request).price =
      match simulateOut priceProbeIn with
      | some out => ⟨out.toNat, priceProbeIn.toNat⟩
      | none => ⟨0, 1⟩ :=
  congrArg QuoteResult.price (if_pos hamount)

/-- An empty request is answered with a positive price. -/
def SpotPriced (sdk : Sdk) (venue : QuayVenue) (request : QuoteRequest) : Prop :=
  ∃ quote, venue.computeQuote sdk request = .ok quote ∧ quote.expectedOutput = 0 ∧
    quote.price.denominator ≠ 0 ∧ 0 < quote.price.toRat

/-- An empty request gets a spot price exactly when the stored probe is positive and the
simulator fills it. -/
theorem spotPriced_iff
    (hpositive : ∀ inputs simulation, sdk.simulateSwapIn inputs = .ok simulation →
      0 < simulation.outToTaker)
    (hreached : Reached sdk venue) (hinit : venue.initialized sdk = true)
    (hexact : request.swapType ≠ .exactOut) (hpair : TradesPair venue request)
    (hamount : request.amount = 0) :
    ∃ side baseDecimals quoteDecimals,
      Quotable sdk venue request side baseDecimals quoteDecimals ∧
      (SpotPriced sdk venue request ↔ venue.priceProbeIn side ≠ 0 ∧
        venue.simulateOut sdk side baseDecimals quoteDecimals (venue.priceProbeIn side) ≠
          none) := by
  obtain ⟨side, baseDecimals, quoteDecimals, hquotable⟩ := hreached.quotable hexact hpair hinit
  have hok := hquotable.computeQuote_amount request.amount
  refine ⟨side, baseDecimals, quoteDecimals, hquotable, ?_⟩
  constructor
  · rintro ⟨quote, hquote, _, hdivides, hprice⟩
    rw [hquote] at hok
    obtain rfl := Except.ok.inj hok
    rw [pricedQuote_spot_price _ _ hamount] at hdivides hprice
    cases hprobe : venue.simulateOut sdk side baseDecimals quoteDecimals
        (venue.priceProbeIn side) with
    | none => simp [hprobe, Price.toRat] at hprice
    | some out =>
        refine ⟨fun hzero => ?_, by simp⟩
        rw [hprobe, hzero] at hdivides
        exact hdivides rfl
  · rintro ⟨hprobe, hfilled⟩
    obtain ⟨out, hout⟩ := Option.ne_none_iff_exists'.mp hfilled
    have hne : (venue.priceProbeIn side).toNat ≠ 0 := fun h => hprobe (UInt64.toNat.inj h)
    have hpos := UInt64.lt_iff_toNat_lt.mp (simulateOut_pos hpositive hout)
    refine ⟨_, hok, by simp only [pricedQuote, if_pos hamount], ?_⟩
    rw [pricedQuote_spot_price _ _ hamount, hout]
    exact ⟨hne, div_pos (Nat.cast_pos.mpr hpos) (Nat.cast_pos.mpr (Nat.pos_of_ne_zero hne))⟩

/-! ## Probes inside and outside the window -/

namespace Sample

theorem fillsPositive_rising : FillsPositive (sdkWith rising) where
  positive inputs simulation h := by
    simp only [sdkWith] at h
    split at h
    · rename_i out hout
      obtain rfl := Except.ok.inj h
      exact fillsBetween_rising.positive _ _ hout
    · cases h
  refuses_zero inputs hzero := by
    refine ⟨"refused", ?_⟩
    simp only [sdkWith, hzero]
    rfl

theorem reached_opened : Reached (sdkWith rising) opened :=
  ⟨strategyKey, strategyAccount, unread, caches, fromAccount_ok rising, rfl⟩

/-- A sale of three atoms. -/
def filledSale : QuoteRequest := ⟨key 4, key 5, 3, .exactIn⟩

theorem computeQuote_outcome_sample :
    (∀ e, ¬ Rejected (sdkWith rising) opened filledSale e) ∧
    ∃ side baseDecimals quoteDecimals result,
      Quotable (sdkWith rising) opened filledSale side baseDecimals quoteDecimals ∧
      opened.computeQuote (sdkWith rising) filledSale = .ok result ∧
      Answered (opened.simulateOut (sdkWith rising) side baseDecimals quoteDecimals)
        (opened.priceProbeIn side) filledSale result ∧
      result.expectedOutput = 19 ∧ result.notEnoughLiquidity = false := by
  obtain ⟨hrejected, hanswered⟩ :=
    computeQuote_outcome fillsPositive_rising reached_opened filledSale
  have hquoted : (opened.computeQuote (sdkWith rising) filledSale).toOption.map
      (fun result => (result.expectedOutput, result.notEnoughLiquidity)) = some (19, false) := by
    decide +kernel
  have haccepted : ∀ e, ¬ Rejected (sdkWith rising) opened filledSale e := by
    intro e he
    rw [(hrejected e).mpr he] at hquoted
    cases hquoted
  obtain ⟨side, baseDecimals, quoteDecimals, result, hquotable, hok, hanswer⟩ :=
    hanswered haccepted
  rw [hok] at hquoted
  obtain ⟨hout, hfilled⟩ := Prod.mk.inj (Option.some.inj hquoted)
  exact ⟨haccepted, side, baseDecimals, quoteDecimals, result, hquotable, hok, hanswer, hout,
    hfilled⟩

/-- The probe of an empty sale is two atoms, which are filled. -/
theorem spotPriced_iff_sample : SpotPriced (sdkWith rising) opened Sample.request := by
  obtain ⟨side, baseDecimals, quoteDecimals, hquotable, hiff⟩ :=
    spotPriced_iff fillsPositive_rising.positive reached_opened (by decide +kernel)
      (show Sample.request.swapType ≠ .exactOut by decide) (.inl (by decide +kernel)) rfl
  obtain rfl := Except.ok.inj (hquotable.side_eq.symm.trans quotable.side_eq)
  rw [hiff, simulateOut_sdkWith]
  decide +kernel

/-- A purchase of base for quote. -/
def emptyPurchase : QuoteRequest := ⟨key 5, key 4, 0, .exactIn⟩

/-- Up to six atoms can be sold, but the probe is twenty: an empty purchase has no price. -/
theorem spotPriced_counterexample :
    FillsPositive (sdkWith rising) ∧ Reached (sdkWith rising) opened ∧
    opened.initialized (sdkWith rising) = true ∧ TradesPair opened emptyPurchase ∧
    opened.simulateOut (sdkWith rising) 1 6 9 1 = some 10 ∧
    ¬ SpotPriced (sdkWith rising) opened emptyPurchase := by
  refine ⟨fillsPositive_rising, reached_opened, by decide +kernel, .inr (by decide +kernel), ?_, ?_⟩
  · rw [simulateOut_sdkWith]
    rfl
  · rintro ⟨quote, hquote, _, _, hprice⟩
    have hnone : (opened.computeQuote (sdkWith rising) emptyPurchase).toOption.map
        QuoteResult.price = some ⟨0, 1⟩ := by decide +kernel
    rw [hquote] at hnone
    rw [Option.some.inj hnone, Price.toRat] at hprice
    simp at hprice

end Sample

end QuayTitan.Quay
