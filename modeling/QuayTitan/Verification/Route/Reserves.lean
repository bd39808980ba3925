import QuayTitan.Verification.Route.Custody
import QuayTitan.Verification.Route.Legs

/-! # Reserves with honest venues

Legs spend only what a route brought in: the balances of TitanPDA above its snapshot are
a ledger of successive splits, and the snapshot itself is never touched. -/

namespace QuayTitan.Route

open ByteFields Fallible

variable {rt : Runtime}

/-! ## Before the legs -/

/-- The user's input account was not among the accounts in custody at the snapshot. -/
def InputOutsideCustody (ctx : Context) (prepared : Prepared) : Prop :=
  isTitanPdaTokenAccount (prepared.opened.bank ctx.accounts.inputTokenAccount)
    ctx.accounts.titanPda = false

/-- What the deposit credits to the first account. -/
def Prepared.credit (rt : Runtime) (ctx : Context) (mints : UInt8) (prepared : Prepared) : ℕ :=
  depositCredit rt ctx (ctx.mint mints 0) prepared.effectiveAmount prepared.opened.bank

theorem Prepares.deposited_eq {ctx : Context} {amount : UInt64} {mints : UInt8}
    {swaps : List SwapSpecInputV2} {bank : Bank} {inputMint : AccountInfo}
    {inputDecimals : UInt8} {prepared : Prepared}
    (h : Prepares rt ctx amount mints swaps bank inputMint inputDecimals prepared)
    (huser : InputOutsideCustody ctx prepared) {key : Pubkey}
    (htitan : isTitanPdaTokenAccount (prepared.opened.bank key) ctx.accounts.titanPda = true) :
    Rebalanced (prepared.opened.bank key) (prepared.deposited key)
      (tokenAmount (prepared.opened.bank key) +
        if key = ctx.ata 0 then prepared.credit rt ctx mints else 0) := by
  have hkey : key ≠ ctx.accounts.inputTokenAccount := ne_of_custody htitan huser
  have hpos : 0 < mints.toNat := by
    have hone := h.shaped.one_lt_mints
    omega
  obtain ⟨first, hfirst, _⟩ := h.routeAta hpos
  have hata : ctx.ata 0 = first.key := Context.ata_eq hfirst
  have hmint : ctx.mint mints 0 = inputMint.key := Context.keyAt_eq h.input_mint
  rw [hata, Prepared.credit, hmint]
  exact deposit_rebalanced h.deposits hfirst htitan hkey

theorem Prepares.deposited_custody {ctx : Context} {amount : UInt64} {mints : UInt8}
    {swaps : List SwapSpecInputV2} {bank : Bank} {inputMint : AccountInfo}
    {inputDecimals : UInt8} {prepared : Prepared}
    (h : Prepares rt ctx amount mints swaps bank inputMint inputDecimals prepared)
    (huser : InputOutsideCustody ctx prepared) :
    Custody ctx.accounts.titanPda prepared.opened.bank prepared.deposited := by
  intro key htitan
  have hdeposited := h.deposited_eq huser htitan
  have hamount := tokenAmount_of_rebalanced hdeposited
  rw [hamount]
  exact ⟨hdeposited, by omega⟩

/-- After the deposit only the first account holds more than its snapshot. -/
theorem Prepares.deposited_excess {ctx : Context} {amount : UInt64} {mints : UInt8}
    {swaps : List SwapSpecInputV2} {bank : Bank} {inputMint : AccountInfo}
    {inputDecimals : UInt8} {prepared : Prepared}
    (h : Prepares rt ctx amount mints swaps bank inputMint inputDecimals prepared)
    (huser : InputOutsideCustody ctx prepared) (index : UInt8)
    (hindex : index.toNat < mints.toNat) :
    excess ctx.accounts.titanPda prepared.opened.bank prepared.deposited (ctx.ata index) =
      if ctx.ata index = ctx.ata 0 then prepared.credit rt ctx mints else 0 := by
  have htitan := (h.routeSlot hindex).titan
  rw [excess, if_pos htitan, tokenAmount_of_rebalanced (h.deposited_eq huser htitan)]
  omega

/-! ## The leg loop refines the ledger -/

/-- The legs so far, as splits of the excess they started from. -/
structure Accounted (ctx : Context) (opened deposited : Bank) (st : LegState) : Prop where
  custody : Custody ctx.accounts.titanPda opened st.bank
  legs : ∀ record ∈ st.legs, LegAccounting ctx opened record
  excess_eq : excess ctx.accounts.titanPda opened st.bank =
    SplitLedger.run (st.legs.map (LegRecord.split ctx))
      (excess ctx.accounts.titanPda opened deposited)
  spent_eq : ∀ key, SplitLedger.spent (st.legs.map (LegRecord.split ctx))
      (excess ctx.accounts.titanPda opened deposited) key =
    (st.legs.map fun record =>
      if key = record.source ctx then record.inputAmount else 0).sum

theorem Accounted.leg {venue : VenueProgram} {ctx : Context} {reservedBalances : List ℕ}
    {leg : ℕ} {swap : SwapSpecInputV2} {st st' : LegState} {record : LegRecord}
    {opened deposited : Bank} (h : Accounted ctx opened deposited st)
    (hspec : LegSpec venue ctx reservedBalances leg swap st st' record)
    (hsource : RouteSlot ctx opened reservedBalances swap.from)
    (htarget : RouteSlot ctx opened reservedBalances swap.to)
    (honest : HonestLeg ctx record) : Accounted ctx opened deposited st' := by
  have haccounting := hspec.accounting hsource htarget h.custody honest
  refine ⟨?_, ?_, ?_, fun key => ?_⟩
  · rw [← hspec.after_eq]
    exact haccounting.after_custody
  · intro other hother
    rw [hspec.legs_eq, List.mem_append, List.mem_singleton] at hother
    rcases hother with hother | rfl
    · exact h.legs other hother
    · exact haccounting
  · have hafter := haccounting.excess_eq
    rw [hspec.after_eq, hspec.before_eq, h.excess_eq] at hafter
    rw [hafter, hspec.legs_eq, List.map_append, SplitLedger.run_append]
    rfl
  · have hinput := haccounting.input_eq
    rw [hspec.before_eq, h.excess_eq] at hinput
    rw [hspec.legs_eq, List.map_append, SplitLedger.spent_append, h.spent_eq, List.map_append,
      List.sum_append]
    simp only [List.map_cons, List.map_nil, List.sum_cons, List.sum_nil, SplitLedger.spent, hinput]
    rfl

/-- The legs run so far all had honest calls. -/
def HonestLegs (ctx : Context) (st : LegState) : Prop :=
  ∀ record ∈ st.legs, HonestLeg ctx record

theorem Prepares.accounted {venue : VenueProgram} {ctx : Context} {amount : UInt64}
    {mints : UInt8} {swaps legs : List SwapSpecInputV2} {bank : Bank}
    {inputMint : AccountInfo} {inputDecimals : UInt8} {prepared : Prepared}
    {traded : LegState}
    (h : Prepares rt ctx amount mints swaps bank inputMint inputDecimals prepared)
    (huser : InputOutsideCustody ctx prepared) (hlegs : ∀ swap ∈ legs, swap ∈ swaps)
    (htrade : prepared.trade venue ctx mints legs = .ok traded)
    (honest : HonestLegs ctx traded) :
    Accounted ctx prepared.opened.bank prepared.deposited traded := by
  refine runLegs_invariant (Accounted ctx prepared.opened.bank prepared.deposited)
    (fun swap hswap leg s s' record hspec hrecord hs => ?_) ?_ htrade
  · exact hs.leg hspec (h.routeSlot (h.shaped.from_lt swap (hlegs swap hswap)))
      (h.routeSlot (h.shaped.to_lt swap (hlegs swap hswap))) (honest record hrecord)
  · exact ⟨h.deposited_custody huser, by simp, rfl, fun _ => rfl⟩

/-! ## After the legs -/

theorem Prepares.outputSlot {ctx : Context} {amount : UInt64} {mints : UInt8}
    {swaps : List SwapSpecInputV2} {bank tradedBank : Bank} {inputMint : AccountInfo}
    {inputDecimals : UInt8} {prepared : Prepared} {payout : Payout}
    (h : Prepares rt ctx amount mints swaps bank inputMint inputDecimals prepared)
    (hpayout : payOut rt ctx prepared.outputAtaIndex prepared.outputMint
      prepared.outputDecimals prepared.snapshot.reservedBalances tradedBank = .ok payout) :
    ∃ outputAta, isTitanPdaTokenAccount (prepared.opened.bank outputAta.key)
        ctx.accounts.titanPda = true ∧
      PayoutSpec rt ctx prepared.outputAtaIndex prepared.outputMint prepared.outputDecimals
        prepared.snapshot.reservedBalances tradedBank outputAta
        (tokenAmount (prepared.opened.bank outputAta.key)) payout := by
  obtain ⟨outputAta, reserved, hspec⟩ := payOut_spec hpayout
  obtain ⟨ata, hata, htitan, hreserved⟩ := h.routeAta h.outputAtaIndex_lt
  obtain rfl := Option.some.inj (hspec.output_ata.symm.trans hata)
  obtain rfl := Option.some.inj (hspec.reserved_eq.symm.trans hreserved)
  exact ⟨outputAta, htitan, hspec⟩

/-- The payout takes from one account in custody and may add to another. -/
theorem PayoutSpec.tokenAmount_paid {ctx : Context} {outputAtaIndex : ℕ}
    {outputMint : Pubkey} {outputDecimals : UInt8} {reservedBalances : List ℕ} {bank : Bank}
    {outputAta : AccountInfo} {reserved : ℕ} {payout : Payout}
    (h : PayoutSpec rt ctx outputAtaIndex outputMint outputDecimals reservedBalances bank
      outputAta reserved payout) {key : Pubkey}
    (htitan : isTitanPdaTokenAccount (bank key) ctx.accounts.titanPda = true) :
    tokenAmount (payout.paid key) = transferredAmount outputAta.key
      ctx.accounts.outputTokenAccount key payout.userOutput
      (payout.userOutput - routeFee rt (ctx.tokenProgramFor (bank outputMint)) outputMint
        payout.userOutput) (tokenAmount (bank key)) := by
  have hready := h.ready key (data_ne_nil_of_isTitanPda htitan)
  have htitanReady : isTitanPdaTokenAccount (payout.ready key) ctx.accounts.titanPda = true := by
    rw [isTitanPda_of_sameContents hready]
    exact htitan
  have hpaid := transferTokens_rebalanced h.pays htitanReady
  rw [tokenAmount_of_sameContents hready] at hpaid
  exact tokenAmount_of_rebalanced hpaid

theorem PayoutSpec.reserve_le_paid {ctx : Context} {outputAtaIndex : ℕ}
    {outputMint : Pubkey} {outputDecimals : UInt8} {reservedBalances : List ℕ}
    {opened bank : Bank} {outputAta : AccountInfo} {payout : Payout}
    (h : PayoutSpec rt ctx outputAtaIndex outputMint outputDecimals reservedBalances bank
      outputAta (tokenAmount (opened outputAta.key)) payout)
    (hcustody : Custody ctx.accounts.titanPda opened bank) {key : Pubkey}
    (htitan : isTitanPdaTokenAccount (opened key) ctx.accounts.titanPda = true) :
    tokenAmount (opened key) ≤ tokenAmount (payout.paid key) := by
  have hkept := (hcustody key htitan).2
  have hraw := tokenAmount_of_getLE h.raw_eq
  have houtput := h.output_eq
  rw [h.tokenAmount_paid (hcustody.isTitanPda htitan), transferredAmount]
  split
  · exact hkept
  · split
    · rename_i hkey
      subst hkey
      omega
    · split
      · omega
      · exact hkept

/-! ## No reserve is spent -/

def ReservesKept (ctx : Context) (mints : UInt8) (prepared : Prepared) (bank : Bank) : Prop :=
  ∀ index : UInt8, index < mints → ∃ reserved,
    prepared.snapshot.reservedBalances[index.toNat]? = some reserved ∧
      reserved ≤ tokenAmount (bank (ctx.ata index))

/-- The input of a leg is the exact share of what its source holds above the reserve. -/
def ExactInput (ctx : Context) (prepared : Prepared) (record : LegRecord) : Prop :=
  ∃ reserved available,
    prepared.snapshot.reservedBalances[record.swap.from.toNat]? = some reserved ∧
    tokenAmount (record.before (record.source ctx)) = reserved + available ∧
    available * min record.swap.weightNanos.toNat 1000000000 ≤ u128Max ∧
    record.inputAmount =
      available * min record.swap.weightNanos.toNat 1000000000 / 1000000000 ∧
    record.inputAmount < 2 ^ 64 ∧ record.inputAmount ≤ available

theorem Custody.reservesKept {ctx : Context} {amount : UInt64} {mints : UInt8}
    {swaps : List SwapSpecInputV2} {bank held : Bank} {inputMint : AccountInfo}
    {inputDecimals : UInt8} {prepared : Prepared}
    (h : Prepares rt ctx amount mints swaps bank inputMint inputDecimals prepared)
    (hcustody : Custody ctx.accounts.titanPda prepared.opened.bank held) :
    ReservesKept ctx mints prepared held := by
  intro index hindex
  have hslot := h.routeSlot (UInt8.lt_iff_toNat_lt.mp hindex)
  exact ⟨_, hslot.reserved, (hcustody _ hslot.titan).2⟩

theorem LegAccounting.exactInput {ctx : Context} {prepared : Prepared} {record : LegRecord}
    (h : LegAccounting ctx prepared.opened.bank record)
    (hslot : RouteSlot ctx prepared.opened.bank prepared.snapshot.reservedBalances
      record.swap.from) : ExactInput ctx prepared record := by
  have hkept : tokenAmount (prepared.opened.bank (record.source ctx)) ≤
      tokenAmount (record.before (record.source ctx)) := (h.before_custody _ hslot.titan).2
  have hbound := tokenAmount_le (record.before (record.source ctx))
  have hinput : record.inputAmount = weightShare record.swap.weightNanos
      (tokenAmount (record.before (record.source ctx)) -
        tokenAmount (prepared.opened.bank (record.source ctx))) := by
    rw [h.input_eq, LegRecord.input_split, LegRecord.source, excess, if_pos hslot.titan]
  have hle := weightShare_le record.swap.weightNanos
    (tokenAmount (record.before (record.source ctx)) -
      tokenAmount (prepared.opened.bank (record.source ctx)))
  have hmax : u64Max = 2 ^ 64 - 1 := rfl
  exact ⟨_, _, hslot.reserved, (Nat.add_sub_cancel' hkept).symm,
    weighted_product_le (by omega) _, hinput, by omega, by omega⟩

/-- Reserves and honest venues: the balances never fall below the snapshot, every leg
takes its exact share of the rest, and the final check has nothing to object to. -/
theorem execute_keepsReserves (rt : Runtime) (venue : VenueProgram) (ctx : Context)
    (amount : UInt64) (mints : UInt8) (swaps : List SwapSpecInputV2) (bank : Bank)
    (huser : ∀ prepared, prepare rt ctx amount mints swaps bank = .ok prepared →
      InputOutsideCustody ctx prepared)
    (honest : ∀ prepared, prepare rt ctx amount mints swaps bank = .ok prepared →
      ∀ k traded, prepared.trade venue ctx mints (swaps.take k) = .ok traded →
        HonestLegs ctx traded) :
    (∀ prepared, prepare rt ctx amount mints swaps bank = .ok prepared →
      ReservesKept ctx mints prepared prepared.deposited ∧
      ∀ k traded, prepared.trade venue ctx mints (swaps.take k) = .ok traded →
        ReservesKept ctx mints prepared traded.bank ∧
        ∀ record ∈ traded.legs, ReservesKept ctx mints prepared record.after ∧
          ExactInput ctx prepared record) ∧
    execute rt venue ctx amount mints swaps bank ≠
      .error (.template .reservedBalanceViolation) := by
  refine ⟨fun prepared hprepared => ?_, fun hviolation => ?_⟩
  · obtain ⟨inputMint, inputDecimals, hspec⟩ := prepare_spec hprepared
    have hinput := huser prepared hprepared
    refine ⟨(hspec.deposited_custody hinput).reservesKept hspec, fun k traded htrade => ?_⟩
    have haccounted := hspec.accounted hinput (fun swap hswap => List.mem_of_mem_take hswap)
      htrade (honest prepared hprepared k traded htrade)
    refine ⟨haccounted.custody.reservesKept hspec, fun record hrecord => ?_⟩
    have haccounting := haccounted.legs record hrecord
    have hmem : record.swap ∈ swaps.take k := by
      rw [← trade_swaps htrade]
      exact List.mem_map_of_mem hrecord
    have hfrom := hspec.shaped.from_lt record.swap (List.mem_of_mem_take hmem)
    exact ⟨haccounting.after_custody.reservesKept hspec,
      haccounting.exactInput (hspec.routeSlot hfrom)⟩
  · rcases execute_error hviolation with hordinary | ⟨_, prepared, traded, payout, closing,
      hprepared, htrade, hpayout, hclosing, info, hinfo, htitan, hbroken⟩
    · cases hordinary
    obtain ⟨inputMint, inputDecimals, hspec⟩ := prepare_spec hprepared
    have hall : prepared.trade venue ctx mints (swaps.take swaps.length) = .ok traded := by
      rw [List.take_length]
      exact htrade
    have haccounted := hspec.accounted (huser prepared hprepared) (fun _ hswap => hswap) htrade
      (honest prepared hprepared _ traded hall)
    obtain ⟨outputAta, _, hpays⟩ := hspec.outputSlot hpayout
    have hkept := hpays.reserve_le_paid haccounted.custody htitan
    rw [tokenAmount_closeCreatedAtas hclosing] at hbroken
    omega

/-! ## The sample exchange is honest -/

namespace Sample

theorem withAmount_rebalanced {account : Account} {titanPda : Pubkey} {amount : ℕ}
    (htitan : isTitanPdaTokenAccount account titanPda = true) (hamount : amount ≤ u64Max) :
    Rebalanced account (withAmount account amount) amount := by
  have hlen : 165 ≤ account.data.length := accountLen_le_of_isTitanPda htitan
  simp only [u64Max] at hamount
  exact ⟨rfl, by rw [withAmount, length_putLE _ (by omega)]; exact hlen,
    getKey_putLE_of_disjoint _ (by omega) (by omega),
    getKey_putLE_of_disjoint _ (by omega) (by omega), getLE_putLE_same (by omega) (by omega)⟩

theorem doubler_honest {leg amount : ℕ} {swap : SwapSpecInputV2}
    {accountMetas : List AccountMeta} {source target : AccountInfo} {rest : List AccountInfo}
    {titanPda : Pubkey} {before after : Bank} (hamount : amount < 2 ^ 64)
    (h : performCpiSwap doubler leg amount swap accountMetas (source :: target :: rest)
      before = .ok after) :
    HonestCall titanPda source.key target.key amount (2 * amount) before after := by
  obtain ⟨sellBase, hvenue⟩ : ∃ sellBase, swap.venue = .quay sellBase := by
    cases swap.venue
    exact ⟨_, rfl⟩
  obtain ⟨out, hout, rfl⟩ := (performCpiSwap_eq_ok hvenue).mp h
  simp only [doubler, getLE_swapData _ hamount, bind_eq_ok, check_eq_ok, pure_eq_ok] at hout
  obtain ⟨_, hfunds, _, hfit, rfl⟩ := hout
  refine ⟨hfunds, fun key htitan => ?_⟩
  have hdebited : Rebalanced (before key) (Function.update before source.key
      (withAmount (before source.key) (tokenAmount (before source.key) - amount)) key)
      (tokenAmount (before key) - if key = source.key then amount else 0) := by
    by_cases hs : key = source.key
    · subst hs
      rw [Function.update_self, if_pos rfl]
      exact withAmount_rebalanced htitan ((Nat.sub_le _ _).trans (tokenAmount_le _))
    · rw [Function.update_of_ne hs, if_neg hs]
      exact rebalanced_of_sameContents (SameContents.refl _) htitan
  by_cases ht : key = target.key
  · subst ht
    have hpaid := withAmount_rebalanced (isTitanPda_of_rebalanced hdebited htitan) hfit
    rw [tokenAmount_of_rebalanced hdebited] at hpaid
    simpa [tokenAmount_of_rebalanced hdebited] using hdebited.trans hpaid
  · rw [Function.update_of_ne ht, if_neg ht, Nat.add_zero]
    by_cases hs : key = source.key
    · simpa [hs] using hdebited
    · rw [Function.update_of_ne hs] at hdebited ⊢
      simpa using hdebited

theorem doubler_frame {leg amount : ℕ} {swap : SwapSpecInputV2}
    {accountMetas : List AccountMeta} {source target : AccountInfo} {rest : List AccountInfo}
    {before after : Bank} (hamount : amount < 2 ^ 64)
    (h : performCpiSwap doubler leg amount swap accountMetas (source :: target :: rest)
      before = .ok after) {key : Pubkey} (hsource : key ≠ source.key) (htarget : key ≠ target.key) :
    after key = before key := by
  obtain ⟨sellBase, hvenue⟩ : ∃ sellBase, swap.venue = .quay sellBase := by
    cases swap.venue
    exact ⟨_, rfl⟩
  obtain ⟨out, hout, rfl⟩ := (performCpiSwap_eq_ok hvenue).mp h
  simp only [doubler, getLE_swapData _ hamount, bind_eq_ok, check_eq_ok, pure_eq_ok] at hout
  obtain ⟨_, _, _, _, rfl⟩ := hout
  simp only
  rw [Function.update_of_ne htarget, Function.update_of_ne hsource, ite_self]

/-- The slice of a leg starts with its own two accounts. -/
def StartsWithOwn (ctx : Context) (index : ℕ) (swap : SwapSpecInputV2) : Prop :=
  ∃ source target rest, (legInvocation ctx index swap.nAccounts.toNat).legAccounts =
    source :: target :: rest ∧ ctx.ata swap.from = source.key ∧ ctx.ata swap.to = target.key

/-- A leg at the exchange: a call pays twice its input, and nothing else changes. -/
structure DoubledLeg (ctx : Context) (record : LegRecord) : Prop where
  paid : ∀ invocation, record.invocation = some invocation →
    HonestCall ctx.accounts.titanPda (record.source ctx) (record.target ctx) record.inputAmount
      (2 * record.inputAmount) record.before record.after
  frame : ∀ key, key ≠ record.source ctx → key ≠ record.target ctx →
    record.after key = record.before key

theorem DoubledLeg.honest {ctx : Context} {record : LegRecord} (h : DoubledLeg ctx record) :
    HonestLeg ctx record := fun invocation hinvocation => ⟨_, h.paid invocation hinvocation⟩

theorem doubler_leg {ctx : Context} {reservedBalances : List ℕ} {leg : ℕ}
    {swap : SwapSpecInputV2} {st st' : LegState} {record : LegRecord}
    (h : LegSpec doubler ctx reservedBalances leg swap st st' record)
    (hown : StartsWithOwn ctx st.remainingAccountIndex swap) : DoubledLeg ctx record := by
  obtain ⟨source, target, rest, hslice, hsource, htarget⟩ := hown
  have hfrom : record.source ctx = source.key := by rw [LegRecord.source, h.swap_eq, hsource]
  have hto : record.target ctx = target.key := by rw [LegRecord.target, h.swap_eq, htarget]
  rcases h.outcome with ⟨_, hnone, hbank⟩ | ⟨_, _, hsome, hlegs, hcall⟩
  · refine ⟨fun invocation hinvocation => ?_, fun key _ _ => ?_⟩
    · rw [hnone] at hinvocation
      cases hinvocation
    · rw [h.after_eq, h.before_eq, hbank]
  · rw [hlegs, hslice, ← h.before_eq, ← h.after_eq] at hcall
    refine ⟨fun _ _ => ?_, fun key hkey hkey' => ?_⟩
    · rw [hfrom, hto]
      exact doubler_honest h.inputAmount_lt hcall
    · rw [hfrom] at hkey
      rw [hto] at hkey'
      exact doubler_frame h.inputAmount_lt hcall hkey hkey'

theorem twoLegs_honest {ctx : Context} {first second : SwapSpecInputV2} {prepared : Prepared}
    {k : ℕ} {traded : LegState} (hfirst : StartsWithOwn ctx 4 first)
    (hsecond : StartsWithOwn ctx (4 + first.nAccounts.toNat) second)
    (htrade : prepared.trade doubler ctx 2 ([first, second].take k) = .ok traded) :
    HonestLegs ctx traded := by
  intro record hrecord
  cases k with
  | zero =>
      rw [List.take_zero, Prepared.trade, runLegs, pure_eq_ok] at htrade
      subst htrade
      cases hrecord
  | succ k =>
      cases k with
      | zero =>
          rw [List.take_succ_cons, List.take_zero, Prepared.trade] at htrade
          simp only [runLegs, bind_pure] at htrade
          obtain ⟨sold, hsold⟩ := runLeg_spec htrade
          rw [hsold.legs_eq] at hrecord
          obtain rfl := List.mem_singleton.mp hrecord
          exact (doubler_leg hsold hfirst).honest
      | succ k =>
          rw [List.take_succ_cons, List.take_succ_cons, List.take_nil, Prepared.trade] at htrade
          simp only [runLegs, bind_eq_ok, pure_eq_ok] at htrade
          obtain ⟨st, hst, st', hst', rfl⟩ := htrade
          obtain ⟨sold, hsold⟩ := runLeg_spec hst
          obtain ⟨soldNext, hsoldNext⟩ := runLeg_spec hst'
          rw [hsoldNext.legs_eq, hsold.legs_eq] at hrecord
          rcases List.mem_pair.mp hrecord with rfl | rfl
          · exact (doubler_leg hsold hfirst).honest
          · refine (doubler_leg hsoldNext ?_).honest
            rw [hsold.index_eq]
            exact hsecond

/-- Every call pays twice its input. -/
def Doubles (ctx : Context) (st : LegState) : Prop :=
  ∀ record ∈ st.legs, ∀ invocation, record.invocation = some invocation →
    HonestCall ctx.accounts.titanPda (record.source ctx) (record.target ctx)
      record.inputAmount (2 * record.inputAmount) record.before record.after

theorem Doubles.honest {ctx : Context} {st : LegState} (h : Doubles ctx st) :
    HonestLegs ctx st :=
  fun record hrecord invocation hinvocation => ⟨_, h record hrecord invocation hinvocation⟩

theorem doubled_trade {ctx : Context} {swap : SwapSpecInputV2} {prepared : Prepared}
    {traded : LegState} (hown : StartsWithOwn ctx 4 swap)
    (htrade : prepared.trade doubler ctx 2 [swap] = .ok traded) :
    ∀ record ∈ traded.legs, DoubledLeg ctx record ∧ record.before = prepared.deposited := by
  rw [Prepared.trade] at htrade
  simp only [runLegs, bind_pure] at htrade
  obtain ⟨record, hspec⟩ := runLeg_spec htrade
  intro other hother
  rw [hspec.legs_eq] at hother
  obtain rfl := List.mem_singleton.mp hother
  exact ⟨doubler_leg hspec hown, hspec.before_eq⟩

theorem doubles_trade {ctx : Context} {swap : SwapSpecInputV2} {prepared : Prepared}
    {traded : LegState} (hown : StartsWithOwn ctx 4 swap)
    (htrade : prepared.trade doubler ctx 2 [swap] = .ok traded) : Doubles ctx traded :=
  fun record hrecord => (doubled_trade hown htrade record hrecord).1.paid

/-- The sale in two parts: three tenths of it, and what is left. -/
def splitSale : List SwapSpecInputV2 :=
  [⟨.quay true, 0, 1, 300000000, 3⟩, ⟨.quay true, 0, 1, 1000000000, 3⟩]

def splitContext : Context :=
  { context with
    remainingAccounts :=
      context.remainingAccounts ++ [info baseAta, info quoteAta, info Quay.programId] }

theorem splitSale_honest {prepared : Prepared} {k : ℕ} {traded : LegState}
    (htrade : prepared.trade doubler splitContext 2 (splitSale.take k) = .ok traded) :
    HonestLegs splitContext traded :=
  twoLegs_honest ⟨_, _, _, rfl, rfl, rfl⟩ ⟨_, _, _, rfl, rfl, rfl⟩ htrade

theorem execute_splitSale :
    ∃ run, execute runtime doubler splitContext 500 2 splitSale bank = .ok run :=
  exists_of_isOk (by decide +kernel)

theorem outside_custody {prepared : Prepared} {key : Pubkey}
    (hprepared : prepare runtime splitContext 500 2 splitSale bank = .ok prepared)
    (hdata : (bank key).data ≠ [])
    (hkey : isTitanPdaTokenAccount (bank key) titanPda = false) :
    isTitanPdaTokenAccount (prepared.opened.bank key) titanPda = false := by
  obtain ⟨inputMint, inputDecimals, hspec⟩ := prepare_spec hprepared
  rw [isTitanPda_of_sameContents (createMissingAtas_sameContents hspec.opens hdata)]
  exact hkey

end Sample

open Sample in
theorem execute_keepsReserves_sample :
    (∃ run, execute runtime doubler splitContext 500 2 splitSale bank = .ok run ∧
      ReservesKept splitContext 2 run.toPrepared run.deposited ∧ ∀ record ∈ run.traded.legs,
        ReservesKept splitContext 2 run.toPrepared record.after ∧
          ExactInput splitContext run.toPrepared record) ∧
    execute runtime doubler splitContext 500 2 splitSale bank ≠
      .error (.template .reservedBalanceViolation) := by
  obtain ⟨run, hrun⟩ := execute_splitSale
  have hexecutes := execute_eq_ok.mp hrun
  obtain ⟨hlegs, herror⟩ := execute_keepsReserves runtime doubler splitContext 500 2 splitSale bank
    (fun _ hprepared => outside_custody hprepared (by decide +kernel) (by decide +kernel))
    fun _ _ _ _ htrade => splitSale_honest htrade
  obtain ⟨hdeposited, htraded⟩ := hlegs _ hexecutes.prepares
  exact ⟨⟨run, hrun, hdeposited, (htraded 2 _ hexecutes.trades).2⟩, herror⟩

end QuayTitan.Route
