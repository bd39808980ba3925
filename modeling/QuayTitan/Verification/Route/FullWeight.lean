import Mathlib.Data.List.Find
import QuayTitan.Verification.Route.Reserves

/-! # Fully weighted routes

When the last leg that touches a mint sells all of it, nothing of it stays behind. -/

namespace QuayTitan.Route

open ByteFields Fallible

variable {rt : Runtime}

/-! ## The condition on a route -/

def SwapSpecInputV2.mentions (swap : SwapSpecInputV2) (index : UInt8) : Bool :=
  swap.from = index || swap.to = index

/-- The last leg that mentions a mint. -/
def lastMention (swaps : List SwapSpecInputV2) (index : UInt8) : Option SwapSpecInputV2 :=
  swaps.reverse.find? fun swap => swap.mentions index

/-- Every mint the route brings in, other than its output, is last sold with full weight. -/
def FullyWeighted (swaps : List SwapSpecInputV2) : Prop :=
  ∀ last, swaps.getLast? = some last → ∀ index, index ≠ last.to →
    (index = 0 ∨ ∃ swap ∈ swaps, swap.to = index) →
    ∃ swap, lastMention swaps index = some swap ∧ swap.from = index ∧
      1000000000 ≤ swap.weightNanos.toNat

def DistinctAtas (ctx : Context) (mints : UInt8) : Prop :=
  ∀ i j : UInt8, i < mints → j < mints → ctx.ata i = ctx.ata j → i = j

def NoTransferFees (rt : Runtime) (ctx : Context) (mints : UInt8) : Prop :=
  ∀ index : UInt8, index < mints → ∀ amount, rt.transferFee (ctx.mint mints index) amount = 0

/-! ## Totals of a trade -/

/-- What the legs took of a mint. -/
def LegState.taken (st : LegState) (index : UInt8) : ℕ :=
  (st.legs.map fun record => if record.swap.from = index then record.inputAmount else 0).sum

/-- What the legs were credited of a mint. -/
def LegState.produced (ctx : Context) (st : LegState) (index : UInt8) : ℕ :=
  (st.legs.map fun record => if record.swap.to = index then record.credited ctx else 0).sum

theorem DistinctAtas.ata_eq_iff {ctx : Context} {mints : UInt8} (h : DistinctAtas ctx mints)
    {i j : UInt8} (hi : i < mints) (hj : j < mints) : ctx.ata i = ctx.ata j ↔ j = i :=
  ⟨fun heq => (h i j hi hj heq).symm, fun heq => heq ▸ rfl⟩

/-- Trades over legs within the route's mints. -/
def Within (mints : UInt8) (st : LegState) : Prop :=
  ∀ record ∈ st.legs, record.swap.from < mints ∧ record.swap.to < mints

section Totals

variable {ctx : Context} {mints : UInt8} {st : LegState} {index : UInt8}

theorem spent_eq_taken (hdistinct : DistinctAtas ctx mints) (hwithin : Within mints st)
    (hindex : index < mints) :
    (st.legs.map fun record =>
      if ctx.ata index = record.source ctx then record.inputAmount else 0).sum =
      st.taken index := by
  refine congrArg List.sum (List.map_congr_left fun record hrecord => ?_)
  simp only [LegRecord.source, hdistinct.ata_eq_iff hindex (hwithin record hrecord).1]

theorem received_eq_produced (hdistinct : DistinctAtas ctx mints) (hwithin : Within mints st)
    (hindex : index < mints) :
    SplitLedger.received (st.legs.map (LegRecord.split ctx)) (ctx.ata index) =
      st.produced ctx index := by
  rw [SplitLedger.received, List.map_map]
  refine congrArg List.sum (List.map_congr_left fun record hrecord => ?_)
  simp only [Function.comp, LegRecord.split, LegRecord.target,
    hdistinct.ata_eq_iff hindex (hwithin record hrecord).2]

theorem split_mentions (hdistinct : DistinctAtas ctx mints) (hwithin : Within mints st)
    (hindex : index < mints) {record : LegRecord} (hrecord : record ∈ st.legs) :
    (record.split ctx).mentions (ctx.ata index) = record.swap.mentions index := by
  have hsource := hdistinct.ata_eq_iff hindex (hwithin record hrecord).1
  have htarget := hdistinct.ata_eq_iff hindex (hwithin record hrecord).2
  simp only [SplitLedger.Leg.mentions, SwapSpecInputV2.mentions, LegRecord.split,
    LegRecord.source, LegRecord.target, hsource, htarget]

/-- The last mention of a mint in the route is the last mention of its account in the
ledger. -/
theorem exists_lastMention_split (hdistinct : DistinctAtas ctx mints)
    (hwithin : Within mints st) (hindex : index < mints) {swap : SwapSpecInputV2}
    (hlast : lastMention (st.legs.map LegRecord.swap) index = some swap) :
    ∃ record ∈ st.legs, record.swap = swap ∧
      SplitLedger.lastMention (st.legs.map (LegRecord.split ctx)) (ctx.ata index) =
        some (record.split ctx) := by
  rw [lastMention, ← List.map_reverse, List.find?_map, Option.map_eq_some_iff] at hlast
  obtain ⟨record, hfind, hswap⟩ := hlast
  have hmem : record ∈ st.legs := by simpa using List.mem_of_find?_eq_some hfind
  refine ⟨record, hmem, hswap, ?_⟩
  rw [SplitLedger.lastMention, ← List.map_reverse, List.find?_map, Option.map_eq_some_iff]
  refine ⟨record, ?_, rfl⟩
  rw [← hfind]
  refine List.find?_congr fun other hother => ?_
  exact split_mentions hdistinct hwithin hindex (by simpa using hother)

end Totals

/-! ## Nothing is left -/

theorem Prepares.within {venue : VenueProgram} {ctx : Context} {amount : UInt64}
    {mints : UInt8} {swaps : List SwapSpecInputV2} {bank : Bank} {inputMint : AccountInfo}
    {inputDecimals : UInt8} {prepared : Prepared} {traded : LegState}
    (h : Prepares rt ctx amount mints swaps bank inputMint inputDecimals prepared)
    (htrade : prepared.trade venue ctx mints swaps = .ok traded) : Within mints traded := by
  intro record hrecord
  have hmem : record.swap ∈ swaps := by
    rw [← trade_swaps htrade]
    exact List.mem_map_of_mem hrecord
  exact ⟨UInt8.lt_iff_toNat_lt.mpr (h.shaped.from_lt _ hmem),
    UInt8.lt_iff_toNat_lt.mpr (h.shaped.to_lt _ hmem)⟩

theorem Prepares.mint_output {ctx : Context} {amount : UInt64} {mints : UInt8}
    {swaps : List SwapSpecInputV2} {bank : Bank} {inputMint : AccountInfo}
    {inputDecimals : UInt8} {prepared : Prepared} {index : UInt8}
    (h : Prepares rt ctx amount mints swaps bank inputMint inputDecimals prepared)
    (hindex : prepared.outputAtaIndex = index.toNat) :
    ctx.mint mints index = prepared.outputMint := by
  obtain ⟨info, hinfo, hkey⟩ := h.output_mint
  rw [← hkey]
  apply Context.keyAt_eq
  rwa [← hindex]

/-- Only the output mint has an excess once the legs are over. -/
theorem Prepares.excess_eq_zero {venue : VenueProgram} {ctx : Context} {amount : UInt64}
    {mints : UInt8} {swaps : List SwapSpecInputV2} {bank : Bank} {inputMint : AccountInfo}
    {inputDecimals : UInt8} {prepared : Prepared} {traded : LegState}
    {last : SwapSpecInputV2}
    (h : Prepares rt ctx amount mints swaps bank inputMint inputDecimals prepared)
    (htrade : prepared.trade venue ctx mints swaps = .ok traded)
    (hinput : InputOutsideCustody ctx prepared)
    (haccounted : Accounted ctx prepared.opened.bank prepared.deposited traded)
    (hdistinct : DistinctAtas ctx mints) (hne : ∀ swap ∈ swaps, swap.from ≠ swap.to)
    (hfull : FullyWeighted swaps) (hlast : swaps.getLast? = some last) {index : UInt8}
    (hindex : index < mints) (hother : index ≠ last.to) :
    excess ctx.accounts.titanPda prepared.opened.bank traded.bank (ctx.ata index) = 0 := by
  have hwithin := h.within htrade
  have hswaps := trade_swaps htrade
  have hzero := h.shaped.mints_pos
  rw [haccounted.excess_eq]
  by_cases hbrought : index = 0 ∨ ∃ swap ∈ swaps, swap.to = index
  · obtain ⟨swap, hmention, hfrom, hweight⟩ := hfull last hlast index hother hbrought
    rw [← hswaps] at hmention
    obtain ⟨record, hrecord, rfl, hsplit⟩ :=
      exists_lastMention_split hdistinct hwithin hindex hmention
    have hmem : record.swap ∈ swaps := by
      rw [← hswaps]
      exact List.mem_map_of_mem hrecord
    refine SplitLedger.run_of_drained _ hsplit ?_ ?_ fun n => weightShare_of_full hweight n
    · rw [LegRecord.split, LegRecord.source, hfrom]
    · intro heq
      have hto := (hdistinct.ata_eq_iff hindex (hwithin record hrecord).2).mp heq
      exact hne _ hmem (hfrom.trans hto.symm)
  · rw [not_or, not_exists] at hbrought
    refine SplitLedger.run_of_not_target ?_ fun leg hleg heq => ?_
    · rw [h.deposited_excess hinput index (UInt8.lt_iff_toNat_lt.mp hindex), if_neg]
      rw [hdistinct.ata_eq_iff hindex hzero]
      exact fun heq => hbrought.1 heq.symm
    · obtain ⟨record, hrecord, rfl⟩ := List.mem_map.mp hleg
      have hto := (hdistinct.ata_eq_iff hindex (hwithin record hrecord).2).mp heq
      refine hbrought.2 record.swap ⟨?_, hto⟩
      rw [← hswaps]
      exact List.mem_map_of_mem hrecord

/-- The payout leaves every account of the route with what it held when the route started. -/
theorem Prepares.paid_balance {venue : VenueProgram} {ctx : Context} {amount : UInt64}
    {mints : UInt8} {swaps : List SwapSpecInputV2} {bank : Bank}
    {inputMint outputAta : AccountInfo} {inputDecimals : UInt8} {prepared : Prepared}
    {traded : LegState} {last : SwapSpecInputV2} {payout : Payout}
    (h : Prepares rt ctx amount mints swaps bank inputMint inputDecimals prepared)
    (htrade : prepared.trade venue ctx mints swaps = .ok traded)
    (hinput : InputOutsideCustody ctx prepared)
    (haccounted : Accounted ctx prepared.opened.bank prepared.deposited traded)
    (hdistinct : DistinctAtas ctx mints) (hne : ∀ swap ∈ swaps, swap.from ≠ swap.to)
    (hfull : FullyWeighted swaps) (hlast : swaps.getLast? = some last) (hto : last.to < mints)
    (hata : ctx.ata last.to = outputAta.key)
    (hpays : PayoutSpec rt ctx prepared.outputAtaIndex prepared.outputMint
      prepared.outputDecimals prepared.snapshot.reservedBalances traded.bank outputAta
      (tokenAmount (prepared.opened.bank outputAta.key)) payout)
    (houtput : isTitanPdaTokenAccount (prepared.opened.bank ctx.accounts.outputTokenAccount)
      ctx.accounts.titanPda = false) {index : UInt8} (hindex : index < mints) :
    tokenAmount (payout.paid (ctx.ata index)) =
      tokenAmount (prepared.opened.bank (ctx.ata index)) := by
  have hslot := (h.routeSlot (UInt8.lt_iff_toNat_lt.mp hindex)).titan
  have htitan := (h.routeSlot (UInt8.lt_iff_toNat_lt.mp hto)).titan
  rw [hata] at htitan
  have hkept := (haccounted.custody _ htitan).2
  have hheld := (haccounted.custody _ hslot).2
  have hraw := tokenAmount_of_getLE hpays.raw_eq
  rw [hpays.tokenAmount_paid (haccounted.custody.isTitanPda hslot), transferredAmount,
    if_neg (ne_of_custody htitan houtput)]
  by_cases hindexTo : index = last.to
  · rw [hindexTo, hata, if_pos rfl, hpays.output_eq]
    omega
  · have hempty := h.excess_eq_zero htrade hinput haccounted hdistinct hne hfull hlast hindex
      hindexTo
    have hother : ctx.ata index ≠ outputAta.key := by
      rw [← hata, Ne, hdistinct.ata_eq_iff hindex hto]
      exact Ne.symm hindexTo
    rw [excess, if_pos hslot] at hempty
    rw [if_neg hother, if_neg (ne_of_custody hslot houtput)]
    omega

/-- A closed account was empty. -/
theorem closeCreatedAtas_closed {ctx : Context} {mintsCount : ℕ} {createdAtas : BitVec 16}
    {bank : Bank} {closing : Closing}
    (h : closeCreatedAtas rt ctx mintsCount createdAtas bank = .ok closing) :
    ∀ i ∈ closing.closed, tokenAmount (closing.bank (ctx.keyAt i)) = 0 := by
  refine foldlM_invariant
    (fun st : Closing => ∀ i ∈ st.closed, tokenAmount (st.bank (ctx.keyAt i)) = 0)
    (fun i _ st st' hst hstep => ?_) (by simp) h
  have hkept (key : Pubkey) : tokenAmount (st'.bank key) = tokenAmount (st.bank key) :=
    tokenAmount_of_keptOrClosed (closeCreatedAta_keptOrClosed hstep key)
  intro j hj
  rw [hkept]
  cases closeCreatedAta_cases hstep with
  | skipped same _ => exact hst j (same ▸ hj)
  | closes _ empty closed_eq _ _ _ =>
      rw [closed_eq] at hj
      rcases List.mem_append.mp hj with hj | hj
      · exact hst j hj
      · rw [List.mem_singleton.mp hj]
        exact empty

/-! ## What the user receives -/

theorem routeFee_eq_zero {ctx : Context} {mints index : UInt8}
    (hfee : NoTransferFees rt ctx mints) (hindex : index < mints) (tokenProgram : Pubkey)
    (amount : ℕ) : routeFee rt tokenProgram (ctx.mint mints index) amount = 0 := by
  rw [routeFee, hfee index hindex, ite_self]

/-- The output mint of a route: its excess is what the legs and the deposit left of it. -/
theorem Prepares.excess_output {venue : VenueProgram} {ctx : Context} {amount : UInt64}
    {mints : UInt8} {swaps : List SwapSpecInputV2} {bank : Bank} {inputMint : AccountInfo}
    {inputDecimals : UInt8} {prepared : Prepared} {traded : LegState}
    (h : Prepares rt ctx amount mints swaps bank inputMint inputDecimals prepared)
    (htrade : prepared.trade venue ctx mints swaps = .ok traded)
    (hinput : InputOutsideCustody ctx prepared)
    (haccounted : Accounted ctx prepared.opened.bank prepared.deposited traded)
    (hdistinct : DistinctAtas ctx mints) (hfee : NoTransferFees rt ctx mints)
    {index : UInt8} (hindex : index < mints) :
    excess ctx.accounts.titanPda prepared.opened.bank traded.bank (ctx.ata index) +
      traded.taken index = traded.produced ctx index +
        if index = 0 then prepared.effectiveAmount else 0 := by
  have hzero := h.shaped.mints_pos
  have hwithin := h.within htrade
  have hcredit : prepared.credit rt ctx mints = prepared.effectiveAmount := by
    rw [Prepared.credit, depositCredit, routeFee_eq_zero hfee hzero, Nat.sub_zero]
  have hstart := h.deposited_excess hinput index (UInt8.lt_iff_toNat_lt.mp hindex)
  have hbalance := SplitLedger.run_add_spent (traded.legs.map (LegRecord.split ctx))
    (excess ctx.accounts.titanPda prepared.opened.bank prepared.deposited) (ctx.ata index)
  rw [← haccounted.excess_eq, haccounted.spent_eq, spent_eq_taken hdistinct hwithin hindex,
    received_eq_produced hdistinct hwithin hindex, hstart, hcredit] at hbalance
  rw [hbalance, Nat.add_comm]
  simp only [hdistinct.ata_eq_iff hindex hzero, eq_comm]

/-- Fully weighted routes strand nothing: every account of the route ends with its
snapshot, and the user gets all that the deposit and the legs left of the output mint. -/
theorem execute_strandsNothing (rt : Runtime) (venue : VenueProgram) (ctx : Context)
    (amount : UInt64) (mints : UInt8) (swaps : List SwapSpecInputV2) (bank : Bank)
    (run : RouteRun) (hrun : execute rt venue ctx amount mints swaps bank = .ok run)
    (honest : HonestLegs ctx run.traded) (hfee : NoTransferFees rt ctx mints)
    (hdistinct : DistinctAtas ctx mints) (hinput : InputOutsideCustody ctx run.toPrepared)
    (houtput : isTitanPdaTokenAccount (run.opened.bank ctx.accounts.outputTokenAccount)
      ctx.accounts.titanPda = false)
    (hne : ∀ swap ∈ swaps, swap.from ≠ swap.to) (hfull : FullyWeighted swaps) :
    (∀ index : UInt8, index < mints → ∃ reserved,
      run.snapshot.reservedBalances[index.toNat]? = some reserved ∧
      tokenAmount (run.final (ctx.ata index)) = reserved ∧
      (index.toNat ∈ run.closing.closed → reserved = 0)) ∧
    ∃ last, swaps.getLast? = some last ∧
      run.payout.userOutput + run.traded.taken last.to = run.traded.produced ctx last.to +
        (if last.to = 0 then run.effectiveAmount else 0) ∧
      tokenAmount (run.final ctx.accounts.outputTokenAccount) =
        tokenAmount (run.payout.ready ctx.accounts.outputTokenAccount) +
          run.payout.userOutput := by
  have hexecutes := execute_eq_ok.mp hrun
  obtain ⟨inputMint, inputDecimals, hspec⟩ := prepare_spec hexecutes.prepares
  have haccounted := hspec.accounted hinput (fun _ hswap => hswap) hexecutes.trades honest
  obtain ⟨last, hlast, hindex⟩ := hspec.output_index
  have hto : last.to < mints :=
    UInt8.lt_iff_toNat_lt.mpr (hspec.shaped.to_lt last (List.mem_of_getLast? hlast))
  obtain ⟨outputAta, htitan, hpays⟩ := hspec.outputSlot hexecutes.pays
  have hata : ctx.ata last.to = outputAta.key := by
    apply Context.ata_eq
    rw [← hindex]
    exact hpays.output_ata
  have hfinal (key : Pubkey) : tokenAmount (run.final key) = tokenAmount (run.payout.paid key) :=
    tokenAmount_closeCreatedAtas hexecutes.closes key
  refine ⟨fun index hlt => ?_, last, hlast, ?_, ?_⟩
  · have hends : tokenAmount (run.final (ctx.ata index)) =
        tokenAmount (run.opened.bank (ctx.ata index)) := by
      rw [hfinal]
      exact hspec.paid_balance hexecutes.trades hinput haccounted hdistinct hne hfull hlast hto
        hata hpays houtput hlt
    refine ⟨_, (hspec.routeSlot (UInt8.lt_iff_toNat_lt.mp hlt)).reserved, hends,
      fun hclosed => ?_⟩
    rw [← hends]
    exact closeCreatedAtas_closed hexecutes.closes _ hclosed
  · have hbalance := hspec.excess_output hexecutes.trades hinput haccounted hdistinct hfee hto
    rw [excess, hata, if_pos htitan] at hbalance
    rw [hpays.output_eq, ← tokenAmount_of_getLE hpays.raw_eq]
    exact hbalance
  · rw [hfinal]
    refine tokenAmount_transferTokens hpays.pays (ne_of_custody htitan houtput) ?_
    rw [← hspec.mint_output hindex]
    exact routeFee_eq_zero hfee hto _ _

namespace Sample

theorem lt_two {index : UInt8} (h : index < 2) : index = 0 ∨ index = 1 := by
  have htwo : index.toNat < 2 := UInt8.lt_iff_toNat_lt.mp h
  rcases Nat.lt_succ_iff_lt_or_eq.mp htwo with hzero | hone
  · exact .inl (UInt8.toNat_inj.mp (by simpa using hzero))
  · exact .inr (UInt8.toNat_inj.mp hone)

theorem distinctAtas {ctx : Context} (h0 : ctx.ata 0 = baseAta) (h1 : ctx.ata 1 = quoteAta) :
    DistinctAtas ctx 2 := by
  intro i j hi hj heq
  have hne : baseAta ≠ quoteAta := by decide +kernel
  rcases lt_two hi with rfl | rfl <;> rcases lt_two hj with rfl | rfl
  · rfl
  · exact (hne (h0.symm.trans (heq.trans h1))).elim
  · exact (hne (h0.symm.trans (heq.symm.trans h1))).elim
  · rfl

theorem fullyWeighted_splitSale : FullyWeighted splitSale := by
  intro last hlast index hother hbrought
  obtain rfl := Option.some.inj hlast
  rcases hbrought with rfl | ⟨swap, hswap, rfl⟩
  · exact ⟨_, rfl, rfl, le_refl 1000000000⟩
  · rcases List.mem_pair.mp hswap with rfl | rfl
    · exact (hother rfl).elim
    · exact (hother rfl).elim

end Sample

open Sample in
theorem execute_strandsNothing_sample :
    ∃ run, execute runtime doubler splitContext 500 2 splitSale bank = .ok run ∧
      (∀ index : UInt8, index < 2 → ∃ reserved,
        run.snapshot.reservedBalances[index.toNat]? = some reserved ∧
        tokenAmount (run.final (splitContext.ata index)) = reserved) ∧
      ∃ last, splitSale.getLast? = some last ∧
        run.payout.userOutput + run.traded.taken last.to =
          run.traded.produced splitContext last.to +
            (if last.to = 0 then run.effectiveAmount else 0) := by
  obtain ⟨run, hrun⟩ := execute_splitSale
  have hexecutes := execute_eq_ok.mp hrun
  obtain ⟨hends, last, hlast, houtput, _⟩ := execute_strandsNothing runtime doubler splitContext 500
    2 splitSale bank run hrun (splitSale_honest (k := 2) hexecutes.trades) (fun _ _ _ => rfl)
    (distinctAtas rfl rfl)
    (outside_custody hexecutes.prepares (by decide +kernel) (by decide +kernel))
    (outside_custody hexecutes.prepares (by decide +kernel) (by decide +kernel)) (by decide)
    fullyWeighted_splitSale
  refine ⟨run, hrun, fun index hindex => ?_, last, hlast, houtput⟩
  obtain ⟨reserved, hreserved, hfinal, _⟩ := hends index hindex
  exact ⟨reserved, hreserved, hfinal⟩

end QuayTitan.Route
