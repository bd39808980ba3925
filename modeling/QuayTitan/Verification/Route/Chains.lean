import Mathlib.Data.List.Chain
import QuayTitan.Verification.Route.FullWeight

/-! # Chains of legs

When each leg sells all of what the leg before it bought, the amounts are passed on one by one. -/

namespace QuayTitan.Route

open ByteFields Fallible

section Chains

variable {rt : Runtime} {venue : VenueProgram} {ctx : Context} {amount : UInt64} {mints : UInt8}
  {swaps : List SwapSpecInputV2} {bank : Bank}

/-- Each leg sells, with full weight, what the leg before it bought. -/
structure PassesOn (swaps : List SwapSpecInputV2) : Prop where
  chain : swaps.IsChain fun swap next => next.from = swap.to
  full : ∀ swap ∈ swaps, 1000000000 ≤ swap.weightNanos.toNat
  moves : ∀ swap ∈ swaps, swap.from ≠ swap.to

/-! ## The legs as a chain of splits -/

theorem chained_split {records : List LegRecord} {first last : LegRecord}
    (hchain : (records.map LegRecord.swap).IsChain fun swap next => next.from = swap.to)
    (hfirst : records.head? = some first) (hlast : records.getLast? = some last) :
    SplitLedger.Chained (first.source ctx) (records.map (LegRecord.split ctx))
      (last.target ctx) := by
  induction records generalizing first with
  | nil => cases hfirst
  | cons record rest ih =>
      obtain rfl := Option.some.inj hfirst
      cases rest with
      | nil =>
          obtain rfl := Option.some.inj hlast
          exact .cons (record.split ctx) (.nil _)
      | cons next rest =>
          rw [List.map_cons, List.map_cons, List.isChain_cons_cons] at hchain
          have htail := ih hchain.2 rfl (by rwa [List.getLast?_cons_cons] at hlast)
          have hnext : next.source ctx = (record.split ctx).target :=
            congrArg ctx.ata hchain.1
          rw [hnext] at htail
          exact .cons (record.split ctx) htail

section Prepared

variable {inputMint : AccountInfo} {inputDecimals : UInt8} {prepared : Prepared}
  {traded : LegState}
  (h : Prepares rt ctx amount mints swaps bank inputMint inputDecimals prepared)

include h

/-- The deposit is all the legs start from. -/
theorem Prepares.excess_deposited (hinput : InputOutsideCustody ctx prepared) :
    excess ctx.accounts.titanPda prepared.opened.bank prepared.deposited =
      SplitLedger.only (ctx.ata 0) (prepared.credit rt ctx mints) := by
  have hfirst := (h.routeSlot (UInt8.lt_iff_toNat_lt.mp h.shaped.mints_pos)).titan
  funext key
  by_cases htitan : isTitanPdaTokenAccount (prepared.opened.bank key) ctx.accounts.titanPda = true
  · rw [excess, if_pos htitan, tokenAmount_of_rebalanced (h.deposited_eq hinput htitan),
      Nat.add_sub_cancel_left]
    rfl
  · have hne : key ≠ ctx.ata 0 := by
      rintro rfl
      exact htitan hfirst
    rw [excess, if_neg htitan, SplitLedger.only, if_neg hne]

/-- The legs take what the ledger of the excess says. -/
theorem Prepares.inputs_eq (hinput : InputOutsideCustody ctx prepared)
    (htrade : prepared.trade venue ctx mints swaps = .ok traded)
    (honest : HonestLegs ctx traded) :
    traded.legs.map LegRecord.inputAmount =
      SplitLedger.inputs (traded.legs.map (LegRecord.split ctx))
        (excess ctx.accounts.titanPda prepared.opened.bank prepared.deposited) := by
  have hlegs : Accounted ctx prepared.opened.bank prepared.deposited traded ∧
      traded.legs.map LegRecord.inputAmount =
        SplitLedger.inputs (traded.legs.map (LegRecord.split ctx))
          (excess ctx.accounts.titanPda prepared.opened.bank prepared.deposited) := by
    refine runLegs_invariant
      (fun st => Accounted ctx prepared.opened.bank prepared.deposited st ∧
        st.legs.map LegRecord.inputAmount =
          SplitLedger.inputs (st.legs.map (LegRecord.split ctx))
            (excess ctx.accounts.titanPda prepared.opened.bank prepared.deposited))
      (fun swap hswap leg s s' record hspec hrecord hs => ?_) ?_ htrade
    · obtain ⟨haccounted, hinputs⟩ := hs
      have hsource := h.routeSlot (h.shaped.from_lt swap hswap)
      have htarget := h.routeSlot (h.shaped.to_lt swap hswap)
      have hleg := (hspec.accounting hsource htarget haccounted.custody
        (honest record hrecord)).input_eq
      rw [hspec.before_eq, haccounted.excess_eq] at hleg
      refine ⟨haccounted.leg hspec hsource htarget (honest record hrecord), ?_⟩
      rw [hspec.legs_eq, List.map_append, List.map_append, SplitLedger.inputs_append, hinputs]
      exact congrArg (_ ++ ·) (congrArg (· :: []) hleg)
    · exact ⟨⟨h.deposited_custody hinput, by simp, rfl, fun _ => rfl⟩, rfl⟩
  exact hlegs.2

end Prepared

variable {run : RouteRun}

/-- The legs of such a route are a chain from the first mint to the output mint. -/
theorem Executes.chained (h : Executes rt venue ctx amount mints swaps bank run)
    (hpasses : PassesOn swaps) :
    ∃ index : UInt8, run.outputAtaIndex = index.toNat ∧
      SplitLedger.Chained (ctx.ata 0) (run.traded.legs.map (LegRecord.split ctx))
        (ctx.ata index) := by
  obtain ⟨inputMint, inputDecimals, hspec⟩ := prepare_spec h.prepares
  have hswaps := trade_swaps h.trades
  obtain ⟨last, hlast, hindex⟩ := hspec.output_index
  rw [← hswaps, List.getLast?_map, Option.map_eq_some_iff] at hlast
  obtain ⟨finish, hfinish, rfl⟩ := hlast
  cases hhead : run.traded.legs.head? with
  | none =>
      rw [List.head?_eq_none_iff] at hhead
      rw [hhead] at hfinish
      cases hfinish
  | some start =>
      have hfrom : start.source ctx = ctx.ata 0 := by
        have hzero := hspec.shaped.head_from start.swap
          (by rw [← hswaps, List.head?_map, hhead, Option.map_some])
        rw [LegRecord.source, Context.ata, hzero]
        rfl
      rw [← hfrom]
      exact ⟨finish.swap.to, hindex, chained_split (hswaps ▸ hpasses.chain) hhead hfinish⟩

theorem Executes.excess_output (h : Executes rt venue ctx amount mints swaps bank run)
    {index : UInt8} (hindex : run.outputAtaIndex = index.toNat) :
    excess ctx.accounts.titanPda run.opened.bank run.traded.bank (ctx.ata index) =
      run.payout.userOutput := by
  obtain ⟨inputMint, inputDecimals, hspec⟩ := prepare_spec h.prepares
  obtain ⟨outputAta, htitan, hpays⟩ := hspec.outputSlot h.pays
  have hata : ctx.ata index = outputAta.key := by
    apply Context.ata_eq
    rw [← hindex]
    exact hpays.output_ata
  rw [hata, excess, if_pos htitan, hpays.output_eq, ← tokenAmount_of_getLE hpays.raw_eq]

/-- Along a chain of legs every leg sells exactly what the one before it was credited: the first
what the deposit credited, and the user is paid the last credit. -/
theorem execute_passesOn (h : execute rt venue ctx amount mints swaps bank = .ok run)
    (honest : HonestLegs ctx run.traded) (hdistinct : DistinctAtas ctx mints)
    (hinput : InputOutsideCustody ctx run.toPrepared) (hpasses : PassesOn swaps) :
    run.traded.legs.map LegRecord.inputAmount ++ [run.payout.userOutput] =
      run.credit rt ctx mints :: run.traded.legs.map (LegRecord.credited ctx) := by
  have hexecutes := execute_eq_ok.mp h
  obtain ⟨inputMint, inputDecimals, hspec⟩ := prepare_spec hexecutes.prepares
  have haccounted := hspec.accounted hinput (fun _ hswap => hswap) hexecutes.trades honest
  have hmem (record : LegRecord) (hrecord : record ∈ run.traded.legs) : record.swap ∈ swaps := by
    rw [← trade_swaps hexecutes.trades]
    exact List.mem_map_of_mem hrecord
  obtain ⟨index, hindex, hchained⟩ := hexecutes.chained hpasses
  have hpassed := SplitLedger.inputs_of_chained hchained ?_ ?_ (run.credit rt ctx mints)
  · rw [← hspec.excess_deposited hinput, ← hspec.inputs_eq hinput hexecutes.trades honest,
      ← haccounted.excess_eq, List.map_map, hexecutes.excess_output hindex] at hpassed
    exact hpassed
  · intro split hsplit
    obtain ⟨record, hrecord, rfl⟩ := List.mem_map.mp hsplit
    obtain ⟨hfrom, hto⟩ := hspec.within hexecutes.trades record hrecord
    exact fun heq => hpasses.moves _ (hmem record hrecord) (hdistinct _ _ hfrom hto heq)
  · intro split hsplit
    obtain ⟨record, hrecord, rfl⟩ := List.mem_map.mp hsplit
    exact fun n => weightShare_of_full (hpasses.full _ (hmem record hrecord)) n

end Chains

namespace Sample

/-- Sold for the quote mint and bought back. -/
def roundTrip : List SwapSpecInputV2 :=
  [⟨.quay true, 0, 1, 1000000000, 3⟩, ⟨.quay false, 1, 0, 1000000000, 3⟩]

def roundTripContext : Context where
  accounts := { accounts with outputTokenAccount := userBase }
  remainingAccounts := [info baseAta, info quoteAta, info baseMint, info quoteMint,
    info baseAta, info quoteAta, info Quay.programId,
    info quoteAta, info baseAta, info Quay.programId]

theorem roundTrip_honest {prepared : Prepared} {k : ℕ} {traded : LegState}
    (h : prepared.trade doubler roundTripContext 2 (roundTrip.take k) = .ok traded) :
    HonestLegs roundTripContext traded :=
  twoLegs_honest ⟨_, _, _, rfl, rfl, rfl⟩ ⟨_, _, _, rfl, rfl, rfl⟩ h

end Sample

open Sample in
theorem execute_passesOn_sample :
    ∃ run, execute runtime doubler roundTripContext 500 2 roundTrip bank = .ok run ∧
      run.traded.legs.map LegRecord.inputAmount ++ [run.payout.userOutput] =
        run.credit runtime roundTripContext 2 ::
          run.traded.legs.map (LegRecord.credited roundTripContext) := by
  have hruns : ∃ run, execute runtime doubler roundTripContext 500 2 roundTrip bank = .ok run :=
    exists_of_isOk (by decide +kernel)
  obtain ⟨run, hrun⟩ := hruns
  obtain ⟨inputMint, inputDecimals, hspec⟩ := prepare_spec (execute_eq_ok.mp hrun).prepares
  have hinput : InputOutsideCustody roundTripContext run.toPrepared := by
    have hkept : SameContents (bank userBase) (run.opened.bank userBase) :=
      createMissingAtas_sameContents hspec.opens (by decide +kernel)
    have hforeign : isTitanPdaTokenAccount (bank userBase) titanPda = false := by decide +kernel
    exact (isTitanPda_of_sameContents hkept).trans hforeign
  exact ⟨run, hrun, execute_passesOn hrun (roundTrip_honest (k := 2) (execute_eq_ok.mp hrun).trades)
    (distinctAtas rfl rfl) hinput ⟨by simp [roundTrip], by decide, by decide⟩⟩

end QuayTitan.Route
