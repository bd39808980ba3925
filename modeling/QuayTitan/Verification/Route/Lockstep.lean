import QuayTitan.Verification.Route.Leftovers

/-! # Two executions in lockstep -/

namespace QuayTitan.Route

open ByteFields Fallible

variable {rt : Runtime}

/-! ## Venues that see only their own state -/

/-- What a leg asked of its venue. -/
def LegRecord.call (record : LegRecord) : SwapSpecInputV2 × ℕ × Option Invocation :=
  (record.swap, record.inputAmount, record.invocation)

/-- The output of a call depends on the call and on the accounts of the venues. -/
def OutputsFrom (own : Set Pubkey) (ctx : Context) (st st' : LegState) : Prop :=
  ∀ (k : ℕ) (record record' : LegRecord), st.legs[k]? = some record →
    st'.legs[k]? = some record' → record.invocation.isSome = true → record'.call = record.call →
    (∀ key ∈ own, record'.before key = record.before key) →
    record'.credited ctx = record.credited ctx ∧
      ∀ key ∈ own, record'.after key = record.after key

/-- The accounts of the venues are none of the accounts the instruction itself moves. -/
def VenuesApart (own : Set Pubkey) (ctx : Context) (mintsCount : ℕ) : Prop :=
  ∀ key ∈ own, (∀ index < mintsCount, ctx.keyAt index ≠ key) ∧ key ≠ ctx.accounts.payer ∧
    key ≠ ctx.accounts.user ∧ key ≠ ctx.accounts.inputTokenAccount

/-! ## Banks at one distance from their snapshots -/

structure Aligned (own : Set Pubkey) (ctx : Context) (mintsCount : ℕ)
    (opened opened' bank bank' : Bank) : Prop where
  own_eq : ∀ key ∈ own, bank' key = bank key
  left : ∀ index < mintsCount, Rebalanced (opened (ctx.keyAt index)) (bank (ctx.keyAt index))
    (tokenAmount (bank (ctx.keyAt index)))
  right : ∀ index < mintsCount, Rebalanced (opened' (ctx.keyAt index))
    (bank' (ctx.keyAt index)) (tokenAmount (bank' (ctx.keyAt index)))
  offset : ∀ index < mintsCount,
    tokenAmount (bank (ctx.keyAt index)) + tokenAmount (opened' (ctx.keyAt index)) =
      tokenAmount (bank' (ctx.keyAt index)) + tokenAmount (opened (ctx.keyAt index))

section Pair

variable {ctx : Context} {amount : UInt64} {mints : UInt8} {swaps : List SwapSpecInputV2}
  {bank bank' : Bank} {inputMint inputMint' : AccountInfo}
  {inputDecimals inputDecimals' : UInt8} {prepared prepared' : Prepared} {own : Set Pubkey}

theorem Prepares.deposited_slot
    (h : Prepares rt ctx amount mints swaps bank inputMint inputDecimals prepared)
    (hinput : ∀ index < mints.toNat, ctx.keyAt index ≠ ctx.accounts.inputTokenAccount)
    {index : ℕ} (hindex : index < mints.toNat) :
    Rebalanced (prepared.opened.bank (ctx.keyAt index)) (prepared.deposited (ctx.keyAt index))
      (tokenAmount (prepared.opened.bank (ctx.keyAt index)) +
        if ctx.keyAt index = ctx.keyAt 0 then prepared.credit rt ctx mints else 0) := by
  have hpos : 0 < mints.toNat := by omega
  obtain ⟨first, hfirst, _⟩ := h.routeAta hpos
  have hmint : ctx.mint mints 0 = inputMint.key := Context.keyAt_eq h.input_mint
  rw [Context.keyAt_eq hfirst, Prepared.credit, hmint]
  exact deposit_rebalanced h.deposits hfirst (h.slot_titan hindex) (hinput index hindex)

theorem Prepares.deposited_frame
    (h : Prepares rt ctx amount mints swaps bank inputMint inputDecimals prepared)
    (hapart : VenuesApart own ctx mints.toNat) {key : Pubkey} (hkey : key ∈ own) :
    prepared.deposited key = bank key := by
  obtain ⟨hslots, hpayer, huser, hinput⟩ := hapart key hkey
  have hpos : 0 < mints.toNat := by
    have hone := h.shaped.one_lt_mints
    omega
  obtain ⟨first, hfirst, _⟩ := h.routeAta hpos
  have hne : key ≠ first.key := by
    rw [← Context.keyAt_eq hfirst]
    exact (hslots 0 hpos).symm
  rw [deposit_frame h.deposits hfirst hne hinput huser hpayer,
    ((createMissingAtas_loop h.opens).elsewhere key hslots).2 hpayer]

theorem PreparedPair.aligned
    (h : PreparedPair rt ctx amount mints swaps bank bank' inputMint inputMint' inputDecimals
      inputDecimals' prepared prepared') (hapart : VenuesApart own ctx mints.toNat) :
    Aligned own ctx mints.toNat prepared.opened.bank prepared'.opened.bank prepared.deposited
      prepared'.deposited := by
  refine ⟨fun key hkey => ?_, fun index hindex => ?_, fun index hindex => ?_,
    fun index hindex => ?_⟩
  · rw [h.left.deposited_frame hapart hkey, h.right.deposited_frame hapart hkey,
      h.leftovers.elsewhere key (hapart key hkey).1]
  · have hslot := h.left.deposited_slot h.input_ne hindex
    rwa [tokenAmount_of_rebalanced hslot]
  · have hslot := h.right.deposited_slot h.input_ne hindex
    rwa [tokenAmount_of_rebalanced hslot]
  · rw [tokenAmount_of_rebalanced (h.left.deposited_slot h.input_ne hindex),
      tokenAmount_of_rebalanced (h.right.deposited_slot h.input_ne hindex), h.credit_eq]
    omega

/-! ## The legs -/

/-- Two leg loops at the same leg. -/
structure Lockstep (own : Set Pubkey) (ctx : Context) (mintsCount : ℕ)
    (opened opened' : Bank) (st st' : LegState) : Prop where
  index_eq : st'.remainingAccountIndex = st.remainingAccountIndex
  calls_eq : st'.legs.map LegRecord.call = st.legs.map LegRecord.call
  aligned : Aligned own ctx mintsCount opened opened' st.bank st'.bank

theorem Aligned.titan {mintsCount index : ℕ} {opened opened' bank bank' : Bank}
    (h : Aligned own ctx mintsCount opened opened' bank bank') (hindex : index < mintsCount)
    (htitan : isTitanPdaTokenAccount (opened (ctx.keyAt index)) ctx.accounts.titanPda = true)
    (htitan' : isTitanPdaTokenAccount (opened' (ctx.keyAt index)) ctx.accounts.titanPda = true) :
    isTitanPdaTokenAccount (bank (ctx.keyAt index)) ctx.accounts.titanPda = true ∧
      isTitanPdaTokenAccount (bank' (ctx.keyAt index)) ctx.accounts.titanPda = true :=
  ⟨isTitanPda_of_rebalanced (h.left index hindex) htitan,
    isTitanPda_of_rebalanced (h.right index hindex) htitan'⟩

/-- Two honest calls with one input and one credit keep the distance. -/
theorem Aligned.calls {mintsCount : ℕ} {opened opened' before before' after after' : Bank}
    {source target : Pubkey} {amount credit : ℕ}
    (h : Aligned own ctx mintsCount opened opened' before before')
    (hown : ∀ key ∈ own, after' key = after key)
    (hleft : HonestCall ctx.accounts.titanPda source target amount credit before after)
    (hright : HonestCall ctx.accounts.titanPda source target amount credit before' after')
    (htitan : ∀ index < mintsCount,
      isTitanPdaTokenAccount (opened (ctx.keyAt index)) ctx.accounts.titanPda = true ∧
      isTitanPdaTokenAccount (opened' (ctx.keyAt index)) ctx.accounts.titanPda = true) :
    Aligned own ctx mintsCount opened opened' after after' := by
  refine ⟨hown, fun index hindex => ?_, fun index hindex => ?_, fun index hindex => ?_⟩ <;>
    obtain ⟨hheld, hheld'⟩ := h.titan hindex (htitan index hindex).1 (htitan index hindex).2
  · rw [hleft.tokenAmount_after hheld]
    exact (h.left index hindex).trans (hleft.moved _ hheld)
  · rw [hright.tokenAmount_after hheld']
    exact (h.right index hindex).trans (hright.moved _ hheld')
  · have hoffset := h.offset index hindex
    rw [hleft.tokenAmount_after hheld, hright.tokenAmount_after hheld']
    by_cases hs : ctx.keyAt index = source
    · have hfunds := hleft.funded
      have hfunds' := hright.funded
      rw [← hs] at hfunds hfunds'
      simp only [hs, if_true] at hoffset hfunds hfunds' ⊢
      omega
    · simp only [hs, if_false]
      omega

section Leg

variable {venue : VenueProgram} {mintsCount number : ℕ} {opened opened' : Bank}
  {reservedBalances reservedBalances' : List ℕ} {swap : SwapSpecInputV2}
  {st st' mid mid' : LegState} {record record' : LegRecord}

/-- The two legs spend the same: the snapshots are as far apart as the balances. -/
theorem Lockstep.inputAmount_eq (h : Lockstep own ctx mintsCount opened opened' st st')
    (hspec : LegSpec venue ctx reservedBalances number swap st mid record)
    (hspec' : LegSpec venue ctx reservedBalances' number swap st' mid' record')
    (hfrom : swap.from.toNat < mintsCount)
    (hslot : RouteSlot ctx opened reservedBalances swap.from)
    (hslot' : RouteSlot ctx opened' reservedBalances' swap.from) :
    record'.inputAmount = record.inputAmount := by
  obtain ⟨info, reserved, hinfo, hreserved, hinput⟩ := hspec.input
  obtain ⟨info', reserved', hinfo', hreserved', hinput'⟩ := hspec'.input
  obtain rfl := Option.some.inj (hinfo.symm.trans hinfo')
  obtain rfl := Option.some.inj (hslot.reserved.symm.trans hreserved)
  obtain rfl := Option.some.inj (hslot'.reserved.symm.trans hreserved')
  have hoffset := h.aligned.offset _ hfrom
  rw [hinput, hinput', ← Context.keyAt_eq hinfo]
  congr 1
  simp only [Context.ata]
  omega

theorem Lockstep.call_eq (h : Lockstep own ctx mintsCount opened opened' st st')
    (hspec : LegSpec venue ctx reservedBalances number swap st mid record)
    (hspec' : LegSpec venue ctx reservedBalances' number swap st' mid' record')
    (hinput : record'.inputAmount = record.inputAmount) : record'.call = record.call := by
  simp only [LegRecord.call, hspec.swap_eq, hspec'.swap_eq, hinput, Prod.mk.injEq, true_and]
  rcases hspec.outcome with ⟨hzero, hnone, _⟩ | ⟨hpos, _, hsome, hslice, _⟩
  · rcases hspec'.outcome with ⟨_, hnone', _⟩ | ⟨hpos', _⟩
    · rw [hnone, hnone']
    · omega
  · rcases hspec'.outcome with ⟨hzero', _⟩ | ⟨_, _, hsome', hslice', _⟩
    · omega
    · rw [hsome, hsome', hslice, hslice', h.index_eq]

theorem Lockstep.before_eq (h : Lockstep own ctx mintsCount opened opened' st st')
    (hspec : LegSpec venue ctx reservedBalances number swap st mid record)
    (hspec' : LegSpec venue ctx reservedBalances' number swap st' mid' record') :
    ∀ key ∈ own, record'.before key = record.before key := by
  rw [hspec.before_eq, hspec'.before_eq]
  exact h.aligned.own_eq

/-- Legs that spend nothing leave their banks alone; the others agree by the venue. -/
theorem LegSpec.outputs_eq (hspec : LegSpec venue ctx reservedBalances number swap st mid record)
    (hspec' : LegSpec venue ctx reservedBalances' number swap st' mid' record')
    (hinput : record'.inputAmount = record.inputAmount)
    (hbefore : ∀ key ∈ own, record'.before key = record.before key)
    (hvenue : record.invocation.isSome = true →
      record'.credited ctx = record.credited ctx ∧
        ∀ key ∈ own, record'.after key = record.after key) :
    record'.credited ctx = record.credited ctx ∧
      ∀ key ∈ own, record'.after key = record.after key := by
  rcases hspec.outcome with ⟨hzero, _, hsame⟩ | ⟨_, invocation, hsome, _⟩
  · rcases hspec'.outcome with ⟨_, _, hsame'⟩ | ⟨hpos', _⟩
    · have hafter : record.after = record.before := by
        rw [hspec.after_eq, hspec.before_eq, hsame]
      have hafter' : record'.after = record'.before := by
        rw [hspec'.after_eq, hspec'.before_eq, hsame']
      rw [hafter, hafter']
      refine ⟨?_, hbefore⟩
      simp [LegRecord.credited, hafter, hafter', hinput, hzero]
    · omega
  · exact hvenue (by rw [hsome]; rfl)

theorem Lockstep.leg (h : Lockstep own ctx mintsCount opened opened' st st')
    (hspec : LegSpec venue ctx reservedBalances number swap st mid record)
    (hspec' : LegSpec venue ctx reservedBalances' number swap st' mid' record')
    (hfrom : swap.from.toNat < mintsCount) (hto : swap.to.toNat < mintsCount)
    (hslot : RouteSlot ctx opened reservedBalances swap.from)
    (hslot' : RouteSlot ctx opened' reservedBalances' swap.from)
    (htitan : ∀ index < mintsCount,
      isTitanPdaTokenAccount (opened (ctx.keyAt index)) ctx.accounts.titanPda = true ∧
      isTitanPdaTokenAccount (opened' (ctx.keyAt index)) ctx.accounts.titanPda = true)
    (honest : HonestLeg ctx record) (honest' : HonestLeg ctx record')
    (hvenue : record.invocation.isSome = true → record'.call = record.call →
      (∀ key ∈ own, record'.before key = record.before key) →
      record'.credited ctx = record.credited ctx ∧
        ∀ key ∈ own, record'.after key = record.after key) :
    Lockstep own ctx mintsCount opened opened' mid mid' := by
  have hinput := h.inputAmount_eq hspec hspec' hfrom hslot hslot'
  have hcall := h.call_eq hspec hspec' hinput
  have hbefore := h.before_eq hspec hspec'
  obtain ⟨hcredit, hown⟩ := hspec.outputs_eq hspec' hinput hbefore fun hsome =>
    hvenue hsome hcall hbefore
  have hsource : record'.source ctx = record.source ctx := by
    rw [LegRecord.source, LegRecord.source, hspec.swap_eq, hspec'.swap_eq]
  have htarget : record'.target ctx = record.target ctx := by
    rw [LegRecord.target, LegRecord.target, hspec.swap_eq, hspec'.swap_eq]
  have htargetKey : record.target ctx = ctx.keyAt swap.to.toNat := by
    rw [LegRecord.target, hspec.swap_eq, Context.ata]
  obtain ⟨hheld, hheld'⟩ := h.aligned.titan hto (htitan _ hto).1 (htitan _ hto).2
  rw [← htargetKey] at hheld hheld'
  have hleft := hspec.honestCall honest (by rw [hspec.before_eq]; exact hheld)
  have hright := hspec'.honestCall honest' (by rw [hspec'.before_eq, htarget]; exact hheld')
  rw [hcredit, hinput, hsource, htarget, hspec'.before_eq, hspec'.after_eq] at hright
  rw [hspec.before_eq, hspec.after_eq] at hleft
  rw [hspec.after_eq, hspec'.after_eq] at hown
  refine ⟨?_, ?_, h.aligned.calls hown hleft hright htitan⟩
  · rw [hspec.index_eq, hspec'.index_eq, h.index_eq]
  · rw [hspec.legs_eq, hspec'.legs_eq, List.map_append, List.map_append, h.calls_eq,
      List.map_singleton, List.map_singleton, hcall]

end Leg

/-- The slots of two prepared executions, as their leg loops see them. -/
structure SlotsOf (ctx : Context) (mintsCount : ℕ) (swaps : List SwapSpecInputV2)
    (opened : Bank) (reservedBalances : List ℕ) : Prop where
  within : ∀ swap ∈ swaps, swap.from.toNat < mintsCount ∧ swap.to.toNat < mintsCount
  slot : ∀ swap ∈ swaps, RouteSlot ctx opened reservedBalances swap.from
  titan : ∀ index < mintsCount,
    isTitanPdaTokenAccount (opened (ctx.keyAt index)) ctx.accounts.titanPda = true

theorem Prepares.slotsOf
    (h : Prepares rt ctx amount mints swaps bank inputMint inputDecimals prepared) :
    SlotsOf ctx mints.toNat swaps prepared.opened.bank prepared.snapshot.reservedBalances :=
  ⟨fun swap hswap => ⟨h.shaped.from_lt swap hswap, h.shaped.to_lt swap hswap⟩,
    fun swap hswap => h.routeSlot (h.shaped.from_lt swap hswap),
    fun _ hindex => h.slot_titan hindex⟩

theorem getElem?_of_extends {α : Type*} {front whole : List α} {a : α}
    (h : front ++ [a] <+: whole) : whole[front.length]? = some a := by
  obtain ⟨rest, rfl⟩ := h
  simp

/-- Two leg loops that start in lockstep end in lockstep. -/
theorem Lockstep.run {venue : VenueProgram} {mintsCount leg : ℕ} {opened opened' : Bank}
    {reservedBalances reservedBalances' : List ℕ} {st st' last last' : LegState}
    (hslots : SlotsOf ctx mintsCount swaps opened reservedBalances)
    (hslots' : SlotsOf ctx mintsCount swaps opened' reservedBalances')
    (honest : HonestLegs ctx last) (honest' : HonestLegs ctx last')
    (hvenue : OutputsFrom own ctx last last')
    (h : Lockstep own ctx mintsCount opened opened' st st')
    (hrun : runLegs venue ctx reservedBalances swaps leg st = .ok last)
    (hrun' : runLegs venue ctx reservedBalances' swaps leg st' = .ok last') :
    Lockstep own ctx mintsCount opened opened' last last' := by
  induction swaps generalizing leg st st' with
  | nil =>
      rw [runLegs, pure_eq_ok] at hrun hrun'
      exact hrun ▸ hrun' ▸ h
  | cons swap rest ih =>
      simp only [runLegs, bind_eq_ok] at hrun hrun'
      obtain ⟨mid, hhead, htail⟩ := hrun
      obtain ⟨mid', hhead', htail'⟩ := hrun'
      obtain ⟨record, hspec⟩ := runLeg_spec hhead
      obtain ⟨record', hspec'⟩ := runLeg_spec hhead'
      have hgrows := runLegs_extends htail
      have hgrows' := runLegs_extends htail'
      rw [hspec.legs_eq] at hgrows
      rw [hspec'.legs_eq] at hgrows'
      have hlength : st'.legs.length = st.legs.length := by
        simpa using congrArg List.length h.calls_eq
      have hget' := getElem?_of_extends hgrows'
      rw [hlength] at hget'
      have hwithin := hslots.within swap (by simp)
      refine ih ⟨fun other hother => hslots.within other (by simp [hother]),
          fun other hother => hslots.slot other (by simp [hother]), hslots.titan⟩
        ⟨fun other hother => hslots'.within other (by simp [hother]),
          fun other hother => hslots'.slot other (by simp [hother]), hslots'.titan⟩ ?_ htail htail'
      exact h.leg hspec hspec' hwithin.1 hwithin.2 (hslots.slot swap (by simp))
        (hslots'.slot swap (by simp))
        (fun index hindex => ⟨hslots.titan index hindex, hslots'.titan index hindex⟩)
        (honest record (hgrows.subset (by simp))) (honest' record' (hgrows'.subset (by simp)))
        (hvenue _ record record' (getElem?_of_extends hgrows) hget')

/-! ## The payouts -/

/-- The output of a route is named by the instruction alone. -/
theorem Prepares.output_congr {inputMint' : AccountInfo} {inputDecimals' : UInt8}
    {prepared' : Prepared}
    (h : Prepares rt ctx amount mints swaps bank inputMint inputDecimals prepared)
    (h' : Prepares rt ctx amount mints swaps bank' inputMint' inputDecimals' prepared') :
    prepared'.outputAtaIndex = prepared.outputAtaIndex ∧
      prepared'.outputMint = prepared.outputMint := by
  obtain ⟨last, hlast, hindex⟩ := h.output_index
  obtain ⟨last', hlast', hindex'⟩ := h'.output_index
  obtain rfl := Option.some.inj (hlast.symm.trans hlast')
  obtain ⟨info, hinfo, hkey⟩ := h.output_mint
  obtain ⟨info', hinfo', hkey'⟩ := h'.output_mint
  rw [hindex', ← hindex, hinfo] at hinfo'
  exact ⟨hindex'.trans hindex.symm, by rw [← hkey, ← hkey', Option.some.inj hinfo']⟩

/-- A payout that moves something is made under the program that holds the account. -/
theorem PayoutSpec.program_iff {outputAtaIndex : ℕ} {outputMint : Pubkey}
    {outputDecimals : UInt8} {reservedBalances : List ℕ} {outputAta : AccountInfo}
    {reserved : ℕ} {payout : Payout}
    (h : PayoutSpec rt ctx outputAtaIndex outputMint outputDecimals reservedBalances bank
      outputAta reserved payout) (hpaid : 0 < payout.userOutput) :
    ctx.tokenProgramFor (bank outputMint) = token2022Id ↔
      (bank outputAta.key).owner = token2022Id := by
  have hdata : (bank outputAta.key).data ≠ [] := by
    intro hnil
    have hraw := h.raw_eq
    rw [hnil] at hraw
    simp [getLE, getField] at hraw
  rcases transferTokens_spec h.pays with ⟨hzero, _⟩ | ⟨_, src, dst, hspec⟩
  · omega
  · have howner := hspec.source_unpacks.owner_eq
    rw [(h.ready _ hdata).owner_eq] at howner
    rw [howner]
    split
    · rename_i hprogram
      simp [hprogram]
    · rename_i hprogram
      simp [hprogram, splTokenId_ne_token2022Id]

section Payouts

variable {mintsCount outputAtaIndex : ℕ} {opened opened' : Bank} {outputMint : Pubkey}
  {outputDecimals outputDecimals' : UInt8} {reservedBalances reservedBalances' : List ℕ}
  {outputAta : AccountInfo} {payout payout' : Payout}

theorem Aligned.userOutput_eq (h : Aligned own ctx mintsCount opened opened' bank bank')
    (hlt : outputAtaIndex < mintsCount)
    (hpays : PayoutSpec rt ctx outputAtaIndex outputMint outputDecimals reservedBalances bank
      outputAta (tokenAmount (opened outputAta.key)) payout)
    (hpays' : PayoutSpec rt ctx outputAtaIndex outputMint outputDecimals' reservedBalances'
      bank' outputAta (tokenAmount (opened' outputAta.key)) payout') :
    payout'.userOutput = payout.userOutput := by
  have hoffset := h.offset outputAtaIndex hlt
  rw [Context.keyAt_eq hpays.output_ata, tokenAmount_of_getLE hpays.raw_eq,
    tokenAmount_of_getLE hpays'.raw_eq] at hoffset
  rw [hpays.output_eq, hpays'.output_eq]
  omega

/-- Nothing is paid out, or the same program withholds the same fee. -/
theorem Aligned.received_eq (h : Aligned own ctx mintsCount opened opened' bank bank')
    (hlt : outputAtaIndex < mintsCount)
    (howner : (opened' outputAta.key).owner = (opened outputAta.key).owner)
    (hpays : PayoutSpec rt ctx outputAtaIndex outputMint outputDecimals reservedBalances bank
      outputAta (tokenAmount (opened outputAta.key)) payout)
    (hpays' : PayoutSpec rt ctx outputAtaIndex outputMint outputDecimals' reservedBalances'
      bank' outputAta (tokenAmount (opened' outputAta.key)) payout') :
    payout'.userOutput -
        routeFee rt (ctx.tokenProgramFor (bank' outputMint)) outputMint payout'.userOutput =
      payout.userOutput -
        routeFee rt (ctx.tokenProgramFor (bank outputMint)) outputMint payout.userOutput := by
  have houtput := h.userOutput_eq hlt hpays hpays'
  rcases Nat.eq_zero_or_pos payout.userOutput with hzero | hpos
  · rw [houtput, hzero, Nat.zero_sub, Nat.zero_sub]
  · have hleft := h.left outputAtaIndex hlt
    have hright := h.right outputAtaIndex hlt
    rw [Context.keyAt_eq hpays.output_ata] at hleft hright
    have hprogram : ctx.tokenProgramFor (bank outputMint) = token2022Id ↔
        ctx.tokenProgramFor (bank' outputMint) = token2022Id := by
      rw [hpays.program_iff hpos, hpays'.program_iff (by omega), hleft.owner_eq,
        hright.owner_eq, howner]
    simp only [houtput, routeFee, hprogram]

/-- The payouts of two aligned executions move the same amounts. -/
theorem Aligned.payouts (h : Aligned own ctx mintsCount opened opened' bank bank')
    (hlt : outputAtaIndex < mintsCount)
    (htitan : ∀ index < mintsCount,
      isTitanPdaTokenAccount (opened (ctx.keyAt index)) ctx.accounts.titanPda = true ∧
      isTitanPdaTokenAccount (opened' (ctx.keyAt index)) ctx.accounts.titanPda = true)
    (howner : (opened' outputAta.key).owner = (opened outputAta.key).owner)
    (hpays : PayoutSpec rt ctx outputAtaIndex outputMint outputDecimals reservedBalances bank
      outputAta (tokenAmount (opened outputAta.key)) payout)
    (hpays' : PayoutSpec rt ctx outputAtaIndex outputMint outputDecimals' reservedBalances'
      bank' outputAta (tokenAmount (opened' outputAta.key)) payout') :
    ∀ index < mintsCount,
      tokenAmount (payout.paid (ctx.keyAt index)) + tokenAmount (opened' (ctx.keyAt index)) =
        tokenAmount (payout'.paid (ctx.keyAt index)) +
          tokenAmount (opened (ctx.keyAt index)) := by
  intro index hindex
  obtain ⟨hheld, hheld'⟩ := h.titan hindex (htitan index hindex).1 (htitan index hindex).2
  have hoffset := h.offset index hindex
  have hraw := tokenAmount_of_getLE hpays.raw_eq
  have hraw' := tokenAmount_of_getLE hpays'.raw_eq
  have hoffsetOut := h.offset outputAtaIndex hlt
  rw [Context.keyAt_eq hpays.output_ata, hraw, hraw'] at hoffsetOut
  have houtput := hpays.output_eq
  rw [hpays.tokenAmount_paid hheld, hpays'.tokenAmount_paid hheld',
    h.received_eq hlt howner hpays hpays', h.userOutput_eq hlt hpays hpays']
  unfold transferredAmount
  split
  · exact hoffset
  · split
    · rename_i hsource
      rw [hsource, hraw, hraw']
      omega
    · split
      · omega
      · exact hoffset

end Payouts

end Pair

/-! ## Leftovers do not influence a route -/

/-- What TitanPDA held before the route shows in no input, in no payout and in no change of
a balance. An account starts with its balance in the initial state; one that does not exist
yet starts empty, but for prefunded wrapped SOL. -/
theorem execute_ignoresLeftovers (rt : Runtime) (venue : VenueProgram) (ctx : Context)
    (amount : UInt64) (mints : UInt8) (swaps : List SwapSpecInputV2) (bank bank' : Bank)
    (own : Set Pubkey) (run run' : RouteRun)
    (hrun : execute rt venue ctx amount mints swaps bank = .ok run)
    (hrun' : execute rt venue ctx amount mints swaps bank' = .ok run')
    (hleftovers : SameUpToLeftovers ctx mints.toNat bank bank')
    (hinput : ∀ index < mints.toNat, ctx.keyAt index ≠ ctx.accounts.inputTokenAccount)
    (hapart : VenuesApart own ctx mints.toNat) (honest : HonestLegs ctx run.traded)
    (honest' : HonestLegs ctx run'.traded)
    (hvenue : OutputsFrom own ctx run.traded run'.traded) :
    run'.traded.legs.map LegRecord.call = run.traded.legs.map LegRecord.call ∧
    run'.payout.userOutput = run.payout.userOutput ∧
    (∀ index < mints.toNat,
      tokenAmount (run.final (ctx.keyAt index)) +
          tokenAmount (run'.opened.bank (ctx.keyAt index)) =
        tokenAmount (run'.final (ctx.keyAt index)) +
          tokenAmount (run.opened.bank (ctx.keyAt index))) ∧
    ∀ index < mints.toNat,
      (¬PrefundedSol ctx mints.toNat bank (ctx.keyAt index) →
        tokenAmount (run.opened.bank (ctx.keyAt index)) = tokenAmount (bank (ctx.keyAt index))) ∧
      (¬PrefundedSol ctx mints.toNat bank' (ctx.keyAt index) →
        tokenAmount (run'.opened.bank (ctx.keyAt index)) =
          tokenAmount (bank' (ctx.keyAt index))) := by
  have hexecutes := execute_eq_ok.mp hrun
  have hexecutes' := execute_eq_ok.mp hrun'
  obtain ⟨inputMint, inputDecimals, hspec⟩ := prepare_spec hexecutes.prepares
  obtain ⟨inputMint', inputDecimals', hspec'⟩ := prepare_spec hexecutes'.prepares
  have hpair : PreparedPair rt ctx amount mints swaps bank bank' inputMint inputMint'
      inputDecimals inputDecimals' run.toPrepared run'.toPrepared :=
    ⟨hspec, hspec', hleftovers, hinput⟩
  have hlegs : Lockstep own ctx mints.toNat run.opened.bank run'.opened.bank run.traded
      run'.traded := by
    refine Lockstep.run hspec.slotsOf hspec'.slotsOf honest honest' hvenue ?_ hexecutes.trades
      hexecutes'.trades
    exact ⟨rfl, rfl, hpair.aligned hapart⟩
  obtain ⟨outputAta, htitan, hpays⟩ := hspec.outputSlot hexecutes.pays
  obtain ⟨outputAta', _, hpays'⟩ := hspec'.outputSlot hexecutes'.pays
  obtain ⟨hindex, hmint⟩ := hspec.output_congr hspec'
  rw [hindex, hmint] at hpays'
  obtain rfl := Option.some.inj (hpays.output_ata.symm.trans hpays'.output_ata)
  have howner := hpair.slot_owner hspec.outputAtaIndex_lt
  rw [Context.keyAt_eq hpays.output_ata] at howner
  have houtput := hlegs.aligned.userOutput_eq hspec.outputAtaIndex_lt hpays hpays'
  have hpaid := hlegs.aligned.payouts hspec.outputAtaIndex_lt
    (fun index hlt => ⟨hspec.slot_titan hlt, hspec'.slot_titan hlt⟩) howner hpays hpays'
  refine ⟨hlegs.calls_eq, houtput, fun index hlt => ?_, fun index hlt => ?_⟩
  · rw [RouteRun.final, RouteRun.final, tokenAmount_closeCreatedAtas hexecutes.closes,
      tokenAmount_closeCreatedAtas hexecutes'.closes]
    exact hpaid index hlt
  · obtain ⟨horigin, horigin'⟩ := hpair.origins hlt
    exact ⟨horigin.tokenAmount_eq, horigin'.tokenAmount_eq⟩

/-! ## Two states of the sample route -/

namespace Sample

def market : Pubkey := key 12

/-- The exchange is handed the account of its market. -/
def marketContext : Context where
  accounts := accounts
  remainingAccounts := [info baseAta, info quoteAta, info baseMint, info quoteMint,
    info baseAta, info quoteAta, info market, info Quay.programId]

def marketSale : SwapSpecInputV2 := ⟨.quay true, 0, 1, 1000000000, 4⟩

def marketBank (base quote : Account) : Bank :=
  Function.update (bankWith base quote) market ⟨1, zeros 8, Quay.programId⟩

/-- TitanPDA holds both mints. -/
def heldBank : Bank := marketBank (holding baseMint titanPda 30) (holding quoteMint titanPda 40)

/-- TitanPDA holds less of the base mint and has no account for the quote mint. -/
def otherBank : Bank := marketBank (holding baseMint titanPda 5) .absent

theorem execute_heldBank_ok :
    ∃ run, execute runtime doubler marketContext 500 2 [marketSale] heldBank = .ok run :=
  exists_of_isOk (by decide +kernel)

theorem execute_otherBank_ok :
    ∃ run, execute runtime doubler marketContext 500 2 [marketSale] otherBank = .ok run :=
  exists_of_isOk (by decide +kernel)

theorem marketSale_own : StartsWithOwn marketContext 4 marketSale := ⟨_, _, _, rfl, rfl, rfl⟩

theorem marketBank_elsewhere {base quote base' quote' : Account} {key : Pubkey}
    (hbase : key ≠ baseAta) (hquote : key ≠ quoteAta) :
    marketBank base' quote' key = marketBank base quote key := by
  by_cases hmarket : key = market
  · rw [hmarket, marketBank, marketBank, Function.update_self, Function.update_self]
  · rw [marketBank, marketBank, Function.update_of_ne hmarket, Function.update_of_ne hmarket,
      bankWith, bankWith, Function.update_of_ne hquote, Function.update_of_ne hbase,
      Function.update_of_ne hquote, Function.update_of_ne hbase]

theorem sameUpToLeftovers : SameUpToLeftovers marketContext 2 heldBank otherBank := by
  refine ⟨fun index hindex => ?_, fun key hkey => ?_⟩
  · obtain rfl | rfl : index = 0 ∨ index = 1 := by omega
    · refine .balance ⟨by decide +kernel, by decide +kernel, by decide +kernel, 5, ?_⟩
      decide +kernel
    · exact .first ⟨by decide +kernel, by decide +kernel, by decide +kernel⟩
  · exact marketBank_elsewhere (hkey 0 (by omega)).symm (hkey 1 (by omega)).symm

/-- The market is none of the accounts that the instruction moves. -/
theorem market_apart : VenuesApart {market} marketContext 2 := by
  intro key hkey
  obtain rfl := Set.mem_singleton_iff.mp hkey
  decide +kernel

theorem marketContext_input : ∀ index < (2 : UInt8).toNat,
    marketContext.keyAt index ≠ marketContext.accounts.inputTokenAccount := by decide +kernel

/-- What the exchange pays is twice its input, whatever the state, and the market stays as it
is. -/
theorem outputsFrom_market {bank bank' : Bank} {prepared prepared' : Prepared}
    {traded traded' : LegState}
    (hprepared : prepare runtime marketContext 500 2 [marketSale] bank = .ok prepared)
    (hprepared' : prepare runtime marketContext 500 2 [marketSale] bank' = .ok prepared')
    (htraded : prepared.trade doubler marketContext 2 [marketSale] = .ok traded)
    (htraded' : prepared'.trade doubler marketContext 2 [marketSale] = .ok traded') :
    OutputsFrom {market} marketContext traded traded' := by
  have hleg {bank : Bank} {prepared : Prepared} {traded : LegState} {record : LegRecord}
      (hprepared : prepare runtime marketContext 500 2 [marketSale] bank = .ok prepared)
      (htraded : prepared.trade doubler marketContext 2 [marketSale] = .ok traded)
      (hrecord : record ∈ traded.legs) (hcalled : record.invocation.isSome = true) :
      record.credited marketContext = 2 * record.inputAmount ∧
        record.after market = record.before market := by
    obtain ⟨hdoubled, hbefore⟩ := doubled_trade marketSale_own htraded record hrecord
    obtain ⟨invocation, hinvocation⟩ := Option.isSome_iff_exists.mp hcalled
    obtain ⟨inputMint, inputDecimals, hspec⟩ := prepare_spec hprepared
    have hswap : record.swap ∈ [marketSale] := by
      rw [← trade_swaps htraded]
      exact List.mem_map_of_mem hrecord
    have hsale := List.mem_singleton.mp hswap
    obtain ⟨hapart, _⟩ := market_apart market rfl
    refine ⟨LegRecord.credited_of_call (hdoubled.paid invocation hinvocation) ?_,
      hdoubled.frame market ?_ ?_⟩
    · rw [hbefore, LegRecord.target, hsale]
      exact isTitanPda_of_rebalanced
        (hspec.deposited_slot marketContext_input (show 1 < _ by decide))
        (hspec.slot_titan (by decide))
    · rw [LegRecord.source, hsale]
      exact (hapart 0 (by omega)).symm
    · rw [LegRecord.target, hsale]
      exact (hapart 1 (by omega)).symm
  intro k record record' hget hget' hcalled hcall hown
  have hinputs : record'.inputAmount = record.inputAmount := congrArg (fun call => call.2.1) hcall
  have hcalled' : record'.invocation.isSome = true := by
    rw [show record'.invocation = record.invocation from congrArg (fun call => call.2.2) hcall]
    exact hcalled
  obtain ⟨hcredited, hkept⟩ := hleg hprepared htraded (List.mem_of_getElem? hget) hcalled
  obtain ⟨hcredited', hkept'⟩ := hleg hprepared' htraded' (List.mem_of_getElem? hget') hcalled'
  refine ⟨by rw [hcredited, hcredited', hinputs], fun key hkey => ?_⟩
  have hmarket := hown key hkey
  obtain rfl := Set.mem_singleton_iff.mp hkey
  rw [hkept, hkept', hmarket]

end Sample

open Sample in
theorem execute_ignoresLeftovers_sample :
    ∃ run run', execute runtime doubler marketContext 500 2 [marketSale] heldBank = .ok run ∧
      execute runtime doubler marketContext 500 2 [marketSale] otherBank = .ok run' ∧
      run'.traded.legs.map LegRecord.call = run.traded.legs.map LegRecord.call ∧
      run'.payout.userOutput = run.payout.userOutput := by
  obtain ⟨run, hrun⟩ := execute_heldBank_ok
  obtain ⟨run', hrun'⟩ := execute_otherBank_ok
  have hexecutes := execute_eq_ok.mp hrun
  have hexecutes' := execute_eq_ok.mp hrun'
  obtain ⟨hcalls, houtput, _⟩ := execute_ignoresLeftovers runtime doubler marketContext 500 2
    [marketSale] heldBank otherBank {market} run run' hrun hrun' sameUpToLeftovers
    marketContext_input market_apart (doubles_trade marketSale_own hexecutes.trades).honest
    (doubles_trade marketSale_own hexecutes'.trades).honest
    (outputsFrom_market hexecutes.prepares hexecutes'.prepares hexecutes.trades hexecutes'.trades)
  exact ⟨run, run', hrun, hrun', hcalls, houtput⟩

/-! ## An input account that is one of TitanPDA's

The user draws a ledger-sized deposit, as a delegate, from a route account of TitanPDA
itself: the deposit is then measured against what TitanPDA already holds there. -/

namespace Sample

def spareAta : Pubkey := key 10
def ledger : Pubkey := key 11

/-- TitanPDA's account `spareAta`, delegated to the user. -/
def delegated (amount : ℕ) : Account :=
  { holding baseMint titanPda amount with
    data := putLE (putField (putLE (holding baseMint titanPda amount).data 72 4 1) 76 user.bytes)
      121 8 1000 }

def delegatedContext : Context where
  accounts := { accounts with
    inputTokenAccount := spareAta
    outputTokenAccount := userBase
    tokenLedger := some ledger }
  remainingAccounts := [info baseAta, info spareAta, info baseMint, info baseMint,
    info baseAta, info spareAta, info Quay.programId]

/-- The ledger stored a balance of 5 for the input account. -/
def delegatedBank (amount : ℕ) : Bank :=
  Function.update (Function.update bank ledger
    ⟨1, zeros 8 ++ (spareAta.bytes ++ leBytes 8 5), systemProgramId⟩) spareAta (delegated amount)

theorem delegatedContext_own : StartsWithOwn delegatedContext 4 ⟨.quay true, 0, 1, 1000000000, 3⟩ :=
  ⟨_, _, _, rfl, rfl, rfl⟩

theorem delegatedBank_sameUpToLeftovers :
    SameUpToLeftovers delegatedContext 2 (delegatedBank 10) (delegatedBank 20) := by
  refine ⟨fun index hindex => ?_, fun key hkey => ?_⟩
  · obtain rfl | rfl : index = 0 ∨ index = 1 := by omega
    · exact .same (by decide +kernel)
    · refine .balance ⟨by decide +kernel, by decide +kernel, by decide +kernel, 20, ?_⟩
      decide +kernel
  · have hspare : key ≠ spareAta := (hkey 1 (by omega)).symm
    rw [delegatedBank, delegatedBank, Function.update_of_ne hspare, Function.update_of_ne hspare]

end Sample

open Sample in
/-- With such an input account two honest runs pay the user 5 and 15. -/
theorem execute_leftovers_counterexample :
    ∃ run run', execute runtime doubler delegatedContext 0 2 swaps (delegatedBank 10) = .ok run ∧
      execute runtime doubler delegatedContext 0 2 swaps (delegatedBank 20) = .ok run' ∧
      SameUpToLeftovers delegatedContext 2 (delegatedBank 10) (delegatedBank 20) ∧
      Doubles delegatedContext run.traded ∧ Doubles delegatedContext run'.traded ∧
      run.payout.userOutput = 5 ∧ run'.payout.userOutput = 15 := by
  obtain ⟨run, hrun, houtput⟩ := exists_of_toOption_map
    (show (execute runtime doubler delegatedContext 0 2 swaps (delegatedBank 10)).toOption.map
      (fun run => run.payout.userOutput) = some 5 by decide +kernel)
  obtain ⟨run', hrun', houtput'⟩ := exists_of_toOption_map
    (show (execute runtime doubler delegatedContext 0 2 swaps (delegatedBank 20)).toOption.map
      (fun run => run.payout.userOutput) = some 15 by decide +kernel)
  exact ⟨run, run', hrun, hrun', delegatedBank_sameUpToLeftovers,
    doubles_trade delegatedContext_own (execute_eq_ok.mp hrun).trades,
    doubles_trade delegatedContext_own (execute_eq_ok.mp hrun').trades, houtput, houtput'⟩

end QuayTitan.Route
