import QuayTitan.Library.SplitLedger
import QuayTitan.Verification.Route.Errors

/-! # Legs of honest venues

An honest leg moves balances exactly as a split of the excess over the snapshot does. -/

namespace QuayTitan.Route

open ByteFields Fallible

variable {rt : Runtime}

/-! ## Weights -/

/-- The share of a weight in nanos, with weights above one counting as one. -/
def weightShare (weightNanos : UInt32) (available : ℕ) : ℕ :=
  available * min weightNanos.toNat 1000000000 / 1000000000

theorem weightShare_le (weightNanos : UInt32) (available : ℕ) :
    weightShare weightNanos available ≤ available := by
  unfold weightShare
  have hweight : available * min weightNanos.toNat 1000000000 ≤ available * 1000000000 :=
    Nat.mul_le_mul_left _ (min_le_right _ _)
  omega

theorem weightShare_of_full {weightNanos : UInt32} (h : 1000000000 ≤ weightNanos.toNat)
    (available : ℕ) : weightShare weightNanos available = available := by
  rw [weightShare, min_eq_right h, Nat.mul_div_cancel _ (by omega)]

theorem weighted_product_le {available : ℕ} (h : available ≤ u64Max) (weightNanos : UInt32) :
    available * min weightNanos.toNat 1000000000 ≤ u128Max := by
  have hproduct : available * min weightNanos.toNat 1000000000 ≤ u64Max * 1000000000 :=
    Nat.mul_le_mul h (min_le_right _ _)
  exact hproduct.trans (by simp [u64Max, u128Max])

/-- For a `u64` balance neither the saturation nor the cast back to `u64` is felt. -/
theorem weightedAmount_eq {available : ℕ} (h : available ≤ u64Max) (weightNanos : UInt32) :
    weightedAmount available weightNanos = weightShare weightNanos available := by
  have hshare := weightShare_le weightNanos available
  simp only [u64Max] at h
  rw [weightedAmount, min_eq_left (weighted_product_le h weightNanos), ← weightShare,
    Nat.mod_eq_of_lt (by omega)]

/-! ## Inversion of a leg -/

/-- What one iteration of the leg loop does. -/
structure LegSpec (venue : VenueProgram) (ctx : Context) (reservedBalances : List ℕ)
    (leg : ℕ) (swap : SwapSpecInputV2) (st st' : LegState) (record : LegRecord) : Prop where
  n_accounts_pos : 0 < swap.nAccounts.toNat
  slice_le : st.remainingAccountIndex + swap.nAccounts.toNat ≤ ctx.remainingAccounts.length
  index_eq : st'.remainingAccountIndex = st.remainingAccountIndex + swap.nAccounts.toNat
  legs_eq : st'.legs = st.legs ++ [record]
  swap_eq : record.swap = swap
  before_eq : record.before = st.bank
  after_eq : record.after = st'.bank
  input : ∃ info reserved, ctx.remainingAccounts[swap.from.toNat]? = some info ∧
    reservedBalances[swap.from.toNat]? = some reserved ∧
    record.inputAmount =
      weightShare swap.weightNanos (tokenAmount (st.bank info.key) - reserved)
  outcome : (record.inputAmount = 0 ∧ record.invocation = none ∧ st'.bank = st.bank) ∨
    (0 < record.inputAmount ∧ ∃ invocation, record.invocation = some invocation ∧
      invocation = legInvocation ctx st.remainingAccountIndex swap.nAccounts.toNat ∧
      performCpiSwap venue leg record.inputAmount swap invocation.accountMetas
        invocation.legAccounts st.bank = .ok st'.bank)

theorem runLeg_spec {venue : VenueProgram} {ctx : Context} {reservedBalances : List ℕ}
    {leg : ℕ} {swap : SwapSpecInputV2} {st st' : LegState}
    (h : runLeg venue ctx reservedBalances leg swap st = .ok st') :
    ∃ record, LegSpec venue ctx reservedBalances leg swap st st' record := by
  simp only [runLeg, bind_eq_ok, require_eq_ok, Context.get_eq_ok, okOr_eq_ok] at h
  obtain ⟨_, hpos, _, hslice, info, hinfo, balance, hbalance, reserved, hreserved, h⟩ := h
  obtain rfl := tokenAmount_of_extract hbalance
  have hexact : weightedAmount (tokenAmount (st.bank info.key) - reserved) swap.weightNanos =
      weightShare swap.weightNanos (tokenAmount (st.bank info.key) - reserved) :=
    weightedAmount_eq ((Nat.sub_le _ _).trans (tokenAmount_le _)) _
  split at h
  · rename_i hcall
    simp only [bind_eq_ok, pure_eq_ok] at h
    obtain ⟨bank, hbank, rfl⟩ := h
    exact ⟨_, hpos, hslice, rfl, rfl, rfl, rfl, rfl, ⟨info, reserved, hinfo, hreserved, hexact⟩,
      .inr ⟨hcall, _, rfl, rfl, hbank⟩⟩
  · rename_i hskip
    rw [pure_eq_ok] at h
    subst h
    exact ⟨_, hpos, hslice, rfl, rfl, rfl, rfl, rfl, ⟨info, reserved, hinfo, hreserved, hexact⟩,
      .inl ⟨Nat.eq_zero_of_not_pos hskip, rfl, rfl⟩⟩

theorem LegSpec.inputAmount_lt {venue : VenueProgram} {ctx : Context}
    {reservedBalances : List ℕ} {leg : ℕ} {swap : SwapSpecInputV2} {st st' : LegState}
    {record : LegRecord} (h : LegSpec venue ctx reservedBalances leg swap st st' record) :
    record.inputAmount < 2 ^ 64 := by
  obtain ⟨info, reserved, _, _, hinput⟩ := h.input
  have hshare := weightShare_le swap.weightNanos (tokenAmount (st.bank info.key) - reserved)
  have hbound := tokenAmount_le (st.bank info.key)
  simp only [u64Max] at hbound
  omega

/-- A call to a venue, and the frame the runtime puts around it. -/
theorem performCpiSwap_eq_ok {venue : VenueProgram} {leg amount : ℕ} {sellBase : Bool}
    {swap : SwapSpecInputV2} {accountMetas : List AccountMeta}
    {accountInfos : List AccountInfo} {bank bank' : Bank} (hvenue : swap.venue = .quay sellBase) :
    performCpiSwap venue leg amount swap accountMetas accountInfos bank = .ok bank' ↔
      ∃ out, venue leg ⟨Quay.programId, accountMetas,
          Quay.swapData (Quay.sideByte sellBase) amount⟩ accountInfos bank = .ok out ∧
        (fun key => if key ∈ accountInfos.map AccountInfo.key then out key else bank key) =
          bank' := by
  simp only [performCpiSwap, hvenue, Quay.swap, List.foldlM_cons, List.foldlM_nil, invokeSigned,
    bind_pure, invoke_eq_ok, map_eq_ok]

/-- The amount a venue finds in the data of the call. -/
theorem getLE_swapData (side : UInt8) {amount : ℕ} (h : amount < 2 ^ 64) :
    getLE (Quay.swapData side amount) 1 8 = some amount := by
  rw [getLE, getField_eq_some (by simp [Quay.swapData]), Quay.swapData, List.drop_one,
    List.tail_cons, List.take_left' (length_leBytes 8 amount), Option.map_some,
    leNat_leBytes_of_lt (by omega)]

theorem runLegs_extends {venue : VenueProgram} {ctx : Context} {reservedBalances : List ℕ}
    {swaps : List SwapSpecInputV2} {leg : ℕ} {st st' : LegState}
    (h : runLegs venue ctx reservedBalances swaps leg st = .ok st') : st.legs <+: st'.legs := by
  induction swaps generalizing leg st with
  | nil =>
      rw [runLegs, pure_eq_ok] at h
      exact h ▸ List.prefix_rfl
  | cons swap rest ih =>
      simp only [runLegs, bind_eq_ok] at h
      obtain ⟨mid, hhead, htail⟩ := h
      obtain ⟨record, hspec⟩ := runLeg_spec hhead
      have hmid := ih htail
      rw [hspec.legs_eq] at hmid
      exact (List.prefix_append _ _).trans hmid

/-- A property every leg keeps holds when the loop ends. -/
theorem runLegs_invariant {venue : VenueProgram} {ctx : Context} {reservedBalances : List ℕ}
    (P : LegState → Prop) {swaps : List SwapSpecInputV2} {leg : ℕ} {st st' : LegState}
    (hstep : ∀ swap ∈ swaps, ∀ leg s s' record,
      LegSpec venue ctx reservedBalances leg swap s s' record → record ∈ st'.legs →
      P s → P s')
    (hst : P st) (h : runLegs venue ctx reservedBalances swaps leg st = .ok st') : P st' := by
  induction swaps generalizing leg st with
  | nil =>
      rw [runLegs, pure_eq_ok] at h
      exact h ▸ hst
  | cons swap rest ih =>
      simp only [runLegs, bind_eq_ok] at h
      obtain ⟨mid, hhead, htail⟩ := h
      obtain ⟨record, hspec⟩ := runLeg_spec hhead
      have hrecord : record ∈ st'.legs :=
        (runLegs_extends htail).subset (by simp [hspec.legs_eq])
      exact ih (fun other hother => hstep other (by simp [hother]))
        (hstep swap (by simp) leg st mid record hspec hrecord hst) htail

theorem runLegs_swaps {venue : VenueProgram} {ctx : Context} {reservedBalances : List ℕ}
    {swaps : List SwapSpecInputV2} {leg : ℕ} {st st' : LegState}
    (h : runLegs venue ctx reservedBalances swaps leg st = .ok st') :
    st'.legs.map LegRecord.swap = st.legs.map LegRecord.swap ++ swaps := by
  induction swaps generalizing leg st with
  | nil =>
      rw [runLegs, pure_eq_ok] at h
      simp [h]
  | cons swap rest ih =>
      simp only [runLegs, bind_eq_ok] at h
      obtain ⟨mid, hhead, htail⟩ := h
      obtain ⟨record, hspec⟩ := runLeg_spec hhead
      rw [ih htail, hspec.legs_eq, List.map_append, List.append_assoc]
      simp [hspec.swap_eq]

/-- The records of a trade are those of its legs, in their order. -/
theorem trade_swaps {venue : VenueProgram} {ctx : Context} {mints : UInt8}
    {swaps : List SwapSpecInputV2} {prepared : Prepared} {traded : LegState}
    (h : prepared.trade venue ctx mints swaps = .ok traded) :
    traded.legs.map LegRecord.swap = swaps := by
  simpa using runLegs_swaps h

/-! ## Honest calls -/

/-- A call that debits `amount` at the source, credits the target and leaves every other
TitanPDA token account as it was. -/
structure HonestCall (titanPda source target : Pubkey) (amount credit : ℕ)
    (before after : Bank) : Prop where
  funded : amount ≤ tokenAmount (before source)
  moved : ∀ key, isTitanPdaTokenAccount (before key) titanPda = true →
    Rebalanced (before key) (after key) (tokenAmount (before key) -
      (if key = source then amount else 0) + (if key = target then credit else 0))

/-- The TitanPDA token account of a route mint. -/
def Context.ata (ctx : Context) (index : UInt8) : Pubkey := ctx.keyAt index.toNat

/-- A route mint. -/
def Context.mint (ctx : Context) (mints index : UInt8) : Pubkey :=
  ctx.keyAt (mints.toNat + index.toNat)

theorem Context.ata_eq {ctx : Context} {index : UInt8} {info : AccountInfo}
    (h : ctx.remainingAccounts[index.toNat]? = some info) : ctx.ata index = info.key :=
  keyAt_eq h

def LegRecord.source (ctx : Context) (record : LegRecord) : Pubkey := ctx.ata record.swap.from

def LegRecord.target (ctx : Context) (record : LegRecord) : Pubkey := ctx.ata record.swap.to

/-- The call of a leg, when one was made, was honest. -/
def HonestLeg (ctx : Context) (record : LegRecord) : Prop :=
  ∀ invocation, record.invocation = some invocation → ∃ credit,
    HonestCall ctx.accounts.titanPda (record.source ctx) (record.target ctx)
      record.inputAmount credit record.before record.after

/-! ## Custody during the legs -/

/-- Every account in custody at the snapshot is still there and holds its reserve. -/
def Custody (titanPda : Pubkey) (opened bank : Bank) : Prop :=
  ∀ key, isTitanPdaTokenAccount (opened key) titanPda = true →
    Rebalanced (opened key) (bank key) (tokenAmount (bank key)) ∧
      tokenAmount (opened key) ≤ tokenAmount (bank key)

theorem Custody.isTitanPda {titanPda : Pubkey} {opened bank : Bank}
    (h : Custody titanPda opened bank) {key : Pubkey}
    (htitan : isTitanPdaTokenAccount (opened key) titanPda = true) :
    isTitanPdaTokenAccount (bank key) titanPda = true :=
  isTitanPda_of_rebalanced (h key htitan).1 htitan

/-- What an account in custody holds above its snapshot. -/
def excess (titanPda : Pubkey) (opened bank : Bank) (key : Pubkey) : ℕ :=
  if isTitanPdaTokenAccount (opened key) titanPda = true then
    tokenAmount (bank key) - tokenAmount (opened key)
  else 0

/-- What the target of a leg was credited. -/
def LegRecord.credited (ctx : Context) (record : LegRecord) : ℕ :=
  tokenAmount (record.after (record.target ctx)) +
    (if record.target ctx = record.source ctx then record.inputAmount else 0) -
    tokenAmount (record.before (record.target ctx))

/-- The split a leg makes. -/
def LegRecord.split (ctx : Context) (record : LegRecord) : SplitLedger.Leg Pubkey where
  source := record.source ctx
  target := record.target ctx
  share := weightShare record.swap.weightNanos
  share_le := weightShare_le _
  credit := record.credited ctx

theorem LegRecord.input_split (ctx : Context) (record : LegRecord) (held : Pubkey → ℕ) :
    (record.split ctx).input held =
      weightShare record.swap.weightNanos (held (record.source ctx)) := rfl

/-- The accounting of one honest leg. -/
structure LegAccounting (ctx : Context) (opened : Bank) (record : LegRecord) : Prop where
  before_custody : Custody ctx.accounts.titanPda opened record.before
  after_custody : Custody ctx.accounts.titanPda opened record.after
  input_eq : record.inputAmount =
    (record.split ctx).input (excess ctx.accounts.titanPda opened record.before)
  excess_eq : excess ctx.accounts.titanPda opened record.after =
    (record.split ctx).apply (excess ctx.accounts.titanPda opened record.before)

/-- A slot of the route: its account is in custody with its balance as reserve. -/
structure RouteSlot (ctx : Context) (opened : Bank) (reservedBalances : List ℕ)
    (index : UInt8) : Prop where
  titan : isTitanPdaTokenAccount (opened (ctx.ata index)) ctx.accounts.titanPda = true
  reserved : reservedBalances[index.toNat]? = some (tokenAmount (opened (ctx.ata index)))

theorem Prepares.routeSlot {ctx : Context} {amount : UInt64} {mints : UInt8}
    {swaps : List SwapSpecInputV2} {bank : Bank} {inputMint : AccountInfo}
    {inputDecimals : UInt8} {prepared : Prepared}
    (h : Prepares rt ctx amount mints swaps bank inputMint inputDecimals prepared)
    {index : UInt8} (hindex : index.toNat < mints.toNat) :
    RouteSlot ctx prepared.opened.bank prepared.snapshot.reservedBalances index := by
  obtain ⟨ata, hata, htitan, hreserved⟩ := h.routeAta hindex
  rw [← Context.ata_eq hata] at htitan hreserved
  exact ⟨htitan, hreserved⟩

/-- The balance of an account in custody after an honest call. -/
theorem HonestCall.tokenAmount_after {titanPda source target : Pubkey} {amount credit : ℕ}
    {before after : Bank} (h : HonestCall titanPda source target amount credit before after)
    {key : Pubkey} (htitan : isTitanPdaTokenAccount (before key) titanPda = true) :
    tokenAmount (after key) = tokenAmount (before key) -
      (if key = source then amount else 0) + (if key = target then credit else 0) :=
  tokenAmount_of_rebalanced (h.moved key htitan)

/-- An honest call that spends no more than the excess keeps the reserves. -/
theorem HonestCall.custody {titanPda source target : Pubkey} {amount credit : ℕ}
    {opened before after : Bank}
    (h : HonestCall titanPda source target amount credit before after)
    (hbefore : Custody titanPda opened before)
    (hspends : amount ≤ excess titanPda opened before source) :
    Custody titanPda opened after := by
  intro key htitan
  have hheld := hbefore.isTitanPda htitan
  have hkept := (hbefore key htitan).2
  have hamount := h.tokenAmount_after hheld
  refine ⟨?_, ?_⟩
  · rw [hamount]
    exact (hbefore key htitan).1.trans (h.moved key hheld)
  · by_cases hs : key = source
    · subst hs
      rw [excess, if_pos htitan] at hspends
      rw [hamount, if_pos rfl]
      omega
    · rw [hamount, if_neg hs]
      omega

theorem HonestCall.excess_after {titanPda source target : Pubkey} {amount credit : ℕ}
    {opened before after : Bank}
    (h : HonestCall titanPda source target amount credit before after)
    (hbefore : Custody titanPda opened before)
    (hsource : isTitanPdaTokenAccount (opened source) titanPda = true)
    (htarget : isTitanPdaTokenAccount (opened target) titanPda = true)
    (hspends : amount ≤ excess titanPda opened before source) (key : Pubkey) :
    excess titanPda opened after key = excess titanPda opened before key -
      (if key = source then amount else 0) + (if key = target then credit else 0) := by
  by_cases htitan : isTitanPdaTokenAccount (opened key) titanPda = true
  · have hkept := (hbefore key htitan).2
    have hamount := h.tokenAmount_after (hbefore.isTitanPda htitan)
    rw [excess, excess, if_pos htitan, if_pos htitan, hamount]
    by_cases hs : key = source
    · subst hs
      rw [excess, if_pos htitan] at hspends
      rw [if_pos rfl]
      omega
    · rw [if_neg hs]
      omega
  · have hs : key ≠ source := fun heq => htitan (heq ▸ hsource)
    have ht : key ≠ target := fun heq => htitan (heq ▸ htarget)
    rw [excess, excess, if_neg htitan, if_neg hs, if_neg ht, if_neg htitan]

theorem LegRecord.credited_of_call {ctx : Context} {record : LegRecord} {titanPda : Pubkey}
    {credit : ℕ}
    (hcall : HonestCall titanPda (record.source ctx) (record.target ctx) record.inputAmount
      credit record.before record.after)
    (htitan : isTitanPdaTokenAccount (record.before (record.target ctx)) titanPda = true) :
    record.credited ctx = credit := by
  have hfunded := hcall.funded
  rw [credited, hcall.tokenAmount_after htitan, if_pos rfl]
  by_cases hself : record.target ctx = record.source ctx
  · rw [← hself] at hfunded
    rw [if_pos hself]
    omega
  · rw [if_neg hself]
    omega

/-- A leg without a call is one that takes and credits nothing. -/
theorem LegSpec.honestCall {venue : VenueProgram} {ctx : Context} {reservedBalances : List ℕ}
    {leg : ℕ} {swap : SwapSpecInputV2} {st st' : LegState} {record : LegRecord}
    {titanPda : Pubkey} (h : LegSpec venue ctx reservedBalances leg swap st st' record)
    (honest : ∀ invocation, record.invocation = some invocation → ∃ credit,
      HonestCall titanPda (record.source ctx) (record.target ctx) record.inputAmount credit
        record.before record.after)
    (htitan : isTitanPdaTokenAccount (record.before (record.target ctx)) titanPda = true) :
    HonestCall titanPda (record.source ctx) (record.target ctx) record.inputAmount
      (record.credited ctx) record.before record.after := by
  rcases h.outcome with ⟨hzero, _, hsame⟩ | ⟨_, invocation, hinvocation, _⟩
  · have hafter : record.after = record.before := by rw [h.after_eq, h.before_eq, hsame]
    have hcredit : record.credited ctx = 0 := by simp [LegRecord.credited, hafter, hzero]
    refine ⟨by omega, fun key hkey => ?_⟩
    rw [hafter, hzero, hcredit]
    simpa using rebalanced_of_sameContents (SameContents.refl _) hkey
  · obtain ⟨credit, hcall⟩ := honest invocation hinvocation
    rw [LegRecord.credited_of_call hcall htitan]
    exact hcall

theorem LegSpec.accounting {venue : VenueProgram} {ctx : Context} {reservedBalances : List ℕ}
    {leg : ℕ} {swap : SwapSpecInputV2} {st st' : LegState} {record : LegRecord}
    {opened : Bank} (h : LegSpec venue ctx reservedBalances leg swap st st' record)
    (hsource : RouteSlot ctx opened reservedBalances swap.from)
    (htarget : RouteSlot ctx opened reservedBalances swap.to)
    (hcustody : Custody ctx.accounts.titanPda opened st.bank)
    (honest : HonestLeg ctx record) : LegAccounting ctx opened record := by
  have hbefore : Custody ctx.accounts.titanPda opened record.before := by
    rw [h.before_eq]
    exact hcustody
  have hsourceTitan : isTitanPdaTokenAccount (opened (record.source ctx))
      ctx.accounts.titanPda = true := by
    rw [LegRecord.source, h.swap_eq]
    exact hsource.titan
  have htargetTitan : isTitanPdaTokenAccount (opened (record.target ctx))
      ctx.accounts.titanPda = true := by
    rw [LegRecord.target, h.swap_eq]
    exact htarget.titan
  have hinput : record.inputAmount =
      (record.split ctx).input (excess ctx.accounts.titanPda opened record.before) := by
    obtain ⟨info, reserved, hinfo, hreserved, hinput⟩ := h.input
    obtain rfl := Option.some.inj (hsource.reserved.symm.trans hreserved)
    rw [hinput, LegRecord.input_split, excess, if_pos hsourceTitan, LegRecord.source, h.swap_eq,
      h.before_eq, Context.ata_eq hinfo]
  have hspends : record.inputAmount ≤
      excess ctx.accounts.titanPda opened record.before (record.source ctx) := by
    rw [hinput]
    exact SplitLedger.Leg.input_le _ _
  have hcall := h.honestCall honest (hbefore.isTitanPda htargetTitan)
  refine ⟨hbefore, hcall.custody hbefore hspends, hinput, ?_⟩
  funext key
  rw [SplitLedger.Leg.apply, ← hinput]
  exact hcall.excess_after hbefore hsourceTitan htargetTitan hspends key

end QuayTitan.Route
