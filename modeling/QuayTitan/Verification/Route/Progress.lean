import Mathlib.Algebra.Order.BigOperators.Group.Finset
import QuayTitan.Verification.Holdings
import QuayTitan.Verification.Route.Legs

/-! # Phases that succeed

When the accounts of a route are TitanPDA's and the user's to spend from, no call of an
execution is refused. -/

namespace QuayTitan.Route

open ByteFields Fallible

variable {rt : Runtime} {ctx : Context}

/-! ## The token programs -/

/-- The instruction was given the two token programs. -/
structure StandardPrograms (ctx : Context) : Prop where
  tokenProgram_eq : ctx.accounts.tokenProgram = splTokenId
  token2022Program_eq : ctx.accounts.token2022Program = token2022Id

theorem StandardPrograms.tokenProgramFor_eq {program : Pubkey} {account : Account}
    {decimals : UInt8} (h : StandardPrograms ctx) (hmint : IsMint program account decimals) :
    ctx.tokenProgramFor account = program := by
  rw [Context.tokenProgramFor, getTokenProgramForMint, hmint.owner_eq, h.tokenProgram_eq,
    h.token2022Program_eq]
  rcases hmint.known with rfl | rfl
  · rw [if_neg splTokenId_ne_token2022Id]
  · rw [if_pos rfl]

theorem extractMintDecimals_of_isMint {program : Pubkey} {account : Account} {decimals : UInt8}
    (h : IsMint program account decimals) : extractMintDecimals account = .ok decimals := by
  have hunpack := h.decimals_eq
  unfold unpackMintDecimals at hunpack
  split at hunpack
  · split at hunpack
    · rename_i read hread
      obtain rfl := Except.ok.inj hunpack
      exact okOr_eq_ok.mpr hread
    · cases hunpack
  · cases hunpack

theorem isTitanPda_of_holds {program titanPda : Pubkey} {account : Account}
    {token : TokenAccount} (hprogram : program = splTokenId ∨ program = token2022Id)
    (h : Holds program account token) (howner : token.owner = titanPda) :
    isTitanPdaTokenAccount account titanPda = true := by
  have hfields := readTokenAccount_fields h.unpacks.read
  rw [howner] at hfields
  refine isTitanPdaTokenAccount_iff.mpr ⟨?_, h.unpacks.accountLen_le, hfields.2.1⟩
  rw [h.unpacks.owner_eq]
  exact hprogram

theorem tokenAmount_of_unpacks {program : Pubkey} {account : Account} {token : TokenAccount}
    (h : Unpacks program account token) : tokenAmount account = token.amount :=
  tokenAmount_of_getLE (readTokenAccount_fields h.read).2.2

theorem extractTokenAmount_of_unpacks {program : Pubkey} {account : Account}
    {token : TokenAccount} (h : Unpacks program account token) :
    extractTokenAmount account = .ok token.amount :=
  extractTokenAmount_eq_ok.mpr (readTokenAccount_fields h.read).2.2

/-- A route transfer succeeds when the token program has no reason to refuse it. -/
theorem transferTokens_ok {program source destination authority mint : Pubkey}
    {src dst : TokenAccount} {amount : ℕ} {decimals : UInt8} {bank : Bank}
    (h : Movable program source destination authority src dst amount bank)
    (hsource : src.mint = mint) (hmint : IsMint program (bank mint) decimals)
    (hplain : PlainMint rt program mint (bank mint).data)
    (hpermits : rt.permitsTransfer (bank mint).data (bank source).data (bank destination).data =
      true) :
    ∃ bank', transferTokens rt program source destination authority (some mint) amount decimals
        bank = .ok bank' ∧
      Moves program source destination authority src dst amount bank bank' := by
  by_cases hzero : amount = 0
  · subst hzero
    exact ⟨bank, by rw [transferTokens, if_pos rfl]; rfl,
      ⟨src, debited_withAmount authority 0 src, h.source_holds⟩, h.destination_holds, fun _ => rfl,
      fun _ _ _ => rfl⟩
  · by_cases hprogram : program = token2022Id
    · obtain ⟨bank', hbank', hmoves⟩ :=
        h.tokenTransfer_ok (hplain.withheldFee_eq hmint hsource hpermits)
      refine ⟨bank', ?_, hmoves⟩
      rw [hprogram] at hbank'
      rw [transferTokens, if_neg hzero, if_pos hprogram]
      exact invoke_eq_ok.mpr hbank'
    · have hspl : program = splTokenId := hmint.known.resolve_right hprogram
      obtain ⟨bank', hbank', hmoves⟩ := @Movable.tokenTransfer_ok rt _ _ _ _ _ _ _ _ h none rfl
      refine ⟨bank', ?_, hmoves⟩
      rw [hspl] at hbank'
      rw [transferTokens, if_neg hzero, if_neg hprogram]
      exact invoke_eq_ok.mpr hbank'

/-- Accounts with these extensions pass tokens of a mint on. -/
def LetsPass (rt : Runtime) (mintData source destination : Bytes) : Prop :=
  ∀ sourceData destinationData, extensions sourceData = source →
    extensions destinationData = destination →
    rt.permitsTransfer mintData sourceData destinationData = true

/-! ## Opening the token accounts -/

/-- What a route finds at the address of a token account: one of its wallet, or none yet. -/
inductive Slot (rt : Runtime) (program wallet mint address : Pubkey) (account : Account) : Prop
  | held (token : TokenAccount) (holds : Holds program account token)
      (spendable : Spendable token wallet 0) (mint_eq : token.mint = mint)
      (lamports_pos : 0 < account.lamports)
  | vacant (vacant : Vacant account) (derived : rt.ataAddress wallet mint program = address)

theorem accountExists_of_unpacks {program : Pubkey} {account : Account} {token : TokenAccount}
    (h : Unpacks program account token) (hlamports : 0 < account.lamports) :
    accountExists account = true := by
  have hlen := h.accountLen_le
  have hpos : 0 < accountLen := by decide
  simp only [accountExists, Bool.and_eq_true, decide_eq_true_eq]
  omega

theorem not_accountExists_of_vacant {account : Account} (h : Vacant account) :
    accountExists account = false := by
  simp [accountExists, h.data_eq]

/-- The lamports the payer spends on a slot. -/
def slotCost (rt : Runtime) (wallet mint address : Pubkey) (bank : Bank) : ℕ :=
  if accountExists (bank address) then 0
  else openingCost rt (bank mint).owner wallet mint address bank

/-- The extensions of an account, or those it would be opened with. -/
def extensionsAt (rt : Runtime) (mint address : Pubkey) (bank : Bank) : Bytes :=
  if accountExists (bank address) then extensions (bank address).data
  else newExtensions rt (bank mint).owner (bank mint).data

/-- The balance of an account, or the one it would be opened with: an account of wrapped SOL is
opened with the lamports at its address that its rent does not take. -/
def balanceAt (rt : Runtime) (wallet mint address : Pubkey) (bank : Bank) : ℕ :=
  if accountExists (bank address) then tokenAmount (bank address)
  else tokenAmount (openedAccount rt (bank mint).owner wallet mint (bank mint).data
    ((bank address).lamports + openingCost rt (bank mint).owner wallet mint address bank))

/-- The token account of a slot once it was opened. -/
structure OpenedSlot (rt : Runtime) (wallet mint address : Pubkey) (bank : Bank)
    (account : Account) (token : TokenAccount) : Prop where
  holds : Holds (bank mint).owner account token
  spendable : Spendable token wallet 0
  mint_eq : token.mint = mint
  amount_eq : token.amount = balanceAt rt wallet mint address bank
  kept : accountExists (bank address) = true → account = bank address
  fresh : accountExists (bank address) = false →
    token.delegate = none ∧ token.closeAuthority = none

/-- The allowance of a slot is that of the account found there. -/
theorem OpenedSlot.spendable_of_allowance {wallet mint address : Pubkey} {bank : Bank}
    {account : Account} {token : TokenAccount} {limit : ℕ}
    (h : OpenedSlot rt wallet mint address bank account token)
    (hallowance : ∀ found, Unpacks (bank mint).owner (bank address) found →
      found.delegate = some wallet → limit ≤ found.delegatedAmount) :
    Spendable token wallet limit := by
  refine ⟨h.spendable.owner_eq, h.spendable.not_frozen, fun hdelegate => ?_⟩
  cases hexists : accountExists (bank address) with
  | true =>
      refine hallowance token ?_ hdelegate
      rw [← h.kept hexists]
      exact h.holds.unpacks
  | false =>
      rw [(h.fresh hexists).1] at hdelegate
      cases hdelegate

/-- Setting a bit of the created accounts, and no other. -/
theorem getLsbD_or_bit (bits : BitVec 16) {i : ℕ} (hi : i < 16) (j : ℕ) :
    (bits ||| (1#16 <<< i)).getLsbD j = (bits.getLsbD j || decide (j = i)) := by
  rw [← BitVec.twoPow_eq, BitVec.getLsbD_or, BitVec.getLsbD_twoPow]
  simp [hi, eq_comm]

theorem and_bit_eq_zero (bits : BitVec 16) {i : ℕ} (hi : i < 16) :
    bits &&& (1#16 <<< i) = 0 ↔ bits.getLsbD i = false := by
  have hbit : BitVec.twoPow 16 i ≠ 0#16 := by
    intro hzero
    have hset := congrArg (fun bits => bits.getLsbD i) hzero
    simp [hi] at hset
  rw [← BitVec.twoPow_eq, BitVec.and_twoPow]
  cases hset : bits.getLsbD i with
  | false => simp
  | true => simpa using hbit

/-- The token accounts of a route and the lamports that open the missing ones. -/
structure Openables (rt : Runtime) (ctx : Context) (mintsCount : ℕ) (bank : Bank) : Prop where
  count_le : mintsCount ≤ maxMints
  remaining_le : 2 * mintsCount ≤ ctx.remainingAccounts.length
  programs : StandardPrograms ctx
  payer_ne : ∀ i < mintsCount, ctx.accounts.payer ≠ ctx.keyAt i
  distinct : ∀ i < mintsCount, ∀ j < mintsCount, ctx.keyAt i = ctx.keyAt j → i = j
  mint_ne : ∀ i < mintsCount, ∀ j < mintsCount, ctx.keyAt (mintsCount + i) ≠ ctx.keyAt j
  mint_ok : ∀ i < mintsCount, ∃ decimals, IsMint (bank (ctx.keyAt (mintsCount + i))).owner
    (bank (ctx.keyAt (mintsCount + i))) decimals
  plain : ∀ i < mintsCount, PlainMint rt (bank (ctx.keyAt (mintsCount + i))).owner
    (ctx.keyAt (mintsCount + i)) (bank (ctx.keyAt (mintsCount + i))).data
  slot : ∀ i < mintsCount, Slot rt (bank (ctx.keyAt (mintsCount + i))).owner
    ctx.accounts.titanPda (ctx.keyAt (mintsCount + i)) (ctx.keyAt i) (bank (ctx.keyAt i))
  funded : CanFund (bank ctx.accounts.payer) (∑ i ∈ Finset.range mintsCount,
    slotCost rt ctx.accounts.titanPda (ctx.keyAt (mintsCount + i)) (ctx.keyAt i) bank)

/-- The state of the opening loop before its `i`-th slot. -/
structure Opening (rt : Runtime) (ctx : Context) (mintsCount : ℕ) (bank : Bank) (i : ℕ)
    (st : Opened) : Prop where
  opened : ∀ j < i, ∃ token, OpenedSlot rt ctx.accounts.titanPda (ctx.keyAt (mintsCount + j))
    (ctx.keyAt j) bank (st.bank (ctx.keyAt j)) token
  extensions_eq : ∀ j < i, extensions (st.bank (ctx.keyAt j)).data =
    extensionsAt rt (ctx.keyAt (mintsCount + j)) (ctx.keyAt j) bank
  ahead : ∀ j < mintsCount, i ≤ j → st.bank (ctx.keyAt j) = bank (ctx.keyAt j)
  contents : ∀ key, (∀ j < mintsCount, key ≠ ctx.keyAt j) →
    SameContents (bank key) (st.bank key)
  frame : ∀ key, (∀ j < mintsCount, key ≠ ctx.keyAt j) → key ≠ ctx.accounts.payer →
    st.bank key = bank key
  payer_lamports : (st.bank ctx.accounts.payer).lamports + ∑ j ∈ Finset.range i,
    slotCost rt ctx.accounts.titanPda (ctx.keyAt (mintsCount + j)) (ctx.keyAt j) bank =
      (bank ctx.accounts.payer).lamports
  created_iff : ∀ j < 16, st.createdAtas.getLsbD j = true ↔
    j < i ∧ accountExists (bank (ctx.keyAt j)) = false

theorem Openables.keyAt_eq {mintsCount : ℕ} {bank : Bank}
    (h : Openables rt ctx mintsCount bank) {index : ℕ} (hindex : index < 2 * mintsCount) :
    ∃ info, ctx.get index = .ok info ∧ info.key = ctx.keyAt index := by
  have hget := List.getElem?_eq_getElem (hindex.trans_le h.remaining_le)
  exact ⟨_, Context.get_eq_ok.mpr hget, (Context.keyAt_eq hget).symm⟩

/-- A slot that exists is left alone. -/
theorem Opening.keep {mintsCount i : ℕ} {bank : Bank} {st : Opened}
    (h : Openables rt ctx mintsCount bank) (hi : i < mintsCount)
    (hst : Opening rt ctx mintsCount bank i st)
    (hexists : accountExists (bank (ctx.keyAt i)) = true) :
    Opening rt ctx mintsCount bank (i + 1) st := by
  refine ⟨fun j hj => ?_, fun j hj => ?_, fun j hj hij => hst.ahead j hj (by omega), hst.contents,
    hst.frame, ?_, fun j hj => ?_⟩
  · rcases Nat.lt_succ_iff_lt_or_eq.mp hj with hj | rfl
    · exact hst.opened j hj
    · rw [hst.ahead j hi le_rfl]
      cases h.slot j hi with
      | held token holds spendable mint_eq lamports_pos =>
          refine ⟨token, holds, spendable, mint_eq, ?_, fun _ => rfl, fun hmissing => ?_⟩
          · rw [balanceAt, if_pos hexists, tokenAmount_of_unpacks holds.unpacks]
          · rw [hexists] at hmissing
            cases hmissing
      | vacant vacant derived =>
          rw [not_accountExists_of_vacant vacant] at hexists
          cases hexists
  · rcases Nat.lt_succ_iff_lt_or_eq.mp hj with hj | rfl
    · exact hst.extensions_eq j hj
    · rw [hst.ahead j hi le_rfl, extensionsAt, if_pos hexists]
  · rw [Finset.sum_range_succ, slotCost, if_pos hexists]
    exact hst.payer_lamports
  · rw [hst.created_iff j hj]
    refine ⟨fun ⟨hlt, hmissing⟩ => ⟨by omega, hmissing⟩, fun ⟨hlt, hmissing⟩ => ⟨?_, hmissing⟩⟩
    rcases Nat.lt_succ_iff_lt_or_eq.mp hlt with hlt | rfl
    · exact hlt
    · rw [hexists] at hmissing
      cases hmissing

theorem openingCost_congr {program wallet mint account : Pubkey} {bank bank' : Bank}
    (hmint : (bank' mint).data = (bank mint).data) (haccount : bank' account = bank account) :
    openingCost rt program wallet mint account bank' =
      openingCost rt program wallet mint account bank := by
  rw [openingCost, openingCost, hmint, haccount]

theorem slotCost_congr {wallet mint address : Pubkey} {bank bank' : Bank}
    (hmint : SameContents (bank mint) (bank' mint)) (haddress : bank' address = bank address) :
    slotCost rt wallet mint address bank' = slotCost rt wallet mint address bank := by
  rw [slotCost, slotCost, haddress, hmint.owner_eq, openingCost_congr hmint.data_eq haddress]

theorem extensionsAt_congr {mint address : Pubkey} {bank bank' : Bank}
    (hmint : SameContents (bank mint) (bank' mint)) (haddress : bank' address = bank address) :
    extensionsAt rt mint address bank' = extensionsAt rt mint address bank := by
  rw [extensionsAt, extensionsAt, haddress, hmint.owner_eq, hmint.data_eq]

theorem balanceAt_congr {wallet mint address : Pubkey} {bank bank' : Bank}
    (hmint : SameContents (bank mint) (bank' mint)) (haddress : bank' address = bank address) :
    balanceAt rt wallet mint address bank' = balanceAt rt wallet mint address bank := by
  rw [balanceAt, balanceAt, haddress, hmint.owner_eq, hmint.data_eq,
    openingCost_congr hmint.data_eq haddress]

/-- Only wrapped SOL is opened with a balance. -/
theorem balanceAt_eq_tokenAmount {wallet mint address : Pubkey} {bank : Bank}
    (hprogram : (bank mint).owner = splTokenId ∨ (bank mint).owner = token2022Id)
    (hnative : mint ≠ nativeMintOf (bank mint).owner)
    (hmissing : accountExists (bank address) = false → (bank address).data = []) :
    balanceAt rt wallet mint address bank = tokenAmount (bank address) := by
  cases hexists : accountExists (bank address) with
  | true => rw [balanceAt, if_pos hexists]
  | false =>
      rw [balanceAt, hexists, if_neg Bool.false_ne_true, tokenAmount_of_data_nil (hmissing hexists)]
      simp only [openedAccount, if_pos hprogram, if_neg hnative]
      exact tokenAmount_of_getLE (readTokenAccount_fields readTokenAccount_newTokenData).2.2

/-- A new account has the balance it was expected to open with. -/
theorem balanceAt_of_opened {payer wallet mint address program : Pubkey} {bank bank' : Bank}
    (h : OpenSpec rt payer wallet mint address program bank bank') (hpayer : payer ≠ address)
    (hprogram : (bank mint).owner = program) (hmissing : accountExists (bank address) = false) :
    balanceAt rt wallet mint address bank = tokenAmount (bank' address) := by
  subst hprogram
  rw [balanceAt, hmissing, if_neg Bool.false_ne_true, h.account_eq hpayer]

/-- Before its slot is reached, a missing account can still be opened. -/
theorem Opening.openable {mintsCount i : ℕ} {bank : Bank} {st : Opened} {decimals : UInt8}
    (h : Openables rt ctx mintsCount bank) (hi : i < mintsCount)
    (hst : Opening rt ctx mintsCount bank i st)
    (hmissing : accountExists (bank (ctx.keyAt i)) = false)
    (hmint : IsMint (bank (ctx.keyAt (mintsCount + i))).owner
      (bank (ctx.keyAt (mintsCount + i))) decimals) :
    Openable rt ctx.accounts.payer ctx.accounts.titanPda (ctx.keyAt (mintsCount + i))
      (ctx.keyAt i) (bank (ctx.keyAt (mintsCount + i))).owner decimals st.bank ∧
    openingCost rt (bank (ctx.keyAt (mintsCount + i))).owner ctx.accounts.titanPda
        (ctx.keyAt (mintsCount + i)) (ctx.keyAt i) st.bank =
      slotCost rt ctx.accounts.titanPda (ctx.keyAt (mintsCount + i)) (ctx.keyAt i) bank := by
  have hsameMint := hst.contents (ctx.keyAt (mintsCount + i)) (h.mint_ne i hi)
  have hsamePayer := hst.contents ctx.accounts.payer h.payer_ne
  have hata := hst.ahead i hi le_rfl
  have hcost := @openingCost_congr rt (bank (ctx.keyAt (mintsCount + i))).owner
    ctx.accounts.titanPda _ _ _ _ hsameMint.data_eq hata
  rw [slotCost, hmissing, if_neg Bool.false_ne_true]
  refine ⟨?_, hcost⟩
  cases h.slot i hi with
  | held token holds spendable mint_eq lamports_pos =>
      rw [accountExists_of_unpacks holds.unpacks lamports_pos] at hmissing
      cases hmissing
  | vacant vacant derived =>
      refine ⟨by rw [hata]; exact vacant, derived, hmint.of_sameContents hsameMint,
        h.payer_ne i hi, ?_⟩
      rw [hcost]
      intro hpos
      have hspent := hst.payer_lamports
      have htotal : ∑ j ∈ Finset.range (i + 1), slotCost rt ctx.accounts.titanPda
          (ctx.keyAt (mintsCount + j)) (ctx.keyAt j) bank ≤ ∑ j ∈ Finset.range mintsCount,
            slotCost rt ctx.accounts.titanPda (ctx.keyAt (mintsCount + j)) (ctx.keyAt j) bank :=
        Finset.sum_le_sum_of_subset (Finset.range_mono hi)
      rw [Finset.sum_range_succ, slotCost, hmissing, if_neg Bool.false_ne_true] at htotal
      obtain ⟨hpayer, hfunds⟩ := h.funded (by omega)
      exact ⟨hpayer.of_sameContents hsamePayer, by omega⟩

/-- A missing slot is opened at the payer's cost. -/
theorem Opening.create {mintsCount i : ℕ} {bank bank' : Bank} {st : Opened} {decimals : UInt8}
    (h : Openables rt ctx mintsCount bank) (hi : i < mintsCount)
    (hst : Opening rt ctx mintsCount bank i st)
    (hmissing : accountExists (bank (ctx.keyAt i)) = false)
    (hmint : IsMint (bank (ctx.keyAt (mintsCount + i))).owner
      (bank (ctx.keyAt (mintsCount + i))) decimals)
    (hopens : OpenSpec rt ctx.accounts.payer ctx.accounts.titanPda (ctx.keyAt (mintsCount + i))
      (ctx.keyAt i) (bank (ctx.keyAt (mintsCount + i))).owner st.bank bank')
    (hpaid : (bank' ctx.accounts.payer).lamports + slotCost rt ctx.accounts.titanPda
      (ctx.keyAt (mintsCount + i)) (ctx.keyAt i) bank = (st.bank ctx.accounts.payer).lamports) :
    Opening rt ctx mintsCount bank (i + 1) ⟨bank', st.createdAtas ||| (1#16 <<< i)⟩ := by
  have hcount := h.count_le
  have hmax : maxMints = 12 := rfl
  have hne {j : ℕ} (hj : j < mintsCount) (hij : j ≠ i) : bank' (ctx.keyAt j) =
      st.bank (ctx.keyAt j) :=
    hopens.frame _ (fun heq => hij (h.distinct j hj i hi heq)) (h.payer_ne j hj).symm
  have hmintSame := hst.contents _ (h.mint_ne i hi)
  have hplain := h.plain i hi
  rw [← hmintSame.data_eq] at hplain
  obtain ⟨opened, holds, fresh, hextensions⟩ := hopens.holds hmint.known hplain
  have hata := hst.ahead i hi le_rfl
  have hbalance := balanceAt_of_opened hopens (h.payer_ne i hi) hmintSame.owner_eq
    (by rw [hata]; exact hmissing)
  rw [balanceAt_congr hmintSame hata] at hbalance
  refine ⟨fun j hj => ?_, fun j hj => ?_, fun j hj hij => ?_, fun key hkey => ?_,
    fun key hkey hpayer => ?_, ?_, fun j hj => ?_⟩
  · rcases Nat.lt_succ_iff_lt_or_eq.mp hj with hj | rfl
    · obtain ⟨token, htoken⟩ := hst.opened j hj
      rw [← hne (show j < mintsCount by omega) (show j ≠ i by omega)] at htoken
      exact ⟨token, htoken⟩
    · refine ⟨opened, holds, fresh.spendable 0, fresh.mint_eq, ?_, fun hexists => ?_, fun _ =>
        ⟨fresh.delegate_eq, fresh.closeAuthority_eq⟩⟩
      · rw [hbalance, tokenAmount_of_unpacks holds.unpacks]
      · rw [hmissing] at hexists
        cases hexists
  · rcases Nat.lt_succ_iff_lt_or_eq.mp hj with hj | rfl
    · simp only
      rw [hne (show j < mintsCount by omega) (show j ≠ i by omega)]
      exact hst.extensions_eq j hj
    · rw [extensionsAt, hmissing, if_neg Bool.false_ne_true, ← hmintSame.data_eq]
      exact hextensions
  · exact (hne hj (by omega)).trans (hst.ahead j hj (by omega))
  · exact (hst.contents key hkey).trans (hopens.contents key (hkey i hi))
  · exact (hopens.frame key (hkey i hi) hpayer).trans (hst.frame key hkey hpayer)
  · have hspent := hst.payer_lamports
    rw [Finset.sum_range_succ]
    simp only
    omega
  · rw [getLsbD_or_bit _ (by omega), Bool.or_eq_true, hst.created_iff j hj, decide_eq_true_eq]
    constructor
    · rintro (⟨hlt, hfalse⟩ | rfl)
      · exact ⟨by omega, hfalse⟩
      · exact ⟨by omega, hmissing⟩
    · rintro ⟨hlt, hfalse⟩
      rcases Nat.lt_succ_iff_lt_or_eq.mp hlt with hlt | rfl
      · exact .inl ⟨hlt, hfalse⟩
      · exact .inr rfl

theorem Opening.step {mintsCount i : ℕ} {bank : Bank} {st : Opened}
    (h : Openables rt ctx mintsCount bank) (hi : i < mintsCount)
    (hst : Opening rt ctx mintsCount bank i st) :
    ∃ st', createMissingAta rt ctx mintsCount st i = .ok st' ∧
      Opening rt ctx mintsCount bank (i + 1) st' := by
  obtain ⟨ata, hata, hkey⟩ := h.keyAt_eq (show i < 2 * mintsCount by omega)
  obtain ⟨mint, hmintInfo, hmintKey⟩ := h.keyAt_eq (show mintsCount + i < 2 * mintsCount by omega)
  by_cases hexists : accountExists (bank (ctx.keyAt i)) = true
  · refine ⟨st, ?_, hst.keep h hi hexists⟩
    rw [createMissingAta, hata, ok_bind, hkey, hst.ahead i hi le_rfl, if_pos hexists]
    rfl
  · rw [Bool.not_eq_true] at hexists
    obtain ⟨decimals, hmint⟩ := h.mint_ok i hi
    obtain ⟨hopenable, hcost⟩ := hst.openable h hi hexists hmint
    obtain ⟨bank', hbank', hopens, hpaid⟩ := hopenable.createIdempotent_ok
    rw [hcost] at hpaid
    refine ⟨_, ?_, hst.create h hi hexists hmint hopens hpaid⟩
    have hprogram := h.programs.tokenProgramFor_eq hopenable.mint_ok
    rw [createMissingAta, hata, ok_bind, hkey, hst.ahead i hi le_rfl, hexists,
      if_neg Bool.false_ne_true, hmintInfo, ok_bind, hmintKey, hprogram, hbank']
    rfl

/-- Every missing account of a route is opened. -/
theorem createMissingAtas_ok {mintsCount : ℕ} {bank : Bank}
    (h : Openables rt ctx mintsCount bank) :
    ∃ opened, createMissingAtas rt ctx mintsCount bank = .ok opened ∧
      Opening rt ctx mintsCount bank mintsCount opened := by
  refine foldlM_range_ok (Opening rt ctx mintsCount bank) (fun i hi st hst => hst.step h hi) ?_
  exact ⟨fun j hj => absurd hj (Nat.not_lt_zero j), fun j hj => absurd hj (Nat.not_lt_zero j),
    fun _ _ _ => rfl, fun _ _ => SameContents.refl _, fun _ _ _ => rfl, rfl, fun j _ => by simp⟩

/-! ## The snapshot -/

/-- The snapshot needs no more than that the route accounts are TitanPDA's. -/
theorem takeSnapshot_ok {titanPda : Pubkey} {mintsCount i : ℕ} {bank : Bank}
    {infos : List AccountInfo} {st : Snapshot}
    (h : ∀ j info, i + j < mintsCount → infos[j]? = some info →
      isTitanPdaTokenAccount (bank info.key) titanPda = true) :
    ∃ snapshot, takeSnapshot titanPda mintsCount bank infos i st = .ok snapshot := by
  induction infos generalizing i st with
  | nil => exact ⟨st, rfl⟩
  | cons info rest ih =>
      have hrest : ∀ j other, i + 1 + j < mintsCount → rest[j]? = some other →
          isTitanPdaTokenAccount (bank other.key) titanPda = true := by
        intro j other hj hother
        exact h (j + 1) other (by omega) hother
      have hhead : ∃ mid, snapshotAccount titanPda mintsCount bank i info st = .ok mid := by
        simp only [snapshotAccount]
        split
        · rename_i hlt
          have htitan := h 0 info hlt rfl
          simp only [require, check, htitan, if_true, ok_bind,
            extractTokenAmount_of_isTitanPda htitan]
          exact ⟨_, rfl⟩
        · split
          · rename_i htitan
            rw [extractTokenAmount_of_isTitanPda htitan]
            exact ⟨_, rfl⟩
          · exact ⟨_, rfl⟩
      obtain ⟨mid, hmid⟩ := hhead
      obtain ⟨snapshot, hsnapshot⟩ := @ih (i + 1) mid hrest
      refine ⟨snapshot, ?_⟩
      rw [takeSnapshot, hmid, ok_bind]
      exact hsnapshot

/-! ## The deposit -/

/-- A deposit from a token account of the user; no SOL is wrapped for it. -/
theorem deposit_ok {program inputMint : Pubkey} {first : AccountInfo} {src dst : TokenAccount}
    {amount : ℕ} {decimals : UInt8} {bank : Bank} (hprograms : StandardPrograms ctx)
    (hfirst : ctx.get 0 = .ok first)
    (h : Movable program ctx.accounts.inputTokenAccount first.key ctx.accounts.user src dst amount
      bank)
    (hsource : src.mint = inputMint) (hnative : inputMint ≠ nativeMintId)
    (hmint : IsMint program (bank inputMint) decimals)
    (hplain : PlainMint rt program inputMint (bank inputMint).data)
    (hpermits : rt.permitsTransfer (bank inputMint).data (bank ctx.accounts.inputTokenAccount).data
      (bank first.key).data = true) :
    ∃ bank', deposit rt ctx inputMint decimals none amount bank = .ok bank' ∧
      Moves program ctx.accounts.inputTokenAccount first.key ctx.accounts.user src dst amount bank
        bank' := by
  obtain ⟨bank', hbank', hmoves⟩ := transferTokens_ok h hsource hmint hplain hpermits
  refine ⟨bank', ?_, hmoves⟩
  have hfund : fundInputAccount rt ctx inputMint program none amount bank = .ok (false, bank) := by
    rw [fundInputAccount, if_neg (by simp [isNativeMint, hnative])]
    rfl
  simp only [deposit, hfirst, ok_bind, hprograms.tokenProgramFor_eq hmint, hfund, hbank']
  rfl

/-! ## A leg -/

/-- A leg of full weight calls its venue with all its input account holds above the
reserve. -/
theorem runLeg_ok {venue : VenueProgram} {reservedBalances : List ℕ} {leg : ℕ}
    {swap : SwapSpecInputV2} {st : LegState} {input : AccountInfo} {reserved available : ℕ}
    {bank : Bank} (hpos : 0 < swap.nAccounts.toNat)
    (hslice : st.remainingAccountIndex + swap.nAccounts.toNat ≤ ctx.remainingAccounts.length)
    (hinput : ctx.get swap.from.toNat = .ok input)
    (hbalance : extractTokenAmount (st.bank input.key) = .ok (reserved + available))
    (hreserved : reservedBalances[swap.from.toNat]? = some reserved)
    (hfull : 1000000000 ≤ swap.weightNanos.toNat) (havailable : 0 < available)
    (hcall : performCpiSwap venue leg available swap
      (legInvocation ctx st.remainingAccountIndex swap.nAccounts.toNat).accountMetas
      (legInvocation ctx st.remainingAccountIndex swap.nAccounts.toNat).legAccounts st.bank =
        .ok bank) :
    ∃ st', runLeg venue ctx reservedBalances leg swap st = .ok st' ∧ st'.bank = bank := by
  have hle : available ≤ u64Max := by
    have hread := tokenAmount_le (st.bank input.key)
    rw [tokenAmount_of_extract hbalance] at hread
    omega
  have hweighted : weightedAmount available swap.weightNanos = available := by
    rw [weightedAmount_eq hle, weightShare_of_full hfull]
  simp only [runLeg, require, check, hpos, hslice, if_true, ok_bind, hinput, hbalance, hreserved,
    okOr, Nat.add_sub_cancel_left, hweighted, havailable, hcall]
  exact ⟨_, rfl, rfl⟩

/-! ## The payout -/

/-- Where the user is paid: an account of the output mint, or an address for one. -/
inductive Receiver (rt : Runtime) (program wallet mint address : Pubkey) (account : Account) :
    Prop
  | held (token : TokenAccount) (holds : Holds program account token)
      (not_frozen : token.frozen = false) (mint_eq : token.mint = mint)
      (lamports_pos : 0 < account.lamports)
  | vacant (vacant : Vacant account) (derived : rt.ataAddress wallet mint program = address)

theorem Receiver.vacant_of_missing {program wallet mint address : Pubkey} {account : Account}
    (h : Receiver rt program wallet mint address account)
    (hmissing : accountExists account = false) :
    Vacant account ∧ rt.ataAddress wallet mint program = address := by
  cases h with
  | held token holds not_frozen mint_eq lamports_pos =>
      rw [accountExists_of_unpacks holds.unpacks lamports_pos] at hmissing
      cases hmissing
  | vacant vacant derived => exact ⟨vacant, derived⟩

theorem Receiver.tokenAmount_le {wallet mint address : Pubkey} {bank : Bank}
    (h : Receiver rt (bank mint).owner wallet mint address (bank address)) :
    tokenAmount (bank address) ≤ balanceAt rt wallet mint address bank := by
  cases hexists : accountExists (bank address) with
  | true => rw [balanceAt, if_pos hexists]
  | false =>
      rw [tokenAmount_of_data_nil (h.vacant_of_missing hexists).1.data_eq]
      exact Nat.zero_le _

/-- The account the user is paid into is there, with what it held or opens with. -/
structure Ready (rt : Runtime) (wallet mint output payer : Pubkey) (bank ready : Bank)
    (token : TokenAccount) : Prop where
  holds : Holds (bank mint).owner (ready output) token
  not_frozen : token.frozen = false
  mint_eq : token.mint = mint
  amount_eq : token.amount = balanceAt rt wallet mint output bank
  extensions_eq : extensions (ready output).data = extensionsAt rt mint output bank
  contents : ∀ key, key ≠ output → SameContents (bank key) (ready key)
  frame : ∀ key, key ≠ output → key ≠ payer → ready key = bank key

theorem ensureOutputAccount_ok {outputMint : Pubkey} {decimals : UInt8} {bank : Bank}
    (h : Receiver rt (bank outputMint).owner ctx.accounts.user outputMint
      ctx.accounts.outputTokenAccount (bank ctx.accounts.outputTokenAccount))
    (hmint : IsMint (bank outputMint).owner (bank outputMint) decimals)
    (hplain : PlainMint rt (bank outputMint).owner outputMint (bank outputMint).data)
    (hne : ctx.accounts.payer ≠ ctx.accounts.outputTokenAccount)
    (hfunded : CanFund (bank ctx.accounts.payer)
      (slotCost rt ctx.accounts.user outputMint ctx.accounts.outputTokenAccount bank)) :
    ∃ ready token, ensureOutputAccount rt ctx outputMint (bank outputMint).owner bank = .ok ready ∧
      Ready rt ctx.accounts.user outputMint ctx.accounts.outputTokenAccount ctx.accounts.payer bank
        ready token := by
  cases hexists : accountExists (bank ctx.accounts.outputTokenAccount) with
  | true =>
      cases h with
      | held token holds not_frozen mint_eq lamports_pos =>
          refine ⟨bank, token, ?_, holds, not_frozen, mint_eq, ?_, ?_,
            fun _ _ => SameContents.refl _, fun _ _ _ => rfl⟩
          · rw [ensureOutputAccount, if_pos hexists]
            rfl
          · rw [balanceAt, if_pos hexists, tokenAmount_of_unpacks holds.unpacks]
          · rw [extensionsAt, if_pos hexists]
      | vacant vacant derived =>
          rw [not_accountExists_of_vacant vacant] at hexists
          cases hexists
  | false =>
      obtain ⟨hvacant, hderived⟩ := h.vacant_of_missing hexists
      rw [slotCost, hexists, if_neg Bool.false_ne_true] at hfunded
      obtain ⟨ready, hready, hopens, _⟩ := Openable.createIdempotent_ok
        (Openable.mk hvacant hderived hmint hne hfunded)
      obtain ⟨token, holds, fresh, hextensions⟩ := hopens.holds hmint.known hplain
      refine ⟨ready, token, ?_, holds, fresh.not_frozen, fresh.mint_eq, ?_, ?_, hopens.contents,
        hopens.frame⟩
      · rw [ensureOutputAccount, hexists, if_neg Bool.false_ne_true, hready]
        rfl
      · rw [balanceAt_of_opened hopens hne rfl hexists, tokenAmount_of_unpacks holds.unpacks]
      · rw [extensionsAt, hexists, if_neg Bool.false_ne_true]
        exact hextensions

/-- The output of the legs went to the user. -/
structure PaysOut (rt : Runtime) (ctx : Context) (mint ata : Pubkey) (held : TokenAccount)
    (amount : ℕ) (bank paid : Bank) : Prop where
  ata_holds : ∃ left, Debited ctx.accounts.titanPda amount held left ∧
    Holds (bank mint).owner (paid ata) left
  ata_extensions : extensions (paid ata).data = extensions (bank ata).data
  output_amount : tokenAmount (paid ctx.accounts.outputTokenAccount) =
    balanceAt rt ctx.accounts.user mint ctx.accounts.outputTokenAccount bank + amount
  contents : ∀ key, key ≠ ata → key ≠ ctx.accounts.outputTokenAccount →
    SameContents (bank key) (paid key)
  frame : ∀ key, key ≠ ata → key ≠ ctx.accounts.outputTokenAccount → key ≠ ctx.accounts.payer →
    paid key = bank key

theorem payOut_ok {outputMint : Pubkey} {outputAta : AccountInfo} {index : ℕ}
    {reservedBalances : List ℕ} {reserved amount : ℕ} {held : TokenAccount} {decimals : UInt8}
    {bank : Bank} (hprograms : StandardPrograms ctx) (hataInfo : ctx.get index = .ok outputAta)
    (hreserved : reservedBalances[index]? = some reserved)
    (hholds : Holds (bank outputMint).owner (bank outputAta.key) held)
    (hspend : Spendable held ctx.accounts.titanPda amount) (hheldMint : held.mint = outputMint)
    (hamount : held.amount = reserved + amount)
    (hreceiver : Receiver rt (bank outputMint).owner ctx.accounts.user outputMint
      ctx.accounts.outputTokenAccount (bank ctx.accounts.outputTokenAccount))
    (hroom : balanceAt rt ctx.accounts.user outputMint ctx.accounts.outputTokenAccount bank +
      amount ≤ u64Max)
    (hmint : IsMint (bank outputMint).owner (bank outputMint) decimals)
    (hplain : PlainMint rt (bank outputMint).owner outputMint (bank outputMint).data)
    (hpasses : LetsPass rt (bank outputMint).data (extensions (bank outputAta.key).data)
      (extensionsAt rt outputMint ctx.accounts.outputTokenAccount bank))
    (hsigns : SignsAlone (bank outputMint).owner ctx.accounts.titanPda bank)
    (hfunded : CanFund (bank ctx.accounts.payer)
      (slotCost rt ctx.accounts.user outputMint ctx.accounts.outputTokenAccount bank))
    (hne : ctx.accounts.outputTokenAccount ∉
      [ctx.accounts.payer, outputAta.key, outputMint, ctx.accounts.titanPda])
    (hataPayer : outputAta.key ≠ ctx.accounts.payer) :
    ∃ payout, payOut rt ctx index outputMint decimals reservedBalances bank = .ok payout ∧
      PaysOut rt ctx outputMint outputAta.key held amount bank payout.paid := by
  simp only [List.mem_cons, List.not_mem_nil, or_false, not_or] at hne
  obtain ⟨hnePayer, hneAta, hneMint, hneTitan⟩ := hne
  obtain ⟨ready, token, hready, hspec⟩ := ensureOutputAccount_ok hreceiver hmint hplain
    (Ne.symm hnePayer) hfunded
  have hmintReady := hspec.contents outputMint (Ne.symm hneMint)
  have hata : ready outputAta.key = bank outputAta.key :=
    hspec.frame _ (Ne.symm hneAta) hataPayer
  have hmoves : Movable (bank outputMint).owner outputAta.key ctx.accounts.outputTokenAccount
      ctx.accounts.titanPda held token amount ready := by
    refine ⟨?_, hspec.holds, Ne.symm hneAta, hheldMint.trans hspec.mint_eq.symm, hspend,
      hsigns.of_sameContents (hspec.contents _ (Ne.symm hneTitan)), hspec.not_frozen, by omega, ?_⟩
    · rw [hata]
      exact hholds
    · rw [hspec.amount_eq]
      exact hroom
  rw [← hmintReady.data_eq] at hplain hpasses
  obtain ⟨paid, hpaid, hmoved⟩ := transferTokens_ok hmoves hheldMint
    (hmint.of_sameContents hmintReady) hplain (hpasses _ _ (by rw [hata]) hspec.extensions_eq)
  refine ⟨⟨held.amount, amount, ready, paid⟩, ?_, hmoved.source_holds, ?_, ?_,
    fun key hkey hout => ?_, fun key hkey hout hkeyPayer => ?_⟩
  · simp only [payOut, hataInfo, ok_bind, extractTokenAmount_of_unpacks hholds.unpacks, hreserved,
      okOr, hamount, Nat.add_sub_cancel_left, hprograms.tokenProgramFor_eq hmint, hready, hpaid]
    rfl
  · rw [hmoved.extensions_eq, hata]
  · rw [tokenAmount_of_unpacks hmoved.destination_holds.unpacks, ← hspec.amount_eq]
  · simp only
    rw [hmoved.frame key hkey hout]
    exact hspec.contents key hout
  · exact (hmoved.frame key hkey hout).trans (hspec.frame key hout hkeyPayer)

/-! ## Closing -/

/-- The accounts a route opened, when it is about to close them. -/
structure Closables (rt : Runtime) (ctx : Context) (mintsCount : ℕ) (start : Bank)
    (createdAtas : BitVec 16) (bank : Bank) : Prop where
  mints : ∀ i < mintsCount, SameContents (start (ctx.keyAt (mintsCount + i)))
    (bank (ctx.keyAt (mintsCount + i)))
  signs : ∀ program, program = splTokenId ∨ program = token2022Id →
    SignsAlone program ctx.accounts.titanPda bank
  titan_ne : ∀ i < mintsCount, ctx.accounts.titanPda ≠ ctx.keyAt i
  created : ∀ i < mintsCount, createdAtas.getLsbD i = true → ∃ token,
    Unpacks (start (ctx.keyAt (mintsCount + i))).owner (bank (ctx.keyAt i)) token ∧
      token.owner = ctx.accounts.titanPda ∧ token.closeAuthority = none ∧
      extensions (bank (ctx.keyAt i)).data = newExtensions rt
        (start (ctx.keyAt (mintsCount + i))).owner (start (ctx.keyAt (mintsCount + i))).data

/-- The state of the close loop before its `i`-th slot. -/
structure ClosingLoop (ctx : Context) (mintsCount : ℕ) (bank : Bank) (i : ℕ) (st : Closing) :
    Prop where
  ahead : ∀ j < mintsCount, i ≤ j → st.bank (ctx.keyAt j) = bank (ctx.keyAt j)
  contents : ∀ key, (∀ j < mintsCount, key ≠ ctx.keyAt j) →
    SameContents (bank key) (st.bank key)

theorem ClosingLoop.step {mintsCount i : ℕ} {start bank : Bank} {createdAtas : BitVec 16}
    {st : Closing} (h : Openables rt ctx mintsCount start)
    (hclose : Closables rt ctx mintsCount start createdAtas bank) (hi : i < mintsCount)
    (hst : ClosingLoop ctx mintsCount bank i st) :
    ∃ st', closeCreatedAta rt ctx mintsCount createdAtas st i = .ok st' ∧
      ClosingLoop ctx mintsCount bank (i + 1) st' := by
  have hcount := h.count_le
  have hmax : maxMints = 12 := rfl
  have hkeep : ClosingLoop ctx mintsCount bank (i + 1) st :=
    ⟨fun j hj hij => hst.ahead j hj (by omega), hst.contents⟩
  cases hbit : createdAtas.getLsbD i with
  | false =>
      refine ⟨st, ?_, hkeep⟩
      rw [closeCreatedAta, if_pos ((and_bit_eq_zero _ (by omega)).mpr hbit)]
      rfl
  | true =>
      have hset : ¬createdAtas &&& (1#16 <<< i) = 0 := by
        rw [and_bit_eq_zero _ (by omega), hbit]
        exact Bool.true_eq_false_eq_False
      obtain ⟨ata, hata, hkey⟩ := h.keyAt_eq (show i < 2 * mintsCount by omega)
      obtain ⟨mint, hmintInfo, hmintKey⟩ :=
        h.keyAt_eq (show mintsCount + i < 2 * mintsCount by omega)
      obtain ⟨decimals, hmint⟩ := h.mint_ok i hi
      obtain ⟨token, hunpacks, howner, hauthority, hextensions⟩ := hclose.created i hi hbit
      rw [← hst.ahead i hi le_rfl] at hunpacks hextensions
      by_cases hempty : 0 < tokenAmount (st.bank (ctx.keyAt i))
      · refine ⟨st, ?_, hkeep⟩
        rw [closeCreatedAta, if_neg hset, hata, ok_bind, hkey, if_pos hempty]
        rfl
      · have hmintSame := (hclose.mints i hi).trans (hst.contents _ (h.mint_ne i hi))
        have hprogram := h.programs.tokenProgramFor_eq (hmint.of_sameContents hmintSame)
        have hsigns := (hclose.signs _ hmint.known).of_sameContents
          (hst.contents _ hclose.titan_ne)
        rw [tokenAmount_of_unpacks hunpacks, Nat.not_lt, Nat.le_zero] at hempty
        obtain ⟨bank', hbank'⟩ := @tokenClose_ok rt _ _ ctx.accounts.payer _ _ _ hmint.known
          hunpacks hempty (by rw [hauthority]; exact howner) hsigns (h.payer_ne i hi).symm
          ((h.plain i hi).permits_close _ hextensions)
        obtain ⟨_, hspec⟩ := tokenClose_spec hbank'
        refine ⟨⟨bank', st.closed ++ [i]⟩, ?_, fun j hj hij => ?_, fun key hkey => ?_⟩
        · rw [closeCreatedAta, if_neg hset, hata, ok_bind, hkey, tokenAmount_of_unpacks hunpacks,
            hempty, if_neg (Nat.lt_irrefl 0), hmintInfo, ok_bind, hmintKey, hprogram, hbank']
          rfl
        · have hne : ctx.keyAt j ≠ ctx.keyAt i := fun heq => by
            have hji := h.distinct j hj i hi heq
            omega
          exact (hspec.frame _ hne (h.payer_ne j hj).symm).trans (hst.ahead j hj (by omega))
        · exact (hst.contents key hkey).trans (hspec.contents key (hkey i hi))

/-- The accounts a route opened are closed where they are empty. -/
theorem closeCreatedAtas_ok {mintsCount : ℕ} {start bank : Bank} {createdAtas : BitVec 16}
    (h : Openables rt ctx mintsCount start)
    (hclose : Closables rt ctx mintsCount start createdAtas bank) :
    ∃ closing, closeCreatedAtas rt ctx mintsCount createdAtas bank = .ok closing ∧
      ∀ key, (∀ j < mintsCount, key ≠ ctx.keyAt j) →
        SameContents (bank key) (closing.bank key) := by
  obtain ⟨closing, hclosing, hloop⟩ := foldlM_range_ok (ClosingLoop ctx mintsCount bank)
    (fun i hi st hst => @ClosingLoop.step rt ctx _ _ _ _ createdAtas st h hclose hi hst)
    (show ClosingLoop ctx mintsCount bank 0 ⟨bank, []⟩ from
      ⟨fun _ _ _ => rfl, fun _ _ => SameContents.refl _⟩)
  exact ⟨closing, hclosing, hloop.contents⟩

end QuayTitan.Route
