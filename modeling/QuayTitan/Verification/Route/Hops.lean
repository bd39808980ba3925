import QuayTitan.Verification.Route.Progress

/-! # Routes of several hops

Every leg sells all that the one before it bought, through any mints of the route, some of them
more than once. When each venue fills its leg, the route succeeds and pays what the last one
gave. -/

namespace QuayTitan.Route

open ByteFields Fallible

variable {rt : Runtime} {venue : VenueProgram} {ctx : Context} {n : ℕ} {bank : Bank}

/-! ## Hops -/

/-- The two mints of a trade and the wallet's token accounts of them. -/
structure Sides where
  wallet : Pubkey
  ataIn : Pubkey
  ataOut : Pubkey
  mintIn : Pubkey
  mintOut : Pubkey
  programIn : Pubkey
  programOut : Pubkey

/-- The two token accounts when a venue is called for an amount. -/
structure Funded (sides : Sides) (amount : ℕ) (bank : Bank) (input output : TokenAccount) :
    Prop where
  input_holds : Holds sides.programIn (bank sides.ataIn) input
  output_holds : Holds sides.programOut (bank sides.ataOut) output
  input_spendable : Spendable input sides.wallet amount
  output_spendable : Spendable output sides.wallet 0
  input_mint : input.mint = sides.mintIn
  output_mint : output.mint = sides.mintOut

/-- A call took `amount` from the first account, gave `out` to the second, and reached only
its own accounts besides. -/
structure Exchanges (sides : Sides) (reach : Pubkey → Prop) (amount out : ℕ)
    (input output : TokenAccount) (bank bank' : Bank) : Prop where
  input_holds : ∃ left, Debited sides.wallet amount input left ∧
    Holds sides.programIn (bank' sides.ataIn) left
  output_holds : Holds sides.programOut (bank' sides.ataOut)
    { output with amount := output.amount + out }
  extensions_eq : ∀ key ∈ [sides.ataIn, sides.ataOut],
    extensions (bank' key).data = extensions (bank key).data
  frame : ∀ key, key ≠ sides.ataIn → key ≠ sides.ataOut → ¬reach key → bank' key = bank key

/-- An account apart from the payer's, TitanPDA's and the mints of the route. -/
structure Apart (ctx : Context) (mintsCount : ℕ) (key : Pubkey) : Prop where
  ne_payer : key ≠ ctx.accounts.payer
  ne_ata : ∀ i < mintsCount, key ≠ ctx.keyAt i
  ne_mint : ∀ i < mintsCount, key ≠ ctx.keyAt (mintsCount + i)
  ne_titan : key ≠ ctx.accounts.titanPda

/-- An account a venue may change besides the two it trades with. -/
structure Outside (ctx : Context) (mintsCount : ℕ) (bank : Bank) (key : Pubkey) : Prop where
  apart : Apart ctx mintsCount key
  ne_input : key ≠ ctx.accounts.inputTokenAccount
  ne_output : key ≠ ctx.accounts.outputTokenAccount
  foreign : isTitanPdaTokenAccount (bank key) ctx.accounts.titanPda = false

/-- A trade between two mints of the route. -/
def Context.hopSides (ctx : Context) (mintsCount : ℕ) (bank : Bank) (i j : ℕ) : Sides where
  wallet := ctx.accounts.titanPda
  ataIn := ctx.keyAt i
  ataOut := ctx.keyAt j
  mintIn := ctx.keyAt (mintsCount + i)
  mintOut := ctx.keyAt (mintsCount + j)
  programIn := (bank (ctx.keyAt (mintsCount + i))).owner
  programOut := (bank (ctx.keyAt (mintsCount + j))).owner

/-- What TitanPDA's account of a mint holds, or would be opened with. -/
def Context.heldAt (rt : Runtime) (ctx : Context) (mintsCount : ℕ) (bank : Bank) (i : ℕ) : ℕ :=
  balanceAt rt ctx.accounts.titanPda (ctx.keyAt (mintsCount + i)) (ctx.keyAt i) bank

/-- What every account of a route spends, when `held` spends `amount` first. -/
def spending (held amount : ℕ) (later : ℕ → ℕ) (i : ℕ) : ℕ :=
  (if i = held then amount else 0) + later i

/-- The bank a hop is called in: the first one, but for the accounts the route moves its funds
through and those that earlier hops changed. -/
def CalledAfter (ctx : Context) (mintsCount : ℕ) (touched : Pubkey → Prop) (bank called : Bank) :
    Prop :=
  ∀ key, (∀ i < mintsCount, key ≠ ctx.keyAt i) → key ≠ ctx.accounts.inputTokenAccount →
    ¬touched key → SameContents (bank key) (called key)

/-- A venue that gives `out` for `amount`, wherever its accounts are those of the first bank. -/
structure Hop (rt : Runtime) (venue : VenueProgram) (ctx : Context) (mintsCount : ℕ)
    (bank : Bank) (touched reach : Pubkey → Prop) (leg index : ℕ) (swap : SwapSpecInputV2)
    (amount out : ℕ) : Prop where
  to_lt : swap.to.toNat < mintsCount
  ne : swap.from.toNat ≠ swap.to.toNat
  full : 1000000000 ≤ swap.weightNanos.toNat
  nAccounts_pos : 0 < swap.nAccounts.toNat
  slice_le : index + swap.nAccounts.toNat ≤ ctx.remainingAccounts.length
  amount_pos : 0 < amount
  passed : ∀ slot ∈ [swap.from.toNat, swap.to.toNat], ctx.keyAt slot ∈
    (legInvocation ctx index swap.nAccounts.toNat).legAccounts.map AccountInfo.key
  outside : ∀ key, reach key → Outside ctx mintsCount bank key
  fills : ∀ called input output,
    Funded (ctx.hopSides mintsCount bank swap.from.toNat swap.to.toNat) amount called input
      output →
    input.amount = ctx.heldAt rt mintsCount bank swap.from.toNat + amount →
    output.amount = ctx.heldAt rt mintsCount bank swap.to.toNat →
    CalledAfter ctx mintsCount touched bank called →
    ∃ sellBase after, swap.venue = .quay sellBase ∧
      venue leg ⟨Quay.programId, (legInvocation ctx index swap.nAccounts.toNat).accountMetas,
        Quay.swapData (Quay.sideByte sellBase) amount⟩
        (legInvocation ctx index swap.nAccounts.toNat).legAccounts called = .ok after ∧
      Exchanges (ctx.hopSides mintsCount bank swap.from.toNat swap.to.toNat) reach amount out input
        output called after

/-- Hops from one holding to the next: `amount` of the mint `held` becomes `out` of the mint
`last`; `spent` is what each account spends on the way, the payout included. -/
inductive Hops (rt : Runtime) (venue : VenueProgram) (ctx : Context) (mintsCount : ℕ)
    (bank : Bank) : (touched : Pubkey → Prop) → (leg index held amount : ℕ) →
      List SwapSpecInputV2 → (last out : ℕ) → (spent : ℕ → ℕ) → Prop
  | done (touched leg index held amount) :
      Hops rt venue ctx mintsCount bank touched leg index held amount [] held amount
        (spending held amount fun _ => 0)
  | hop {touched leg index held amount swap rest last out spent} (reach) (next : ℕ)
      (from_eq : swap.from.toNat = held)
      (first : Hop rt venue ctx mintsCount bank touched reach leg index swap amount next)
      (later : Hops rt venue ctx mintsCount bank (fun key => touched key ∨ reach key) (leg + 1)
        (index + swap.nAccounts.toNat) swap.to.toNat next rest last out spent) :
      Hops rt venue ctx mintsCount bank touched leg index held amount (swap :: rest) last out
        (spending held amount spent)

variable {touched : Pubkey → Prop} {leg index held amount last out : ℕ}
  {swaps : List SwapSpecInputV2} {spent : ℕ → ℕ}

theorem Hops.indices_lt
    (h : Hops rt venue ctx n bank touched leg index held amount swaps last out spent)
    (hheld : held < n) :
    last < n ∧ ∀ swap ∈ swaps, swap.from.toNat < n ∧ swap.to.toNat < n := by
  induction h with
  | done => exact ⟨hheld, by simp⟩
  | hop reach next from_eq first later ih =>
      obtain ⟨hlast, hrest⟩ := ih first.to_lt
      refine ⟨hlast, List.forall_mem_cons.mpr ⟨⟨?_, first.to_lt⟩, hrest⟩⟩
      rw [from_eq]
      exact hheld

theorem Hops.getLast
    (h : Hops rt venue ctx n bank touched leg index held amount swaps last out spent)
    {swap : SwapSpecInputV2} (hswap : swaps.getLast? = some swap) : swap.to.toNat = last := by
  induction h with
  | done => cases hswap
  | @hop _ _ _ _ _ first rest _ _ _ reach next from_eq hop later ih =>
      cases rest with
      | nil =>
          obtain rfl : first = swap := by simpa using hswap
          cases later
          rfl
      | cons second rest => exact ih (by simpa using hswap)

/-! ## The legs -/

/-- What an account has become since it was opened: it holds `amount` more, and its wallet can
spend `limit` from it. -/
structure Remains (wallet : Pubkey) (amount limit : ℕ) (opened token : TokenAccount) : Prop where
  spendable : Spendable token wallet limit
  amount_eq : token.amount = opened.amount + amount
  mint_eq : token.mint = opened.mint
  closeAuthority_eq : token.closeAuthority = opened.closeAuthority

section Remains

variable {wallet : Pubkey} {limit : ℕ} {opened token token' : TokenAccount}

theorem Remains.debited (h : Remains wallet amount (amount + limit) opened token)
    (hdebited : Debited wallet amount token token') : Remains wallet 0 limit opened token' := by
  refine ⟨h.spendable.debited hdebited, ?_, hdebited.mint_eq.trans h.mint_eq,
    hdebited.closeAuthority_eq.trans h.closeAuthority_eq⟩
  rw [hdebited.amount_eq, h.amount_eq, Nat.add_sub_cancel, Nat.add_zero]

theorem Remains.credited (h : Remains wallet 0 limit opened token) (amount : ℕ) :
    Remains wallet amount limit opened { token with amount := token.amount + amount } :=
  ⟨h.spendable.withAmount _, congrArg (· + amount) h.amount_eq, h.mint_eq, h.closeAuthority_eq⟩

end Remains

/-- TitanPDA's accounts since they were opened, with `amount` more of the mint `held` and `spent`
still to be spent. -/
structure Holding (rt : Runtime) (ctx : Context) (mintsCount : ℕ) (bank deposited : Bank)
    (tokens : ℕ → TokenAccount) (touched : Pubkey → Prop) (held amount : ℕ) (spent : ℕ → ℕ)
    (now : Bank) : Prop where
  atas : ∀ i < mintsCount, ∃ token,
    Holds (bank (ctx.keyAt (mintsCount + i))).owner (now (ctx.keyAt i)) token ∧
      Remains ctx.accounts.titanPda (if i = held then amount else 0) (spent i) (tokens i) token
  extensions_eq : ∀ i < mintsCount, extensions (now (ctx.keyAt i)).data =
    extensionsAt rt (ctx.keyAt (mintsCount + i)) (ctx.keyAt i) bank
  frame : ∀ key, (∀ i < mintsCount, key ≠ ctx.keyAt i) → ¬touched key →
    now key = deposited key

/-- What the accounts hold besides the funds of the route. -/
structure Reserved (rt : Runtime) (ctx : Context) (mintsCount : ℕ) (bank : Bank)
    (tokens : ℕ → TokenAccount) (reservedBalances : List ℕ) : Prop where
  mint_eq : ∀ i < mintsCount, (tokens i).mint = ctx.keyAt (mintsCount + i)
  amount_eq : ∀ i < mintsCount, (tokens i).amount = ctx.heldAt rt mintsCount bank i
  reserved : ∀ i < mintsCount, reservedBalances[i]? = some (tokens i).amount

section Legs

variable {deposited : Bank} {tokens : ℕ → TokenAccount} {reservedBalances : List ℕ}
  {swap : SwapSpecInputV2} {reach : Pubkey → Prop} {next : ℕ} {st : LegState}

/-- What the accounts hold after an exchange: `now` is what the venue left of the accounts it was
given. -/
theorem Hop.exchanged (h : Hop rt venue ctx n bank touched reach leg index swap amount next)
    (hatas : Openables rt ctx n bank) (hfrom : swap.from.toNat < n) {before after now : Bank}
    {input output : TokenAccount}
    (hholding : Holding rt ctx n bank deposited tokens touched swap.from.toNat amount
      (spending swap.from.toNat amount spent) before)
    (hpays : Remains ctx.accounts.titanPda amount (amount + spent swap.from.toNat)
      (tokens swap.from.toNat) input)
    (hreceives : Remains ctx.accounts.titanPda 0 (spent swap.to.toNat) (tokens swap.to.toNat)
      output)
    (hexchanges : Exchanges (ctx.hopSides n bank swap.from.toNat swap.to.toNat) reach amount next
      input output before after)
    (hnow : ∀ key, now key =
      if key ∈ (legInvocation ctx index swap.nAccounts.toNat).legAccounts.map AccountInfo.key then
        after key else before key) :
    Holding rt ctx n bank deposited tokens (fun key => touched key ∨ reach key) swap.to.toNat next
      spent now := by
  obtain ⟨left, hdebited, hleft⟩ := hexchanges.input_holds
  -- An account of the route that the hop does not trade with stays as it is.
  have hother {i : ℕ} (hi : i < n) (hin : i ≠ swap.from.toNat) (hout : i ≠ swap.to.toNat) :
      now (ctx.keyAt i) = before (ctx.keyAt i) := by
    rw [hnow]
    split
    · exact hexchanges.frame _ (fun heq => hin (hatas.distinct i hi _ hfrom heq))
        (fun heq => hout (hatas.distinct i hi _ h.to_lt heq))
        fun hreach => (h.outside _ hreach).apart.ne_ata i hi rfl
    · rfl
  refine ⟨fun i hi => ?_, fun i hi => ?_, fun key hata hreach => ?_⟩
  · by_cases hin : i = swap.from.toNat
    · rw [hin, if_neg h.ne, hnow, if_pos (h.passed _ (by simp))]
      exact ⟨left, hleft, hpays.debited hdebited⟩
    by_cases hout : i = swap.to.toNat
    · rw [hout, if_pos rfl, hnow, if_pos (h.passed _ (by simp))]
      exact ⟨_, hexchanges.output_holds, hreceives.credited next⟩
    · have hkept := hholding.atas i hi
      rw [spending, if_neg hin, Nat.zero_add] at hkept
      rw [hother hi hin hout, if_neg hout]
      exact hkept
  · rw [← hholding.extensions_eq i hi]
    by_cases hin : i = swap.from.toNat
    · rw [hin, hnow, if_pos (h.passed _ (by simp))]
      exact hexchanges.extensions_eq _ (by simp [Context.hopSides])
    by_cases hout : i = swap.to.toNat
    · rw [hout, hnow, if_pos (h.passed _ (by simp))]
      exact hexchanges.extensions_eq _ (by simp [Context.hopSides])
    · rw [hother hi hin hout]
  · obtain ⟨htouched, hreached⟩ := not_or.mp hreach
    rw [← hholding.frame key hata htouched, hnow]
    split
    · exact hexchanges.frame key (hata _ hfrom) (hata _ h.to_lt) hreached
    · rfl

/-- A hop moves the funds of the route on. -/
theorem Hop.run (h : Hop rt venue ctx n bank touched reach leg index swap amount next)
    (hatas : Openables rt ctx n bank) (hfrom : swap.from.toNat < n)
    (hreserved : Reserved rt ctx n bank tokens reservedBalances)
    (hagree : CalledAfter ctx n (fun _ => False) bank deposited)
    (hholding : Holding rt ctx n bank deposited tokens touched swap.from.toNat amount
      (spending swap.from.toNat amount spent) st.bank)
    (hindex : st.remainingAccountIndex = index) :
    ∃ st', runLeg venue ctx reservedBalances leg swap st = .ok st' ∧
      st'.remainingAccountIndex = index + swap.nAccounts.toNat ∧
      Holding rt ctx n bank deposited tokens (fun key => touched key ∨ reach key) swap.to.toNat next
        spent st'.bank := by
  obtain ⟨input, hinput, hpays⟩ := hholding.atas _ hfrom
  obtain ⟨output, houtput, hreceives⟩ := hholding.atas _ h.to_lt
  rw [spending, if_pos rfl] at hpays
  rw [spending, if_neg h.ne.symm, Nat.zero_add] at hreceives
  have hheld : input.amount = ctx.heldAt rt n bank swap.from.toNat + amount := by
    rw [hpays.amount_eq, hreserved.amount_eq _ hfrom]
  have hfunded : Funded (ctx.hopSides n bank swap.from.toNat swap.to.toNat) amount st.bank input
      output :=
    ⟨hinput, houtput, hpays.spendable.mono (Nat.le_add_right _ _),
      hreceives.spendable.mono (Nat.zero_le _), hpays.mint_eq.trans (hreserved.mint_eq _ hfrom),
      hreceives.mint_eq.trans (hreserved.mint_eq _ h.to_lt)⟩
  have hcalled : CalledAfter ctx n touched bank st.bank := by
    intro key hata hne htouched
    rw [hholding.frame key hata htouched]
    exact hagree key hata hne not_false
  obtain ⟨sellBase, after, hvenue, hcall, hexchanges⟩ := h.fills st.bank _ _ hfunded hheld
    (by rw [hreceives.amount_eq, hreserved.amount_eq _ h.to_lt, Nat.add_zero]) hcalled
  subst hindex
  obtain ⟨info, hinfo, hkey⟩ := hatas.keyAt_eq (show swap.from.toNat < 2 * n by omega)
  have hbalance : extractTokenAmount (st.bank info.key) =
      .ok ((tokens swap.from.toNat).amount + amount) := by
    rw [hkey, ← hpays.amount_eq]
    exact extractTokenAmount_of_unpacks hinput.unpacks
  obtain ⟨st', hleg, hbank⟩ := runLeg_ok h.nAccounts_pos h.slice_le hinfo hbalance
    (hreserved.reserved _ hfrom) h.full h.amount_pos
    ((performCpiSwap_eq_ok hvenue).mpr ⟨after, hcall, rfl⟩)
  obtain ⟨record, hspec⟩ := runLeg_spec hleg
  exact ⟨st', hleg, hspec.index_eq,
    h.exchanged hatas hfrom hholding hpays hreceives hexchanges (congrFun hbank)⟩

theorem Hops.run
    (h : Hops rt venue ctx n bank touched leg index held amount swaps last out spent)
    (hatas : Openables rt ctx n bank) (hheld : held < n)
    (hreserved : Reserved rt ctx n bank tokens reservedBalances)
    (hagree : CalledAfter ctx n (fun _ => False) bank deposited)
    (htouched : ∀ key, touched key → Outside ctx n bank key)
    (hholding : Holding rt ctx n bank deposited tokens touched held amount spent st.bank)
    (hindex : st.remainingAccountIndex = index) :
    ∃ st', runLegs venue ctx reservedBalances swaps leg st = .ok st' ∧
      Holding rt ctx n bank deposited tokens (Outside ctx n bank) last out
        (spending last out fun _ => 0) st'.bank := by
  induction h generalizing st with
  | done =>
      exact ⟨st, rfl, hholding.atas, hholding.extensions_eq, fun key hata houtside =>
        hholding.frame key hata fun hreached => houtside (htouched key hreached)⟩
  | hop reach next from_eq first later ih =>
      subst from_eq
      obtain ⟨mid, hmid, hmidIndex, hmoved⟩ :=
        first.run hatas hheld hreserved hagree hholding hindex
      have hreached : ∀ key, _ ∨ reach key → Outside ctx n bank key :=
        fun key hkey => hkey.elim (htouched key) (first.outside key)
      obtain ⟨st', hst', hlast⟩ := ih first.to_lt hreached hmoved hmidIndex
      refine ⟨st', ?_, hlast⟩
      rw [runLegs, hmid]
      exact hst'

end Legs

/-! ## The route -/

/-- The lamports that open the missing accounts of the route and of the payout. -/
def Context.routeCosts (rt : Runtime) (ctx : Context) (mintsCount last : ℕ) (bank : Bank) : ℕ :=
  (∑ i ∈ Finset.range mintsCount,
    slotCost rt ctx.accounts.titanPda (ctx.keyAt (mintsCount + i)) (ctx.keyAt i) bank) +
  slotCost rt ctx.accounts.user (ctx.keyAt (mintsCount + last)) ctx.accounts.outputTokenAccount bank

/-- The accounts of a route that sells `amount` of the first mint for `out` of the mint `last`;
`spent` is what each account of TitanPDA spends. -/
structure RouteReady (rt : Runtime) (ctx : Context) (amount : UInt64) (mints : UInt8)
    (last out : ℕ) (spent : ℕ → ℕ) (paying : TokenAccount) (bank : Bank) : Prop where
  mints_gt : 1 < mints
  no_ledger : ctx.accounts.tokenLedger = none
  not_native : ctx.keyAt mints.toNat ≠ nativeMintId
  atas : Openables rt ctx mints.toNat bank
  allowances : ∀ i < mints.toNat, ∀ token,
    Unpacks (bank (ctx.keyAt (mints.toNat + i))).owner (bank (ctx.keyAt i)) token →
      token.delegate = some ctx.accounts.titanPda → spent i ≤ token.delegatedAmount
  paying_holds : Holds (bank (ctx.keyAt mints.toNat)).owner (bank ctx.accounts.inputTokenAccount)
    paying
  paying_spendable : Spendable paying ctx.accounts.user amount.toNat
  paying_mint : paying.mint = ctx.keyAt mints.toNat
  paying_amount : amount.toNat ≤ paying.amount
  receiver : Receiver rt (bank (ctx.keyAt (mints.toNat + last))).owner ctx.accounts.user
    (ctx.keyAt (mints.toNat + last)) ctx.accounts.outputTokenAccount
    (bank ctx.accounts.outputTokenAccount)
  costs_funded : CanFund (bank ctx.accounts.payer) (ctx.routeCosts rt mints.toNat last bank)
  deposit_passes : LetsPass rt (bank (ctx.keyAt mints.toNat)).data
    (extensions (bank ctx.accounts.inputTokenAccount).data)
    (extensionsAt rt (ctx.keyAt mints.toNat) (ctx.keyAt 0) bank)
  payout_passes : LetsPass rt (bank (ctx.keyAt (mints.toNat + last))).data
    (extensionsAt rt (ctx.keyAt (mints.toNat + last)) (ctx.keyAt last) bank)
    (extensionsAt rt (ctx.keyAt (mints.toNat + last)) ctx.accounts.outputTokenAccount bank)
  input_room : ctx.heldAt rt mints.toNat bank 0 + amount.toNat ≤ u64Max
  user_room : balanceAt rt ctx.accounts.user (ctx.keyAt (mints.toNat + last))
    ctx.accounts.outputTokenAccount bank + out ≤ u64Max
  user_signs : SignsAlone (bank (ctx.keyAt mints.toNat)).owner ctx.accounts.user bank
  titan_signs : ∀ program, program = splTokenId ∨ program = token2022Id →
    SignsAlone program ctx.accounts.titanPda bank
  user_ne : ∀ i < mints.toNat, ctx.accounts.user ≠ ctx.keyAt i
  user_ne_titan : ctx.accounts.user ≠ ctx.accounts.titanPda
  titan_ne : ∀ i < mints.toNat, ctx.accounts.titanPda ≠ ctx.keyAt i
  input_apart : Apart ctx mints.toNat ctx.accounts.inputTokenAccount
  output_apart : Apart ctx mints.toNat ctx.accounts.outputTokenAccount
  input_ne_output : ctx.accounts.inputTokenAccount ≠ ctx.accounts.outputTokenAccount

/-- The accounts and the hops of a route. -/
structure HopRoute (rt : Runtime) (venue : VenueProgram) (ctx : Context) (amount : UInt64)
    (mints : UInt8) (swaps : List SwapSpecInputV2) (last out : ℕ) (spent : ℕ → ℕ)
    (paying : TokenAccount) (bank : Bank) : Prop
    extends RouteReady rt ctx amount mints last out spent paying bank where
  swaps_ne : swaps ≠ []
  swaps_le : swaps.length ≤ maxSwaps
  hops : Hops rt venue ctx mints.toNat bank (fun _ => False) 0 (2 * mints.toNat) 0 amount.toNat
    swaps last out spent

/-- The locals when the legs start: the accounts are open and the deposit is made. -/
structure PreparedHops (rt : Runtime) (ctx : Context) (mintsCount last amount : ℕ)
    (paying : TokenAccount) (bank : Bank) (prepared : Prepared) (tokens : ℕ → TokenAccount) :
    Prop where
  opening : Opening rt ctx mintsCount bank mintsCount prepared.opened
  snapshots : SnapshotSpec ctx.accounts.titanPda mintsCount prepared.opened.bank
    ctx.remainingAccounts prepared.snapshot
  opened : ∀ i < mintsCount, OpenedSlot rt ctx.accounts.titanPda (ctx.keyAt (mintsCount + i))
    (ctx.keyAt i) bank (prepared.opened.bank (ctx.keyAt i)) (tokens i)
  moves : Moves (bank (ctx.keyAt mintsCount)).owner ctx.accounts.inputTokenAccount (ctx.keyAt 0)
    ctx.accounts.user paying (tokens 0) amount prepared.opened.bank prepared.deposited
  output_index : prepared.outputAtaIndex = last
  output_mint : prepared.outputMint = ctx.keyAt (mintsCount + last)
  output_decimals : IsMint (bank (ctx.keyAt (mintsCount + last))).owner
    (bank (ctx.keyAt (mintsCount + last))) prepared.outputDecimals

section Route

variable {amount : UInt64} {mints : UInt8} {paying : TokenAccount}

theorem HopRoute.mints_pos
    (h : HopRoute rt venue ctx amount mints swaps last out spent paying bank) :
    0 < mints.toNat :=
  Nat.zero_lt_of_lt (UInt8.lt_iff_toNat_lt.mp h.mints_gt)

theorem HopRoute.last_lt (h : HopRoute rt venue ctx amount mints swaps last out spent paying bank) :
    last < mints.toNat :=
  (h.hops.indices_lt h.mints_pos).1

theorem HopRoute.checkShape_ok
    (h : HopRoute rt venue ctx amount mints swaps last out spent paying bank) :
    checkShape ctx mints swaps = .ok () := by
  have hindices := (h.hops.indices_lt h.mints_pos).2
  have hhops := h.hops
  obtain ⟨first, rest, rfl⟩ := List.exists_cons_of_ne_nil h.swaps_ne
  cases hhops with
  | hop reach next from_eq fills later =>
      have hfrom : first.from = 0 := UInt8.toNat.inj from_eq
      have hlegs : ∀ swap ∈ first :: rest, swap.from < mints ∧ swap.to < mints := fun swap hswap =>
        ⟨UInt8.lt_iff_toNat_lt.mpr (hindices swap hswap).1,
          UInt8.lt_iff_toNat_lt.mpr (hindices swap hswap).2⟩
      simp only [checkShape, bind_eq_ok, require_eq_ok, okOr_eq_ok]
      exact ⟨⟨⟩, ⟨h.mints_gt, h.swaps_ne⟩, ⟨⟩, h.swaps_le, ⟨⟩, h.atas.count_le, ⟨⟩,
        h.atas.remaining_le, first, rfl, ⟨⟩, hfrom, hlegs⟩

/-- The user's deposit can be moved into the open account. -/
theorem HopRoute.movable (h : HopRoute rt venue ctx amount mints swaps last out spent paying bank)
    {opened : Opened} {input : TokenAccount}
    (hopening : Opening rt ctx mints.toNat bank mints.toNat opened)
    (hinput : OpenedSlot rt ctx.accounts.titanPda (ctx.keyAt mints.toNat) (ctx.keyAt 0) bank
      (opened.bank (ctx.keyAt 0)) input) :
    Movable (bank (ctx.keyAt mints.toNat)).owner ctx.accounts.inputTokenAccount (ctx.keyAt 0)
      ctx.accounts.user paying input amount.toNat opened.bank := by
  refine ⟨?_, hinput.holds, h.input_apart.ne_ata 0 h.mints_pos,
    h.paying_mint.trans hinput.mint_eq.symm, h.paying_spendable,
    h.user_signs.of_sameContents (hopening.contents _ h.user_ne), hinput.spendable.not_frozen,
    h.paying_amount, ?_⟩
  · rw [hopening.frame _ h.input_apart.ne_ata h.input_apart.ne_payer]
    exact h.paying_holds
  · rw [hinput.amount_eq]
    exact h.input_room

theorem HopRoute.deposits (h : HopRoute rt venue ctx amount mints swaps last out spent paying bank)
    {opened : Opened} {input : TokenAccount} {decimals : UInt8}
    (hopening : Opening rt ctx mints.toNat bank mints.toNat opened)
    (hinput : OpenedSlot rt ctx.accounts.titanPda (ctx.keyAt mints.toNat) (ctx.keyAt 0) bank
      (opened.bank (ctx.keyAt 0)) input)
    (hmint : IsMint (bank (ctx.keyAt mints.toNat)).owner (bank (ctx.keyAt mints.toNat)) decimals) :
    ∃ deposited, deposit rt ctx (ctx.keyAt mints.toNat) decimals none amount.toNat opened.bank =
        .ok deposited ∧
      Moves (bank (ctx.keyAt mints.toNat)).owner ctx.accounts.inputTokenAccount (ctx.keyAt 0)
        ctx.accounts.user paying input amount.toNat opened.bank deposited := by
  have hpos := h.mints_pos
  obtain ⟨first, hfirst, hfirstKey⟩ := h.atas.keyAt_eq (show 0 < 2 * mints.toNat by omega)
  have hmintSame := hopening.contents (ctx.keyAt mints.toNat) (h.atas.mint_ne 0 hpos)
  have hplain := h.atas.plain 0 hpos
  rw [Nat.add_zero] at hplain
  have hpasses := h.deposit_passes
  rw [← hmintSame.data_eq] at hplain hpasses
  have hpaying := hopening.frame _ h.input_apart.ne_ata h.input_apart.ne_payer
  have hpermits := hpasses (opened.bank ctx.accounts.inputTokenAccount).data _ (by rw [hpaying])
    (hopening.extensions_eq 0 hpos)
  have hmovable := h.movable hopening hinput
  rw [← hfirstKey] at hmovable hpermits ⊢
  exact deposit_ok h.atas.programs hfirst hmovable h.paying_mint h.not_native
    (hmint.of_sameContents hmintSame) hplain hpermits

theorem HopRoute.prepares
    (h : HopRoute rt venue ctx amount mints swaps last out spent paying bank) :
    ∃ prepared tokens, prepare rt ctx amount mints swaps bank = .ok prepared ∧
      PreparedHops rt ctx mints.toNat last amount.toNat paying bank prepared tokens := by
  have hpos := h.mints_pos
  have hlast := h.last_lt
  obtain ⟨opened, hopened, hopening⟩ := createMissingAtas_ok h.atas
  have hinhabited : Nonempty TokenAccount := ⟨paying⟩
  choose! tokens htokens using hopening.opened
  obtain ⟨inputDecimals, hinMint⟩ := h.atas.mint_ok 0 hpos
  obtain ⟨outputDecimals, houtMint⟩ := h.atas.mint_ok last hlast
  obtain ⟨inMint, hinInfo, hinKey⟩ :=
    h.atas.keyAt_eq (show mints.toNat < 2 * mints.toNat by omega)
  obtain ⟨outMint, houtInfo, houtKey⟩ :=
    h.atas.keyAt_eq (show mints.toNat + last < 2 * mints.toNat by omega)
  have htitan : ∀ j info, 0 + j < mints.toNat → ctx.remainingAccounts[j]? = some info →
      isTitanPdaTokenAccount (opened.bank info.key) ctx.accounts.titanPda = true := by
    intro j info hj hinfo
    rw [Nat.zero_add] at hj
    obtain ⟨decimals, hmint⟩ := h.atas.mint_ok j hj
    rw [← Context.keyAt_eq hinfo]
    exact isTitanPda_of_holds hmint.known (htokens j hj).holds (htokens j hj).spendable.owner_eq
  obtain ⟨snapshot, hsnapshot⟩ := @takeSnapshot_ok ctx.accounts.titanPda mints.toNat 0 opened.bank
    ctx.remainingAccounts .new htitan
  rw [Nat.add_zero] at hinMint
  obtain ⟨deposited, hdeposited, hmoves⟩ := h.deposits hopening (htokens 0 hpos) hinMint
  refine ⟨⟨last, ctx.keyAt (mints.toNat + last), outputDecimals, opened, snapshot, none,
    amount.toNat, deposited⟩, tokens, ?_, hopening, takeSnapshot_spec h.atas.count_le hsnapshot,
    htokens, hmoves, rfl, rfl, houtMint⟩
  have hlastSwap : swaps.getLast? = some (swaps.getLast h.swaps_ne) :=
    List.getLast?_eq_some_getLast h.swaps_ne
  have hto := h.hops.getLast hlastSwap
  have hledger : readTokenLedger ctx bank = .ok none := by
    rw [readTokenLedger, h.no_ledger]
    rfl
  have heffective : readEffectiveAmount ctx none amount.toNat opened.bank = .ok amount.toNat := rfl
  simp only [prepare, h.checkShape_ok, ok_bind, hledger, hinInfo, hlastSwap, okOr, hto, houtInfo,
    hinKey, houtKey, extractMintDecimals_of_isMint hinMint, extractMintDecimals_of_isMint houtMint,
    hopened, hsnapshot, heffective, hdeposited]
  rfl

section Traded

variable {prepared : Prepared} {tokens : ℕ → TokenAccount} {traded : Bank}

/-- What the accounts hold besides the deposit is what the snapshot reserves. -/
theorem PreparedHops.reserved
    (hp : PreparedHops rt ctx mints.toNat last amount.toNat paying bank prepared tokens)
    (h : HopRoute rt venue ctx amount mints swaps last out spent paying bank) :
    Reserved rt ctx mints.toNat bank tokens prepared.snapshot.reservedBalances := by
  refine ⟨fun i hi => (hp.opened i hi).mint_eq, fun i hi => (hp.opened i hi).amount_eq,
    fun i hi => ?_⟩
  obtain ⟨info, hinfo, hkey⟩ := h.atas.keyAt_eq (show i < 2 * mints.toNat by omega)
  rw [← tokenAmount_of_unpacks (hp.opened i hi).holds.unpacks, ← hkey]
  exact hp.snapshots.reserved i info hi (Context.get_eq_ok.mp hinfo)

/-- After the deposit the funds of the route are the amount of the first mint. -/
theorem PreparedHops.holding
    (hp : PreparedHops rt ctx mints.toNat last amount.toNat paying bank prepared tokens)
    (h : HopRoute rt venue ctx amount mints swaps last out spent paying bank) :
    Holding rt ctx mints.toNat bank prepared.deposited tokens (fun _ => False) 0 amount.toNat
      spent prepared.deposited := by
  refine ⟨fun i hi => ?_, fun i hi => ?_, fun _ _ _ => rfl⟩
  · have hspendable := (hp.opened i hi).spendable_of_allowance (h.allowances i hi)
    have hopened : Remains ctx.accounts.titanPda 0 (spent i) (tokens i) (tokens i) :=
      ⟨hspendable, rfl, rfl, rfl⟩
    by_cases hzero : i = 0
    · subst hzero
      rw [if_pos rfl]
      exact ⟨_, hp.moves.destination_holds, hopened.credited amount.toNat⟩
    · have hne : ctx.keyAt i ≠ ctx.keyAt 0 :=
        fun heq => hzero (h.atas.distinct i hi 0 h.mints_pos heq)
      rw [if_neg hzero, hp.moves.frame _ (h.input_apart.ne_ata i hi).symm hne]
      exact ⟨tokens i, (hp.opened i hi).holds, hopened⟩
  · rw [hp.moves.extensions_eq]
    exact hp.opening.extensions_eq i hi

theorem PreparedHops.deposited_agrees
    (hp : PreparedHops rt ctx mints.toNat last amount.toNat paying bank prepared tokens)
    (h : HopRoute rt venue ctx amount mints swaps last out spent paying bank) :
    CalledAfter ctx mints.toNat (fun _ => False) bank prepared.deposited := by
  intro key hata hinput _
  rw [hp.moves.frame key hinput (hata 0 h.mints_pos)]
  exact hp.opening.contents key hata

theorem HopRoute.trades (h : HopRoute rt venue ctx amount mints swaps last out spent paying bank)
    (hp : PreparedHops rt ctx mints.toNat last amount.toNat paying bank prepared tokens) :
    ∃ traded, prepared.trade venue ctx mints swaps = .ok traded ∧
      Holding rt ctx mints.toNat bank prepared.deposited tokens (Outside ctx mints.toNat bank) last
        out (spending last out fun _ => 0) traded.bank := by
  have hstart : Holding rt ctx mints.toNat bank prepared.deposited tokens (fun _ => False) 0
      amount.toNat spent (LegState.mk prepared.deposited (2 * mints.toNat) []).bank := hp.holding h
  exact h.hops.run h.atas h.mints_pos (hp.reserved h) (hp.deposited_agrees h) (fun _ => False.elim)
    hstart rfl

/-- An account apart from the route's is the one the opening left. -/
theorem Holding.unreached
    (ht : Holding rt ctx mints.toNat bank prepared.deposited tokens (Outside ctx mints.toNat bank)
      last out (spending last out fun _ => 0) traded)
    (hp : PreparedHops rt ctx mints.toNat last amount.toNat paying bank prepared tokens)
    (h : HopRoute rt venue ctx amount mints swaps last out spent paying bank) {key : Pubkey}
    (hata : ∀ i < mints.toNat, key ≠ ctx.keyAt i) (hinput : key ≠ ctx.accounts.inputTokenAccount)
    (houtside : ¬Outside ctx mints.toNat bank key) : traded key = prepared.opened.bank key := by
  rw [ht.frame key hata houtside, hp.moves.frame key hinput (hata 0 h.mints_pos)]

/-- What the payout starts from. -/
structure SettledHops (rt : Runtime) (ctx : Context) (mintsCount last : ℕ) (bank traded : Bank) :
    Prop where
  payer : SameContents (bank ctx.accounts.payer) (traded ctx.accounts.payer)
  titan : SameContents (bank ctx.accounts.titanPda) (traded ctx.accounts.titanPda)
  mints : ∀ i < mintsCount, SameContents (bank (ctx.keyAt (mintsCount + i)))
    (traded (ctx.keyAt (mintsCount + i)))
  output_eq : traded ctx.accounts.outputTokenAccount = bank ctx.accounts.outputTokenAccount
  funded : CanFund (traded ctx.accounts.payer) (slotCost rt ctx.accounts.user
    (ctx.keyAt (mintsCount + last)) ctx.accounts.outputTokenAccount traded)

theorem HopRoute.settled (h : HopRoute rt venue ctx amount mints swaps last out spent paying bank)
    (hp : PreparedHops rt ctx mints.toNat last amount.toNat paying bank prepared tokens)
    (ht : Holding rt ctx mints.toNat bank prepared.deposited tokens (Outside ctx mints.toNat bank)
      last out (spending last out fun _ => 0) traded) :
    SettledHops rt ctx mints.toNat last bank traded := by
  have hlast := h.last_lt
  have hpayer : traded ctx.accounts.payer = prepared.opened.bank ctx.accounts.payer :=
    ht.unreached hp h h.atas.payer_ne h.input_apart.ne_payer.symm
      fun houtside => houtside.apart.ne_payer rfl
  have hpayerSame : SameContents (bank ctx.accounts.payer) (traded ctx.accounts.payer) := by
    rw [hpayer]
    exact hp.opening.contents _ h.atas.payer_ne
  have hmints : ∀ i < mints.toNat, SameContents (bank (ctx.keyAt (mints.toNat + i)))
      (traded (ctx.keyAt (mints.toNat + i))) := by
    intro i hi
    rw [ht.unreached hp h (h.atas.mint_ne i hi) (h.input_apart.ne_mint i hi).symm
      fun houtside => houtside.apart.ne_mint i hi rfl]
    exact hp.opening.contents _ (h.atas.mint_ne i hi)
  have houtput : traded ctx.accounts.outputTokenAccount = bank ctx.accounts.outputTokenAccount := by
    rw [ht.unreached hp h h.output_apart.ne_ata h.input_ne_output.symm
      fun houtside => houtside.ne_output rfl]
    exact hp.opening.frame _ h.output_apart.ne_ata h.output_apart.ne_payer
  refine ⟨hpayerSame, ?_, hmints, houtput, ?_⟩
  · rw [ht.unreached hp h h.titan_ne h.input_apart.ne_titan.symm
      fun houtside => houtside.apart.ne_titan rfl]
    exact hp.opening.contents _ h.titan_ne
  · rw [slotCost_congr (hmints last hlast) houtput]
    intro hpos
    have hspent := hp.opening.payer_lamports
    obtain ⟨hvacant, hfunds⟩ := h.costs_funded (Nat.lt_of_lt_of_le hpos (Nat.le_add_left _ _))
    refine ⟨hvacant.of_sameContents hpayerSame, ?_⟩
    rw [Context.routeCosts] at hfunds
    rw [hpayer]
    omega

/-- The payout of what the last leg gave. -/
structure PaidHops (rt : Runtime) (ctx : Context) (mintsCount last out : ℕ) (opened : TokenAccount)
    (bank traded paid : Bank) : Prop where
  holds : ∃ token, Holds (bank (ctx.keyAt (mintsCount + last))).owner (paid (ctx.keyAt last))
    token ∧ Remains ctx.accounts.titanPda 0 0 opened token
  pays : ∃ held, PaysOut rt ctx (ctx.keyAt (mintsCount + last)) (ctx.keyAt last) held out traded
    paid

/-- The user is paid what the last leg gave. -/
theorem HopRoute.pays (h : HopRoute rt venue ctx amount mints swaps last out spent paying bank)
    (hp : PreparedHops rt ctx mints.toNat last amount.toNat paying bank prepared tokens)
    (ht : Holding rt ctx mints.toNat bank prepared.deposited tokens (Outside ctx mints.toNat bank)
      last out (spending last out fun _ => 0) traded)
    (hs : SettledHops rt ctx mints.toNat last bank traded) :
    ∃ payout, payOut rt ctx prepared.outputAtaIndex prepared.outputMint prepared.outputDecimals
        prepared.snapshot.reservedBalances traded = .ok payout ∧
      PaidHops rt ctx mints.toNat last out (tokens last) bank traded payout.paid := by
  have hlast := h.last_lt
  have hmintSame := hs.mints last hlast
  have hplain := h.atas.plain last hlast
  obtain ⟨info, hinfo, hkey⟩ := h.atas.keyAt_eq (show last < 2 * mints.toNat by omega)
  obtain ⟨held, hholds, hremains⟩ := ht.atas last hlast
  rw [spending, if_pos rfl] at hremains
  have hne : ctx.accounts.outputTokenAccount ∉
      [ctx.accounts.payer, info.key, ctx.keyAt (mints.toNat + last), ctx.accounts.titanPda] := by
    simp only [hkey, List.mem_cons, List.not_mem_nil, or_false, not_or]
    exact ⟨h.output_apart.ne_payer, h.output_apart.ne_ata last hlast,
      h.output_apart.ne_mint last hlast, h.output_apart.ne_titan⟩
  have hreceiver := h.receiver
  have hroom := h.user_room
  have hpasses := h.payout_passes
  have hmint := hp.output_decimals.of_sameContents hmintSame
  have hsigns := (h.titan_signs _ hp.output_decimals.known).of_sameContents hs.titan
  rw [← ht.extensions_eq last hlast, ← extensionsAt_congr hmintSame hs.output_eq,
    ← hmintSame.data_eq, ← hkey] at hpasses
  rw [← hmintSame.owner_eq, ← hmintSame.data_eq] at hplain
  rw [← hs.output_eq, ← hmintSame.owner_eq] at hreceiver
  rw [← balanceAt_congr hmintSame hs.output_eq] at hroom
  rw [← hmintSame.owner_eq] at hmint hsigns
  rw [← hmintSame.owner_eq, ← hkey] at hholds
  obtain ⟨payout, hpayout, hpays⟩ := payOut_ok h.atas.programs hinfo
    ((hp.reserved h).reserved last hlast) hholds
    (hremains.spendable.mono (Nat.le_add_right _ _))
    (hremains.mint_eq.trans (hp.opened last hlast).mint_eq) hremains.amount_eq hreceiver hroom
    hmint hplain hpasses hsigns hs.funded hne
    (by rw [hkey]; exact (h.atas.payer_ne last hlast).symm)
  rw [hkey] at hpays
  obtain ⟨left, hdebited, hleft⟩ := hpays.ata_holds
  rw [hmintSame.owner_eq] at hleft
  rw [hp.output_index, hp.output_mint]
  exact ⟨payout, hpayout, ⟨left, hleft, hremains.debited hdebited⟩, held, hpays⟩

/-- The accounts of the route hold again what they held before it. -/
theorem HopRoute.paid_atas
    (h : HopRoute rt venue ctx amount mints swaps last out spent paying bank)
    (ht : Holding rt ctx mints.toNat bank prepared.deposited tokens (Outside ctx mints.toNat bank)
      last out (spending last out fun _ => 0) traded) {paid : Bank}
    (hpaid : PaidHops rt ctx mints.toNat last out (tokens last) bank traded paid) {i : ℕ}
    (hi : i < mints.toNat) :
    (∃ token, Holds (bank (ctx.keyAt (mints.toNat + i))).owner (paid (ctx.keyAt i)) token ∧
        Remains ctx.accounts.titanPda 0 0 (tokens i) token) ∧
      extensions (paid (ctx.keyAt i)).data =
        extensionsAt rt (ctx.keyAt (mints.toNat + i)) (ctx.keyAt i) bank := by
  rw [← ht.extensions_eq i hi]
  obtain ⟨held, hpays⟩ := hpaid.pays
  by_cases hlast : i = last
  · subst hlast
    exact ⟨hpaid.holds, hpays.ata_extensions⟩
  · have hne : ctx.keyAt i ≠ ctx.keyAt last :=
      fun heq => hlast (h.atas.distinct i hi last h.last_lt heq)
    have hholds := ht.atas i hi
    rw [spending, if_neg hlast] at hholds
    rw [hpays.frame _ hne (h.output_apart.ne_ata i hi).symm (h.atas.payer_ne i hi).symm]
    exact ⟨hholds, rfl⟩

/-- Whatever the route opened can be closed. -/
theorem HopRoute.closables (h : HopRoute rt venue ctx amount mints swaps last out spent paying bank)
    (hp : PreparedHops rt ctx mints.toNat last amount.toNat paying bank prepared tokens)
    (ht : Holding rt ctx mints.toNat bank prepared.deposited tokens (Outside ctx mints.toNat bank)
      last out (spending last out fun _ => 0) traded)
    (hs : SettledHops rt ctx mints.toNat last bank traded) {paid : Bank}
    (hpaid : PaidHops rt ctx mints.toNat last out (tokens last) bank traded paid) :
    Closables rt ctx mints.toNat bank prepared.opened.createdAtas paid := by
  have hcount := h.atas.count_le
  have hmax : maxMints = 12 := rfl
  have hlast := h.last_lt
  obtain ⟨held, hpays⟩ := hpaid.pays
  refine ⟨fun i hi => ?_, fun program hprogram => ?_, h.titan_ne, fun i hi hbit => ?_⟩
  · exact (hs.mints i hi).trans
      (hpays.contents _ (h.atas.mint_ne i hi last hlast) (h.output_apart.ne_mint i hi).symm)
  · refine (h.titan_signs program hprogram).of_sameContents (hs.titan.trans ?_)
    exact hpays.contents _ (h.titan_ne last hlast) h.output_apart.ne_titan.symm
  · have hmissing := ((hp.opening.created_iff i (by omega)).mp hbit).2
    obtain ⟨⟨token, hholds, hremains⟩, hextensions⟩ := h.paid_atas ht hpaid hi
    refine ⟨token, hholds.unpacks, hremains.spendable.owner_eq,
      hremains.closeAuthority_eq.trans ((hp.opened i hi).fresh hmissing).2, ?_⟩
    rw [hextensions, extensionsAt, hmissing, if_neg Bool.false_ne_true]

/-- The balances a route ends with. -/
structure Settles (rt : Runtime) (ctx : Context) (mintsCount last amount out : ℕ)
    (bank final : Bank) : Prop where
  user_paid : tokenAmount (final ctx.accounts.inputTokenAccount) + amount =
    tokenAmount (bank ctx.accounts.inputTokenAccount)
  user_received : tokenAmount (final ctx.accounts.outputTokenAccount) =
    balanceAt rt ctx.accounts.user (ctx.keyAt (mintsCount + last)) ctx.accounts.outputTokenAccount
      bank + out
  atas_kept : ∀ i < mintsCount, tokenAmount (final (ctx.keyAt i)) = ctx.heldAt rt mintsCount bank i

theorem HopRoute.settles_paid
    (h : HopRoute rt venue ctx amount mints swaps last out spent paying bank)
    (hp : PreparedHops rt ctx mints.toNat last amount.toNat paying bank prepared tokens)
    (ht : Holding rt ctx mints.toNat bank prepared.deposited tokens (Outside ctx mints.toNat bank)
      last out (spending last out fun _ => 0) traded)
    (hs : SettledHops rt ctx mints.toNat last bank traded) {paid : Bank}
    (hpaid : PaidHops rt ctx mints.toNat last out (tokens last) bank traded paid) :
    Settles rt ctx mints.toNat last amount.toNat out bank paid := by
  have hfunds := h.paying_amount
  obtain ⟨held, hpays⟩ := hpaid.pays
  obtain ⟨left, hdebited, hleft⟩ := hp.moves.source_holds
  refine ⟨?_, ?_, fun i hi => ?_⟩
  · rw [hpays.frame _ (h.input_apart.ne_ata last h.last_lt) h.input_ne_output
      h.input_apart.ne_payer, ht.frame _ h.input_apart.ne_ata fun houtside => houtside.ne_input rfl,
      tokenAmount_of_unpacks hleft.unpacks, tokenAmount_of_unpacks h.paying_holds.unpacks,
      hdebited.amount_eq, Nat.sub_add_cancel hfunds]
  · rw [hpays.output_amount, balanceAt_congr (hs.mints last h.last_lt) hs.output_eq]
  · obtain ⟨⟨token, hholds, hremains⟩, _⟩ := h.paid_atas ht hpaid hi
    rw [tokenAmount_of_unpacks hholds.unpacks, hremains.amount_eq, Nat.add_zero]
    exact (hp.reserved h).amount_eq i hi

theorem HopRoute.paying_foreign
    (h : HopRoute rt venue ctx amount mints swaps last out spent paying bank) :
    isTitanPdaTokenAccount (bank ctx.accounts.inputTokenAccount) ctx.accounts.titanPda = false := by
  rw [Bool.eq_false_iff]
  intro htitan
  have howner := (readTokenAccount_fields h.paying_holds.unpacks.read).2.1
  rw [(isTitanPdaTokenAccount_iff.mp htitan).2.2] at howner
  exact h.user_ne_titan (h.paying_spendable.owner_eq.symm.trans (Option.some.inj howner).symm)

/-- No account in custody ends below its snapshot. -/
theorem HopRoute.custody_kept
    (h : HopRoute rt venue ctx amount mints swaps last out spent paying bank)
    (hp : PreparedHops rt ctx mints.toNat last amount.toNat paying bank prepared tokens)
    (ht : Holding rt ctx mints.toNat bank prepared.deposited tokens (Outside ctx mints.toNat bank)
      last out (spending last out fun _ => 0) traded) {paid : Bank}
    (hpaid : PaidHops rt ctx mints.toNat last out (tokens last) bank traded paid)
    (hsettles : Settles rt ctx mints.toNat last amount.toNat out bank paid) {key : Pubkey}
    (htitan : isTitanPdaTokenAccount (prepared.opened.bank key) ctx.accounts.titanPda = true) :
    tokenAmount (prepared.opened.bank key) ≤ tokenAmount (paid key) := by
  obtain ⟨held, hpays⟩ := hpaid.pays
  by_cases hata : ∀ i < mints.toNat, key ≠ ctx.keyAt i
  · have hsame := hp.opening.contents key hata
    by_cases hinput : key = ctx.accounts.inputTokenAccount
    · subst hinput
      rw [isTitanPda_of_sameContents hsame, h.paying_foreign] at htitan
      cases htitan
    by_cases houtput : key = ctx.accounts.outputTokenAccount
    · subst houtput
      rw [hsettles.user_received, tokenAmount_of_sameContents hsame]
      exact h.receiver.tokenAmount_le.trans (Nat.le_add_right _ _)
    by_cases houtside : Outside ctx mints.toNat bank key
    · rw [isTitanPda_of_sameContents hsame, houtside.foreign] at htitan
      cases htitan
    · have hkept := hpays.contents key (hata last h.last_lt) houtput
      rw [ht.unreached hp h hata hinput houtside] at hkept
      exact (tokenAmount_of_sameContents hkept).ge
  · simp only [ne_eq, not_forall, not_not] at hata
    obtain ⟨i, hi, rfl⟩ := hata
    rw [hsettles.atas_kept i hi, tokenAmount_of_unpacks (hp.opened i hi).holds.unpacks,
      (hp.reserved h).amount_eq i hi]

end Traded

/-- A route whose venues fill their legs succeeds, and moves exactly the deposit and what the
last leg gave. -/
theorem HopRoute.execute_ok
    (h : HopRoute rt venue ctx amount mints swaps last out spent paying bank) :
    ∃ run, execute rt venue ctx amount mints swaps bank = .ok run ∧
      Settles rt ctx mints.toNat last amount.toNat out bank run.final := by
  obtain ⟨prepared, tokens, hprepared, hp⟩ := h.prepares
  obtain ⟨traded, htraded, ht⟩ := h.trades hp
  have hs := h.settled hp ht
  obtain ⟨payout, hpayout, hpaid⟩ := h.pays hp ht hs
  obtain ⟨closing, hclosing, _⟩ := closeCreatedAtas_ok h.atas (h.closables hp ht hs hpaid)
  have hsettles := h.settles_paid hp ht hs hpaid
  have hfinal := tokenAmount_closeCreatedAtas hclosing
  have hchecks : checkFinalBalances prepared.snapshot.titanPdaAtaBitmap
      prepared.snapshot.titanPdaAtaBalances closing.bank ctx.remainingAccounts 0 0 = .ok () := by
    rcases checkFinalBalances_spec hp.snapshots closing.bank with
      ⟨hok, _⟩ | ⟨_, info, _, htitan, hbroken⟩
    · exact hok
    · have hkept := h.custody_kept hp ht hpaid hsettles htitan
      rw [hfinal] at hbroken
      omega
  refine ⟨⟨prepared, traded, payout, closing⟩,
    execute_eq_ok.mpr ⟨hprepared, htraded, hpayout, hclosing, hchecks⟩, ?_, ?_, fun i hi => ?_⟩
  · rw [RouteRun.final, hfinal]
    exact hsettles.user_paid
  · rw [RouteRun.final, hfinal]
    exact hsettles.user_received
  · rw [RouteRun.final, hfinal]
    exact hsettles.atas_kept i hi

end Route

end QuayTitan.Route
