import QuayTitan.Verification.Lamports
import QuayTitan.Verification.Route.Progress
import QuayTitan.Verification.Route.Custody

/-! # Routes that start from native SOL

The user's SOL is wrapped in the input account, which exists or is opened for the purpose and
closed again. -/

namespace QuayTitan.Route

open ByteFields Fallible

variable {rt : Runtime} {ctx : Context} {bank : Bank}

/-! ## Wrapping -/

/-- SOL that went from a wallet into its wrapped-SOL account. -/
structure WrapSpec (source wsolAta : Pubkey) (amount : ℕ) (bank bank' : Bank) : Prop where
  source_lamports : (bank' source).lamports + amount = (bank source).lamports
  wsol_lamports : (bank' wsolAta).lamports = (bank wsolAta).lamports + amount
  frame : ∀ key, key ≠ source → key ≠ wsolAta → bank' key = bank key
  wrapped : amount ≠ 0 → ∃ token, Wrapped splTokenId (bank' wsolAta) token

theorem transferSolAndSync_wrap {source wsolAta tokenProgram : Pubkey} {amount : ℕ}
    {bank bank' : Bank}
    (h : transferSolAndSync source wsolAta tokenProgram amount bank = .ok bank')
    (hne : source ≠ wsolAta) : WrapSpec source wsolAta amount bank bank' := by
  have hframe := fun key hsource hkey =>
    @transferSolAndSync_frame source wsolAta tokenProgram amount bank bank' h key hsource hkey
  rcases transferSolAndSync_cases h with ⟨rfl, rfl⟩ | ⟨funded, token, reserve, hfund, hsync⟩
  · exact ⟨rfl, rfl, hframe, fun hpos => absurd rfl hpos⟩
  · refine ⟨?_, ?_, hframe, fun _ => hsync.wrapped⟩
    · rw [hsync.lamports_eq, hfund.source_lamports hne, Nat.sub_add_cancel hfund.funds]
    · rw [hsync.lamports_eq, hfund.destination_lamports hne]

/-- The parties of a route that starts from native SOL: four accounts, of which the input
account, if there is one, wraps SOL. -/
structure FundsNative (ctx : Context) (first : AccountInfo) (bank : Bank) : Prop where
  programs : StandardPrograms ctx
  mint_owner : (bank nativeMintId).owner = splTokenId
  first_eq : ctx.remainingAccounts[0]? = some first
  distinct : [ctx.accounts.payer, ctx.accounts.user, ctx.accounts.inputTokenAccount,
    first.key].Nodup
  wrapped : accountExists (bank ctx.accounts.inputTokenAccount) = true →
    ∃ token, Wrapped splTokenId (bank ctx.accounts.inputTokenAccount) token

theorem FundsNative.apart {first : AccountInfo} (h : FundsNative ctx first bank) :
    (ctx.accounts.payer ≠ ctx.accounts.user ∧
      ctx.accounts.payer ≠ ctx.accounts.inputTokenAccount ∧ ctx.accounts.payer ≠ first.key) ∧
    (ctx.accounts.user ≠ ctx.accounts.inputTokenAccount ∧ ctx.accounts.user ≠ first.key) ∧
    ctx.accounts.inputTokenAccount ≠ first.key := by
  have hdistinct := h.distinct
  simp only [List.nodup_cons, List.mem_cons, List.not_mem_nil, or_false, not_or] at hdistinct
  exact ⟨hdistinct.1, hdistinct.2.1, hdistinct.2.2.1⟩

/-- What setting up the input account does with the lamports. -/
structure SetupSpec (payer user wsolAta : Pubkey) (amount : ℕ) (bank bank' : Bank)
    (created : Bool) : Prop where
  created_eq : created = !accountExists (bank wsolAta)
  existing : created = false → (bank' payer).lamports = (bank payer).lamports ∧
    (bank' user).lamports + (bank' wsolAta).lamports =
      (bank user).lamports + (bank wsolAta).lamports
  fresh : created = true → (bank' user).lamports + amount = (bank user).lamports ∧
    (bank' payer).lamports + (bank' wsolAta).lamports =
      (bank payer).lamports + (bank wsolAta).lamports + amount
  frame : ∀ key, key ≠ payer → key ≠ user → key ≠ wsolAta → bank' key = bank key
  wrapped : amount ≠ 0 → ∃ token, Wrapped splTokenId (bank' wsolAta) token

theorem setupWsolInputAccount_spec {payer user wsolAta mint tokenProgram : Pubkey} {amount : ℕ}
    {result : Bool × Bank} (hpayerUser : payer ≠ user) (hpayerWsol : payer ≠ wsolAta)
    (huserWsol : user ≠ wsolAta)
    (hwrapped : accountExists (bank wsolAta) = true →
      ∃ token, Wrapped splTokenId (bank wsolAta) token)
    (h : setupWsolInputAccount rt payer user wsolAta mint tokenProgram amount bank =
      .ok result) :
    SetupSpec payer user wsolAta amount bank result.2 result.1 := by
  have hcreated := setupWsolInputAccount_created h
  have hframe := fun key hpayer huser hkey =>
    @setupWsolInputAccount_frame rt payer user wsolAta mint tokenProgram amount bank result h
      key hpayer huser hkey
  rcases setupWsolInputAccount_cases h with ⟨hexists, hflag, balance, hfunded⟩ |
    ⟨_, hflag, opened, hopened, hfunded⟩
  · have hwrap := transferSolAndSync_wrap hfunded huserWsol
    have huser := hwrap.source_lamports
    have hwsol := hwrap.wsol_lamports
    refine ⟨hcreated, fun _ => ⟨?_, by omega⟩, fun htrue => ?_, hframe, fun _ => ?_⟩
    · exact congrArg Account.lamports (hwrap.frame _ hpayerUser hpayerWsol)
    · rw [hflag] at htrue
      cases htrue
    · rcases transferSolAndSync_cases hfunded with ⟨_, hkept⟩ | ⟨_, _, _, _, hsync⟩
      · rw [hkept]
        exact hwrapped hexists
      · exact hsync.wrapped
  · have hwrap := transferSolAndSync_wrap hfunded huserWsol
    have huser := hwrap.source_lamports
    have hwsol := hwrap.wsol_lamports
    have hconserved := createIdempotent_lamports hopened hpayerWsol
    rw [createIdempotent_frame hopened huserWsol (Ne.symm hpayerUser)] at huser
    refine ⟨hcreated, fun hfalse => ?_, fun _ => ⟨huser, ?_⟩, hframe, hwrap.wrapped⟩
    · rw [hflag] at hfalse
      cases hfalse
    · rw [hwrap.frame _ hpayerUser hpayerWsol]
      omega

/-! ## The deposit -/

/-- The first account of the route is credited exactly what the user is charged, at no cost or
gain of the payer. -/
structure FundsExactly (ctx : Context) (first : Pubkey) (amount : ℕ) (bank bank' : Bank) :
    Prop where
  credited : tokenAmount (bank' first) = tokenAmount (bank first) + amount
  charged : (bank' ctx.accounts.user).lamports +
      (bank' ctx.accounts.inputTokenAccount).lamports + amount =
    (bank ctx.accounts.user).lamports + (bank ctx.accounts.inputTokenAccount).lamports
  payer_lamports : (bank' ctx.accounts.payer).lamports = (bank ctx.accounts.payer).lamports

/-- A route transfer of wrapped SOL takes the lamports along. -/
theorem transferTokens_lamports {source destination authority : Pubkey} {mint : Option Pubkey}
    {amount : ℕ} {decimals : UInt8} {bank' : Bank}
    (h : transferTokens rt splTokenId source destination authority mint amount decimals bank =
      .ok bank')
    (hne : source ≠ destination)
    (hwrapped : amount ≠ 0 → ∃ token, Wrapped splTokenId (bank source) token) :
    (bank' source).lamports + amount = (bank source).lamports := by
  unfold transferTokens at h
  split at h
  · rename_i hzero
    rw [pure_eq_ok] at h
    rw [h, hzero, Nat.add_zero]
  · rename_i hpos
    obtain ⟨token, htoken⟩ := hwrapped hpos
    rw [if_neg splTokenId_ne_token2022Id, invoke_eq_ok] at h
    exact tokenTransfer_lamports h htoken hne

/-- The phases of a deposit of native SOL. -/
structure NativePhases (ctx : Context) (first : Pubkey) (amount : ℕ) (bank mid moved bank' : Bank)
    (created : Bool) : Prop where
  setup : SetupSpec ctx.accounts.payer ctx.accounts.user ctx.accounts.inputTokenAccount amount
    bank mid created
  debited : (moved ctx.accounts.inputTokenAccount).lamports + amount =
    (mid ctx.accounts.inputTokenAccount).lamports
  credited : tokenAmount (moved first) = tokenAmount (mid first) + amount
  frame : ∀ key, key ≠ ctx.accounts.inputTokenAccount → key ≠ first → moved key = mid key
  closes : created = true → ∃ program token,
    CloseSpec program ctx.accounts.inputTokenAccount ctx.accounts.payer token moved bank'
  kept : created = false → bank' = moved

theorem deposit_native {first : AccountInfo} {decimals : UInt8} {amount : ℕ} {bank' : Bank}
    (hfunds : FundsNative ctx first bank)
    (h : deposit rt ctx nativeMintId decimals none amount bank = .ok bank') :
    ∃ mid moved created, NativePhases ctx first.key amount bank mid moved bank' created := by
  have hprogram : ctx.tokenProgramFor (bank nativeMintId) = splTokenId := by
    rw [Context.tokenProgramFor, getTokenProgramForMint, hfunds.mint_owner,
      if_neg splTokenId_ne_token2022Id, hfunds.programs.tokenProgram_eq]
  obtain ⟨⟨hpayerUser, hpayerInput, _⟩, ⟨huserInput, _⟩, hinputFirst⟩ := hfunds.apart
  obtain ⟨first', created, mid, moved, hphases⟩ := deposit_spec h
  obtain rfl := Option.some.inj (hfunds.first_eq.symm.trans hphases.first_eq)
  have hsetup := hphases.funds
  have hmoved := hphases.moves
  rw [fundInputAccount, if_pos (by simp [isNativeMint])] at hsetup
  rw [hprogram] at hmoved
  have hspec := setupWsolInputAccount_spec hpayerUser hpayerInput huserInput hfunds.wrapped hsetup
  have hdebited := transferTokens_lamports hmoved hinputFirst hspec.wrapped
  have hcredited := tokenAmount_transferTokens hmoved hinputFirst
    (if_neg splTokenId_ne_token2022Id)
  exact ⟨mid, moved, created, hspec, hdebited, hcredited,
    fun key hinput hkey => transferTokens_frame hmoved hinput hkey,
    fun htrue => ⟨_, hphases.closes htrue⟩, hphases.kept⟩

section Phases

variable {first : AccountInfo} {amount : ℕ} {mid moved bank' : Bank} {created : Bool}

/-- What a deposit of native SOL leaves, by the lamports of its phases. -/
theorem NativePhases.fundsExactly_iff
    (h : NativePhases ctx first.key amount bank mid moved bank' created)
    (hfunds : FundsNative ctx first bank) :
    FundsExactly ctx first.key amount bank bank' ↔
      (created = true → (bank ctx.accounts.inputTokenAccount).lamports = 0) := by
  obtain ⟨⟨hpayerUser, hpayerInput, hpayerFirst⟩, ⟨huserInput, huserFirst⟩, hinputFirst⟩ :=
    hfunds.apart
  have hdebited := h.debited
  have hcredited := h.credited
  rw [h.setup.frame first.key (Ne.symm hpayerFirst) (Ne.symm huserFirst) (Ne.symm hinputFirst)]
    at hcredited
  have hpayer := congrArg Account.lamports (h.frame _ hpayerInput hpayerFirst)
  have huser := congrArg Account.lamports (h.frame _ huserInput huserFirst)
  cases created with
  | false =>
      obtain ⟨hpayerKept, hwrapped⟩ := h.setup.existing rfl
      rw [h.kept rfl]
      refine iff_of_true ⟨hcredited, by omega, by omega⟩ nofun
  | true =>
      obtain ⟨hcharged, hconserved⟩ := h.setup.fresh rfl
      obtain ⟨program, token, hclose⟩ := h.closes rfl
      obtain ⟨hrefund, hclosed⟩ := hclose.lamports_eq
      have huserFinal := congrArg Account.lamports
        (hclose.frame _ huserInput (Ne.symm hpayerUser))
      have hfirst := hclose.contents first.key (Ne.symm hinputFirst)
      rw [← tokenAmount_of_sameContents hfirst] at hcredited
      constructor
      · intro hexact _
        have hpayerFinal := hexact.payer_lamports
        omega
      · intro hzero
        have hnone := hzero rfl
        exact ⟨hcredited, by omega, by omega⟩

end Phases

/-- Funding is exact unless SOL lay at the address of an input account that did not exist: the
payer is refunded that SOL too. -/
theorem deposit_fundsExactly_iff {first : AccountInfo} {decimals : UInt8} {amount : ℕ}
    {bank' : Bank} (hfunds : FundsNative ctx first bank)
    (h : deposit rt ctx nativeMintId decimals none amount bank = .ok bank') :
    FundsExactly ctx first.key amount bank bank' ↔
      ((bank ctx.accounts.inputTokenAccount).data = [] →
        (bank ctx.accounts.inputTokenAccount).lamports = 0) := by
  obtain ⟨mid, moved, created, hphases⟩ := deposit_native hfunds h
  have hcreated : created = true ↔
      ((bank ctx.accounts.inputTokenAccount).lamports = 0 ∨
        (bank ctx.accounts.inputTokenAccount).data = []) := by
    rw [hphases.setup.created_eq]
    simp [accountExists]
  rw [hphases.fundsExactly_iff hfunds, hcreated]
  tauto

/-! ## A deposit of native SOL -/

namespace Sample

def titanWsol : Pubkey := runtime.ataAddress titanPda nativeMintId splTokenId
def userWsol : Pubkey := runtime.ataAddress user nativeMintId splTokenId

def nativeContext : Context where
  accounts := { accounts with inputTokenAccount := userWsol }
  remainingAccounts := [info titanWsol]

/-- The user holds 1000 lamports and no wrapped-SOL account, but `stray` lamports lie at its
address. -/
def nativeBank (stray : ℕ) : Bank := Function.update (bankOf
  [(nativeMintId, mintAccount),
    (titanWsol, ⟨293, newTokenData nativeMintId titanPda 0 (some 293) [], splTokenId⟩),
    (user, ⟨1000, [], systemProgramId⟩), (payer, ⟨1000, [], systemProgramId⟩)])
  userWsol ⟨stray, [], systemProgramId⟩

theorem nativeBank_userWsol (stray : ℕ) :
    nativeBank stray userWsol = ⟨stray, [], systemProgramId⟩ := Function.update_self ..

theorem fundsNative (stray : ℕ) :
    FundsNative nativeContext (info titanWsol) (nativeBank stray) := by
  have hdistinct : [payer, user, userWsol, titanWsol].Nodup ∧ nativeMintId ≠ userWsol := by
    decide +kernel
  refine ⟨⟨rfl, rfl⟩, ?_, rfl, hdistinct.1, fun hexists => ?_⟩
  · rw [nativeBank, Function.update_of_ne hdistinct.2, bankOf, List.lookup_cons_self]
    rfl
  · change accountExists (nativeBank stray userWsol) = true at hexists
    rw [nativeBank_userWsol, accountExists] at hexists
    simp at hexists

/-- Without stray lamports the user pays 100 and nobody else pays. -/
theorem deposit_fundsExactly_sample :
    ∃ bank', deposit runtime nativeContext nativeMintId 6 none 100 (nativeBank 0) = .ok bank' ∧
      FundsExactly nativeContext titanWsol 100 (nativeBank 0) bank' := by
  obtain ⟨bank', hok⟩ : ∃ bank', deposit runtime nativeContext nativeMintId 6 none 100
      (nativeBank 0) = .ok bank' := exists_of_isOk (by decide +kernel)
  refine ⟨bank', hok, (deposit_fundsExactly_iff (fundsNative 0) hok).mpr fun _ => ?_⟩
  change (nativeBank 0 userWsol).lamports = 0
  rw [nativeBank_userWsol]

/-- Five lamports at the address of the user's wrapped-SOL account go to the payer. -/
theorem deposit_fundsExactly_counterexample :
    FundsNative nativeContext (info titanWsol) (nativeBank 5) ∧
      ∃ bank', deposit runtime nativeContext nativeMintId 6 none 100 (nativeBank 5) = .ok bank' ∧
        ¬FundsExactly nativeContext titanWsol 100 (nativeBank 5) bank' := by
  have hrun : (deposit runtime nativeContext nativeMintId 6 none 100 (nativeBank 5)).toOption.map
      (fun bank' => decide ((bank' payer).lamports = (nativeBank 5 payer).lamports + 5)) =
        some true := by decide +kernel
  obtain ⟨bank', hok, hgain⟩ := exists_of_toOption_map hrun
  refine ⟨fundsNative 5, bank', hok, fun hexact => ?_⟩
  have hpayer : (bank' payer).lamports = (nativeBank 5 payer).lamports := hexact.payer_lamports
  rw [decide_eq_true_eq] at hgain
  omega

end Sample

end QuayTitan.Route
