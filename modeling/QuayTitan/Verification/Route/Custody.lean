import QuayTitan.Verification.Route.Errors

/-! # Custody

Whatever the venues do, a successful instruction leaves TitanPDA at least what it held
before the user's deposit. -/

namespace QuayTitan.Route

open ByteFields Fallible

variable {rt : Runtime}

/-! ## Reserves outlive the route -/

/-- The promise of a successful instruction to the accounts in custody. -/
structure KeepsCustody (rt : Runtime) (ctx : Context) (swaps : List SwapSpecInputV2)
    (run : RouteRun) : Prop where
  kept : ∀ info ∈ ctx.remainingAccounts,
    isTitanPdaTokenAccount (run.opened.bank info.key) ctx.accounts.titanPda = true →
    tokenAmount (run.opened.bank info.key) ≤ tokenAmount (run.final info.key)
  paid : ∃ last outputAta, swaps.getLast? = some last ∧
    ctx.remainingAccounts[last.to.toNat]? = some outputAta ∧
    run.payout.userOutput + tokenAmount (run.opened.bank outputAta.key) =
      tokenAmount (run.payout.ready outputAta.key) ∧
    transferTokens rt (ctx.tokenProgramFor (run.traded.bank run.outputMint)) outputAta.key
      ctx.accounts.outputTokenAccount ctx.accounts.titanPda (some run.outputMint)
      run.payout.userOutput run.outputDecimals run.payout.ready = .ok run.payout.paid

theorem Executes.kept {venue : VenueProgram} {ctx : Context} {amount : UInt64}
    {mints : UInt8} {swaps : List SwapSpecInputV2} {bank : Bank} {run : RouteRun}
    (h : Executes rt venue ctx amount mints swaps bank run) {index : ℕ} {info : AccountInfo}
    (hindex : index < 256) (hinfo : ctx.remainingAccounts[index]? = some info)
    (htitan : isTitanPdaTokenAccount (run.opened.bank info.key) ctx.accounts.titanPda = true) :
    tokenAmount (run.opened.bank info.key) ≤ tokenAmount (run.final info.key) := by
  obtain ⟨inputMint, inputDecimals, hspec⟩ := prepare_spec h.prepares
  rcases checkFinalBalances_spec hspec.snapshotSpec run.final with
    ⟨_, hkept⟩ | ⟨herror, _⟩
  · exact hkept index info hindex hinfo htitan
  · have hchecks := h.checks
    rw [herror] at hchecks
    cases hchecks

/-- The payout is the excess over the reserve: were the balance below it, nothing would
be paid, nothing else would refill the account, and the final check would stop. -/
theorem Executes.paid {venue : VenueProgram} {ctx : Context} {amount : UInt64}
    {mints : UInt8} {swaps : List SwapSpecInputV2} {bank : Bank} {run : RouteRun}
    (h : Executes rt venue ctx amount mints swaps bank run) :
    ∃ last outputAta, swaps.getLast? = some last ∧
      ctx.remainingAccounts[last.to.toNat]? = some outputAta ∧
      run.payout.userOutput + tokenAmount (run.opened.bank outputAta.key) =
        tokenAmount (run.payout.ready outputAta.key) ∧
      transferTokens rt (ctx.tokenProgramFor (run.traded.bank run.outputMint)) outputAta.key
        ctx.accounts.outputTokenAccount ctx.accounts.titanPda (some run.outputMint)
        run.payout.userOutput run.outputDecimals run.payout.ready = .ok run.payout.paid := by
  obtain ⟨inputMint, inputDecimals, hspec⟩ := prepare_spec h.prepares
  obtain ⟨last, hlast, houtput⟩ := hspec.output_index
  have hlt : last.to.toNat < mints.toNat := hspec.shaped.to_lt last (List.mem_of_getLast? hlast)
  obtain ⟨ata, hata, htitan, hreserved⟩ := hspec.routeAta hlt
  obtain ⟨outputAta, reserved, hpays⟩ := payOut_spec h.pays
  obtain rfl : outputAta = ata := by
    have hget := hpays.output_ata
    rw [houtput, hata] at hget
    exact (Option.some.inj hget).symm
  obtain rfl : reserved = tokenAmount (run.opened.bank outputAta.key) := by
    have hget := hpays.reserved_eq
    rw [houtput, hreserved] at hget
    exact (Option.some.inj hget).symm
  refine ⟨last, outputAta, hlast, hata, ?_, hpays.pays⟩
  have hdata : (run.traded.bank outputAta.key).data ≠ [] := by
    intro hnil
    have hraw := hpays.raw_eq
    rw [hnil] at hraw
    simp [getLE, getField] at hraw
  have hready := tokenAmount_of_sameContents (hpays.ready _ hdata)
  rw [tokenAmount_of_getLE hpays.raw_eq] at hready
  rw [hready, hpays.output_eq]
  refine Nat.sub_add_cancel ?_
  by_contra hlow
  have hnothing : run.payout.userOutput = 0 := by
    rw [hpays.output_eq]
    omega
  have hunpaid : run.payout.paid = run.payout.ready := by
    have htransfer := hpays.pays
    rw [hnothing, transferTokens, if_pos rfl, pure_eq_ok] at htransfer
    exact htransfer.symm
  have hfinal := tokenAmount_closeCreatedAtas h.closes outputAta.key
  rw [hunpaid, hready] at hfinal
  have hcount := hspec.shaped.mints_le
  have hmax : maxMints = 12 := rfl
  have hkept := h.kept (by omega) hata htitan
  rw [RouteRun.final, hfinal] at hkept
  exact hlow hkept

/-- Custody safety against arbitrary venues. -/
theorem execute_keepsCustody (rt : Runtime) (venue : VenueProgram) (ctx : Context)
    (amount : UInt64) (mints : UInt8) (swaps : List SwapSpecInputV2) (bank : Bank)
    (hlength : ctx.remainingAccounts.length ≤ 256) :
    (∀ run, execute rt venue ctx amount mints swaps bank = .ok run →
      KeepsCustody rt ctx swaps run) ∧
    execute rt venue ctx amount mints swaps bank ≠ .error .indexOutOfBounds := by
  refine ⟨fun run hrun => ?_, execute_ne_indexOutOfBounds venue ctx amount mints swaps bank⟩
  have hexecutes := execute_eq_ok.mp hrun
  refine ⟨fun info hinfo htitan => ?_, hexecutes.paid⟩
  obtain ⟨index, hget⟩ := List.mem_iff_getElem?.mp hinfo
  have hlt := (List.getElem?_eq_some_iff.mp hget).1
  exact hexecutes.kept (hlt.trans_le hlength) hget htitan

/-! ## A route over one exchange

TitanPDA already holds both mints when a user sells 500 for twice as much. -/

namespace Sample

theorem length_key (n : ℕ) : (leBytes 32 n).length = 32 := length_leBytes 32 n

def key (n : ℕ) : Pubkey := ⟨leBytes 32 n, length_key n⟩

def runtime : Runtime where
  ataAddress wallet mint _ := key (leNat wallet.bytes + 16 * leNat mint.bytes)
  minimumBalance length := 128 + length
  minimumBalance_pos length := by omega
  accountTail _ := []
  transferFee _ _ := 0
  withholdFee tail _ := tail
  permitsTransfer _ _ _ := true
  permitsClose _ := true
  foreignAccount _ _ _ := []

def titanPda : Pubkey := key 1
def user : Pubkey := key 2
def payer : Pubkey := key 3
def baseMint : Pubkey := key 4
def quoteMint : Pubkey := key 5
def baseAta : Pubkey := runtime.ataAddress titanPda baseMint splTokenId
def quoteAta : Pubkey := runtime.ataAddress titanPda quoteMint splTokenId
def userBase : Pubkey := key 8
def userQuote : Pubkey := key 9

def mintAccount : Account :=
  ⟨1, zeros 44 ++ ([6, 1] ++ zeros 36), splTokenId⟩

def holding (mint wallet : Pubkey) (amount : ℕ) : Account :=
  ⟨1, newTokenData mint wallet amount none [], splTokenId⟩

def bankOf (accounts : List (Pubkey × Account)) : Bank := fun key =>
  (accounts.lookup key).getD .absent

def withAmount (account : Account) (amount : ℕ) : Account :=
  { account with data := putLE account.data 64 8 amount }

def doubler : VenueProgram := fun _ instruction infos bank =>
  match infos, getLE instruction.data 1 8 with
  | source :: target :: _, some amount => do
      check (amount ≤ tokenAmount (bank source.key)) .insufficientFunds
      let debited := Function.update bank source.key
        (withAmount (bank source.key) (tokenAmount (bank source.key) - amount))
      check (tokenAmount (debited target.key) + 2 * amount ≤ u64Max) .overflow
      pure (Function.update debited target.key
        (withAmount (debited target.key) (tokenAmount (debited target.key) + 2 * amount)))
  | _, _ => .error .missingAccount

def accounts : SwapRouteV3 where
  payer := payer
  user := user
  titanPda := titanPda
  inputTokenAccount := userBase
  outputTokenAccount := userQuote
  tokenProgram := splTokenId
  token2022Program := token2022Id
  tokenLedger := none

def info (key : Pubkey) : AccountInfo := ⟨key, false, true⟩

def context : Context where
  accounts := accounts
  remainingAccounts := [info baseAta, info quoteAta, info baseMint, info quoteMint,
    info baseAta, info quoteAta, info Quay.programId]

def swaps : List SwapSpecInputV2 := [⟨.quay true, 0, 1, 1000000000, 3⟩]

/-- What the chain holds besides the accounts of TitanPDA. -/
def elsewhere : Bank := bankOf
  [(baseMint, mintAccount), (quoteMint, mintAccount), (userBase, holding baseMint user 1000),
   (userQuote, holding quoteMint user 0), (payer, ⟨1000000, [], systemProgramId⟩)]

def bankWith (base quote : Account) : Bank :=
  Function.update (Function.update elsewhere baseAta base) quoteAta quote

def bank : Bank := bankWith (holding baseMint titanPda 30) (holding quoteMint titanPda 40)

theorem execute_ok : ∃ run, execute runtime doubler context 500 2 swaps bank = .ok run :=
  exists_of_isOk (by decide +kernel)

end Sample

open Sample in
theorem execute_keepsCustody_sample :
    ∃ run, execute runtime doubler context 500 2 swaps bank = .ok run ∧
      KeepsCustody runtime context swaps run := by
  obtain ⟨run, hrun⟩ := execute_ok
  have hsafe := execute_keepsCustody runtime doubler context 500 2 swaps bank (by decide)
  exact ⟨run, hrun, hsafe.1 run hrun⟩

end QuayTitan.Route
