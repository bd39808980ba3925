import QuayTitan.Verification.Route.Treasury

/-! # What a route costs its user

Whatever the venues do, the accounts the route was not given pay the deposit and receive the
payout, and nothing else. A token ledger makes the deposit what arrived since it was written. -/

namespace QuayTitan.Route

open ByteFields Fallible Relation

section Spending

variable {rt : Runtime} {venue : VenueProgram} {ctx : Context} {amount : UInt64} {mints : UInt8}
  {swaps : List SwapSpecInputV2} {bank bank' : Bank} {run : RouteRun} {key : Pubkey}

/-! ## One transfer -/

theorem Unpacks.tokenAmount_eq {program : Pubkey} {account : Account} {token : TokenAccount}
    (h : Unpacks program account token) : tokenAmount account = token.amount :=
  tokenAmount_of_getLE (readTokenAccount_fields h.read).2.2

theorem tokenAmount_transferTokens_source {tokenProgram source destination authority mint : Pubkey}
    {amount : ℕ} {decimals : UInt8}
    (h : transferTokens rt tokenProgram source destination authority (some mint) amount decimals
      bank = .ok bank') (hne : source ≠ destination) :
    tokenAmount (bank' source) + amount = tokenAmount (bank source) := by
  rcases transferTokens_spec h with ⟨rfl, rfl⟩ | ⟨_, src, dst, hspec⟩
  · rfl
  · rw [tokenAmount_of_rebalanced (hspec.debit hne), Unpacks.tokenAmount_eq hspec.source_unpacks]
    exact Nat.sub_add_cancel hspec.funds

theorem tokenAmount_transferTokens_other {tokenProgram source destination authority mint : Pubkey}
    {amount : ℕ} {decimals : UInt8}
    (h : transferTokens rt tokenProgram source destination authority (some mint) amount decimals
      bank = .ok bank') (hkey : key ≠ source) :
    tokenAmount (bank' key) = tokenAmount (bank key) +
      if key = destination then amount - routeFee rt tokenProgram mint amount else 0 := by
  rcases transferTokens_spec h with ⟨rfl, rfl⟩ | ⟨_, src, dst, hspec⟩
  · simp
  · by_cases hdestination : key = destination
    · subst hdestination
      rw [tokenAmount_of_rebalanced (hspec.credit hkey.symm),
        Unpacks.tokenAmount_eq hspec.destination_unpacks, if_pos rfl]
    · rw [hspec.frame key hkey hdestination, if_neg hdestination, Nat.add_zero]

/-! ## The accounts a route was not given -/

/-- The deposit comes out of the user's input account as it is: no SOL is wrapped for it. -/
def PlainInput (ctx : Context) (mints : UInt8) : Prop :=
  ctx.accounts.tokenLedger ≠ none ∨ ctx.keyAt mints.toNat ≠ nativeMintId

/-- What the user's output account is credited with. -/
def RouteRun.received (rt : Runtime) (ctx : Context) (run : RouteRun) : ℕ :=
  run.payout.userOutput - routeFee rt (ctx.tokenProgramFor (run.traded.bank run.outputMint))
    run.outputMint run.payout.userOutput

theorem readTokenLedger_isNone {ledgerAmount : Option ℕ}
    (h : readTokenLedger ctx bank = .ok ledgerAmount) :
    ledgerAmount = none ↔ ctx.accounts.tokenLedger = none := by
  unfold readTokenLedger at h
  cases hledger : ctx.accounts.tokenLedger with
  | none =>
      simp only [hledger, pure_eq_ok] at h
      simp [← h]
  | some ledger =>
      simp only [hledger, bind_eq_ok, pure_eq_ok] at h
      obtain ⟨_, _, _, _, _, _, stored, _, rfl⟩ := h
      simp

/-- A plain deposit is one transfer. -/
theorem Prepares.plain_deposit {inputMint : AccountInfo} {inputDecimals : UInt8}
    {prepared : Prepared}
    (h : Prepares rt ctx amount mints swaps bank inputMint inputDecimals prepared)
    (hplain : PlainInput ctx mints) :
    ∃ first, ctx.remainingAccounts[0]? = some first ∧
      transferTokens rt (ctx.tokenProgramFor (prepared.opened.bank inputMint.key))
        ctx.accounts.inputTokenAccount first.key ctx.accounts.user (some inputMint.key)
        prepared.effectiveAmount inputDecimals prepared.opened.bank = .ok prepared.deposited := by
  obtain ⟨first, created, mid, moved, hphases⟩ := deposit_spec h.deposits
  obtain ⟨rfl, rfl⟩ : created = false ∧ mid = prepared.opened.bank := by
    have hfunds := hphases.funds
    rw [fundInputAccount, if_neg, pure_eq_ok] at hfunds
    · obtain ⟨rfl, rfl⟩ := Prod.mk.inj hfunds
      exact ⟨rfl, rfl⟩
    · rintro ⟨hnone, hnative⟩
      rcases hplain with hledger | hmint
      · exact hledger ((readTokenLedger_isNone h.ledger).mp (Option.isNone_iff_eq_none.mp hnone))
      · rw [Context.keyAt_eq h.input_mint] at hmint
        exact hmint (of_decide_eq_true hnative)
  exact ⟨first, hphases.first_eq, (hphases.kept rfl) ▸ hphases.moves⟩

theorem ne_of_not_mem {index : ℕ} {info : AccountInfo}
    (hkey : key ∉ ctx.remainingAccounts.map AccountInfo.key)
    (h : ctx.remainingAccounts[index]? = some info) : key ≠ info.key := by
  rintro rfl
  exact hkey (List.mem_map_of_mem (List.mem_of_getElem? h))

/-- The deposit debits the user's input account and no other the route was not given. -/
theorem Prepares.tokenAmount_deposited {inputMint : AccountInfo} {inputDecimals : UInt8}
    {prepared : Prepared}
    (h : Prepares rt ctx amount mints swaps bank inputMint inputDecimals prepared)
    (hplain : PlainInput ctx mints)
    (hkey : key ∉ ctx.remainingAccounts.map AccountInfo.key) :
    tokenAmount (prepared.deposited key) +
        (if key = ctx.accounts.inputTokenAccount then prepared.effectiveAmount else 0) =
      tokenAmount (prepared.opened.bank key) := by
  obtain ⟨first, hfirst, hmoves⟩ := h.plain_deposit hplain
  have hne := ne_of_not_mem hkey hfirst
  by_cases hinput : key = ctx.accounts.inputTokenAccount
  · subst hinput
    rw [if_pos rfl]
    exact tokenAmount_transferTokens_source hmoves hne
  · rw [if_neg hinput, tokenAmount_transferTokens_other hmoves hinput, if_neg hne]
    rfl

theorem Executes.tokenAmount_paid (h : Executes rt venue ctx amount mints swaps bank run)
    (hkey : key ∉ ctx.remainingAccounts.map AccountInfo.key)
    (hdata : (run.traded.bank key).data ≠ []) :
    tokenAmount (run.payout.paid key) = tokenAmount (run.traded.bank key) +
      if key = ctx.accounts.outputTokenAccount then run.received rt ctx else 0 := by
  obtain ⟨outputAta, reserved, hpayout⟩ := payOut_spec h.pays
  rw [tokenAmount_transferTokens_other hpayout.pays (ne_of_not_mem hkey hpayout.output_ata),
    tokenAmount_of_sameContents (hpayout.ready key hdata)]
  rfl

theorem Executes.tokenAmount_deposited (h : Executes rt venue ctx amount mints swaps bank run)
    (hplain : PlainInput ctx mints) (hkey : key ∉ ctx.remainingAccounts.map AccountInfo.key)
    (hdata : (bank key).data ≠ []) :
    (run.traded.bank key).data ≠ [] ∧ tokenAmount (run.traded.bank key) +
        (if key = ctx.accounts.inputTokenAccount then run.effectiveAmount else 0) =
      tokenAmount (bank key) := by
  obtain ⟨inputMint, inputDecimals, hprepares⟩ := prepare_spec h.prepares
  have hopened := createMissingAtas_sameContents hprepares.opens hdata
  have htraded : run.traded.bank key = run.deposited key := runLegs_frame hkey h.trades
  obtain ⟨first, _, hmoves⟩ := hprepares.plain_deposit hplain
  rw [htraded, hprepares.tokenAmount_deposited hplain hkey, tokenAmount_of_sameContents hopened]
  exact ⟨transferTokens_data_ne_nil hmoves (hopened.data_eq ▸ hdata), rfl⟩

theorem keyAt_ne {index : ℕ} (hkey : key ∉ ctx.remainingAccounts.map AccountInfo.key)
    (hlt : index < ctx.remainingAccounts.length) : key ≠ ctx.keyAt index := by
  rw [Context.keyAt_eq (List.getElem?_eq_getElem hlt)]
  exact ne_of_not_mem hkey (List.getElem?_eq_getElem hlt)

theorem closeCreatedAtas_unlisted {mintsCount : ℕ} {createdAtas : BitVec 16} {closing : Closing}
    (h : closeCreatedAtas rt ctx mintsCount createdAtas bank = .ok closing)
    (hcount : mintsCount ≤ ctx.remainingAccounts.length)
    (hkey : key ∉ ctx.remainingAccounts.map AccountInfo.key) :
    SameContents (bank key) (closing.bank key) := by
  refine reflTransGen_keeps (fun b => SameContents (bank key) (b key)) ?_
    (closeCreatedAtas_steps h) (.refl _)
  rintro a b ⟨index, index_lt, _, program, call⟩ ha
  obtain ⟨token, hspec⟩ := tokenClose_spec call
  exact ha.trans (hspec.contents key (keyAt_ne hkey (by omega)))

theorem Executes.data_final_ne_nil (h : Executes rt venue ctx amount mints swaps bank run)
    (hplain : PlainInput ctx mints) (hkey : key ∉ ctx.remainingAccounts.map AccountInfo.key)
    (hdata : (bank key).data ≠ []) : (run.final key).data ≠ [] := by
  obtain ⟨inputMint, inputDecimals, hprepares⟩ := prepare_spec h.prepares
  have hremaining := hprepares.shaped.remaining_le
  have htraded := (h.tokenAmount_deposited hplain hkey hdata).1
  obtain ⟨outputAta, reserved, hpayout⟩ := payOut_spec h.pays
  have hpaid : (run.payout.paid key).data ≠ [] :=
    transferTokens_data_ne_nil hpayout.pays ((hpayout.ready key htraded).data_eq ▸ htraded)
  have hclosed := closeCreatedAtas_unlisted h.closes (by omega) hkey
  rw [RouteRun.final, hclosed.data_eq]
  exact hpaid

theorem Executes.balance_unlisted (h : Executes rt venue ctx amount mints swaps bank run)
    (hplain : PlainInput ctx mints) (hkey : key ∉ ctx.remainingAccounts.map AccountInfo.key)
    (hdata : (bank key).data ≠ []) :
    tokenAmount (run.final key) +
        (if key = ctx.accounts.inputTokenAccount then run.effectiveAmount else 0) =
      tokenAmount (bank key) +
        if key = ctx.accounts.outputTokenAccount then run.received rt ctx else 0 := by
  obtain ⟨hdataTraded, hspent⟩ := h.tokenAmount_deposited hplain hkey hdata
  have hfinal : tokenAmount (run.final key) = tokenAmount (run.payout.paid key) :=
    tokenAmount_closeCreatedAtas h.closes key
  rw [hfinal, h.tokenAmount_paid hkey hdataTraded, ← hspent]
  omega

/-- Whatever the venues do, an account the route was not given pays exactly the effective amount
when it is the user's input account, receives exactly the payout when it is the output account,
and keeps its balance otherwise; without a ledger the effective amount is the one asked for. -/
theorem execute_spendsExactly (h : execute rt venue ctx amount mints swaps bank = .ok run)
    (hplain : PlainInput ctx mints) (hkey : key ∉ ctx.remainingAccounts.map AccountInfo.key)
    (hdata : (bank key).data ≠ []) :
    tokenAmount (run.final key) +
        (if key = ctx.accounts.inputTokenAccount then run.effectiveAmount else 0) =
      tokenAmount (bank key) +
        (if key = ctx.accounts.outputTokenAccount then run.received rt ctx else 0) ∧
    (ctx.accounts.tokenLedger = none → run.effectiveAmount = amount.toNat) := by
  have hexecutes := execute_eq_ok.mp h
  refine ⟨hexecutes.balance_unlisted hplain hkey hdata, fun hledger => ?_⟩
  obtain ⟨inputMint, inputDecimals, hprepares⟩ := prepare_spec hexecutes.prepares
  have heffective := hprepares.effective
  rw [(readTokenLedger_isNone hprepares.ledger).mpr hledger] at heffective
  exact (Except.ok.inj heffective).symm

/-! ## Token ledgers -/

/-- What a ledger account stores for a token account. -/
structure Ledger (bank : Bank) (ledger account : Pubkey) (stored : ℕ) : Prop where
  length_le : 48 ≤ (bank ledger).data.length
  account_eq : getKey (bank ledger).data 8 = some account
  stored_eq : getLE (bank ledger).data 40 8 = some stored

theorem readTokenLedger_eq_ok {ledger : Pubkey} {ledgerAmount : Option ℕ}
    (hledger : ctx.accounts.tokenLedger = some ledger) :
    readTokenLedger ctx bank = .ok ledgerAmount ↔
      ∃ stored, ledgerAmount = some stored ∧
        Ledger bank ledger ctx.accounts.inputTokenAccount stored := by
  simp only [readTokenLedger, hledger, bind_eq_ok, require_eq_ok, okOr_eq_ok, pure_eq_ok,
    exists_const]
  constructor
  · rintro ⟨hlength, account, haccount, rfl, stored, hstored, rfl⟩
    exact ⟨stored, rfl, hlength, haccount, hstored⟩
  · rintro ⟨stored, rfl, hspec⟩
    exact ⟨hspec.length_le, _, hspec.account_eq, rfl, stored, hspec.stored_eq, rfl⟩

/-- With a ledger, the amount passed to the instruction is not used. -/
theorem prepare_ledger_amount (amount' : UInt64)
    (hledger : ctx.accounts.tokenLedger ≠ none) :
    prepare rt ctx amount' mints swaps bank = prepare rt ctx amount mints swaps bank := by
  unfold prepare
  cases hread : readTokenLedger ctx bank with
  | error e => rfl
  | ok ledgerAmount =>
      cases ledgerAmount with
      | none => exact absurd ((readTokenLedger_isNone hread).mp rfl) hledger
      | some stored => rfl

section Unlisted

variable {mintsCount : ℕ} (hpos : 0 < mintsCount)
  (hcount : mintsCount ≤ ctx.remainingAccounts.length)
  (hkey : key ∉ ctx.remainingAccounts.map AccountInfo.key)
  (hinput : key ≠ ctx.accounts.inputTokenAccount)
  (houtput : key ≠ ctx.accounts.outputTokenAccount)

include hpos hcount hkey hinput houtput

/-- No call reaches the data of an account the route was not given. -/
theorem RouteStep.sameContents_unlisted (h : RouteStep rt venue ctx mintsCount bank bank')
    (hdata : (bank key).data ≠ []) : SameContents (bank key) (bank' key) := by
  cases h with
  | opensAta index index_lt program call => exact createIdempotent_sameContents call hdata
  | opensUser account mint program account_eq call =>
      exact createIdempotent_sameContents call hdata
  | wraps amount call => exact (systemTransfer_spec call).contents key
  | syncs program call =>
      obtain ⟨token, reserve, hspec⟩ := syncNative_spec call
      rw [hspec.frame key hinput]
      exact .refl _
  | deposits program checked amount call =>
      rw [tokenTransfer_frame call hinput (keyAt_ne hkey (by omega))]
      exact .refl _
  | unwraps program call =>
      obtain ⟨token, hspec⟩ := tokenClose_spec call
      exact hspec.contents key hinput
  | swaps leg amount index swap index_le call =>
      obtain ⟨instruction, out, _, _, hframe⟩ := performCpiSwap_call call
      rw [hframe key fun hmem => ?_]
      · exact .refl _
      · obtain ⟨info, hinfo, rfl⟩ := List.mem_map.mp hmem
        exact hkey (List.mem_map_of_mem (List.mem_of_mem_drop (List.mem_of_mem_take hinfo)))
  | pays index index_lt program checked amount call =>
      rw [tokenTransfer_frame call (keyAt_ne hkey (by omega)) houtput]
      exact .refl _

end Unlisted

theorem Executes.sameContents_unlisted (h : Executes rt venue ctx amount mints swaps bank run)
    (hkey : key ∉ ctx.remainingAccounts.map AccountInfo.key)
    (hinput : key ≠ ctx.accounts.inputTokenAccount)
    (houtput : key ≠ ctx.accounts.outputTokenAccount) (hdata : (bank key).data ≠ []) :
    SameContents (bank key) (run.final key) := by
  obtain ⟨inputMint, inputDecimals, hprepares⟩ := prepare_spec h.prepares
  have hremaining := hprepares.shaped.remaining_le
  have hmints := hprepares.shaped.one_lt_mints
  have hpaid : SameContents (bank key) (run.payout.paid key) := by
    refine reflTransGen_keeps (fun b => SameContents (bank key) (b key)) ?_ h.steps.1 (.refl _)
    intro a b hstep ha
    refine ha.trans (hstep.sameContents_unlisted ?_ ?_ hkey hinput houtput ?_)
    · omega
    · omega
    · rw [ha.data_eq]
      exact hdata
  exact hpaid.trans (closeCreatedAtas_unlisted h.closes (by omega) hkey)

theorem Ledger.of_sameContents {ledger account : Pubkey} {stored : ℕ}
    (h : Ledger bank ledger account stored) (hsame : SameContents (bank ledger) (bank' ledger)) :
    Ledger bank' ledger account stored := by
  obtain ⟨hlength, haccount, hstored⟩ := h
  rw [← hsame.data_eq] at hlength haccount hstored
  exact ⟨hlength, haccount, hstored⟩

theorem Ledger.data_ne_nil {ledger account : Pubkey} {stored : ℕ}
    (h : Ledger bank ledger account stored) : (bank ledger).data ≠ [] := by
  intro hnil
  have hlength := h.length_le
  rw [hnil] at hlength
  cases hlength

theorem execute_ledger_amount (amount' : UInt64) (hledger : ctx.accounts.tokenLedger ≠ none) :
    execute rt venue ctx amount' mints swaps bank =
      execute rt venue ctx amount mints swaps bank := by
  unfold execute
  rw [prepare_ledger_amount amount' hledger]

/-- The effective amount is what the input account holds beyond the ledger. -/
theorem Prepares.ledger_effective {inputMint : AccountInfo} {inputDecimals : UInt8}
    {prepared : Prepared} {ledger : Pubkey}
    (h : Prepares rt ctx amount mints swaps bank inputMint inputDecimals prepared)
    (hledger : ctx.accounts.tokenLedger = some ledger)
    (hdata : (bank ctx.accounts.inputTokenAccount).data ≠ []) :
    ∃ stored, Ledger bank ledger ctx.accounts.inputTokenAccount stored ∧
      0 < prepared.effectiveAmount ∧
      stored + prepared.effectiveAmount = tokenAmount (bank ctx.accounts.inputTokenAccount) := by
  obtain ⟨stored, hstored, hspec⟩ := (readTokenLedger_eq_ok hledger).mp h.ledger
  have heffective := h.effective
  simp only [hstored, readEffectiveAmount, bind_eq_ok, require_eq_ok, pure_eq_ok,
    exists_const] at heffective
  obtain ⟨current, hcurrent, hle, hpos, heq⟩ := heffective
  have hamount := tokenAmount_of_extract hcurrent
  rw [tokenAmount_of_sameContents (createMissingAtas_sameContents h.opens hdata)] at hamount
  exact ⟨stored, hspec, by omega, by omega⟩

/-- With a token ledger the amount passed is dead: the route spends exactly what the input
account holds beyond the stored balance, which must be something, and leaves the stored balance
there, whatever the venues do. -/
theorem execute_spendsLedger {ledger : Pubkey}
    (hledger : ctx.accounts.tokenLedger = some ledger) :
    (∀ amount', execute rt venue ctx amount' mints swaps bank =
      execute rt venue ctx amount mints swaps bank) ∧
    ∀ run, execute rt venue ctx amount mints swaps bank = .ok run →
      ctx.accounts.inputTokenAccount ∉ ctx.remainingAccounts.map AccountInfo.key →
      (bank ctx.accounts.inputTokenAccount).data ≠ [] →
      ∃ stored, Ledger bank ledger ctx.accounts.inputTokenAccount stored ∧
        0 < run.effectiveAmount ∧
        stored + run.effectiveAmount = tokenAmount (bank ctx.accounts.inputTokenAccount) ∧
        tokenAmount (run.final ctx.accounts.inputTokenAccount) = stored +
          if ctx.accounts.inputTokenAccount = ctx.accounts.outputTokenAccount then
            run.received rt ctx else 0 := by
  have hsome : ctx.accounts.tokenLedger ≠ none := by simp [hledger]
  refine ⟨fun amount' => execute_ledger_amount amount' hsome, fun run hrun hinput hdata => ?_⟩
  obtain ⟨inputMint, inputDecimals, hprepares⟩ := prepare_spec (execute_eq_ok.mp hrun).prepares
  obtain ⟨stored, hspec, hpos, htotal⟩ := hprepares.ledger_effective hledger hdata
  refine ⟨stored, hspec, hpos, htotal, ?_⟩
  have hspent := (execute_eq_ok.mp hrun).balance_unlisted (.inl hsome) hinput hdata
  rw [if_pos rfl] at hspent
  omega

/-- Two routes chain through a ledger written before the first: the second spends exactly what
the first paid out, and the account in between ends with what it had. -/
theorem execute_chains {ctx' : Context} {amount' : UInt64} {mints' : UInt8}
    {swaps' : List SwapSpecInputV2} {venue' : VenueProgram} {run' : RouteRun} {ledger : Pubkey}
    (h : execute rt venue ctx amount mints swaps bank = .ok run)
    (h' : execute rt venue' ctx' amount' mints' swaps' run.final = .ok run')
    (hplain : PlainInput ctx mints) (hledger : ctx'.accounts.tokenLedger = some ledger)
    (hbetween : ctx'.accounts.inputTokenAccount = ctx.accounts.outputTokenAccount)
    (hinput : ctx.accounts.inputTokenAccount ≠ ctx.accounts.outputTokenAccount)
    (houtput : ctx'.accounts.outputTokenAccount ≠ ctx.accounts.outputTokenAccount)
    (hkey : ctx.accounts.outputTokenAccount ∉ ctx.remainingAccounts.map AccountInfo.key)
    (hkey' : ctx.accounts.outputTokenAccount ∉ ctx'.remainingAccounts.map AccountInfo.key)
    (hdata : (bank ctx.accounts.outputTokenAccount).data ≠ [])
    (hwritten : Ledger bank ledger ctx.accounts.outputTokenAccount
      (tokenAmount (bank ctx.accounts.outputTokenAccount)))
    (hunlisted : ledger ∉ ctx.remainingAccounts.map AccountInfo.key)
    (hledgerInput : ledger ≠ ctx.accounts.inputTokenAccount)
    (hledgerOutput : ledger ≠ ctx.accounts.outputTokenAccount) :
    Ledger run.final ledger ctx.accounts.outputTokenAccount
        (tokenAmount (bank ctx.accounts.outputTokenAccount)) ∧
      run'.effectiveAmount = run.received rt ctx ∧
      tokenAmount (run'.final ctx.accounts.outputTokenAccount) =
        tokenAmount (bank ctx.accounts.outputTokenAccount) := by
  obtain ⟨inputMint, inputDecimals, hprepares⟩ := prepare_spec (execute_eq_ok.mp h').prepares
  have hreceived := (execute_eq_ok.mp h).balance_unlisted hplain hkey hdata
  have hdataFinal := (execute_eq_ok.mp h).data_final_ne_nil hplain hkey hdata
  rw [if_neg hinput.symm, if_pos rfl, Nat.add_zero] at hreceived
  obtain ⟨stored, hspec, _, htotal⟩ :=
    hprepares.ledger_effective hledger (hbetween ▸ hdataFinal)
  have hkept := hwritten.of_sameContents ((execute_eq_ok.mp h).sameContents_unlisted hunlisted
    hledgerInput hledgerOutput hwritten.data_ne_nil)
  have hsame := Option.some.inj (hspec.stored_eq.symm.trans hkept.stored_eq)
  have hspent := (execute_eq_ok.mp h').balance_unlisted
    (.inl (by rw [hledger]; exact Option.some_ne_none _)) hkey' hdataFinal
  rw [if_pos hbetween.symm, if_neg houtput.symm, Nat.add_zero] at hspent
  rw [hbetween, hsame] at htotal
  refine ⟨hkept, ?_, ?_⟩ <;> omega

end Spending

namespace Sample

def balanceLedger : Pubkey := key 60

/-- A bank with a ledger that stores an amount for a token account. -/
def bankWithLedger (account : Pubkey) (stored : ℕ) : Bank :=
  Function.update bank balanceLedger
    ⟨1, zeros 8 ++ (account.bytes ++ leBytes 8 stored), systemProgramId⟩

def settledContext : Context :=
  { context with accounts := { accounts with tokenLedger := some balanceLedger } }

/-- The way back: everything the ledger does not cover of the quote mint is sold. -/
def backContext : Context where
  accounts := { accounts with
    inputTokenAccount := userQuote
    outputTokenAccount := userBase
    tokenLedger := some balanceLedger }
  remainingAccounts := [info quoteAta, info baseAta, info quoteMint, info baseMint,
    info quoteAta, info baseAta, info Quay.programId]

end Sample

open Sample in
theorem execute_spendsExactly_sample :
    ∃ run, execute runtime doubler context 500 2 swaps bank = .ok run ∧
      tokenAmount (run.final userBase) = 500 := by
  obtain ⟨run, hrun⟩ := execute_ok
  have hsource : userBase ∉ context.remainingAccounts.map AccountInfo.key := by decide +kernel
  obtain ⟨hspent, hamount⟩ := execute_spendsExactly hrun (.inr (by decide +kernel)) hsource
    (by decide +kernel)
  have hheld : tokenAmount (bank userBase) = 1000 := by decide +kernel
  have hinput : userBase = context.accounts.inputTokenAccount := rfl
  have houtput : userBase ≠ context.accounts.outputTokenAccount := by decide +kernel
  have heffective : run.effectiveAmount = 500 := hamount rfl
  rw [if_pos hinput, if_neg houtput, hheld, heffective] at hspent
  exact ⟨run, hrun, by omega⟩

open Sample in
theorem execute_spendsLedger_sample :
    ∃ run, execute runtime doubler settledContext 9 2 swaps (bankWithLedger userBase 700) =
      .ok run ∧ tokenAmount (run.final userBase) = 700 := by
  have hruns : ∃ run, execute runtime doubler settledContext 9 2 swaps
      (bankWithLedger userBase 700) = .ok run := exists_of_isOk (by decide +kernel)
  obtain ⟨run, hrun⟩ := hruns
  have hledger : settledContext.accounts.tokenLedger = some balanceLedger := rfl
  have hheld :
      (bankWithLedger userBase 700 settledContext.accounts.inputTokenAccount).data ≠ [] := by
    decide +kernel
  obtain ⟨_, hspends⟩ := execute_spendsLedger hledger
  obtain ⟨stored, hstored, _, _, hleft⟩ := hspends run hrun (by decide +kernel) hheld
  have hwritten : Ledger (bankWithLedger userBase 700) balanceLedger userBase 700 :=
    ⟨by decide +kernel, by decide +kernel, by decide +kernel⟩
  have hsame := Option.some.inj (hstored.stored_eq.symm.trans hwritten.stored_eq)
  rw [if_neg (by decide +kernel), hsame] at hleft
  exact ⟨run, hrun, hleft⟩

open Sample in
theorem execute_chains_sample :
    ∃ run, execute runtime doubler context 500 2 swaps (bankWithLedger userQuote 0) = .ok run ∧
    ∃ run', execute runtime doubler backContext 9 2 swaps run.final = .ok run' ∧
      run'.effectiveAmount = run.received runtime context ∧
      tokenAmount (run'.final userQuote) = 0 := by
  have hruns : (execute runtime doubler context 500 2 swaps (bankWithLedger userQuote 0) >>=
      fun run => (execute runtime doubler backContext 9 2 swaps run.final).map
        (Prod.mk run)).isOk = true := by
    decide +kernel
  obtain ⟨⟨_, run'⟩, hboth⟩ := exists_of_isOk hruns
  obtain ⟨run, hrun, hback⟩ := bind_eq_ok.mp hboth
  obtain ⟨run'', hrun', _⟩ := map_eq_ok.mp hback
  have hchained := execute_chains hrun hrun' (.inr (by decide +kernel)) rfl rfl
    (by decide +kernel) (by decide +kernel) (by decide +kernel) (by decide +kernel)
    (by decide +kernel) ⟨by decide +kernel, by decide +kernel, by decide +kernel⟩
    (by decide +kernel) (by decide +kernel) (by decide +kernel)
  have hempty :
      tokenAmount (bankWithLedger userQuote 0 context.accounts.outputTokenAccount) = 0 := by
    decide +kernel
  exact ⟨run, hrun, run'', hrun', hchained.2.1, hchained.2.2.trans hempty⟩

end QuayTitan.Route
