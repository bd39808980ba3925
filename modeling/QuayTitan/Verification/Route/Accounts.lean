import QuayTitan.Verification.Token
import QuayTitan.Model.Route.Execute

/-! # What the calls of a route leave of a TitanPDA token account -/

namespace QuayTitan.Route

open ByteFields Fallible

variable {rt : Runtime}

/-! ## Inversion of the helpers -/

theorem require_eq_ok {condition : Prop} [Decidable condition] {error : TemplateError}
    {u : Unit} : require condition error = .ok u ↔ condition :=
  check_eq_ok

theorem okOr_eq_ok {α : Type*} {value : Option α} {error : RouteError} {a : α} :
    okOr value error = .ok a ↔ value = some a := by
  cases value <;> simp [okOr]

theorem invoke_eq_ok {α : Type*} {result : Except ProgramError α} {a : α} :
    invoke result = .ok a ↔ result = .ok a :=
  mapError_eq_ok

theorem Context.get_eq_ok {ctx : Context} {index : ℕ} {info : AccountInfo} :
    ctx.get index = .ok info ↔ ctx.remainingAccounts[index]? = some info :=
  okOr_eq_ok

/-- The address of a remaining account. -/
def Context.keyAt (ctx : Context) (index : ℕ) : Pubkey :=
  ((ctx.remainingAccounts[index]?).map AccountInfo.key).getD default

theorem Context.keyAt_eq {ctx : Context} {index : ℕ} {info : AccountInfo}
    (h : ctx.remainingAccounts[index]? = some info) : ctx.keyAt index = info.key := by
  rw [keyAt, h, Option.map_some, Option.getD_some]

theorem extractTokenAmount_eq_ok {account : Account} {amount : ℕ} :
    extractTokenAmount account = .ok amount ↔ getLE account.data 64 8 = some amount :=
  okOr_eq_ok

theorem tokenAmount_of_getLE {account : Account} {amount : ℕ}
    (h : getLE account.data 64 8 = some amount) : tokenAmount account = amount := by
  rw [tokenAmount, h, Option.getD_some]

theorem tokenAmount_of_extract {account : Account} {amount : ℕ}
    (h : extractTokenAmount account = .ok amount) : tokenAmount account = amount :=
  tokenAmount_of_getLE (extractTokenAmount_eq_ok.mp h)

theorem tokenAmount_of_data_nil {account : Account} (h : account.data = []) :
    tokenAmount account = 0 := by
  simp [tokenAmount, getLE, getField, h]

theorem tokenAmount_le (account : Account) : tokenAmount account ≤ u64Max := by
  unfold tokenAmount
  cases h : getLE account.data 64 8 with
  | none => simp
  | some amount =>
      have hlt := getLE_lt h
      simp only [Option.getD_some, u64Max]
      omega

theorem data_ne_nil_of_exists {account : Account} (h : accountExists account = true) :
    account.data ≠ [] := by
  intro hnil
  simp [accountExists, hnil] at h

/-! ## TitanPDA token accounts -/

theorem isTitanPdaTokenAccount_iff {account : Account} {titanPda : Pubkey} :
    isTitanPdaTokenAccount account titanPda = true ↔
      (account.owner = splTokenId ∨ account.owner = token2022Id) ∧
        accountLen ≤ account.data.length ∧ getKey account.data 32 = some titanPda := by
  have hlen : accountLen = 165 := rfl
  unfold isTitanPdaTokenAccount
  split
  · rename_i howner
    simp only [Bool.false_eq_true, false_iff]
    rintro ⟨h, _⟩
    rcases h with h | h
    · exact howner.1 h
    · exact howner.2 h
  · rename_i howner
    split
    · simp only [Bool.false_eq_true, false_iff]
      rintro ⟨_, h, _⟩
      omega
    · have hprogram : account.owner = splTokenId ∨ account.owner = token2022Id := by
        by_contra hnot
        exact howner (not_or.mp hnot)
      cases hkey : getKey account.data 32 with
      | none => simp [extractTokenOwner, okOr, hkey]
      | some owner =>
          simp only [extractTokenOwner, okOr, hkey, decide_eq_true_eq, Option.some.injEq,
            hprogram, true_and]
          constructor
          · rintro rfl
            exact ⟨by omega, rfl⟩
          · exact fun h => h.2

theorem accountLen_le_of_isTitanPda {account : Account} {titanPda : Pubkey}
    (h : isTitanPdaTokenAccount account titanPda = true) :
    accountLen ≤ account.data.length :=
  (isTitanPdaTokenAccount_iff.mp h).2.1

theorem data_ne_nil_of_isTitanPda {account : Account} {titanPda : Pubkey}
    (h : isTitanPdaTokenAccount account titanPda = true) : account.data ≠ [] := by
  intro hnil
  have hlen := accountLen_le_of_isTitanPda h
  rw [hnil] at hlen
  exact absurd hlen (by decide)

theorem ne_of_custody {bank : Bank} {titanPda key other : Pubkey}
    (htitan : isTitanPdaTokenAccount (bank key) titanPda = true)
    (hother : isTitanPdaTokenAccount (bank other) titanPda = false) : key ≠ other := by
  rintro rfl
  rw [htitan] at hother
  cases hother

/-- The balance of a TitanPDA token account can be read. -/
theorem getLE_of_isTitanPda {account : Account} {titanPda : Pubkey}
    (h : isTitanPdaTokenAccount account titanPda = true) :
    getLE account.data 64 8 = some (tokenAmount account) := by
  have hlen : 165 ≤ account.data.length := accountLen_le_of_isTitanPda h
  rw [tokenAmount, getLE, getField_eq_some (by omega), Option.map_some, Option.getD_some]

theorem extractTokenAmount_of_isTitanPda {account : Account} {titanPda : Pubkey}
    (h : isTitanPdaTokenAccount account titanPda = true) :
    extractTokenAmount account = .ok (tokenAmount account) :=
  extractTokenAmount_eq_ok.mpr (getLE_of_isTitanPda h)

/-! ## Changes that keep an account in custody -/

theorem tokenAmount_of_sameContents {account account' : Account}
    (h : SameContents account account') : tokenAmount account' = tokenAmount account := by
  rw [tokenAmount, tokenAmount, h.data_eq]

theorem isTitanPda_of_sameContents {account account' : Account} {titanPda : Pubkey}
    (h : SameContents account account') :
    isTitanPdaTokenAccount account' titanPda = isTitanPdaTokenAccount account titanPda := by
  rw [Bool.eq_iff_iff, isTitanPdaTokenAccount_iff, isTitanPdaTokenAccount_iff, h.data_eq,
    h.owner_eq]

theorem isTitanPda_of_rebalanced {account account' : Account} {titanPda : Pubkey}
    {amount : ℕ} (h : Rebalanced account account' amount)
    (htitan : isTitanPdaTokenAccount account titanPda = true) :
    isTitanPdaTokenAccount account' titanPda = true := by
  rw [isTitanPdaTokenAccount_iff] at htitan ⊢
  exact ⟨by rw [h.owner_eq]; exact htitan.1, h.length_le, by rw [h.authority_eq]; exact htitan.2.2⟩

theorem tokenAmount_of_rebalanced {account account' : Account} {amount : ℕ}
    (h : Rebalanced account account' amount) : tokenAmount account' = amount :=
  tokenAmount_of_getLE h.amount_eq

theorem rebalanced_of_sameContents {account account' : Account} {titanPda : Pubkey}
    (h : SameContents account account')
    (htitan : isTitanPdaTokenAccount account titanPda = true) :
    Rebalanced account account' (tokenAmount account) where
  owner_eq := h.owner_eq
  length_le := by rw [h.data_eq]; exact accountLen_le_of_isTitanPda htitan
  mint_eq := by rw [h.data_eq]
  authority_eq := by rw [h.data_eq]
  amount_eq := by rw [h.data_eq]; exact getLE_of_isTitanPda htitan

/-! ## Calls that leave every account with data alone -/

/-- Opening an associated account touches no account that already holds data. -/
theorem createIdempotent_sameContents {payer wallet mint account program : Pubkey}
    {bank bank' : Bank}
    (h : createIdempotent rt payer wallet mint account program bank = .ok bank')
    {key : Pubkey} (hdata : (bank key).data ≠ []) : SameContents (bank key) (bank' key) := by
  cases createIdempotent_spec h with
  | existing token unpacks owner_eq mint_eq same => exact same ▸ SameContents.refl _
  | fresh opens =>
      apply opens.contents
      rintro rfl
      exact hdata opens.data_eq

/-- Nothing is done for no SOL; else it is sent, and the balance catches up. -/
theorem transferSolAndSync_cases {source wsolAta tokenProgram : Pubkey} {amount : ℕ}
    {bank bank' : Bank}
    (h : transferSolAndSync source wsolAta tokenProgram amount bank = .ok bank') :
    (amount = 0 ∧ bank' = bank) ∨ ∃ funded token reserve,
      SystemTransferSpec source wsolAta amount bank funded ∧
        SyncSpec wsolAta token reserve funded bank' := by
  unfold transferSolAndSync at h
  split at h
  · rename_i hzero
    rw [pure_eq_ok] at h
    exact .inl ⟨hzero, h.symm⟩
  · simp only [bind_eq_ok, invoke_eq_ok] at h
    obtain ⟨funded, hfunded, hsync⟩ := h
    obtain ⟨token, reserve, hspec⟩ := syncNative_spec hsync
    exact .inr ⟨funded, token, reserve, systemTransfer_spec hfunded, hspec⟩

/-- A wrapped-SOL account that exists is topped up; one that does not is opened and funded, to
be closed again. -/
theorem setupWsolInputAccount_cases {payer owner wsolAta mint tokenProgram : Pubkey}
    {amount : ℕ} {bank : Bank} {result : Bool × Bank}
    (h : setupWsolInputAccount rt payer owner wsolAta mint tokenProgram amount bank =
      .ok result) :
    (accountExists (bank wsolAta) = true ∧ result.1 = false ∧ ∃ balance,
      transferSolAndSync owner wsolAta tokenProgram (amount - balance) bank = .ok result.2) ∨
    (accountExists (bank wsolAta) = false ∧ result.1 = true ∧ ∃ opened,
      createIdempotent rt payer owner mint wsolAta tokenProgram bank = .ok opened ∧
        transferSolAndSync owner wsolAta tokenProgram amount opened = .ok result.2) := by
  unfold setupWsolInputAccount at h
  split at h
  · rename_i hexists
    simp only [bind_eq_ok] at h
    obtain ⟨balance, _, h⟩ := h
    split at h
    · simp only [bind_eq_ok, pure_eq_ok] at h
      obtain ⟨funded, hfunded, rfl⟩ := h
      exact .inl ⟨hexists, rfl, balance, hfunded⟩
    · rename_i henough
      have hnothing : amount - balance = 0 := by omega
      rw [pure_eq_ok] at h
      subst h
      refine .inl ⟨hexists, rfl, balance, ?_⟩
      rw [hnothing]
      rfl
  · rename_i hmissing
    simp only [bind_eq_ok, invoke_eq_ok, pure_eq_ok] at h
    obtain ⟨opened, hopened, funded, hfunded, rfl⟩ := h
    exact .inr ⟨Bool.eq_false_iff.mpr hmissing, rfl, opened, hopened, hfunded⟩

theorem transferSolAndSync_sameContents {source wsolAta tokenProgram : Pubkey} {amount : ℕ}
    {bank bank' : Bank}
    (h : transferSolAndSync source wsolAta tokenProgram amount bank = .ok bank')
    {key : Pubkey} (hkey : key ≠ wsolAta) : SameContents (bank key) (bank' key) := by
  rcases transferSolAndSync_cases h with ⟨_, rfl⟩ | ⟨funded, token, reserve, hfund, hsync⟩
  · exact SameContents.refl _
  · rw [hsync.frame key hkey]
    exact hfund.contents key

theorem setupWsolInputAccount_sameContents {payer owner wsolAta mint tokenProgram : Pubkey}
    {amount : ℕ} {bank : Bank} {result : Bool × Bank}
    (h : setupWsolInputAccount rt payer owner wsolAta mint tokenProgram amount bank =
      .ok result)
    {key : Pubkey} (hkey : key ≠ wsolAta) (hdata : (bank key).data ≠ []) :
    SameContents (bank key) (result.2 key) := by
  rcases setupWsolInputAccount_cases h with ⟨_, _, balance, hfunded⟩ |
    ⟨_, _, opened, hopened, hfunded⟩
  · exact transferSolAndSync_sameContents hfunded hkey
  · exact (createIdempotent_sameContents hopened hdata).trans
      (transferSolAndSync_sameContents hfunded hkey)

/-- It does not even charge one: only an account without data can pay. -/
theorem createIdempotent_keeps {payer wallet mint account program : Pubkey} {bank bank' : Bank}
    (h : createIdempotent rt payer wallet mint account program bank = .ok bank')
    {key : Pubkey} (hdata : (bank key).data ≠ []) : bank' key = bank key := by
  simp only [createIdempotent, bind_eq_ok, check_eq_ok] at h
  obtain ⟨_, _, h⟩ := h
  split at h
  · simp only [bind_eq_ok, check_eq_ok, pure_eq_ok] at h
    obtain ⟨_, _, _, _, rfl⟩ := h
    rfl
  · simp only [openAccount, bind_eq_ok, check_eq_ok, pure_eq_ok] at h
    obtain ⟨_, _, _, hempty, _, _, _, _, funded, hfunded, rfl⟩ := h
    have hkey : key ≠ account := by
      rintro rfl
      exact hdata hempty
    rw [Function.update_of_ne hkey]
    unfold fundRent at hfunded
    split at hfunded
    · have hspec := systemTransfer_spec hfunded
      apply hspec.frame key _ hkey
      rintro rfl
      exact hdata hspec.source_data
    · rw [pure_eq_ok] at hfunded
      rw [hfunded]

/-! ## Calls that close no account -/

theorem transferSolAndSync_data_ne_nil {source wsolAta tokenProgram : Pubkey} {amount : ℕ}
    {bank bank' : Bank}
    (h : transferSolAndSync source wsolAta tokenProgram amount bank = .ok bank')
    {key : Pubkey} (hdata : (bank key).data ≠ []) : (bank' key).data ≠ [] := by
  by_cases hkey : key = wsolAta
  · subst hkey
    rcases transferSolAndSync_cases h with ⟨_, rfl⟩ | ⟨funded, token, reserve, _, hsync⟩
    · exact hdata
    · exact hsync.data_ne_nil
  · rw [(transferSolAndSync_sameContents h hkey).data_eq]
    exact hdata

/-- The wrapped-SOL account is set up to be closed again only when it did not exist. -/
theorem setupWsolInputAccount_created {payer owner wsolAta mint tokenProgram : Pubkey}
    {amount : ℕ} {bank : Bank} {result : Bool × Bank}
    (h : setupWsolInputAccount rt payer owner wsolAta mint tokenProgram amount bank =
      .ok result) : result.1 = !accountExists (bank wsolAta) := by
  rcases setupWsolInputAccount_cases h with ⟨hexists, hflag, _⟩ | ⟨hmissing, hflag, _⟩
  · rw [hflag, hexists, Bool.not_true]
  · rw [hflag, hmissing, Bool.not_false]

theorem setupWsolInputAccount_data_ne_nil {payer owner wsolAta mint tokenProgram : Pubkey}
    {amount : ℕ} {bank : Bank} {result : Bool × Bank}
    (h : setupWsolInputAccount rt payer owner wsolAta mint tokenProgram amount bank =
      .ok result) {key : Pubkey} (hdata : (bank key).data ≠ []) : (result.2 key).data ≠ [] := by
  rcases setupWsolInputAccount_cases h with ⟨_, _, balance, hfunded⟩ |
    ⟨_, _, opened, hopened, hfunded⟩
  · exact transferSolAndSync_data_ne_nil hfunded hdata
  · apply transferSolAndSync_data_ne_nil hfunded
    rwa [createIdempotent_keeps hopened hdata]

/-! ## Accounts a call does not reach -/

theorem createIdempotent_frame {payer wallet mint account program : Pubkey}
    {bank bank' : Bank}
    (h : createIdempotent rt payer wallet mint account program bank = .ok bank')
    {key : Pubkey} (haccount : key ≠ account) (hpayer : key ≠ payer) : bank' key = bank key := by
  cases createIdempotent_spec h with
  | existing token unpacks owner_eq mint_eq same => rw [same]
  | fresh opens => exact opens.frame key haccount hpayer

theorem transferSolAndSync_frame {source wsolAta tokenProgram : Pubkey} {amount : ℕ}
    {bank bank' : Bank}
    (h : transferSolAndSync source wsolAta tokenProgram amount bank = .ok bank')
    {key : Pubkey} (hsource : key ≠ source) (hkey : key ≠ wsolAta) : bank' key = bank key := by
  rcases transferSolAndSync_cases h with ⟨_, rfl⟩ | ⟨funded, token, reserve, hfund, hsync⟩
  · rfl
  · rw [hsync.frame key hkey, hfund.frame key hsource hkey]

theorem setupWsolInputAccount_frame {payer owner wsolAta mint tokenProgram : Pubkey}
    {amount : ℕ} {bank : Bank} {result : Bool × Bank}
    (h : setupWsolInputAccount rt payer owner wsolAta mint tokenProgram amount bank =
      .ok result)
    {key : Pubkey} (hpayer : key ≠ payer) (howner : key ≠ owner) (hkey : key ≠ wsolAta) :
    result.2 key = bank key := by
  rcases setupWsolInputAccount_cases h with ⟨_, _, balance, hfunded⟩ |
    ⟨_, _, opened, hopened, hfunded⟩
  · exact transferSolAndSync_frame hfunded howner hkey
  · exact (transferSolAndSync_frame hfunded howner hkey).trans
      (createIdempotent_frame hopened hkey hpayer)

/-! ## Route transfers -/

/-- The fee a route transfer withholds: only Token-2022 transfers are checked ones. -/
def routeFee (rt : Runtime) (tokenProgram mint : Pubkey) (amount : ℕ) : ℕ :=
  if tokenProgram = token2022Id then rt.transferFee mint amount else 0

/-- A transfer of zero is skipped; any other is a token transfer. -/
theorem transferTokens_spec {tokenProgram source destination authority mint : Pubkey}
    {amount : ℕ} {decimals : UInt8} {bank bank' : Bank}
    (h : transferTokens rt tokenProgram source destination authority (some mint) amount
      decimals bank = .ok bank') :
    (amount = 0 ∧ bank' = bank) ∨ (0 < amount ∧ ∃ src dst,
      TransferSpec (if tokenProgram = token2022Id then token2022Id else splTokenId) source
        destination authority amount (routeFee rt tokenProgram mint amount) src dst bank
        bank') := by
  unfold transferTokens at h
  split at h
  · rename_i hzero
    rw [pure_eq_ok] at h
    exact .inl ⟨hzero, h.symm⟩
  · rename_i hne
    refine .inr ⟨Nat.pos_of_ne_zero hne, ?_⟩
    split at h
    · rename_i hprogram
      simp only [bind_eq_ok, okOr_eq_ok, invoke_eq_ok] at h
      obtain ⟨mint', hmint, htransfer⟩ := h
      obtain rfl := Option.some.inj hmint
      obtain ⟨src, dst, fee, hfee, hspec⟩ := tokenTransfer_spec htransfer
      refine ⟨src, dst, ?_⟩
      rw [if_pos hprogram, routeFee, if_pos hprogram]
      simpa [hfee] using hspec
    · rename_i hprogram
      rw [invoke_eq_ok] at h
      obtain ⟨src, dst, fee, hfee, hspec⟩ := tokenTransfer_spec h
      refine ⟨src, dst, ?_⟩
      rw [if_neg hprogram, routeFee, if_neg hprogram]
      simpa [hfee] using hspec

/-- Without fees a transfer reaches the destination in full. -/
theorem tokenAmount_transferTokens {tokenProgram source destination authority mint : Pubkey}
    {amount : ℕ} {decimals : UInt8} {bank bank' : Bank}
    (h : transferTokens rt tokenProgram source destination authority (some mint) amount
      decimals bank = .ok bank') (hne : source ≠ destination)
    (hfee : routeFee rt tokenProgram mint amount = 0) :
    tokenAmount (bank' destination) = tokenAmount (bank destination) + amount := by
  rcases transferTokens_spec h with ⟨rfl, rfl⟩ | ⟨_, src, dst, hspec⟩
  · rfl
  · rw [tokenAmount_of_rebalanced (hspec.credit hne), hfee, Nat.sub_zero,
      tokenAmount_of_getLE (readTokenAccount_fields hspec.destination_unpacks.read).2.2]

theorem transferTokens_frame {tokenProgram source destination authority mint : Pubkey}
    {amount : ℕ} {decimals : UInt8} {bank bank' : Bank}
    (h : transferTokens rt tokenProgram source destination authority (some mint) amount
      decimals bank = .ok bank')
    {key : Pubkey} (hsource : key ≠ source) (hdestination : key ≠ destination) :
    bank' key = bank key := by
  rcases transferTokens_spec h with ⟨_, rfl⟩ | ⟨_, src, dst, hspec⟩
  · rfl
  · exact hspec.frame key hsource hdestination

theorem transferTokens_data_ne_nil {tokenProgram source destination authority mint : Pubkey}
    {amount : ℕ} {decimals : UInt8} {bank bank' : Bank}
    (h : transferTokens rt tokenProgram source destination authority (some mint) amount
      decimals bank = .ok bank')
    {key : Pubkey} (hdata : (bank key).data ≠ []) : (bank' key).data ≠ [] := by
  have hlong {data : Bytes} (hlength : accountLen ≤ data.length) : data ≠ [] := by
    rintro rfl
    exact absurd hlength (by decide)
  rcases transferTokens_spec h with ⟨_, rfl⟩ | ⟨_, src, dst, hspec⟩
  · exact hdata
  · by_cases hself : source = destination
    · rw [hspec.self hself]
      exact hdata
    · by_cases hsource : key = source
      · exact hsource ▸ hlong (hspec.debit hself).length_le
      · by_cases hdestination : key = destination
        · exact hdestination ▸ hlong (hspec.credit hself).length_le
        · rwa [hspec.frame key hsource hdestination]

/-- What a token transfer does to the balance of an account. -/
def transferredAmount (source destination key : Pubkey) (spent received before : ℕ) : ℕ :=
  if source = destination then before
  else if key = source then before - spent
  else if key = destination then before + received
  else before

/-- A transfer keeps every TitanPDA token account in custody and moves its balance as
expected of the source, the destination and the others. -/
theorem transferTokens_rebalanced {tokenProgram source destination authority mint : Pubkey}
    {amount : ℕ} {decimals : UInt8} {bank bank' : Bank}
    (h : transferTokens rt tokenProgram source destination authority (some mint) amount
      decimals bank = .ok bank')
    {key titanPda : Pubkey} (htitan : isTitanPdaTokenAccount (bank key) titanPda = true) :
    Rebalanced (bank key) (bank' key) (transferredAmount source destination key amount
      (amount - routeFee rt tokenProgram mint amount) (tokenAmount (bank key))) := by
  have hsame := rebalanced_of_sameContents (SameContents.refl (bank key)) htitan
  rcases transferTokens_spec h with ⟨rfl, rfl⟩ | ⟨_, src, dst, hspec⟩
  · simpa [transferredAmount] using hsame
  · by_cases hself : source = destination
    · rw [transferredAmount, if_pos hself, hspec.self hself]
      exact hsame
    · rw [transferredAmount, if_neg hself]
      by_cases hs : key = source
      · subst hs
        rw [if_pos rfl,
          tokenAmount_of_getLE (readTokenAccount_fields hspec.source_unpacks.read).2.2]
        exact hspec.debit hself
      · rw [if_neg hs]
        by_cases hd : key = destination
        · subst hd
          rw [if_pos rfl,
            tokenAmount_of_getLE (readTokenAccount_fields hspec.destination_unpacks.read).2.2]
          exact hspec.credit hself
        · rw [if_neg hd, hspec.frame key hs hd]
          exact hsame

end QuayTitan.Route
