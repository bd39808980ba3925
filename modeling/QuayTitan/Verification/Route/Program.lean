import QuayTitan.Verification.Token
import QuayTitan.Model.Route.Program

/-! # What the entry point accepts

Each instruction succeeds exactly on the accounts described here, and then leaves exactly
the bank described here. -/

namespace QuayTitan.Route

open ByteFields Fallible Borsh

variable {rt : Runtime} {derive : Derivation}

theorem programId_ne_systemProgramId : programId ≠ systemProgramId := by decide +kernel

/-! ## The state account -/

namespace TitanPda

theorem serialize_eq (titanPda : TitanPda) :
    titanPda.serialize = discriminator ++ [titanPda.bump] := rfl

theorem length_serialize (titanPda : TitanPda) : titanPda.serialize.length = 9 := rfl

theorem tryDeserializeUnchecked_eq_ok {data : Bytes} {titanPda : TitanPda} :
    tryDeserializeUnchecked data = .ok titanPda ↔
      ∃ rest, data.drop discriminator.length = titanPda.bump :: rest := by
  unfold tryDeserializeUnchecked
  cases hdata : data.drop discriminator.length with
  | nil =>
      have hnone : codec.decode [] = none := rfl
      simp [hnone]
  | cons byte tail =>
      have hsome : codec.decode (byte :: tail) = some (⟨byte⟩, tail) := rfl
      simp only [hsome, Except.ok.injEq, List.cons.injEq, exists_and_left, exists_eq', and_true]
      constructor
      · rintro rfl
        rfl
      · intro hbyte
        rw [hbyte]

/-- The data starts with the one encoding of the value. -/
theorem tryDeserialize_eq_ok {data : Bytes} {titanPda : TitanPda} :
    tryDeserialize data = .ok titanPda ↔ getField data 0 9 = some titanPda.serialize := by
  simp only [tryDeserialize, bind_eq_ok, check_eq_ok, exists_const,
    tryDeserializeUnchecked_eq_ok]
  constructor
  · rintro ⟨_, hfront, rest, hback⟩
    have hdata : data = titanPda.serialize ++ rest := by
      rw [← List.take_append_drop discriminator.length data, hfront, hback]
      rfl
    have hlength := titanPda.length_serialize
    rw [hdata, getField_append_left rest (by omega), getField_self hlength]
  · intro hfield
    have hlength := length_of_getField hfield
    unfold getField at hfield
    split at hfield
    · rename_i hle
      rw [List.drop_zero] at hfield
      have hdata := List.take_append_drop 9 data
      rw [Option.some.inj hfield, serialize_eq, List.append_assoc] at hdata
      rw [← hdata]
      exact ⟨by simp [discriminator], rfl, data.drop 9, rfl⟩
    · cases hfield

theorem checkOwner_eq_ok {account : Account} :
    checkOwner account = .ok () ↔ account.owner = programId := by
  simp only [checkOwner, bind_eq_ok, check_eq_ok, exists_const]
  constructor
  · exact fun h => h.2
  · intro howner
    refine ⟨fun hsystem => ?_, howner⟩
    exact programId_ne_systemProgramId (howner.symm.trans hsystem.1)

end TitanPda

/-- The state of the program found at an address. -/
def titanAt (bank : Bank) (key : Pubkey) : Option TitanPda :=
  (TitanPda.tryFrom (bank key)).toOption

theorem tryFrom_eq_ok {bank : Bank} {key : Pubkey} {titanPda : TitanPda} :
    TitanPda.tryFrom (bank key) = .ok titanPda ↔ titanAt bank key = some titanPda := by
  unfold titanAt
  cases TitanPda.tryFrom (bank key) with
  | error e => simp [Except.toOption]
  | ok found => simp [Except.toOption]

theorem titanAt_eq_some {bank : Bank} {key : Pubkey} {titanPda : TitanPda} :
    titanAt bank key = some titanPda ↔
      (bank key).owner = programId ∧
        getField (bank key).data 0 9 = some titanPda.serialize := by
  rw [← tryFrom_eq_ok, TitanPda.tryFrom]
  simp only [bind_eq_ok, TitanPda.tryDeserialize_eq_ok]
  constructor
  · rintro ⟨_, howner, hdata⟩
    exact ⟨TitanPda.checkOwner_eq_ok.mp howner, hdata⟩
  · rintro ⟨howner, hdata⟩
    exact ⟨(), TitanPda.checkOwner_eq_ok.mpr howner, hdata⟩

/-! ## Derived addresses -/

/-- A found bump gives the found address. -/
theorem findProgramAddress_derives {seeds : List Bytes} {program address : Pubkey}
    {bump : UInt8} (h : findProgramAddress derive seeds program = some (address, bump)) :
    derive (seeds ++ [[bump]]) program = some address := by
  obtain ⟨i, _, hi⟩ := List.exists_of_findSome?_eq_some h
  obtain ⟨found, hfound, hpair⟩ := Option.map_eq_some_iff.mp hi
  obtain ⟨rfl, rfl⟩ := Prod.mk.inj hpair
  exact hfound

/-! ## Accounts of an instruction -/

theorem takeAccount_eq_ok {infos : List AccountInfo} {taken : AccountInfo × List AccountInfo} :
    takeAccount infos = .ok taken ↔ infos = taken.1 :: taken.2 := by
  obtain ⟨info, rest⟩ := taken
  cases infos with
  | nil => simp [takeAccount]
  | cons head tail => simp [takeAccount]

theorem takeSigner_eq_ok {infos : List AccountInfo} {taken : AccountInfo × List AccountInfo} :
    takeSigner infos = .ok taken ↔ infos = taken.1 :: taken.2 ∧ taken.1.isSigner = true := by
  simp only [takeSigner, bind_eq_ok, pure_eq_ok, check_eq_ok, takeAccount_eq_ok, exists_const]
  constructor
  · rintro ⟨⟨info, rest⟩, rfl, hsigner, rfl⟩
    exact ⟨rfl, hsigner⟩
  · rintro ⟨rfl, hsigner⟩
    exact ⟨taken, rfl, hsigner, rfl⟩

theorem takeProgram_eq_ok {program : Pubkey} {infos rest : List AccountInfo} :
    takeProgram program infos = .ok rest ↔
      ∃ info, infos = info :: rest ∧ info.key = program := by
  simp only [takeProgram, bind_eq_ok, pure_eq_ok, check_eq_ok, takeAccount_eq_ok, exists_const,
    Prod.exists]
  constructor
  · rintro ⟨info, rest, rfl, hkey, rfl⟩
    exact ⟨info, rfl, hkey⟩
  · rintro ⟨info, rfl, hkey⟩
    exact ⟨info, rest, rfl, hkey, rfl⟩

/-- What an optional account stands for. -/
def AccountInfo.optional (info : AccountInfo) : Option Pubkey :=
  if info.key = programId then none else some info.key

theorem takeOptional_eq_ok {infos : List AccountInfo}
    {taken : Option Pubkey × List AccountInfo} :
    takeOptional infos = .ok taken ↔
      ∃ info, infos = info :: taken.2 ∧ taken.1 = AccountInfo.optional info := by
  obtain ⟨value, rest⟩ := taken
  simp only [takeOptional, bind_eq_ok, pure_eq_ok, takeAccount_eq_ok, Prod.exists, Prod.mk.injEq]
  constructor
  · rintro ⟨info, rest, rfl, rfl, rfl⟩
    exact ⟨info, rfl, rfl⟩
  · rintro ⟨info, rfl, rfl⟩
    exact ⟨info, rest, rfl, rfl, rfl⟩

/-! ## `SwapRouteV3` -/

/-- The twelve named accounts of a route, as they are passed. -/
structure RouteInfos where
  payer : AccountInfo
  user : AccountInfo
  titanPda : AccountInfo
  inputTokenAccount : AccountInfo
  outputTokenAccount : AccountInfo
  tokenProgram : AccountInfo
  token2022Program : AccountInfo
  systemProgram : AccountInfo
  associatedTokenProgram : AccountInfo
  tokenLedger : AccountInfo
  reservedOptionalAccount0 : AccountInfo
  reservedOptionalAccount1 : AccountInfo

namespace RouteInfos

def toList (named : RouteInfos) : List AccountInfo :=
  [named.payer, named.user, named.titanPda, named.inputTokenAccount, named.outputTokenAccount,
    named.tokenProgram, named.token2022Program, named.systemProgram,
    named.associatedTokenProgram, named.tokenLedger, named.reservedOptionalAccount0,
    named.reservedOptionalAccount1]

/-- What the handler sees of the accounts. -/
def context (named : RouteInfos) (remainingAccounts : List AccountInfo) : Context where
  accounts :=
    { payer := named.payer.key
      user := named.user.key
      titanPda := named.titanPda.key
      inputTokenAccount := named.inputTokenAccount.key
      outputTokenAccount := named.outputTokenAccount.key
      tokenProgram := named.tokenProgram.key
      token2022Program := named.token2022Program.key
      tokenLedger := AccountInfo.optional named.tokenLedger }
  remainingAccounts := remainingAccounts

/-- The checks whose outcome is up to the sender. -/
structure Signed (named : RouteInfos) : Prop where
  payer_signs : named.payer.isSigner = true
  user_signs : named.user.isSigner = true
  system_eq : named.systemProgram.key = systemProgramId
  payer_writable : named.payer.isWritable = true
  user_writable : named.user.isWritable = true
  input_writable : named.inputTokenAccount.isWritable = true
  output_writable : named.outputTokenAccount.isWritable = true

/-- The checks made before the handler runs. -/
structure Accepted (derive : Derivation) (named : RouteInfos) (bank : Bank) (state : TitanPda) :
    Prop extends Signed named where
  state_eq : titanAt bank named.titanPda.key = some state
  derived : derive [TitanPda.seed, [state.bump]] programId = some named.titanPda.key

end RouteInfos

/-- The context is accepted exactly when its twelve accounts come first and pass the checks. -/
theorem SwapRouteV3.tryAccounts_eq_ok {infos : List AccountInfo} {bank : Bank}
    {ctx : Context} :
    SwapRouteV3.tryAccounts derive infos bank = .ok ctx ↔
      ∃ named : RouteInfos, infos = named.toList ++ ctx.remainingAccounts ∧
        ctx = named.context ctx.remainingAccounts ∧ ∃ state, named.Accepted derive bank state := by
  simp only [SwapRouteV3.tryAccounts, bind_eq_ok, pure_eq_ok, check_eq_ok, exists_const,
    takeSigner_eq_ok, takeAccount_eq_ok, takeProgram_eq_ok, takeOptional_eq_ok, tryFrom_eq_ok]
  constructor
  · rintro ⟨⟨payer, infos₁⟩, ⟨h₁, hpayer⟩, ⟨user, infos₂⟩, ⟨h₂, huser⟩, ⟨titanPda, infos₃⟩, h₃,
      state, hstate, ⟨input, infos₄⟩, h₄, ⟨output, infos₅⟩, h₅, ⟨token, infos₆⟩, h₆,
      ⟨token2022, infos₇⟩, h₇, infos₈, ⟨system, h₈, hsystem⟩, ⟨associated, infos₉⟩, h₉,
      ⟨_, infos₁₀⟩, ⟨ledger, h₁₀, hledger⟩, ⟨_, infos₁₁⟩, ⟨reserved0, h₁₁, _⟩, ⟨_, remaining⟩,
      ⟨reserved1, h₁₂, _⟩, hpayerMut, huserMut, hderived, hinputMut, houtputMut, hctx⟩
    simp only at *
    subst h₁ h₂ h₃ h₄ h₅ h₆ h₇ h₈ h₉ h₁₀ h₁₁ h₁₂ hledger hctx
    exact ⟨⟨payer, user, titanPda, input, output, token, token2022, system, associated, ledger,
      reserved0, reserved1⟩, rfl, rfl, state,
      ⟨hpayer, huser, hsystem, hpayerMut, huserMut, hinputMut, houtputMut⟩, hstate, hderived⟩
  · rintro ⟨named, rfl, hctx, state, haccepted⟩
    refine ⟨(_, _), ⟨rfl, haccepted.payer_signs⟩, (_, _), ⟨rfl, haccepted.user_signs⟩, (_, _), rfl,
      state, haccepted.state_eq, (_, _), rfl, (_, _), rfl, (_, _), rfl, (_, _), rfl, _,
      ⟨_, rfl, haccepted.system_eq⟩, (_, _), rfl, (_, _), ⟨_, rfl, rfl⟩, (_, _), ⟨_, rfl, rfl⟩,
      (_, _), ⟨_, rfl, rfl⟩, haccepted.payer_writable, haccepted.user_writable, haccepted.derived,
      haccepted.input_writable, haccepted.output_writable, hctx.symm⟩

/-! ## `Initialize` -/

/-- The payer can make up the rent of an account of `space` bytes at this address. -/
def CanPayRent (rt : Runtime) (payer account : Pubkey) (space : ℕ) (bank : Bank) : Prop :=
  rentShortfall rt space (bank account).lamports = 0 ∨
    ((bank payer).owner = systemProgramId ∧ (bank payer).data = [] ∧
      rentShortfall rt space (bank account).lamports ≤ (bank payer).lamports)

/-- The bank with a new account of the program whose rent the payer made up. -/
def withInitAccount (rt : Runtime) (payer account : Pubkey) (data : Bytes) (bank : Bank) : Bank :=
  let shortfall := rentShortfall rt data.length (bank account).lamports
  Function.update
    (Function.update bank payer
      { bank payer with lamports := (bank payer).lamports - shortfall })
    account ⟨(bank account).lamports + shortfall, data, programId⟩

theorem systemTransfer_eq_ok {source destination : Pubkey} {lamports : ℕ} {bank bank' : Bank}
    (hne : source ≠ destination) :
    systemTransfer source destination lamports bank = .ok bank' ↔
      (bank source).owner = systemProgramId ∧ (bank source).data = [] ∧
        lamports ≤ (bank source).lamports ∧
        bank' = Function.update
          (Function.update bank source
            { bank source with lamports := (bank source).lamports - lamports })
          destination
          { bank destination with lamports := (bank destination).lamports + lamports } := by
  simp only [systemTransfer, bind_eq_ok, pure_eq_ok, check_eq_ok, exists_const, and_assoc,
    Function.update_of_ne hne.symm]
  constructor
  · rintro ⟨howner, hdata, hfunds, rfl⟩
    exact ⟨howner, hdata, hfunds, rfl⟩
  · rintro ⟨howner, hdata, hfunds, rfl⟩
    exact ⟨howner, hdata, hfunds, rfl⟩

/-- An unused address is allocated and then handed to the program. -/
theorem allocateAssign_eq_ok {account : Pubkey} {space : ℕ} {bank bank' : Bank} :
    (∃ allocated, systemAllocate account space bank = .ok allocated ∧
      systemAssign account programId allocated = .ok bank') ↔
      (bank account).data = [] ∧ (bank account).owner = systemProgramId ∧
        bank' = Function.update bank account
          ⟨(bank account).lamports, zeros space, programId⟩ := by
  simp only [systemAllocate, bind_eq_ok, pure_eq_ok, check_eq_ok, exists_const, and_assoc]
  constructor
  · rintro ⟨_, hdata, howner, rfl, hassign⟩
    have hne : ¬systemProgramId = programId := programId_ne_systemProgramId.symm
    simp only [systemAssign, Function.update_self, howner, if_neg hne, bind_eq_ok, pure_eq_ok,
      Function.update_idem] at hassign
    obtain ⟨_, _, rfl⟩ := hassign
    exact ⟨hdata, howner, rfl⟩
  · rintro ⟨hdata, howner, rfl⟩
    refine ⟨_, hdata, howner, rfl, ?_⟩
    have hne : ¬systemProgramId = programId := programId_ne_systemProgramId.symm
    simp [systemAssign, howner, hne, check]

/-- The payer makes up exactly the shortfall. -/
theorem fundRent_eq_ok {payer account : Pubkey} {shortfall : ℕ} {bank bank' : Bank}
    (hne : payer ≠ account) :
    fundRent payer account shortfall bank = .ok bank' ↔
      (shortfall = 0 ∨ ((bank payer).owner = systemProgramId ∧ (bank payer).data = [] ∧
        shortfall ≤ (bank payer).lamports)) ∧
        bank' = Function.update
          (Function.update bank payer
            { bank payer with lamports := (bank payer).lamports - shortfall })
          account { bank account with lamports := (bank account).lamports + shortfall } := by
  unfold fundRent
  split
  · rename_i hpos
    rw [systemTransfer_eq_ok hne]
    constructor
    · rintro ⟨howner, hdata, hfunds, hbank⟩
      exact ⟨.inr ⟨howner, hdata, hfunds⟩, hbank⟩
    · rintro ⟨hzero | ⟨howner, hdata, hfunds⟩, hbank⟩
      · omega
      · exact ⟨howner, hdata, hfunds, hbank⟩
  · rename_i hnone
    obtain rfl : shortfall = 0 := by omega
    rw [pure_eq_ok]
    simp [eq_comm]

/-- An account is created exactly at an unused address whose rent the payer can make up, whether
lamports were sent there before or not. -/
theorem createInitAccount_eq_ok {payer account : Pubkey} {space : ℕ} {bank bank' : Bank} :
    createInitAccount rt payer account space bank = .ok bank' ↔
      payer ≠ account ∧ (bank account).data = [] ∧ (bank account).owner = systemProgramId ∧
        CanPayRent rt payer account space bank ∧
        bank' = withInitAccount rt payer account (zeros space) bank := by
  unfold createInitAccount CanPayRent withInitAccount
  rw [length_zeros]
  split
  · rename_i hzero
    have hpos := rt.minimumBalance_pos space
    have hshortfall : rentShortfall rt space 0 = rt.minimumBalance space := by
      unfold rentShortfall
      omega
    rw [mapError_eq_ok, hzero, hshortfall]
    simp only [systemCreateAccount, bind_eq_ok, check_eq_ok, exists_const, hzero, true_and]
    constructor
    · rintro ⟨allocated, hallocate, claimed, hassign, htransfer⟩
      obtain ⟨hdata, howner, rfl⟩ := allocateAssign_eq_ok.mp ⟨allocated, hallocate, hassign⟩
      have hne : payer ≠ account := by
        rintro rfl
        have hsource := (systemTransfer_spec htransfer).source_owner
        rw [Function.update_self] at hsource
        exact programId_ne_systemProgramId hsource
      obtain ⟨hpayer, hempty, hfunds, rfl⟩ := (systemTransfer_eq_ok hne).mp htransfer
      simp only [Function.update_of_ne hne, Function.update_self] at hpayer hempty hfunds ⊢
      refine ⟨hne, hdata, howner, .inr ⟨hpayer, hempty, hfunds⟩, ?_⟩
      rw [Function.update_comm hne.symm, Function.update_idem, hzero]
    · rintro ⟨hne, hdata, howner, hpaid, rfl⟩
      obtain ⟨allocated, hallocate, hassign⟩ :=
        allocateAssign_eq_ok.mpr ⟨hdata, howner, rfl⟩
      refine ⟨allocated, hallocate, _, hassign, (systemTransfer_eq_ok hne).mpr ?_⟩
      simp only [Function.update_of_ne hne, Function.update_self]
      have hfunds := hpaid.resolve_left (by omega)
      refine ⟨hfunds.1, hfunds.2.1, hfunds.2.2, ?_⟩
      rw [Function.update_comm hne.symm, Function.update_idem, hzero]
  · simp only [bind_eq_ok, check_eq_ok, exists_const, mapError_eq_ok, allocateAssign_eq_ok]
    constructor
    · rintro ⟨hne, funded, hfund, hdata, howner, rfl⟩
      obtain ⟨hpaid, rfl⟩ := (fundRent_eq_ok hne).mp hfund
      simp only [Function.update_self, Function.update_idem] at hdata howner ⊢
      exact ⟨hne, hdata, howner, hpaid, trivial⟩
    · rintro ⟨hne, hdata, howner, hpaid, rfl⟩
      refine ⟨hne, _, (fundRent_eq_ok hne).mpr ⟨hpaid, rfl⟩, ?_⟩
      simp only [Function.update_self, Function.update_idem]
      exact ⟨hdata, howner, trivial⟩

/-- What a successful `Initialize` found, and the bank it left. -/
structure Initializes (rt : Runtime) (derive : Derivation) (payer titanPda : AccountInfo)
    (bump : UInt8) (bank bank' : Bank) : Prop where
  payer_signs : payer.isSigner = true
  found : findProgramAddress derive [TitanPda.seed] programId = some (titanPda.key, bump)
  payer_ne : payer.key ≠ titanPda.key
  data_eq : (bank titanPda.key).data = []
  owner_eq : (bank titanPda.key).owner = systemProgramId
  can_pay : CanPayRent rt payer.key titanPda.key 9 bank
  titanPda_writable : titanPda.isWritable = true
  payer_writable : payer.isWritable = true
  result : bank' = withInitAccount rt payer.key titanPda.key (TitanPda.serialize ⟨bump⟩) bank

theorem withInitAccount_account {payer account : Pubkey} {data : Bytes} {bank : Bank} :
    withInitAccount rt payer account data bank account =
      ⟨(bank account).lamports + rentShortfall rt data.length (bank account).lamports, data,
        programId⟩ :=
  Function.update_self ..

/-- The created account passes the checks made on it, and is rent-exempt. -/
theorem tryFromUnchecked_withInitAccount {payer account : Pubkey} {bank : Bank} :
    TitanPda.tryFromUnchecked (withInitAccount rt payer account (zeros 9) bank account) =
      .ok ⟨0⟩ := by
  rw [withInitAccount_account, TitanPda.tryFromUnchecked, bind_eq_ok]
  exact ⟨(), TitanPda.checkOwner_eq_ok.mpr rfl, rfl⟩

theorem minimumBalance_le_withInitAccount {payer account : Pubkey} {data : Bytes} {bank : Bank} :
    rt.minimumBalance (withInitAccount rt payer account data bank account).data.length ≤
      (withInitAccount rt payer account data bank account).lamports := by
  rw [withInitAccount_account]
  unfold rentShortfall
  simp only
  omega

theorem Initialize.execute_withInitAccount {payer account : Pubkey} {bump : UInt8}
    {bank : Bank} :
    Initialize.execute ⟨account, bump, withInitAccount rt payer account (zeros 9) bank⟩ =
      withInitAccount rt payer account (TitanPda.serialize ⟨bump⟩) bank := by
  simp only [Initialize.execute, withInitAccount_account]
  unfold withInitAccount
  rw [Function.update_idem, length_zeros, TitanPda.length_serialize]
  rfl

/-- The state account is created exactly at the canonical address, once. -/
theorem runInitialize_eq_ok {infos : List AccountInfo} {bank bank' : Bank} :
    runInitialize rt derive infos bank = .ok bank' ↔
      ∃ payer titanPda system rest bump, infos = payer :: titanPda :: system :: rest ∧
        system.key = systemProgramId ∧ Initializes rt derive payer titanPda bump bank bank' := by
  simp only [runInitialize, map_eq_ok, Initialize.tryAccounts, bind_eq_ok, mapError_eq_ok,
    takeSigner_eq_ok, takeAccount_eq_ok, takeProgram_eq_ok]
  constructor
  · rintro ⟨accounts, ⟨⟨payer, infos₁⟩, ⟨rfl, hsigner⟩, ⟨titanPda, infos₂⟩, rfl, rest,
      ⟨system, rfl, hsystem⟩, hcreate⟩, rfl⟩
    cases hfound : findProgramAddress derive [TitanPda.seed] programId with
    | none =>
        rw [hfound] at hcreate
        cases hcreate
    | some found =>
        obtain ⟨address, bump⟩ := found
        simp only [hfound, bind_eq_ok, check_eq_ok, exists_const, mapError_eq_ok, pure_eq_ok,
          createInitAccount_eq_ok] at hcreate
        obtain ⟨rfl, _, ⟨hne, hdata, howner, hpaid, rfl⟩, _, _, htitanPdaMut, _, hpayerMut, rfl⟩ :=
          hcreate
        refine ⟨payer, titanPda, system, rest, bump, rfl, hsystem, hsigner, hfound, hne, hdata,
          howner, hpaid, htitanPdaMut, hpayerMut, ?_⟩
        exact Initialize.execute_withInitAccount
  · rintro ⟨payer, titanPda, system, rest, bump, rfl, hsystem, h⟩
    refine ⟨⟨titanPda.key, bump, withInitAccount rt payer.key titanPda.key (zeros 9) bank⟩,
      ⟨(_, _), ⟨rfl, h.payer_signs⟩, (_, _), rfl, _, ⟨_, rfl, hsystem⟩, ?_⟩, ?_⟩
    · simp only [h.found, bind_eq_ok, check_eq_ok, exists_const, mapError_eq_ok, pure_eq_ok,
        createInitAccount_eq_ok]
      exact ⟨trivial, _, ⟨h.payer_ne, h.data_eq, h.owner_eq, h.can_pay, rfl⟩,
        _, tryFromUnchecked_withInitAccount, h.titanPda_writable,
        minimumBalance_le_withInitAccount, h.payer_writable, rfl⟩
    · rw [h.result]
      exact Initialize.execute_withInitAccount

/-! ## The entry point -/

theorem runSwapRouteV3_eq_ok {venue : VenueProgram} {infos : List AccountInfo} {data : Bytes}
    {bank bank' : Bank} :
    runSwapRouteV3 rt derive venue infos data bank = .ok bank' ↔
      ∃ amount mints swaps rest ctx run,
        decodeSwapRouteV3 data = some ((amount, mints, swaps), rest) ∧
        SwapRouteV3.tryAccounts derive infos bank = .ok ctx ∧
        execute rt venue ctx amount mints swaps bank = .ok run ∧ bank' = run.final := by
  unfold runSwapRouteV3
  cases hdecode : decodeSwapRouteV3 data with
  | none => simp
  | some decoded =>
      obtain ⟨⟨amount, mints, swaps⟩, rest⟩ := decoded
      simp only [bind_eq_ok, mapError_eq_ok, pure_eq_ok, Option.some.injEq, Prod.mk.injEq]
      constructor
      · rintro ⟨ctx, hctx, run, hrun, rfl⟩
        exact ⟨amount, mints, swaps, rest, ctx, run, ⟨⟨rfl, rfl, rfl⟩, rfl⟩, hctx, hrun, rfl⟩
      · rintro ⟨_, _, _, _, ctx, run, ⟨⟨rfl, rfl, rfl⟩, rfl⟩, hctx, hrun, rfl⟩
        exact ⟨ctx, hctx, run, hrun, rfl⟩

/-- What a successful transaction did. -/
inductive Dispatched (rt : Runtime) (derive : Derivation) (venue : VenueProgram)
    (infos : List AccountInfo) (data : Bytes) (bank bank' : Bank) : Prop
  | initializes (payer titanPda : AccountInfo) (bump : UInt8)
      (spec : Initializes rt derive payer titanPda bump bank bank')
  | routes (amount : UInt64) (mints : UInt8) (swaps : List SwapSpecInputV2) (named : RouteInfos)
      (remaining : List AccountInfo) (state : TitanPda) (run : RouteRun)
      (infos_eq : infos = named.toList ++ remaining)
      (accepted : named.Accepted derive bank state)
      (runs : execute rt venue (named.context remaining) amount mints swaps bank = .ok run)
      (result : bank' = run.final)

theorem dispatch_cases {venue : VenueProgram} {infos : List AccountInfo} {data : Bytes}
    {bank bank' : Bank} (h : dispatch rt derive venue infos data bank = .ok bank') :
    Dispatched rt derive venue infos data bank bank' := by
  unfold dispatch at h
  split at h
  · obtain ⟨payer, titanPda, _, _, bump, _, _, hspec⟩ := runInitialize_eq_ok.mp h
    exact .initializes payer titanPda bump hspec
  · split at h
    · obtain ⟨amount, mints, swaps, _, ctx, run, _, hctx, hrun, hbank⟩ :=
        runSwapRouteV3_eq_ok.mp h
      obtain ⟨named, hinfos, hnamed, state, haccepted⟩ :=
        SwapRouteV3.tryAccounts_eq_ok.mp hctx
      rw [hnamed] at hrun
      exact .routes amount mints swaps named _ state run hinfos haccepted hrun hbank
    · cases h

end QuayTitan.Route
