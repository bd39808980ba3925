import QuayTitan.Model.Route.State

/-! # `SwapRouteV3::execute`

Each phase of the instruction is a function of the bank it starts from. A run keeps the
local variables of the source, so that statements can refer to them; the source itself
returns only success. -/

namespace QuayTitan.Route

open ByteFields

variable (rt : Runtime)

/-! ## The Quay venue adapter -/

namespace Quay

def programId : Pubkey := .ofBase58 "QUayE6nexQWYNZAEqfN8FxoNwQDSu3CAzT2qq9J1ArG"

def swapDiscriminator : UInt8 := 0x20

/-- The `side` byte: 0 sells the base mint, 1 buys it. -/
def sideByte (sellBase : Bool) : UInt8 := if sellBase then 0 else 1

def swapData (side : UInt8) (amountIn : ℕ) : Bytes :=
  swapDiscriminator :: (leBytes 8 amountIn ++ (leBytes 8 0 ++ [side]))

def swap (sellBase : Bool) (amountIn : ℕ) (accountMetas : List AccountMeta) :
    List Instruction :=
  [⟨programId, accountMetas, swapData (sideByte sellBase) amountIn⟩]

end Quay

/-- A venue program: what the call made for the `leg`-th leg does to the bank. -/
abbrev VenueProgram :=
  (leg : ℕ) → Instruction → List AccountInfo → Bank → Except ProgramError Bank

/-- A call reaches only the accounts it was given. -/
def invokeSigned (venue : VenueProgram) (leg : ℕ) (instruction : Instruction)
    (accountInfos : List AccountInfo) (bank : Bank) : Except RouteError Bank :=
  invoke ((venue leg instruction accountInfos bank).map fun out key =>
    if key ∈ accountInfos.map AccountInfo.key then out key else bank key)

def performCpiSwap (venue : VenueProgram) (leg : ℕ) (amount : ℕ) (swap : SwapSpecInputV2)
    (accountMetas : List AccountMeta) (accountInfos : List AccountInfo) (bank : Bank) :
    Except RouteError Bank :=
  let instructions := match swap.venue with
    | .quay sellBase => Quay.swap sellBase amount accountMetas
  instructions.foldlM
    (fun bank instruction => invokeSigned venue leg instruction accountInfos bank) bank

/-! ## Shape checks and amounts -/

def checkShape (ctx : Context) (mints : UInt8) (swaps : List SwapSpecInputV2) :
    Except RouteError Unit := do
  require (mints > 1 ∧ swaps ≠ []) .invalidSwapInput
  require (swaps.length ≤ maxSwaps) .invalidSwapInput
  require (mints.toNat ≤ maxMints) .invalidSwapInput
  require (2 * mints.toNat ≤ ctx.remainingAccounts.length) .missingRemainingAccount
  let first ← okOr swaps.head? .indexOutOfBounds
  require (first.from = 0) .invalidSwapInput
  require (∀ swap ∈ swaps, swap.from < mints ∧ swap.to < mints) .invalidSwapInput

/-- The amount a token ledger stored for this input account. -/
def readTokenLedger (ctx : Context) (bank : Bank) : Except RouteError (Option ℕ) :=
  match ctx.accounts.tokenLedger with
  | none => pure none
  | some ledger => do
      let data := (bank ledger).data
      require (48 ≤ data.length) .invalidAccountData
      let tokenAccount ← okOr (getKey data 8) (.template .invalidAccountData)
      require (tokenAccount = ctx.accounts.inputTokenAccount) .invalidAccountData
      let amount ← okOr (getLE data 40 8) (.template .invalidAccountData)
      pure (some amount)

def readEffectiveAmount (ctx : Context) (ledgerAmount : Option ℕ) (amount : ℕ) (bank : Bank) :
    Except RouteError ℕ :=
  match ledgerAmount with
  | some stored => do
      let current ← extractTokenAmount (bank ctx.accounts.inputTokenAccount)
      require (stored ≤ current) .invalidAccountData
      require (0 < current - stored) .invalidAccountData
      pure (current - stored)
  | none => pure amount

def Context.tokenProgramFor (ctx : Context) (mint : Account) : Pubkey :=
  getTokenProgramForMint mint ctx.accounts.tokenProgram ctx.accounts.token2022Program

/-! ## Opening the TitanPDA token accounts -/

structure Opened where
  bank : Bank
  createdAtas : BitVec 16

def createMissingAta (ctx : Context) (mintsCount : ℕ) (st : Opened) (i : ℕ) :
    Except RouteError Opened := do
  let ata ← ctx.get i
  if accountExists (st.bank ata.key) then pure st
  else do
    let mint ← ctx.get (mintsCount + i)
    let bank ← invoke <| createIdempotent rt ctx.accounts.payer ctx.accounts.titanPda mint.key
      ata.key (ctx.tokenProgramFor (st.bank mint.key)) st.bank
    pure ⟨bank, st.createdAtas ||| (1#16 <<< i)⟩

def createMissingAtas (ctx : Context) (mintsCount : ℕ) (bank : Bank) :
    Except RouteError Opened :=
  (List.range mintsCount).foldlM (createMissingAta rt ctx mintsCount) ⟨bank, 0⟩

/-! ## The snapshot of protected balances -/

structure Snapshot where
  titanPdaAtaBitmap : TitanPdaBitmap
  titanPdaAtaBalances : List ℕ
  reservedBalances : List ℕ

def Snapshot.new : Snapshot := ⟨.new, [], List.replicate maxMints 0⟩

/-- One iteration of the snapshot loop; route accounts must be TitanPDA's. -/
def snapshotAccount (titanPda : Pubkey) (mintsCount : ℕ) (bank : Bank) (i : ℕ)
    (info : AccountInfo) (st : Snapshot) : Except RouteError Snapshot :=
  let account := bank info.key
  if i < mintsCount then do
    require (isTitanPdaTokenAccount account titanPda) .invalidAccountData
    let balance ← extractTokenAmount account
    pure ⟨st.titanPdaAtaBitmap.set i, st.titanPdaAtaBalances ++ [balance],
      st.reservedBalances.set i balance⟩
  else if isTitanPdaTokenAccount account titanPda then do
    let balance ← extractTokenAmount account
    pure ⟨st.titanPdaAtaBitmap.set i, st.titanPdaAtaBalances ++ [balance],
      st.reservedBalances⟩
  else pure st

def takeSnapshot (titanPda : Pubkey) (mintsCount : ℕ) (bank : Bank) :
    List AccountInfo → ℕ → Snapshot → Except RouteError Snapshot
  | [], _, st => pure st
  | info :: rest, i, st => do
      let st ← snapshotAccount titanPda mintsCount bank i info st
      takeSnapshot titanPda mintsCount bank rest (i + 1) st

/-! ## Deposit -/

def transferTokens (tokenProgram source destination authority : Pubkey) (mint : Option Pubkey)
    (amount : ℕ) (decimals : UInt8) (bank : Bank) : Except RouteError Bank :=
  if amount = 0 then pure bank
  else if tokenProgram = token2022Id then do
    let mint ← okOr mint (.template .missingRemainingAccount)
    invoke (tokenTransfer rt token2022Id (some (mint, decimals)) source destination authority
      amount bank)
  else
    invoke (tokenTransfer rt splTokenId none source destination authority amount bank)

def transferSolAndSync (source wsolAta tokenProgram : Pubkey) (amount : ℕ) (bank : Bank) :
    Except RouteError Bank :=
  if amount = 0 then pure bank
  else do
    let bank ← invoke (systemTransfer source wsolAta amount bank)
    invoke (syncNative tokenProgram wsolAta bank)

/-- Whether the wrapped-SOL account was created here, and the bank after funding it. -/
def setupWsolInputAccount (payer owner wsolAta mint tokenProgram : Pubkey) (amount : ℕ)
    (bank : Bank) : Except RouteError (Bool × Bank) :=
  if accountExists (bank wsolAta) then do
    let currentBalance ← extractTokenAmount (bank wsolAta)
    if currentBalance < amount then do
      let bank ← transferSolAndSync owner wsolAta tokenProgram (amount - currentBalance) bank
      pure (false, bank)
    else pure (false, bank)
  else do
    let bank ← invoke (createIdempotent rt payer owner mint wsolAta tokenProgram bank)
    let bank ← transferSolAndSync owner wsolAta tokenProgram amount bank
    pure (true, bank)

/-- Wrap the user's SOL into the input account when the route starts from native SOL. -/
def fundInputAccount (ctx : Context) (inputMint tokenProgram : Pubkey)
    (ledgerAmount : Option ℕ) (effectiveAmount : ℕ) (bank : Bank) :
    Except RouteError (Bool × Bank) :=
  if ledgerAmount.isNone ∧ isNativeMint inputMint then
    setupWsolInputAccount rt ctx.accounts.payer ctx.accounts.user
      ctx.accounts.inputTokenAccount inputMint tokenProgram effectiveAmount bank
  else pure (false, bank)

/-- Fund the first TitanPDA token account from the user. -/
def deposit (ctx : Context) (inputMint : Pubkey) (inputDecimals : UInt8)
    (ledgerAmount : Option ℕ) (effectiveAmount : ℕ) (bank : Bank) :
    Except RouteError Bank := do
  let first ← ctx.get 0
  let tokenProgram := ctx.tokenProgramFor (bank inputMint)
  let (createdWsolInput, bank) ←
    fundInputAccount rt ctx inputMint tokenProgram ledgerAmount effectiveAmount bank
  let bank ← transferTokens rt tokenProgram ctx.accounts.inputTokenAccount first.key
    ctx.accounts.user (some inputMint) effectiveAmount inputDecimals bank
  if createdWsolInput then
    invoke (tokenClose rt tokenProgram ctx.accounts.inputTokenAccount ctx.accounts.payer
      ctx.accounts.user bank)
  else pure bank

/-! ## Legs -/

/-- A call made for a leg. -/
structure Invocation where
  accountMetas : List AccountMeta
  legAccounts : List AccountInfo
deriving DecidableEq

/-- What one iteration of the leg loop did; no call is made for a zero input. -/
structure LegRecord where
  swap : SwapSpecInputV2
  inputAmount : ℕ
  invocation : Option Invocation
  before : Bank
  after : Bank

structure LegState where
  bank : Bank
  remainingAccountIndex : ℕ
  legs : List LegRecord

def u128Max : ℕ := 2 ^ 128 - 1

/-- The weighted share of a balance: a saturating `u128` product, divided and cast back
to `u64`. -/
def weightedAmount (availableBalance : ℕ) (weightNanos : UInt32) : ℕ :=
  min (availableBalance * min weightNanos.toNat 1000000000) u128Max / 1000000000 % 2 ^ 64

/-- The accounts and metas a leg passes to its venue: all but the trailing program id
become metas, with TitanPDA signing. -/
def legInvocation (ctx : Context) (index accountIncrement : ℕ) : Invocation :=
  let legAccounts := (ctx.remainingAccounts.drop index).take accountIncrement
  { accountMetas := (legAccounts.take (accountIncrement - 1)).map fun account =>
      ⟨account.key, account.key = ctx.accounts.titanPda || account.isSigner,
        account.isWritable⟩
    legAccounts }

def runLeg (venue : VenueProgram) (ctx : Context) (reservedBalances : List ℕ) (leg : ℕ)
    (swap : SwapSpecInputV2) (st : LegState) : Except RouteError LegState := do
  let accountIncrement := swap.nAccounts.toNat
  require (0 < accountIncrement) .invalidSwapInput
  require (st.remainingAccountIndex + accountIncrement ≤ ctx.remainingAccounts.length)
    .missingRemainingAccount
  let input ← ctx.get swap.from.toNat
  let inputTokenBalance ← extractTokenAmount (st.bank input.key)
  let reserved ← okOr reservedBalances[swap.from.toNat]? .indexOutOfBounds
  let inputAmount := weightedAmount (inputTokenBalance - reserved) swap.weightNanos
  let nextIndex := st.remainingAccountIndex + accountIncrement
  if 0 < inputAmount then do
    let invocation := legInvocation ctx st.remainingAccountIndex accountIncrement
    let bank ← performCpiSwap venue leg inputAmount swap invocation.accountMetas
      invocation.legAccounts st.bank
    pure ⟨bank, nextIndex,
      st.legs ++ [⟨swap, inputAmount, some invocation, st.bank, bank⟩]⟩
  else
    pure ⟨st.bank, nextIndex, st.legs ++ [⟨swap, inputAmount, none, st.bank, st.bank⟩]⟩

def runLegs (venue : VenueProgram) (ctx : Context) (reservedBalances : List ℕ) :
    List SwapSpecInputV2 → ℕ → LegState → Except RouteError LegState
  | [], _, st => pure st
  | swap :: rest, leg, st => do
      let st ← runLeg venue ctx reservedBalances leg swap st
      runLegs venue ctx reservedBalances rest (leg + 1) st

/-! ## Payout, closing and the final check -/

structure Payout where
  rawOutputBalance : ℕ
  userOutput : ℕ
  /-- The bank in which the payout is transferred, the user's account existing. -/
  ready : Bank
  paid : Bank

/-- Create the user's output account when it does not exist yet. -/
def ensureOutputAccount (ctx : Context) (outputMint tokenProgram : Pubkey) (bank : Bank) :
    Except RouteError Bank :=
  if accountExists (bank ctx.accounts.outputTokenAccount) then pure bank
  else invoke (createIdempotent rt ctx.accounts.payer ctx.accounts.user outputMint
    ctx.accounts.outputTokenAccount tokenProgram bank)

def payOut (ctx : Context) (outputAtaIndex : ℕ) (outputMint : Pubkey) (outputDecimals : UInt8)
    (reservedBalances : List ℕ) (bank : Bank) : Except RouteError Payout := do
  let outputAta ← ctx.get outputAtaIndex
  let rawOutputBalance ← extractTokenAmount (bank outputAta.key)
  let reserved ← okOr reservedBalances[outputAtaIndex]? .indexOutOfBounds
  let userOutput := rawOutputBalance - reserved
  let tokenProgram := ctx.tokenProgramFor (bank outputMint)
  let ready ← ensureOutputAccount rt ctx outputMint tokenProgram bank
  let paid ← transferTokens rt tokenProgram outputAta.key ctx.accounts.outputTokenAccount
    ctx.accounts.titanPda (some outputMint) userOutput outputDecimals ready
  pure ⟨rawOutputBalance, userOutput, ready, paid⟩

structure Closing where
  bank : Bank
  /-- The slots closed so far. -/
  closed : List ℕ

/-- One iteration of the close loop: an account opened by this call is closed when empty. -/
def closeCreatedAta (ctx : Context) (mintsCount : ℕ) (createdAtas : BitVec 16) (st : Closing)
    (i : ℕ) : Except RouteError Closing :=
  if createdAtas &&& (1#16 <<< i) = 0 then pure st
  else do
    let ata ← ctx.get i
    if 0 < tokenAmount (st.bank ata.key) then pure st
    else do
      let mint ← ctx.get (mintsCount + i)
      let bank ← invoke (tokenClose rt (ctx.tokenProgramFor (st.bank mint.key)) ata.key
        ctx.accounts.payer ctx.accounts.titanPda st.bank)
      pure ⟨bank, st.closed ++ [i]⟩

def closeCreatedAtas (ctx : Context) (mintsCount : ℕ) (createdAtas : BitVec 16) (bank : Bank) :
    Except RouteError Closing :=
  (List.range mintsCount).foldlM (closeCreatedAta rt ctx mintsCount createdAtas) ⟨bank, []⟩

/-- The loop that compares every protected account with its snapshot. -/
def checkFinalBalances (bitmap : TitanPdaBitmap) (balances : List ℕ) (bank : Bank) :
    List AccountInfo → ℕ → ℕ → Except RouteError Unit
  | [], _, _ => pure ()
  | info :: rest, i, balanceIdx =>
      if bitmap.isSet i then do
        let balance ← okOr balances[balanceIdx]? .indexOutOfBounds
        require (balance ≤ tokenAmount (bank info.key)) .reservedBalanceViolation
        checkFinalBalances bitmap balances bank rest (i + 1) (balanceIdx + 1)
      else checkFinalBalances bitmap balances bank rest (i + 1) balanceIdx

/-! ## The instruction -/

/-- The locals of the instruction when its legs start. -/
structure Prepared where
  outputAtaIndex : ℕ
  outputMint : Pubkey
  outputDecimals : UInt8
  opened : Opened
  snapshot : Snapshot
  ledgerAmount : Option ℕ
  effectiveAmount : ℕ
  deposited : Bank

/-- The instruction up to its leg loop. -/
def prepare (ctx : Context) (amount : UInt64) (mints : UInt8) (swaps : List SwapSpecInputV2)
    (bank : Bank) : Except RouteError Prepared := do
  checkShape ctx mints swaps
  let mintsCount := mints.toNat
  let ledgerAmount ← readTokenLedger ctx bank
  let inputMint ← ctx.get mintsCount
  let last ← okOr swaps.getLast? .indexOutOfBounds
  let outputAtaIndex := last.to.toNat
  let outputMint ← ctx.get (mintsCount + outputAtaIndex)
  let inputDecimals ← extractMintDecimals (bank inputMint.key)
  let outputDecimals ← extractMintDecimals (bank outputMint.key)
  let opened ← createMissingAtas rt ctx mintsCount bank
  let snapshot ← takeSnapshot ctx.accounts.titanPda mintsCount opened.bank
    ctx.remainingAccounts 0 .new
  let effectiveAmount ← readEffectiveAmount ctx ledgerAmount amount.toNat opened.bank
  let deposited ← deposit rt ctx inputMint.key inputDecimals ledgerAmount effectiveAmount
    opened.bank
  pure { outputAtaIndex, outputMint := outputMint.key, outputDecimals, opened, snapshot,
         ledgerAmount, effectiveAmount, deposited }

/-- The leg loop of a prepared instruction, over the legs in `swaps`. -/
def Prepared.trade (prepared : Prepared) (venue : VenueProgram) (ctx : Context)
    (mints : UInt8) (swaps : List SwapSpecInputV2) : Except RouteError LegState :=
  runLegs venue ctx prepared.snapshot.reservedBalances swaps 0
    ⟨prepared.deposited, 2 * mints.toNat, []⟩

/-- The locals of a successful execution. -/
structure RouteRun extends Prepared where
  traded : LegState
  payout : Payout
  closing : Closing

/-- The accounts when the instruction returns. -/
def RouteRun.final (run : RouteRun) : Bank := run.closing.bank

def execute (venue : VenueProgram) (ctx : Context) (amount : UInt64) (mints : UInt8)
    (swaps : List SwapSpecInputV2) (bank : Bank) : Except RouteError RouteRun := do
  let prepared ← prepare rt ctx amount mints swaps bank
  let traded ← prepared.trade venue ctx mints swaps
  let payout ← payOut rt ctx prepared.outputAtaIndex prepared.outputMint
    prepared.outputDecimals prepared.snapshot.reservedBalances traded.bank
  let closing ← closeCreatedAtas rt ctx mints.toNat prepared.opened.createdAtas payout.paid
  checkFinalBalances prepared.snapshot.titanPdaAtaBitmap
    prepared.snapshot.titanPdaAtaBalances closing.bank ctx.remainingAccounts 0 0
  pure { toPrepared := prepared, traded, payout, closing }

end QuayTitan.Route
