import QuayTitan.Verification.Route.Opening
import QuayTitan.Verification.Route.Reserves

/-! # Leftovers of other routes

Two executions that differ only in what TitanPDA already held run in lockstep: every live
balance is read relative to the snapshot of its own run. -/

namespace QuayTitan.Route

open ByteFields Fallible

variable {rt : Runtime}

/-! ## Initial states that differ in leftovers -/

def SameButBalance (account account' : Account) : Prop :=
  accountExists account = true ∧ accountExists account' = true ∧
    account'.owner = account.owner ∧
    ∃ amount, account'.data = putLE account.data 64 8 amount

/-- The account of a slot exists in the first state, under the program of its mint, and
does not exist in the second; lamports may wait at its address. -/
structure OnlyInFirst (ctx : Context) (mintsCount index : ℕ) (bank bank' : Bank) : Prop where
  first_exists : accountExists (bank (ctx.keyAt index)) = true
  owner_eq : (bank (ctx.keyAt index)).owner =
    ctx.tokenProgramFor (bank' (ctx.keyAt (mintsCount + index)))
  second_absent : (bank' (ctx.keyAt index)).data = []

inductive SlotAlike (ctx : Context) (mintsCount index : ℕ) (bank bank' : Bank) : Prop
  | same (eq : bank' (ctx.keyAt index) = bank (ctx.keyAt index))
  | balance (h : SameButBalance (bank (ctx.keyAt index)) (bank' (ctx.keyAt index)))
  | first (h : OnlyInFirst ctx mintsCount index bank bank')
  | second (h : OnlyInFirst ctx mintsCount index bank' bank)

structure SameUpToLeftovers (ctx : Context) (mintsCount : ℕ) (bank bank' : Bank) : Prop where
  slots : ∀ index < mintsCount, SlotAlike ctx mintsCount index bank bank'
  elsewhere : ∀ key, (∀ index < mintsCount, ctx.keyAt index ≠ key) → bank' key = bank key

theorem tokenProgramFor_congr {ctx : Context} {mint mint' : Account}
    (h : mint'.owner = mint.owner) : ctx.tokenProgramFor mint' = ctx.tokenProgramFor mint := by
  rw [Context.tokenProgramFor, Context.tokenProgramFor, getTokenProgramForMint,
    getTokenProgramForMint, h]

/-- Where both states hold data, they hold it for the same program. -/
theorem SameUpToLeftovers.owner_eq {ctx : Context} {mintsCount : ℕ} {bank bank' : Bank}
    (h : SameUpToLeftovers ctx mintsCount bank bank') {key : Pubkey}
    (hdata : (bank key).data ≠ []) (hdata' : (bank' key).data ≠ []) :
    (bank' key).owner = (bank key).owner := by
  by_cases hslot : ∃ index < mintsCount, ctx.keyAt index = key
  · obtain ⟨index, hlt, rfl⟩ := hslot
    cases h.slots index hlt with
    | same eq => rw [eq]
    | balance hbalance => exact hbalance.2.2.1
    | first honly =>
        exact (hdata' honly.second_absent).elim
    | second honly =>
        exact (hdata honly.second_absent).elim
  · rw [h.elsewhere key fun index hlt heq => hslot ⟨index, hlt, heq⟩]

/-- Where both states hold data, they agree below the balance of a token account. -/
theorem SameUpToLeftovers.getField_eq {ctx : Context} {mintsCount : ℕ} {bank bank' : Bank}
    (h : SameUpToLeftovers ctx mintsCount bank bank') {key : Pubkey}
    (hdata : (bank key).data ≠ []) (hdata' : (bank' key).data ≠ [])
    (hlength : (∃ index < mintsCount, ctx.keyAt index = key) → 72 ≤ (bank key).data.length)
    {offset width : ℕ} (hbelow : offset + width ≤ 64) :
    getField (bank' key).data offset width = getField (bank key).data offset width := by
  by_cases hslot : ∃ index < mintsCount, ctx.keyAt index = key
  · have hfits := hlength hslot
    obtain ⟨index, hlt, rfl⟩ := hslot
    cases h.slots index hlt with
    | same eq => rw [eq]
    | balance hbalance =>
        obtain ⟨_, _, _, amount, hput⟩ := hbalance
        rw [hput, getField_putLE_of_disjoint _ (by omega) (by omega)]
    | first honly =>
        exact (hdata' honly.second_absent).elim
    | second honly =>
        exact (hdata honly.second_absent).elim
  · rw [h.elsewhere key fun index hlt heq => hslot ⟨index, hlt, heq⟩]

/-! ## Two prepared executions -/

/-- Two prepared executions of one instruction from states that differ in leftovers. -/
structure PreparedPair (rt : Runtime) (ctx : Context) (amount : UInt64) (mints : UInt8)
    (swaps : List SwapSpecInputV2) (bank bank' : Bank) (inputMint inputMint' : AccountInfo)
    (inputDecimals inputDecimals' : UInt8) (prepared prepared' : Prepared) : Prop where
  left : Prepares rt ctx amount mints swaps bank inputMint inputDecimals prepared
  right : Prepares rt ctx amount mints swaps bank' inputMint' inputDecimals' prepared'
  leftovers : SameUpToLeftovers ctx mints.toNat bank bank'
  input_ne : ∀ index < mints.toNat, ctx.keyAt index ≠ ctx.accounts.inputTokenAccount

section Pair

variable {ctx : Context} {amount : UInt64} {mints : UInt8} {swaps : List SwapSpecInputV2}
  {bank bank' : Bank} {inputMint inputMint' : AccountInfo}
  {inputDecimals inputDecimals' : UInt8} {prepared prepared' : Prepared}

theorem Prepares.slot_titan
    (h : Prepares rt ctx amount mints swaps bank inputMint inputDecimals prepared) {index : ℕ}
    (hindex : index < mints.toNat) :
    isTitanPdaTokenAccount (prepared.opened.bank (ctx.keyAt index)) ctx.accounts.titanPda =
      true := by
  obtain ⟨ata, hata, htitan, _⟩ := h.routeAta hindex
  rw [Context.keyAt_eq hata]
  exact htitan

theorem PreparedPair.origins
    (h : PreparedPair rt ctx amount mints swaps bank bank' inputMint inputMint' inputDecimals
      inputDecimals' prepared prepared') {index : ℕ} (hindex : index < mints.toNat) :
    SlotOrigin ctx mints.toNat bank (ctx.keyAt index)
        (prepared.opened.bank (ctx.keyAt index)) ∧
      SlotOrigin ctx mints.toNat bank' (ctx.keyAt index)
        (prepared'.opened.bank (ctx.keyAt index)) :=
  ⟨(createMissingAtas_loop h.left.opens).slotOrigin (h.left.slot_titan hindex),
    (createMissingAtas_loop h.right.opens).slotOrigin (h.right.slot_titan hindex)⟩

/-- An account opened in one state and existing in the other has one owner. -/
theorem OnlyInFirst.owner_opened {mintsCount index : ℕ} {account : Account}
    (h : OnlyInFirst ctx mintsCount index bank bank')
    (howner : account.owner = ctx.tokenProgramFor (bank' (ctx.keyAt (mintsCount + index)))) :
    account.owner = (bank (ctx.keyAt index)).owner := by
  rw [howner, h.owner_eq]

theorem PreparedPair.slot_owner
    (h : PreparedPair rt ctx amount mints swaps bank bank' inputMint inputMint' inputDecimals
      inputDecimals' prepared prepared') {index : ℕ} (hindex : index < mints.toNat) :
    (prepared'.opened.bank (ctx.keyAt index)).owner =
      (prepared.opened.bank (ctx.keyAt index)).owner := by
  obtain ⟨horigin, horigin'⟩ := h.origins hindex
  generalize hkey : ctx.keyAt index = key at *
  cases horigin with
  | existed hdata hsame =>
      cases horigin' with
      | existed hdata' hsame' =>
          rw [hsame.owner_eq, hsame'.owner_eq, h.leftovers.owner_eq hdata hdata']
      | opened hnil' _ slot hslot hslotKey _ _ howner =>
          subst hslotKey
          rw [hsame.owner_eq]
          cases h.leftovers.slots slot hslot with
          | same eq => exact (hdata (eq ▸ hnil')).elim
          | balance hbalance => exact (data_ne_nil_of_exists hbalance.2.1 hnil').elim
          | first honly => exact honly.owner_opened howner
          | second honly => exact (hdata honly.second_absent).elim
  | opened hnil _ slot hslot hslotKey hfirst hmint howner =>
      cases horigin' with
      | existed hdata' hsame' =>
          subst hslotKey
          rw [hsame'.owner_eq]
          cases h.leftovers.slots slot hslot with
          | same eq => exact (hdata' (eq ▸ hnil)).elim
          | balance hbalance => exact (data_ne_nil_of_exists hbalance.1 hnil).elim
          | first honly => exact (hdata' honly.second_absent).elim
          | second honly => exact (honly.owner_opened howner).symm
      | opened _ _ slot' hslot' hslotKey' hfirst' hmint' howner' =>
          obtain rfl : slot = slot' := by
            rcases lt_trichotomy slot slot' with hlt | heq | hgt
            · exact (hfirst' slot hlt hslotKey).elim
            · exact heq
            · exact (hfirst slot' hgt hslotKey').elim
          rw [howner, howner', tokenProgramFor_congr (h.leftovers.owner_eq hmint hmint')]

theorem PreparedPair.snapshot_length
    (h : PreparedPair rt ctx amount mints swaps bank bank' inputMint inputMint' inputDecimals
      inputDecimals' prepared prepared') {key : Pubkey} (hdata : (bank key).data ≠ [])
    (hslot : ∃ index < mints.toNat, ctx.keyAt index = key) : 72 ≤ (bank key).data.length := by
  obtain ⟨index, hlt, rfl⟩ := hslot
  have hlen := accountLen_le_of_isTitanPda (h.left.slot_titan hlt)
  rw [(createMissingAtas_sameContents h.left.opens hdata).data_eq] at hlen
  have haccount : accountLen = 165 := rfl
  omega

theorem PreparedPair.ledgerAmount_eq
    (h : PreparedPair rt ctx amount mints swaps bank bank' inputMint inputMint' inputDecimals
      inputDecimals' prepared prepared') :
    prepared'.ledgerAmount = prepared.ledgerAmount := by
  have hleft := h.left.ledger
  have hright := h.right.ledger
  unfold readTokenLedger at hleft hright
  cases hledger : ctx.accounts.tokenLedger with
  | none =>
      rw [hledger] at hleft hright
      rw [← pure_eq_ok.mp hleft, ← pure_eq_ok.mp hright]
  | some ledger =>
      rw [hledger] at hleft hright
      simp only [bind_eq_ok, require_eq_ok, okOr_eq_ok, pure_eq_ok] at hleft hright
      obtain ⟨_, hlength, key, _, _, _, stored, hstored, hleft⟩ := hleft
      obtain ⟨_, hlength', key', _, _, _, stored', hstored', hright⟩ := hright
      have hdata : (bank ledger).data ≠ [] := by
        intro hnil
        simp [hnil] at hlength
      have hdata' : (bank' ledger).data ≠ [] := by
        intro hnil
        simp [hnil] at hlength'
      have hfield := h.leftovers.getField_eq hdata hdata' (h.snapshot_length hdata)
        (show 40 + 8 ≤ 64 by decide)
      rw [getLE, hfield, ← getLE, hstored] at hstored'
      rw [← hleft, ← hright, Option.some.inj hstored']

theorem PreparedPair.input_contents
    (h : PreparedPair rt ctx amount mints swaps bank bank' inputMint inputMint' inputDecimals
      inputDecimals' prepared prepared') :
    (prepared'.opened.bank ctx.accounts.inputTokenAccount).data =
      (prepared.opened.bank ctx.accounts.inputTokenAccount).data := by
  have hleft := ((createMissingAtas_loop h.left.opens).elsewhere _ h.input_ne).1
  have hright := ((createMissingAtas_loop h.right.opens).elsewhere _ h.input_ne).1
  rw [hleft.data_eq, hright.data_eq, h.leftovers.elsewhere _ h.input_ne]

theorem PreparedPair.effectiveAmount_eq
    (h : PreparedPair rt ctx amount mints swaps bank bank' inputMint inputMint' inputDecimals
      inputDecimals' prepared prepared') :
    prepared'.effectiveAmount = prepared.effectiveAmount := by
  have hleft := h.left.effective
  have hright := h.right.effective
  rw [h.ledgerAmount_eq] at hright
  unfold readEffectiveAmount at hleft hright
  cases hledger : prepared.ledgerAmount with
  | none =>
      rw [hledger] at hleft hright
      rw [← pure_eq_ok.mp hleft, ← pure_eq_ok.mp hright]
  | some stored =>
      rw [hledger] at hleft hright
      rw [extractTokenAmount, h.input_contents, ← extractTokenAmount, hleft] at hright
      exact (Except.ok.inj hright).symm

theorem PreparedPair.credit_eq
    (h : PreparedPair rt ctx amount mints swaps bank bank' inputMint inputMint' inputDecimals
      inputDecimals' prepared prepared') :
    prepared'.credit rt ctx mints = prepared.credit rt ctx mints := by
  have hmint : ctx.mint mints 0 = inputMint.key := Context.keyAt_eq h.left.input_mint
  have hmint' : ctx.mint mints 0 = inputMint'.key := Context.keyAt_eq h.right.input_mint
  have hdata {info : AccountInfo} {decimals : UInt8} {bank : Bank}
      (hdecimals : extractMintDecimals (bank info.key) = .ok decimals) :
      (bank info.key).data ≠ [] := by
    intro hnil
    simp [extractMintDecimals, okOr, hnil] at hdecimals
  have hleft := hdata h.left.input_decimals
  have hright := hdata h.right.input_decimals
  rw [← hmint] at hleft
  rw [← hmint'] at hright
  have howner : (prepared'.opened.bank (ctx.mint mints 0)).owner =
      (prepared.opened.bank (ctx.mint mints 0)).owner := by
    rw [(createMissingAtas_sameContents h.left.opens hleft).owner_eq,
      (createMissingAtas_sameContents h.right.opens hright).owner_eq,
      h.leftovers.owner_eq hleft hright]
  rw [Prepared.credit, Prepared.credit, depositCredit, depositCredit, h.effectiveAmount_eq,
    tokenProgramFor_congr howner]

end Pair

end QuayTitan.Route
