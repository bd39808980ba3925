import QuayTitan.Verification.Route.Legs

/-! # Opening the token accounts of a route

The loop opens each missing account once, under the program of its mint and with an
empty balance, and leaves the contents of all other accounts alone. -/

namespace QuayTitan.Route

open ByteFields Fallible

variable {rt : Runtime}

/-! ## New accounts -/

/-- What a token program writes into an account opened with `lamports`. -/
theorem openedAccount_data {program wallet mint : Pubkey} {mintData : Bytes} {lamports : ℕ}
    (hprogram : program = splTokenId ∨ program = token2022Id) :
    ∃ amount isNative tail, (tail = [] ∨ ∃ rest, tail = 2 :: rest) ∧
      (openedAccount rt program wallet mint mintData lamports).data =
        newTokenData mint wallet amount isNative tail ∧
      (mint ≠ nativeMintOf program ∨
        lamports ≤ rt.minimumBalance (accountLen + tail.length) → amount = 0) := by
  have htail : (if program = token2022Id then 2 :: rt.accountTail mintData else []) = [] ∨
      ∃ rest, (if program = token2022Id then 2 :: rt.accountTail mintData else []) =
        2 :: rest := by
    split
    · exact .inr ⟨_, rfl⟩
    · exact .inl rfl
  simp only [openedAccount, if_pos hprogram]
  split
  · rename_i hnative
    refine ⟨_, _, _, htail, rfl, fun hempty => ?_⟩
    have hlamports := hempty.resolve_left (absurd hnative)
    omega
  · exact ⟨_, _, _, htail, rfl, fun _ => rfl⟩

theorem unpackMintDecimals_newTokenData {mint wallet : Pubkey} {amount : ℕ}
    {isNative : Option ℕ} {tail : Bytes} (htail : tail = [] ∨ ∃ rest, tail = 2 :: rest)
    (decimals : UInt8) :
    unpackMintDecimals (newTokenData mint wallet amount isNative tail) ≠ .ok decimals := by
  have hlen : (newTokenData mint wallet amount isNative tail).length = 165 + tail.length :=
    length_newTokenData
  have htype : (newTokenData mint wallet amount isNative tail)[165]? = tail[0]? :=
    getElem?_newTokenData
  have hmint : mintLen = 82 := rfl
  have haccount : accountLen = 165 := rfl
  intro h
  unfold unpackMintDecimals at h
  split at h
  · rename_i hshape
    rw [hlen, haccount, htype] at hshape
    rcases htail with rfl | ⟨rest, rfl⟩
    · simp [hmint] at hshape
    · simp [hmint] at hshape
      omega
  · cases h

/-! ## One iteration -/

/-- Lamports wait at a wrapped-SOL address of the route that holds no account yet: what they
exceed the rent by becomes the balance it opens with. -/
def PrefundedSol (ctx : Context) (mintsCount : ℕ) (bank : Bank) (key : Pubkey) : Prop :=
  (bank key).data = [] ∧ 0 < (bank key).lamports ∧ ∃ index < mintsCount, ctx.keyAt index = key ∧
    (ctx.keyAt (mintsCount + index) = nativeMintId ∨
      ctx.keyAt (mintsCount + index) = nativeMint2022Id)

/-- An account the loop opened at an address of the route that held no data. -/
structure OpenedFor (ctx : Context) (mintsCount : ℕ) (bank : Bank) (key : Pubkey)
    (account : Account) : Prop where
  owner_ne : account.owner ≠ systemProgramId
  not_mint : account.owner = splTokenId ∨ account.owner = token2022Id →
    ∀ decimals, unpackMintDecimals account.data ≠ .ok decimals
  empty : account.owner = splTokenId ∨ account.owner = token2022Id →
    ¬PrefundedSol ctx mintsCount bank key → tokenAmount account = 0
  slot : account.owner = splTokenId ∨ account.owner = token2022Id →
    ∃ index < mintsCount, ctx.keyAt index = key ∧ (∀ j < index, ctx.keyAt j ≠ key) ∧
      (bank (ctx.keyAt (mintsCount + index))).data ≠ [] ∧
      account.owner = ctx.tokenProgramFor (bank (ctx.keyAt (mintsCount + index)))

theorem OpenedFor.of_sameContents {ctx : Context} {mintsCount : ℕ} {bank : Bank}
    {key : Pubkey} {account account' : Account}
    (h : OpenedFor ctx mintsCount bank key account) (hsame : SameContents account account') :
    OpenedFor ctx mintsCount bank key account' := by
  refine ⟨?_, ?_, ?_, ?_⟩ <;> rw [hsame.owner_eq]
  · exact h.owner_ne
  · rw [hsame.data_eq]
    exact h.not_mint
  · rw [tokenAmount_of_sameContents hsame]
    exact h.empty
  · exact h.slot

theorem createMissingAta_spec {ctx : Context} {mintsCount i : ℕ} {st st' : Opened}
    (h : createMissingAta rt ctx mintsCount st i = .ok st') :
    (accountExists (st.bank (ctx.keyAt i)) = true ∧ st' = st) ∨
    (accountExists (st.bank (ctx.keyAt i)) = false ∧
      CreateSpec rt ctx.accounts.payer ctx.accounts.titanPda (ctx.keyAt (mintsCount + i))
        (ctx.keyAt i) (ctx.tokenProgramFor (st.bank (ctx.keyAt (mintsCount + i)))) st.bank
        st'.bank) := by
  rcases createMissingAta_cases h with hkept | ⟨hmissing, bank', hcreate, rfl⟩
  · exact .inl hkept
  · exact .inr ⟨hmissing, createIdempotent_spec hcreate⟩

/-- The state of the loop before its `i`-th slot. -/
structure OpeningLoop (ctx : Context) (mintsCount : ℕ) (bank : Bank) (i : ℕ) (st : Bank) :
    Prop where
  kept : ∀ key, (bank key).data ≠ [] → SameContents (bank key) (st key)
  fresh : ∀ key, (bank key).data = [] →
    (SameContents (bank key) (st key) ∧ (st key).lamports ≤ (bank key).lamports ∧
      ∀ j < i, ctx.keyAt j ≠ key) ∨
    OpenedFor ctx mintsCount bank key (st key)
  elsewhere : ∀ key, (∀ j < mintsCount, ctx.keyAt j ≠ key) →
    SameContents (bank key) (st key) ∧ (key ≠ ctx.accounts.payer → st key = bank key)

/-- The mint of an account being opened was there before the loop: whatever the loop
opened is not a mint. -/
theorem OpeningLoop.mint_data_ne_nil {ctx : Context} {mintsCount i : ℕ} {bank st : Bank}
    {mint program : Pubkey} {decimals : UInt8} (h : OpeningLoop ctx mintsCount bank i st)
    (hprogram : program = splTokenId ∨ program = token2022Id)
    (howner : (st mint).owner = program)
    (hdecimals : unpackMintDecimals (st mint).data = .ok decimals) :
    (bank mint).data ≠ [] := by
  intro hnil
  rcases h.fresh mint hnil with ⟨hsame, _, _⟩ | hopened
  · rw [hsame.data_eq, hnil] at hdecimals
    simp [unpackMintDecimals, mintLen] at hdecimals
  · rw [← howner] at hprogram
    exact hopened.not_mint hprogram decimals hdecimals

theorem nativeMintOf_cases (program : Pubkey) :
    nativeMintOf program = nativeMintId ∨ nativeMintOf program = nativeMint2022Id := by
  unfold nativeMintOf
  split
  · exact .inr rfl
  · exact .inl rfl

/-- An account opens without a balance unless lamports waited for it and its mint is wrapped
SOL. -/
theorem empty_of_openSpec {payer wallet mint account program : Pubkey}
    {bank bank' : Bank} {amount lamports : ℕ} {isNative : Option ℕ} {tail : Bytes}
    (h : OpenSpec rt payer wallet mint account program bank bank')
    (hdata : (bank' account).data = newTokenData mint wallet amount isNative tail)
    (hlamports : (bank account).lamports ≤ lamports)
    (hprefunded : 0 < lamports → ¬(mint = nativeMintId ∨ mint = nativeMint2022Id)) :
    mint ≠ nativeMintOf program ∨
      (bank' account).lamports ≤ rt.minimumBalance (accountLen + tail.length) := by
  rcases Nat.eq_zero_or_pos lamports with hzero | hpos
  · right
    have hlength : (bank' account).data.length = accountLen + tail.length := by
      rw [hdata, length_newTokenData]
    have hunfunded : (bank account).lamports = 0 := by omega
    have hpos := rt.minimumBalance_pos (accountLen + tail.length)
    have hpaid := h.paid
    have hreceived := h.received
    simp only [hlength, hunfunded, rentShortfall] at hpaid hreceived
    have hpayer : payer ≠ account := by
      intro heq
      rw [heq, hunfunded] at hpaid
      omega
    rw [hreceived hpayer]
    omega
  · left
    intro hnative
    refine hprefunded hpos ?_
    rw [hnative]
    exact nativeMintOf_cases program

/-- Opening the account of a slot that held no data. -/
theorem openedFor_of_openSpec {ctx : Context} {mintsCount i : ℕ} {bank st st' : Bank}
    (h : OpenSpec rt ctx.accounts.payer ctx.accounts.titanPda (ctx.keyAt (mintsCount + i))
      (ctx.keyAt i) (ctx.tokenProgramFor (st (ctx.keyAt (mintsCount + i)))) st st')
    (hloop : OpeningLoop ctx mintsCount bank i st) (hi : i < mintsCount)
    (hnil : (bank (ctx.keyAt i)).data = [])
    (hlamports : (st (ctx.keyAt i)).lamports ≤ (bank (ctx.keyAt i)).lamports)
    (hfirst : ∀ j < i, ctx.keyAt j ≠ ctx.keyAt i) :
    OpenedFor ctx mintsCount bank (ctx.keyAt i) (st' (ctx.keyAt i)) := by
  have howner : (st' (ctx.keyAt i)).owner =
      ctx.tokenProgramFor (st (ctx.keyAt (mintsCount + i))) := by
    rw [h.opened, openedAccount_owner]
  refine ⟨?_, ?_, ?_, ?_⟩ <;> rw [howner]
  · exact h.program_ne
  · intro hprogram decimals
    obtain ⟨amount, isNative, tail, htail, hdata, _⟩ := @openedAccount_data rt _
      ctx.accounts.titanPda (ctx.keyAt (mintsCount + i)) (st (ctx.keyAt (mintsCount + i))).data
      (st' (ctx.keyAt i)).lamports hprogram
    rw [h.opened, hdata]
    exact unpackMintDecimals_newTokenData htail decimals
  · intro hprogram hprefunded
    obtain ⟨amount, isNative, tail, _, hdata, hamount⟩ := @openedAccount_data rt _
      ctx.accounts.titanPda (ctx.keyAt (mintsCount + i)) (st (ctx.keyAt (mintsCount + i))).data
      (st' (ctx.keyAt i)).lamports hprogram
    rw [← h.opened] at hdata
    have hempty := hamount (empty_of_openSpec h hdata hlamports fun hlamports hmint =>
      hprefunded ⟨hnil, hlamports, i, hi, rfl, hmint⟩)
    rw [hempty] at hdata
    have hread := readTokenAccount_fields (@readTokenAccount_newTokenData
      (ctx.keyAt (mintsCount + i)) ctx.accounts.titanPda 0 isNative tail)
    rw [← hdata] at hread
    simpa using tokenAmount_of_getLE hread.2.2
  · intro hprogram
    obtain ⟨hmintOwner, decimals, hdecimals⟩ := h.mint_ok hprogram
    have hdata := hloop.mint_data_ne_nil hprogram hmintOwner hdecimals
    refine ⟨i, hi, rfl, hfirst, hdata, ?_⟩
    simp only [Context.tokenProgramFor, getTokenProgramForMint, (hloop.kept _ hdata).owner_eq]

theorem OpeningLoop.step {ctx : Context} {mintsCount i : ℕ} {bank : Bank} {st st' : Opened}
    (h : OpeningLoop ctx mintsCount bank i st.bank) (hi : i < mintsCount)
    (hstep : createMissingAta rt ctx mintsCount st i = .ok st') :
    OpeningLoop ctx mintsCount bank (i + 1) st'.bank := by
  refine ⟨fun key hdata => ?_, fun key hdata => ?_, fun key hkey => ?_⟩
  · have hsame := h.kept key hdata
    exact hsame.trans (createMissingAta_sameContents hstep (by rw [hsame.data_eq]; exact hdata))
  · rcases createMissingAta_spec hstep with ⟨hexists, rfl⟩ | ⟨_, hcreate⟩
    · rcases h.fresh key hdata with ⟨hsame, hlamports, hfirst⟩ | hopened
      · refine .inl ⟨hsame, hlamports, fun j hj heq => ?_⟩
        rcases Nat.lt_succ_iff_lt_or_eq.mp hj with hj | rfl
        · exact hfirst j hj heq
        · rw [heq, accountExists, hsame.data_eq, hdata] at hexists
          simp at hexists
      · exact .inr hopened
    · cases hcreate with
      | existing token unpacks _ _ same =>
          rw [same]
          rcases h.fresh key hdata with ⟨hsame, hlamports, hfirst⟩ | hopened
          · refine .inl ⟨hsame, hlamports, fun j hj heq => ?_⟩
            rcases Nat.lt_succ_iff_lt_or_eq.mp hj with hj | rfl
            · exact hfirst j hj heq
            · have hlen := unpacks.accountLen_le
              rw [heq, hsame.data_eq, hdata] at hlen
              exact absurd hlen (by decide)
          · exact .inr hopened
      | fresh opens =>
          by_cases hkey : key = ctx.keyAt i
          · subst hkey
            rcases h.fresh _ hdata with ⟨_, hlamports, hfirst⟩ | hopened
            · exact .inr (openedFor_of_openSpec opens h hi hdata hlamports hfirst)
            · exact (hopened.owner_ne opens.owner_eq).elim
          · have hcontents := opens.contents key hkey
            rcases h.fresh key hdata with ⟨hsame, hlamports, hfirst⟩ | hopened
            · refine .inl ⟨hsame.trans hcontents, (opens.lamports_le key hkey).trans hlamports,
                fun j hj heq => ?_⟩
              rcases Nat.lt_succ_iff_lt_or_eq.mp hj with hj | rfl
              · exact hfirst j hj heq
              · exact hkey heq.symm
            · exact .inr (hopened.of_sameContents hcontents)
  · obtain ⟨hsame, hframe⟩ := h.elsewhere key hkey
    rcases createMissingAta_spec hstep with ⟨_, rfl⟩ | ⟨_, hcreate⟩
    · exact ⟨hsame, hframe⟩
    · cases hcreate with
      | existing token unpacks _ _ same => exact same ▸ ⟨hsame, hframe⟩
      | fresh opens =>
          have hne : key ≠ ctx.keyAt i := fun heq => hkey i hi heq.symm
          refine ⟨hsame.trans (opens.contents key hne), fun hpayer => ?_⟩
          rw [opens.frame key hne hpayer, hframe hpayer]

theorem createMissingAtas_loop {ctx : Context} {mintsCount : ℕ} {bank : Bank}
    {opened : Opened} (h : createMissingAtas rt ctx mintsCount bank = .ok opened) :
    OpeningLoop ctx mintsCount bank mintsCount opened.bank := by
  refine foldlM_range_invariant
    (fun i (st : Opened) => OpeningLoop ctx mintsCount bank i st.bank)
    (fun i hi st st' hst hstep => hst.step hi hstep) ?_ h
  exact ⟨fun _ _ => SameContents.refl _,
    fun _ _ => .inl ⟨SameContents.refl _, le_rfl, fun j hj => (Nat.not_lt_zero j hj).elim⟩,
    fun _ _ => ⟨SameContents.refl _, fun _ => rfl⟩⟩

/-! ## The accounts of a route after opening -/

/-- Where the account of a slot comes from: it existed, or it was opened for the first slot
that names its address. -/
inductive SlotOrigin (ctx : Context) (mintsCount : ℕ) (bank : Bank) (key : Pubkey)
    (account : Account) : Prop
  | existed (data_ne : (bank key).data ≠ []) (same : SameContents (bank key) account)
  | opened (data_nil : (bank key).data = [])
      (empty : ¬PrefundedSol ctx mintsCount bank key → tokenAmount account = 0) (index : ℕ)
      (index_lt : index < mintsCount) (key_eq : ctx.keyAt index = key)
      (first : ∀ j < index, ctx.keyAt j ≠ key)
      (mint_data : (bank (ctx.keyAt (mintsCount + index))).data ≠ [])
      (owner_eq : account.owner = ctx.tokenProgramFor (bank (ctx.keyAt (mintsCount + index))))

theorem OpeningLoop.slotOrigin {ctx : Context} {mintsCount : ℕ} {bank opened : Bank}
    (h : OpeningLoop ctx mintsCount bank mintsCount opened) {key : Pubkey}
    (htitan : isTitanPdaTokenAccount (opened key) ctx.accounts.titanPda = true) :
    SlotOrigin ctx mintsCount bank key (opened key) := by
  by_cases hdata : (bank key).data = []
  · rcases h.fresh key hdata with ⟨hsame, _, _⟩ | hopened
    · exact (data_ne_nil_of_isTitanPda htitan (hsame.data_eq.trans hdata)).elim
    · have hprogram := (isTitanPdaTokenAccount_iff.mp htitan).1
      obtain ⟨index, hlt, hkey, hfirst, hmint, howner⟩ := hopened.slot hprogram
      exact .opened hdata (hopened.empty hprogram) index hlt hkey hfirst hmint howner
  · exact .existed hdata (h.kept key hdata)

/-- Opening does not change what a slot holds: a new account starts empty, but for
prefunded wrapped SOL. -/
theorem SlotOrigin.tokenAmount_eq {ctx : Context} {mintsCount : ℕ} {bank : Bank}
    {key : Pubkey} {account : Account} (h : SlotOrigin ctx mintsCount bank key account)
    (hprefunded : ¬PrefundedSol ctx mintsCount bank key) :
    tokenAmount account = tokenAmount (bank key) := by
  cases h with
  | existed _ same => exact tokenAmount_of_sameContents same
  | opened data_nil empty => rw [empty hprefunded, tokenAmount_of_data_nil data_nil]

end QuayTitan.Route
