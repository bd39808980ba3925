import QuayTitan.Verification.Route.Histories

/-! # TitanPDA's balances over histories

The final check of a route compares amounts only. It keeps TitanPDA's balances over any history
in which nobody is handed an account TitanPDA signs for. -/

namespace QuayTitan.Route

open ByteFields Fallible Relation

variable {rt : Runtime} {derive : Derivation} {bank bank' : Bank} {key titanPda : Pubkey}

/-! ## Accounts in TitanPDA's hands -/

/-- TitanPDA alone can spend from the account or close it. -/
structure Held (titanPda : Pubkey) (account : Account) : Prop where
  titan : isTitanPdaTokenAccount account titanPda = true
  undelegated : getLE account.data 72 4 = some 0
  unclosable : getLE account.data 129 4 = some 0

theorem Held.of_fieldsKept {account account' : Account} (h : Held titanPda account)
    (hkept : FieldsKept account account') : Held titanPda account' := by
  obtain ⟨howner, hlength, hauthority⟩ := isTitanPdaTokenAccount_iff.mp h.titan
  refine ⟨isTitanPdaTokenAccount_iff.mpr ⟨?_, hkept.length_iff.mpr hlength, ?_⟩,
    hkept.undelegated h.undelegated, ?_⟩
  · rw [hkept.owner_eq]
    exact howner
  · rw [hkept.getKey_eq (.inl (by decide))]
    exact hauthority
  · rw [hkept.getLE_eq (.inr (.inr (by decide)))]
    exact h.unclosable

theorem Held.of_sameContents {account account' : Account} (h : Held titanPda account)
    (hsame : SameContents account account') : Held titanPda account' :=
  h.of_fieldsKept hsame.fieldsKept

/-- The token program sees TitanPDA as the only authority. -/
theorem Held.authorities {program : Pubkey} {account : Account} {token : TokenAccount}
    (h : Held titanPda account) (hunpacks : Unpacks program account token) :
    token.owner = titanPda ∧ token.delegate = none ∧ token.closeAuthority = none := by
  refine ⟨?_, hunpacks.delegate_eq_none h.undelegated,
    hunpacks.closeAuthority_eq_none h.unclosable⟩
  have howner := (readTokenAccount_fields hunpacks.read).2.1
  rw [(isTitanPdaTokenAccount_iff.mp h.titan).2.2] at howner
  exact (Option.some.inj howner).symm

/-- Only TitanPDA spends from the account. -/
theorem Held.spender_eq {program source destination authority : Pubkey} {amount fee : ℕ}
    {src dst : TokenAccount} (h : Held titanPda (bank source))
    (hspec : TransferSpec program source destination authority amount fee src dst bank bank') :
    authority = titanPda := by
  obtain ⟨howner, hdelegate, _⟩ := h.authorities hspec.source_unpacks
  rcases hspec.authorized with hspends | howns
  · rw [hdelegate] at hspends
    cases hspends
  · exact howns.symm.trans howner

/-- Only TitanPDA closes the account. -/
theorem Held.closer_eq {program account destination authority : Pubkey}
    (h : Held titanPda (bank account))
    (hclose : tokenClose rt program account destination authority bank = .ok bank') :
    authority = titanPda := by
  simp only [tokenClose, validateOwner, bind_eq_ok, check_eq_ok, unpackTokenAccount_eq_ok]
    at hclose
  obtain ⟨_, _, _, _, token, hunpacks, _, _, _, hauthorized, _⟩ := hclose
  obtain ⟨howner, _, hnone⟩ := h.authorities hunpacks
  rw [hnone, Option.getD_none, howner] at hauthorized
  exact hauthorized.1.symm

/-! ## One route -/

/-- A venue may move the tokens TitanPDA signs for, but gives no account away. -/
def KeepsAuthority (titanPda : Pubkey) (venue : VenueProgram) : Prop :=
  ∀ leg instruction infos bank out, venue leg instruction infos bank = .ok out →
    ∀ key, Held titanPda (bank key) → Held titanPda (out key)

section Route

variable {venue : VenueProgram} {ctx : Context} {mintsCount : ℕ}

theorem RouteStep.held (h : RouteStep rt venue ctx mintsCount bank bank')
    (hvenue : KeepsAuthority titanPda venue) (huser : ctx.accounts.user ≠ titanPda)
    (hheld : Held titanPda (bank key)) : Held titanPda (bank' key) := by
  have hdata := data_ne_nil_of_isTitanPda hheld.titan
  cases h with
  | opensAta index index_lt program call =>
      exact hheld.of_sameContents (createIdempotent_sameContents call hdata)
  | opensUser account mint program account_eq call =>
      exact hheld.of_sameContents (createIdempotent_sameContents call hdata)
  | wraps amount call => exact hheld.of_sameContents ((systemTransfer_spec call).contents key)
  | syncs program call => exact hheld.of_fieldsKept (syncNative_fieldsKept call key)
  | deposits program checked amount call =>
      exact hheld.of_fieldsKept (tokenTransfer_fieldsKept call key)
  | unwraps program call =>
      obtain ⟨token, hspec⟩ := tokenClose_spec call
      refine hheld.of_sameContents (hspec.contents key ?_)
      rintro rfl
      exact huser (hheld.closer_eq call)
  | swaps leg amount index swap index_le call =>
      obtain ⟨instruction, out, hout, hreached, hframe⟩ := performCpiSwap_call call
      by_cases hkey : key ∈ (legInvocation ctx index swap.nAccounts.toNat).legAccounts.map
          AccountInfo.key
      · rw [hreached key hkey]
        exact hvenue _ _ _ _ _ hout key hheld
      · rw [hframe key hkey]
        exact hheld
  | pays index index_lt program checked amount call =>
      exact hheld.of_fieldsKept (tokenTransfer_fieldsKept call key)

theorem transferTokens_amount_le {tokenProgram source destination authority mint : Pubkey}
    {amount : ℕ} {decimals : UInt8}
    (h : transferTokens rt tokenProgram source destination authority (some mint) amount decimals
      bank = .ok bank')
    (htitan : isTitanPdaTokenAccount (bank key) titanPda = true) (hkey : key ≠ source) :
    tokenAmount (bank key) ≤ tokenAmount (bank' key) := by
  rw [tokenAmount_of_rebalanced (transferTokens_rebalanced h htitan)]
  unfold transferredAmount
  rw [if_neg hkey]
  split
  · exact le_rfl
  · split
    · exact Nat.le_add_right _ _
    · exact le_rfl

/-- The user cannot deposit from an account TitanPDA holds: nothing is deposited. -/
theorem deposit_input_held {inputMint : Pubkey} {inputDecimals : UInt8}
    {ledgerAmount : Option ℕ} {effectiveAmount : ℕ}
    (h : deposit rt ctx inputMint inputDecimals ledgerAmount effectiveAmount bank = .ok bank')
    (huser : ctx.accounts.user ≠ titanPda)
    (hheld : Held titanPda (bank ctx.accounts.inputTokenAccount)) :
    SameContents (bank ctx.accounts.inputTokenAccount)
      (bank' ctx.accounts.inputTokenAccount) := by
  simp only [deposit, bind_eq_ok, Context.get_eq_ok] at h
  obtain ⟨first, hfirst, ⟨created, mid⟩, hfunds, moved, hmoves, hclose⟩ := h
  have hsteps : ReflTransGen (RouteStep rt (fun _ _ _ _ => .error .missingAccount) ctx 0) bank
      mid := fundInputAccount_steps hfunds
  have hmid : Held titanPda (mid ctx.accounts.inputTokenAccount) := by
    refine reflTransGen_keeps (fun b => Held titanPda (b ctx.accounts.inputTokenAccount)) ?_ hsteps
      hheld
    intro a b hstep ha
    refine hstep.held ?_ huser ha
    intro _ _ _ _ _ hcall
    cases hcall
  rcases transferTokens_spec hmoves with ⟨hzero, rfl⟩ | ⟨_, src, dst, hspec⟩
  · split at hclose
    · exact absurd (hmid.closer_eq (invoke_eq_ok.mp hclose)) huser
    · rename_i hkept
      rw [pure_eq_ok] at hclose
      subst hclose
      rcases fundInputAccount_cases hfunds with ⟨_, rfl⟩ | hsetup
      · exact .refl _
      · rcases setupWsolInputAccount_cases hsetup with ⟨_, _, balance, hfund⟩ | ⟨_, hcreated, _⟩
        · rw [hzero, Nat.zero_sub, transferSolAndSync, if_pos rfl, pure_eq_ok] at hfund
          rw [hfund]
          exact .refl _
        · exact absurd hcreated hkept
  · exact absurd (hmid.spender_eq hspec) huser

/-- A deposit takes nothing from the accounts TitanPDA holds. -/
theorem deposit_amount_le {inputMint : Pubkey} {inputDecimals : UInt8} {ledgerAmount : Option ℕ}
    {effectiveAmount : ℕ}
    (h : deposit rt ctx inputMint inputDecimals ledgerAmount effectiveAmount bank = .ok bank')
    (huser : ctx.accounts.user ≠ titanPda) (hheld : Held titanPda (bank key)) :
    tokenAmount (bank key) ≤ tokenAmount (bank' key) := by
  by_cases hinput : key = ctx.accounts.inputTokenAccount
  · subst hinput
    rw [tokenAmount_of_sameContents (deposit_input_held h huser hheld)]
  · obtain ⟨first, _, _, _, hphases⟩ := deposit_spec h
    rw [tokenAmount_of_rebalanced
      (deposit_rebalanced h hphases.first_eq hheld.titan hinput)]
    exact Nat.le_add_right _ _

/-- The legs leave alone what the route was not given. -/
theorem runLegs_frame {reservedBalances : List ℕ} {swaps : List SwapSpecInputV2} {leg : ℕ}
    {st st' : LegState} (hkey : key ∉ ctx.remainingAccounts.map AccountInfo.key)
    (h : runLegs venue ctx reservedBalances swaps leg st = .ok st') :
    st'.bank key = st.bank key := by
  refine runLegs_invariant (fun s => s.bank key = st.bank key) ?_ rfl h
  intro swap _ leg s s' record hspec _ hs
  rcases hspec.outcome with ⟨_, _, hbank⟩ | ⟨_, invocation, _, hinvocation, hcall⟩
  · rw [hbank]
    exact hs
  · obtain ⟨_, _, _, _, hframe⟩ := performCpiSwap_call hcall
    refine (hframe key fun hmem => hkey ?_).trans hs
    obtain ⟨info, hinfo, rfl⟩ := List.mem_map.mp hmem
    rw [hinvocation] at hinfo
    exact List.mem_map_of_mem (List.mem_of_mem_drop (List.mem_of_mem_take hinfo))

variable {amount : UInt64} {mints : UInt8} {swaps : List SwapSpecInputV2} {run : RouteRun}

theorem Executes.held_paid (h : Executes rt venue ctx amount mints swaps bank run)
    (hvenue : KeepsAuthority titanPda venue) (huser : ctx.accounts.user ≠ titanPda)
    (hheld : Held titanPda (bank key)) : Held titanPda (run.payout.paid key) :=
  reflTransGen_keeps (fun b => Held titanPda (b key))
    (fun _ _ hstep ha => hstep.held hvenue huser ha) h.steps.1 hheld

/-- An account the route was not given can only receive its payout. -/
theorem Executes.amount_le_of_not_mem (h : Executes rt venue ctx amount mints swaps bank run)
    (hvenue : KeepsAuthority titanPda venue) (huser : ctx.accounts.user ≠ titanPda)
    (hheld : Held titanPda (bank key))
    (hkey : key ∉ ctx.remainingAccounts.map AccountInfo.key) :
    tokenAmount (bank key) ≤ tokenAmount (run.final key) := by
  obtain ⟨inputMint, inputDecimals, hprepares⟩ := prepare_spec h.prepares
  have hopened := createMissingAtas_sameContents hprepares.opens
    (data_ne_nil_of_isTitanPda hheld.titan)
  have hheldOpened := hheld.of_sameContents hopened
  have hdeposited := deposit_amount_le hprepares.deposits huser hheldOpened
  have htraded : run.traded.bank key = run.deposited key := runLegs_frame hkey h.trades
  obtain ⟨outputAta, reserved, hpayout⟩ := payOut_spec h.pays
  have houtput : key ≠ outputAta.key := by
    rintro rfl
    exact hkey (List.mem_map_of_mem (List.mem_of_getElem? hpayout.output_ata))
  have hheldTraded : Held titanPda (run.traded.bank key) := by
    have hsteps : ReflTransGen (RouteStep rt venue ctx mints.toNat) run.opened.bank
        run.deposited := deposit_steps hprepares.deposits
    rw [htraded]
    exact reflTransGen_keeps (fun b => Held titanPda (b key))
      (fun _ _ hstep ha => hstep.held hvenue huser ha) hsteps hheldOpened
  have hready := hpayout.ready key (data_ne_nil_of_isTitanPda hheldTraded.titan)
  have hpaid := transferTokens_amount_le hpayout.pays
    (hheldTraded.of_sameContents hready).titan houtput
  calc tokenAmount (bank key) = tokenAmount (run.opened.bank key) :=
        (tokenAmount_of_sameContents hopened).symm
    _ ≤ tokenAmount (run.deposited key) := hdeposited
    _ = tokenAmount (run.payout.ready key) := by
        rw [tokenAmount_of_sameContents hready, htraded]
    _ ≤ tokenAmount (run.payout.paid key) := hpaid
    _ = tokenAmount (run.final key) := (tokenAmount_closeCreatedAtas h.closes key).symm

/-- One route takes nothing from the accounts TitanPDA holds, and hands none of them over. -/
theorem execute_keepsHeld (h : execute rt venue ctx amount mints swaps bank = .ok run)
    (hlength : ctx.remainingAccounts.length ≤ 256)
    (hvenue : KeepsAuthority ctx.accounts.titanPda venue)
    (huser : ctx.accounts.user ≠ ctx.accounts.titanPda)
    (hheld : Held ctx.accounts.titanPda (bank key)) (hpos : 0 < tokenAmount (bank key)) :
    Held ctx.accounts.titanPda (run.final key) ∧
      tokenAmount (bank key) ≤ tokenAmount (run.final key) := by
  have hexecutes := execute_eq_ok.mp h
  have hamount : tokenAmount (bank key) ≤ tokenAmount (run.final key) := by
    by_cases hkey : key ∈ ctx.remainingAccounts.map AccountInfo.key
    · obtain ⟨info, hinfo, rfl⟩ := List.mem_map.mp hkey
      obtain ⟨index, hindex, hget⟩ := List.mem_iff_getElem.mp hinfo
      obtain ⟨inputMint, inputDecimals, hprepares⟩ := prepare_spec hexecutes.prepares
      have hopened := createMissingAtas_sameContents hprepares.opens
        (data_ne_nil_of_isTitanPda hheld.titan)
      rw [← tokenAmount_of_sameContents hopened]
      exact hexecutes.kept (by omega) (List.getElem?_eq_some_iff.mpr ⟨hindex, hget⟩)
        (hheld.of_sameContents hopened).titan
    · exact hexecutes.amount_le_of_not_mem hvenue huser hheld hkey
  refine ⟨?_, hamount⟩
  have hpaid := hexecutes.held_paid hvenue huser hheld
  rcases closeCreatedAtas_keptOrClosed hexecutes.closes key with hsame | ⟨hempty, _, _⟩
  · exact hpaid.of_sameContents hsame
  · have hfinal : tokenAmount (run.final key) = 0 :=
      (tokenAmount_closeCreatedAtas hexecutes.closes key).trans hempty
    omega

end Route

/-! ## Histories -/

/-- Other programs neither spend from the accounts TitanPDA holds nor take them over: they do
not sign for it. -/
def RespectsHeld (titanPda : Pubkey) (bank bank' : Bank) : Prop :=
  ∀ key, Held titanPda (bank key) →
    Held titanPda (bank' key) ∧ tokenAmount (bank key) ≤ tokenAmount (bank' key)

section Histories

variable {venues : VenueProgram → Prop} {others : Bank → Bank → Prop}
  (hvenues : ∀ venue, venues venue → LawfulVenue venue ∧ KeepsAuthority titanPda venue)
  (hothers : ∀ bank bank', others bank bank' →
    ForeignEffect derive bank bank' ∧ RespectsHeld titanPda bank bank')
  (hrt : NotReentered rt)

include hvenues hothers hrt

/-- No balance TitanPDA holds ever falls: over any history of routes with any amounts, accounts
and venues and of whatever else happens, an account it holds with tokens stays its own and keeps
at least what it had. -/
theorem history_keepsHeld {start later : Bank} {bump : UInt8}
    (hfound : findProgramAddress derive [TitanPda.seed] programId = some (titanPda, bump))
    (hstart : ∀ key, titanAt start key = none)
    (hreached : History rt derive venues others start bank)
    (h : History rt derive venues others bank later)
    (hheld : Held titanPda (bank key)) (hpos : 0 < tokenAmount (bank key)) :
    Held titanPda (later key) ∧ tokenAmount (bank key) ≤ tokenAmount (later key) := by
  induction h with
  | refl => exact ⟨hheld, le_rfl⟩
  | @tail before after hbefore hlast ih =>
      obtain ⟨hheldBefore, hle⟩ := ih
      cases hlast with
      | calls infos data venue lawful length_le unsigned accepted =>
          cases dispatch_cases accepted with
          | initializes payer titan bump' spec =>
              have hsame : SameContents (before key) (after key) := by
                apply spec.sameContents
                rintro rfl
                exact data_ne_nil_of_isTitanPda hheldBefore.titan spec.data_eq
              rw [tokenAmount_of_sameContents hsame]
              exact ⟨hheldBefore.of_sameContents hsame, hle⟩
          | routes amount mints swaps named remaining state run infos_eq accepted runs result =>
              have hcanonical := titanAt_canonical (fun venue hvenue => (hvenues venue hvenue).1)
                (fun a b hother => (hothers a b hother).1) hrt hstart (hreached.trans hbefore)
                accepted.state_eq
              rw [hfound] at hcanonical
              have hnamed : titanPda = named.titanPda.key :=
                (Prod.mk.inj (Option.some.inj hcanonical)).1
              have huser : named.user.key ≠ named.titanPda.key := by
                intro heq
                refine unsigned named.user ?_ accepted.user_signs _ (heq ▸ accepted.derived)
                rw [infos_eq]
                simp [RouteInfos.toList]
              have hcount : remaining.length ≤ 256 := by
                rw [infos_eq, List.length_append] at length_le
                omega
              subst hnamed
              have hkept := execute_keepsHeld runs hcount (hvenues venue lawful).2 huser
                hheldBefore (by omega)
              rw [result]
              exact ⟨hkept.1, hle.trans hkept.2⟩
      | elsewhere lawful =>
          obtain ⟨hheldAfter, hle'⟩ := (hothers _ _ lawful).2 key hheldBefore
          exact ⟨hheldAfter, hle.trans hle'⟩

end Histories

namespace Sample

def routeInfos : List AccountInfo :=
  [⟨payer, true, true⟩, ⟨user, true, true⟩, info Sample.titanPda, info userBase, info userQuote,
    info splTokenId, info token2022Id, info systemProgramId, info (Sample.key 77),
    info programId, info programId, info programId] ++ context.remainingAccounts

def routeData : Bytes :=
  swapRouteV3Discriminator :: swapRouteV3Args.encode (500, 2, Sample.swaps)

/-- TitanPDA is opened, and then a route runs. -/
theorem dispatch_routes : ∃ opened,
    dispatch runtime canonical idle openingInfos initializeDiscriminator Sample.bank =
      .ok opened ∧
    ∃ routed, dispatch runtime canonical idle routeInfos routeData opened = .ok routed := by
  have hruns : (dispatch runtime canonical idle openingInfos initializeDiscriminator
      Sample.bank >>= dispatch runtime canonical idle routeInfos routeData).isOk = true := by
    decide +kernel
  obtain ⟨routed, hrouted⟩ := exists_of_isOk hruns
  obtain ⟨opened, hopened, hroutes⟩ := bind_eq_ok.mp hrouted
  exact ⟨opened, hopened, routed, hroutes⟩

theorem routeInfos_unsigned : ∀ info ∈ routeInfos, info.isSigner = true →
    ∀ seeds, canonical seeds programId ≠ some info.key := by
  have hsigners : ∀ info ∈ routeInfos, info.isSigner = true → info.key ≠ Sample.titanPda := by
    decide +kernel
  exact fun info hinfo hsigner seeds hseeds =>
    hsigners info hinfo hsigner (canonical_eq_some hseeds)

theorem idle_keepsAuthority : KeepsAuthority Sample.titanPda idle := by
  intro _ _ _ before out hout key hheld
  rw [idle_bank hout]
  exact hheld

theorem history_keepsHeld_sample :
    ∃ later, History runtime canonical
        (fun venue => LawfulVenue venue ∧ KeepsAuthority Sample.titanPda venue)
        (fun before after => ForeignEffect canonical before after ∧
          RespectsHeld Sample.titanPda before after)
        Sample.bank later ∧
      Held Sample.titanPda (later quoteAta) ∧
      tokenAmount (Sample.bank quoteAta) ≤ tokenAmount (later quoteAta) := by
  obtain ⟨opened, hopened, later, hlater⟩ := dispatch_routes
  have hlawful := And.intro idle_lawful idle_keepsAuthority
  have hhistory : History runtime canonical
      (fun venue => LawfulVenue venue ∧ KeepsAuthority Sample.titanPda venue)
      (fun before after => ForeignEffect canonical before after ∧
        RespectsHeld Sample.titanPda before after)
      Sample.bank later :=
    (ReflTransGen.single (.calls openingInfos initializeDiscriminator idle hlawful (by decide)
      openingInfos_unsigned hopened)).tail
      (.calls routeInfos routeData idle hlawful (by decide) routeInfos_unsigned hlater)
  exact ⟨later, hhistory, history_keepsHeld (fun _ h => h) (fun _ _ h => h) runtime_notReentered
    findProgramAddress_canonical bank_titanAt .refl hhistory
    ⟨by decide +kernel, by decide +kernel, by decide +kernel⟩ (by decide +kernel)⟩

end Sample

end QuayTitan.Route
