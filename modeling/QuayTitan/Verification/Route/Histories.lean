import QuayTitan.Verification.Route.Conservation
import QuayTitan.Verification.Route.Program

/-! # Histories of the route program

The instructions of the program interleave with whatever the other programs of the chain do,
within the rules of the runtime. -/

namespace QuayTitan.Route

open ByteFields Fallible Relation

variable {rt : Runtime} {derive : Derivation} {bank bank' : Bank} {key : Pubkey}

/-! ## The rules of the runtime -/

/-- Other code writes no account of the route program, and hands it none but zeroed ones. -/
structure KeepsOwned (bank bank' : Bank) : Prop where
  owned : ∀ key, (bank key).owner = programId → SameContents (bank key) (bank' key)
  assigned : ∀ key, (bank key).owner ≠ programId → (bank' key).owner = programId →
    ∀ byte ∈ (bank' key).data, byte = 0

def LawfulVenue (venue : VenueProgram) : Prop :=
  ∀ leg instruction infos bank out, venue leg instruction infos bank = .ok out →
    KeepsOwned bank out

/-- Nor does it sign for an address of the route program: an unused one stays so, though
lamports can be sent to it. -/
structure ForeignEffect (derive : Derivation) (bank bank' : Bank) : Prop
    extends KeepsOwned bank bank' where
  unused : ∀ key seeds, derive seeds programId = some key →
    (bank key).owner = systemProgramId → (bank key).data = [] →
    SameContents (bank key) (bank' key)

/-- The associated-token program cannot make the route program write an account: a program is
not entered again by what it calls. -/
def NotReentered (rt : Runtime) : Prop :=
  ∀ wallet mint state,
    getField (rt.foreignAccount programId wallet mint) 0 9 ≠ some (TitanPda.serialize state)

/-- A successful instruction of the route program, or anything the others do. -/
inductive Happens (rt : Runtime) (derive : Derivation) (venues : VenueProgram → Prop)
    (others : Bank → Bank → Prop) (bank bank' : Bank) : Prop
  | calls (infos : List AccountInfo) (data : Bytes) (venue : VenueProgram) (lawful : venues venue)
      (length_le : infos.length ≤ 256)
      (unsigned : ∀ info ∈ infos, info.isSigner = true →
        ∀ seeds, derive seeds programId ≠ some info.key)
      (accepted : dispatch rt derive venue infos data bank = .ok bank')
  | elsewhere (lawful : others bank bank')

/-- Any number of them, in any order; a failed instruction leaves no trace. -/
abbrev History (rt : Runtime) (derive : Derivation) (venues : VenueProgram → Prop)
    (others : Bank → Bank → Prop) : Bank → Bank → Prop :=
  ReflTransGen (Happens rt derive venues others)

/-! ## What keeps the state of the program -/

theorem programId_ne_splTokenId : programId ≠ splTokenId := by decide +kernel

theorem programId_ne_token2022Id : programId ≠ token2022Id := by decide +kernel

theorem titanAt_eq_none_of_owner (h : (bank key).owner ≠ programId) : titanAt bank key = none := by
  rw [Option.eq_none_iff_forall_ne_some]
  intro state hstate
  exact h (titanAt_eq_some.mp hstate).1

/-- Token balances and delegations lie behind the state. -/
theorem FieldsKept.titanAt_eq (h : FieldsKept (bank key) (bank' key)) :
    titanAt bank' key = titanAt bank key := by
  ext state
  rw [titanAt_eq_some, titanAt_eq_some, h.owner_eq, h.field_eq 0 9 (.inl (by decide))]

theorem KeepsOwned.titanAt_eq (h : KeepsOwned bank bank') (key : Pubkey) :
    titanAt bank' key = titanAt bank key := by
  by_cases howner : (bank key).owner = programId
  · exact FieldsKept.titanAt_eq (h.owned key howner).fieldsKept
  · rw [titanAt_eq_none_of_owner howner, Option.eq_none_iff_forall_ne_some]
    intro state hstate
    obtain ⟨howner', hfield⟩ := titanAt_eq_some.mp hstate
    -- the first byte of a discriminator is not zero
    have hbyte : (251 : UInt8) ∈ (bank' key).data := by
      have hlength := length_of_getField hfield
      unfold getField at hfield
      split at hfield
      · apply List.mem_of_mem_take (i := 9)
        rw [List.drop_zero] at hfield
        rw [Option.some.inj hfield, TitanPda.serialize_eq]
        simp [TitanPda.discriminator]
      · cases hfield
    exact absurd (h.assigned key howner howner' 251 hbyte) (by decide)

theorem createIdempotent_titanAt {payer wallet mint account program : Pubkey}
    (h : createIdempotent rt payer wallet mint account program bank = .ok bank')
    (hrt : NotReentered rt) (key : Pubkey) : titanAt bank' key = titanAt bank key := by
  cases createIdempotent_spec h with
  | existing token unpacks owner_eq mint_eq same => rw [same]
  | fresh opens =>
      by_cases hkey : key = account
      · subst hkey
        have hsystem : (bank key).owner ≠ programId := by
          rw [opens.owner_eq]
          exact programId_ne_systemProgramId.symm
        rw [titanAt_eq_none_of_owner hsystem, Option.eq_none_iff_forall_ne_some]
        intro state hstate
        obtain ⟨howner, hfield⟩ := titanAt_eq_some.mp hstate
        rw [opens.opened] at howner hfield
        rw [openedAccount_owner] at howner
        subst howner
        have hprogram : ¬(programId = splTokenId ∨ programId = token2022Id) := by
          rintro (hspl | h2022)
          · exact programId_ne_splTokenId hspl
          · exact programId_ne_token2022Id h2022
        rw [openedAccount, if_neg hprogram] at hfield
        exact hrt wallet mint state hfield
      · exact FieldsKept.titanAt_eq (opens.contents key hkey).fieldsKept

theorem tokenClose_titanAt {program account destination authority : Pubkey}
    (h : tokenClose rt program account destination authority bank = .ok bank') (key : Pubkey) :
    titanAt bank' key = titanAt bank key := by
  obtain ⟨token, hspec⟩ := tokenClose_spec h
  by_cases hkey : key = account
  · subst hkey
    have hprogram : program = splTokenId ∨ program = token2022Id := by
      simp only [tokenClose, bind_eq_ok, check_eq_ok] at h
      obtain ⟨_, hprogram, _⟩ := h
      exact hprogram
    have hbefore : (bank key).owner ≠ programId := by
      rw [hspec.unpacks.owner_eq]
      rcases hprogram with rfl | rfl
      · exact programId_ne_splTokenId.symm
      · exact programId_ne_token2022Id.symm
    have hafter : (bank' key).owner ≠ programId := by
      rw [hspec.closed]
      exact programId_ne_systemProgramId.symm
    rw [titanAt_eq_none_of_owner hbefore, titanAt_eq_none_of_owner hafter]
  · exact FieldsKept.titanAt_eq (hspec.contents key hkey).fieldsKept

/-- No call of a route changes the state of the program. -/
theorem RouteStep.titanAt_eq {venue : VenueProgram} {ctx : Context} {mintsCount : ℕ}
    (h : RouteStep rt venue ctx mintsCount bank bank') (hvenue : LawfulVenue venue)
    (hrt : NotReentered rt) (key : Pubkey) : titanAt bank' key = titanAt bank key := by
  cases h with
  | opensAta index index_lt program call => exact createIdempotent_titanAt call hrt key
  | opensUser account mint program account_eq call => exact createIdempotent_titanAt call hrt key
  | wraps amount call =>
      exact FieldsKept.titanAt_eq ((systemTransfer_spec call).contents key).fieldsKept
  | syncs program call => exact FieldsKept.titanAt_eq (syncNative_fieldsKept call key)
  | deposits program checked amount call =>
      exact FieldsKept.titanAt_eq (tokenTransfer_fieldsKept call key)
  | unwraps program call => exact tokenClose_titanAt call key
  | swaps leg amount index swap index_le call =>
      obtain ⟨instruction, out, hout, hreached, hframe⟩ := performCpiSwap_call call
      by_cases hkey : key ∈ (legInvocation ctx index swap.nAccounts.toNat).legAccounts.map
          AccountInfo.key
      · rw [← (hvenue _ _ _ _ _ hout).titanAt_eq key]
        unfold titanAt
        rw [hreached key hkey]
      · unfold titanAt
        rw [hframe key hkey]
  | pays index index_lt program checked amount call =>
      exact FieldsKept.titanAt_eq (tokenTransfer_fieldsKept call key)

theorem execute_titanAt {venue : VenueProgram} {ctx : Context} {amount : UInt64} {mints : UInt8}
    {swaps : List SwapSpecInputV2} {run : RouteRun}
    (h : execute rt venue ctx amount mints swaps bank = .ok run) (hvenue : LawfulVenue venue)
    (hrt : NotReentered rt) (key : Pubkey) : titanAt run.final key = titanAt bank key := by
  obtain ⟨hsteps, hcloses⟩ := (execute_eq_ok.mp h).steps
  have hpaid := reflTransGen_keeps (fun b => titanAt b key = titanAt bank key)
    (fun a b hstep ha => (hstep.titanAt_eq hvenue hrt key).trans ha) hsteps rfl
  refine reflTransGen_keeps (fun b => titanAt b key = titanAt bank key) ?_ hcloses hpaid
  intro a b hstep ha
  cases hstep with
  | closes index index_lt empty program call => exact (tokenClose_titanAt call key).trans ha

theorem Initializes.titanAt_self {payer titanPda : AccountInfo} {bump : UInt8}
    (h : Initializes rt derive payer titanPda bump bank bank') :
    titanAt bank titanPda.key = none ∧ titanAt bank' titanPda.key = some ⟨bump⟩ := by
  constructor
  · apply titanAt_eq_none_of_owner
    rw [h.owner_eq]
    exact programId_ne_systemProgramId.symm
  · rw [titanAt_eq_some, h.result, withInitAccount_account]
    exact ⟨rfl, getField_self (TitanPda.length_serialize _)⟩

theorem Initializes.sameContents {payer titanPda : AccountInfo} {bump : UInt8}
    (h : Initializes rt derive payer titanPda bump bank bank') (hkey : key ≠ titanPda.key) :
    SameContents (bank key) (bank' key) := by
  rw [h.result]
  unfold withInitAccount
  rw [Function.update_of_ne hkey]
  by_cases hpayer : key = payer.key
  · subst hpayer
    rw [Function.update_self]
    exact ⟨rfl, rfl⟩
  · rw [Function.update_of_ne hpayer]
    exact .refl _

/-! ## One state account -/

section Histories

variable {venues : VenueProgram → Prop} {others : Bank → Bank → Prop}
  (hvenues : ∀ venue, venues venue → LawfulVenue venue)
  (hothers : ∀ bank bank', others bank bank' → ForeignEffect derive bank bank')
  (hrt : NotReentered rt)

include hvenues hothers hrt

/-- The state at an address changes once, when it is created at the canonical address. -/
theorem Happens.titanAt_cases (h : Happens rt derive venues others bank bank') (key : Pubkey) :
    titanAt bank' key = titanAt bank key ∨ (titanAt bank key = none ∧
      ∃ bump, findProgramAddress derive [TitanPda.seed] programId = some (key, bump) ∧
        titanAt bank' key = some ⟨bump⟩) := by
  cases h with
  | calls infos data venue lawful length_le unsigned accepted =>
      cases dispatch_cases accepted with
      | initializes payer titanPda bump spec =>
          by_cases hkey : key = titanPda.key
          · subst hkey
            exact .inr ⟨spec.titanAt_self.1, bump, spec.found, spec.titanAt_self.2⟩
          · exact .inl (FieldsKept.titanAt_eq (spec.sameContents hkey).fieldsKept)
      | routes amount mints swaps named remaining state run infos_eq accepted runs result =>
          rw [result]
          exact .inl (execute_titanAt runs (hvenues venue lawful) hrt key)
  | elsewhere lawful => exact .inl ((hothers _ _ lawful).toKeepsOwned.titanAt_eq key)

/-- A state once there stays. -/
theorem titanAt_kept {state : TitanPda} (h : History rt derive venues others bank bank')
    (hstate : titanAt bank key = some state) : titanAt bank' key = some state := by
  refine reflTransGen_keeps (fun b => titanAt b key = some state) ?_ h hstate
  intro a b hstep ha
  rcases hstep.titanAt_cases hvenues hothers hrt key with hsame | ⟨hnone, _⟩
  · exact hsame.trans ha
  · rw [hnone] at ha
    cases ha

/-- From a chain without any state, only the canonical address ever gets one. -/
theorem titanAt_canonical {start : Bank} (hstart : ∀ key, titanAt start key = none)
    (h : History rt derive venues others start bank) {state : TitanPda}
    (hstate : titanAt bank key = some state) :
    findProgramAddress derive [TitanPda.seed] programId = some (key, state.bump) := by
  induction h generalizing key state with
  | refl =>
      rw [hstart key] at hstate
      cases hstate
  | tail _ hlast ih =>
      rcases hlast.titanAt_cases hvenues hothers hrt key with hsame | ⟨_, bump, hfound, hcreated⟩
      · exact ih (hsame ▸ hstate)
      · rw [hcreated] at hstate
        obtain rfl := Option.some.inj hstate
        exact hfound

/-- TitanPDA is unique and permanent: from a chain without it, a state account found after any
history is at the canonical address with the canonical bump, stays there unchanged, is the only
one every later route can name, and is never created again. -/
theorem history_titanPda {start : Bank} (hstart : ∀ key, titanAt start key = none)
    (h : History rt derive venues others start bank) {state : TitanPda}
    (hstate : titanAt bank key = some state) :
    findProgramAddress derive [TitanPda.seed] programId = some (key, state.bump) ∧
      ∀ later, History rt derive venues others bank later →
        titanAt later key = some state ∧
        (∀ infos ctx, SwapRouteV3.tryAccounts derive infos later = .ok ctx →
          ctx.accounts.titanPda = key) ∧
        ∀ infos created, runInitialize rt derive infos later ≠ .ok created := by
  have hfound := titanAt_canonical hvenues hothers hrt hstart h hstate
  refine ⟨hfound, fun later hlater => ?_⟩
  have hkept := titanAt_kept hvenues hothers hrt hlater hstate
  refine ⟨hkept, fun infos ctx hctx => ?_, fun infos created hcreated => ?_⟩
  · obtain ⟨named, _, hnamed, other, haccepted⟩ := SwapRouteV3.tryAccounts_eq_ok.mp hctx
    have hother := titanAt_canonical hvenues hothers hrt hstart (h.trans hlater)
      haccepted.state_eq
    rw [hfound] at hother
    rw [hnamed]
    exact (Prod.mk.inj (Option.some.inj hother)).1.symm
  · obtain ⟨payer, titanPda, _, _, bump, _, _, hspec⟩ := runInitialize_eq_ok.mp hcreated
    have hagain := hspec.found
    rw [hfound] at hagain
    have hkey := (Prod.mk.inj (Option.some.inj hagain)).1
    rw [hkey, hspec.titanAt_self.1] at hkept
    cases hkept

/-! ## Nobody can keep it from being created -/

/-- The canonical address holds nothing but lamports, until it holds the state. -/
theorem unused_or_opened {start : Bank} {address : Pubkey} {bump : UInt8}
    (hstart : ∀ key, titanAt start key = none)
    (hunused : (start address).data = [] ∧ (start address).owner = systemProgramId)
    (hfound : findProgramAddress derive [TitanPda.seed] programId = some (address, bump))
    (h : History rt derive venues others start bank) :
    ((bank address).data = [] ∧ (bank address).owner = systemProgramId) ∨
      titanAt bank address = some ⟨bump⟩ := by
  induction h with
  | refl => exact .inl hunused
  | @tail before after hbefore hlast ih =>
      rcases ih with ⟨hdata, howner⟩ | hstate
      · cases hlast with
        | calls infos data venue lawful length_le unsigned accepted =>
            cases dispatch_cases accepted with
            | initializes payer titanPda bump' spec =>
                have hsame := spec.found
                rw [hfound] at hsame
                obtain ⟨rfl, rfl⟩ := Prod.mk.inj (Option.some.inj hsame)
                exact .inr spec.titanAt_self.2
            | routes amount mints swaps named remaining state run infos_eq accepted runs result =>
                -- a route needs the state account, and there is none yet
                have hsame := titanAt_canonical hvenues hothers hrt hstart hbefore
                  accepted.state_eq
                rw [hfound] at hsame
                have howned := (titanAt_eq_some.mp accepted.state_eq).1
                rw [← (Prod.mk.inj (Option.some.inj hsame)).1, howner] at howned
                exact absurd howned.symm programId_ne_systemProgramId
        | elsewhere lawful =>
            have hsame := (hothers _ _ lawful).unused address _
              (findProgramAddress_derives hfound) howner hdata
            exact .inl ⟨hsame.data_eq.trans hdata, hsame.owner_eq.trans howner⟩
      · exact .inr (titanAt_kept hvenues hothers hrt (.single hlast) hstate)

/-- As long as TitanPDA does not exist, whoever can make up its rent creates it rent-exempt,
whatever lamports others sent to its address; from then on every signed route can name it. -/
theorem history_opens {start : Bank} {address : Pubkey} {bump : UInt8}
    (hstart : ∀ key, titanAt start key = none)
    (hunused : (start address).data = [] ∧ (start address).owner = systemProgramId)
    (hfound : findProgramAddress derive [TitanPda.seed] programId = some (address, bump))
    (h : History rt derive venues others start bank) (hmissing : titanAt bank address = none)
    {payer : Pubkey} (hne : payer ≠ address) (hpays : CanPayRent rt payer address 9 bank)
    (isSigner : Bool) {system : AccountInfo} (hsystem : system.key = systemProgramId)
    (rest : List AccountInfo) :
    ∃ created, runInitialize rt derive
        (⟨payer, true, true⟩ :: ⟨address, isSigner, true⟩ :: system :: rest) bank = .ok created ∧
      rt.minimumBalance (created address).data.length ≤ (created address).lamports ∧
      ∀ later, History rt derive venues others created later →
        ∀ (named : RouteInfos) (remaining : List AccountInfo), named.Signed →
          named.titanPda.key = address →
          SwapRouteV3.tryAccounts derive (named.toList ++ remaining) later =
            .ok (named.context remaining) := by
  have hfresh := (unused_or_opened hvenues hothers hrt hstart hunused hfound h).resolve_right
    (by rw [hmissing]; simp)
  have hspec : Initializes rt derive ⟨payer, true, true⟩ ⟨address, isSigner, true⟩ bump bank
      (withInitAccount rt payer address (TitanPda.serialize ⟨bump⟩) bank) :=
    ⟨rfl, hfound, hne, hfresh.1, hfresh.2, hpays, rfl, rfl, rfl⟩
  refine ⟨_, runInitialize_eq_ok.mpr ⟨_, _, system, rest, bump, rfl, hsystem, hspec⟩,
    minimumBalance_le_withInitAccount, fun later hlater named remaining hsigned htitanPda => ?_⟩
  have hstate := titanAt_kept hvenues hothers hrt hlater hspec.titanAt_self.2
  refine SwapRouteV3.tryAccounts_eq_ok.mpr ⟨named, rfl, rfl, ⟨bump⟩, hsigned, ?_, ?_⟩
  · rw [htitanPda]
    exact hstate
  · rw [htitanPda]
    exact findProgramAddress_derives hfound

end Histories

namespace Sample

/-- One address can be derived, at the second bump tried. -/
def canonical : Derivation := fun seeds program =>
  if seeds = [TitanPda.seed, [254]] ∧ program = programId then some titanPda else none

def openingInfos : List AccountInfo :=
  [⟨payer, true, true⟩, ⟨titanPda, false, true⟩, info systemProgramId]

theorem canonical_eq_some {seeds : List Bytes} {address : Pubkey}
    (h : canonical seeds programId = some address) : address = titanPda := by
  unfold canonical at h
  split at h
  · exact (Option.some.inj h).symm
  · cases h

theorem findProgramAddress_canonical :
    findProgramAddress canonical [TitanPda.seed] programId = some (titanPda, 254) := by
  decide +kernel

theorem runtime_notReentered : NotReentered runtime := by
  intro wallet mint state hfield
  cases hfield

theorem bank_titanAt (key : Pubkey) : titanAt Sample.bank key = none := by
  apply titanAt_eq_none_of_owner
  refine bank_forall (P := fun account => account.owner ≠ programId) ?_ ?_ ?_ ?_ key
  · exact programId_ne_systemProgramId.symm
  · exact programId_ne_splTokenId.symm
  · exact fun _ _ _ => programId_ne_splTokenId.symm
  · exact programId_ne_systemProgramId.symm

theorem idle_lawful : LawfulVenue idle := by
  intro _ _ _ before out hout
  obtain rfl := idle_bank hout
  exact ⟨fun _ _ => .refl _, fun _ howner howner' => absurd howner' howner⟩

theorem openingInfos_unsigned : ∀ info ∈ openingInfos, info.isSigner = true →
    ∀ seeds, canonical seeds programId ≠ some info.key := by
  intro info hinfo hsigner seeds hseeds
  have hkey := canonical_eq_some hseeds
  simp only [openingInfos, List.mem_cons, List.not_mem_nil, or_false] at hinfo
  rcases hinfo with rfl | rfl | rfl
  · exact absurd hkey (by decide)
  · cases hsigner
  · cases hsigner

theorem dispatch_opens : ∃ opened,
    dispatch runtime canonical idle openingInfos initializeDiscriminator Sample.bank =
      .ok opened ∧ titanAt opened titanPda = some ⟨254⟩ :=
  exists_of_toOption_map (by decide +kernel)

theorem history_titanPda_sample :
    ∃ opened, titanAt opened titanPda = some ⟨254⟩ ∧
      findProgramAddress canonical [TitanPda.seed] programId = some (titanPda, 254) ∧
      ∀ later, History runtime canonical LawfulVenue (ForeignEffect canonical) opened later →
        titanAt later titanPda = some ⟨254⟩ ∧
        (∀ infos ctx, SwapRouteV3.tryAccounts canonical infos later = .ok ctx →
          ctx.accounts.titanPda = titanPda) ∧
        ∀ infos created, runInitialize runtime canonical infos later ≠ .ok created := by
  obtain ⟨opened, hopened, hstate⟩ := dispatch_opens
  have hhistory :
      History runtime canonical LawfulVenue (ForeignEffect canonical) Sample.bank opened :=
    .single (.calls openingInfos initializeDiscriminator idle idle_lawful (by decide)
      openingInfos_unsigned hopened)
  exact ⟨opened, hstate, history_titanPda (fun _ h => h) (fun _ _ h => h) runtime_notReentered
    bank_titanAt hhistory hstate⟩

/-- TitanPDA's address, funded by somebody else before it is opened. -/
def prefunded : Bank := Function.update Sample.bank titanPda ⟨50, [], systemProgramId⟩

theorem bank_titanPda : Sample.bank titanPda = .absent := by decide +kernel

/-- Funding an address is within the rules for others. -/
theorem foreignEffect_prefunded : ForeignEffect canonical Sample.bank prefunded := by
  have hsame (key : Pubkey) : SameContents (Sample.bank key) (prefunded key) := by
    by_cases hkey : key = titanPda
    · rw [hkey, bank_titanPda, prefunded, Function.update_self]
      exact ⟨rfl, rfl⟩
    · rw [prefunded, Function.update_of_ne hkey]
      exact .refl _
  refine ⟨⟨fun key _ => hsame key, fun key howner howner' => ?_⟩, fun key _ _ _ _ => hsame key⟩
  rw [(hsame key).owner_eq] at howner'
  exact absurd howner' howner

theorem prefunded_titanAt : titanAt prefunded titanPda = none := by
  apply titanAt_eq_none_of_owner
  rw [prefunded, Function.update_self]
  exact programId_ne_systemProgramId.symm

theorem history_opens_sample :
    History runtime canonical LawfulVenue (ForeignEffect canonical) Sample.bank prefunded ∧
    ∃ created, runInitialize runtime canonical openingInfos prefunded = .ok created ∧
      runtime.minimumBalance (created titanPda).data.length ≤ (created titanPda).lamports ∧
      ∀ later, History runtime canonical LawfulVenue (ForeignEffect canonical) created later →
        ∀ (named : RouteInfos) (remaining : List AccountInfo), named.Signed →
          named.titanPda.key = titanPda →
          SwapRouteV3.tryAccounts canonical (named.toList ++ remaining) later =
            .ok (named.context remaining) := by
  have hhistory : History runtime canonical LawfulVenue (ForeignEffect canonical) Sample.bank
      prefunded := .single (.elsewhere foreignEffect_prefunded)
  have hunused : (Sample.bank titanPda).data = [] ∧
      (Sample.bank titanPda).owner = systemProgramId := by
    rw [bank_titanPda]
    exact ⟨rfl, rfl⟩
  exact ⟨hhistory, history_opens (fun _ h => h) (fun _ _ h => h) runtime_notReentered bank_titanAt
    hunused findProgramAddress_canonical hhistory prefunded_titanAt (by decide)
    (by unfold CanPayRent; decide +kernel) false rfl []⟩

end Sample

end QuayTitan.Route
