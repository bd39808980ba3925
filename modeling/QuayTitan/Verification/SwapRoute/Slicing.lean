import Mathlib.Data.List.Forall2
import QuayTitan.Verification.SwapRoute.Wire
import QuayTitan.Verification.Route.Legs
import QuayTitan.Verification.Route.Custody

/-! # Slicing the leg accounts

The builder and the program agree on where the accounts of a leg are only through
`n_accounts`, which counts the venue program at the end of the leg. -/

namespace QuayTitan.SwapRoute

open Fallible Route

/-! ## Built legs -/

/-- A leg the builder assembled from a venue's instruction. -/
structure BuiltLeg (titanPda : Pubkey) where
  swapIx : Instruction
  venueProgramId : Pubkey
  spec : SwapSpecInputV2
  accounts_le : swapIx.accounts.length ≤ 254
  nAccounts_eq : spec.nAccounts =
    UInt8.ofNat (assembleLegAccounts swapIx titanPda venueProgramId).length

section BuiltLegs

variable {titanPda : Pubkey}

def BuiltLeg.accounts (leg : BuiltLeg titanPda) : List AccountMeta :=
  assembleLegAccounts leg.swapIx titanPda leg.venueProgramId

/-- Every leg the builder returns is one. -/
theorem exists_builtLeg {venue : TradingVenue} {request : QuoteRequest} {index index' : UInt8}
    {weightNanos : UInt32} {spec : SwapSpecInputV2} {accounts : List AccountMeta}
    (h : buildSwapLeg venue request titanPda index index' weightNanos = .ok (spec, accounts))
    (hlength : accounts.length ≤ 255) :
    ∃ leg : BuiltLeg titanPda, leg.spec = spec ∧ leg.accounts = accounts ∧
      venue.generateSwapInstruction request titanPda = .ok leg.swapIx ∧
      leg.venueProgramId = venue.programId := by
  simp only [buildSwapLeg, bind_eq_ok, pure_eq_ok] at h
  obtain ⟨swapIx, hswapIx, legVenue, _, hpair⟩ := h
  obtain ⟨rfl, rfl⟩ := Prod.mk.inj hpair
  refine ⟨⟨swapIx, venue.programId, _, ?_, rfl⟩, rfl, rfl, hswapIx, rfl⟩
  simp only [assembleLegAccounts, List.length_append, List.length_map,
    List.length_singleton] at hlength
  omega

theorem BuiltLeg.length_accounts (leg : BuiltLeg titanPda) :
    leg.accounts.length = leg.swapIx.accounts.length + 1 := by
  simp [accounts, assembleLegAccounts]

theorem BuiltLeg.toNat_nAccounts (leg : BuiltLeg titanPda) :
    leg.spec.nAccounts.toNat = leg.accounts.length := by
  have hle := leg.accounts_le
  have hlength := leg.length_accounts
  rw [leg.nAccounts_eq, ← accounts, UInt8.toNat_ofNat', Nat.mod_eq_of_lt (by omega)]

end BuiltLegs

/-- The route of some legs, as the program decodes it. -/
def specs {titanPda : Pubkey} (legs : List (BuiltLeg titanPda)) : List Route.SwapSpecInputV2 :=
  legs.map fun leg => leg.spec.onChain

/-- The accounts of some legs, one leg after the other. -/
def legAccounts {titanPda : Pubkey} (legs : List (BuiltLeg titanPda)) : List AccountMeta :=
  legs.flatMap BuiltLeg.accounts

/-! ## The accounts of the instruction -/

/-- The runtime shows an account with the flags of all its occurrences in the
instruction. -/
def presented (instruction : List AccountMeta) (entry : AccountMeta) : AccountInfo where
  key := entry.pubkey
  isSigner := instruction.any fun other => other.pubkey = entry.pubkey && other.isSigner
  isWritable := instruction.any fun other => other.pubkey = entry.pubkey && other.isWritable

/-- After the accounts of the context, the instruction lists two accounts per mint and then
the accounts of the legs. -/
structure RouteLayout (ctx : Context) (mints : UInt8)
    (legs : List (BuiltLeg ctx.accounts.titanPda)) (named front : List AccountMeta) : Prop where
  length_front : front.length = 2 * mints.toNat
  remaining : ctx.remainingAccounts =
    (front ++ legAccounts legs).map (presented (named ++ front ++ legAccounts legs))

theorem presented_isSigner {instruction : List AccountMeta} {entry : AccountMeta}
    (h : entry ∈ instruction) (hsigner : entry.isSigner = true) :
    (presented instruction entry).isSigner = true :=
  List.any_eq_true.mpr ⟨entry, h, by simp [hsigner]⟩

theorem presented_isWritable {instruction : List AccountMeta} {entry : AccountMeta}
    (h : entry ∈ instruction) (hwritable : entry.isWritable = true) :
    (presented instruction entry).isWritable = true :=
  List.any_eq_true.mpr ⟨entry, h, by simp [hwritable]⟩

/-! ## The running index -/

/-- Whatever the legs do, the loop moves on by their numbers of accounts. -/
theorem runLegs_index {venue : VenueProgram} {ctx : Context} {reservedBalances : List ℕ}
    {titanPda : Pubkey} {legs : List (BuiltLeg titanPda)} {leg : ℕ} {st st' : LegState}
    (h : runLegs venue ctx reservedBalances (specs legs) leg st = .ok st') :
    st'.remainingAccountIndex = st.remainingAccountIndex + (legAccounts legs).length := by
  induction legs generalizing leg st with
  | nil =>
      rw [specs, List.map_nil, runLegs, pure_eq_ok] at h
      rw [← h]
      rfl
  | cons built rest ih =>
      simp only [specs, List.map_cons, runLegs, bind_eq_ok] at h
      obtain ⟨mid, hhead, htail⟩ := h
      obtain ⟨record, hspec⟩ := runLeg_spec hhead
      have hcount : built.spec.onChain.nAccounts.toNat = built.accounts.length :=
        built.toNat_nAccounts
      rw [ih htail, hspec.index_eq, hcount, legAccounts, legAccounts, List.flatMap_cons,
        List.length_append, Nat.add_assoc]

theorem runLegs_append {venue : VenueProgram} {ctx : Context} {reservedBalances : List ℕ}
    (swaps swaps' : List Route.SwapSpecInputV2) (leg : ℕ) (st : LegState) :
    runLegs venue ctx reservedBalances (swaps ++ swaps') leg st =
      runLegs venue ctx reservedBalances swaps leg st >>=
        runLegs venue ctx reservedBalances swaps' (leg + swaps.length) := by
  induction swaps generalizing leg st with
  | nil => rfl
  | cons swap rest ih =>
      simp only [List.cons_append, runLegs, bind_assoc, ih, List.length_cons]
      refine bind_congr fun mid => ?_
      rw [Nat.add_assoc, Nat.add_comm 1]

/-! ## The slice of a leg -/

/-- A meta that carries an account of the venue's instruction: its address, and at least its
flags. -/
structure Carries (account passed : AccountMeta) : Prop where
  pubkey_eq : passed.pubkey = account.pubkey
  signer : account.isSigner = true → passed.isSigner = true
  writable : account.isWritable = true → passed.isWritable = true

/-- A call for a leg: it is given the accounts of the leg, and metas for those of the
venue's instruction, with TitanPDA signing. -/
structure Sliced (ctx : Context) (leg : BuiltLeg ctx.accounts.titanPda)
    (instruction : List AccountMeta) (invocation : Invocation) : Prop where
  legAccounts_eq : invocation.legAccounts = leg.accounts.map (presented instruction)
  carries : List.Forall₂ Carries leg.swapIx.accounts invocation.accountMetas
  titan_signs : ∀ passed ∈ invocation.accountMetas,
    passed.pubkey = ctx.accounts.titanPda → passed.isSigner = true

theorem BuiltLeg.accounts_front {titanPda : Pubkey} (leg : BuiltLeg titanPda) :
    leg.accounts.take (leg.accounts.length - 1) = leg.swapIx.accounts.map (fun acc =>
      if acc.pubkey = titanPda then { acc with isSigner := false } else acc) := by
  rw [leg.length_accounts, BuiltLeg.accounts, assembleLegAccounts]
  exact List.take_left' (by simp)

/-- The meta of a presented account carries the account of the venue's instruction, TitanPDA
signing again. -/
theorem carries_presented {titanPda : Pubkey} {instruction : List AccountMeta}
    {account entry : AccountMeta} (h : entry ∈ instruction)
    (hentry : (if account.pubkey = titanPda then { account with isSigner := false }
      else account) = entry) :
    Carries account ⟨entry.pubkey,
      entry.pubkey = titanPda || (presented instruction entry).isSigner,
      (presented instruction entry).isWritable⟩ := by
  by_cases htitan : account.pubkey = titanPda
  · rw [if_pos htitan] at hentry
    subst hentry
    refine ⟨rfl, fun _ => by simp [htitan], fun hwritable => ?_⟩
    exact presented_isWritable h hwritable
  · rw [if_neg htitan] at hentry
    subst hentry
    exact ⟨rfl, fun hsigner => by simp [presented_isSigner h hsigner], presented_isWritable h⟩

theorem legInvocation_sliced {ctx : Context} {mints : UInt8}
    {earlier later : List (BuiltLeg ctx.accounts.titanPda)}
    {leg : BuiltLeg ctx.accounts.titanPda} {named front : List AccountMeta}
    (hlayout : RouteLayout ctx mints (earlier ++ leg :: later) named front) {index : ℕ}
    (hindex : index = 2 * mints.toNat + (legAccounts earlier).length) :
    index + leg.accounts.length ≤ ctx.remainingAccounts.length ∧
      Sliced ctx leg (named ++ front ++ legAccounts (earlier ++ leg :: later))
        (legInvocation ctx index leg.accounts.length) := by
  set instruction := named ++ front ++ legAccounts (earlier ++ leg :: later) with hinstruction
  have hsplit : front ++ legAccounts (earlier ++ leg :: later) =
      (front ++ legAccounts earlier) ++ (leg.accounts ++ legAccounts later) := by
    simp only [legAccounts, List.flatMap_append, List.flatMap_cons, List.append_assoc]
  have hlength : (front ++ legAccounts earlier).length = index := by
    rw [List.length_append, hlayout.length_front, hindex]
  have hslice : (ctx.remainingAccounts.drop index).take leg.accounts.length =
      leg.accounts.map (presented instruction) := by
    rw [hlayout.remaining, ← hinstruction, hsplit, ← List.map_drop, List.drop_left' hlength,
      ← List.map_take, List.take_left' rfl]
  have hmem : ∀ entry ∈ leg.accounts, entry ∈ instruction := by
    intro entry hentry
    rw [hinstruction, List.append_assoc, hsplit]
    simp [hentry]
  refine ⟨?_, hslice, ?_, ?_⟩
  · rw [hlayout.remaining, hsplit, List.length_map, List.length_append, hlength,
      List.length_append]
    omega
  · rw [legInvocation, hslice, ← List.map_take, leg.accounts_front, List.map_map, List.map_map,
      List.forall₂_map_right_iff, List.forall₂_same]
    intro acc hacc
    refine carries_presented (hmem _ ?_) rfl
    rw [BuiltLeg.accounts, assembleLegAccounts]
    exact List.mem_append_left _ (List.mem_map.mpr ⟨acc, hacc, rfl⟩)
  · intro passed hpassed htitan
    rw [legInvocation, hslice] at hpassed
    obtain ⟨info, _, rfl⟩ := List.mem_map.mp hpassed
    simp only at htitan ⊢
    simp [htitan]

/-! ## Every route -/

/-- Whatever earlier legs did, the program slices the accounts of every leg as the builder
assembled them, and reaches the end of the list after the last one. -/
theorem trade_slicesLegs (venue : VenueProgram) {ctx : Context} {mints : UInt8}
    {legs : List (BuiltLeg ctx.accounts.titanPda)} {named front : List AccountMeta}
    (hlayout : RouteLayout ctx mints legs named front) (prepared : Prepared) :
    (∀ earlier leg later, legs = earlier ++ leg :: later →
      ∀ st, prepared.trade venue ctx mints (specs earlier) = .ok st →
      st.remainingAccountIndex + leg.spec.nAccounts.toNat ≤ ctx.remainingAccounts.length ∧
      Sliced ctx leg (named ++ front ++ legAccounts legs)
        (legInvocation ctx st.remainingAccountIndex leg.spec.nAccounts.toNat) ∧
      ∀ st', prepared.trade venue ctx mints (specs (earlier ++ [leg])) = .ok st' →
        ∃ record, st'.legs = st.legs ++ [record] ∧ record.swap = leg.spec.onChain ∧
          (record.inputAmount = 0 ∧ record.invocation = none ∨ 0 < record.inputAmount ∧
            record.invocation = some
              (legInvocation ctx st.remainingAccountIndex leg.spec.nAccounts.toNat))) ∧
    ∀ traded, prepared.trade venue ctx mints (specs legs) = .ok traded →
      traded.remainingAccountIndex = ctx.remainingAccounts.length := by
  constructor
  · rintro earlier leg later rfl st htrade
    have hindex := runLegs_index htrade
    obtain ⟨hrange, hsliced⟩ := legInvocation_sliced hlayout hindex
    rw [leg.toNat_nAccounts]
    refine ⟨hrange, hsliced, fun st' htrade' => ?_⟩
    have hsteps : specs (earlier ++ [leg]) = specs earlier ++ [leg.spec.onChain] := by
      rw [specs, List.map_append, List.map_singleton, specs]
    rw [Prepared.trade, hsteps, runLegs_append] at htrade'
    obtain ⟨mid, hmid, hlast⟩ := bind_eq_ok.mp htrade'
    obtain rfl := Except.ok.inj (htrade.symm.trans hmid)
    simp only [runLegs, bind_pure] at hlast
    obtain ⟨record, hspec⟩ := runLeg_spec hlast
    refine ⟨record, hspec.legs_eq, hspec.swap_eq, ?_⟩
    rcases hspec.outcome with ⟨hzero, hnone, _⟩ | ⟨hpos, invocation, hsome, hslice, _⟩
    · exact .inl ⟨hzero, hnone⟩
    · refine .inr ⟨hpos, ?_⟩
      rw [hsome, hslice, ← leg.toNat_nAccounts]
      rfl
  · intro traded htrade
    have hindex := runLegs_index htrade
    rw [hindex, hlayout.remaining, List.length_map, List.length_append, hlayout.length_front]

/-! ## A route of two legs -/

namespace Sample

open Route.Sample

/-- A swap signed by TitanPDA that names one of its accounts twice. -/
def swapIx : Instruction :=
  ⟨Route.Quay.programId, [⟨titanPda, true, false⟩, ⟨baseAta, false, true⟩,
    ⟨quoteAta, false, true⟩, ⟨quoteAta, false, false⟩], []⟩

def there : BuiltLeg titanPda where
  swapIx := swapIx
  venueProgramId := Route.Quay.programId
  spec := ⟨.quay true, 0, 1, routeWeightAll, 5⟩
  accounts_le := by decide
  nAccounts_eq := by decide

def back : BuiltLeg titanPda where
  swapIx := swapIx
  venueProgramId := Route.Quay.programId
  spec := ⟨.quay false, 1, 0, 0, 5⟩
  accounts_le := by decide
  nAccounts_eq := by decide

def named : List AccountMeta := [⟨payer, true, true⟩, ⟨user, true, true⟩, ⟨titanPda, false, false⟩]

def front : List AccountMeta :=
  [⟨baseAta, false, true⟩, ⟨quoteAta, false, true⟩, ⟨baseMint, false, false⟩,
    ⟨quoteMint, false, false⟩]

def twoLegs : Context where
  accounts := accounts
  remainingAccounts := (front ++ legAccounts [there, back]).map
    (presented (named ++ front ++ legAccounts [there, back]))

/-- The user deposited 500 over the 30 TitanPDA held. -/
def prepared : Prepared where
  outputAtaIndex := 1
  outputMint := quoteMint
  outputDecimals := 6
  opened := ⟨bank, 0⟩
  snapshot := ⟨.new, [30, 40], [30, 40]⟩
  ledgerAmount := none
  effectiveAmount := 500
  deposited := bankWith (holding baseMint titanPda 530) (holding quoteMint titanPda 40)

def idle : VenueProgram := fun _ _ _ bank => .ok bank

theorem trade_slicesLegs_sample :
    ∃ st, prepared.trade idle twoLegs 2 (specs [there]) = .ok st ∧
      Sliced twoLegs back (named ++ front ++ legAccounts [there, back])
        (legInvocation twoLegs st.remainingAccountIndex 5) := by
  obtain ⟨st, hst⟩ : ∃ st, prepared.trade idle twoLegs 2 (specs [there]) = .ok st :=
    exists_of_isOk (by decide +kernel)
  have hslices :=
    @trade_slicesLegs idle twoLegs 2 [there, back] named front ⟨rfl, rfl⟩ prepared
  exact ⟨st, hst, (hslices.1 [there] back [] rfl st hst).2.1⟩

end Sample

end QuayTitan.SwapRoute
