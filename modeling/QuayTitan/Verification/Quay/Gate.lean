import QuayTitan.Verification.Quay.Refresh
import QuayTitan.Model.Quay.Quote

/-! # The snapshot gate

A venue reports itself initialized only on the strength of one answer: the last one a
refresh accepted. -/

namespace QuayTitan.Quay

open Attempts Fallible ByteFields

variable {sdk : Sdk} {cache : AccountsCache} {venue venue' : QuayVenue}

/-! ## Construction -/

/-- The venue of a strategy account that no update has reached yet. -/
def unrefreshed (sdk : Sdk) (pubkey : Pubkey) (account : Account) (strategy : StrategyHeader)
    (extKeys : List Pubkey) : QuayVenue where
  programId := account.owner
  strategyKey := pubkey
  strategyData := account.data
  mmKey := sdk.marketMakerPda account.owner strategy.owner
  mmData := []
  quotesKey := strategy.quotesAccount
  quotesData := []
  globalConfigKey := sdk.globalConfigPda account.owner
  globalConfigData := []
  baseMint := strategy.baseMint
  quoteMint := strategy.quoteMint
  vaultBaseKey := sdk.vaultPda account.owner
    (sdk.marketMakerPda account.owner strategy.owner) strategy.baseMint
  vaultQuoteKey := sdk.vaultPda account.owner
    (sdk.marketMakerPda account.owner strategy.owner) strategy.quoteMint
  extKeys := extKeys
  extData := []
  tokens := []
  routingFlags := strategy.routingFlags
  cfgSwapHalted := 1
  cfgProtocolHalted := 1
  strategyFrozen := 1
  strategyFrozenAdmin := 1
  mmFrozen := 1
  mmFrozenAdmin := 1
  mmHaltedAdmin := 1
  priceProbeBase := strategy.priceProbeBase
  priceProbeQuote := strategy.priceProbeQuote
  currentSlot := 0
  currentUnixSec := 0

/-- What a freshly constructed venue took from its strategy account. -/
structure Constructed (sdk : Sdk) (pubkey : Pubkey) (account : Account)
    (strategy : StrategyHeader) (venue : QuayVenue) : Prop where
  decoded : sdk.strategyTryFromAccount account.data = .ok strategy
  binding : sdk.extAccountKeys strategy account.data = .ok venue.extKeys
  venue_eq : venue = unrefreshed sdk pubkey account strategy venue.extKeys

theorem fromAccount_ok_iff {pubkey : Pubkey} {account : Account} :
    QuayVenue.fromAccount sdk pubkey account = .ok venue ↔
      ∃ strategy, Constructed sdk pubkey account strategy venue := by
  simp only [QuayVenue.fromAccount, bind_eq_ok, decode_eq_ok, pure_eq_ok]
  constructor
  · rintro ⟨strategy, hstrategy, extKeys, hext, rfl⟩
    exact ⟨strategy, hstrategy, hext, rfl⟩
  · rintro ⟨strategy, h⟩
    exact ⟨strategy, h.decoded, venue.extKeys, h.binding, h.venue_eq.symm⟩

theorem Constructed.not_initialized {pubkey : Pubkey} {account : Account}
    {strategy : StrategyHeader} (h : Constructed sdk pubkey account strategy venue) :
    venue.initialized sdk = false := by
  rw [h.venue_eq]
  simp [unrefreshed, QuayVenue.initialized, QuayVenue.haltsClear]

/-! ## The external accounts -/

/-- Collected data covers all keys only when every account was there. -/
theorem collectExtData_spec {accounts : List (Option Account)} {keys : List Pubkey} {i : ℕ}
    {extData : List Bytes} :
    (collectExtData accounts keys i extData = [] ∧ ∃ j < keys.length,
      accounts[9 + (i + j)]?.join = none) ∨
    ((collectExtData accounts keys i extData).length = extData.length + keys.length ∧
      (∀ j < extData.length, (collectExtData accounts keys i extData)[j]? = extData[j]?) ∧
      ∀ j < keys.length, ∃ acc, accounts[9 + (i + j)]? = some (some acc) ∧
        (collectExtData accounts keys i extData)[extData.length + j]? = some acc.data) := by
  induction keys generalizing i extData with
  | nil => exact .inr ⟨rfl, fun _ _ => rfl, fun j hj => absurd hj (Nat.not_lt_zero j)⟩
  | cons key keys ih =>
      simp only [collectExtData]
      cases hget : accounts[9 + i]?.join with
      | none => exact .inl ⟨rfl, 0, Nat.succ_pos _, hget⟩
      | some acc =>
          simp only
          rcases @ih (i + 1) (extData ++ [acc.data]) with
            ⟨hnil, j, hj, hmissing⟩ | ⟨hlength, hkept, hall⟩
          · refine .inl ⟨hnil, j + 1, Nat.succ_lt_succ hj, ?_⟩
            rw [show i + (j + 1) = i + 1 + j by omega]
            exact hmissing
          · rw [List.length_append, List.length_singleton] at hlength hkept hall
            refine .inr ⟨?_, fun j hj => ?_, fun j hj => ?_⟩
            · rw [hlength, List.length_cons]
              omega
            · rw [hkept j (by omega), List.getElem?_append_left hj]
            · cases j with
              | zero =>
                  refine ⟨acc, Option.join_eq_some_iff.mp hget, ?_⟩
                  rw [Nat.add_zero]
                  exact (hkept _ (Nat.lt_succ_self _)).trans (by simp)
              | succ j =>
                  obtain ⟨other, hother, hdata⟩ := hall j (Nat.lt_of_succ_lt_succ hj)
                  refine ⟨other, ?_, ?_⟩
                  · rw [show i + (j + 1) = i + 1 + j by omega]
                    exact hother
                  · rw [show extData.length + (j + 1) = extData.length + 1 + j by omega]
                    exact hdata

/-- Data that covers a binding is that of the bound accounts, fetched under the same
binding. -/
theorem freshExtData_spec {accounts : List (Option Account)} {extKeys freshExtKeys : List Pubkey}
    (hlength : (freshExtData accounts extKeys freshExtKeys).length = freshExtKeys.length)
    {i : ℕ} {key : Pubkey} (hkey : freshExtKeys[i]? = some key) :
    extKeys[i]? = some key ∧ ∃ acc, accounts[9 + i]? = some (some acc) ∧
      (freshExtData accounts extKeys freshExtKeys)[i]? = some acc.data := by
  have hi : i < freshExtKeys.length := (List.getElem?_eq_some_iff.mp hkey).1
  have hne : freshExtData accounts extKeys freshExtKeys ≠ [] := by
    intro hnil
    rw [hnil, List.length_nil] at hlength
    omega
  unfold freshExtData at hne ⊢
  split at hne
  · rename_i hsame
    simp only at hne
    split at hne
    · exact absurd rfl hne
    · rename_i hcovers
      rw [if_pos hsame]
      simp only
      rw [if_neg hcovers]
      refine ⟨hsame ▸ hkey, ?_⟩
      rcases collectExtData_spec with ⟨hnil, _⟩ | ⟨_, _, hall⟩
      · exact absurd hnil hne
      · simpa using hall i hi
  · exact absurd rfl hne

/-! ## One answer -/

/-- The entry an answer gives for a requested address. -/
structure Entry (requested : List Pubkey) (accounts : List (Option Account)) (slot : ℕ)
    (key : Pubkey) (account : Account) : Prop where
  requested : requested[slot]? = some key
  answered : accounts[slot]? = some (some account)

/-- What the simulator is given comes from the answer `accounts` to the request
`requested`: every account under its own address, the external ones in the order of the
binding held in the strategy data. -/
structure SimulatesAnswer (sdk : Sdk) (requested : List Pubkey)
    (accounts : List (Option Account)) (strategy : StrategyHeader) (venue : QuayVenue)
    (inputs : SwapSimulationInputs) : Prop where
  strategyData : ∃ account, Entry requested accounts 0 venue.strategyKey account ∧
    inputs.strategyData = account.data
  marketMakerData : ∃ account, Entry requested accounts 1 venue.mmKey account ∧
    inputs.marketMakerData = account.data
  quotesData : ∃ account, Entry requested accounts 2 venue.quotesKey account ∧
    inputs.quotesData = account.data
  globalConfigData : ∃ account, Entry requested accounts 3 venue.globalConfigKey account ∧
    inputs.globalConfigData = account.data
  clock : ∃ account, Entry requested accounts 8 sysvarClockId account ∧
    decodeClock account.data = some (inputs.currentSlot, inputs.currentUnixSec)
  binding : sdk.extAccountKeys strategy inputs.strategyData = .ok venue.extKeys
  extKeys : inputs.extAccounts.map ExtAccount.key = venue.extKeys
  extAccounts : ∀ i ext, inputs.extAccounts[i]? = some ext →
    ∃ account, Entry requested accounts (9 + i) ext.key account ∧ ext.data = account.data

/-- An answer that opens the venue: its strategy is routed through Titan, none of its
halt and freeze bytes is set, and the simulator reads it and nothing else. -/
structure OpenAnswer (sdk : Sdk) (requested : List Pubkey) (accounts : List (Option Account))
    (venue : QuayVenue) (strategy : StrategyHeader) (mm : MarketMakerHeader)
    (cfg : GlobalConfig) : Prop where
  strategy_decoded : ∃ account, accounts[0]? = some (some account) ∧
    sdk.strategyTryFromAccount account.data = .ok strategy
  mm_decoded : ∃ account, accounts[1]? = some (some account) ∧
    sdk.marketMakerTryFromAccount account.data = .ok mm
  cfg_decoded : ∃ account, accounts[3]? = some (some account) ∧
    sdk.globalConfigTryFromAccount account.data = .ok cfg
  routed : strategy.routingFlags &&& sdk.routeTitan ≠ 0
  strategy_running : strategy.frozen = 0 ∧ strategy.frozenAdmin = 0
  mm_running : mm.frozen = 0 ∧ mm.frozenAdmin = 0 ∧ mm.haltedAdmin = 0
  cfg_running : cfg.swapHalted = 0 ∧ cfg.protocolHalted = 0
  simulates : ∀ side baseDecimals quoteDecimals amountIn,
    SimulatesAnswer sdk requested accounts strategy venue
      (venue.simulationInputs side baseDecimals quoteDecimals amountIn)

theorem initialized_iff : venue.initialized sdk = true ↔
    venue.routingFlags &&& sdk.routeTitan ≠ 0 ∧
    (venue.extData.length = venue.extKeys.length ∧ venue.mmData ≠ [] ∧
      venue.quotesData ≠ [] ∧ venue.globalConfigData ≠ []) ∧
    venue.cfgSwapHalted = 0 ∧ venue.cfgProtocolHalted = 0 ∧ venue.strategyFrozen = 0 ∧
      venue.strategyFrozenAdmin = 0 ∧ venue.mmFrozen = 0 ∧ venue.mmFrozenAdmin = 0 ∧
      venue.mmHaltedAdmin = 0 := by
  simp [QuayVenue.initialized, QuayVenue.hasAllState, QuayVenue.haltsClear, and_assoc]

/-- The binding never outgrows the buffer of the quote path. -/
def BindingFits (sdk : Sdk) : Prop :=
  ∀ strategy data keys, sdk.extAccountKeys strategy data = .ok keys → keys.length ≤ extBufLen

theorem extAccounts_eq (h : venue.extData.length = venue.extKeys.length)
    (hfits : venue.extKeys.length ≤ extBufLen) :
    venue.extAccounts = (venue.extKeys.zip venue.extData).map fun (key, data) => ⟨key, data⟩ := by
  rw [QuayVenue.extAccounts, List.take_of_length_le]
  rw [List.length_zip, h, Nat.min_self]
  exact hfits

/-- The answer that refreshed an initialized venue opens it. -/
theorem Answers.openAnswer {snap : Snapshot} (h : Answers sdk cache venue snap)
    (hfits : BindingFits sdk) (hinit : (snap.commit venue).initialized sdk = true) :
    OpenAnswer sdk venue.requiredUpdatePubkeys snap.accounts (snap.commit venue) snap.strategy
      snap.mm snap.cfg := by
  obtain ⟨hrouted, ⟨hcovers, _⟩, hswap, hprotocol, hfrozen, hfrozenAdmin, hmm, hmmAdmin,
    hmmHalted⟩ := initialized_iff.mp hinit
  obtain ⟨clockAccount, hclockAccount, hclock⟩ := h.clock
  have hext := extAccounts_eq hcovers (hfits _ _ _ h.freshExtKeys)
  refine ⟨⟨_, h.strategyAccount, h.strategy⟩, ⟨_, h.mmAccount, h.mm⟩, ⟨_, h.cfgAccount, h.cfg⟩,
    hrouted, ⟨hfrozen, hfrozenAdmin⟩, ⟨hmm, hmmAdmin, hmmHalted⟩, ⟨hswap, hprotocol⟩,
    fun side baseDecimals quoteDecimals amountIn => ?_⟩
  refine ⟨⟨_, ⟨rfl, h.strategyAccount⟩, rfl⟩, ⟨_, ⟨rfl, h.mmAccount⟩, rfl⟩,
    ⟨_, ⟨rfl, h.quotesAccount⟩, rfl⟩, ⟨_, ⟨rfl, h.cfgAccount⟩, rfl⟩,
    ⟨clockAccount, ⟨rfl, hclockAccount⟩, hclock⟩, h.freshExtKeys, ?_, fun i ext hget => ?_⟩
  · rw [QuayVenue.simulationInputs, hext, List.map_map]
    exact List.map_fst_zip hcovers.ge
  · rw [QuayVenue.simulationInputs, hext, List.getElem?_map, Option.map_eq_some_iff] at hget
    obtain ⟨⟨key, data⟩, hpair, rfl⟩ := hget
    rw [List.getElem?_zip_eq_some] at hpair
    obtain ⟨hbound, acc, hacc, hdata⟩ := freshExtData_spec hcovers hpair.1
    refine ⟨acc, ⟨?_, hacc⟩, Option.some.inj (hpair.2.symm.trans hdata)⟩
    rw [QuayVenue.requiredUpdatePubkeys, List.getElem?_append_right (by simp)]
    simpa using hbound

/-! ## Every run -/

/-- An initialized venue was opened by the last answer a refresh accepted. -/
theorem initialized_openAnswer {pubkey : Pubkey} {account : Account} (hfits : BindingFits sdk)
    (hfrom : QuayVenue.fromAccount sdk pubkey account = .ok venue)
    (caches : List AccountsCache)
    (hinit : (run (QuayVenue.updateState sdk) caches venue).initialized sdk = true) :
    ∃ before cache after,
      LastSuccess (QuayVenue.updateState sdk) caches venue before cache after ∧
      ∃ accounts strategy mm cfg,
        cache.getAccounts (run (QuayVenue.updateState sdk) before venue).requiredUpdatePubkeys =
          .ok accounts ∧
        OpenAnswer sdk (run (QuayVenue.updateState sdk) before venue).requiredUpdatePubkeys
          accounts (run (QuayVenue.updateState sdk) caches venue) strategy mm cfg := by
  obtain ⟨strategy, hconstructed⟩ := fromAccount_ok_iff.mp hfrom
  rcases run_cases (atomic_updateState sdk) caches venue with hstart | ⟨before, cache, after, hlast⟩
  · rw [hstart, hconstructed.not_initialized] at hinit
    cases hinit
  · obtain ⟨snap, hanswers, hcommit⟩ := updateState_ok_iff.mp hlast.succeeded
    refine ⟨before, cache, after, hlast, snap.accounts, snap.strategy, snap.mm, snap.cfg,
      hanswers.fetched, ?_⟩
    rw [hcommit] at hinit ⊢
    exact hanswers.openAnswer hfits hinit

/-! ## A sample venue -/

namespace Sample

def key (n : ℕ) : Pubkey := ⟨leBytes 32 n, length_leBytes 32 n⟩

/-- Outputs for one to six atoms. -/
def outputs : List UInt64 := [10, 15, 19, 22, 24, 25]

def rising (amountIn : UInt64) : Option UInt64 :=
  if amountIn = 0 then none else outputs[amountIn.toNat - 1]?

/-- Headers are byte lists: four addresses, the halt bytes, the flags and the probes, then
the external binding. -/
def sdkWith (simulated : UInt64 → Option UInt64) : Sdk where
  routeTitan := 1
  strategyTryFromAccount data :=
    match data with
    | owner :: base :: quote :: quotes :: frozen :: frozenAdmin :: flags :: probeBase ::
        probeQuote :: _ => .ok {
          owner := key owner.toNat
          baseMint := key base.toNat
          quoteMint := key quote.toNat
          quotesAccount := key quotes.toNat
          frozen, frozenAdmin
          routingFlags := flags
          priceProbeBase := probeBase.toUInt64
          priceProbeQuote := probeQuote.toUInt64 }
    | _ => .error "too short"
  extAccountKeys _ data := .ok (((data.drop 9).take 4).map fun byte => key byte.toNat)
  marketMakerTryFromAccount data :=
    match data with
    | [frozen, frozenAdmin, haltedAdmin] => .ok { frozen, frozenAdmin, haltedAdmin }
    | _ => .error "wrong length"
  globalConfigTryFromAccount data :=
    match data with
    | [swapHalted, protocolHalted] => .ok { swapHalted, protocolHalted }
    | _ => .error "wrong length"
  marketMakerPda _ owner := key (1000 + leNat owner.bytes)
  globalConfigPda _ := key 2000
  vaultPda _ _ mint := key (3000 + leNat mint.bytes)
  simulateSwapIn inputs :=
    match simulated inputs.amountIn with
    | some out => .ok ⟨out⟩
    | none => .error "refused"
  swapWithExt accounts _ _ _ := ⟨accounts.programId, [], []⟩
  unpackMint data :=
    match data with
    | [decimals] => some ⟨decimals, fun _ => none⟩
    | _ => none

theorem bindingFits (simulated : UInt64 → Option UInt64) : BindingFits (sdkWith simulated) := by
  intro strategy data keys h
  obtain rfl := Except.ok.inj h
  rw [List.length_map, List.length_take]
  exact min_le_left ..

def programId : Pubkey := key 1
def strategyKey : Pubkey := key 2

/-- Owner 3 trades mints 4 and 5 on the quotes account 6, with account 7 bound. -/
def strategyAccount : Account := ⟨1, [3, 4, 5, 6, 0, 0, 1, 2, 20, 7], programId⟩

def header : StrategyHeader where
  owner := key 3
  baseMint := key 4
  quoteMint := key 5
  quotesAccount := key 6
  frozen := 0
  frozenAdmin := 0
  routingFlags := 1
  priceProbeBase := 2
  priceProbeQuote := 20

def unread : QuayVenue :=
  unrefreshed (sdkWith rising) strategyKey strategyAccount header [key 7]

theorem fromAccount_ok (simulated : UInt64 → Option UInt64) :
    QuayVenue.fromAccount (sdkWith simulated) strategyKey strategyAccount = .ok unread := rfl

def stored (data : Bytes) : Account := ⟨1, data, programId⟩

/-- The chain, but for the strategy account. -/
def chainWith (strategy : Account) (address : Pubkey) : Option Account :=
  [(strategyKey, strategy), (key 1003, stored [0, 0, 0]), (key 6, stored [9]),
    (key 2000, stored [0, 0]), (key 4, ⟨1, [6], splTokenId⟩), (key 5, ⟨1, [9], splTokenId⟩),
    (key 3004, stored []), (key 3005, stored []), (sysvarClockId, stored (zeros 40)),
    (key 7, stored [1, 2])].lookup address

/-- A failed fetch, a good answer, and an answer of the wrong length. -/
def caches : List AccountsCache :=
  [⟨fun _ => .error .failedToAcquireReadLock⟩,
    ⟨fun keys => .ok (keys.map (chainWith strategyAccount))⟩, ⟨fun _ => .ok []⟩]

theorem initialized_openAnswer_sample :
    ∃ before cache after,
      LastSuccess (QuayVenue.updateState (sdkWith rising)) caches unread before cache after ∧
      ∃ accounts strategy mm cfg,
        cache.getAccounts (run (QuayVenue.updateState (sdkWith rising)) before
          unread).requiredUpdatePubkeys = .ok accounts ∧
        OpenAnswer (sdkWith rising)
          (run (QuayVenue.updateState (sdkWith rising)) before unread).requiredUpdatePubkeys
          accounts (run (QuayVenue.updateState (sdkWith rising)) caches unread) strategy mm cfg :=
  initialized_openAnswer (bindingFits rising) (fromAccount_ok rising) caches
    (by decide +kernel)

end Sample

end QuayTitan.Quay
