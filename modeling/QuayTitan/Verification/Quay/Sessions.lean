import Mathlib.Logic.Relation
import Mathlib.Tactic.IntervalCases
import QuayTitan.Model.Quay.Session
import QuayTitan.Verification.AccountCaching.Epochs
import QuayTitan.Verification.Quay.History

/-! # Venues that share a cache

Between two resets of the cache all venues read one snapshot of the chain, and a venue that reads
it once is settled. -/

namespace QuayTitan.Quay

open AccountCaching Attempts Fallible Relation

variable {sdk : Sdk} {rpc : RpcClient} {venue venue' : QuayVenue} {cache cache' : RpcClientCache}
  {chain later : Pubkey → Option Account}

/-! ## One update -/

/-- An update reads its accounts cache only at the keys it requires. -/
theorem updateState_congr {accounts accounts' : AccountsCache}
    (h : accounts.getAccounts venue.requiredUpdatePubkeys =
      accounts'.getAccounts venue.requiredUpdatePubkeys) :
    QuayVenue.updateState sdk accounts venue = QuayVenue.updateState sdk accounts' venue := by
  unfold QuayVenue.updateState QuayVenue.refreshState
  rw [get_bind, get_bind, h]

/-- What an update through the cache does. -/
inductive CachedUpdate (sdk : Sdk) (rpc : RpcClient) (venue : QuayVenue) (cache : RpcClientCache) :
    Prop
  | answered (after : RpcClientCache) (items : List (Option Account))
      (lookup : getAccounts rpc venue.requiredUpdatePubkeys cache = .ok items after)
      (result : venue.updateThrough sdk rpc cache =
        settle after (QuayVenue.updateState sdk (.ofChain after.held) venue))
  | failed (after : RpcClientCache) (e : AccountCacheError)
      (lookup : getAccounts rpc venue.requiredUpdatePubkeys cache = .error (.returned e) after)
      (result : venue.updateThrough sdk rpc cache =
        .error (.returned (.accountCacheError e)) (venue, after))
  | panicked (after : RpcClientCache)
      (lookup : getAccounts rpc venue.requiredUpdatePubkeys cache = .error .panicked after)
      (result : venue.updateThrough sdk rpc cache = .error .panicked (venue, after))

/-- An update through the cache is an update against what the cache holds afterwards. -/
theorem updateThrough_cases (sdk : Sdk) (rpc : RpcClient) (venue : QuayVenue)
    (cache : RpcClientCache) : CachedUpdate sdk rpc venue cache := by
  cases hlookup : getAccounts rpc venue.requiredUpdatePubkeys cache with
  | ok items after =>
      have hsame : QuayVenue.updateState sdk ⟨fun _ => .ok items⟩ venue =
          QuayVenue.updateState sdk (.ofChain after.held) venue :=
        updateState_congr (congrArg Except.ok (getAccounts_items hlookup))
      refine .answered after items hlookup ?_
      unfold QuayVenue.updateThrough
      rw [hlookup, ← hsame]
  | error stop after =>
      cases stop with
      | returned e =>
          refine .failed after e hlookup ?_
          unfold QuayVenue.updateThrough
          rw [hlookup]
          rfl
      | panicked =>
          refine .panicked after hlookup ?_
          unfold QuayVenue.updateThrough
          rw [hlookup]

theorem settle_cache (cache : RpcClientCache)
    (result : EStateM.Result TradingVenueError QuayVenue PUnit) :
    finalState (settle cache result) = (finalState result, cache) := by
  cases result <;> rfl

/-- The cache after an update is the one its lookup left. -/
theorem updateThrough_cache (sdk : Sdk) (rpc : RpcClient) (venue : QuayVenue)
    (cache : RpcClientCache) :
    (finalState (venue.updateThrough sdk rpc cache)).2 =
      finalState (getAccounts rpc venue.requiredUpdatePubkeys cache) := by
  cases updateThrough_cases sdk rpc venue cache with
  | answered after items lookup result => rw [result, lookup, settle_cache, finalState]
  | failed after e lookup result => rw [result, lookup, finalState, finalState]
  | panicked after lookup result => rw [result, lookup, finalState, finalState]

/-- An update through the cache succeeds as an update against what the cache then holds. -/
theorem updateThrough_ok {u : PUnit}
    (h : venue.updateThrough sdk rpc cache = .ok u (venue', cache')) :
    cache' = finalState (getAccounts rpc venue.requiredUpdatePubkeys cache) ∧
      QuayVenue.updateState sdk (.ofChain cache'.held) venue = .ok ⟨⟩ venue' := by
  cases updateThrough_cases sdk rpc venue cache with
  | answered after items lookup result =>
      rw [result] at h
      cases hupdate : QuayVenue.updateState sdk (.ofChain after.held) venue with
      | ok u updated =>
          rw [hupdate, settle] at h
          cases h
          exact ⟨by rw [lookup, finalState], hupdate⟩
      | error e failed =>
          rw [hupdate, settle] at h
          cases h
  | failed after e lookup result =>
      rw [result] at h
      cases h
  | panicked after lookup result =>
      rw [result] at h
      cases h

/-- An update through the cache that fails leaves the venue as it was. -/
theorem updateThrough_error {stop : Stop TradingVenueError}
    (h : venue.updateThrough sdk rpc cache = .error stop (venue', cache')) : venue' = venue := by
  cases updateThrough_cases sdk rpc venue cache with
  | answered after items lookup result =>
      rw [result] at h
      cases hupdate : QuayVenue.updateState sdk (.ofChain after.held) venue with
      | ok u updated =>
          rw [hupdate, settle] at h
          cases h
      | error e failed =>
          rw [hupdate, settle] at h
          cases h
          exact atomic_updateState sdk _ _ _ _ hupdate
  | failed after e lookup result =>
      rw [result] at h
      cases h
      rfl
  | panicked after lookup result =>
      rw [result] at h
      cases h
      rfl

/-! ## Settled venues -/

/-- Everything the first state of the chain holds is still the same in the second. -/
def Extends (later chain : Pubkey → Option Account) : Prop :=
  ∀ key account, chain key = some account → later key = some account

theorem requiredUpdatePubkeys_ext (venue : QuayVenue) (i : ℕ) :
    venue.requiredUpdatePubkeys[9 + i]? = venue.extKeys[i]? := by
  rw [QuayVenue.requiredUpdatePubkeys, List.getElem?_append_right (by simp)]
  simp

theorem freshExtData_covers {keys : List Pubkey} {accounts : List (Option Account)}
    (h : ∀ i < keys.length, ∃ account, accounts[9 + i]? = some (some account)) :
    (freshExtData accounts keys keys).length = keys.length := by
  have hcollected : (collectExtData accounts keys 0 []).length = keys.length := by
    rcases @collectExtData_spec accounts keys 0 [] with ⟨_, j, hj, hmissing⟩ | ⟨hlength, _⟩
    · obtain ⟨account, haccount⟩ := h j hj
      rw [Nat.zero_add, haccount] at hmissing
      cases hmissing
    · rw [hlength, List.length_nil, Nat.zero_add]
  rw [freshExtData, if_pos rfl]
  simp only [hcollected, ne_eq, not_true_eq_false, if_false]

/-- External data that covers the fresh binding is read again from the same accounts. -/
theorem freshExtData_settled {keys fresh : List Pubkey} {accounts accounts' : List (Option Account)}
    (hcovers : (freshExtData accounts keys fresh).length = fresh.length)
    (hsame : ∀ (i : ℕ) key account, keys[i]? = some key →
      accounts[9 + i]? = some (some account) → fresh[i]? = some key →
      accounts'[9 + i]? = some (some account)) :
    freshExtData accounts' fresh fresh = freshExtData accounts keys fresh := by
  have hcovers' : (freshExtData accounts' fresh fresh).length = fresh.length := by
    refine freshExtData_covers fun i hi => ?_
    have hkey : fresh[i]? = some fresh[i] := List.getElem?_eq_getElem hi
    obtain ⟨hbound, account, haccount, _⟩ := freshExtData_spec hcovers hkey
    exact ⟨account, hsame i _ account hbound haccount hkey⟩
  apply List.ext_getElem?
  intro i
  by_cases hi : i < fresh.length
  · have hkey : fresh[i]? = some fresh[i] := List.getElem?_eq_getElem hi
    obtain ⟨hbound, account, haccount, hdata⟩ := freshExtData_spec hcovers hkey
    obtain ⟨_, account', haccount', hdata'⟩ := freshExtData_spec hcovers' hkey
    rw [hsame i _ account hbound haccount hkey] at haccount'
    rw [hdata, hdata', Option.some.inj (Option.some.inj haccount')]
  · rw [List.getElem?_eq_none (by omega), List.getElem?_eq_none (by omega)]

/-- A venue opened by one snapshot does not change when it reads a later one that extends it. -/
theorem updateState_settled
    (h : QuayVenue.updateState sdk (.ofChain chain) venue = .ok ⟨⟩ venue')
    (hinit : venue'.initialized sdk = true) (hextends : Extends later chain) :
    QuayVenue.updateState sdk (.ofChain later) venue' = .ok ⟨⟩ venue' := by
  obtain ⟨snap, hanswers, rfl⟩ := updateState_ok_iff.mp h
  have hfetched : venue.requiredUpdatePubkeys.map chain = snap.accounts :=
    Except.ok.inj hanswers.fetched
  have hread (slot : ℕ) (key : Pubkey) (account : Account)
      (hkey : venue.requiredUpdatePubkeys[slot]? = some key)
      (haccount : snap.accounts[slot]? = some (some account))
      (hkey' : (snap.commit venue).requiredUpdatePubkeys[slot]? = some key) :
      ((snap.commit venue).requiredUpdatePubkeys.map later)[slot]? = some (some account) := by
    rw [← hfetched, List.getElem?_map, hkey, Option.map_some] at haccount
    rw [List.getElem?_map, hkey', Option.map_some,
      hextends key account (Option.some.inj haccount)]
  obtain ⟨base, hbase, hbaseInfo⟩ := hanswers.baseMint
  obtain ⟨quote, hquote, hquoteInfo⟩ := hanswers.quoteMint
  obtain ⟨vaultBase, hvaultBase⟩ := hanswers.vaultBase
  obtain ⟨vaultQuote, hvaultQuote⟩ := hanswers.vaultQuote
  obtain ⟨clockAccount, hclockAccount, hclock⟩ := hanswers.clock
  have hagain : Answers sdk (.ofChain later) (snap.commit venue)
      (snap.answering later (snap.commit venue)) := {
    fetched := rfl
    length_eq := List.length_map _
    strategyAccount := hread 0 _ _ rfl hanswers.strategyAccount rfl
    strategy := hanswers.strategy
    mmAccount := hread 1 _ _ rfl hanswers.mmAccount rfl
    mm := hanswers.mm
    quotesAccount := hread 2 _ _ rfl hanswers.quotesAccount rfl
    cfgAccount := hread 3 _ _ rfl hanswers.cfgAccount rfl
    cfg := hanswers.cfg
    baseMint := ⟨base, hread 4 _ _ rfl hbase rfl, hbaseInfo⟩
    quoteMint := ⟨quote, hread 5 _ _ rfl hquote rfl, hquoteInfo⟩
    vaultBase := ⟨vaultBase, hread 6 _ _ rfl hvaultBase rfl⟩
    vaultQuote := ⟨vaultQuote, hread 7 _ _ rfl hvaultQuote rfl⟩
    clock := ⟨clockAccount, hread 8 _ _ rfl hclockAccount rfl, hclock⟩
    freshExtKeys := hanswers.freshExtKeys }
  refine updateState_ok_iff.mpr ⟨_, hagain, ?_⟩
  have hcovers : (freshExtData snap.accounts venue.extKeys snap.freshExtKeys).length =
      snap.freshExtKeys.length := (initialized_iff.mp hinit).2.1.1
  have hext : freshExtData ((snap.commit venue).requiredUpdatePubkeys.map later)
      snap.freshExtKeys snap.freshExtKeys =
      freshExtData snap.accounts venue.extKeys snap.freshExtKeys := by
    refine freshExtData_settled hcovers fun i key account hbound haccount hkey => ?_
    refine hread (9 + i) key account ?_ haccount ?_
    · rw [requiredUpdatePubkeys_ext, hbound]
    · rw [requiredUpdatePubkeys_ext]
      exact hkey
  ext1
  case extData => exact hext.symm
  all_goals rfl

/-- Every account an opened venue requires is on the snapshot that leaves it as it is. -/
theorem exists_required (hinit : venue.initialized sdk = true)
    (hfixed : QuayVenue.updateState sdk (.ofChain chain) venue = .ok ⟨⟩ venue) {key : Pubkey}
    (hkey : key ∈ venue.requiredUpdatePubkeys) : ∃ account, chain key = some account := by
  obtain ⟨snap, hanswers, hcommit⟩ := updateState_ok_iff.mp hfixed
  obtain ⟨slot, hslot⟩ := List.mem_iff_getElem?.mp hkey
  have hfound : ∃ account, snap.accounts[slot]? = some (some account) := by
    by_cases hslots : slot < 9
    · interval_cases slot
      exacts [⟨_, hanswers.strategyAccount⟩, ⟨_, hanswers.mmAccount⟩, ⟨_, hanswers.quotesAccount⟩,
        ⟨_, hanswers.cfgAccount⟩, hanswers.baseMint.imp fun _ h => h.1,
        hanswers.quoteMint.imp fun _ h => h.1, hanswers.vaultBase, hanswers.vaultQuote,
        hanswers.clock.imp fun _ h => h.1]
    · obtain ⟨i, rfl⟩ := Nat.exists_eq_add_of_le (Nat.le_of_not_lt hslots)
      have hcovers := (initialized_iff.mp hinit).2.1.1
      rw [requiredUpdatePubkeys_ext] at hslot
      rw [hcommit] at hcovers hslot
      obtain ⟨_, account, haccount, _⟩ := freshExtData_spec hcovers hslot
      exact ⟨account, haccount⟩
  obtain ⟨account, haccount⟩ := hfound
  have hfetched : venue.requiredUpdatePubkeys.map chain = snap.accounts :=
    Except.ok.inj hanswers.fetched
  rw [← hfetched, List.getElem?_map, hslot, Option.map_some] at haccount
  exact ⟨account, Option.some.inj haccount⟩

/-- An opened venue that an update from the cache would leave as it is. -/
structure Settled (sdk : Sdk) (cache : RpcClientCache) (venue : QuayVenue) : Prop where
  opened : venue.initialized sdk = true
  fixed : QuayVenue.updateState sdk (.ofChain cache.held) venue = .ok ⟨⟩ venue

theorem Settled.keeps (h : Settled sdk cache venue) (hkeeps : cache.Keeps cache') :
    Settled sdk cache' venue :=
  ⟨h.opened, updateState_settled h.fixed h.opened hkeeps⟩

/-- Every account a settled venue requires is cached. -/
theorem Settled.held (h : Settled sdk cache venue) {key : Pubkey}
    (hkey : key ∈ venue.requiredUpdatePubkeys) : ∃ account, cache.held key = some account :=
  exists_required h.opened h.fixed hkey

/-- A settled venue is updated without a request and stays as it is. -/
theorem Settled.updateThrough (h : Settled sdk cache venue) (rpc : RpcClient) :
    venue.updateThrough sdk rpc cache = .ok ⟨⟩ (venue, cache) := by
  have hmissing : cache.missing venue.requiredUpdatePubkeys = [] := by
    refine List.filter_eq_nil_iff.mpr fun key hkey => ?_
    obtain ⟨account, haccount⟩ := h.held hkey
    simp [haccount]
  have hlookup : getAccounts rpc venue.requiredUpdatePubkeys cache =
      .ok (venue.requiredUpdatePubkeys.map cache.held) cache := getAccounts_held hmissing
  cases updateThrough_cases sdk rpc venue cache with
  | answered after items lookup result =>
      rw [hlookup] at lookup
      cases lookup
      rw [result, h.fixed, settle]
  | failed after e lookup result =>
      rw [hlookup] at lookup
      cases lookup
  | panicked after lookup result =>
      rw [hlookup] at lookup
      cases lookup

/-! ## Between two resets -/

section Epochs

variable {ι : Type} [DecidableEq ι] {rpcs : RpcClient → Prop} {s s' s'' : Session ι} {i : ι}

/-- One use of the shared cache: a lookup on its own, or the update of a venue. -/
inductive SessionStep (sdk : Sdk) (rpcs : RpcClient → Prop) (s s' : Session ι) : Prop
  | looksUp (rpc : RpcClient) (served : rpcs rpc) (call : Call)
      (after_eq : s' = { s with cache := finalState (attempt (rpc, call) s.cache) })
  | updates (rpc : RpcClient) (served : rpcs rpc) (i : ι) (after_eq : s' = s.update sdk rpc i)

/-- Any uses of the cache, in any order, without a reset. -/
abbrev Epoch (sdk : Sdk) (rpcs : RpcClient → Prop) : Session ι → Session ι → Prop :=
  ReflTransGen (SessionStep sdk rpcs)

theorem update_cache (sdk : Sdk) (rpc : RpcClient) (i : ι) (s : Session ι) :
    (s.update sdk rpc i).cache =
      finalState (getAccounts rpc (s.venues i).requiredUpdatePubkeys s.cache) :=
  updateThrough_cache sdk rpc (s.venues i) s.cache

/-- What one update does to the venues. -/
theorem update_venues (sdk : Sdk) (rpc : RpcClient) (i : ι) (s : Session ι) :
    (s.update sdk rpc i).venues = s.venues ∨
      ∃ venue', QuayVenue.updateState sdk (.ofChain (s.update sdk rpc i).cache.held)
          (s.venues i) = .ok ⟨⟩ venue' ∧
        (s.update sdk rpc i).venues = Function.update s.venues i venue' := by
  unfold Session.update
  cases hresult : (s.venues i).updateThrough sdk rpc s.cache with
  | ok u after =>
      obtain ⟨venue', cache'⟩ := after
      exact .inr ⟨venue', (updateThrough_ok hresult).2, rfl⟩
  | error stop after =>
      obtain ⟨venue', cache'⟩ := after
      left
      exact (congrArg (Function.update s.venues i) (updateThrough_error hresult)).trans
        (Function.update_eq_self i s.venues)

theorem SessionStep.kept (h : SessionStep sdk rpcs s s') : s.cache.Keeps s'.cache := by
  cases h with
  | looksUp rpc served call after_eq =>
      rw [after_eq]
      exact attempt_kept rpc call s.cache
  | updates rpc served i after_eq =>
      rw [after_eq, update_cache]
      exact getAccounts_kept rpc _ s.cache

/-- The venue read a part of what the cache holds, and nothing else, last. -/
def ReadFrom (sdk : Sdk) (cache : RpcClientCache) (venue : QuayVenue) : Prop :=
  ∃ before chain, Extends cache.held chain ∧
    QuayVenue.updateState sdk (.ofChain chain) before = .ok ⟨⟩ venue

theorem ReadFrom.keeps (h : ReadFrom sdk cache venue) (hkeeps : cache.Keeps cache') :
    ReadFrom sdk cache' venue := by
  obtain ⟨before, chain, hextends, hupdate⟩ := h
  exact ⟨before, chain, fun key account hheld => hkeeps key account (hextends key account hheld),
    hupdate⟩

theorem ReadFrom.settled (h : ReadFrom sdk cache venue) (hinit : venue.initialized sdk = true) :
    QuayVenue.updateState sdk (.ofChain cache.held) venue = .ok ⟨⟩ venue := by
  obtain ⟨before, chain, hextends, hupdate⟩ := h
  exact updateState_settled hupdate hinit hextends

/-- A use of the cache leaves a venue alone, or updates it from what the cache then holds. -/
theorem SessionStep.updated (h : SessionStep sdk rpcs s s') (i : ι) :
    s'.venues i = s.venues i ∨
      QuayVenue.updateState sdk (.ofChain s'.cache.held) (s.venues i) = .ok ⟨⟩ (s'.venues i) := by
  cases h with
  | looksUp rpc served call after_eq =>
      rw [after_eq]
      exact .inl rfl
  | updates rpc served j after_eq =>
      rcases update_venues sdk rpc j s with hsame | ⟨venue', hupdate, hvenues⟩
      · rw [after_eq, hsame]
        exact .inl rfl
      · rw [after_eq, hvenues]
        by_cases hij : i = j
        · subst hij
          rw [Function.update_self]
          exact .inr hupdate
        · exact .inl (Function.update_of_ne hij _ _)

theorem SessionStep.readFrom (h : SessionStep sdk rpcs s s') (i : ι) :
    s'.venues i = s.venues i ∨ ReadFrom sdk s'.cache (s'.venues i) := by
  rcases h.updated i with hsame | hupdate
  · exact .inl hsame
  · exact .inr ⟨s.venues i, _, fun _ _ hheld => hheld, hupdate⟩

/-- What a venue read stays a part of the cache, whether it is updated again or not. -/
theorem Epoch.keepsReadFrom (h : Epoch sdk rpcs s s') (hread : ReadFrom sdk s.cache (s.venues i)) :
    ReadFrom sdk s'.cache (s'.venues i) := by
  induction h with
  | refl => exact hread
  | tail _ hlast ih =>
      rcases hlast.readFrom i with hsame | hread
      · rw [hsame]
        exact ih.keeps hlast.kept
      · exact hread

/-- The venue was updated in the epoch, at least once and with success. -/
inductive UpdatedIn (sdk : Sdk) (rpcs : RpcClient → Prop) (s s' : Session ι) (i : ι) : Prop
  | intro (before : Session ι) (rpc : RpcClient) (served : rpcs rpc) (venue : QuayVenue)
      (cache : RpcClientCache) (earlier : Epoch sdk rpcs s before)
      (updated : (before.venues i).updateThrough sdk rpc before.cache = .ok ⟨⟩ (venue, cache))
      (later : Epoch sdk rpcs (before.update sdk rpc i) s')

theorem UpdatedIn.tail (h : UpdatedIn sdk rpcs s s' i) (hlast : SessionStep sdk rpcs s' s'') :
    UpdatedIn sdk rpcs s s'' i := by
  cases h with
  | intro before rpc served venue cache earlier updated later =>
      exact .intro before rpc served venue cache earlier updated (later.tail hlast)

theorem update_ok (h : (s.venues i).updateThrough sdk rpc s.cache = .ok ⟨⟩ (venue, cache)) :
    s.update sdk rpc i = ⟨Function.update s.venues i venue, cache⟩ := by
  rw [Session.update, h]
  rfl

theorem update_venue (h : (s.venues i).updateThrough sdk rpc s.cache = .ok ⟨⟩ (venue, cache)) :
    (s.update sdk rpc i).venues i = venue := by
  rw [update_ok h]
  exact Function.update_self ..

/-- An update that opens a venue succeeded. -/
theorem update_opens (hclosed : (s.venues i).initialized sdk = false)
    (hopened : ((s.update sdk rpc i).venues i).initialized sdk = true) :
    (s.venues i).updateThrough sdk rpc s.cache =
      .ok ⟨⟩ ((s.update sdk rpc i).venues i, (s.update sdk rpc i).cache) := by
  cases hresult : (s.venues i).updateThrough sdk rpc s.cache with
  | ok u after => rw [update_venue hresult, update_ok hresult]
  | error stop after =>
      have hsame : (s.update sdk rpc i).venues i = s.venues i := by
        rw [Session.update, hresult]
        exact (Function.update_self ..).trans (updateThrough_error hresult)
      rw [hsame, hclosed] at hopened
      cases hopened

/-- An updated venue read the cache. -/
theorem UpdatedIn.readFrom (h : UpdatedIn sdk rpcs s s' i) :
    ReadFrom sdk s'.cache (s'.venues i) := by
  cases h with
  | intro before rpc served venue cache earlier updated later =>
      refine later.keepsReadFrom ?_
      rw [update_venue updated, update_ok updated]
      exact ⟨before.venues i, _, fun _ _ hheld => hheld, (updateThrough_ok updated).2⟩

/-- A venue that was not updated is as it was. -/
theorem Epoch.updatedIn (h : Epoch sdk rpcs s s') (i : ι) :
    s'.venues i = s.venues i ∨ UpdatedIn sdk rpcs s s' i := by
  induction h with
  | refl => exact .inl rfl
  | @tail before after hearlier hlast ih =>
      rcases ih with hstart | hupdated
      · cases hlast with
        | looksUp rpc served call after_eq =>
            rw [after_eq]
            exact .inl hstart
        | updates rpc served j after_eq =>
            by_cases hij : i = j
            · subst hij
              rw [after_eq]
              cases hresult : (before.venues i).updateThrough sdk rpc before.cache with
              | ok u result =>
                  right
                  exact .intro before rpc served result.1 result.2 hearlier hresult .refl
              | error stop result =>
                  left
                  rw [Session.update, hresult]
                  exact (Function.update_self ..).trans ((updateThrough_error hresult).trans hstart)
            · left
              rw [after_eq, Session.update]
              exact (Function.update_of_ne hij _ _).trans hstart
      · exact .inr (hupdated.tail hlast)

/-! ## One snapshot -/

section Served

variable {chains : (Pubkey → Option Account) → Prop}
  (hrpcs : ∀ rpc, rpcs rpc → ∃ chain, chains chain ∧ rpc.Serves chain)

include hrpcs

theorem SessionStep.entry (h : SessionStep sdk rpcs s s') (key : Pubkey) :
    s'.cache.cache key = s.cache.cache key ∨
      ∃ chain, chains chain ∧ s'.cache.cache key = some (chain key) := by
  cases h with
  | looksUp rpc served call after_eq =>
      obtain ⟨chain, hchain, hserves⟩ := hrpcs rpc served
      rw [after_eq]
      rcases attempt_entry hserves call s.cache key with hsame | hfilled
      · exact .inl hsame
      · exact .inr ⟨chain, hchain, hfilled⟩
  | updates rpc served i after_eq =>
      obtain ⟨chain, hchain, hserves⟩ := hrpcs rpc served
      rw [after_eq, update_cache]
      rcases getAccounts_entry hserves (s.venues i).requiredUpdatePubkeys s.cache key
        with hsame | hfilled
      · exact .inl hsame
      · exact .inr ⟨chain, hchain, hfilled⟩

/-- Every entry cached since was the chain's at some moment. -/
theorem Epoch.entry (h : Epoch sdk rpcs s s') (key : Pubkey) :
    s'.cache.cache key = s.cache.cache key ∨
      ∃ chain, chains chain ∧ s'.cache.cache key = some (chain key) := by
  induction h with
  | refl => exact .inl rfl
  | tail _ hlast ih =>
      rcases hlast.entry hrpcs key with hsame | hfilled
      · rw [hsame]
        exact ih
      · exact .inr hfilled

/-- Between two resets there is one snapshot, each account of it from some moment of the time
between, that every venue updated and opened since reads: updating it again from the snapshot
changes nothing. A venue that was not updated is as it was. -/
theorem epoch_snapshot (h : Epoch sdk rpcs s.reset s') :
    ∃ snapshot : Pubkey → Option Account,
      (∀ key account, snapshot key = some account →
        ∃ chain, chains chain ∧ chain key = some account) ∧
      ∀ i, (UpdatedIn sdk rpcs s.reset s' i → (s'.venues i).initialized sdk = true →
          QuayVenue.updateState sdk (.ofChain snapshot) (s'.venues i) = .ok ⟨⟩ (s'.venues i)) ∧
        (¬UpdatedIn sdk rpcs s.reset s' i → s'.venues i = s.venues i) := by
  refine ⟨s'.cache.held, fun key account hheld => ?_, fun i => ⟨fun hupdated => ?_, fun h' => ?_⟩⟩
  · rcases h.entry hrpcs key with hsame | ⟨chain, hchain, hfilled⟩
    · rw [RpcClientCache.held, hsame] at hheld
      cases hheld
    · rw [RpcClientCache.held, hfilled] at hheld
      exact ⟨chain, hchain, hheld⟩
  · exact hupdated.readFrom.settled
  · exact (h.updatedIn i).resolve_right h'

end Served

/-- An opened venue that was updated once is frozen until the cache is reset: no use of the
cache, whatever the RPC node answers, changes it, and its updates ask the node for nothing. -/
theorem frozen_until_reset
    (hupdate : (s.venues i).updateThrough sdk rpc s.cache = .ok ⟨⟩ (venue, cache))
    (hinit : venue.initialized sdk = true) (h : Epoch sdk rpcs (s.update sdk rpc i) s') :
    s'.venues i = venue ∧
      ∀ rpc', venue.updateThrough sdk rpc' s'.cache = .ok ⟨⟩ (venue, s'.cache) := by
  have hsettled : s'.venues i = venue ∧ Settled sdk s'.cache venue := by
    induction h with
    | refl =>
        obtain ⟨_, hread⟩ := updateThrough_ok hupdate
        rw [update_ok hupdate]
        exact ⟨Function.update_self ..,
          hinit, updateState_settled hread hinit fun _ _ hheld => hheld⟩
    | @tail before after _ hlast ih =>
        obtain ⟨hsame, hsettled⟩ := ih
        refine ⟨?_, hsettled.keeps hlast.kept⟩
        cases hlast with
        | looksUp rpc' served call after_eq =>
            rw [after_eq]
            exact hsame
        | updates rpc' served j after_eq =>
            rw [after_eq, Session.update]
            by_cases hij : i = j
            · subst hij
              rw [hsame, hsettled.updateThrough]
              exact Function.update_self ..
            · exact (Function.update_of_ne hij _ _).trans hsame
  exact ⟨hsettled.1, hsettled.2.updateThrough⟩

/-- While the chain stays as it is, the cache cannot be noticed: after a reset and any uses of
it, an update through it does what an update against the chain does, unless the node fails. -/
theorem epoch_transparent (h : Epoch sdk (fun rpc => rpc.Serves chain) s.reset s')
    (hserves : rpc.Serves chain) (i : ι) :
    (∃ e after, rpc.getMultipleAccounts
          (s'.cache.missing (s'.venues i).requiredUpdatePubkeys) = .error e ∧
        (s'.venues i).updateThrough sdk rpc s'.cache =
          .error (.returned (.accountCacheError (.failedToFetchAccount e))) (s'.venues i, after)) ∨
      ∃ after, (s'.venues i).updateThrough sdk rpc s'.cache =
        settle after (QuayVenue.updateState sdk (.ofChain chain) (s'.venues i)) := by
  have hcoherent : Coherent chain s'.cache := by
    intro key entry hentry
    have hserved : ∀ rpc : RpcClient, rpc.Serves chain → ∃ seen, seen = chain ∧ rpc.Serves seen :=
      fun _ hrpc => ⟨chain, rfl, hrpc⟩
    rcases Epoch.entry hserved h key with hsame | ⟨_, rfl, hfilled⟩
    · rw [hsame] at hentry
      cases hentry
    · rw [hfilled] at hentry
      exact (Option.some.inj hentry).symm
  rcases getAccounts_served hserves hcoherent (s'.venues i).requiredUpdatePubkeys
    with ⟨e, hanswer, hfailed⟩ | ⟨after, hserved⟩
  · cases updateThrough_cases sdk rpc (s'.venues i) s'.cache with
    | answered after items lookup result =>
        rw [hfailed] at lookup
        cases lookup
    | failed after e' lookup result =>
        rw [hfailed] at lookup
        cases lookup
        exact .inl ⟨e, _, hanswer, result⟩
    | panicked after lookup result =>
        rw [hfailed] at lookup
        cases lookup
  · right
    refine ⟨after, ?_⟩
    unfold QuayVenue.updateThrough
    rw [hserved]
    exact congrArg (settle after) (updateState_congr rfl)

end Epochs

namespace Sample

theorem ofChain_serves (chain : Pubkey → Option Account) :
    (RpcClient.ofChain chain).Serves chain := by
  refine ⟨fun key account h => ?_, fun keys response h => (Except.ok.inj h).symm⟩
  cases hchain : chain key with
  | none => simp [RpcClient.ofChain, hchain] at h
  | some found =>
      simp only [RpcClient.ofChain, hchain] at h
      rw [Except.ok.inj h]

/-- A second market on the same accounts. -/
def siblingKey : Pubkey := key 12

def sibling : QuayVenue :=
  unrefreshed (sdkWith rising) siblingKey strategyAccount header [key 7]

/-- The chain with both markets; its quotes account moves. -/
def chainAt (quotes : UInt8) (address : Pubkey) : Option Account :=
  if address = siblingKey then some strategyAccount
  else if address = key 6 then some (stored [quotes])
  else chainWith strategyAccount address

/-- A node that does not answer. -/
def down : RpcClient := ⟨fun _ => .error "down", fun _ => .error "down"⟩

theorem down_serves (chain : Pubkey → Option Account) : down.Serves chain where
  single _ _ h := by cases h
  batch _ _ h := by cases h

/-- Two venues over an empty cache. -/
def pair : Session Bool := ⟨fun second => bif second then sibling else unread, .new⟩

/-- The first venue is updated, the node fails a lookup of the second, the chain moves, an
account is looked up on its own, the second venue is updated, and the first is updated again. -/
def firstUpdated : Session Bool := pair.reset.update (sdkWith rising) (.ofChain (chainAt 9)) false

def secondFailed : Session Bool := firstUpdated.update (sdkWith rising) down true

def lookedUp : Session Bool :=
  { secondFailed with
    cache := finalState
      (attempt (.ofChain (chainAt 8), .getAccounts [key 6, key 50]) secondFailed.cache) }

def secondUpdated : Session Bool :=
  lookedUp.update (sdkWith rising) (.ofChain (chainAt 8)) true

def firstAgain : Session Bool :=
  secondUpdated.update (sdkWith rising) (.ofChain (chainAt 8)) false

/-- Every node, also one that fails, serves one of the two states of the chain. -/
def Moving (chain : Pubkey → Option Account) : Prop := chain = chainAt 9 ∨ chain = chainAt 8

def Answering (rpc : RpcClient) : Prop := ∃ chain, Moving chain ∧ rpc.Serves chain

theorem answering_before : Answering (.ofChain (chainAt 9)) := ⟨_, .inl rfl, ofChain_serves _⟩

theorem answering_after : Answering (.ofChain (chainAt 8)) := ⟨_, .inr rfl, ofChain_serves _⟩

theorem answering_down : Answering down := ⟨_, .inl rfl, down_serves (chainAt 9)⟩

theorem epoch_first :
    Epoch (sdkWith rising) Answering firstUpdated firstAgain := by
  have hfailed : Epoch (sdkWith rising) Answering firstUpdated secondFailed :=
    .single (.updates _ answering_down true rfl)
  have hlooked : Epoch (sdkWith rising) Answering firstUpdated lookedUp :=
    hfailed.tail (.looksUp _ answering_after _ rfl)
  have hsecond : Epoch (sdkWith rising) Answering firstUpdated secondUpdated :=
    hlooked.tail (.updates _ answering_after true rfl)
  exact hsecond.tail (.updates _ answering_after false rfl)

theorem epoch_before : Epoch (sdkWith rising) Answering pair.reset lookedUp := by
  have hfirst : Epoch (sdkWith rising) Answering pair.reset firstUpdated :=
    .single (.updates _ answering_before false rfl)
  have hfailed : Epoch (sdkWith rising) Answering pair.reset secondFailed :=
    hfirst.tail (.updates _ answering_down true rfl)
  exact hfailed.tail (.looksUp _ answering_after _ rfl)

/-- Both venues open, on the quotes of the first state of the chain. -/
theorem opens : unread.initialized (sdkWith rising) = false ∧
    sibling.initialized (sdkWith rising) = false ∧
    (firstUpdated.venues false).initialized (sdkWith rising) = true ∧
    lookedUp.venues true = sibling ∧
    (secondUpdated.venues true).initialized (sdkWith rising) = true ∧
    (∀ second, (firstAgain.venues second).initialized (sdkWith rising) = true ∧
      (firstAgain.venues second).quotesData = [9]) := by
  decide +kernel

theorem pair_closed (second : Bool) :
    (pair.venues second).initialized (sdkWith rising) = false := by
  cases second with
  | false => exact opens.1
  | true => exact opens.2.1

theorem updatedIn_pair (second : Bool) :
    UpdatedIn (sdkWith rising) Answering pair.reset firstAgain second := by
  cases second with
  | false =>
      exact .intro pair.reset _ answering_before _ _ .refl
        (update_opens (pair_closed false) opens.2.2.1) epoch_first
  | true =>
      have hclosed : (lookedUp.venues true).initialized (sdkWith rising) = false := by
        rw [opens.2.2.2.1]
        exact opens.2.1
      have hlast : Epoch (sdkWith rising) Answering secondUpdated firstAgain :=
        .single (.updates _ answering_after false rfl)
      exact .intro lookedUp _ answering_after _ _ epoch_before
        (update_opens hclosed opens.2.2.2.2.1) hlast

theorem epoch_snapshot_sample : ∃ snapshot : Pubkey → Option Account,
    (∀ key account, snapshot key = some account →
      ∃ chain, Moving chain ∧ chain key = some account) ∧
    ∀ second, (firstAgain.venues second).initialized (sdkWith rising) = true ∧
      (firstAgain.venues second).quotesData = [9] ∧
      QuayVenue.updateState (sdkWith rising) (.ofChain snapshot) (firstAgain.venues second) =
        .ok ⟨⟩ (firstAgain.venues second) := by
  have hepoch : Epoch (sdkWith rising) Answering pair.reset firstAgain := by
    have hfirst : Epoch (sdkWith rising) Answering pair.reset firstUpdated :=
      .single (.updates _ answering_before false rfl)
    exact hfirst.trans epoch_first
  obtain ⟨snapshot, hseen, hvenues⟩ := epoch_snapshot (fun _ hserved => hserved) hepoch
  refine ⟨snapshot, hseen, fun second => ?_⟩
  obtain ⟨hinit, hquotes⟩ := opens.2.2.2.2.2 second
  exact ⟨hinit, hquotes, (hvenues second).1 (updatedIn_pair second) hinit⟩

theorem frozen_until_reset_sample :
    firstAgain.venues false = firstUpdated.venues false ∧
    (firstUpdated.venues false).initialized (sdkWith rising) = true ∧
    ∀ rpc, (firstUpdated.venues false).updateThrough (sdkWith rising) rpc firstAgain.cache =
      .ok ⟨⟩ (firstUpdated.venues false, firstAgain.cache) := by
  have hupdate := update_opens (pair_closed false) opens.2.2.1
  obtain ⟨hsame, hagain⟩ := frozen_until_reset hupdate opens.2.2.1 epoch_first
  exact ⟨hsame, opens.2.2.1, hagain⟩

/-- The first venue filled the cache and the node failed once, when the second is updated. -/
theorem epoch_transparent_sample :
    secondFailed.cache.held (key 6) = some (stored [9]) ∧
    ∃ after, sibling.updateThrough (sdkWith rising) (.ofChain (chainAt 9)) secondFailed.cache =
      settle after (QuayVenue.updateState (sdkWith rising) (.ofChain (chainAt 9)) sibling) := by
  have hfirst : Epoch (sdkWith rising) (fun rpc => rpc.Serves (chainAt 9)) pair.reset
      firstUpdated := .single (.updates _ (ofChain_serves _) false rfl)
  have hepoch : Epoch (sdkWith rising) (fun rpc => rpc.Serves (chainAt 9)) pair.reset
      secondFailed := hfirst.tail (.updates _ (down_serves _) true rfl)
  have hheld : secondFailed.cache.held (key 6) = some (stored [9]) ∧
      secondFailed.venues true = sibling := by
    decide +kernel
  have htransparent := epoch_transparent hepoch (ofChain_serves (chainAt 9)) true
  rw [hheld.2] at htransparent
  refine ⟨hheld.1, htransparent.resolve_left fun hfailed => ?_⟩
  obtain ⟨e, after, hanswer, _⟩ := hfailed
  cases hanswer

end Sample

end QuayTitan.Quay
