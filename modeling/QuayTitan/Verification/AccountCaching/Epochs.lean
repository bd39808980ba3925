import QuayTitan.Verification.AccountCaching.Agreement
import QuayTitan.Verification.AccountCaching.NegativeLookups

/-! # The cache between two resets

Whatever the RPC node answers, an account that was cached stays cached, and a batch answers with
what the cache holds afterwards. -/

namespace QuayTitan.AccountCaching

open Assignments Attempts

variable {rpc : RpcClient} {self after : RpcClientCache} {key : Pubkey} {pubkeys : List Pubkey}

theorem insert_cache (key : Pubkey) (value : Option Account) (self : RpcClientCache) :
    (RpcClientCache.insert key value self).cache =
      Function.update self.cache key (some value) := rfl

theorem stored_cache (pubkeys : List Pubkey) (response : List (Option Account)) :
    (self.stored pubkeys response).cache =
      assign self.cache ((self.missing pubkeys).zip response) := rfl

/-! ## Any RPC node -/

/-- No cached account is lost. -/
def RpcClientCache.Keeps (self after : RpcClientCache) : Prop :=
  ∀ key account, self.held key = some account → after.held key = some account

theorem getAccounts_kept (rpc : RpcClient) (pubkeys : List Pubkey) (self : RpcClientCache) :
    self.Keeps (finalState (getAccounts rpc pubkeys self)) := by
  intro key account hheld
  have hmissing : key ∉ self.missing pubkeys := by
    intro hmem
    rw [(mem_missing.mp hmem).2] at hheld
    cases hheld
  rw [RpcClientCache.held, getAccounts_keeps hmissing]
  exact hheld

theorem getAccount_kept (rpc : RpcClient) (pubkey : Pubkey) (self : RpcClientCache) :
    self.Keeps (finalState (getAccount rpc pubkey self)) := by
  intro key account hheld
  cases hentry : self.cache pubkey with
  | some entry =>
      rw [getAccount_hit hentry]
      exact hheld
  | none =>
      have hne : key ≠ pubkey := by
        rintro rfl
        rw [RpcClientCache.held, hentry] at hheld
        cases hheld
      have hfetch := @getAccount_fetch rpc self pubkey hentry
      rcases hfetch with hasked | ⟨entry, hstored⟩
      · rw [hasked]
        exact hheld
      · rw [hstored, RpcClientCache.held, insert_cache, Function.update_of_ne hne]
        exact hheld

theorem attempt_kept (rpc : RpcClient) (call : Call) (self : RpcClientCache) :
    self.Keeps (finalState (attempt (rpc, call) self)) := by
  rw [finalState_attempt]
  cases call with
  | getAccount pubkey =>
      rw [finalState_getAccount]
      exact getAccount_kept rpc pubkey self
  | getMultiple pubkeys => exact fun _ _ hheld => hheld
  | getAccounts pubkeys => exact getAccounts_kept rpc pubkeys self

/-- A result of a batch is what the cache holds once the response is stored. -/
theorem held_stored {response : List (Option Account)} {value : Option Account}
    (hkey : key ∈ pubkeys) (h : self.results pubkeys response key = some value) :
    (self.stored pubkeys response).held key = value := by
  cases hheld : self.held key with
  | some account =>
      rw [results_of_held hkey hheld] at h
      have hmissing : key ∉ self.missing pubkeys := by simp [mem_missing, hheld]
      rw [RpcClientCache.held, stored_cache, assign_fetched hmissing]
      exact hheld.trans (Option.some.inj h)
  | none =>
      have hhits : key ∉ pubkeys.filter fun key => self.held key ≠ none := by simp [hheld]
      have hbase : assign (fun _ => none) (self.hits pubkeys) key = none := by
        rw [RpcClientCache.hits, assign_graph, if_neg hhits]
      by_cases hfetched : ∃ pair ∈ (self.missing pubkeys).zip response, pair.1 = key
      · have hwritten : (self.stored pubkeys response).cache key =
            self.results pubkeys response key := assign_congr hfetched
        rw [RpcClientCache.held, hwritten, h]
        rfl
      · have hnot : ∀ pair ∈ (self.missing pubkeys).zip response, pair.1 ≠ key :=
          fun pair hpair heq => hfetched ⟨pair, hpair, heq⟩
        rw [RpcClientCache.results, assign_of_not_mem hnot, hbase] at h
        cases h

/-- A batch answers every key with what the cache holds for it afterwards. -/
theorem getAccounts_items {items : List (Option Account)}
    (h : getAccounts rpc pubkeys self = .ok items after) : items = pubkeys.map after.held := by
  rcases getAccounts_cases rpc pubkeys self with
    ⟨_, hdone⟩ | ⟨_, e, hdone⟩ | ⟨_, response, hdone⟩
  · rw [hdone] at h
    cases h
    rfl
  · rw [hdone] at h
    cases h
  · rw [hdone, reassemble_ok_iff] at h
    obtain ⟨rfl, hitems⟩ := h
    refine (List.map_inj_right fun _ _ => Option.some.inj).mp ?_
    rw [← hitems, List.map_map]
    refine List.map_congr_left fun key hkey => ?_
    have hmem : self.results pubkeys response key ∈ items.map some := by
      rw [← hitems]
      exact List.mem_map_of_mem hkey
    obtain ⟨value, _, hvalue⟩ := List.mem_map.mp hmem
    rw [← hvalue, Function.comp, held_stored hkey hvalue.symm]

/-! ## An RPC node that serves the chain -/

/-- What the RPC node answers, if it answers, are the accounts of a state of the chain. -/
structure RpcClient.Serves (rpc : RpcClient) (chain : Pubkey → Option Account) : Prop where
  single : ∀ key account, rpc.getAccount key = .ok account → chain key = some account
  batch : ∀ keys response, rpc.getMultipleAccounts keys = .ok response → response = keys.map chain

section Serves

variable {chain : Pubkey → Option Account} (hserves : rpc.Serves chain)

include hserves

/-- A batch leaves an entry alone or fills it from the chain. -/
theorem getAccounts_entry (pubkeys : List Pubkey) (self : RpcClientCache) (key : Pubkey) :
    (finalState (getAccounts rpc pubkeys self)).cache key = self.cache key ∨
      (finalState (getAccounts rpc pubkeys self)).cache key = some (chain key) := by
  by_cases hmissing : self.missing pubkeys = []
  · rw [getAccounts_held hmissing]
    exact .inl rfl
  · cases hanswer : rpc.getMultipleAccounts (self.missing pubkeys) with
    | error e =>
        rw [getAccounts_failed hmissing hanswer]
        exact .inl rfl
    | ok response =>
        have hzip : (self.missing pubkeys).zip response =
            (self.missing pubkeys).map fun key => (key, chain key) := by
          rw [hserves.batch _ _ hanswer, List.map_prod_left_eq_zip]
        rw [getAccounts_fetched hmissing hanswer, finalState_reassemble, stored_cache, hzip,
          assign_graph]
        split
        · exact .inr rfl
        · exact .inl rfl

theorem getAccount_entry (pubkey : Pubkey) (self : RpcClientCache) (key : Pubkey) :
    (finalState (getAccount rpc pubkey self)).cache key = self.cache key ∨
      (finalState (getAccount rpc pubkey self)).cache key = some (chain key) := by
  cases hentry : self.cache pubkey with
  | some entry =>
      rw [getAccount_hit hentry]
      exact .inl rfl
  | none =>
      rw [getAccount_miss hentry]
      cases hanswer : rpc.getAccount pubkey with
      | error e =>
          rw [request_error rfl]
          exact .inl rfl
      | ok account =>
          have hstored : finalState ((request [pubkey] (.ok account) >>= fun response => do
              modify (RpcClientCache.insert pubkey (some response))
              return some response : CacheM (Option Account)) self) =
              (self.asked [pubkey]).insert pubkey (some account) := by
            rw [request_ok rfl]
            rfl
          rw [hstored, insert_cache]
          by_cases hkey : key = pubkey
          · subst hkey
            right
            rw [hserves.single _ _ hanswer, Function.update_self]
          · left
            rw [Function.update_of_ne hkey, asked_cache]

/-- No lookup writes anything else than what the chain holds. -/
theorem attempt_entry (call : Call) (self : RpcClientCache) (key : Pubkey) :
    (finalState (attempt (rpc, call) self)).cache key = self.cache key ∨
      (finalState (attempt (rpc, call) self)).cache key = some (chain key) := by
  rw [finalState_attempt]
  cases call with
  | getAccount pubkey =>
      rw [finalState_getAccount]
      exact getAccount_entry hserves pubkey self key
  | getMultiple pubkeys => exact .inl rfl
  | getAccounts pubkeys => exact getAccounts_entry hserves pubkeys self key

/-- On a cache that agrees with the chain a batch fails with the node or answers like the chain;
it never panics. -/
theorem getAccounts_served (hcoherent : Coherent chain self) (pubkeys : List Pubkey) :
    (∃ e, rpc.getMultipleAccounts (self.missing pubkeys) = .error e ∧
      getAccounts rpc pubkeys self =
        .error (.returned (.failedToFetchAccount e)) (self.asked (self.missing pubkeys))) ∨
      ∃ after, getAccounts rpc pubkeys self = .ok (pubkeys.map chain) after := by
  have hheld {key : Pubkey} (h : self.held key ≠ none) : self.held key = chain key := by
    cases hentry : self.cache key with
    | none =>
        rw [RpcClientCache.held, hentry] at h
        exact absurd rfl h
    | some entry => rw [held_of_entry hentry, hcoherent key entry hentry]
  by_cases hmissing : self.missing pubkeys = []
  · right
    refine ⟨self, (getAccounts_held hmissing).trans ?_⟩
    have hsame : pubkeys.map self.held = pubkeys.map chain := by
      refine List.map_congr_left fun key hkey => hheld ?_
      obtain ⟨account, haccount⟩ := exists_held hmissing hkey
      simp [haccount]
    rw [hsame]
  · cases hanswer : rpc.getMultipleAccounts (self.missing pubkeys) with
    | error e => exact .inl ⟨e, rfl, getAccounts_failed hmissing hanswer⟩
    | ok response =>
        right
        refine ⟨self.stored pubkeys response, (getAccounts_fetched hmissing hanswer).trans ?_⟩
        refine reassemble_ok_iff.mpr ⟨rfl, ?_⟩
        rw [List.map_map]
        refine List.map_congr_left fun key hkey => ?_
        rw [RpcClientCache.results, hserves.batch _ _ hanswer, ← List.map_prod_left_eq_zip,
          assign_graph, RpcClientCache.hits, assign_graph]
        by_cases hnone : self.held key = none
        · rw [if_pos (mem_missing.mpr ⟨hkey, hnone⟩), Function.comp]
        · have hmem : key ∉ self.missing pubkeys := fun h => hnone (mem_missing.mp h).2
          rw [if_neg hmem, if_pos (by simp [hkey, hnone]), hheld hnone, Function.comp]

end Serves

end QuayTitan.AccountCaching
