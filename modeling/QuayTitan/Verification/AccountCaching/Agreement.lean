import QuayTitan.Verification.AccountCaching.Fetch

/-! # Single and batch lookups -/

namespace QuayTitan.AccountCaching

open Assignments Attempts

variable {chain : Pubkey → Option Account} {self : RpcClientCache}

/-! ## Calls -/

/-- A lookup of the cache. -/
inductive Call
  | getAccount (pubkey : Pubkey)
  | getMultiple (pubkeys : List Pubkey)
  | getAccounts (pubkeys : List Pubkey)

def Call.keys : Call → List Pubkey
  | .getAccount pubkey => [pubkey]
  | .getMultiple pubkeys => pubkeys
  | .getAccounts pubkeys => pubkeys

/-- The answers of a lookup, in the order of its keys. -/
def Call.perform (rpc : RpcClient) : Call → CacheM (List (Option Account))
  | .getAccount pubkey => do return [← AccountCaching.getAccount rpc pubkey]
  | .getMultiple pubkeys => do return (← get).getMultiple pubkeys
  | .getAccounts pubkeys => AccountCaching.getAccounts rpc pubkeys

/-- One lookup of a session, with what the node answers by then. -/
def attempt (call : RpcClient × Call) : CacheM PUnit := do
  let _ ← call.2.perform call.1
  return ⟨⟩

theorem finalState_attempt (rpc : RpcClient) (call : Call) :
    finalState (attempt (rpc, call) self) = finalState (call.perform rpc self) := by
  simp only [attempt, bind, EStateM.bind]
  cases call.perform rpc self <;> rfl

theorem finalState_getAccount (rpc : RpcClient) (key : Pubkey) :
    finalState ((Call.getAccount key).perform rpc self) =
      finalState (getAccount rpc key self) := by
  simp only [Call.perform, bind, EStateM.bind]
  cases getAccount rpc key self <;> rfl

/-! ## A fixed chain -/

/-- A node that answers from one state of the chain; a lookup of a single missing account
is an error. -/
def RpcClient.ofChain (chain : Pubkey → Option Account) : RpcClient where
  getAccount key :=
    match chain key with
    | some account => .ok account
    | none => .error "AccountNotFound"
  getMultipleAccounts keys := .ok (keys.map chain)

/-- Every cached entry is the state of the chain. -/
def Coherent (chain : Pubkey → Option Account) (self : RpcClientCache) : Prop :=
  ∀ key entry, self.cache key = some entry → entry = chain key

theorem coherent_new : Coherent chain .new := fun _ _ h => by cases h

/-- What a single lookup on a fixed chain does. -/
theorem getAccount_ofChain (chain : Pubkey → Option Account) (key : Pubkey)
    (self : RpcClientCache) :
    getAccount (.ofChain chain) key self =
      match self.cache key, chain key with
      | some entry, _ => .ok entry self
      | none, some account =>
          .ok (some account) ((self.asked [key]).insert key (some account))
      | none, none =>
          .error (.returned (.failedToFetchAccount "AccountNotFound")) (self.asked [key]) := by
  cases hentry : self.cache key with
  | some entry => exact getAccount_hit hentry
  | none =>
      rw [getAccount_miss hentry]
      cases hchain : chain key with
      | some account =>
          rw [request_ok (show (RpcClient.ofChain chain).getAccount key = .ok account by
            simp only [RpcClient.ofChain, hchain])]
          rfl
      | none =>
          exact request_error (show (RpcClient.ofChain chain).getAccount key = .error _ by
            simp only [RpcClient.ofChain, hchain])

/-- What a batch lookup of one key on a fixed chain does. -/
theorem getAccounts_ofChain (chain : Pubkey → Option Account) (key : Pubkey)
    (self : RpcClientCache) :
    getAccounts (.ofChain chain) [key] self =
      match self.held key with
      | some account => .ok [some account] self
      | none => .ok [chain key] ((self.asked [key]).insert key (chain key)) := by
  cases hheld : self.held key with
  | some account =>
      rw [getAccounts_held (by simp [RpcClientCache.missing, hheld]), List.map_singleton, hheld]
  | none =>
      have hmissing : self.missing [key] = [key] := by simp [RpcClientCache.missing, hheld]
      have hanswer : (RpcClient.ofChain chain).getMultipleAccounts (self.missing [key]) =
          .ok [chain key] := by
        rw [hmissing]
        rfl
      have hresult : self.results [key] [chain key] key = some (chain key) := by
        rw [RpcClientCache.results, hmissing]
        exact Function.update_self ..
      have hstored : self.stored [key] [chain key] = (self.asked [key]).insert key (chain key) := by
        rw [RpcClientCache.stored, hmissing]
        rfl
      rw [getAccounts_fetched (by simp [hmissing]) hanswer, hstored]
      exact reassemble_ok_iff.mpr ⟨rfl, by simp [hresult]⟩

/-! ## Every session -/

/-- The state after some lookups on a fixed chain, from an empty cache. -/
def session (chain : Pubkey → Option Account) (calls : List Call) : RpcClientCache :=
  run attempt (calls.map fun call => (.ofChain chain, call)) .new

theorem Coherent.assign {m : Pubkey → Option (Option Account)} {requests : List (List Pubkey)}
    (h : Coherent chain ⟨m, requests⟩) (keys : List Pubkey) (requests' : List (List Pubkey)) :
    Coherent chain ⟨assign m (keys.map fun key => (key, chain key)), requests'⟩ := by
  intro key entry hentry
  simp only [assign_graph] at hentry
  split at hentry
  · exact (Option.some.inj hentry).symm
  · exact h key entry hentry

/-- No lookup on a fixed chain caches anything but its state. -/
theorem attempt_coherent (call : Call) (h : Coherent chain self) :
    Coherent chain (finalState (attempt (.ofChain chain, call) self)) := by
  rw [finalState_attempt]
  cases call with
  | getAccount key =>
      rw [finalState_getAccount, getAccount_ofChain]
      cases hentry : self.cache key with
      | some entry => exact h
      | none =>
          cases hchain : chain key with
          | some account =>
              have hstored := h.assign [key] (self.requests ++ [[key]])
              rw [List.map_singleton, hchain] at hstored
              exact hstored
          | none => exact h
  | getMultiple keys => exact h
  | getAccounts keys =>
      change Coherent chain (finalState (getAccounts _ keys self))
      by_cases hmissing : self.missing keys = []
      · rw [getAccounts_held hmissing]
        exact h
      · rw [getAccounts_fetched hmissing rfl]
        have hstored : Coherent chain (self.stored keys ((self.missing keys).map chain)) := by
          rw [RpcClientCache.stored, ← List.map_prod_left_eq_zip]
          exact h.assign _ _
        rcases reads_reassemble (self.results keys ((self.missing keys).map chain)) keys
          (self.stored keys ((self.missing keys).map chain)) with ⟨items, hitems⟩ | ⟨e, he⟩
        · rw [hitems]
          exact hstored
        · rw [he]
          exact hstored

theorem session_coherent (chain : Pubkey → Option Account) (calls : List Call) :
    Coherent chain (session chain calls) := by
  unfold session
  induction calls using List.reverseRecOn with
  | nil => exact coherent_new
  | append_singleton calls call ih =>
      rw [List.map_append, List.map_singleton, run_concat]
      exact attempt_coherent call ih

/-- A single and a batch lookup of a key give the same answer and cache the same entry. -/
structure Agrees (rpc : RpcClient) (self : RpcClientCache) (key : Pubkey) : Prop where
  answers : ∀ answer, (∃ after, getAccount rpc key self = .ok answer after) ↔
    ∃ after, getAccounts rpc [key] self = .ok [answer] after
  entries : (finalState (getAccount rpc key self)).cache key =
    (finalState (getAccounts rpc [key] self)).cache key

/-- After any lookups on a fixed chain, a single and a batch lookup of a key agree exactly
when the key is cached or its account exists. -/
theorem lookups_agree_iff (chain : Pubkey → Option Account) (calls : List Call) (key : Pubkey) :
    Agrees (.ofChain chain) (session chain calls) key ↔
      (session chain calls).cache key ≠ none ∨ chain key ≠ none := by
  have hcoherent := session_coherent chain calls
  generalize session chain calls = self at hcoherent
  have hsingle := getAccount_ofChain chain key self
  have hbatch := getAccounts_ofChain chain key self
  have hinserted : ((self.asked [key]).insert key (chain key)).cache key = some (chain key) :=
    Function.update_self ..
  cases hentry : self.cache key with
  | some entry =>
      obtain rfl := hcoherent key entry hentry
      rw [RpcClientCache.held, hentry, Option.join_some] at hbatch
      rw [hentry] at hsingle
      refine ⟨fun _ => .inl (by simp), fun _ => ?_⟩
      cases hchain : chain key with
      | some account =>
          rw [hchain] at hbatch hsingle hentry
          refine ⟨fun answer => ?_, ?_⟩
          · rw [hsingle, hbatch]
            simp
          · rw [hsingle, hbatch]
            rfl
      | none =>
          rw [hchain] at hbatch hsingle hentry hinserted
          refine ⟨fun answer => ?_, ?_⟩
          · rw [hsingle, hbatch]
            simp
          · rw [hsingle, hbatch]
            exact hentry.trans hinserted.symm
  | none =>
      rw [RpcClientCache.held, hentry, Option.join_none] at hbatch
      rw [hentry] at hsingle
      cases hchain : chain key with
      | some account =>
          rw [hchain] at hbatch hsingle
          refine ⟨fun _ => .inr (by simp), fun _ => ⟨fun answer => ?_, ?_⟩⟩
          · rw [hsingle, hbatch]
            simp
          · rw [hsingle, hbatch]
            rfl
      | none =>
          rw [hchain] at hbatch hsingle
          refine ⟨fun h => ?_, fun h => by simp at h⟩
          obtain ⟨_, hbad⟩ := (@Agrees.answers _ _ _ h none).mpr ⟨_, hbatch⟩
          rw [hsingle] at hbad
          cases hbad

/-- A fresh cache reports a missing account as an error to a single lookup and as absent to
a batch. -/
theorem lookups_disagree_counterexample :
    ¬ Agrees (.ofChain fun _ => none) (session (fun _ => none) []) default := by
  intro h
  obtain ⟨_, hbad⟩ := (@Agrees.answers _ _ _ h none).mpr ⟨_, rfl⟩
  cases hbad

end QuayTitan.AccountCaching
