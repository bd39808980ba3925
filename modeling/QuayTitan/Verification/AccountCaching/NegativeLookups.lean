import QuayTitan.Verification.AccountCaching.Agreement

/-! # Entries stored by a lookup -/

namespace QuayTitan.AccountCaching

open Assignments Attempts

variable {rpc : RpcClient} {self : RpcClientCache} {key : Pubkey} {entry : Option Account}

/-! ## What a batch does -/

/-- The outcomes of a batch: all its keys are held, the request fails, or the answer is
stored. -/
theorem getAccounts_cases (rpc : RpcClient) (keys : List Pubkey) (self : RpcClientCache) :
    (self.missing keys = [] ∧ getAccounts rpc keys self = .ok (keys.map self.held) self) ∨
      (self.missing keys ≠ [] ∧
        ∃ e, getAccounts rpc keys self = .error e (self.asked (self.missing keys))) ∨
      (self.missing keys ≠ [] ∧ ∃ response, getAccounts rpc keys self =
        reassemble (self.results keys response) keys (self.stored keys response)) := by
  by_cases hmissing : self.missing keys = []
  · exact .inl ⟨hmissing, getAccounts_held hmissing⟩
  · cases hanswer : rpc.getMultipleAccounts (self.missing keys) with
    | error e => exact .inr (.inl ⟨hmissing, _, getAccounts_failed hmissing hanswer⟩)
    | ok response =>
        exact .inr (.inr ⟨hmissing, response, getAccounts_fetched hmissing hanswer⟩)

theorem finalState_reassemble (resultMap : Pubkey → Option (Option Account))
    (keys : List Pubkey) (self : RpcClientCache) :
    finalState (reassemble resultMap keys self) = self := by
  rcases reads_reassemble resultMap keys self with ⟨items, hitems⟩ | ⟨e, he⟩
  · rw [hitems, finalState]
  · rw [he, finalState]

/-- A batch asks for its missing keys, if there are any. -/
theorem getAccounts_requests (keys : List Pubkey) :
    (finalState (getAccounts rpc keys self)).requests =
      self.requests ++ if self.missing keys = [] then [] else [self.missing keys] := by
  rcases getAccounts_cases rpc keys self with ⟨hnone, h⟩ | ⟨hsome, e, h⟩ | ⟨hsome, response, h⟩
  · rw [h, if_pos hnone, List.append_nil, finalState]
  · rw [h, if_neg hsome, finalState, RpcClientCache.asked]
  · rw [h, if_neg hsome, finalState_reassemble, RpcClientCache.stored, RpcClientCache.asked]

/-- A batch leaves the entries of all other keys. -/
theorem getAccounts_keeps {keys : List Pubkey} (h : key ∉ self.missing keys) :
    (finalState (getAccounts rpc keys self)).cache key = self.cache key := by
  rcases getAccounts_cases rpc keys self with ⟨_, hdone⟩ | ⟨_, e, hdone⟩ | ⟨_, response, hdone⟩
  · rw [hdone, finalState]
  · rw [hdone, finalState, asked_cache]
  · rw [hdone, finalState_reassemble, RpcClientCache.stored]
    exact assign_fetched h

/-- A batch answers with the account the cache holds. -/
theorem getAccounts_answers {keys : List Pubkey} {answers : List (Option Account)}
    {after : RpcClientCache} {account : Account} {i : Nat} (hheld : self.held key = some account)
    (hkey : keys[i]? = some key) (h : getAccounts rpc keys self = .ok answers after) :
    answers[i]? = some (some account) := by
  rcases getAccounts_cases rpc keys self with ⟨_, hdone⟩ | ⟨_, e, hdone⟩ | ⟨_, response, hdone⟩
  · rw [h] at hdone
    injection hdone with hanswers _
    rw [hanswers, List.getElem?_map, hkey, Option.map_some, hheld]
  · rw [h] at hdone
    cases hdone
  · rw [h, eq_comm, reassemble_ok_iff] at hdone
    have hresult := congrArg (·[i]?) hdone.2
    simp only [List.getElem?_map, hkey, Option.map_some,
      results_of_held (List.mem_of_getElem? hkey) hheld] at hresult
    cases hanswer : answers[i]? with
    | none => simp [hanswer] at hresult
    | some answer =>
        rw [hanswer, Option.map_some, Option.some.injEq, Option.some.injEq] at hresult
        rw [hresult]

/-! ## Stored entries -/

theorem held_of_entry (hentry : self.cache key = some entry) : self.held key = entry := by
  rw [RpcClientCache.held, hentry, Option.join_some]

/-- What a call may do once `entry` is stored for `key`: it does not ask for the key, and
answers it with the entry. -/
structure Honours (call : RpcClient × Call) (cached : RpcClientCache) (key : Pubkey)
    (entry : Option Account) : Prop where
  unasked : ∀ keys ∈ (finalState (attempt call cached)).requests.drop cached.requests.length,
    key ∉ keys
  answered : ∀ (answers : List (Option Account)) (after : RpcClientCache),
    call.2.perform call.1 cached = .ok answers after →
      ∀ i : Nat, call.2.keys[i]? = some key → answers[i]? = some entry

/-- The call is a batch that lists the key. -/
def Call.Batches : Call → Pubkey → Prop
  | .getAccounts keys, key => key ∈ keys
  | _, _ => False

/-- An answer from the cache alone honours the entries it gives. -/
theorem honours_of_unchanged {call : Call} {answers : List (Option Account)}
    (hperform : call.perform rpc self = .ok answers self)
    (hanswers : ∀ i : Nat, call.keys[i]? = some key → answers[i]? = some entry) :
    Honours (rpc, call) self key entry := by
  refine ⟨?_, ?_⟩
  · rw [finalState_attempt, hperform, finalState, List.drop_length]
    simp
  · intro answers' after hdone
    rw [hperform] at hdone
    injection hdone with hsame _
    rw [← hsame]
    exact hanswers

theorem getAccount_perform (other : Pubkey) :
    (Call.getAccount other).perform rpc self =
      (getAccount rpc other >>= fun answer => pure [answer] : CacheM _) self := rfl

theorem getAccount_hit_honours {other : Pubkey} {cached : Option Account}
    (hentry : self.cache key = some entry) (hcached : self.cache other = some cached) :
    Honours (rpc, .getAccount other) self key entry := by
  apply @honours_of_unchanged _ _ _ _ _ [cached]
  · rw [getAccount_perform]
    simp only [bind, EStateM.bind, getAccount_hit hcached]
    rfl
  · intro i hi
    cases i with
    | zero =>
        obtain rfl : other = key := by simpa [Call.keys] using hi
        rw [hentry] at hcached
        rw [Option.some.inj hcached]
        rfl
    | succ i => simp [Call.keys] at hi

/-- What a single lookup of a key that is not cached leaves behind. -/
theorem getAccount_fetch {other : Pubkey} (hmiss : self.cache other = none) :
    finalState (getAccount rpc other self) = self.asked [other] ∨
      ∃ account, finalState (getAccount rpc other self) =
        (self.asked [other]).insert other account := by
  rw [getAccount_miss hmiss]
  cases hanswer : rpc.getAccount other with
  | error e =>
      left
      rw [request_error rfl, finalState]
  | ok account =>
      right
      refine ⟨some account, ?_⟩
      rw [request_ok rfl]
      rfl

theorem getAccount_miss_honours {other : Pubkey} (hne : other ≠ key)
    (hmiss : self.cache other = none) : Honours (rpc, .getAccount other) self key entry := by
  have hrequests : (finalState (getAccount rpc other self)).requests =
      self.requests ++ [[other]] := by
    rcases @getAccount_fetch rpc self other hmiss with h | ⟨account, h⟩ <;> rw [h] <;> rfl
  refine ⟨?_, ?_⟩
  · intro keys hkeys
    rw [finalState_attempt, finalState_getAccount, hrequests, List.drop_left,
      List.mem_singleton] at hkeys
    rw [hkeys, List.mem_singleton]
    exact hne.symm
  · intro answers after _ i hi
    have hmem := List.mem_of_getElem? hi
    exact absurd (List.mem_singleton.mp hmem).symm hne

theorem getMultiple_honours (keys : List Pubkey) (hentry : self.cache key = some entry) :
    Honours (rpc, .getMultiple keys) self key entry := by
  apply @honours_of_unchanged _ _ _ _ _ (self.getMultiple keys) rfl
  intro i hi
  change keys[i]? = some key at hi
  rw [getMultiple_eq, List.getElem?_map, hi, Option.map_some, held_of_entry hentry]

theorem not_mem_missing {keys : List Pubkey} (hentry : self.cache key = some entry)
    (hkeys : key ∈ keys → entry ≠ none) : key ∉ self.missing keys := by
  intro hmem
  obtain ⟨hkey, hnone⟩ := mem_missing.mp hmem
  rw [held_of_entry hentry] at hnone
  exact hkeys hkey hnone

theorem getAccounts_honours {keys : List Pubkey} (hentry : self.cache key = some entry)
    (hkeys : key ∈ keys → entry ≠ none) : Honours (rpc, .getAccounts keys) self key entry := by
  refine ⟨?_, ?_⟩
  · intro asked hasked
    rw [finalState_attempt] at hasked
    change asked ∈ List.drop _ (finalState (getAccounts rpc keys self)).requests at hasked
    rw [getAccounts_requests, List.drop_left] at hasked
    split at hasked
    · cases hasked
    · rw [List.mem_singleton.mp hasked]
      exact not_mem_missing hentry hkeys
  · intro answers after hdone i hi
    obtain ⟨account, rfl⟩ := Option.ne_none_iff_exists'.mp (hkeys (List.mem_of_getElem? hi))
    exact getAccounts_answers (held_of_entry hentry) hi hdone

/-- A call honours a stored entry unless it is a batch that lists a key stored as missing. -/
theorem attempt_honours {call : RpcClient × Call} (hentry : self.cache key = some entry)
    (hcall : call.2.Batches key → entry ≠ none) : Honours call self key entry := by
  obtain ⟨rpc, call⟩ := call
  cases call with
  | getAccount other =>
      cases hother : self.cache other with
      | none =>
          apply getAccount_miss_honours _ hother
          rintro rfl
          rw [hother] at hentry
          cases hentry
      | some cached => exact getAccount_hit_honours hentry hother
  | getMultiple keys => exact getMultiple_honours keys hentry
  | getAccounts keys => exact getAccounts_honours hentry hcall

/-- It also keeps the entry. -/
theorem attempt_keeps {call : RpcClient × Call} (hentry : self.cache key = some entry)
    (hcall : call.2.Batches key → entry ≠ none) :
    (finalState (attempt call self)).cache key = some entry := by
  obtain ⟨rpc, call⟩ := call
  rw [finalState_attempt]
  cases call with
  | getAccount other =>
      rw [finalState_getAccount]
      cases hother : self.cache other with
      | none =>
          have hne : key ≠ other := by
            rintro rfl
            rw [hother] at hentry
            cases hentry
          rcases @getAccount_fetch rpc self other hother with h | ⟨account, h⟩
          · rw [h, asked_cache, hentry]
          · rw [h]
            exact (Function.update_of_ne hne _ _).trans hentry
      | some cached => rw [getAccount_hit hother, finalState, hentry]
  | getMultiple keys => exact hentry
  | getAccounts keys => exact (getAccounts_keeps (not_mem_missing hentry hcall)).trans hentry

/-- A batch that lists a key stored as missing asks for it again. -/
theorem not_honours {keys : List Pubkey} (hentry : self.cache key = some none)
    (hkey : key ∈ keys) : ¬ Honours (rpc, .getAccounts keys) self key none := by
  intro h
  have hmem : key ∈ self.missing keys :=
    mem_missing.mpr ⟨hkey, held_of_entry hentry⟩
  refine h.unasked (self.missing keys) ?_ hmem
  rw [finalState_attempt]
  change _ ∈ List.drop _ (finalState (getAccounts rpc keys self)).requests
  rw [getAccounts_requests, List.drop_left, if_neg (List.ne_nil_of_mem hmem)]
  exact List.mem_singleton_self _

/-! ## Whole runs -/

/-- Between two resets, every call honours the entries stored by the calls before it. -/
def EntriesHonoured (self : RpcClientCache) (calls : List (RpcClient × Call)) : Prop :=
  ∀ before between call after, calls = before ++ between ++ call :: after →
    ∀ key entry, (run attempt before self.resetCache).cache key = some entry →
      Honours call (run attempt (before ++ between) self.resetCache) key entry

/-- No batch lists a key that is stored as missing by then. -/
def NoMissingBatched (self : RpcClientCache) (calls : List (RpcClient × Call)) : Prop :=
  ∀ before call after, calls = before ++ call :: after →
    ∀ key, call.2.Batches key → (run attempt before self.resetCache).cache key ≠ some none

/-- A stored entry stays as long as no batch lists a key stored as missing. -/
theorem NoMissingBatched.kept {calls : List (RpcClient × Call)}
    (h : NoMissingBatched self calls) {before between after : List (RpcClient × Call)}
    (hcalls : calls = before ++ between ++ after)
    (hentry : (run attempt before self.resetCache).cache key = some entry) :
    (run attempt (before ++ between) self.resetCache).cache key = some entry := by
  induction between using List.reverseRecOn generalizing after with
  | nil => rwa [List.append_nil]
  | append_singleton between call ih =>
      have hkept := @ih (call :: after) (by simp [hcalls])
      rw [← List.append_assoc, run_concat]
      apply attempt_keeps hkept
      rintro hbatch rfl
      exact h (before ++ between) call after (by simp [hcalls]) key hbatch hkept

/-- The calls of a run honour the stored entries exactly when no batch lists a key stored as
missing. -/
theorem entriesHonoured_iff (self : RpcClientCache) (calls : List (RpcClient × Call)) :
    EntriesHonoured self calls ↔ NoMissingBatched self calls := by
  constructor
  · intro h before call after hcalls key hbatch hentry
    have hhonours := h before [] call after (by simpa using hcalls) key none hentry
    rw [List.append_nil] at hhonours
    obtain ⟨rpc, _ | _ | keys⟩ := call
    · exact hbatch
    · exact hbatch
    · exact not_honours hentry hbatch hhonours
  · intro h before between call after hcalls key entry hentry
    have hkept := h.kept hcalls hentry
    apply attempt_honours hkept
    rintro hbatch rfl
    exact h _ call after hcalls key hbatch hkept

/-- A missing account is asked for by every batch that lists it. -/
theorem entriesHonoured_counterexample :
    ¬ EntriesHonoured .new [(.ofChain fun _ => none, .getAccounts [default]),
      (.ofChain fun _ => none, .getAccounts [default])] := by
  intro h
  have hhonours := h [(.ofChain fun _ => none, .getAccounts [default])] [] _ [] rfl default none rfl
  exact hhonours.unasked [default] (.head _) (.head _)

end QuayTitan.AccountCaching
