import QuayTitan.Model.AccountCaching
import QuayTitan.Library.Fallible

/-! # What one lookup does to the cache -/

namespace QuayTitan.AccountCaching

open Assignments Attempts

variable {rpc : RpcClient} {self : RpcClientCache}

/-! ## Requests -/

/-- The cache after it asked the RPC node for some keys. -/
def RpcClientCache.asked (self : RpcClientCache) (keys : List Pubkey) : RpcClientCache :=
  { self with requests := self.requests ++ [keys] }

@[simp] theorem asked_cache (keys : List Pubkey) : (self.asked keys).cache = self.cache := rfl

theorem request_ok {α β : Type} {keys : List Pubkey} {answer : Except String α} {a : α}
    {f : α → CacheM β} (h : answer = .ok a) :
    (request keys answer >>= f) self = f a (self.asked keys) := by
  rw [h]
  rfl

theorem request_error {α β : Type} {keys : List Pubkey} {answer : Except String α} {e : String}
    {f : α → CacheM β} (h : answer = .error e) :
    (request keys answer >>= f) self =
      .error (.returned (.failedToFetchAccount e)) (self.asked keys) := by
  rw [h]
  rfl

/-! ## One key -/

theorem getAccount_hit {key : Pubkey} {entry : Option Account}
    (h : self.cache key = some entry) : getAccount rpc key self = .ok entry self := by
  rw [getAccount, get_bind, h]
  rfl

theorem getAccount_miss {key : Pubkey} (h : self.cache key = none) :
    getAccount rpc key self =
      (request [key] (rpc.getAccount key) >>= fun response => do
        modify (RpcClientCache.insert key (some response))
        return some response : CacheM (Option Account)) self := by
  rw [getAccount, get_bind, h]

/-! ## A batch of keys -/

/-- The account the cache holds for a key. -/
def RpcClientCache.held (self : RpcClientCache) (key : Pubkey) : Option Account :=
  (self.cache key).join

theorem getMultiple_eq (pubkeys : List Pubkey) :
    self.getMultiple pubkeys = pubkeys.map self.held := by
  apply List.map_congr_left
  intro key _
  rw [RpcClientCache.held]
  cases self.cache key <;> rfl

/-- The keys a batch fetches: those the cache holds no account for. -/
def RpcClientCache.missing (self : RpcClientCache) (pubkeys : List Pubkey) : List Pubkey :=
  pubkeys.filter fun key => self.held key = none

/-- The hits of a batch. -/
def RpcClientCache.hits (self : RpcClientCache) (pubkeys : List Pubkey) :
    List (Pubkey × Option Account) :=
  (pubkeys.filter fun key => self.held key ≠ none).map fun key => (key, self.held key)

/-- The loop over the cached results, from any point on. -/
theorem identifyHits_loop (pubkeys : List Pubkey) (lookup : Lookup) :
    ((pubkeys.map self.held).zip pubkeys).foldl
        (fun lookup (account, pubkey) => lookup.add account pubkey) lookup =
      ⟨lookup.keys ++ self.missing pubkeys, assign lookup.resultMap (self.hits pubkeys)⟩ := by
  induction pubkeys generalizing lookup with
  | nil => simp [RpcClientCache.missing, RpcClientCache.hits]
  | cons key rest ih =>
      rw [List.map_cons, List.zip_cons_cons, List.foldl_cons, ih]
      cases hheld : self.held key with
      | none =>
          simp [Lookup.add, RpcClientCache.missing, RpcClientCache.hits, hheld]
      | some account =>
          simp [Lookup.add, RpcClientCache.missing, RpcClientCache.hits, hheld, assign_cons]

theorem identifyHits_eq (pubkeys : List Pubkey) :
    identifyHits (self.getMultiple pubkeys) pubkeys =
      ⟨self.missing pubkeys, assign (fun _ => none) (self.hits pubkeys)⟩ := by
  rw [getMultiple_eq]
  exact identifyHits_loop pubkeys _

theorem storeResponse_eq (pairs : List (Pubkey × Option Account))
    (resultMap : Pubkey → Option (Option Account)) :
    storeResponse pairs resultMap self =
      .ok (assign resultMap pairs) { self with cache := assign self.cache pairs } := by
  induction pairs generalizing resultMap self with
  | nil => rfl
  | cons pair rest ih => exact ih _

/-- Reassembling succeeds when every key has a result, and then lists them in order. -/
theorem reassemble_ok_iff {resultMap : Pubkey → Option (Option Account)} {pubkeys : List Pubkey}
    {items : List (Option Account)} {after : RpcClientCache} :
    reassemble resultMap pubkeys self = .ok items after ↔
      after = self ∧ pubkeys.map resultMap = items.map some := by
  induction pubkeys generalizing items with
  | nil =>
      change EStateM.Result.ok [] self = .ok items after ↔ _
      rw [EStateM.Result.ok.injEq, List.map_nil, eq_comm (a := []), eq_comm (a := self), and_comm,
        eq_comm (a := []), List.map_eq_nil_iff]
  | cons key rest ih =>
      cases hkey : resultMap key with
      | none =>
          simp only [reassemble, hkey, List.map_cons]
          constructor
          · intro h
            cases h
          · rintro ⟨_, h⟩
            cases items <;> simp at h
      | some item =>
          simp only [reassemble, hkey, List.map_cons, bind, EStateM.bind]
          constructor
          · intro h
            cases hrest : reassemble resultMap rest self with
            | error e s =>
                rw [hrest] at h
                cases h
            | ok others s =>
                rw [hrest] at h
                injection h with hitems hafter
                subst hitems hafter
                obtain ⟨rfl, hothers⟩ := ih.mp hrest
                exact ⟨rfl, by rw [hothers, List.map_cons]⟩
          · rintro ⟨rfl, h⟩
            cases items with
            | nil => cases h
            | cons first others =>
                obtain ⟨hfirst, hothers⟩ := List.cons.inj h
                obtain rfl := Option.some.inj hfirst
                rw [ih.mpr ⟨rfl, hothers⟩]
                rfl

theorem reads_reassemble (resultMap : Pubkey → Option (Option Account)) (pubkeys : List Pubkey) :
    Reads (reassemble resultMap pubkeys) := by
  intro self
  induction pubkeys with
  | nil => exact .inl ⟨[], rfl⟩
  | cons key rest ih =>
      cases hkey : resultMap key with
      | none =>
          refine .inr ⟨.panicked, ?_⟩
          simp only [reassemble, hkey]
          rfl
      | some item =>
          simp only [reassemble, hkey, bind, EStateM.bind]
          rcases ih with ⟨items, hitems⟩ | ⟨e, he⟩
          · exact .inl ⟨item :: items, by rw [hitems]; rfl⟩
          · exact .inr ⟨e, by rw [he]⟩

/-! ## The whole batch -/

/-- The results of a batch after the node answered `response` for the missing keys. -/
def RpcClientCache.results (self : RpcClientCache) (pubkeys : List Pubkey)
    (response : List (Option Account)) : Pubkey → Option (Option Account) :=
  assign (assign (fun _ => none) (self.hits pubkeys)) ((self.missing pubkeys).zip response)

/-- The cache after it stored the answer `response` for the missing keys. -/
def RpcClientCache.stored (self : RpcClientCache) (pubkeys : List Pubkey)
    (response : List (Option Account)) : RpcClientCache :=
  { self.asked (self.missing pubkeys) with
    cache := assign self.cache ((self.missing pubkeys).zip response) }

theorem mem_missing {pubkeys : List Pubkey} {key : Pubkey} :
    key ∈ self.missing pubkeys ↔ key ∈ pubkeys ∧ self.held key = none := by
  simp [RpcClientCache.missing]

theorem assign_fetched {m : Pubkey → Option (Option Account)} {pubkeys : List Pubkey}
    {response : List (Option Account)} {key : Pubkey} (h : key ∉ self.missing pubkeys) :
    assign m ((self.missing pubkeys).zip response) key = m key := by
  apply assign_of_not_mem
  rintro ⟨fetched, value⟩ hpair rfl
  exact h (List.of_mem_zip hpair).1

/-- A key with a cached account is answered from the cache. -/
theorem results_of_held {pubkeys : List Pubkey} {response : List (Option Account)} {key : Pubkey}
    {account : Account} (hkey : key ∈ pubkeys) (hheld : self.held key = some account) :
    self.results pubkeys response key = some (some account) := by
  rw [RpcClientCache.results, assign_fetched fun h => by simp [mem_missing, hheld] at h,
    RpcClientCache.hits, assign_graph, if_pos (by simp [hkey, hheld]), hheld]

theorem getAccounts_read (rpc : RpcClient) (pubkeys : List Pubkey) (self : RpcClientCache) :
    getAccounts rpc pubkeys self = (do
      let resultMap ← (
        if (self.missing pubkeys).isEmpty then
          return assign (fun _ => none) (self.hits pubkeys)
        else do
          let response ← request (self.missing pubkeys)
            (rpc.getMultipleAccounts (self.missing pubkeys))
          storeResponse ((self.missing pubkeys).zip response)
            (assign (fun _ => none) (self.hits pubkeys)))
      reassemble resultMap pubkeys : CacheM _) self := by
  have hhits := @identifyHits_eq self pubkeys
  unfold getAccounts
  change (do
    let lookup := identifyHits (self.getMultiple pubkeys) pubkeys
    let resultMap ← _
    reassemble resultMap pubkeys : CacheM _) self = _
  rw [hhits]

theorem getAccounts_failed {pubkeys : List Pubkey} {e : String}
    (hmissing : self.missing pubkeys ≠ [])
    (hanswer : rpc.getMultipleAccounts (self.missing pubkeys) = .error e) :
    getAccounts rpc pubkeys self =
      .error (.returned (.failedToFetchAccount e)) (self.asked (self.missing pubkeys)) := by
  rw [getAccounts_read, if_neg (by simpa using hmissing), bind_assoc]
  exact request_error hanswer

theorem getAccounts_fetched {pubkeys : List Pubkey} {response : List (Option Account)}
    (hmissing : self.missing pubkeys ≠ [])
    (hanswer : rpc.getMultipleAccounts (self.missing pubkeys) = .ok response) :
    getAccounts rpc pubkeys self =
      reassemble (self.results pubkeys response) pubkeys (self.stored pubkeys response) := by
  rw [getAccounts_read, if_neg (by simpa using hmissing), bind_assoc, request_ok hanswer]
  change EStateM.bind _ _ _ = _
  rw [EStateM.bind, storeResponse_eq]
  rfl

/-- A batch that misses no key holds them all. -/
theorem exists_held {pubkeys : List Pubkey} {key : Pubkey} (h : self.missing pubkeys = [])
    (hkey : key ∈ pubkeys) : ∃ account, self.held key = some account := by
  rw [← Option.isSome_iff_exists, Option.isSome_iff_ne_none]
  intro hnone
  have hmem := mem_missing.mpr ⟨hkey, hnone⟩
  rw [h] at hmem
  cases hmem

/-- A batch of cached accounts makes no request. -/
theorem getAccounts_held {pubkeys : List Pubkey} (h : self.missing pubkeys = []) :
    getAccounts rpc pubkeys self = .ok (pubkeys.map self.held) self := by
  have hreassemble : reassemble (assign (fun _ => none) (self.hits pubkeys)) pubkeys self =
      .ok (pubkeys.map self.held) self := by
    rw [reassemble_ok_iff]
    refine ⟨rfl, ?_⟩
    rw [List.map_map]
    refine List.map_congr_left fun key hkey => ?_
    obtain ⟨account, haccount⟩ := exists_held h hkey
    have hresult := @results_of_held self pubkeys [] key account hkey haccount
    rw [RpcClientCache.results, h] at hresult
    rw [Function.comp, haccount]
    exact hresult
  rw [getAccounts_read, h]
  exact hreassemble

end QuayTitan.AccountCaching
