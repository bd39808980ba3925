import QuayTitan.Verification.AccountCaching.NegativeLookups

/-! # Batches of accounts -/

namespace QuayTitan.AccountCaching

open Assignments Attempts Fallible

variable {rpc : RpcClient} {self after : RpcClientCache} {pubkeys : List Pubkey}
  {response items : List (Option Account)} {key : Pubkey}

/-! ## Which keys have a result -/

/-- A key of the response is answered with one of its entries. -/
theorem results_of_answered (h : key ∈ (self.missing pubkeys).take response.length) :
    ∃ value, (key, value) ∈ (self.missing pubkeys).zip response ∧
      self.results pubkeys response key = some value := by
  apply exists_assign_of_mem
  rwa [map_fst_zip_eq_take]

/-- A missing key that the response does not reach has no result. -/
theorem results_eq_none (hmissing : key ∈ self.missing pubkeys)
    (h : key ∉ (self.missing pubkeys).take response.length) :
    self.results pubkeys response key = none := by
  have hhits : key ∉ pubkeys.filter fun key => self.held key ≠ none := by
    simp [(mem_missing.mp hmissing).2]
  rw [RpcClientCache.results, assign_of_not_mem, RpcClientCache.hits, assign_graph, if_neg hhits]
  rintro pair hpair rfl
  apply h
  rw [← map_fst_zip_eq_take]
  exact List.mem_map_of_mem hpair

/-- A key of the batch has a result when it is held or answered. -/
theorem exists_results (hkey : key ∈ pubkeys)
    (h : key ∈ self.missing pubkeys → key ∈ (self.missing pubkeys).take response.length) :
    ∃ value, self.results pubkeys response key = some value := by
  cases hheld : self.held key with
  | none =>
      obtain ⟨value, _, hvalue⟩ := results_of_answered (h (mem_missing.mpr ⟨hkey, hheld⟩))
      exact ⟨value, hvalue⟩
  | some account => exact ⟨some account, results_of_held hkey hheld⟩

/-! ## Malformed answers -/

/-- A batch that returned: an error of the trait, or an entry for every key. -/
def Graceful (pubkeys : List Pubkey) :
    EStateM.Result (Stop AccountCacheError) RpcClientCache (List (Option Account)) → Prop
  | .ok items _ => items.length = pubkeys.length
  | .error (.returned _) _ => True
  | .error .panicked _ => False

/-- Keys that all have results are reassembled into as many items. -/
theorem reassemble_results {resultMap : Pubkey → Option (Option Account)}
    (h : ∀ key ∈ pubkeys, ∃ value, resultMap key = some value) :
    ∃ items, reassemble resultMap pubkeys self = .ok items self ∧
      pubkeys.map resultMap = items.map some := by
  have hitems : ∃ items : List (Option Account), pubkeys.map resultMap = items.map some := by
    induction pubkeys with
    | nil => exact ⟨[], rfl⟩
    | cons key rest ih =>
        obtain ⟨value, hvalue⟩ := h key (.head _)
        obtain ⟨items, hitems⟩ := ih fun other hother => h other (.tail _ hother)
        exact ⟨value :: items, by rw [List.map_cons, hvalue, hitems, List.map_cons]⟩
  obtain ⟨items, hitems⟩ := hitems
  exact ⟨items, reassemble_ok_iff.mpr ⟨rfl, hitems⟩, hitems⟩

/-- A key without a result is the `unwrap` on `None`. -/
theorem reassemble_panicked {resultMap : Pubkey → Option (Option Account)}
    (hkey : key ∈ pubkeys) (h : resultMap key = none) :
    reassemble resultMap pubkeys self = .error .panicked self := by
  induction pubkeys with
  | nil => cases hkey
  | cons first rest ih =>
      cases hfirst : resultMap first with
      | none =>
          simp only [reassemble, hfirst]
          rfl
      | some item =>
          have hrest : key ∈ rest := by
            rcases List.mem_cons.mp hkey with rfl | hrest
            · rw [hfirst] at h
              cases h
            · exact hrest
          simp only [reassemble, hfirst, bind, EStateM.bind, ih hrest]

/-- The items stand in the order of the keys. -/
theorem getElem?_reassembled {resultMap : Pubkey → Option (Option Account)} {i : Nat}
    (h : pubkeys.map resultMap = items.map some) (hkey : pubkeys[i]? = some key) :
    items[i]? = resultMap key := by
  have hi := congrArg (·[i]?) h
  simp only [List.getElem?_map, hkey, Option.map_some] at hi
  cases hitem : items[i]? with
  | none => simp [hitem] at hi
  | some item => simpa [hitem, eq_comm] using hi

/-- Reassembling returns exactly when every key has a result. -/
theorem graceful_reassemble {resultMap : Pubkey → Option (Option Account)} :
    Graceful pubkeys (reassemble resultMap pubkeys self) ↔
      ∀ key ∈ pubkeys, ∃ value, resultMap key = some value := by
  constructor
  · intro h key hkey
    rw [← Option.isSome_iff_exists, Option.isSome_iff_ne_none]
    intro hnone
    rw [reassemble_panicked hkey hnone] at h
    exact h
  · intro h
    obtain ⟨items, hdone, hitems⟩ := @reassemble_results self _ _ h
    have hlength := congrArg List.length hitems
    rw [List.length_map, List.length_map] at hlength
    rw [hdone, Graceful, hlength]

/-- A batch returns exactly when the node's answer reaches every key that it was asked for. -/
theorem getAccounts_graceful_iff (rpc : RpcClient) (pubkeys : List Pubkey)
    (self : RpcClientCache) :
    Graceful pubkeys (getAccounts rpc pubkeys self) ↔
      ∀ response, rpc.getMultipleAccounts (self.missing pubkeys) = .ok response →
        ∀ key ∈ self.missing pubkeys, key ∈ (self.missing pubkeys).take response.length := by
  by_cases hmissing : self.missing pubkeys = []
  · rw [getAccounts_held hmissing, hmissing]
    simp [Graceful]
  · cases hanswer : rpc.getMultipleAccounts (self.missing pubkeys) with
    | error e =>
        rw [getAccounts_failed hmissing hanswer]
        simp [Graceful]
    | ok response =>
        rw [getAccounts_fetched hmissing hanswer, graceful_reassemble]
        constructor
        · intro h _ hresponse key hkey
          cases hresponse
          by_contra hreached
          obtain ⟨value, hvalue⟩ := h key (mem_missing.mp hkey).1
          rw [results_eq_none hkey hreached] at hvalue
          cases hvalue
        · intro h key hkey
          exact exists_results hkey (h response rfl key)

/-- An empty answer for one key. -/
theorem getAccounts_graceful_counterexample :
    ¬ Graceful [default] (getAccounts ⟨fun _ => .error "", fun _ => .ok []⟩ [default] .new) := by
  intro h
  exact h

/-! ## Well-formed answers -/

/-- An answer with one entry for each key, and the same entry for the same key. -/
structure Answers (keys : List Pubkey) (response : List (Option Account)) : Prop where
  length_eq : response.length = keys.length
  consistent : ∀ i j : Nat, keys[i]? = keys[j]? → response[i]? = response[j]?

/-- A node that answers every batch so, or with an error. -/
def RpcClient.AnswersBatches (rpc : RpcClient) : Prop :=
  ∀ keys response, rpc.getMultipleAccounts keys = .ok response → Answers keys response

/-- What a batch returns and leaves in the cache. -/
structure Batched (rpc : RpcClient) (self : RpcClientCache) (pubkeys : List Pubkey)
    (items : List (Option Account)) (after : RpcClientCache) : Prop where
  length_eq : items.length = pubkeys.length
  held : ∀ (i : Nat) key account, pubkeys[i]? = some key →
    self.cache key = some (some account) → items[i]? = some (some account)
  fetched : ∀ (i : Nat) key, pubkeys[i]? = some key →
    (∀ account, self.cache key ≠ some (some account)) →
      ∃ response, rpc.getMultipleAccounts (self.missing pubkeys) = .ok response ∧
        ∃ j : Nat, (self.missing pubkeys)[j]? = some key ∧ items[i]? = response[j]?
  kept : ∀ key account, self.cache key = some (some account) →
    after.cache key = some (some account)
  stored : ∀ (i : Nat) key, pubkeys[i]? = some key → after.cache key = items[i]?
  others : ∀ key ∉ pubkeys, after.cache key = self.cache key

theorem held_eq_some {account : Account} :
    self.held key = some account ↔ self.cache key = some (some account) := by
  rw [RpcClientCache.held, Option.join_eq_some_iff]

theorem held_eq_none :
    self.held key = none ↔ ∀ account, self.cache key ≠ some (some account) := by
  rw [Option.eq_none_iff_forall_ne_some]
  exact forall_congr' fun account => not_congr held_eq_some

/-- A batch whose keys are all held. -/
theorem batched_held (h : self.missing pubkeys = []) :
    Batched rpc self pubkeys (pubkeys.map self.held) self := by
  have hitem : ∀ (i : Nat) key, pubkeys[i]? = some key →
      (pubkeys.map self.held)[i]? = some (self.held key) := by
    intro i key hi
    rw [List.getElem?_map, hi, Option.map_some]
  refine ⟨List.length_map _, ?held, ?fetched, fun _ _ hentry => hentry, ?stored, fun _ _ => rfl⟩
  case held =>
    intro i key account hi hentry
    rw [hitem i key hi, held_eq_some.mpr hentry]
  case fetched =>
    intro i key hi hnone
    obtain ⟨account, haccount⟩ := exists_held h (List.mem_of_getElem? hi)
    exact absurd (held_eq_some.mp haccount) (hnone account)
  case stored =>
    intro i key hi
    obtain ⟨account, haccount⟩ := exists_held h (List.mem_of_getElem? hi)
    rw [hitem i key hi, haccount, held_eq_some.mp haccount]

/-- A batch whose missing keys the node answered. -/
theorem batched_fetched
    (hanswer : rpc.getMultipleAccounts (self.missing pubkeys) = .ok response)
    (hresponse : Answers (self.missing pubkeys) response)
    (hitems : pubkeys.map (self.results pubkeys response) = items.map some) :
    Batched rpc self pubkeys items (self.stored pubkeys response) := by
  have hfetched : ∀ (j : Nat) key, (self.missing pubkeys)[j]? = some key →
      ∀ m, assign m ((self.missing pubkeys).zip response) key = response[j]? :=
    fun j key hj m => assign_zip hresponse.length_eq hresponse.consistent hj
  have hkept : ∀ key account, self.cache key = some (some account) →
      (self.stored pubkeys response).cache key = some (some account) := by
    intro key account hentry
    refine (assign_fetched ?_).trans hentry
    simp [mem_missing, held_eq_some.mpr hentry]
  have hheld : ∀ (i : Nat) key account, pubkeys[i]? = some key →
      self.cache key = some (some account) → items[i]? = some (some account) := by
    intro i key account hi hentry
    rw [getElem?_reassembled hitems hi]
    exact results_of_held (List.mem_of_getElem? hi) (held_eq_some.mpr hentry)
  have hmissing : ∀ (i : Nat) key, pubkeys[i]? = some key → self.held key = none →
      ∃ j : Nat, (self.missing pubkeys)[j]? = some key := fun i key hi hnone =>
    List.mem_iff_getElem?.mp (mem_missing.mpr ⟨List.mem_of_getElem? hi, hnone⟩)
  refine ⟨?length, hheld, ?fetched, hkept, ?stored, ?others⟩
  case length =>
    have hlength := congrArg List.length hitems
    rwa [List.length_map, List.length_map, eq_comm] at hlength
  case fetched =>
    intro i key hi hnone
    obtain ⟨j, hj⟩ := hmissing i key hi (held_eq_none.mpr hnone)
    refine ⟨response, hanswer, j, hj, ?_⟩
    rw [getElem?_reassembled hitems hi]
    exact hfetched j key hj _
  case stored =>
    intro i key hi
    cases hentry : self.held key with
    | none =>
        obtain ⟨j, hj⟩ := hmissing i key hi hentry
        rw [getElem?_reassembled hitems hi]
        exact (hfetched j key hj _).trans (hfetched j key hj _).symm
    | some account =>
        have hcached := held_eq_some.mp hentry
        rw [hkept key account hcached, hheld i key account hi hcached]
  case others =>
    intro key hkey
    exact assign_fetched fun hmem => hkey (mem_missing.mp hmem).1

/-- With a node that answers batches entry by entry, a batch returns an entry for every key and
stores it; when the node fails, the batch fails and the cache stays. -/
theorem getAccounts_batched (rpc : RpcClient) (pubkeys : List Pubkey) (self : RpcClientCache)
    (hrpc : rpc.AnswersBatches) :
    (∀ e, self.missing pubkeys ≠ [] →
      rpc.getMultipleAccounts (self.missing pubkeys) = .error e →
        ∃ after, getAccounts rpc pubkeys self =
            .error (.returned (.failedToFetchAccount e)) after ∧
          after.cache = self.cache) ∧
      ((self.missing pubkeys = [] ∨
          (rpc.getMultipleAccounts (self.missing pubkeys)).isOk = true) →
        ∃ items after, getAccounts rpc pubkeys self = .ok items after ∧
          Batched rpc self pubkeys items after) := by
  constructor
  · intro e hmissing hanswer
    exact ⟨_, getAccounts_failed hmissing hanswer, asked_cache _⟩
  · intro hdone
    by_cases hmissing : self.missing pubkeys = []
    · exact ⟨_, _, getAccounts_held hmissing, batched_held hmissing⟩
    · obtain ⟨response, hanswer⟩ := exists_of_isOk (hdone.resolve_left hmissing)
      have hresponse := hrpc _ _ hanswer
      obtain ⟨items, hreassemble, hitems⟩ := @reassemble_results (self.stored pubkeys response)
        pubkeys (self.results pubkeys response) fun key hkey => exists_results hkey fun hmem => by
          rwa [hresponse.length_eq, List.take_length]
      refine ⟨items, self.stored pubkeys response, ?_, batched_fetched hanswer hresponse hitems⟩
      rw [getAccounts_fetched hmissing hanswer, hreassemble]

theorem answersBatches_ofChain (chain : Pubkey → Option Account) :
    (RpcClient.ofChain chain).AnswersBatches := by
  intro keys response hanswer
  obtain rfl : keys.map chain = response := Except.ok.inj hanswer
  refine ⟨List.length_map _, fun i j hij => ?_⟩
  rw [List.getElem?_map, List.getElem?_map, hij]

/-! ## A key that is held, one on chain and one stored as missing -/

namespace Sample

def alike (byte : UInt8) : Pubkey := ⟨List.replicate 32 byte, List.length_replicate⟩

/-- The second and the third account are on chain by now, the first one has changed there. -/
def chain (address : Pubkey) : Option Account :=
  if address = alike 1 then some ⟨5, [], default⟩
  else if address = alike 2 then some ⟨6, [], default⟩
  else if address = alike 3 then some ⟨7, [], default⟩
  else none

def partlyHeld : RpcClientCache :=
  (RpcClientCache.new.insert (alike 1) (some ⟨4, [], default⟩)).insert (alike 3) none

end Sample

theorem getAccounts_batched_sample :
    ∃ items after, getAccounts (.ofChain Sample.chain)
        [Sample.alike 1, Sample.alike 2, Sample.alike 4, Sample.alike 3] Sample.partlyHeld =
          .ok items after ∧
      items = [some ⟨4, [], default⟩, some ⟨6, [], default⟩, none, some ⟨7, [], default⟩] ∧
      Batched (.ofChain Sample.chain) Sample.partlyHeld
        [Sample.alike 1, Sample.alike 2, Sample.alike 4, Sample.alike 3] items after := by
  obtain ⟨items, after, hok, hbatched⟩ := (getAccounts_batched (.ofChain Sample.chain)
    [Sample.alike 1, Sample.alike 2, Sample.alike 4, Sample.alike 3] Sample.partlyHeld
    (answersBatches_ofChain _)).2 (.inr rfl)
  have hitems : (getAccounts (.ofChain Sample.chain)
      [Sample.alike 1, Sample.alike 2, Sample.alike 4, Sample.alike 3]).run' Sample.partlyHeld =
        some [some ⟨4, [], default⟩, some ⟨6, [], default⟩, none, some ⟨7, [], default⟩] := by
    decide +kernel
  injection hok.symm.trans (eq_ok_of_run' hitems) with hsame
  exact ⟨items, after, hok, hsame, hbatched⟩

end QuayTitan.AccountCaching
