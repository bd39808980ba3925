import QuayTitan.Verification.Quay.Pricing
import QuayTitan.Verification.Quay.History

/-! # Venues reached by updates

The token metadata of a venue is that of its pair, base mint first, or there is none yet. -/

namespace QuayTitan.Quay

open Attempts Fallible ByteFields

variable {sdk : Sdk} {venue : QuayVenue}

/-- A venue that some run of updates, failed ones included, left behind. -/
def Reached (sdk : Sdk) (venue : QuayVenue) : Prop :=
  ∃ pubkey account start caches, QuayVenue.fromAccount sdk pubkey account = .ok start ∧
    run (QuayVenue.updateState sdk) caches start = venue

theorem pubkey_of_new {unpackMint : Bytes → Option MintState} {mint : Pubkey}
    {account : Account} {epoch : UInt64} {info : TokenInfo}
    (h : TokenInfo.new unpackMint mint account epoch = .ok info) : info.pubkey = mint := by
  unfold TokenInfo.new at h
  split at h
  · obtain rfl := Except.ok.inj h
    rfl
  · cases h

/-- The metadata of the pair. -/
structure PairTokens (venue : QuayVenue) (base quote : TokenInfo) : Prop where
  tokens_eq : venue.tokens = [base, quote]
  base_eq : base.pubkey = venue.baseMint
  quote_eq : quote.pubkey = venue.quoteMint

/-- Either no update succeeded yet, or the last one left the metadata of the pair. -/
inductive TokensKnown (venue : QuayVenue) : Prop
  | unread (tokens_eq : venue.tokens = []) (mmData_eq : venue.mmData = [])
  | paired (base quote : TokenInfo) (pair : PairTokens venue base quote)

theorem commit_pairTokens {cache : AccountsCache} {snap : Snapshot}
    (h : Answers sdk cache venue snap) :
    PairTokens (snap.commit venue) snap.baseInfo snap.quoteInfo := by
  obtain ⟨_, _, hbase⟩ := h.baseMint
  obtain ⟨_, _, hquote⟩ := h.quoteMint
  exact ⟨rfl, pubkey_of_new hbase, pubkey_of_new hquote⟩

theorem Reached.tokensKnown (h : Reached sdk venue) : TokensKnown venue := by
  obtain ⟨pubkey, account, start, caches, hfrom, rfl⟩ := h
  obtain ⟨strategy, hconstructed⟩ := fromAccount_ok_iff.mp hfrom
  apply run_invariant TokensKnown (atomic_updateState sdk) _ caches
  · rw [hconstructed.venue_eq]
    exact .unread rfl rfl
  · intro cache state state' _ hstep
    obtain ⟨snap, hanswers, rfl⟩ := updateState_ok_iff.mp hstep
    exact .paired _ _ (commit_pairTokens hanswers)

theorem Reached.pairTokens (h : Reached sdk venue) (hinit : venue.initialized sdk = true) :
    ∃ base quote, PairTokens venue base quote := by
  cases h.tokensKnown with
  | unread _ mmData_eq =>
      obtain ⟨_, ⟨_, hread, _⟩, _⟩ := initialized_iff.mp hinit
      exact (hread mmData_eq).elim
  | paired base quote pair => exact ⟨base, quote, pair⟩

/-- Both mints of the pair are found in the metadata. -/
theorem PairTokens.find_base {base quote : TokenInfo} (h : PairTokens venue base quote) :
    venue.tokens.find? (·.pubkey = venue.baseMint) = some base := by
  rw [h.tokens_eq, List.find?_cons_of_pos]
  simpa using h.base_eq

theorem PairTokens.find_quote {base quote : TokenInfo} (h : PairTokens venue base quote) :
    ∃ info, venue.tokens.find? (·.pubkey = venue.quoteMint) = some info := by
  rw [← Option.isSome_iff_exists, List.find?_isSome]
  exact ⟨quote, by simp [h.tokens_eq], by simpa using h.quote_eq⟩

theorem PairTokens.decimals {base quote : TokenInfo} (h : PairTokens venue base quote) :
    ∃ baseDecimals quoteDecimals,
      venue.decimalsOf venue.baseMint "base TokenInfo" = .ok baseDecimals ∧
      venue.decimalsOf venue.quoteMint "quote TokenInfo" = .ok quoteDecimals := by
  obtain ⟨info, hinfo⟩ := h.find_quote
  refine ⟨base.decimals.toUInt32.toUInt8, info.decimals.toUInt32.toUInt8, ?_, ?_⟩
  · rw [QuayVenue.decimalsOf, h.find_base]
    rfl
  · rw [QuayVenue.decimalsOf, hinfo]
    rfl

end QuayTitan.Quay
