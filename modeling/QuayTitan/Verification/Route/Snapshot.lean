import QuayTitan.Verification.Route.Accounts

/-! # The snapshot of protected balances and the check against it

The bitmap has a bit per remaining account, the balance vector an entry per protected
one; the two stay aligned because both loops visit the accounts in one order. -/

namespace QuayTitan.Route

open Fallible

/-! ## The bitmap -/

namespace TitanPdaBitmap

@[simp] theorem isSet_new (index : ℕ) : new.isSet index = false := by
  simp [new, isSet]

private theorem and_shifted_one_ne_zero (word : BitVec 64) {bit : ℕ} (h : bit < 64) :
    (word &&& (1#64 <<< bit) ≠ 0) ↔ word.getLsbD bit = true := by
  constructor
  · intro hne
    by_contra hbit
    apply hne
    apply BitVec.eq_of_getLsbD_eq
    intro j hj
    by_cases hjb : j = bit
    · subst hjb
      simp [hbit]
    · simp [BitVec.getLsbD_shiftLeft, BitVec.getLsbD_one]
      omega
  · intro hbit hzero
    rw [BitVec.getLsbD_eq_getElem h] at hbit
    have hclear := congrArg (fun w => w.getLsbD bit) hzero
    simp [hbit, h] at hclear

theorem isSet_eq (bitmap : TitanPdaBitmap) {index : ℕ} (h : index < 64 * 4) :
    bitmap.isSet index =
      (bitmap.bits ⟨index / 64, Nat.div_lt_of_lt_mul h⟩).getLsbD (index % 64) := by
  rw [Bool.eq_iff_iff, isSet, dif_pos h, decide_eq_true_iff,
    and_shifted_one_ne_zero _ (Nat.mod_lt _ (by omega))]

/-- Setting an index marks it, when it is below the capacity, and no other. -/
theorem isSet_set (bitmap : TitanPdaBitmap) (index other : ℕ) :
    (bitmap.set index).isSet other =
      (bitmap.isSet other || decide (other = index ∧ index < 256)) := by
  by_cases hother : other < 256
  · rw [isSet_eq _ hother, isSet_eq _ hother]
    by_cases hindex : index < 256
    · simp only [set, hindex, dif_pos, and_true]
      by_cases hword : other / 64 = index / 64
      · have hfin : (⟨other / 64, by omega⟩ : Fin 4) = ⟨index / 64, by omega⟩ := by
          simp [hword]
        rw [hfin, Function.update_self, BitVec.getLsbD_or]
        congr 1
        by_cases hsame : other = index
        · subst hsame
          simp
          omega
        · simp [BitVec.getLsbD_shiftLeft, BitVec.getLsbD_one, hsame]
          omega
      · have hfin : (⟨other / 64, by omega⟩ : Fin 4) ≠ ⟨index / 64, by omega⟩ := by
          simp [hword]
        rw [Function.update_of_ne hfin]
        have hne : other ≠ index := by
          rintro rfl
          exact hword rfl
        simp [hne]
    · simp [set, hindex]
  · have hne : ¬(other = index ∧ index < 256) := by omega
    simp only [isSet, hother, dif_neg, not_false_iff, hne, decide_false, Bool.or_self]

end TitanPdaBitmap

/-! ## Taking the snapshot -/

/-- The balances of the TitanPDA token accounts among some accounts, in their order. -/
def protectedBalances (titanPda : Pubkey) (bank : Bank) (infos : List AccountInfo) : List ℕ :=
  (infos.filter fun info => isTitanPdaTokenAccount (bank info.key) titanPda).map
    fun info => tokenAmount (bank info.key)

theorem protectedBalances_cons (titanPda : Pubkey) (bank : Bank) (info : AccountInfo)
    (rest : List AccountInfo) :
    protectedBalances titanPda bank (info :: rest) =
      if isTitanPdaTokenAccount (bank info.key) titanPda = true then
        tokenAmount (bank info.key) :: protectedBalances titanPda bank rest
      else protectedBalances titanPda bank rest := by
  unfold protectedBalances
  rw [List.filter_cons]
  split <;> simp

/-- One iteration: a protected account gets its bit and its balance, a route account is
protected and gets its reserve. -/
theorem snapshotAccount_spec {titanPda : Pubkey} {mintsCount i : ℕ} {bank : Bank}
    {info : AccountInfo} {st st' : Snapshot}
    (h : snapshotAccount titanPda mintsCount bank i info st = .ok st') :
    st'.titanPdaAtaBalances =
        st.titanPdaAtaBalances ++ protectedBalances titanPda bank [info] ∧
      (∀ j, st'.titanPdaAtaBitmap.isSet j = (st.titanPdaAtaBitmap.isSet j ||
        decide (j = i ∧ i < 256 ∧ isTitanPdaTokenAccount (bank info.key) titanPda = true))) ∧
      (i < mintsCount → isTitanPdaTokenAccount (bank info.key) titanPda = true) ∧
      st'.reservedBalances = if i < mintsCount then
        st.reservedBalances.set i (tokenAmount (bank info.key)) else st.reservedBalances := by
  simp only [snapshotAccount] at h
  split at h
  · rename_i hroute
    simp only [bind_eq_ok, require_eq_ok, pure_eq_ok] at h
    obtain ⟨_, htitan, balance, hbalance, rfl⟩ := h
    obtain rfl := tokenAmount_of_extract hbalance
    refine ⟨?_, fun j => ?_, fun _ => htitan, by rw [if_pos hroute]⟩
    · rw [protectedBalances_cons, if_pos htitan]
      rfl
    · rw [TitanPdaBitmap.isSet_set]
      simp [htitan]
  · rename_i hroute
    split at h
    · rename_i htitan
      simp only [bind_eq_ok, pure_eq_ok] at h
      obtain ⟨balance, hbalance, rfl⟩ := h
      obtain rfl := tokenAmount_of_extract hbalance
      refine ⟨?_, fun j => ?_, fun hlt => (hroute hlt).elim, by rw [if_neg hroute]⟩
      · rw [protectedBalances_cons, if_pos htitan]
        rfl
      · rw [TitanPdaBitmap.isSet_set]
        simp [htitan]
    · rename_i htitan
      rw [pure_eq_ok] at h
      subst h
      refine ⟨?_, fun j => by simp [htitan], fun hlt => (hroute hlt).elim, by rw [if_neg hroute]⟩
      rw [protectedBalances_cons, if_neg htitan]
      simp [protectedBalances]

/-- A protected account at index `j` of a list that starts at index `i`. -/
theorem exists_titan_cons {titanPda : Pubkey} {bank : Bank} {info : AccountInfo}
    {rest : List AccountInfo} {i j : ℕ} (hji : j ≠ i) :
    (i + 1 ≤ j ∧ j < 256 ∧ ∃ other, rest[j - (i + 1)]? = some other ∧
        isTitanPdaTokenAccount (bank other.key) titanPda = true) ↔
      (i ≤ j ∧ j < 256 ∧ ∃ other, (info :: rest)[j - i]? = some other ∧
        isTitanPdaTokenAccount (bank other.key) titanPda = true) := by
  have hshift : i + 1 ≤ j → (info :: rest)[j - i]? = rest[j - (i + 1)]? := by
    intro hle
    rw [show j - i = (j - (i + 1)) + 1 by omega, List.getElem?_cons_succ]
  constructor
  · rintro ⟨hle, hlt, other, hother, htitan⟩
    exact ⟨by omega, hlt, other, by rw [hshift hle]; exact hother, htitan⟩
  · rintro ⟨hle, hlt, other, hother, htitan⟩
    have hle' : i + 1 ≤ j := by omega
    exact ⟨hle', hlt, other, by rw [← hshift hle']; exact hother, htitan⟩

/-- The loop over the accounts from index `i` on. -/
theorem takeSnapshot_loop {titanPda : Pubkey} {mintsCount i : ℕ} {bank : Bank}
    {infos : List AccountInfo} {st st' : Snapshot}
    (h : takeSnapshot titanPda mintsCount bank infos i st = .ok st')
    (hcapacity : mintsCount ≤ st.reservedBalances.length) :
    st'.titanPdaAtaBalances =
        st.titanPdaAtaBalances ++ protectedBalances titanPda bank infos ∧
      (∀ j, st'.titanPdaAtaBitmap.isSet j = true ↔ st.titanPdaAtaBitmap.isSet j = true ∨
        (i ≤ j ∧ j < 256 ∧ ∃ info, infos[j - i]? = some info ∧
          isTitanPdaTokenAccount (bank info.key) titanPda = true)) ∧
      (∀ j info, i + j < mintsCount → infos[j]? = some info →
        isTitanPdaTokenAccount (bank info.key) titanPda = true ∧
          st'.reservedBalances[i + j]? = some (tokenAmount (bank info.key))) ∧
      (∀ j, j < i → st'.reservedBalances[j]? = st.reservedBalances[j]?) := by
  induction infos generalizing i st with
  | nil =>
      rw [takeSnapshot, pure_eq_ok] at h
      subst h
      simp [protectedBalances]
  | cons info rest ih =>
      simp only [takeSnapshot, bind_eq_ok] at h
      obtain ⟨mid, hhead, htail⟩ := h
      obtain ⟨hbalances, hbits, hroute, hreserved⟩ := snapshotAccount_spec hhead
      have hlength : mid.reservedBalances.length = st.reservedBalances.length := by
        rw [hreserved]
        split <;> simp
      obtain ⟨ihBalances, ihBits, ihRoute, ihReserved⟩ := ih htail (by omega)
      refine ⟨?_, fun j => ?_, fun j other hj hother => ?_, fun j hj => ?_⟩
      · rw [ihBalances, hbalances, List.append_assoc]
        congr 1
        simp only [protectedBalances_cons]
        split <;> simp [protectedBalances]
      · rw [ihBits, hbits]
        by_cases hji : j = i
        · subst hji
          have hpast : ¬(j + 1 ≤ j) := by omega
          simp [hpast]
        · simp only [hji, false_and, decide_false, Bool.or_false]
          exact or_congr_right (exists_titan_cons hji)
      · cases j with
        | zero =>
            obtain rfl := Option.some.inj hother
            have hlt : i < mintsCount := hj
            refine ⟨hroute hlt, ?_⟩
            rw [Nat.add_zero, ihReserved i (by omega), hreserved, if_pos hlt,
              List.getElem?_set_self (by omega)]
        | succ j =>
            have hnext := ihRoute j other (by omega) hother
            rwa [Nat.add_assoc, Nat.add_comm 1 j] at hnext
      · rw [ihReserved j (by omega), hreserved]
        split
        · rw [List.getElem?_set_ne (by omega)]
        · rfl

/-- What the snapshot records of the remaining accounts. -/
structure SnapshotSpec (titanPda : Pubkey) (mintsCount : ℕ) (bank : Bank)
    (infos : List AccountInfo) (snapshot : Snapshot) : Prop where
  balances : snapshot.titanPdaAtaBalances = protectedBalances titanPda bank infos
  isSet_iff : ∀ j, snapshot.titanPdaAtaBitmap.isSet j = true ↔
    j < 256 ∧ ∃ info, infos[j]? = some info ∧
      isTitanPdaTokenAccount (bank info.key) titanPda = true
  route : ∀ j info, j < mintsCount → infos[j]? = some info →
    isTitanPdaTokenAccount (bank info.key) titanPda = true
  reserved : ∀ j info, j < mintsCount → infos[j]? = some info →
    snapshot.reservedBalances[j]? = some (tokenAmount (bank info.key))

theorem takeSnapshot_spec {titanPda : Pubkey} {mintsCount : ℕ} {bank : Bank}
    {infos : List AccountInfo} {snapshot : Snapshot} (hcount : mintsCount ≤ maxMints)
    (h : takeSnapshot titanPda mintsCount bank infos 0 .new = .ok snapshot) :
    SnapshotSpec titanPda mintsCount bank infos snapshot := by
  obtain ⟨hbalances, hbits, hroute, _⟩ := takeSnapshot_loop h (by simpa [Snapshot.new] using hcount)
  refine ⟨by simpa [Snapshot.new] using hbalances, fun j => ?_, fun j info hj hinfo => ?_,
    fun j info hj hinfo => ?_⟩
  · simpa [Snapshot.new] using hbits j
  · exact (hroute j info (by omega) hinfo).1
  · simpa using (hroute j info (by omega) hinfo).2

/-! ## Checking against the snapshot -/

/-- How the check of the accounts from index `i` on ends: each account below the bitmap's
capacity kept its balance, or one did not. -/
inductive CheckOutcome (titanPda : Pubkey) (before final : Bank) (infos : List AccountInfo)
    (i : ℕ) : Except RouteError Unit → Prop
  | kept (balances : ∀ j info, i + j < 256 → infos[j]? = some info →
      isTitanPdaTokenAccount (before info.key) titanPda = true →
      tokenAmount (before info.key) ≤ tokenAmount (final info.key)) :
      CheckOutcome titanPda before final infos i (.ok ())
  | broken (info : AccountInfo) (mem : info ∈ infos)
      (titan : isTitanPdaTokenAccount (before info.key) titanPda = true)
      (lost : tokenAmount (final info.key) < tokenAmount (before info.key)) :
      CheckOutcome titanPda before final infos i (.error (.template .reservedBalanceViolation))

/-- An account that kept its balance, or was not protected, leaves the outcome to the rest. -/
theorem CheckOutcome.cons {titanPda : Pubkey} {before final : Bank} {info : AccountInfo}
    {rest : List AccountInfo} {i : ℕ} {result : Except RouteError Unit}
    (h : CheckOutcome titanPda before final rest (i + 1) result)
    (hhead : i < 256 → isTitanPdaTokenAccount (before info.key) titanPda = true →
      tokenAmount (before info.key) ≤ tokenAmount (final info.key)) :
    CheckOutcome titanPda before final (info :: rest) i result := by
  cases h with
  | kept balances =>
      refine .kept fun j other hj hother htitan => ?_
      cases j with
      | zero =>
          obtain rfl := Option.some.inj hother
          exact hhead hj htitan
      | succ j => exact balances j other (by omega) hother htitan
  | broken other mem titan lost => exact .broken other (List.mem_cons_of_mem _ mem) titan lost

/-- The final loop, started where the next entry of the balance vector belongs to the
next protected account, compares each account below the bitmap's capacity with its own
snapshot. It never looks past the vector. -/
theorem checkFinalBalances_loop {titanPda : Pubkey} {bitmap : TitanPdaBitmap}
    {balances : List ℕ} {before final : Bank} {infos : List AccountInfo} {i balanceIdx : ℕ}
    (hbits : ∀ j info, infos[j]? = some info → (bitmap.isSet (i + j) = true ↔
      i + j < 256 ∧ isTitanPdaTokenAccount (before info.key) titanPda = true))
    (halign : i < 256 → balances.drop balanceIdx = protectedBalances titanPda before infos) :
    CheckOutcome titanPda before final infos i
      (checkFinalBalances bitmap balances final infos i balanceIdx) := by
  induction infos generalizing i balanceIdx with
  | nil => exact .kept (by simp)
  | cons info rest ih =>
      have hhead := hbits 0 info rfl
      have htail : ∀ j other, rest[j]? = some other → (bitmap.isSet (i + 1 + j) = true ↔
          i + 1 + j < 256 ∧ isTitanPdaTokenAccount (before other.key) titanPda = true) := by
        intro j other hother
        have hnext := hbits (j + 1) other hother
        rwa [show i + (j + 1) = i + 1 + j by omega] at hnext
      rw [Nat.add_zero] at hhead
      by_cases hset : bitmap.isSet i = true
      · obtain ⟨hlt, htitan⟩ := hhead.mp hset
        have hdrop := halign hlt
        rw [protectedBalances_cons, if_pos htitan] at hdrop
        have hentry : balances[balanceIdx]? = some (tokenAmount (before info.key)) := by
          rw [← Nat.add_zero balanceIdx, ← List.getElem?_drop, hdrop]
          rfl
        have hrest : balances.drop (balanceIdx + 1) = protectedBalances titanPda before rest := by
          rw [← List.drop_drop, hdrop]
          rfl
        simp only [checkFinalBalances, hset, if_true, hentry, okOr, ok_bind]
        by_cases hkept : tokenAmount (before info.key) ≤ tokenAmount (final info.key)
        · simp only [require, check, hkept, if_true, ok_bind]
          exact (ih htail fun _ => hrest).cons fun _ _ => hkept
        · simp only [require, check, hkept, if_false, error_bind]
          exact .broken info (by simp) htitan (by omega)
      · simp only [checkFinalBalances, hset]
        have hskip : i < 256 → ¬isTitanPdaTokenAccount (before info.key) titanPda = true :=
          fun hlt htitan => hset (hhead.mpr ⟨hlt, htitan⟩)
        refine (ih htail fun hlt => ?_).cons fun hlt htitan => (hskip hlt htitan).elim
        rw [halign (by omega), protectedBalances_cons, if_neg (hskip (by omega))]

/-- The final check passes exactly over the protected accounts it covers, and its only
error is a reserve that was not kept. -/
theorem checkFinalBalances_spec {titanPda : Pubkey} {mintsCount : ℕ} {before : Bank}
    {infos : List AccountInfo} {snapshot : Snapshot}
    (h : SnapshotSpec titanPda mintsCount before infos snapshot) (final : Bank) :
    (checkFinalBalances snapshot.titanPdaAtaBitmap snapshot.titanPdaAtaBalances final infos
        0 0 = .ok () ∧
      ∀ j info, j < 256 → infos[j]? = some info →
        isTitanPdaTokenAccount (before info.key) titanPda = true →
        tokenAmount (before info.key) ≤ tokenAmount (final info.key)) ∨
    (checkFinalBalances snapshot.titanPdaAtaBitmap snapshot.titanPdaAtaBalances final infos
        0 0 = .error (.template .reservedBalanceViolation) ∧
      ∃ info ∈ infos, isTitanPdaTokenAccount (before info.key) titanPda = true ∧
        tokenAmount (final info.key) < tokenAmount (before info.key)) := by
  have hloop := @checkFinalBalances_loop titanPda snapshot.titanPdaAtaBitmap
    snapshot.titanPdaAtaBalances before final infos 0 0
    (fun j info hinfo => by
      rw [Nat.zero_add, h.isSet_iff, hinfo]
      simp)
    (fun _ => by rw [List.drop_zero, h.balances])
  generalize checkFinalBalances snapshot.titanPdaAtaBitmap snapshot.titanPdaAtaBalances final infos
    0 0 = result at hloop ⊢
  cases hloop with
  | kept balances => exact .inl ⟨rfl, fun j info hj => balances j info (by omega)⟩
  | broken info mem titan lost => exact .inr ⟨rfl, info, mem, titan, lost⟩

end QuayTitan.Route
