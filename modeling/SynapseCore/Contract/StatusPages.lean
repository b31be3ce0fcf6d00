import Mathlib.Data.List.Count
import SynapseCore.Contract.StatusIndex

/-! The paged query in the machine integers of the code, and walks over its pages while
the records move. The positions of the index are what the pages cut up, so a walk takes
each entry of the index once, at the moment its page is read. -/

namespace Synapse
open Machine
variable {TxId Address : Type}

namespace U32

/-- `a + b`, which panics past `u32::MAX`. -/
def checkedAdd (a b : UInt32) : Option UInt32 :=
  if a.toNat + b.toNat < UInt32.size then some (a + b) else none

def saturatingAdd (a b : UInt32) : UInt32 := UInt32.ofNat (Synapse.saturatingAdd a.toNat b.toNat)

theorem toNat_of_checkedAdd {a b c : UInt32} (h : checkedAdd a b = some c) :
    c.toNat = a.toNat + b.toNat := by
  unfold checkedAdd at h
  split_ifs at h with hfits
  rw [← Option.some.inj h, UInt32.toNat_add]
  exact Nat.mod_eq_of_lt hfits

theorem checkedAdd_one_of_lt {i stop : UInt32} (h : i < stop) :
    ∃ i', checkedAdd i 1 = some i' ∧ i'.toNat = i.toNat + 1 := by
  have hlt : i.toNat < stop.toNat := UInt32.lt_iff_toNat_lt.mp h
  have hsize : stop.toNat < UInt32.size := stop.toNat_lt_size
  have hone : (1 : UInt32).toNat = 1 := rfl
  have hadd : checkedAdd i 1 = some (i + 1) := by
    apply if_pos
    omega
  exact ⟨_, hadd, toNat_of_checkedAdd hadd⟩

theorem toNat_saturatingAdd (a b : UInt32) :
    (saturatingAdd a b).toNat = Synapse.saturatingAdd a.toNat b.toNat := by
  apply UInt32.toNat_ofNat_of_lt'
  have hpos : 0 < UInt32.size := by decide
  unfold Synapse.saturatingAdd u32Max
  omega

/-- The `while` loop of the query: `none` if an index is read past the end or `i += 1` overflows. -/
def pageWhile (σ : Storage TxId Address) (status : TransactionStatus) (index : List TxId)
    (stop i : UInt32) (page : List (Transaction TxId Address)) :
    Option (List (Transaction TxId Address)) :=
  if i < stop then
    match index[i.toNat]? with
    | none => none
    | some txId =>
      let page := match getTransaction σ txId with
        | some tx => if tx.status = status then page ++ [tx] else page
        | none => page
      match _hnext : checkedAdd i 1 with
      | none => none
      | some i' => pageWhile σ status index stop i' page
  else some page
termination_by stop.toNat - i.toNat
decreasing_by
  have hlt : i.toNat < stop.toNat := UInt32.lt_iff_toNat_lt.mp (by assumption)
  have hnext : i'.toNat = i.toNat + 1 := toNat_of_checkedAdd (by assumption)
  omega

def getTransactionsByStatus (L : Limits) (σ : Storage TxId Address) (status : TransactionStatus)
    (offset limit : UInt32) : Outcome Error (List (Transaction TxId Address)) :=
  if limit = 0 ∨ limit.toNat > L.maxStatusPageLimit then some (.error .invalidLimit)
  else
    let index := getStatusIndex σ status
    let total := UInt32.ofNat index.length
    if offset ≥ total then some (.ok [])
    else
      let stop := min (saturatingAdd offset limit) total
      (pageWhile σ status index stop offset []).map .ok

/-! ## The loop in machine integers is the loop over positions -/

theorem pageWhile_eq_pageLoop (σ : Storage TxId Address) (status : TransactionStatus)
    (index : List TxId) (stop : UInt32) (n : Nat) {i : UInt32} (h : stop.toNat - i.toNat = n)
    (page : List (Transaction TxId Address)) :
    pageWhile σ status index stop i page = pageLoop σ status index n i.toNat page := by
  induction n generalizing i page with
  | zero =>
    have hdone : ¬ i < stop := by
      rw [UInt32.lt_iff_toNat_lt]
      omega
    rw [pageWhile, if_neg hdone, pageLoop]
  | succ n ih =>
    have hlt : i < stop := by
      rw [UInt32.lt_iff_toNat_lt]
      omega
    obtain ⟨i', hadd, hnext⟩ := checkedAdd_one_of_lt hlt
    have hleft : stop.toNat - i'.toNat = n := by omega
    rw [pageWhile, if_pos hlt, pageLoop, hadd, ← hnext]
    cases index[i.toNat]? with
    | none => rfl
    | some txId =>
      dsimp only
      rw [ih hleft]
      cases getTransaction σ txId <;> rfl

theorem toNat_min (a b : UInt32) : (min a b).toNat = min a.toNat b.toNat := by
  change (if a ≤ b then a else b).toNat = _
  rw [apply_ite UInt32.toNat, Nat.min_def]
  simp only [UInt32.le_iff_toNat_le]

/-- A host `Vec` is no longer than `u32::MAX`; on such an index no arithmetic of the query
traps, and it is the query over positions. -/
theorem getTransactionsByStatus_eq (L : Limits) {σ : Storage TxId Address}
    {status : TransactionStatus} (h : (getStatusIndex σ status).length ≤ u32Max)
    (offset limit : UInt32) :
    getTransactionsByStatus L σ status offset limit =
      Synapse.getTransactionsByStatus L σ status offset.toNat limit.toNat := by
  have htotal : (UInt32.ofNat (getStatusIndex σ status).length).toNat =
      (getStatusIndex σ status).length := by
    apply UInt32.toNat_ofNat_of_lt'
    have hpos : 0 < UInt32.size := by decide
    unfold u32Max at h
    omega
  have hzero : limit = 0 ↔ limit.toNat = 0 := UInt32.toNat_inj.symm
  have hpast : offset ≥ UInt32.ofNat (getStatusIndex σ status).length ↔
      offset.toNat ≥ (getStatusIndex σ status).length := by
    rw [ge_iff_le, UInt32.le_iff_toNat_le, htotal]
  have hstop : (min (saturatingAdd offset limit)
      (UInt32.ofNat (getStatusIndex σ status).length)).toNat =
        min (Synapse.saturatingAdd offset.toNat limit.toNat) (getStatusIndex σ status).length := by
    rw [toNat_min, toNat_saturatingAdd, htotal]
  unfold getTransactionsByStatus Synapse.getTransactionsByStatus
  simp only [hzero, hpast, pageWhile_eq_pageLoop σ status _ _ _ rfl, hstop]

end U32

/-! ## What a page shows -/

/-- The record of an index entry, if it exists and has the status. -/
def shown (σ : Storage TxId Address) (status : TransactionStatus) (txId : TxId) :
    Option (Transaction TxId Address) :=
  (getTransaction σ txId).filter fun tx => tx.status = status

theorem shown_eq_some_iff {σ : Storage TxId Address} {status : TransactionStatus} {txId : TxId}
    {tx : Transaction TxId Address} :
    shown σ status txId = some tx ↔ getTransaction σ txId = some tx ∧ tx.status = status := by
  rw [shown, Option.filter_eq_some_iff, decide_eq_true_iff]

theorem pageLoop_eq (σ : Storage TxId Address) (status : TransactionStatus) (index : List TxId)
    (n : Nat) {i : Nat} (h : i + n ≤ index.length) (page : List (Transaction TxId Address)) :
    pageLoop σ status index n i page =
      some (page ++ ((index.drop i).take n).filterMap (shown σ status)) := by
  induction n generalizing i page with
  | zero => simp [pageLoop]
  | succ n ih =>
    have hlt : i < index.length := by omega
    have hrest : i + 1 + n ≤ index.length := by omega
    rw [pageLoop, List.getElem?_eq_getElem hlt, List.drop_eq_getElem_cons hlt, List.take_succ_cons]
    dsimp only
    -- the entry at `i` is skipped, or its record goes on the page
    cases hget : getTransaction σ index[i] with
    | none =>
      have hskip : shown σ status index[i] = none := by
        rw [shown, hget]
        rfl
      rw [List.filterMap_cons_none hskip]
      exact ih hrest page
    | some tx =>
      by_cases hstatus : tx.status = status
      · have hshow : shown σ status index[i] = some tx := shown_eq_some_iff.mpr ⟨hget, hstatus⟩
        rw [List.filterMap_cons_some hshow, List.append_cons]
        dsimp only
        rw [if_pos hstatus]
        exact ih hrest (page ++ [tx])
      · have hskip : shown σ status index[i] = none := by
          simp [shown, hget, hstatus]
        rw [List.filterMap_cons_none hskip]
        dsimp only
        rw [if_neg hstatus]
        exact ih hrest page

/-- The entries at positions in `[offset, min(offset + limit, len))`, those that show. -/
theorem getTransactionsByStatus_page {L : Limits} {σ : Storage TxId Address}
    {status : TransactionStatus} (hlen : (getStatusIndex σ status).length ≤ u32Max)
    {limit : Nat} (hpos : 1 ≤ limit) (hmax : limit ≤ L.maxStatusPageLimit) (offset : Nat) :
    getTransactionsByStatus L σ status offset limit =
      some (.ok ((((getStatusIndex σ status).drop offset).take limit).filterMap
        (shown σ status))) := by
  have hlimit : ¬ (limit = 0 ∨ limit > L.maxStatusPageLimit) := by omega
  unfold getTransactionsByStatus
  rw [if_neg hlimit]
  dsimp only
  by_cases hpast : offset ≥ (getStatusIndex σ status).length
  · rw [if_pos hpast, List.drop_eq_nil_of_le hpast, List.take_nil, List.filterMap_nil]
  · have hstop : min (saturatingAdd offset limit) (getStatusIndex σ status).length - offset =
        min limit ((getStatusIndex σ status).drop offset).length := by
      rw [List.length_drop]
      unfold saturatingAdd
      omega
    have hfits : offset + min limit ((getStatusIndex σ status).drop offset).length ≤
        (getStatusIndex σ status).length := by
      rw [List.length_drop]
      omega
    rw [if_neg hpast, hstop, pageLoop_eq σ status _ _ hfits, ← List.take_eq_take_min]
    rfl

/-! ## Walks between whose pages the records move -/

section Walks
variable [DecidableEq TxId]

/-- The store when page `k` is read: the calls `between k` run after the read of page `k`. -/
def moment (L : Limits) (σ : Storage TxId Address)
    (between : Nat → List (LifecycleCall TxId Address)) : Nat → Storage TxId Address
  | 0 => σ
  | k + 1 => after (lifecycleStep L) (moment L σ between k) (between k)

/-- The records on the pages at offsets `0, limit, …`, `n` of them, each page read at its moment. -/
def movingWalk (L : Limits) (σ : Storage TxId Address)
    (between : Nat → List (LifecycleCall TxId Address)) (status : TransactionStatus)
    (limit : UInt32) : Nat → Option (List (Transaction TxId Address))
  | 0 => some []
  | n + 1 =>
    match movingWalk L σ between status limit n, U32.getTransactionsByStatus L
        (moment L σ between n) status (UInt32.ofNat (n * limit.toNat)) limit with
    | some front, some (.ok page) => some (front ++ page)
    | _, _ => none

/-- What the walk shows of the index entry at a position: its record when its page is read. -/
def shownInWalk (L : Limits) (σ : Storage TxId Address)
    (between : Nat → List (LifecycleCall TxId Address)) (status : TransactionStatus)
    (limit : Nat) (entry : TxId × Nat) : Option (Transaction TxId Address) :=
  shown (moment L σ between (entry.2 / limit)) status entry.1

variable {L : Limits} {σ : Storage TxId Address}
  {between : Nat → List (LifecycleCall TxId Address)} {status : TransactionStatus}

theorem getStatusIndex_moment (k : Nat) :
    getStatusIndex (moment L σ between k) status = getStatusIndex σ status := by
  induction k with
  | zero => rfl
  | succ k ih =>
    refine Eq.trans ?_ ih
    have hkept := after_invariant (lifecycleStep L)
      (fun τ => getStatusIndex τ status = getStatusIndex (moment L σ between k) status)
      (fun τ call hτ => (getStatusIndex_indexStep L τ (.lifecycle call) status).trans hτ) rfl
    exact hkept (between k)

theorem wellKeyed_moment (hσ : WellKeyed σ) (k : Nat) : WellKeyed (moment L σ between k) := by
  induction k with
  | zero => exact hσ
  | succ k ih =>
    exact after_invariant (lifecycleStep L) WellKeyed
      (fun _ call hτ => wellKeyed_lifecycleStep hτ call) ih (between k)

theorem shownInWalk_page {limit : Nat} (hpos : 1 ≤ limit) (index : List TxId) (k : Nat) :
    ((index.zipIdx.drop (k * limit)).take limit).filterMap
        (shownInWalk L σ between status limit) =
      ((index.drop (k * limit)).take limit).filterMap (shown (moment L σ between k) status) := by
  have hentries : ((index.drop (k * limit)).take limit) =
      ((index.zipIdx.drop (k * limit)).take limit).map Prod.fst := by
    rw [List.map_take, List.map_drop, List.zipIdx_map_fst]
  rw [hentries, List.filterMap_map]
  apply List.filterMap_congr
  intro entry hentry
  obtain ⟨j, hj, rfl⟩ := List.mem_iff_getElem.mp hentry
  have hlt : j < limit := by
    rw [List.length_take] at hj
    omega
  have hposition : (((index.zipIdx.drop (k * limit)).take limit)[j]).2 = k * limit + j := by
    rw [List.getElem_take, List.getElem_drop, List.getElem_zipIdx]
    exact Nat.zero_add _
  have hpage : (k * limit + j) / limit = k := by
    rw [Nat.mul_comm, Nat.mul_add_div hpos, Nat.div_eq_of_lt hlt, Nat.add_zero]
  unfold shownInWalk
  rw [hposition, hpage]
  rfl

theorem movingWalk_eq (hlen : (getStatusIndex σ status).length ≤ u32Max) {limit : UInt32}
    (hpos : 1 ≤ limit.toNat) (hmax : limit.toNat ≤ L.maxStatusPageLimit) {n : Nat}
    (hoffsets : ∀ k < n, k * limit.toNat ≤ u32Max) :
    movingWalk L σ between status limit n =
      some (((getStatusIndex σ status).zipIdx.take (n * limit.toNat)).filterMap
        (shownInWalk L σ between status limit.toNat)) := by
  induction n with
  | zero => simp [movingWalk]
  | succ n ih =>
    have hfront := ih fun k hk => hoffsets k (by omega)
    have hoffset : (UInt32.ofNat (n * limit.toNat)).toNat = n * limit.toNat := by
      apply UInt32.toNat_ofNat_of_lt'
      have hle := hoffsets n (by omega)
      have hsize : 0 < UInt32.size := by decide
      unfold u32Max at hle
      omega
    have hindex : getStatusIndex (moment L σ between n) status = getStatusIndex σ status :=
      getStatusIndex_moment n
    have hpage : U32.getTransactionsByStatus L (moment L σ between n) status
        (UInt32.ofNat (n * limit.toNat)) limit =
          some (.ok ((((getStatusIndex σ status).drop (n * limit.toNat)).take limit.toNat).filterMap
            (shown (moment L σ between n) status))) := by
      rw [U32.getTransactionsByStatus_eq L (by rw [hindex]; exact hlen), hoffset,
        getTransactionsByStatus_page (by rw [hindex]; exact hlen) hpos hmax, hindex]
    rw [movingWalk, hfront, hpage, Nat.succ_mul, List.take_add, List.filterMap_append,
      shownInWalk_page hpos]

/-- What a walk over the whole index returns, whatever calls run between its pages. -/
structure WalksOnce (L : Limits) (σ : Storage TxId Address)
    (between : Nat → List (LifecycleCall TxId Address)) (status : TransactionStatus)
    (limit n : Nat) (records : List (Transaction TxId Address)) : Prop where
  /-- each entry at its position, as its page shows it -/
  entries : records = (getStatusIndex σ status).zipIdx.filterMap
    (shownInWalk L σ between status limit)
  inStatus : ∀ tx ∈ records, tx.status = status
  /-- every occurrence of an id that keeps the status is shown -/
  kept : ∀ id, (∀ k < n, statusOf (moment L σ between k) id = some status) →
    ∀ p, (getStatusIndex σ status)[p]? = some id →
      ∃ tx, shownInWalk L σ between status limit (id, p) = some tx
  /-- so where records sit under their own ids it is returned as often as the index lists it -/
  once : WellKeyed σ → ∀ id, (∀ k < n, statusOf (moment L σ between k) id = some status) →
    records.countP (fun tx => tx.txId = id) = (getStatusIndex σ status).count id
  undisturbed : (∀ k, between k = []) →
    records = (getStatusIndex σ status).filterMap (shown σ status)

theorem shownInWalk_of_kept {limit n : Nat} (hpos : 1 ≤ limit)
    (hall : (getStatusIndex σ status).length ≤ n * limit) {id : TxId}
    (hkept : ∀ k < n, statusOf (moment L σ between k) id = some status) {p : Nat}
    (hp : (getStatusIndex σ status)[p]? = some id) :
    ∃ tx, shownInWalk L σ between status limit (id, p) = some tx := by
  have hlt : p < (getStatusIndex σ status).length := (List.getElem?_eq_some_iff.mp hp).1
  have hpage : p / limit < n := by
    rw [Nat.div_lt_iff_lt_mul hpos]
    omega
  have hstatus := hkept (p / limit) hpage
  obtain ⟨tx, hget, hmatch⟩ := Option.map_eq_some_iff.mp hstatus
  exact ⟨tx, shown_eq_some_iff.mpr ⟨hget, hmatch⟩⟩

theorem shownInWalk_txId (hσ : WellKeyed σ) {limit : Nat} {entry : TxId × Nat}
    {tx : Transaction TxId Address} (h : shownInWalk L σ between status limit entry = some tx) :
    tx.txId = entry.1 :=
  wellKeyed_moment hσ (entry.2 / limit) _ _ (shown_eq_some_iff.mp h).1

theorem countP_shownInWalk (hσ : WellKeyed σ) {limit n : Nat} (hpos : 1 ≤ limit)
    (hall : (getStatusIndex σ status).length ≤ n * limit) {id : TxId}
    (hkept : ∀ k < n, statusOf (moment L σ between k) id = some status) :
    ((getStatusIndex σ status).zipIdx.filterMap (shownInWalk L σ between status limit)).countP
      (fun tx => tx.txId = id) = (getStatusIndex σ status).count id := by
  have hentries : (getStatusIndex σ status).count id =
      (getStatusIndex σ status).zipIdx.countP fun entry => entry.1 == id := by
    conv_lhs => rw [← List.zipIdx_map_fst 0 (getStatusIndex σ status)]
    rw [List.count, List.countP_map]
    rfl
  rw [hentries, List.countP_filterMap]
  apply List.countP_congr
  intro entry hentry
  rw [List.mem_zipIdx_iff_getElem?] at hentry
  constructor
  · intro hcounted
    cases hshown : shownInWalk L σ between status limit entry with
    | none =>
      rw [hshown] at hcounted
      cases hcounted
    | some tx =>
      rw [hshown] at hcounted
      have hid : tx.txId = id := of_decide_eq_true hcounted
      rw [← hid, shownInWalk_txId hσ hshown]
      exact beq_self_eq_true _
  · intro hid
    obtain rfl : entry.1 = id := eq_of_beq hid
    obtain ⟨tx, hshown⟩ := shownInWalk_of_kept hpos hall hkept hentry
    have hshown' : shownInWalk L σ between status limit entry = some tx := hshown
    rw [hshown']
    exact decide_eq_true (shownInWalk_txId hσ hshown')

theorem moment_of_undisturbed (h : ∀ k, between k = []) (k : Nat) :
    moment L σ between k = σ := by
  induction k with
  | zero => rfl
  | succ k ih => rw [moment, h k, after_nil, ih]

theorem walksOnce {limit n : Nat} (hpos : 1 ≤ limit)
    (hall : (getStatusIndex σ status).length ≤ n * limit) :
    WalksOnce L σ between status limit n
      ((getStatusIndex σ status).zipIdx.filterMap (shownInWalk L σ between status limit)) where
  entries := rfl
  inStatus := by
    intro tx hmem
    obtain ⟨entry, _, hshown⟩ := List.mem_filterMap.mp hmem
    exact (shown_eq_some_iff.mp hshown).2
  kept := by
    intro id hkept p hp
    exact shownInWalk_of_kept hpos hall hkept hp
  once := by
    intro hσ id hkept
    exact countP_shownInWalk hσ hpos hall hkept
  undisturbed := by
    intro hquiet
    have hstill : shownInWalk L σ between status limit = fun entry => shown σ status entry.1 := by
      funext entry
      rw [shownInWalk, moment_of_undisturbed hquiet]
    have hfst := List.filterMap_map (f := Prod.fst) (g := shown σ status)
      (l := (getStatusIndex σ status).zipIdx)
    rw [List.zipIdx_map_fst] at hfst
    rw [hstill, hfst]
    rfl

/-- **Paging is exact, also while transactions move.** Over any stored index a page shows
the entries of its stretch that are in the status when it is read, no arithmetic or
index read traps, and a walk over the index takes each entry once. -/
theorem status_paging_exact (L : Limits) (σ : Storage TxId Address) (status : TransactionStatus)
    (hlen : (getStatusIndex σ status).length ≤ u32Max) (limit : UInt32) :
    (limit = 0 ∨ limit.toNat > L.maxStatusPageLimit → ∀ offset,
      U32.getTransactionsByStatus L σ status offset limit = some (.error .invalidLimit)) ∧
    (1 ≤ limit.toNat → limit.toNat ≤ L.maxStatusPageLimit →
      (∀ offset, U32.getTransactionsByStatus L σ status offset limit =
        some (.ok ((((getStatusIndex σ status).drop offset.toNat).take limit.toNat).filterMap
          (shown σ status)))) ∧
      ∀ between n, (∀ k < n, k * limit.toNat ≤ u32Max) →
        movingWalk L σ between status limit n =
          some (((getStatusIndex σ status).zipIdx.take (n * limit.toNat)).filterMap
            (shownInWalk L σ between status limit.toNat)) ∧
        ((getStatusIndex σ status).length ≤ n * limit.toNat →
          ∃ records, movingWalk L σ between status limit n = some records ∧
            WalksOnce L σ between status limit.toNat n records)) := by
  refine ⟨?_, fun hpos hmax => ⟨?_, ?_⟩⟩
  · intro hbad offset
    exact if_pos hbad
  · intro offset
    rw [U32.getTransactionsByStatus_eq L hlen, getTransactionsByStatus_page hlen hpos hmax]
  · intro between n hoffsets
    have hwalk : movingWalk L σ between status limit n =
        some (((getStatusIndex σ status).zipIdx.take (n * limit.toNat)).filterMap
          (shownInWalk L σ between status limit.toNat)) :=
      movingWalk_eq hlen hpos hmax hoffsets
    refine ⟨hwalk, fun hall => ⟨_, hwalk, ?_⟩⟩
    have hwhole : (getStatusIndex σ status).zipIdx.take (n * limit.toNat) =
        (getStatusIndex σ status).zipIdx := by
      apply List.take_of_length_le
      rw [List.length_zipIdx]
      exact hall
    rw [hwhole]
    exact walksOnce hpos hall

end Walks

/-- An index that lists transaction 1 twice, and 2, which has no record. -/
def indexedStore : Storage Nat Nat :=
  testStore.setPersistent (.statusIndex .pending) [1, 2, 1]

theorem status_paging_exact_fixture :
    movingWalk testLimits indexedStore (fun _ => [.startProcessing 1 7]) .pending 2 2 =
      some [testTransaction] := by
  have hexact := (status_paging_exact testLimits indexedStore .pending (by decide) 2).2
    (by decide) (by decide)
  exact (hexact.2 _ 2 (by decide)).1.trans rfl

end Synapse
