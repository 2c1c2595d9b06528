import SuperAi.HotTokens.TokenPool
import Mathlib.Tactic.Basic

/-! # Which tokens have live data

What the calls of the pool leave of an entry, and the tokens that have a market cap after a refresh: those that the
pool still keeps (`priced_refresh`). An archived entry stays archived (`Archived.after`).
-/
namespace SuperAi.HotTokens
open SuperAi.Foundations
set_option autoImplicit false

variable {cfg : PoolConfig} {pool : TokenPool} {inp : RefreshInput} {token address : String} {entry : InternalEntry}
variable {about : RegisterMeta} {now : ℤ}

/-! ## Batches -/

theorem length_of_mem_chunk {α : Type} {arr part : List α} {size : ℕ} (h : part ∈ chunk arr size) :
    part.length ≤ size := by
  obtain ⟨k, -, rfl⟩ := List.mem_map.mp h
  exact List.length_take_le _ _

theorem mem_chunk {α : Type} {arr : List α} {size : ℕ} {x : α} (hsize : 0 < size) (hx : x ∈ arr) :
    ∃ part ∈ chunk arr size, x ∈ part := by
  obtain ⟨j, hj, rfl⟩ := List.mem_iff_getElem.mp hx
  have hdiv := Nat.div_add_mod' j size
  have hmod := Nat.mod_lt j hsize
  refine ⟨_, List.mem_map.mpr ⟨j / size, List.mem_range.mpr ?_, rfl⟩, ?_⟩
  · apply (Nat.le_div_iff_mul_le hsize).mpr
    rw [Nat.succ_mul]
    omega
  · apply List.mem_take_iff_getElem.mpr
    refine ⟨j % size, ?_, ?_⟩
    · rw [List.length_drop]
      omega
    · rw [List.getElem_drop]
      simp only [hdiv]

/-! ## The best pairs -/

namespace DexPair

theorem get_keep (best : KeyValue String DexPair) (pair : DexPair) (token : String) :
    (keep best pair).get token = best.get token ∨
      pair.address = some token ∧ (keep best pair).get token = some pair := by
  unfold keep
  cases hpair : pair.address with
  | none => exact .inl rfl
  | some addr =>
    have hset : (best.set addr pair).get token = best.get token ∨
        some addr = some token ∧ (best.set addr pair).get token = some pair := by
      by_cases htoken : token = addr
      · subst htoken
        exact .inr ⟨rfl, KeyValue.get_set_self _ _ _⟩
      · exact .inl (KeyValue.get_set_of_ne htoken)
    dsimp only
    split
    · exact hset
    · split
      · exact hset
      · exact .inl rfl

theorem get_keep_self {b : KeyValue String DexPair} {pair : DexPair} (h : pair.address = some token) :
    ∃ held, (keep b pair).get token = some held := by
  unfold keep
  rw [h]
  dsimp only
  split
  · exact ⟨pair, KeyValue.get_set_self _ _ _⟩
  · rename_i held hheld
    split
    · exact ⟨pair, KeyValue.get_set_self _ _ _⟩
    · exact ⟨held, hheld⟩

theorem get_foldl_keep {pairs : List DexPair} {best : KeyValue String DexPair} {pair : DexPair}
    (h : (pairs.foldl keep best).get token = some pair) :
    best.get token = some pair ∨ pair ∈ pairs ∧ pair.address = some token := by
  induction pairs generalizing best with
  | nil => exact .inl h
  | cons next pairs ih =>
    rcases ih h with hbest | ⟨hmem, haddr⟩
    · rcases get_keep best next token with hsame | ⟨haddr, hnext⟩
      · exact .inl (hsame ▸ hbest)
      · obtain rfl := Option.some.inj (hnext.symm.trans hbest)
        exact .inr ⟨List.mem_cons_self, haddr⟩
    · exact .inr ⟨List.mem_cons_of_mem _ hmem, haddr⟩

theorem foldl_keep_of_get {pairs : List DexPair} {best : KeyValue String DexPair} {held : DexPair}
    (h : best.get token = some held) : ∃ held', (pairs.foldl keep best).get token = some held' := by
  induction pairs generalizing best held with
  | nil => exact ⟨held, h⟩
  | cons next pairs ih =>
    rcases get_keep best next token with hsame | ⟨-, hnext⟩
    · exact ih (hsame.trans h)
    · exact ih hnext

theorem foldl_keep_of_mem {pairs : List DexPair} {b : KeyValue String DexPair} {pair : DexPair}
    (hmem : pair ∈ pairs) (h : pair.address = some token) :
    ∃ held, (pairs.foldl keep b).get token = some held := by
  induction pairs generalizing b with
  | nil => cases hmem
  | cons next pairs ih =>
    rcases List.mem_cons.mp hmem with rfl | hmem
    · obtain ⟨held, hheld⟩ := get_keep_self (b := b) h
      rw [List.foldl_cons]
      exact foldl_keep_of_get hheld
    · exact ih hmem

end DexPair

/-! ## The source's data -/

/-- The pair is of the token, or of its address in lower case. -/
def DexPair.Names (pair : DexPair) (token : String) : Prop :=
  pair.address = some token ∨ pair.address = some token.toLower

/-- The source has data for the token: a batch with its address is answered with a pair of the token, and all pairs
of the token have a market cap. -/
def RefreshInput.HasData (inp : RefreshInput) (token : String) : Prop :=
  ∀ addresses : List String, addresses.length ≤ DEX_BATCH → token ∈ addresses →
    (∃ pair ∈ inp.fetch addresses, pair.Names token) ∧
      ∀ pair ∈ inp.fetch addresses, pair.Names token → 0 < pair.marketCapUsd

theorem DexPair.get_best {pairs : List DexPair} {pair : DexPair} (h : (best pairs).get token = some pair) :
    pair ∈ pairs ∧ pair.address = some token := by
  rcases get_foldl_keep h with hnil | hpair
  · cases hnil
  · exact hpair

namespace RefreshInput

theorem HasData.fetched (h : inp.HasData token) {addresses : List String} (hlength : addresses.length ≤ DEX_BATCH)
    (hmem : token ∈ addresses) : ∃ live, (token, live) ∈ inp.fetchDexBatch addresses := by
  obtain ⟨⟨pair, hpair, hnames⟩, -⟩ := h addresses hlength hmem
  have hbest : ∃ held, ((DexPair.best (inp.fetch addresses)).get token).or
      ((DexPair.best (inp.fetch addresses)).get token.toLower) = some held := by
    rcases hnames with haddr | haddr
    · obtain ⟨held, hheld⟩ := DexPair.foldl_keep_of_mem (b := []) hpair haddr
      rw [DexPair.best, hheld]
      exact ⟨held, rfl⟩
    · obtain ⟨held, hheld⟩ := DexPair.foldl_keep_of_mem (b := []) hpair haddr
      rw [DexPair.best, hheld]
      cases KeyValue.get ((inp.fetch addresses).foldl DexPair.keep []) token with
      | none => exact ⟨held, rfl⟩
      | some same => exact ⟨same, rfl⟩
  obtain ⟨held, hheld⟩ := hbest
  refine ⟨held.toLive inp.now, List.mem_filterMap.mpr ⟨token, hmem, ?_⟩⟩
  rw [hheld]
  rfl

theorem HasData.positive (h : inp.HasData token) {addresses : List String} {live : PoolLiveData}
    (hlength : addresses.length ≤ DEX_BATCH) (hlive : (token, live) ∈ inp.fetchDexBatch addresses) :
    0 < live.marketCapUsd := by
  obtain ⟨addr, hmem, hpair⟩ := List.mem_filterMap.mp hlive
  obtain ⟨pair, hor, heq⟩ := Option.map_eq_some_iff.mp hpair
  obtain ⟨rfl, rfl⟩ := Prod.mk.inj heq
  obtain ⟨-, hpos⟩ := h addresses hlength hmem
  rcases Option.or_eq_some_iff.mp hor with hexact | ⟨-, hlower⟩
  · obtain ⟨hin, haddr⟩ := DexPair.get_best hexact
    exact hpos pair hin (.inl haddr)
  · obtain ⟨hin, haddr⟩ := DexPair.get_best hlower
    exact hpos pair hin (.inr haddr)

theorem HasData.ne_empty (h : inp.HasData token) : token ≠ "" := by
  rintro rfl
  obtain ⟨⟨pair, -, haddr | haddr⟩, -⟩ := h [""] (Nat.le_of_ble_eq_true rfl) (List.mem_singleton.mpr rfl)
  · exact bne_iff_ne.mp (Option.filter_eq_some_iff.mp haddr).2 rfl
  · exact bne_iff_ne.mp (Option.filter_eq_some_iff.mp haddr).2 (by decide +kernel)

end RefreshInput

/-! ## What a call leaves of an entry -/

namespace TokenPool

theorem get_change (pool : TokenPool) (f : String → InternalEntry → InternalEntry) (token : String) :
    (pool.change f).registry.get token = (pool.registry.get token).map (f token) :=
  KeyValue.get_mapEntries pool.registry f token

theorem get_register_of_some (h : pool.registry.get token = some entry) :
    (pool.register address about now).registry.get token = some entry := by
  unfold register
  split
  · exact h
  · dsimp only
    rw [KeyValue.get_append, h]
    rfl

theorem get_register_of_none (h : pool.registry.get token = none) (htoken : token ≠ "") :
    (pool.register address about now).registry.get token = if address = token then some (.fresh about now) else none := by
  unfold register
  by_cases haddr : address = token
  · subst haddr
    rw [if_pos rfl, if_neg (by simp [h, htoken])]
    dsimp only
    rw [KeyValue.get_append, h, KeyValue.get_cons, if_pos rfl]
    rfl
  · rw [if_neg haddr]
    split
    · exact h
    · dsimp only
      rw [KeyValue.get_append, h, KeyValue.get_cons, if_neg (Ne.symm haddr)]
      rfl

theorem get_seedFromPrisma_of_some {rows : List SeedRow} (h : pool.registry.get token = some entry) :
    (pool.seedFromPrisma rows now).registry.get token = some entry := by
  unfold seedFromPrisma
  induction rows generalizing pool with
  | nil => exact h
  | cons row rows ih =>
    rw [List.foldl_cons]
    exact ih (get_register_of_some h)

theorem get_assigns (updates : List (String × PoolLiveData)) (h : pool.registry.get token = some entry) :
    ∃ live, (updates.foldl assign pool).registry.get token = some { entry with live } := by
  induction updates generalizing pool entry with
  | nil => exact ⟨entry.live, h⟩
  | cons update updates ih =>
    rw [List.foldl_cons]
    have hget : ∃ live, (pool.assign update).registry.get token = some { entry with live } := by
      unfold assign
      rw [get_change, h, Option.map_some]
      by_cases htoken : token = update.1
      · rw [if_pos htoken]
        exact ⟨some update.2, rfl⟩
      · rw [if_neg htoken]
        exact ⟨entry.live, rfl⟩
    obtain ⟨live, hlive⟩ := hget
    obtain ⟨live', hlive'⟩ := ih hlive
    exact ⟨live', hlive'⟩

theorem get_assigns_of_none {updates : List (String × PoolLiveData)} (h : pool.registry.get token = none) :
    (updates.foldl assign pool).registry.get token = none := by
  induction updates generalizing pool with
  | nil => exact h
  | cons update updates ih =>
    rw [List.foldl_cons]
    apply ih
    unfold assign
    rw [get_change, h]
    rfl

/-! ## Archived tokens -/

/-- The token is in the pool and archived. -/
def Archived (pool : TokenPool) (token : String) : Prop :=
  ∃ entry, pool.registry.get token = some entry ∧ entry.archived = true

theorem Archived.seedFromPrisma (h : pool.Archived token) (rows : List SeedRow) (now : ℤ) :
    (pool.seedFromPrisma rows now).Archived token := by
  obtain ⟨entry, hget, harchived⟩ := h
  exact ⟨entry, get_seedFromPrisma_of_some hget, harchived⟩

theorem Archived.change {f : String → InternalEntry → InternalEntry} (h : pool.Archived token)
    (hf : ∀ entry, entry.archived = true → (f token entry).archived = true) : (pool.change f).Archived token := by
  obtain ⟨entry, hget, harchived⟩ := h
  refine ⟨f token entry, ?_, hf entry harchived⟩
  rw [get_change, hget]
  rfl

theorem Archived.assigns (h : pool.Archived token) (updates : List (String × PoolLiveData)) :
    (updates.foldl assign pool).Archived token := by
  obtain ⟨entry, hget, harchived⟩ := h
  obtain ⟨live, hlive⟩ := get_assigns updates hget
  exact ⟨_, hlive, harchived⟩

theorem Archived.call (h : pool.Archived token) (c : PoolCall) : (pool.call cfg c).Archived token := by
  cases c with
  | register address about now =>
    obtain ⟨entry, hget, harchived⟩ := h
    exact ⟨entry, get_register_of_some hget, harchived⟩
  | archiveAddress address =>
    apply h.change
    intro entry harchived
    split
    · rfl
    · exact harchived
  | refresh inp =>
    apply Archived.assigns
    apply (h.seedFromPrisma inp.rows inp.now).change
    intro entry harchived
    split
    · rfl
    · exact harchived

/-- An archived token stays archived, whatever is called. -/
theorem Archived.after (h : pool.Archived token) (calls : List PoolCall) : (pool.after cfg calls).Archived token := by
  induction calls generalizing pool with
  | nil => exact h
  | cons c calls ih => exact ih (h.call c)

end TokenPool

/-! ## Tokens with a market cap -/

/-- The token is kept: it is in the pool or seeded, not archived, and was captured at most `STALE_HOURS` ago. -/
def Kept (cfg : PoolConfig) (pool : TokenPool) (inp : RefreshInput) (token : String) : Prop :=
  match pool.registry.get token with
  | some entry => entry.archived = false ∧ inp.now - entry.capturedAt ≤ cfg.staleMs
  | none => ∃ row, inp.rows.find? (·.address == token) = some row ∧ inp.now - row.capturedAt ≤ cfg.staleMs

namespace TokenPool

/-- `getLive` gives the token, with a market cap. -/
def Priced (pool : TokenPool) (token : String) : Prop :=
  ∃ entry live, pool.registry.get token = some entry ∧ entry.archived = false ∧ entry.live = some live ∧
    0 < live.marketCapUsd

theorem Priced.not_archived (h : pool.Priced token) : ¬ pool.Archived token := by
  obtain ⟨entry, live, hget, hactive, -⟩ := h
  rintro ⟨entry', hget', harchived⟩
  obtain rfl := Option.some.inj (hget.symm.trans hget')
  cases hactive.symm.trans harchived

/-- A registration brings no market data. -/
theorem priced_register : (pool.register address about now).Priced token ↔ pool.Priced token := by
  cases hget : pool.registry.get token with
  | some entry => rw [Priced, Priced, get_register_of_some hget, hget]
  | none =>
    have hnot : ¬ pool.Priced token := by
      rintro ⟨entry, live, hsome, -⟩
      cases hget.symm.trans hsome
    refine ⟨fun h => ?_, fun h => absurd h hnot⟩
    obtain ⟨entry, live, hsome, -, hlive, -⟩ := h
    unfold register at hsome
    split at hsome
    · cases hget.symm.trans hsome
    · dsimp only at hsome
      rw [KeyValue.get_append, hget, Option.none_or] at hsome
      obtain ⟨-, rfl⟩ := Prod.mk.inj (List.mem_singleton.mp (KeyValue.mem_of_get hsome))
      cases hlive

theorem priced_archiveAddress : (pool.archiveAddress address).Priced token ↔ pool.Priced token ∧ address ≠ token := by
  unfold Priced archiveAddress
  rw [get_change]
  by_cases haddr : token = address
  · subst haddr
    simp only [ne_eq, not_true_eq_false, and_false, iff_false]
    rintro ⟨entry, live, hget, hactive, -⟩
    obtain ⟨entry', -, rfl⟩ := Option.map_eq_some_iff.mp hget
    cases hactive
  · simp only [if_neg haddr, Option.map_id']
    exact ⟨fun h => ⟨h, Ne.symm haddr⟩, fun h => h.1⟩

/-- Between two refreshes a market cap stays, unless the token is archived. -/
theorem priced_after {calls : List PoolCall} (h : ∀ inp, .refresh inp ∉ calls) :
    (pool.after cfg calls).Priced token ↔ pool.Priced token ∧ .archiveAddress token ∉ calls := by
  induction calls generalizing pool with
  | nil => exact ⟨fun hpriced => ⟨hpriced, List.not_mem_nil⟩, fun hpriced => hpriced.1⟩
  | cons c calls ih =>
    have hrest := @ih (pool.call cfg c) fun inp hin => h inp (List.mem_cons_of_mem _ hin)
    refine hrest.trans ?_
    cases c with
    | register address about now =>
      rw [call, priced_register, List.mem_cons, not_or]
      simp
    | archiveAddress address =>
      rw [call, priced_archiveAddress, List.mem_cons, not_or]
      simp only [PoolCall.archiveAddress.injEq, and_assoc, ne_comm, ne_eq]
    | refresh inp => exact absurd List.mem_cons_self (h inp)

theorem get_seedFromPrisma (htoken : token ≠ "") (rows : List SeedRow) (now : ℤ) :
    (pool.seedFromPrisma rows now).registry.get token = (pool.registry.get token).or
      ((rows.find? (·.address == token)).map fun row =>
        .fresh ⟨row.symbol, some row.source, some row.capturedAt⟩ now) := by
  unfold seedFromPrisma
  induction rows generalizing pool with
  | nil => exact (Option.or_none).symm
  | cons row rows ih =>
    rw [List.foldl_cons, ih]
    cases hget : pool.registry.get token with
    | some entry => rw [get_register_of_some hget, Option.some_or, Option.some_or]
    | none =>
      rw [get_register_of_none hget htoken, Option.none_or]
      by_cases haddr : row.address = token
      · rw [if_pos haddr, List.find?_cons_of_pos (by simpa using haddr)]
        rfl
      · rw [if_neg haddr, List.find?_cons_of_neg (by simpa using haddr), Option.none_or]

theorem active_swept_iff :
    (if entry.isStale cfg now then { entry with archived := true } else entry).archived = false ↔
      entry.archived = false ∧ now - entry.capturedAt ≤ cfg.staleMs := by
  by_cases hstale : entry.isStale cfg now = true
  · have hage : ¬ now - entry.capturedAt ≤ cfg.staleMs := not_le.mpr (of_decide_eq_true hstale)
    simp [hstale, hage]
  · have hage : now - entry.capturedAt ≤ cfg.staleMs := by simpa [InternalEntry.isStale] using hstale
    simp [hstale, hage]

/-- A token is kept where the refresh finds it active before it fetches. -/
theorem kept_iff (htoken : token ≠ "") : Kept cfg pool inp token ↔
    ∃ entry, ((pool.seedFromPrisma inp.rows inp.now).archiveStale cfg inp.now).registry.get token = some entry ∧
      entry.archived = false := by
  have hseeded : ∀ found : Option InternalEntry, (∃ entry, found.map (fun entry : InternalEntry =>
      if entry.isStale cfg inp.now then { entry with archived := true } else entry) = some entry ∧
        entry.archived = false) ↔
      ∃ entry, found = some entry ∧ entry.archived = false ∧ inp.now - entry.capturedAt ≤ cfg.staleMs := by
    intro found
    constructor
    · rintro ⟨swept, hmap, hactive⟩
      obtain ⟨entry, rfl, rfl⟩ := Option.map_eq_some_iff.mp hmap
      exact ⟨entry, rfl, active_swept_iff.mp hactive⟩
    · rintro ⟨entry, rfl, hkept⟩
      exact ⟨_, rfl, active_swept_iff.mpr hkept⟩
  unfold archiveStale Kept
  rw [get_change, get_seedFromPrisma htoken, hseeded]
  cases pool.registry.get token with
  | some entry =>
    constructor
    · exact fun hkept => ⟨entry, rfl, hkept⟩
    · rintro ⟨entry', hentry, hkept⟩
      obtain rfl := Option.some.inj hentry
      exact hkept
  | none =>
    constructor
    · rintro ⟨row, hrow, hage⟩
      rw [hrow]
      exact ⟨_, rfl, rfl, hage⟩
    · rintro ⟨entry, hentry, -, hage⟩
      obtain ⟨row, hrow, rfl⟩ := Option.map_eq_some_iff.mp hentry
      exact ⟨row, hrow, hage⟩

theorem mem_active (h : pool.registry.get token = some entry) (hactive : entry.archived = false) :
    token ∈ pool.active := by
  refine List.mem_map.mpr ⟨(token, entry), List.mem_filter.mpr ⟨KeyValue.mem_of_get h, ?_⟩, rfl⟩
  simp [hactive]

/-- An update for the token prices it, and none that comes later takes the price away. -/
theorem Priced.assigns {updates : List (String × PoolLiveData)} (h : pool.registry.get token = some entry)
    (hactive : entry.archived = false) (hpos : ∀ live, (token, live) ∈ updates → 0 < live.marketCapUsd)
    (hone : pool.Priced token ∨ ∃ live, (token, live) ∈ updates) : (updates.foldl assign pool).Priced token := by
  induction updates generalizing pool entry with
  | nil =>
    rcases hone with hpriced | ⟨live, hlive⟩
    · exact hpriced
    · cases hlive
  | cons update updates ih =>
    obtain ⟨addr, live⟩ := update
    rw [List.foldl_cons]
    have hget : (pool.assign (addr, live)).registry.get token =
        some (if token = addr then { entry with live := some live } else entry) := by
      unfold assign
      rw [get_change, h]
      rfl
    have hlater : ∀ live, (token, live) ∈ updates → 0 < live.marketCapUsd :=
      fun live hlive => hpos live (List.mem_cons_of_mem _ hlive)
    by_cases htoken : token = addr
    · subst htoken
      rw [if_pos rfl] at hget
      exact ih hget hactive hlater (.inl ⟨_, live, hget, hactive, rfl, hpos live List.mem_cons_self⟩)
    · rw [if_neg htoken] at hget
      apply ih hget hactive hlater
      rcases hone with ⟨entry', live', hget', hpriced⟩ | ⟨live', hlive⟩
      · obtain rfl := Option.some.inj (h.symm.trans hget')
        exact .inl ⟨entry, live', hget, hpriced⟩
      · rcases List.mem_cons.mp hlive with heq | hlive
        · exact absurd (Prod.mk.inj heq).1 htoken
        · exact .inr ⟨live', hlive⟩

/-- **Live data.** If the source has data for a token, a refresh prices it if and only if the pool keeps it. -/
theorem priced_refresh (hdata : inp.HasData token) : (pool.refresh cfg inp).Priced token ↔ Kept cfg pool inp token := by
  rw [kept_iff hdata.ne_empty]
  unfold refresh
  set swept := (pool.seedFromPrisma inp.rows inp.now).archiveStale cfg inp.now with hswept
  constructor
  · rintro ⟨entry, live, hget, hactive, -⟩
    cases hbefore : swept.registry.get token with
    | none => cases (get_assigns_of_none hbefore).symm.trans hget
    | some entry' =>
      obtain ⟨live', hget'⟩ := get_assigns _ hbefore
      obtain rfl := Option.some.inj (hget'.symm.trans hget)
      exact ⟨entry', rfl, hactive⟩
  · rintro ⟨entry, hget, hactive⟩
    obtain ⟨part, hpart, hmem⟩ := mem_chunk (by decide : 0 < DEX_BATCH) (mem_active hget hactive)
    apply Priced.assigns hget hactive
    · intro live hlive
      obtain ⟨other, hother, hin⟩ := List.mem_flatMap.mp hlive
      exact hdata.positive (length_of_mem_chunk hother) hin
    · obtain ⟨live, hlive⟩ := hdata.fetched (length_of_mem_chunk hpart) hmem
      exact .inr ⟨live, List.mem_flatMap.mpr ⟨part, hpart, hlive⟩⟩

/-- A token that a refresh finds too old is archived for good. -/
theorem archived_of_stale (h : pool.registry.get token = some entry) (hage : cfg.staleMs < inp.now - entry.capturedAt) :
    (pool.refresh cfg inp).Archived token := by
  apply Archived.assigns
  have hseeded : (pool.seedFromPrisma inp.rows inp.now).registry.get token = some entry := get_seedFromPrisma_of_some h
  refine ⟨{ entry with archived := true }, ?_, rfl⟩
  unfold archiveStale
  rw [get_change, hseeded, Option.map_some, InternalEntry.isStale, if_pos (decide_eq_true hage)]

end TokenPool

end SuperAi.HotTokens
