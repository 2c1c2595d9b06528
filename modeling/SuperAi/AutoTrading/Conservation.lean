import SuperAi.AutoTrading.AutoTradeService
import SuperAi.Foundations.SingleUse
import Mathlib.Tactic.Linarith
import Mathlib.Tactic.NormNum
import Mathlib.Algebra.BigOperators.Group.List.Basic

/-! # The book balances

What a user's rows add up to is a ledger of eight numbers, and every transaction is one operation on it. `reset`
deletes the rows in one transaction and sets the portfolio in a later one: what is opened or closed in between is
counted on one side only. While nothing is, the book of every user balances whenever no reset is under way
(`balanced_runs`).
-/
namespace SuperAi.AutoTrading
open SuperAi.Foundations
set_option autoImplicit false

/-! ## Ledgers -/

/-- What the portfolio of a user says, and what the positions and trades add up to. -/
structure Ledger where
  balance : ℚ
  realized : ℚ
  totalTrades : ℕ
  wins : ℕ
  losses : ℕ
  openUsd : ℚ
  bookedPnl : ℚ
  trades : ℕ
  deriving DecidableEq

namespace Ledger

structure Balanced (l : Ledger) : Prop where
  cash : l.balance + l.openUsd - l.realized = 100000
  pnl : l.realized = l.bookedPnl
  counted : l.wins + l.losses = l.totalTrades
  rows : l.totalTrades = l.trades

def Cleared (l : Ledger) : Prop := l.openUsd = 0 ∧ l.bookedPnl = 0 ∧ l.trades = 0

def opened (l : Ledger) (sizeUsd : ℚ) : Ledger :=
  { l with balance := l.balance - sizeUsd, openUsd := l.openUsd + sizeUsd }

def closed (l : Ledger) (sizeUsd pnlUsd : ℚ) : Ledger where
  balance := l.balance + (sizeUsd + pnlUsd)
  realized := l.realized + pnlUsd
  totalTrades := l.totalTrades + 1
  wins := l.wins + if 0 < pnlUsd then 1 else 0
  losses := l.losses + if 0 < pnlUsd then 0 else 1
  openUsd := l.openUsd - sizeUsd
  bookedPnl := l.bookedPnl + pnlUsd
  trades := l.trades + 1

def cleared (l : Ledger) : Ledger := { l with openUsd := 0, bookedPnl := 0, trades := 0 }

def restarted (l : Ledger) : Ledger :=
  { l with balance := 100000, realized := 0, totalTrades := 0, wins := 0, losses := 0 }

variable {l : Ledger}

theorem Balanced.opened (h : l.Balanced) (sizeUsd : ℚ) : (l.opened sizeUsd).Balanced where
  cash := by
    have hcash := h.cash
    simp only [Ledger.opened]
    linarith
  pnl := h.pnl
  counted := h.counted
  rows := h.rows

theorem Balanced.closed (h : l.Balanced) (sizeUsd pnlUsd : ℚ) : (l.closed sizeUsd pnlUsd).Balanced where
  cash := by
    have hcash := h.cash
    simp only [Ledger.closed]
    linarith
  pnl := congrArg (· + pnlUsd) h.pnl
  counted := by
    have hcounted := h.counted
    simp only [Ledger.closed]
    by_cases hwin : 0 < pnlUsd
    · rw [if_pos hwin, if_pos hwin]
      omega
    · rw [if_neg hwin, if_neg hwin]
      omega
  rows := congrArg (· + 1) h.rows

theorem Cleared.restarted (h : l.Cleared) : l.restarted.Balanced := by
  obtain ⟨hopen, hbooked, htrades⟩ := h
  constructor
  · simp [Ledger.restarted, hopen]
  · exact hbooked.symm
  · rfl
  · exact htrades.symm

end Ledger

/-! ## The ledger of a user -/

def openUsd (rows : List AutoPosition) (userId : String) : ℚ :=
  ((rows.filter fun p => p.userId = userId).map AutoPosition.sizeUsd).sum

def bookedPnl (trades : List AutoTrade) (userId : String) : ℚ :=
  ((trades.filter fun t => t.userId = userId).map AutoTrade.pnlUsd).sum

namespace AutoBook

/-- The portfolio of a user, or the one that would be created. -/
def portfolioOf (b : AutoBook) (userId : String) : AutoPortfolio := (b.portfolios.get userId).getD { resetAt := 0 }

def ledger (b : AutoBook) (userId : String) : Ledger where
  balance := (b.portfolioOf userId).currentBalanceUsd
  realized := (b.portfolioOf userId).realizedPnlUsd
  totalTrades := (b.portfolioOf userId).totalTrades
  wins := (b.portfolioOf userId).winCount
  losses := (b.portfolioOf userId).lossCount
  openUsd := AutoTrading.openUsd b.positions.rows userId
  bookedPnl := AutoTrading.bookedPnl b.trades userId
  trades := b.trades.countP fun t => t.userId = userId

end AutoBook

section Sums
variable (rows : List AutoPosition) (trades : List AutoTrade) (userId : String)

theorem openUsd_cons (p : AutoPosition) :
    openUsd (p :: rows) userId = openUsd rows userId + if p.userId = userId then p.sizeUsd else 0 := by
  by_cases h : p.userId = userId
  · simp [openUsd, h, add_comm]
  · simp [openUsd, h]

/-- Rows with distinct ids are one of them and those with another id. -/
theorem openUsd_delete {rows : List AutoPosition} (hnodup : (rows.map AutoPosition.id).Nodup) {p : AutoPosition}
    (hp : p ∈ rows) :
    openUsd (rows.filter fun q => q.id ≠ p.id) userId =
      openUsd rows userId - if p.userId = userId then p.sizeUsd else 0 := by
  have hfilter : (rows.filter fun q => q.id ≠ p.id) = rows.erase p := by
    rw [(List.Nodup.of_map _ hnodup).erase_eq_filter]
    apply List.filter_congr
    intro q hq
    by_cases heq : q = p
    · simp [heq]
    · have hid : q.id ≠ p.id := fun hid => heq (List.inj_on_of_nodup_map hnodup hq hp hid)
      simp [heq, hid]
  have hperm : rows.Perm (p :: rows.erase p) := List.perm_cons_erase hp
  have hsum : openUsd rows userId = openUsd (p :: rows.erase p) userId := ((hperm.filter _).map _).sum_eq
  rw [hfilter, hsum, openUsd_cons, add_sub_cancel_right]

theorem openUsd_deleteUser (other : String) :
    openUsd (rows.filter fun p => p.userId ≠ other) userId = if userId = other then 0 else openUsd rows userId := by
  unfold openUsd
  rw [List.filter_filter]
  by_cases h : userId = other
  · rw [if_pos h, List.filter_eq_nil_iff.mpr]
    · rfl
    · intro p _
      simp [h]
  · rw [if_neg h]
    congr 2
    apply List.filter_congr
    intro p _
    by_cases hp : p.userId = userId
    · simp [hp, h]
    · simp [hp]

theorem bookedPnl_append (t : AutoTrade) :
    bookedPnl (trades ++ [t]) userId = bookedPnl trades userId + if t.userId = userId then t.pnlUsd else 0 := by
  by_cases h : t.userId = userId
  · simp [bookedPnl, List.filter_append, h]
  · simp [bookedPnl, List.filter_append, h]

theorem bookedPnl_deleteUser (other : String) :
    bookedPnl (trades.filter fun t => t.userId ≠ other) userId =
      if userId = other then 0 else bookedPnl trades userId := by
  unfold bookedPnl
  rw [List.filter_filter]
  by_cases h : userId = other
  · rw [if_pos h, List.filter_eq_nil_iff.mpr]
    · rfl
    · intro t _
      simp [h]
  · rw [if_neg h]
    congr 2
    apply List.filter_congr
    intro t _
    by_cases ht : t.userId = userId
    · simp [ht, h]
    · simp [ht]

theorem count_deleteUser (other : String) :
    (trades.filter fun t => t.userId ≠ other).countP (fun t => t.userId = userId) =
      if userId = other then 0 else trades.countP fun t => t.userId = userId := by
  rw [List.countP_filter]
  by_cases h : userId = other
  · rw [if_pos h, List.countP_eq_zero]
    intro t _
    simp [h]
  · rw [if_neg h]
    apply List.countP_congr
    intro t _
    by_cases ht : t.userId = userId
    · simp [ht, h]
    · simp [ht]

end Sums

/-! ## Transactions -/

section Transactions
variable {b b' : AutoBook} {input : OpenAutoPositionInput} {portfolio : AutoPortfolio} {now : ℤ}

theorem portfolioOf_set (userId other : String) (positions : PositionTable) (trades : List AutoTrade) :
    AutoBook.portfolioOf { portfolios := b.portfolios.set userId portfolio, positions, trades } other =
      if other = userId then portfolio else b.portfolioOf other := by
  unfold AutoBook.portfolioOf
  by_cases h : other = userId
  · subst h
    rw [if_pos rfl, KeyValue.get_set_self, Option.getD_some]
  · rw [if_neg h, KeyValue.get_set_of_ne h]

theorem insert_rows {t t' : PositionTable} (h : t.insert input portfolio now = some t') :
    t'.rows = newPosition input portfolio t.nextId now :: t.rows ∧ t'.nextId = t.nextId + 1 := by
  unfold PositionTable.insert at h
  split at h
  · cases h
  · obtain rfl := Option.some.inj h
    exact ⟨rfl, rfl⟩

/-- What `openPosition` commits. -/
theorem openTx_ok (h : b.openTx input portfolio now = .ok b') : ∃ positions fresh,
    b.positions.insert input portfolio now = some positions ∧ b.portfolios.get input.userId = some fresh ∧
      b' = { b with
        positions
        portfolios := b.portfolios.set input.userId
          { fresh with currentBalanceUsd := fresh.currentBalanceUsd - input.sizeUsd } } := by
  unfold AutoBook.openTx at h
  cases hinsert : b.positions.insert input portfolio now with
  | none => simp [hinsert] at h
  | some positions =>
    cases hget : b.portfolios.get input.userId with
    | none => simp [hinsert, hget] at h
    | some fresh =>
      simp only [hinsert, hget, Except.ok.injEq] at h
      exact ⟨positions, fresh, rfl, rfl, h.symm⟩

/-- What `closePosition` commits. -/
theorem closeTx_ok {position : AutoPosition} {trade : AutoTrade} (h : b.closeTx position trade now = .ok b') :
    ∃ portfolio, (b.positions.find position.id).isSome = true ∧ b.portfolios.get position.userId = some portfolio ∧
      b' =
        { trades := b.trades ++ [trade]
          positions := b.positions.keep fun p => p.id ≠ position.id
          portfolios := b.portfolios.set position.userId (AutoBook.book portfolio trade now) } := by
  unfold AutoBook.closeTx PositionTable.delete at h
  by_cases hfind : (b.positions.find position.id).isSome = true
  · cases hget : b.portfolios.get position.userId with
    | none => simp [hfind, hget] at h
    | some portfolio =>
      simp only [hfind, hget, if_true, Except.ok.injEq] at h
      exact ⟨portfolio, hfind, rfl, h.symm⟩
  · simp [hfind] at h

theorem portfolioOf_eq {userId : String} {p : AutoPortfolio} (h : b.portfolios.get userId = some p) :
    b.portfolioOf userId = p := by
  rw [AutoBook.portfolioOf, h, Option.getD_some]

theorem ledger_openTx (h : b.openTx input portfolio now = .ok b') (userId : String) :
    b'.ledger userId = if userId = input.userId then (b.ledger userId).opened input.sizeUsd else b.ledger userId := by
  obtain ⟨positions, fresh, hinsert, hget, rfl⟩ := openTx_ok h
  have hrows := (insert_rows hinsert).1
  by_cases hu : userId = input.userId
  · subst hu
    rw [if_pos rfl]
    simp [AutoBook.ledger, Ledger.opened, portfolioOf_set, portfolioOf_eq hget, hrows, openUsd_cons, newPosition]
  · have hne : input.userId ≠ userId := Ne.symm hu
    rw [if_neg hu]
    simp [AutoBook.ledger, portfolioOf_set, hu, hne, hrows, openUsd_cons, newPosition]

theorem ledger_closeTx {position : AutoPosition} {decision : CloseDecision} {read : ℤ}
    (h : b.closeTx position (closedTrade position decision read) now = .ok b') (hmem : position ∈ b.positions.rows)
    (userId : String) :
    b'.ledger userId = if userId = position.userId
      then (b.ledger userId).closed position.sizeUsd (closedTrade position decision read).pnlUsd
      else b.ledger userId := by
  obtain ⟨portfolio, -, hget, rfl⟩ := closeTx_ok h
  have hopen := openUsd_delete userId b.positions.nodup hmem
  by_cases hu : userId = position.userId
  · subst hu
    rw [if_pos rfl] at hopen
    rw [if_pos rfl]
    simp only [AutoBook.ledger, Ledger.closed, portfolioOf_set, if_true, portfolioOf_eq hget, AutoBook.book,
      PositionTable.keep, hopen, bookedPnl_append, List.countP_append, AutoTrade.isWin, closedTrade]
    simp
  · have hne : position.userId ≠ userId := Ne.symm hu
    rw [if_neg hne] at hopen
    rw [if_neg hu]
    simp only [AutoBook.ledger, portfolioOf_set, if_neg hu, PositionTable.keep, hopen, bookedPnl_append,
      List.countP_append, closedTrade]
    simp [hne]

theorem ledger_resetTx (other userId : String) :
    (b.resetTx other).ledger userId = if userId = other then (b.ledger userId).cleared else b.ledger userId := by
  have hopen := openUsd_deleteUser b.positions.rows userId other
  have hbooked := bookedPnl_deleteUser b.trades userId other
  have hcount := count_deleteUser b.trades userId other
  have hportfolio : (b.resetTx other).portfolioOf userId = b.portfolioOf userId := rfl
  simp only [AutoBook.ledger, hportfolio]
  simp only [AutoBook.resetTx, PositionTable.deleteUser, PositionTable.keep, hopen, hbooked, hcount]
  by_cases hu : userId = other
  · rw [if_pos hu, if_pos hu, if_pos hu, if_pos hu]
    rfl
  · rw [if_neg hu, if_neg hu, if_neg hu, if_neg hu]

theorem ledger_resetPortfolio (other userId : String) :
    (b.resetPortfolio other now).ledger userId =
      if userId = other then (b.ledger userId).restarted else b.ledger userId := by
  unfold AutoBook.resetPortfolio
  by_cases hu : userId = other
  · rw [if_pos hu]
    simp only [AutoBook.ledger, portfolioOf_set, if_pos hu, Ledger.restarted]
    cases b.portfolios.get other with
    | none => rfl
    | some portfolio => rfl
  · rw [if_neg hu]
    simp only [AutoBook.ledger, portfolioOf_set, if_neg hu]

theorem ledger_createPortfolio {userId : String} (h : b.createPortfolio userId now = some (portfolio, b'))
    (other : String) : b'.ledger other = b.ledger other := by
  unfold AutoBook.createPortfolio at h
  by_cases hsome : (b.portfolios.get userId).isSome = true
  · rw [if_pos hsome] at h
    cases h
  · rw [if_neg hsome] at h
    obtain ⟨rfl, rfl⟩ := Prod.mk.inj (Option.some.inj h)
    have hnone : b.portfolios.get userId = none := Option.not_isSome_iff_eq_none.mp hsome
    simp only [AutoBook.ledger, portfolioOf_set]
    by_cases hother : other = userId
    · rw [if_pos hother]
      simp [AutoBook.portfolioOf, hother, hnone]
    · rw [if_neg hother]

theorem createPortfolio_positions {userId : String} (h : b.createPortfolio userId now = some (portfolio, b')) :
    b'.positions = b.positions := by
  unfold AutoBook.createPortfolio at h
  by_cases hsome : (b.portfolios.get userId).isSome = true
  · rw [if_pos hsome] at h
    cases h
  · rw [if_neg hsome] at h
    obtain ⟨-, rfl⟩ := Prod.mk.inj (Option.some.inj h)
    rfl

end Transactions

/-! ## Runs -/

def AutoDesk.Quiescent (s : AutoDesk) : Prop := ∀ call ∈ s.calls, call.over = true

instance (s : AutoDesk) : Decidable s.Quiescent := inferInstanceAs (Decidable (∀ call ∈ s.calls, call.over = true))

/-- No position of a user is opened or closed while a reset of the user has only deleted the rows. -/
def NoTradeInReset (s : AutoDesk) : AutoStep → Prop
  | .advance i now =>
    match s.calls[i]? with
    | some (.openTx input portfolio) =>
      (s.book.openTx input portfolio now).toOption.isSome = true → .resetPortfolio input.userId ∉ s.calls
    | some (.closeTx position trade) =>
      (s.book.closeTx position trade now).toOption.isSome = true → .resetPortfolio position.userId ∉ s.calls
    | _ => True
  | _ => True

instance (s : AutoDesk) (e : AutoStep) : Decidable (NoTradeInReset s e) := by
  unfold NoTradeInReset
  cases e with
  | advance i now =>
    dsimp only
    split
    · infer_instance
    · infer_instance
    · infer_instance
  | _ => exact isTrue trivial

/-- The user whose portfolio a reset has still to set. -/
def AutoCall.resets : AutoCall → Option String
  | .resetPortfolio userId => some userId
  | _ => none

theorem ne_resetPortfolio {call : AutoCall} (h : call.resets = none) (userId : String) :
    .resetPortfolio userId ≠ call := by
  rintro rfl
  cases h

/-- What a call that closes has read is the row, as long as there is one. -/
def ReadsRow (positions : PositionTable) : AutoCall → Prop
  | .closeTx position trade => position.id < positions.nextId ∧
      (∀ p ∈ positions.rows, p.id = position.id → p = position) ∧
      ∃ decision now, trade = closedTrade position decision now
  | _ => True

theorem ReadsRow.insert {t t' : PositionTable} {input : OpenAutoPositionInput} {portfolio : AutoPortfolio} {now : ℤ}
    (hinsert : t.insert input portfolio now = some t') {call : AutoCall} (h : ReadsRow t call) : ReadsRow t' call := by
  obtain ⟨hrows, hid⟩ := insert_rows hinsert
  cases call with
  | closeTx position trade =>
    obtain ⟨hlt, hrow, hclosed⟩ := h
    refine ⟨by omega, fun p hp heq => ?_, hclosed⟩
    rw [hrows] at hp
    obtain rfl | hp := List.mem_cons.mp hp
    · change t.nextId = position.id at heq
      omega
    · exact hrow p hp heq
  | _ => trivial

theorem ReadsRow.keep {t : PositionTable} {call : AutoCall} (h : ReadsRow t call) (keeps : AutoPosition → Bool) :
    ReadsRow (t.keep keeps) call := by
  cases call with
  | closeTx position trade =>
    obtain ⟨hlt, hrow, hclosed⟩ := h
    exact ⟨hlt, fun p hp => hrow p (List.mem_of_mem_filter hp), hclosed⟩
  | _ => trivial

structure Booked (s : AutoDesk) : Prop where
  balanced : ∀ userId, .resetPortfolio userId ∉ s.calls → (s.book.ledger userId).Balanced
  cleared : ∀ userId, .resetPortfolio userId ∈ s.calls → (s.book.ledger userId).Cleared
  reads : ∀ call ∈ s.calls, ReadsRow s.book.positions call

namespace Booked
variable {s s' : AutoDesk}

theorem initial : Booked {} where
  balanced userId _ := by
    constructor
    · simp [AutoBook.ledger, AutoBook.portfolioOf, openUsd]
    · simp [AutoBook.ledger, AutoBook.portfolioOf, bookedPnl]
    · rfl
    · rfl
  cleared userId h := absurd h List.not_mem_nil
  reads call h := absurd h List.not_mem_nil

theorem start (h : Booked s) {call : AutoCall} (hreset : call.resets = none)
    (hreads : ReadsRow s.book.positions call) : Booked { s with calls := s.calls ++ [call] } where
  balanced userId hnot := h.balanced userId fun hmem => hnot (List.mem_append_left _ hmem)
  cleared userId hmem := by
    obtain hold | hnew := List.mem_append.mp hmem
    · exact h.cleared userId hold
    · exact absurd (List.mem_singleton.mp hnew) (ne_resetPortfolio hreset userId)
  reads := List.forall_mem_append.mpr ⟨h.reads, List.forall_mem_singleton.mpr hreads⟩

/-- A call that leaves the books goes on. -/
theorem moveOn (h : Booked s) {i : ℕ} {call next : AutoCall} {book : AutoBook} (hcall : s.calls[i]? = some call)
    (hold : call.resets = none) (hnew : next.resets = none)
    (hledger : ∀ userId, book.ledger userId = s.book.ledger userId) (hpositions : book.positions = s.book.positions)
    (hreads : ReadsRow s.book.positions next) : Booked { book, calls := s.calls.set i next } where
  balanced userId hnot := by
    rw [hledger]
    apply h.balanced userId
    intro hmem
    exact hnot ((mem_set_iff hcall (ne_resetPortfolio hold userId) (ne_resetPortfolio hnew userId)).mpr hmem)
  cleared userId hmem := by
    rw [hledger]
    exact h.cleared userId
      ((mem_set_iff hcall (ne_resetPortfolio hold userId) (ne_resetPortfolio hnew userId)).mp hmem)
  reads := by
    dsimp only
    rw [hpositions]
    exact forall_mem_set h.reads hreads i

theorem commitOpen (h : Booked s) {i : ℕ} {input : OpenAutoPositionInput} {portfolio : AutoPortfolio} {now : ℤ}
    {book : AutoBook} (hcall : s.calls[i]? = some (.openTx input portfolio))
    (htx : s.book.openTx input portfolio now = .ok book) (hguard : .resetPortfolio input.userId ∉ s.calls)
    (position : Option AutoPosition) : Booked { book, calls := s.calls.set i (.opened position) } := by
  have hmem (userId : String) : .resetPortfolio userId ∈ s.calls.set i (.opened position) ↔
      .resetPortfolio userId ∈ s.calls :=
    mem_set_iff hcall (ne_resetPortfolio rfl userId) (ne_resetPortfolio rfl userId)
  constructor
  · intro userId hnot
    have hbalanced := h.balanced userId fun hold => hnot ((hmem userId).mpr hold)
    dsimp only
    rw [ledger_openTx htx]
    by_cases hu : userId = input.userId
    · rw [if_pos hu]
      exact hbalanced.opened input.sizeUsd
    · rw [if_neg hu]
      exact hbalanced
  · intro userId hreset
    have hold := (hmem userId).mp hreset
    have hne : userId ≠ input.userId := by
      rintro rfl
      exact hguard hold
    dsimp only
    rw [ledger_openTx htx, if_neg hne]
    exact h.cleared userId hold
  · obtain ⟨positions, fresh, hinsert, -, rfl⟩ := openTx_ok htx
    exact forall_mem_set (fun call hc => (h.reads call hc).insert hinsert) (by trivial) i

theorem commitClose (h : Booked s) {i : ℕ} {position : AutoPosition} {trade : AutoTrade} {now : ℤ} {book : AutoBook}
    (hcall : s.calls[i]? = some (.closeTx position trade)) (htx : s.book.closeTx position trade now = .ok book)
    (hguard : .resetPortfolio position.userId ∉ s.calls) : Booked { book, calls := s.calls.set i .finished } := by
  have hmem (userId : String) : .resetPortfolio userId ∈ s.calls.set i .finished ↔ .resetPortfolio userId ∈ s.calls :=
    mem_set_iff hcall (ne_resetPortfolio rfl userId) (ne_resetPortfolio rfl userId)
  obtain ⟨hlt, hrow, decision, read, rfl⟩ := h.reads _ (List.mem_of_getElem? hcall)
  have hposition : position ∈ s.book.positions.rows := by
    obtain ⟨portfolio, hfind, -⟩ := closeTx_ok htx
    obtain ⟨p, hp⟩ := Option.isSome_iff_exists.mp hfind
    have hid : p.id = position.id := by simpa using List.find?_some hp
    rw [← hrow p (List.mem_of_find?_eq_some hp) hid]
    exact List.mem_of_find?_eq_some hp
  constructor
  · intro userId hnot
    have hbalanced := h.balanced userId fun hold => hnot ((hmem userId).mpr hold)
    dsimp only
    rw [ledger_closeTx htx hposition]
    by_cases hu : userId = position.userId
    · rw [if_pos hu]
      exact hbalanced.closed _ _
    · rw [if_neg hu]
      exact hbalanced
  · intro userId hreset
    have hold := (hmem userId).mp hreset
    have hne : userId ≠ position.userId := by
      rintro rfl
      exact hguard hold
    dsimp only
    rw [ledger_closeTx htx hposition, if_neg hne]
    exact h.cleared userId hold
  · obtain ⟨portfolio, -, -, rfl⟩ := closeTx_ok htx
    exact forall_mem_set (fun call hc => (h.reads call hc).keep _) (by trivial) i

theorem deleteRows (h : Booked s) {i : ℕ} {userId : String} (hcall : s.calls[i]? = some (.resetTx userId)) :
    Booked { book := s.book.resetTx userId, calls := s.calls.set i (.resetPortfolio userId) } := by
  have hmem {other : String} (hne : other ≠ userId) :
      .resetPortfolio other ∈ s.calls.set i (.resetPortfolio userId) ↔ .resetPortfolio other ∈ s.calls :=
    mem_set_iff hcall (ne_resetPortfolio rfl other) fun heq => hne (AutoCall.resetPortfolio.inj heq)
  constructor
  · intro other hnot
    have hne : other ≠ userId := by
      rintro rfl
      exact hnot (List.mem_set (List.getElem?_eq_some_iff.mp hcall).1 _)
    dsimp only
    rw [ledger_resetTx, if_neg hne]
    exact h.balanced other fun hold => hnot ((hmem hne).mpr hold)
  · intro other hreset
    dsimp only
    rw [ledger_resetTx]
    by_cases hne : other = userId
    · rw [if_pos hne]
      exact ⟨rfl, rfl, rfl⟩
    · rw [if_neg hne]
      exact h.cleared other ((hmem hne).mp hreset)
  · exact forall_mem_set (fun call hc => (h.reads call hc).keep _) (by trivial) i

theorem setPortfolio (h : Booked s) {i : ℕ} {userId : String} {now : ℤ}
    (hcall : s.calls[i]? = some (.resetPortfolio userId)) :
    Booked { book := s.book.resetPortfolio userId now, calls := s.calls.set i .finished } := by
  have hcleared := h.cleared userId (List.mem_of_getElem? hcall)
  have hmem {other : String} (hne : other ≠ userId) :
      .resetPortfolio other ∈ s.calls.set i .finished ↔ .resetPortfolio other ∈ s.calls :=
    mem_set_iff hcall (fun heq => hne (AutoCall.resetPortfolio.inj heq)) (ne_resetPortfolio rfl other)
  constructor
  · intro other hnot
    dsimp only
    rw [ledger_resetPortfolio]
    by_cases hne : other = userId
    · rw [if_pos hne, hne]
      exact hcleared.restarted
    · rw [if_neg hne]
      exact h.balanced other fun hold => hnot ((hmem hne).mpr hold)
  · intro other hreset
    dsimp only
    rw [ledger_resetPortfolio]
    by_cases hne : other = userId
    · rw [if_pos hne, hne]
      exact hcleared
    · rw [if_neg hne]
      exact h.cleared other ((hmem hne).mp hreset)
  · exact forall_mem_set h.reads (by trivial) i

theorem guardBalance_spec (input : OpenAutoPositionInput) (portfolio : AutoPortfolio) (positions : PositionTable) :
    (guardBalance input portfolio).resets = none ∧
      ReadsRow positions (guardBalance input portfolio) := by
  unfold guardBalance
  by_cases hlow : portfolio.currentBalanceUsd < input.sizeUsd
  · rw [if_pos hlow]
    exact ⟨rfl, by trivial⟩
  · rw [if_neg hlow]
    exact ⟨rfl, by trivial⟩

theorem reads_find {positions : PositionTable} {id : ℕ} {position : AutoPosition}
    (hfind : positions.find id = some position) (decision : CloseDecision) (now : ℤ) :
    ReadsRow positions (.closeTx position (closedTrade position decision now)) := by
  have hmem := List.mem_of_find?_eq_some hfind
  refine ⟨positions.fresh position hmem, fun p hp hid => ?_, decision, now, rfl⟩
  exact List.inj_on_of_nodup_map positions.nodup hp hmem hid

theorem advance (h : Booked s) {i : ℕ} {now : ℤ} {call next : AutoCall} {book : AutoBook}
    (hcall : s.calls[i]? = some call) (hguard : NoTradeInReset s (.advance i now))
    (hstep : call.advance s.book now = some (book, next)) : Booked { book, calls := s.calls.set i next } := by
  unfold NoTradeInReset at hguard
  dsimp only at hguard
  rw [hcall] at hguard
  cases call with
  | findPortfolio input =>
    simp only [AutoCall.advance] at hstep
    cases hget : s.book.portfolios.get input.userId with
    | some portfolio =>
      rw [hget] at hstep
      obtain ⟨rfl, rfl⟩ := Prod.mk.inj (Option.some.inj hstep)
      obtain ⟨hreset, hreads⟩ := guardBalance_spec input portfolio s.book.positions
      exact h.moveOn hcall rfl hreset (fun _ => rfl) rfl hreads
    | none =>
      rw [hget] at hstep
      obtain ⟨rfl, rfl⟩ := Prod.mk.inj (Option.some.inj hstep)
      exact h.moveOn hcall rfl rfl (fun _ => rfl) rfl (by trivial)
  | createPortfolio input =>
    simp only [AutoCall.advance] at hstep
    cases hcreate : s.book.createPortfolio input.userId now with
    | some created =>
      obtain ⟨portfolio, created⟩ := created
      rw [hcreate] at hstep
      obtain ⟨rfl, rfl⟩ := Prod.mk.inj (Option.some.inj hstep)
      obtain ⟨hreset, hreads⟩ := guardBalance_spec input portfolio s.book.positions
      exact h.moveOn hcall rfl hreset (ledger_createPortfolio hcreate)
        (createPortfolio_positions hcreate) hreads
    | none =>
      rw [hcreate] at hstep
      obtain ⟨rfl, rfl⟩ := Prod.mk.inj (Option.some.inj hstep)
      exact h.moveOn hcall rfl rfl (fun _ => rfl) rfl (by trivial)
  | openTx input portfolio =>
    simp only [AutoCall.advance] at hstep
    cases htx : s.book.openTx input portfolio now with
    | ok committed =>
      rw [htx] at hstep
      obtain ⟨rfl, rfl⟩ := Prod.mk.inj (Option.some.inj hstep)
      exact h.commitOpen hcall htx (hguard (by rw [htx]; rfl)) _
    | error e =>
      rw [htx] at hstep
      cases e with
      | uniqueViolation =>
        obtain ⟨rfl, rfl⟩ := Prod.mk.inj (Option.some.inj hstep)
        exact h.moveOn hcall rfl rfl (fun _ => rfl) rfl (by trivial)
      | recordNotFound =>
        obtain ⟨rfl, rfl⟩ := Prod.mk.inj (Option.some.inj hstep)
        exact h.moveOn hcall rfl rfl (fun _ => rfl) rfl (by trivial)
  | findExisting input =>
    obtain ⟨rfl, rfl⟩ := Prod.mk.inj (Option.some.inj hstep)
    exact h.moveOn hcall rfl rfl (fun _ => rfl) rfl (by trivial)
  | findPosition id decision =>
    simp only [AutoCall.advance] at hstep
    cases hfind : s.book.positions.find id with
    | some position =>
      rw [hfind] at hstep
      obtain ⟨rfl, rfl⟩ := Prod.mk.inj (Option.some.inj hstep)
      exact h.moveOn hcall rfl rfl (fun _ => rfl) rfl
        (reads_find hfind decision now)
    | none =>
      rw [hfind] at hstep
      obtain ⟨rfl, rfl⟩ := Prod.mk.inj (Option.some.inj hstep)
      exact h.moveOn hcall rfl rfl (fun _ => rfl) rfl (by trivial)
  | closeTx position trade =>
    simp only [AutoCall.advance] at hstep
    cases htx : s.book.closeTx position trade now with
    | ok committed =>
      rw [htx] at hstep
      obtain ⟨rfl, rfl⟩ := Prod.mk.inj (Option.some.inj hstep)
      exact h.commitClose hcall htx (hguard (by rw [htx]; rfl))
    | error e =>
      rw [htx] at hstep
      obtain ⟨rfl, rfl⟩ := Prod.mk.inj (Option.some.inj hstep)
      exact h.moveOn hcall rfl rfl (fun _ => rfl) rfl (by trivial)
  | resetTx userId =>
    obtain ⟨rfl, rfl⟩ := Prod.mk.inj (Option.some.inj hstep)
    exact h.deleteRows hcall
  | resetPortfolio userId =>
    obtain ⟨rfl, rfl⟩ := Prod.mk.inj (Option.some.inj hstep)
    exact h.setPortfolio hcall
  | opened position => cases hstep
  | finished => cases hstep
  | failed => cases hstep

theorem step (h : Booked s) {e : AutoStep} (hguard : NoTradeInReset s e) (hstep : autoTrade.step s e = some s') :
    Booked s' := by
  cases e with
  | openPosition input =>
    obtain rfl := Option.some.inj hstep
    by_cases hinput : input.entryPriceUsd ≤ 0 ∨ input.sizeUsd ≤ 0
    · have hstart : startOpen input = .opened none := if_pos hinput
      rw [hstart]
      exact h.start rfl (by trivial)
    · have hstart : startOpen input = .findPortfolio input := if_neg hinput
      rw [hstart]
      exact h.start rfl (by trivial)
  | closePosition id decision =>
    obtain rfl := Option.some.inj hstep
    exact h.start rfl (by trivial)
  | reset userId =>
    obtain rfl := Option.some.inj hstep
    exact h.start rfl (by trivial)
  | advance i now =>
    obtain ⟨call, hcall, hnext⟩ := Option.bind_eq_some_iff.mp hstep
    obtain ⟨⟨book, next⟩, hadvance, rfl⟩ := Option.map_eq_some_iff.mp hnext
    exact h.advance hcall hguard hadvance

end Booked

/-- The book of every user balances in the quiescent states of a run in which nothing is opened or closed between
the two parts of a reset. -/
theorem balanced_runs {es : List AutoStep} {s : AutoDesk} (hrun : autoTrade.GuardedRun NoTradeInReset {} es s)
    (hquiescent : s.Quiescent) (userId : String) : (s.book.ledger userId).Balanced := by
  have hbooked : Booked s := hrun.invariant (fun _ _ _ h hguard hstep => h.step hguard hstep) .initial
  apply hbooked.balanced
  intro hmem
  cases hquiescent _ hmem

/-! ## Two runs -/

def sampleOpen : OpenAutoPositionInput :=
  { userId := "ann", tokenAddress := "mint", entryPriceUsd := 2, sizeUsd := 100 }

/-- Two calls open the same token, two close the position, and the book is reset. -/
def tradedAndReset : List AutoStep :=
  [.openPosition sampleOpen, .openPosition sampleOpen, .advance 0 0, .advance 0 0, .advance 1 0, .advance 0 1,
    .advance 1 1, .advance 1 1, .closePosition 0 ⟨.TP1, 3⟩, .closePosition 0 ⟨.MANUAL, 4⟩, .advance 2 2, .advance 3 2,
    .advance 2 3, .advance 3 3, .reset "ann", .advance 4 4, .advance 4 4]

theorem tradedAndReset_balanced : ∃ s, autoTrade.run {} tradedAndReset = some s ∧ s.Quiescent ∧
    (s.book.ledger "ann").Balanced := by
  have hany : (autoTrade.guardedRun NoTradeInReset {} tradedAndReset).any (fun s => decide s.Quiescent) = true := by
    decide +kernel
  obtain ⟨s, hs, hquiescent⟩ := (Option.any_eq_true _ _).mp hany
  have hrun := StepSystem.GuardedRun.of_guardedRun hs
  have hq : s.Quiescent := of_decide_eq_true hquiescent
  exact ⟨s, hrun.run, hq, balanced_runs hrun hq "ann"⟩

/-- A position is opened when the rows have been deleted and the portfolio is still to be set. -/
def openedInReset : List AutoStep :=
  [.openPosition sampleOpen, .advance 0 0, .advance 0 0, .reset "ann", .advance 1 1, .advance 0 2, .advance 1 3]

/-- The position is there, and its price is not taken off the balance. -/
theorem openedInReset_unbalanced : ¬ ∀ (es : List AutoStep) (s : AutoDesk), autoTrade.run {} es = some s →
    s.Quiescent → ∀ userId, (s.book.ledger userId).Balanced := by
  intro h
  have hany : (autoTrade.run {} openedInReset).any (fun s => decide s.Quiescent &&
      decide ((s.book.ledger "ann").balance + (s.book.ledger "ann").openUsd - (s.book.ledger "ann").realized =
        100100)) = true := by decide +kernel
  obtain ⟨s, hs, hfinal⟩ := (Option.any_eq_true _ _).mp hany
  simp only [Bool.and_eq_true, decide_eq_true_eq] at hfinal
  have hcash := (h _ s hs hfinal.1 "ann").cash
  rw [hfinal.2] at hcash
  norm_num at hcash

end SuperAi.AutoTrading
